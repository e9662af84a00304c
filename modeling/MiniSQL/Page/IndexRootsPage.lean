import MiniSQL.Common.Config
import MiniSQL.Lib.Directory

/-!
# IndexRootsPage — the root pages of the indexes

`page/index_roots_page.h` and `page/index_roots_page.cpp`.  The page is a counter followed by pairs
of an index id and a root page id.  `count_` is an `int`, which never is negative here.  The pairs
below the counter are a `Directory`, so every history of calls keeps a map from index ids to root
page ids (`roots_refine_map`).
-/

namespace MiniSQL
namespace IndexRootsPage

open Lib

/-! ## The model -/

/-- `(PAGE_SIZE - 4) / 8`. -/
abbrev MAX_INDEX_COUNT : Nat := 511

example : MAX_INDEX_COUNT = (PAGE_SIZE - 4) / 8 :=
  rfl

/-- `count_`, also what `GetIndexCount` returns. -/
def count (m : Mem) : Nat :=
  m.u32 0

def setCount (m : Mem) (n : Nat) : Mem :=
  m.setU32 0 n

/-- `roots_[i]`. -/
def root (m : Mem) (i : Nat) : UInt32 × PageId :=
  (UInt32.ofNat (m.u32 (4 + 8 * i)), (UInt32.ofNat (m.u32 (8 + 8 * i))).toInt32)

def setRoot (m : Mem) (i : Nat) (e : UInt32 × PageId) : Mem :=
  (m.setU32 (4 + 8 * i) e.1.toNat).setU32 (8 + 8 * i) e.2.toUInt32.toNat

def init (m : Mem) : Mem :=
  setCount m 0

/-- `FindIndex`; -1 is `none`. -/
def findIndex (m : Mem) (indexId : UInt32) : Option Nat :=
  search (fun i => (root m i).1 = indexId) (count m) 0

def insert (m : Mem) (indexId : UInt32) (rootId : PageId) : Bool × Mem :=
  match findIndex m indexId with
  | some _ => (false, m)
  | none =>
    let m₁ := setRoot m (count m) (indexId, rootId)
    (true, setCount m₁ (count m₁ + 1))

/-- The loop of `Delete`, from entry `i` on for `k` entries. -/
def moveUp : Nat → Nat → Mem → Mem
  | 0, _, m => m
  | k + 1, i, m => moveUp k (i + 1) (setRoot m i (root m (i + 1)))

def delete (m : Mem) (indexId : UInt32) : Bool × Mem :=
  match findIndex m indexId with
  | none => (false, m)
  | some i =>
    let m₁ := moveUp (count m - 1 - i) i m
    (true, setCount m₁ (count m₁ - 1))

def update (m : Mem) (indexId : UInt32) (rootId : PageId) : Bool × Mem :=
  match findIndex m indexId with
  | none => (false, m)
  | some i => (true, m.setU32 (8 + 8 * i) rootId.toUInt32.toNat)

/-- `GetRootId`: the root page id, when it returns `true`. -/
def getRootId (m : Mem) (indexId : UInt32) : Option PageId :=
  match findIndex m indexId with
  | none => none
  | some i => some (root m i).2

/-- The calls on the page; `get` is `GetRootId`. -/
abbrev Call := Directory.Request UInt32 PageId

/-- What the call returns and the page after it. -/
def exec (m : Mem) : Call → Bool × Mem
  | .insert indexId rootId => insert m indexId rootId
  | .delete indexId => delete m indexId
  | .update indexId rootId => update m indexId rootId
  | .get indexId => ((getRootId m indexId).isSome, m)

/-! ## The words of the page -/

variable {m m' : Mem} {i j k : Nat} {e : UInt32 × PageId} {indexId : UInt32} {rootId : PageId}

theorem root_congr (h : ∀ a, 4 + 8 * i ≤ a → a < 12 + 8 * i → m' a = m a) :
    root m' i = root m i := by
  have hid : m'.u32 (4 + 8 * i) = m.u32 (4 + 8 * i) :=
    Mem.u32_congr fun a h1 h2 => h a h1 (by omega)
  have hroot : m'.u32 (8 + 8 * i) = m.u32 (8 + 8 * i) :=
    Mem.u32_congr fun a h1 h2 => h a (by omega) (by omega)
  rw [root, root, hid, hroot]

theorem setRoot_apply_outside {a : Nat} (h : a < 4 + 8 * i ∨ 12 + 8 * i ≤ a) :
    setRoot m i e a = m a := by
  rw [setRoot, Mem.setU32_apply_outside (by omega), Mem.setU32_apply_outside (by omega)]

theorem root_setRoot (m : Mem) (i j : Nat) (e : UInt32 × PageId) :
    root (setRoot m i e) j = if j = i then e else root m j := by
  by_cases hji : j = i
  · subst hji
    rw [if_pos rfl, root, setRoot, Mem.u32_setU32_ne (by omega),
      Mem.u32_setU32_of_lt e.1.toNat_lt, Mem.u32_setU32_of_lt e.2.toUInt32.toNat_lt,
      pageId_word, UInt32.ofNat_toNat]
  · rw [if_neg hji]
    exact root_congr fun a h1 h2 => setRoot_apply_outside (by omega)

theorem count_setRoot (m : Mem) (i : Nat) (e : UInt32 × PageId) :
    count (setRoot m i e) = count m :=
  Mem.u32_congr fun a _ h2 => setRoot_apply_outside (by omega)

theorem root_setCount (m : Mem) (n i : Nat) : root (setCount m n) i = root m i :=
  root_congr fun a h1 _ => Mem.setU32_apply_outside (by omega)

theorem count_setCount {n : Nat} (hn : n < 2 ^ 32) : count (setCount m n) = n :=
  Mem.u32_setU32_of_lt hn

theorem count_moveUp (k i : Nat) (m : Mem) : count (moveUp k i m) = count m := by
  induction k generalizing i m with
  | zero =>
      rfl
  | succ k ih =>
      rw [moveUp, ih, count_setRoot]

/-- The loop moves every entry behind `i` up by one place. -/
theorem root_moveUp (k i : Nat) (m : Mem) (j : Nat) :
    root (moveUp k i m) j = if i ≤ j ∧ j < i + k then root m (j + 1) else root m j := by
  induction k generalizing i m with
  | zero =>
      rw [if_neg (by omega)]
      rfl
  | succ k ih =>
      rw [moveUp, ih, root_setRoot, root_setRoot]
      by_cases hij : j = i
      · -- The entry written first; the rest of the loop is behind it.
        subst hij
        rw [if_neg (by omega), if_pos rfl, if_pos (by omega)]
      · by_cases hin : i + 1 ≤ j ∧ j < i + 1 + k
        · rw [if_pos hin, if_neg (by omega), if_pos (by omega)]
        · rw [if_neg hin, if_neg hij, if_neg (by omega)]

/-- `Update` writes the second half of an entry. -/
theorem root_update (m : Mem) (i j : Nat) (rootId : PageId) :
    root (m.setU32 (8 + 8 * i) rootId.toUInt32.toNat) j =
      if j = i then ((root m i).1, rootId) else root m j := by
  by_cases hji : j = i
  · subst hji
    rw [if_pos rfl, root, Mem.u32_setU32_ne (by omega),
      Mem.u32_setU32_of_lt rootId.toUInt32.toNat_lt, pageId_word, root]
  · rw [if_neg hji]
    exact root_congr fun a h1 h2 => Mem.setU32_apply_outside (by omega)

/-! ## The page and the directory -/

/-- The page holds the entries of the directory, in their order. -/
structure Represents (m : Mem) (d : Directory UInt32 PageId) : Prop where
  count_eq : count m = d.entries.length
  root_eq : ∀ i e, d.entries[i]? = some e → root m i = e

variable {d : Directory UInt32 PageId}

theorem init_represents (m : Mem) : Represents (init m) Directory.empty := by
  refine ⟨Mem.u32_setU32_of_lt (by decide), fun i e he => ?_⟩
  cases he

theorem Represents.findIndex (h : Represents m d) (indexId : UInt32) :
    findIndex m indexId = d.find indexId := by
  rw [IndexRootsPage.findIndex, h.count_eq,
    search_eq_findIdx? d.entries (fun e => e.1 = indexId) fun i e he => by
      rw [Nat.zero_add, h.root_eq i e he]]
  cases hfind : d.entries.findIdx? fun e => e.1 = indexId with
  | none =>
      rw [Directory.find, hfind]
      rfl
  | some i =>
      rw [Directory.find, hfind, Option.map_some, Nat.zero_add]

theorem Represents.getRootId (h : Represents m d) (indexId : UInt32) :
    getRootId m indexId = d.get? indexId := by
  rw [IndexRootsPage.getRootId, h.findIndex]
  cases hfind : d.find indexId with
  | none =>
      exact (Directory.find_eq_none.mp hfind).symm
  | some i =>
      rcases Directory.get?_of_find hfind with ⟨v, hi, hget⟩
      simp only [h.root_eq i _ hi, hget]

theorem Represents.push (h : Represents m d) (hnew : d.get? indexId = none)
    (hlen : d.entries.length + 1 < 2 ^ 32) :
    Represents (setCount (setRoot m (count m) (indexId, rootId))
      (count (setRoot m (count m) (indexId, rootId)) + 1)) (d.push indexId rootId hnew) := by
  constructor
  · rw [count_setRoot, h.count_eq, count_setCount hlen, Directory.push, List.length_append]
    rfl
  · intro i e he
    rw [root_setCount, root_setRoot, h.count_eq]
    by_cases hi : i = d.entries.length
    · rw [if_pos hi]
      rw [Directory.push, hi, List.getElem?_append_right (le_refl _), Nat.sub_self] at he
      exact Option.some.inj he
    · rw [if_neg hi]
      have hlt := (List.getElem?_eq_some_iff.mp he).1
      rw [Directory.push, List.length_append, List.length_singleton] at hlt
      rw [Directory.push, List.getElem?_append_left (by omega)] at he
      exact h.root_eq i e he

theorem Represents.eraseAt (h : Represents m d) (hi : i < d.entries.length)
    (hlen : d.entries.length < 2 ^ 32) :
    Represents (setCount (moveUp (count m - 1 - i) i m)
      (count (moveUp (count m - 1 - i) i m) - 1)) (d.eraseAt i) := by
  have hlength : (d.entries.eraseIdx i).length = d.entries.length - 1 :=
    List.length_eraseIdx_of_lt hi
  constructor
  · calc
      count (setCount (moveUp (count m - 1 - i) i m) (count (moveUp (count m - 1 - i) i m) - 1))
          = count (moveUp (count m - 1 - i) i m) - 1 := by
        rw [count_moveUp, h.count_eq, count_setCount (by omega)]
      _ = d.entries.length - 1 := by rw [count_moveUp, h.count_eq]
      _ = (d.entries.eraseIdx i).length := hlength.symm
  · intro j e he
    have hlt := (List.getElem?_eq_some_iff.mp he).1
    rw [Directory.eraseAt, hlength] at hlt
    rw [Directory.eraseAt, List.getElem?_eraseIdx] at he
    rw [root_setCount, root_moveUp, h.count_eq]
    by_cases hji : j < i
    · rw [if_pos hji] at he
      rw [if_neg (by omega)]
      exact h.root_eq j e he
    · rw [if_neg hji] at he
      rw [if_pos (by omega)]
      exact h.root_eq (j + 1) e he

theorem Represents.setAt (h : Represents m d) (hi : i < d.entries.length) :
    Represents (m.setU32 (8 + 8 * i) rootId.toUInt32.toNat) (d.setAt i rootId) := by
  constructor
  · have hcount : count (m.setU32 (8 + 8 * i) rootId.toUInt32.toNat) = count m :=
      Mem.u32_setU32_ne (by omega)
    rw [hcount, h.count_eq, Directory.setAt, List.length_modify]
  · rintro j ⟨id, v⟩ he
    rw [root_update]
    rcases Directory.getElem?_setAt.mp he with ⟨rfl, rfl, w, hw⟩ | ⟨hne, hj⟩
    · rw [if_pos rfl, h.root_eq j _ hw]
    · rw [if_neg hne, h.root_eq j _ hj]

/-! ## Histories -/

variable {call : Call}

/-- The page does with a call what the directory does with it. -/
theorem Represents.exec (h : Represents m d) (hlen : d.entries.length ≤ MAX_INDEX_COUNT)
    (call : Call) :
    (exec m call).1 = (d.serve call).1 ∧ Represents (exec m call).2 (d.serve call).2 ∧
      ((exec m call).1 = false → (exec m call).2 = m) := by
  have hlt : d.entries.length + 1 < 2 ^ 32 := lt_of_le_of_lt (Nat.succ_le_succ hlen) (by decide)
  cases call with
  | insert indexId rootId =>
      rw [IndexRootsPage.exec, IndexRootsPage.insert, h.findIndex, Directory.serve]
      cases hfind : d.find indexId with
      | some i =>
          rcases Directory.get?_of_find hfind with ⟨v, _, hget⟩
          rw [dif_neg (by rw [hget]; exact Option.some_ne_none v)]
          exact ⟨rfl, h, fun _ => rfl⟩
      | none =>
          have hnew := Directory.find_eq_none.mp hfind
          rw [dif_pos hnew]
          exact ⟨rfl, h.push hnew hlt, fun hno => by cases hno⟩
  | delete indexId =>
      rw [IndexRootsPage.exec, IndexRootsPage.delete, h.findIndex, Directory.serve]
      cases hfind : d.find indexId with
      | none =>
          exact ⟨rfl, h, fun _ => rfl⟩
      | some i =>
          rcases Directory.find_eq_some.mp hfind with ⟨v, hi⟩
          have hi' := (List.getElem?_eq_some_iff.mp hi).1
          exact ⟨rfl, h.eraseAt hi' (by omega), fun hno => by cases hno⟩
  | update indexId rootId =>
      rw [IndexRootsPage.exec, IndexRootsPage.update, h.findIndex, Directory.serve]
      cases hfind : d.find indexId with
      | none =>
          exact ⟨rfl, h, fun _ => rfl⟩
      | some i =>
          rcases Directory.find_eq_some.mp hfind with ⟨v, hi⟩
          have hi' := (List.getElem?_eq_some_iff.mp hi).1
          exact ⟨rfl, h.setAt hi', fun hno => by cases hno⟩
  | get indexId =>
      rw [IndexRootsPage.exec, h.getRootId, Directory.serve]
      exact ⟨rfl, h, fun _ => rfl⟩

/-- A call after which the page holds no more than `MAX_INDEX_COUNT` entries. -/
def Step (m : Mem) (call : Call) (m' : Mem) : Prop :=
  m' = (exec m call).2 ∧ count m' ≤ MAX_INDEX_COUNT

/-- The page keeps the map `μ`, in some order of its entries. -/
def Keeps (m : Mem) (μ : UInt32 → Option PageId) : Prop :=
  ∃ d, Represents m d ∧ d.get? = μ ∧ d.entries.length ≤ MAX_INDEX_COUNT

variable {μ : UInt32 → Option PageId}

theorem step_keeps (h : Keeps m μ) (hstep : Step m call m') : Keeps m' (call.apply μ) := by
  rcases h with ⟨d, hrep, rfl, hlen⟩
  rcases hstep with ⟨rfl, hcount⟩
  rcases hrep.exec hlen call with ⟨_, hrep', _⟩
  rw [hrep'.count_eq] at hcount
  exact ⟨(d.serve call).2, hrep', Directory.get?_serve d call, hcount⟩

/-- From an `Init`ed page on, the page keeps the map of the calls made on it. -/
theorem run_keeps {m₀ : Mem} {calls : List Call} (hrun : Run Step (init m₀) calls m) :
    Keeps m (calls.foldl Directory.Request.apply fun _ => none) := by
  refine hrun.simulates (R := Keeps) (g := Directory.Request.apply) ?_ ?_
  · intro s call s' μ h hstep
    exact step_keeps h hstep
  · exact ⟨Directory.empty, init_represents m₀, Directory.get?_empty, by decide⟩

/-- The page is the map `μ`, and every further call behaves as on the map. -/
structure IsMap (m : Mem) (μ : UInt32 → Option PageId) : Prop where
  /-- The first `count_` entries have pairwise distinct index ids. -/
  distinct : ∀ i j, i < count m → j < count m → (root m i).1 = (root m j).1 → i = j
  /-- They are the bindings of the map. -/
  binding : ∀ indexId rootId,
    μ indexId = some rootId ↔ ∃ i, i < count m ∧ root m i = (indexId, rootId)
  insert_true : ∀ indexId rootId, (insert m indexId rootId).1 = true ↔ μ indexId = none
  delete_true : ∀ indexId, (delete m indexId).1 = true ↔ μ indexId ≠ none
  update_true : ∀ indexId rootId, (update m indexId rootId).1 = true ↔ μ indexId ≠ none
  getRootId_eq : ∀ indexId, getRootId m indexId = μ indexId
  /-- A call that returns `false` leaves the page unchanged. -/
  unchanged : ∀ call, (exec m call).1 = false → (exec m call).2 = m

theorem Keeps.exec_fst (h : Keeps m μ) (call : Call) : (exec m call).1 = call.answer μ := by
  rcases h with ⟨d, hrep, rfl, hlen⟩
  rw [(hrep.exec hlen call).1, Directory.serve_fst]

theorem Represents.entry (h : Represents m d) (hi : i < count m) :
    d.entries[i]? = some (root m i) := by
  rw [h.count_eq] at hi
  have hget := List.getElem?_eq_getElem hi
  rw [h.root_eq i _ hget, hget]

theorem Keeps.isMap (h : Keeps m μ) : IsMap m μ where
  distinct := by
    rcases h with ⟨d, hrep, _, _⟩
    intro i j hi hj heq
    have hentry : d.entries[j]? = some ((root m i).1, (root m j).2) := by
      rw [heq]
      exact hrep.entry hj
    exact Directory.index_unique (hrep.entry hi) hentry
  binding := by
    rcases h with ⟨d, hrep, rfl, _⟩
    intro indexId rootId
    rw [Directory.get?_eq_some]
    constructor
    · rintro ⟨i, hi⟩
      refine ⟨i, ?_, hrep.root_eq i _ hi⟩
      rw [hrep.count_eq]
      exact (List.getElem?_eq_some_iff.mp hi).1
    · rintro ⟨i, hi, hroot⟩
      exact ⟨i, by rw [hrep.entry hi, hroot]⟩
  insert_true := by
    intro indexId rootId
    rw [← Option.isNone_iff_eq_none]
    exact iff_of_eq (congrArg (· = true) (h.exec_fst (.insert indexId rootId)))
  delete_true := by
    intro indexId
    rw [← Option.isSome_iff_ne_none]
    exact iff_of_eq (congrArg (· = true) (h.exec_fst (.delete indexId)))
  update_true := by
    intro indexId rootId
    rw [← Option.isSome_iff_ne_none]
    exact iff_of_eq (congrArg (· = true) (h.exec_fst (.update indexId rootId)))
  getRootId_eq := by
    rcases h with ⟨d, hrep, rfl, _⟩
    exact hrep.getRootId
  unchanged := by
    rcases h with ⟨d, hrep, _, hlen⟩
    intro call
    exact (hrep.exec hlen call).2.2

/-- Every history of calls on an `Init`ed page that never holds more than `MAX_INDEX_COUNT` entries
leaves the page with the map of that history. -/
theorem roots_refine_map {m₀ : Mem} {calls : List Call} (hrun : Run Step (init m₀) calls m) :
    IsMap m (calls.foldl Directory.Request.apply fun _ => none) :=
  (run_keeps hrun).isMap

theorem roots_refine_map_deleted :
    let calls : List Call := [.insert 1 10, .insert 2 20, .delete 1]
    let m := calls.foldl (fun m call => (exec m call).2) (init fun _ => 255)
    Run Step (init fun _ => 255) calls m ∧
      IsMap m (calls.foldl Directory.Request.apply fun _ => none) ∧
      getRootId m 2 = some 20 := by
  have hrun : Run Step (init fun _ => 255) [.insert 1 10, .insert 2 20, .delete 1]
      ([.insert 1 10, .insert 2 20, .delete 1].foldl (fun m call => (exec m call).2)
        (init fun _ => 255)) := by
    refine Run.cons ⟨rfl, ?_⟩ (Run.cons ⟨rfl, ?_⟩ (Run.cons ⟨rfl, ?_⟩ (Run.nil _)))
    · decide +kernel
    · decide +kernel
    · decide +kernel
  exact ⟨hrun, roots_refine_map hrun, (roots_refine_map hrun).getRootId_eq 2⟩

end IndexRootsPage
end MiniSQL
