import MiniSQL.Common.Config
import MiniSQL.Lib.Directory

/-!
# HeaderPage — root pages by name

`page/header_page.h` and `page/header_page.cpp`.  The page is a counter followed by cells of 36
bytes: a name as a C string in the first 32 and a root page id in the last 4.  A call returns the
writes it makes, in their order, so that a write past the page is visible.  `GetRecordCount` is an
`int`, which never is negative here.

A cell is filled again without being cleared, so bytes of an older and longer name may stand behind
the end of a name.  `Cell` leaves them open, and `strcmpEq_cell` says that the comparison does not
see them.
-/

namespace MiniSQL
namespace HeaderPage

open Lib

/-! ## The model -/

/-- A `std::string` that is a name; `c_str()` is the string followed by a NUL. -/
abbrev Name := List UInt8

/-- The number of cells that fit behind the counter. -/
abbrev MAX_RECORD_COUNT : Nat := 113

example : MAX_RECORD_COUNT = (PAGE_SIZE - 4) / 36 :=
  rfl

def getRecordCount (m : Mem) : Nat :=
  m.u32 0

def setRecordCount (recordCount : Nat) : Mem.Write :=
  (0, Mem.le32 recordCount)

def init (m : Mem) : Mem :=
  m.storeAll [setRecordCount 0]

/-- `strcmp(raw_name, name.c_str()) == 0` for the C string at address `a`. -/
def strcmpEq (m : Mem) (a : Nat) : Name → Bool
  | [] => m a == 0
  | c :: cs => if c = 0 then m a == 0 else m a == c && strcmpEq m (a + 1) cs

/-- `FindRecord`; -1 is `none`. -/
def findRecord (m : Mem) (name : Name) : Option Nat :=
  search (fun i => strcmpEq m (4 + i * 36) name) (getRecordCount m) 0

def insertRecord (m : Mem) (name : Name) (rootId : PageId) : Result (Bool × List Mem.Write) := do
  assert (name.length < 32) "name.length() < 32"
  assert (INVALID_PAGE_ID < rootId) "root_id > INVALID_PAGE_ID"
  let recordNum := getRecordCount m
  let offset := 4 + recordNum * 36
  match findRecord m name with
  | some _ => return (false, [])
  | none =>
    return (true, [(offset, name ++ [0]), (offset + 32, Mem.le32 rootId.toUInt32.toNat),
      setRecordCount (recordNum + 1)])

def deleteRecord (m : Mem) (name : Name) : Result (Bool × List Mem.Write) := do
  let recordNum := getRecordCount m
  assert (0 < recordNum) "record_num > 0"
  match findRecord m name with
  | none => return (false, [])
  | some index =>
    let offset := index * 36 + 4
    return (true, [(offset, m.load (offset + 36) ((recordNum - index - 1) * 36)),
      setRecordCount (recordNum - 1)])

def updateRecord (m : Mem) (name : Name) (rootId : PageId) : Result (Bool × List Mem.Write) := do
  assert (name.length < 32) "name.length() < 32"
  match findRecord m name with
  | none => return (false, [])
  | some index =>
    let offset := index * 36 + 4
    return (true, [(offset + 32, Mem.le32 rootId.toUInt32.toNat)])

/-- `GetRootId`: the root page id, when it returns `true`. -/
def getRootId (m : Mem) (name : Name) : Result (Option PageId) := do
  assert (name.length < 32) "name.length() < 32"
  match findRecord m name with
  | none => return none
  | some index =>
    let offset := (index + 1) * 36
    return some (UInt32.ofNat (m.u32 offset)).toInt32

/-- The calls on the page; `get` is `GetRootId`. -/
abbrev Call := Directory.Request Name PageId

/-- What the call returns and what it writes. -/
def exec (m : Mem) : Call → Result (Bool × List Mem.Write)
  | .insert name rootId => insertRecord m name rootId
  | .delete name => deleteRecord m name
  | .update name rootId => updateRecord m name rootId
  | .get name => return ((← getRootId m name).isSome, [])

/-! ## Cells -/

/-- A C string of fewer than 32 bytes. -/
def ValidName (name : Name) : Prop :=
  0 ∉ name ∧ name.length < 32

instance : DecidablePred ValidName :=
  fun name => inferInstanceAs (Decidable (0 ∉ name ∧ name.length < 32))

/-- The cell at address `a` holds the entry, whatever stands behind the end of the name. -/
structure Cell (m : Mem) (a : Nat) (e : Name × PageId) : Prop where
  valid : ValidName e.1
  name : m.Holds a (e.1 ++ [0])
  root : (UInt32.ofNat (m.u32 (a + 32))).toInt32 = e.2

variable {m m' : Mem} {a b i : Nat} {e : Name × PageId} {name : Name} {rootId : PageId}

/-- A cell moves with its 36 bytes. -/
theorem Cell.transfer (h : Cell m b e) (hbytes : ∀ k, k < 36 → m' (a + k) = m (b + k)) :
    Cell m' a e where
  valid := h.valid
  name := by
    have hlen := h.valid.2
    refine Mem.holds_transfer h.name fun k hk => hbytes k ?_
    rw [List.length_append, List.length_singleton] at hk
    omega
  root := by
    have hword : m'.u32 (a + 32) = m.u32 (b + 32) := by
      refine Mem.u32_transfer fun k hk => ?_
      rw [Nat.add_assoc, Nat.add_assoc]
      exact hbytes (32 + k) (by omega)
    rw [hword, h.root]

theorem Cell.congr (h : Cell m a e) (hbytes : ∀ x, a ≤ x → x < a + 36 → m' x = m x) :
    Cell m' a e :=
  h.transfer fun k hk => hbytes (a + k) (by omega) (by omega)

/-- The comparison stops at the NUL behind the name. -/
theorem strcmpEq_holds {key : Name} (hkey : 0 ∉ key) (hname : 0 ∉ name)
    (h : m.Holds a (key ++ [0])) : strcmpEq m a name = decide (key = name) := by
  induction key generalizing a name with
  | nil =>
      have hzero : m a = 0 := h 0 (by simp)
      cases name with
      | nil =>
          simp [strcmpEq, hzero]
      | cons c cs =>
          have hc : c ≠ 0 := fun hc => hname (by simp [hc])
          simp [strcmpEq, hzero, hc, Ne.symm hc]
  | cons k ks ih =>
      have hk : k ≠ 0 := fun hk => hkey (by simp [hk])
      have hhead : m a = k := h 0 (by simp)
      cases name with
      | nil =>
          simp [strcmpEq, hhead, hk]
      | cons c cs =>
          have hc : c ≠ 0 := fun hc => hname (by simp [hc])
          -- Both strings go on, and the rest of the cell is the rest of the key.
          have hcons : m.Holds a ([k] ++ (ks ++ [0])) := h
          have hrest : m.Holds (a + 1) (ks ++ [0]) := (Mem.holds_append.mp hcons).2
          have htail := ih (fun hks => hkey (List.mem_cons_of_mem k hks))
            (fun hcs => hname (List.mem_cons_of_mem c hcs)) hrest
          rw [strcmpEq, if_neg hc, hhead, htail]
          by_cases hkc : k = c
          · simp [hkc]
          · simp [hkc]

theorem strcmpEq_cell (h : Cell m a e) (hname : 0 ∉ name) :
    strcmpEq m a name = decide (e.1 = name) :=
  strcmpEq_holds h.valid.1 hname h.name

/-! ## The page and the directory -/

/-- The page holds the records of the directory, in their order. -/
structure Represents (m : Mem) (d : Directory Name PageId) : Prop where
  count_eq : getRecordCount m = d.entries.length
  cell : ∀ i e, d.entries[i]? = some e → Cell m (4 + i * 36) e

variable {d : Directory Name PageId}

theorem init_represents (m : Mem) : Represents (init m) Directory.empty := by
  refine ⟨Mem.u32_setU32_of_lt (m := m) (a := 0) (v := 0) (by decide), fun i e he => ?_⟩
  cases he

theorem Represents.findRecord (h : Represents m d) (hname : 0 ∉ name) :
    findRecord m name = d.find name := by
  rw [HeaderPage.findRecord, h.count_eq,
    search_eq_findIdx? d.entries (fun e => e.1 = name) fun i e he => by
      rw [Nat.zero_add, strcmpEq_cell (h.cell i e he) hname]]
  cases hfind : d.entries.findIdx? fun e => e.1 = name with
  | none =>
      rw [Directory.find, hfind]
      rfl
  | some i =>
      rw [Directory.find, hfind, Option.map_some, Nat.zero_add]

theorem Represents.getRootId (h : Represents m d) (hname : ValidName name) :
    getRootId m name = .ok (d.get? name) := by
  have hlen : decide (name.length < 32) = true := decide_eq_true hname.2
  rw [HeaderPage.getRootId, hlen, assert_true, ok_bind, h.findRecord hname.1]
  cases hfind : d.find name with
  | none =>
      rw [Directory.find_eq_none.mp hfind]
      rfl
  | some i =>
      rcases Directory.get?_of_find hfind with ⟨v, hi, hget⟩
      -- `(index + 1) * 36` is the root id of the cell at `4 + index * 36`.
      have haddr : (i + 1) * 36 = 4 + i * 36 + 32 := by omega
      have hroot := (h.cell i _ hi).root
      simp only [haddr, hroot, hget]
      rfl

/-- A new record in the first free cell, over whatever stood there. -/
theorem Represents.push (h : Represents m d) (hnew : d.get? name = none) (hname : ValidName name)
    (hlen : d.entries.length + 1 < 2 ^ 32) :
    Represents (m.storeAll [(4 + getRecordCount m * 36, name ++ [0]),
      (4 + getRecordCount m * 36 + 32, Mem.le32 rootId.toUInt32.toNat),
      setRecordCount (getRecordCount m + 1)]) (d.push name rootId hnew) := by
  have hbytes : (name ++ [(0 : UInt8)]).length ≤ 32 := by
    rw [List.length_append, List.length_singleton]
    exact hname.2
  rw [h.count_eq]
  simp only [Mem.storeAll, List.foldl_cons, List.foldl_nil, setRecordCount]
  constructor
  · rw [Directory.push, List.length_append, List.length_singleton]
    exact Mem.u32_setU32_of_lt hlen
  · intro i e he
    -- The last cell is the new one; the writes are outside the others.
    by_cases hi : i = d.entries.length
    · subst hi
      rw [Directory.push, List.getElem?_append_right (le_refl _), Nat.sub_self] at he
      obtain rfl : (name, rootId) = e := Option.some.inj he
      refine ⟨hname, ?_, ?_⟩
      · have hstored := Mem.holds_store m (4 + d.entries.length * 36) (name ++ [0])
        exact Mem.holds_setU32_outside (Mem.holds_setU32_outside hstored
          (Or.inl (Nat.add_le_add_left hbytes _))) (Or.inr (by omega))
      · have hword : ∀ (m : Mem) (v : Nat), v < 2 ^ 32 →
            ((m.setU32 (4 + d.entries.length * 36 + 32) v).setU32 0
              (d.entries.length + 1)).u32 (4 + d.entries.length * 36 + 32) = v := by
          intro m v hv
          rw [Mem.u32_setU32_ne (by omega), Mem.u32_setU32_of_lt hv]
        exact (congrArg (fun v => (UInt32.ofNat v).toInt32)
          (hword _ _ rootId.toUInt32.toNat_lt)).trans (pageId_word rootId)
    · have hlt := (List.getElem?_eq_some_iff.mp he).1
      rw [Directory.push, List.length_append, List.length_singleton] at hlt
      rw [Directory.push, List.getElem?_append_left (by omega)] at he
      refine (h.cell i e he).congr fun x h1 h2 => ?_
      rw [Mem.store_apply_outside (by rw [Mem.le32_length]; omega),
        Mem.store_apply_outside (by rw [Mem.le32_length]; omega),
        Mem.store_apply_outside (by omega)]

/-- The cells behind the record move up by one cell. -/
theorem Represents.eraseAt (h : Represents m d) (hi : i < d.entries.length)
    (hlen : d.entries.length < 2 ^ 32) :
    Represents (m.storeAll [(i * 36 + 4,
        m.load (i * 36 + 4 + 36) ((getRecordCount m - i - 1) * 36)),
      setRecordCount (getRecordCount m - 1)]) (d.eraseAt i) := by
  have hlength : (d.entries.eraseIdx i).length = d.entries.length - 1 :=
    List.length_eraseIdx_of_lt hi
  rw [h.count_eq]
  simp only [Mem.storeAll, List.foldl_cons, List.foldl_nil, setRecordCount, Mem.store_load]
  constructor
  · rw [Directory.eraseAt, hlength]
    exact Mem.u32_setU32_of_lt (by omega)
  · intro j e he
    have hlt := (List.getElem?_eq_some_iff.mp he).1
    rw [Directory.eraseAt, hlength] at hlt
    rw [Directory.eraseAt, List.getElem?_eraseIdx] at he
    by_cases hji : j < i
    · -- Before the record nothing moves.
      rw [if_pos hji] at he
      refine (h.cell j e he).congr fun x h1 h2 => ?_
      rw [Mem.store_apply_outside (by rw [Mem.le32_length]; omega),
        Mem.memmove_apply_outside (by omega)]
    · rw [if_neg hji] at he
      refine (h.cell (j + 1) e he).transfer fun k hk => ?_
      have hin : i * 36 + 4 ≤ 4 + j * 36 + k ∧
          4 + j * 36 + k < i * 36 + 4 + (d.entries.length - i - 1) * 36 := by
        omega
      have haddr : i * 36 + 4 + 36 + (4 + j * 36 + k - (i * 36 + 4)) = 4 + (j + 1) * 36 + k := by
        omega
      rw [Mem.store_apply_outside (by rw [Mem.le32_length]; omega), Mem.memmove, if_pos hin, haddr]

theorem Represents.setAt (h : Represents m d) (hi : i < d.entries.length) :
    Represents (m.storeAll [(i * 36 + 4 + 32, Mem.le32 rootId.toUInt32.toNat)])
      (d.setAt i rootId) := by
  simp only [Mem.storeAll, List.foldl_cons, List.foldl_nil]
  constructor
  · have hcount : getRecordCount (m.setU32 (i * 36 + 4 + 32) rootId.toUInt32.toNat) =
        getRecordCount m := Mem.u32_setU32_ne (by omega)
    rw [Directory.setAt, List.length_modify, ← h.count_eq]
    exact hcount
  · rintro j ⟨key, v⟩ he
    rcases Directory.getElem?_setAt.mp he with ⟨rfl, rfl, w, hw⟩ | ⟨hne, hj⟩
    · have hcell := h.cell j _ hw
      have hkey : key.length < 32 := hcell.valid.2
      have hend : 4 + j * 36 + (key ++ [(0 : UInt8)]).length ≤ j * 36 + 4 + 32 := by
        rw [List.length_append, List.length_singleton]
        omega
      refine ⟨hcell.valid, Mem.holds_setU32_outside hcell.name (Or.inl hend), ?_⟩
      · have hword : (m.setU32 (j * 36 + 4 + 32) v.toUInt32.toNat).u32 (4 + j * 36 + 32) =
            v.toUInt32.toNat := by
          rw [Nat.add_comm 4]
          exact Mem.u32_setU32_of_lt v.toUInt32.toNat_lt
        exact (congrArg (fun v => (UInt32.ofNat v).toInt32) hword).trans (pageId_word v)
    · refine (h.cell j _ hj).congr fun x h1 h2 => ?_
      exact Mem.store_apply_outside (by rw [Mem.le32_length]; omega)

/-! ## Histories -/

/-- The calls that a user of the page may make. -/
def Allowed (m : Mem) : Call → Prop
  | .insert name rootId => ValidName name ∧ INVALID_PAGE_ID < rootId
  | .delete name => ValidName name ∧ 0 < getRecordCount m
  | .update name rootId => ValidName name ∧ INVALID_PAGE_ID < rootId
  | .get name => ValidName name

variable {call : Call}

/-- An allowed call returns, and the page does with it what the directory does. -/
theorem Represents.exec (h : Represents m d) (hlen : d.entries.length ≤ MAX_RECORD_COUNT)
    (hcall : Allowed m call) :
    ∃ ws, exec m call = .ok ((d.serve call).1, ws) ∧
      Represents (m.storeAll ws) (d.serve call).2 ∧ ((d.serve call).1 = false → ws = []) := by
  have hlt : d.entries.length + 1 < 2 ^ 32 := lt_of_le_of_lt (Nat.succ_le_succ hlen) (by decide)
  cases call with
  | insert name rootId =>
      rcases hcall with ⟨hname, hroot⟩
      rw [HeaderPage.exec, insertRecord, decide_eq_true hname.2, decide_eq_true hroot,
        assert_true, assert_true, ok_bind, ok_bind, h.findRecord hname.1, Directory.serve]
      -- The page searches like the directory, from the first record on.
      cases hfind : d.find name with
      | some i =>
          rcases Directory.get?_of_find hfind with ⟨v, _, hget⟩
          rw [dif_neg (by rw [hget]; exact Option.some_ne_none v)]
          exact ⟨[], rfl, h, fun _ => rfl⟩
      | none =>
          have hnew := Directory.find_eq_none.mp hfind
          rw [dif_pos hnew]
          exact ⟨_, rfl, h.push hnew hname hlt, fun hno => by cases hno⟩
  | delete name =>
      rcases hcall with ⟨hname, hpos⟩
      rw [HeaderPage.exec, deleteRecord, decide_eq_true hpos, assert_true, ok_bind,
        h.findRecord hname.1, Directory.serve]
      cases hfind : d.find name with
      | none =>
          exact ⟨[], rfl, h, fun _ => rfl⟩
      | some i =>
          rcases Directory.find_eq_some.mp hfind with ⟨v, hi⟩
          have hi' := (List.getElem?_eq_some_iff.mp hi).1
          exact ⟨_, rfl, h.eraseAt hi' (by omega), fun hno => by cases hno⟩
  | update name rootId =>
      rcases hcall with ⟨hname, _⟩
      rw [HeaderPage.exec, updateRecord, decide_eq_true hname.2, assert_true, ok_bind,
        h.findRecord hname.1, Directory.serve]
      cases hfind : d.find name with
      | none =>
          exact ⟨[], rfl, h, fun _ => rfl⟩
      | some i =>
          rcases Directory.find_eq_some.mp hfind with ⟨v, hi⟩
          have hi' := (List.getElem?_eq_some_iff.mp hi).1
          exact ⟨_, rfl, h.setAt hi', fun hno => by cases hno⟩
  | get name =>
      rw [HeaderPage.exec, h.getRootId hcall, ok_bind, Directory.serve]
      exact ⟨[], rfl, h, fun _ => rfl⟩

/-- An allowed call after which no more records stand on the page than fit. -/
def Step (m : Mem) (call : Call) (m' : Mem) : Prop :=
  Allowed m call ∧ (∃ b ws, exec m call = .ok (b, ws) ∧ m' = m.storeAll ws) ∧
    getRecordCount m' ≤ MAX_RECORD_COUNT

/-- The page keeps the map `μ`, in some order of its records. -/
def Keeps (m : Mem) (μ : Name → Option PageId) : Prop :=
  ∃ d, Represents m d ∧ d.get? = μ ∧ d.entries.length ≤ MAX_RECORD_COUNT

variable {μ : Name → Option PageId}

theorem step_keeps (h : Keeps m μ) (hstep : Step m call m') : Keeps m' (call.apply μ) := by
  rcases h with ⟨d, hrep, rfl, hlen⟩
  rcases hstep with ⟨hcall, ⟨b, ws, hexec, rfl⟩, hcount⟩
  rcases hrep.exec hlen hcall with ⟨ws', hexec', hrep', _⟩
  rw [hexec] at hexec'
  obtain ⟨rfl, rfl⟩ := Prod.mk.inj (Except.ok.inj hexec')
  rw [hrep'.count_eq] at hcount
  exact ⟨(d.serve call).2, hrep', Directory.get?_serve d call, hcount⟩

theorem run_keeps {m₀ : Mem} {calls : List Call} (hrun : Run Step (init m₀) calls m) :
    Keeps m (calls.foldl Directory.Request.apply fun _ => none) := by
  refine hrun.simulates (R := Keeps) (g := Directory.Request.apply) ?_ ?_
  · intro s call s' μ h hstep
    exact step_keeps h hstep
  · exact ⟨Directory.empty, init_represents m₀, Directory.get?_empty, by decide⟩

/-- The bytes of the page are the map `μ`, and every further call behaves as on the map. -/
structure IsMap (m : Mem) (μ : Name → Option PageId) : Prop where
  /-- The bindings of the map are the records below the counter. -/
  binding : ∀ name rootId, ValidName name →
    (μ name = some rootId ↔ ∃ i, i < getRecordCount m ∧ Cell m (4 + i * 36) (name, rootId))
  distinct : ∀ name rootId rootId' i j, i < getRecordCount m → j < getRecordCount m →
    Cell m (4 + i * 36) (name, rootId) → Cell m (4 + j * 36) (name, rootId') → i = j
  insertRecord_returns : ∀ name rootId, ValidName name → INVALID_PAGE_ID < rootId →
    ∃ ws, insertRecord m name rootId = .ok ((μ name).isNone, ws)
  deleteRecord_returns : ∀ name, ValidName name → 0 < getRecordCount m →
    ∃ ws, deleteRecord m name = .ok ((μ name).isSome, ws)
  updateRecord_returns : ∀ name rootId, ValidName name → INVALID_PAGE_ID < rootId →
    ∃ ws, updateRecord m name rootId = .ok ((μ name).isSome, ws)
  getRootId_eq : ∀ name, ValidName name → getRootId m name = .ok (μ name)
  /-- A call that returns `false` changes nothing. -/
  unchanged : ∀ call ws, exec m call = .ok (false, ws) → m.storeAll ws = m

/-- A cell below the counter holds no other entry than that of the directory. -/
theorem Represents.entry (h : Represents m d) (hi : i < getRecordCount m)
    (hcell : Cell m (4 + i * 36) e) : d.entries[i]? = some e := by
  rw [h.count_eq] at hi
  have hget := List.getElem?_eq_getElem hi
  have hcell' := h.cell i _ hget
  have hname : d.entries[i].1 = e.1 := by
    have hself := strcmpEq_cell hcell hcell.valid.1
    rw [strcmpEq_cell hcell' hcell.valid.1, decide_eq_true (rfl : e.1 = e.1)] at hself
    exact of_decide_eq_true hself
  have hroot : d.entries[i].2 = e.2 := hcell'.root.symm.trans hcell.root
  rw [hget]
  exact congrArg some (Prod.ext hname hroot)

theorem findRecord_lt (h : findRecord m name = some i) : i < getRecordCount m := by
  have hlt := search_lt h
  rwa [Nat.zero_add] at hlt

/-- What a call that returns has done, whatever its arguments are. -/
theorem exec_cases {b : Bool} {ws : List Mem.Write} (h : exec m call = .ok (b, ws)) :
    ((∀ name, call ≠ .get name) → b = false) ∧ ws = [] ∨
    (∃ name rootId, call = .insert name rootId ∧ name.length < 32 ∧ findRecord m name = none ∧
      b = true ∧ ws = [(4 + getRecordCount m * 36, name ++ [0]),
        (4 + getRecordCount m * 36 + 32, Mem.le32 rootId.toUInt32.toNat),
        setRecordCount (getRecordCount m + 1)]) ∨
    (∃ i, i < getRecordCount m ∧ (∀ name rootId, call ≠ .insert name rootId) ∧ b = true ∧
      ws = [(i * 36 + 4, m.load (i * 36 + 4 + 36) ((getRecordCount m - i - 1) * 36)),
        setRecordCount (getRecordCount m - 1)]) ∨
    (∃ (i : Nat) (rootId : PageId), i < getRecordCount m ∧
      (∀ name rootId, call ≠ .insert name rootId) ∧ b = true ∧
      ws = [(i * 36 + 4 + 32, Mem.le32 rootId.toUInt32.toNat)]) := by
  -- Each writing call searches first: what it found decides which writes there are.
  cases call with
  | insert name rootId =>
      rw [HeaderPage.exec, insertRecord] at h
      rcases bind_eq_ok.mp h with ⟨_, hlen, h⟩
      rcases bind_eq_ok.mp h with ⟨_, _, h⟩
      cases hfind : findRecord m name with
      | some i =>
          rw [hfind] at h
          obtain ⟨rfl, rfl⟩ := Prod.mk.inj (Except.ok.inj h)
          exact Or.inl ⟨fun _ => rfl, rfl⟩
      | none =>
          rw [hfind] at h
          obtain ⟨rfl, rfl⟩ := Prod.mk.inj (Except.ok.inj h)
          have hlt : name.length < 32 := of_decide_eq_true (assert_eq_ok.mp hlen)
          exact Or.inr (Or.inl ⟨name, rootId, rfl, hlt, hfind, rfl, rfl⟩)
  | delete name =>
      rw [HeaderPage.exec, deleteRecord] at h
      rcases bind_eq_ok.mp h with ⟨_, _, h⟩
      cases hfind : findRecord m name with
      | none =>
          rw [hfind] at h
          obtain ⟨rfl, rfl⟩ := Prod.mk.inj (Except.ok.inj h)
          exact Or.inl ⟨fun _ => rfl, rfl⟩
      | some i =>
          rw [hfind] at h
          obtain ⟨rfl, rfl⟩ := Prod.mk.inj (Except.ok.inj h)
          exact Or.inr (Or.inr (Or.inl ⟨i, findRecord_lt hfind, fun _ _ => by simp, rfl, rfl⟩))
  | update name rootId =>
      rw [HeaderPage.exec, updateRecord] at h
      rcases bind_eq_ok.mp h with ⟨_, _, h⟩
      cases hfind : findRecord m name with
      | none =>
          rw [hfind] at h
          obtain ⟨rfl, rfl⟩ := Prod.mk.inj (Except.ok.inj h)
          exact Or.inl ⟨fun _ => rfl, rfl⟩
      | some i =>
          rw [hfind] at h
          obtain ⟨rfl, rfl⟩ := Prod.mk.inj (Except.ok.inj h)
          exact Or.inr (Or.inr (Or.inr
            ⟨i, rootId, findRecord_lt hfind, fun _ _ => by simp, rfl, rfl⟩))
  | get name =>
      rw [HeaderPage.exec] at h
      rcases bind_eq_ok.mp h with ⟨_, _, h⟩
      exact Or.inl ⟨fun hno => absurd rfl (hno name), (Prod.mk.inj (Except.ok.inj h)).2.symm⟩

/-- A call that returns `false` writes nothing. -/
theorem exec_false {ws : List Mem.Write} (h : exec m call = .ok (false, ws)) : ws = [] := by
  rcases exec_cases h with ⟨_, hws⟩ | ⟨_, _, _, _, _, hb, _⟩ | ⟨_, _, _, hb, _⟩ |
    ⟨_, _, _, _, hb, _⟩
  · exact hws
  · cases hb
  · cases hb
  · cases hb

theorem Keeps.exec (h : Keeps m μ) (call : Call) (hcall : Allowed m call) :
    ∃ ws, exec m call = .ok (call.answer μ, ws) := by
  rcases h with ⟨d, hrep, rfl, hlen⟩
  rcases hrep.exec hlen hcall with ⟨ws, hexec, _⟩
  rw [Directory.serve_fst] at hexec
  exact ⟨ws, hexec⟩

theorem Keeps.isMap (h : Keeps m μ) : IsMap m μ where
  binding := by
    rcases h with ⟨d, hrep, rfl, _⟩
    intro name rootId hname
    rw [Directory.get?_eq_some]
    constructor
    · rintro ⟨i, hi⟩
      refine ⟨i, ?_, hrep.cell i _ hi⟩
      rw [hrep.count_eq]
      exact (List.getElem?_eq_some_iff.mp hi).1
    · rintro ⟨i, hi, hcell⟩
      exact ⟨i, hrep.entry hi hcell⟩
  distinct := by
    rcases h with ⟨d, hrep, _, _⟩
    intro name rootId rootId' i j hi hj hcell hcell'
    exact Directory.index_unique (hrep.entry hi hcell) (hrep.entry hj hcell')
  insertRecord_returns := fun name rootId hname hroot =>
    h.exec (.insert name rootId) ⟨hname, hroot⟩
  deleteRecord_returns := fun name hname hpos =>
    h.exec (.delete name) ⟨hname, hpos⟩
  updateRecord_returns := fun name rootId hname hroot =>
    h.exec (.update name rootId) ⟨hname, hroot⟩
  getRootId_eq := by
    rcases h with ⟨d, hrep, rfl, _⟩
    intro name hname
    exact hrep.getRootId hname
  unchanged := by
    intro call ws hexec
    rw [exec_false hexec]
    rfl

/-- Every history of allowed calls on an `Init`ed page that never holds more records than fit leaves
the page with the map of that history. -/
theorem header_refines_map {m₀ : Mem} {calls : List Call} (hrun : Run Step (init m₀) calls m) :
    IsMap m (calls.foldl Directory.Request.apply fun _ => none) :=
  (run_keeps hrun).isMap

/-- The second name is filled into the cell of a longer one, whose third byte stays behind it. -/
theorem header_refines_map_reused :
    let calls : List Call := [.insert [97, 98, 99] 1, .delete [97, 98, 99], .insert [120] 2]
    ∃ m : Mem, Run Step (init fun _ => 255) calls m ∧
      IsMap m (calls.foldl Directory.Request.apply fun _ => none) ∧
      m 6 = 99 ∧ getRootId m [120] = .ok (some 2) := by
  let m₁ := (init fun _ => 255).storeAll [(4, [97, 98, 99, 0]), (36, Mem.le32 1), (0, Mem.le32 1)]
  let m₂ := m₁.storeAll [(4, []), (0, Mem.le32 0)]
  let m₃ := m₂.storeAll [(4, [120, 0]), (36, Mem.le32 2), (0, Mem.le32 1)]
  have hstep₁ : Step (init fun _ => 255) (.insert [97, 98, 99] 1) m₁ :=
    ⟨⟨by decide, by decide⟩, ⟨true, _, by decide +kernel, rfl⟩, by decide +kernel⟩
  have hstep₂ : Step m₁ (.delete [97, 98, 99]) m₂ :=
    ⟨⟨by decide, by decide +kernel⟩, ⟨true, _, by decide +kernel, rfl⟩, by decide +kernel⟩
  have hstep₃ : Step m₂ (.insert [120] 2) m₃ :=
    ⟨⟨by decide, by decide⟩, ⟨true, _, by decide +kernel, rfl⟩, by decide +kernel⟩
  have hrun := Run.cons hstep₁ (Run.cons hstep₂ (Run.cons hstep₃ (Run.nil m₃)))
  have hmap := header_refines_map hrun
  exact ⟨m₃, hrun, hmap, by decide +kernel, hmap.getRootId_eq [120] (by decide)⟩

end HeaderPage
end MiniSQL
