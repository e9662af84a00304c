import MiniSQL.Page.IndexRootsPage
import MiniSQL.Page.HeaderPage

/-!
# RootOverflow — when the root directories stay on their page

Neither `IndexRootsPage::Insert` nor `HeaderPage::InsertRecord` looks at the end of the page:
`MAX_INDEX_COUNT` is never read, and a comment of `header_page.h` leaves the overflow to do.  A
directory stays on its page exactly as long as new entries are inserted only while an entry is left
(`root_directories_inside`).
-/

namespace MiniSQL

open Lib

/-! ## IndexRootsPage -/

namespace IndexRootsPage

/-- The call does not insert a new index id into a full page. -/
def Fits (m : Mem) : Call → Prop
  | .insert indexId _ => findIndex m indexId ≠ none ∨ count m < MAX_INDEX_COUNT
  | _ => True

/-- A call of the page, whatever room there is. -/
def Called (m : Mem) (call : Call) (m' : Mem) : Prop :=
  m' = (exec m call).2

/-- What the call should do: the entries stay below `MAX_INDEX_COUNT` and every byte written below
`PAGE_SIZE`, and a full page refuses an insertion. -/
structure Inside (m : Mem) (call : Call) : Prop where
  count_le : count (exec m call).2 ≤ MAX_INDEX_COUNT
  bytes : ∀ a, PAGE_SIZE ≤ a → (exec m call).2 a = m a
  full : ∀ indexId rootId, call = .insert indexId rootId → count m = MAX_INDEX_COUNT →
    exec m call = (false, m)

variable {m m' : Mem} {call : Call} {i k : Nat}

theorem moveUp_apply_outside {a : Nat} (h : 4 + 8 * (i + k) ≤ a) : moveUp k i m a = m a := by
  induction k generalizing i m with
  | zero =>
      rfl
  | succ k ih =>
      rw [moveUp, ih (by omega), setRoot_apply_outside (by omega)]

theorem findIndex_lt {indexId : UInt32} (h : findIndex m indexId = some i) : i < count m := by
  have hlt := search_lt h
  rwa [Nat.zero_add] at hlt

theorem Fits.inside (hcount : count m ≤ MAX_INDEX_COUNT) (hfits : Fits m call) :
    Inside m call := by
  have hmax : count m ≤ 511 := hcount
  cases call with
  | insert indexId rootId =>
      cases hfind : findIndex m indexId with
      | some i =>
          have hexec : exec m (.insert indexId rootId) = (false, m) := by
            rw [exec, insert, hfind]
          refine ⟨?_, fun a _ => ?_, fun _ _ _ _ => hexec⟩
          · rw [hexec]
            exact hcount
          · rw [hexec]
      | none =>
          have hroom : count m < 511 := by
            rcases hfits with hfound | hroom
            · exact absurd hfind hfound
            · exact hroom
          have hexec : (exec m (.insert indexId rootId)).2 =
              setCount (setRoot m (count m) (indexId, rootId)) (count m + 1) := by
            simp only [exec, insert, hfind, count_setRoot]
          refine ⟨?_, fun a ha => ?_, fun _ _ _ hfull => ?_⟩
          · rw [hexec, count_setCount (by omega)]
            exact hroom
          · -- The counter and the new entry are on the page.
            have ha' : 4096 ≤ a := ha
            rw [hexec, setCount, Mem.setU32_apply_outside (by omega),
              setRoot_apply_outside (by omega)]
          · exact absurd hfull (Nat.ne_of_lt hroom)
  | delete indexId =>
      refine ⟨?_, fun a ha => ?_, fun _ _ heq => by cases heq⟩
      · rw [exec, delete]
        cases findIndex m indexId with
        | none =>
            exact hcount
        | some i =>
            simp only [count_moveUp]
            rw [count_setCount (by omega)]
            omega
      · -- The entries behind the one deleted move, and all of them are on the page.
        have ha' : 4096 ≤ a := ha
        rw [exec, delete]
        cases hfind : findIndex m indexId with
        | none =>
            rfl
        | some i =>
            have hi := findIndex_lt hfind
            simp only [setCount]
            rw [Mem.setU32_apply_outside (by omega), moveUp_apply_outside (by omega)]
  | update indexId rootId =>
      refine ⟨?_, fun a ha => ?_, fun _ _ heq => by cases heq⟩
      · rw [exec, update]
        cases findIndex m indexId with
        | none =>
            exact hcount
        | some i =>
            have hsame : count (m.setU32 (8 + 8 * i) rootId.toUInt32.toNat) = count m :=
              Mem.u32_setU32_ne (by omega)
            simp only [hsame]
            exact hcount
      · have ha' : 4096 ≤ a := ha
        rw [exec, update]
        cases hfind : findIndex m indexId with
        | none =>
            rfl
        | some i =>
            have hi := findIndex_lt hfind
            exact Mem.setU32_apply_outside (by omega)
  | get indexId =>
      exact ⟨hcount, fun _ _ => rfl, fun _ _ heq => by cases heq⟩

/-- Where the condition fails, the counter leaves its range. -/
theorem Inside.fits (h : Inside m call) (hcount : count m ≤ MAX_INDEX_COUNT) : Fits m call := by
  cases call with
  | insert indexId rootId =>
      by_contra hno
      rcases not_or.mp hno with ⟨hfind, hroom⟩
      have hfull : count m = MAX_INDEX_COUNT := le_antisymm hcount (not_lt.mp hroom)
      have hexec := h.full indexId rootId rfl hfull
      rw [exec, insert, not_not.mp hfind] at hexec
      cases congrArg Prod.fst hexec
  | delete indexId =>
      trivial
  | update indexId rootId =>
      trivial
  | get indexId =>
      trivial

/-- A run whose calls all fit keeps the counter in its range. -/
theorem run_count_le {m₀ : Mem} {calls : List Call}
    (hrun : Run (fun m call m' => Fits m call ∧ Called m call m') (init m₀) calls m) :
    count m ≤ MAX_INDEX_COUNT := by
  refine hrun.invariant (P := fun m => count m ≤ MAX_INDEX_COUNT) ?_ ?_
  · rintro s call s' hs ⟨hfits, rfl⟩
    exact (hfits.inside hs).count_le
  · exact (init_represents m₀).count_eq.trans_le (by decide)

/-- The page after insertions of the first `n` index ids. -/
theorem fill_represents (m₀ : Mem) {n : Nat} (hn : n ≤ 512) : ∃ m d,
    Run Called (init m₀) ((List.range n).map fun i => .insert (UInt32.ofNat i) 0) m ∧
      Represents m d ∧ d.entries = (List.range n).map fun i => (UInt32.ofNat i, 0) := by
  induction n with
  | zero =>
      exact ⟨init m₀, Directory.empty, Run.nil _, init_represents m₀, rfl⟩
  | succ n ih =>
      rcases ih (by omega) with ⟨m, d, hrun, hrep, hentries⟩
      -- The next id is greater than those on the page.
      have hnew : d.find (UInt32.ofNat n) = none := by
        rw [Directory.find, List.findIdx?_eq_none_iff]
        intro e he
        rw [hentries] at he
        rcases List.mem_map.mp he with ⟨i, hi, rfl⟩
        have hlt := List.mem_range.mp hi
        refine decide_eq_false fun heq => ?_
        have hnat := congrArg UInt32.toNat heq
        simp only [UInt32.toNat_ofNat'] at hnat
        omega
      have hget := Directory.find_eq_none.mp hnew
      have hlen : d.entries.length = n := by
        rw [hentries, List.length_map, List.length_range]
      refine ⟨_, d.push (UInt32.ofNat n) 0 hget, ?_, hrep.push hget (by omega), ?_⟩
      · rw [List.range_succ, List.map_append]
        refine hrun.append (Run.cons ?_ (Run.nil _))
        simp only [Called, exec, insert, hrep.findIndex, hnew]
      · rw [List.range_succ, List.map_append, ← hentries]
        rfl

end IndexRootsPage

/-! ## HeaderPage -/

namespace HeaderPage

/-- The call does not insert a new name into a page without room for a cell. -/
def Fits (m : Mem) : Call → Prop
  | .insert name _ => findRecord m name ≠ none ∨ getRecordCount m < MAX_RECORD_COUNT
  | _ => True

/-- A call of the page that returns, whatever room there is. -/
def Called (m : Mem) (call : Call) (m' : Mem) : Prop :=
  ∃ b ws, exec m call = .ok (b, ws) ∧ m' = m.storeAll ws

/-- What a call that returns `b` and makes the writes `ws` should do: every byte written lies below
`PAGE_SIZE`, and a full page refuses an insertion. -/
structure Inside (m : Mem) (call : Call) (b : Bool) (ws : List Mem.Write) : Prop where
  bytes : ∀ w ∈ ws, ∀ k, k < w.2.length → w.1 + k < PAGE_SIZE
  full : ∀ name rootId, call = .insert name rootId → getRecordCount m = MAX_RECORD_COUNT →
    b = false ∧ m.storeAll ws = m

variable {m m' : Mem} {call : Call} {b : Bool} {ws : List Mem.Write} {name : Name}
  {rootId : PageId} {i : Nat}

theorem Fits.inside (hcount : getRecordCount m ≤ MAX_RECORD_COUNT) (hfits : Fits m call)
    (h : exec m call = .ok (b, ws)) : Inside m call b ws := by
  have hmax : getRecordCount m ≤ 113 := hcount
  rcases exec_cases h with ⟨hno, rfl⟩ | ⟨name, rootId, rfl, hlen, hfind, rfl, rfl⟩ |
    ⟨i, hi, hother, rfl, rfl⟩ | ⟨i, rootId, hi, hother, rfl, rfl⟩
  · refine ⟨fun w hw => absurd hw List.not_mem_nil, fun name rootId heq _ => ⟨hno ?_, rfl⟩⟩
    intro key hget
    rw [heq] at hget
    cases hget
  · have hroom : getRecordCount m < 113 := by
      rcases hfits with hfound | hroom
      · exact absurd hfind hfound
      · exact hroom
    refine ⟨fun w hw k hk => ?_, fun _ _ _ hfull => absurd hfull (Nat.ne_of_lt hroom)⟩
    have hpage : 4 + getRecordCount m * 36 + 36 ≤ PAGE_SIZE := by
      simp only [PAGE_SIZE]
      omega
    simp only [List.mem_cons, List.not_mem_nil, or_false, setRecordCount] at hw
    rcases hw with rfl | rfl | rfl
    · simp only [List.length_append, List.length_singleton] at hk ⊢
      omega
    · simp only [Mem.le32_length] at hk ⊢
      omega
    · simp only [Mem.le32_length] at hk ⊢
      omega
  · refine ⟨fun w hw k hk => ?_, fun name rootId heq _ => absurd heq (hother name rootId)⟩
    have hpage : (getRecordCount m) * 36 + 4 ≤ PAGE_SIZE := by
      simp only [PAGE_SIZE]
      omega
    simp only [List.mem_cons, List.not_mem_nil, or_false, setRecordCount] at hw
    rcases hw with rfl | rfl
    · -- The last record is not moved, and the one before it ends where that one begins.
      simp only [Mem.load_length] at hk ⊢
      omega
    · simp only [Mem.le32_length] at hk ⊢
      omega
  · refine ⟨fun w hw k hk => ?_, fun name rootId heq _ => absurd heq (hother name rootId)⟩
    have hpage : (getRecordCount m) * 36 + 4 ≤ PAGE_SIZE := by
      simp only [PAGE_SIZE]
      omega
    rw [List.mem_singleton] at hw
    subst hw
    simp only [Mem.le32_length] at hk ⊢
    omega

/-- Where the condition fails, the root page id is written past the page. -/
theorem Inside.fits (hcount : getRecordCount m ≤ MAX_RECORD_COUNT)
    (h : exec m call = .ok (b, ws)) (hin : Inside m call b ws) : Fits m call := by
  cases call with
  | insert name rootId =>
      by_contra hno
      rcases not_or.mp hno with ⟨hfind, hroom⟩
      have hfull : getRecordCount m = MAX_RECORD_COUNT := le_antisymm hcount (not_lt.mp hroom)
      obtain ⟨rfl, _⟩ := hin.full name rootId rfl hfull
      rw [exec, insertRecord] at h
      rcases bind_eq_ok.mp h with ⟨_, _, h⟩
      rcases bind_eq_ok.mp h with ⟨_, _, h⟩
      rw [not_not.mp hfind] at h
      cases h
  | delete name =>
      trivial
  | update name rootId =>
      trivial
  | get name =>
      trivial

/-- The counter is the first word, and a call that fits leaves it in its range. -/
theorem Fits.count_le (hcount : getRecordCount m ≤ MAX_RECORD_COUNT) (hfits : Fits m call)
    (h : exec m call = .ok (b, ws)) : getRecordCount (m.storeAll ws) ≤ MAX_RECORD_COUNT := by
  have hmax : getRecordCount m ≤ 113 := hcount
  have hset : ∀ (m : Mem) (n : Nat), n ≤ MAX_RECORD_COUNT →
      getRecordCount (m.setU32 0 n) ≤ MAX_RECORD_COUNT := by
    intro m n hn
    exact (Mem.u32_setU32_of_lt (lt_of_le_of_lt hn (by decide))).trans_le hn
  rcases exec_cases h with ⟨_, rfl⟩ | ⟨name, rootId, rfl, _, hfind, _, rfl⟩ |
    ⟨i, _, _, _, rfl⟩ | ⟨i, rootId, _, _, _, rfl⟩
  · exact hcount
  · have hroom : getRecordCount m < MAX_RECORD_COUNT := by
      rcases hfits with hfound | hroom
      · exact absurd hfind hfound
      · exact hroom
    exact hset _ _ hroom
  · exact hset _ _ ((Nat.sub_le _ _).trans hcount)
  · have hsame : getRecordCount (m.setU32 (i * 36 + 4 + 32) rootId.toUInt32.toNat) =
        getRecordCount m := Mem.u32_setU32_ne (by omega)
    exact hsame.trans_le hcount

theorem run_count_le {m₀ : Mem} {calls : List Call}
    (hrun : Run (fun m call m' => Fits m call ∧ Called m call m') (init m₀) calls m) :
    getRecordCount m ≤ MAX_RECORD_COUNT := by
  refine hrun.invariant (P := fun m => getRecordCount m ≤ MAX_RECORD_COUNT) ?_ ?_
  · rintro s call s' hs ⟨hfits, b, ws, hexec, rfl⟩
    exact hfits.count_le hs hexec
  · exact (init_represents m₀).count_eq.trans_le (by decide)

/-- The page after insertions of the first `n` names of one byte. -/
theorem fill_represents (m₀ : Mem) {n : Nat} (hn : n ≤ 113) : ∃ m d,
    Run Called (init m₀) ((List.range n).map fun i => .insert [UInt8.ofNat (i + 1)] 0) m ∧
      Represents m d ∧ d.entries = (List.range n).map fun i => ([UInt8.ofNat (i + 1)], 0) := by
  induction n with
  | zero =>
      exact ⟨init m₀, Directory.empty, Run.nil _, init_represents m₀, rfl⟩
  | succ n ih =>
      rcases ih (by omega) with ⟨m, d, hrun, hrep, hentries⟩
      -- Record `i` is named by the byte `i + 1`, so the names differ.
      have hnew : d.get? [UInt8.ofNat (n + 1)] = none := by
        refine Directory.find_eq_none.mp ?_
        rw [Directory.find, List.findIdx?_eq_none_iff]
        intro e he
        rw [hentries] at he
        rcases List.mem_map.mp he with ⟨i, hi, rfl⟩
        have hlt := List.mem_range.mp hi
        refine decide_eq_false fun heq => ?_
        have hnat := congrArg UInt8.toNat (List.head_eq_of_cons_eq heq)
        simp only [UInt8.toNat_ofNat'] at hnat
        omega
      have hlen : d.entries.length ≤ MAX_RECORD_COUNT := by
        rw [hentries, List.length_map, List.length_range]
        exact (Nat.le_succ n).trans hn
      have hname : ValidName [UInt8.ofNat (n + 1)] := by
        refine ⟨fun hzero => ?_, by simp⟩
        have hnat := congrArg UInt8.toNat (List.mem_singleton.mp hzero)
        simp only [UInt8.toNat_ofNat'] at hnat
        have : (0 : UInt8).toNat = 0 := rfl
        omega
      have hallowed : Allowed m (.insert [UInt8.ofNat (n + 1)] 0) := ⟨hname, by decide⟩
      rcases hrep.exec hlen hallowed with ⟨ws, hexec, hrep', _⟩
      refine ⟨m.storeAll ws, _, ?_, hrep', ?_⟩
      · rw [List.range_succ, List.map_append]
        exact hrun.append (Run.cons ⟨_, ws, hexec, rfl⟩ (Run.nil _))
      · rw [Directory.serve, dif_pos hnew, List.range_succ, List.map_append, ← hentries]
        rfl

end HeaderPage

/-! ## Both pages -/

/-- In every run that inserts new entries only while an entry is left, both directories stay on
their page; and from every state of such a run the next call does so exactly when it keeps to the
condition. -/
theorem root_directories_inside {roots₀ roots header₀ header : Mem}
    {calls : List IndexRootsPage.Call} {calls' : List HeaderPage.Call}
    (hroots : Run (fun m call m' => IndexRootsPage.Fits m call ∧ IndexRootsPage.Called m call m')
      (IndexRootsPage.init roots₀) calls roots)
    (hheader : Run (fun m call m' => HeaderPage.Fits m call ∧ HeaderPage.Called m call m')
      (HeaderPage.init header₀) calls' header) :
    (IndexRootsPage.count roots ≤ IndexRootsPage.MAX_INDEX_COUNT ∧
      ∀ call, IndexRootsPage.Inside roots call ↔ IndexRootsPage.Fits roots call) ∧
    (∀ call b ws, HeaderPage.exec header call = .ok (b, ws) →
      (HeaderPage.Inside header call b ws ↔ HeaderPage.Fits header call)) := by
  have hcount := IndexRootsPage.run_count_le hroots
  have hcount' := HeaderPage.run_count_le hheader
  refine ⟨⟨hcount, fun call => ?_⟩, fun call b ws hexec => ?_⟩
  · exact ⟨fun h => h.fits hcount, fun h => h.inside hcount⟩
  · exact ⟨fun h => h.fits hcount' hexec, fun h => h.inside hcount' hexec⟩

/-- Two entries are made on each page and the first is taken out again; then there is room for a
third. -/
theorem root_directories_inside_first : ∃ roots header,
    Run (fun m call m' => IndexRootsPage.Fits m call ∧ IndexRootsPage.Called m call m')
      (IndexRootsPage.init fun _ => 255) [.insert 7 3, .insert 8 4, .delete 7] roots ∧
    Run (fun m call m' => HeaderPage.Fits m call ∧ HeaderPage.Called m call m')
      (HeaderPage.init fun _ => 255) [.insert [97] 3, .insert [98] 4, .delete [97]] header ∧
    IndexRootsPage.getRootId roots 8 = some 4 ∧ IndexRootsPage.count roots = 1 ∧
    IndexRootsPage.Inside roots (.insert 9 5) ∧
    HeaderPage.getRecordCount header = 1 ∧
    ∃ ws, HeaderPage.exec header (.insert [99] 5) = .ok (true, ws) ∧
      HeaderPage.Inside header (.insert [99] 5) true ws := by
  have hroots : Run (fun m call m' => IndexRootsPage.Fits m call ∧ IndexRootsPage.Called m call m')
      (IndexRootsPage.init fun _ => 255) [.insert 7 3, .insert 8 4, .delete 7] _ :=
    Run.cons ⟨Or.inr (by decide +kernel), rfl⟩ (Run.cons ⟨Or.inr (by decide +kernel), rfl⟩
      (Run.cons ⟨trivial, rfl⟩ (Run.nil _)))
  have hheader : Run (fun m call m' => HeaderPage.Fits m call ∧ HeaderPage.Called m call m')
      (HeaderPage.init fun _ => 255) [.insert [97] 3, .insert [98] 4, .delete [97]] _ :=
    Run.cons ⟨Or.inr (by decide +kernel), true, _, rfl, rfl⟩
      (Run.cons ⟨Or.inr (by decide +kernel), true, _, rfl, rfl⟩
        (Run.cons ⟨trivial, true, _, rfl, rfl⟩ (Run.nil _)))
  have hinside := root_directories_inside hroots hheader
  refine ⟨_, _, hroots, hheader, by decide +kernel, by decide +kernel,
    (hinside.1.2 _).mpr (Or.inr ?_), by decide +kernel,
    [(40, [99, 0]), (72, Mem.le32 5), (0, Mem.le32 2)], ?_, (hinside.2 _ _ _ ?_).mpr (Or.inr ?_)⟩
  · decide +kernel
  · rfl
  · rfl
  · decide +kernel

/-- The 512th index id is counted, and the root page id of the 114th name is written behind the
page. -/
theorem root_directories_overflow :
    (∃ m, Run IndexRootsPage.Called (IndexRootsPage.init fun _ => 0)
        ((List.range 512).map fun i => .insert (UInt32.ofNat i) 0) m ∧
      IndexRootsPage.MAX_INDEX_COUNT < IndexRootsPage.count m) ∧
    (∃ m ws, Run HeaderPage.Called (HeaderPage.init fun _ => 0)
        ((List.range 113).map fun i => .insert [UInt8.ofNat (i + 1)] 0) m ∧
      HeaderPage.exec m (.insert [114] 0) = .ok (true, ws) ∧ (4104, Mem.le32 0) ∈ ws ∧
      PAGE_SIZE < 4104) := by
  constructor
  · rcases IndexRootsPage.fill_represents (fun _ => 0) (le_refl 512) with ⟨m, d, hrun, hrep, hent⟩
    refine ⟨m, hrun, ?_⟩
    rw [hrep.count_eq, hent, List.length_map, List.length_range]
    decide
  · rcases HeaderPage.fill_represents (fun _ => 0) (le_refl 113) with ⟨m, d, hrun, hrep, hent⟩
    have hcount : HeaderPage.getRecordCount m = 113 := by
      rw [hrep.count_eq, hent, List.length_map, List.length_range]
    have hfind : HeaderPage.findRecord m [114] = none := by
      rw [hrep.findRecord (by decide), Directory.find, hent]
      decide +kernel
    refine ⟨m, [(4072, [114, 0]), (4104, Mem.le32 0), (0, Mem.le32 114)], hrun, ?_, ?_, by decide⟩
    · simp only [HeaderPage.exec, HeaderPage.insertRecord, hfind, hcount]
      rfl
    · exact List.mem_cons_of_mem _ List.mem_cons_self

end MiniSQL
