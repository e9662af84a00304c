import MiniSQL.Page.SlotLayout

/-!
# ApplyDelete — what deleting one tuple does to the others

Every page made by `Init` and any calls, `ApplyDelete` among them, keeps a layout
(`run_layout`).  On such a page `ApplyDelete` empties the slot and gives its bytes back, but it
also takes one off the slot count, whichever slot it is called for: the slot with the highest
number falls off the page.  `applyDelete_removesOne_iff` says when no tuple is lost with it.
-/

namespace MiniSQL
namespace TablePage

open Lib

variable {schema : Schema} {p : PageId} {m m' : Mem} {n : Nat} {cells : Nat → Option Cell}
  {c : Cell} {rid : RowId}

/-! ## The operations on a layout -/

/-- A slot number is out of range, or its slot is empty, marked or live. -/
theorem Layout.slot_cases (cells : Nat → Option Cell) (n i : Nat) :
    n ≤ i ∨ (i < n ∧ cells i = none) ∨ (∃ c, i < n ∧ cells i = some c ∧ c.entry.marked = true) ∨
      ∃ c, i < n ∧ cells i = some c ∧ c.entry.marked = false := by
  by_cases hi : i < n
  · cases hc : cells i with
    | none =>
        exact Or.inr (Or.inl ⟨hi, rfl⟩)
    | some c =>
        cases hm : c.entry.marked with
        | true =>
            exact Or.inr (Or.inr (Or.inl ⟨c, hi, rfl, hm⟩))
        | false =>
            exact Or.inr (Or.inr (Or.inr ⟨c, hi, rfl, hm⟩))
  · exact Or.inl (Nat.le_of_not_lt hi)

theorem Layout.isDeleted_empty (h : Layout schema p m n cells) {i : Nat} (hi : i < n)
    (hnone : cells i = none) : isDeleted (getTupleSize m i) = true := by
  rw [(h.empty i hi hnone).2]
  rfl

/-- The size word of a live slot is its size. -/
theorem Layout.size_of_live (h : Layout schema p m n cells) {i : Nat} (hi : i < n)
    (hc : cells i = some c) (hlive : c.entry.marked = false) : getTupleSize m i = c.size := by
  rw [(h.filled i c hi hc).slot_size, Entry.sizeWord, hlive]
  rfl

/-- The size word of a filled slot is that of its entry, whatever mark it is written with. -/
theorem Layout.sizeWord_mark (h : Layout schema p m n cells) {i : Nat} (hi : i < n)
    (hc : cells i = some c) :
    setDeletedFlag c.size = (c.mark true).entry.sizeWord ∧
      unsetDeletedFlag (getTupleSize m i) = (c.mark false).entry.sizeWord := by
  have hs := h.filled i c hi hc
  rcases hs.size_bounds with ⟨_, hlt⟩
  have hplain : unsetDeletedFlag c.size = c.size := by
    rw [unsetDeletedFlag, Nat.and_two_pow_sub_one_eq_mod, Nat.mod_eq_of_lt hlt]
  refine ⟨setDeletedFlag_of_lt hlt, ?_⟩
  have hfalse : (c.mark false).entry.sizeWord = c.size := rfl
  rw [hfalse]
  cases hm : c.entry.marked with
  | true =>
      have hword : getTupleSize m i = c.size + DELETE_MASK := by
        rw [hs.slot_size, Entry.sizeWord, hm]
        rfl
      rw [hword]
      exact unsetDeletedFlag_add_mask hlt
  | false =>
      rw [h.size_of_live hi hc hm, hplain]

theorem Layout.getTuple_live (h : Layout schema p m n cells) (hrid : rid ≠ INVALID_ROWID)
    (hi : rid.slotNum.toNat < n) (hc : cells rid.slotNum.toNat = some c)
    (hlive : c.entry.marked = false) : getTuple m ⟨rid, []⟩ schema = .ok (true, c.entry.row) := by
  have hs := h.filled _ c hi hc
  have hin : ¬rid.slotNum.toNat ≥ n := by omega
  have hread : Row.deserializeFrom ⟨rid, []⟩ schema m c.offset = .ok (c.entry.row, c.size) :=
    Row.reads_encode hs.typed rfl m _ hs.bytes
  have hnot : isDeleted c.size = false := by
    rw [← h.size_of_live hi hc hlive, hs.isDeleted, hlive]
  simp only [getTuple, hrid, ne_eq, not_false_eq_true, decide_true, assert_true, ok_bind, h.count,
    hin, if_false, h.size_of_live hi hc hlive, hnot, Bool.false_eq_true, hs.slot_offset, hread]

/-- A slot that is out of range, empty or marked gives no tuple. -/
theorem getTuple_fails (hrid : rid ≠ INVALID_ROWID)
    (h : getTupleCount m ≤ rid.slotNum.toNat ∨ isDeleted (getTupleSize m rid.slotNum.toNat)) :
    getTuple m ⟨rid, []⟩ schema = .ok (false, ⟨rid, []⟩) := by
  simp only [getTuple, hrid, ne_eq, not_false_eq_true, decide_true, assert_true, ok_bind]
  split
  · rfl
  · rename_i hin
    rcases h with hout | hdel
    · exact absurd hout hin
    · rw [if_pos hdel]

/-- The slot a tuple was read from. -/
theorem Layout.getTuple_inversion (h : Layout schema p m n cells) {row : Row}
    (hrid : rid ≠ INVALID_ROWID) (hget : getTuple m ⟨rid, []⟩ schema = .ok (true, row)) :
    ∃ c, rid.slotNum.toNat < n ∧ cells rid.slotNum.toNat = some c ∧ c.entry.marked = false ∧
      c.entry.row = row := by
  rcases Layout.slot_cases cells n rid.slotNum.toNat with
    hout | ⟨hi, hnone⟩ | ⟨c, hi, hc, hm⟩ | ⟨c, hi, hc, hm⟩
  · rw [getTuple_fails hrid (Or.inl (by rw [h.count]; exact hout))] at hget
    cases hget
  · rw [getTuple_fails hrid (Or.inr (h.isDeleted_empty hi hnone))] at hget
    cases hget
  · rw [getTuple_fails hrid (Or.inr (by rw [(h.filled _ c hi hc).isDeleted, hm]))] at hget
    cases hget
  · rw [h.getTuple_live hrid hi hc hm] at hget
    cases hget
    exact ⟨c, hi, hc, hm, rfl⟩

/-- `MarkDelete` marks a live tuple, or changes nothing. -/
theorem Layout.markDelete_cases (h : Layout schema p m n cells) (rid : RowId) :
    markDelete m rid = (false, m) ∨
      ∃ c, rid.slotNum.toNat < n ∧ cells rid.slotNum.toNat = some c ∧ c.entry.marked = false ∧
        markDelete m rid =
          (true, setTupleSize m rid.slotNum.toNat (c.mark true).entry.sizeWord) := by
  simp only [markDelete, h.count]
  rcases Layout.slot_cases cells n rid.slotNum.toNat with
    hout | ⟨hi, hnone⟩ | ⟨c, hi, hc, hm⟩ | ⟨c, hi, hc, hm⟩
  · rw [if_pos hout]
    exact Or.inl rfl
  · rw [if_neg (by omega), if_pos (h.isDeleted_empty hi hnone)]
    exact Or.inl rfl
  · rw [if_neg (by omega), if_pos (by rw [(h.filled _ c hi hc).isDeleted, hm])]
    exact Or.inl rfl
  · have hs := h.filled _ c hi hc
    have hpos := hs.size_bounds.1
    have hnot : isDeleted c.size = false := by
      rw [← h.size_of_live hi hc hm, hs.isDeleted, hm]
    simp only [h.size_of_live hi hc hm, hnot, Bool.false_eq_true, if_false]
    rw [if_neg (by omega), if_pos (by omega), (h.sizeWord_mark hi hc).1]
    exact Or.inr ⟨c, hi, hc, hm, rfl⟩

/-- `RollbackDelete` on a filled slot. -/
theorem Layout.rollbackDelete_filled (h : Layout schema p m n cells)
    (hi : rid.slotNum.toNat < n) (hc : cells rid.slotNum.toNat = some c) :
    ∃ m', rollbackDelete m rid = .ok m' ∧
      Layout schema p m' n (Function.update cells rid.slotNum.toNat (some (c.mark false))) := by
  have hs := h.filled _ c hi hc
  cases hm : c.entry.marked with
  | true =>
      refine ⟨_, ?_, h.setMark hi hc false⟩
      simp only [rollbackDelete, h.count, hi, decide_true, assert_true, ok_bind, hs.isDeleted, hm,
        if_true, (h.sizeWord_mark hi hc).2]
  | false =>
      have hsame : Function.update cells rid.slotNum.toNat (some (c.mark false)) = cells := by
        have hmark : c.mark false = c := by
          rcases c with ⟨⟨row, marked⟩, offset⟩
          simp only at hm
          rw [hm]
          rfl
        rw [hmark, ← hc, Function.update_eq_self]
      refine ⟨m, ?_, by rw [hsame]; exact h⟩
      simp only [rollbackDelete, h.count, hi, decide_true, assert_true, ok_bind, hs.isDeleted, hm,
        Bool.false_eq_true, if_false]

theorem Layout.rollbackDelete_out (h : Layout schema p m n cells) (hout : n ≤ rid.slotNum.toNat) :
    rollbackDelete m rid = .error (.assertion "We can't have more slots than tuples.") := by
  have hnot : ¬rid.slotNum.toNat < n := by omega
  simp [rollbackDelete, h.count, hnot, assert]

/-- Rolling back an empty slot rewrites its zero. -/
theorem Layout.rollbackDelete_empty (h : Layout schema p m n cells) (hi : rid.slotNum.toNat < n)
    (hnone : cells rid.slotNum.toNat = none) : rollbackDelete m rid = .ok m := by
  have hzero := (h.empty _ hi hnone).2
  have hsame : setTupleSize m rid.slotNum.toNat (unsetDeletedFlag 0) = m := by
    have hword : unsetDeletedFlag 0 = getTupleSize m rid.slotNum.toNat := hzero.symm
    rw [hword]
    exact Mem.setU32_u32 m _
  have hdel : isDeleted 0 = true := rfl
  simp only [rollbackDelete, h.count, hi, decide_true, assert_true, ok_bind, hzero, hdel, if_true,
    hsame]

/-- `UpdateTuple` writes the new row over a live one when there is room, or changes nothing. -/
theorem Layout.updateTuple_cases (h : Layout schema p m n cells) {row : Row}
    (hrow : row.HasSchema schema) (hrid : rid ≠ INVALID_ROWID) :
    updateTuple m row ⟨rid, []⟩ schema = .ok (false, ⟨rid, []⟩, m) ∨
      ∃ c, rid.slotNum.toNat < n ∧ cells rid.slotNum.toNat = some c ∧
        row.encode.length ≤ getFreeSpaceRemaining m + c.size ∧
        updateTuple m row ⟨rid, []⟩ schema =
          .ok (true, c.entry.row, updated m row (getFreeSpacePointer m) c.offset c.size
            rid.slotNum.toNat n) := by
  have hpos := encode_pos row
  rcases Layout.slot_cases cells n rid.slotNum.toNat with
    hout | ⟨hi, hnone⟩ | ⟨c, hi, hc, hm⟩ | ⟨c, hi, hc, hm⟩
  · refine Or.inl ?_
    simp only [updateTuple, hrid, ne_eq, not_false_eq_true, decide_true, assert_true, ok_bind,
      Row.getSerializedSize_eq hrow, hpos, h.count]
    rw [if_pos hout]
  · refine Or.inl ?_
    simp only [updateTuple, hrid, ne_eq, not_false_eq_true, decide_true, assert_true, ok_bind,
      Row.getSerializedSize_eq hrow, hpos, h.isDeleted_empty hi hnone, if_true, ite_self]
  · refine Or.inl ?_
    simp only [updateTuple, hrid, ne_eq, not_false_eq_true, decide_true, assert_true, ok_bind,
      Row.getSerializedSize_eq hrow, hpos, (h.filled _ c hi hc).isDeleted, hm, if_true, ite_self]
  · have hs := h.filled _ c hi hc
    have hsize := h.size_of_live hi hc hm
    have hnot : isDeleted c.size = false := by rw [← hsize, hs.isDeleted, hm]
    have hhi := hs.below
    have hrem := h.remaining
    have hhigh := h.high
    simp only [PAGE_SIZE] at hhigh hhi
    have hin : ¬rid.slotNum.toNat ≥ n := by omega
    have hsum : (getFreeSpaceRemaining m + c.size) % 2 ^ 32 = getFreeSpaceRemaining m + c.size :=
      Nat.mod_eq_of_lt (by omega)
    by_cases hroom : row.encode.length ≤ getFreeSpaceRemaining m + c.size
    · -- The old row is read back from the bytes of the cell before they move.
      have hread : Row.deserializeFrom ⟨rid, []⟩ schema m c.offset =
          .ok (c.entry.row, c.size) := Row.reads_encode hs.typed rfl m _ hs.bytes
      exact Or.inr ⟨c, hi, hc, hroom, updateTuple_of_live hrow.count hrid h.count hi rfl
        hs.slot_offset hsize hnot hread hrem h.low hs.above hs.below hroom⟩
    · have hfull : getFreeSpaceRemaining m + c.size < row.encode.length := by omega
      refine Or.inl ?_
      simp only [updateTuple, hrid, ne_eq, not_false_eq_true, decide_true, assert_true, ok_bind,
        Row.getSerializedSize_eq hrow, hpos, h.count, hin, if_false, hsize, hnot,
        Bool.false_eq_true, hsum, hfull, if_true]

/-- `ApplyDelete` on a filled slot. -/
theorem Layout.applyDelete_filled (h : Layout schema p m n cells) (hi : rid.slotNum.toNat < n)
    (hc : cells rid.slotNum.toNat = some c) :
    applyDelete m rid =
      .ok (deletedPage m (getFreeSpacePointer m) c.offset c.size rid.slotNum.toNat n) := by
  have hs := h.filled _ c hi hc
  exact applyDelete_of_filled h.count h.low hi hs.slot_offset hs.plain_size hs.above hs.below

/-- On an empty or missing slot an assertion fails. -/
theorem Layout.applyDelete_inversion (h : Layout schema p m n cells)
    (hok : applyDelete m rid = .ok m') :
    ∃ c, rid.slotNum.toNat < n ∧ cells rid.slotNum.toNat = some c := by
  rcases bind_eq_ok.mp hok with ⟨_, hrange, hrest⟩
  have hi : rid.slotNum.toNat < n := by
    rw [← h.count]
    simpa using hrange
  rcases bind_eq_ok.mp hrest with ⟨_, hassert, _⟩
  have hoff : getTupleOffsetAtSlot m rid.slotNum.toNat ≥ getFreeSpacePointer m := by
    simpa using hassert
  cases hc : cells rid.slotNum.toNat with
  | some c =>
      exact ⟨c, hi, rfl⟩
  | none =>
      have hlow := h.low
      rw [(h.empty _ hi hc).1] at hoff
      simp only [SIZE_TABLE_PAGE_HEADER, SIZE_TUPLE] at hlow
      omega

/-! ## Runs -/

/-- What is done to a page: one of the calls of the slot map, or a deletion. -/
inductive Change
  | call (c : Call)
  | applyDelete (rid : RowId)

/-- A change that returns. -/
inductive Changes (schema : Schema) : Mem → Change → Mem → Prop
  | call {m m' : Mem} {c : Call} : Step schema m c m' → Changes schema m (.call c) m'
  | applyDelete {m m' : Mem} {rid : RowId} :
      applyDelete m rid = .ok m' → Changes schema m (.applyDelete rid) m'

/-- The rows last written to the slots, after one more change: `InsertTuple` and `UpdateTuple`
write the row they are given when they return true. -/
def track (schema : Schema) (m : Mem) (change : Change) (stored : Nat → Option Row) :
    Nat → Option Row :=
  match change with
  | .call (.insertTuple row) =>
    match insertTuple m row schema with
    | .ok (true, row', _) => Function.update stored row'.rid.slotNum.toNat (some row)
    | _ => stored
  | .call (.updateTuple newRow rid) =>
    match updateTuple m newRow ⟨rid, []⟩ schema with
    | .ok (true, _, _) => Function.update stored rid.slotNum.toNat (some newRow)
    | _ => stored
  | _ => stored

/-- A filled slot holds the row last written to it. -/
def Keeps (n : Nat) (cells : Nat → Option Cell) (stored : Nat → Option Row) : Prop :=
  ∀ i c, i < n → cells i = some c → stored i = some c.entry.row

variable {stored : Nat → Option Row}

/-- A mark does not touch the row. -/
theorem Keeps.mark {k : Nat} (hkeeps : Keeps n cells stored) (hk : k < n) (hc : cells k = some c)
    (b : Bool) : Keeps n (Function.update cells k (some (c.mark b))) stored := by
  intro i d hi hd
  by_cases hik : i = k
  · subst hik
    rw [Function.update_self] at hd
    cases hd
    exact hkeeps i c hk hc
  · rw [Function.update_of_ne hik] at hd
    exact hkeeps i d hi hd

/-- A slide moves the other rows and does not change them. -/
theorem Keeps.slide {k a old new n' : Nat} {cell : Option Cell} {stored' : Nat → Option Row}
    (hkeeps : Keeps n cells stored) (hn' : n' ≤ n)
    (hself : ∀ d, cell = some d → stored' k = some d.entry.row)
    (hother : ∀ j, j ≠ k → stored' j = stored j) :
    Keeps n' (slid cells k a old new cell) stored' := by
  intro i d hi hd
  by_cases hik : i = k
  · subst hik
    rw [slid, if_pos rfl] at hd
    exact hself d hd
  · rw [slid, if_neg hik] at hd
    rcases Option.map_eq_some_iff.mp hd with ⟨c, hc, rfl⟩
    rw [Cell.moved_entry, hother i hik]
    exact hkeeps i c (by omega) hc

/-- The row of an insertion stands in its slot, the other rows where they were. -/
theorem Keeps.insert {i a : Nat} {row : Row} (hkeeps : Keeps n cells stored)
    (hi : NextSlot n cells i) :
    Keeps (max n (i + 1)) (Function.update cells i (some ⟨⟨row, false⟩, a⟩))
      (Function.update stored i (some row)) := by
  intro j d hj hd
  by_cases hij : j = i
  · subst hij
    rw [Function.update_self] at hd ⊢
    cases hd
    rfl
  · have hle := hi.le
    rw [Function.update_of_ne hij] at hd ⊢
    exact hkeeps j d (by omega) hd

/-- One call keeps a layout whose slots hold the rows last written to them. -/
theorem Layout.call (h : Layout schema p m n cells) (hkeeps : Keeps n cells stored) {c : Call}
    (hstep : Step schema m c m') :
    ∃ n' cells', Layout schema p m' n' cells' ∧
      Keeps n' cells' (track schema m (.call c) stored) := by
  cases hstep with
  | @insertTuple _ row row' done hrow hok =>
      -- The page reports success exactly when the row and its slot entry fit.
      simp only [track]
      by_cases hroom : row.encode.length + SIZE_TUPLE ≤ getFreeSpaceRemaining m
      · have hnext := h.nextSlot
        have hle := hnext.le
        have hlow := h.low
        have hhigh := h.high
        simp only [PAGE_SIZE, SIZE_TABLE_PAGE_HEADER, SIZE_TUPLE] at hlow hhigh
        have hnum : (UInt32.ofNat (findSlot m (getTupleCount m) 0)).toNat =
            findSlot m (getTupleCount m) 0 := UInt32.toNat_ofNat_of_lt' (by
          show findSlot m (getTupleCount m) 0 < 2 ^ 32
          omega)
        rw [h.insertTuple_eq hrow hroom hnext] at hok ⊢
        cases hok
        simp only [hnum]
        exact ⟨_, _, h.insert hrow hroom hnext, hkeeps.insert hnext⟩
      · rw [insertTuple_of_full hrow.count (Nat.lt_of_not_le hroom)] at hok ⊢
        cases hok
        exact ⟨n, cells, h, hkeeps⟩
  | @updateTuple _ newRow oldRow rid done hrow hok =>
      -- An invalid row id fails the assertion, so the call did not return.
      have hrid : rid ≠ INVALID_ROWID := updateTuple_rid_ne hok
      simp only [track]
      rcases h.updateTuple_cases hrow hrid with hfail | ⟨c, hi, hc, hroom, heq⟩
      · rw [hfail] at hok ⊢
        cases hok
        exact ⟨n, cells, h, hkeeps⟩
      · rw [heq] at hok ⊢
        cases hok
        refine ⟨n, _, h.update hrow hi hc hroom, hkeeps.slide (le_refl n) ?_ ?_⟩
        · intro d hd
          cases hd
          exact Function.update_self ..
        · exact fun j hj => Function.update_of_ne hj ..
  | @markDelete rid =>
      rcases h.markDelete_cases rid with hsame | ⟨c, hi, hc, _, heq⟩
      · rw [hsame]
        exact ⟨n, cells, h, hkeeps⟩
      · rw [heq]
        exact ⟨n, _, h.setMark hi hc true, hkeeps.mark hi hc true⟩
  | @rollbackDelete _ rid hok =>
      by_cases hi : rid.slotNum.toNat < n
      · cases hc : cells rid.slotNum.toNat with
        | none =>
            rw [h.rollbackDelete_empty hi hc] at hok
            cases hok
            exact ⟨n, cells, h, hkeeps⟩
        | some c =>
            rcases h.rollbackDelete_filled hi hc with ⟨m'', heq, h'⟩
            rw [heq] at hok
            cases hok
            exact ⟨n, _, h', hkeeps.mark hi hc false⟩
      · rw [h.rollbackDelete_out (Nat.le_of_not_lt hi)] at hok
        cases hok
  | getTuple _ =>
      exact ⟨n, cells, h, hkeeps⟩

/-- One change keeps a layout whose slots hold the rows last written to them. -/
theorem Changes.keeps {change : Change} (hstep : Changes schema m change m')
    (h : ∃ n cells, Layout schema p m n cells ∧ Keeps n cells stored) :
    ∃ n cells, Layout schema p m' n cells ∧ Keeps n cells (track schema m change stored) := by
  rcases h with ⟨n, cells, h, hkeeps⟩
  cases hstep with
  | call hcall =>
      exact h.call hkeeps hcall
  | @applyDelete _ rid hok =>
      rcases h.applyDelete_inversion hok with ⟨c, hi, hc⟩
      rw [h.applyDelete_filled hi hc] at hok
      cases hok
      refine ⟨n - 1, _, h.delete hi hc, hkeeps.slide (Nat.sub_le n 1) ?_ fun _ _ => rfl⟩
      intro d hd
      cases hd

/-- One change keeps a layout. -/
theorem Changes.layout {change : Change} (hstep : Changes schema m change m')
    (h : ∃ n cells, Layout schema p m n cells) : ∃ n cells, Layout schema p m' n cells := by
  rcases h with ⟨n, cells, h⟩
  -- Whatever the slots hold counts as written to them.
  have hkeeps : Keeps n cells fun i => (cells i).map fun c => c.entry.row := by
    intro i c _ hc
    simp only [hc, Option.map_some]
  rcases hstep.keeps ⟨n, cells, h, hkeeps⟩ with ⟨n', cells', h', _⟩
  exact ⟨n', cells', h'⟩

/-- Every page made by `Init` and changes has a layout. -/
theorem run_layout {m₀ : Mem} {prev : PageId} {changes : List Change}
    (hrun : Run (Changes schema) (init m₀ p prev) changes m) :
    ∃ n cells, Layout schema p m n cells :=
  hrun.invariant (P := fun m => ∃ n cells, Layout schema p m n cells)
    (fun _ _ _ h hstep => hstep.layout h) ⟨0, _, init_layout schema m₀ p prev⟩

/-! ## Deleting one tuple -/

/-- The page `m'` is `m` without the tuple of one slot: the slot gives no tuple and takes the next
row when no slot before it is empty, the free space grew by the size of the tuple, and the other
tuples are read, or rolled back and read, as before. -/
structure RemovesOne (schema : Schema) (m : Mem) (slotNum : UInt32) (m' : Mem) : Prop where
  unreadable : ∀ pageId, (⟨pageId, slotNum⟩ : RowId) ≠ INVALID_ROWID →
    getTuple m' ⟨⟨pageId, slotNum⟩, []⟩ schema = .ok (false, ⟨⟨pageId, slotNum⟩, []⟩)
  reusable : ∀ row size, row.HasSchema schema → row.getSerializedSize schema = .ok size →
    size + 8 ≤ getFreeSpaceRemaining m' → (∀ j, j < slotNum.toNat → getTupleSize m' j ≠ 0) →
      ∃ m'', insertTuple m' row schema =
        .ok (true, { row with rid := ⟨getTablePageId m', slotNum⟩ }, m'')
  freed : getFreeSpacePointer m' =
    getFreeSpacePointer m + unsetDeletedFlag (getTupleSize m slotNum.toNat)
  live_kept : ∀ rid row, rid ≠ INVALID_ROWID → rid.slotNum ≠ slotNum →
    getTuple m ⟨rid, []⟩ schema = .ok (true, row) →
      getTuple m' ⟨rid, []⟩ schema = .ok (true, row)
  marked_kept : ∀ rid row m₁, rid ≠ INVALID_ROWID → rid.slotNum ≠ slotNum →
    rollbackDelete m rid = .ok m₁ → getTuple m₁ ⟨rid, []⟩ schema = .ok (true, row) →
      ∃ m₂, rollbackDelete m' rid = .ok m₂ ∧ getTuple m₂ ⟨rid, []⟩ schema = .ok (true, row)

theorem Layout.filled_of_size (h : Layout schema p m n cells) {i : Nat} (hi : i < n)
    (hsize : getTupleSize m i ≠ 0) : ∃ c, cells i = some c := by
  cases hc : cells i with
  | none =>
      exact absurd (h.empty i hi hc).2 hsize
  | some c =>
      exact ⟨c, rfl⟩

/-- A tuple that can be rolled back and read stands in its slot, marked or not. -/
theorem Layout.rollback_inversion (h : Layout schema p m n cells) {row : Row} {m₁ : Mem}
    (hrid : rid ≠ INVALID_ROWID) (hroll : rollbackDelete m rid = .ok m₁)
    (hget : getTuple m₁ ⟨rid, []⟩ schema = .ok (true, row)) :
    ∃ c, rid.slotNum.toNat < n ∧ cells rid.slotNum.toNat = some c ∧ c.entry.row = row := by
  by_cases hi : rid.slotNum.toNat < n
  · cases hc : cells rid.slotNum.toNat with
    | none =>
        rw [h.rollbackDelete_empty hi hc] at hroll
        cases hroll
        rw [getTuple_fails hrid (Or.inr (h.isDeleted_empty hi hc))] at hget
        cases hget
    | some c =>
        rcases h.rollbackDelete_filled hi hc with ⟨m₂, heq, h'⟩
        rw [heq] at hroll
        cases hroll
        have hread : getTuple m₁ ⟨rid, []⟩ schema = .ok (true, c.entry.row) :=
          h'.getTuple_live (c := c.mark false) hrid hi (Function.update_self ..) rfl
        rw [hread] at hget
        cases hget
        exact ⟨c, hi, rfl, rfl⟩
  · rw [h.rollbackDelete_out (Nat.le_of_not_lt hi)] at hroll
    cases hroll

/-- A filled slot can be rolled back and read. -/
theorem Layout.rollback_reads (h : Layout schema p m n cells) (hrid : rid ≠ INVALID_ROWID)
    (hi : rid.slotNum.toNat < n) (hc : cells rid.slotNum.toNat = some c) :
    ∃ m₁, rollbackDelete m rid = .ok m₁ ∧
      getTuple m₁ ⟨rid, []⟩ schema = .ok (true, c.entry.row) := by
  rcases h.rollbackDelete_filled hi hc with ⟨m₁, heq, h'⟩
  exact ⟨m₁, heq, h'.getTuple_live (c := c.mark false) hrid hi (Function.update_self ..) rfl⟩

theorem Layout.removed_unreadable {pageId : PageId}
    (h' : Layout schema p m' (n - 1) (slid cells rid.slotNum.toNat c.offset c.size 0 none))
    (hrid : (⟨pageId, rid.slotNum⟩ : RowId) ≠ INVALID_ROWID) :
    getTuple m' ⟨⟨pageId, rid.slotNum⟩, []⟩ schema =
      .ok (false, ⟨⟨pageId, rid.slotNum⟩, []⟩) := by
  by_cases hlast : rid.slotNum.toNat < n - 1
  · have hnone : slid cells rid.slotNum.toNat c.offset c.size 0 none rid.slotNum.toNat = none :=
      if_pos rfl
    exact getTuple_fails hrid (Or.inr (h'.isDeleted_empty hlast hnone))
  · exact getTuple_fails hrid (Or.inl (by rw [h'.count]; exact Nat.le_of_not_lt hlast))

theorem Layout.removed_reusable {row : Row} (hi : rid.slotNum.toNat < n)
    (h' : Layout schema p m' (n - 1) (slid cells rid.slotNum.toNat c.offset c.size 0 none))
    (hrow : row.HasSchema schema)
    (hroom : row.encode.length + 8 ≤ getFreeSpaceRemaining m')
    (hbefore : ∀ j, j < rid.slotNum.toNat → getTupleSize m' j ≠ 0) :
    ∃ m'', insertTuple m' row schema =
      .ok (true, { row with rid := ⟨getTablePageId m', rid.slotNum⟩ }, m'') := by
  have hnext : NextSlot (n - 1) (slid cells rid.slotNum.toNat c.offset c.size 0 none)
      rid.slotNum.toNat := by
    refine ⟨by omega, fun j hj hnone => ?_, fun _ => if_pos rfl⟩
    exact hbefore j hj (h'.empty j (by omega) hnone).2
  have hinsert := h'.insertTuple_eq hrow hroom hnext
  rw [UInt32.ofNat_toNat, ← h'.pageId] at hinsert
  exact ⟨_, hinsert⟩

/-- The tuple of another slot below the new count, with the mark it had. -/
theorem removed_other {j : Nat} {d : Cell} (hne : j ≠ rid.slotNum.toNat)
    (hd : cells j = some d) :
    slid cells rid.slotNum.toNat c.offset c.size 0 none j =
      some (d.moved c.offset c.size 0) := by
  rw [slid, if_neg hne, hd]
  rfl

/-- `ApplyDelete` and the other tuples of the page.  On every page that calls and deletions make
from `Init`, and for every slot that holds a tuple, the call returns; it removes exactly this tuple
if and only if the slot is the last one or the last one is empty.  The slot that falls off the
count gives its own eight bytes to `GetFreeSpaceRemaining`. -/
theorem applyDelete_removesOne_iff {m₀ : Mem} {prev : PageId} {changes : List Change}
    (hrun : Run (Changes schema) (init m₀ p prev) changes m) (rid : RowId)
    (hrange : rid.slotNum.toNat < getTupleCount m)
    (hfilled : getTupleSize m rid.slotNum.toNat ≠ 0) :
    ∃ m', applyDelete m rid = .ok m' ∧
      getFreeSpaceRemaining m' =
        getFreeSpaceRemaining m + unsetDeletedFlag (getTupleSize m rid.slotNum.toNat) + 8 ∧
      (RemovesOne schema m rid.slotNum m' ↔
        rid.slotNum.toNat + 1 = getTupleCount m ∨
          getTupleSize m (getTupleCount m - 1) = 0) := by
  rcases run_layout hrun with ⟨n, cells, h⟩
  rw [h.count] at hrange ⊢
  rcases h.filled_of_size hrange hfilled with ⟨c, hc⟩
  have hs := h.filled _ c hrange hc
  have h' := h.delete hrange hc
  have hlo := hs.above
  have hhi := hs.below
  have hlow := h.low
  have hrem := h.remaining
  have hrem' := h'.remaining
  have hsize : unsetDeletedFlag (getTupleSize m rid.slotNum.toNat) = c.size :=
    (h.sizeWord_mark hrange hc).2
  simp only [PAGE_SIZE, SIZE_TABLE_PAGE_HEADER, SIZE_TUPLE] at hlow hhi
  rcases deletedPage_words (m := m) (a := c.offset) hrange
    (show getFreeSpacePointer m + c.size < 2 ^ 32 by omega) (by omega) with ⟨hptr, _, _, _⟩
  refine ⟨_, h.applyDelete_filled hrange hc, by omega, ?_⟩
  set m' := deletedPage m (getFreeSpacePointer m) c.offset c.size rid.slotNum.toNat n with hm'
  constructor
  · -- The tuple of the last slot cannot be rolled back and read any more.
    intro hone
    by_contra hlost
    rcases not_or.mp hlost with ⟨hnotlast, hlastsize⟩
    have hlast : n - 1 < n := by omega
    rcases h.filled_of_size hlast hlastsize with ⟨d, hd⟩
    let last : RowId := ⟨0, UInt32.ofNat (n - 1)⟩
    have hnum : last.slotNum.toNat = n - 1 := UInt32.toNat_ofNat_of_lt' (by
      show n - 1 < 2 ^ 32
      omega)
    have hvalid : last ≠ INVALID_ROWID := by
      intro heq
      have hpage : (0 : PageId) = INVALID_PAGE_ID := congrArg RowId.pageId heq
      exact absurd hpage (by decide)
    have hother : last.slotNum ≠ rid.slotNum := by
      intro heq
      rw [heq] at hnum
      omega
    rcases h.rollback_reads hvalid (by omega) (by rw [hnum]; exact hd) with ⟨m₁, hroll, hget⟩
    rcases hone.marked_kept last _ m₁ hvalid hother hroll hget with ⟨m₂, hroll', _⟩
    rw [h'.rollbackDelete_out (by omega)] at hroll'
    cases hroll'
  · intro hcond
    -- Another filled slot is below the new count.
    have hbelow : ∀ j d, j < n → j ≠ rid.slotNum.toNat → cells j = some d → j < n - 1 := by
      intro j d hj hne hd
      rcases hcond with hlast | hempty
      · omega
      · have hpos := (h.filled j d hj hd).sizeWord_pos
        by_contra hge
        have hj' : j = n - 1 := by omega
        exact hpos (hj' ▸ hempty)
    have hslot : ∀ other : RowId, other.slotNum ≠ rid.slotNum →
        other.slotNum.toNat ≠ rid.slotNum.toNat :=
      fun other hne heq => hne (UInt32.toNat_inj.mp heq)
    refine ⟨?_, ?_, ?_, ?_, ?_⟩
    · exact fun pageId hrid => h'.removed_unreadable hrid
    · intro row size hrow hserialized hroom hbefore
      rw [size_eq hrow hserialized] at hroom
      exact h'.removed_reusable hrange hrow hroom hbefore
    · rw [hptr, hsize]
    · intro other row hother hne hget
      rcases h.getTuple_inversion hother hget with ⟨d, hj, hd, hlive, rfl⟩
      have hne' := hslot other hne
      have hd' := removed_other (c := c) hne' hd
      rw [h'.getTuple_live hother (hbelow _ d hj hne' hd) hd' (by simpa using hlive),
        Cell.moved_entry]
    · intro other row m₁ hother hne hroll hget
      rcases h.rollback_inversion hother hroll hget with ⟨d, hj, hd, rfl⟩
      have hne' := hslot other hne
      have hd' := removed_other (c := c) hne' hd
      have hreads := h'.rollback_reads hother (hbelow _ d hj hne' hd) hd'
      rwa [Cell.moved_entry] at hreads

/-- Two sample rows are inserted into an empty page. -/
theorem two_rows_layout :
    ∃ m, Run (Changes Schema.sample) (init (fun _ => 0) 5 INVALID_PAGE_ID)
        [.call (.insertTuple Row.sample), .call (.insertTuple Row.sample)] m ∧
      getTupleCount m = 2 ∧ getTupleSize m 0 = 21 ∧ getTupleSize m 1 = 21 ∧
      getTuple m ⟨⟨5, 1⟩, []⟩ Schema.sample = .ok (true, Row.sample) := by
  have hsize : Row.sample.encode.length = 21 := rfl
  have hrow := Row.sample_hasSchema
  have h₀ := init_represents Schema.sample (fun _ => 0) 5 INVALID_PAGE_ID
  have hroom₀ : Row.sample.encode.length + SIZE_TUPLE ≤
      getFreeSpaceRemaining (init (fun _ => 0) 5 INVALID_PAGE_ID) := by
    rw [h₀.remaining]
    decide
  have h₁ := h₀.insert hrow hroom₀
  have hroom₁ := h₁.remaining
  have h₂ := h₁.insert hrow (by rw [hroom₁]; decide)
  refine ⟨_, Run.cons (Changes.call (Step.insertTuple hrow (h₀.insertTuple_eq hrow hroom₀)))
    (Run.cons (Changes.call (Step.insertTuple hrow (h₁.insertTuple_eq hrow
      (by rw [hroom₁]; decide)))) (Run.nil _)), h₂.count, ?_, ?_, ?_⟩
  · exact h₂.slot_size 0 _ rfl
  · exact h₂.slot_size 1 _ rfl
  · exact h₂.getTuple_live (by decide) rfl

/-- With two tuples on the page, deleting the second removes exactly this one. -/
theorem applyDelete_removesOne_last :
    ∃ m m', Run (Changes Schema.sample) (init (fun _ => 0) 5 INVALID_PAGE_ID)
        [.call (.insertTuple Row.sample), .call (.insertTuple Row.sample)] m ∧
      applyDelete m ⟨5, 1⟩ = .ok m' ∧ RemovesOne Schema.sample m 1 m' := by
  rcases two_rows_layout with ⟨m, hrun, hcount, _, hsize, _⟩
  rcases applyDelete_removesOne_iff hrun ⟨5, 1⟩ (by rw [hcount]; decide)
    (by rw [show ((1 : UInt32).toNat) = 1 from rfl, hsize]; decide) with ⟨m', hdelete, _, hiff⟩
  exact ⟨m, m', hrun, hdelete, hiff.mpr (Or.inl (by rw [hcount]; rfl))⟩

/-- Deleting the first of two tuples hides the second: its slot is beyond the count. -/
theorem applyDelete_loses_last :
    ∃ m m', Run (Changes Schema.sample) (init (fun _ => 0) 5 INVALID_PAGE_ID)
        [.call (.insertTuple Row.sample), .call (.insertTuple Row.sample)] m ∧
      getTuple m ⟨⟨5, 1⟩, []⟩ Schema.sample = .ok (true, Row.sample) ∧
      applyDelete m ⟨5, 0⟩ = .ok m' ∧
      getTuple m' ⟨⟨5, 1⟩, []⟩ Schema.sample = .ok (false, ⟨⟨5, 1⟩, []⟩) ∧
      ¬RemovesOne Schema.sample m 0 m' := by
  rcases two_rows_layout with ⟨m, hrun, hcount, hsize, _, hget⟩
  rcases run_layout hrun with ⟨n, cells, h⟩
  have hn : n = 2 := h.count.symm.trans hcount
  subst hn
  have hslot : (⟨5, 0⟩ : RowId).slotNum.toNat < 2 := by decide
  rcases h.filled_of_size hslot (by rw [show (0 : UInt32).toNat = 0 from rfl, hsize]; decide)
    with ⟨c, hc⟩
  have h' := h.delete hslot hc
  have hhidden : getTuple (deletedPage m (getFreeSpacePointer m) c.offset c.size 0 2)
      ⟨⟨5, 1⟩, []⟩ Schema.sample = .ok (false, ⟨⟨5, 1⟩, []⟩) :=
    getTuple_fails (by decide) (Or.inl (le_of_eq h'.count))
  refine ⟨m, _, hrun, hget, h.applyDelete_filled hslot hc, hhidden, fun hone => ?_⟩
  have hkept := hone.live_kept ⟨5, 1⟩ Row.sample (by decide) (by decide) hget
  exact absurd (hkept.symm.trans hhidden) (by simp)

end TablePage
end MiniSQL
