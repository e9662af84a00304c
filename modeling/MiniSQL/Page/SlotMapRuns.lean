import MiniSQL.Page.SlotMap

/-!
# SlotMapRuns — the operations of a slotted page refine a list of entries

`Behaves` says what each operation does on a page that represents a list of entries, and
`refines_slot_map` that every sequence of calls from `Init` leads to a page that represents the
list the calls build.  A row handed to `GetTuple` or `UpdateTuple` to be filled is one made from a
`RowId` alone, as the assertion of `DeserializeFrom` demands.
-/

namespace MiniSQL
namespace TablePage

open Lib

variable {schema : Schema} {p : PageId} {m : Mem} {es : List Entry} {e : Entry} {k : Nat}

/-! ## What each operation does -/

theorem Represents.length_lt (h : Represents schema p m es) : es.length < 2 ^ 32 := by
  have hfits := h.fits
  simp only [PAGE_SIZE, SIZE_TABLE_PAGE_HEADER, SIZE_TUPLE] at hfits
  omega

theorem Represents.out_of_range (h : Represents schema p m es) {rid : RowId}
    (hnone : es[rid.slotNum.toNat]? = none) : rid.slotNum.toNat ≥ getTupleCount m := by
  rw [h.count]
  exact List.getElem?_eq_none_iff.mp hnone

theorem Represents.in_range (h : Represents schema p m es) {rid : RowId}
    (he : es[rid.slotNum.toNat]? = some e) : ¬rid.slotNum.toNat ≥ getTupleCount m := by
  have hlt := lt_length_of_getElem? he
  rw [h.count]
  omega

/-- The size word of an entry without mark is its size. -/
theorem Represents.size_of_live (h : Represents schema p m es) {row : Row}
    (he : es[k]? = some ⟨row, false⟩) : getTupleSize m k = row.encode.length :=
  h.slot_size k _ he

theorem Represents.not_isDeleted (h : Represents schema p m es) {row : Row}
    (he : es[k]? = some ⟨row, false⟩) : TablePage.isDeleted row.encode.length = false := by
  rw [← h.size_of_live he]
  exact h.isDeleted he

theorem Represents.markDelete_live (h : Represents schema p m es) {rid : RowId} {row : Row}
    (he : es[rid.slotNum.toNat]? = some ⟨row, false⟩) :
    ∃ m', markDelete m rid = (true, m') ∧
      Represents schema p m' (es.set rid.slotNum.toNat ⟨row, true⟩) := by
  rcases h.size_bounds he with ⟨hpos, hlt⟩
  have hsize := h.size_of_live he
  have hword : setDeletedFlag row.encode.length = Entry.sizeWord ⟨row, true⟩ :=
    setDeletedFlag_of_lt hlt
  refine ⟨_, ?_, h.setMark he true⟩
  simp only [markDelete, h.in_range he, if_false, hsize, h.not_isDeleted he, Bool.false_eq_true]
  rw [if_pos (show row.encode.length > 0 from hpos), hword]

theorem Represents.markDelete_marked (h : Represents schema p m es) {rid : RowId} {row : Row}
    (he : es[rid.slotNum.toNat]? = some ⟨row, true⟩) : markDelete m rid = (false, m) := by
  simp only [markDelete, h.in_range he, if_false, h.isDeleted he, if_true]

theorem Represents.markDelete_none (h : Represents schema p m es) {rid : RowId}
    (hnone : es[rid.slotNum.toNat]? = none) : markDelete m rid = (false, m) := by
  simp only [markDelete, h.out_of_range hnone, if_true]

theorem Represents.rollbackDelete_some (h : Represents schema p m es) {rid : RowId}
    (he : es[rid.slotNum.toNat]? = some e) :
    ∃ m', rollbackDelete m rid = .ok m' ∧ (e.marked = false → m' = m) ∧
      Represents schema p m' (es.set rid.slotNum.toNat { e with marked := false }) := by
  rcases e with ⟨row, marked⟩
  have hrange : rid.slotNum.toNat < getTupleCount m := Nat.lt_of_not_le (h.in_range he)
  rcases h.size_bounds he with ⟨_, hlt⟩
  cases marked with
  | true =>
      -- Without the flag the size word is the size again.
      have hword : unsetDeletedFlag (getTupleSize m rid.slotNum.toNat) =
          Entry.sizeWord ⟨row, false⟩ := by
        rw [h.slot_size _ _ he]
        exact unsetDeletedFlag_add_mask hlt
      refine ⟨_, ?_, by simp, h.setMark he false⟩
      simp only [rollbackDelete, hrange, decide_true, assert_true, ok_bind, h.isDeleted he, if_true,
        hword]
  | false =>
      refine ⟨m, ?_, fun _ => rfl, ?_⟩
      · simp only [rollbackDelete, hrange, decide_true, assert_true, ok_bind, h.isDeleted he,
          Bool.false_eq_true, if_false]
      · rcases List.getElem?_eq_some_iff.mp he with ⟨hlt, hget⟩
        rw [← hget, List.set_getElem_self hlt]
        exact h

theorem Represents.rollbackDelete_none (h : Represents schema p m es) {rid : RowId}
    (hnone : es[rid.slotNum.toNat]? = none) :
    rollbackDelete m rid = .error (.assertion "We can't have more slots than tuples.") := by
  have hrange : ¬rid.slotNum.toNat < getTupleCount m := by
    have := h.out_of_range hnone
    omega
  simp [rollbackDelete, hrange, assert]

/-- The row stored in slot `k` is what an empty row reads there. -/
theorem Represents.deserialize (h : Represents schema p m es) (he : es[k]? = some e)
    (target : Row) (hempty : target.fields = []) :
    target.deserializeFrom schema m (getTupleOffsetAtSlot m k) = .ok (e.row, e.size) := by
  rw [h.slot_offset k e he]
  exact Row.reads_encode (h.typed e (List.mem_of_getElem? he)) hempty m _ (h.bytes k e he)

theorem Represents.getTuple_live (h : Represents schema p m es) {rid : RowId} {row : Row}
    (hrid : rid ≠ INVALID_ROWID) (he : es[rid.slotNum.toNat]? = some ⟨row, false⟩) :
    getTuple m ⟨rid, []⟩ schema = .ok (true, row) := by
  have hread := h.deserialize he ⟨rid, []⟩ rfl
  simp only [getTuple, hrid, ne_eq, not_false_eq_true, decide_true, assert_true, ok_bind,
    h.in_range he, if_false, h.size_of_live he, h.not_isDeleted he, Bool.false_eq_true, hread,
    Entry.size]

theorem Represents.getTuple_marked (h : Represents schema p m es) {rid : RowId} {row : Row}
    (hrid : rid ≠ INVALID_ROWID) (he : es[rid.slotNum.toNat]? = some ⟨row, true⟩) :
    getTuple m ⟨rid, []⟩ schema = .ok (false, ⟨rid, []⟩) := by
  simp only [getTuple, hrid, ne_eq, not_false_eq_true, decide_true, assert_true, ok_bind,
    h.in_range he, if_false, h.isDeleted he, if_true]

theorem Represents.getTuple_none (h : Represents schema p m es) {rid : RowId}
    (hrid : rid ≠ INVALID_ROWID) (hnone : es[rid.slotNum.toNat]? = none) :
    getTuple m ⟨rid, []⟩ schema = .ok (false, ⟨rid, []⟩) := by
  simp only [getTuple, hrid, ne_eq, not_false_eq_true, decide_true, assert_true, ok_bind,
    h.out_of_range hnone, if_true]

/-- The check for space in `UpdateTuple`: the sum of two sizes of the page does not wrap. -/
theorem Represents.room_lt (h : Represents schema p m es) {row : Row}
    (he : es[k]? = some ⟨row, false⟩) :
    (getFreeSpaceRemaining m + row.encode.length) % 2 ^ 32 =
      getFreeSpaceRemaining m + row.encode.length := by
  have hrem := h.remaining
  rcases h.size_bounds he with ⟨_, hlt⟩
  simp only [Entry.size] at hlt
  simp only [PAGE_SIZE] at hrem
  exact Nat.mod_eq_of_lt (by omega)

/-- `UpdateTuple` on a live slot `k` whose tuple stands between the free space pointer and the end
of the page, with room for the new row. -/
theorem updateTuple_of_live {row oldRow old : Row} {fsp a ts n : Nat}
    (hrow : schema.getColumnCount = row.fields.length) (hrid : oldRow.rid ≠ INVALID_ROWID)
    (hcount : getTupleCount m = n) (hk : oldRow.rid.slotNum.toNat < n)
    (hptr : getFreeSpacePointer m = fsp)
    (hoff : getTupleOffsetAtSlot m oldRow.rid.slotNum.toNat = a)
    (hsize : getTupleSize m oldRow.rid.slotNum.toNat = ts) (hlive : isDeleted ts = false)
    (hread : oldRow.deserializeFrom schema m a = .ok (old, ts))
    (hrem : getFreeSpaceRemaining m = fsp - 24 - 8 * n) (hfits : 24 + 8 * n ≤ fsp)
    (hlo : fsp ≤ a) (hhi : a + ts ≤ PAGE_SIZE)
    (hroom : row.encode.length ≤ getFreeSpaceRemaining m + ts) :
    updateTuple m row oldRow schema =
      .ok (true, old, updated m row fsp a ts oldRow.rid.slotNum.toNat n) := by
  have hpos := encode_pos row
  simp only [PAGE_SIZE] at hhi
  have hlow : 24 + 8 * n + row.encode.length ≤ fsp + ts := by omega
  have hbelow : row.encode.length ≤ fsp + ts := by omega
  have hin : ¬oldRow.rid.slotNum.toNat ≥ n := by omega
  -- Inside the page none of the 32-bit computations wraps.
  have hsum : (getFreeSpaceRemaining m + ts) % 2 ^ 32 = getFreeSpaceRemaining m + ts :=
    Nat.mod_eq_of_lt (by omega)
  have hwrap : wrap32 (fsp + ts - row.encode.length) = fsp + ts - row.encode.length := by
    unfold wrap32
    omega
  have hlimit : (a + ts) % 2 ^ 32 = a + ts := Nat.mod_eq_of_lt (by omega)
  -- The tuple count is read again by the loop; none of the writes touches it.
  have hcount' : getTupleCount (replaced m row fsp a ts oldRow.rid.slotNum.toNat) = n := by
    rw [← hcount]
    refine Mem.u32_congr fun j h1 h2 => replaced_frame hlow hlo ?_ hk
    omega
  have hge : decide (a ≥ fsp) = true := decide_eq_true hlo
  have hnot : ¬(getFreeSpaceRemaining m + ts < row.encode.length) := by omega
  simp only [replaced] at hcount'
  simp only [updateTuple, hrid, ne_eq, not_false_eq_true, decide_true, assert_true, ok_bind,
    Row.getSerializedSize_of_count hrow, hpos, hcount, hin, if_false, hsize, hlive,
    Bool.false_eq_true, hsum, hnot, hoff, hread, hptr, hge, hbelow, if_true, hwrap,
    Row.serializeTo_of_count hrow, hlimit, hcount', updated, replaced]

theorem Represents.updateTuple_live (h : Represents schema p m es) {rid : RowId} {row old : Row}
    (hrow : row.HasSchema schema) (hrid : rid ≠ INVALID_ROWID)
    (he : es[rid.slotNum.toNat]? = some ⟨old, false⟩)
    (hroom : row.encode.length ≤ getFreeSpaceRemaining m + old.encode.length) :
    updateTuple m row ⟨rid, []⟩ schema =
      .ok (true, old, updated m row (PAGE_SIZE - used es) (offset es rid.slotNum.toNat)
        old.encode.length rid.slotNum.toNat es.length) := by
  have hoff := h.slot_offset _ _ he
  have hread := h.deserialize he ⟨rid, []⟩ rfl
  rw [hoff] at hread
  have hfits := h.fits
  rcases offset_order h.used_le he he with ⟨hlo, hhi, _, _⟩
  have hlow : 24 + 8 * es.length ≤ PAGE_SIZE - used es := by
    simp only [PAGE_SIZE, SIZE_TABLE_PAGE_HEADER, SIZE_TUPLE] at *
    omega
  exact updateTuple_of_live hrow.count hrid h.count (lt_length_of_getElem? he) h.pointer
    hoff (h.size_of_live he) (h.not_isDeleted he) hread h.remaining hlow hlo hhi hroom

theorem Represents.updateTuple_full (h : Represents schema p m es) {rid : RowId} {row old : Row}
    (hrow : row.HasSchema schema) (hrid : rid ≠ INVALID_ROWID)
    (he : es[rid.slotNum.toNat]? = some ⟨old, false⟩)
    (hfull : getFreeSpaceRemaining m + old.encode.length < row.encode.length) :
    updateTuple m row ⟨rid, []⟩ schema = .ok (false, ⟨rid, []⟩, m) := by
  have hpos := encode_pos row
  simp only [updateTuple, hrid, ne_eq, not_false_eq_true, decide_true, assert_true, ok_bind,
    Row.getSerializedSize_eq hrow, hpos, h.in_range he, if_false, h.size_of_live he,
    h.not_isDeleted he, Bool.false_eq_true, h.room_lt he, hfull, if_true]

theorem Represents.updateTuple_marked (h : Represents schema p m es) {rid : RowId} {row old : Row}
    (hrow : row.HasSchema schema) (hrid : rid ≠ INVALID_ROWID)
    (he : es[rid.slotNum.toNat]? = some ⟨old, true⟩) :
    updateTuple m row ⟨rid, []⟩ schema = .ok (false, ⟨rid, []⟩, m) := by
  have hpos := encode_pos row
  simp only [updateTuple, hrid, ne_eq, not_false_eq_true, decide_true, assert_true, ok_bind,
    Row.getSerializedSize_eq hrow, hpos, h.in_range he, if_false, h.isDeleted he, if_true]

theorem Represents.updateTuple_none (h : Represents schema p m es) {rid : RowId} {row : Row}
    (hrow : row.HasSchema schema) (hrid : rid ≠ INVALID_ROWID)
    (hnone : es[rid.slotNum.toNat]? = none) :
    updateTuple m row ⟨rid, []⟩ schema = .ok (false, ⟨rid, []⟩, m) := by
  have hpos := encode_pos row
  simp only [updateTuple, hrid, ne_eq, not_false_eq_true, decide_true, assert_true, ok_bind,
    Row.getSerializedSize_eq hrow, hpos, h.out_of_range hnone, if_true]

/-! ## The slot map -/

/-- The calls the page answers. -/
inductive Call
  | insertTuple (row : Row)
  | updateTuple (newRow : Row) (rid : RowId)
  | markDelete (rid : RowId)
  | rollbackDelete (rid : RowId)
  | getTuple (rid : RowId)

/-- The slot an update, a mark or a rollback is for. -/
def Call.target : Call → Option Nat
  | .updateTuple _ rid => some rid.slotNum.toNat
  | .markDelete rid => some rid.slotNum.toNat
  | .rollbackDelete rid => some rid.slotNum.toNat
  | _ => none

/-- Space left beside the slots and the entries. -/
def room (es : List Entry) : Nat :=
  PAGE_SIZE - used es - SIZE_TABLE_PAGE_HEADER - SIZE_TUPLE * es.length

/-- What a call does to the entries. -/
def apply (es : List Entry) : Call → List Entry
  | .insertTuple row =>
    if room es < row.encode.length + SIZE_TUPLE then es else es ++ [⟨row, false⟩]
  | .updateTuple newRow rid =>
    match es[rid.slotNum.toNat]? with
    | some ⟨oldRow, false⟩ =>
      if room es + oldRow.encode.length < newRow.encode.length then es
      else es.set rid.slotNum.toNat ⟨newRow, false⟩
    | _ => es
  | .markDelete rid =>
    match es[rid.slotNum.toNat]? with
    | some e => es.set rid.slotNum.toNat { e with marked := true }
    | none => es
  | .rollbackDelete rid =>
    match es[rid.slotNum.toNat]? with
    | some e => es.set rid.slotNum.toNat { e with marked := false }
    | none => es
  | .getTuple _ => es

/-- What the operations do on a page that holds `es`: what they return and, when they change the
page, which entries it holds after.  `⟨rid, []⟩` is the row `Row(rid)`. -/
structure Behaves (schema : Schema) (p : PageId) (m : Mem) (es : List Entry) : Prop where
  insert_full : ∀ row size, row.HasSchema schema → row.getSerializedSize schema = .ok size →
    getFreeSpaceRemaining m < size + 8 → insertTuple m row schema = .ok (false, row, m)
  insert_room : ∀ row size, row.HasSchema schema → row.getSerializedSize schema = .ok size →
    ¬getFreeSpaceRemaining m < size + 8 →
      ∃ (slotNum : UInt32) (m' : Mem), slotNum.toNat = es.length ∧
        insertTuple m row schema = .ok (true, { row with rid := ⟨p, slotNum⟩ }, m') ∧
        Represents schema p m' (es ++ [⟨row, false⟩])
  mark_live : ∀ rid row, es[rid.slotNum.toNat]? = some ⟨row, false⟩ →
    ∃ m', markDelete m rid = (true, m') ∧
      Represents schema p m' (es.set rid.slotNum.toNat ⟨row, true⟩)
  mark_fails : ∀ rid, (∀ row, es[rid.slotNum.toNat]? ≠ some ⟨row, false⟩) →
    markDelete m rid = (false, m)
  rollback : ∀ rid e, es[rid.slotNum.toNat]? = some e →
    ∃ m', rollbackDelete m rid = .ok m' ∧ (e.marked = false → m' = m) ∧
      Represents schema p m' (es.set rid.slotNum.toNat ⟨e.row, false⟩)
  update_room : ∀ newRow size rid oldRow oldSize, newRow.HasSchema schema →
    newRow.getSerializedSize schema = .ok size → rid ≠ INVALID_ROWID →
    es[rid.slotNum.toNat]? = some ⟨oldRow, false⟩ →
    oldRow.getSerializedSize schema = .ok oldSize →
    ¬getFreeSpaceRemaining m + oldSize < size →
      ∃ m', updateTuple m newRow ⟨rid, []⟩ schema = .ok (true, oldRow, m') ∧
        Represents schema p m' (es.set rid.slotNum.toNat ⟨newRow, false⟩)
  update_fails : ∀ newRow size rid, newRow.HasSchema schema →
    newRow.getSerializedSize schema = .ok size → rid ≠ INVALID_ROWID →
    (∀ oldRow oldSize, es[rid.slotNum.toNat]? = some ⟨oldRow, false⟩ →
      oldRow.getSerializedSize schema = .ok oldSize → getFreeSpaceRemaining m + oldSize < size) →
      updateTuple m newRow ⟨rid, []⟩ schema = .ok (false, ⟨rid, []⟩, m)
  get_live : ∀ rid row, rid ≠ INVALID_ROWID → es[rid.slotNum.toNat]? = some ⟨row, false⟩ →
    getTuple m ⟨rid, []⟩ schema = .ok (true, row)
  get_fails : ∀ rid, rid ≠ INVALID_ROWID → (∀ row, es[rid.slotNum.toNat]? ≠ some ⟨row, false⟩) →
    getTuple m ⟨rid, []⟩ schema = .ok (false, ⟨rid, []⟩)

/-- A slot number is out of range, marked or live. -/
theorem slot_cases (es : List Entry) (i : Nat) :
    es[i]? = none ∨ (∃ row, es[i]? = some ⟨row, true⟩) ∨ ∃ row, es[i]? = some ⟨row, false⟩ := by
  cases h : es[i]? with
  | none =>
      exact Or.inl rfl
  | some e =>
      rcases e with ⟨row, marked⟩
      cases marked with
      | true =>
          exact Or.inr (Or.inl ⟨row, rfl⟩)
      | false =>
          exact Or.inr (Or.inr ⟨row, rfl⟩)

theorem size_eq {row : Row} {size : Nat} (hrow : row.HasSchema schema)
    (h : row.getSerializedSize schema = .ok size) : size = row.encode.length := by
  rw [Row.getSerializedSize_eq hrow] at h
  exact (Except.ok.inj h).symm

theorem Represents.behaves (h : Represents schema p m es) : Behaves schema p m es where
  insert_full := by
    intro row size hrow hsize hfull
    rw [size_eq hrow hsize] at hfull
    exact insertTuple_of_full hrow.count hfull
  insert_room := by
    intro row size hrow hsize hroom
    rw [size_eq hrow hsize] at hroom
    have hroom' : row.encode.length + SIZE_TUPLE ≤ getFreeSpaceRemaining m := Nat.le_of_not_lt hroom
    refine ⟨UInt32.ofNat es.length, _, ?_, h.insertTuple_eq hrow hroom', h.insert hrow hroom'⟩
    exact UInt32.toNat_ofNat_of_lt' h.length_lt
  mark_live := fun _ _ he => h.markDelete_live he
  mark_fails := by
    intro rid hnot
    rcases slot_cases es rid.slotNum.toNat with hnone | ⟨row, he⟩ | ⟨row, he⟩
    · exact h.markDelete_none hnone
    · exact h.markDelete_marked he
    · exact absurd he (hnot row)
  rollback := fun _ _ he => h.rollbackDelete_some he
  update_room := by
    intro newRow size rid oldRow oldSize hrow hsize hrid he hold hroom
    rw [size_eq hrow hsize, size_eq (h.typed _ (List.mem_of_getElem? he)) hold] at hroom
    have hroom' := Nat.le_of_not_lt hroom
    exact ⟨_, h.updateTuple_live hrow hrid he hroom', (h.update hrow he hroom').1⟩
  update_fails := by
    intro newRow size rid hrow hsize hrid hnot
    rcases slot_cases es rid.slotNum.toNat with hnone | ⟨row, he⟩ | ⟨row, he⟩
    · exact h.updateTuple_none hrow hrid hnone
    · exact h.updateTuple_marked hrow hrid he
    · have hfull := hnot row _ he
        (Row.getSerializedSize_eq (h.typed _ (List.mem_of_getElem? he)))
      rw [size_eq hrow hsize] at hfull
      exact h.updateTuple_full hrow hrid he hfull
  get_live := fun _ _ hrid he => h.getTuple_live hrid he
  get_fails := by
    intro rid hrid hnot
    rcases slot_cases es rid.slotNum.toNat with hnone | ⟨row, he⟩ | ⟨row, he⟩
    · exact h.getTuple_none hrid hnone
    · exact h.getTuple_marked hrid he
    · exact absurd he (hnot row)

/-! ## Runs -/

/-- A call that returns, with rows of the schema. -/
inductive Step (schema : Schema) : Mem → Call → Mem → Prop
  | insertTuple {m m' : Mem} {row row' : Row} {done : Bool} :
      row.HasSchema schema → insertTuple m row schema = .ok (done, row', m') →
      Step schema m (.insertTuple row) m'
  | updateTuple {m m' : Mem} {newRow oldRow : Row} {rid : RowId} {done : Bool} :
      newRow.HasSchema schema → updateTuple m newRow ⟨rid, []⟩ schema = .ok (done, oldRow, m') →
      Step schema m (.updateTuple newRow rid) m'
  | markDelete {m : Mem} {rid : RowId} : Step schema m (.markDelete rid) (markDelete m rid).2
  | rollbackDelete {m m' : Mem} {rid : RowId} :
      rollbackDelete m rid = .ok m' → Step schema m (.rollbackDelete rid) m'
  | getTuple {m : Mem} {rid : RowId} {reply : Bool × Row} :
      getTuple m ⟨rid, []⟩ schema = .ok reply → Step schema m (.getTuple rid) m

theorem Represents.room_eq (h : Represents schema p m es) : getFreeSpaceRemaining m = room es :=
  h.remaining

theorem updateTuple_rid_ne {newRow oldRow : Row} {reply : Bool × Row × Mem}
    (h : updateTuple m newRow oldRow schema = .ok reply) : oldRow.rid ≠ INVALID_ROWID := by
  rcases bind_eq_ok.mp h with ⟨_, hassert, _⟩
  simpa using hassert

/-- One call keeps the page and the list of entries in step. -/
theorem Step.represents {m m' : Mem} {c : Call} {es : List Entry} (h : Represents schema p m es)
    (hstep : Step schema m c m') : Represents schema p m' (apply es c) := by
  have hb := h.behaves
  cases hstep with
  | @insertTuple _ row row' done hrow hok =>
      simp only [apply, ← h.room_eq]
      split
      · rename_i hfull
        rw [hb.insert_full row _ hrow (Row.getSerializedSize_eq hrow) hfull] at hok
        cases hok
        exact h
      · rename_i hroom
        rcases hb.insert_room row _ hrow (Row.getSerializedSize_eq hrow) hroom with
          ⟨_, m'', _, heq, hrep⟩
        rw [heq] at hok
        cases hok
        exact hrep
  | @updateTuple _ newRow oldRow rid done hrow hok =>
      have hrid : rid ≠ INVALID_ROWID := updateTuple_rid_ne hok
      have hsize := Row.getSerializedSize_eq hrow
      rcases slot_cases es rid.slotNum.toNat with hnone | ⟨row, he⟩ | ⟨row, he⟩
      · rw [h.updateTuple_none hrow hrid hnone] at hok
        cases hok
        simpa only [apply, hnone] using h
      · rw [h.updateTuple_marked hrow hrid he] at hok
        cases hok
        simpa only [apply, he] using h
      · simp only [apply, he, ← h.room_eq]
        split
        · rename_i hfull
          rw [h.updateTuple_full hrow hrid he hfull] at hok
          cases hok
          exact h
        · rename_i hroom
          have hroom' := Nat.le_of_not_lt hroom
          rw [h.updateTuple_live hrow hrid he hroom'] at hok
          cases hok
          exact (h.update hrow he hroom').1
  | @markDelete rid =>
      rcases slot_cases es rid.slotNum.toNat with hnone | ⟨row, he⟩ | ⟨row, he⟩
      · rw [h.markDelete_none hnone]
        simpa only [apply, hnone] using h
      · -- The call fails, and setting the mark again changes nothing.
        rw [h.markDelete_marked he]
        rcases List.getElem?_eq_some_iff.mp he with ⟨hlt, hget⟩
        simp only [apply, he]
        rw [← hget, List.set_getElem_self hlt]
        exact h
      · rcases h.markDelete_live he with ⟨m'', heq, hrep⟩
        rw [heq]
        simpa only [apply, he] using hrep
  | @rollbackDelete _ rid hok =>
      cases he : es[rid.slotNum.toNat]? with
      | none =>
          -- The assertion fails, so this call does not return.
          rw [h.rollbackDelete_none he] at hok
          cases hok
      | some e =>
          rcases h.rollbackDelete_some he with ⟨m'', heq, _, hrep⟩
          rw [heq] at hok
          cases hok
          simpa only [apply, he] using hrep
  | getTuple _ =>
      exact h

theorem run_represents {m m' : Mem} {calls : List Call} {es : List Entry}
    (h : Represents schema p m es) (hrun : Run (Step schema) m calls m') :
    Represents schema p m' (calls.foldl apply es) :=
  hrun.simulates (fun _ _ _ _ h hstep => hstep.represents h) h

end TablePage
end MiniSQL
