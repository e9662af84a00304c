import MiniSQL.Lib.Blocks
import MiniSQL.Page.SlotLayout

/-!
# SlotGeometry — where the tuples of a slotted page lie

Whatever rows and schemas the calls are made with, the tuples of a page lie between the free space
pointer and the end of the page and do not overlap, and the slots end below the free space pointer.
The tuples are `Packed` blocks: an insertion allocates one, `UpdateTuple` and `ApplyDelete` resize
one.  `stores` lists what a call writes to the page, in its order, and `slotted_geometry` says that
all of it stays on its side of the page.
-/

namespace MiniSQL
namespace TablePage

open Lib

/-! ## Calls and their stores -/

/-- The calls that change a page, each with its own schema. -/
inductive Mutation
  | insertTuple (row : Row) (schema : Schema)
  | updateTuple (newRow oldRow : Row) (schema : Schema)
  | markDelete (rid : RowId)
  | rollbackDelete (rid : RowId)
  | applyDelete (rid : RowId)

/-- The page after a call that returns. -/
def mutate (m : Mem) : Mutation → Result Mem
  | .insertTuple row schema => do return (← insertTuple m row schema).2.2
  | .updateTuple newRow oldRow schema => do return (← updateTuple m newRow oldRow schema).2.2
  | .markDelete rid => return (markDelete m rid).2
  | .rollbackDelete rid => rollbackDelete m rid
  | .applyDelete rid => applyDelete m rid

/-- What is written to a page: a word of the header or of a slot, the bytes of a tuple, or tuples
that move. -/
inductive Store
  | word (a v : Nat)
  | tuple (a : Nat) (bs : List UInt8)
  | move (dst src len : Nat)

def Store.exec (m : Mem) : Store → Mem
  | .word a v => m.setU32 a v
  | .tuple a bs => m.store a bs
  | .move dst src len => m.memmove dst src len

/-- The store lies on the page: a word before `slotsEnd`, where the slots end, and the bytes of
tuples behind it. -/
def Store.Inside (slotsEnd : Nat) : Store → Prop
  | .word a _ => 16 ≤ a ∧ a + 4 ≤ slotsEnd
  | .tuple a bs => slotsEnd ≤ a ∧ a + bs.length ≤ PAGE_SIZE
  | .move dst src len =>
    slotsEnd ≤ dst ∧ dst + len ≤ PAGE_SIZE ∧ slotsEnd ≤ src ∧ src + len ≤ PAGE_SIZE

/-- The stores of the loop over the offsets, `moveOffsets`. -/
def offsetStores (limit tupleSize newSize : Nat) : Nat → Nat → Mem → List Store
  | 0, _, _ => []
  | k + 1, i, m =>
    if getTupleSize m i > 0 ∧ getTupleOffsetAtSlot m i < limit then
      let offset := wrap32 (getTupleOffsetAtSlot m i + tupleSize - newSize)
      .word (24 + SIZE_TUPLE * i) offset ::
        offsetStores limit tupleSize newSize k (i + 1) (setTupleOffsetAtSlot m i offset)
    else offsetStores limit tupleSize newSize k (i + 1) m

/-- The stores of an insertion at address `a` in slot `i`. -/
def insertStores (row : Row) (a i tupleCount : Nat) : List Store :=
  [.word 16 a, .tuple a row.encode, .word (24 + SIZE_TUPLE * i) a,
    .word (28 + SIZE_TUPLE * i) row.encode.length] ++
  if i = tupleCount then [.word 20 (tupleCount + 1)] else []

/-- The stores of an update of slot `k`, before the offsets. -/
def replaceStores (row : Row) (fsp a ts k : Nat) : List Store :=
  [.move (fsp + ts - row.encode.length) fsp (a - fsp), .word 16 (fsp + ts - row.encode.length),
    .tuple (a + ts - row.encode.length) row.encode, .word (28 + SIZE_TUPLE * k) row.encode.length]

/-- The stores of a deletion of slot `k`, before the offsets. -/
def removeStores (fsp a ts k tupleCount : Nat) : List Store :=
  [.move (fsp + ts) fsp (a - fsp), .word 16 (fsp + ts), .word (28 + SIZE_TUPLE * k) 0,
    .word 20 (tupleCount - 1), .word (24 + SIZE_TUPLE * k) 0]

/-- The size of the tuple in a slot, without the delete flag. -/
def plainSize (m : Mem) (i : Nat) : Nat :=
  unsetDeletedFlag (getTupleSize m i)

/-- What a call writes, in its order.  A call that returns `false` writes nothing. -/
def stores (m : Mem) : Mutation → List Store
  | .insertTuple row schema =>
    match insertTuple m row schema with
    | .ok (true, _, _) =>
      insertStores row (getFreeSpacePointer m - row.encode.length)
        (findSlot m (getTupleCount m) 0) (getTupleCount m)
    | _ => []
  | .updateTuple newRow oldRow schema =>
    match updateTuple m newRow oldRow schema with
    | .ok (true, _, _) =>
      let k := oldRow.rid.slotNum.toNat
      let a := getTupleOffsetAtSlot m k
      let ts := getTupleSize m k
      let before := replaceStores newRow (getFreeSpacePointer m) a ts k
      before ++ offsetStores (a + ts) ts newRow.encode.length (getTupleCount m) 0
        (before.foldl Store.exec m)
    | _ => []
  | .markDelete rid =>
    let k := rid.slotNum.toNat
    if (markDelete m rid).1 then [.word (28 + SIZE_TUPLE * k) (setDeletedFlag (getTupleSize m k))]
    else []
  | .rollbackDelete rid =>
    let k := rid.slotNum.toNat
    if isDeleted (getTupleSize m k) then
      [.word (28 + SIZE_TUPLE * k) (unsetDeletedFlag (getTupleSize m k))]
    else []
  | .applyDelete rid =>
    let k := rid.slotNum.toNat
    let a := getTupleOffsetAtSlot m k
    let before := removeStores (getFreeSpacePointer m) a (plainSize m k) k (getTupleCount m)
    before ++ offsetStores a (plainSize m k) 0 (getTupleCount m - 1) 0 (before.foldl Store.exec m)

variable {m m' : Mem} {schema : Schema} {row : Row} {n i k : Nat} {rid : RowId}

theorem offsetStores_exec (limit tupleSize newSize k i : Nat) (m : Mem) :
    (offsetStores limit tupleSize newSize k i m).foldl Store.exec m =
      moveOffsets limit tupleSize newSize k i m := by
  induction k generalizing i m with
  | zero =>
      rfl
  | succ k ih =>
      rw [offsetStores, moveOffsets]
      split
      · exact ih (i + 1) _
      · exact ih (i + 1) m

theorem offsetStores_inside {limit tupleSize newSize slotsEnd : Nat}
    (hend : 24 + 8 * (i + k) ≤ slotsEnd) :
    ∀ s ∈ offsetStores limit tupleSize newSize k i m, s.Inside slotsEnd := by
  induction k generalizing i m with
  | zero =>
      exact fun s hs => absurd hs List.not_mem_nil
  | succ k ih =>
      intro s hs
      rw [offsetStores] at hs
      split at hs
      · rcases List.mem_cons.mp hs with rfl | hs
        · simp only [Store.Inside, SIZE_TUPLE]
          omega
        · exact ih (by omega) s hs
      · exact ih (by omega) s hs

theorem insertStores_exec (m : Mem) (row : Row) (a i n : Nat) :
    (insertStores row a i n).foldl Store.exec m = insertedAt m row a i n := by
  rw [insertStores, insertedAt]
  split
  · rfl
  · rfl

/-! ## The invariant -/

/-- The tuples are packed blocks above the slots.  An empty slot has offset zero, so that
`ApplyDelete` does not take it for a tuple, and a tuple has a size without its flag too. -/
structure Geometry (m : Mem) : Prop where
  low : SIZE_TABLE_PAGE_HEADER + SIZE_TUPLE * getTupleCount m ≤ getFreeSpacePointer m
  blocks : Packed (getTupleCount m) (getFreeSpacePointer m) PAGE_SIZE (getTupleOffsetAtSlot m)
    (plainSize m)
  empty : ∀ i, i < getTupleCount m → getTupleSize m i = 0 → getTupleOffsetAtSlot m i = 0
  filled : ∀ i, i < getTupleCount m → getTupleSize m i ≠ 0 → plainSize m i ≠ 0

theorem unsetDeletedFlag_eq (s : Nat) : unsetDeletedFlag s = s % 2 ^ 31 := by
  rw [unsetDeletedFlag, Nat.and_two_pow_sub_one_eq_mod]

theorem plainSize_eq (m : Mem) (i : Nat) : plainSize m i = getTupleSize m i % 2 ^ 31 :=
  unsetDeletedFlag_eq _

/-- A size word that is not deleted is the size. -/
theorem size_of_live (hlive : isDeleted (getTupleSize m k) = false) :
    getTupleSize m k ≠ 0 ∧ getTupleSize m k < 2 ^ 31 ∧ plainSize m k = getTupleSize m k := by
  have hword : getTupleSize m k < 2 ^ 32 := Mem.u32_lt m _
  rcases Bool.or_eq_false_iff.mp hlive with ⟨_, hzero⟩
  have hlt : getTupleSize m k < 2 ^ 31 := by
    by_contra hge
    obtain ⟨r, hr⟩ := Nat.exists_eq_add_of_le' (not_lt.mp hge)
    have hdel : isDeleted (r + DELETE_MASK) = true := isDeleted_add_mask (by omega)
    rw [hr] at hlive
    exact absurd (hlive.symm.trans hdel) Bool.false_ne_true
  exact ⟨by simpa using hzero, hlt, by rw [plainSize_eq, Nat.mod_eq_of_lt hlt]⟩

theorem Geometry.high (h : Geometry m) : getFreeSpacePointer m ≤ PAGE_SIZE :=
  h.blocks.low_le

theorem Geometry.remaining (h : Geometry m) :
    getFreeSpaceRemaining m = getFreeSpacePointer m - 24 - 8 * getTupleCount m := by
  have hlow := h.low
  have hhigh := h.high
  simp only [getFreeSpaceRemaining, wrap32]
  simp only [PAGE_SIZE, SIZE_TABLE_PAGE_HEADER, SIZE_TUPLE] at *
  omega

/-- What `ApplyDelete` takes for the size of a tuple. -/
theorem plainSize_of_isDeleted (m : Mem) (k : Nat) :
    (if isDeleted (getTupleSize m k) then unsetDeletedFlag (getTupleSize m k)
      else getTupleSize m k) = plainSize m k := by
  split
  · rfl
  · rename_i hlive
    exact (size_of_live (Bool.eq_false_of_not_eq_true hlive)).2.2.symm

/-- A page whose words are those of a geometry is one. -/
theorem Geometry.of_words {fsp : Nat} (hcount : getTupleCount m' = n)
    (hptr : getFreeSpacePointer m' = fsp) (hlow : 24 + 8 * n ≤ fsp)
    (hblocks : Packed n fsp PAGE_SIZE (getTupleOffsetAtSlot m') (plainSize m'))
    (hslots : ∀ i, i < n → (getTupleSize m' i = 0 → getTupleOffsetAtSlot m' i = 0) ∧
      (getTupleSize m' i ≠ 0 → plainSize m' i ≠ 0)) : Geometry m' := by
  subst hcount hptr
  exact ⟨hlow, hblocks, fun i hi => (hslots i hi).1, fun i hi => (hslots i hi).2⟩

/-! ## Marks -/

/-- The size word of a slot is rewritten with or without its flag. -/
theorem Geometry.setSize (h : Geometry m) (hk : k < getTupleCount m) {s : Nat} (hs : s < 2 ^ 32)
    (hplain : unsetDeletedFlag s = plainSize m k) (hzero : s = 0 ↔ getTupleSize m k = 0) :
    Geometry (setTupleSize m k s) := by
  have hself : getTupleSize (setTupleSize m k s) k = s := Mem.u32_setU32_of_lt hs
  have hsize : ∀ j, plainSize (setTupleSize m k s) j = plainSize m j := by
    intro j
    by_cases hj : j = k
    · rw [hj, plainSize, hself, hplain]
    · rw [plainSize, setTupleSize_size_ne m s hj, plainSize]
  refine Geometry.of_words (setTupleSize_count m k s) (setTupleSize_pointer m k s) h.low ?_
    fun j hj => ?_
  · exact h.blocks.congr (le_refl _) fun j _ => ⟨setTupleSize_offset m k s j, hsize j⟩
  · rw [setTupleSize_offset, hsize]
    by_cases hjk : j = k
    · rw [hjk, hself, hzero]
      exact ⟨h.empty k hk, fun hne => h.filled k hk (mt hzero.mpr hne)⟩
    · rw [setTupleSize_size_ne m s hjk]
      exact ⟨h.empty j hj, h.filled j hj⟩

theorem Geometry.markDelete (h : Geometry m) (rid : RowId) :
    (markDelete m rid = (false, m)) ∨
      (rid.slotNum.toNat < getTupleCount m ∧
        markDelete m rid = (true, setTupleSize m rid.slotNum.toNat
          (setDeletedFlag (getTupleSize m rid.slotNum.toNat))) ∧
        Geometry (setTupleSize m rid.slotNum.toNat
          (setDeletedFlag (getTupleSize m rid.slotNum.toNat)))) := by
  simp only [TablePage.markDelete]
  by_cases hout : rid.slotNum.toNat ≥ getTupleCount m
  · rw [if_pos hout]
    exact Or.inl rfl
  rw [if_neg hout]
  cases hdel : isDeleted (getTupleSize m rid.slotNum.toNat) with
  | true =>
      exact Or.inl rfl
  -- A live size is below the mask, so the mark only adds its bit.
  | false =>
      rcases size_of_live hdel with ⟨hne, hlt, hplain⟩
      have hk : rid.slotNum.toNat < getTupleCount m := Nat.lt_of_not_le hout
      refine Or.inr ⟨hk, ?_, h.setSize hk ?_ ?_ ?_⟩
      · rw [if_neg Bool.false_ne_true, if_pos (Nat.pos_of_ne_zero hne)]
      · rw [setDeletedFlag_of_lt hlt, DELETE_MASK]
        omega
      · rw [setDeletedFlag_of_lt hlt, unsetDeletedFlag_add_mask hlt, hplain]
      · rw [setDeletedFlag_of_lt hlt, DELETE_MASK]
        omega

theorem Geometry.rollbackDelete (h : Geometry m) (rid : RowId) :
    (∃ message, rollbackDelete m rid = .error (.assertion message)) ∨
      (isDeleted (getTupleSize m rid.slotNum.toNat) = false ∧ rollbackDelete m rid = .ok m) ∨
      (rid.slotNum.toNat < getTupleCount m ∧
        isDeleted (getTupleSize m rid.slotNum.toNat) = true ∧
        rollbackDelete m rid = .ok (setTupleSize m rid.slotNum.toNat
          (unsetDeletedFlag (getTupleSize m rid.slotNum.toNat))) ∧
        Geometry (setTupleSize m rid.slotNum.toNat
          (unsetDeletedFlag (getTupleSize m rid.slotNum.toNat)))) := by
  by_cases hk : rid.slotNum.toNat < getTupleCount m
  · have hassert : decide (rid.slotNum.toNat < getTupleCount m) = true := decide_eq_true hk
    rw [TablePage.rollbackDelete, hassert, assert_true, ok_bind]
    cases hdel : isDeleted (getTupleSize m rid.slotNum.toNat) with
    | false =>
        exact Or.inr (Or.inl ⟨rfl, if_neg (by rw [hdel]; exact Bool.false_ne_true)⟩)
    | true =>
        refine Or.inr (Or.inr ⟨hk, rfl, if_pos hdel, h.setSize hk ?_ ?_ ?_⟩)
        · rw [unsetDeletedFlag_eq]
          omega
        · rw [unsetDeletedFlag_eq, unsetDeletedFlag_eq, Nat.mod_mod, plainSize_eq]
        · -- Without its flag a tuple still has a size.
          constructor
          · intro hzero
            by_contra hne
            exact h.filled _ hk hne hzero
          · intro hzero
            rw [hzero]
            rfl
  · have hassert : decide (rid.slotNum.toNat < getTupleCount m) = false := decide_eq_false hk
    refine Or.inl ⟨"We can't have more slots than tuples.", ?_⟩
    rw [TablePage.rollbackDelete, hassert, assert_false, error_bind]

/-! ## Insertion -/

theorem Geometry.insert (h : Geometry m) (hi : i ≤ getTupleCount m)
    (hroom : row.encode.length + SIZE_TUPLE ≤ getFreeSpaceRemaining m) :
    Geometry (insertedAt m row (getFreeSpacePointer m - row.encode.length) i (getTupleCount m)) ∧
      getTupleCount (insertedAt m row (getFreeSpacePointer m - row.encode.length) i
        (getTupleCount m)) = max (getTupleCount m) (i + 1) := by
  have hrem := h.remaining
  have hlow := h.low
  have hhigh := h.high
  have hpos := encode_pos row
  simp only [PAGE_SIZE, SIZE_TABLE_PAGE_HEADER, SIZE_TUPLE] at hlow hhigh hroom
  set n := getTupleCount m with hn
  set fsp := getFreeSpacePointer m with hfsp
  have halo : 32 + 8 * i ≤ fsp - row.encode.length := by omega
  have hend : fsp - row.encode.length + row.encode.length ≤ PAGE_SIZE := by
    simp only [PAGE_SIZE]
    omega
  have hslot : ∀ j, j < max n (i + 1) → j ≠ i → j < n ∧
      getTupleOffsetAtSlot (insertedAt m row (fsp - row.encode.length) i n) j =
        getTupleOffsetAtSlot m j ∧
      getTupleSize (insertedAt m row (fsp - row.encode.length) i n) j = getTupleSize m j :=
    fun j hj hne => ⟨by omega, slot_congr fun b h1 h2 => insertedAt_frame halo (by omega)⟩
  rcases insertedAt_words (m := m) hn.symm hi halo hend with
    ⟨hcount, hptr, hoff, hsize, _⟩
  have hplain : plainSize (insertedAt m row (fsp - row.encode.length) i n) i =
      row.encode.length := by
    rw [plainSize_eq, hsize, Nat.mod_eq_of_lt (by omega)]
  refine ⟨Geometry.of_words hcount hptr (by omega) ?_ fun j hj => ?_, hcount⟩
  · -- The new block is below all others; the slots of these are as before.
    refine h.blocks.alloc (by omega) hoff hplain fun j hj hne => ?_
    rcases hslot j hj hne with ⟨hjn, hoff', hsize'⟩
    exact ⟨hjn, hoff', by rw [plainSize, hsize', plainSize]⟩
  · by_cases hji : j = i
    · rw [hji, hsize, hplain]
      exact ⟨fun hzero => by omega, fun _ => by omega⟩
    · rcases hslot j hj hji with ⟨hjn, hoff', hsize'⟩
      rw [plainSize, hoff', hsize']
      exact ⟨h.empty j hjn, h.filled j hjn⟩

/-- `InsertTuple` stops at an assertion, refuses, or puts the row below the tuples. -/
theorem Geometry.insertTuple_cases (h : Geometry m) (row : Row) (schema : Schema) :
    (∃ message, insertTuple m row schema = .error (.assertion message)) ∨
      insertTuple m row schema = .ok (false, row, m) ∨
      (findSlot m (getTupleCount m) 0 ≤ getTupleCount m ∧
        row.encode.length + SIZE_TUPLE ≤ getFreeSpaceRemaining m ∧
        ∃ row', insertTuple m row schema =
          .ok (true, row', insertedAt m row (getFreeSpacePointer m - row.encode.length)
            (findSlot m (getTupleCount m) 0) (getTupleCount m))) := by
  by_cases hrow : schema.getColumnCount = row.fields.length
  · by_cases hroom : row.encode.length + SIZE_TUPLE ≤ getFreeSpaceRemaining m
    · rcases findSlot_cases m (getTupleCount m) 0 with ⟨r, hr, hle, _, _⟩
      have hfind : findSlot m (getTupleCount m) 0 ≤ getTupleCount m := by omega
      exact Or.inr (Or.inr ⟨hfind, hroom, _,
        insertTuple_of_room hrow rfl h.low h.high h.remaining hroom rfl hfind⟩)
    · exact Or.inr (Or.inl (insertTuple_of_full hrow (Nat.lt_of_not_le hroom)))
  · refine Or.inl ⟨"Fields size do not match schema's column size.", ?_⟩
    rw [insertTuple, Row.getSerializedSize_of_count_ne hrow, error_bind]

/-! ## Update -/

theorem Geometry.update (h : Geometry m) (hk : k < getTupleCount m)
    (hlive : isDeleted (getTupleSize m k) = false)
    (hroom : row.encode.length ≤ getFreeSpaceRemaining m + getTupleSize m k) :
    Geometry (updated m row (getFreeSpacePointer m) (getTupleOffsetAtSlot m k) (getTupleSize m k)
        k (getTupleCount m)) ∧
      getTupleCount (updated m row (getFreeSpacePointer m) (getTupleOffsetAtSlot m k)
        (getTupleSize m k) k (getTupleCount m)) = getTupleCount m := by
  have hrem := h.remaining
  have hlow := h.low
  have hpos := encode_pos row
  rcases size_of_live hlive with ⟨hne, hlt, hplain⟩
  have hinside := h.blocks.inside k hk (by rw [hplain]; exact hne)
  rw [hplain] at hinside
  simp only [SIZE_TABLE_PAGE_HEADER, SIZE_TUPLE] at hlow
  set n := getTupleCount m with hn
  set fsp := getFreeSpacePointer m with hfsp
  set a := getTupleOffsetAtSlot m k with ha
  set ts := getTupleSize m k with hts
  have hroom' : 24 + 8 * n + row.encode.length ≤ fsp + ts := by omega
  have hframe : ∀ j, 20 ≤ j ∧ j < 24 → updated m row fsp a ts k n j = m j :=
    fun j hj => updated_frame hroom' hinside.1 hk (Or.inr (Or.inl hj))
  rcases updated_words (m := m) hroom' hinside.1 hk hinside.2 with ⟨hptr, hsizek, _⟩
  have hcount : getTupleCount (updated m row fsp a ts k n) = n :=
    Mem.u32_congr fun j h1 h2 => hframe j (by omega)
  have hplaink : plainSize (updated m row fsp a ts k n) k = row.encode.length := by
    have hend := hinside.2
    simp only [PAGE_SIZE] at hend
    rw [plainSize_eq, hsizek, Nat.mod_eq_of_lt (by omega)]
  have hother : ∀ j, j < n → j ≠ k →
      plainSize (updated m row fsp a ts k n) j = plainSize m j := by
    intro j hj hjk
    rw [plainSize, updated_size hroom' hinside.1 hk hj hjk, plainSize]
  have hoffset : ∀ j, j < n → plainSize m j ≠ 0 →
      getTupleOffsetAtSlot (updated m row fsp a ts k n) j =
        if getTupleOffsetAtSlot m j < a + ts then
          getTupleOffsetAtSlot m j + ts - row.encode.length
        else getTupleOffsetAtSlot m j := by
    intro j hj hfull
    have hsize : getTupleSize m j ≠ 0 := by
      intro hzero
      rw [plainSize, hzero] at hfull
      exact hfull rfl
    exact updated_offset hroom' hinside.1 hk hinside.2 hj hsize (h.blocks.inside j hj hfull).1
  have hself : plainSize m k ≠ 0 := by
    rw [hplain]
    exact hne
  refine ⟨Geometry.of_words hcount hptr (by omega) ?_ fun j hj => ?_, hcount⟩
  · have hresize : Packed n (fsp + plainSize m k - row.encode.length) PAGE_SIZE
        (getTupleOffsetAtSlot (updated m row fsp a ts k n))
        (plainSize (updated m row fsp a ts k n)) := by
      refine h.blocks.resize (le_refl n) hk hself ?_ hplaink ?_ fun j hj hjk => ?_
      · rw [hplain]
        omega
      · intro _
        rw [hoffset k hk hself, if_pos (by omega), hplain]
      · refine ⟨hother j hj hjk, fun hfull => ?_⟩
        -- The loop tests against the end of the tuple; nothing else starts inside it.
        have hiff := h.blocks.before_iff hk hj hjk hself hfull
        rw [hplain] at hiff
        rw [hoffset j hj hfull, hplain]
        exact if_congr hiff rfl rfl
    rwa [hplain] at hresize
  · by_cases hjk : j = k
    · rw [hjk, hsizek, hplaink]
      exact ⟨fun hzero => by omega, fun _ => by omega⟩
    · rw [updated_size hroom' hinside.1 hk hj hjk, hother j hj hjk]
      refine ⟨fun hzero => ?_, h.filled j hj⟩
      rw [updated_offset_of_empty hroom' hinside.1 hk hj hjk hzero]
      exact h.empty j hj hzero

/-- `UpdateTuple` stops at an assertion or in reading the old row, refuses, or writes the new row
over the old one. -/
theorem Geometry.updateTuple_cases (h : Geometry m) (newRow oldRow : Row) (schema : Schema) :
    (∃ fault, updateTuple m newRow oldRow schema = .error fault ∧
      ((∃ message, fault = .assertion message) ∨
        oldRow.deserializeFrom schema m (getTupleOffsetAtSlot m oldRow.rid.slotNum.toNat) =
          .error fault)) ∨
      updateTuple m newRow oldRow schema = .ok (false, oldRow, m) ∨
      (oldRow.rid.slotNum.toNat < getTupleCount m ∧
        isDeleted (getTupleSize m oldRow.rid.slotNum.toNat) = false ∧
        newRow.encode.length ≤ getFreeSpaceRemaining m +
          getTupleSize m oldRow.rid.slotNum.toNat ∧
        ∃ old, updateTuple m newRow oldRow schema =
          .ok (true, old, updated m newRow (getFreeSpacePointer m)
            (getTupleOffsetAtSlot m oldRow.rid.slotNum.toNat)
            (getTupleSize m oldRow.rid.slotNum.toNat) oldRow.rid.slotNum.toNat
            (getTupleCount m))) := by
  have hpos := encode_pos newRow
  -- The checks of the source in their order; each of them ends the call.
  by_cases hrid : oldRow.rid ≠ INVALID_ROWID
  swap
  · refine Or.inl ⟨.assertion "invalid old row.", ?_, Or.inl ⟨_, rfl⟩⟩
    rw [updateTuple, decide_eq_false hrid, assert_false, error_bind]
  by_cases hrow : schema.getColumnCount = newRow.fields.length
  swap
  · refine Or.inl ⟨.assertion "Fields size do not match schema's column size.", ?_,
      Or.inl ⟨_, rfl⟩⟩
    rw [updateTuple, decide_eq_true hrid, assert_true, ok_bind,
      Row.getSerializedSize_of_count_ne hrow, error_bind]
  by_cases hk : oldRow.rid.slotNum.toNat < getTupleCount m
  swap
  · refine Or.inr (Or.inl ?_)
    simp only [updateTuple, hrid, ne_eq, not_false_eq_true, decide_true, assert_true, ok_bind,
      Row.getSerializedSize_of_count hrow, hpos]
    rw [if_pos (Nat.le_of_not_lt hk)]
  have hin : ¬oldRow.rid.slotNum.toNat ≥ getTupleCount m := by omega
  cases hlive : isDeleted (getTupleSize m oldRow.rid.slotNum.toNat) with
  | true =>
      refine Or.inr (Or.inl ?_)
      simp only [updateTuple, hrid, ne_eq, not_false_eq_true, decide_true, assert_true, ok_bind,
        Row.getSerializedSize_of_count hrow, hpos, hin, if_false, hlive, if_true]
  | false =>
      rcases size_of_live hlive with ⟨hne, hlt, hplain⟩
      have hinside := h.blocks.inside _ hk (by rw [hplain]; exact hne)
      rw [hplain] at hinside
      have hrem := h.remaining
      have hhigh := h.high
      simp only [PAGE_SIZE] at hhigh
      have hsum : (getFreeSpaceRemaining m + getTupleSize m oldRow.rid.slotNum.toNat) % 2 ^ 32 =
          getFreeSpaceRemaining m + getTupleSize m oldRow.rid.slotNum.toNat :=
        Nat.mod_eq_of_lt (by omega)
      by_cases hroom : newRow.encode.length ≤ getFreeSpaceRemaining m +
          getTupleSize m oldRow.rid.slotNum.toNat
      swap
      · refine Or.inr (Or.inl ?_)
        have hfull := Nat.lt_of_not_le hroom
        simp only [updateTuple, hrid, ne_eq, not_false_eq_true, decide_true, assert_true, ok_bind,
          Row.getSerializedSize_of_count hrow, hpos, hin, if_false, hlive, Bool.false_eq_true,
          hsum, hfull, if_true]
      have hnot : ¬getFreeSpaceRemaining m + getTupleSize m oldRow.rid.slotNum.toNat <
          newRow.encode.length := by omega
      cases hread : oldRow.deserializeFrom schema m
          (getTupleOffsetAtSlot m oldRow.rid.slotNum.toNat) with
      | error fault =>
          refine Or.inl ⟨fault, ?_, Or.inr rfl⟩
          simp only [updateTuple, hrid, ne_eq, not_false_eq_true, decide_true, assert_true,
            ok_bind, Row.getSerializedSize_of_count hrow, hpos, hin, if_false, hlive,
            Bool.false_eq_true, hsum, hnot, hread, error_bind]
      | ok result =>
          rcases result with ⟨old, readBytes⟩
          by_cases hsize : getTupleSize m oldRow.rid.slotNum.toNat = readBytes
          · rw [← hsize] at hread
            exact Or.inr (Or.inr ⟨hk, rfl, hroom, old, updateTuple_of_live hrow hrid rfl hk rfl
              rfl rfl hlive hread hrem h.low hinside.1 hinside.2 hroom⟩)
          · refine Or.inl ⟨_, ?_, Or.inl ⟨"Unexpected behavior in tuple deserialize.", rfl⟩⟩
            simp only [updateTuple, hrid, ne_eq, not_false_eq_true, decide_true, assert_true,
              ok_bind, Row.getSerializedSize_of_count hrow, hpos, hin, if_false, hlive,
              Bool.false_eq_true, hsum, hnot, hread, hsize, decide_false, assert_false,
              error_bind]

/-! ## Deletion -/

theorem Geometry.delete (h : Geometry m) (hk : k < getTupleCount m) (hfull : plainSize m k ≠ 0) :
    Geometry (deletedPage m (getFreeSpacePointer m) (getTupleOffsetAtSlot m k) (plainSize m k) k
        (getTupleCount m)) ∧
      getTupleCount (deletedPage m (getFreeSpacePointer m) (getTupleOffsetAtSlot m k)
        (plainSize m k) k (getTupleCount m)) = getTupleCount m - 1 := by
  have hlow := h.low
  have hinside := h.blocks.inside k hk hfull
  simp only [PAGE_SIZE, SIZE_TABLE_PAGE_HEADER, SIZE_TUPLE] at hlow hinside
  set n := getTupleCount m with hn
  set fsp := getFreeSpacePointer m with hfsp
  set a := getTupleOffsetAtSlot m k with ha
  set ts := plainSize m k with hts
  have hend : fsp + ts < 2 ^ 32 := by omega
  rcases deletedPage_words (m := m) (a := a) hk hend (by omega) with
    ⟨hptr, hcount, hoffk, hsizek⟩
  have hplaink : plainSize (deletedPage m fsp a ts k n) k = 0 := by
    rw [plainSize, hsizek]
    rfl
  -- An empty slot has offset zero and a tuple lies on the page, so no offset wraps.
  have hbound : ∀ j, j < n → getTupleOffsetAtSlot m j + ts < 2 ^ 32 := by
    intro j hj
    by_cases hzero : getTupleSize m j = 0
    · rw [h.empty j hj hzero]
      omega
    · have hinsidej := (h.blocks.inside j hj (h.filled j hj hzero)).2
      simp only [PAGE_SIZE] at hinsidej
      omega
  have hslot : ∀ j, j < n - 1 → j ≠ k →
      getTupleSize (deletedPage m fsp a ts k n) j = getTupleSize m j ∧
      getTupleOffsetAtSlot (deletedPage m fsp a ts k n) j =
        if getTupleSize m j > 0 ∧ getTupleOffsetAtSlot m j < a then
          getTupleOffsetAtSlot m j + ts
        else getTupleOffsetAtSlot m j :=
    fun j hj hjk => deletedPage_slot hlow hinside.1 hk hj hjk (hbound j (by omega))
  refine ⟨Geometry.of_words hcount hptr (by omega) ?_ fun j hj => ?_, hcount⟩
  · refine h.blocks.resize (Nat.sub_le n 1) hk hfull (Nat.zero_le _) hplaink
      (fun hno => absurd rfl hno) fun j hj hjk => ?_
    rcases hslot j hj hjk with ⟨hsize, hoff⟩
    refine ⟨by rw [plainSize, hsize, plainSize], fun hfullj => ?_⟩
    have hposj : getTupleSize m j > 0 := by
      refine Nat.pos_of_ne_zero fun hzero => hfullj ?_
      rw [plainSize, hzero]
      rfl
    rw [hoff]
    simp only [hposj, true_and]
    rfl
  · by_cases hjk : j = k
    · rw [hjk, hsizek, hoffk]
      exact ⟨fun _ => rfl, fun hno => absurd rfl hno⟩
    · rcases hslot j hj hjk with ⟨hsize, hoff⟩
      have hjn : j < n := by omega
      rw [plainSize, hsize, hoff]
      refine ⟨fun hzero => ?_, h.filled j hjn⟩
      rw [if_neg (fun hcond => by omega)]
      exact h.empty j hjn hzero

/-- `ApplyDelete` stops at an assertion or takes out a tuple. -/
theorem Geometry.applyDelete_cases (h : Geometry m) (rid : RowId) :
    (∃ message, applyDelete m rid = .error (.assertion message)) ∨
      (rid.slotNum.toNat < getTupleCount m ∧ plainSize m rid.slotNum.toNat ≠ 0 ∧
        applyDelete m rid = .ok (deletedPage m (getFreeSpacePointer m)
          (getTupleOffsetAtSlot m rid.slotNum.toNat) (plainSize m rid.slotNum.toNat)
          rid.slotNum.toNat (getTupleCount m))) := by
  by_cases hk : rid.slotNum.toNat < getTupleCount m
  · by_cases hzero : getTupleSize m rid.slotNum.toNat = 0
    · -- The offset of an empty slot lies before the free space pointer.
      have hlow := h.low
      simp only [SIZE_TABLE_PAGE_HEADER, SIZE_TUPLE] at hlow
      have hbefore : ¬getTupleOffsetAtSlot m rid.slotNum.toNat ≥ getFreeSpacePointer m := by
        rw [h.empty _ hk hzero]
        omega
      refine Or.inl ⟨"Free space appears before tuples.", ?_⟩
      simp only [applyDelete, hk, decide_true, assert_true, ok_bind, hbefore, decide_false,
        assert_false, error_bind]
    · have hfull := h.filled _ hk hzero
      have hinside := h.blocks.inside _ hk hfull
      exact Or.inr ⟨hk, hfull, applyDelete_of_filled rfl h.low hk rfl
        (plainSize_of_isDeleted m _) hinside.1 hinside.2⟩
  · refine Or.inl ⟨"Cannot have more slots than tuples.", ?_⟩
    rw [applyDelete, decide_eq_false hk, assert_false, error_bind]

/-! ## Runs -/

/-- Where the slots end before and after a call. -/
def slotsEnd (m m' : Mem) : Nat :=
  SIZE_TABLE_PAGE_HEADER + SIZE_TUPLE * max (getTupleCount m) (getTupleCount m')

/-- What a call that returns does: it makes its stores, each on its side of the page, and the page
has a geometry again. -/
structure Sound (m : Mem) (call : Mutation) (m' : Mem) : Prop where
  geometry : Geometry m'
  exec : m' = (stores m call).foldl Store.exec m
  inside : ∀ s ∈ stores m call, s.Inside (slotsEnd m m')

/-- A call that refuses. -/
theorem Geometry.refused {call : Mutation} (h : Geometry m) (hnone : stores m call = []) :
    Sound m call m := by
  refine ⟨h, ?_, ?_⟩
  · rw [hnone]
    rfl
  · rw [hnone]
    exact fun s hs => absurd hs List.not_mem_nil

/-- A call that rewrites a size word. -/
theorem Geometry.rewritten {call : Mutation} {s : Nat} (h : Geometry (setTupleSize m k s))
    (hk : k < getTupleCount m)
    (hstores : stores m call = [.word (28 + SIZE_TUPLE * k) s]) :
    Sound m call (setTupleSize m k s) := by
  refine ⟨h, ?_, ?_⟩
  · rw [hstores]
    rfl
  · rw [hstores]
    intro w hw
    rw [List.mem_singleton.mp hw]
    simp only [Store.Inside, slotsEnd, SIZE_TABLE_PAGE_HEADER, SIZE_TUPLE]
    omega

theorem Geometry.insertTuple (h : Geometry m)
    (hok : mutate m (.insertTuple row schema) = .ok m') :
    Sound m (.insertTuple row schema) m' := by
  rcases h.insertTuple_cases row schema with ⟨message, herr⟩ | hno | ⟨hi, hroom, row', hyes⟩
  · simp only [mutate, herr, error_bind] at hok
    cases hok
  · simp only [mutate, hno, ok_bind] at hok
    cases hok
    exact h.refused (by simp only [stores, hno])
  · simp only [mutate, hyes, ok_bind] at hok
    cases hok
    rcases h.insert hi hroom with ⟨hgeometry, hcount⟩
    have hstores : stores m (.insertTuple row schema) =
        insertStores row (getFreeSpacePointer m - row.encode.length)
          (findSlot m (getTupleCount m) 0) (getTupleCount m) := by
      simp only [stores, hyes]
    refine ⟨hgeometry, by rw [hstores, insertStores_exec], ?_⟩
    rw [hstores, slotsEnd, hcount]
    have hrem := h.remaining
    have hhigh := h.high
    simp only [SIZE_TABLE_PAGE_HEADER, SIZE_TUPLE] at hroom ⊢
    generalize findSlot m (getTupleCount m) 0 = i at hi ⊢
    intro s hs
    rw [insertStores, List.mem_append] at hs
    rcases hs with hs | hs
    · simp only [List.mem_cons, List.not_mem_nil, or_false] at hs
      -- The pointer, the row, then the offset and the size of the slot.
      rcases hs with rfl | rfl | rfl | rfl
      · simp only [Store.Inside]
        omega
      · simp only [Store.Inside]
        omega
      · simp only [Store.Inside, SIZE_TUPLE]
        omega
      · simp only [Store.Inside, SIZE_TUPLE]
        omega
    · split at hs
      · rw [List.mem_singleton.mp hs]
        simp only [Store.Inside]
        omega
      · exact absurd hs List.not_mem_nil

theorem Geometry.updateTuple {newRow oldRow : Row} (h : Geometry m)
    (hok : mutate m (.updateTuple newRow oldRow schema) = .ok m') :
    Sound m (.updateTuple newRow oldRow schema) m' := by
  rcases h.updateTuple_cases newRow oldRow schema with
    ⟨fault, herr, _⟩ | hno | ⟨hk, hlive, hroom, old, hyes⟩
  · simp only [mutate, herr, error_bind] at hok
    cases hok
  · simp only [mutate, hno, ok_bind] at hok
    cases hok
    exact h.refused (by simp only [stores, hno])
  · simp only [mutate, hyes, ok_bind] at hok
    cases hok
    rcases h.update hk hlive hroom with ⟨hgeometry, hcount⟩
    rcases size_of_live hlive with ⟨hne, _, hplain⟩
    have hinside := h.blocks.inside _ hk (by rw [hplain]; exact hne)
    have hrem := h.remaining
    have hlow := h.low
    rw [hplain] at hinside
    refine ⟨hgeometry, ?_, ?_⟩
    · simp only [stores, hyes, List.foldl_append, offsetStores_exec]
      rfl
    · simp only [stores, hyes, slotsEnd, hcount, max_self, SIZE_TABLE_PAGE_HEADER, SIZE_TUPLE]
      simp only [SIZE_TABLE_PAGE_HEADER, SIZE_TUPLE] at hlow
      intro s hs
      rcases List.mem_append.mp hs with hs | hs
      · simp only [replaceStores, List.mem_cons, List.not_mem_nil, or_false] at hs
        rcases hs with rfl | rfl | rfl | rfl
        · simp only [Store.Inside]
          omega
        · simp only [Store.Inside]
          omega
        · simp only [Store.Inside]
          omega
        · simp only [Store.Inside, SIZE_TUPLE]
          omega
      · exact offsetStores_inside (by omega) s hs

theorem Geometry.applyDelete (h : Geometry m) (hok : mutate m (.applyDelete rid) = .ok m') :
    Sound m (.applyDelete rid) m' := by
  rcases h.applyDelete_cases rid with ⟨message, herr⟩ | ⟨hk, hfull, hyes⟩
  · simp only [mutate, herr] at hok
    cases hok
  · simp only [mutate, hyes] at hok
    cases hok
    rcases h.delete hk hfull with ⟨hgeometry, hcount⟩
    have hinside := h.blocks.inside _ hk hfull
    have hlow := h.low
    refine ⟨hgeometry, ?_, ?_⟩
    · simp only [stores, List.foldl_append, offsetStores_exec]
      rfl
    · simp only [stores, slotsEnd, hcount, SIZE_TABLE_PAGE_HEADER, SIZE_TUPLE]
      simp only [SIZE_TABLE_PAGE_HEADER, SIZE_TUPLE] at hlow
      have hmax : max (getTupleCount m) (getTupleCount m - 1) = getTupleCount m := by omega
      rw [hmax]
      intro s hs
      rcases List.mem_append.mp hs with hs | hs
      · simp only [removeStores, List.mem_cons, List.not_mem_nil, or_false] at hs
        -- The bytes that move, the pointer, the size of the slot, the count and the offset.
        rcases hs with rfl | rfl | rfl | rfl | rfl
        · simp only [Store.Inside]
          omega
        · simp only [Store.Inside]
          omega
        · simp only [Store.Inside, SIZE_TUPLE]
          omega
        · simp only [Store.Inside]
          omega
        · simp only [Store.Inside, SIZE_TUPLE]
          omega
      · exact offsetStores_inside (by omega) s hs

/-- One call that returns. -/
theorem Geometry.sound {call : Mutation} (h : Geometry m) (hok : mutate m call = .ok m') :
    Sound m call m' := by
  cases call with
  | insertTuple row schema =>
      exact h.insertTuple hok
  | updateTuple newRow oldRow schema =>
      exact h.updateTuple hok
  | markDelete rid =>
      rcases h.markDelete rid with hno | ⟨hk, hyes, hgeometry⟩
      · simp only [mutate, hno] at hok
        cases hok
        exact h.refused (by simp only [stores, hno, Bool.false_eq_true, if_false])
      · simp only [mutate, hyes] at hok
        cases hok
        exact hgeometry.rewritten hk (by simp only [stores, hyes, if_true])
  | rollbackDelete rid =>
      rcases h.rollbackDelete rid with ⟨message, herr⟩ | ⟨hlive, hno⟩ | ⟨hk, hdel, hyes, hgeometry⟩
      · simp only [mutate, herr] at hok
        cases hok
      · simp only [mutate, hno] at hok
        cases hok
        exact h.refused (by simp only [stores, hlive, Bool.false_eq_true, if_false])
      · simp only [mutate, hyes] at hok
        cases hok
        exact hgeometry.rewritten hk (by simp only [stores, hdel, if_true])
  | applyDelete rid =>
      exact h.applyDelete hok

/-- A call that does not return stopped at an assertion or in reading the old row; no store was
out of bounds. -/
theorem Geometry.stops {call : Mutation} {fault : Fault} (h : Geometry m)
    (herr : mutate m call = .error fault) :
    (∃ message, fault = .assertion message) ∨
      ∃ newRow oldRow schema, call = .updateTuple newRow oldRow schema ∧
        oldRow.deserializeFrom schema m (getTupleOffsetAtSlot m oldRow.rid.slotNum.toNat) =
          .error fault := by
  cases call with
  | insertTuple row schema =>
      rcases h.insertTuple_cases row schema with ⟨message, hstop⟩ | hno | ⟨_, _, row', hyes⟩
      · simp only [mutate, hstop, error_bind] at herr
        cases herr
        exact Or.inl ⟨message, rfl⟩
      · simp only [mutate, hno, ok_bind] at herr
        cases herr
      · simp only [mutate, hyes, ok_bind] at herr
        cases herr
  | updateTuple newRow oldRow schema =>
      rcases h.updateTuple_cases newRow oldRow schema with
        ⟨fault', hstop, hwhy⟩ | hno | ⟨_, _, _, old, hyes⟩
      · simp only [mutate, hstop, error_bind] at herr
        cases herr
        rcases hwhy with hassert | hread
        · exact Or.inl hassert
        · exact Or.inr ⟨newRow, oldRow, schema, rfl, hread⟩
      · simp only [mutate, hno, ok_bind] at herr
        cases herr
      · simp only [mutate, hyes, ok_bind] at herr
        cases herr
  -- `MarkDelete` has no assertion.
  | markDelete rid =>
      cases herr
  | rollbackDelete rid =>
      rcases h.rollbackDelete rid with ⟨message, hstop⟩ | ⟨_, hno⟩ | ⟨_, _, hyes, _⟩
      · rw [mutate, hstop] at herr
        cases herr
        exact Or.inl ⟨message, rfl⟩
      · rw [mutate, hno] at herr
        cases herr
      · rw [mutate, hyes] at herr
        cases herr
  | applyDelete rid =>
      rcases h.applyDelete_cases rid with ⟨message, hstop⟩ | ⟨_, _, hyes⟩
      · rw [mutate, hstop] at herr
        cases herr
        exact Or.inl ⟨message, rfl⟩
      · rw [mutate, hyes] at herr
        cases herr

end TablePage
end MiniSQL
