import MiniSQL.Page.TablePage

/-!
# SlotMap — a slotted page is a list of entries

The abstract content of a page that never saw an `ApplyDelete` is the list of its entries, a row
and a mark, in slot order.  The tuples stand behind each other down from the end of the page, so
the offset of slot `i` is the page size less the sizes of the entries up to `i`; `UpdateTuple`
keeps this because it moves the tuples of all later slots.
-/

namespace MiniSQL

open Lib

/-- A slot: the row as it was serialized, and whether it is marked as deleted. -/
structure Entry where
  row : Row
  marked : Bool
  deriving DecidableEq

namespace Entry

def size (e : Entry) : Nat :=
  e.row.encode.length

/-- The size word of the slot. -/
def sizeWord (e : Entry) : Nat :=
  if e.marked then e.size + TablePage.DELETE_MASK else e.size

end Entry

namespace TablePage

/-! ## Layout -/

/-- Bytes the entries take. -/
def used (es : List Entry) : Nat :=
  (es.map Entry.size).sum

/-- Where the tuple of slot `i` starts. -/
def offset (es : List Entry) (i : Nat) : Nat :=
  PAGE_SIZE - used (es.take (i + 1))

/-- The page `p` holds these entries. -/
structure Represents (schema : Schema) (p : PageId) (m : Mem) (es : List Entry) : Prop where
  pageId : getTablePageId m = p
  typed : ∀ e ∈ es, e.row.HasSchema schema
  count : getTupleCount m = es.length
  fits : SIZE_TABLE_PAGE_HEADER + SIZE_TUPLE * es.length + used es ≤ PAGE_SIZE
  pointer : getFreeSpacePointer m = PAGE_SIZE - used es
  slot_offset : ∀ i e, es[i]? = some e → getTupleOffsetAtSlot m i = offset es i
  slot_size : ∀ i e, es[i]? = some e → getTupleSize m i = e.sizeWord
  bytes : ∀ i e, es[i]? = some e → Mem.Holds m (offset es i) e.row.encode

variable {schema : Schema} {p : PageId} {m m' : Mem} {es : List Entry} {e : Entry} {i n : Nat}

theorem used_append (es fs : List Entry) : used (es ++ fs) = used es + used fs := by
  simp [used]

theorem used_take_le (es : List Entry) (i : Nat) : used (es.take i) ≤ used es := by
  conv_rhs => rw [← List.take_append_drop i es]
  rw [used_append]
  exact Nat.le_add_right _ _

theorem used_take_mono (es : List Entry) {i j : Nat} (h : i ≤ j) :
    used (es.take i) ≤ used (es.take j) := by
  have htake : es.take i = (es.take j).take i := by
    rw [List.take_take, Nat.min_eq_left h]
  rw [htake]
  exact used_take_le _ _

theorem used_take_succ (h : es[i]? = some e) :
    used (es.take (i + 1)) = used (es.take i) + e.size := by
  rw [List.take_add_one, h, used_append]
  simp [used]

theorem lt_length_of_getElem? (h : es[i]? = some e) : i < es.length :=
  (List.getElem?_eq_some_iff.mp h).1

/-- A row takes at least the 13 bytes of its header. -/
theorem encode_length_pos (row : Row) : 13 ≤ row.encode.length := by
  simp only [Row.encode, Row.ridBytes, List.length_append, Mem.le32_length, nullBitmap_length]
  omega

theorem encode_pos (row : Row) : row.encode.length > 0 := by
  have := encode_length_pos row
  omega

theorem size_le (he : es[i]? = some e) :
    used (es.take i) + e.size ≤ used es := by
  rw [← used_take_succ he]
  exact used_take_le _ _

theorem Represents.used_le (h : Represents schema p m es) : used es ≤ PAGE_SIZE := by
  have hfits := h.fits
  simp only [PAGE_SIZE, SIZE_TABLE_PAGE_HEADER, SIZE_TUPLE] at hfits ⊢
  omega

/-- The space between the slots and the tuples. -/
theorem Represents.remaining (h : Represents schema p m es) :
    getFreeSpaceRemaining m = PAGE_SIZE - used es - 24 - 8 * es.length := by
  have hfits := h.fits
  simp only [getFreeSpaceRemaining, h.pointer, h.count, wrap32]
  simp only [PAGE_SIZE, SIZE_TABLE_PAGE_HEADER, SIZE_TUPLE] at *
  omega

/-- The entries depend on the page id and on the bytes from the free space pointer on. -/
theorem Represents.congr {m' : Mem} (h : Represents schema p m es)
    (hm : ∀ j, j < 4 ∨ (16 ≤ j ∧ j < PAGE_SIZE) → m' j = m j) : Represents schema p m' es := by
  have hfits := h.fits
  simp only [PAGE_SIZE, SIZE_TABLE_PAGE_HEADER, SIZE_TUPLE] at hfits hm
  have hword : ∀ a, (a = 0 ∨ 16 ≤ a) → a + 4 ≤ 4096 → m'.u32 a = m.u32 a := by
    intro a h0 h1
    exact Mem.u32_congr fun j h2 h3 => hm j (by omega)
  refine ⟨?_, h.typed, ?_, h.fits, ?_, ?_, ?_, ?_⟩
  · rw [← h.pageId, getTablePageId, getTablePageId, hword 0 (by omega) (by omega)]
  · rw [← h.count, getTupleCount, getTupleCount, hword 20 (by omega) (by omega)]
  · rw [← h.pointer, getFreeSpacePointer, getFreeSpacePointer, hword 16 (by omega) (by omega)]
  · -- The offset, the size and the bytes of each entry.
    intro i e he
    have hi := lt_length_of_getElem? he
    rw [← h.slot_offset i e he]
    simp only [getTupleOffsetAtSlot, SIZE_TUPLE]
    exact hword _ (by omega) (by omega)
  · intro i e he
    have hi := lt_length_of_getElem? he
    rw [← h.slot_size i e he]
    simp only [getTupleSize, SIZE_TUPLE]
    exact hword _ (by omega) (by omega)
  · intro i e he
    refine Mem.holds_congr (h.bytes i e he) fun j h1 h2 => hm j ?_
    have hsucc := used_take_succ he
    have hle := used_take_le es (i + 1)
    have hsize : e.row.encode.length = e.size := rfl
    rw [hsize] at h2
    simp only [offset, PAGE_SIZE] at h1 h2
    omega

/-! ## The mark -/

theorem isDeleted_of_lt {n : Nat} (h : n < 2 ^ 31) : isDeleted n = decide (n = 0) := by
  -- The mask is bit 31 alone, and `n` has no such bit.
  have hand : n &&& DELETE_MASK = 0 := by
    rw [show DELETE_MASK = 2 ^ 31 from rfl, Nat.and_two_pow, Nat.testBit_lt_two_pow h]
    simp
  simp [isDeleted, hand, beq_eq_decide]

theorem isDeleted_add_mask {n : Nat} (h : n < 2 ^ 31) : isDeleted (n + DELETE_MASK) = true := by
  have hbit : (n + 2 ^ 31).testBit 31 = true := by
    rw [Nat.add_comm, Nat.testBit_two_pow_add_eq, Nat.testBit_lt_two_pow h]
    rfl
  have hand : (n + DELETE_MASK) &&& DELETE_MASK = 2 ^ 31 := by
    rw [show DELETE_MASK = 2 ^ 31 from rfl, Nat.and_two_pow, hbit]
    rfl
  simp [isDeleted, hand]

theorem setDeletedFlag_of_lt {n : Nat} (h : n < 2 ^ 31) : setDeletedFlag n = n + DELETE_MASK := by
  have hor := Nat.two_pow_add_eq_or_of_lt h 1
  rw [Nat.mul_one] at hor
  rw [setDeletedFlag, Nat.or_comm, Nat.add_comm]
  exact hor.symm

theorem unsetDeletedFlag_add_mask {n : Nat} (h : n < 2 ^ 31) :
    unsetDeletedFlag (n + DELETE_MASK) = n := by
  rw [unsetDeletedFlag, Nat.and_two_pow_sub_one_eq_mod]
  simp only [DELETE_MASK]
  omega

theorem Represents.size_bounds (h : Represents schema p m es) (he : es[i]? = some e) :
    0 < e.size ∧ e.size < 2 ^ 31 := by
  have hle := size_le he
  have hfits := h.fits
  have hpos := encode_length_pos e.row
  simp only [Entry.size, PAGE_SIZE, SIZE_TABLE_PAGE_HEADER, SIZE_TUPLE] at *
  omega

/-- The mark of an entry is what `IsDeleted` reads off its size word. -/
theorem Represents.isDeleted (h : Represents schema p m es) (he : es[i]? = some e) :
    isDeleted (getTupleSize m i) = e.marked := by
  rcases h.size_bounds he with ⟨hpos, hlt⟩
  rw [h.slot_size i e he, Entry.sizeWord]
  cases e.marked with
  | true =>
      exact isDeleted_add_mask hlt
  | false =>
      simpa [isDeleted_of_lt hlt] using hpos.ne'

/-- No slot is empty, so there is none to reuse. -/
theorem findSlot_eq {k i : Nat} (h : ∀ j, i ≤ j → j < i + k → getTupleSize m j ≠ 0) :
    findSlot m k i = i + k := by
  induction k generalizing i with
  | zero =>
      rfl
  | succ k ih =>
      have hne := h i (le_refl _) (by omega)
      rw [findSlot, if_neg hne, ih fun j h1 h2 => h j (by omega) (by omega)]
      omega

theorem Represents.sizeWord_pos (h : Represents schema p m es) (hi : i < es.length) :
    getTupleSize m i ≠ 0 := by
  have he : es[i]? = some es[i] := List.getElem?_eq_getElem hi
  rcases h.size_bounds he with ⟨hpos, _⟩
  rw [h.slot_size i _ he, Entry.sizeWord]
  split <;> omega

theorem Represents.findSlot (h : Represents schema p m es) :
    findSlot m (getTupleCount m) 0 = es.length := by
  rw [h.count, findSlot_eq, Nat.zero_add]
  intro j _ hj
  exact h.sizeWord_pos (by omega)

/-! ## Initialisation -/

theorem init_represents (schema : Schema) (m : Mem) (p prev : PageId) :
    Represents schema p (init m p prev) [] := by
  have hword : ∀ q : PageId, q.toUInt32.toNat < 2 ^ 32 := fun q => q.toUInt32.toNat_lt
  refine ⟨?_, by simp, ?_, by decide, ?_, by simp, by simp, by simp⟩
  · simp only [getTablePageId, init, setTupleCount, setFreeSpacePointer, setNextPageId,
      setPrevPageId]
    rw [Mem.u32_setU32_ne (by omega), Mem.u32_setU32_ne (by omega), Mem.u32_setU32_ne (by omega),
      Mem.u32_setU32_ne (by omega), Mem.u32_setU32_of_lt (hword p)]
    exact pageId_word p
  · simp only [getTupleCount, init, setTupleCount]
    exact Mem.u32_setU32_of_lt (by decide)
  · simp only [getFreeSpacePointer, init, setTupleCount, setFreeSpacePointer]
    rw [Mem.u32_setU32_ne (by omega), Mem.u32_setU32_of_lt (by decide)]
    rfl

/-! ## Words of the page -/

theorem tupleOffset_congr (h : ∀ j, 24 + 8 * i ≤ j → j < 28 + 8 * i → m' j = m j) :
    getTupleOffsetAtSlot m' i = getTupleOffsetAtSlot m i := by
  refine Mem.u32_congr fun j h1 h2 => h j ?_ ?_
  · simp only [SIZE_TUPLE] at h1
    omega
  · simp only [SIZE_TUPLE] at h2
    omega

theorem tupleSize_congr (h : ∀ j, 28 + 8 * i ≤ j → j < 32 + 8 * i → m' j = m j) :
    getTupleSize m' i = getTupleSize m i := by
  refine Mem.u32_congr fun j h1 h2 => h j ?_ ?_
  · simp only [SIZE_TUPLE] at h1
    omega
  · simp only [SIZE_TUPLE] at h2
    omega

/-- The two words of a slot are its eight bytes. -/
theorem slot_congr (h : ∀ j, 24 + 8 * i ≤ j → j < 32 + 8 * i → m' j = m j) :
    getTupleOffsetAtSlot m' i = getTupleOffsetAtSlot m i ∧
      getTupleSize m' i = getTupleSize m i :=
  ⟨tupleOffset_congr fun j h1 h2 => h j h1 (by omega),
    tupleSize_congr fun j h1 h2 => h j (by omega) h2⟩

theorem pageId_congr (h : ∀ j, j < 4 → m' j = m j) : getTablePageId m' = getTablePageId m := by
  rw [getTablePageId, getTablePageId, Mem.u32_congr fun j _ hj => h j (by omega)]

/-- The size word of slot `k` is rewritten and nothing else. -/
theorem setTupleSize_frame (m : Mem) (k size : Nat) {j : Nat}
    (hj : j < 28 + 8 * k ∨ 32 + 8 * k ≤ j) : setTupleSize m k size j = m j := by
  simp only [setTupleSize, SIZE_TUPLE]
  exact Mem.setU32_apply_outside (by omega)

@[simp] theorem setTupleSize_offset (m : Mem) (k size j : Nat) :
    getTupleOffsetAtSlot (setTupleSize m k size) j = getTupleOffsetAtSlot m j :=
  tupleOffset_congr fun _ _ _ => setTupleSize_frame m k size (by omega)

theorem setTupleSize_size_ne (m : Mem) (size : Nat) {j k : Nat} (hj : j ≠ k) :
    getTupleSize (setTupleSize m k size) j = getTupleSize m j :=
  tupleSize_congr fun _ _ _ => setTupleSize_frame m k size (by omega)

@[simp] theorem setTupleSize_pageId (m : Mem) (k size : Nat) :
    getTablePageId (setTupleSize m k size) = getTablePageId m :=
  pageId_congr fun _ _ => setTupleSize_frame m k size (by omega)

@[simp] theorem setTupleSize_count (m : Mem) (k size : Nat) :
    getTupleCount (setTupleSize m k size) = getTupleCount m :=
  Mem.u32_congr fun _ _ _ => setTupleSize_frame m k size (by omega)

@[simp] theorem setTupleSize_pointer (m : Mem) (k size : Nat) :
    getFreeSpacePointer (setTupleSize m k size) = getFreeSpacePointer m :=
  Mem.u32_congr fun _ _ _ => setTupleSize_frame m k size (by omega)

/-- The marks do not touch the header. -/
theorem markDelete_header (m : Mem) (rid : RowId) {j : Nat} (hj : j < 16) :
    (markDelete m rid).2 j = m j := by
  simp only [markDelete]
  split
  · rfl
  · split
    · rfl
    · split
      · exact setTupleSize_frame m _ _ (by omega)
      · rfl

theorem rollbackDelete_header {rid : RowId} (hok : rollbackDelete m rid = .ok m') {j : Nat}
    (hj : j < 16) : m' j = m j := by
  rcases bind_eq_ok.mp hok with ⟨_, _, hok⟩
  simp only at hok
  split at hok
  · obtain rfl := Except.ok.inj hok
    exact setTupleSize_frame m _ _ (by omega)
  · obtain rfl := Except.ok.inj hok
    rfl

/-! ## Insertion -/

/-- A tuple that does not fit is refused and nothing is written. -/
theorem insertTuple_of_full {row : Row} (hrow : schema.getColumnCount = row.fields.length)
    (hfull : getFreeSpaceRemaining m < row.encode.length + SIZE_TUPLE) :
    insertTuple m row schema = .ok (false, row, m) := by
  have hpos := encode_pos row
  simp only [insertTuple, Row.getSerializedSize_of_count hrow, ok_bind, hpos, decide_true,
    assert_true, hfull, if_true]

theorem wrap32_sub {a b : Nat} (h : b ≤ a) (ha : a < 2 ^ 32) : wrap32 (a - b) = a - b := by
  unfold wrap32
  omega

/-- The page after a row was put in slot `i` at address `a`, the count apart. -/
def placed (m : Mem) (row : Row) (a i : Nat) : Mem :=
  setTupleSize (setTupleOffsetAtSlot ((setFreeSpacePointer m a).store a row.encode) i a) i
    row.encode.length

theorem placed_frame {row : Row} {a j : Nat} (ha : 32 + 8 * i ≤ a)
    (hj : j < 16 ∨ (20 ≤ j ∧ j < 24 + 8 * i) ∨ (32 + 8 * i ≤ j ∧ j < a) ∨
      a + row.encode.length ≤ j) : placed m row a i j = m j := by
  simp only [placed, setTupleSize, setTupleOffsetAtSlot, setFreeSpacePointer, SIZE_TUPLE]
  rw [Mem.setU32_apply_outside (by omega), Mem.setU32_apply_outside (by omega),
    Mem.store_apply_outside (by omega), Mem.setU32_apply_outside (by omega)]

theorem placed_words {row : Row} {a : Nat} (ha : 32 + 8 * i ≤ a)
    (hend : a + row.encode.length ≤ PAGE_SIZE) :
    getFreeSpacePointer (placed m row a i) = a ∧
      getTupleOffsetAtSlot (placed m row a i) i = a ∧
      getTupleSize (placed m row a i) i = row.encode.length ∧
      Mem.Holds (placed m row a i) a row.encode := by
  simp only [PAGE_SIZE] at hend
  simp only [getFreeSpacePointer, getTupleOffsetAtSlot, getTupleSize, placed, setTupleSize,
    setTupleOffsetAtSlot, setFreeSpacePointer, SIZE_TUPLE]
  refine ⟨?_, ?_, Mem.u32_setU32_of_lt (by omega), ?_⟩
  · rw [Mem.u32_setU32_ne (by omega), Mem.u32_setU32_ne (by omega),
      Mem.u32_store_outside (by omega), Mem.u32_setU32_of_lt (by omega)]
  · rw [Mem.u32_setU32_ne (by omega), Mem.u32_setU32_of_lt (by omega)]
  · refine Mem.holds_setU32_outside (Mem.holds_setU32_outside (Mem.holds_store _ _ _) ?_) ?_
    · omega
    · omega

/-- The page after an insertion in slot `i` at address `a`. -/
def inserted (m : Mem) (row : Row) (a i : Nat) : Mem :=
  setTupleCount
    (setTupleSize (setTupleOffsetAtSlot ((setFreeSpacePointer m a).store a row.encode) i a) i
      row.encode.length) (i + 1)

theorem inserted_eq (m : Mem) (row : Row) (a i : Nat) :
    inserted m row a i = setTupleCount (placed m row a i) (i + 1) :=
  rfl

/-- The writes of an insertion leave everything else as it was. -/
theorem inserted_frame {row : Row} {a j : Nat} (ha : 32 + 8 * i ≤ a)
    (hj : j < 16 ∨ (24 ≤ j ∧ j < 24 + 8 * i) ∨ (32 + 8 * i ≤ j ∧ j < a) ∨
      a + row.encode.length ≤ j) : inserted m row a i j = m j := by
  rw [inserted_eq, setTupleCount, Mem.setU32_apply_outside (by omega)]
  exact placed_frame ha (by omega)

/-- The words an insertion writes.  The count is apart from everything else that is written. -/
theorem inserted_words {row : Row} {a : Nat} (ha : 32 + 8 * i ≤ a)
    (hend : a + row.encode.length ≤ PAGE_SIZE) :
    getFreeSpacePointer (inserted m row a i) = a ∧
      getTupleCount (inserted m row a i) = i + 1 ∧
      getTupleOffsetAtSlot (inserted m row a i) i = a ∧
      getTupleSize (inserted m row a i) i = row.encode.length ∧
      Mem.Holds (inserted m row a i) a row.encode := by
  rcases placed_words (m := m) ha hend with ⟨hptr, hoff, hsize, hbytes⟩
  simp only [PAGE_SIZE] at hend
  have hbyte : ∀ j, j < 20 ∨ 24 ≤ j → inserted m row a i j = placed m row a i j :=
    fun j hj => Mem.setU32_apply_outside (by omega)
  have hslot := slot_congr (i := i) fun j h1 _ => hbyte j (by omega)
  refine ⟨?_, Mem.u32_setU32_of_lt (by omega), hslot.1.trans hoff, hslot.2.trans hsize, ?_⟩
  · refine Eq.trans ?_ hptr
    exact Mem.u32_congr fun j _ h2 => hbyte j (by omega)
  · exact Mem.holds_congr hbytes fun j h1 _ => hbyte j (by omega)

/-- The page after the count was adjusted: one more when the slot is new. -/
def insertedAt (m : Mem) (row : Row) (a i n : Nat) : Mem :=
  if i = n then setTupleCount (placed m row a i) (n + 1) else placed m row a i

theorem insertedAt_frame {row : Row} {a j : Nat} (ha : 32 + 8 * i ≤ a)
    (hj : j < 16 ∨ (24 ≤ j ∧ j < 24 + 8 * i) ∨ (32 + 8 * i ≤ j ∧ j < a) ∨
      a + row.encode.length ≤ j) : insertedAt m row a i n j = m j := by
  unfold insertedAt
  split
  · rename_i heq
    rw [← heq]
    exact inserted_frame ha hj
  · exact placed_frame ha (by omega)

theorem insertedAt_words {row : Row} {a : Nat} (hcount : getTupleCount m = n) (hi : i ≤ n)
    (ha : 32 + 8 * i ≤ a) (hend : a + row.encode.length ≤ PAGE_SIZE) :
    getTupleCount (insertedAt m row a i n) = max n (i + 1) ∧
      getFreeSpacePointer (insertedAt m row a i n) = a ∧
      getTupleOffsetAtSlot (insertedAt m row a i n) i = a ∧
      getTupleSize (insertedAt m row a i n) i = row.encode.length ∧
      Mem.Holds (insertedAt m row a i n) a row.encode := by
  unfold insertedAt
  split
  · rename_i heq
    rw [← heq, ← inserted_eq]
    rcases inserted_words (m := m) ha hend with ⟨hptr, hnew, hoff, hsize, hbytes⟩
    exact ⟨by omega, hptr, hoff, hsize, hbytes⟩
  · rcases placed_words (m := m) ha hend with ⟨hptr, hoff, hsize, hbytes⟩
    have hsame : getTupleCount (placed m row a i) = n := by
      rw [← hcount]
      exact Mem.u32_congr fun j h1 h2 => placed_frame ha (by omega)
    exact ⟨by omega, hptr, hoff, hsize, hbytes⟩

/-- With room, `InsertTuple` puts the row where the search stopped. -/
theorem insertTuple_of_room {row : Row} (hrow : schema.getColumnCount = row.fields.length)
    (hcount : getTupleCount m = n) (hlow : 24 + 8 * n ≤ getFreeSpacePointer m)
    (hhigh : getFreeSpacePointer m ≤ PAGE_SIZE)
    (hrem : getFreeSpaceRemaining m = getFreeSpacePointer m - 24 - 8 * n)
    (hroom : row.encode.length + SIZE_TUPLE ≤ getFreeSpaceRemaining m)
    (hfind : findSlot m n 0 = i) (hle : i ≤ n) :
    insertTuple m row schema =
      .ok (true, { row with rid := ⟨getTablePageId m, UInt32.ofNat i⟩ },
        insertedAt m row (getFreeSpacePointer m - row.encode.length) i n) := by
  have hpos := encode_pos row
  simp only [PAGE_SIZE, SIZE_TUPLE] at hhigh hroom
  set a := getFreeSpacePointer m - row.encode.length with ha
  have halo : 32 + 8 * i ≤ a := by omega
  have hwrap : wrap32 (getFreeSpacePointer m - row.encode.length) = a :=
    wrap32_sub (by omega) (by omega)
  have hnot : ¬getFreeSpaceRemaining m < row.encode.length + SIZE_TUPLE := by
    simp only [SIZE_TUPLE]
    omega
  have hinside : a + row.encode.length ≤ PAGE_SIZE := by
    simp only [PAGE_SIZE]
    omega
  -- Reads of the header between the writes.
  have hptr₁ : getFreeSpacePointer (setFreeSpacePointer m a) = a :=
    Mem.u32_setU32_of_lt (by omega)
  have hptr₂ : getFreeSpacePointer ((setFreeSpacePointer m a).store a row.encode) = a := by
    rw [getFreeSpacePointer, Mem.u32_store_outside (by omega)]
    exact hptr₁
  have hcount' : getTupleCount (placed m row a i) = n := by
    rw [← hcount]
    exact Mem.u32_congr fun j h1 h2 => placed_frame halo (by omega)
  have hid : getTablePageId (placed m row a i) = getTablePageId m :=
    pageId_congr fun j hj => placed_frame halo (by omega)
  simp only [placed] at hcount' hid
  simp only [insertTuple, Row.getSerializedSize_of_count hrow, ok_bind, hpos, decide_true,
    assert_true, hnot, if_false, and_false, hcount, hfind, hwrap, hptr₁, hinside, if_true,
    Row.serializeTo_of_count hrow, hptr₂, hcount', hid, insertedAt, placed]

/-- With room, `InsertTuple` writes the tuple below the others and takes the next slot. -/
theorem Represents.insertTuple_eq (h : Represents schema p m es) {row : Row}
    (hrow : row.HasSchema schema)
    (hroom : row.encode.length + SIZE_TUPLE ≤ getFreeSpaceRemaining m) :
    insertTuple m row schema =
      .ok (true, { row with rid := ⟨p, UInt32.ofNat es.length⟩ },
        inserted m row (PAGE_SIZE - used es - row.encode.length) es.length) := by
  have hrem := h.remaining
  have hfits := h.fits
  have hptr := h.pointer
  simp only [PAGE_SIZE, SIZE_TABLE_PAGE_HEADER, SIZE_TUPLE] at hrem hfits hptr
  have hfind : TablePage.findSlot m es.length 0 = es.length := h.count ▸ h.findSlot
  rw [insertTuple_of_room hrow.count h.count (by omega) (by simp only [PAGE_SIZE]; omega)
    (by omega) hroom hfind le_rfl, h.pageId, h.pointer, insertedAt, if_pos rfl, inserted_eq]

/-- The entries after one more. -/
theorem getElem?_concat_cases {d : Entry} (h : (es ++ [d])[i]? = some e) :
    (i < es.length ∧ es[i]? = some e) ∨ (i = es.length ∧ e = d) := by
  by_cases hi : i < es.length
  · rw [List.getElem?_append_left hi] at h
    exact Or.inl ⟨hi, h⟩
  · have hlt := lt_length_of_getElem? h
    simp only [List.length_append, List.length_singleton] at hlt
    have hi' : i = es.length := by omega
    subst hi'
    simp at h
    exact Or.inr ⟨rfl, h.symm⟩

theorem offset_concat_of_lt (d : Entry) (hi : i < es.length) :
    offset (es ++ [d]) i = offset es i := by
  rw [offset, offset, List.take_append_of_le_length (by omega)]

theorem offset_concat_self (es : List Entry) (d : Entry) :
    offset (es ++ [d]) es.length = PAGE_SIZE - (used es + d.size) := by
  have hused : used [d] = d.size := by simp [used]
  rw [offset, List.take_of_length_le (by simp), used_append, hused]

theorem Represents.insert (h : Represents schema p m es) {row : Row}
    (hrow : row.HasSchema schema)
    (hroom : row.encode.length + SIZE_TUPLE ≤ getFreeSpaceRemaining m) :
    Represents schema p
      (inserted m row (PAGE_SIZE - used es - row.encode.length) es.length)
      (es ++ [⟨row, false⟩]) := by
  have hrem := h.remaining
  have hfits := h.fits
  simp only [PAGE_SIZE, SIZE_TABLE_PAGE_HEADER, SIZE_TUPLE] at hrem hfits hroom
  set a := PAGE_SIZE - used es - row.encode.length with ha
  simp only [PAGE_SIZE] at ha
  have hlo : 32 + 8 * es.length ≤ a := by omega
  have hend : a + row.encode.length ≤ PAGE_SIZE := by
    simp only [PAGE_SIZE]
    omega
  have hframe : ∀ j, (j < 16 ∨ (24 ≤ j ∧ j < 24 + 8 * es.length) ∨
      (32 + 8 * es.length ≤ j ∧ j < a) ∨ a + row.encode.length ≤ j) →
      inserted m row a es.length j = m j := fun j hj => inserted_frame hlo hj
  have hslot : ∀ i, i < es.length →
      getTupleOffsetAtSlot (inserted m row a es.length) i = getTupleOffsetAtSlot m i ∧
        getTupleSize (inserted m row a es.length) i = getTupleSize m i :=
    fun i hi => slot_congr fun j h1 h2 => hframe j (by omega)
  rcases inserted_words (m := m) hlo hend with ⟨hptr, hcount, hoff, hsize, hbytes⟩
  have hused : used (es ++ [⟨row, false⟩]) = used es + row.encode.length := by
    simp [used, Entry.size]
  -- The new slot is the last one; earlier slots keep their place.
  have hlast : offset (es ++ [⟨row, false⟩]) es.length = a := by
    rw [offset_concat_self, Entry.size]
    simp only [PAGE_SIZE]
    omega
  refine ⟨?_, ?_, ?_, ?_, ?_, ?_, ?_, ?_⟩
  · rw [← h.pageId]
    exact pageId_congr fun j hj => hframe j (by omega)
  · intro e he
    rcases List.mem_append.mp he with he | he
    · exact h.typed e he
    · rw [List.mem_singleton.mp he]
      exact hrow
  · rw [hcount, List.length_append, List.length_singleton]
  · rw [hused]
    simp only [List.length_append, List.length_singleton, PAGE_SIZE, SIZE_TABLE_PAGE_HEADER,
      SIZE_TUPLE]
    omega
  · rw [hptr, hused]
    simp only [PAGE_SIZE]
    omega
  · intro i e he
    rcases getElem?_concat_cases he with ⟨hi, he⟩ | ⟨rfl, rfl⟩
    · rw [offset_concat_of_lt _ hi, ← h.slot_offset i e he, (hslot i hi).1]
    · rw [hlast, hoff]
  · intro i e he
    rcases getElem?_concat_cases he with ⟨hi, he⟩ | ⟨rfl, rfl⟩
    · rw [← h.slot_size i e he, (hslot i hi).2]
    · rw [hsize]
      rfl
  · intro i e he
    rcases getElem?_concat_cases he with ⟨hi, he⟩ | ⟨rfl, rfl⟩
    · -- The tuples of earlier slots lie above the new one.
      rw [offset_concat_of_lt _ hi]
      refine Mem.holds_congr (h.bytes i e he) fun j h1 h2 => hframe j ?_
      have hle : used (es.take (i + 1)) ≤ used es := used_take_le _ _
      simp only [offset, PAGE_SIZE] at h1
      omega
    · rw [hlast]
      exact hbytes

/-- The page ids in the header stay. -/
theorem Represents.inserted_header (h : Represents schema p m es) {row : Row}
    (hroom : row.encode.length + SIZE_TUPLE ≤ getFreeSpaceRemaining m) {j : Nat} (hj : j < 16) :
    inserted m row (PAGE_SIZE - used es - row.encode.length) es.length j = m j := by
  have hrem := h.remaining
  have hfits := h.fits
  simp only [PAGE_SIZE, SIZE_TABLE_PAGE_HEADER, SIZE_TUPLE] at hrem hfits hroom ⊢
  exact inserted_frame (by omega) (Or.inl hj)

/-! ## Marks -/

theorem used_take_set (e' : Entry) {k : Nat} (he : es[k]? = some e) (j : Nat) :
    used ((es.set k e').take j) + (if k < j then e.size else 0) =
      used (es.take j) + (if k < j then e'.size else 0) := by
  induction es generalizing k j with
  | nil =>
      simp at he
  | cons x xs ih =>
      -- Along the list: the slot is this one, or one of the rest.
      cases j with
      | zero =>
          simp [used]
      | succ j =>
          cases k with
          | zero =>
              have hx : x = e := by simpa using he
              subst hx
              simp only [List.set_cons_zero, List.take_succ_cons, used, List.map_cons,
                List.sum_cons, Nat.succ_pos, if_true]
              omega
          | succ k =>
              have hrec := ih (k := k) (by simpa using he) j
              simp only [List.set_cons_succ, List.take_succ_cons, used, List.map_cons,
                List.sum_cons, Nat.succ_lt_succ_iff] at hrec ⊢
              omega

theorem used_set (e' : Entry) {k : Nat} (he : es[k]? = some e) :
    used (es.set k e') + e.size = used es + e'.size := by
  have hlt := lt_length_of_getElem? he
  have h := used_take_set e' he es.length
  rwa [if_pos hlt, if_pos hlt, List.take_of_length_le (by simp), List.take_length] at h

/-- The entries after one of them was replaced. -/
theorem getElem?_set_cases {e' d : Entry} {k j : Nat} (hk : k < es.length)
    (h : (es.set k e')[j]? = some d) : (j = k ∧ d = e') ∨ (j ≠ k ∧ es[j]? = some d) := by
  by_cases hj : j = k
  · subst hj
    rw [List.getElem?_set_self hk] at h
    exact Or.inl ⟨rfl, (Option.some.inj h).symm⟩
  · rw [List.getElem?_set_ne (Ne.symm hj)] at h
    exact Or.inr ⟨hj, h⟩

/-- Rewriting the size word of a slot changes its mark and nothing else. -/
theorem Represents.setMark (h : Represents schema p m es) {k : Nat} (he : es[k]? = some e)
    (b : Bool) :
    Represents schema p (setTupleSize m k (Entry.sizeWord { e with marked := b }))
      (es.set k { e with marked := b }) := by
  have hk := lt_length_of_getElem? he
  have hfits := h.fits
  rcases h.size_bounds he with ⟨_, hlt⟩
  -- The mark does not count for the size, so the layout stays.
  have hsame : ∀ j, used ((es.set k { e with marked := b }).take j) = used (es.take j) := by
    intro j
    have hset := used_take_set { e with marked := b } he j
    have hsize : Entry.size { e with marked := b } = e.size := rfl
    rw [hsize] at hset
    omega
  have hoff : ∀ j, offset (es.set k { e with marked := b }) j = offset es j := by
    intro j
    rw [offset, offset, hsame]
  have hused : used (es.set k { e with marked := b }) = used es := by
    have hall := hsame es.length
    rwa [List.take_of_length_le (by simp), List.take_length] at hall
  have hwordlt : Entry.sizeWord { e with marked := b } < 2 ^ 32 := by
    have hsize : Entry.size { e with marked := b } = e.size := rfl
    rw [Entry.sizeWord, hsize]
    split
    · simp only [DELETE_MASK]
      omega
    · omega
  have hframe := fun j => setTupleSize_frame m k (Entry.sizeWord { e with marked := b }) (j := j)
  simp only [SIZE_TABLE_PAGE_HEADER, SIZE_TUPLE, PAGE_SIZE] at hfits
  refine ⟨?_, ?_, ?_, ?_, ?_, ?_, ?_, ?_⟩
  · rw [setTupleSize_pageId, h.pageId]
  · intro d hd
    rcases List.mem_or_eq_of_mem_set hd with hd | rfl
    · exact h.typed d hd
    · exact h.typed e (List.mem_of_getElem? he)
  · rw [List.length_set, setTupleSize_count, h.count]
  · rw [List.length_set, hused]
    exact h.fits
  · rw [hused, setTupleSize_pointer, h.pointer]
  · intro j d hd
    have hd' : ∃ d', es[j]? = some d' := by
      rcases getElem?_set_cases hk hd with ⟨rfl, _⟩ | ⟨_, hd⟩
      · exact ⟨e, he⟩
      · exact ⟨d, hd⟩
    rcases hd' with ⟨d', hd'⟩
    rw [hoff, setTupleSize_offset, h.slot_offset j d' hd']
  · intro j d hd
    rcases getElem?_set_cases hk hd with ⟨rfl, rfl⟩ | ⟨hne, hd⟩
    · exact Mem.u32_setU32_of_lt hwordlt
    · rw [setTupleSize_size_ne m _ hne, h.slot_size j d hd]
  · intro j d hd
    have hbytes : ∃ d', es[j]? = some d' ∧ d'.row = d.row := by
      rcases getElem?_set_cases hk hd with ⟨rfl, rfl⟩ | ⟨_, hd⟩
      · exact ⟨e, he, rfl⟩
      · exact ⟨d, hd, rfl⟩
    rcases hbytes with ⟨d', hd', hrow⟩
    rw [hoff, ← hrow]
    refine Mem.holds_congr (h.bytes j d' hd') fun a h1 h2 => hframe a ?_
    have hle : used (es.take (j + 1)) ≤ used es := used_take_le _ _
    simp only [offset, PAGE_SIZE] at h1
    omega

/-! ## Update -/

/-- The loop over the slots: which offsets move, and what stays. -/
theorem moveOffsets_spec (limit tupleSize newSize : Nat) (k i : Nat) (m : Mem) :
    (∀ j, (j < 24 + 8 * i ∨ 24 + 8 * (i + k) ≤ j) →
      moveOffsets limit tupleSize newSize k i m j = m j) ∧
    (∀ j, getTupleSize (moveOffsets limit tupleSize newSize k i m) j = getTupleSize m j) ∧
    ∀ j, getTupleOffsetAtSlot (moveOffsets limit tupleSize newSize k i m) j =
      if i ≤ j ∧ j < i + k ∧ getTupleSize m j > 0 ∧ getTupleOffsetAtSlot m j < limit then
        wrap32 (getTupleOffsetAtSlot m j + tupleSize - newSize)
      else getTupleOffsetAtSlot m j := by
  induction k generalizing i m with
  | zero =>
      refine ⟨fun _ _ => rfl, fun _ => rfl, fun j => ?_⟩
      rw [if_neg (by omega)]
      rfl
  | succ k ih =>
      rw [moveOffsets]
      set m' := if getTupleSize m i > 0 ∧ getTupleOffsetAtSlot m i < limit then
          setTupleOffsetAtSlot m i (wrap32 (getTupleOffsetAtSlot m i + tupleSize - newSize))
        else m with hm'
      -- One slot: its offset word is the only thing that changes.
      have hbyte : ∀ j, (j < 24 + 8 * i ∨ 28 + 8 * i ≤ j) → m' j = m j := by
        intro j hj
        rw [hm']
        split
        · simp only [setTupleOffsetAtSlot, SIZE_TUPLE]
          exact Mem.setU32_apply_outside (by omega)
        · rfl
      have hsize : ∀ j, getTupleSize m' j = getTupleSize m j := fun j =>
        tupleSize_congr fun a h1 h2 => hbyte a (by omega)
      have hother : ∀ j, j ≠ i → getTupleOffsetAtSlot m' j = getTupleOffsetAtSlot m j :=
        fun j hj => tupleOffset_congr fun a h1 h2 => hbyte a (by omega)
      have hself : getTupleOffsetAtSlot m' i =
          if getTupleSize m i > 0 ∧ getTupleOffsetAtSlot m i < limit then
            wrap32 (getTupleOffsetAtSlot m i + tupleSize - newSize)
          else getTupleOffsetAtSlot m i := by
        rw [hm']
        split
        · refine Mem.u32_setU32_of_lt ?_
          unfold wrap32
          omega
        · rfl
      -- The rest of the loop reads the sizes and the other offsets as they were before.
      rcases ih (i + 1) m' with ⟨h1, h2, h3⟩
      refine ⟨fun j hj => ?_, fun j => ?_, fun j => ?_⟩
      · rw [h1 j (by omega), hbyte j (by omega)]
      · rw [h2 j, hsize j]
      · rw [h3 j, hsize j]
        by_cases hj : j = i
        · subst hj
          rw [if_neg (by omega), hself]
          simp
        · rw [hother j hj]
          have hiff : (i + 1 ≤ j ∧ j < i + 1 + k ∧ getTupleSize m j > 0 ∧
              getTupleOffsetAtSlot m j < limit) ↔
              (i ≤ j ∧ j < i + (k + 1) ∧ getTupleSize m j > 0 ∧
                getTupleOffsetAtSlot m j < limit) := by
            constructor
            · rintro ⟨a, b, c, d⟩
              exact ⟨by omega, by omega, c, d⟩
            · rintro ⟨a, b, c, d⟩
              exact ⟨by omega, by omega, c, d⟩
          simp only [hiff]

/-- The page before the offsets are moved: `fsp` is the free space pointer, `a` the address of the
tuple in slot `k` and `ts` its size. -/
def replaced (m : Mem) (row : Row) (fsp a ts k : Nat) : Mem :=
  setTupleSize
    ((setFreeSpacePointer
      (m.memmove (fsp + ts - row.encode.length) fsp (a - fsp))
      (fsp + ts - row.encode.length)).store (a + ts - row.encode.length) row.encode)
    k row.encode.length

/-- The page `UpdateTuple` leaves. -/
def updated (m : Mem) (row : Row) (fsp a ts k count : Nat) : Mem :=
  moveOffsets (a + ts) ts row.encode.length count 0 (replaced m row fsp a ts k)

section Replaced

variable {row : Row} {fsp a ts k n : Nat}

/-- Outside the free space pointer, one size word and the tuples up to slot `k` nothing moves. -/
theorem replaced_frame (hlow : 24 + 8 * n + row.encode.length ≤ fsp + ts) (ha : fsp ≤ a) {j : Nat}
    (hj : j < 16 ∨ (20 ≤ j ∧ j < 24 + 8 * n ∧ (j < 28 + 8 * k ∨ 32 + 8 * k ≤ j)) ∨ a + ts ≤ j)
    (hk : k < n) : replaced m row fsp a ts k j = m j := by
  simp only [replaced, setTupleSize, setFreeSpacePointer, SIZE_TUPLE]
  rw [Mem.setU32_apply_outside (by omega), Mem.store_apply_outside (by omega),
    Mem.setU32_apply_outside (by omega), Mem.memmove_apply_outside (by omega)]

theorem replaced_words (hlow : 24 + 8 * n + row.encode.length ≤ fsp + ts) (ha : fsp ≤ a)
    (hend : a + ts ≤ PAGE_SIZE) (hk : k < n) :
    getFreeSpacePointer (replaced m row fsp a ts k) = fsp + ts - row.encode.length ∧
      getTupleSize (replaced m row fsp a ts k) k = row.encode.length ∧
      Mem.Holds (replaced m row fsp a ts k) (a + ts - row.encode.length) row.encode := by
  simp only [PAGE_SIZE] at hend
  simp only [getFreeSpacePointer, getTupleSize, replaced, setTupleSize, setFreeSpacePointer,
    SIZE_TUPLE]
  refine ⟨?_, Mem.u32_setU32_of_lt (by omega), ?_⟩
  · rw [Mem.u32_setU32_ne (by omega), Mem.u32_store_outside (by omega),
      Mem.u32_setU32_of_lt (by omega)]
  · exact Mem.holds_setU32_outside (Mem.holds_store _ _ _) (by omega)

/-- A tuple below the one replaced moves by the difference of the sizes. -/
theorem replaced_moved (hlow : 24 + 8 * n + row.encode.length ≤ fsp + ts) (hk : k < n) {b : Nat}
    {bs : List UInt8} (hb : Mem.Holds m b bs) (hlo : fsp ≤ b) (hhi : b + bs.length ≤ a) :
    Mem.Holds (replaced m row fsp a ts k) (b + ts - row.encode.length) bs := by
  -- In bytes: a tuple at distance `b - fsp` from the pointer keeps that distance.
  have haddr : fsp + ts - row.encode.length + (b - fsp) = b + ts - row.encode.length := by omega
  have hmoved : Mem.Holds (m.memmove (fsp + ts - row.encode.length) fsp (a - fsp))
      (fsp + ts - row.encode.length + (b - fsp)) bs :=
    Mem.holds_memmove hb hlo (by omega)
  rw [haddr] at hmoved
  simp only [replaced, setTupleSize, setFreeSpacePointer, SIZE_TUPLE]
  refine Mem.holds_setU32_outside (Mem.holds_store_outside (Mem.holds_setU32_outside hmoved ?_)
    ?_) ?_
  · omega
  · omega
  · omega

end Replaced

section Updated

variable {row : Row} {fsp a ts k n : Nat}
variable (hlow : 24 + 8 * n + row.encode.length ≤ fsp + ts) (ha : fsp ≤ a) (hk : k < n)

include hlow ha hk

/-- The loop over the slots changes offset words only. -/
theorem updated_frame {j : Nat} (hj : j < 16 ∨ (20 ≤ j ∧ j < 24) ∨ a + ts ≤ j) :
    updated m row fsp a ts k n j = m j := by
  rcases moveOffsets_spec (a + ts) ts row.encode.length n 0 (replaced m row fsp a ts k) with
    ⟨hbytes, _, _⟩
  have hslots : 24 + 8 * n ≤ a + ts := by omega
  rw [updated, hbytes j (by omega), replaced_frame hlow ha (by omega) hk]

theorem updated_size {j : Nat} (hj : j < n) (hne : j ≠ k) :
    getTupleSize (updated m row fsp a ts k n) j = getTupleSize m j := by
  rcases moveOffsets_spec (a + ts) ts row.encode.length n 0 (replaced m row fsp a ts k) with
    ⟨_, hsizes, _⟩
  rw [updated, hsizes j]
  refine Mem.u32_congr fun b h1 h2 => replaced_frame hlow ha ?_ hk
  simp only [SIZE_TUPLE] at h1 h2
  omega

theorem updated_words (hend : a + ts ≤ PAGE_SIZE) :
    getFreeSpacePointer (updated m row fsp a ts k n) = fsp + ts - row.encode.length ∧
      getTupleSize (updated m row fsp a ts k n) k = row.encode.length ∧
      Mem.Holds (updated m row fsp a ts k n) (a + ts - row.encode.length) row.encode := by
  rcases moveOffsets_spec (a + ts) ts row.encode.length n 0 (replaced m row fsp a ts k) with
    ⟨hbytes, hsizes, _⟩
  rcases replaced_words (m := m) hlow ha hend hk with ⟨hptr, hsize, hnew⟩
  refine ⟨?_, ?_, Mem.holds_congr hnew fun j h1 _ => hbytes j (by omega)⟩
  · rw [← hptr]
    exact Mem.u32_congr fun j _ h2 => hbytes j (by omega)
  · rw [updated, hsizes k, hsize]

omit ha in
/-- A tuple below the one replaced has moved. -/
theorem updated_moved {b : Nat} {bs : List UInt8} (hb : Mem.Holds m b bs) (hlo : fsp ≤ b)
    (hhi : b + bs.length ≤ a) :
    Mem.Holds (updated m row fsp a ts k n) (b + ts - row.encode.length) bs := by
  rcases moveOffsets_spec (a + ts) ts row.encode.length n 0 (replaced m row fsp a ts k) with
    ⟨hbytes, _, _⟩
  exact Mem.holds_congr (replaced_moved hlow hk hb hlo hhi) fun j h1 _ => hbytes j (by omega)

/-- The offset word of slot `j` follows its tuple: the limit of the loop separates the tuples that
moved from the others. -/
theorem updated_offset (hend : a + ts ≤ PAGE_SIZE) {j : Nat} (hj : j < n)
    (hsize : getTupleSize m j ≠ 0) (hlo : fsp ≤ getTupleOffsetAtSlot m j) :
    getTupleOffsetAtSlot (updated m row fsp a ts k n) j =
      if getTupleOffsetAtSlot m j < a + ts then
        getTupleOffsetAtSlot m j + ts - row.encode.length
      else getTupleOffsetAtSlot m j := by
  rcases moveOffsets_spec (a + ts) ts row.encode.length n 0 (replaced m row fsp a ts k) with
    ⟨_, _, hoffs⟩
  have hold : getTupleOffsetAtSlot (replaced m row fsp a ts k) j = getTupleOffsetAtSlot m j := by
    refine Mem.u32_congr fun b h1 h2 => replaced_frame hlow ha ?_ hk
    simp only [SIZE_TUPLE] at h1 h2
    omega
  -- The slot that was replaced has the size of the new row, which is not zero either.
  have hpos : getTupleSize (replaced m row fsp a ts k) j > 0 := by
    by_cases hjk : j = k
    · subst hjk
      rw [(replaced_words (m := m) hlow ha hend hk).2.1]
      exact encode_pos row
    · have hsame : getTupleSize (replaced m row fsp a ts k) j = getTupleSize m j := by
        refine Mem.u32_congr fun b h1 h2 => replaced_frame hlow ha ?_ hk
        simp only [SIZE_TUPLE] at h1 h2
        omega
      omega
  rw [updated, hoffs j, hold]
  by_cases hlt : getTupleOffsetAtSlot m j < a + ts
  · rw [if_pos ⟨Nat.zero_le _, by omega, hpos, hlt⟩, if_pos hlt]
    simp only [PAGE_SIZE] at hend
    unfold wrap32
    omega
  · rw [if_neg (fun hcond => hlt hcond.2.2.2), if_neg hlt]

end Updated

/-- Where the tuples stand relative to slot `k`: earlier slots above it, later ones below. -/
theorem offset_order (hused : used es ≤ PAGE_SIZE) {k j : Nat} {d : Entry}
    (he : es[k]? = some e) (hd : es[j]? = some d) :
    PAGE_SIZE - used es ≤ offset es j ∧ offset es j + d.size ≤ PAGE_SIZE ∧
      (j < k → offset es k + e.size ≤ offset es j) ∧
      (k < j → offset es j + d.size ≤ offset es k) := by
  have hke := used_take_succ he
  have hjd := used_take_succ hd
  have hk := used_take_le es (k + 1)
  have hj := used_take_le es (j + 1)
  refine ⟨?_, ?_, fun hlt => ?_, fun hlt => ?_⟩
  · simp only [offset]
    omega
  · simp only [offset]
    omega
  · have hmono := used_take_mono es (show j + 1 ≤ k by omega)
    simp only [offset]
    omega
  · have hmono := used_take_mono es (show k + 1 ≤ j by omega)
    simp only [offset]
    omega

/-- The offsets after the entry of slot `k` was replaced: the slots from `k` on move. -/
theorem offset_set (e' : Entry) {k j : Nat} (hused : used es ≤ PAGE_SIZE) (he : es[k]? = some e) :
    offset (es.set k e') j =
      if j < k then offset es j else offset es j + e.size - e'.size := by
  have htake := used_take_set e' he (j + 1)
  have hle := used_take_le es (j + 1)
  have hsucc := used_take_succ he
  split
  · rw [if_neg (by omega), if_neg (by omega)] at htake
    simp only [offset]
    omega
  · have hkj : k < j + 1 := by omega
    have hmono := used_take_mono es (show k + 1 ≤ j + 1 by omega)
    rw [if_pos hkj, if_pos hkj] at htake
    simp only [offset]
    omega

/-- The entries after `UpdateTuple` wrote `row` in slot `k`. -/
theorem Represents.update (h : Represents schema p m es) {k : Nat} {row : Row}
    (hrow : row.HasSchema schema) (he : es[k]? = some e)
    (hroom : row.encode.length ≤ getFreeSpaceRemaining m + e.size) :
    Represents schema p
      (updated m row (PAGE_SIZE - used es) (offset es k) e.size k es.length)
      (es.set k ⟨row, false⟩) ∧
    ∀ j, j < 16 ∨ PAGE_SIZE ≤ j →
      updated m row (PAGE_SIZE - used es) (offset es k) e.size k es.length j = m j := by
  have hk := lt_length_of_getElem? he
  have hrem := h.remaining
  have hfits := h.fits
  have hused := h.used_le
  have horder := fun {j d} (hd : es[j]? = some d) => offset_order hused he hd
  have hset := used_set ⟨row, false⟩ he
  have hsize : Entry.size ⟨row, false⟩ = row.encode.length := rfl
  have hoffset := fun j => offset_set (j := j) ⟨row, false⟩ hused he
  rcases horder he with ⟨hlo, hhi, _, _⟩
  rw [hsize] at hset
  simp only [hsize] at hoffset
  set fsp := PAGE_SIZE - used es with hfsp
  set a := offset es k with ha
  have hlow : 24 + 8 * es.length + row.encode.length ≤ fsp + e.size := by
    simp only [PAGE_SIZE, SIZE_TABLE_PAGE_HEADER, SIZE_TUPLE] at *
    omega
  have hframe : ∀ j, (j < 16 ∨ (20 ≤ j ∧ j < 24) ∨ a + e.size ≤ j) →
      updated m row fsp a e.size k es.length j = m j :=
    fun j hj => updated_frame hlow hlo hk hj
  rcases updated_words (m := m) hlow hlo hk hhi with ⟨hptr, hsizek, hnew⟩
  -- Exactly the tuples of the slots from `k` on start below the limit of the loop.
  have hmoved : ∀ j d, es[j]? = some d →
      getTupleOffsetAtSlot (updated m row fsp a e.size k es.length) j =
        offset (es.set k ⟨row, false⟩) j := by
    intro j d hd
    have hj := lt_length_of_getElem? hd
    have hword := h.slot_offset j d hd
    rcases horder hd with ⟨hjlo, _, habove, hbelow⟩
    rw [updated_offset hlow hlo hk hhi hj (h.sizeWord_pos hj) (by rw [hword]; exact hjlo), hword,
      hoffset j]
    by_cases hjk : j < k
    · have hge := habove hjk
      rw [if_pos hjk, if_neg (by omega)]
    · have hlt : offset es j < a + e.size := by
        rcases h.size_bounds he with ⟨hepos, _⟩
        rcases Nat.eq_or_lt_of_le (Nat.le_of_not_lt hjk) with hjk | hjk
        · subst hjk
          omega
        · have := hbelow hjk
          omega
      rw [if_neg hjk, if_pos hlt]
  refine ⟨⟨?_, ?_, ?_, ?_, ?_, ?_, ?_, ?_⟩, fun j hj => hframe j (by omega)⟩
  · rw [← h.pageId]
    exact pageId_congr fun j hj => hframe j (by omega)
  · intro d hd
    rcases List.mem_or_eq_of_mem_set hd with hd | rfl
    · exact h.typed d hd
    · exact hrow
  · rw [List.length_set]
    exact (Mem.u32_congr fun j _ _ => hframe j (by omega)).trans h.count
  · rw [List.length_set]
    simp only [PAGE_SIZE, SIZE_TABLE_PAGE_HEADER, SIZE_TUPLE] at *
    omega
  · rw [hptr]
    omega
  · intro j d hd
    rcases getElem?_set_cases hk hd with ⟨rfl, _⟩ | ⟨_, hd⟩
    · exact hmoved _ e he
    · exact hmoved j d hd
  · intro j d hd
    rcases getElem?_set_cases hk hd with ⟨rfl, rfl⟩ | ⟨hne, hd⟩
    · rw [hsizek]
      rfl
    · rw [updated_size hlow hlo hk (lt_length_of_getElem? hd) hne, h.slot_size j d hd]
  · intro j d hd
    rcases getElem?_set_cases hk hd with ⟨rfl, rfl⟩ | ⟨hne, hd⟩
    · rw [hoffset, if_neg (lt_irrefl _)]
      exact hnew
    · rw [hoffset j]
      rcases horder hd with ⟨hjlo, _, habove, hbelow⟩
      rcases Nat.lt_or_gt_of_ne hne with hjk | hjk
      · -- Above slot `k` nothing is written.
        rw [if_pos hjk]
        have hge := habove hjk
        exact Mem.holds_congr (h.bytes j d hd) fun b h1 _ => hframe b (by omega)
      · rw [if_neg (by omega)]
        exact updated_moved hlow hk (h.bytes j d hd) hjlo (hbelow hjk)

end TablePage
end MiniSQL
