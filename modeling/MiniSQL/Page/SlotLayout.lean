import MiniSQL.Page.SlotMapRuns

/-!
# SlotLayout — slotted pages with holes

`ApplyDelete` empties a slot and takes one off the slot count, so a page that saw one no longer is
a list of tuples packed against its end: slots are empty, the bytes of a slot that fell off the
count stay behind as a hole, and tuples stand in any order.  What every page keeps is a `Layout`:
each slot below the count is empty or holds a tuple between the free space pointer and the end of
the page, and the tuples do not overlap.
-/

namespace MiniSQL

open Lib

/-- A tuple of a page and where it stands. -/
structure Cell where
  entry : Entry
  offset : Nat

namespace Cell

def size (c : Cell) : Nat :=
  c.entry.size

/-- The cell after everything that starts below `limit` moved from `old` to `new`. -/
def moved (limit old new : Nat) (c : Cell) : Cell :=
  if c.offset < limit then { c with offset := c.offset + old - new } else c

def mark (b : Bool) (c : Cell) : Cell :=
  { c with entry := { c.entry with marked := b } }

theorem moved_offset (limit old new : Nat) (c : Cell) :
    (c.moved limit old new).offset =
      if c.offset < limit then c.offset + old - new else c.offset := by
  unfold moved
  split <;> rfl

@[simp] theorem moved_entry (limit old new : Nat) (c : Cell) :
    (c.moved limit old new).entry = c.entry := by
  unfold moved
  split <;> rfl

@[simp] theorem moved_size (limit old new : Nat) (c : Cell) :
    (c.moved limit old new).size = c.size := by
  rw [size, moved_entry, size]

end Cell

namespace TablePage

/-! ## Layouts -/

/-- Slot `i` of the page holds this tuple. -/
structure Stands (schema : Schema) (m : Mem) (i : Nat) (c : Cell) : Prop where
  typed : c.entry.row.HasSchema schema
  slot_offset : getTupleOffsetAtSlot m i = c.offset
  slot_size : getTupleSize m i = c.entry.sizeWord
  above : getFreeSpacePointer m ≤ c.offset
  below : c.offset + c.size ≤ PAGE_SIZE
  bytes : Mem.Holds m c.offset c.entry.row.encode

/-- The page `p` has `n` slots, filled as `cells` says. -/
structure Layout (schema : Schema) (p : PageId) (m : Mem) (n : Nat)
    (cells : Nat → Option Cell) : Prop where
  pageId : getTablePageId m = p
  count : getTupleCount m = n
  low : SIZE_TABLE_PAGE_HEADER + SIZE_TUPLE * n ≤ getFreeSpacePointer m
  high : getFreeSpacePointer m ≤ PAGE_SIZE
  empty : ∀ i, i < n → cells i = none →
    getTupleOffsetAtSlot m i = 0 ∧ getTupleSize m i = 0
  filled : ∀ i c, i < n → cells i = some c → Stands schema m i c
  apart : ∀ i j c d, i < n → j < n → i ≠ j → cells i = some c → cells j = some d →
    c.offset + c.size ≤ d.offset ∨ d.offset + d.size ≤ c.offset

variable {schema : Schema} {p : PageId} {m m' : Mem} {n i k : Nat} {cells : Nat → Option Cell}
  {c d : Cell}

theorem init_layout (schema : Schema) (m : Mem) (p prev : PageId) :
    Layout schema p (init m p prev) 0 fun _ => none := by
  have h := init_represents schema m p prev
  have hptr : getFreeSpacePointer (init m p prev) = PAGE_SIZE := h.pointer
  refine ⟨h.pageId, h.count, ?_, le_of_eq hptr, ?_, ?_, ?_⟩
  · rw [hptr]
    decide
  · intro i hi
    omega
  · intro i c hi
    omega
  · intro i j c d hi
    omega

theorem Stands.size_bounds (h : Stands schema m i c) : 13 ≤ c.size ∧ c.size < 2 ^ 31 := by
  have hpos := encode_length_pos c.entry.row
  have hle := h.below
  simp only [Cell.size, Entry.size, PAGE_SIZE] at *
  omega

/-- The size word of a filled slot: its mark and its size. -/
theorem Stands.isDeleted (h : Stands schema m i c) :
    isDeleted (getTupleSize m i) = c.entry.marked := by
  rcases h.size_bounds with ⟨hpos, hlt⟩
  simp only [Cell.size] at hpos hlt
  rw [h.slot_size, Entry.sizeWord]
  cases c.entry.marked with
  | true =>
      exact isDeleted_add_mask hlt
  | false =>
      have hne : c.entry.size ≠ 0 := by omega
      simpa [isDeleted_of_lt hlt] using hne

theorem Stands.sizeWord_pos (h : Stands schema m i c) : getTupleSize m i ≠ 0 := by
  rcases h.size_bounds with ⟨hpos, _⟩
  simp only [Cell.size] at hpos
  rw [h.slot_size, Entry.sizeWord]
  split <;> omega

/-- The size without the mark. -/
theorem Stands.plain_size (h : Stands schema m i c) :
    (if TablePage.isDeleted (getTupleSize m i) then unsetDeletedFlag (getTupleSize m i)
      else getTupleSize m i) = c.size := by
  rcases h.size_bounds with ⟨_, hlt⟩
  simp only [Cell.size] at hlt ⊢
  rw [h.isDeleted, h.slot_size, Entry.sizeWord]
  cases c.entry.marked with
  | true =>
      simpa using unsetDeletedFlag_add_mask hlt
  | false =>
      rfl

theorem Layout.remaining (h : Layout schema p m n cells) :
    getFreeSpaceRemaining m = getFreeSpacePointer m - 24 - 8 * n := by
  have hlow := h.low
  have hhigh := h.high
  simp only [getFreeSpaceRemaining, h.count, wrap32]
  simp only [PAGE_SIZE, SIZE_TABLE_PAGE_HEADER, SIZE_TUPLE] at *
  omega

/-- Two different filled slots, seen from the first: the other is below it or above it. -/
theorem Layout.below_or_above (h : Layout schema p m n cells) {j : Nat} (hi : i < n) (hj : j < n)
    (hne : j ≠ i) (hc : cells i = some c) (hd : cells j = some d) :
    d.offset + d.size ≤ c.offset ∨ c.offset + c.size ≤ d.offset :=
  (h.apart i j c d hi hj (Ne.symm hne) hc hd).symm

/-! ## Pages that differ in a few places -/

/-- A tuple of the old page that was not touched. -/
theorem Stands.congr (h : Stands schema m i c)
    (hslot : ∀ j, 24 + 8 * i ≤ j → j < 32 + 8 * i → m' j = m j)
    (hptr : getFreeSpacePointer m' ≤ c.offset)
    (hbytes : ∀ j, c.offset ≤ j → j < c.offset + c.size → m' j = m j) : Stands schema m' i c where
  typed := h.typed
  slot_offset := (slot_congr hslot).1.trans h.slot_offset
  slot_size := (slot_congr hslot).2.trans h.slot_size
  above := hptr
  below := h.below
  bytes := Mem.holds_congr h.bytes hbytes

/-! ## Insertion -/

/-- The slot the search stops at: the first empty one, or the count. -/
theorem findSlot_cases (m : Mem) (k i : Nat) :
    ∃ r, findSlot m k i = i + r ∧ r ≤ k ∧ (∀ j, i ≤ j → j < i + r → getTupleSize m j ≠ 0) ∧
      (r < k → getTupleSize m (i + r) = 0) := by
  induction k generalizing i with
  | zero =>
      exact ⟨0, rfl, le_refl _, fun j h1 h2 => by omega, fun h => by omega⟩
  | succ k ih =>
      rw [findSlot]
      split
      · rename_i hzero
        exact ⟨0, rfl, Nat.zero_le _, fun j h1 h2 => by omega, fun _ => hzero⟩
      · rename_i hne
        rcases ih (i + 1) with ⟨r, hr, hle, hbefore, hat⟩
        refine ⟨r + 1, by omega, by omega, fun j h1 h2 => ?_, fun hlt => ?_⟩
        · by_cases hj : j = i
          · exact hj ▸ hne
          · exact hbefore j (by omega) (by omega)
        · rw [← Nat.add_assoc, Nat.add_right_comm]
          exact hat (by omega)

/-- Where the next row goes. -/
structure NextSlot (n : Nat) (cells : Nat → Option Cell) (i : Nat) : Prop where
  le : i ≤ n
  filled : ∀ j, j < i → cells j ≠ none
  empty : i < n → cells i = none

theorem Layout.nextSlot (h : Layout schema p m n cells) :
    NextSlot n cells (findSlot m (getTupleCount m) 0) := by
  rcases findSlot_cases m (getTupleCount m) 0 with ⟨r, hr, hle, hbefore, hat⟩
  rw [h.count] at hle hat hr ⊢
  rw [hr, Nat.zero_add]
  refine ⟨hle, fun j hj hnone => ?_, fun hlt => ?_⟩
  · exact hbefore j (Nat.zero_le _) (by omega) (h.empty j (by omega) hnone).2
  · cases hc : cells r with
    | none => rfl
    | some c =>
        have hzero := hat hlt
        rw [Nat.zero_add] at hzero
        exact absurd hzero (h.filled r c hlt hc).sizeWord_pos

theorem Layout.insert (h : Layout schema p m n cells) {row : Row} (hrow : row.HasSchema schema)
    (hroom : row.encode.length + SIZE_TUPLE ≤ getFreeSpaceRemaining m) (hi : NextSlot n cells i) :
    Layout schema p (insertedAt m row (getFreeSpacePointer m - row.encode.length) i n)
      (max n (i + 1)) (Function.update cells i
        (some ⟨⟨row, false⟩, getFreeSpacePointer m - row.encode.length⟩)) := by
  have hrem := h.remaining
  have hlow := h.low
  have hhigh := h.high
  have hle := hi.le
  simp only [PAGE_SIZE, SIZE_TABLE_PAGE_HEADER, SIZE_TUPLE] at hrem hlow hhigh hroom
  set fsp := getFreeSpacePointer m with hfsp
  set a := fsp - row.encode.length with ha
  have halo : 32 + 8 * i ≤ a := by omega
  have hend : a + row.encode.length ≤ PAGE_SIZE := by
    simp only [PAGE_SIZE]
    omega
  have hframe : ∀ j, (j < 16 ∨ (24 ≤ j ∧ j < 24 + 8 * i) ∨ (32 + 8 * i ≤ j ∧ j < a) ∨
      a + row.encode.length ≤ j) → insertedAt m row a i n j = m j :=
    fun j hj => insertedAt_frame halo hj
  rcases insertedAt_words h.count hle halo hend with
    ⟨hcount, hptr, hoff, hsize, hbytes⟩
  set m' := insertedAt m row a i n with hm'
  have hcell : ∀ j, j < max n (i + 1) → j ≠ i → j < n ∧ Function.update cells i
      (some ⟨⟨row, false⟩, a⟩) j = cells j :=
    fun j hj hne => ⟨by omega, Function.update_of_ne hne _ _⟩
  -- The new tuple stands right below the old ones.
  have hnew : Stands schema m' i ⟨⟨row, false⟩, a⟩ :=
    ⟨hrow, hoff, hsize, le_of_eq hptr, hend, hbytes⟩
  have hold : ∀ j d, j < n → j ≠ i → cells j = some d → Stands schema m' j d := by
    intro j d hj hne hd
    have hstands := h.filled j d hj hd
    have habove := hstands.above
    refine hstands.congr (fun b h1 h2 => hframe b (by omega)) (by omega) ?_
    exact fun b h1 _ => hframe b (by omega)
  refine ⟨?_, hcount, ?_, ?_, ?_, ?_, ?_⟩
  · rw [← h.pageId]
    exact pageId_congr fun j hj => hframe j (by omega)
  · rw [hptr]
    simp only [SIZE_TABLE_PAGE_HEADER, SIZE_TUPLE]
    omega
  · rw [hptr]
    omega
  · intro j hj hnone
    by_cases hne : j = i
    · rw [hne, Function.update_self] at hnone
      simp at hnone
    · rcases hcell j hj hne with ⟨hjn, hsame⟩
      have hslot : getTupleOffsetAtSlot m' j = getTupleOffsetAtSlot m j ∧
          getTupleSize m' j = getTupleSize m j :=
        slot_congr fun b h1 h2 => hframe b (by omega)
      rw [hslot.1, hslot.2]
      exact h.empty j hjn (hsame ▸ hnone)
  · intro j d hj hd
    by_cases hne : j = i
    · subst hne
      rw [Function.update_self] at hd
      exact Option.some.inj hd ▸ hnew
    · rcases hcell j hj hne with ⟨hjn, hsame⟩
      exact hold j d hjn hne (hsame ▸ hd)
  · -- The old tuples start at the old pointer or above, where the new one ends.
    have habove : ∀ j d, j < max n (i + 1) → j ≠ i →
        Function.update cells i (some ⟨⟨row, false⟩, a⟩) j = some d →
        a + row.encode.length ≤ d.offset := by
      intro j d hj hne hd
      rcases hcell j hj hne with ⟨hjn, hsame⟩
      have := (h.filled j d hjn (hsame ▸ hd)).above
      omega
    intro j k c d hj hk hne hc hd
    by_cases hji : j = i
    · subst hji
      rw [Function.update_self] at hc
      rw [← Option.some.inj hc]
      exact Or.inl (habove k d hk (Ne.symm hne) hd)
    · by_cases hki : k = i
      · subst hki
        rw [Function.update_self] at hd
        rw [← Option.some.inj hd]
        exact Or.inr (habove j c hj hji hc)
      · rcases hcell j hj hji with ⟨hjn, hjsame⟩
        rcases hcell k hk hki with ⟨hkn, hksame⟩
        exact h.apart j k c d hjn hkn hne (hjsame ▸ hc) (hksame ▸ hd)

theorem NextSlot.unique {j : Nat} (hi : NextSlot n cells i) (hj : NextSlot n cells j) : i = j := by
  rcases lt_trichotomy i j with hlt | heq | hgt
  · have hle := hj.le
    exact absurd (hi.empty (by omega)) (hj.filled i hlt)
  · exact heq
  · have hle := hi.le
    exact absurd (hj.empty (by omega)) (hi.filled j hgt)

theorem Layout.insertTuple_eq (h : Layout schema p m n cells) {row : Row}
    (hrow : row.HasSchema schema)
    (hroom : row.encode.length + SIZE_TUPLE ≤ getFreeSpaceRemaining m) (hi : NextSlot n cells i) :
    insertTuple m row schema =
      .ok (true, { row with rid := ⟨p, UInt32.ofNat i⟩ },
        insertedAt m row (getFreeSpacePointer m - row.encode.length) i n) := by
  have hfind : findSlot m n 0 = i := by
    rw [← h.count]
    exact h.nextSlot.unique hi
  rw [← h.pageId]
  exact insertTuple_of_room hrow.count h.count h.low h.high h.remaining hroom hfind hi.le

/-! ## Marks -/

/-- Rewriting the size word of a filled slot with another mark. -/
theorem Layout.setMark (h : Layout schema p m n cells) (hk : k < n) (hc : cells k = some c)
    (b : Bool) :
    Layout schema p (setTupleSize m k (c.mark b).entry.sizeWord) n
      (Function.update cells k (some (c.mark b))) := by
  have hstands := h.filled k c hk hc
  have hlow := h.low
  have hhigh := h.high
  rcases hstands.size_bounds with ⟨_, hlt⟩
  have hsize : (c.mark b).size = c.size := rfl
  have hword : (c.mark b).entry.sizeWord < 2 ^ 32 := by
    have hentry : (c.mark b).entry.size = c.size := rfl
    rw [Entry.sizeWord, hentry]
    split
    · simp only [DELETE_MASK]
      omega
    · omega
  have hframe := fun j => setTupleSize_frame m k (c.mark b).entry.sizeWord (j := j)
  have hoff := setTupleSize_offset m k (c.mark b).entry.sizeWord
  have hptr := setTupleSize_pointer m k (c.mark b).entry.sizeWord
  set m' := setTupleSize m k (c.mark b).entry.sizeWord with hm'
  simp only [PAGE_SIZE, SIZE_TABLE_PAGE_HEADER, SIZE_TUPLE] at hlow hhigh
  refine ⟨?_, ?_, ?_, ?_, ?_, ?_, ?_⟩
  · rw [hm', setTupleSize_pageId, h.pageId]
  · rw [hm', setTupleSize_count, h.count]
  · rw [hptr]
    exact h.low
  · rw [hptr]
    exact h.high
  · intro j hj hnone
    by_cases hjk : j = k
    · rw [hjk, Function.update_self] at hnone
      simp at hnone
    · rw [Function.update_of_ne hjk] at hnone
      rw [hoff, hm', setTupleSize_size_ne m _ hjk]
      exact h.empty j hj hnone
  · intro j d hj hd
    by_cases hjk : j = k
    · subst hjk
      rw [Function.update_self] at hd
      obtain rfl := Option.some.inj hd
      have habove := hstands.above
      refine ⟨hstands.typed, (hoff j).trans hstands.slot_offset, Mem.u32_setU32_of_lt hword, ?_,
        hstands.below, ?_⟩
      · rw [hptr]
        exact habove
      · refine Mem.holds_congr hstands.bytes fun b h1 _ => hframe b ?_
        have hoffset : c.offset ≤ b := h1
        omega
    · rw [Function.update_of_ne hjk] at hd
      have hother := h.filled j d hj hd
      have habove := hother.above
      refine hother.congr (fun b h1 h2 => hframe b (by omega)) (by rw [hptr]; exact habove) ?_
      exact fun b h1 _ => hframe b (by omega)
  · -- The cells are where they were.
    have hplace : ∀ j d, Function.update cells k (some (c.mark b)) j = some d →
        ∃ d', cells j = some d' ∧ d'.offset = d.offset ∧ d'.size = d.size := by
      intro j d hd
      by_cases hjk : j = k
      · subst hjk
        rw [Function.update_self] at hd
        exact ⟨c, hc, by rw [← Option.some.inj hd]; exact ⟨rfl, rfl⟩⟩
      · rw [Function.update_of_ne hjk] at hd
        exact ⟨d, hd, rfl, rfl⟩
    intro i j x y hi hj hne hx hy
    rcases hplace i x hx with ⟨x', hx', hox, hsx⟩
    rcases hplace j y hy with ⟨y', hy', hoy, hsy⟩
    rw [← hox, ← hsx, ← hoy, ← hsy]
    exact h.apart i j x' y' hi hj hne hx' hy'

/-! ## Sliding

Both `UpdateTuple` and `ApplyDelete` take the tuple of one slot out and move everything below it
by the difference of the sizes. -/

/-- The cells after the tuple of slot `k`, at address `a` with `old` bytes, made place for `new`
bytes, which `cell` holds. -/
def slid (cells : Nat → Option Cell) (k a old new : Nat) (cell : Option Cell) (j : Nat) :
    Option Cell :=
  if j = k then cell else (cells j).map (Cell.moved a old new)

section Slide

variable {n' new : Nat} {cell : Option Cell}
variable (h : Layout schema p m n cells) (hk : k < n) (hc : cells k = some c)
variable (hlow : 24 + 8 * n + new ≤ getFreeSpacePointer m + c.size)

include h hk hc hlow

/-- Where the other tuples are after the slide. -/
theorem Layout.moved_bounds {j : Nat} (hj : j < n) (hne : j ≠ k) (hd : cells j = some d) :
    getFreeSpacePointer m + c.size - new ≤ (d.moved c.offset c.size new).offset ∧
      (d.moved c.offset c.size new).offset + d.size ≤ PAGE_SIZE ∧
      ((d.moved c.offset c.size new).offset + d.size ≤ c.offset + c.size - new ∨
        c.offset + c.size ≤ (d.moved c.offset c.size new).offset) := by
  have hcs := h.filled k c hk hc
  have hds := h.filled j d hj hd
  have hca := hcs.above
  have hcb := hcs.below
  have hda := hds.above
  have hdb := hds.below
  rcases hds.size_bounds with ⟨hpos, _⟩
  rcases h.below_or_above hk hj hne hc hd with hbelow | habove
  · have hlt : d.offset < c.offset := by omega
    rw [Cell.moved_offset, if_pos hlt]
    omega
  · have hge : ¬d.offset < c.offset := by
      rcases hcs.size_bounds with ⟨hcpos, _⟩
      omega
    rw [Cell.moved_offset, if_neg hge]
    omega

theorem Layout.moved_apart {i j : Nat} (hi : i < n) (hj : j < n) (hik : i ≠ k) (hjk : j ≠ k)
    (hne : i ≠ j) {x y : Cell} (hx : cells i = some x) (hy : cells j = some y) :
    (x.moved c.offset c.size new).offset + x.size ≤ (y.moved c.offset c.size new).offset ∨
      (y.moved c.offset c.size new).offset + y.size ≤ (x.moved c.offset c.size new).offset := by
  have hxs := h.filled i x hi hx
  have hys := h.filled j y hj hy
  have hcs := h.filled k c hk hc
  have hxa := hxs.above
  have hya := hys.above
  rcases hxs.size_bounds with ⟨hxpos, _⟩
  rcases hys.size_bounds with ⟨hypos, _⟩
  rcases hcs.size_bounds with ⟨hcpos, _⟩
  have hxy := h.apart i j x y hi hj hne hx hy
  have hxc := h.below_or_above hk hi hik hc hx
  have hyc := h.below_or_above hk hj hjk hc hy
  rw [Cell.moved_offset, Cell.moved_offset]
  split <;> split <;> omega

/-- The layout of the page after a slide, from what its words and bytes are. -/
theorem Layout.slide (hn' : n' ≤ n) (hid : getTablePageId m' = p)
    (hcount : getTupleCount m' = n')
    (hptr : getFreeSpacePointer m' = getFreeSpacePointer m + c.size - new)
    (hempty : ∀ j, j < n' → j ≠ k → cells j = none →
      getTupleOffsetAtSlot m' j = 0 ∧ getTupleSize m' j = 0)
    (hfilled : ∀ j d, j < n' → j ≠ k → cells j = some d →
      getTupleOffsetAtSlot m' j = (d.moved c.offset c.size new).offset ∧
      getTupleSize m' j = getTupleSize m j ∧
      Mem.Holds m' (d.moved c.offset c.size new).offset d.entry.row.encode)
    (hnone : k < n' → cell = none → getTupleOffsetAtSlot m' k = 0 ∧ getTupleSize m' k = 0)
    (hsome : ∀ c', cell = some c' → Stands schema m' k c' ∧
      c'.offset = c.offset + c.size - new ∧ c'.size = new) :
    Layout schema p m' n' (slid cells k c.offset c.size new cell) := by
  have hcs := h.filled k c hk hc
  have hca := hcs.above
  have hcb := hcs.below
  have hother : ∀ j d, j ≠ k → slid cells k c.offset c.size new cell j = some d →
      ∃ d₀, cells j = some d₀ ∧ d = d₀.moved c.offset c.size new := by
    intro j d hjk hd
    rw [slid, if_neg hjk, Option.map_eq_some_iff] at hd
    rcases hd with ⟨d₀, hd₀, rfl⟩
    exact ⟨d₀, hd₀, rfl⟩
  refine ⟨hid, hcount, ?_, ?_, ?_, ?_, ?_⟩
  · rw [hptr]
    simp only [SIZE_TABLE_PAGE_HEADER, SIZE_TUPLE]
    omega
  · rw [hptr]
    omega
  · intro j hj hn
    by_cases hjk : j = k
    · subst hjk
      rw [slid, if_pos rfl] at hn
      exact hnone hj hn
    · rw [slid, if_neg hjk, Option.map_eq_none_iff] at hn
      exact hempty j hj hjk hn
  · intro j d hj hd
    by_cases hjk : j = k
    · subst hjk
      rw [slid, if_pos rfl] at hd
      exact (hsome d hd).1
    · rcases hother j d hjk hd with ⟨d₀, hd₀, rfl⟩
      have hds := h.filled j d₀ (by omega) hd₀
      rcases hfilled j d₀ hj hjk hd₀ with ⟨hoff, hword, hbytes⟩
      rcases h.moved_bounds hk hc hlow (by omega) hjk hd₀ with ⟨hlo, hhi, _⟩
      refine ⟨?_, hoff, ?_, ?_, ?_, ?_⟩
      · rw [Cell.moved_entry]
        exact hds.typed
      · rw [hword, Cell.moved_entry]
        exact hds.slot_size
      · rw [hptr]
        exact hlo
      · rw [Cell.moved_size]
        exact hhi
      · rw [Cell.moved_entry]
        exact hbytes
  · -- Against the new cell, which takes the upper end of the old one's place.
    have hagainst : ∀ j d c', j < n' → j ≠ k → slid cells k c.offset c.size new cell j = some d →
        cell = some c' →
        c'.offset + c'.size ≤ d.offset ∨ d.offset + d.size ≤ c'.offset := by
      intro j d c' hj hjk hd hc'
      rcases hother j d hjk hd with ⟨d₀, hd₀, rfl⟩
      rcases hsome c' hc' with ⟨_, hoff', hsize'⟩
      rcases h.moved_bounds hk hc hlow (by omega) hjk hd₀ with ⟨_, _, hside⟩
      rw [Cell.moved_size]
      omega
    intro i j x y hi hj hne hx hy
    by_cases hik : i = k
    · subst hik
      have hcell : cell = some x := by simpa [slid] using hx
      exact hagainst j y x hj (Ne.symm hne) hy hcell
    · by_cases hjk : j = k
      · subst hjk
        have hcell : cell = some y := by simpa [slid] using hy
        exact (hagainst i x y hi hik hx hcell).symm
      · rcases hother i x hik hx with ⟨x₀, hx₀, rfl⟩
        rcases hother j y hjk hy with ⟨y₀, hy₀, rfl⟩
        rw [Cell.moved_size, Cell.moved_size]
        exact h.moved_apart hk hc hlow (by omega) (by omega) hik hjk hne hx₀ hy₀

end Slide

/-! ## Update -/

/-- The loop over the offsets passes over an empty slot. -/
theorem updated_offset_of_empty {row : Row} {fsp a ts j : Nat}
    (hlow : 24 + 8 * n + row.encode.length ≤ fsp + ts) (ha : fsp ≤ a) (hk : k < n) (hj : j < n)
    (hne : j ≠ k) (hsize : getTupleSize m j = 0) :
    getTupleOffsetAtSlot (updated m row fsp a ts k n) j = getTupleOffsetAtSlot m j := by
  rcases moveOffsets_spec (a + ts) ts row.encode.length n 0 (replaced m row fsp a ts k) with
    ⟨_, _, hoffs⟩
  have hslot : getTupleOffsetAtSlot (replaced m row fsp a ts k) j = getTupleOffsetAtSlot m j ∧
      getTupleSize (replaced m row fsp a ts k) j = getTupleSize m j :=
    slot_congr fun b h1 h2 => replaced_frame hlow ha (by omega) hk
  have hzero : ¬getTupleSize (replaced m row fsp a ts k) j > 0 := by
    rw [hslot.2, hsize]
    exact lt_irrefl 0
  rw [updated, hoffs j, if_neg fun hcond => hzero hcond.2.2.1, hslot.1]

theorem Layout.update (h : Layout schema p m n cells) {row : Row} (hrow : row.HasSchema schema)
    (hk : k < n) (hc : cells k = some c)
    (hroom : row.encode.length ≤ getFreeSpaceRemaining m + c.size) :
    Layout schema p (updated m row (getFreeSpacePointer m) c.offset c.size k n) n
      (slid cells k c.offset c.size row.encode.length
        (some ⟨⟨row, false⟩, c.offset + c.size - row.encode.length⟩)) := by
  have hrem := h.remaining
  have hcs := h.filled k c hk hc
  have hlo := hcs.above
  have hhi := hcs.below
  have hlow : 24 + 8 * n + row.encode.length ≤ getFreeSpacePointer m + c.size := by
    have := h.low
    simp only [SIZE_TABLE_PAGE_HEADER, SIZE_TUPLE] at this
    omega
  set fsp := getFreeSpacePointer m with hfsp
  have hframe : ∀ j, (j < 16 ∨ (20 ≤ j ∧ j < 24) ∨ c.offset + c.size ≤ j) →
      updated m row fsp c.offset c.size k n j = m j :=
    fun j hj => updated_frame hlow hlo hk hj
  rcases updated_words (m := m) hlow hlo hk hhi with ⟨hptr, hsizek, hnew⟩
  have hoffset := fun {j : Nat} (hj : j < n) (hsize : getTupleSize m j ≠ 0)
    (hab : fsp ≤ getTupleOffsetAtSlot m j) => updated_offset hlow hlo hk hhi hj hsize hab
  refine h.slide hk hc hlow (le_refl n) ?_ ?_ hptr ?_ ?_ ?_ ?_
  · rw [← h.pageId]
    exact pageId_congr fun j hj => hframe j (by omega)
  · refine Eq.trans ?_ h.count
    exact Mem.u32_congr fun j h1 h2 => hframe j (by omega)
  · intro j hj hne hnone
    rcases h.empty j hj hnone with ⟨hoff, hsize⟩
    rw [updated_offset_of_empty hlow hlo hk hj hne hsize, updated_size hlow hlo hk hj hne]
    exact ⟨hoff, hsize⟩
  · intro j d hj hne hd
    have hds := h.filled j d hj hd
    have hda := hds.above
    have hword := hds.slot_offset
    rcases hds.size_bounds with ⟨hdpos, _⟩
    rw [hoffset hj hds.sizeWord_pos (by rw [hword]; exact hda), hword, Cell.moved_offset]
    refine ⟨?_, updated_size hlow hlo hk hj hne, ?_⟩
    · -- Nothing starts inside the tuple that is replaced, so both limits select the same slots.
      rcases h.below_or_above hk hj hne hc hd with hbelow | habove
      · rw [if_pos (by omega), if_pos (by omega)]
      · rw [if_neg (by omega), if_neg (by omega)]
    · rcases h.below_or_above hk hj hne hc hd with hbelow | habove
      · rw [if_pos (by omega)]
        exact updated_moved hlow hk hds.bytes hda hbelow
      · rw [if_neg (by omega)]
        exact Mem.holds_congr hds.bytes fun b h1 _ => hframe b (by omega)
  · intro _ hnone
    simp at hnone
  · intro c' hc'
    obtain rfl := Option.some.inj hc'
    rcases hcs.size_bounds with ⟨hcpos, _⟩
    refine ⟨⟨hrow, ?_, hsizek, ?_, ?_, hnew⟩, rfl, rfl⟩
    · rw [hoffset hk hcs.sizeWord_pos (by rw [hcs.slot_offset]; exact hlo), hcs.slot_offset,
        if_pos (by omega)]
    · rw [hptr]
      simp only
      omega
    · simp only [Cell.size, Entry.size] at *
      omega

/-! ## Deletion -/

/-- The page before the offsets are moved. -/
def removed (m : Mem) (fsp a ts k n : Nat) : Mem :=
  setTupleOffsetAtSlot
    (setTupleCount
      (setTupleSize (setFreeSpacePointer (m.memmove (fsp + ts) fsp (a - fsp)) (fsp + ts)) k 0)
      (n - 1)) k 0

/-- The page `ApplyDelete` leaves. -/
def deletedPage (m : Mem) (fsp a ts k n : Nat) : Mem :=
  moveOffsets a ts 0 (n - 1) 0 (removed m fsp a ts k n)

section Deleted

variable {fsp a ts : Nat} (hlow : 24 + 8 * n ≤ fsp) (ha : fsp ≤ a) (hk : k < n)

include hlow ha hk

theorem removed_frame {j : Nat}
    (hj : j < 16 ∨ (24 ≤ j ∧ j < 24 + 8 * n ∧ (j < 24 + 8 * k ∨ 32 + 8 * k ≤ j)) ∨ a + ts ≤ j) :
    removed m fsp a ts k n j = m j := by
  simp only [removed, setTupleOffsetAtSlot, setTupleCount, setTupleSize, setFreeSpacePointer,
    SIZE_TUPLE]
  rw [Mem.setU32_apply_outside (by omega), Mem.setU32_apply_outside (by omega),
    Mem.setU32_apply_outside (by omega), Mem.setU32_apply_outside (by omega),
    Mem.memmove_apply_outside (by omega)]

omit hlow ha in
theorem removed_words (hend : fsp + ts < 2 ^ 32) (hn : n < 2 ^ 32) :
    getFreeSpacePointer (removed m fsp a ts k n) = fsp + ts ∧
      getTupleCount (removed m fsp a ts k n) = n - 1 ∧
      getTupleOffsetAtSlot (removed m fsp a ts k n) k = 0 ∧
      getTupleSize (removed m fsp a ts k n) k = 0 := by
  simp only [getFreeSpacePointer, getTupleCount, getTupleOffsetAtSlot, getTupleSize, removed,
    setTupleOffsetAtSlot, setTupleCount, setTupleSize, setFreeSpacePointer, SIZE_TUPLE]
  refine ⟨?_, ?_, Mem.u32_setU32_of_lt (by omega), ?_⟩
  · rw [Mem.u32_setU32_ne (by omega), Mem.u32_setU32_ne (by omega), Mem.u32_setU32_ne (by omega),
      Mem.u32_setU32_of_lt hend]
  · rw [Mem.u32_setU32_ne (by omega), Mem.u32_setU32_of_lt (by omega)]
  · rw [Mem.u32_setU32_ne (by omega), Mem.u32_setU32_ne (by omega),
      Mem.u32_setU32_of_lt (by omega)]

omit ha in
/-- A tuple below the deleted one moves up by its size. -/
theorem removed_moved {b : Nat} {bs : List UInt8} (hb : Mem.Holds m b bs) (hlo : fsp ≤ b)
    (hhi : b + bs.length ≤ a) : Mem.Holds (removed m fsp a ts k n) (b + ts) bs := by
  have haddr : fsp + ts + (b - fsp) = b + ts := by omega
  have hmoved : Mem.Holds (m.memmove (fsp + ts) fsp (a - fsp)) (fsp + ts + (b - fsp)) bs :=
    Mem.holds_memmove hb hlo (by omega)
  rw [haddr] at hmoved
  simp only [removed, setTupleOffsetAtSlot, setTupleCount, setTupleSize, setFreeSpacePointer,
    SIZE_TUPLE]
  refine Mem.holds_setU32_outside (Mem.holds_setU32_outside (Mem.holds_setU32_outside
    (Mem.holds_setU32_outside hmoved ?_) ?_) ?_) ?_
  · omega
  · omega
  · omega
  · omega

/-- The loop of `ApplyDelete` changes the offset words of the slots below the new count only. -/
theorem deletedPage_frame {j : Nat} (hj : j < 16 ∨ a + ts ≤ j) :
    deletedPage m fsp a ts k n j = m j := by
  rcases moveOffsets_spec a ts 0 (n - 1) 0 (removed m fsp a ts k n) with ⟨hbytes, _, _⟩
  rw [deletedPage, hbytes j (by omega), removed_frame hlow ha hk (by omega)]

omit hlow ha in
theorem deletedPage_words (hend : fsp + ts < 2 ^ 32) (hn : n < 2 ^ 32) :
    getFreeSpacePointer (deletedPage m fsp a ts k n) = fsp + ts ∧
      getTupleCount (deletedPage m fsp a ts k n) = n - 1 ∧
      getTupleOffsetAtSlot (deletedPage m fsp a ts k n) k = 0 ∧
      getTupleSize (deletedPage m fsp a ts k n) k = 0 := by
  rcases moveOffsets_spec a ts 0 (n - 1) 0 (removed m fsp a ts k n) with ⟨hbytes, hsizes, hoffs⟩
  rcases removed_words (m := m) (a := a) hk hend hn with ⟨hptr, hcount, hoff, hsize⟩
  refine ⟨?_, ?_, ?_, ?_⟩
  · refine Eq.trans ?_ hptr
    exact Mem.u32_congr fun j _ h2 => hbytes j (by omega)
  · refine Eq.trans ?_ hcount
    exact Mem.u32_congr fun j _ h2 => hbytes j (by omega)
  · -- The emptied slot has size zero, so the loop passes over it.
    have hzero : ¬getTupleSize (removed m fsp a ts k n) k > 0 := by
      rw [hsize]
      exact lt_irrefl 0
    rw [deletedPage, hoffs k, if_neg fun hcond => hzero hcond.2.2.1, hoff]
  · rw [deletedPage, hsizes k, hsize]

omit ha in
theorem deletedPage_moved {b : Nat} {bs : List UInt8} (hb : Mem.Holds m b bs) (hlo : fsp ≤ b)
    (hhi : b + bs.length ≤ a) : Mem.Holds (deletedPage m fsp a ts k n) (b + ts) bs := by
  rcases moveOffsets_spec a ts 0 (n - 1) 0 (removed m fsp a ts k n) with ⟨hbytes, _, _⟩
  exact Mem.holds_congr (removed_moved hlow hk hb hlo hhi) fun j h1 _ => hbytes j (by omega)

/-- The words of the other slots below the new count. -/
theorem deletedPage_slot {j : Nat} (hj : j < n - 1) (hne : j ≠ k)
    (hbound : getTupleOffsetAtSlot m j + ts < 2 ^ 32) :
    getTupleSize (deletedPage m fsp a ts k n) j = getTupleSize m j ∧
      getTupleOffsetAtSlot (deletedPage m fsp a ts k n) j =
        if getTupleSize m j > 0 ∧ getTupleOffsetAtSlot m j < a then
          getTupleOffsetAtSlot m j + ts
        else getTupleOffsetAtSlot m j := by
  rcases moveOffsets_spec a ts 0 (n - 1) 0 (removed m fsp a ts k n) with ⟨_, hsizes, hoffs⟩
  have hslot : getTupleOffsetAtSlot (removed m fsp a ts k n) j = getTupleOffsetAtSlot m j ∧
      getTupleSize (removed m fsp a ts k n) j = getTupleSize m j :=
    slot_congr fun b h1 h2 => removed_frame hlow ha hk (by omega)
  rw [deletedPage, hsizes j, hoffs j, hslot.1, hslot.2]
  refine ⟨rfl, ?_⟩
  have hrange : 0 ≤ j ∧ j < 0 + (n - 1) := ⟨Nat.zero_le _, by omega⟩
  simp only [hrange, true_and]
  split
  · unfold wrap32
    omega
  · rfl

end Deleted

/-- `ApplyDelete` on a slot whose tuple stands between the free space pointer and the end of the
page. -/
theorem applyDelete_of_filled {rid : RowId} {a ts : Nat} (hcount : getTupleCount m = n)
    (hlow : 24 + 8 * n ≤ getFreeSpacePointer m) (hk : rid.slotNum.toNat < n)
    (hoff : getTupleOffsetAtSlot m rid.slotNum.toNat = a)
    (hsize : (if isDeleted (getTupleSize m rid.slotNum.toNat) then
      unsetDeletedFlag (getTupleSize m rid.slotNum.toNat)
      else getTupleSize m rid.slotNum.toNat) = ts)
    (hlo : getFreeSpacePointer m ≤ a) (hhi : a + ts ≤ PAGE_SIZE) :
    applyDelete m rid =
      .ok (deletedPage m (getFreeSpacePointer m) a ts rid.slotNum.toNat n) := by
  simp only [PAGE_SIZE] at hhi
  set fsp := getFreeSpacePointer m with hfsp
  have hge : decide (a ≥ fsp) = true := decide_eq_true hlo
  have hsum : (fsp + ts) % 2 ^ 32 = fsp + ts := Nat.mod_eq_of_lt (by omega)
  -- The count is read again after the memory has moved.
  have hcount' : getTupleCount (setTupleSize (setFreeSpacePointer
      (m.memmove (fsp + ts) fsp (a - fsp)) (fsp + ts)) rid.slotNum.toNat 0) = n := by
    rw [← hcount]
    refine Mem.u32_congr fun j h1 h2 => ?_
    simp only [setTupleSize, setFreeSpacePointer, SIZE_TUPLE]
    rw [Mem.setU32_apply_outside (by omega), Mem.setU32_apply_outside (by omega),
      Mem.memmove_apply_outside (by omega)]
  have hwrap : wrap32 (n - 1) = n - 1 := by
    unfold wrap32
    omega
  rcases removed_words (m := m) (a := a) hk (show fsp + ts < 2 ^ 32 by omega) (by omega) with
    ⟨_, hcount'', _, _⟩
  simp only [removed] at hcount''
  simp only [applyDelete, hcount, hk, decide_true, assert_true, ok_bind, hoff, hsize, ← hfsp, hge,
    hsum, hcount', hwrap, hcount'', deletedPage, removed]

/-- The layout after `ApplyDelete` on the filled slot `k`: slot `k` is empty, the tuples below it
have moved up, and the slot with the highest number is off the count. -/
theorem Layout.delete (h : Layout schema p m n cells) (hk : k < n) (hc : cells k = some c) :
    Layout schema p (deletedPage m (getFreeSpacePointer m) c.offset c.size k n) (n - 1)
      (slid cells k c.offset c.size 0 none) := by
  have hcs := h.filled k c hk hc
  have hlo := hcs.above
  have hhi := hcs.below
  have hlow := h.low
  simp only [PAGE_SIZE, SIZE_TABLE_PAGE_HEADER, SIZE_TUPLE] at hlow hhi
  set fsp := getFreeSpacePointer m with hfsp
  have hframe : ∀ j, (j < 16 ∨ c.offset + c.size ≤ j) →
      deletedPage m fsp c.offset c.size k n j = m j :=
    fun j hj => deletedPage_frame hlow hlo hk hj
  have hslot : ∀ j, j < n - 1 → j ≠ k → getTupleOffsetAtSlot m j + c.size < 2 ^ 32 →
      getTupleSize (deletedPage m fsp c.offset c.size k n) j = getTupleSize m j ∧
        getTupleOffsetAtSlot (deletedPage m fsp c.offset c.size k n) j =
          if getTupleSize m j > 0 ∧ getTupleOffsetAtSlot m j < c.offset then
            getTupleOffsetAtSlot m j + c.size
          else getTupleOffsetAtSlot m j :=
    fun j hj hne hbound => deletedPage_slot hlow hlo hk hj hne hbound
  have hend : fsp + c.size < 2 ^ 32 := by omega
  rcases deletedPage_words (m := m) (a := c.offset) hk hend (by omega)
    with ⟨hptr, hcount, hoffk, hsizek⟩
  refine h.slide hk hc (by omega) (Nat.sub_le n 1) ?_ hcount hptr ?_ ?_ ?_ ?_
  · rw [← h.pageId]
    exact pageId_congr fun j hj => hframe j (by omega)
  · intro j hj hne hnone
    rcases h.empty j (by omega) hnone with ⟨hoff, hsize⟩
    rcases hslot j hj hne (by omega) with ⟨hsize', hoff'⟩
    rw [hsize', hoff', hsize, hoff]
    simp
  · intro j d hj hne hd
    have hds := h.filled j d (by omega) hd
    have hda := hds.above
    have hdb := hds.below
    have hpos := hds.sizeWord_pos
    simp only [PAGE_SIZE] at hdb
    rcases hds.size_bounds with ⟨hdpos, _⟩
    have hword := hds.slot_offset
    rcases hslot j hj hne (by omega) with ⟨hsize', hoff'⟩
    rw [hsize', hoff', hword, Cell.moved_offset]
    have hpos' : getTupleSize m j > 0 := by omega
    refine ⟨?_, rfl, ?_⟩
    · simp only [hpos', true_and]
      rfl
    · -- The bytes below the deleted tuple moved up, those above it stayed.
      rcases h.below_or_above hk (by omega) hne hc hd with hbelow | habove
      · rw [if_pos (by omega)]
        exact deletedPage_moved hlow hk hds.bytes hda hbelow
      · rw [if_neg (by omega)]
        exact Mem.holds_congr hds.bytes fun b h1 _ => hframe b (by omega)
  · exact fun _ _ => ⟨hoffk, hsizek⟩
  · intro c' hc'
    simp at hc'

end TablePage
end MiniSQL
