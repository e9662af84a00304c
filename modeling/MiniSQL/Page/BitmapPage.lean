import Mathlib.Data.Finset.Card
import Mathlib.Data.Finset.Range
import Mathlib.Data.Nat.Bitwise
import MiniSQL.Common.Config

/-!
# BitmapPage — the free-page bitmap of an extent

`page/bitmap_page.h` and `page/bitmap_page.cpp`.  A `BitmapPage<PageSize>` is a view of
`PageSize` bytes: two counters followed by `PageSize - 8` bytes of bits.  The abstract content is
the set `bits` of the offsets whose bit is set; `Inv` says how the counters and the
`next_free_page_` hint follow it, and `refines_set` that every sequence of calls on a zeroed page
behaves as that set.
-/

namespace MiniSQL
namespace BitmapPage

open Lib

/-! ## The model -/

/-- Bytes that hold bits: the page less its two counters. -/
def MAX_CHARS (pageSize : Nat) : Nat :=
  pageSize - 2 * 4

/-- The number of pages that the bitmap can record, i.e. the capacity of an extent. -/
def getMaxSupportedSize (pageSize : Nat) : Nat :=
  8 * MAX_CHARS pageSize

def pageAllocated (m : Mem) : Nat :=
  m.u32 0

def nextFreePage (m : Mem) : Nat :=
  m.u32 4

/-- `bytes[i]`. -/
def bytes (m : Mem) (i : Nat) : UInt8 :=
  m (8 + i)

def setByte (m : Mem) (i : Nat) (b : UInt8) : Mem :=
  m.store (8 + i) [b]

def isPageFreeLow (m : Mem) (byteIndex bitIndex : Nat) : Bool :=
  ((bytes m byteIndex).toNat >>> bitIndex) &&& 1 == 0

def isPageFree (m : Mem) (pageOffset : Nat) : Bool :=
  isPageFreeLow m (pageOffset / 8) (pageOffset % 8)

/-- The search loop of `AllocatePage`: the first free offset among `i, …, i + k - 1`. -/
def findFree (m : Mem) : Nat → Nat → Option Nat
  | 0, _ => none
  | k + 1, i => if isPageFree m i then some i else findFree m k (i + 1)

/-- `AllocatePage(page_offset)`: the returned flag, the offset reported and the page after. -/
def allocatePage (pageSize : Nat) (m : Mem) : Bool × Nat × Mem :=
  let pageOffset := nextFreePage m
  if isPageFree m pageOffset then
    let m₁ := setByte m (pageOffset / 8)
      (bytes m (pageOffset / 8) ||| UInt8.ofNat (1 <<< (pageOffset % 8)))
    let m₂ := m₁.setU32 0 (pageAllocated m₁ + 1)
    -- The loop runs only while the extent is not full, so a full page keeps its old hint.
    if pageAllocated m₂ < MAX_CHARS pageSize * 8 then
      match findFree m₂ (MAX_CHARS pageSize * 8) 0 with
      | some i => (true, pageOffset, m₂.setU32 4 i)
      | none => (true, pageOffset, m₂)
    else
      (true, pageOffset, m₂)
  else
    (false, pageOffset, m)

/-- `DeAllocatePage(page_offset)`: the bit is cleared by a subtraction. -/
def deAllocatePage (m : Mem) (pageOffset : Nat) : Bool × Mem :=
  if isPageFree m pageOffset then
    (false, m)
  else
    let m₁ := setByte m (pageOffset / 8)
      (bytes m (pageOffset / 8) - UInt8.ofNat (1 <<< (pageOffset % 8)))
    let m₂ := m₁.setU32 0 (pageAllocated m₁ + (2 ^ 32 - 1))
    (true, m₂.setU32 4 pageOffset)

/-! ## Bits of a byte -/

theorem isPageFreeLow_eq (m : Mem) (i k : Nat) :
    isPageFreeLow m i k = !(bytes m i).toNat.testBit k := by
  simp only [isPageFreeLow, Nat.testBit, Nat.and_comm 1]
  cases h : ((bytes m i).toNat >>> k) &&& 1 == 0 <;> simp_all

/-! ## What each write does to the fields -/

@[simp] theorem pageAllocated_setByte (m : Mem) (i : Nat) (b : UInt8) :
    pageAllocated (setByte m i b) = pageAllocated m :=
  Mem.u32_store_outside (Or.inl (by omega))

@[simp] theorem nextFreePage_setByte (m : Mem) (i : Nat) (b : UInt8) :
    nextFreePage (setByte m i b) = nextFreePage m :=
  Mem.u32_store_outside (Or.inl (by omega))

@[simp] theorem nextFreePage_setCount (m : Mem) (v : Nat) :
    nextFreePage (m.setU32 0 v) = nextFreePage m :=
  Mem.u32_setU32_ne (Or.inr (by omega))

@[simp] theorem pageAllocated_setHint (m : Mem) (v : Nat) :
    pageAllocated (m.setU32 4 v) = pageAllocated m :=
  Mem.u32_setU32_ne (Or.inl (by omega))

/-- Writing a counter changes no bit. -/
theorem isPageFree_setU32 {m : Mem} {a v : Nat} (ha : a + 4 ≤ 8) (o : Nat) :
    isPageFree (m.setU32 a v) o = isPageFree m o := by
  have hbyte : bytes (m.setU32 a v) (o / 8) = bytes m (o / 8) :=
    Mem.setU32_apply_outside (Or.inr (by omega))
  simp only [isPageFree, isPageFreeLow, hbyte]

theorem bytes_setByte_self (m : Mem) (i : Nat) (b : UInt8) : bytes (setByte m i b) i = b := by
  simp [bytes, setByte, Mem.store]

theorem bytes_setByte_ne {m : Mem} {i j : Nat} {b : UInt8} (h : i ≠ j) :
    bytes (setByte m i b) j = bytes m j := by
  refine Mem.store_apply_outside ?_
  simp only [List.length_singleton]
  omega

/-- The bits after one byte is replaced. -/
theorem isPageFree_setByte (m : Mem) (i : Nat) (b : UInt8) (o : Nat) :
    isPageFree (setByte m i b) o =
      if o / 8 = i then !b.toNat.testBit (o % 8) else isPageFree m o := by
  by_cases h : o / 8 = i
  · rw [if_pos h, isPageFree, isPageFreeLow_eq, h, bytes_setByte_self]
  · rw [if_neg h, isPageFree, isPageFree, isPageFreeLow_eq, isPageFreeLow_eq,
      bytes_setByte_ne (Ne.symm h)]

/-- `bytes[o / 8] |= 1 << (o % 8)` sets bit `o` and no other. -/
theorem isPageFree_setBit (m : Mem) (o o' : Nat) :
    isPageFree (setByte m (o / 8) (bytes m (o / 8) ||| UInt8.ofNat (1 <<< (o % 8)))) o' =
      (isPageFree m o' && !decide (o = o')) := by
  rw [isPageFree_setByte]
  by_cases h : o' / 8 = o / 8
  · -- In the same byte the offsets differ exactly when their bits do.
    have hiff : (o % 8 = o' % 8) ↔ o = o' := by omega
    rw [if_pos h, testBit_or_bit _ (by omega), isPageFree, isPageFreeLow_eq, h]
    simp [hiff]
  · have hne : o ≠ o' := fun heq => h (by rw [heq])
    simp [h, hne]

/-- `bytes[o / 8] -= 1 << (o % 8)` clears a set bit `o` and touches no other. -/
theorem isPageFree_clearBit {m : Mem} {o : Nat} (hset : isPageFree m o = false) (o' : Nat) :
    isPageFree (setByte m (o / 8) (bytes m (o / 8) - UInt8.ofNat (1 <<< (o % 8)))) o' =
      (isPageFree m o' || decide (o = o')) := by
  rw [isPageFree_setByte]
  by_cases h : o' / 8 = o / 8
  · have hiff : (o % 8 = o' % 8) ↔ o = o' := by omega
    have hbit : (bytes m (o / 8)).toNat.testBit (o % 8) = true := by
      simpa [isPageFree, isPageFreeLow_eq] using hset
    rw [if_pos h, testBit_sub_bit _ (by omega) (by omega) hbit, isPageFree, isPageFreeLow_eq, h]
    simp [hiff]
  · have hne : o ≠ o' := fun heq => h (by rw [heq])
    simp [h, hne]

/-! ## The search loop -/

theorem findFree_some {m : Mem} {k i j : Nat} (h : findFree m k i = some j) :
    i ≤ j ∧ j < i + k ∧ isPageFree m j = true ∧ ∀ t, i ≤ t → t < j → isPageFree m t = false := by
  induction k generalizing i with
  | zero =>
      simp [findFree] at h
  | succ k ih =>
      by_cases hi : isPageFree m i = true
      · have hij : i = j := by simpa [findFree, hi] using h
        subst hij
        exact ⟨le_refl _, by omega, hi, fun t h1 h2 => by omega⟩
      · -- `i` itself is taken; everything else comes from the rest of the range.
        have hrec : findFree m k (i + 1) = some j := by simpa [findFree, hi] using h
        rcases ih hrec with ⟨h1, h2, h3, h4⟩
        refine ⟨by omega, by omega, h3, fun t ht1 ht2 => ?_⟩
        by_cases hti : t = i
        · subst hti
          simpa using hi
        · exact h4 t (by omega) ht2

theorem findFree_none {m : Mem} {k i : Nat} (h : findFree m k i = none) :
    ∀ t, i ≤ t → t < i + k → isPageFree m t = false := by
  induction k generalizing i with
  | zero =>
      intro t h1 h2
      omega
  | succ k ih =>
      intro t h1 h2
      by_cases hi : isPageFree m i = true
      · simp [findFree, hi] at h
      · have hrec : findFree m k (i + 1) = none := by simpa [findFree, hi] using h
        by_cases hti : t = i
        · subst hti
          simpa using hi
        · exact ih hrec t (by omega) (by omega)

/-! ## The set of allocated offsets -/

/-- The offsets whose bit is set. -/
def bits (pageSize : Nat) (m : Mem) : Finset Nat :=
  (Finset.range (getMaxSupportedSize pageSize)).filter fun o => isPageFree m o = false

variable {pageSize : Nat} {m m' : Mem}

theorem mem_bits {o : Nat} :
    o ∈ bits pageSize m ↔ o < getMaxSupportedSize pageSize ∧ isPageFree m o = false := by
  simp [bits]

theorem card_bits_le : (bits pageSize m).card ≤ getMaxSupportedSize pageSize := by
  have hle : (bits pageSize m).card ≤ (Finset.range (getMaxSupportedSize pageSize)).card :=
    Finset.card_filter_le _ _
  simpa using hle

theorem room_or_full (pageSize : Nat) (m : Mem) :
    (bits pageSize m).card < getMaxSupportedSize pageSize ∨
      (bits pageSize m).card = getMaxSupportedSize pageSize :=
  lt_or_eq_of_le card_bits_le

/-- A bitmap with as many set bits as it has bits is full. -/
theorem isPageFree_of_full (hfull : (bits pageSize m).card = getMaxSupportedSize pageSize)
    {o : Nat} (ho : o < getMaxSupportedSize pageSize) : isPageFree m o = false := by
  have heq : bits pageSize m = Finset.range (getMaxSupportedSize pageSize) := by
    refine Finset.eq_of_subset_of_card_le (Finset.filter_subset _ _) ?_
    rw [Finset.card_range]
    exact le_of_eq hfull.symm
  have hmem : o ∈ bits pageSize m := by
    rw [heq]
    exact Finset.mem_range.mpr ho
  exact (mem_bits.mp hmem).2

/-- As long as a bit is clear the search loop finds an offset. -/
theorem exists_findFree (hroom : (bits pageSize m).card < getMaxSupportedSize pageSize) :
    ∃ i, findFree m (getMaxSupportedSize pageSize) 0 = some i := by
  cases hfind : findFree m (getMaxSupportedSize pageSize) 0 with
  | some i =>
      exact ⟨i, rfl⟩
  | none =>
      -- Otherwise every offset has its bit set, and there are more offsets than set bits.
      exfalso
      have hall := findFree_none hfind
      have hsub : Finset.range (getMaxSupportedSize pageSize) ⊆ bits pageSize m := by
        intro o ho
        have ho' := Finset.mem_range.mp ho
        exact mem_bits.mpr ⟨ho', hall o (by omega) (by omega)⟩
      have hle := Finset.card_le_card hsub
      rw [Finset.card_range] at hle
      omega

/-- How the two counters follow the bits. -/
structure Inv (pageSize : Nat) (m : Mem) : Prop where
  count : pageAllocated m = (bits pageSize m).card
  hint_lt : nextFreePage m < getMaxSupportedSize pageSize
  hint_free : (bits pageSize m).card < getMaxSupportedSize pageSize →
    isPageFree m (nextFreePage m) = true

/-- The bits live inside the page, so a copy of the page has the same ones. -/
theorem isPageFree_congr (h : ∀ i, i < pageSize → m i = m' i) {o : Nat}
    (ho : o < getMaxSupportedSize pageSize) : isPageFree m o = isPageFree m' o := by
  have hlt : 8 + o / 8 < pageSize := by
    simp only [getMaxSupportedSize, MAX_CHARS] at ho
    omega
  simp only [isPageFree, isPageFreeLow, bytes, h _ hlt]

theorem bits_congr (h : ∀ i, i < pageSize → m i = m' i) : bits pageSize m = bits pageSize m' := by
  ext o
  simp only [mem_bits]
  constructor
  · rintro ⟨ho, hset⟩
    exact ⟨ho, by rw [← isPageFree_congr h ho, hset]⟩
  · rintro ⟨ho, hset⟩
    exact ⟨ho, by rw [isPageFree_congr h ho, hset]⟩

theorem Inv.congr (hinv : Inv pageSize m) (h : ∀ i, i < pageSize → m i = m' i) :
    Inv pageSize m' := by
  -- The page has a bit, so the two counters lie inside it.
  have hsize : 8 < pageSize := by
    have := hinv.hint_lt
    simp only [getMaxSupportedSize, MAX_CHARS] at this
    omega
  have hcount : pageAllocated m' = pageAllocated m :=
    Mem.u32_congr fun i _ h2 => (h i (by omega)).symm
  have hhint : nextFreePage m' = nextFreePage m :=
    Mem.u32_congr fun i _ h2 => (h i (by omega)).symm
  refine ⟨?_, ?_, ?_⟩
  · rw [hcount, hinv.count, bits_congr h]
  · rw [hhint]
    exact hinv.hint_lt
  · intro hroom
    rw [hhint, ← isPageFree_congr h hinv.hint_lt]
    exact hinv.hint_free (by rw [bits_congr h]; exact hroom)

/-- A zeroed page is an empty bitmap. -/
theorem isPageFree_zero {n : Nat} (o : Nat) : isPageFree (Buf.zero n).mem o = true := by
  simp [isPageFree, isPageFreeLow, bytes]

theorem bits_zero {n : Nat} : bits pageSize (Buf.zero n).mem = ∅ := by
  ext o
  simp [mem_bits, isPageFree_zero]

theorem inv_zero {n : Nat} (hsize : 8 < pageSize) : Inv pageSize (Buf.zero n).mem := by
  refine ⟨?_, ?_, fun _ => isPageFree_zero _⟩
  · rw [bits_zero, pageAllocated, Buf.u32_zero, Finset.card_empty]
  · rw [nextFreePage, Buf.u32_zero]
    simp only [getMaxSupportedSize, MAX_CHARS]
    omega

/-! ## Allocation -/

/-- The page after the bit is set and the counter raised, before the hint moves. -/
def marked (m : Mem) (o : Nat) : Mem :=
  let m₁ := setByte m (o / 8) (bytes m (o / 8) ||| UInt8.ofNat (1 <<< (o % 8)))
  m₁.setU32 0 (pageAllocated m₁ + 1)

theorem isPageFree_marked (m : Mem) (o o' : Nat) :
    isPageFree (marked m o) o' = (isPageFree m o' && !decide (o = o')) := by
  rw [marked, isPageFree_setU32 (by omega), isPageFree_setBit]

theorem bits_marked {o : Nat} (ho : o < getMaxSupportedSize pageSize) :
    bits pageSize (marked m o) = insert o (bits pageSize m) := by
  ext o'
  simp only [Finset.mem_insert, mem_bits, isPageFree_marked]
  by_cases heq : o = o'
  · subst heq
    simp [ho]
  · simp [heq, Ne.symm heq]

theorem bits_setHint (v : Nat) : bits pageSize (m.setU32 4 v) = bits pageSize m := by
  ext o
  simp only [mem_bits, isPageFree_setU32 (m := m) (a := 4) (v := v) (by omega)]

/-- With room left, `AllocatePage` sets exactly the bit of the hint, which was clear, and moves
the hint to the lowest free page. -/
theorem allocatePage_of_room (hinv : Inv pageSize m)
    (hcap : getMaxSupportedSize pageSize < 2 ^ 32)
    (hroom : (bits pageSize m).card < getMaxSupportedSize pageSize) :
    ∃ m', allocatePage pageSize m = (true, nextFreePage m, m') ∧ Inv pageSize m' ∧
      bits pageSize m' = insert (nextFreePage m) (bits pageSize m) ∧
      nextFreePage m ∉ bits pageSize m ∧
      ∀ o, o < getMaxSupportedSize pageSize → isPageFree m' o = true → nextFreePage m' ≤ o := by
  have hfree := hinv.hint_free hroom
  have hlt := hinv.hint_lt
  have hnot : nextFreePage m ∉ bits pageSize m := by
    simp [mem_bits, hfree]
  have hbits := bits_marked (m := m) hlt
  have hcard : (bits pageSize (marked m (nextFreePage m))).card = (bits pageSize m).card + 1 := by
    rw [hbits, Finset.card_insert_of_notMem hnot]
  have hcount : pageAllocated (marked m (nextFreePage m)) = (bits pageSize m).card + 1 := by
    have hv : pageAllocated m + 1 < 2 ^ 32 := by rw [hinv.count]; omega
    simp only [marked, pageAllocated_setByte]
    rw [pageAllocated, Mem.u32_setU32_of_lt hv, hinv.count]
  have hhint : nextFreePage (marked m (nextFreePage m)) = nextFreePage m := by
    simp [marked]
  have hmul : MAX_CHARS pageSize * 8 = getMaxSupportedSize pageSize := by
    simp [getMaxSupportedSize, Nat.mul_comm]
  by_cases hlast : (bits pageSize m).card + 1 < getMaxSupportedSize pageSize
  · -- A page is left, and the loop moves the hint to the lowest one.
    rcases exists_findFree (hcard ▸ hlast) with ⟨i, hfind⟩
    rcases findFree_some hfind with ⟨_, hi, hifree, hmin⟩
    have hi' : i < 2 ^ 32 := by omega
    have hnext : nextFreePage ((marked m (nextFreePage m)).setU32 4 i) = i := by
      rw [nextFreePage, Mem.u32_setU32_of_lt hi']
    refine ⟨(marked m (nextFreePage m)).setU32 4 i, ?_, ⟨?_, ?_, ?_⟩, ?_, hnot, ?_⟩
    · have hguard : pageAllocated (marked m (nextFreePage m)) < getMaxSupportedSize pageSize := by
        rw [hcount]
        exact hlast
      simp only [marked] at hguard hfind ⊢
      simp only [allocatePage, hfree, if_true, hmul, hguard, hfind]
    · rw [pageAllocated_setHint, bits_setHint, hcount, hcard]
    · rw [hnext]
      omega
    · intro _
      rw [hnext, isPageFree_setU32 (by omega)]
      exact hifree
    · rw [bits_setHint, hbits]
    · intro o ho hofree
      rw [hnext]
      by_contra hgt
      rw [isPageFree_setU32 (by omega), hmin o (by omega) (by omega)] at hofree
      exact Bool.false_ne_true hofree
  · -- The last page of the extent: the hint stays where it was.
    have hfull : (bits pageSize (marked m (nextFreePage m))).card =
        getMaxSupportedSize pageSize := by
      omega
    refine ⟨marked m (nextFreePage m), ?_, ⟨?_, ?_, ?_⟩, hbits, hnot, ?_⟩
    · have hguard : ¬pageAllocated (marked m (nextFreePage m)) <
          getMaxSupportedSize pageSize := by
        rw [hcount]
        exact hlast
      simp only [marked] at hguard ⊢
      simp only [allocatePage, hfree, if_true, hmul, hguard, if_false]
    · rw [hcount, hcard]
    · rw [hhint]
      exact hlt
    · intro hroom'
      omega
    · intro o ho hofree
      rw [isPageFree_of_full hfull ho] at hofree
      exact absurd hofree Bool.false_ne_true

/-- On a full extent `AllocatePage` reports failure and changes nothing. -/
theorem allocatePage_of_full (hinv : Inv pageSize m)
    (hfull : (bits pageSize m).card = getMaxSupportedSize pageSize) :
    allocatePage pageSize m = (false, nextFreePage m, m) := by
  have hset := isPageFree_of_full hfull hinv.hint_lt
  simp [allocatePage, hset]

/-! ## Deallocation -/

/-- On a free offset `DeAllocatePage` reports failure and changes nothing. -/
theorem deAllocatePage_of_free {o : Nat} (hfree : isPageFree m o = true) :
    deAllocatePage m o = (false, m) := by
  simp [deAllocatePage, hfree]

/-- On an allocated offset `DeAllocatePage` clears exactly its bit and points the hint at it. -/
theorem deAllocatePage_of_set (hinv : Inv pageSize m)
    (hcap : getMaxSupportedSize pageSize < 2 ^ 32) {o : Nat} (ho : o ∈ bits pageSize m) :
    ∃ m', deAllocatePage m o = (true, m') ∧ Inv pageSize m' ∧
      bits pageSize m' = (bits pageSize m).erase o := by
  rcases mem_bits.mp ho with ⟨hlt, hset⟩
  have hpos : 0 < (bits pageSize m).card := Finset.card_pos.mpr ⟨o, ho⟩
  have hle : (bits pageSize m).card ≤ getMaxSupportedSize pageSize := card_bits_le
  -- The byte, then the counter (less one, modulo `2 ^ 32`), then the hint.
  set m₁ := setByte m (o / 8) (bytes m (o / 8) - UInt8.ofNat (1 <<< (o % 8))) with hm₁
  set m' := (m₁.setU32 0 (pageAllocated m₁ + (2 ^ 32 - 1))).setU32 4 o with hm'
  have hfree' : ∀ o', isPageFree m' o' = (isPageFree m o' || decide (o = o')) := by
    intro o'
    calc
      isPageFree m' o' = isPageFree m₁ o' := by
        rw [hm', isPageFree_setU32 (by omega), isPageFree_setU32 (by omega)]
      _ = (isPageFree m o' || decide (o = o')) := isPageFree_clearBit hset o'
  have hbits : bits pageSize m' = (bits pageSize m).erase o := by
    ext o'
    simp only [Finset.mem_erase, mem_bits, hfree']
    by_cases heq : o = o'
    · subst heq
      simp
    · simp [heq, Ne.symm heq]
  have hcount : pageAllocated m' = (bits pageSize m).card - 1 := by
    calc
      pageAllocated m' = (pageAllocated m₁ + (2 ^ 32 - 1)) % 2 ^ 32 := by
        rw [hm', pageAllocated_setHint, pageAllocated, Mem.u32_setU32]
      _ = ((bits pageSize m).card + (2 ^ 32 - 1)) % 2 ^ 32 := by
        rw [hm₁, pageAllocated_setByte, hinv.count]
      _ = (bits pageSize m).card - 1 := by omega
  have hhint : nextFreePage m' = o := by
    rw [hm', nextFreePage, Mem.u32_setU32_of_lt (by omega)]
  refine ⟨m', ?_, ⟨?_, ?_, ?_⟩, hbits⟩
  · simp only [deAllocatePage, hset, Bool.false_eq_true, if_false]
    rfl
  · rw [hcount, hbits, Finset.card_erase_of_mem ho]
  · rw [hhint]
    exact hlt
  · intro _
    rw [hhint, hfree']
    simp

/-! ## Runs -/

/-- The sizes the class template is instantiated for. -/
def instantiations : List Nat :=
  [64, 128, 256, 512, 1024, 2048, 4096]

theorem instantiations_bounds (hsize : pageSize ∈ instantiations) :
    8 < pageSize ∧ getMaxSupportedSize pageSize < 2 ^ 32 := by
  have hall : ∀ k ∈ instantiations, 8 < k ∧ getMaxSupportedSize k < 2 ^ 32 := by decide
  exact hall pageSize hsize

inductive Call
  | allocatePage
  | deAllocatePage (pageOffset : Nat)

def Step (pageSize : Nat) (m : Mem) : Call → Mem → Prop
  | .allocatePage, m' => m' = (allocatePage pageSize m).2.2
  | .deAllocatePage o, m' => o < getMaxSupportedSize pageSize ∧ m' = (deAllocatePage m o).2

/-- The bitmap is full, or a bit is clear. -/
theorem room_iff : (bits pageSize m).card < getMaxSupportedSize pageSize ↔
    ∃ o, o < getMaxSupportedSize pageSize ∧ isPageFree m o = true := by
  constructor
  · intro hroom
    rcases exists_findFree hroom with ⟨i, hfind⟩
    rcases findFree_some hfind with ⟨_, hlt, hfree, _⟩
    exact ⟨i, by omega, hfree⟩
  · rintro ⟨o, ho, hfree⟩
    refine lt_of_le_of_ne card_bits_le fun hfull => ?_
    rw [isPageFree_of_full hfull ho] at hfree
    exact Bool.false_ne_true hfree

theorem Step.inv {c : Call} (hcap : getMaxSupportedSize pageSize < 2 ^ 32)
    (hstep : Step pageSize m c m') (hinv : Inv pageSize m) : Inv pageSize m' := by
  cases c with
  | allocatePage =>
      obtain rfl : m' = (allocatePage pageSize m).2.2 := hstep
      rcases room_or_full pageSize m with hroom | hfull
      · rcases allocatePage_of_room hinv hcap hroom with ⟨m', heq, hinv', _⟩
        rw [heq]
        exact hinv'
      · rw [allocatePage_of_full hinv hfull]
        exact hinv
  | deAllocatePage o =>
      rcases hstep with ⟨ho, rfl⟩
      cases hfree : isPageFree m o with
      | true =>
          rw [deAllocatePage_of_free hfree]
          exact hinv
      | false =>
          rcases deAllocatePage_of_set hinv hcap (mem_bits.mpr ⟨ho, hfree⟩) with ⟨m', heq, hinv', _⟩
          rw [heq]
          exact hinv'

/-- The page behaves as the set `bits` of the offsets in use. -/
structure Behaves (pageSize : Nat) (m : Mem) : Prop where
  count : pageAllocated m = (bits pageSize m).card
  hint_lt : nextFreePage m < getMaxSupportedSize pageSize
  hint_free : (∃ o, o < getMaxSupportedSize pageSize ∧ isPageFree m o = true) →
    isPageFree m (nextFreePage m) = true
  allocate_iff : (allocatePage pageSize m).1 = true ↔
    ∃ o, o < getMaxSupportedSize pageSize ∧ isPageFree m o = true
  allocate_sets : ∀ o m', allocatePage pageSize m = (true, o, m') →
    o < getMaxSupportedSize pageSize ∧ isPageFree m o = true ∧
      bits pageSize m' = insert o (bits pageSize m)
  allocate_fails : ∀ o m', allocatePage pageSize m = (false, o, m') → m' = m
  free_iff : ∀ o, o < getMaxSupportedSize pageSize →
    ((deAllocatePage m o).1 = true ↔ o ∈ bits pageSize m)
  free_clears : ∀ o m', o < getMaxSupportedSize pageSize → deAllocatePage m o = (true, m') →
    bits pageSize m' = (bits pageSize m).erase o
  free_fails : ∀ o m', deAllocatePage m o = (false, m') → m' = m

theorem Inv.behaves (hinv : Inv pageSize m) (hcap : getMaxSupportedSize pageSize < 2 ^ 32) :
    Behaves pageSize m where
  count := hinv.count
  hint_lt := hinv.hint_lt
  hint_free := fun hfree => hinv.hint_free (room_iff.mpr hfree)
  -- A call succeeds exactly when there is room, and then its equation is known.
  allocate_iff := by
    rw [← room_iff]
    rcases room_or_full pageSize m with hroom | hfull
    · rcases allocatePage_of_room hinv hcap hroom with ⟨m', heq, _⟩
      rw [heq]
      exact iff_of_true rfl hroom
    · rw [allocatePage_of_full hinv hfull]
      exact iff_of_false Bool.false_ne_true (by omega)
  allocate_sets := by
    intro o m' hok
    rcases room_or_full pageSize m with hroom | hfull
    · rcases allocatePage_of_room hinv hcap hroom with ⟨m₁, heq, _, hbits, _⟩
      rw [heq] at hok
      cases hok
      exact ⟨hinv.hint_lt, hinv.hint_free hroom, hbits⟩
    · rw [allocatePage_of_full hinv hfull] at hok
      cases hok
  allocate_fails := by
    intro o m' hok
    rcases room_or_full pageSize m with hroom | hfull
    · rcases allocatePage_of_room hinv hcap hroom with ⟨m₁, heq, _⟩
      rw [heq] at hok
      cases hok
    · rw [allocatePage_of_full hinv hfull] at hok
      cases hok
      rfl
  free_iff := by
    intro o ho
    -- A clear bit means false and no change; a set bit is cleared.
    cases hfree : isPageFree m o with
    | true =>
        rw [deAllocatePage_of_free hfree]
        refine iff_of_false Bool.false_ne_true fun hmem => ?_
        rw [(mem_bits.mp hmem).2] at hfree
        cases hfree
    | false =>
        have hmem : o ∈ bits pageSize m := mem_bits.mpr ⟨ho, hfree⟩
        rcases deAllocatePage_of_set hinv hcap hmem with ⟨m', heq, _⟩
        rw [heq]
        exact iff_of_true rfl hmem
  free_clears := by
    intro o m' ho hok
    cases hfree : isPageFree m o with
    | true =>
        rw [deAllocatePage_of_free hfree] at hok
        cases hok
    | false =>
        rcases deAllocatePage_of_set hinv hcap (mem_bits.mpr ⟨ho, hfree⟩) with ⟨m₁, heq, _, hbits⟩
        rw [heq] at hok
        cases hok
        exact hbits
  free_fails := by
    intro o m' hok
    cases hfree : isPageFree m o with
    | true =>
        rw [deAllocatePage_of_free hfree] at hok
        cases hok
        rfl
    | false =>
        simp [deAllocatePage, hfree] at hok

/-- After every sequence of calls on a zeroed page, for every size of the template. -/
theorem refines_set {calls : List Call} (hsize : pageSize ∈ instantiations)
    (hrun : Run (Step pageSize) (Buf.zero pageSize).mem calls m) : Behaves pageSize m := by
  rcases instantiations_bounds hsize with ⟨hpos, hcap⟩
  have hinv : Inv pageSize m :=
    hrun.invariant (fun _ _ _ hinv hstep => hstep.inv hcap hinv) (inv_zero hpos)
  exact hinv.behaves hcap

/-- One page is taken and given back. -/
theorem refines_set_once : ∃ m : Mem,
    Run (Step 64) (Buf.zero 64).mem [.allocatePage, .deAllocatePage 0] m ∧ Behaves 64 m := by
  have hrun : Run (Step 64) (Buf.zero 64).mem [.allocatePage, .deAllocatePage 0] _ :=
    Run.cons rfl (Run.cons ⟨by decide, rfl⟩ (Run.nil _))
  exact ⟨_, hrun, refines_set (by decide) hrun⟩

end BitmapPage
end MiniSQL
