import Mathlib.Algebra.BigOperators.Group.Finset.Basic
import Mathlib.Algebra.Order.BigOperators.Group.Finset
import MiniSQL.Storage.DiskManager

/-!
# PageAllocator — the disk manager as an allocator of logical pages

Three records of the same fact are kept by the disk manager: the global counter, one counter per
extent and one bitmap per extent.  `DiskManager.Inv` says that they agree.  `Allocates` and
`Frees` say everything one call of `AllocatePage` and `DeAllocatePage` does; every later result
about runs is derived from these two.
-/

namespace MiniSQL
namespace DiskManager

open Lib DiskFileMetaPage

/-! ## Fields of the meta page -/

section MetaPage

variable (d : PageData) (v : Nat)

@[simp] theorem numAllocatedPages_setAllocated :
    numAllocatedPages (d.setU32 0 v).mem = v % 2 ^ 32 :=
  Buf.u32_setU32 (by decide)

@[simp] theorem numExtents_setAllocated :
    numExtents (d.setU32 0 v).mem = numExtents d.mem :=
  Buf.u32_setU32_ne (by decide) (by omega)

@[simp] theorem numAllocatedPages_setExtents :
    numAllocatedPages (d.setU32 4 v).mem = numAllocatedPages d.mem :=
  Buf.u32_setU32_ne (by decide) (by omega)

@[simp] theorem numExtents_setExtents : numExtents (d.setU32 4 v).mem = v % 2 ^ 32 :=
  Buf.u32_setU32 (by decide)

@[simp] theorem numAllocatedPages_setUsed (k : Nat) :
    numAllocatedPages (d.setU32 (8 + 4 * k) v).mem = numAllocatedPages d.mem :=
  Buf.u32_setU32_ne (by decide) (by omega)

@[simp] theorem numExtents_setUsed (k : Nat) :
    numExtents (d.setU32 (8 + 4 * k) v).mem = numExtents d.mem :=
  Buf.u32_setU32_ne (by decide) (by omega)

variable {d v} {k : Nat} (hk : k < MAX_EXTENTS)

include hk

theorem extentUsedPage_setAllocated :
    extentUsedPage (d.setU32 0 v).mem k = extentUsedPage d.mem k := by
  simp only [MAX_EXTENTS] at hk
  exact Buf.u32_setU32_ne (by simp only [PAGE_SIZE]; omega) (by omega)

theorem extentUsedPage_setExtents :
    extentUsedPage (d.setU32 4 v).mem k = extentUsedPage d.mem k := by
  simp only [MAX_EXTENTS] at hk
  exact Buf.u32_setU32_ne (by simp only [PAGE_SIZE]; omega) (by omega)

theorem extentUsedPage_setUsed (j : Nat) :
    extentUsedPage (d.setU32 (8 + 4 * j) v).mem k =
      if k = j then v % 2 ^ 32 else extentUsedPage d.mem k := by
  simp only [MAX_EXTENTS] at hk
  by_cases h : k = j
  · subst h
    rw [if_pos rfl]
    exact Buf.u32_setU32 (by simp only [PAGE_SIZE]; omega)
  · rw [if_neg h]
    exact Buf.u32_setU32_ne (by simp only [PAGE_SIZE]; omega) (by omega)

end MetaPage

/-! ## Invariant -/

/-- The bitmap page of extent `k`. -/
def bitmap (dm : DiskManager) (k : Nat) : Mem :=
  (dm.readPhysicalPage (bitmapAddr k)).mem

/-- The offsets in use in extent `k`, as its bitmap has them. -/
def used (dm : DiskManager) (k : Nat) : Finset Nat :=
  BitmapPage.bits PAGE_SIZE (dm.bitmap k)

/-- The counters and the bitmaps agree, and an extent that was not opened has a zero bitmap. -/
structure Inv (dm : DiskManager) : Prop where
  extents_le : numExtents dm.metaData.mem ≤ MAX_EXTENTS
  bitmap_inv : ∀ k, k < EXTENT_BOUND → BitmapPage.Inv PAGE_SIZE (dm.bitmap k)
  unopened : ∀ k, numExtents dm.metaData.mem ≤ k → k < EXTENT_BOUND →
    dm.readPhysicalPage (bitmapAddr k) = Buf.zero PAGE_SIZE
  extent_used : ∀ k, k < MAX_EXTENTS → extentUsedPage dm.metaData.mem k = (dm.used k).card
  allocated : numAllocatedPages dm.metaData.mem =
    ∑ k ∈ Finset.range (numExtents dm.metaData.mem), extentUsedPage dm.metaData.mem k

variable {dm dm' : DiskManager}

theorem card_used_le (dm : DiskManager) (k : Nat) : (dm.used k).card ≤ BITMAP_SIZE :=
  BitmapPage.card_bits_le

theorem Inv.used_unopened (hinv : Inv dm) {k : Nat} (hk : numExtents dm.metaData.mem ≤ k)
    (hlt : k < EXTENT_BOUND) : dm.used k = ∅ := by
  rw [used, bitmap, hinv.unopened k hk hlt, BitmapPage.bits_zero]

/-- The global counter never comes near the 32-bit limit. -/
theorem Inv.allocated_le (hinv : Inv dm) :
    numAllocatedPages dm.metaData.mem ≤ MAX_VALID_PAGE_ID := by
  have hused : ∀ k ∈ Finset.range (numExtents dm.metaData.mem),
      extentUsedPage dm.metaData.mem k ≤ BITMAP_SIZE := by
    intro k hk
    have hlt : k < MAX_EXTENTS := lt_of_lt_of_le (Finset.mem_range.mp hk) hinv.extents_le
    rw [hinv.extent_used k hlt]
    exact card_used_le dm k
  calc numAllocatedPages dm.metaData.mem
      = ∑ k ∈ Finset.range (numExtents dm.metaData.mem), extentUsedPage dm.metaData.mem k :=
        hinv.allocated
    _ ≤ (Finset.range (numExtents dm.metaData.mem)).card • BITMAP_SIZE :=
        Finset.sum_le_card_nsmul _ _ _ hused
    _ = numExtents dm.metaData.mem * BITMAP_SIZE := by
        rw [Finset.card_range, smul_eq_mul]
    _ ≤ MAX_EXTENTS * BITMAP_SIZE := Nat.mul_le_mul_right _ hinv.extents_le

theorem fresh_inv : Inv fresh := by
  have hmeta : fresh.metaData = Buf.zero PAGE_SIZE := rfl
  have hfile : ∀ p, fresh.readPhysicalPage p = Buf.zero PAGE_SIZE := fun _ => rfl
  refine ⟨?_, ?_, fun k _ _ => rfl, ?_, ?_⟩
  · simp [hmeta, numExtents]
  · intro k _
    simpa [bitmap, hfile] using BitmapPage.inv_zero (by decide)
  · intro k _
    simp [hmeta, extentUsedPage, used, bitmap, hfile, BitmapPage.bits_zero]
  · simp [hmeta, numAllocatedPages, numExtents]

/-! ## The search for an extent -/

theorem findExtent_spec (m : Mem) (k i : Nat) :
    i ≤ findExtent m k i ∧ findExtent m k i ≤ i + k ∧
      (∀ j, i ≤ j → j < findExtent m k i → BITMAP_SIZE ≤ getExtentUsedPage m j) ∧
      (findExtent m k i < i + k → getExtentUsedPage m (findExtent m k i) < BITMAP_SIZE) := by
  induction k generalizing i with
  | zero =>
      refine ⟨le_refl _, le_refl _, fun j h1 h2 => ?_, fun h => ?_⟩
      · simp only [findExtent] at h2
        omega
      · simp only [findExtent] at h
        omega
  | succ k ih =>
      by_cases hroom : getExtentUsedPage m i < BITMAP_SIZE
      · simp only [findExtent, hroom, if_true]
        exact ⟨le_refl _, by omega, fun j h1 h2 => by omega, fun _ => trivial⟩
      · -- Extent `i` is full and is passed over.
        simp only [findExtent, hroom, if_false]
        rcases ih (i + 1) with ⟨h1, h2, h3, h4⟩
        refine ⟨by omega, by omega, fun j hj1 hj2 => ?_, fun h => h4 (by omega)⟩
        by_cases hji : j = i
        · subst hji
          omega
        · exact h3 j (by omega) hj2

/-- The extent `AllocatePage` settles on: all lower ones are full, and it has room. -/
theorem Inv.findExtent (hinv : Inv dm) :
    let k := findExtent dm.metaData.mem (numExtents dm.metaData.mem) 0
    k ≤ numExtents dm.metaData.mem ∧ (∀ j, j < k → (dm.used j).card = BITMAP_SIZE) ∧
      (k < EXTENT_BOUND → (dm.used k).card < BITMAP_SIZE) := by
  intro k
  rcases findExtent_spec dm.metaData.mem (numExtents dm.metaData.mem) 0 with ⟨_, hle, hfull, hroom⟩
  have hle' : k ≤ numExtents dm.metaData.mem := by omega
  have hext := hinv.extents_le
  refine ⟨hle', fun j hj => ?_, fun hk => ?_⟩
  · have hj' : ¬j ≥ numExtents dm.metaData.mem := by omega
    have h := hfull j (by omega) hj
    rw [getExtentUsedPage, if_neg hj', hinv.extent_used j (by omega)] at h
    exact le_antisymm (card_used_le dm j) h
  · by_cases hopen : k < numExtents dm.metaData.mem
    · -- The loop stopped at an open extent because its counter is below the size.
      have hk' : ¬k ≥ numExtents dm.metaData.mem := by omega
      have h := hroom (by omega)
      rwa [getExtentUsedPage, if_neg hk', hinv.extent_used k (by omega)] at h
    · rw [hinv.used_unopened (by omega) hk]
      simp

/-! ## One call of `AllocatePage` -/

/-- Everything an allocation of offset `o` in extent `k` does. -/
structure Allocates (dm dm' : DiskManager) (k o : Nat) : Prop where
  extent_lt : k < MAX_EXTENTS
  extent_le : k ≤ numExtents dm.metaData.mem
  lower_full : ∀ j, j < k → (dm.used j).card = BITMAP_SIZE
  room : (dm.used k).card < BITMAP_SIZE
  offset_lt : o < BITMAP_SIZE
  offset_hint : o = BitmapPage.nextFreePage (dm.bitmap k)
  offset_free : o ∉ dm.used k
  used_self : dm'.used k = insert o (dm.used k)
  hint_least : ∀ i, i < BITMAP_SIZE → BitmapPage.isPageFree (dm'.bitmap k) i = true →
    BitmapPage.nextFreePage (dm'.bitmap k) ≤ i
  bitmap_self : BitmapPage.Inv PAGE_SIZE (dm'.bitmap k)
  file_other : ∀ q, q ≠ bitmapAddr k → dm'.file q = dm.file q
  extents : numExtents dm'.metaData.mem = max (numExtents dm.metaData.mem) (k + 1)
  counter : numAllocatedPages dm'.metaData.mem = numAllocatedPages dm.metaData.mem + 1
  extent_counter : ∀ j, j < MAX_EXTENTS → extentUsedPage dm'.metaData.mem j =
    extentUsedPage dm.metaData.mem j + if j = k then 1 else 0

theorem EXTENT_BOUND_of_MAX {k : Nat} (hk : k < MAX_EXTENTS) : k < EXTENT_BOUND :=
  lt_trans hk (by decide)

theorem Allocates.bitmap_other {k o : Nat} (h : Allocates dm dm' k o) {j : Nat}
    (hj : j < EXTENT_BOUND) (hne : j ≠ k) : dm'.bitmap j = dm.bitmap j := by
  have haddr : bitmapAddr j ≠ bitmapAddr k := fun heq =>
    hne (bitmapAddr_inj hj (EXTENT_BOUND_of_MAX h.extent_lt) heq)
  simp only [bitmap, readPhysicalPage, h.file_other _ haddr]

theorem Allocates.used_other {k o : Nat} (h : Allocates dm dm' k o) {j : Nat}
    (hj : j < EXTENT_BOUND) (hne : j ≠ k) : dm'.used j = dm.used j := by
  rw [used, used, h.bitmap_other hj hne]

/-- The bitmap part, shared by the two branches of `AllocatePage`: the bitmap page that is changed
is the one on disk, which for a new extent is zero.  What the branches do differently is the meta
page `d`. -/
theorem Inv.allocate_bitmap (hinv : Inv dm) {k : Nat} (hk : k < MAX_EXTENTS)
    (hle : k ≤ numExtents dm.metaData.mem) (hfull : ∀ j, j < k → (dm.used j).card = BITMAP_SIZE)
    (hroom : (dm.used k).card < BITMAP_SIZE) :
    ∃ m', BitmapPage.allocatePage PAGE_SIZE (dm.bitmap k) =
        (true, BitmapPage.nextFreePage (dm.bitmap k), m') ∧
      ∀ d : PageData, numExtents d.mem = max (numExtents dm.metaData.mem) (k + 1) →
        numAllocatedPages d.mem = numAllocatedPages dm.metaData.mem + 1 →
        (∀ j, j < MAX_EXTENTS → extentUsedPage d.mem j =
          extentUsedPage dm.metaData.mem j + if j = k then 1 else 0) →
        Allocates dm
          ({ dm with metaData := d }.writePhysicalPage (bitmapAddr k) (Buf.ofMem PAGE_SIZE m')) k
          (BitmapPage.nextFreePage (dm.bitmap k)) := by
  have hbitmap := hinv.bitmap_inv k (EXTENT_BOUND_of_MAX hk)
  rcases BitmapPage.allocatePage_of_room hbitmap (by decide) hroom with
    ⟨m', heq, hinv', hbits, hnot, hleast⟩
  -- The page is written back through a buffer of `PAGE_SIZE` bytes.
  have hcopy : ∀ i, i < PAGE_SIZE → m' i = (Buf.ofMem PAGE_SIZE m').mem i :=
    fun i hi => (Buf.mem_ofMem_of_lt hi).symm
  have hhint : BitmapPage.nextFreePage (Buf.ofMem PAGE_SIZE m').mem =
      BitmapPage.nextFreePage m' := Buf.u32_ofMem (by decide)
  refine ⟨m', heq, fun d hextents hcounter hused => ?_⟩
  -- The page read back is the one that was just written.
  have hread : ({ dm with metaData := d }.writePhysicalPage (bitmapAddr k)
      (Buf.ofMem PAGE_SIZE m')).bitmap k = (Buf.ofMem PAGE_SIZE m').mem := by
    simp [bitmap, readPhysicalPage, writePhysicalPage]
  refine ⟨hk, hle, hfull, hroom, hbitmap.hint_lt, rfl, hnot, ?_, ?_, ?_, ?_, hextents, hcounter,
    hused⟩
  · rw [used, hread, ← BitmapPage.bits_congr hcopy]
    exact hbits
  · intro i hi hfree
    rw [hread] at hfree ⊢
    rw [← BitmapPage.isPageFree_congr hcopy hi] at hfree
    rw [hhint]
    exact hleast i hi hfree
  · rw [hread]
    exact hinv'.congr hcopy
  · intro q hq
    simp [writePhysicalPage, Function.update_of_ne hq]

/-- Inversion of `AllocatePage`. -/
theorem Inv.allocatePage_cases (hinv : Inv dm) {p : PageId} (h : dm.allocatePage = .ok (p, dm')) :
    ∃ k o, p = Int32.ofNat (o + BITMAP_SIZE * k) ∧ Allocates dm dm' k o := by
  set k := DiskManager.findExtent dm.metaData.mem (numExtents dm.metaData.mem) 0 with hk
  rcases hinv.findExtent with ⟨hle, hfull, hroom'⟩
  rw [← hk] at hle hfull hroom'
  by_cases hbound : 8 + 4 * k + 4 ≤ PAGE_SIZE
  · have hkm : k < MAX_EXTENTS := by
      simp only [PAGE_SIZE, MAX_EXTENTS] at *
      omega
    have hkb := EXTENT_BOUND_of_MAX hkm
    have hroom := hroom' hkb
    rcases hinv.allocate_bitmap hkm hle hfull hroom with ⟨m', heq, hallocates⟩
    -- Neither counter wraps.
    have hcount : (numAllocatedPages dm.metaData.mem + 1) % 2 ^ 32 =
        numAllocatedPages dm.metaData.mem + 1 := by
      have hcnt := hinv.allocated_le
      simp only [MAX_VALID_PAGE_ID] at hcnt
      omega
    have husedmod : (extentUsedPage dm.metaData.mem k + 1) % 2 ^ 32 =
        extentUsedPage dm.metaData.mem k + 1 := by
      have := hinv.extent_used k hkm
      simp only [BITMAP_SIZE] at hroom
      omega
    by_cases hopen : k < numExtents dm.metaData.mem
    · -- An open extent with room.
      have hread : (dm.readPhysicalPage (bitmapAddr k)).mem = dm.bitmap k := rfl
      simp only [allocatePage, ← hk, hbound, hopen, if_true, hread, heq, Except.ok.injEq,
        Prod.mk.injEq] at h
      rcases h with ⟨rfl, rfl⟩
      refine ⟨k, _, rfl, hallocates _ ?_ ?_ fun j hj => ?_⟩
      · simp only [numExtents_setUsed, numExtents_setAllocated]
        omega
      · simp only [numAllocatedPages_setUsed, numAllocatedPages_setAllocated]
        exact hcount
      · simp only [extentUsedPage_setUsed hj, extentUsedPage_setAllocated hkm,
          extentUsedPage_setAllocated hj]
        by_cases hjk : j = k
        · subst hjk
          simpa using husedmod
        · simp [hjk]
    · -- A new extent: its bitmap starts out zero, as on disk.
      have hext := hinv.extents_le
      have hkeq : k = numExtents dm.metaData.mem := by omega
      have hzero : (Buf.zero PAGE_SIZE).mem = dm.bitmap k := by
        rw [bitmap, hinv.unopened k (by omega) hkb]
      simp only [allocatePage, ← hk, hbound, hopen, if_true, if_false, hzero, heq, Except.ok.injEq,
        Prod.mk.injEq] at h
      rcases h with ⟨rfl, rfl⟩
      refine ⟨k, _, rfl, hallocates _ ?_ ?_ fun j hj => ?_⟩
      · simp only [numExtents_setUsed, numExtents_setExtents, numExtents_setAllocated]
        simp only [MAX_EXTENTS] at hext
        omega
      · simp only [numAllocatedPages_setUsed, numAllocatedPages_setExtents,
          numAllocatedPages_setAllocated]
        exact hcount
      · simp only [extentUsedPage_setUsed hj, extentUsedPage_setExtents hkm,
          extentUsedPage_setAllocated hkm, extentUsedPage_setExtents hj,
          extentUsedPage_setAllocated hj]
        by_cases hjk : j = k
        · subst hjk
          simpa using husedmod
        · simp [hjk]
  · simp [allocatePage, ← hk, hbound] at h

/-- `AllocatePage` returns unless all extents of the table are full. -/
theorem Inv.allocatePage_ok (hinv : Inv dm) {k : Nat} (hk : k < MAX_EXTENTS)
    (hroom : (dm.used k).card < BITMAP_SIZE) : ∃ p dm', dm.allocatePage = .ok (p, dm') := by
  rcases hinv.findExtent with ⟨_, hfull, _⟩
  have hle : DiskManager.findExtent dm.metaData.mem (numExtents dm.metaData.mem) 0 ≤ k := by
    by_contra hgt
    have := hfull k (by omega)
    omega
  have hbound : 8 + 4 * DiskManager.findExtent dm.metaData.mem (numExtents dm.metaData.mem) 0 + 4
      ≤ PAGE_SIZE := by
    simp only [PAGE_SIZE, MAX_EXTENTS] at *
    omega
  simp only [allocatePage, hbound, if_true]
  split
  · exact ⟨_, _, rfl⟩
  · exact ⟨_, _, rfl⟩

theorem Allocates.inv {k o : Nat} (h : Allocates dm dm' k o) (hinv : Inv dm) : Inv dm' := by
  have hext := hinv.extents_le
  have hlt := h.extent_lt
  refine ⟨?_, ?_, ?_, ?_, ?_⟩
  · rw [h.extents]
    omega
  · intro j hj
    by_cases hjk : j = k
    · subst hjk
      exact h.bitmap_self
    · rw [h.bitmap_other hj hjk]
      exact hinv.bitmap_inv j hj
  · intro j hj hjb
    rw [h.extents] at hj
    have haddr : bitmapAddr j ≠ bitmapAddr k := fun heq => by
      have := bitmapAddr_inj hjb (EXTENT_BOUND_of_MAX hlt) heq
      omega
    rw [readPhysicalPage, h.file_other _ haddr]
    exact hinv.unopened j (by omega) hjb
  · intro j hj
    rw [h.extent_counter j hj, hinv.extent_used j hj]
    by_cases hjk : j = k
    · subst hjk
      rw [h.used_self, Finset.card_insert_of_notMem h.offset_free, if_pos rfl]
    · rw [h.used_other (EXTENT_BOUND_of_MAX hj) hjk, if_neg hjk, Nat.add_zero]
  · -- Opening extent `k` adds a summand that was zero.
    have hpad : ∑ j ∈ Finset.range (max (numExtents dm.metaData.mem) (k + 1)),
        extentUsedPage dm.metaData.mem j =
        ∑ j ∈ Finset.range (numExtents dm.metaData.mem), extentUsedPage dm.metaData.mem j := by
      symm
      refine Finset.sum_subset (fun j hj => ?_) (fun j hj hnot => ?_)
      · simp only [Finset.mem_range] at *
        omega
      · simp only [Finset.mem_range] at *
        rw [hinv.extent_used j (by omega),
          hinv.used_unopened (by omega) (EXTENT_BOUND_of_MAX (by omega)), Finset.card_empty]
    have hsum : ∑ j ∈ Finset.range (max (numExtents dm.metaData.mem) (k + 1)),
        extentUsedPage dm'.metaData.mem j =
        ∑ j ∈ Finset.range (max (numExtents dm.metaData.mem) (k + 1)),
          (extentUsedPage dm.metaData.mem j + if j = k then 1 else 0) := by
      refine Finset.sum_congr rfl fun j hj => h.extent_counter j ?_
      simp only [Finset.mem_range] at hj
      omega
    have hmem : k ∈ Finset.range (max (numExtents dm.metaData.mem) (k + 1)) := by
      simp only [Finset.mem_range]
      omega
    calc numAllocatedPages dm'.metaData.mem
        = ∑ j ∈ Finset.range (numExtents dm.metaData.mem), extentUsedPage dm.metaData.mem j
            + 1 := by
          rw [h.counter, hinv.allocated]
      _ = ∑ j ∈ Finset.range (max (numExtents dm.metaData.mem) (k + 1)),
            (extentUsedPage dm.metaData.mem j + if j = k then 1 else 0) := by
          rw [Finset.sum_add_distrib, hpad, Finset.sum_ite_eq', if_pos hmem]
      _ = ∑ j ∈ Finset.range (numExtents dm'.metaData.mem), extentUsedPage dm'.metaData.mem j := by
          rw [h.extents, hsum]

/-! ## One call of `DeAllocatePage` -/

/-- Everything freeing the used offset `o` of extent `k` does. -/
structure Frees (dm dm' : DiskManager) (k o : Nat) : Prop where
  extent_open : k < numExtents dm.metaData.mem
  offset_used : o ∈ dm.used k
  used_self : dm'.used k = (dm.used k).erase o
  bitmap_self : BitmapPage.Inv PAGE_SIZE (dm'.bitmap k)
  file_other : ∀ q, q ≠ bitmapAddr k → dm'.file q = dm.file q
  extents : numExtents dm'.metaData.mem = numExtents dm.metaData.mem
  counter : numAllocatedPages dm'.metaData.mem + 1 = numAllocatedPages dm.metaData.mem
  extent_counter : ∀ j, j < MAX_EXTENTS → extentUsedPage dm'.metaData.mem j +
    (if j = k then 1 else 0) = extentUsedPage dm.metaData.mem j

/-- The extent and the offset of a logical page are read off its number. -/
theorem extentIndex_mod {p : PageId} (hp : 0 ≤ p.toInt) :
    sizeT p / BITMAP_SIZE % 2 ^ 32 = sizeT p / BITMAP_SIZE :=
  Nat.mod_eq_of_lt (lt_trans (extentIndex_lt hp) (by decide))

theorem isPageFree_eq_false_iff {p : PageId} (hp : 0 ≤ p.toInt) :
    dm.isPageFree p = false ↔ sizeT p % BITMAP_SIZE ∈ dm.used (sizeT p / BITMAP_SIZE) := by
  have hlt : sizeT p % BITMAP_SIZE < BitmapPage.getMaxSupportedSize PAGE_SIZE :=
    Nat.mod_lt _ (by decide)
  simp only [isPageFree, extentIndex_mod hp, used, bitmap, BitmapPage.mem_bits, hlt, true_and]

/-- Inversion of `DeAllocatePage`: nothing happens to a free page, and a used one is freed. -/
theorem Inv.deAllocatePage_cases (hinv : Inv dm) {p : PageId} (hp : 0 ≤ p.toInt) :
    (dm.isPageFree p = true ∧ dm.deAllocatePage p = .ok dm) ∨
      ∃ dm', dm.deAllocatePage p = .ok dm' ∧
        Frees dm dm' (sizeT p / BITMAP_SIZE) (sizeT p % BITMAP_SIZE) := by
  set k := sizeT p / BITMAP_SIZE with hk
  set o := sizeT p % BITMAP_SIZE with ho
  have hkb : k < EXTENT_BOUND := extentIndex_lt hp
  have hmod : sizeT p / BITMAP_SIZE % 2 ^ 32 = k := extentIndex_mod hp
  have hread : (dm.readPhysicalPage (bitmapAddr k)).mem = dm.bitmap k := rfl
  cases hfree : dm.isPageFree p with
  | true =>
      refine Or.inl ⟨rfl, ?_⟩
      have hbit : BitmapPage.isPageFree (dm.bitmap k) o = true := by
        simp only [isPageFree, hmod] at hfree
        exact hfree
      simp only [deAllocatePage, hmod, ← ho, hread, BitmapPage.deAllocatePage_of_free hbit,
        Bool.false_eq_true, if_false]
  | false =>
      refine Or.inr ?_
      have hused : o ∈ dm.used k := (isPageFree_eq_false_iff hp).mp hfree
      have hopen : k < numExtents dm.metaData.mem := by
        by_contra hge
        rw [hinv.used_unopened (by omega) hkb] at hused
        simp at hused
      have hext := hinv.extents_le
      have hkm : k < MAX_EXTENTS := lt_of_lt_of_le hopen hext
      have hbound : 8 + 4 * k + 4 ≤ PAGE_SIZE := by
        simp only [PAGE_SIZE, MAX_EXTENTS] at *
        omega
      rcases BitmapPage.deAllocatePage_of_set (hinv.bitmap_inv k hkb) (by decide) hused with
        ⟨m', heq, hbinv, hbits⟩
      have hcopy : ∀ i, i < PAGE_SIZE → m' i = (Buf.ofMem PAGE_SIZE m').mem i :=
        fun i hi => (Buf.mem_ofMem_of_lt hi).symm
      have hpos : 0 < (dm.used k).card := Finset.card_pos.mpr ⟨o, hused⟩
      have hcardk : extentUsedPage dm.metaData.mem k = (dm.used k).card := hinv.extent_used k hkm
      have hcardle := card_used_le dm k
      have hcnt := hinv.allocated_le
      -- Both counters are positive, so taking one off does not wrap.
      have hcntpos : 0 < numAllocatedPages dm.metaData.mem := by
        rw [hinv.allocated]
        refine Finset.sum_pos' (fun _ _ => Nat.zero_le _) ⟨k, Finset.mem_range.mpr hopen, ?_⟩
        omega
      refine ⟨_, by
        simp only [deAllocatePage, hmod, ← ho, hread, heq, if_true, hbound]
        rfl, ?_⟩
      refine ⟨hopen, hused, ?_, ?_, ?_, ?_, ?_, ?_⟩
      · simp only [used, bitmap, readPhysicalPage, writePhysicalPage, Function.update_self]
        rw [← BitmapPage.bits_congr hcopy]
        exact hbits
      · simp only [bitmap, readPhysicalPage, writePhysicalPage, Function.update_self]
        exact hbinv.congr hcopy
      · intro q hq
        simp [writePhysicalPage, Function.update_of_ne hq]
      · simp [writePhysicalPage]
      · simp only [writePhysicalPage, numAllocatedPages_setUsed, numAllocatedPages_setAllocated]
        simp only [MAX_VALID_PAGE_ID] at hcnt
        omega
      · intro j hj
        simp only [writePhysicalPage, extentUsedPage_setUsed hj, extentUsedPage_setAllocated hkm,
          extentUsedPage_setAllocated hj]
        by_cases hjk : j = k
        · subst hjk
          simp only [if_true]
          simp only [BITMAP_SIZE] at hcardle
          omega
        · simp [hjk]

theorem Frees.bitmap_other {k o : Nat} (h : Frees dm dm' k o) (hk : k < EXTENT_BOUND) {j : Nat}
    (hj : j < EXTENT_BOUND) (hne : j ≠ k) : dm'.bitmap j = dm.bitmap j := by
  have haddr : bitmapAddr j ≠ bitmapAddr k := fun heq => hne (bitmapAddr_inj hj hk heq)
  simp only [bitmap, readPhysicalPage, h.file_other _ haddr]

theorem Frees.inv {k o : Nat} (h : Frees dm dm' k o) (hinv : Inv dm) : Inv dm' := by
  have hext := hinv.extents_le
  have hopen := h.extent_open
  have hkb : k < EXTENT_BOUND := EXTENT_BOUND_of_MAX (by omega)
  refine ⟨?_, ?_, ?_, ?_, ?_⟩
  · rw [h.extents]
    exact hext
  · intro j hj
    by_cases hjk : j = k
    · subst hjk
      exact h.bitmap_self
    · rw [h.bitmap_other hkb hj hjk]
      exact hinv.bitmap_inv j hj
  · intro j hj hjb
    rw [h.extents] at hj
    have haddr : bitmapAddr j ≠ bitmapAddr k := fun heq => by
      have := bitmapAddr_inj hjb hkb heq
      omega
    rw [readPhysicalPage, h.file_other _ haddr]
    exact hinv.unopened j hj hjb
  · intro j hj
    -- One bit of the extent is cleared and its counter goes down by one.
    have hcnt := h.extent_counter j hj
    have hold := hinv.extent_used j hj
    by_cases hjk : j = k
    · subst hjk
      rw [h.used_self, Finset.card_erase_of_mem h.offset_used]
      simp only [if_true] at hcnt
      omega
    · rw [used, h.bitmap_other hkb (EXTENT_BOUND_of_MAX hj) hjk, ← used]
      simpa [hjk, hold] using hcnt
  · have hsum : ∑ j ∈ Finset.range (numExtents dm.metaData.mem),
        (extentUsedPage dm'.metaData.mem j + if j = k then 1 else 0) =
        ∑ j ∈ Finset.range (numExtents dm.metaData.mem), extentUsedPage dm.metaData.mem j := by
      refine Finset.sum_congr rfl fun j hj => h.extent_counter j ?_
      simp only [Finset.mem_range] at hj
      omega
    rw [Finset.sum_add_distrib, Finset.sum_ite_eq', if_pos (Finset.mem_range.mpr hopen),
      ← hinv.allocated] at hsum
    have hcnt := h.counter
    rw [h.extents]
    omega

/-! ## One call of `WritePage` -/

/-- A data page is neither the meta page nor a bitmap, so `WritePage` keeps all three records. -/
theorem writePage_bitmap {p : PageId} {d : PageData} (h : dm.writePage p d = .ok dm')
    {k : Nat} (hk : k < EXTENT_BOUND) :
    dm'.readPhysicalPage (bitmapAddr k) = dm.readPhysicalPage (bitmapAddr k) := by
  by_cases hp : 0 ≤ p.toInt
  · simp only [writePage, hp, decide_true, assert_true, ok_bind, Except.ok.injEq] at h
    subst h
    simp [readPhysicalPage, writePhysicalPage,
      Function.update_of_ne (mapPageId_ne_bitmapAddr hp hk).symm]
  · simp [writePage, assert, hp] at h

theorem writePage_metaData {p : PageId} {d : PageData} (h : dm.writePage p d = .ok dm') :
    dm'.metaData = dm.metaData := by
  by_cases hp : 0 ≤ p.toInt
  · simp only [writePage, hp, decide_true, assert_true, ok_bind, Except.ok.injEq] at h
    subst h
    rfl
  · simp [writePage, assert, hp] at h

theorem writePage_inv {p : PageId} {d : PageData} (h : dm.writePage p d = .ok dm')
    (hinv : Inv dm) : Inv dm' := by
  have hmeta := writePage_metaData h
  have hbm : ∀ k, k < EXTENT_BOUND → dm'.bitmap k = dm.bitmap k := by
    intro k hk
    rw [bitmap, bitmap, writePage_bitmap h hk]
  refine ⟨?_, ?_, ?_, ?_, ?_⟩
  · rw [hmeta]
    exact hinv.extents_le
  · intro k hk
    rw [hbm k hk]
    exact hinv.bitmap_inv k hk
  · intro k hk hkb
    rw [hmeta] at hk
    rw [writePage_bitmap h hkb]
    exact hinv.unopened k hk hkb
  · intro k hk
    rw [hmeta, used, hbm k (EXTENT_BOUND_of_MAX hk)]
    exact hinv.extent_used k hk
  · rw [hmeta]
    exact hinv.allocated

theorem writePage_isPageFree {p q : PageId} {d : PageData} (h : dm.writePage p d = .ok dm')
    (hq : 0 ≤ q.toInt) : dm'.isPageFree q = dm.isPageFree q := by
  simp only [isPageFree, extentIndex_mod hq, writePage_bitmap h (extentIndex_lt hq)]

/-! ## The operations on logical pages -/

theorem sizeT_page {k o : Nat} (hk : k < MAX_EXTENTS) (ho : o < BITMAP_SIZE) :
    sizeT (Int32.ofNat (o + BITMAP_SIZE * k)) = o + BITMAP_SIZE * k := by
  refine sizeT_ofNat ?_
  simp only [MAX_EXTENTS, BITMAP_SIZE] at *
  omega

theorem page_nonneg {k o : Nat} (hk : k < MAX_EXTENTS) (ho : o < BITMAP_SIZE) :
    0 ≤ (Int32.ofNat (o + BITMAP_SIZE * k)).toInt := by
  rw [ofNat_toInt]
  · omega
  · simp only [MAX_EXTENTS, BITMAP_SIZE] at *
    omega

/-- The page returned lies in extent `k` at offset `o`. -/
theorem page_extent {k o : Nat} (hk : k < MAX_EXTENTS) (ho : o < BITMAP_SIZE) :
    sizeT (Int32.ofNat (o + BITMAP_SIZE * k)) / BITMAP_SIZE = k ∧
      sizeT (Int32.ofNat (o + BITMAP_SIZE * k)) % BITMAP_SIZE = o := by
  rw [sizeT_page hk ho]
  simp only [BITMAP_SIZE] at *
  omega

theorem eq_of_false_iff {b c : Bool} (h : b = false ↔ c = false) : b = c := by
  cases b <;> cases c <;> simp_all

/-- `AllocatePage` takes a free page and changes the state of no other. -/
theorem Allocates.isPageFree {k o : Nat} (h : Allocates dm dm' k o) {q : PageId}
    (hq : 0 ≤ q.toInt) :
    dm'.isPageFree q =
      (dm.isPageFree q && !decide (q = Int32.ofNat (o + BITMAP_SIZE * k))) := by
  have hpe := page_extent h.extent_lt h.offset_lt
  have hqb := extentIndex_lt hq
  refine eq_of_false_iff ?_
  rw [isPageFree_eq_false_iff hq]
  by_cases hqp : q = Int32.ofNat (o + BITMAP_SIZE * k)
  · subst hqp
    rw [hpe.1, hpe.2, h.used_self]
    simp
  · simp only [hqp, decide_false, Bool.not_false, Bool.and_true]
    rw [isPageFree_eq_false_iff hq]
    by_cases hext : sizeT q / BITMAP_SIZE = k
    · rw [hext, h.used_self, Finset.mem_insert]
      constructor
      · rintro (heq | hmem)
        · -- Same extent and same offset is the same page.
          exfalso
          refine hqp (sizeT_inj hq (page_nonneg h.extent_lt h.offset_lt) ?_)
          rw [sizeT_page h.extent_lt h.offset_lt, ← heq, ← hext]
          exact (Nat.mod_add_div _ _).symm
        · exact hmem
      · exact Or.inr
    · rw [h.used_other hqb hext]

theorem Allocates.page_free {k o : Nat} (h : Allocates dm dm' k o) :
    dm.isPageFree (Int32.ofNat (o + BITMAP_SIZE * k)) = true := by
  have hpe := page_extent h.extent_lt h.offset_lt
  have hnot : ¬dm.isPageFree (Int32.ofNat (o + BITMAP_SIZE * k)) = false := by
    rw [isPageFree_eq_false_iff (page_nonneg h.extent_lt h.offset_lt), hpe.1, hpe.2]
    exact h.offset_free
  simpa using hnot

/-- `DeAllocatePage` of a used page frees it and changes the state of no other. -/
theorem Frees.isPageFree {p q : PageId} (hp : 0 ≤ p.toInt) (hq : 0 ≤ q.toInt)
    (h : Frees dm dm' (sizeT p / BITMAP_SIZE) (sizeT p % BITMAP_SIZE)) :
    dm'.isPageFree q = (dm.isPageFree q || decide (q = p)) := by
  have hpb := extentIndex_lt hp
  have hqb := extentIndex_lt hq
  refine eq_of_false_iff ?_
  rw [isPageFree_eq_false_iff hq]
  by_cases hqp : q = p
  · subst hqp
    rw [h.used_self]
    simp
  · simp only [hqp, decide_false, Bool.or_false]
    rw [isPageFree_eq_false_iff hq]
    by_cases hext : sizeT q / BITMAP_SIZE = sizeT p / BITMAP_SIZE
    · -- Another page of the extent stands at another offset.
      have hne : sizeT q % BITMAP_SIZE ≠ sizeT p % BITMAP_SIZE := by
        intro hmod
        refine hqp (sizeT_inj hq hp ?_)
        rw [← Nat.div_add_mod (sizeT q) BITMAP_SIZE, ← Nat.div_add_mod (sizeT p) BITMAP_SIZE,
          hext, hmod]
      rw [hext, h.used_self, Finset.mem_erase]
      simp [hne]
    · rw [used, h.bitmap_other hpb hqb hext, ← used]

end DiskManager
end MiniSQL
