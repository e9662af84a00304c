import MiniSQL.Storage.PhysicalDisk

/-!
# UnreadBitmap — the extent whose bitmap is never read back

The bitmap of extent 17 is physical page 555986, the first one past 2 GiB.  `AllocatePage` writes
it when it opens the extent, and returns the first page there.  The next call fails the stream in
reading it, takes it for zeros and returns the same page again; from then on no bitmap is read.
So the page ids handed out repeat from there on, but each can still be read and written as far as
the pool is concerned (`Served`).
-/

namespace MiniSQL
namespace PhysicalDisk

open Lib DiskFileMetaPage DiskManager

variable {pd pd' : PhysicalDisk} {p q : PageId} {k : Nat} {page : PageData} {b : Bool}

/-- The first extent with a bitmap that cannot be read. -/
def UNREAD_EXTENT : Nat := 17

/-- How far a working stream can have got: the extent is not open, or its bitmap is written and one
page of it counted.  Nothing lies behind that page. -/
structure Early (pd : PhysicalDisk) : Prop where
  extents_le : numExtents pd.metaData.mem ≤ UNREAD_EXTENT + 1
  counter : UNREAD_EXTENT < numExtents pd.metaData.mem →
    extentUsedPage pd.metaData.mem UNREAD_EXTENT = 1
  written : UNREAD_EXTENT < numExtents pd.metaData.mem →
    (bitmapPage UNREAD_EXTENT + 1) * PAGE_SIZE ≤ pd.dbIo.size
  size_le : pd.dbIo.size ≤ (bitmapPage UNREAD_EXTENT + 2) * PAGE_SIZE

/-- The disk serves its pages, or the stream has failed. -/
structure Served (pd : PhysicalDisk) : Prop where
  inv : Inv pd
  early : pd.dbIo.fail = false → Early pd

/-- A page id that `AllocatePage` may have returned. -/
def Known (pd : PhysicalDisk) (p : PageId) : Prop :=
  0 ≤ p.toInt ∧ (pd.dbIo.fail = false → sizeT p ≤ BITMAP_SIZE * UNREAD_EXTENT)

theorem fresh_served : Served fresh := by
  have hmeta : fresh.metaData = Buf.zero PAGE_SIZE := rfl
  have hzero : numExtents fresh.metaData.mem = 0 := by
    rw [hmeta, numExtents, Buf.u32_zero]
  refine ⟨fresh_inv, fun _ => ⟨?_, fun h => ?_, fun h => ?_, ?_⟩⟩
  · rw [hzero]
    exact Nat.zero_le _
  · rw [hzero] at h
    cases h
  · rw [hzero] at h
    cases h
  · have hsize : fresh.dbIo.size = 0 := rfl
    rw [hsize]
    exact Nat.zero_le _

/-! ## Reading and writing pages -/

/-- Only a stream that has not failed before can be good. -/
theorem good_of_stream (hb : pd.dbIo.fail = true → b = true) (hgood : b = false) :
    pd.dbIo.fail = false := by
  by_contra hfail
  rw [hb (by simpa using hfail)] at hgood
  cases hgood

theorem Served.stream (h : Served pd) (hb : pd.dbIo.fail = true → b = true) :
    Served { pd with dbIo := { pd.dbIo with fail := b } } := by
  refine ⟨h.inv.stream hb, fun hgood => ?_⟩
  have hearly := h.early (good_of_stream hb hgood)
  exact ⟨hearly.extents_le, hearly.counter, hearly.written, hearly.size_le⟩

theorem Known.stream (h : Known pd p) (hb : pd.dbIo.fail = true → b = true)
    (hfail : pd'.dbIo.fail = b) : Known pd' p :=
  ⟨h.1, fun hgood => h.2 (good_of_stream hb (hfail.symm.trans hgood))⟩

theorem Served.readPage (h : Served pd) (hp : Known pd p) :
    ∃ pageData pd', pd.readPage p = .ok (pageData, pd') ∧ Served pd' ∧
      ∀ q, Known pd q → Known pd' q := by
  rcases PhysicalFile.readPhysicalPage_state pd.dbIo (mapPageId p) with ⟨b, hstate, hb⟩
  refine ⟨(pd.dbIo.readPhysicalPage (mapPageId p)).1,
    { pd with dbIo := { pd.dbIo with fail := b } }, ?_, h.stream hb, fun q hq => hq.stream hb rfl⟩
  rw [← hstate]
  simp only [PhysicalDisk.readPage, PhysicalFile.readPage, hp.1, decide_true, assert_true, ok_bind]

/-- Data pages up to the first of the extent lie between the bitmaps. -/
theorem physicalPage_known (hle : sizeT p ≤ BITMAP_SIZE * UNREAD_EXTENT) :
    PhysicalFile.physicalPage p ≤ bitmapPage UNREAD_EXTENT + 1 ∧
      ∀ k, PhysicalFile.physicalPage p ≠ bitmapPage k := by
  simp only [PhysicalFile.physicalPage, bitmapPage, BITMAP_SIZE, UNREAD_EXTENT] at *
  exact ⟨by omega, fun k => by omega⟩

theorem Served.writePage (h : Served pd) (hp : Known pd p) (pageData : PageData) :
    ∃ pd', pd.writePage p pageData = .ok pd' ∧ Served pd' ∧ ∀ q, Known pd q → Known pd' q := by
  have hok : pd.writePage p pageData =
      .ok { pd with dbIo := pd.dbIo.writePhysicalPage (mapPageId p) pageData } := by
    simp only [PhysicalDisk.writePage, PhysicalFile.writePage, hp.1, decide_true, assert_true,
      ok_bind]
  refine ⟨_, hok, ?_⟩
  cases hfail : pd.dbIo.fail with
  | true =>
      rw [PhysicalFile.writePhysicalPage_of_fail hfail]
      exact ⟨h, fun _ hq => hq⟩
  | false =>
      have hearly := h.early hfail
      have hsound := h.inv.sound hfail
      have hle := hp.2 hfail
      have haddr : (mapPageId p).toInt = PhysicalFile.physicalPage p := by
        refine PhysicalFile.mapPageId_toInt ⟨hp.1, lt_of_le_of_lt hle ?_⟩
        decide
      rcases physicalPage_known hle with ⟨hlast, hnot⟩
      have hpages := PhysicalFile.pageAt_writePhysicalPage hsound haddr pageData
      -- No bitmap is overwritten.
      have hbitmap : ∀ k, (pd.dbIo.writePhysicalPage (mapPageId p) pageData).pageAt
          (bitmapPage k) = pd.dbIo.pageAt (bitmapPage k) := by
        intro k
        rw [hpages, if_neg (hnot k).symm]
      have hsize : (pd.dbIo.writePhysicalPage (mapPageId p) pageData).size =
          max pd.dbIo.size (PhysicalFile.physicalPage p * PAGE_SIZE + PAGE_SIZE) := by
        rw [PhysicalFile.writePhysicalPage_good hsound haddr]
      refine ⟨⟨⟨h.inv.extents_le, h.inv.counter_le, h.inv.unopened,
        fun _ => PhysicalFile.writePhysicalPage_sound hsound haddr pageData, fun k hk => ?_,
        fun k hk => ?_⟩, fun _ => ⟨hearly.extents_le, hearly.counter, fun hopen => ?_, ?_⟩⟩,
        fun q hq => ⟨hq.1, fun _ => hq.2 hfail⟩⟩
      · rw [bitmap, hbitmap]
        exact h.inv.bitmap_inv k hk
      · rw [used, bitmap, hbitmap]
        exact h.inv.used_le k hk
      · rw [hsize]
        exact le_trans (hearly.written hopen) (le_max_left _ _)
      · rw [hsize]
        refine max_le hearly.size_le ?_
        simp only [PAGE_SIZE]
        omega

/-! ## Allocating pages -/

/-- With the extent open, its bitmap is taken for zeros, and the stream has failed. -/
theorem Takes.unread (ht : Takes pd pd' UNREAD_EXTENT page b) (h : Served pd)
    (hopen : UNREAD_EXTENT < numExtents pd.metaData.mem) :
    page = Buf.zero PAGE_SIZE ∧ b = true := by
  have hread := ht.read hopen
  have haddr := bitmapAddr_page ht.extent_lt
  rw [PhysicalFile.eq_ofNat haddr] at hread
  cases hfail : pd.dbIo.fail with
  | true =>
      rw [PhysicalFile.readPhysicalPage_of_fail hfail, Prod.mk.injEq] at hread
      have hb := congrArg PhysicalFile.fail hread.2
      exact ⟨hread.1.symm, hb.symm.trans hfail⟩
  | false =>
      have hearly := h.early hfail
      have hsound := h.inv.sound hfail
      have hwritten := hearly.written hopen
      have hle := hearly.size_le
      have hoffset : PhysicalFile.asInt (bitmapPage UNREAD_EXTENT * PAGE_SIZE) = -2017648640 := by
        decide
      -- The file ends behind the bitmap or behind the page after it.
      have hsize : PhysicalFile.asInt pd.dbIo.size = -2017644544 ∨
          PhysicalFile.asInt pd.dbIo.size = -2017640448 := by
        have hwhole := hsound.whole
        rw [PhysicalFile.asInt_eq, Int.bmod_def]
        simp only [bitmapPage, BITMAP_SIZE, UNREAD_EXTENT, PAGE_SIZE] at *
        split <;> omega
      rcases PhysicalFile.readPhysicalPage_cases hsound (bitmapPage UNREAD_EXTENT) with
        ⟨hfinds, _⟩ | ⟨_, hmiss⟩
      · rw [PhysicalFile.Finds, hoffset] at hfinds
        exact absurd hfinds.1 (by decide)
      · rw [hmiss, Prod.mk.injEq] at hread
        have hb := congrArg PhysicalFile.fail hread.2
        refine ⟨hread.1.symm, hb.symm.trans (decide_eq_true ?_)⟩
        rw [hoffset]
        omega

/-- The first page of an extent is the one a cleared bitmap offers. -/
theorem nextFreePage_zero : BitmapPage.nextFreePage (Buf.zero PAGE_SIZE).mem = 0 :=
  Buf.u32_zero ..

/-- A working stream never settles on an extent past the first unread one. -/
theorem Takes.extent_le (ht : Takes pd pd' k page b) (h : Served pd)
    (hfail : pd.dbIo.fail = false) : k ≤ UNREAD_EXTENT := by
  have hearly := h.early hfail
  rcases h.inv.findExtent with ⟨hle, hfull, _⟩
  rw [← ht.extent] at hle hfull
  by_contra hlt
  have hext := hearly.extents_le
  have hopen : UNREAD_EXTENT < numExtents pd.metaData.mem := by omega
  have hcount := hfull UNREAD_EXTENT (Nat.lt_of_not_le hlt)
  rw [h.inv.getExtentUsedPage (by decide), hearly.counter hopen] at hcount
  exact absurd hcount (by decide)

theorem Takes.served (ht : Takes pd pd' k page b) (h : Served pd) :
    Served pd' ∧
      Known pd' (Int32.ofNat (BitmapPage.nextFreePage page.mem + BITMAP_SIZE * k)) ∧
      ∀ q, Known pd q → Known pd' q := by
  have hclear : pd.dbIo.fail = false → 32 < k → Clear pd := by
    intro hfail hk
    have hle := ht.extent_le h hfail
    simp only [UNREAD_EXTENT] at hle
    omega
  have hkeep := (ht.source h.inv hclear).2
  have ho := ht.offset_lt h.inv hclear
  have hnonneg := page_nonneg ht.extent_lt ho
  have hinv' := ht.inv h.inv hclear
  have hsizeT := sizeT_page ht.extent_lt ho
  have hk := ht.extent_lt
  -- The stream after the call: it works only when it worked before and the bitmap was read.
  have hgood : pd'.dbIo.fail = false → b = false := by
    intro hfail
    cases hb : b with
    | false =>
        rfl
    | true =>
        rw [ht.dbIo, hb, PhysicalFile.writePhysicalPage_of_fail rfl] at hfail
        cases hfail
  by_cases hfail : pd'.dbIo.fail = false
  · have hb := hgood hfail
    have hold := good_of_stream hkeep hb
    have hearly := h.early hold
    have hle := ht.extent_le h hold
    have hsound : PhysicalFile.Sound { pd.dbIo with fail := b } := by
      rw [hb, ← hold]
      exact h.inv.sound hold
    have hsize : pd'.dbIo.size = max pd.dbIo.size (bitmapPage k * PAGE_SIZE + PAGE_SIZE) := by
      rw [ht.dbIo, PhysicalFile.writePhysicalPage_good hsound (bitmapAddr_page hk)]
    -- Extent 17 is only opened: once it is open the stream fails.
    have hnew : k = UNREAD_EXTENT → numExtents pd.metaData.mem ≤ UNREAD_EXTENT := by
      rintro rfl
      by_contra hopen
      rw [(ht.unread h (Nat.lt_of_not_le hopen)).2] at hb
      cases hb
    have hoffset : k = UNREAD_EXTENT → BitmapPage.nextFreePage page.mem = 0 := by
      intro hk17
      rw [(ht.opened (hk17 ▸ hnew hk17)).1, nextFreePage_zero]
    have hext := hearly.extents_le
    have hextents := ht.extents
    have hcounter := ht.extent_counter UNREAD_EXTENT (by decide)
    refine ⟨⟨hinv', fun _ => ⟨?_, fun hopen => ?_, fun hopen => ?_, ?_⟩⟩, ⟨hnonneg, fun _ => ?_⟩,
      fun q hq => ⟨hq.1, fun _ => hq.2 hold⟩⟩
    · omega
    · rw [hcounter]
      by_cases hk17 : k = UNREAD_EXTENT
      · rw [if_pos hk17.symm, h.inv.unopened _ (by decide) (hnew hk17)]
      · rw [if_neg (Ne.symm hk17), hearly.counter (by omega)]
    · rw [hsize]
      by_cases hk17 : k = UNREAD_EXTENT
      · rw [hk17, Nat.add_mul, Nat.one_mul]
        exact le_max_right _ _
      · exact le_trans (hearly.written (by omega)) (le_max_left _ _)
    · rw [hsize]
      refine max_le hearly.size_le ?_
      simp only [bitmapPage, BITMAP_SIZE, UNREAD_EXTENT, PAGE_SIZE] at *
      omega
    · rw [hsizeT]
      by_cases hk17 : k = UNREAD_EXTENT
      · rw [hoffset hk17, hk17, Nat.zero_add]
      · simp only [BITMAP_SIZE, UNREAD_EXTENT] at *
        omega
  · exact ⟨⟨hinv', fun hgood => absurd hgood hfail⟩, ⟨hnonneg, fun hgood => absurd hgood hfail⟩,
      fun q hq => ⟨hq.1, fun hgood => absurd hgood hfail⟩⟩

theorem Served.allocatePage (h : Served pd) (hok : pd.allocatePage = .ok (p, pd')) :
    Served pd' ∧ Known pd' p ∧ ∀ q, Known pd q → Known pd' q := by
  rcases h.inv.allocated hok with ⟨k, page, b, ht, rfl⟩
  exact ht.served h

/-! ## Allocations alone -/

/-- `m` pages were allocated, in their order, and none was freed. -/
structure Filled (pd : PhysicalDisk) (m : Nat) : Prop where
  counts : Counts pd m
  dense : ∃ dm, Mirrors pd dm ∧ DiskManager.Dense dm m

theorem fresh_filled : Filled fresh 0 :=
  ⟨fresh_counts, DiskManager.fresh, fresh_mirrors, DiskManager.fresh_dense⟩

/-- Up to the unread extent the page returned is a new one each time. -/
theorem Filled.allocatePage {m : Nat} (h : Filled pd m) (hm : m < BITMAP_SIZE * UNREAD_EXTENT) :
    ∃ pd', pd.allocatePage = .ok (Int32.ofNat m, pd') ∧ Filled pd' (m + 1) := by
  have hcap : m < MAX_VALID_PAGE_ID := lt_trans hm (by decide)
  rcases h.dense with ⟨dm, hmirrors, hdense⟩
  rcases hdense.allocatePage_ok hcap with ⟨dm', hok, hdense'⟩
  have hlow : sizeT (Int32.ofNat m) / BITMAP_SIZE ≤ 16 := by
    rw [sizeT_ofNat (lt_trans hcap (by decide))]
    simp only [BITMAP_SIZE, UNREAD_EXTENT] at *
    omega
  rcases hmirrors.allocatePage hdense.inv hok hlow with ⟨pd', halloc, hmirrors'⟩
  rcases h.counts.allocatePage hcap with ⟨p, pd₁, halloc₁, hcounts⟩
  rw [halloc, Except.ok.injEq, Prod.mk.injEq] at halloc₁
  obtain rfl := halloc₁.2
  exact ⟨pd', halloc, hcounts, dm', hmirrors', hdense'⟩

/-- While the unread extent is counted up, `AllocatePage` returns its first page every time. -/
theorem Counts.allocatePage_unread {m : Nat} (hcounts : Counts pd m) (h : Served pd)
    (hm : m / BITMAP_SIZE = UNREAD_EXTENT) :
    ∃ pd', pd.allocatePage = .ok (Int32.ofNat (BITMAP_SIZE * UNREAD_EXTENT), pd') ∧
      Counts pd' (m + 1) := by
  have hcap : m < MAX_VALID_PAGE_ID := by
    simp only [BITMAP_SIZE, UNREAD_EXTENT, MAX_VALID_PAGE_ID] at *
    omega
  rcases hcounts.allocatePage hcap with ⟨p, pd', hok, hcounts'⟩
  rcases h.inv.allocated hok with ⟨k, page, b, ht, rfl⟩
  obtain rfl : k = UNREAD_EXTENT := ht.extent.trans ((hcounts.findExtent hcap).trans hm)
  have hzero : page = Buf.zero PAGE_SIZE := by
    rcases Nat.lt_or_ge UNREAD_EXTENT (numExtents pd.metaData.mem) with hopen | hnew
    · exact (ht.unread h hopen).1
    · exact (ht.opened hnew).1
  rw [hzero, nextFreePage_zero, Nat.zero_add] at hok
  exact ⟨pd', hok, hcounts'⟩

end PhysicalDisk
end MiniSQL
