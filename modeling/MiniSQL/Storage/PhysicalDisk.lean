import MiniSQL.Storage.AllocatorRuns
import MiniSQL.Storage.PhysicalFile

/-!
# PhysicalDisk — the disk manager on the bytes of its file

The calls of `storage/disk_manager.cpp` once more, now on `PhysicalFile`, where a read can miss its
page and leave the stream failed.  Below 2 GiB they do what `DiskManager` does (`Mirrors`).  Past
that the bitmap of an extent is read as zeros, its bits no longer tell which pages are in use, and
only the counters of the meta page, which are held in memory, go on rising.
-/

namespace MiniSQL

open Lib

structure PhysicalDisk where
  dbIo : PhysicalFile
  metaData : PageData

namespace PhysicalDisk

open DiskFileMetaPage DiskManager

/-! ## The model -/

/-- The constructor on this file: the meta page is read in. -/
def openFile (dbIo : PhysicalFile) : PhysicalDisk :=
  let (metaData, dbIo) := dbIo.readPhysicalPage META_PAGE_ID
  { dbIo := dbIo, metaData := metaData }

/-- A manager constructed on a new file. -/
def fresh : PhysicalDisk :=
  openFile PhysicalFile.fresh

def readPage (pd : PhysicalDisk) (logicalPageId : PageId) : Result (PageData × PhysicalDisk) := do
  let (pageData, dbIo) ← pd.dbIo.readPage logicalPageId
  .ok (pageData, { pd with dbIo := dbIo })

def writePage (pd : PhysicalDisk) (logicalPageId : PageId) (pageData : PageData) :
    Result PhysicalDisk := do
  let dbIo ← pd.dbIo.writePage logicalPageId pageData
  .ok { pd with dbIo := dbIo }

def allocatePage (pd : PhysicalDisk) : Result (PageId × PhysicalDisk) :=
  let extentNums := numExtents pd.metaData.mem
  let extentIndex := findExtent pd.metaData.mem extentNums 0
  let meta₁ := pd.metaData.setU32 0 (numAllocatedPages pd.metaData.mem + 1)
  let bmAddr := bitmapAddr extentIndex
  -- `extent_used_page_[extentIndex]` lies past the end of the meta page from index 1022 on.
  if 8 + 4 * extentIndex + 4 ≤ PAGE_SIZE then
    if extentIndex < extentNums then
      let (page, dbIo) := pd.dbIo.readPhysicalPage bmAddr
      let (_, ofs, currBMap) := BitmapPage.allocatePage PAGE_SIZE page.mem
      let meta₂ := meta₁.setU32 (8 + 4 * extentIndex) (extentUsedPage meta₁.mem extentIndex + 1)
      .ok (Int32.ofNat (ofs + BITMAP_SIZE * extentIndex),
        { dbIo := dbIo.writePhysicalPage bmAddr (Buf.ofMem PAGE_SIZE currBMap)
          metaData := meta₂ })
    else
      let meta₂ := meta₁.setU32 4 (numExtents meta₁.mem + 1)
      let meta₃ := meta₂.setU32 (8 + 4 * extentIndex) (extentUsedPage meta₂.mem extentIndex + 1)
      let (_, ofs, newBMap) :=
        BitmapPage.allocatePage PAGE_SIZE (Buf.zero PAGE_SIZE).mem
      .ok (Int32.ofNat (ofs + BITMAP_SIZE * extentIndex),
        { dbIo := pd.dbIo.writePhysicalPage bmAddr (Buf.ofMem PAGE_SIZE newBMap)
          metaData := meta₃ })
  else
    .error .outOfBounds

def deAllocatePage (pd : PhysicalDisk) (logicalPageId : PageId) : Result PhysicalDisk :=
  let extentIndex := sizeT logicalPageId / BITMAP_SIZE % 2 ^ 32
  let ofs := sizeT logicalPageId % BITMAP_SIZE
  let (page, dbIo) := pd.dbIo.readPhysicalPage (bitmapAddr extentIndex)
  let (done, currBMap) := BitmapPage.deAllocatePage page.mem ofs
  if done then
    if 8 + 4 * extentIndex + 4 ≤ PAGE_SIZE then
      let meta₁ := pd.metaData.setU32 0 (numAllocatedPages pd.metaData.mem + (2 ^ 32 - 1))
      .ok
        { dbIo := dbIo.writePhysicalPage (bitmapAddr extentIndex) (Buf.ofMem PAGE_SIZE currBMap)
          metaData := meta₁.setU32 (8 + 4 * extentIndex)
            (extentUsedPage meta₁.mem extentIndex + (2 ^ 32 - 1)) }
    else
      .error .outOfBounds
  else
    .ok { pd with dbIo := dbIo }

def isPageFree (pd : PhysicalDisk) (logicalPageId : PageId) : Bool × PhysicalDisk :=
  let extentIndex := sizeT logicalPageId / BITMAP_SIZE % 2 ^ 32
  let ofs := sizeT logicalPageId % BITMAP_SIZE
  let (page, dbIo) := pd.dbIo.readPhysicalPage (bitmapAddr extentIndex)
  (BitmapPage.isPageFree page.mem ofs, { pd with dbIo := dbIo })

/-! ## Bitmaps in the file -/

variable {pd pd' : PhysicalDisk} {p : PageId} {k j : Nat}

/-- The number of the physical page that holds the bitmap of extent `k`. -/
def bitmapPage (k : Nat) : Nat :=
  (BITMAP_SIZE + 1) * k + 1

/-- What the file holds as the bitmap of extent `k`, whether it can be read or not. -/
def bitmap (pd : PhysicalDisk) (k : Nat) : PageData :=
  pd.dbIo.pageAt (bitmapPage k)

/-- The offsets in use in extent `k`, as its bitmap has them. -/
def used (pd : PhysicalDisk) (k : Nat) : Finset Nat :=
  BitmapPage.bits PAGE_SIZE (pd.bitmap k).mem

/-- No counter exceeds the size of an extent, and each is at least what its bitmap says: the
counters go on rising where the bitmap can no longer be read. -/
structure Inv (pd : PhysicalDisk) : Prop where
  extents_le : numExtents pd.metaData.mem ≤ MAX_EXTENTS
  counter_le : ∀ k, k < MAX_EXTENTS → extentUsedPage pd.metaData.mem k ≤ BITMAP_SIZE
  unopened : ∀ k, k < MAX_EXTENTS → numExtents pd.metaData.mem ≤ k →
    extentUsedPage pd.metaData.mem k = 0
  sound : pd.dbIo.fail = false → pd.dbIo.Sound
  bitmap_inv : ∀ k, k < MAX_EXTENTS → BitmapPage.Inv PAGE_SIZE (pd.bitmap k).mem
  used_le : ∀ k, k < MAX_EXTENTS → (pd.used k).card ≤ extentUsedPage pd.metaData.mem k

/-- No page but the bitmaps was ever written. -/
def Clear (pd : PhysicalDisk) : Prop :=
  ∀ i, (∀ k, i ≠ bitmapPage k) → pd.dbIo.pageAt i = Buf.zero PAGE_SIZE

theorem bitmapPage_inj (h : bitmapPage j = bitmapPage k) : j = k := by
  simp only [bitmapPage, BITMAP_SIZE] at h
  omega

theorem bitmapAddr_page (hk : k < MAX_EXTENTS) : (bitmapAddr k).toInt = bitmapPage k := by
  refine ofNat_toInt ?_
  simp only [MAX_EXTENTS] at hk
  simp only [BITMAP_SIZE]
  omega

/-- The read path tells pages apart by 20 bits.  From extent 33 on these are not the number of a
bitmap. -/
theorem bitmapPage_aliases (hk : k < EXTENT_BOUND) (hbig : 32 < k) (j : Nat) :
    bitmapPage k % 2 ^ 20 ≠ bitmapPage j := by
  intro h
  simp only [EXTENT_BOUND] at hk
  simp only [bitmapPage, BITMAP_SIZE] at h
  omega

theorem fresh_pageAt (i : Nat) : fresh.dbIo.pageAt i = Buf.zero PAGE_SIZE :=
  rfl

theorem fresh_clear : Clear fresh :=
  fun i _ => fresh_pageAt i

theorem fresh_inv : Inv fresh := by
  have hmeta : fresh.metaData = Buf.zero PAGE_SIZE := rfl
  have hbitmap : ∀ k, fresh.bitmap k = Buf.zero PAGE_SIZE := fun _ => rfl
  refine ⟨?_, fun k _ => ?_, fun k _ _ => ?_, fun _ => PhysicalFile.fresh_sound, fun k _ => ?_,
    fun k _ => ?_⟩
  · rw [hmeta, numExtents, Buf.u32_zero]
    exact Nat.zero_le _
  · rw [hmeta, extentUsedPage, Buf.u32_zero]
    exact Nat.zero_le _
  · rw [hmeta, extentUsedPage, Buf.u32_zero]
  · rw [hbitmap]
    exact BitmapPage.inv_zero (by decide)
  · rw [used, hbitmap, BitmapPage.bits_zero, Finset.card_empty]
    exact Nat.zero_le _

/-- Reading the bitmap of an extent delivers it and leaves the stream as it is, or it delivers
zeros.  An extent from 33 on may also be read as another page, so all others have to be clear. -/
theorem Inv.read_bitmap (hinv : Inv pd) (hk : k < EXTENT_BOUND)
    (hclear : pd.dbIo.fail = false → 32 < k → Clear pd) :
    (k ≤ 32 ∧ pd.dbIo.Sound ∧
        pd.dbIo.readPhysicalPage (bitmapAddr k) = (pd.bitmap k, pd.dbIo)) ∨
      ∃ b, (pd.dbIo.fail = true → b = true) ∧
        pd.dbIo.readPhysicalPage (bitmapAddr k) =
          (Buf.zero PAGE_SIZE, { pd.dbIo with fail := b }) := by
  cases hfail : pd.dbIo.fail with
  | true =>
      refine .inr ⟨true, fun _ => rfl, ?_⟩
      rw [PhysicalFile.readPhysicalPage_of_fail hfail, ← hfail]
  | false =>
      rcases PhysicalFile.readPhysicalPage_cases (hinv.sound hfail) (bitmapPage k) with
        ⟨_, hread⟩ | ⟨_, hread⟩
      · by_cases hsmall : k ≤ 32
        · have hmod : bitmapPage k % 2 ^ 20 = bitmapPage k := by
            simp only [bitmapPage, BITMAP_SIZE]
            omega
          rw [hmod] at hread
          exact .inl ⟨hsmall, hinv.sound hfail, hread⟩
        · have hzero := hclear hfail (Nat.lt_of_not_le hsmall) (bitmapPage k % 2 ^ 20)
            (bitmapPage_aliases hk (Nat.lt_of_not_le hsmall))
          rw [hzero] at hread
          refine .inr ⟨false, fun h => h, ?_⟩
          rw [← hfail]
          exact hread
      · exact .inr ⟨_, fun h => absurd h Bool.false_ne_true, hread⟩

/-! ## One call of `AllocatePage` -/

/-- Everything a call of `AllocatePage` does that settles on extent `k` and finds `page` for its
bitmap, with the stream in the state `b` after that. -/
structure Takes (pd pd' : PhysicalDisk) (k : Nat) (page : PageData) (b : Bool) : Prop where
  extent : k = findExtent pd.metaData.mem (numExtents pd.metaData.mem) 0
  extent_lt : k < MAX_EXTENTS
  read : k < numExtents pd.metaData.mem →
    pd.dbIo.readPhysicalPage (bitmapAddr k) = (page, { pd.dbIo with fail := b })
  opened : numExtents pd.metaData.mem ≤ k → page = Buf.zero PAGE_SIZE ∧ b = pd.dbIo.fail
  dbIo : pd'.dbIo = PhysicalFile.writePhysicalPage { pd.dbIo with fail := b } (bitmapAddr k)
    (Buf.ofMem PAGE_SIZE (BitmapPage.allocatePage PAGE_SIZE page.mem).2.2)
  extents : numExtents pd'.metaData.mem = max (numExtents pd.metaData.mem) (k + 1)
  extent_counter : ∀ j, j < MAX_EXTENTS → extentUsedPage pd'.metaData.mem j =
    extentUsedPage pd.metaData.mem j + if j = k then 1 else 0

/-- The extent `AllocatePage` settles on: the counters of all lower ones are at the size of an
extent, and its own is below. -/
theorem Inv.findExtent (hinv : Inv pd) :
    let k := findExtent pd.metaData.mem (numExtents pd.metaData.mem) 0
    k ≤ numExtents pd.metaData.mem ∧
      (∀ j, j < k → getExtentUsedPage pd.metaData.mem j = BITMAP_SIZE) ∧
      getExtentUsedPage pd.metaData.mem k < BITMAP_SIZE := by
  intro k
  rcases findExtent_spec pd.metaData.mem (numExtents pd.metaData.mem) 0 with ⟨_, hle, hfull, hroom⟩
  have hle' : k ≤ numExtents pd.metaData.mem := by omega
  refine ⟨hle', fun j hj => le_antisymm ?_ (hfull j (Nat.zero_le j) hj), ?_⟩
  · rw [getExtentUsedPage]
    split
    · exact Nat.zero_le _
    · exact hinv.counter_le j (lt_of_lt_of_le (lt_of_lt_of_le hj hle') hinv.extents_le)
  · by_cases hopen : k < numExtents pd.metaData.mem
    · exact hroom (by omega)
    · rw [getExtentUsedPage, if_pos (Nat.le_of_not_lt hopen)]
      decide

/-- A counter of the table that is read off the meta page. -/
theorem Inv.getExtentUsedPage (hinv : Inv pd) (hk : k < MAX_EXTENTS) :
    getExtentUsedPage pd.metaData.mem k = extentUsedPage pd.metaData.mem k := by
  rw [DiskFileMetaPage.getExtentUsedPage]
  split
  · rename_i hle
    exact (hinv.unopened k hk hle).symm
  · rfl

theorem allocatePage_offset (m : Mem) :
    (BitmapPage.allocatePage PAGE_SIZE m).2.1 = BitmapPage.nextFreePage m := by
  simp only [BitmapPage.allocatePage]
  split
  · split
    · split <;> rfl
    · rfl
  · rfl

/-- `AllocatePage` returns exactly when the extent it settles on has a counter in the table. -/
theorem allocatePage_cases (hinv : Inv pd) :
    (findExtent pd.metaData.mem (numExtents pd.metaData.mem) 0 < MAX_EXTENTS ∧
        ∃ pd' k page b, Takes pd pd' k page b ∧ pd.allocatePage =
          .ok (Int32.ofNat (BitmapPage.nextFreePage page.mem + BITMAP_SIZE * k), pd')) ∨
      MAX_EXTENTS ≤ findExtent pd.metaData.mem (numExtents pd.metaData.mem) 0 ∧
        pd.allocatePage = .error .outOfBounds := by
  set k := DiskManager.findExtent pd.metaData.mem (numExtents pd.metaData.mem) 0 with hk
  rcases hinv.findExtent with ⟨hle, hfull, hroom⟩
  rw [← hk] at hle hfull hroom
  by_cases hkm : k < MAX_EXTENTS
  · have hbound : 8 + 4 * k + 4 ≤ PAGE_SIZE := by
      simp only [PAGE_SIZE, MAX_EXTENTS] at *
      omega
    -- The counter does not wrap.
    have hcount : (extentUsedPage pd.metaData.mem k + 1) % 2 ^ 32 =
        extentUsedPage pd.metaData.mem k + 1 := by
      have := hinv.counter_le k hkm
      simp only [BITMAP_SIZE] at this
      omega
    refine .inl ⟨hkm, ?_⟩
    by_cases hopen : k < numExtents pd.metaData.mem
    · rcases PhysicalFile.readPhysicalPage_state pd.dbIo (bitmapAddr k) with ⟨b, hstate, _⟩
      refine ⟨_, k, (pd.dbIo.readPhysicalPage (bitmapAddr k)).1, b,
        ⟨hk, hkm, fun _ => Prod.ext rfl hstate, fun h => absurd hopen (not_lt.mpr h), ?_, ?_,
          fun j hj => ?_⟩, by
        simp only [allocatePage, ← hk, hbound, hopen, if_true, allocatePage_offset]
        rfl⟩
      · rw [hstate]
      · simp only [numExtents_setUsed, numExtents_setAllocated]
        omega
      · simp only [extentUsedPage_setUsed hj, extentUsedPage_setAllocated hkm,
          extentUsedPage_setAllocated hj]
        by_cases hjk : j = k
        · subst hjk
          simpa using hcount
        · simp [hjk]
    · have hext := hinv.extents_le
      refine ⟨_, k, Buf.zero PAGE_SIZE, pd.dbIo.fail,
        ⟨hk, hkm, fun h => absurd h hopen, fun _ => ⟨rfl, rfl⟩, ?_, ?_, fun j hj => ?_⟩, by
        simp only [allocatePage, ← hk, hbound, hopen, if_true, if_false, allocatePage_offset]
        rfl⟩
      · rfl
      · simp only [numExtents_setUsed, numExtents_setExtents, numExtents_setAllocated]
        simp only [MAX_EXTENTS] at hext
        omega
      · simp only [extentUsedPage_setUsed hj, extentUsedPage_setExtents hkm,
          extentUsedPage_setAllocated hkm, extentUsedPage_setExtents hj,
          extentUsedPage_setAllocated hj]
        by_cases hjk : j = k
        · subst hjk
          simpa using hcount
        · simp [hjk]
  · have hbound : ¬8 + 4 * k + 4 ≤ PAGE_SIZE := by
      simp only [PAGE_SIZE, MAX_EXTENTS] at *
      omega
    refine .inr ⟨Nat.le_of_not_lt hkm, ?_⟩
    simp only [allocatePage, ← hk, hbound, if_false]

section Takes

variable {page : PageData} {b : Bool} (h : Takes pd pd' k page b) (hinv : Inv pd)

include h hinv

/-- The bitmap it works on is the one in the file, or zeros. -/
theorem Takes.source (hclear : pd.dbIo.fail = false → 32 < k → Clear pd) :
    (page = pd.bitmap k ∨ page = Buf.zero PAGE_SIZE) ∧ (pd.dbIo.fail = true → b = true) := by
  rcases Nat.lt_or_ge k (numExtents pd.metaData.mem) with hopen | hnew
  · have hread := h.read hopen
    rcases hinv.read_bitmap (EXTENT_BOUND_of_MAX h.extent_lt) hclear with
      ⟨_, _, hown⟩ | ⟨c, hkeep, hzero⟩
    · rw [hown, Prod.mk.injEq] at hread
      have hb : pd.dbIo.fail = b := congrArg PhysicalFile.fail hread.2
      exact ⟨.inl hread.1.symm, fun hfail => hb ▸ hfail⟩
    · rw [hzero, Prod.mk.injEq] at hread
      have hb : c = b := congrArg PhysicalFile.fail hread.2
      exact ⟨.inr hread.1.symm, fun hfail => hb ▸ hkeep hfail⟩
  · rcases h.opened hnew with ⟨hzero, hb⟩
    exact ⟨.inr hzero, fun hfail => hb ▸ hfail⟩

/-- It has no more bits set than the counter says, and so has room. -/
theorem Takes.bits_le (hclear : pd.dbIo.fail = false → 32 < k → Clear pd) :
    BitmapPage.Inv PAGE_SIZE page.mem ∧
      (BitmapPage.bits PAGE_SIZE page.mem).card ≤ extentUsedPage pd.metaData.mem k := by
  rcases (h.source hinv hclear).1 with rfl | rfl
  · exact ⟨hinv.bitmap_inv k h.extent_lt, hinv.used_le k h.extent_lt⟩
  · refine ⟨BitmapPage.inv_zero (by decide), ?_⟩
    rw [BitmapPage.bits_zero, Finset.card_empty]
    exact Nat.zero_le _

theorem Takes.room : extentUsedPage pd.metaData.mem k < BITMAP_SIZE := by
  rw [← hinv.getExtentUsedPage h.extent_lt, h.extent]
  exact hinv.findExtent.2.2

/-- The page it returns is one that the meta page can manage. -/
theorem Takes.offset_lt (hclear : pd.dbIo.fail = false → 32 < k → Clear pd) :
    BitmapPage.nextFreePage page.mem < BITMAP_SIZE :=
  (h.bits_le hinv hclear).1.hint_lt

/-- No page of the file but the bitmap is touched, and the bitmap holds what was written or is
left as it was. -/
theorem Takes.pages (hclear : pd.dbIo.fail = false → 32 < k → Clear pd) :
    (pd'.dbIo.fail = false → pd'.dbIo.Sound) ∧
      (∀ i, i ≠ bitmapPage k → pd'.dbIo.pageAt i = pd.dbIo.pageAt i) ∧
      (pd'.bitmap k = pd.bitmap k ∨ pd'.bitmap k =
        Buf.ofMem PAGE_SIZE (BitmapPage.allocatePage PAGE_SIZE page.mem).2.2) := by
  set f : PhysicalFile := { pd.dbIo with fail := b } with hf
  have hsound : f.fail = false → f.Sound := by
    intro hb
    obtain rfl : b = false := hb
    have hgood : pd.dbIo.fail = false := by
      by_contra hfail
      exact Bool.false_ne_true ((h.source hinv hclear).2 (by simpa using hfail))
    rw [hf, ← hgood]
    exact hinv.sound hgood
  rw [bitmap, h.dbIo]
  rcases PhysicalFile.writePhysicalPage_cases hsound (bitmapAddr_page h.extent_lt)
    (Buf.ofMem PAGE_SIZE (BitmapPage.allocatePage PAGE_SIZE page.mem).2.2) with
    ⟨hfail, hsame⟩ | ⟨_, hsound', hpages⟩
  · rw [hsame]
    exact ⟨fun hgood => absurd (hfail.symm.trans hgood) Bool.false_ne_true.symm,
      fun _ _ => rfl, .inl rfl⟩
  · refine ⟨fun _ => hsound', fun i hi => ?_, .inr ?_⟩
    · rw [hpages, if_neg hi]
      rfl
    · rw [hpages, if_pos rfl]

theorem Takes.clear (hclear : Clear pd) : Clear pd' := by
  intro i hi
  rw [(h.pages hinv fun _ _ => hclear).2.1 i (hi k)]
  exact hclear i hi

theorem Takes.inv (hclear : pd.dbIo.fail = false → 32 < k → Clear pd) : Inv pd' := by
  have hext := hinv.extents_le
  have hlt := h.extent_lt
  have hroom := h.room hinv
  rcases h.bits_le hinv hclear with ⟨hpage, hle⟩
  rcases h.pages hinv hclear with ⟨hsound, hother, hself⟩
  have hbitmap : ∀ j, j ≠ k → pd'.bitmap j = pd.bitmap j := fun j hj =>
    hother _ fun heq => hj (bitmapPage_inj heq)
  rcases BitmapPage.allocatePage_of_room hpage (by decide) (lt_of_le_of_lt hle hroom) with
    ⟨m', heq, hinv', hbits, hnot, _⟩
  -- The page is written back through a buffer of `PAGE_SIZE` bytes.
  have hcopy : ∀ i, i < PAGE_SIZE → m' i = (Buf.ofMem PAGE_SIZE m').mem i :=
    fun i hi => (Buf.mem_ofMem_of_lt hi).symm
  rw [heq] at hself
  refine ⟨?_, fun j hj => ?_, fun j hj hjext => ?_, hsound, fun j hj => ?_, fun j hj => ?_⟩
  · rw [h.extents]
    omega
  · rw [h.extent_counter j hj]
    by_cases hjk : j = k
    · subst hjk
      rw [if_pos rfl]
      omega
    · rw [if_neg hjk]
      exact hinv.counter_le j hj
  · rw [h.extents] at hjext
    rw [h.extent_counter j hj, if_neg (by omega)]
    exact hinv.unopened j hj (by omega)
  · by_cases hjk : j = k
    · subst hjk
      rcases hself with hself | hself
      · rw [hself]
        exact hinv.bitmap_inv j hj
      · rw [hself]
        exact hinv'.congr hcopy
    · rw [hbitmap j hjk]
      exact hinv.bitmap_inv j hj
  · rw [h.extent_counter j hj, used]
    by_cases hjk : j = k
    · subst hjk
      rw [if_pos rfl]
      rcases hself with hself | hself
      · rw [hself]
        exact Nat.le_succ_of_le (hinv.used_le j hj)
      · rw [hself, ← BitmapPage.bits_congr hcopy, hbits, Finset.card_insert_of_notMem hnot]
        exact Nat.succ_le_succ hle
    · rw [hbitmap j hjk, if_neg hjk]
      exact hinv.used_le j hj

end Takes

/-! ## One call of `DeAllocatePage` -/

/-- Everything freeing the used offset `o` of extent `k` does. -/
structure Frees (pd pd' : PhysicalDisk) (k o : Nat) : Prop where
  extent_le : k ≤ 32
  sound : pd.dbIo.Sound
  offset_used : o ∈ pd.used k
  dbIo : pd'.dbIo = pd.dbIo.writePhysicalPage (bitmapAddr k)
    (Buf.ofMem PAGE_SIZE (BitmapPage.deAllocatePage (pd.bitmap k).mem o).2)
  extents : numExtents pd'.metaData.mem = numExtents pd.metaData.mem
  extent_counter : ∀ j, j < MAX_EXTENTS → extentUsedPage pd'.metaData.mem j +
    (if j = k then 1 else 0) = extentUsedPage pd.metaData.mem j

/-- A read that finds nothing to change may still leave the stream failed. -/
theorem Inv.stream (hinv : Inv pd) {b : Bool} (hb : pd.dbIo.fail = true → b = true) :
    Inv { pd with dbIo := { pd.dbIo with fail := b } } := by
  refine ⟨hinv.extents_le, hinv.counter_le, hinv.unopened, fun hgood => ?_, hinv.bitmap_inv,
    hinv.used_le⟩
  obtain rfl : b = false := hgood
  have hsame : pd.dbIo.fail = false := by
    by_contra hfail
    exact Bool.false_ne_true (hb (by simpa using hfail))
  rw [← hsame]
  exact hinv.sound hsame

/-- Inversion of a returned `DeAllocatePage`. -/
theorem Inv.deAllocatePage_cases (hinv : Inv pd) (hclear : Clear pd)
    (hok : pd.deAllocatePage p = .ok pd') :
    (∃ b, (pd.dbIo.fail = true → b = true) ∧
        pd' = { pd with dbIo := { pd.dbIo with fail := b } }) ∨
      ∃ k o, Frees pd pd' k o := by
  by_cases hp : 0 ≤ p.toInt
  · set k := sizeT p / BITMAP_SIZE with hk
    set o := sizeT p % BITMAP_SIZE with ho
    have hkb : k < EXTENT_BOUND := extentIndex_lt hp
    have hmod : sizeT p / BITMAP_SIZE % 2 ^ 32 = k := extentIndex_mod hp
    rcases hinv.read_bitmap hkb fun _ _ => hclear with
      ⟨hsmall, hsound, hread⟩ | ⟨b, hb, hread⟩
    · cases hfree : BitmapPage.isPageFree (pd.bitmap k).mem o with
      | true =>
          simp only [deAllocatePage, hmod, ← ho, hread, BitmapPage.deAllocatePage_of_free hfree,
            Bool.false_eq_true, if_false, Except.ok.injEq] at hok
          exact .inl ⟨pd.dbIo.fail, id, hok.symm⟩
      | false =>
          have hkm : k < MAX_EXTENTS := lt_of_le_of_lt hsmall (by decide)
          have hbound : 8 + 4 * k + 4 ≤ PAGE_SIZE := by
            simp only [PAGE_SIZE]
            omega
          have hused : o ∈ pd.used k :=
            BitmapPage.mem_bits.mpr ⟨Nat.mod_lt _ (by decide), hfree⟩
          rcases BitmapPage.deAllocatePage_of_set (hinv.bitmap_inv k hkm) (by decide) hused with
            ⟨m', heq, _, _⟩
          -- A bit is set, so the counter is positive and taking one off does not wrap.
          have hpos : 0 < extentUsedPage pd.metaData.mem k :=
            lt_of_lt_of_le (Finset.card_pos.mpr ⟨o, hused⟩) (hinv.used_le k hkm)
          have hle := hinv.counter_le k hkm
          simp only [deAllocatePage, hmod, ← ho, hread, heq, if_true, hbound, Except.ok.injEq]
            at hok
          subst hok
          refine .inr ⟨k, o, hsmall, hsound, hused, ?_, ?_, fun j hj => ?_⟩
          · rw [heq]
          · simp only [numExtents_setUsed, numExtents_setAllocated]
          · simp only [extentUsedPage_setUsed hj, extentUsedPage_setAllocated hkm,
              extentUsedPage_setAllocated hj]
            by_cases hjk : j = k
            · subst hjk
              simp only [if_true]
              simp only [BITMAP_SIZE] at hle
              omega
            · simp [hjk]
    · have hfree : BitmapPage.isPageFree (Buf.zero PAGE_SIZE).mem o = true :=
        BitmapPage.isPageFree_zero o
      simp only [deAllocatePage, hmod, ← ho, hread, BitmapPage.deAllocatePage_of_free hfree,
        Bool.false_eq_true, if_false, Except.ok.injEq] at hok
      exact .inl ⟨b, hb, hok.symm⟩
  · -- The extent of a negative id has no counter, so the call did nothing.
    have hlo := p.le_toInt
    have hbound : ¬8 + 4 * (sizeT p / BITMAP_SIZE % 2 ^ 32) + 4 ≤ PAGE_SIZE := by
      have hsize : (sizeT p : Int) = p.toInt + 2 ^ 64 := by
        unfold sizeT
        omega
      simp only [BITMAP_SIZE, PAGE_SIZE]
      omega
    rcases PhysicalFile.readPhysicalPage_state pd.dbIo
      (bitmapAddr (sizeT p / BITMAP_SIZE % 2 ^ 32)) with ⟨b, hstate, hb⟩
    simp only [deAllocatePage, hbound, if_false, hstate] at hok
    split at hok
    · cases hok
    · exact .inl ⟨b, hb, (Except.ok.inj hok).symm⟩

section Frees

variable {o : Nat} (h : Frees pd pd' k o)

include h

theorem Frees.bitmap_set (hinv : Inv pd) :
    ∃ m', BitmapPage.deAllocatePage (pd.bitmap k).mem o = (true, m') ∧
      BitmapPage.Inv PAGE_SIZE (Buf.ofMem PAGE_SIZE m').mem ∧
      BitmapPage.bits PAGE_SIZE (Buf.ofMem PAGE_SIZE m').mem = (pd.used k).erase o := by
  have hkm : k < MAX_EXTENTS := lt_of_le_of_lt h.extent_le (by decide)
  rcases BitmapPage.deAllocatePage_of_set (hinv.bitmap_inv k hkm) (by decide) h.offset_used with
    ⟨m', heq, hinv', hbits⟩
  have hcopy : ∀ i, i < PAGE_SIZE → m' i = (Buf.ofMem PAGE_SIZE m').mem i :=
    fun i hi => (Buf.mem_ofMem_of_lt hi).symm
  refine ⟨m', heq, hinv'.congr hcopy, ?_⟩
  rw [← BitmapPage.bits_congr hcopy, hbits]
  rfl

theorem Frees.pages :
    pd'.dbIo.Sound ∧ ∀ i, pd'.dbIo.pageAt i = if i = bitmapPage k
      then Buf.ofMem PAGE_SIZE (BitmapPage.deAllocatePage (pd.bitmap k).mem o).2
      else pd.dbIo.pageAt i := by
  have haddr := bitmapAddr_page (lt_of_le_of_lt h.extent_le (by decide))
  rw [h.dbIo]
  exact ⟨PhysicalFile.writePhysicalPage_sound h.sound haddr _,
    PhysicalFile.pageAt_writePhysicalPage h.sound haddr _⟩

theorem Frees.clear (hclear : Clear pd) : Clear pd' := by
  intro i hi
  rw [h.pages.2, if_neg (hi k)]
  exact hclear i hi

theorem Frees.inv (hinv : Inv pd) : Inv pd' := by
  rcases h.pages with ⟨hsound, hpages⟩
  rcases h.bitmap_set hinv with ⟨m', heq, hinv', hbits⟩
  have hself : pd'.bitmap k = Buf.ofMem PAGE_SIZE m' := by
    rw [bitmap, hpages, if_pos rfl, heq]
  have hother : ∀ j, j ≠ k → pd'.bitmap j = pd.bitmap j := by
    intro j hj
    rw [bitmap, hpages, if_neg fun heq => hj (bitmapPage_inj heq)]
    rfl
  refine ⟨?_, fun j hj => ?_, fun j hj hjext => ?_, fun _ => hsound, fun j hj => ?_,
    fun j hj => ?_⟩
  · rw [h.extents]
    exact hinv.extents_le
  · have hcount := h.extent_counter j hj
    have := hinv.counter_le j hj
    omega
  · have hcount := h.extent_counter j hj
    rw [h.extents] at hjext
    have := hinv.unopened j hj hjext
    omega
  · by_cases hjk : j = k
    · rw [hjk, hself]
      exact hinv'
    · rw [hother j hjk]
      exact hinv.bitmap_inv j hj
  · have hcount := h.extent_counter j hj
    have hold := hinv.used_le j hj
    by_cases hjk : j = k
    · subst hjk
      rw [if_pos rfl] at hcount
      rw [used, hself, hbits, Finset.card_erase_of_mem h.offset_used]
      omega
    · rw [used, hother j hjk]
      rw [if_neg hjk] at hcount
      exact le_of_le_of_eq hold hcount.symm

end Frees

/-! ## Runs of the allocator -/

/-- The completed calls that `DiskManager` makes, made on the bytes of the file. -/
def Step (pd : PhysicalDisk) : Event → PhysicalDisk → Prop
  | .allocatePage p, pd' => pd.allocatePage = .ok (p, pd')
  | .deAllocatePage p, pd' => pd.deAllocatePage p = .ok pd'
  | .isPageFree p free, pd' => pd.isPageFree p = (free, pd')
  | .writePage p pageData, pd' => pd.writePage p pageData = .ok pd'

/-- The calls that leave the data pages alone. -/
def AllocatorStep (pd : PhysicalDisk) (e : Event) (pd' : PhysicalDisk) : Prop :=
  (∀ p pageData, e ≠ .writePage p pageData) ∧ Step pd e pd'

/-- Inversion of a returned `AllocatePage`. -/
theorem Inv.allocated (hinv : Inv pd) (hok : pd.allocatePage = .ok (p, pd')) :
    ∃ k page b, Takes pd pd' k page b ∧
      p = Int32.ofNat (BitmapPage.nextFreePage page.mem + BITMAP_SIZE * k) := by
  rcases allocatePage_cases hinv with ⟨_, pd₁, k, page, b, ht, hok₁⟩ | ⟨_, herr⟩
  · rw [hok, Except.ok.injEq, Prod.mk.injEq] at hok₁
    rcases hok₁ with ⟨hp, rfl⟩
    exact ⟨k, page, b, ht, hp⟩
  · rw [hok] at herr
    cases herr

theorem AllocatorStep.keeps {e : Event} (hstep : AllocatorStep pd e pd') (hinv : Inv pd)
    (hclear : Clear pd) : Inv pd' ∧ Clear pd' := by
  rcases hstep with ⟨hno, hstep⟩
  cases e with
  | allocatePage p =>
      rcases hinv.allocated hstep with ⟨k, page, b, ht, _⟩
      exact ⟨ht.inv hinv fun _ _ => hclear, ht.clear hinv hclear⟩
  | deAllocatePage p =>
      rcases hinv.deAllocatePage_cases hclear hstep with ⟨b, hb, rfl⟩ | ⟨k, o, hf⟩
      · exact ⟨hinv.stream hb, hclear⟩
      · exact ⟨hf.inv hinv, hf.clear hclear⟩
  | isPageFree p free =>
      rcases PhysicalFile.readPhysicalPage_state pd.dbIo
        (bitmapAddr (sizeT p / BITMAP_SIZE % 2 ^ 32)) with ⟨b, hstate, hb⟩
      have hpd : pd' = { pd with dbIo := { pd.dbIo with fail := b } } := by
        rw [← hstate]
        exact (congrArg Prod.snd hstep).symm
      rw [hpd]
      exact ⟨hinv.stream hb, hclear⟩
  | writePage p pageData =>
      exact absurd rfl (hno p pageData)

theorem run_keeps {es : List Event} (hrun : Run AllocatorStep fresh es pd) : Inv pd ∧ Clear pd :=
  hrun.invariant (P := fun pd => Inv pd ∧ Clear pd)
    (fun _ _ _ h hstep => AllocatorStep.keeps hstep h.1 h.2) ⟨fresh_inv, fresh_clear⟩

/-! ## Below 2 GiB -/

/-- The file ends below 2 GiB and holds the pages of `dm`. -/
structure Mirrors (pd : PhysicalDisk) (dm : DiskManager) : Prop where
  sound : pd.dbIo.Sound
  size_lt : pd.dbIo.size < 2 ^ 31
  stores : pd.dbIo.Stores dm
  metaData : pd.metaData = dm.metaData

/-- The call keeps to pages whose bytes lie below 2 GiB: those of extent 0 to 16 have their bitmap
there. -/
def Low : Event → Prop
  | .allocatePage p => sizeT p / BITMAP_SIZE ≤ 16
  | .deAllocatePage p => sizeT p / BITMAP_SIZE ≤ 16
  | .isPageFree p _ => sizeT p / BITMAP_SIZE ≤ 16
  | .writePage p _ => PhysicalFile.physicalPage p + 1 < 2 ^ 19

variable {dm dm' : DiskManager} {q : PageId} {i : Nat}

theorem fresh_mirrors : Mirrors fresh DiskManager.fresh :=
  ⟨PhysicalFile.fresh_sound, by decide, fun _ _ _ => rfl, rfl⟩

theorem Mirrors.read (h : Mirrors pd dm) (hq : q.toInt = i) (hi : i < 2 ^ 19) :
    pd.dbIo.readPhysicalPage q = (dm.readPhysicalPage q, pd.dbIo) := by
  have hpage := h.stores.readPhysicalPage h.sound hq hi h.size_lt
  refine Prod.ext hpage ?_
  rw [PhysicalFile.eq_ofNat hq]
  rcases PhysicalFile.readPhysicalPage_cases h.sound i with ⟨_, hread⟩ | ⟨hnot, hread⟩
  · rw [hread]
  · -- Nothing is there, so the page lies behind the end of the file.
    have hoff := PhysicalFile.asInt_of_lt (n := i * PAGE_SIZE) (by simp only [PAGE_SIZE]; omega)
    have hend : ¬PhysicalFile.asInt (i * PAGE_SIZE) < PhysicalFile.asInt pd.dbIo.size := by
      intro hlt
      refine hnot ⟨?_, hlt⟩
      rw [hoff]
      exact Int.natCast_nonneg _
    rw [hread, decide_eq_false hend, ← h.sound.good]

theorem Mirrors.write (h : Mirrors pd dm) (hq : q.toInt = i) (hi : i + 1 < 2 ^ 19)
    (pageData metaData : PageData) :
    Mirrors { dbIo := pd.dbIo.writePhysicalPage q pageData, metaData := metaData }
      ({ dm with metaData := metaData }.writePhysicalPage q pageData) := by
  refine ⟨PhysicalFile.writePhysicalPage_sound h.sound hq pageData, ?_, fun r k hr => ?_, rfl⟩
  · have hsize := h.size_lt
    rw [PhysicalFile.writePhysicalPage_good h.sound hq]
    simp only [PAGE_SIZE]
    omega
  · exact h.stores.writePhysicalPage h.sound hq pageData r k hr

theorem bitmapAddr_low (hk : k ≤ 16) :
    (bitmapAddr k).toInt = bitmapPage k ∧ bitmapPage k + 1 < 2 ^ 19 := by
  refine ⟨bitmapAddr_page (lt_of_le_of_lt hk (by decide)), ?_⟩
  simp only [bitmapPage, BITMAP_SIZE]
  omega

/-- The page returned lies in the extent `AllocatePage` settled on. -/
theorem allocatePage_extent (hinv : DiskManager.Inv dm) (hok : dm.allocatePage = .ok (p, dm')) :
    findExtent dm.metaData.mem (numExtents dm.metaData.mem) 0 = sizeT p / BITMAP_SIZE := by
  have ht := hinv.takesLowest hok
  rcases hinv.findExtent with ⟨_, hfull, hroom⟩
  set k := DiskManager.findExtent dm.metaData.mem (numExtents dm.metaData.mem) 0 with hk
  have hkb : sizeT p / BITMAP_SIZE < EXTENT_BOUND := extentIndex_lt ht.valid.1
  refine le_antisymm (Nat.le_of_not_lt fun hlt => ?_) (Nat.le_of_not_lt fun hlt => ?_)
  · exact absurd (hfull _ hlt) ht.room.ne
  · exact absurd (ht.lower_full k hlt) (hroom (lt_trans hlt hkb)).ne

theorem Mirrors.allocatePage (h : Mirrors pd dm) (hinv : DiskManager.Inv dm)
    (hok : dm.allocatePage = .ok (p, dm')) (hlow : sizeT p / BITMAP_SIZE ≤ 16) :
    ∃ pd', pd.allocatePage = .ok (p, pd') ∧ Mirrors pd' dm' := by
  have hext := allocatePage_extent hinv hok
  set k := DiskManager.findExtent dm.metaData.mem (numExtents dm.metaData.mem) 0 with hk
  rcases bitmapAddr_low (hext ▸ hlow) with ⟨haddr, hpage⟩
  have hread := h.read haddr (lt_of_le_of_lt (Nat.le_succ _) hpage)
  have hbound : 8 + 4 * k + 4 ≤ PAGE_SIZE := by
    simp only [PAGE_SIZE]
    omega
  -- Both read the same bitmap, or none, and write what comes out of it.
  by_cases hopen : k < numExtents dm.metaData.mem
  · simp only [DiskManager.allocatePage, ← hk, hbound, hopen, if_true, Except.ok.injEq,
      Prod.mk.injEq] at hok
    rcases hok with ⟨rfl, rfl⟩
    refine ⟨_, ?_, h.write haddr hpage _ _⟩
    simp only [PhysicalDisk.allocatePage, h.metaData, ← hk, hbound, hopen, if_true, hread]
  · simp only [DiskManager.allocatePage, ← hk, hbound, hopen, if_true, if_false, Except.ok.injEq,
      Prod.mk.injEq] at hok
    rcases hok with ⟨rfl, rfl⟩
    refine ⟨_, ?_, h.write haddr hpage _ _⟩
    simp only [PhysicalDisk.allocatePage, h.metaData, ← hk, hbound, hopen, if_true, if_false]

theorem Mirrors.deAllocatePage (h : Mirrors pd dm) (hp : 0 ≤ p.toInt)
    (hok : dm.deAllocatePage p = .ok dm') (hlow : sizeT p / BITMAP_SIZE ≤ 16) :
    ∃ pd', pd.deAllocatePage p = .ok pd' ∧ Mirrors pd' dm' := by
  have hmod := extentIndex_mod hp
  rcases bitmapAddr_low hlow with ⟨haddr, hpage⟩
  have hread := h.read haddr (lt_of_le_of_lt (Nat.le_succ _) hpage)
  have hbound : 8 + 4 * (sizeT p / BITMAP_SIZE) + 4 ≤ PAGE_SIZE := by
    simp only [PAGE_SIZE]
    omega
  simp only [DiskManager.deAllocatePage, hmod, hbound, if_true] at hok
  simp only [PhysicalDisk.deAllocatePage, hmod, hread, hbound, if_true]
  split at hok
  · obtain rfl := Except.ok.inj hok
    rename_i hdone
    refine ⟨_, by rw [if_pos hdone], ?_⟩
    rw [h.metaData]
    exact h.write haddr hpage _ _
  · obtain rfl := Except.ok.inj hok
    rename_i hdone
    exact ⟨_, by rw [if_neg hdone], h⟩

theorem Mirrors.readPage (h : Mirrors pd dm) (hp : PhysicalFile.ValidId p)
    (hlow : PhysicalFile.physicalPage p < 2 ^ 19) :
    pd.readPage p = (dm.readPage p).map fun pageData => (pageData, pd) := by
  have hread := h.read (PhysicalFile.mapPageId_toInt hp) hlow
  simp only [PhysicalDisk.readPage, PhysicalFile.readPage, DiskManager.readPage, hp.1, decide_true,
    assert_true, ok_bind, hread]
  rfl

theorem Mirrors.step {e : Event} (h : Mirrors pd dm) (hinv : DiskManager.Inv dm)
    (hstep : DiskManager.Step dm e dm') (hlow : Low e) :
    ∃ pd', Step pd e pd' ∧ Mirrors pd' dm' := by
  cases e with
  | allocatePage p =>
      exact h.allocatePage hinv hstep hlow
  | deAllocatePage p =>
      exact h.deAllocatePage hstep.1 hstep.2 hlow
  | isPageFree p free =>
      rcases hstep with ⟨hp, rfl, rfl⟩
      rcases bitmapAddr_low hlow with ⟨haddr, hpage⟩
      have hread := h.read haddr (lt_of_le_of_lt (Nat.le_succ _) hpage)
      refine ⟨pd, ?_, h⟩
      simp only [Step, PhysicalDisk.isPageFree, DiskManager.isPageFree, extentIndex_mod hp, hread]
  | writePage p pageData =>
      by_cases hp : 0 ≤ p.toInt
      · have hvalid : PhysicalFile.ValidId p := by
          refine ⟨hp, ?_⟩
          simp only [Low, PhysicalFile.physicalPage, BITMAP_SIZE] at hlow
          simp only [MAX_VALID_PAGE_ID]
          omega
        simp only [DiskManager.Step, DiskManager.writePage, hp, decide_true, assert_true, ok_bind,
          Except.ok.injEq] at hstep
        subst hstep
        refine ⟨_, ?_, h.write (PhysicalFile.mapPageId_toInt hvalid) hlow pageData dm.metaData⟩
        simp only [Step, PhysicalDisk.writePage, PhysicalFile.writePage, hp, decide_true,
          assert_true, ok_bind, h.metaData]
      · simp [DiskManager.Step, DiskManager.writePage, assert, hp] at hstep

/-- What `DiskManager` does on pages below 2 GiB, the disk manager on the bytes of the file does
too, with the same results. -/
theorem run_mirrors {es : List Event} (hrun : Run DiskManager.Step DiskManager.fresh es dm)
    (hlow : ∀ e ∈ es, Low e) : ∃ pd, Run Step fresh es pd ∧ Mirrors pd dm := by
  have hboth : ∃ pd, Run Step fresh es pd ∧ Mirrors pd dm ∧ DiskManager.Inv dm := by
    refine hrun.follows (R := fun dm pd => Mirrors pd dm ∧ DiskManager.Inv dm)
      (C := fun _ e => Low e) ?_ ⟨fresh_mirrors, DiskManager.fresh_inv⟩ ?_
    · rintro dm e dm' pd ⟨h, hinv⟩ hstep hlow
      rcases h.step hinv hstep hlow with ⟨pd', hstep', h'⟩
      exact ⟨pd', hstep', h', hstep.inv hinv⟩
    · rintro pre e post _ rfl _
      exact hlow e (by simp)
  rcases hboth with ⟨pd, hrun', h, _⟩
  exact ⟨pd, hrun', h⟩

/-! ## The capacity of the meta page -/

/-- The indexes the loop of `AllocatePage` reads `extent_used_page_` at. -/
def extentReads (m : Mem) : Nat → Nat → List Nat
  | 0, _ => []
  | k + 1, i => if getExtentUsedPage m i < BITMAP_SIZE then [i] else i :: extentReads m k (i + 1)

/-- The indexes `AllocatePage` accesses `extent_used_page_` at: the loop, then the counter of the
extent it settled on. -/
def extentAccesses (m : Mem) : List Nat :=
  extentReads m (numExtents m) 0 ++ [findExtent m (numExtents m) 0]

/-- The loop reads no further than the extent it settles on. -/
theorem le_findExtent (m : Mem) (k i : Nat) : ∀ j ∈ extentReads m k i, j ≤ findExtent m k i := by
  induction k generalizing i with
  | zero =>
      intro j hj
      cases hj
  | succ k ih =>
      intro j hj
      by_cases hroom : getExtentUsedPage m i < BITMAP_SIZE
      · simp only [extentReads, findExtent, hroom, if_true, List.mem_singleton] at hj ⊢
        exact le_of_eq hj
      · simp only [extentReads, findExtent, hroom, if_false, List.mem_cons] at hj ⊢
        rcases hj with rfl | hj
        · exact le_trans (Nat.le_succ j) (findExtent_spec m k (j + 1)).1
        · exact ih (i + 1) j hj

/-- What a call of `AllocatePage` accesses lies inside the meta page, and the id it returns is one
that the meta page can manage. -/
structure WithinCapacity (pd : PhysicalDisk) : Prop where
  inside : ∀ i ∈ extentAccesses pd.metaData.mem, i < (PAGE_SIZE - 8) / 4
  valid : ∀ p pd', pd.allocatePage = .ok (p, pd') → 0 ≤ p.toInt ∧ p.toInt < MAX_VALID_PAGE_ID

/-- After every run of the allocator: the next call of `AllocatePage` stays inside the meta page if
and only if some extent of the table has room, one not opened counting as empty. -/
theorem within_capacity_iff {es : List Event} (hrun : Run AllocatorStep fresh es pd) :
    WithinCapacity pd ↔
      ∃ k, k < MAX_EXTENTS ∧ getExtentUsedPage pd.metaData.mem k < BITMAP_SIZE := by
  rcases run_keeps hrun with ⟨hinv, hclear⟩
  -- `AllocatePage` takes the first extent with room.
  rcases hinv.findExtent with ⟨_, hfull, hroom⟩
  set k := findExtent pd.metaData.mem (numExtents pd.metaData.mem) 0 with hk
  constructor
  · intro hwithin
    have hlast : k ∈ extentAccesses pd.metaData.mem :=
      List.mem_append_right _ (List.mem_singleton.mpr rfl)
    exact ⟨k, hwithin.inside k hlast, hroom⟩
  · rintro ⟨j, hj, hfree⟩
    have hle : k ≤ j := by
      by_contra hgt
      have := hfull j (Nat.lt_of_not_le hgt)
      omega
    refine ⟨fun i hi => ?_, fun p pd' hok => ?_⟩
    · have hik : i ≤ k := by
        rcases List.mem_append.mp hi with hi | hi
        · exact le_findExtent _ _ _ i hi
        · exact le_of_eq (List.mem_singleton.mp hi)
      exact lt_of_le_of_lt (le_trans hik hle) hj
    · rcases hinv.allocated hok with ⟨i, page, b, ht, rfl⟩
      have hi := ht.extent_lt
      have ho := ht.offset_lt hinv fun _ _ => hclear
      have hnonneg := page_nonneg hi ho
      refine ⟨hnonneg, ?_⟩
      rw [← sizeT_of_nonneg hnonneg, sizeT_page hi ho]
      simp only [MAX_EXTENTS, BITMAP_SIZE, MAX_VALID_PAGE_ID] at *
      omega

/-- The counters after `n` allocations and no deallocation: the extents are filled one after the
other, even where `AllocatePage` returns one page again and again. -/
structure Counts (pd : PhysicalDisk) (n : Nat) : Prop where
  inv : Inv pd
  clear : Clear pd
  extents : numExtents pd.metaData.mem = (n + (BITMAP_SIZE - 1)) / BITMAP_SIZE
  used : ∀ k, k < MAX_EXTENTS →
    extentUsedPage pd.metaData.mem k = min BITMAP_SIZE (n - BITMAP_SIZE * k)

theorem fresh_counts : Counts fresh 0 := by
  have hmeta : fresh.metaData = Buf.zero PAGE_SIZE := rfl
  refine ⟨fresh_inv, fresh_clear, ?_, fun k _ => ?_⟩
  · rw [hmeta, numExtents, Buf.u32_zero]
    rfl
  · rw [hmeta, extentUsedPage, Buf.u32_zero]
    simp only [Nat.zero_sub, Nat.min_zero]

/-- With `n` pages counted, `AllocatePage` settles on extent `n / N`. -/
theorem Counts.findExtent {n : Nat} (h : Counts pd n) (hn : n < MAX_VALID_PAGE_ID) :
    findExtent pd.metaData.mem (numExtents pd.metaData.mem) 0 = n / BITMAP_SIZE := by
  rcases h.inv.findExtent with ⟨_, hfull, hroom⟩
  set k := DiskManager.findExtent pd.metaData.mem (numExtents pd.metaData.mem) 0 with hk
  simp only [MAX_VALID_PAGE_ID] at hn
  have hlower : ∀ j, j < k → j < MAX_EXTENTS → BITMAP_SIZE * (j + 1) ≤ n := by
    intro j hj hjm
    have hcount := hfull j hj
    rw [h.inv.getExtentUsedPage hjm, h.used j hjm] at hcount
    simp only [BITMAP_SIZE] at hcount ⊢
    omega
  have hkm : k < MAX_EXTENTS := by
    by_contra hge
    have hlast := hlower 1021 (lt_of_lt_of_le (by decide) (Nat.le_of_not_lt hge)) (by decide)
    simp only [BITMAP_SIZE] at hlast
    omega
  have hbelow : BITMAP_SIZE * k ≤ n := by
    cases hcase : k with
    | zero =>
        exact Nat.zero_le _
    | succ j =>
        exact hlower j (by omega) (by omega)
  rw [h.inv.getExtentUsedPage hkm, h.used k hkm] at hroom
  simp only [BITMAP_SIZE] at *
  omega

/-- As long as the table has room `AllocatePage` returns, and one more page is counted. -/
theorem Counts.allocatePage {n : Nat} (h : Counts pd n) (hn : n < MAX_VALID_PAGE_ID) :
    ∃ p pd', pd.allocatePage = .ok (p, pd') ∧ Counts pd' (n + 1) := by
  have hext := h.findExtent hn
  rcases allocatePage_cases h.inv with ⟨_, pd', k, page, b, ht, hok⟩ | ⟨hge, _⟩
  · refine ⟨_, pd', hok, ht.inv h.inv fun _ _ => h.clear, ht.clear h.inv h.clear, ?_,
      fun j hj => ?_⟩
    · have hk := ht.extent
      rw [hext] at hk
      rw [ht.extents, h.extents, hk]
      simp only [BITMAP_SIZE]
      omega
    · have hk := ht.extent
      rw [hext] at hk
      rw [ht.extent_counter j hj, h.used j hj, hk]
      simp only [BITMAP_SIZE]
      split <;> omega
  · rw [hext] at hge
    simp only [MAX_EXTENTS, BITMAP_SIZE, MAX_VALID_PAGE_ID] at *
    omega

/-- Allocations alone bring all counters of the table up to the size of an extent. -/
theorem run_counts {n : Nat} (hn : n ≤ MAX_VALID_PAGE_ID) :
    ∃ (ps : List PageId) (pd : PhysicalDisk), ps.length = n ∧
      Run AllocatorStep fresh (ps.map .allocatePage) pd ∧ Counts pd n := by
  induction n with
  | zero =>
      exact ⟨[], fresh, rfl, Run.nil _, fresh_counts⟩
  | succ n ih =>
      rcases ih (Nat.le_of_succ_le hn) with ⟨ps, pd, hlength, hrun, hcounts⟩
      rcases hcounts.allocatePage hn with ⟨p, pd', hok, hcounts'⟩
      refine ⟨ps ++ [p], pd', by simp [hlength], ?_, hcounts'⟩
      rw [List.map_append]
      exact hrun.append (Run.cons ⟨fun _ _ => Event.noConfusion, hok⟩ (Run.nil _))

/-- Extent 0 is full, and the next allocation opens extent 1. -/
theorem within_capacity_iff_full_extent : ∃ (ps : List PageId) (pd : PhysicalDisk),
    ps.length = BITMAP_SIZE ∧ Run AllocatorStep fresh (ps.map .allocatePage) pd ∧
      WithinCapacity pd := by
  have hle : BITMAP_SIZE ≤ MAX_VALID_PAGE_ID := by decide
  rcases run_counts hle with ⟨ps, pd, hlength, hrun, hcounts⟩
  refine ⟨ps, pd, hlength, hrun, (within_capacity_iff hrun).mpr ⟨1, by decide, ?_⟩⟩
  rw [hcounts.inv.getExtentUsedPage (by decide), hcounts.used 1 (by decide)]
  decide

/-- After as many allocations as the table has pages, the next one counts up a word behind the
meta page. -/
theorem full_table_overruns : ∃ (ps : List PageId) (pd : PhysicalDisk),
    ps.length = MAX_VALID_PAGE_ID ∧ Run AllocatorStep fresh (ps.map .allocatePage) pd ∧
      ¬WithinCapacity pd := by
  rcases run_counts (le_refl MAX_VALID_PAGE_ID) with ⟨ps, pd, hlength, hrun, hcounts⟩
  refine ⟨ps, pd, hlength, hrun, fun hwithin => ?_⟩
  have hlast : findExtent pd.metaData.mem (numExtents pd.metaData.mem) 0 ∈
      extentAccesses pd.metaData.mem :=
    List.mem_append_right _ (List.mem_singleton.mpr rfl)
  have hk := hwithin.inside _ hlast
  have hroom := hcounts.inv.findExtent.2.2
  rw [hcounts.inv.getExtentUsedPage hk, hcounts.used _ hk] at hroom
  simp only [MAX_VALID_PAGE_ID, BITMAP_SIZE, PAGE_SIZE] at *
  omega

end PhysicalDisk
end MiniSQL
