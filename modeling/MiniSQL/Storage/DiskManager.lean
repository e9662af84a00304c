import MiniSQL.Page.BitmapPage

/-!
# DiskManager — page allocation on the database file

`storage/disk_manager.cpp` and `page/disk_file_meta_page.h`.  The file is taken at the level of
physical pages: reading a page gives what was last written there, zeros if nothing was.  The program
does so while the file stays below 2 GiB (`PhysicalDisk` has the offsets it computes).  The layout
is

`| Meta Page | BitMap 0 | Page 0 | … | Page N - 1 | BitMap 1 | Page N | …`

with `N = BITMAP_SIZE` data pages in an extent.  The meta page is held in memory (`metaData`) and
is read from the file when the manager is constructed.
-/

namespace MiniSQL

open Lib

/-! ## The meta page -/

namespace DiskFileMetaPage

def numAllocatedPages (m : Mem) : Nat :=
  m.u32 0

def numExtents (m : Mem) : Nat :=
  m.u32 4

/-- `extent_used_page_[i]`. -/
def extentUsedPage (m : Mem) (i : Nat) : Nat :=
  m.u32 (8 + 4 * i)

def getExtentUsedPage (m : Mem) (extentId : Nat) : Nat :=
  if extentId ≥ numExtents m then 0 else extentUsedPage m extentId

end DiskFileMetaPage

/-- Pages in an extent: `BitmapPage<PAGE_SIZE>::GetMaxSupportedSize()`. -/
abbrev BITMAP_SIZE : Nat := 32704

example : BitmapPage.getMaxSupportedSize PAGE_SIZE = BITMAP_SIZE :=
  rfl

/-- Extents the meta page has room for: `(PAGE_SIZE - 8) / 4`. -/
abbrev MAX_EXTENTS : Nat := 1022

/-- `MAX_VALID_PAGE_ID`: the number of data pages one meta page can manage. -/
abbrev MAX_VALID_PAGE_ID : Nat := 33423488

example : MAX_VALID_PAGE_ID = (PAGE_SIZE - 8) / 4 * BITMAP_SIZE :=
  rfl

structure DiskManager where
  file : PageId → PageData
  metaData : PageData

namespace DiskManager

open DiskFileMetaPage

/-! ## The model -/

/-- The constructor on a file with this content: the meta page is read in. -/
def openFile (file : PageId → PageData) : DiskManager :=
  { file := file, metaData := file META_PAGE_ID }

/-- A manager constructed on a new file. -/
def fresh : DiskManager :=
  openFile fun _ => Buf.zero PAGE_SIZE

/-- `Close` (and the destructor) only closes the stream; what stays is the file. -/
def close (dm : DiskManager) : PageId → PageData :=
  dm.file

def readPhysicalPage (dm : DiskManager) (physicalPageId : PageId) : PageData :=
  dm.file physicalPageId

def writePhysicalPage (dm : DiskManager) (physicalPageId : PageId) (pageData : PageData) :
    DiskManager :=
  { dm with file := Function.update dm.file physicalPageId pageData }

/-- `MapPageId`, computed in `size_t` and cut down to `page_id_t`. -/
def mapPageId (logicalPageId : PageId) : PageId :=
  Int32.ofNat (sizeT logicalPageId / BITMAP_SIZE + sizeT logicalPageId + 2)

def readPage (dm : DiskManager) (logicalPageId : PageId) : Result PageData := do
  assert (0 ≤ logicalPageId.toInt) "Invalid page id."
  .ok (dm.readPhysicalPage (mapPageId logicalPageId))

def writePage (dm : DiskManager) (logicalPageId : PageId) (pageData : PageData) :
    Result DiskManager := do
  assert (0 ≤ logicalPageId.toInt) "Invalid page id."
  .ok (dm.writePhysicalPage (mapPageId logicalPageId) pageData)

/-- The address `(pageSize + 1) * extentIndex + 1` of a bitmap page. -/
def bitmapAddr (extentIndex : Nat) : PageId :=
  Int32.ofNat ((BITMAP_SIZE + 1) * extentIndex + 1)

/-- The loop of `AllocatePage` over the open extents: the first one with room, from index `i` on,
or the index past the last when there is none. -/
def findExtent (m : Mem) : Nat → Nat → Nat
  | 0, i => i
  | k + 1, i => if getExtentUsedPage m i < BITMAP_SIZE then i else findExtent m k (i + 1)

def allocatePage (dm : DiskManager) : Result (PageId × DiskManager) :=
  let extentNums := numExtents dm.metaData.mem
  let extentIndex := findExtent dm.metaData.mem extentNums 0
  let meta₁ := dm.metaData.setU32 0 (numAllocatedPages dm.metaData.mem + 1)
  let bmAddr := bitmapAddr extentIndex
  -- `extent_used_page_[extentIndex]` lies past the end of the meta page from index 1022 on.
  if 8 + 4 * extentIndex + 4 ≤ PAGE_SIZE then
    if extentIndex < extentNums then
      let (_, ofs, currBMap) :=
        BitmapPage.allocatePage PAGE_SIZE (dm.readPhysicalPage bmAddr).mem
      let meta₂ := meta₁.setU32 (8 + 4 * extentIndex) (extentUsedPage meta₁.mem extentIndex + 1)
      .ok (Int32.ofNat (ofs + BITMAP_SIZE * extentIndex),
        { dm with metaData := meta₂ }.writePhysicalPage bmAddr (Buf.ofMem PAGE_SIZE currBMap))
    else
      let meta₂ := meta₁.setU32 4 (numExtents meta₁.mem + 1)
      let meta₃ := meta₂.setU32 (8 + 4 * extentIndex) (extentUsedPage meta₂.mem extentIndex + 1)
      let (_, ofs, newBMap) :=
        BitmapPage.allocatePage PAGE_SIZE (Buf.zero PAGE_SIZE).mem
      .ok (Int32.ofNat (ofs + BITMAP_SIZE * extentIndex),
        { dm with metaData := meta₃ }.writePhysicalPage bmAddr (Buf.ofMem PAGE_SIZE newBMap))
  else
    .error .outOfBounds

def deAllocatePage (dm : DiskManager) (logicalPageId : PageId) : Result DiskManager :=
  let extentIndex := sizeT logicalPageId / BITMAP_SIZE % 2 ^ 32
  let ofs := sizeT logicalPageId % BITMAP_SIZE
  let (done, currBMap) :=
    BitmapPage.deAllocatePage (dm.readPhysicalPage (bitmapAddr extentIndex)).mem ofs
  if done then
    if 8 + 4 * extentIndex + 4 ≤ PAGE_SIZE then
      let dm₁ := dm.writePhysicalPage (bitmapAddr extentIndex) (Buf.ofMem PAGE_SIZE currBMap)
      let meta₁ :=
        dm₁.metaData.setU32 0 (numAllocatedPages dm₁.metaData.mem + (2 ^ 32 - 1))
      .ok { dm₁ with
        metaData := meta₁.setU32 (8 + 4 * extentIndex)
          (extentUsedPage meta₁.mem extentIndex + (2 ^ 32 - 1)) }
    else
      .error .outOfBounds
  else
    .ok dm

def isPageFree (dm : DiskManager) (logicalPageId : PageId) : Bool :=
  let extentIndex := sizeT logicalPageId / BITMAP_SIZE % 2 ^ 32
  let ofs := sizeT logicalPageId % BITMAP_SIZE
  BitmapPage.isPageFree (dm.readPhysicalPage (bitmapAddr extentIndex)).mem ofs

/-! ## Addresses -/

/-- Extents a logical page id of 31 bits can fall into. -/
abbrev EXTENT_BOUND : Nat := 65665

theorem extentIndex_lt {p : PageId} (hp : 0 ≤ p.toInt) : sizeT p / BITMAP_SIZE < EXTENT_BOUND := by
  have h := sizeT_lt hp
  simp only [BITMAP_SIZE, EXTENT_BOUND]
  omega

theorem bitmapAddr_inj {j k : Nat} (hj : j < EXTENT_BOUND) (hk : k < EXTENT_BOUND)
    (h : bitmapAddr j = bitmapAddr k) : j = k := by
  simp only [EXTENT_BOUND] at hj hk
  simp only [bitmapAddr, BITMAP_SIZE] at h
  have := ofNat_inj_of_lt (by omega) (by omega) h
  omega

/-- The data page of a logical id is never a bitmap page. -/
theorem mapPageId_ne_bitmapAddr {p : PageId} (hp : 0 ≤ p.toInt) {k : Nat}
    (hk : k < EXTENT_BOUND) : mapPageId p ≠ bitmapAddr k := by
  intro h
  have hlt := sizeT_lt hp
  simp only [EXTENT_BOUND] at hk
  simp only [mapPageId, bitmapAddr, BITMAP_SIZE] at h
  have := ofNat_inj_of_lt (by omega) (by omega) h
  omega

theorem mapPageId_inj {p q : PageId} (hp : 0 ≤ p.toInt) (hq : 0 ≤ q.toInt)
    (h : mapPageId p = mapPageId q) : p = q := by
  have hlp := sizeT_lt hp
  have hlq := sizeT_lt hq
  simp only [mapPageId, BITMAP_SIZE] at h
  have hnat := ofNat_inj_of_lt (by omega) (by omega) h
  exact sizeT_inj hp hq (by omega)

/-- The meta page is neither a bitmap page nor a data page. -/
theorem bitmapAddr_ne_meta {k : Nat} (hk : k < EXTENT_BOUND) : bitmapAddr k ≠ META_PAGE_ID := by
  intro h
  simp only [EXTENT_BOUND] at hk
  simp only [bitmapAddr, BITMAP_SIZE] at h
  have := ofNat_inj_of_lt (b := 0) (by omega) (by omega) h
  omega

theorem mapPageId_ne_meta {p : PageId} (hp : 0 ≤ p.toInt) : mapPageId p ≠ META_PAGE_ID := by
  intro h
  have hlt := sizeT_lt hp
  simp only [mapPageId, BITMAP_SIZE] at h
  have := ofNat_inj_of_lt (b := 0) (by omega) (by omega) h
  omega

/-- As a number: no conversion cuts anything off. -/
theorem mapPageId_toInt {p : PageId} (hp : 0 ≤ p.toInt) (hlt : p.toInt < MAX_VALID_PAGE_ID) :
    (mapPageId p).toInt = sizeT p / BITMAP_SIZE + sizeT p + 2 := by
  have hsize := sizeT_of_nonneg hp
  rw [mapPageId, ofNat_toInt]
  · push_cast
    rfl
  · simp only [MAX_VALID_PAGE_ID, BITMAP_SIZE] at *
    omega

theorem bitmapAddr_toInt {k : Nat} (hk : k ≤ MAX_EXTENTS) :
    (bitmapAddr k).toInt = (BITMAP_SIZE + 1) * k + 1 := by
  rw [bitmapAddr, ofNat_toInt]
  · push_cast
    rfl
  · simp only [MAX_EXTENTS, BITMAP_SIZE] at *
    omega

/-- The data pages of the file are apart from each other, from the meta page and from every
bitmap: page `p` stands behind the bitmap of extent `p / N`, at the place of its bit `p % N`. -/
theorem data_pages_apart {p q : PageId} (hp : 0 ≤ p.toInt) (hpmax : p.toInt < MAX_VALID_PAGE_ID)
    (hq : 0 ≤ q.toInt) :
    (mapPageId p).toInt = p.toInt / BITMAP_SIZE + p.toInt + 2 ∧
      (mapPageId p = mapPageId q → p = q) ∧
      mapPageId p ≠ META_PAGE_ID ∧
      (∀ k : Nat, (mapPageId p).toInt ≠ (BITMAP_SIZE + 1) * k + 1) ∧
      (∀ k, k < EXTENT_BOUND → mapPageId p ≠ bitmapAddr k) ∧
      (bitmapAddr (sizeT p / BITMAP_SIZE)).toInt < (mapPageId p).toInt ∧
      (mapPageId p).toInt < (bitmapAddr (sizeT p / BITMAP_SIZE + 1)).toInt ∧
      (mapPageId p).toInt =
        (bitmapAddr (sizeT p / BITMAP_SIZE)).toInt + 1 + (sizeT p % BITMAP_SIZE : Nat) := by
  have hsize := sizeT_of_nonneg hp
  have hmap := mapPageId_toInt hp hpmax
  have hk : sizeT p / BITMAP_SIZE < MAX_EXTENTS := by
    simp only [MAX_VALID_PAGE_ID, BITMAP_SIZE, MAX_EXTENTS] at *
    omega
  have haddr := bitmapAddr_toInt (le_of_lt hk)
  have hnext := bitmapAddr_toInt (Nat.succ_le_of_lt hk)
  refine ⟨by rw [hmap, hsize], mapPageId_inj hp hq, mapPageId_ne_meta hp, fun k => ?_,
    fun k hk => mapPageId_ne_bitmapAddr hp hk, ?_, ?_, ?_⟩
  · rw [hmap]
    simp only [BITMAP_SIZE]
    omega
  · rw [hmap, haddr]
    simp only [BITMAP_SIZE]
    omega
  · rw [hmap, hnext]
    simp only [BITMAP_SIZE, Nat.succ_eq_add_one]
    push_cast
    omega
  · rw [hmap, haddr]
    simp only [BITMAP_SIZE]
    omega

/-- The last page of extent 0 and the first of extent 1, with the bitmap of extent 1 between. -/
theorem data_pages_apart_boundary :
    (mapPageId 32703).toInt = 32705 ∧ (bitmapAddr 1).toInt = 32706 ∧
      (mapPageId 32704).toInt = 32707 ∧ mapPageId 32703 ≠ mapPageId 32704 := by
  refine ⟨by decide, by decide, by decide, fun heq => ?_⟩
  have h := (data_pages_apart (p := 32703) (q := 32704) (by decide) (by decide) (by decide)).2.1
    heq
  exact absurd h (by decide)

end DiskManager
end MiniSQL
