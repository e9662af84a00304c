import MiniSQL.Buffer.LRUReplacer
import MiniSQL.Storage.PhysicalDisk

/-!
# BufferPoolManager — frames, page table and eviction

`buffer/buffer_pool_manager.cpp` and `page/page.h`.  A pool of size `n` has the frames `Fin n`.  A
call that hands a frame to its client returns the number of the frame; `none` is the null pointer.
Pin counts are natural numbers: the program's `int` would overflow only after `2 ^ 31` pins.

The pool stands on a disk manager of either level: on `DiskManager`, which takes the file for a map
of pages, or on `PhysicalDisk`, which reads and writes its bytes.
-/

namespace MiniSQL

open Lib

/-- The calls of the disk manager that the pool makes.  `ReadPage` returns only for a page id that
is not negative. -/
class Disk (D : Type) where
  readPage : D → PageId → Result (PageData × D)
  writePage : D → PageId → PageData → Result D
  allocatePage : D → Result (PageId × D)
  deAllocatePage : D → PageId → Result D
  readPage_nonneg : ∀ {d d' : D} {p : PageId} {pageData : PageData},
    readPage d p = .ok (pageData, d') → 0 ≤ p.toInt

/-- Reading the map of pages does not change it. -/
def DiskManager.read (dm : DiskManager) (p : PageId) : Result (PageData × DiskManager) := do
  let pageData ← dm.readPage p
  .ok (pageData, dm)

theorem DiskManager.read_eq_ok {dm dm' : DiskManager} {p : PageId} {pageData : PageData} :
    dm.read p = .ok (pageData, dm') ↔
      0 ≤ p.toInt ∧ pageData = dm.file (mapPageId p) ∧ dm' = dm := by
  by_cases hp : 0 ≤ p.toInt
  · simp only [read, readPage, hp, decide_true, assert_true, ok_bind, Except.ok.injEq,
      Prod.mk.injEq, true_and, readPhysicalPage]
    exact and_congr eq_comm eq_comm
  · simp [read, readPage, assert, hp]

instance : Disk DiskManager where
  readPage := DiskManager.read
  writePage := DiskManager.writePage
  allocatePage := DiskManager.allocatePage
  deAllocatePage := DiskManager.deAllocatePage
  readPage_nonneg := fun h => (DiskManager.read_eq_ok.mp h).1

section DiskManager

variable (dm : DiskManager) (p : PageId)

@[simp] theorem Disk.readPage_eq : Disk.readPage dm p = dm.read p :=
  rfl

@[simp] theorem Disk.writePage_eq (pageData : PageData) :
    Disk.writePage dm p pageData = dm.writePage p pageData :=
  rfl

@[simp] theorem Disk.allocatePage_eq : Disk.allocatePage dm = dm.allocatePage :=
  rfl

@[simp] theorem Disk.deAllocatePage_eq : Disk.deAllocatePage dm p = dm.deAllocatePage p :=
  rfl

end DiskManager

theorem PhysicalDisk.readPage_nonneg {pd pd' : PhysicalDisk} {p : PageId} {pageData : PageData}
    (h : pd.readPage p = .ok (pageData, pd')) : 0 ≤ p.toInt := by
  rcases bind_eq_ok.mp h with ⟨_, hread, _⟩
  rcases bind_eq_ok.mp hread with ⟨_, hp, _⟩
  simpa only [assert_eq_ok, decide_eq_true_eq] using hp

instance : Disk PhysicalDisk where
  readPage := PhysicalDisk.readPage
  writePage := PhysicalDisk.writePage
  allocatePage := PhysicalDisk.allocatePage
  deAllocatePage := PhysicalDisk.deAllocatePage
  readPage_nonneg := PhysicalDisk.readPage_nonneg

/-- A frame of the pool. -/
structure Page where
  data : PageData
  pageId : PageId
  pinCount : Nat
  isDirty : Bool

/-- A constructed `Page`: zeroed, with no page in it. -/
def Page.empty : Page :=
  { data := Buf.zero PAGE_SIZE, pageId := INVALID_PAGE_ID, pinCount := 0, isDirty := false }

structure BufferPoolManager (n : Nat) (D : Type := DiskManager) where
  pages : Fin n → Page
  pageTable : AList fun _ : PageId => Fin n
  replacer : LRUReplacer (Fin n)
  freeList : List (Fin n)
  diskManager : D

namespace BufferPoolManager

variable {n : Nat} {D : Type}

/-! ## The model -/

/-- The constructor: every frame is on the free list. -/
def init (n : Nat) (diskManager : D) : BufferPoolManager n D :=
  { pages := fun _ => Page.empty
    pageTable := ∅
    replacer := LRUReplacer.empty
    freeList := List.finRange n
    diskManager := diskManager }

def setPage (s : BufferPoolManager n D) (f : Fin n) (page : Page) : BufferPoolManager n D :=
  { s with pages := Function.update s.pages f page }

/-- A frame to put a page in: the front of the free list, else the victim of the replacer. -/
def pickFrame (s : BufferPoolManager n D) : Option (Fin n × BufferPoolManager n D) :=
  match s.freeList with
  | f :: rest => some (f, { s with freeList := rest })
  | [] =>
    match s.replacer.victim with
    | some (f, replacer) => some (f, { s with replacer := replacer })
    | none => none

/-- `if (IsDirty()) WritePage(page_id_, …)`: `FetchPage` passes the frame's own bytes, `NewPage`
passes `EMPTY_PAGE_DATA`. -/
def writeBack [Disk D] (page : Page) (data : PageData) (dm : D) : Result D :=
  if page.isDirty then Disk.writePage dm page.pageId data else .ok dm

def fetchPage [Disk D] (s : BufferPoolManager n D) (pageId : PageId) :
    Result (Option (Fin n) × BufferPoolManager n D) :=
  match s.pageTable.lookup pageId with
  | none =>
    match s.pickFrame with
    | none => .ok (none, s)
    | some (f, s₁) => do
      let page := s₁.pages f
      let dm ← writeBack page page.data s₁.diskManager
      let (data, dm) ← Disk.readPage dm pageId
      -- The frame held no page (free list) or one nobody pins (victim); it gets the new page.
      .ok (some f,
        { pages := Function.update s₁.pages f
            { data := data, pageId := pageId, pinCount := page.pinCount + 1, isDirty := false }
          pageTable := (s₁.pageTable.erase page.pageId).insert pageId f
          replacer := s₁.replacer.pin f
          freeList := s₁.freeList
          diskManager := dm })
  | some f =>
    .ok (some f,
      { s with
        pages := Function.update s.pages f
          { s.pages f with pinCount := (s.pages f).pinCount + 1 }
        replacer := s.replacer.pin f })

def newPage [Disk D] (s : BufferPoolManager n D) :
    Result (Option (PageId × Fin n) × BufferPoolManager n D) :=
  if ∀ f, (s.pages f).pinCount ≠ 0 then .ok (none, s)
  else
    match s.pickFrame with
    | none => .ok (none, s)
    | some (f, s₁) => do
      let (pageId, dm₁) ← Disk.allocatePage s₁.diskManager
      let page := s₁.pages f
      -- What is written for the evicted page are zeros, not the bytes of the frame.
      let dm₂ ← writeBack page (Buf.zero PAGE_SIZE) dm₁
      .ok (some (pageId, f),
        { pages := Function.update s₁.pages f
            { data := Buf.zero PAGE_SIZE, pageId := pageId, pinCount := page.pinCount + 1,
              isDirty := false }
          pageTable := (s₁.pageTable.erase page.pageId).insert pageId f
          replacer := s₁.replacer
          freeList := s₁.freeList
          diskManager := dm₂ })

/-- `DeletePage`: the page is deallocated before anything is looked at, and its frame goes to the
free list without leaving the replacer. -/
def deletePage [Disk D] (s : BufferPoolManager n D) (pageId : PageId) :
    Result (Bool × BufferPoolManager n D) := do
  let dm ← Disk.deAllocatePage s.diskManager pageId
  match s.pageTable.lookup pageId with
  | none => .ok (true, { s with diskManager := dm })
  | some f =>
    if (s.pages f).pinCount ≠ 0 then .ok (false, { s with diskManager := dm })
    else
      .ok (true,
        { s with
          pages := Function.update s.pages f
            { s.pages f with pageId := INVALID_PAGE_ID, pinCount := 0, isDirty := false }
          pageTable := s.pageTable.erase pageId
          freeList := s.freeList ++ [f]
          diskManager := dm })

def unpinPage (s : BufferPoolManager n D) (pageId : PageId) (isDirty : Bool) :
    Bool × BufferPoolManager n D :=
  match s.pageTable.lookup pageId with
  | none => (true, s)
  | some f =>
    -- The flag is set also when the page turns out not to be pinned.
    let page := { s.pages f with isDirty := (s.pages f).isDirty || isDirty }
    if page.pinCount = 0 then (false, s.setPage f page)
    else
      let s₁ := s.setPage f { page with pinCount := page.pinCount - 1 }
      if page.pinCount - 1 = 0 then (true, { s₁ with replacer := s₁.replacer.unpin f })
      else (true, s₁)

def flushPage [Disk D] (s : BufferPoolManager n D) (pageId : PageId) :
    Result (Bool × BufferPoolManager n D) :=
  match s.pageTable.lookup pageId with
  | none => .ok (false, s)
  | some f => do
    let dm ← Disk.writePage s.diskManager pageId (s.pages f).data
    .ok (true, { s.setPage f { s.pages f with isDirty := false } with diskManager := dm })

def isPageFree (s : BufferPoolManager n) (pageId : PageId) : Bool :=
  s.diskManager.isPageFree pageId

/-- The destructor flushes the pages of the table, in the table's own order. -/
def destroy [Disk D] (s : BufferPoolManager n D) (order : List PageId) :
    Result (BufferPoolManager n D) :=
  order.foldlM (fun s pageId => do
    let (_, s') ← s.flushPage pageId
    .ok s') s

/-- A client stores `data` through the frame pointer it holds. -/
def write (s : BufferPoolManager n D) (f : Fin n) (data : PageData) : BufferPoolManager n D :=
  s.setPage f { s.pages f with data := data }

/-! ## Calls as transitions -/

/-- A completed call of the pool, with what it returned, or a store by a client. -/
inductive Event (n : Nat)
  | fetchPage (pageId : PageId) (frame : Option (Fin n))
  | newPage (page : Option (PageId × Fin n))
  | unpinPage (pageId : PageId) (isDirty : Bool) (done : Bool)
  | flushPage (pageId : PageId) (done : Bool)
  | deletePage (pageId : PageId) (done : Bool)
  | write (frame : Fin n) (pageId : PageId) (data : PageData)

def Step [Disk D] (s : BufferPoolManager n D) : Event n → BufferPoolManager n D → Prop
  | .fetchPage pageId frame, s' => s.fetchPage pageId = .ok (frame, s')
  | .newPage page, s' => s.newPage = .ok (page, s')
  | .unpinPage pageId isDirty done, s' => s.unpinPage pageId isDirty = (done, s')
  | .flushPage pageId done, s' => s.flushPage pageId = .ok (done, s')
  | .deletePage pageId done, s' => s.deletePage pageId = .ok (done, s')
  | .write f pageId data, s' => (s.pages f).pageId = pageId ∧ s' = s.write f data

end BufferPoolManager
end MiniSQL
