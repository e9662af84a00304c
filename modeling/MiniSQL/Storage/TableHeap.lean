import MiniSQL.Buffer.BufferPoolManager
import MiniSQL.Page.TablePage

/-!
# TableHeap — a doubly linked list of slotted pages

`storage/table_heap.h` and `storage/table_heap.cpp`.  The pages live in the buffer pool; a
`TablePage *` is the frame `FetchPage` or `NewPage` returned, and stays a pointer to that frame
after the page was unpinned.  A loop takes `fuel`, the number of passes it may make, and returns
`none` when it is not done after them.
-/

namespace MiniSQL

open Lib

namespace BufferPoolManager

variable {n : Nat}

/-- `GetData()` of a frame. -/
def bytes (s : BufferPoolManager n) (f : Fin n) : Mem :=
  (s.pages f).data.mem

/-- The bytes a page operation left in a frame. -/
def setBytes (s : BufferPoolManager n) (f : Fin n) (m : Mem) : BufferPoolManager n :=
  s.write f (Buf.ofMem PAGE_SIZE m)

/-- Following a pointer that a call of the pool returned. -/
def deref {α : Type} : Option α → Result α
  | some a => .ok a
  | none => .error .nullPointer

end BufferPoolManager

structure TableHeap where
  firstPageId : PageId
  schema : Schema

namespace TableHeap

open BufferPoolManager

variable {n : Nat}

/-- The constructor that makes the first page; its previous page is `PAGE_SIZE`. -/
def create (s : BufferPoolManager n) (schema : Schema) :
    Result (TableHeap × BufferPoolManager n) := do
  let (reply, s₁) ← s.newPage
  match reply with
  | none => .error (.assertion "Error: TableHeap cannot create first page.")
  | some (firstPageId, f) =>
    let s₂ := s₁.setBytes f (TablePage.init (s₁.bytes f) firstPageId 4096)
    .ok (⟨firstPageId, schema⟩, (s₂.unpinPage firstPageId true).2)

/-- The page after `curr`.  When there is none, a new page is linked behind `curr` and `row` is
inserted in it; `none` when no page can be made. -/
def nextPage (schema : Schema) (s : BufferPoolManager n) (curr : Fin n) (row : Row) :
    Result (Option (PageId × Row) × BufferPoolManager n) :=
  let nextPgId := TablePage.getNextPageId (s.bytes curr)
  if nextPgId ≠ INVALID_PAGE_ID then .ok (some (nextPgId, row), s)
  else do
    let (reply, s₁) ← s.newPage
    match reply with
    | none => .ok (none, s₁)
    | some (nextPgId, target) =>
      if nextPgId = INVALID_PAGE_ID then .ok (none, s₁)
      else do
        let s₂ := s₁.setBytes target
          (TablePage.init (s₁.bytes target) nextPgId (s₁.pages curr).pageId)
        -- `curr` was unpinned before; the link is stored through the old pointer.
        let s₃ := s₂.setBytes curr
          (TablePage.setNextPageId (s₂.bytes curr) (s₂.pages target).pageId)
        let (_, row', m) ← TablePage.insertTuple (s₃.bytes target) row schema
        .ok (some (nextPgId, row'), s₃.setBytes target m)

/-- The loop of `InsertTuple`: its condition inserts, its body goes to the next page. -/
def insertLoop (schema : Schema) (fuel : Nat) (s : BufferPoolManager n) (curr : Fin n)
    (row : Row) : Result (Option (Bool × Row × BufferPoolManager n)) := do
  let (done, row₁, m) ← TablePage.insertTuple (s.bytes curr) row schema
  let s₁ := s.setBytes curr m
  if done then .ok (some (true, row₁, (s₁.unpinPage (s₁.pages curr).pageId true).2))
  else
    match fuel with
    | 0 => .ok none
    | fuel + 1 => do
      let (next, s₂) ← nextPage schema s₁ curr row₁
      match next with
      | none => .ok (some (false, row₁, s₂))
      | some (nextPgId, row₂) => do
        -- A page just made is fetched like any other and meets the condition again.
        let (reply, s₃) ← s₂.fetchPage nextPgId
        let f ← deref reply
        insertLoop schema fuel (s₃.unpinPage (s₃.pages f).pageId false).2 f row₂

/-- `InsertTuple`: what it returns, the row with its `RowId` and the pool. -/
def insertTuple (heap : TableHeap) (fuel : Nat) (s : BufferPoolManager n) (row : Row) :
    Result (Option (Bool × Row × BufferPoolManager n)) := do
  let (reply, s₁) ← s.fetchPage heap.firstPageId
  let s₂ := (s₁.unpinPage heap.firstPageId false).2
  let f ← deref reply
  insertLoop heap.schema fuel s₂ f row

def markDelete (s : BufferPoolManager n) (rid : RowId) : Result (Bool × BufferPoolManager n) := do
  let (reply, s₁) ← s.fetchPage rid.pageId
  match reply with
  | none => .ok (false, s₁)
  | some f =>
    let s₂ := s₁.setBytes f (TablePage.markDelete (s₁.bytes f) rid).2
    .ok (true, (s₂.unpinPage (TablePage.getTablePageId (s₂.bytes f)) true).2)

/-- `UpdateTuple` returns as soon as it has the page; without a page it follows a null pointer. -/
def updateTuple (s : BufferPoolManager n) (_row : Row) (rid : RowId) :
    Result (Bool × BufferPoolManager n) := do
  let (reply, s₁) ← s.fetchPage rid.pageId
  match reply with
  | some _ => .ok (false, s₁)
  | none => .error .nullPointer

/-- `ApplyDelete` has the test of `UpdateTuple`. -/
def applyDelete (s : BufferPoolManager n) (rid : RowId) : Result (BufferPoolManager n) := do
  let (reply, s₁) ← s.fetchPage rid.pageId
  match reply with
  | some _ => .ok s₁
  | none => .error .nullPointer

def rollbackDelete (s : BufferPoolManager n) (rid : RowId) : Result (BufferPoolManager n) := do
  let (reply, s₁) ← s.fetchPage rid.pageId
  match reply with
  | none => .error (.assertion "page != nullptr")
  | some f => do
    let m ← TablePage.rollbackDelete (s₁.bytes f) rid
    let s₂ := s₁.setBytes f m
    .ok (s₂.unpinPage (TablePage.getTablePageId (s₂.bytes f)) true).2

/-- `GetTuple`: what it returns, the row filled in and the pool. -/
def getTuple (heap : TableHeap) (s : BufferPoolManager n) (row : Row) :
    Result (Bool × Row × BufferPoolManager n) := do
  let currPgId := row.rid.pageId
  let (reply, s₁) ← s.fetchPage currPgId
  match reply with
  | none => .ok (false, row, s₁)
  | some f => do
    let (found, row') ← TablePage.getTuple (s₁.bytes f) row heap.schema
    .ok (found, row', (s₁.unpinPage currPgId false).2)

/-! ## Freeing a heap

`fuel` bounds the depth of the recursion and the passes of the loop; `none` is a call that is not
done within it. -/

/-- `DeleteTable`: a page stays pinned while the pages behind it are deleted.  The argument
`INVALID_PAGE_ID`, its default, stands for the first page. -/
def deleteTable (heap : TableHeap) (fuel : Nat) (s : BufferPoolManager n) (pageId : PageId) :
    Result (Option (BufferPoolManager n)) :=
  match fuel with
  | 0 => .ok none
  | fuel + 1 =>
    if pageId ≠ INVALID_PAGE_ID then do
      let (reply, s₁) ← s.fetchPage pageId
      let f ← deref reply
      let nextPageId := TablePage.getNextPageId (s₁.bytes f)
      let rest ← (if nextPageId ≠ INVALID_PAGE_ID then heap.deleteTable fuel s₁ nextPageId
        else .ok (some s₁))
      match rest with
      | none => .ok none
      | some s₂ => do
        let (_, s₃) ← (s₂.unpinPage pageId false).2.deletePage pageId
        .ok (some s₃)
    else heap.deleteTable fuel s heap.firstPageId

/-- The loop of `FreeTableHeap`. -/
def freeLoop (fuel : Nat) (s : BufferPoolManager n) (nextPageId : PageId) :
    Result (Option (BufferPoolManager n)) :=
  if nextPageId ≠ INVALID_PAGE_ID then
    match fuel with
    | 0 => .ok none
    | fuel + 1 => do
      let (reply, s₁) ← s.fetchPage nextPageId
      match reply with
      | none => .error (.assertion "page != nullptr")
      | some f => do
        let next := TablePage.getNextPageId (s₁.bytes f)
        let (_, s₂) ← (s₁.unpinPage nextPageId false).2.deletePage nextPageId
        freeLoop fuel s₂ next
  else .ok (some s)

def freeTableHeap (heap : TableHeap) (fuel : Nat) (s : BufferPoolManager n) :
    Result (Option (BufferPoolManager n)) :=
  freeLoop fuel s heap.firstPageId

end TableHeap
end MiniSQL
