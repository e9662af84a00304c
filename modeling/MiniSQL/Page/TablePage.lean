import MiniSQL.Record.Row

/-!
# TablePage — the slotted page

`page/table_page.h` and `page/table_page.cpp`.  A page is the memory behind `GetData()`; a write
past its end would show as a write at 4096 or above.  The header is

`| PageId | LSN | PrevPageId | NextPageId | FreeSpacePointer | TupleCount | slots … |`

with a slot of eight bytes (offset, size) for each tuple.  The tuples grow down from the end of
the page.  The top bit of a size marks the tuple as deleted.
-/

namespace MiniSQL

open Lib

/-- An integer converted to `uint32_t`. -/
def wrap32 (x : Int) : Nat :=
  (x % 2 ^ 32).toNat

namespace TablePage

/-! ## Header fields -/

abbrev SIZE_TABLE_PAGE_HEADER : Nat := 24
abbrev SIZE_TUPLE : Nat := 8

/-- The largest row a page can take: `PAGE_SIZE - SIZE_TABLE_PAGE_HEADER - SIZE_TUPLE`. -/
abbrev SIZE_MAX_ROW : Nat := 4064

def getTablePageId (m : Mem) : PageId :=
  (UInt32.ofNat (m.u32 0)).toInt32

def getPrevPageId (m : Mem) : PageId :=
  (UInt32.ofNat (m.u32 8)).toInt32

def getNextPageId (m : Mem) : PageId :=
  (UInt32.ofNat (m.u32 12)).toInt32

def setPrevPageId (m : Mem) (prevPageId : PageId) : Mem :=
  m.setU32 8 prevPageId.toUInt32.toNat

def setNextPageId (m : Mem) (nextPageId : PageId) : Mem :=
  m.setU32 12 nextPageId.toUInt32.toNat

def getFreeSpacePointer (m : Mem) : Nat :=
  m.u32 16

def setFreeSpacePointer (m : Mem) (freeSpacePointer : Nat) : Mem :=
  m.setU32 16 freeSpacePointer

def getTupleCount (m : Mem) : Nat :=
  m.u32 20

def setTupleCount (m : Mem) (tupleCount : Nat) : Mem :=
  m.setU32 20 tupleCount

/-- Computed in `size_t` and returned as `uint32_t`. -/
def getFreeSpaceRemaining (m : Mem) : Nat :=
  wrap32 (getFreeSpacePointer m - SIZE_TABLE_PAGE_HEADER - SIZE_TUPLE * getTupleCount m)

def getTupleOffsetAtSlot (m : Mem) (slotNum : Nat) : Nat :=
  m.u32 (24 + SIZE_TUPLE * slotNum)

def setTupleOffsetAtSlot (m : Mem) (slotNum offset : Nat) : Mem :=
  m.setU32 (24 + SIZE_TUPLE * slotNum) offset

def getTupleSize (m : Mem) (slotNum : Nat) : Nat :=
  m.u32 (28 + SIZE_TUPLE * slotNum)

def setTupleSize (m : Mem) (slotNum size : Nat) : Mem :=
  m.setU32 (28 + SIZE_TUPLE * slotNum) size

abbrev DELETE_MASK : Nat := 2147483648

def isDeleted (tupleSize : Nat) : Bool :=
  tupleSize &&& DELETE_MASK != 0 || tupleSize == 0

def setDeletedFlag (tupleSize : Nat) : Nat :=
  tupleSize ||| DELETE_MASK

/-- `tuple_size & (~DELETE_MASK)`, cut to 32 bits. -/
def unsetDeletedFlag (tupleSize : Nat) : Nat :=
  tupleSize &&& (2 ^ 31 - 1)

/-! ## Operations -/

def init (m : Mem) (pageId prevId : PageId) : Mem :=
  let m₁ := m.setU32 0 pageId.toUInt32.toNat
  let m₂ := setPrevPageId m₁ prevId
  let m₃ := setNextPageId m₂ INVALID_PAGE_ID
  let m₄ := setFreeSpacePointer m₃ PAGE_SIZE
  setTupleCount m₄ 0

/-- The search for a slot to reuse: the first empty one, else the tuple count. -/
def findSlot (m : Mem) : Nat → Nat → Nat
  | 0, i => i
  | k + 1, i => if getTupleSize m i = 0 then i else findSlot m k (i + 1)

/-- `InsertTuple`: whether it was done, the row with its `RowId` and the page. -/
def insertTuple (m : Mem) (row : Row) (schema : Schema) : Result (Bool × Row × Mem) := do
  let serializedSize ← row.getSerializedSize schema
  assert (serializedSize > 0) "Can not have empty row."
  if getFreeSpaceRemaining m < serializedSize + SIZE_TUPLE then .ok (false, row, m)
  else
    let i := findSlot m (getTupleCount m) 0
    -- The source tests the space once more for a new slot; nothing changed in between.
    if i = getTupleCount m ∧ getFreeSpaceRemaining m < serializedSize + SIZE_TUPLE then
      .ok (false, row, m)
    else do
      let m₁ := setFreeSpacePointer m (wrap32 (getFreeSpacePointer m - serializedSize))
      -- On a page of zeros the pointer wraps, and the tuple would start far behind the page.
      if getFreeSpacePointer m₁ + serializedSize ≤ PAGE_SIZE then do
        let (writeBytes, m₂) ← row.serializeTo schema m₁ (getFreeSpacePointer m₁)
        assert (writeBytes = serializedSize) "Unexpected behavior in row serialize."
        let m₃ := setTupleOffsetAtSlot m₂ i (getFreeSpacePointer m₂)
        let m₄ := setTupleSize m₃ i serializedSize
        let row' : Row := { row with rid := ⟨getTablePageId m₄, UInt32.ofNat i⟩ }
        let m₅ := if i = getTupleCount m₄ then setTupleCount m₄ (getTupleCount m₄ + 1) else m₄
        .ok (true, row', m₅)
      else .error .outOfBounds

def markDelete (m : Mem) (rid : RowId) : Bool × Mem :=
  let slotNum := rid.slotNum.toNat
  if slotNum ≥ getTupleCount m then (false, m)
  else
    let tupleSize := getTupleSize m slotNum
    if isDeleted tupleSize then (false, m)
    else if tupleSize > 0 then (true, setTupleSize m slotNum (setDeletedFlag tupleSize))
    else (true, m)

/-- The loop of `UpdateTuple` over the slots, from slot `i` on for `k` slots: a tuple that starts
below `limit` moves by `tupleSize - newSize`. -/
def moveOffsets (limit : Nat) (tupleSize newSize : Nat) : Nat → Nat → Mem → Mem
  | 0, _, m => m
  | k + 1, i, m =>
    let tupleOffset := getTupleOffsetAtSlot m i
    let m' :=
      if getTupleSize m i > 0 ∧ tupleOffset < limit then
        setTupleOffsetAtSlot m i (wrap32 (tupleOffset + tupleSize - newSize))
      else m
    moveOffsets limit tupleSize newSize k (i + 1) m'

/-- `UpdateTuple`: whether it was done, the old row filled in and the page. -/
def updateTuple (m : Mem) (newRow oldRow : Row) (schema : Schema) :
    Result (Bool × Row × Mem) := do
  assert (oldRow.rid ≠ INVALID_ROWID) "invalid old row."
  let serializedSize ← newRow.getSerializedSize schema
  assert (serializedSize > 0) "Can not have empty row."
  let slotNum := oldRow.rid.slotNum.toNat
  if slotNum ≥ getTupleCount m then .ok (false, oldRow, m)
  else
    let tupleSize := getTupleSize m slotNum
    if isDeleted tupleSize then .ok (false, oldRow, m)
    else if (getFreeSpaceRemaining m + tupleSize) % 2 ^ 32 < serializedSize then
      .ok (false, oldRow, m)
    else do
      let tupleOffset := getTupleOffsetAtSlot m slotNum
      let (oldRow', readBytes) ← oldRow.deserializeFrom schema m tupleOffset
      assert (tupleSize = readBytes) "Unexpected behavior in tuple deserialize."
      let freeSpacePointer := getFreeSpacePointer m
      assert (tupleOffset ≥ freeSpacePointer)
        "Offset should appear after current free space position."
      -- Addresses below the page are out of bounds; the check for space excludes them.
      if serializedSize ≤ freeSpacePointer + tupleSize then do
        let m₁ := m.memmove (freeSpacePointer + tupleSize - serializedSize) freeSpacePointer
          (tupleOffset - freeSpacePointer)
        let m₂ := setFreeSpacePointer m₁ (wrap32 (freeSpacePointer + tupleSize - serializedSize))
        let (_, m₃) ← newRow.serializeTo schema m₂ (tupleOffset + tupleSize - serializedSize)
        let m₄ := setTupleSize m₃ slotNum serializedSize
        let newSize ← newRow.getSerializedSize schema
        let m₅ := moveOffsets ((tupleOffset + tupleSize) % 2 ^ 32) tupleSize newSize
          (getTupleCount m₄) 0 m₄
        .ok (true, oldRow', m₅)
      else .error .outOfBounds

/-- `ApplyDelete`: the tuples below the deleted one move up over it.  The slot count goes down by
one, whichever slot is emptied, and the loop over the offsets runs to the new count; its test and
its step are those of `UpdateTuple` with a new size of zero. -/
def applyDelete (m : Mem) (rid : RowId) : Result Mem := do
  let slotNum := rid.slotNum.toNat
  assert (slotNum < getTupleCount m) "Cannot have more slots than tuples."
  let tupleOffset := getTupleOffsetAtSlot m slotNum
  let sizeWord := getTupleSize m slotNum
  let tupleSize := if isDeleted sizeWord then unsetDeletedFlag sizeWord else sizeWord
  let freeSpacePointer := getFreeSpacePointer m
  assert (tupleOffset ≥ freeSpacePointer) "Free space appears before tuples."
  let m₁ := m.memmove (freeSpacePointer + tupleSize) freeSpacePointer
    (tupleOffset - freeSpacePointer)
  let m₂ := setFreeSpacePointer m₁ ((freeSpacePointer + tupleSize) % 2 ^ 32)
  let m₃ := setTupleSize m₂ slotNum 0
  let m₄ := setTupleCount m₃ (wrap32 (getTupleCount m₃ - 1))
  let m₅ := setTupleOffsetAtSlot m₄ slotNum 0
  .ok (moveOffsets tupleOffset tupleSize 0 (getTupleCount m₅) 0 m₅)

def rollbackDelete (m : Mem) (rid : RowId) : Result Mem := do
  let slotNum := rid.slotNum.toNat
  assert (slotNum < getTupleCount m) "We can't have more slots than tuples."
  let tupleSize := getTupleSize m slotNum
  if isDeleted tupleSize then .ok (setTupleSize m slotNum (unsetDeletedFlag tupleSize))
  else .ok m

/-- `GetTuple`: whether there is a tuple, and the row filled in. -/
def getTuple (m : Mem) (row : Row) (schema : Schema) : Result (Bool × Row) := do
  assert (row.rid ≠ INVALID_ROWID) "Invalid row."
  let slotNum := row.rid.slotNum.toNat
  if slotNum ≥ getTupleCount m then .ok (false, row)
  else
    let tupleSize := getTupleSize m slotNum
    if isDeleted tupleSize then .ok (false, row)
    else do
      let tupleOffset := getTupleOffsetAtSlot m slotNum
      let (row', readBytes) ← row.deserializeFrom schema m tupleOffset
      assert (tupleSize = readBytes) "Unexpected behavior in tuple deserialize."
      .ok (true, row')

/-- The first slot from `i` on, among `k`, whose tuple is not deleted. -/
def findLive (m : Mem) : Nat → Nat → Option Nat
  | 0, _ => none
  | k + 1, i => if isDeleted (getTupleSize m i) then findLive m k (i + 1) else some i

/-- `GetFirstTupleRid`: the flag and the id it sets. -/
def getFirstTupleRid (m : Mem) : Bool × RowId :=
  match findLive m (getTupleCount m) 0 with
  | some i => (true, ⟨getTablePageId m, UInt32.ofNat i⟩)
  | none => (false, ⟨INVALID_PAGE_ID, 0⟩)

/-- `GetNextTupleRid`. -/
def getNextTupleRid (m : Mem) (curRid : RowId) : Result (Bool × RowId) := do
  assert (curRid.pageId = getTablePageId m) "Wrong table!"
  -- `i < GetTupleCount()` is false at once when the slot is past the last.
  let next := (curRid.slotNum + 1).toNat
  match findLive m (getTupleCount m - next) next with
  | some i => .ok (true, ⟨getTablePageId m, UInt32.ofNat i⟩)
  | none => .ok (false, ⟨INVALID_PAGE_ID, 0⟩)

end TablePage
end MiniSQL
