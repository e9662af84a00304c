import MiniSQL.Record.Compare

/-!
# GenericKey — index keys and their comparison

`index/generic_key.h`.  A key is a buffer of `key_size_` bytes that holds a serialized row; the
buffer is the memory behind the pointer.  `CompareKeys` reads both rows back and compares them
field by field.
-/

namespace MiniSQL

open Lib

/-! ## The model -/

namespace Row

def getField (row : Row) (idx : Nat) : Result Field :=
  match row.fields[idx]? with
  | some field => .ok field
  | none => .error (.assertion "Failed to access field")

/-- The destructor of a row whose field `freed`, if any, has lost its data to `delete` already: a
field that was read from a buffer owns its characters and frees them. -/
def destroy (row : Row) (freed : Option Nat) : Result Unit :=
  match freed.bind fun i => row.fields[i]? with
  | some (.char _) => .error .doubleFree
  | _ => .ok ()

end Row

structure KeyManager where
  keySize : Nat
  keySchema : Schema

namespace KeyManager

def serializeFromKey (km : KeyManager) (keyBuf : Mem) (key : Row) (schema : Schema) :
    Result Mem := do
  let size ← key.getSerializedSize schema
  assert (key.fields.length = schema.getColumnCount) "field nums not match."
  assert (size ≤ km.keySize) "Index key size exceed max key size."
  let (_, m) ← key.serializeTo schema (keyBuf.store 0 (List.replicate km.keySize 0)) 0
  .ok m

def deserializeToKey (km : KeyManager) (keyBuf : Mem) (key : Row) (schema : Schema) :
    Result Row := do
  let (row, ofs) ← key.deserializeFrom schema keyBuf 0
  assert (ofs ≤ km.keySize) "Index key size exceed max key size."
  .ok row

/-- The column whose data are deleted when it decides a comparison. -/
def deleteData (column : Column) (i : Nat) : Option Nat :=
  if column.type = .kTypeChar then some i else none

/-- The loop of `CompareKeys` over `k` columns from column `i` on: the value to return, and the
column whose data were deleted before that. -/
def compareColumns (km : KeyManager) (lhsKey rhsKey : Row) :
    (k i : Nat) → Result (Int × Option Nat)
  | 0, _ => .ok (0, none)
  | k + 1, i => do
    let lhsValue ← lhsKey.getField i
    let rhsValue ← rhsKey.getField i
    let less ← lhsValue.compareLessThan rhsValue
    if less = .kTrue then do
      let column ← km.keySchema.getColumn i
      .ok (-1, deleteData column i)
    else do
      let greater ← lhsValue.compareGreaterThan rhsValue
      if greater = .kTrue then do
        let column ← km.keySchema.getColumn i
        .ok (1, deleteData column i)
      else compareColumns km lhsKey rhsKey k (i + 1)

def compareKeys (km : KeyManager) (lhs rhs : Mem) : Result Int := do
  let lhsKey ← km.deserializeToKey lhs ⟨INVALID_ROWID, []⟩ km.keySchema
  let rhsKey ← km.deserializeToKey rhs ⟨INVALID_ROWID, []⟩ km.keySchema
  let (ret, freed) ← km.compareColumns lhsKey rhsKey km.keySchema.getColumnCount 0
  -- The two rows are locals of the function and are destroyed when it returns.
  rhsKey.destroy freed
  lhsKey.destroy freed
  .ok ret

/-! ## Keys hold their rows -/

variable {km : KeyManager} {row : Row} {schema : Schema} {buf key : Mem}

/-- `SerializeFromKey` zeroes the buffer and stores the row in it, when the row fits. -/
theorem serializeFromKey_eq (h : row.HasSchema schema) (buf : Mem) :
    km.serializeFromKey buf row schema =
      if row.encode.length ≤ km.keySize then
        .ok ((buf.store 0 (List.replicate km.keySize 0)).store 0 row.encode)
      else .error (.assertion "Index key size exceed max key size.") := by
  have hcount : row.fields.length = schema.getColumnCount := h.count.symm
  by_cases hfit : row.encode.length ≤ km.keySize
  · simp [serializeFromKey, Row.getSerializedSize_eq h, Row.serializeTo_eq h, hcount, hfit]
  · simp [serializeFromKey, Row.getSerializedSize_eq h, hcount, hfit, assert]

theorem serializeFromKey_holds (h : row.HasSchema schema)
    (hkey : km.serializeFromKey buf row schema = .ok key) :
    row.encode.length ≤ km.keySize ∧ Mem.Holds key 0 row.encode := by
  rw [serializeFromKey_eq h] at hkey
  split at hkey
  · rename_i hfit
    refine ⟨hfit, ?_⟩
    rw [← Except.ok.inj hkey]
    exact Mem.holds_store _ _ _
  · simp at hkey

/-- A key is read back as the row it was made from. -/
theorem deserializeToKey_eq (h : row.HasSchema schema) (hfit : row.encode.length ≤ km.keySize)
    (hkey : Mem.Holds key 0 row.encode) :
    km.deserializeToKey key ⟨INVALID_ROWID, []⟩ schema = .ok row := by
  have hread : Row.deserializeFrom ⟨INVALID_ROWID, []⟩ schema key 0 =
      .ok (row, row.encode.length) :=
    Row.reads_encode h rfl key 0 hkey
  simp [deserializeToKey, hread, hfit]

end KeyManager
end MiniSQL
