import MiniSQL.Common.Config
import MiniSQL.Lib.Codec

/-!
# Schema — columns, schemas and their codecs

`record/type_id.h`, `record/column.cpp` and `record/schema.cpp`.  A `Column` of the program comes
out of one of two constructors; the structure carries what they guarantee.  Offsets are natural
numbers: the `uint32_t` of the source could wrap only in a record of 4 GiB.
-/

namespace MiniSQL

open Lib

/-- `TypeId`, an `enum` of four bytes. -/
inductive TypeId
  | kTypeInvalid
  | kTypeInt
  | kTypeFloat
  | kTypeChar
  deriving DecidableEq, Repr

/-- The value of the enumerator. -/
def TypeId.code : TypeId → Nat
  | .kTypeInvalid => 0
  | .kTypeInt => 1
  | .kTypeFloat => 2
  | .kTypeChar => 3

/-! ## Columns -/

structure Column where
  name : Str
  type : TypeId
  len : UInt32
  tableInd : UInt32
  nullable : Bool
  unique : Bool
  /-- Either constructor ran: a `char` column of any length, or a number of four bytes. -/
  constructed : type = .kTypeChar ∨ ((type = .kTypeInt ∨ type = .kTypeFloat) ∧ len = 4)
  deriving DecidableEq

namespace Column

/-- The constructor for `int` and `float` columns. -/
def ofNumber (name : Str) (type : TypeId) (index : UInt32) (nullable unique : Bool) :
    Result Column :=
  match h : type with
  | .kTypeInt => .ok ⟨name, type, 4, index, nullable, unique, Or.inr ⟨Or.inl h, rfl⟩⟩
  | .kTypeFloat => .ok ⟨name, type, 4, index, nullable, unique, Or.inr ⟨Or.inr h, rfl⟩⟩
  | .kTypeChar => .error (.assertion "Wrong constructor for CHAR type.")
  | .kTypeInvalid => .error (.assertion "Unsupported column type.")

/-- The constructor for `char` columns. -/
def ofChar (name : Str) (type : TypeId) (length index : UInt32) (nullable unique : Bool) :
    Result Column :=
  if h : type = .kTypeChar then .ok ⟨name, type, length, index, nullable, unique, Or.inl h⟩
  else .error (.assertion "Wrong constructor for non-VARCHAR type.")

def COLUMN_MAGIC_NUM : Nat := 210928

def serializeTo (column : Column) : Writer :=
  Writer.all
    [Writer.word COLUMN_MAGIC_NUM,
     Writer.word column.name.val.length,
     Writer.bytes column.name.val,
     Writer.word column.type.code,
     Writer.word column.len.toNat,
     Writer.word column.tableInd.toNat,
     Writer.bool column.nullable,
     Writer.bool column.unique]

def getSerializedSize (column : Column) : Nat :=
  4 * 4 + column.name.val.length + 4 + 2 * 1

/-- `DeserializeFrom`: `none` is the null pointer left for a type code that is none of the three. -/
def deserializeFrom : Decoder Fault (Option Column) := do
  let check ← Decoder.word
  Decoder.lift (assert (check.toNat = COLUMN_MAGIC_NUM) "Error: Deserialized non-column.")
  let strSize ← Decoder.word
  let name ← Decoder.str strSize
  let type ← Decoder.word
  let len ← Decoder.word
  let tbInd ← Decoder.word
  let nullable ← Decoder.bool
  let unique ← Decoder.bool
  if type.toNat = 3 then
    Decoder.lift ((ofChar name .kTypeChar len tbInd nullable unique).map some)
  else if type.toNat = 1 then
    Decoder.lift ((ofNumber name .kTypeInt tbInd nullable unique).map some)
  else if type.toNat = 2 then
    Decoder.lift ((ofNumber name .kTypeFloat tbInd nullable unique).map some)
  else pure none

/-- The bytes of a column. -/
def encode (column : Column) : List UInt8 :=
  Mem.le32 COLUMN_MAGIC_NUM ++ (Mem.le32 column.name.val.length ++ (column.name.val ++
    (Mem.le32 column.type.code ++ (Mem.le32 column.len.toNat ++ (Mem.le32 column.tableInd.toNat ++
      ([if column.nullable then 1 else 0] ++ ([if column.unique then 1 else 0] ++ [])))))))

theorem writes_encode (column : Column) : Writer.Writes column.serializeTo column.encode := by
  refine (Writer.writes_word _).all_cons ?_
  refine (Writer.writes_word _).all_cons ?_
  refine (Writer.writes_bytes _).all_cons ?_
  refine (Writer.writes_word _).all_cons ?_
  refine (Writer.writes_word _).all_cons ?_
  refine (Writer.writes_word _).all_cons ?_
  refine (Writer.writes_bool _).all_cons ?_
  exact (Writer.writes_bool _).all_cons Writer.writes_all_nil

theorem encode_length (column : Column) : column.encode.length = column.getSerializedSize := by
  simp only [encode, getSerializedSize, List.length_append, Mem.le32_length, List.length_cons,
    List.length_nil]
  omega

/-- The last step of the decoder runs the constructor the column came from, which for a number
computes the length anew. -/
theorem reads_construct (column : Column) :
    Decoder.Reads
      (if (UInt32.ofNat column.type.code).toNat = 3 then
        Decoder.lift ((ofChar column.name .kTypeChar column.len column.tableInd column.nullable
          column.unique).map some)
      else if (UInt32.ofNat column.type.code).toNat = 1 then
        Decoder.lift ((ofNumber column.name .kTypeInt column.tableInd column.nullable
          column.unique).map some)
      else if (UInt32.ofNat column.type.code).toNat = 2 then
        Decoder.lift ((ofNumber column.name .kTypeFloat column.tableInd column.nullable
          column.unique).map some)
      else pure none) [] (some column) := by
  rcases column with ⟨name, type, len, tableInd, nullable, unique, hcons⟩
  cases type with
  | kTypeInvalid =>
      exact absurd hcons (by simp)
  | kTypeInt =>
      have hlen : len = 4 := by simpa using hcons
      subst hlen
      exact Decoder.reads_lift _
  | kTypeFloat =>
      have hlen : len = 4 := by simpa using hcons
      subst hlen
      exact Decoder.reads_lift _
  | kTypeChar =>
      exact Decoder.reads_lift _

theorem reads_encode (column : Column) :
    Decoder.Reads deserializeFrom column.encode (some column) := by
  refine (Decoder.reads_word _).bind ?_
  refine (Decoder.reads_lift ()).bind_nil ?_
  refine (Decoder.reads_word _).bind ?_
  refine (Decoder.reads_str _).bind ?_
  refine (Decoder.reads_word _).bind ?_
  refine (Decoder.reads_u32 _).bind ?_
  refine (Decoder.reads_u32 _).bind ?_
  refine (Decoder.reads_bool _).bind ?_
  refine (Decoder.reads_bool _).bind ?_
  -- What is left reads nothing: it runs a constructor on the fields just read.
  exact column.reads_construct

/-- A column of integers with a name of one letter. -/
def ints (name : UInt8) (nullable unique : Bool) : Column :=
  ⟨⟨[name], by simp⟩, .kTypeInt, 4, 0, nullable, unique, Or.inr ⟨Or.inl rfl, rfl⟩⟩

/-- A column of strings with a name of one letter. -/
def chars (name : UInt8) (len : UInt32) (nullable unique : Bool) : Column :=
  ⟨⟨[name], by simp⟩, .kTypeChar, len, 0, nullable, unique, Or.inl rfl⟩

end Column

/-! ## Schemas -/

structure Schema where
  columns : List Column
  isManage : Bool
  columns_lt : columns.length < 2 ^ 32
  deriving DecidableEq

namespace Schema

def SCHEMA_MAGIC_NUM : Nat := 200715

def getColumnCount (schema : Schema) : Nat :=
  schema.columns.length

/-- `GetColumn`: indexing past the end is a fault. -/
def getColumn (schema : Schema) (columnIndex : Nat) : Result Column :=
  match schema.columns[columnIndex]? with
  | some column => .ok column
  | none => .error .outOfBounds

theorem getColumn_eq_ok {schema : Schema} {i : Nat} {column : Column} :
    schema.getColumn i = .ok column ↔ schema.columns[i]? = some column := by
  unfold getColumn
  split
  · rename_i column' hget
    rw [hget, Except.ok.injEq, Option.some.injEq]
  · rename_i hnone
    simp [hnone]

def serializeTo (schema : Schema) : Writer :=
  Writer.all
    [Writer.word SCHEMA_MAGIC_NUM,
     Writer.word schema.columns.length,
     Writer.each Column.serializeTo schema.columns,
     Writer.bool schema.isManage]

def getSerializedSize (schema : Schema) : Nat :=
  2 * 4 + (schema.columns.map Column.getSerializedSize).sum + 1

/-- One column of a schema.  A null column is left in the vector by the program and breaks the
first use of the schema; here it is a fault at once. -/
def readColumn : Decoder Fault Column := do
  let column ← Column.deserializeFrom
  match column with
  | some column => pure column
  | none => Decoder.lift (.error .nullPointer)

def deserializeFrom : Decoder Fault Schema := do
  let check ← Decoder.word
  Decoder.lift (assert (check.toNat = SCHEMA_MAGIC_NUM) "Error: Deserialized non-schema.")
  let columnsNum ← Decoder.word
  let columns ← Decoder.times readColumn columnsNum.toNat
  let isManage ← Decoder.bool
  pure ⟨columns.val, isManage, by rw [columns.property]; exact columnsNum.toNat_lt⟩

/-- The bytes of a schema. -/
def encode (schema : Schema) : List UInt8 :=
  Mem.le32 SCHEMA_MAGIC_NUM ++ (Mem.le32 schema.columns.length ++
    (schema.columns.flatMap Column.encode ++ ([if schema.isManage then 1 else 0] ++ [])))

theorem writes_encode (schema : Schema) : Writer.Writes schema.serializeTo schema.encode := by
  refine (Writer.writes_word _).all_cons ?_
  refine (Writer.writes_word _).all_cons ?_
  refine (Writer.writes_each fun column _ => column.writes_encode).all_cons ?_
  exact (Writer.writes_bool _).all_cons Writer.writes_all_nil

theorem encode_length (schema : Schema) : schema.encode.length = schema.getSerializedSize := by
  have hcolumns : (schema.columns.flatMap Column.encode).length =
      (schema.columns.map Column.getSerializedSize).sum := by
    rw [List.length_flatMap]
    congr 1
    exact List.map_congr_left fun column _ => column.encode_length
  simp only [encode, getSerializedSize, List.length_append, Mem.le32_length, hcolumns,
    List.length_cons, List.length_nil]
  omega

theorem reads_readColumn (column : Column) :
    Decoder.Reads readColumn column.encode column := by
  have h := column.reads_encode.bind (f := fun column => match column with
    | some column => (pure column : Decoder Fault Column)
    | none => Decoder.lift (.error .nullPointer)) (Decoder.reads_pure column)
  rwa [List.append_nil] at h

theorem reads_encode (schema : Schema) : Decoder.Reads deserializeFrom schema.encode schema := by
  have hcount : schema.columns.length = (UInt32.ofNat schema.columns.length).toNat :=
    (UInt32.toNat_ofNat_of_lt' schema.columns_lt).symm
  refine (Decoder.reads_word _).bind ?_
  refine (Decoder.reads_lift ()).bind_nil ?_
  refine (Decoder.reads_word _).bind ?_
  refine (Decoder.reads_times (fun column _ => reads_readColumn column) hcount).bind ?_
  refine (Decoder.reads_bool _).bind ?_
  exact Decoder.reads_pure _

/-- One column of each type: `i int`, `f float`, `c char(16)`. -/
def sample : Schema where
  columns :=
    [⟨⟨[105], by decide⟩, .kTypeInt, 4, 0, false, true, by decide⟩,
     ⟨⟨[102], by decide⟩, .kTypeFloat, 4, 1, true, false, by decide⟩,
     ⟨⟨[99], by decide⟩, .kTypeChar, 16, 2, true, false, by decide⟩]
  isManage := true
  columns_lt := by decide

end Schema
end MiniSQL
