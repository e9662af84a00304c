import MiniSQL.Catalog.CatalogManager
import MiniSQL.Index.GenericKey

/-!
# KeySize — do the keys of an index fit their buffers

`IndexInfo::CreateIndex` rounds the declared lengths of the key columns up to a bucket.  A key is a
serialized row: beside its values it holds a row id, a field count, the null bitmap and a length
word for every `char`.
-/

namespace MiniSQL

open Lib

namespace IndexInfo

variable {metaData : IndexMetadata} {tableInfo : TableInfo} {info : IndexInfo} {size : Nat}

/-! ## The key schema -/

/-- Inversion of `Init`. -/
theorem init_cases (h : init metaData tableInfo = .ok info) :
    info.keyColumns.length < 2 ^ 32 ∧
      info.index = keySize (info.keyColumns.map fun column => column.len.toNat).sum := by
  rcases bind_eq_ok.mp h with ⟨columns, hcolumns, h⟩
  obtain rfl := Except.ok.inj h
  refine ⟨?_, rfl⟩
  rw [mapM_length hcolumns]
  exact metaData.keyMap_lt

/-- `Schema::ShallowCopySchema` of the table's schema at the key map. -/
def keySchema (info : IndexInfo) (h : info.keyColumns.length < 2 ^ 32) : Schema :=
  ⟨info.keyColumns, false, h⟩

/-! ## The largest key -/

/-- A field of the column's type, a string no longer than declared. -/
def Fills (field : Field) (column : Column) : Prop :=
  field.getTypeId = column.type ∧ ∀ data, field = .char data → data.length ≤ column.len.toNat

/-- A key row typed by the schema, within the declared lengths. -/
def KeyRow (row : Row) (schema : Schema) : Prop :=
  List.Forall₂ Fills row.fields schema.columns

/-- What a value of the column can take: a string has its length stored in front. -/
def columnRoom (column : Column) : Nat :=
  column.len.toNat + if column.type = .kTypeChar then 4 else 0

/-- The bytes of the largest key: row id, field count, null bitmap and values. -/
def largestKey (columns : List Column) : Nat :=
  8 + 4 + (columns.length / 8 + 1) + (columns.map columnRoom).sum

def largestField (column : Column) : Field :=
  match column.type with
  | .kTypeInvalid => .null .kTypeInvalid
  | .kTypeInt => .int 0
  | .kTypeFloat => .float 0
  | .kTypeChar => .char (List.replicate column.len.toNat 0)

/-- The part of a field in the serialized size of its row. -/
def fieldSize (field : Field) : Nat :=
  if field.isNull then 0 else field.getSerializedSize

theorem largestField_fills (column : Column) :
    Fills (largestField column) column ∧ fieldSize (largestField column) = columnRoom column := by
  rcases column with ⟨name, type, len, tableInd, nullable, unique, hcons⟩
  cases type with
  | kTypeInvalid => simp at hcons
  | kTypeInt =>
      have hlen : len = 4 := by simpa using hcons
      simp [Fills, largestField, fieldSize, columnRoom, Field.getTypeId, Field.isNull,
        Field.getSerializedSize, hlen]
  | kTypeFloat =>
      have hlen : len = 4 := by simpa using hcons
      simp [Fills, largestField, fieldSize, columnRoom, Field.getTypeId, Field.isNull,
        Field.getSerializedSize, hlen]
  | kTypeChar =>
      simp [Fills, largestField, fieldSize, columnRoom, Field.getTypeId, Field.isNull,
        Field.getSerializedSize]

theorem fieldSize_le {field : Field} {column : Column} (h : Fills field column) :
    fieldSize field ≤ columnRoom column := by
  rcases h with ⟨htype, hlen⟩
  have hcons := column.constructed
  rw [← htype] at hcons
  cases field with
  | null type => simp [fieldSize, Field.isNull]
  | int value =>
      have h4 : column.len = 4 := by simpa [Field.getTypeId] using hcons
      simp [fieldSize, columnRoom, Field.isNull, Field.getSerializedSize, h4]
  | float bits =>
      have h4 : column.len = 4 := by simpa [Field.getTypeId] using hcons
      simp [fieldSize, columnRoom, Field.isNull, Field.getSerializedSize, h4]
  | char data =>
      have hle := hlen data rfl
      have hchar : column.type = .kTypeChar := htype.symm
      simp [fieldSize, columnRoom, Field.isNull, Field.getSerializedSize, hchar, hle]

theorem fields_size_le {fields : List Field} {columns : List Column}
    (h : List.Forall₂ Fills fields columns) :
    (fields.map fieldSize).sum ≤ (columns.map columnRoom).sum := by
  induction h with
  | nil => simp
  | cons hfield _ ih =>
      have := fieldSize_le hfield
      simp only [List.map_cons, List.sum_cons]
      omega

def largestRow (columns : List Column) : Row :=
  { rid := INVALID_ROWID, fields := columns.map largestField }

theorem largestRow_keyRow (schema : Schema) : KeyRow (largestRow schema.columns) schema := by
  rw [KeyRow, largestRow, List.forall₂_map_left_iff, List.forall₂_same]
  exact fun column _ => (largestField_fills column).1

theorem getSerializedSize_keyRow {row : Row} {schema : Schema} (h : KeyRow row schema) :
    row.getSerializedSize schema =
      .ok (8 + 4 + (schema.columns.length / 8 + 1) + (row.fields.map fieldSize).sum) := by
  have hcount : schema.getColumnCount = row.fields.length := h.length_eq.symm
  simp only [Row.getSerializedSize, hcount, decide_true, assert_true, ok_bind, h.length_eq]
  rfl

/-! ## Keys and their buffers -/

/-- `SerializeFromKey` accepts the row and stays inside the buffer. -/
def Fits (km : KeyManager) (row : Row) : Prop :=
  ∃ size, row.getSerializedSize km.keySchema = .ok size ∧ size ≤ km.keySize ∧
    ∀ buf, ∃ key, km.serializeFromKey buf row km.keySchema = .ok key ∧
      ∀ i, km.keySize ≤ i → key i = buf i

/-- The largest key of the bucket that the declared lengths fall into is no larger than the
bucket. -/
def BucketHolds (columns : List Column) : Prop :=
  let declared := (columns.map fun column => column.len.toNat).sum
  declared ≤ 8 ∧ largestKey columns ≤ 16 ∨
    8 < declared ∧ declared ≤ 24 ∧ largestKey columns ≤ 32 ∨
    24 < declared ∧ declared ≤ 56 ∧ largestKey columns ≤ 64 ∨
    56 < declared ∧ declared ≤ 120 ∧ largestKey columns ≤ 128 ∨
    120 < declared ∧ declared ≤ 248 ∧ largestKey columns ≤ 256

theorem bucketHolds_iff {columns : List Column}
    (h : keySize (columns.map fun column => column.len.toNat).sum = some size) :
    BucketHolds columns ↔ largestKey columns ≤ size := by
  unfold keySize at h
  unfold BucketHolds
  split_ifs at h
  · obtain rfl := Option.some.inj h
    omega
  · obtain rfl := Option.some.inj h
    omega
  · obtain rfl := Option.some.inj h
    omega
  · obtain rfl := Option.some.inj h
    omega
  · obtain rfl := Option.some.inj h
    omega

theorem declared_le {declared : Nat} (h : keySize declared = some size) : declared ≤ 248 := by
  by_contra hlarge
  unfold keySize at h
  split_ifs at h <;> omega

/-- A key size is given out only for at most 248 bytes of columns, so no string of a key row
exceeds the maximum of the record format. -/
theorem KeyRow.hasSchema {row : Row} {schema : Schema} (h : KeyRow row schema)
    (hsize : keySize (schema.columns.map fun column => column.len.toNat).sum = some size) :
    row.HasSchema schema := by
  have hsum := declared_le hsize
  rw [Row.HasSchema, List.forall₂_iff_get]
  refine ⟨h.length_eq, fun i hi hi' => ?_⟩
  rcases h.get hi hi' with ⟨htype, hlen⟩
  refine ⟨htype, fun data hdata => ?_⟩
  have hle := hlen data hdata
  have hmem : (schema.columns.get ⟨i, hi'⟩).len.toNat ≤
      (schema.columns.map fun column => column.len.toNat).sum :=
    List.single_le_sum (by simp) _ (List.mem_map_of_mem (List.get_mem _ _))
  simp only [VARCHAR_MAX_LEN]
  omega

/-- A row is accepted exactly when its size is within the buffer. -/
theorem fits_iff (km : KeyManager) {row : Row} (h : row.HasSchema km.keySchema) :
    Fits km row ↔ row.encode.length ≤ km.keySize := by
  constructor
  · rintro ⟨n, hn, hle, _⟩
    rw [Row.getSerializedSize_eq h] at hn
    rw [Except.ok.inj hn]
    exact hle
  · intro hle
    refine ⟨_, Row.getSerializedSize_eq h, hle, fun buf => ?_⟩
    refine ⟨_, (KeyManager.serializeFromKey_eq h buf).trans (if_pos hle), fun i hi => ?_⟩
    -- Both the zeros and the row end before the buffer does.
    rw [Mem.store_apply_of_ge (by omega), Mem.store_apply_of_ge (by simpa using hi)]

/-- For an index that was created: all keys within the declared lengths fit their buffer exactly
when the bucket has room for the largest. -/
theorem key_fits_iff (hinit : init metaData tableInfo = .ok info)
    (hindex : info.index = some size) :
    (∀ row, KeyRow row (info.keySchema (init_cases hinit).1) →
        Fits ⟨size, info.keySchema (init_cases hinit).1⟩ row) ↔
      BucketHolds info.keyColumns := by
  have hsize : keySize (info.keyColumns.map fun column => column.len.toNat).sum = some size := by
    rw [← (init_cases hinit).2, hindex]
  set schema := info.keySchema (init_cases hinit).1 with hschema
  have hlength : ∀ row, KeyRow row schema →
      row.encode.length = 8 + 4 + (info.keyColumns.length / 8 + 1) +
        (row.fields.map fieldSize).sum := by
    intro row hrow
    have h := Row.getSerializedSize_eq (hrow.hasSchema hsize)
    rw [getSerializedSize_keyRow hrow] at h
    exact (Except.ok.inj h).symm
  rw [bucketHolds_iff hsize]
  constructor
  · intro hall
    -- The largest row of the schema is itself a key, so it has to fit.
    have hrow : KeyRow (largestRow info.keyColumns) schema := largestRow_keyRow schema
    have hfit := (fits_iff ⟨size, schema⟩ (hrow.hasSchema hsize)).mp (hall _ hrow)
    have hsum : ((largestRow info.keyColumns).fields.map fieldSize).sum =
        (info.keyColumns.map columnRoom).sum := by
      rw [largestRow, List.map_map]
      congr 1
      exact List.map_congr_left fun column _ => (largestField_fills column).2
    calc largestKey info.keyColumns
        = (largestRow info.keyColumns).encode.length := by rw [hlength _ hrow, hsum, largestKey]
      _ ≤ size := hfit
  · intro hroom row hrow
    refine (fits_iff ⟨size, schema⟩ (hrow.hasSchema hsize)).mpr ?_
    calc row.encode.length
        = 8 + 4 + (info.keyColumns.length / 8 + 1) + (row.fields.map fieldSize).sum :=
          hlength row hrow
      _ ≤ largestKey info.keyColumns := by
          have := fields_size_le hrow
          rw [largestKey]
          exact Nat.add_le_add_left this _
      _ ≤ size := hroom

/-- A table of one column. -/
def oneColumn (column : Column) : TableInfo where
  tableMeta := ⟨0, column.name, 1, ⟨[column], true, Nat.one_lt_two_pow (by decide)⟩⟩
  tableHeap := ⟨1, ⟨[column], true, Nat.one_lt_two_pow (by decide)⟩⟩

/-- The index on the first column. -/
def onFirst (name : Str) : IndexMetadata :=
  ⟨0, name, 0, [0], Nat.one_lt_two_pow (by decide)⟩

def idInt : Column :=
  Column.ints 105 false true

def idChar : Column :=
  Column.chars 105 15 false true

/-- The index on one column of up to eight bytes gets sixteen bytes, and the header alone takes
thirteen of them. -/
theorem int_key_does_not_fit :
    ¬∀ (metaData : IndexMetadata) (tableInfo : TableInfo) (info : IndexInfo) (size : Nat)
      (hinit : init metaData tableInfo = .ok info), info.index = some size →
      ∀ row, KeyRow row (info.keySchema (init_cases hinit).1) →
        Fits ⟨size, info.keySchema (init_cases hinit).1⟩ row := by
  intro hall
  have hinit : init (onFirst idInt.name) (oneColumn idInt) =
      .ok ⟨onFirst _, oneColumn idInt, [idInt], some 16⟩ := rfl
  have hfits := hall _ _ _ 16 hinit rfl (largestRow [idInt])
    (largestRow_keyRow (keySchema _ (init_cases hinit).1))
  rcases hfits with ⟨size, hsize, hle, _⟩
  have hseventeen : (largestRow [idInt]).getSerializedSize
      (keySchema _ (init_cases hinit).1) = .ok 17 := rfl
  rw [hseventeen] at hsize
  obtain rfl := Except.ok.inj hsize
  simp at hle

/-- The keys of `char(15)` fill their 32 bytes to the last one. -/
theorem key_fits_iff_char : ∃ (info : IndexInfo)
    (hinit : init (onFirst idChar.name) (oneColumn idChar) = .ok info), info.index = some 32 ∧
      ∀ row, KeyRow row (info.keySchema (init_cases hinit).1) →
        Fits ⟨32, info.keySchema (init_cases hinit).1⟩ row := by
  have hinit : init (onFirst idChar.name) (oneColumn idChar) =
      .ok ⟨onFirst _, oneColumn idChar, [idChar], some 32⟩ := rfl
  refine ⟨_, hinit, rfl, (key_fits_iff hinit rfl).mpr ?_⟩
  simp [BucketHolds, largestKey, columnRoom, idChar, Column.chars]

end IndexInfo
end MiniSQL
