import MiniSQL.Record.Schema

/-!
# Row — fields, rows and the row codec

`record/field.h`, `record/types.cpp` and `record/row.cpp`.  A row is stored as

`| RowId | number of fields | null bitmap | fields that are not null |`

with a null bitmap of `n / 8 + 1` bytes.  A `float` is its 32-bit pattern.
-/

namespace MiniSQL

open Lib

/-! ## Fields -/

/-- A field: null of some type, or a value. -/
inductive Field
  | null (type : TypeId)
  | int (value : Int32)
  | float (bits : UInt32)
  | char (data : List UInt8)
  deriving DecidableEq

namespace Field

def getTypeId : Field → TypeId
  | null type => type
  | int _ => .kTypeInt
  | float _ => .kTypeFloat
  | char _ => .kTypeChar

def isNull : Field → Bool
  | null _ => true
  | _ => false

/-- The `SerializeTo` of the three type classes. -/
def serializeTo : Field → Writer
  | null _ => Writer.bytes []
  | int value => Writer.word value.toUInt32.toNat
  | float bits => Writer.word bits.toNat
  | char data => Writer.all [Writer.word data.length, Writer.bytes data]

def getSerializedSize : Field → Nat
  | null _ => 0
  | int _ => 4
  | float _ => 4
  | char data => data.length + 4

/-- The `DeserializeFrom` of the type class of `type`; a managed `char` field asserts its length. -/
def deserializeFrom (type : TypeId) (isNull : Bool) : Decoder Fault Field :=
  match type with
  | .kTypeInvalid => Decoder.lift (.error (.assertion "DeserializeFrom not implemented."))
  | .kTypeInt =>
    if isNull then pure (null .kTypeInt)
    else do
      let val ← Decoder.word
      pure (int val.toInt32)
  | .kTypeFloat =>
    if isNull then pure (null .kTypeFloat)
    else do
      let val ← Decoder.word
      pure (float val)
  | .kTypeChar =>
    if isNull then pure (null .kTypeChar)
    else do
      let len ← Decoder.word
      Decoder.lift (assert (len.toNat < VARCHAR_MAX_LEN)
        "Field length exceeds max varchar length")
      let data ← Decoder.bytes len.toNat
      pure (char data)

/-- The bytes of a field. -/
def encode : Field → List UInt8
  | null _ => []
  | int value => Mem.le32 value.toUInt32.toNat
  | float bits => Mem.le32 bits.toNat
  | char data => Mem.le32 data.length ++ (data ++ [])

theorem writes_encode (field : Field) : Writer.Writes field.serializeTo field.encode := by
  cases field with
  | null type => exact Writer.writes_bytes []
  | int value => exact Writer.writes_word _
  | float bits => exact Writer.writes_word _
  | char data =>
      exact (Writer.writes_word _).all_cons ((Writer.writes_bytes _).all_cons Writer.writes_all_nil)

theorem encode_length (field : Field) : field.encode.length = field.getSerializedSize := by
  cases field with
  | null type => rfl
  | int value => rfl
  | float bits => rfl
  | char data =>
      simp only [encode, getSerializedSize, List.length_append, Mem.le32_length, List.length_nil]
      omega

/-- The field is of the type of the column, and a `char` value is shorter than the maximum. -/
def HasType (field : Field) (type : TypeId) : Prop :=
  field.getTypeId = type ∧ ∀ data, field = char data → data.length < VARCHAR_MAX_LEN

theorem reads_encode {field : Field} {type : TypeId} (htype : field.HasType type)
    (hnull : field.isNull = false) :
    Decoder.Reads (deserializeFrom type false) field.encode field := by
  rcases htype with ⟨rfl, hlen⟩
  cases field with
  | null type =>
      exact absurd hnull (by simp [isNull])
  | int value =>
      have h := (Decoder.reads_u32 (ε := Fault) value.toUInt32).map_pure
        (g := fun val => int val.toInt32)
      exact h
  | float bits =>
      exact (Decoder.reads_u32 bits).map_pure
  | char data =>
      have hlt : data.length < VARCHAR_MAX_LEN := hlen data rfl
      have hnat : (UInt32.ofNat data.length).toNat = data.length :=
        UInt32.toNat_ofNat_of_lt' (lt_trans hlt (by decide))
      refine (Decoder.reads_word _).bind ?_
      -- The length read is the length written, so the assertion on it passes.
      simp only [hnat, hlt, decide_true]
      refine (Decoder.reads_lift ()).bind_nil ?_
      exact (Decoder.reads_bytes data).bind (Decoder.reads_pure _)

end Field

/-! ## The null bitmap -/

/-- `nullBMap[i / 8] |= 1 << (i % 8)`. -/
def setNull (nullBMap : List UInt8) (i : Nat) : List UInt8 :=
  nullBMap.modify (i / 8) fun b => b ||| UInt8.ofNat (1 <<< (i % 8))

/-- `nullBMap[i / 8] & (1 << (i % 8))`. -/
def testNull (nullBMap : List UInt8) (i : Nat) : Bool :=
  (nullBMap.getD (i / 8) 0).toNat &&& (1 <<< (i % 8)) != 0

/-- The loop that marks the null fields, from field `i` on. -/
def markNulls : List Field → Nat → List UInt8 → List UInt8
  | [], _, nullBMap => nullBMap
  | field :: fields, i, nullBMap =>
    markNulls fields (i + 1) (if field.isNull then setNull nullBMap i else nullBMap)

/-- The bitmap of a row. -/
def nullBitmap (fields : List Field) : List UInt8 :=
  markNulls fields 0 (List.replicate (fields.length / 8 + 1) 0)

theorem testNull_eq (bm : List UInt8) (i : Nat) :
    testNull bm i = (bm.getD (i / 8) 0).toNat.testBit (i % 8) :=
  and_bit_ne_zero _ _

theorem testNull_setNull {bm : List UInt8} {i : Nat} (hi : i / 8 < bm.length) (j : Nat) :
    testNull (setNull bm i) j = (testNull bm j || decide (i = j)) := by
  rw [testNull_eq, testNull_eq, setNull]
  by_cases hbyte : i / 8 = j / 8
  · have hiff : i % 8 = j % 8 ↔ i = j := by omega
    have hget : (bm.modify (j / 8) fun b => b ||| UInt8.ofNat (1 <<< (i % 8))).getD (j / 8) 0 =
        bm.getD (j / 8) 0 ||| UInt8.ofNat (1 <<< (i % 8)) := by
      simp [List.getD_eq_getElem?_getD, show j / 8 < bm.length by omega]
    rw [hbyte, hget, testBit_or_bit _ (by omega)]
    simp [hiff]
  · have hne : i ≠ j := fun h => hbyte (by rw [h])
    simp [List.getD_eq_getElem?_getD, hbyte, hne]

theorem setNull_length (bm : List UInt8) (i : Nat) : (setNull bm i).length = bm.length := by
  simp [setNull]

theorem markNulls_length (fields : List Field) (i : Nat) (bm : List UInt8) :
    (markNulls fields i bm).length = bm.length := by
  induction fields generalizing i bm with
  | nil =>
      rfl
  | cons field fields ih =>
      rw [markNulls, ih]
      split
      · exact setNull_length bm i
      · rfl

/-- The loop sets the bits of the null fields and no others. -/
theorem testNull_markNulls {fields : List Field} {i : Nat} {bm : List UInt8}
    (hlen : ∀ k, k < fields.length → (i + k) / 8 < bm.length) (j : Nat) :
    testNull (markNulls fields i bm) j =
      (testNull bm j || (decide (i ≤ j) && (fields[j - i]?.map Field.isNull).getD false)) := by
  induction fields generalizing i bm with
  | nil =>
      simp [markNulls]
  | cons field fields ih =>
      have hi : i / 8 < bm.length := hlen 0 (by simp)
      have hhead : testNull (if field.isNull then setNull bm i else bm) j =
          (testNull bm j || (decide (i = j) && field.isNull)) := by
        cases field.isNull with
        | false => simp
        | true => simpa using testNull_setNull hi j
      have hrest : ∀ k, k < fields.length →
          (i + 1 + k) / 8 < (if field.isNull then setNull bm i else bm).length := by
        intro k hk
        have := hlen (k + 1) (by simpa using hk)
        split
        · rw [setNull_length]
          omega
        · omega
      rw [markNulls, ih hrest, hhead]
      rcases lt_trichotomy i j with hlt | rfl | hgt
      · -- A later field: the index into the rest is one less.
        have hsub : j - i = j - (i + 1) + 1 := by omega
        simp [hsub, hlt.ne, hlt.le, Nat.succ_le_of_lt hlt]
      · simp
      · -- A field before the loop's start.
        simp [hgt.ne', Nat.not_le.mpr hgt, show ¬i + 1 ≤ j by omega]

theorem testNull_replicate (n i : Nat) : testNull (List.replicate n 0) i = false := by
  have hzero : (List.replicate n (0 : UInt8)).getD (i / 8) 0 = 0 := by
    by_cases h : i / 8 < n <;> simp [List.getD_eq_getElem?_getD, h]
  rw [testNull_eq, hzero]
  simp

theorem nullBitmap_length (fields : List Field) :
    (nullBitmap fields).length = fields.length / 8 + 1 := by
  rw [nullBitmap, markNulls_length, List.length_replicate]

/-- Bit `i` of the bitmap says whether field `i` is null. -/
theorem testNull_nullBitmap {fields : List Field} {i : Nat} {field : Field}
    (hi : fields[i]? = some field) : testNull (nullBitmap fields) i = field.isNull := by
  have hlen : ∀ k, k < fields.length →
      (0 + k) / 8 < (List.replicate (fields.length / 8 + 1) (0 : UInt8)).length := by
    intro k hk
    rw [List.length_replicate]
    omega
  rw [nullBitmap, testNull_markNulls hlen, testNull_replicate]
  simp [hi]

/-! ## Rows -/

structure Row where
  rid : RowId
  fields : List Field
  deriving DecidableEq

namespace Row

/-- The bytes of a `RowId`, a struct of two words. -/
def ridBytes (rid : RowId) : List UInt8 :=
  Mem.le32 rid.pageId.toUInt32.toNat ++ (Mem.le32 rid.slotNum.toNat ++ [])

def serializeTo (row : Row) (schema : Schema) (m : Mem) (buf : Nat) : Result (Nat × Mem) := do
  assert (schema.getColumnCount = row.fields.length)
    "Fields size do not match schema's column size."
  .ok (Writer.all
    [Writer.all
      [Writer.word row.rid.pageId.toUInt32.toNat, Writer.word row.rid.slotNum.toNat],
     Writer.word row.fields.length,
     Writer.bytes (nullBitmap row.fields),
     Writer.each (fun field => if field.isNull then Writer.bytes [] else field.serializeTo)
      row.fields] m buf)

def getSerializedSize (row : Row) (schema : Schema) : Result Nat := do
  assert (schema.getColumnCount = row.fields.length)
    "Fields size do not match schema's column size."
  .ok (8 + 4 + (row.fields.length / 8 + 1) +
    (row.fields.map fun field => if field.isNull then 0 else field.getSerializedSize).sum)

/-- Field `i` of a row being read: a null field takes no bytes. -/
def readField (schema : Schema) (nullBMap : List UInt8) (i : Nat) : Decoder Fault Field := do
  let column ← Decoder.lift (schema.getColumn i)
  if testNull nullBMap i then pure (.null column.type)
  else Field.deserializeFrom column.type false

def deserializeFrom (row : Row) (schema : Schema) : Decoder Fault Row := do
  Decoder.lift (assert row.fields.isEmpty "Non empty field in row.")
  let pageId ← Decoder.word
  let slotNum ← Decoder.word
  let vctSize ← Decoder.word
  let nullBMap ← Decoder.bytes (vctSize.toNat / 8 + 1)
  let fields ← Decoder.each (readField schema nullBMap) (List.range vctSize.toNat)
  pure { rid := { pageId := pageId.toInt32, slotNum := slotNum }, fields := fields }

/-- The row has a field of the right type for every column. -/
def HasSchema (row : Row) (schema : Schema) : Prop :=
  List.Forall₂ (fun field column => Field.HasType field column.type) row.fields schema.columns

/-- The bytes of the fields that are not null. -/
def encodeFields (fields : List Field) : List UInt8 :=
  fields.flatMap fun field => if field.isNull then [] else field.encode

/-- The bytes of a row. -/
def encode (row : Row) : List UInt8 :=
  ridBytes row.rid ++ (Mem.le32 row.fields.length ++ (nullBitmap row.fields ++
    (encodeFields row.fields ++ [])))

variable {row : Row} {schema : Schema}

theorem HasSchema.count (h : row.HasSchema schema) :
    schema.getColumnCount = row.fields.length :=
  h.length_eq.symm

theorem HasSchema.field (h : row.HasSchema schema) {i : Nat} {field : Field}
    (hi : row.fields[i]? = some field) :
    ∃ column, schema.getColumn i = .ok column ∧ field.HasType column.type := by
  have hlt : i < row.fields.length := (List.getElem?_eq_some_iff.mp hi).1
  have hlt' : i < schema.columns.length := h.length_eq ▸ hlt
  refine ⟨schema.columns[i], ?_, ?_⟩
  · exact Schema.getColumn_eq_ok.mpr (List.getElem?_eq_getElem hlt')
  · have htype := h.get hlt hlt'
    rwa [show row.fields.get ⟨i, hlt⟩ = field from (List.getElem?_eq_some_iff.mp hi).2] at htype

/-! ## The row codec -/

theorem writes_fields (fields : List Field) :
    Writer.Writes (Writer.each
      (fun field => if field.isNull then Writer.bytes [] else field.serializeTo) fields)
      (encodeFields fields) := by
  refine Writer.writes_each fun field _ => ?_
  split
  · exact Writer.writes_bytes []
  · exact field.writes_encode

/-- `SerializeTo` stores the bytes of the row and returns their number. -/
theorem serializeTo_of_count (h : schema.getColumnCount = row.fields.length) (m : Mem)
    (buf : Nat) :
    row.serializeTo schema m buf = .ok (row.encode.length, m.store buf row.encode) := by
  have hw : Writer.Writes (Writer.all
      [Writer.all
        [Writer.word row.rid.pageId.toUInt32.toNat, Writer.word row.rid.slotNum.toNat],
       Writer.word row.fields.length,
       Writer.bytes (nullBitmap row.fields),
       Writer.each (fun field => if field.isNull then Writer.bytes [] else field.serializeTo)
        row.fields]) row.encode := by
    refine Writer.Writes.all_cons ?_ ?_
    · exact (Writer.writes_word _).all_cons
        ((Writer.writes_word _).all_cons Writer.writes_all_nil)
    refine (Writer.writes_word _).all_cons ?_
    refine (Writer.writes_bytes _).all_cons ?_
    exact (writes_fields _).all_cons Writer.writes_all_nil
  simp only [serializeTo, h, decide_true, assert_true, ok_bind, hw m buf]

theorem serializeTo_eq (h : row.HasSchema schema) (m : Mem) (buf : Nat) :
    row.serializeTo schema m buf = .ok (row.encode.length, m.store buf row.encode) :=
  serializeTo_of_count h.count m buf

theorem encodeFields_length (fields : List Field) :
    (encodeFields fields).length =
      (fields.map fun field => if field.isNull then 0 else field.getSerializedSize).sum := by
  rw [encodeFields, List.length_flatMap]
  congr 1
  refine List.map_congr_left fun field _ => ?_
  split
  · rfl
  · exact field.encode_length

/-- `GetSerializedSize` is the number of bytes of the row. -/
theorem getSerializedSize_of_count (h : schema.getColumnCount = row.fields.length) :
    row.getSerializedSize schema = .ok row.encode.length := by
  have hlen : row.encode.length = 8 + 4 + (row.fields.length / 8 + 1) +
      (row.fields.map fun field =>
        if field.isNull then 0 else field.getSerializedSize).sum := by
    simp only [encode, ridBytes, List.length_append, Mem.le32_length, nullBitmap_length,
      encodeFields_length, List.length_nil]
    omega
  simp only [getSerializedSize, h, decide_true, assert_true, ok_bind, hlen]

theorem getSerializedSize_eq (h : row.HasSchema schema) :
    row.getSerializedSize schema = .ok row.encode.length :=
  getSerializedSize_of_count h.count

/-- The size of a row with another number of fields is not taken. -/
theorem getSerializedSize_of_count_ne (h : schema.getColumnCount ≠ row.fields.length) :
    row.getSerializedSize schema =
      .error (.assertion "Fields size do not match schema's column size.") := by
  simp only [getSerializedSize, h, decide_false, assert, Bool.false_eq_true, if_false, error_bind]

theorem reads_readField (h : row.HasSchema schema) {i : Nat} {field : Field}
    (hi : row.fields[i]? = some field) :
    Decoder.Reads (readField schema (nullBitmap row.fields) i)
      (if field.isNull then [] else field.encode) field := by
  rcases h.field hi with ⟨column, hcolumn, htype⟩
  rw [readField, hcolumn, testNull_nullBitmap hi]
  refine (Decoder.reads_lift column).bind_nil ?_
  cases field with
  | null type =>
      -- Nothing is read; the type of the null value is that of the column.
      rw [← htype.1]
      exact Decoder.reads_pure _
  | int value =>
      exact Field.reads_encode htype rfl
  | float bits =>
      exact Field.reads_encode htype rfl
  | char data =>
      exact Field.reads_encode htype rfl

theorem map_getD_range {α : Type} (l : List α) (d : α) :
    (List.range l.length).map (fun i => l.getD i d) = l := by
  apply List.ext_getElem
  · simp
  · intro i h1 h2
    simp [h2]

theorem reads_fields (h : row.HasSchema schema) :
    Decoder.Reads
      (Decoder.each (readField schema (nullBitmap row.fields)) (List.range row.fields.length))
      (encodeFields row.fields) row.fields := by
  -- The decoder counts indices; the bytes are those of the fields at these indices.
  set fieldAt : Nat → Field := fun i => row.fields.getD i (.null .kTypeInvalid) with hat
  have hmap : (List.range row.fields.length).map fieldAt = row.fields := map_getD_range _ _
  have hbytes : (List.range row.fields.length).flatMap
      (fun i => if (fieldAt i).isNull then [] else (fieldAt i).encode) =
      encodeFields row.fields :=
    calc
      (List.range row.fields.length).flatMap
          (fun i => if (fieldAt i).isNull then [] else (fieldAt i).encode)
        = encodeFields ((List.range row.fields.length).map fieldAt) := by
          rw [encodeFields, List.flatMap_map]
      _ = encodeFields row.fields := by rw [hmap]
  have hreads : Decoder.Reads
      (Decoder.each (readField schema (nullBitmap row.fields)) (List.range row.fields.length))
      ((List.range row.fields.length).flatMap
        fun i => if (fieldAt i).isNull then [] else (fieldAt i).encode)
      ((List.range row.fields.length).map fieldAt) := by
    refine Decoder.reads_each fun i hi => ?_
    have hlt := List.mem_range.mp hi
    exact reads_readField h (by simp [hat, hlt])
  rwa [hmap, hbytes] at hreads

/-- Wherever the bytes of the row stand, an empty row reads it back and consumes them. -/
theorem reads_encode (h : row.HasSchema schema) {target : Row} (hempty : target.fields = []) :
    Decoder.Reads (target.deserializeFrom schema) row.encode row := by
  have hcount : (UInt32.ofNat row.fields.length).toNat = row.fields.length := by
    refine UInt32.toNat_ofNat_of_lt' ?_
    rw [← h.count]
    exact schema.columns_lt
  rw [deserializeFrom, hempty]
  refine (Decoder.reads_lift ()).bind_nil ?_
  rw [encode, ridBytes, List.append_assoc, List.append_assoc, List.nil_append]
  refine (Decoder.reads_u32 _).bind ?_
  refine (Decoder.reads_u32 _).bind ?_
  refine (Decoder.reads_word _).bind ?_
  -- The number of fields decides how long the null bitmap is.
  rw [hcount, ← nullBitmap_length]
  refine (Decoder.reads_bytes _).bind ?_
  exact (reads_fields h).bind (Decoder.reads_pure row)

/-- A row of the sample schema with a null field and an empty string. -/
def sample : Row where
  rid := { pageId := 3, slotNum := 1 }
  fields := [.int (-7), .null .kTypeFloat, .char []]

theorem sample_hasSchema : sample.HasSchema Schema.sample := by
  simp [HasSchema, sample, Schema.sample, Field.HasType, Field.getTypeId]

end Row
end MiniSQL
