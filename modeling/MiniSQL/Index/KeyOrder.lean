import MiniSQL.Index.GenericKey

/-!
# KeyOrder — when the comparison of keys is a total order

`verdict` is what the loop of `CompareKeys` computes on two rows.  On rows with the same null
columns its value is the order of their keys, column by column, which is linear.  Between rows with
different null columns a null is skipped, so the value can be 0 for rows that differ; and a verdict
given by a `char` column deletes data that the destructors of the rows delete again.
-/

namespace MiniSQL

open Lib

namespace KeyManager

variable {km : KeyManager} {schema : Schema} {a b c : Row}

/-! ## The verdict of the loop -/

/-- The data deleted with a verdict at field `x` of column `i`. -/
def deleted (x : Field) (i : Nat) : Option Nat :=
  if x.getTypeId = .kTypeChar then some i else none

/-- The loop on the fields left, from column `i` on. -/
def verdict : List Field → List Field → Nat → Int × Option Nat
  | x :: xs, y :: ys, i =>
    if x.isNull || y.isNull then verdict xs ys (i + 1)
    else if x.key < y.key then (-1, deleted x i)
    else if y.key < x.key then (1, deleted x i)
    else verdict xs ys (i + 1)
  | _, _, _ => (0, none)

/-- Every column is of a type that `Field.key` orders. -/
def KeyedSchema (schema : Schema) : Prop :=
  ∀ column ∈ schema.columns, Field.Keyed column.type

theorem getField_eq {row : Row} {i : Nat} {x : Field} {xs : List Field}
    (h : row.fields.drop i = x :: xs) : row.getField i = .ok x := by
  have hx : row.fields[i]? = some x := by
    rw [← List.head?_drop, h]
    rfl
  simp [Row.getField, hx]

/-- The loop in the program computes the verdict. -/
theorem compareColumns_eq (hcols : KeyedSchema km.keySchema) (ha : a.HasSchema km.keySchema)
    (hb : b.HasSchema km.keySchema) {k i : Nat} (hk : i + k = km.keySchema.getColumnCount) :
    km.compareColumns a b k i = .ok (verdict (a.fields.drop i) (b.fields.drop i) i) := by
  induction k generalizing i with
  | zero =>
      have hdrop : a.fields.drop i = [] := by
        rw [List.drop_eq_nil_iff, ← ha.count]
        omega
      simp [compareColumns, hdrop, verdict]
  | succ k ih =>
      have hlt : i < km.keySchema.columns.length := by
        have : km.keySchema.getColumnCount = km.keySchema.columns.length := rfl
        omega
      have hlta : i < a.fields.length := ha.length_eq ▸ hlt
      have hltb : i < b.fields.length := hb.length_eq ▸ hlt
      have hda := List.drop_eq_getElem_cons hlta
      have hdb := List.drop_eq_getElem_cons hltb
      have hcolumn : km.keySchema.getColumn i = .ok km.keySchema.columns[i] :=
        Schema.getColumn_eq_ok.mpr (List.getElem?_eq_getElem hlt)
      have hta : a.fields[i].getTypeId = km.keySchema.columns[i].type := (ha.get hlta hlt).1
      have htb : b.fields[i].getTypeId = km.keySchema.columns[i].type := (hb.get hltb hlt).1
      have hkeyed := hcols _ (List.getElem_mem hlt)
      have hless := Field.compareLessThan_eq hkeyed hta htb
      have hgreater := Field.compareGreaterThan_eq hkeyed hta htb
      have hdel : deleteData km.keySchema.columns[i] i = deleted a.fields[i] i := by
        rw [deleteData, deleted, hta]
      simp only [compareColumns, getField_eq hda, getField_eq hdb, ok_bind, hless, hgreater,
        hcolumn, hdel, hda, hdb, verdict, ih (i := i + 1) (by omega)]
      -- The two tests of the program, null or not, are the tests of the verdict.
      by_cases hnull : (a.fields[i].isNull || b.fields[i].isNull) = true
      · simp [hnull]
      · by_cases hlt : a.fields[i].key < b.fields[i].key
        · simp [hnull, hlt, getCmpBool]
        · by_cases hgt : b.fields[i].key < a.fields[i].key
          · simp [hnull, hlt, hgt, getCmpBool]
          · simp [hnull, hlt, hgt, getCmpBool]

theorem deleted_eq_some {x : Field} {i j : Nat} (hnull : x.isNull = false)
    (h : deleted x i = some j) : j = i ∧ ∃ data, x = .char data := by
  unfold deleted at h
  split at h
  · rename_i htype
    refine ⟨(Option.some.inj h).symm, ?_⟩
    cases x with
    | null type => simp [Field.isNull] at hnull
    | int value => simp [Field.getTypeId] at htype
    | float bits => simp [Field.getTypeId] at htype
    | char data => exact ⟨data, rfl⟩
  · simp at h

/-- The column whose data are deleted holds a string on the left. -/
theorem verdict_deleted {xs ys : List Field} {i j : Nat} (h : (verdict xs ys i).2 = some j) :
    i ≤ j ∧ ∃ data, xs[j - i]? = some (.char data) := by
  have hlater : ∀ {x : Field} {xs : List Field} {i : Nat},
      (i + 1 ≤ j ∧ ∃ data, xs[j - (i + 1)]? = some (.char data)) →
      i ≤ j ∧ ∃ data, (x :: xs)[j - i]? = some (.char data) := by
    rintro x xs i ⟨hle, data, hj⟩
    refine ⟨by omega, data, ?_⟩
    rw [show j - i = j - (i + 1) + 1 by omega]
    simpa using hj
  have hhere : ∀ {x : Field} {xs : List Field} {i : Nat}, x.isNull = false →
      deleted x i = some j → i ≤ j ∧ ∃ data, (x :: xs)[j - i]? = some (.char data) := by
    intro x xs i hnull hdel
    rcases deleted_eq_some hnull hdel with ⟨rfl, data, rfl⟩
    exact ⟨le_refl _, data, by simp⟩
  -- The comparison goes on after a null pair and after equal values, and stops otherwise.
  induction xs, ys, i using verdict.induct with
  | case1 x xs y ys i hnull ih =>
      simp only [verdict, hnull, if_true] at h
      exact hlater (ih h)
  | case2 x xs y ys i hnull hlt =>
      simp only [verdict, hnull, hlt, if_true] at h
      exact hhere (by simp_all) h
  | case3 x xs y ys i hnull hlt hgt =>
      simp only [verdict, hnull, hlt, hgt, if_false, if_true] at h
      exact hhere (by simp_all) h
  | case4 x xs y ys i hnull hlt hgt ih =>
      simp only [verdict, hnull, hlt, hgt, if_false] at h
      exact hlater (ih h)
  | case5 xs ys i hne =>
      simp [verdict] at h

/-- A key made from a row: `SerializeFromKey` stored the row in some buffer. -/
def IsKey (km : KeyManager) (key : Mem) (row : Row) : Prop :=
  ∃ buf, km.serializeFromKey buf row km.keySchema = .ok key

theorem destroy_none (row : Row) : row.destroy none = .ok () :=
  rfl

theorem destroy_cases (row : Row) (freed : Option Nat) :
    row.destroy freed = .ok () ∨ row.destroy freed = .error .doubleFree := by
  unfold Row.destroy
  split
  · exact Or.inr rfl
  · exact Or.inl rfl

/-- `CompareKeys` returns the value of the verdict, unless it deleted the data of a field. -/
theorem compareKeys_eq (hcols : KeyedSchema km.keySchema) (ha : a.HasSchema km.keySchema)
    (hb : b.HasSchema km.keySchema) {ka kb : Mem} (hka : km.IsKey ka a) (hkb : km.IsKey kb b) :
    km.compareKeys ka kb =
      if (verdict a.fields b.fields 0).2 = none then .ok (verdict a.fields b.fields 0).1
      else .error .doubleFree := by
  rcases hka with ⟨_, hka⟩
  rcases hkb with ⟨_, hkb⟩
  rcases serializeFromKey_holds ha hka with ⟨hfita, hholdsa⟩
  rcases serializeFromKey_holds hb hkb with ⟨hfitb, hholdsb⟩
  have hloop := compareColumns_eq hcols ha hb (Nat.zero_add _)
  simp only [compareKeys, deserializeToKey_eq ha hfita hholdsa,
    deserializeToKey_eq hb hfitb hholdsb, ok_bind, hloop, List.drop_zero]
  cases hfreed : (verdict a.fields b.fields 0).2 with
  | none => simp [destroy_none]
  | some j =>
      -- The left row at least still owns the characters it lost.
      have hleft : a.destroy (some j) = .error .doubleFree := by
        rcases verdict_deleted hfreed with ⟨_, data, hj⟩
        rw [Nat.sub_zero] at hj
        simp [Row.destroy, hj]
      rcases destroy_cases b (some j) with hright | hright
      · simp [hleft, hright]
      · simp [hright]

/-! ## Rows with the same null columns -/

def nullColumns (row : Row) : List Bool :=
  row.fields.map Field.isNull

/-- The two rows agree up to a `char` column in which they differ. -/
def DifferAtChar (xs ys : List Field) : Prop :=
  ∃ pre x y xs' ys', xs = pre ++ x :: xs' ∧ ys = pre ++ y :: ys' ∧ x ≠ y ∧
    x.getTypeId = .kTypeChar

theorem differAtChar_cons_self (x : Field) (xs ys : List Field) :
    DifferAtChar (x :: xs) (x :: ys) ↔ DifferAtChar xs ys := by
  constructor
  · rintro ⟨pre, u, v, us, vs, hx, hy, hne, htype⟩
    cases pre with
    | nil =>
        simp only [List.nil_append, List.cons.injEq] at hx hy
        exact absurd (hx.1.symm.trans hy.1) hne
    | cons w pre =>
        simp only [List.cons_append, List.cons.injEq] at hx hy
        exact ⟨pre, u, v, us, vs, hx.2, hy.2, hne, htype⟩
  · rintro ⟨pre, u, v, us, vs, rfl, rfl, hne, htype⟩
    exact ⟨x :: pre, u, v, us, vs, rfl, rfl, hne, htype⟩

theorem differAtChar_cons_ne {x y : Field} (hne : x ≠ y) (xs ys : List Field) :
    DifferAtChar (x :: xs) (y :: ys) ↔ x.getTypeId = .kTypeChar := by
  constructor
  · rintro ⟨pre, u, v, us, vs, hx, hy, _, htype⟩
    cases pre with
    | nil =>
        simp only [List.nil_append, List.cons.injEq] at hx
        exact hx.1 ▸ htype
    | cons w pre =>
        simp only [List.cons_append, List.cons.injEq] at hx hy
        exact absurd (hx.1.trans hy.1.symm) hne
  · intro htype
    exact ⟨[], x, y, xs, ys, rfl, rfl, hne, htype⟩

/-- The place of a row in the order of its schema. -/
def rowKey (xs : List Field) : List (List Int) :=
  xs.map Field.key

/-- The sign of a comparison in a linear order. -/
def sign {α : Type} [LinearOrder α] (x y : α) : Int :=
  if x < y then -1 else if y < x then 1 else 0

theorem sign_eq_of_lt {α : Type} [LinearOrder α] {x y : α} (h : x < y) : sign x y = -1 :=
  if_pos h

theorem sign_eq_of_gt {α : Type} [LinearOrder α] {x y : α} (h : y < x) : sign x y = 1 := by
  rw [sign, if_neg (not_lt_of_gt h), if_pos h]

/-- Equal heads decide nothing. -/
theorem sign_cons_self {α : Type} [LinearOrder α] (x : α) (xs ys : List α) :
    sign (x :: xs) (x :: ys) = sign xs ys := by
  rcases lt_trichotomy xs ys with hlt | rfl | hgt
  · have hcons : x :: xs < x :: ys := List.cons_lt_cons_iff.mpr (Or.inr ⟨rfl, hlt⟩)
    rw [sign_eq_of_lt hlt, sign_eq_of_lt hcons]
  · simp [sign]
  · have hcons : x :: ys < x :: xs := List.cons_lt_cons_iff.mpr (Or.inr ⟨rfl, hgt⟩)
    rw [sign_eq_of_gt hgt, sign_eq_of_gt hcons]

theorem verdict_value {xs ys : List Field} (hnull : xs.map Field.isNull = ys.map Field.isNull)
    (i : Nat) : (verdict xs ys i).1 = sign (rowKey xs) (rowKey ys) := by
  induction xs generalizing ys i with
  | nil =>
      cases ys with
      | nil => simp [verdict, sign]
      | cons y ys => simp at hnull
  | cons x xs ih =>
      cases ys with
      | nil => simp at hnull
      | cons y ys =>
          simp only [List.map_cons, List.cons.injEq] at hnull
          have hskip : x.key = y.key → sign (rowKey (x :: xs)) (rowKey (y :: ys)) =
              sign (rowKey xs) (rowKey ys) := by
            intro hkey
            simp only [rowKey, List.map_cons, hkey, sign_cons_self]
          by_cases hx : x.isNull = true
          · -- Two nulls: equal keys, and the program looks at the next column.
            have hy : y.isNull = true := hnull.1 ▸ hx
            have hkey : x.key = y.key := by
              rw [Field.key_eq_nil_iff.mpr hx, Field.key_eq_nil_iff.mpr hy]
            rw [hskip hkey, ← ih hnull.2 (i + 1)]
            simp [verdict, hx]
          · have hy : ¬y.isNull = true := hnull.1 ▸ hx
            rcases lt_trichotomy x.key y.key with hlt | heq | hgt
            · have hcons : rowKey (x :: xs) < rowKey (y :: ys) :=
                List.cons_lt_cons_iff.mpr (Or.inl hlt)
              rw [sign_eq_of_lt hcons]
              simp [verdict, hx, hy, hlt]
            · rw [hskip heq, ← ih hnull.2 (i + 1)]
              simp [verdict, hx, hy, heq]
            · have hcons : rowKey (y :: ys) < rowKey (x :: xs) :=
                List.cons_lt_cons_iff.mpr (Or.inl hgt)
              rw [sign_eq_of_gt hcons]
              simp [verdict, hx, hy, hgt, not_lt_of_gt hgt]

/-- Two fields of one column. -/
def SameColumn (x y : Field) : Prop :=
  ∃ type, Field.Keyed type ∧ x.getTypeId = type ∧ y.getTypeId = type

theorem sameColumns (hcols : KeyedSchema schema) (ha : a.HasSchema schema)
    (hb : b.HasSchema schema) : List.Forall₂ SameColumn a.fields b.fields := by
  rw [List.forall₂_iff_get]
  refine ⟨ha.length_eq.trans hb.length_eq.symm, fun i hia hib => ?_⟩
  have hlt : i < schema.columns.length := ha.length_eq ▸ hia
  exact ⟨(schema.columns.get ⟨i, hlt⟩).type, hcols _ (List.get_mem _ _), (ha.get hia hlt).1,
    (hb.get hib hlt).1⟩

/-- A verdict deletes data exactly when the rows first differ in a `char` column. -/
theorem verdict_deletes_iff {xs ys : List Field}
    (htypes : List.Forall₂ SameColumn xs ys)
    (hnull : xs.map Field.isNull = ys.map Field.isNull) (i : Nat) :
    (verdict xs ys i).2 ≠ none ↔ DifferAtChar xs ys := by
  induction htypes generalizing i with
  | nil =>
      simp [verdict, DifferAtChar]
  | @cons x y xs ys hxy _ ih =>
      rcases hxy with ⟨type, hkeyed, hx, hy⟩
      simp only [List.map_cons, List.cons.injEq] at hnull
      by_cases heq : x = y
      · subst heq
        rw [differAtChar_cons_self, ← ih hnull.2 (i + 1)]
        simp [verdict]
      · -- They differ here, so neither is null and one key is smaller.
        rw [differAtChar_cons_ne heq]
        have hkey : x.key ≠ y.key := fun h => heq (Field.key_injective hkeyed hx hy h)
        have hxn : x.isNull = false := by
          by_contra hn
          rw [Bool.not_eq_false] at hn
          exact hkey (by rw [Field.key_eq_nil_iff.mpr hn,
            Field.key_eq_nil_iff.mpr (hnull.1 ▸ hn)])
        have hyn : y.isNull = false := hnull.1 ▸ hxn
        rcases lt_or_gt_of_ne hkey with hlt | hgt
        · simp [verdict, hxn, hyn, hlt, deleted]
        · simp [verdict, hxn, hyn, hgt, not_lt_of_gt hgt, deleted]

/-! ## Rows that differ only in their null columns -/

/-- A row with the same null columns and the smallest values. -/
def blankField : Field → Field
  | .null type => .null type
  | .int _ => .int 0
  | .float _ => .float 0
  | .char _ => .char []

def blank (row : Row) : Row :=
  { row with fields := row.fields.map blankField }

theorem isNull_blankField (x : Field) : (blankField x).isNull = x.isNull := by
  cases x <;> rfl

theorem getTypeId_blankField (x : Field) : (blankField x).getTypeId = x.getTypeId := by
  cases x <;> rfl

theorem nullColumns_blank (row : Row) : nullColumns (blank row) = nullColumns row := by
  simp [nullColumns, blank, Function.comp_def, isNull_blankField]

theorem blank_hasSchema (h : a.HasSchema schema) : (blank a).HasSchema schema := by
  refine List.forall₂_map_left_iff.mpr (h.imp fun x column hx => ⟨?_, ?_⟩)
  · rw [getTypeId_blankField]
    exact hx.1
  · intro data hdata
    cases x <;> simp_all [blankField]

theorem blank_encode_length_le (row : Row) : (blank row).encode.length ≤ row.encode.length := by
  have hfields : ∀ xs : List Field,
      (Row.encodeFields (xs.map blankField)).length ≤ (Row.encodeFields xs).length := by
    intro xs
    induction xs with
    | nil => simp [Row.encodeFields]
    | cons x xs ih =>
        have hx : (if (blankField x).isNull then [] else (blankField x).encode).length ≤
            (if x.isNull then [] else x.encode).length := by
          cases x <;> simp [blankField, Field.isNull, Field.encode]
        simp only [Row.encodeFields, List.map_cons, List.flatMap_cons, List.length_append] at *
        omega
  have := hfields row.fields
  simp only [Row.encode, blank, List.length_append, nullBitmap_length, List.length_map]
  omega

theorem blankField_undecided {x y : Field} (h : x.getTypeId = y.getTypeId) :
    ((blankField x).isNull || (blankField y).isNull) = true ∨
      (blankField x).key = (blankField y).key := by
  cases x <;> cases y <;> simp_all [blankField, Field.isNull, Field.getTypeId]

/-- Between blank rows of one schema no column decides. -/
theorem verdict_blank {xs ys : List Field}
    (htypes : List.Forall₂ SameColumn xs ys) (i : Nat) :
    verdict (xs.map blankField) (ys.map blankField) i = (0, none) := by
  induction htypes generalizing i with
  | nil => rfl
  | @cons x y xs ys hxy _ ih =>
      rcases hxy with ⟨type, _, hx, hy⟩
      rw [List.map_cons, List.map_cons, verdict, ih]
      rcases blankField_undecided (hx.trans hy.symm) with hnull | hkey
      · simp [hnull]
      · simp [hkey]

/-! ## The laws of an order -/

/-- The keys in question: rows of the key schema that fit the buffer and whose null columns are
among `nulls`. -/
structure Keys (km : KeyManager) (nulls : List Bool → Prop) (row : Row) : Prop where
  schema : row.HasSchema km.keySchema
  fits : row.encode.length ≤ km.keySize
  nulls : nulls (nullColumns row)

/-- `CompareKeys` returns on the keys of all these rows and is a total order on their fields. -/
structure TotalOrderOn (km : KeyManager) (rows : Row → Prop) : Prop where
  opposite : ∀ a b ka kb, rows a → rows b → km.IsKey ka a → km.IsKey kb b →
    ∃ x y, km.compareKeys ka kb = .ok x ∧ km.compareKeys kb ka = .ok y ∧
      (x < 0 ∧ 0 < y ∨ 0 < x ∧ y < 0 ∨ x = 0 ∧ y = 0)
  trans : ∀ a b c ka kb kc, rows a → rows b → rows c → km.IsKey ka a → km.IsKey kb b →
    km.IsKey kc c → ∀ x y, km.compareKeys ka kb = .ok x → km.compareKeys kb kc = .ok y →
      x ≤ 0 → y ≤ 0 → ∃ z, km.compareKeys ka kc = .ok z ∧ z ≤ 0
  zero_iff : ∀ a b ka kb, rows a → rows b → km.IsKey ka a → km.IsKey kb b →
    (km.compareKeys ka kb = .ok 0 ↔ a.fields = b.fields)

theorem Keys.exists_key {nulls : List Bool → Prop} (h : Keys km nulls a) :
    ∃ key, km.IsKey key a := by
  have hkey : km.serializeFromKey (fun _ => 0) a km.keySchema = _ := serializeFromKey_eq h.schema _
  rw [if_pos h.fits] at hkey
  exact ⟨_, _, hkey⟩

theorem Keys.blank {nulls : List Bool → Prop} (h : Keys km nulls a) :
    Keys km nulls (KeyManager.blank a) where
  schema := blank_hasSchema h.schema
  fits := le_trans (blank_encode_length_le a) h.fits
  nulls := by
    rw [nullColumns_blank]
    exact h.nulls

theorem rowKey_injective (hcols : KeyedSchema schema) (ha : a.HasSchema schema)
    (hb : b.HasSchema schema) (h : rowKey a.fields = rowKey b.fields) : a.fields = b.fields := by
  have htypes := sameColumns hcols ha hb
  generalize a.fields = xs at *
  generalize b.fields = ys at *
  induction htypes with
  | nil => rfl
  | @cons x y xs ys hxy _ ih =>
      rcases hxy with ⟨type, hkeyed, hx, hy⟩
      simp only [rowKey, List.map_cons, List.cons.injEq] at h
      rw [Field.key_injective hkeyed hx hy h.1, ih h.2]

/-- On rows with the same null columns that do not first differ in a `char` column, the value
returned is the sign of the order of the rows. -/
theorem compareKeys_sign (hcols : KeyedSchema km.keySchema) (ha : a.HasSchema km.keySchema)
    (hb : b.HasSchema km.keySchema) {ka kb : Mem} (hka : km.IsKey ka a) (hkb : km.IsKey kb b)
    (hnull : nullColumns a = nullColumns b) (hchar : ¬DifferAtChar a.fields b.fields) :
    km.compareKeys ka kb = .ok (sign (rowKey a.fields) (rowKey b.fields)) := by
  have hfreed : (verdict a.fields b.fields 0).2 = none := by
    by_contra hfreed
    exact hchar ((verdict_deletes_iff (sameColumns hcols ha hb) hnull 0).mp hfreed)
  rw [compareKeys_eq hcols ha hb hka hkb, if_pos hfreed, verdict_value hnull]

theorem sign_le_zero {α : Type} [LinearOrder α] {x y : α} : sign x y ≤ 0 ↔ x ≤ y := by
  rcases lt_trichotomy x y with h | rfl | h
  · simp [sign_eq_of_lt h, h.le]
  · simp [sign]
  · simp [sign_eq_of_gt h, h]

theorem sign_eq_zero {α : Type} [LinearOrder α] {x y : α} : sign x y = 0 ↔ x = y := by
  rcases lt_trichotomy x y with h | rfl | h
  · simp [sign_eq_of_lt h, h.ne]
  · simp [sign]
  · simp [sign_eq_of_gt h, h.ne']

theorem sign_swap {α : Type} [LinearOrder α] (x y : α) : sign y x = -sign x y := by
  rcases lt_trichotomy x y with h | rfl | h
  · rw [sign_eq_of_lt h, sign_eq_of_gt h, neg_neg]
  · simp [sign]
  · rw [sign_eq_of_gt h, sign_eq_of_lt h]

/-- `CompareKeys` is a total order on the keys of a schema exactly when no two of them have
different null columns or first differ in a `char` column. -/
theorem compareKeys_totalOrder_iff (hcols : KeyedSchema km.keySchema) (nulls : List Bool → Prop) :
    TotalOrderOn km (Keys km nulls) ↔
      ∀ a b, Keys km nulls a → Keys km nulls b →
        nullColumns a = nullColumns b ∧ ¬DifferAtChar a.fields b.fields := by
  constructor
  · intro horder a b ha hb
    have hnull : nullColumns a = nullColumns b := by
      -- The blank rows compare equal, so they must be equal, null columns included.
      rcases ha.blank.exists_key with ⟨ka, hka⟩
      rcases hb.blank.exists_key with ⟨kb, hkb⟩
      have hzero : km.compareKeys ka kb = .ok 0 := by
        rw [compareKeys_eq hcols ha.blank.schema hb.blank.schema hka hkb]
        simp [blank, verdict_blank (sameColumns hcols ha.schema hb.schema)]
      have hfields := (horder.zero_iff _ _ _ _ ha.blank hb.blank hka hkb).mp hzero
      calc nullColumns a = nullColumns (blank a) := (nullColumns_blank a).symm
        _ = nullColumns (blank b) := by rw [nullColumns, hfields, nullColumns]
        _ = nullColumns b := nullColumns_blank b
    refine ⟨hnull, fun hchar => ?_⟩
    rcases ha.exists_key with ⟨ka, hka⟩
    rcases hb.exists_key with ⟨kb, hkb⟩
    have hfreed := (verdict_deletes_iff (sameColumns hcols ha.schema hb.schema) hnull 0).mpr hchar
    rcases horder.opposite _ _ _ _ ha hb hka hkb with ⟨x, _, hx, _⟩
    rw [compareKeys_eq hcols ha.schema hb.schema hka hkb, if_neg hfreed] at hx
    simp at hx
  · intro hrows
    have hsign : ∀ {a b ka kb}, Keys km nulls a → Keys km nulls b → km.IsKey ka a →
        km.IsKey kb b → km.compareKeys ka kb = .ok (sign (rowKey a.fields) (rowKey b.fields)) := by
      intro a b ka kb ha hb hka hkb
      rcases hrows a b ha hb with ⟨hnull, hchar⟩
      exact compareKeys_sign hcols ha.schema hb.schema hka hkb hnull hchar
    refine ⟨?_, ?_, ?_⟩
    · intro a b ka kb ha hb hka hkb
      refine ⟨_, _, hsign ha hb hka hkb, hsign hb ha hkb hka, ?_⟩
      rw [sign_swap (rowKey a.fields)]
      omega
    · intro a b c ka kb kc ha hb hc hka hkb hkc x y hx hy hx0 hy0
      rw [hsign ha hb hka hkb, Except.ok.injEq] at hx
      rw [hsign hb hc hkb hkc, Except.ok.injEq] at hy
      subst hx hy
      exact ⟨_, hsign ha hc hka hkc,
        sign_le_zero.mpr (le_trans (sign_le_zero.mp hx0) (sign_le_zero.mp hy0))⟩
    · intro a b ka kb ha hb hka hkb
      rw [hsign ha hb hka hkb, Except.ok.injEq, sign_eq_zero]
      exact ⟨rowKey_injective hcols ha.schema hb.schema, fun h => by rw [h]⟩

/-- Rows without strings do not differ in one. -/
theorem not_differAtChar (hcols : ∀ column ∈ schema.columns, column.type ≠ .kTypeChar)
    (ha : a.HasSchema schema) (ys : List Field) : ¬DifferAtChar a.fields ys := by
  rintro ⟨pre, x, y, xs', ys', hx, _, _, htype⟩
  have hi : a.fields[pre.length]? = some x := by
    rw [hx]
    simp
  rcases ha.field hi with ⟨column, hcolumn, hcolx⟩
  have hmem : column ∈ schema.columns :=
    List.mem_of_getElem? (Schema.getColumn_eq_ok.mp hcolumn)
  exact hcols column hmem (hcolx.1 ▸ htype)

/-- A key of one nullable `int` column. -/
def intKey : KeyManager where
  keySize := 32
  keySchema :=
    { columns := [Column.ints 107 true false]
      isManage := false
      columns_lt := by decide }

theorem intKey_keyed : KeyedSchema intKey.keySchema := by
  simp [KeyedSchema, intKey, Column.ints, Field.Keyed]

/-- Integers that are not null are ordered. -/
theorem compareKeys_totalOrder_int :
    KeyedSchema intKey.keySchema ∧
      TotalOrderOn intKey (Keys intKey fun nulls => nulls = [false]) := by
  refine ⟨intKey_keyed, (compareKeys_totalOrder_iff intKey_keyed _).mpr fun a b ha hb => ⟨?_, ?_⟩⟩
  · rw [ha.nulls, hb.nulls]
  · exact not_differAtChar (by simp [intKey, Column.ints]) ha.schema _

/-- The key of a null compares equal to the key of 5. -/
theorem compareKeys_null_eq_value :
    ¬∀ km : KeyManager, KeyedSchema km.keySchema → TotalOrderOn km (Keys km fun _ => True) := by
  intro hall
  have ha : Keys intKey (fun _ => True) ⟨INVALID_ROWID, [.null .kTypeInt]⟩ :=
    ⟨by simp [Row.HasSchema, intKey, Column.ints, Field.HasType, Field.getTypeId], by decide,
      trivial⟩
  have hb : Keys intKey (fun _ => True) ⟨INVALID_ROWID, [.int 5]⟩ :=
    ⟨by simp [Row.HasSchema, intKey, Column.ints, Field.HasType, Field.getTypeId], by decide,
      trivial⟩
  rcases ha.exists_key with ⟨ka, hka⟩
  rcases hb.exists_key with ⟨kb, hkb⟩
  have hzero : intKey.compareKeys ka kb = .ok 0 := by
    rw [compareKeys_eq intKey_keyed ha.schema hb.schema hka hkb]
    rfl
  have hfields := ((hall intKey intKey_keyed).zero_iff _ _ _ _ ha hb hka hkb).mp hzero
  simp at hfields

end KeyManager
end MiniSQL
