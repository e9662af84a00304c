import MiniSQL.Record.Row

/-!
# Compare — three-valued comparison of fields

The comparisons of `record/types.cpp` behind `record/field.h`.  A comparison with a null field is
neither true nor false.  `Field.key` maps the values of a column to an ordered type in which the
comparisons of the program are `<`: numbers by value, strings byte by byte with a prefix first.
-/

namespace MiniSQL

open Lib

/-! ## The model -/

inductive CmpBool
  | kFalse
  | kTrue
  | kNull
  deriving DecidableEq, Repr

def getCmpBool (boolean : Bool) : CmpBool :=
  if boolean then .kTrue else .kFalse

/-- `memcmp`: the difference at the first byte that differs, of which only the sign counts. -/
def memcmp : List UInt8 → List UInt8 → Nat → Int
  | x :: xs, y :: ys, n + 1 => if x = y then memcmp xs ys n else (x.toNat : Int) - y.toNat
  | _, _, _ => 0

def compareStrings (str1 str2 : List UInt8) : Int :=
  let ret := memcmp str1 str2 (min str1.length str2.length)
  if ret = 0 ∧ str1.length ≠ str2.length then (str1.length : Int) - str2.length else ret

/-- The bits of a `float` that is not a number: all ones in the exponent, and a mantissa. -/
def isNaN (bits : UInt32) : Bool :=
  255 * 2 ^ 23 < bits.toNat % 2 ^ 31

/-- The place of a `float` among the others: sign and magnitude, with one zero. -/
def floatOrder (bits : UInt32) : Int :=
  if bits.toNat < 2 ^ 31 then bits.toNat else -((bits.toNat % 2 ^ 31 : Nat) : Int)

/-- `<` on floats. -/
def floatLess (x y : UInt32) : Bool :=
  !isNaN x && !isNaN y && decide (floatOrder x < floatOrder y)

/-- `==` on floats. -/
def floatEqual (x y : UInt32) : Bool :=
  !isNaN x && !isNaN y && decide (floatOrder x = floatOrder y)

/-- The comparison operators of a query. -/
inductive CompareOp
  | eq
  | ne
  | lt
  | le
  | gt
  | ge
  deriving DecidableEq, Repr

namespace CompareOp

def text : CompareOp → String
  | eq => "="
  | ne => "<>"
  | lt => "<"
  | le => "<="
  | gt => ">"
  | ge => ">="

/-- The relation an operator stands for. -/
def Relates {α : Type} [LinearOrder α] : CompareOp → α → α → Prop
  | eq, x, y => x = y
  | ne, x, y => x ≠ y
  | lt, x, y => x < y
  | le, x, y => x ≤ y
  | gt, x, y => y < x
  | ge, x, y => y ≤ x

instance {α : Type} [LinearOrder α] (op : CompareOp) (x y : α) : Decidable (op.Relates x y) :=
  match op with
  | eq => inferInstanceAs (Decidable (x = y))
  | ne => inferInstanceAs (Decidable (x ≠ y))
  | lt => inferInstanceAs (Decidable (x < y))
  | le => inferInstanceAs (Decidable (x ≤ y))
  | gt => inferInstanceAs (Decidable (y < x))
  | ge => inferInstanceAs (Decidable (y ≤ x))

end CompareOp

namespace Field

/-- A comparison of the three type classes: the fields must be of one type, and a null on either
side decides nothing. -/
def compareWith (message : String) (ints : Int32 → Int32 → Bool) (floats : UInt32 → UInt32 → Bool)
    (strings : Int → Bool) (left right : Field) : Result CmpBool :=
  if left.getTypeId = .kTypeInvalid then .error (.assertion message)
  else do
    assert (left.getTypeId = right.getTypeId) "Not comparable."
    match left, right with
    | int x, int y => .ok (getCmpBool (ints x y))
    | float x, float y => .ok (getCmpBool (floats x y))
    | char x, char y => .ok (getCmpBool (strings (compareStrings x y)))
    | _, _ => .ok .kNull

def compareEquals : Field → Field → Result CmpBool :=
  compareWith "CompareEquals not implemented." (fun x y => x = y) floatEqual (fun ret => ret = 0)

def compareNotEquals : Field → Field → Result CmpBool :=
  compareWith "CompareNotEquals not implemented." (fun x y => x ≠ y)
    (fun x y => !floatEqual x y) (fun ret => ret ≠ 0)

def compareLessThanEquals : Field → Field → Result CmpBool :=
  compareWith "CompareLessThanEquals not implemented." (fun x y => x ≤ y)
    (fun x y => floatLess x y || floatEqual x y) (fun ret => ret ≤ 0)

def compareGreaterThanEquals : Field → Field → Result CmpBool :=
  compareWith "CompareGreaterThanEquals not implemented." (fun x y => x ≥ y)
    (fun x y => floatLess y x || floatEqual x y) (fun ret => ret ≥ 0)

def compareLessThan : Field → Field → Result CmpBool :=
  compareWith "CompareLessThan not implemented." (fun x y => x < y) floatLess (fun ret => ret < 0)

def compareGreaterThan : Field → Field → Result CmpBool :=
  compareWith "CompareGreaterThan not implemented." (fun x y => x > y) (fun x y => floatLess y x)
    (fun ret => ret > 0)

end Field

/-! ## Strings are compared as words -/

/-- The bytes of a string as numbers. -/
def codes (str : List UInt8) : List Int :=
  str.map fun b => (b.toNat : Int)

theorem codes_injective : Function.Injective codes := by
  refine List.map_injective_iff.mpr fun x y h => ?_
  exact UInt8.toNat_inj.mp (Int.ofNat.inj h)

theorem compareStrings_cons (x y : UInt8) (xs ys : List UInt8) :
    compareStrings (x :: xs) (y :: ys) =
      if x = y then compareStrings xs ys else (x.toNat : Int) - y.toNat := by
  by_cases hxy : x = y
  · simp [compareStrings, memcmp, hxy]
  · have hne : (x.toNat : Int) - y.toNat ≠ 0 := by
      intro h
      exact hxy (UInt8.toNat_inj.mp (by omega))
    simp [compareStrings, memcmp, hxy, hne]

/-- Swapping the strings turns the sign around. -/
theorem compareStrings_swap (xs ys : List UInt8) :
    compareStrings ys xs = -compareStrings xs ys := by
  induction xs generalizing ys with
  | nil =>
      cases ys with
      | nil => rfl
      | cons y ys => simp [compareStrings, memcmp]
  | cons x xs ih =>
      cases ys with
      | nil => simp [compareStrings, memcmp]
      | cons y ys =>
          rw [compareStrings_cons, compareStrings_cons, ih]
          by_cases hxy : x = y
          · simp [hxy]
          · simp [hxy, Ne.symm hxy]

/-- The common prefix first, then the length: this is the order of words. -/
theorem compareStrings_lt_zero (xs ys : List UInt8) :
    compareStrings xs ys < 0 ↔ codes xs < codes ys := by
  induction xs generalizing ys with
  | nil =>
      cases ys with
      | nil => simp [compareStrings, memcmp, codes]
      | cons y ys =>
          simp only [compareStrings, memcmp, codes, List.length_cons, List.length_nil]
          simp
          omega
  | cons x xs ih =>
      cases ys with
      | nil =>
          simp only [compareStrings, memcmp, codes, List.length_cons, List.length_nil]
          simp
          omega
      | cons y ys =>
          have hcodes : codes (x :: xs) < codes (y :: ys) ↔
              (x.toNat : Int) < y.toNat ∨ (x.toNat : Int) = y.toNat ∧ codes xs < codes ys :=
            List.cons_lt_cons_iff
          rw [compareStrings_cons, hcodes]
          by_cases hxy : x = y
          · simp [hxy, ih]
          · have hne : (x.toNat : Int) ≠ y.toNat := by
              intro h
              exact hxy (UInt8.toNat_inj.mp (by omega))
            simp only [hxy, if_false, hne, false_and, or_false]
            omega

theorem zero_lt_compareStrings (xs ys : List UInt8) :
    0 < compareStrings xs ys ↔ codes ys < codes xs := by
  rw [← compareStrings_lt_zero, compareStrings_swap]
  omega

theorem compareStrings_eq_zero (xs ys : List UInt8) :
    compareStrings xs ys = 0 ↔ codes xs = codes ys := by
  have hlt := compareStrings_lt_zero xs ys
  have hgt := zero_lt_compareStrings xs ys
  constructor
  · intro hzero
    refine le_antisymm (not_lt.mp fun h => ?_) (not_lt.mp fun h => ?_)
    · exact absurd (hgt.mpr h) (by omega)
    · exact absurd (hlt.mpr h) (by omega)
  · intro heq
    rw [heq] at hlt hgt
    have hnlt := mt hlt.mp (lt_irrefl _)
    have hngt := mt hgt.mp (lt_irrefl _)
    omega

/-! ## The key of a field -/

namespace Field

/-- The place of a field among those of its column, nulls first. -/
def key : Field → List Int
  | null _ => []
  | int value => [value.toInt]
  | float bits => [floatOrder bits]
  | char data => 0 :: codes data

/-- The types whose values the key tells apart. -/
def Keyed (type : TypeId) : Prop :=
  type = .kTypeInt ∨ type = .kTypeChar

variable {left right : Field} {type : TypeId}

theorem key_injective (hkeyed : Keyed type) (hl : left.getTypeId = type)
    (hr : right.getTypeId = type) (h : left.key = right.key) : left = right := by
  rcases hkeyed with rfl | rfl
  · cases left <;> cases right <;> simp_all [key, getTypeId, Int32.toInt_inj]
  · cases left <;> cases right <;> simp_all [key, getTypeId, codes_injective.eq_iff]

theorem key_eq_nil_iff : left.key = [] ↔ left.isNull = true := by
  cases left <;> simp [key, isNull]

/-- A comparison within a column is a test on the keys, unless a null decides it. -/
theorem compareWith_eq {r : List Int → List Int → Bool} {message : String}
    {ints : Int32 → Int32 → Bool} {floats : UInt32 → UInt32 → Bool} {strings : Int → Bool}
    (hints : ∀ x y, ints x y = r [x.toInt] [y.toInt])
    (hstrings : ∀ x y, strings (compareStrings x y) = r (0 :: codes x) (0 :: codes y))
    (hkeyed : Keyed type) (hl : left.getTypeId = type) (hr : right.getTypeId = type) :
    compareWith message ints floats strings left right =
      .ok (if left.isNull || right.isNull then .kNull
        else getCmpBool (r left.key right.key)) := by
  rcases hkeyed with rfl | rfl
  · cases left <;> cases right <;>
      simp_all [compareWith, getTypeId, isNull, key]
  · cases left <;> cases right <;>
      simp_all [compareWith, getTypeId, isNull, key]

/-- `CompareLessThan` within a column. -/
theorem compareLessThan_eq (hkeyed : Keyed type) (hl : left.getTypeId = type)
    (hr : right.getTypeId = type) :
    left.compareLessThan right = .ok (if left.isNull || right.isNull then .kNull
      else getCmpBool (decide (left.key < right.key))) := by
  refine compareWith_eq (r := fun x y => decide (x < y)) (fun x y => ?_) (fun x y => ?_)
    hkeyed hl hr
  · simp [Int32.lt_iff_toInt_lt, List.cons_lt_cons_iff]
  · simp [compareStrings_lt_zero]

theorem compareGreaterThan_eq (hkeyed : Keyed type) (hl : left.getTypeId = type)
    (hr : right.getTypeId = type) :
    left.compareGreaterThan right = .ok (if left.isNull || right.isNull then .kNull
      else getCmpBool (decide (right.key < left.key))) := by
  refine compareWith_eq (r := fun x y => decide (y < x)) (fun x y => ?_) (fun x y => ?_)
    hkeyed hl hr
  · simp [Int32.lt_iff_toInt_lt, List.cons_lt_cons_iff]
  · simp [zero_lt_compareStrings]

/-- The comparison function of an operator. -/
def compareBy : CompareOp → Field → Field → Result CmpBool
  | .eq => compareEquals
  | .ne => compareNotEquals
  | .lt => compareLessThan
  | .le => compareLessThanEquals
  | .gt => compareGreaterThan
  | .ge => compareGreaterThanEquals

/-- Every comparison within a column is the relation on the keys, unless a null decides it. -/
theorem compareBy_eq (hkeyed : Keyed type) (hl : left.getTypeId = type)
    (hr : right.getTypeId = type) (op : CompareOp) :
    compareBy op left right = .ok (if left.isNull || right.isNull then .kNull
      else getCmpBool (decide (op.Relates left.key right.key))) := by
  have hints : ∀ x y : Int32, op.Relates [x.toInt] [y.toInt] ↔ op.Relates x.toInt y.toInt := by
    intro x y
    have hlt : ∀ a b : Int, [a] < [b] ↔ a < b := by simp [List.cons_lt_cons_iff]
    have hle : ∀ a b : Int, [a] ≤ [b] ↔ a ≤ b := fun a b => by rw [← not_lt, hlt, not_lt]
    cases op <;> simp only [CompareOp.Relates, hlt, hle, List.cons.injEq, and_true, ne_eq]
  have hstrings : ∀ x y : List UInt8, op.Relates (0 :: codes x) (0 :: codes y) ↔
      op.Relates (compareStrings x y) 0 := by
    intro x y
    cases op <;> simp [CompareOp.Relates, ← not_lt, compareStrings_eq_zero,
      compareStrings_lt_zero, zero_lt_compareStrings]
  -- Each function tests the operator on numbers, and on the value of `CompareStrings` against 0.
  have hcase : ∀ {message ints floats strings},
      (∀ x y : Int32, ints x y = decide (op.Relates x.toInt y.toInt)) →
      (∀ ret : Int, strings ret = decide (op.Relates ret 0)) →
      compareWith message ints floats strings left right =
        .ok (if left.isNull || right.isNull then .kNull
          else getCmpBool (decide (op.Relates left.key right.key))) := by
    intro message ints floats strings hi hs
    refine compareWith_eq (r := fun x y => decide (op.Relates x y)) (fun x y => ?_) (fun x y => ?_)
      hkeyed hl hr
    · rw [hi, decide_eq_decide, hints]
    · rw [hs, decide_eq_decide, hstrings]
  cases op with
  | eq => exact hcase (fun x y => decide_eq_decide.mpr Int32.toInt_inj.symm) fun ret => rfl
  | ne => exact hcase (fun x y => decide_eq_decide.mpr Int32.toInt_inj.not.symm) fun ret => rfl
  | lt => exact hcase (fun x y => decide_eq_decide.mpr Int32.lt_iff_toInt_lt) fun ret => rfl
  | le => exact hcase (fun x y => decide_eq_decide.mpr Int32.le_iff_toInt_le) fun ret => rfl
  | gt => exact hcase (fun x y => decide_eq_decide.mpr Int32.lt_iff_toInt_lt) fun ret => rfl
  | ge => exact hcase (fun x y => decide_eq_decide.mpr Int32.le_iff_toInt_le) fun ret => rfl

end Field
end MiniSQL
