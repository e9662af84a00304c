import Mathlib.Data.Nat.Digits.Defs
import MiniSQL.Parser.LexRules
import MiniSQL.Planner.Predicate

/-!
# NumberLiteral — the number a literal denotes and the integer that is bound

The two NUMBER rules of `parser/minisql.l`, `MakeInsertValues` of
`planner/statement/insert_statement.h` and `MakeUpdateValues` of
`planner/statement/update_statement.h`.  The rules admit a minus alone, and digits before and after
a point.  `stoi` reads the digits before the point and drops the rest, so an integer column gets a
number that was not written, unless what is dropped is zero.
-/

namespace MiniSQL

open Lib BufferPoolManager AbstractStatement

/-! ## Insert values and update assignments -/

/-- The loop of `MakeInsertValues` over the columns.  The test for a null literal looks at the root
of the statement, which is never one. -/
def InsertStatement.makeValues (stof : List UInt8 → Result UInt32) (root : SyntaxNodeType) :
    List Column → SyntaxNode → Result (List Expression)
  | [], .nullptr => .ok []
  | [], .node _ _ _ _ => .error (.assertion "The inserted value does not match the schema")
  | _ :: _, .nullptr => .error (.assertion "The inserted value does not match the schema")
  | column :: columns, .node type val child next => do
    let field ←
      if root = .kNodeNull then .ok (.null column.type)
      else makeConstantValueExpression stof column.type (.node type val child next)
    let values ← makeValues stof root columns next
    .ok (.constantValue field :: values)

def InsertStatement.makeInsertValues {n : Nat} (stof : List UInt8 → Result UInt32)
    (catalog : CatalogManager n) (tableName : Str) (root : SyntaxNodeType) (ast : SyntaxNode) :
    Result (List Expression) := do
  let info ← deref (catalog.getTable tableName).2.1
  makeValues stof root info.getSchema.columns ast

/-- `MakeUpdateValues`: the column is looked up as for a column value. -/
def UpdateStatement.makeUpdateValues {n : Nat} (stof : List UInt8 → Result UInt32)
    (catalog : CatalogManager n) (tableName : Str)
    (updateAttrs : AList fun _ : UInt32 => Expression) :
    SyntaxNode → Result (AList fun _ : UInt32 => Expression)
  | .nullptr => .error .nullPointer
  | .node _ _ .nullptr _ => .error .nullPointer
  | .node _ _ (.node type val child value) _ => do
    let (index, colType) ←
      makeColumnValueExpression catalog tableName (.node type val child value)
    let field ← makeConstantValueExpression stof colType value
    .ok (updateAttrs.insert index (.constantValue field))

/-! ## The token -/

namespace Lexer

open Scan Regex

/-- The text of a NUMBER token: one of the two rules for numbers matches it. -/
def IsNumber (text : List UInt8) : Prop :=
  Matches Chars.has rules 40 text ∨ Matches Chars.has rules 41 text

/-- `[-]?{D}*\.{D}+`. -/
theorem matches_decimal {text : List UInt8} :
    Matches Chars.has rules 40 text ↔ text ∈ (cat sign numberTail).language Chars.has := by
  have hrule : ∀ e ∈ rules, e.1 = 40 → e.2 = cat sign numberTail := by
    decide
  constructor
  · rintro ⟨p, hp, htext⟩
    rw [← hrule _ hp rfl]
    exact htext
  · intro htext
    exact ⟨_, by decide, htext⟩

/-- `[-]?{D}*`. -/
theorem matches_integer {text : List UInt8} :
    Matches Chars.has rules 41 text ↔ text ∈ (cat sign digitRun).language Chars.has := by
  have hrule : ∀ e ∈ rules, e.1 = 41 → e.2 = cat sign digitRun := by
    decide
  constructor
  · rintro ⟨p, hp, htext⟩
    rw [← hrule _ hp rfl]
    exact htext
  · intro htext
    exact ⟨_, by decide, htext⟩

theorem has_D (b : UInt8) : Chars.D.has b = isDigit b := by
  have hle : ∀ k l : Nat, Nat.ble k l = decide (k ≤ l) := fun k l => by
    rw [Bool.eq_iff_iff, Nat.ble_eq, decide_eq_true_eq]
  rw [Chars.has, Chars.hasCode, isDigitCode, hle, hle, isDigit]
  simp only [UInt8.le_iff_toNat_le]
  rfl

theorem mem_digitRun {ds : List UInt8} :
    ds ∈ digitRun.language Chars.has ↔ ∀ b ∈ ds, isDigit b = true := by
  rw [digitRun, mem_star_class]
  simp only [has_D]

theorem mem_decimals {ds : List UInt8} :
    ds ∈ decimals.language Chars.has ↔ ds ≠ [] ∧ ∀ b ∈ ds, isDigit b = true := by
  rw [decimals, mem_cat]
  constructor
  · rintro ⟨u, hu, v, hv, rfl⟩
    obtain ⟨b, hb, rfl⟩ := mem_class.mp hu
    rw [has_D] at hb
    exact ⟨List.cons_ne_nil _ _, List.forall_mem_cons.mpr ⟨hb, mem_digitRun.mp hv⟩⟩
  · rintro ⟨hne, h⟩
    obtain ⟨b, v, rfl⟩ := List.exists_cons_of_ne_nil hne
    obtain ⟨hb, hv⟩ := List.forall_mem_cons.mp h
    exact ⟨[b], mem_class.mpr ⟨b, (has_D b).trans hb, rfl⟩, v, mem_digitRun.mpr hv, rfl⟩

/-- One character that is given by its code. -/
theorem mem_code {code : Nat} {b : UInt8} (hcode : b.toNat = code) {w : List UInt8} :
    w ∈ (codes [code]).language Chars.has ↔ w = [b] := by
  rw [codes, List.map_singleton, mem_class, ← hcode]
  simp only [Chars.has, Chars.hasCode, beq_iff_eq, UInt8.toNat_inj]
  constructor
  · rintro ⟨c, rfl, rfl⟩
    rfl
  · rintro rfl
    exact ⟨b, rfl, rfl⟩

theorem mem_numberTail {w : List UInt8} : w ∈ numberTail.language Chars.has ↔
    ∃ whole ds, (∀ b ∈ whole, isDigit b = true) ∧ (ds ≠ [] ∧ ∀ b ∈ ds, isDigit b = true) ∧
      whole ++ 46 :: ds = w := by
  rw [numberTail, mem_cat]
  constructor
  · rintro ⟨whole, hwhole, _, htail, rfl⟩
    obtain ⟨_, hpoint, ds, hds, rfl⟩ := mem_cat.mp htail
    rw [(mem_code (b := 46) rfl).mp hpoint]
    exact ⟨whole, ds, mem_digitRun.mp hwhole, mem_decimals.mp hds, rfl⟩
  · rintro ⟨whole, ds, hwhole, hds, rfl⟩
    exact ⟨whole, mem_digitRun.mpr hwhole, _,
      mem_cat.mpr ⟨[46], (mem_code (b := 46) rfl).mpr rfl, ds, mem_decimals.mpr hds, rfl⟩, rfl⟩

theorem mem_sign {s : List UInt8} : s ∈ sign.language Chars.has ↔
    ∃ negative : Bool, (if negative then [45] else []) = s := by
  rw [sign, mem_alt, mem_word, List.forall₂_nil_left_iff]
  constructor
  · rintro (rfl | hminus)
    · exact ⟨false, rfl⟩
    · rw [(mem_code (b := 45) rfl).mp hminus]
      exact ⟨true, rfl⟩
  · rintro ⟨negative, rfl⟩
    cases negative with
    | false =>
        exact .inl rfl
    | true =>
        exact .inr ((mem_code (b := 45) rfl).mpr rfl)

end Lexer

/-! ## The number -/

/-- The value of a string of digits. -/
def digitsValue (ds : List UInt8) : Nat :=
  Nat.ofDigits 10 (ds.map fun b => b.toNat - 48).reverse

/-- A number as it is written: a sign, the digits before the point, and those after it when there is
a point. -/
structure Numeral where
  negative : Bool
  whole : List UInt8
  decimals : Option (List UInt8)
  whole_digits : ∀ b ∈ whole, isDigit b = true
  decimals_digits : ∀ ds ∈ decimals, ds ≠ [] ∧ ∀ b ∈ ds, isDigit b = true

namespace Numeral

/-- What follows the digits before the point. -/
def rest (x : Numeral) : List UInt8 :=
  match x.decimals with
  | none => []
  | some ds => 46 :: ds

def text (x : Numeral) : List UInt8 :=
  (if x.negative then [45] else []) ++ (x.whole ++ x.rest)

/-- The number before the point, with the sign. -/
def wholeValue (x : Numeral) : Int :=
  if x.negative then -digitsValue x.whole else digitsValue x.whole

/-- The number that is denoted; without a digit there is none. -/
def value (x : Numeral) : Option ℚ :=
  match x.decimals with
  | none => if x.whole = [] then none else some x.wholeValue
  | some ds =>
    let part : ℚ := digitsValue ds / 10 ^ ds.length
    some (x.wholeValue + if x.negative then -part else part)

/-- The texts of a NUMBER token are those of the numerals. -/
theorem isNumber_iff {text : List UInt8} :
    Lexer.IsNumber text ↔ ∃ x : Numeral, x.text = text := by
  rw [Lexer.IsNumber, Lexer.matches_decimal, Lexer.matches_integer]
  simp only [Scan.Regex.mem_cat, Lexer.mem_sign, Lexer.mem_numberTail, Lexer.mem_digitRun]
  constructor
  · rintro (⟨_, ⟨negative, rfl⟩, _, ⟨whole, ds, hwhole, hds, rfl⟩, rfl⟩ |
      ⟨_, ⟨negative, rfl⟩, whole, hwhole, rfl⟩)
    · exact ⟨⟨negative, whole, some ds, hwhole, fun ds' h => Option.mem_some.mp h ▸ hds⟩, rfl⟩
    · exact ⟨⟨negative, whole, none, hwhole, fun ds' h => by cases h⟩, by simp [text, rest]⟩
  · rintro ⟨⟨negative, whole, decimals, hwhole, hdecimals⟩, rfl⟩
    cases decimals with
    | none =>
        exact Or.inr ⟨_, ⟨negative, rfl⟩, whole, hwhole, by simp [text, rest]⟩
    | some ds =>
        exact Or.inl ⟨_, ⟨negative, rfl⟩, _, ⟨whole, ds, hwhole, hdecimals ds rfl, rfl⟩, rfl⟩

/-- The text after the sign starts with a digit or the point, if with anything. -/
theorem head_body {x : Numeral} {b : UInt8} {tail : List UInt8}
    (h : x.whole ++ x.rest = b :: tail) : isDigit b = true ∨ b = 46 := by
  cases hwhole : x.whole with
  | cons d ds =>
      rw [hwhole, List.cons_append, List.cons.injEq] at h
      exact Or.inl (x.whole_digits b (by rw [hwhole, h.1]; exact List.mem_cons_self))
  | nil =>
      rw [hwhole, List.nil_append, rest] at h
      split at h
      · cases h
      · exact Or.inr (List.cons.inj h).1.symm

theorem takeWhile_body (x : Numeral) : (x.whole ++ x.rest).takeWhile isDigit = x.whole := by
  have hrest : x.rest.takeWhile isDigit = [] := by
    rw [rest]
    split <;> rfl
  rw [List.takeWhile_append_of_pos x.whole_digits, hrest, List.append_nil]

/-- A text is written by one numeral only. -/
theorem text_injective {x y : Numeral} (h : x.text = y.text) : x = y := by
  have hbody : x.negative = y.negative ∧ x.whole ++ x.rest = y.whole ++ y.rest := by
    cases hx : x.negative with
    | false =>
        cases hy : y.negative with
        | false =>
            simpa [text, hx, hy] using h
        | true =>
            simp only [text, hx, hy, if_true, Bool.false_eq_true, if_false, List.nil_append,
              List.singleton_append] at h
            rcases head_body h with hb | hb <;> cases hb
    | true =>
        cases hy : y.negative with
        | false =>
            simp only [text, hx, hy, if_true, Bool.false_eq_true, if_false, List.nil_append,
              List.singleton_append] at h
            rcases head_body h.symm with hb | hb <;> cases hb
        | true =>
            simpa [text, hx, hy] using h
  -- The sign is the first byte, the whole part ends at the point.
  have hwhole : x.whole = y.whole := by
    rw [← x.takeWhile_body, hbody.2, y.takeWhile_body]
  have hrest : x.rest = y.rest := by
    have hsame := hbody.2
    rw [hwhole] at hsame
    exact List.append_cancel_left hsame
  have hdecimals : x.decimals = y.decimals := by
    unfold rest at hrest
    cases hx : x.decimals <;> cases hy : y.decimals <;> simp_all
  cases x
  cases y
  simp only [mk.injEq]
  exact ⟨hbody.1, hwhole, hdecimals⟩

/-! ## What `stoi` reads -/

theorem isDigit_le {b : UInt8} (h : isDigit b = true) : 48 ≤ b.toNat := by
  simp only [isDigit, Bool.and_eq_true, decide_eq_true_eq, UInt8.le_iff_toNat_le] at h
  exact h.1

/-- The digits of a numeral are worth what the loop of `stoi` adds up. -/
theorem foldl_digits {ds : List UInt8} (hds : ∀ b ∈ ds, isDigit b = true) :
    ds.foldl (fun (n : Int) b => 10 * n + (b.toNat - 48)) 0 = digitsValue ds := by
  induction ds using List.reverseRecOn with
  | nil =>
      rfl
  | append_singleton ds b ih =>
      have hlow := isDigit_le (hds b (by simp))
      rw [List.foldl_append, ih fun d hd => hds d (List.mem_append_left _ hd)]
      simp only [digitsValue, List.foldl_cons, List.foldl_nil, List.map_append, List.map_cons,
        List.map_nil, List.reverse_append, List.reverse_cons, List.reverse_nil, List.nil_append,
        List.singleton_append, Nat.ofDigits_cons]
      push_cast [hlow]
      ring

/-- Only zeros are worth nothing. -/
theorem digitsValue_eq_zero {ds : List UInt8} (hds : ∀ b ∈ ds, isDigit b = true) :
    digitsValue ds = 0 ↔ ∀ b ∈ ds, b = 48 := by
  constructor
  · intro hzero b hb
    -- The value is at least the sum of the digits.
    have hsum := Nat.sum_le_ofDigits (ds.map fun b => b.toNat - 48).reverse (p := 10) (by decide)
    rw [show Nat.ofDigits 10 (ds.map fun b => b.toNat - 48).reverse = 0 from hzero,
      Nat.le_zero, List.sum_eq_zero_iff] at hsum
    have hdigit : b.toNat - 48 = 0 :=
      hsum _ (List.mem_reverse.mpr (List.mem_map_of_mem hb))
    have hlow := isDigit_le (hds b hb)
    refine UInt8.toNat_inj.mp ?_
    rw [show (48 : UInt8).toNat = 48 from rfl]
    omega
  · intro hall
    have hmap : ds.map (fun b => b.toNat - 48) = List.replicate ds.length 0 := by
      refine List.eq_replicate_iff.mpr ⟨List.length_map _, fun d hd => ?_⟩
      rcases List.mem_map.mp hd with ⟨b, hb, rfl⟩
      rw [hall b hb]
      rfl
    rw [digitsValue, hmap, List.reverse_replicate]
    exact Nat.ofDigits_replicate_zero

def InRange (x : Numeral) : Prop :=
  -2 ^ 31 ≤ x.wholeValue ∧ x.wholeValue < 2 ^ 31

/-- `stoi` past the blanks and the sign. -/
def readDigits (negative : Bool) (body : List UInt8) : Result Int32 :=
  let digits := body.takeWhile isDigit
  if digits = [] then .error (.assertion "stoi")
  else
    let magnitude : Int := digits.foldl (fun n b => 10 * n + (b.toNat - 48)) 0
    let value := if negative then -magnitude else magnitude
    if -2 ^ 31 ≤ value ∧ value < 2 ^ 31 then .ok (Int32.ofInt value) else .error .outOfRange

theorem digit_cases {b : UInt8} (h : isDigit b = true) :
    b = 48 ∨ b = 49 ∨ b = 50 ∨ b = 51 ∨ b = 52 ∨ b = 53 ∨ b = 54 ∨ b = 55 ∨ b = 56 ∨ b = 57 := by
  simp only [isDigit, Bool.and_eq_true, decide_eq_true_eq, UInt8.le_iff_toNat_le] at h
  have hlow : 48 ≤ b.toNat := h.1
  have hhigh : b.toNat ≤ 57 := h.2
  rw [← UInt8.ofNat_toNat (x := b)]
  interval_cases b.toNat <;> decide

/-- A numeral has no blank in front, and no sign but the minus. -/
theorem stoi_eq_readDigits (x : Numeral) :
    stoi x.text = readDigits x.negative (x.whole ++ x.rest) := by
  cases hx : x.negative with
  | true =>
      simp only [text, hx, if_true, List.singleton_append]
      rfl
  | false =>
      simp only [text, hx, Bool.false_eq_true, if_false, List.nil_append]
      cases hbody : x.whole ++ x.rest with
      | nil =>
          rfl
      | cons b tail =>
          rcases head_body hbody with hdigit | rfl
          · rcases digit_cases hdigit with
              rfl | rfl | rfl | rfl | rfl | rfl | rfl | rfl | rfl | rfl <;> rfl
          · rfl

theorem stoi_text (x : Numeral) :
    (x.whole = [] ∧ stoi x.text = .error (.assertion "stoi")) ∨
      (x.whole ≠ [] ∧ ¬x.InRange ∧ stoi x.text = .error .outOfRange) ∨
      (x.whole ≠ [] ∧ x.InRange ∧ stoi x.text = .ok (Int32.ofInt x.wholeValue)) := by
  rw [stoi_eq_readDigits]
  simp only [readDigits, x.takeWhile_body, foldl_digits x.whole_digits]
  by_cases hwhole : x.whole = []
  · exact Or.inl ⟨hwhole, by rw [if_pos hwhole]⟩
  · rw [if_neg hwhole]
    by_cases hrange : x.InRange
    · exact Or.inr (Or.inr ⟨hwhole, hrange, if_pos hrange⟩)
    · exact Or.inr (Or.inl ⟨hwhole, hrange, if_neg hrange⟩)

/-! ## The literal of an integer column -/

/-- The text denotes the number. -/
def Denotes (text : List UInt8) (q : ℚ) : Prop :=
  ∃ x : Numeral, x.text = text ∧ x.value = some q

theorem denotes_text {x : Numeral} {q : ℚ} : Denotes x.text q ↔ x.value = some q := by
  refine ⟨fun ⟨y, hy, hq⟩ => ?_, fun h => ⟨x, rfl, h⟩⟩
  rw [← text_injective hy]
  exact hq

/-- The digits after the point are zeros. -/
def IsWhole (x : Numeral) : Prop :=
  ∀ ds ∈ x.decimals, ∀ b ∈ ds, b = 48

theorem value_eq_wholeValue_iff {x : Numeral} (hwhole : x.whole ≠ []) :
    x.value = some (x.wholeValue : ℚ) ↔ x.IsWhole := by
  unfold value IsWhole
  cases hx : x.decimals with
  | none =>
      simp [hwhole]
  | some ds =>
      have hdigits := (x.decimals_digits ds hx).2
      have hpow : (10 : ℚ) ^ ds.length ≠ 0 := pow_ne_zero _ (by norm_num)
      have hpart : (digitsValue ds : ℚ) / 10 ^ ds.length = 0 ↔ ∀ b ∈ ds, b = 48 := by
        rw [div_eq_zero_iff, or_iff_left hpow, Nat.cast_eq_zero, digitsValue_eq_zero hdigits]
      have hsigned : (if x.negative then -((digitsValue ds : ℚ) / 10 ^ ds.length)
          else (digitsValue ds : ℚ) / 10 ^ ds.length) = 0 ↔ ∀ b ∈ ds, b = 48 := by
        rw [← hpart]
        split
        · exact neg_eq_zero
        · exact Iff.rfl
      simp only [Option.some.injEq, add_eq_left, hsigned, Option.mem_def, forall_eq']

/-- What a literal of this text is bound to, if to anything, is the number it denotes, and it is
refused when there is none among the values of the column. -/
structure BoundExactly (text : List UInt8) (result : Result Field) : Prop where
  exact : ∀ field, result = .ok field → ∃ v : Int32, field = .int v ∧ Denotes text (v.toInt : ℚ)
  refused : (∀ v : Int32, ¬Denotes text (v.toInt : ℚ)) → ∃ e, result = .error e

/-- The condition: what `stoi` drops is zero, or `stoi` throws, since there is no digit before the
point or the number before it is no `int`. -/
def DropsNothing (text : List UInt8) : Prop :=
  ∀ x : Numeral, x.text = text → x.IsWhole ∨ x.whole = [] ∨ ¬x.InRange

theorem dropsNothing_text {x : Numeral} :
    DropsNothing x.text ↔ x.IsWhole ∨ x.whole = [] ∨ ¬x.InRange := by
  refine ⟨fun h => h x rfl, fun h y hy => ?_⟩
  rw [text_injective hy]
  exact h

/-- What is bound when `stoi` reads the text of a numeral. -/
theorem boundExactly_iff (x : Numeral) :
    BoundExactly x.text ((stoi x.text).bind fun v => .ok (.int v)) ↔
      x.IsWhole ∨ x.whole = [] ∨ ¬x.InRange := by
  have hthrown : ∀ e, BoundExactly x.text (.error e) := fun e =>
    ⟨fun field hok => (by cases hok), fun _ => ⟨e, rfl⟩⟩
  -- `stoi` throws without digits and out of range, and stops at the point otherwise.
  rcases x.stoi_text with ⟨hwhole, hread⟩ | ⟨hwhole, hrange, hread⟩ | ⟨hwhole, hrange, hread⟩
  · rw [hread]
    exact ⟨fun _ => Or.inr (Or.inl hwhole), fun _ => hthrown _⟩
  · rw [hread]
    exact ⟨fun _ => Or.inr (Or.inr hrange), fun _ => hthrown _⟩
  · have hvalue : (Int32.ofInt x.wholeValue).toInt = x.wholeValue :=
      Int32.toInt_ofInt_of_le hrange.1 hrange.2
    have hexact := value_eq_wholeValue_iff hwhole
    rw [hread]
    constructor
    · intro hbound
      rcases hbound.exact _ rfl with ⟨v, hv, hdenoted⟩
      rw [← Field.int.inj hv, hvalue, denotes_text] at hdenoted
      exact Or.inl (hexact.mp hdenoted)
    · intro h
      have hwholes : x.IsWhole :=
        h.resolve_right fun hrest => hrest.elim hwhole fun hout => hout hrange
      have hdenoted : Denotes x.text ((Int32.ofInt x.wholeValue).toInt : ℚ) := by
        rw [hvalue, denotes_text]
        exact hexact.mpr hwholes
      refine ⟨fun field hok => ⟨_, (Except.ok.inj hok).symm, hdenoted⟩, fun hnone => ?_⟩
      exact absurd hdenoted (hnone _)

end Numeral

namespace AbstractStatement

open Numeral

variable {stof : List UInt8 → Result UInt32} {literal : CStr} {child next : SyntaxNode}

theorem makeConstantValueExpression_number {x : Numeral} (hx : x.text = literal.val.val) :
    makeConstantValueExpression stof .kTypeInt (.node .kNodeNumber (some literal) child next) =
      (stoi x.text).bind fun v => .ok (.int v) := by
  rw [hx]
  rfl

/-- A NUMBER literal of an `int` column is bound exactly or refused if and only if the condition
holds. -/
theorem int_literal_exact_iff (hnumber : Lexer.IsNumber literal.val.val)
    (child next : SyntaxNode) :
    BoundExactly literal.val.val
        (makeConstantValueExpression stof .kTypeInt
          (.node .kNodeNumber (some literal) child next)) ↔
      DropsNothing literal.val.val := by
  rcases isNumber_iff.mp hnumber with ⟨x, hx⟩
  rw [makeConstantValueExpression_number hx, ← hx, dropsNothing_text]
  exact x.boundExactly_iff

/-- `-7.00`. -/
def minusSeven : Numeral :=
  ⟨true, [55], some [48, 48], by simp [isDigit], by simp [isDigit]⟩

/-- `1.5`. -/
def oneAndHalf : Numeral :=
  ⟨false, [49], some [53], by simp [isDigit], by simp [isDigit]⟩

theorem int_literal_exact_iff_zeros :
    ∃ literal : CStr, literal.val.val = minusSeven.text ∧
      makeConstantValueExpression (fun _ => .ok 0) .kTypeInt
        (.node .kNodeNumber (some literal) .nullptr .nullptr) = .ok (.int (-7)) ∧
      BoundExactly literal.val.val
        (makeConstantValueExpression (fun _ => .ok 0) .kTypeInt
          (.node .kNodeNumber (some literal) .nullptr .nullptr)) := by
  refine ⟨⟨⟨minusSeven.text, by decide⟩, by decide⟩, rfl, rfl, ?_⟩
  refine (int_literal_exact_iff (isNumber_iff.mpr ⟨minusSeven, rfl⟩) _ _).mpr ?_
  refine dropsNothing_text.mpr (Or.inl fun ds hds => ?_)
  rw [← Option.some.inj hds]
  simp

/-- `1.5` is bound to 1, which it does not denote. -/
theorem int_literal_truncated :
    ∃ literal : CStr, literal.val.val = oneAndHalf.text ∧
      Lexer.IsNumber literal.val.val ∧ Denotes literal.val.val (3 / 2) ∧
      makeConstantValueExpression (fun _ => .ok 0) .kTypeInt
        (.node .kNodeNumber (some literal) .nullptr .nullptr) = .ok (.int 1) ∧
      ¬BoundExactly literal.val.val
        (makeConstantValueExpression (fun _ => .ok 0) .kTypeInt
          (.node .kNodeNumber (some literal) .nullptr .nullptr)) := by
  have hvalue : oneAndHalf.value = some (3 / 2) := by
    have hwhole : oneAndHalf.wholeValue = 1 := rfl
    have hpart : digitsValue [53] = 5 := rfl
    have hsum : oneAndHalf.value =
        some ((oneAndHalf.wholeValue : ℚ) + digitsValue [53] / 10 ^ 1) := rfl
    rw [hsum, hwhole, hpart]
    norm_num
  refine ⟨⟨⟨oneAndHalf.text, by decide⟩, by decide⟩, rfl, isNumber_iff.mpr ⟨oneAndHalf, rfl⟩,
    denotes_text.mpr hvalue, rfl, fun hbound => ?_⟩
  rcases hbound.exact (.int 1) rfl with ⟨v, hv, hdenoted⟩
  rw [← Field.int.inj hv] at hdenoted
  have hone := denotes_text.mp hdenoted
  rw [hvalue, show Int32.toInt 1 = 1 from rfl] at hone
  norm_num at hone

/-- A literal that meets the condition, where it was accepted. -/
theorem bound_of_dropsNothing {field : Field} (hnumber : Lexer.IsNumber literal.val.val)
    (hdrops : DropsNothing literal.val.val)
    (hok : makeConstantValueExpression stof .kTypeInt
      (.node .kNodeNumber (some literal) child next) = .ok field) :
    ∃ v : Int32, field = .int v ∧ Denotes literal.val.val (v.toInt : ℚ) := by
  rcases isNumber_iff.mp hnumber with ⟨x, hx⟩
  rw [makeConstantValueExpression_number hx] at hok
  rw [← hx, dropsNothing_text] at hdrops
  rw [← hx]
  exact (x.boundExactly_iff.mpr hdrops).exact field hok

end AbstractStatement

/-! ## The statements that bind literals -/

section Statements

open Numeral

variable {n : Nat} {stof : List UInt8 → Result UInt32} {catalog : CatalogManager n}
variable {tableName : Str} {literal : CStr} {child next : SyntaxNode}

/-- The nodes of a list. -/
def SyntaxNode.siblings : SyntaxNode → List SyntaxNode
  | .nullptr => []
  | .node type val child next => .node type val child next :: next.siblings

/-- An insert that is accepted has a value for each column, the literal in its place. -/
theorem InsertStatement.makeValues_bound {root : SyntaxNodeType} (hroot : root ≠ .kNodeNull)
    {columns : List Column} {ast : SyntaxNode} {values : List Expression}
    (hok : makeValues stof root columns ast = .ok values) {i : Nat} {column : Column}
    (hcolumn : columns[i]? = some column) :
    ∃ node field, ast.siblings[i]? = some node ∧ values[i]? = some (.constantValue field) ∧
      makeConstantValueExpression stof column.type node = .ok field := by
  -- One value is made for each column, along the siblings of the tree.
  induction columns generalizing ast values i with
  | nil =>
      cases hcolumn
  | cons first columns ih =>
      cases ast with
      | nullptr =>
          cases hok
      | node type val child next =>
          rw [makeValues, if_neg hroot] at hok
          rcases bind_eq_ok.mp hok with ⟨field, hfield, hok⟩
          rcases bind_eq_ok.mp hok with ⟨values', hvalues, hok⟩
          cases hok
          cases i with
          | zero =>
              obtain rfl := Option.some.inj hcolumn
              exact ⟨_, field, rfl, rfl, hfield⟩
          | succ i =>
              rcases ih hvalues hcolumn with ⟨node, field', hnode, hvalue, hbound⟩
              exact ⟨node, field', hnode, hvalue, hbound⟩

/-- The row of an insert has the numbers that were written. -/
theorem InsertStatement.makeInsertValues_exact {root : SyntaxNodeType} (hroot : root ≠ .kNodeNull)
    {ast : SyntaxNode} {values : List Expression} {info : TableInfo}
    (hinfo : (catalog.getTable tableName).2.1 = some info)
    (hok : makeInsertValues stof catalog tableName root ast = .ok values) {i : Nat}
    {column : Column} (hcolumn : info.getSchema.columns[i]? = some column)
    (htype : column.type = .kTypeInt)
    (hliteral : ast.siblings[i]? = some (.node .kNodeNumber (some literal) child next))
    (hnumber : Lexer.IsNumber literal.val.val) (hdrops : DropsNothing literal.val.val) :
    ∃ v : Int32, values[i]? = some (.constantValue (.int v)) ∧
      Denotes literal.val.val (v.toInt : ℚ) := by
  simp only [makeInsertValues, hinfo, deref, ok_bind] at hok
  rcases makeValues_bound hroot hok hcolumn with ⟨node, field, hnode, hvalue, hbound⟩
  rw [hliteral] at hnode
  rw [← Option.some.inj hnode, htype] at hbound
  rcases bound_of_dropsNothing hnumber hdrops hbound with ⟨v, rfl, hdenotes⟩
  exact ⟨v, hvalue, hdenotes⟩

/-- An assignment of an update has the number that was written. -/
theorem UpdateStatement.makeUpdateValues_exact {type type' : SyntaxNodeType} {val : Option CStr}
    {column : CStr} {child' next' : SyntaxNode} {index : UInt32} {col : Column} {info : TableInfo}
    {updateAttrs updateAttrs' : AList fun _ : UInt32 => Expression}
    (hinfo : (catalog.getTable tableName).2.1 = some info)
    (hindex : info.getSchema.getColumnIndex column.val = some index)
    (hcol : info.getSchema.columns[index.toNat]? = some col) (htype : col.type = .kTypeInt)
    (hok : makeUpdateValues stof catalog tableName updateAttrs
      (.node type val (.node type' (some column) child'
        (.node .kNodeNumber (some literal) child next)) next') = .ok updateAttrs')
    (hnumber : Lexer.IsNumber literal.val.val) (hdrops : DropsNothing literal.val.val) :
    ∃ v : Int32, updateAttrs' = updateAttrs.insert index (.constantValue (.int v)) ∧
      Denotes literal.val.val (v.toInt : ℚ) := by
  have hget := Schema.getColumn_eq_ok.mpr hcol
  rcases bind_eq_ok.mp hok with ⟨⟨index', colType⟩, hfound, hok⟩
  simp only [makeColumnValueExpression, hinfo, deref, ok_bind, hindex, hget, Except.ok.injEq,
    Prod.mk.injEq] at hfound
  rcases hfound with ⟨rfl, rfl⟩
  rcases bind_eq_ok.mp hok with ⟨field, hbound, hok⟩
  cases hok
  rw [htype] at hbound
  rcases bound_of_dropsNothing hnumber hdrops hbound with ⟨v, rfl, hdenotes⟩
  exact ⟨v, rfl, hdenotes⟩

end Statements
end MiniSQL
