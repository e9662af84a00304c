import MiniSQL.Catalog.CatalogManager
import MiniSQL.Index.KeyOrder
import MiniSQL.Parser.SyntaxTree

/-!
# Predicate — conditions of a query and their evaluation

`MakePredicate` of `planner/statement/abstract_statement.h` and the expressions it builds
(`planner/expressions/*.h`).  Truth is kept as a `CmpBool` in an `int` field, with 2 for unknown;
a connector recovers it by comparing the field with 1, so what is unknown below counts as false.
-/

namespace MiniSQL

open Lib BufferPoolManager

/-! ## Expressions -/

inductive LogicType
  | and
  | or
  deriving DecidableEq, Repr

/-- `AbstractExpression` with its four subclasses. -/
inductive Expression
  | logic (left right : Expression) (logicType : LogicType)
  | comparison (left right : Expression) (compType : CStr)
  | columnValue (rowIdx colIdx : UInt32) (retType : TypeId)
  | constantValue (val : Field)

/-- The value of the enumerator. -/
def CmpBool.code : CmpBool → Int32
  | .kFalse => 0
  | .kTrue => 1
  | .kNull => 2

namespace Expression

def getReturnType : Expression → TypeId
  | logic _ _ _ => .kTypeInt
  | comparison _ _ _ => .kTypeInt
  | columnValue _ _ retType => retType
  | constantValue val => val.getTypeId

/-- `GetFieldAsCmpBool`: the result of the comparison with 1 is used as a `bool`. -/
def getFieldAsCmpBool (val : Field) : Result CmpBool :=
  if val.isNull then .ok .kNull
  else do
    let equal ← val.compareEquals (.int 1)
    .ok (if equal ≠ .kFalse then .kTrue else .kFalse)

/-- `LogicExpression::PerformComputation`. -/
def performComputation (logicType : LogicType) (lhs rhs : Field) : Result CmpBool := do
  let l ← getFieldAsCmpBool lhs
  let r ← getFieldAsCmpBool rhs
  match logicType with
  | .and =>
    if l = .kFalse ∨ r = .kFalse then .ok .kFalse
    else if l = .kTrue ∧ r = .kTrue then .ok .kTrue
    else .ok .kNull
  | .or =>
    if l = .kFalse ∧ r = .kFalse then .ok .kFalse
    else if l = .kTrue ∨ r = .kTrue then .ok .kTrue
    else .ok .kNull

/-- `ComparisonExpression::PerformComparison`. -/
def performComparison (compType : CStr) (lhs rhs : Field) : Result CmpBool :=
  if compType.val.val = ascii "=" then lhs.compareEquals rhs
  else if compType.val.val = ascii "<>" then lhs.compareNotEquals rhs
  else if compType.val.val = ascii "<" then lhs.compareLessThan rhs
  else if compType.val.val = ascii "<=" then lhs.compareLessThanEquals rhs
  else if compType.val.val = ascii ">" then lhs.compareGreaterThan rhs
  else if compType.val.val = ascii ">=" then lhs.compareGreaterThanEquals rhs
  else if compType.val.val = ascii "is" then .ok (getCmpBool lhs.isNull)
  else if compType.val.val = ascii "not" then .ok (getCmpBool !lhs.isNull)
  else .error (.assertion "Unsupported comparison type")

def evaluate (row : Row) : Expression → Result Field
  | logic left right logicType => do
    let lhs ← left.evaluate row
    let rhs ← right.evaluate row
    let truth ← performComputation logicType lhs rhs
    .ok (.int truth.code)
  | comparison left right compType => do
    let lhs ← left.evaluate row
    let rhs ← right.evaluate row
    let truth ← performComparison compType lhs rhs
    .ok (.int truth.code)
  | columnValue _ colIdx _ => row.getField colIdx.toNat
  | constantValue val => .ok val

end Expression

/-! ## From syntax to expressions -/

/-- `isspace`. -/
def isSpace (b : UInt8) : Bool :=
  b = 32 || (9 ≤ b && b ≤ 13)

def isDigit (b : UInt8) : Bool :=
  48 ≤ b && b ≤ 57

/-- `std::stoi`: blanks, a sign, and the digits up to the first byte that is none. -/
def stoi (text : List UInt8) : Result Int32 :=
  let rest := text.dropWhile isSpace
  let (negative, rest) :=
    match rest with
    | 45 :: rest => (true, rest)
    | 43 :: rest => (false, rest)
    | rest => (false, rest)
  let digits := rest.takeWhile isDigit
  if digits = [] then .error (.assertion "stoi")
  else
    let magnitude : Int := digits.foldl (fun n b => 10 * n + (b.toNat - 48)) 0
    let value := if negative then -magnitude else magnitude
    if -2 ^ 31 ≤ value ∧ value < 2 ^ 31 then .ok (Int32.ofInt value) else .error .outOfRange

/-- What `MakePredicate` returns, with what a call from outside finds in its two output
parameters. -/
structure Predicate where
  expression : Expression
  columnInCondition : List UInt32
  hasOr : Bool

namespace AbstractStatement

variable {n : Nat} (stof : List UInt8 → Result UInt32) (catalog : CatalogManager n)
variable (tableName : Str)

def makeColumnValueExpression : SyntaxNode → Result (UInt32 × TypeId)
  | .nullptr => .error .nullPointer
  | .node _ val _ _ => do
    let info ← deref (catalog.getTable tableName).2.1
    let name ← deref val
    match info.getSchema.getColumnIndex name.val with
    | none => .error (.assertion "the column does not exist in table")
    | some index => do
      let column ← info.getSchema.getColumn index.toNat
      .ok (index, column.type)

/-- `MakeConstantValueExpression`; `stof` stands for `std::stof`, with the bits of the value. -/
def makeConstantValueExpression (colType : TypeId) : SyntaxNode → Result Field
  | .nullptr => .error .nullPointer
  | .node type val _ _ =>
    if type = .kNodeNull then .ok (.null colType)
    else
      match colType with
      | .kTypeInt =>
        if type ≠ .kNodeNumber then
          .error (.assertion "The value of the predicate does not match the type of column")
        else do
          let text ← deref val
          let value ← stoi text.val.val
          .ok (.int value)
      | .kTypeFloat =>
        if type ≠ .kNodeNumber then
          .error (.assertion "The value of the predicate does not match the type of column")
        else do
          let text ← deref val
          let bits ← stof text.val.val
          .ok (.float bits)
      | .kTypeChar =>
        if type ≠ .kNodeString then
          .error (.assertion "The value of the predicate does not match the type of column")
        else do
          let text ← deref val
          assert (text.val.val.length < VARCHAR_MAX_LEN) "Field length exceeds max varchar length"
          .ok (.char text.val.val)
      | .kTypeInvalid => .error (.assertion "The type of the column is kTypeInvalid")

/-- `LogicExpression::Char2Type`. -/
def char2Type (val : CStr) : Result LogicType :=
  if val.val.val = ascii "and" then .ok .and
  else if val.val.val = ascii "or" then .ok .or
  else .error (.assertion "Unsupported logic type.")

/-- `MakeLogicExpression`, with the check of the constructor. -/
def makeLogicExpression (left right : Expression) (logicType : LogicType) : Result Expression :=
  if left.getReturnType ≠ .kTypeInt ∨ right.getReturnType ≠ .kTypeInt then
    .error (.assertion "expect boolean from either side")
  else .ok (.logic left right logicType)

def makePredicate : SyntaxNode → Result Predicate
  | .nullptr => .error .nullPointer
  | .node .kNodeConnector val child _ =>
    match child with
    | .nullptr => .error .nullPointer
    | .node type val' child' next => do
      -- The calls for the children do not pass the output parameters on.
      let left ← makePredicate (.node type val' child' next)
      let right ← makePredicate next
      let text ← deref val
      let logicType ← char2Type text
      let expression ← makeLogicExpression left.expression right.expression logicType
      .ok ⟨expression, [], logicType = .or⟩
  | .node .kNodeCompareOperator val child _ =>
    match child with
    | .nullptr => .error .nullPointer
    | .node type val' child' value => do
      let (index, colType) ←
        makeColumnValueExpression catalog tableName (.node type val' child' value)
      let literal ← makeConstantValueExpression stof colType value
      let compType ← deref val
      .ok ⟨.comparison (.columnValue 0 index colType) (.constantValue literal) compType, [index],
        false⟩
  | .node _ _ _ _ =>
    .error (.assertion "The node kNodeConditions has a child node of the wrong type")

end AbstractStatement

/-! ## Conditions and their truth -/

/-- A literal of a condition. -/
inductive Literal
  | number (text : CStr)
  | string (text : CStr)
  | null

/-- The conditions of a query: connectors over comparisons. -/
inductive Condition
  | connect (logicType : LogicType) (left right : Condition)
  | compare (column : CStr) (op : CompareOp) (literal : Literal)
  | isNull (column : CStr)
  | notNull (column : CStr)

def LogicType.text : LogicType → CStr
  | .and => ⟨⟨ascii "and", by decide⟩, by decide⟩
  | .or => ⟨⟨ascii "or", by decide⟩, by decide⟩

def CompareOp.cstr : CompareOp → CStr
  | .eq => ⟨⟨ascii "=", by decide⟩, by decide⟩
  | .ne => ⟨⟨ascii "<>", by decide⟩, by decide⟩
  | .lt => ⟨⟨ascii "<", by decide⟩, by decide⟩
  | .le => ⟨⟨ascii "<=", by decide⟩, by decide⟩
  | .gt => ⟨⟨ascii ">", by decide⟩, by decide⟩
  | .ge => ⟨⟨ascii ">=", by decide⟩, by decide⟩

/-- The node the parser makes for a literal. -/
def Literal.node : Literal → SyntaxNode
  | number text => .node .kNodeNumber (some text) .nullptr .nullptr
  | string text => .node .kNodeString (some text) .nullptr .nullptr
  | null => .node .kNodeNull none .nullptr .nullptr

namespace Condition

/-- The tree of a comparison: the operator over the column and the value. -/
def leaf (text : CStr) (column : CStr) (value next : SyntaxNode) : SyntaxNode :=
  .node .kNodeCompareOperator (some text) (.node .kNodeIdentifier (some column) .nullptr value) next

/-- The tree the parser makes for a condition, with its next sibling. -/
def tree : Condition → SyntaxNode → SyntaxNode
  | connect logicType left right, next =>
    .node .kNodeConnector (some logicType.text) (left.tree (right.tree .nullptr)) next
  | compare column op literal, next => leaf op.cstr column literal.node next
  | isNull column, next =>
    leaf ⟨⟨ascii "is", by decide⟩, by decide⟩ column Literal.null.node next
  | notNull column, next =>
    leaf ⟨⟨ascii "not", by decide⟩, by decide⟩ column Literal.null.node next

/-- The columns a condition names. -/
def columns : Condition → List CStr
  | connect _ left right => left.columns ++ right.columns
  | compare column _ _ => [column]
  | isNull column => [column]
  | notNull column => [column]

/-- Conjunction of Kleene. -/
def kleeneAnd : Option Bool → Option Bool → Option Bool
  | some false, _ => some false
  | _, some false => some false
  | some true, some true => some true
  | _, _ => none

/-- Disjunction of Kleene. -/
def kleeneOr : Option Bool → Option Bool → Option Bool
  | some true, _ => some true
  | _, some true => some true
  | some false, some false => some false
  | _, _ => none

variable (stof : List UInt8 → Result UInt32) (schema : Schema) (row : Row)

/-- The first column of that name, with its field in the row. -/
def columnField (name : CStr) : Option (Column × Field) := do
  let index ← schema.getColumnIndex name.val
  let column ← schema.columns[index.toNat]?
  let field ← row.fields[index.toNat]?
  some (column, field)

/-- The truth of a comparison: unknown with a null on either side, else the relation between the
values, numbers by value and strings byte by byte. -/
def compareTruth (op : CompareOp) (left right : Field) : Option Bool :=
  if left.isNull || right.isNull then none else some (op.Relates left.key right.key)

/-- The Kleene truth value of a condition on a row; `none` is unknown.  A literal has the value
that `MakeConstantValueExpression` binds. -/
def truth : Condition → Option Bool
  | connect .and left right => kleeneAnd left.truth right.truth
  | connect .or left right => kleeneOr left.truth right.truth
  | compare name op literal => do
    let (column, field) ← columnField schema row name
    match AbstractStatement.makeConstantValueExpression stof column.type literal.node with
    | .ok value => compareTruth op field value
    | .error _ => none
  | isNull name => do
    let (_, field) ← columnField schema row name
    some field.isNull
  | notNull name => do
    let (_, field) ← columnField schema row name
    some !field.isNull

end Condition

/-! ## Evaluation -/

namespace Expression

/-- What a connector recovers from a truth value kept in a field. -/
theorem getFieldAsCmpBool_code (b : CmpBool) :
    getFieldAsCmpBool (.int b.code) = .ok (if b = .kTrue then .kTrue else .kFalse) := by
  cases b <;> rfl

theorem performComparison_op (op : CompareOp) (lhs rhs : Field) :
    performComparison op.cstr lhs rhs = Field.compareBy op lhs rhs := by
  cases op <;> rfl

theorem code_eq_one {b : CmpBool} : b.code = 1 ↔ b = .kTrue := by
  cases b <;> decide

end Expression

namespace Condition

open AbstractStatement Expression

variable {n : Nat} {stof : List UInt8 → Result UInt32} {catalog : CatalogManager n}
variable {tableName : Str} {info : TableInfo} {row : Row} {p : Predicate}

theorem compareTruth_eq {left right : Field} {type : TypeId} (hkeyed : Field.Keyed type)
    (hl : left.getTypeId = type) (hr : right.getTypeId = type) (op : CompareOp) :
    ∃ b : CmpBool, Field.compareBy op left right = .ok b ∧
      (b = .kTrue ↔ compareTruth op left right = some true) := by
  refine ⟨_, Field.compareBy_eq hkeyed hl hr op, ?_⟩
  unfold compareTruth
  by_cases hnull : (left.isNull || right.isNull) = true
  · simp [hnull]
  · by_cases hrel : op.Relates left.key right.key
    · simp [hnull, hrel, getCmpBool]
    · simp [hnull, hrel, getCmpBool]

/-- A literal is bound with the type of its column. -/
theorem makeConstantValueExpression_type {type : TypeId} {value : SyntaxNode} {literal : Field}
    (h : makeConstantValueExpression stof type value = .ok literal) : literal.getTypeId = type := by
  cases value with
  | nullptr =>
      cases h
  | node nodeType val child next =>
      simp only [makeConstantValueExpression] at h
      split at h
      · cases h
        rfl
      · -- A literal that is not null is read at the type of its column.
        cases type with
        | kTypeInvalid =>
            cases h
        | kTypeInt =>
            simp only at h
            split at h
            · cases h
            · rcases bind_eq_ok.mp h with ⟨text, _, h⟩
              rcases bind_eq_ok.mp h with ⟨x, _, h⟩
              cases h
              rfl
        | kTypeFloat =>
            simp only at h
            split at h
            · cases h
            · rcases bind_eq_ok.mp h with ⟨text, _, h⟩
              rcases bind_eq_ok.mp h with ⟨x, _, h⟩
              cases h
              rfl
        | kTypeChar =>
            simp only at h
            split at h
            · cases h
            · rcases bind_eq_ok.mp h with ⟨text, _, h⟩
              rcases bind_eq_ok.mp h with ⟨_, _, h⟩
              cases h
              rfl

/-- A comparison that is accepted: its column exists and its literal is bound. -/
theorem makePredicate_leaf {text column : CStr} {value next : SyntaxNode}
    (hinfo : (catalog.getTable tableName).2.1 = some info)
    (h : makePredicate stof catalog tableName (leaf text column value next) = .ok p) :
    ∃ index col literal, info.getSchema.getColumnIndex column.val = some index ∧
      info.getSchema.columns[index.toNat]? = some col ∧
      makeConstantValueExpression stof col.type value = .ok literal ∧
      p.expression =
        .comparison (.columnValue 0 index col.type) (.constantValue literal) text ∧
      p.columnInCondition = [index] := by
  rcases bind_eq_ok.mp h with ⟨⟨index, colType⟩, hcolumn, h⟩
  rcases bind_eq_ok.mp h with ⟨literal, hliteral, h⟩
  cases h
  unfold makeColumnValueExpression at hcolumn
  rw [hinfo] at hcolumn
  simp only [deref, ok_bind] at hcolumn
  split at hcolumn
  · cases hcolumn
  · rename_i index' hindex
    rcases bind_eq_ok.mp hcolumn with ⟨col, hcol, hcolumn⟩
    cases hcolumn
    exact ⟨index, col, literal, hindex, Schema.getColumn_eq_ok.mp hcol, hliteral, rfl, rfl⟩

/-- The field of the column in a row of the schema. -/
theorem columnField_eq {column : CStr} {index : UInt32} {col : Column} {schema : Schema}
    (hrow : row.HasSchema schema) (hindex : schema.getColumnIndex column.val = some index)
    (hcol : schema.columns[index.toNat]? = some col) :
    ∃ field, columnField schema row column = some (col, field) ∧
      row.getField index.toNat = .ok field ∧ field.getTypeId = col.type := by
  have hlt : index.toNat < schema.columns.length := (List.getElem?_eq_some_iff.mp hcol).1
  have hlt' : index.toNat < row.fields.length := hrow.length_eq ▸ hlt
  have hfield : row.fields[index.toNat]? = some row.fields[index.toNat] :=
    List.getElem?_eq_getElem hlt'
  rcases hrow.field hfield with ⟨col', hcol', htype⟩
  have hsame : col' = col := by
    rw [Schema.getColumn_eq_ok.mpr hcol] at hcol'
    exact (Except.ok.inj hcol').symm
  refine ⟨row.fields[index.toNat], ?_, ?_, hsame ▸ htype.1⟩
  · simp only [columnField, hindex, hcol, hfield, Option.bind_eq_bind, Option.bind_some]
  · simp only [Row.getField, hfield]

/-- A tree starts with a node that keeps its sibling. -/
theorem tree_node (cond : Condition) (next : SyntaxNode) :
    ∃ type val child, cond.tree next = .node type val child next := by
  cases cond <;> exact ⟨_, _, _, rfl⟩

theorem makePredicate_connect {logicType : LogicType} {left right : Condition} {next : SyntaxNode}
    (h : makePredicate stof catalog tableName ((connect logicType left right).tree next) = .ok p) :
    ∃ l r, makePredicate stof catalog tableName (left.tree (right.tree .nullptr)) = .ok l ∧
      makePredicate stof catalog tableName (right.tree .nullptr) = .ok r ∧
      p.expression = .logic l.expression r.expression logicType := by
  rcases tree_node left (right.tree .nullptr) with ⟨type, val, child, htree⟩
  rw [tree, htree] at h
  rcases bind_eq_ok.mp h with ⟨l, hl, h⟩
  rcases bind_eq_ok.mp h with ⟨r, hr, h⟩
  rcases bind_eq_ok.mp h with ⟨text, htext, h⟩
  rcases bind_eq_ok.mp h with ⟨logicType', hlogic, h⟩
  rcases bind_eq_ok.mp h with ⟨expression, hexpr, h⟩
  cases h
  cases htext
  have htype : logicType' = logicType := by
    cases logicType <;> exact (Except.ok.inj hlogic).symm
  unfold makeLogicExpression at hexpr
  split at hexpr
  · cases hexpr
  · cases hexpr
    exact ⟨l, r, htree ▸ hl, hr, by rw [htype]⟩

/-- The connectors of Kleene are true exactly when the connectors of two values are, with unknown
counted as false. -/
theorem performComputation_eq (logicType : LogicType) (bl br : CmpBool) :
    ∃ b : CmpBool, performComputation logicType (.int bl.code) (.int br.code) = .ok b ∧
      (b = .kTrue ↔ match logicType with
        | .and => bl = .kTrue ∧ br = .kTrue
        | .or => bl = .kTrue ∨ br = .kTrue) := by
  simp only [performComputation, getFieldAsCmpBool_code, ok_bind]
  cases logicType <;> cases bl <;> cases br <;> simp

theorem kleeneAnd_true {x y : Option Bool} :
    kleeneAnd x y = some true ↔ x = some true ∧ y = some true := by
  rcases x with _ | _ | _ <;> rcases y with _ | _ | _ <;> simp [kleeneAnd]

theorem kleeneOr_true {x y : Option Bool} :
    kleeneOr x y = some true ↔ x = some true ∨ y = some true := by
  rcases x with _ | _ | _ <;> rcases y with _ | _ | _ <;> simp [kleeneOr]

/-- The columns the condition names are of type `int` or `char`. -/
def OnKeyedColumns (schema : Schema) (cond : Condition) : Prop :=
  ∀ name ∈ cond.columns, ∀ index col, schema.getColumnIndex name.val = some index →
    schema.columns[index.toNat]? = some col → Field.Keyed col.type

/-- Every expression that is accepted evaluates to a truth value, which is true exactly when the
condition is. -/
theorem evaluate_tree (hinfo : (catalog.getTable tableName).2.1 = some info)
    (hrow : row.HasSchema info.getSchema) {cond : Condition} {next : SyntaxNode}
    (hcols : cond.OnKeyedColumns info.getSchema)
    (h : makePredicate stof catalog tableName (cond.tree next) = .ok p) :
    ∃ b : CmpBool, p.expression.evaluate row = .ok (.int b.code) ∧
      (b = .kTrue ↔ cond.truth stof info.getSchema row = some true) := by
  induction cond generalizing next p with
  | connect logicType left right ihl ihr =>
      rcases makePredicate_connect h with ⟨l, r, hl, hr, hexpr⟩
      have hleft : left.OnKeyedColumns info.getSchema :=
        fun name hname => hcols name (List.mem_append_left _ hname)
      have hright : right.OnKeyedColumns info.getSchema :=
        fun name hname => hcols name (List.mem_append_right _ hname)
      rcases ihl hleft hl with ⟨bl, hbl, hltrue⟩
      rcases ihr hright hr with ⟨br, hbr, hrtrue⟩
      rcases performComputation_eq logicType bl br with ⟨b, hb, hbtrue⟩
      refine ⟨b, ?_, hbtrue.trans ?_⟩
      · simp only [hexpr, evaluate, hbl, hbr, ok_bind, hb]
      · -- A null operand counts as false; the three-valued connectors agree on truth.
        cases logicType with
        | and => rw [truth, kleeneAnd_true, hltrue, hrtrue]
        | or => rw [truth, kleeneOr_true, hltrue, hrtrue]
  | compare column op literal =>
      rcases makePredicate_leaf hinfo h with ⟨index, col, value, hindex, hcol, hvalue, hexpr, _⟩
      rcases columnField_eq hrow hindex hcol with ⟨field, hfield, hget, htype⟩
      -- The literal was bound at the type of the column, so the comparison is typed.
      have hkeyed := hcols column (List.mem_singleton_self _) index col hindex hcol
      rcases compareTruth_eq hkeyed htype (makeConstantValueExpression_type hvalue) op with
        ⟨b, hb, hbtrue⟩
      refine ⟨b, ?_, hbtrue.trans ?_⟩
      · simp only [hexpr, evaluate, hget, ok_bind, performComparison_op, hb]
      · simp only [truth, hfield, Option.bind_eq_bind, Option.bind_some, hvalue]
  | isNull column =>
      rcases makePredicate_leaf hinfo h with ⟨index, col, value, hindex, hcol, hvalue, hexpr, _⟩
      rcases columnField_eq hrow hindex hcol with ⟨field, hfield, hget, htype⟩
      refine ⟨getCmpBool field.isNull, ?_, ?_⟩
      · simp only [hexpr, evaluate, hget, ok_bind]
        rfl
      · simp only [truth, hfield, Option.bind_eq_bind, Option.bind_some]
        cases field.isNull <;> simp [getCmpBool]
  | notNull column =>
      rcases makePredicate_leaf hinfo h with ⟨index, col, value, hindex, hcol, hvalue, hexpr, _⟩
      rcases columnField_eq hrow hindex hcol with ⟨field, hfield, hget, htype⟩
      refine ⟨getCmpBool !field.isNull, ?_, ?_⟩
      · simp only [hexpr, evaluate, hget, ok_bind]
        rfl
      · simp only [truth, hfield, Option.bind_eq_bind, Option.bind_some]
        cases field.isNull <;> simp [getCmpBool]

/-- The expression of a condition over `int` and `char` columns evaluates on every row of the
schema, to 1 exactly when the condition is true. -/
theorem predicate_selects_iff (hinfo : (catalog.getTable tableName).2.1 = some info)
    {cond : Condition} (hcols : cond.OnKeyedColumns info.getSchema)
    (hok : makePredicate stof catalog tableName (cond.tree .nullptr) = .ok p)
    (hrow : row.HasSchema info.getSchema) :
    ∃ x, p.expression.evaluate row = .ok (.int x) ∧
      (x = 1 ↔ cond.truth stof info.getSchema row = some true) := by
  rcases evaluate_tree hinfo hrow hcols hok with ⟨b, hb, htrue⟩
  exact ⟨b.code, hb, code_eq_one.trans htrue⟩

/-- A table `t` of one nullable `int` column `k`. -/
def oneTable : TableInfo :=
  { tableMeta := ⟨0, ⟨[116], by decide⟩, 0, KeyManager.intKey.keySchema⟩
    tableHeap := ⟨0, KeyManager.intKey.keySchema⟩ }

def oneTableCatalog : CatalogManager 1 :=
  { CatalogManager.init (BufferPoolManager.init 1 DiskManager.fresh) with
    tableNames := AList.singleton oneTable.getTableName 0
    tables := AList.singleton 0 (some oneTable) }

/-- `k = 5 or k is null`. -/
def fiveOrNull : Condition :=
  let k : CStr := ⟨⟨[107], by decide⟩, by decide⟩
  .connect .or (.compare k .eq (.number ⟨⟨[53], by decide⟩, by decide⟩)) (.isNull k)

/-- On a null the comparison is unknown, and the condition is true all the same. -/
theorem predicate_selects_iff_null :
    ∃ p, makePredicate (fun _ => .ok 0) oneTableCatalog oneTable.getTableName
        (fiveOrNull.tree .nullptr) = .ok p ∧
      ∃ x, p.expression.evaluate ⟨INVALID_ROWID, [.null .kTypeInt]⟩ = .ok (.int x) ∧
        (x = 1 ↔ fiveOrNull.truth (fun _ => .ok 0) oneTable.getSchema
          ⟨INVALID_ROWID, [.null .kTypeInt]⟩ = some true) ∧
        fiveOrNull.truth (fun _ => .ok 0) oneTable.getSchema
          ⟨INVALID_ROWID, [.null .kTypeInt]⟩ = some true := by
  have hinfo : (oneTableCatalog.getTable oneTable.getTableName).2.1 = some oneTable := rfl
  have hok : ∃ p, makePredicate (fun _ => .ok 0) oneTableCatalog oneTable.getTableName
      (fiveOrNull.tree .nullptr) = .ok p := ⟨_, rfl⟩
  have hcols : fiveOrNull.OnKeyedColumns oneTable.getSchema := by
    intro name _ index col _ hcol
    have hmem : col ∈ KeyManager.intKey.keySchema.columns := List.mem_of_getElem? hcol
    exact KeyManager.intKey_keyed col hmem
  have hrow : Row.HasSchema ⟨INVALID_ROWID, [.null .kTypeInt]⟩ oneTable.getSchema := by
    refine List.Forall₂.cons ⟨rfl, ?_⟩ List.Forall₂.nil
    intro data hdata
    cases hdata
  rcases hok with ⟨p, hok⟩
  rcases predicate_selects_iff hinfo hcols hok hrow with ⟨x, hx, hiff⟩
  exact ⟨p, hok, x, hx, hiff, rfl⟩

end Condition
end MiniSQL
