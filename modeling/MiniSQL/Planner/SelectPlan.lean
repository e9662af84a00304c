import MiniSQL.Planner.Predicate
import MiniSQL.Parser.Reading

/-!
# SelectPlan — the plan of a select statement

`planner/statement/select_statement.h` and `Planner::PlanSelect`.  The statement keeps the columns
of its `where` clause and whether it has an `or`, and the planner decides between the two scans by
them.
-/

namespace MiniSQL

open Lib BufferPoolManager MiniSQL.Parser

/-- `SelectStatement`, as it is before the syntax tree is read when nothing is given. -/
structure SelectStatement where
  tableName : Str := ⟨[], Nat.two_pow_pos 32⟩
  columnList : List (Str × Expression) := []
  columnInCondition : List UInt32 := []
  hasOr : Bool := false
  where_ : Option Expression := none

namespace SelectStatement

variable {n : Nat} (stof : List UInt8 → Result UInt32) (catalog : CatalogManager n)

/-- The loop of `MakeColumnList` over the columns that are named. -/
def namedColumns (schema : Schema) : SyntaxNode → Result (List (Str × Expression))
  | .nullptr => .ok []
  | .node _ val _ next => do
    let name ← deref val
    match schema.getColumnIndex name.val with
    | none => .error (.assertion "the column does not exist in table")
    | some index => do
      let column ← schema.getColumn index.toNat
      let rest ← namedColumns schema next
      .ok ((name.val, .columnValue 0 index column.type) :: rest)

/-- The entries `MakeColumnList` adds: all columns when none is named. -/
def selectedColumns (schema : Schema) : SyntaxNode → Result (List (Str × Expression))
  | .nullptr => .ok (schema.columns.map fun column =>
      (column.name, .columnValue 0 column.tableInd column.type))
  | ast => namedColumns schema ast

def makeColumnList (ast : SyntaxNode) (statement : SelectStatement) : Result SelectStatement := do
  let info ← deref (catalog.getTable statement.tableName).2.1
  let columns ← selectedColumns info.getSchema ast
  .ok { statement with columnList := statement.columnList ++ columns }

/-- The text of the error for a table that is not there. -/
def noTable (name : CStr) : String :=
  "the table " ++ String.ofList (name.val.val.map fun b => Char.ofNat b.toNat) ++ " is not exist."

def syntaxTree2Statement : SyntaxNode → SelectStatement → Result SelectStatement
  | .nullptr, statement => .ok statement
  | .node type val child next, statement =>
    match type with
    | .kNodeIdentifier => do
      let name ← deref val
      if (catalog.getTable name.val).1 ≠ .success then .error (.assertion (noTable name))
      else syntaxTree2Statement next { statement with tableName := name.val }
    | .kNodeAllColumns => do
      let statement ← syntaxTree2Statement next statement
      makeColumnList catalog child statement
    | .kNodeColumnList => do
      let statement ← syntaxTree2Statement next statement
      makeColumnList catalog child statement
    | .kNodeConditions => do
      -- Only the columns are asked for; the call does not pass `has_or`.
      let predicate ← AbstractStatement.makePredicate stof catalog statement.tableName child
      syntaxTree2Statement next
        { statement with
          where_ := some predicate.expression
          columnInCondition := statement.columnInCondition ++ predicate.columnInCondition }
    | _ => .error (.assertion "the ast_type is not supported in planner yet")

end SelectStatement

/-! ## Plans -/

/-- The plan nodes of a select statement, with the columns of the output schema. -/
inductive ScanPlan
  | seqScan (outSchema : List Column) (tableName : Str) (predicate : Option Expression)
  | indexScan (outSchema : List Column) (tableName : Str) (indexes : List IndexInfo)
      (needFilter : Bool) (predicate : Option Expression)

namespace Planner

def MAX_VARCHAR_SIZE : UInt32 := 128

def outputColumn : Str × Expression → Result Column
  | (name, .columnValue _ colIdx retType) =>
    if retType ≠ .kTypeChar then Column.ofNumber name retType colIdx false false
    else Column.ofChar name retType MAX_VARCHAR_SIZE colIdx false false
  | (_, _) => .error .nullPointer

def makeOutputSchema (exprs : List (Str × Expression)) : Result (List Column) :=
  exprs.mapM outputColumn

variable {n : Nat} (catalog : CatalogManager n) (statement : SelectStatement)

/-- An index over one column that is in the condition. -/
def available (index : IndexInfo) : Bool :=
  match index.keyColumns with
  | [column] => statement.columnInCondition.contains column.tableInd
  | _ => false

def planSelect : Result ScanPlan := do
  let outSchema ← makeOutputSchema statement.columnList
  let indexes := (catalog.getTableIndexes statement.tableName).2
  let availableIndex := indexes.filter (available statement)
  if availableIndex.isEmpty ∨ statement.hasOr then
    .ok (.seqScan outSchema statement.tableName statement.where_)
  else
    .ok (.indexScan outSchema statement.tableName availableIndex
      (availableIndex.length ≠ statement.columnInCondition.length) statement.where_)

end Planner

/-! ## What the statement should say about its condition -/

/-- The first child of a node. -/
def SyntaxNode.child : SyntaxNode → SyntaxNode
  | .nullptr => .nullptr
  | .node _ _ child _ => child

namespace Parser.WhereConditions

/-- The columns of the comparisons, from left to right. -/
def columns : WhereConditions → List CStr
  | one condition => [condition.column]
  | connect conditions _ condition => conditions.columns ++ [condition.column]

/-- Some connector is `or`. -/
def HasOr : WhereConditions → Prop
  | one _ => False
  | connect conditions connector _ => conditions.HasOr ∨ connector = .or

theorem columns_ne_nil (conditions : WhereConditions) : conditions.columns ≠ [] := by
  cases conditions with
  | one condition =>
      exact List.cons_ne_nil _ _
  | connect conditions connector condition =>
      exact List.append_ne_nil_of_right_ne_nil _ (List.cons_ne_nil _ _)

/-- The tree of a condition is one node. -/
theorem tree_branch (conditions : WhereConditions) :
    ∃ type val child, conditions.tree = .node type val child .nullptr := by
  cases conditions with
  | one condition =>
      exact ⟨_, _, _, rfl⟩
  | connect conditions connector condition =>
      exact ⟨_, _, _, rfl⟩

end Parser.WhereConditions

namespace SelectStatement

variable {n : Nat} {stof : List UInt8 → Result UInt32} {catalog : CatalogManager n}
  {statement st : SelectStatement} {info : TableInfo} {columns : SelectColumns} {table : CStr}
  {conditions : WhereConditions}

/-- An index over one column of the table, which has this name. -/
def OnColumn (info : TableInfo) (index : IndexInfo) (name : CStr) : Prop :=
  ∃ column i, index.keyColumns = [column] ∧ info.getSchema.getColumnIndex name.val = some i ∧
    info.getSchema.columns[i.toNat]? = some column

/-- The columns of a table keep their position, and the keys of its indexes are such columns. -/
structure PositionsKept (catalog : CatalogManager n) (table : CStr) (info : TableInfo) : Prop where
  columns : ∀ (i : Nat) (column : Column), info.getSchema.columns[i]? = some column →
    column.tableInd.toNat = i
  keys : ∀ index ∈ (catalog.getTableIndexes table.val).2, ∀ column ∈ index.keyColumns,
    column ∈ info.getSchema.columns

/-- The statement sums its condition up: it lists the columns of all comparisons and knows of an
`or`, so that the planner takes an index scan exactly when there is no `or` and an index over one
column of the condition. -/
structure Faithful (catalog : CatalogManager n) (table : CStr) (info : TableInfo)
    (conditions : WhereConditions) (statement : SelectStatement) : Prop where
  columns : statement.columnInCondition.map some =
    conditions.columns.map fun name => info.getSchema.getColumnIndex name.val
  hasOr : statement.hasOr = true ↔ conditions.HasOr
  plan : PositionsKept catalog table info →
    ((∃ outSchema tableName indexes needFilter predicate, Planner.planSelect catalog statement =
      .ok (.indexScan outSchema tableName indexes needFilter predicate)) ↔
    ¬ conditions.HasOr ∧ ∃ index ∈ (catalog.getTableIndexes table.val).2,
      ∃ name ∈ conditions.columns, OnColumn info index name)

/-! ## What the statement does say -/

/-- The entries of the select list are columns, so that an output schema can be made. -/
def Listed (statement : SelectStatement) : Prop :=
  ∀ entry ∈ statement.columnList, ∃ column, Planner.outputColumn entry = .ok column

theorem outputColumn_of_column (name : Str) (i : UInt32) (column : Column) :
    ∃ out, Planner.outputColumn (name, .columnValue 0 i column.type) = .ok out := by
  rcases column with ⟨_, type, _, _, _, _, hcons⟩
  cases type with
  | kTypeInvalid =>
      exact absurd hcons (by simp)
  | kTypeInt =>
      exact ⟨_, rfl⟩
  | kTypeFloat =>
      exact ⟨_, rfl⟩
  | kTypeChar =>
      exact ⟨_, rfl⟩

theorem namedColumns_listed {schema : Schema} {ast : SyntaxNode} {entries : List (Str × Expression)}
    (h : namedColumns schema ast = .ok entries) :
    ∀ entry ∈ entries, ∃ column, Planner.outputColumn entry = .ok column := by
  induction ast generalizing entries with
  | nullptr =>
      cases h
      exact fun entry hentry => absurd hentry (List.not_mem_nil)
  | node type val child next _ ih =>
      rcases bind_eq_ok.mp h with ⟨name, _, h⟩
      split at h
      · cases h
      · rcases bind_eq_ok.mp h with ⟨column, _, h⟩
        rcases bind_eq_ok.mp h with ⟨rest, hrest, h⟩
        cases h
        intro entry hentry
        rcases List.mem_cons.mp hentry with rfl | hentry
        · exact outputColumn_of_column _ _ column
        · exact ih hrest entry hentry

/-- `MakeColumnList` changes the select list only. -/
theorem makeColumnList_eq {ast : SyntaxNode} (h : makeColumnList catalog ast statement = .ok st)
    (hlisted : Listed statement) :
    Listed st ∧ ∃ columnList, st = { statement with columnList := columnList } := by
  rcases bind_eq_ok.mp h with ⟨info, _, h⟩
  rcases bind_eq_ok.mp h with ⟨entries, hentries, h⟩
  cases h
  refine ⟨fun entry hentry => ?_, _, rfl⟩
  rcases List.mem_append.mp hentry with hentry | hentry
  · exact hlisted entry hentry
  · cases ast with
    | nullptr =>
        cases hentries
        rcases List.mem_map.mp hentry with ⟨column, _, rfl⟩
        exact outputColumn_of_column _ _ column
    | node type val child next =>
        exact namedColumns_listed hentries entry hentry

/-- Reading the tree of a select statement: the condition is read under the name of the table, and
only its columns are kept. -/
theorem syntaxTree2Statement_selectWhere
    (h : syntaxTree2Statement stof catalog
      (Sql.selectWhere columns table conditions).tree.child {} = .ok st) :
    ∃ p, AbstractStatement.makePredicate stof catalog table.val conditions.tree = .ok p ∧
      st.tableName = table.val ∧ st.columnInCondition = p.columnInCondition ∧ st.hasOr = false ∧
      Listed st := by
  -- The column list is read last, whether it is a star or a list.
  have hread : ∃ child statement, syntaxTree2Statement stof catalog
      ((identifierTree table).append (conditionsTree conditions)) {} = .ok statement ∧
        makeColumnList catalog child statement = .ok st := by
    cases columns with
    | all =>
        rcases bind_eq_ok.mp h with ⟨statement, hstatement, h⟩
        exact ⟨_, statement, hstatement, h⟩
    | list columns =>
        rcases bind_eq_ok.mp h with ⟨statement, hstatement, h⟩
        exact ⟨_, statement, hstatement, h⟩
  rcases hread with ⟨child, statement, hstatement, hcolumns⟩
  rcases bind_eq_ok.mp hstatement with ⟨name, hname, hstatement⟩
  cases hname
  split at hstatement
  · cases hstatement
  · rcases bind_eq_ok.mp hstatement with ⟨p, hp, hstatement⟩
    cases hstatement
    have hlisted : Listed
        { tableName := table.val, where_ := some p.expression,
          columnInCondition := [] ++ p.columnInCondition } :=
      fun entry hentry => absurd hentry (List.not_mem_nil)
    rcases makeColumnList_eq hcolumns hlisted with ⟨hst, columnList, rfl⟩
    exact ⟨p, hp, rfl, rfl, rfl, hst⟩

/-- With a connector at the top nothing is told about the columns below it. -/
theorem makePredicate_connect_columns {connector : Connector} {condition : WhereCondition}
    {p : Predicate}
    (h : AbstractStatement.makePredicate stof catalog table.val
      (WhereConditions.connect conditions connector condition).tree = .ok p) :
    p.columnInCondition = [] := by
  rcases conditions.tree_branch with ⟨type, val, child, htree⟩
  rw [WhereConditions.tree, htree] at h
  rcases bind_eq_ok.mp h with ⟨left, _, h⟩
  rcases bind_eq_ok.mp h with ⟨right, _, h⟩
  rcases bind_eq_ok.mp h with ⟨text, _, h⟩
  rcases bind_eq_ok.mp h with ⟨logicType, _, h⟩
  rcases bind_eq_ok.mp h with ⟨expression, _, h⟩
  cases h
  rfl

/-- The decision of the planner for a statement that knows of no `or`. -/
theorem planSelect_indexScan_iff (hlisted : Listed st) (hor : st.hasOr = false) :
    (∃ outSchema tableName indexes needFilter predicate, Planner.planSelect catalog st =
      .ok (.indexScan outSchema tableName indexes needFilter predicate)) ↔
    ∃ index ∈ (catalog.getTableIndexes st.tableName).2, Planner.available st index = true := by
  obtain ⟨outSchema, hschema⟩ := mapM_eq_ok_of_forall hlisted
  have hplan : Planner.planSelect catalog st =
      if (((catalog.getTableIndexes st.tableName).2.filter (Planner.available st)).isEmpty ∨
        st.hasOr) then .ok (.seqScan outSchema st.tableName st.where_)
      else .ok (.indexScan outSchema st.tableName
        ((catalog.getTableIndexes st.tableName).2.filter (Planner.available st))
        (((catalog.getTableIndexes st.tableName).2.filter (Planner.available st)).length ≠
          st.columnInCondition.length) st.where_) := by
    unfold Planner.planSelect Planner.makeOutputSchema
    rw [hschema]
    rfl
  rw [hplan]
  -- An index scan is planned as soon as one index is available.
  by_cases hempty : (catalog.getTableIndexes st.tableName).2.filter (Planner.available st) = []
  · rw [if_pos (Or.inl (List.isEmpty_iff.mpr hempty))]
    constructor
    · rintro ⟨_, _, _, _, _, hscan⟩
      cases hscan
    · rintro ⟨index, hmem, havailable⟩
      have hin := List.mem_filter.mpr ⟨hmem, havailable⟩
      rw [hempty] at hin
      exact absurd hin List.not_mem_nil
  · have hnot : ¬ (((catalog.getTableIndexes st.tableName).2.filter
        (Planner.available st)).isEmpty ∨ st.hasOr) := by
      simp [hempty, hor]
    rw [if_neg hnot]
    refine ⟨fun _ => ?_, fun _ => ⟨_, _, _, _, _, rfl⟩⟩
    obtain ⟨index, hindex⟩ := List.exists_mem_of_ne_nil _ hempty
    exact ⟨index, List.mem_filter.mp hindex⟩

theorem available_iff {index : IndexInfo} :
    Planner.available st index = true ↔
      ∃ column, index.keyColumns = [column] ∧ column.tableInd ∈ st.columnInCondition := by
  unfold Planner.available
  constructor
  · intro h
    split at h
    · rename_i column hcolumn
      exact ⟨column, hcolumn, List.contains_iff_mem.mp h⟩
    · cases h
  · rintro ⟨column, hcolumn, hmem⟩
    rw [hcolumn]
    exact List.contains_iff_mem.mpr hmem

/-- A comparison alone is summed up: its column is listed, and there is no `or`. -/
theorem faithful_of_one {condition : WhereCondition}
    (hinfo : (catalog.getTable table.val).2.1 = some info)
    (h : syntaxTree2Statement stof catalog
      (Sql.selectWhere columns table (.one condition)).tree.child {} = .ok st) :
    Faithful catalog table info (.one condition) st := by
  rcases syntaxTree2Statement_selectWhere h with ⟨p, hp, htable, hcolumns, hor, hlisted⟩
  rcases Condition.makePredicate_leaf hinfo hp with
    ⟨i, column, literal, hi, hcolumn, _, _, hcondition⟩
  rw [hcondition] at hcolumns
  refine ⟨?_, ?_, fun hkept => ?_⟩
  · rw [hcolumns]
    exact congrArg (fun x => [x]) hi.symm
  · rw [hor]
    exact iff_of_false Bool.false_ne_true id
  · rw [planSelect_indexScan_iff hlisted hor, htable]
    -- The statement lists the only column, by its position in the table.
    constructor
    · rintro ⟨index, hindex, havailable⟩
      rcases available_iff.mp havailable with ⟨key, hkey, hmem⟩
      rw [hcolumns, List.mem_singleton] at hmem
      have hin := hkept.keys index hindex key (by rw [hkey]; exact List.mem_singleton_self _)
      obtain ⟨k, hk⟩ := List.mem_iff_getElem?.mp hin
      have hpos := hkept.columns k key hk
      rw [hmem] at hpos
      exact ⟨id, index, hindex, condition.column, List.mem_singleton_self _, key, i, hkey, hi,
        by rw [hpos, hk]⟩
    · rintro ⟨_, index, hindex, name, hname, key, k, hkey, hk, hget⟩
      rw [List.mem_singleton.mp hname, hi] at hk
      cases hk
      refine ⟨index, hindex, available_iff.mpr ⟨key, hkey, ?_⟩⟩
      rw [hcolumns, List.mem_singleton]
      exact UInt32.toNat_inj.mp (hkept.columns _ key hget)

/-- The summary is right exactly when the condition is one comparison. -/
theorem select_summary_faithful_iff (hinfo : (catalog.getTable table.val).2.1 = some info)
    (h : syntaxTree2Statement stof catalog
      (Sql.selectWhere columns table conditions).tree.child {} = .ok st) :
    Faithful catalog table info conditions st ↔
      ∃ condition, conditions = WhereConditions.one condition := by
  constructor
  · intro hfaithful
    cases conditions with
    | one condition =>
        exact ⟨condition, rfl⟩
    | connect conditions connector condition =>
        rcases syntaxTree2Statement_selectWhere h with ⟨p, hp, _, hcolumns, _⟩
        have hnone := hfaithful.columns
        rw [hcolumns, makePredicate_connect_columns hp, List.map_nil, eq_comm,
          List.map_eq_nil_iff] at hnone
        exact absurd hnone (WhereConditions.columns_ne_nil _)
  · rintro ⟨condition, rfl⟩
    exact faithful_of_one hinfo h

/-- The table `t` with an index over its column `k`. -/
def indexedCatalog : CatalogManager 1 :=
  { Condition.oneTableCatalog with
    indexes := AList.singleton 0
      { metaData := ⟨0, Condition.oneTable.getTableName, 0, [0], by decide⟩
        tableInfo := Condition.oneTable
        keyColumns := KeyManager.intKey.keySchema.columns
        index := some 16 } }

/-- The statement is right about `k = 5`. -/
theorem select_summary_faithful_iff_comparison :
    ∃ st, syntaxTree2Statement (fun _ => .ok 0) indexedCatalog
        (Sql.selectWhere .all (literal "t")
          (.one ⟨literal "k", .eq, .number (literal "5")⟩)).tree.child {} = .ok st ∧
      Faithful indexedCatalog (literal "t") Condition.oneTable
        (.one ⟨literal "k", .eq, .number (literal "5")⟩) st := by
  have hinfo : (indexedCatalog.getTable (literal "t").val).2.1 = some Condition.oneTable := rfl
  have hread : ∃ st, syntaxTree2Statement (fun _ => .ok 0) indexedCatalog
      (Sql.selectWhere .all (literal "t")
        (.one ⟨literal "k", .eq, .number (literal "5")⟩)).tree.child {} = .ok st := ⟨_, rfl⟩
  rcases hread with ⟨st, hread⟩
  exact ⟨st, hread, (select_summary_faithful_iff hinfo hread).mpr ⟨_, rfl⟩⟩

/-- `k > 1 and k < 5`. -/
def between : WhereConditions :=
  .connect (.one ⟨literal "k", .gt, .number (literal "1")⟩) .and
    ⟨literal "k", .lt, .number (literal "5")⟩

/-- The statement lists no column for `k > 1 and k < 5`, and the index over `k` is not used. -/
theorem select_summary_loses_columns :
    ∃ st, syntaxTree2Statement (fun _ => .ok 0) indexedCatalog
        (Sql.selectWhere .all (literal "t") between).tree.child {} = .ok st ∧
      ¬ Faithful indexedCatalog (literal "t") Condition.oneTable between st ∧
      ∃ outSchema tableName predicate, Planner.planSelect indexedCatalog st =
        .ok (.seqScan outSchema tableName predicate) := by
  refine ⟨_, rfl, fun hfaithful => ?_, _, _, _, rfl⟩
  have hlength := congrArg List.length hfaithful.columns
  cases hlength

end SelectStatement
end MiniSQL
