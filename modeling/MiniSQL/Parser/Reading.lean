import MiniSQL.Parser.Grammar

/-!
# Reading — the syntax tree of a statement gives the statement back

The actions of every production build the tree `tree` on nodes of their own, and the statement can
be read off that tree.
-/

namespace MiniSQL
namespace Parser

/-! ## The trees of the productions -/

/-- A node with children and no sibling. -/
def branch (type : SyntaxNodeType) (val : Option CStr) (children : SyntaxNode) : SyntaxNode :=
  .node type val children .nullptr

def identifierTree (text : CStr) : SyntaxNode :=
  branch .kNodeIdentifier (some text) .nullptr

def stringTree (text : QuotedText) : SyntaxNode :=
  branch .kNodeString (some (unquote text.val)) .nullptr

def numberTree (text : CStr) : SyntaxNode :=
  branch .kNodeNumber (some text) .nullptr

def CommaList.tree {α : Type} (itemTree : α → SyntaxNode) : CommaList α → SyntaxNode
  | one item => itemTree item
  | cons item rest => (itemTree item).append (rest.tree itemTree)

def ColumnType.tree : ColumnType → SyntaxNode
  | int => branch .kNodeColumnType (some (literal "int")) .nullptr
  | float => branch .kNodeColumnType (some (literal "float")) .nullptr
  | char length => branch .kNodeColumnType (some (literal "char")) (numberTree length)

def ColumnDefinition.tree : ColumnDefinition → SyntaxNode
  | unique name type =>
    branch .kNodeColumnDefinition (some (literal "unique")) ((identifierTree name).append type.tree)
  | plain name type => branch .kNodeColumnDefinition none ((identifierTree name).append type.tree)

def ColumnDefinitionList.tree : ColumnDefinitionList → SyntaxNode
  | cons definition rest => definition.tree.append rest.tree
  | one definition => definition.tree
  | primaryKey columns =>
    branch .kNodeColumnList (some (literal "primary keys")) (columns.tree identifierTree)

def ColumnValue.tree : ColumnValue → SyntaxNode
  | string text => stringTree text
  | number text => numberTree text
  | flagNull => branch .kNodeNull none .nullptr

def WhereCondition.tree (condition : WhereCondition) : SyntaxNode :=
  branch .kNodeCompareOperator (some condition.operator.text)
    ((identifierTree condition.column).append condition.value.tree)

def WhereConditions.tree : WhereConditions → SyntaxNode
  | one condition => condition.tree
  | connect conditions connector condition =>
    branch .kNodeConnector (some connector.text) (conditions.tree.append condition.tree)

def UpdateValue.tree (assignment : UpdateValue) : SyntaxNode :=
  branch .kNodeUpdateValue none ((identifierTree assignment.column).append assignment.value.tree)

def SelectColumns.tree : SelectColumns → SyntaxNode
  | all => branch .kNodeAllColumns none .nullptr
  | list columns =>
    branch .kNodeColumnList (some (literal "select columns")) (columns.tree identifierTree)

/-- The node of a `where` clause. -/
def conditionsTree (conditions : WhereConditions) : SyntaxNode :=
  branch .kNodeConditions none conditions.tree

/-- The node of the keys of an index. -/
def indexKeysTree (columns : ColumnList) : SyntaxNode :=
  branch .kNodeColumnList (some (literal "index keys")) (columns.tree identifierTree)

/-- The node of the assignments of an update. -/
def updateValuesTree (values : CommaList UpdateValue) : SyntaxNode :=
  branch .kNodeUpdateValues none (values.tree UpdateValue.tree)

def Sql.tree : Sql → SyntaxNode
  | createDatabase name => branch .kNodeCreateDB none (identifierTree name)
  | dropDatabase name => branch .kNodeDropDB none (identifierTree name)
  | showDatabases => branch .kNodeShowDB none .nullptr
  | useDatabase name => branch .kNodeUseDB none (identifierTree name)
  | showTables => branch .kNodeShowTables none .nullptr
  | createTable name definitions => branch .kNodeCreateTable none
      ((identifierTree name).append (branch .kNodeColumnDefinitionList none definitions.tree))
  | dropTable name => branch .kNodeDropTable none (identifierTree name)
  | createIndex name table columns => branch .kNodeCreateIndex none
      (((identifierTree name).append (identifierTree table)).append (indexKeysTree columns))
  | createIndexUsing name table columns type => branch .kNodeCreateIndex none
      ((((identifierTree name).append (identifierTree table)).append (indexKeysTree columns)).append
        (branch .kNodeIndexType (some (literal "index type")) (identifierTree type)))
  | dropIndex name => branch .kNodeDropIndex none (identifierTree name)
  | showIndexes => branch .kNodeShowIndexes none .nullptr
  | select columns table =>
    branch .kNodeSelect none (columns.tree.append (identifierTree table))
  | selectWhere columns table conditions => branch .kNodeSelect none
      ((columns.tree.append (identifierTree table)).append (conditionsTree conditions))
  | insert table values => branch .kNodeInsert none
      ((identifierTree table).append
        (branch .kNodeColumnValues none (values.tree ColumnValue.tree)))
  | delete table => branch .kNodeDelete none (identifierTree table)
  | deleteWhere table conditions => branch .kNodeDelete none
      ((identifierTree table).append (conditionsTree conditions))
  | update table values => branch .kNodeUpdate none
      ((identifierTree table).append (updateValuesTree values))
  | updateWhere table values conditions => branch .kNodeUpdate none
      (((identifierTree table).append (updateValuesTree values)).append (conditionsTree conditions))
  | trxBegin => branch .kNodeTrxBegin none .nullptr
  | trxCommit => branch .kNodeTrxCommit none .nullptr
  | trxRollback => branch .kNodeTrxRollback none .nullptr
  | quit => branch .kNodeQuit none .nullptr
  | execFile file => branch .kNodeExecFile none (stringTree file)

/-! ## The actions build the trees -/

theorem builds_node (type : SyntaxNodeType) (val : Option CStr) (hne : type ≠ .kNodeString) :
    Builds (createSyntaxNode type val) (branch type val .nullptr) := by
  have hbuilds := builds_createSyntaxNode type val
  rw [if_neg hne] at hbuilds
  exact hbuilds

theorem builds_identifier (text : CStr) : Builds (identifier text) (identifierTree text) :=
  builds_node _ _ (by decide)

theorem builds_number (text : CStr) : Builds (number text) (numberTree text) :=
  builds_node _ _ (by decide)

theorem builds_string (text : QuotedText) : Builds (string text) (stringTree text) :=
  builds_createSyntaxNode .kNodeString (some text.val)

/-- A value behind others comes to the front of them. -/
theorem perm_behind (v w : Nat × SyntaxNode) (mid vs : List (Nat × SyntaxNode)) :
    (v :: (mid ++ w :: vs)).Perm (v :: w :: (mid ++ vs)) :=
  List.perm_middle.cons v

/-- A new node over a value, hung below the first value: the way the actions add a list or a
`where` clause to the node of a statement. -/
theorem Triple.attach {α : Type} {node child : Nat} {type' : SyntaxNodeType} {val' : Option CStr}
    {c t : SyntaxNode} {vs : List (Nat × SyntaxNode)} {rest : StateM Heap α}
    {post : α → List (Nat × SyntaxNode)} (type : SyntaxNodeType) (val : Option CStr)
    (mid : List (Nat × SyntaxNode))
    (hrest : Triple ((node, branch type' val' (c.append (branch type val t))) :: (mid ++ vs)) rest
      post) (hne : type ≠ .kNodeString) :
    Triple ((node, branch type' val' c) :: (mid ++ (child, t) :: vs))
      (do
        let inner ← createSyntaxNode type val
        syntaxNodeAddChildren inner child
        syntaxNodeAddChildren node inner
        rest) post := by
  refine ((builds_node type val hne).triple _).bind fun inner => ?_
  refine (Triple.addChildren (perm_behind _ _ (_ :: mid) _)).bind fun _ => ?_
  refine (Triple.addChildren (.swap ..)).bind fun _ => ?_
  exact hrest

theorem CommaList.builds {α : Type} {itemAct : α → StateM Heap Nat} {itemTree : α → SyntaxNode}
    (hitem : ∀ item, Builds (itemAct item) (itemTree item)) (items : CommaList α) :
    Builds (items.act itemAct) (items.tree itemTree) := by
  induction items with
  | one item =>
      exact hitem item
  | cons item rest ih =>
      refine ((hitem item).triple []).bind fun node => ?_
      refine (ih.triple _).bind fun sib => ?_
      refine (Triple.addSibling (.swap ..)).bind fun _ => ?_
      exact .pure node (.refl _)

theorem ColumnList.builds (columns : ColumnList) :
    Builds (ColumnList.act columns) (columns.tree identifierTree) :=
  CommaList.builds builds_identifier columns

theorem ColumnType.builds (type : ColumnType) : Builds type.act type.tree := by
  cases type with
  | int =>
      exact builds_node _ _ (by decide)
  | float =>
      exact builds_node _ _ (by decide)
  | char length =>
      refine ((builds_number length).triple []).bind fun length => ?_
      refine ((builds_node .kNodeColumnType _ (by decide)).triple _).bind fun node => ?_
      refine (Triple.addChildren (.refl _)).bind fun _ => ?_
      exact .pure node (.refl _)

theorem ColumnDefinition.builds_build (name : CStr) (type : ColumnType) (val : Option CStr) :
    Builds (ColumnDefinition.build name type val)
      (branch .kNodeColumnDefinition val ((identifierTree name).append type.tree)) := by
  refine ((builds_identifier name).triple []).bind fun name => ?_
  refine (type.builds.triple _).bind fun type => ?_
  refine ((builds_node .kNodeColumnDefinition val (by decide)).triple _).bind fun node => ?_
  refine (Triple.addChildren (perm_behind _ _ [_] _)).bind fun _ => ?_
  refine (Triple.addChildren (.refl _)).bind fun _ => ?_
  exact .pure node (.refl _)

theorem ColumnDefinition.builds (definition : ColumnDefinition) :
    Builds definition.act definition.tree := by
  cases definition with
  | unique name type =>
      exact builds_build name type _
  | plain name type =>
      exact builds_build name type none

theorem ColumnDefinitionList.builds (definitions : ColumnDefinitionList) :
    Builds definitions.act definitions.tree := by
  induction definitions with
  | cons definition rest ih =>
      refine (definition.builds.triple []).bind fun node => ?_
      refine (ih.triple _).bind fun sib => ?_
      refine (Triple.addSibling (.swap ..)).bind fun _ => ?_
      exact .pure node (.refl _)
  | one definition =>
      exact definition.builds
  | primaryKey columns =>
      refine ((ColumnList.builds columns).triple []).bind fun columns => ?_
      refine ((builds_node .kNodeColumnList _ (by decide)).triple _).bind fun node => ?_
      refine (Triple.addChildren (.refl _)).bind fun _ => ?_
      exact .pure node (.refl _)

theorem ColumnValue.builds (value : ColumnValue) : Builds value.act value.tree := by
  cases value with
  | string text =>
      exact builds_string text
  | number text =>
      exact builds_number text
  | flagNull =>
      exact builds_node _ none (by decide)

theorem WhereCondition.builds (condition : WhereCondition) :
    Builds condition.act condition.tree := by
  refine ((builds_identifier condition.column).triple []).bind fun column => ?_
  refine ((builds_node .kNodeCompareOperator _ (by decide)).triple _).bind fun node => ?_
  refine (condition.value.builds.triple _).bind fun value => ?_
  refine (Triple.addChildren ((List.Perm.swap ..).trans (perm_behind _ _ [_] _))).bind fun _ => ?_
  refine (Triple.addChildren (.refl _)).bind fun _ => ?_
  exact .pure node (.refl _)

theorem WhereConditions.builds (conditions : WhereConditions) :
    Builds conditions.act conditions.tree := by
  induction conditions with
  | one condition =>
      exact condition.builds
  | connect conditions connector condition ih =>
      refine (ih.triple []).bind fun left => ?_
      refine ((builds_node .kNodeConnector _ (by decide)).triple _).bind fun node => ?_
      refine (condition.builds.triple _).bind fun right => ?_
      refine (Triple.addChildren ((List.Perm.swap ..).trans (perm_behind _ _ [_] _))).bind
        fun _ => ?_
      refine (Triple.addChildren (.refl _)).bind fun _ => ?_
      exact .pure node (.refl _)

theorem UpdateValue.builds (assignment : UpdateValue) :
    Builds assignment.act assignment.tree := by
  refine ((builds_identifier assignment.column).triple []).bind fun column => ?_
  refine (assignment.value.builds.triple _).bind fun value => ?_
  refine ((builds_node .kNodeUpdateValue none (by decide)).triple _).bind fun node => ?_
  refine (Triple.addChildren (perm_behind _ _ [_] _)).bind fun _ => ?_
  refine (Triple.addChildren (.refl _)).bind fun _ => ?_
  exact .pure node (.refl _)

theorem SelectColumns.builds (columns : SelectColumns) : Builds columns.act columns.tree := by
  cases columns with
  | all =>
      exact builds_node _ none (by decide)
  | list columns =>
      refine ((ColumnList.builds columns).triple []).bind fun columns => ?_
      refine ((builds_node .kNodeColumnList _ (by decide)).triple _).bind fun node => ?_
      refine (Triple.addChildren (.refl _)).bind fun _ => ?_
      exact .pure node (.refl _)

theorem Sql.builds_wrap {token : StateM Heap Nat} {t : SyntaxNode} (htoken : Builds token t)
    (type : SyntaxNodeType) (hne : type ≠ .kNodeString) :
    Builds (Sql.wrap type token) (branch type none t) := by
  refine (htoken.triple []).bind fun child => ?_
  refine ((builds_node type none hne).triple _).bind fun node => ?_
  refine (Triple.addChildren (.refl _)).bind fun _ => ?_
  exact .pure node (.refl _)

/-- The actions of a statement build its tree. -/
theorem Sql.builds (sql : Sql) : Builds sql.act sql.tree := by
  -- One rule of the grammar a case: its subtrees are built from left to right, then the node, and
  -- the children are attached in the order of the action.
  cases sql with
  | createDatabase name =>
      exact builds_wrap (builds_identifier name) _ (by decide)
  | dropDatabase name =>
      exact builds_wrap (builds_identifier name) _ (by decide)
  | showDatabases =>
      exact builds_node _ none (by decide)
  | useDatabase name =>
      exact builds_wrap (builds_identifier name) _ (by decide)
  | showTables =>
      exact builds_node _ none (by decide)
  | createTable name definitions =>
      refine ((builds_identifier name).triple []).bind fun name => ?_
      refine (definitions.builds.triple _).bind fun definitions => ?_
      refine ((builds_node .kNodeCreateTable none (by decide)).triple _).bind fun node => ?_
      refine ((builds_node .kNodeColumnDefinitionList none (by decide)).triple _).bind
        fun listNode => ?_
      refine (Triple.addChildren (perm_behind _ _ [_] _)).bind fun _ => ?_
      refine (Triple.addChildren ((List.Perm.swap ..).trans (perm_behind _ _ [_] _))).bind
        fun _ => ?_
      refine (Triple.addChildren (.refl _)).bind fun _ => ?_
      exact .pure node (.refl _)
  | dropTable name =>
      exact builds_wrap (builds_identifier name) _ (by decide)
  | createIndex name table columns =>
      refine ((builds_identifier name).triple []).bind fun name => ?_
      refine ((builds_identifier table).triple _).bind fun table => ?_
      refine ((ColumnList.builds columns).triple _).bind fun columns => ?_
      refine ((builds_node .kNodeCreateIndex none (by decide)).triple _).bind fun node => ?_
      refine (Triple.addChildren (perm_behind _ _ [_, _] _)).bind fun _ => ?_
      refine (Triple.addChildren (perm_behind _ _ [_] _)).bind fun _ => ?_
      refine Triple.attach .kNodeColumnList _ [] ?_ (by decide)
      exact .pure node (.refl _)
  | createIndexUsing name table columns type =>
      refine ((builds_identifier name).triple []).bind fun name => ?_
      refine ((builds_identifier table).triple _).bind fun table => ?_
      refine ((ColumnList.builds columns).triple _).bind fun columns => ?_
      refine ((builds_identifier type).triple _).bind fun type => ?_
      refine ((builds_node .kNodeCreateIndex none (by decide)).triple _).bind fun node => ?_
      refine (Triple.addChildren (perm_behind _ _ [_, _, _] _)).bind fun _ => ?_
      refine (Triple.addChildren (perm_behind _ _ [_, _] _)).bind fun _ => ?_
      refine Triple.attach .kNodeColumnList _ [_] ?_ (by decide)
      refine Triple.attach .kNodeIndexType _ [] ?_ (by decide)
      exact .pure node (.refl _)
  | dropIndex name =>
      exact builds_wrap (builds_identifier name) _ (by decide)
  | showIndexes =>
      exact builds_node _ none (by decide)
  | select columns table =>
      refine (columns.builds.triple []).bind fun columns => ?_
      refine ((builds_identifier table).triple _).bind fun table => ?_
      refine ((builds_node .kNodeSelect none (by decide)).triple _).bind fun node => ?_
      refine (Triple.addChildren (perm_behind _ _ [_] _)).bind fun _ => ?_
      refine (Triple.addChildren (.refl _)).bind fun _ => ?_
      exact .pure node (.refl _)
  | selectWhere columns table conditions =>
      refine (columns.builds.triple []).bind fun columns => ?_
      refine ((builds_identifier table).triple _).bind fun table => ?_
      refine (conditions.builds.triple _).bind fun conditions => ?_
      refine ((builds_node .kNodeSelect none (by decide)).triple _).bind fun node => ?_
      refine (Triple.addChildren (perm_behind _ _ [_, _] _)).bind fun _ => ?_
      refine (Triple.addChildren (perm_behind _ _ [_] _)).bind fun _ => ?_
      refine Triple.attach .kNodeConditions none [] ?_ (by decide)
      exact .pure node (.refl _)
  | insert table values =>
      refine ((builds_identifier table).triple []).bind fun table => ?_
      refine ((CommaList.builds ColumnValue.builds values).triple _).bind fun values => ?_
      refine ((builds_node .kNodeInsert none (by decide)).triple _).bind fun node => ?_
      refine (Triple.addChildren (perm_behind _ _ [_] _)).bind fun _ => ?_
      refine Triple.attach .kNodeColumnValues none [] ?_ (by decide)
      exact .pure node (.refl _)
  | delete table =>
      exact builds_wrap (builds_identifier table) _ (by decide)
  | deleteWhere table conditions =>
      refine ((builds_identifier table).triple []).bind fun table => ?_
      refine (conditions.builds.triple _).bind fun conditions => ?_
      refine ((builds_node .kNodeDelete none (by decide)).triple _).bind fun node => ?_
      refine (Triple.addChildren (perm_behind _ _ [_] _)).bind fun _ => ?_
      refine Triple.attach .kNodeConditions none [] ?_ (by decide)
      exact .pure node (.refl _)
  | update table values =>
      refine ((builds_identifier table).triple []).bind fun table => ?_
      refine ((CommaList.builds UpdateValue.builds values).triple _).bind fun values => ?_
      refine ((builds_node .kNodeUpdate none (by decide)).triple _).bind fun node => ?_
      refine (Triple.addChildren (perm_behind _ _ [_] _)).bind fun _ => ?_
      refine Triple.attach .kNodeUpdateValues none [] ?_ (by decide)
      exact .pure node (.refl _)
  | updateWhere table values conditions =>
      refine ((builds_identifier table).triple []).bind fun table => ?_
      refine ((CommaList.builds UpdateValue.builds values).triple _).bind fun values => ?_
      refine (conditions.builds.triple _).bind fun conditions => ?_
      refine ((builds_node .kNodeUpdate none (by decide)).triple _).bind fun node => ?_
      refine (Triple.addChildren (perm_behind _ _ [_, _] _)).bind fun _ => ?_
      refine Triple.attach .kNodeUpdateValues none [_] ?_ (by decide)
      refine Triple.attach .kNodeConditions none [] ?_ (by decide)
      exact .pure node (.refl _)
  | trxBegin =>
      exact builds_node _ none (by decide)
  | trxCommit =>
      exact builds_node _ none (by decide)
  | trxRollback =>
      exact builds_node _ none (by decide)
  | quit =>
      exact builds_node _ none (by decide)
  | execFile file =>
      exact builds_wrap (builds_string file) _ (by decide)

/-! ## Reading a tree back -/

/-- The token with another kind of text for string literals. -/
def Token.map {α β : Type} (f : α → β) : Token α → Token β
  | CREATE => CREATE
  | DROP => DROP
  | SELECT => SELECT
  | INSERT => INSERT
  | DELETE => DELETE
  | UPDATE => UPDATE
  | TRXBEGIN => TRXBEGIN
  | TRXCOMMIT => TRXCOMMIT
  | TRXROLLBACK => TRXROLLBACK
  | QUIT => QUIT
  | EXECFILE => EXECFILE
  | SHOW => SHOW
  | USE => USE
  | USING => USING
  | DATABASE => DATABASE
  | DATABASES => DATABASES
  | TABLE => TABLE
  | TABLES => TABLES
  | INDEX => INDEX
  | INDEXES => INDEXES
  | ON => ON
  | FROM => FROM
  | WHERE => WHERE
  | INTO => INTO
  | SET => SET
  | VALUES => VALUES
  | PRIMARY => PRIMARY
  | KEY => KEY
  | UNIQUE => UNIQUE
  | CHAR => CHAR
  | INT => INT
  | FLOAT => FLOAT
  | AND => AND
  | OR => OR
  | NOT => NOT
  | IS => IS
  | FLAGNULL => FLAGNULL
  | IDENTIFIER text => IDENTIFIER text
  | STRING text => STRING (f text)
  | NUMBER text => NUMBER text
  | EQ => EQ
  | NE => NE
  | LE => LE
  | GE => GE
  | lit c => lit c

/-- The token sequence with its string literals without quotes. -/
def unquoted (word : List (Token QuotedText)) : List (Token CStr) :=
  word.map (Token.map fun text => unquote text.val)

/-- Items with commas between them. -/
def separated (items : List (List (Token CStr))) : List (Token CStr) :=
  List.intercalate [.lit ','] items

def columnTypeTokens (val : CStr) (args : List (Token CStr)) : List (Token CStr) :=
  if val = literal "int" then [.INT]
  else if val = literal "float" then [.FLOAT]
  else [.CHAR, .lit '('] ++ args ++ [.lit ')']

def columnListTokens (val : CStr) (items : List (List (Token CStr))) : List (Token CStr) :=
  if val = literal "primary keys" then
    [.PRIMARY, .KEY, .lit '('] ++ separated items ++ [.lit ')']
  else if val = literal "index keys" then [.lit '('] ++ separated items ++ [.lit ')']
  else separated items

def connectorToken (val : CStr) : Token CStr :=
  if val = literal "and" then .AND else .OR

def operatorToken (val : CStr) : Token CStr :=
  if val = literal "=" then .EQ
  else if val = literal "<>" then .NE
  else if val = literal "<=" then .LE
  else if val = literal ">=" then .GE
  else if val = literal "<" then .lit '<'
  else if val = literal ">" then .lit '>'
  else if val = literal "is" then .IS
  else .NOT

/-- The words of a node with the words of its children. -/
def words : SyntaxNodeType → Option CStr → List (List (Token CStr)) → List (Token CStr)
  | .kNodeIdentifier, some text, [] => [.IDENTIFIER text]
  | .kNodeNumber, some text, [] => [.NUMBER text]
  | .kNodeString, some text, [] => [.STRING text]
  | .kNodeNull, none, [] => [.FLAGNULL]
  | .kNodeCreateDB, none, [name] => [.CREATE, .DATABASE] ++ name
  | .kNodeDropDB, none, [name] => [.DROP, .DATABASE] ++ name
  | .kNodeShowDB, none, [] => [.SHOW, .DATABASES]
  | .kNodeUseDB, none, [name] => .USE :: name
  | .kNodeShowTables, none, [] => [.SHOW, .TABLES]
  | .kNodeCreateTable, none, [name, definitions] => [.CREATE, .TABLE] ++ name ++ definitions
  | .kNodeColumnDefinitionList, none, items => [.lit '('] ++ separated items ++ [.lit ')']
  | .kNodeColumnDefinition, some _, [name, type] => name ++ type ++ [.UNIQUE]
  | .kNodeColumnDefinition, none, [name, type] => name ++ type
  | .kNodeColumnType, some val, args => columnTypeTokens val args.flatten
  | .kNodeColumnList, some val, items => columnListTokens val items
  | .kNodeDropTable, none, [name] => [.DROP, .TABLE] ++ name
  | .kNodeCreateIndex, none, name :: table :: rest =>
    [.CREATE, .INDEX] ++ name ++ .ON :: table ++ rest.flatten
  | .kNodeIndexType, some _, [type] => .USING :: type
  | .kNodeDropIndex, none, [name] => [.DROP, .INDEX] ++ name
  | .kNodeShowIndexes, none, [] => [.SHOW, .INDEXES]
  | .kNodeSelect, none, columns :: table :: rest =>
    .SELECT :: columns ++ .FROM :: table ++ rest.flatten
  | .kNodeAllColumns, none, [] => [.lit '*']
  | .kNodeConditions, none, [conditions] => .WHERE :: conditions
  | .kNodeConnector, some val, [left, right] => left ++ connectorToken val :: right
  | .kNodeCompareOperator, some val, [column, value] => column ++ operatorToken val :: value
  | .kNodeInsert, none, [table, values] => [.INSERT, .INTO] ++ table ++ .VALUES :: values
  | .kNodeColumnValues, none, items => [.lit '('] ++ separated items ++ [.lit ')']
  | .kNodeDelete, none, table :: rest => [.DELETE, .FROM] ++ table ++ rest.flatten
  | .kNodeUpdate, none, table :: rest => .UPDATE :: table ++ .SET :: rest.flatten
  | .kNodeUpdateValues, none, items => separated items
  | .kNodeUpdateValue, none, [column, value] => column ++ .EQ :: value
  | .kNodeTrxBegin, none, [] => [.TRXBEGIN]
  | .kNodeTrxCommit, none, [] => [.TRXCOMMIT]
  | .kNodeTrxRollback, none, [] => [.TRXROLLBACK]
  | .kNodeQuit, none, [] => [.QUIT]
  | .kNodeExecFile, none, [file] => .EXECFILE :: file
  | _, _, _ => []

/-- The words of a node and of its siblings, in order. -/
def parts : SyntaxNode → List (List (Token CStr))
  | .nullptr => []
  | .node type val child next => words type val (parts child) :: parts next

/-- The statement a tree is for. -/
def statement (t : SyntaxNode) : List (Token CStr) :=
  (parts t).flatten ++ [.lit ';']

/-- The nodes that are over a list. -/
def isList : SyntaxNodeType → Bool
  | .kNodeColumnDefinitionList | .kNodeColumnList | .kNodeColumnValues | .kNodeUpdateValues => true
  | _ => false

/-- The lists of a tree, with the words of their items. -/
def lists : SyntaxNode → List (List (List (Token CStr)))
  | .nullptr => []
  | .node type _ child next =>
    (if isList type then [parts child] else []) ++ lists child ++ lists next

@[simp] theorem parts_append (t t' : SyntaxNode) : parts (t.append t') = parts t ++ parts t' := by
  induction t with
  | nullptr =>
      rfl
  | node type val child next _ ihn =>
      simp only [SyntaxNode.append, parts, ihn, List.cons_append]

@[simp] theorem lists_append (t t' : SyntaxNode) : lists (t.append t') = lists t ++ lists t' := by
  induction t with
  | nullptr =>
      rfl
  | node type val child next _ ihn =>
      simp only [SyntaxNode.append, lists, ihn, List.append_assoc]

@[simp] theorem parts_branch (type : SyntaxNodeType) (val : Option CStr) (t : SyntaxNode) :
    parts (branch type val t) = [words type val (parts t)] :=
  rfl

@[simp] theorem lists_branch (type : SyntaxNodeType) (val : Option CStr) (t : SyntaxNode) :
    lists (branch type val t) = (if isList type then [parts t] else []) ++ lists t := by
  simp [branch, lists]

theorem words_createIndex (name table : List (Token CStr)) (rest : List (List (Token CStr))) :
    words .kNodeCreateIndex none (name :: table :: rest) =
      [.CREATE, .INDEX] ++ name ++ .ON :: table ++ rest.flatten :=
  rfl

theorem words_select (columns table : List (Token CStr)) (rest : List (List (Token CStr))) :
    words .kNodeSelect none (columns :: table :: rest) =
      .SELECT :: columns ++ .FROM :: table ++ rest.flatten :=
  rfl

theorem words_delete (table : List (Token CStr)) (rest : List (List (Token CStr))) :
    words .kNodeDelete none (table :: rest) = [.DELETE, .FROM] ++ table ++ rest.flatten :=
  rfl

theorem words_update (table : List (Token CStr)) (rest : List (List (Token CStr))) :
    words .kNodeUpdate none (table :: rest) = .UPDATE :: table ++ .SET :: rest.flatten :=
  rfl

theorem unquoted_append (word word' : List (Token QuotedText)) :
    unquoted (word ++ word') = unquoted word ++ unquoted word' :=
  List.map_append

theorem unquoted_cons (token : Token QuotedText) (word : List (Token QuotedText)) :
    unquoted (token :: word) = token.map (fun text => unquote text.val) :: unquoted word :=
  rfl

/-! ## The words of the productions -/

@[simp] theorem parts_identifierTree (text : CStr) :
    parts (identifierTree text) = [[.IDENTIFIER text]] :=
  rfl

namespace CommaList

variable {α : Type} {itemTree : α → SyntaxNode} {word : α → List (Token QuotedText)}

/-- A list has one part for each item, in order. -/
theorem parts_tree (hitem : ∀ item, parts (itemTree item) = [unquoted (word item)])
    (items : CommaList α) :
    parts (items.tree itemTree) = (items.toList.map word).map unquoted := by
  induction items with
  | one item =>
      exact hitem item
  | cons item rest ih =>
      rw [tree, parts_append, hitem, ih]
      rfl

theorem separated_toList (word : α → List (Token QuotedText)) (items : CommaList α) :
    separated ((items.toList.map word).map unquoted) = unquoted (items.tokens word) := by
  induction items with
  | one item =>
      simp [toList, separated, tokens, List.intercalate]
  | cons item rest ih =>
      cases rest with
      | one next =>
          simp [toList, separated, tokens, List.intercalate, unquoted_append, unquoted_cons,
            Token.map]
      | cons next rest =>
          rw [tokens, unquoted_append, unquoted_cons, ← ih]
          simp [toList, separated, List.intercalate, Token.map]

end CommaList

/-- The words of the columns of a list. -/
def ColumnList.items (columns : ColumnList) : List (List (Token QuotedText)) :=
  columns.toList.map fun name => [.IDENTIFIER name]

theorem parts_columnList (columns : ColumnList) :
    parts (columns.tree identifierTree) = (ColumnList.items columns).map unquoted :=
  CommaList.parts_tree (fun _ => rfl) columns

theorem separated_columnList (columns : ColumnList) :
    separated ((ColumnList.items columns).map unquoted) = unquoted (ColumnList.tokens columns) :=
  CommaList.separated_toList _ columns

theorem ColumnType.parts_tree (type : ColumnType) : parts type.tree = [unquoted type.tokens] := by
  cases type with
  | int =>
      rfl
  | float =>
      rfl
  | char length =>
      rfl

theorem ColumnDefinition.parts_tree (definition : ColumnDefinition) :
    parts definition.tree = [unquoted definition.tokens] := by
  cases definition with
  | unique name type =>
      rw [tree, parts_branch, parts_append, parts_identifierTree, type.parts_tree, tokens,
        unquoted_cons, unquoted_append]
      rfl
  | plain name type =>
      rw [tree, parts_branch, parts_append, parts_identifierTree, type.parts_tree]
      rfl

namespace ColumnDefinitionList

/-- The words of the definitions and of the primary key. -/
def items : ColumnDefinitionList → List (List (Token QuotedText))
  | cons definition rest => definition.tokens :: rest.items
  | one definition => [definition.tokens]
  | primaryKey columns => [tokens (primaryKey columns)]

theorem parts_tree (definitions : ColumnDefinitionList) :
    parts definitions.tree = definitions.items.map unquoted := by
  induction definitions with
  | cons definition rest ih =>
      rw [tree, parts_append, definition.parts_tree, ih]
      rfl
  | one definition =>
      exact definition.parts_tree
  | primaryKey columns =>
      rw [tree, parts_branch, parts_columnList, items, tokens, List.map_singleton, unquoted_append,
        unquoted_append, ← separated_columnList]
      rfl

theorem separated_items (definitions : ColumnDefinitionList) :
    separated (definitions.items.map unquoted) = unquoted definitions.tokens := by
  induction definitions with
  | cons definition rest ih =>
      rw [tokens, unquoted_append, unquoted_cons, ← ih]
      cases rest with
      | cons next rest =>
          simp [items, separated, List.intercalate, Token.map]
      | one next =>
          simp [items, separated, List.intercalate, Token.map]
      | primaryKey columns =>
          simp [items, separated, List.intercalate, Token.map]
  | one definition =>
      simp [items, separated, List.intercalate, tokens]
  | primaryKey columns =>
      simp [items, separated, List.intercalate]

end ColumnDefinitionList

theorem ColumnValue.parts_tree (value : ColumnValue) :
    parts value.tree = [unquoted value.tokens] := by
  cases value with
  | string text =>
      rfl
  | number text =>
      rfl
  | flagNull =>
      rfl

theorem operatorToken_text (operator : Operator) :
    operatorToken operator.text = operator.token.map fun text => unquote text.val := by
  cases operator with
  | eq => rfl
  | ne => rfl
  | le => rfl
  | ge => rfl
  | lt => rfl
  | gt => rfl
  | is => rfl
  | not => rfl

theorem connectorToken_text (connector : Connector) :
    connectorToken connector.text = connector.token.map fun text => unquote text.val := by
  cases connector with
  | and => rfl
  | or => rfl

theorem WhereCondition.parts_tree (condition : WhereCondition) :
    parts condition.tree = [unquoted condition.tokens] := by
  rw [tree, parts_branch, parts_append, parts_identifierTree, condition.value.parts_tree, tokens,
    unquoted_cons, unquoted_cons, ← operatorToken_text]
  rfl

theorem WhereConditions.parts_tree (conditions : WhereConditions) :
    parts conditions.tree = [unquoted conditions.tokens] := by
  induction conditions with
  | one condition =>
      exact condition.parts_tree
  | connect conditions connector condition ih =>
      rw [tree, parts_branch, parts_append, ih, condition.parts_tree, tokens, unquoted_append,
        unquoted_cons, ← connectorToken_text]
      rfl

theorem UpdateValue.parts_tree (assignment : UpdateValue) :
    parts assignment.tree = [unquoted assignment.tokens] := by
  rw [tree, parts_branch, parts_append, parts_identifierTree, assignment.value.parts_tree]
  rfl

theorem SelectColumns.parts_tree (columns : SelectColumns) :
    parts columns.tree = [unquoted columns.tokens] := by
  cases columns with
  | all =>
      rfl
  | list columns =>
      rw [tree, parts_branch, parts_columnList, tokens, ← separated_columnList]
      rfl

namespace Sql

/-- The node of a `where` clause, at the end of a statement. -/
theorem parts_conditionsTree (conditions : WhereConditions) :
    parts (conditionsTree conditions) = [.WHERE :: unquoted conditions.tokens] := by
  rw [conditionsTree, parts_branch, conditions.parts_tree]
  rfl

theorem parts_indexKeysTree (columns : ColumnList) :
    parts (indexKeysTree columns) =
      [[.lit '('] ++ unquoted (ColumnList.tokens columns) ++ [.lit ')']] := by
  rw [indexKeysTree, parts_branch, parts_columnList, ← separated_columnList]
  rfl

theorem parts_updateValuesTree (values : CommaList UpdateValue) :
    parts (updateValuesTree values) = [unquoted (values.tokens UpdateValue.tokens)] := by
  rw [updateValuesTree, parts_branch, CommaList.parts_tree UpdateValue.parts_tree,
    ← CommaList.separated_toList]
  rfl

theorem parts_tree (sql : Sql) : parts sql.tree = [unquoted sql.tokens] := by
  cases sql with
  | createTable name definitions =>
      rw [tree, parts_branch, parts_append, parts_branch, parts_identifierTree,
        definitions.parts_tree, tokens, unquoted_append, unquoted_append,
        ← definitions.separated_items]
      rfl
  | createIndex name table columns =>
      rw [tree, parts_branch, parts_append, parts_append, parts_identifierTree,
        parts_identifierTree, parts_indexKeysTree]
      simp [words_createIndex, tokens, unquoted_cons, unquoted_append, Token.map]
      rfl
  | createIndexUsing name table columns type =>
      rw [tree, parts_branch, parts_append, parts_append, parts_append, parts_identifierTree,
        parts_identifierTree, parts_indexKeysTree]
      simp [words_createIndex, tokens, unquoted_cons, unquoted_append, Token.map]
      rfl
  | select columns table =>
      rw [tree, parts_branch, parts_append, parts_identifierTree, columns.parts_tree]
      simp [words_select, tokens, unquoted_cons, unquoted_append, Token.map]
      rfl
  | selectWhere columns table conditions =>
      rw [tree, parts_branch, parts_append, parts_append, parts_identifierTree, columns.parts_tree,
        parts_conditionsTree]
      simp [words_select, tokens, unquoted_cons, unquoted_append, Token.map]
  | insert table values =>
      rw [tree, parts_branch, parts_append, parts_branch, parts_identifierTree,
        CommaList.parts_tree ColumnValue.parts_tree, tokens, unquoted_append, unquoted_append,
        ← CommaList.separated_toList]
      rfl
  | deleteWhere table conditions =>
      rw [tree, parts_branch, parts_append, parts_identifierTree, parts_conditionsTree]
      simp [words_delete, tokens, unquoted_cons, Token.map]
  | update table values =>
      rw [tree, parts_branch, parts_append, parts_identifierTree, parts_updateValuesTree]
      simp [words_update, tokens, unquoted_cons, Token.map]
  | updateWhere table values conditions =>
      rw [tree, parts_branch, parts_append, parts_append, parts_identifierTree,
        parts_updateValuesTree, parts_conditionsTree]
      simp [words_update, tokens, unquoted_cons, unquoted_append, Token.map]
  | _ =>
      rfl

end Sql

/-! ## The lists of a statement -/

/-- The column list of a primary key. -/
def ColumnDefinitionList.lists : ColumnDefinitionList → List (List (List (Token QuotedText)))
  | cons _ rest => rest.lists
  | one _ => []
  | primaryKey columns => [ColumnList.items columns]

def SelectColumns.lists : SelectColumns → List (List (List (Token QuotedText)))
  | all => []
  | list columns => [ColumnList.items columns]

/-- The lists of a statement, with the words of their items. -/
def Sql.lists : Sql → List (List (List (Token QuotedText)))
  | createTable _ definitions => definitions.items :: definitions.lists
  | createIndex _ _ columns => [ColumnList.items columns]
  | createIndexUsing _ _ columns _ => [ColumnList.items columns]
  | select columns _ => columns.lists
  | selectWhere columns _ _ => columns.lists
  | insert _ values => [values.toList.map ColumnValue.tokens]
  | update _ values => [values.toList.map UpdateValue.tokens]
  | updateWhere _ values _ => [values.toList.map UpdateValue.tokens]
  | _ => []

theorem CommaList.lists_tree {α : Type} {itemTree : α → SyntaxNode}
    (hitem : ∀ item, lists (itemTree item) = []) (items : CommaList α) :
    lists (items.tree itemTree) = [] := by
  induction items with
  | one item =>
      exact hitem item
  | cons item rest ih =>
      rw [tree, lists_append, hitem, ih]
      rfl

theorem ColumnList.lists_tree (columns : ColumnList) :
    Parser.lists (columns.tree identifierTree) = [] :=
  CommaList.lists_tree (fun _ => rfl) columns

theorem ColumnDefinition.lists_tree (definition : ColumnDefinition) :
    lists definition.tree = [] := by
  cases definition with
  | unique name type =>
      cases type <;> rfl
  | plain name type =>
      cases type <;> rfl

theorem ColumnDefinitionList.lists_tree (definitions : ColumnDefinitionList) :
    Parser.lists definitions.tree = definitions.lists.map (List.map unquoted) := by
  induction definitions with
  | cons definition rest ih =>
      rw [tree, lists_append, definition.lists_tree, ih]
      rfl
  | one definition =>
      exact definition.lists_tree
  | primaryKey columns =>
      rw [tree, lists_branch, ColumnList.lists_tree, parts_columnList]
      rfl

theorem ColumnValue.lists_tree (value : ColumnValue) : lists value.tree = [] := by
  cases value <;> rfl

theorem WhereConditions.lists_tree (conditions : WhereConditions) : lists conditions.tree = [] := by
  have hleaf : ∀ condition : WhereCondition, lists condition.tree = [] := by
    intro condition
    rw [WhereCondition.tree, lists_branch, lists_append, condition.value.lists_tree]
    rfl
  induction conditions with
  | one condition =>
      exact hleaf condition
  | connect conditions connector condition ih =>
      rw [tree, lists_branch, lists_append, ih, hleaf]
      rfl

theorem UpdateValue.lists_tree (assignment : UpdateValue) : lists assignment.tree = [] := by
  rw [tree, lists_branch, lists_append, assignment.value.lists_tree]
  rfl

theorem SelectColumns.lists_tree (columns : SelectColumns) :
    Parser.lists columns.tree = columns.lists.map (List.map unquoted) := by
  cases columns with
  | all =>
      rfl
  | list columns =>
      rw [tree, lists_branch, ColumnList.lists_tree, parts_columnList]
      rfl

namespace Sql

theorem lists_conditionsTree (conditions : WhereConditions) :
    Parser.lists (conditionsTree conditions) = [] := by
  rw [conditionsTree, lists_branch, conditions.lists_tree]
  rfl

theorem lists_indexKeysTree (columns : ColumnList) :
    Parser.lists (indexKeysTree columns) = [(ColumnList.items columns).map unquoted] := by
  rw [indexKeysTree, lists_branch, ColumnList.lists_tree, parts_columnList]
  rfl

theorem lists_updateValuesTree (values : CommaList UpdateValue) :
    Parser.lists (updateValuesTree values) =
      [(values.toList.map UpdateValue.tokens).map unquoted] := by
  rw [updateValuesTree, lists_branch, CommaList.lists_tree UpdateValue.lists_tree,
    CommaList.parts_tree UpdateValue.parts_tree]
  rfl

theorem lists_tree (sql : Sql) :
    Parser.lists sql.tree = sql.lists.map (List.map unquoted) := by
  cases sql with
  | createTable name definitions =>
      rw [tree, lists_branch, lists_append, lists_branch, definitions.lists_tree,
        definitions.parts_tree]
      rfl
  | createIndex name table columns =>
      rw [tree, lists_branch, lists_append, lists_indexKeysTree]
      rfl
  | createIndexUsing name table columns type =>
      rw [tree, lists_branch, lists_append, lists_append, lists_indexKeysTree]
      rfl
  | select columns table =>
      rw [tree, lists_branch, lists_append, columns.lists_tree]
      exact List.append_nil _
  | selectWhere columns table conditions =>
      rw [tree, lists_branch, lists_append, lists_append, columns.lists_tree, lists_conditionsTree,
        List.append_nil]
      exact List.append_nil _
  | insert table values =>
      rw [tree, lists_branch, lists_append, lists_branch,
        CommaList.lists_tree ColumnValue.lists_tree, CommaList.parts_tree ColumnValue.parts_tree]
      rfl
  | deleteWhere table conditions =>
      rw [tree, lists_branch, lists_append, lists_conditionsTree]
      rfl
  | update table values =>
      rw [tree, lists_branch, lists_append, lists_updateValuesTree]
      rfl
  | updateWhere table values conditions =>
      rw [tree, lists_branch, lists_append, lists_append, lists_updateValuesTree,
        lists_conditionsTree]
      rfl
  | _ =>
      rfl

end Sql

/-! ## The whole statement -/

/-- What the parser leaves behind for a statement: a tree on nodes that nothing else uses. -/
theorem start_holds (sql : Sql) (h : Heap) :
    ∃ s, Holds (start sql h).2 sql.tree (some (start sql h).1) s ∧
      s.card ≤ (start sql h).2.count := by
  have hr := sql.builds h h (Reached.refl h)
  rcases hr.owns with ⟨_, ⟨s, _, hold, rfl, _, rfl⟩, hs⟩
  refine ⟨s, hold, ?_⟩
  have hsub : s ⊆ Finset.range (start sql h).2.count := fun a ha =>
    Finset.mem_range.mpr (hs a (Finset.mem_union_left _ ha)).2
  simpa using Finset.card_le_card hsub

/-- Two quoted texts with the same characters between the quotes are the same. -/
theorem unquote_injective : Function.Injective fun text : QuotedText => unquote text.val := by
  intro text text' heq
  have hbytes : text.val.val.val = text'.val.val.val := by
    rcases text.property with ⟨body, hbody⟩
    rcases text'.property with ⟨body', hbody'⟩
    have hdrop : text.val.val.val.tail.dropLast = text'.val.val.val.tail.dropLast :=
      congrArg (fun val : CStr => val.val.val) heq
    rw [hbody, hbody', List.tail_cons, List.tail_cons, List.dropLast_concat,
      List.dropLast_concat] at hdrop
    rw [hbody, hbody', hdrop]
  exact Subtype.ext (Subtype.ext (Subtype.ext hbytes))

theorem Token.map_injective {α β : Type} [Nonempty α] {f : α → β} (hf : Function.Injective f) :
    Function.Injective (Token.map f) := by
  obtain ⟨g, hg⟩ := hf.hasLeftInverse
  have hback : Function.LeftInverse (Token.map g) (Token.map f) := by
    intro token
    cases token with
    | STRING text =>
        exact congrArg Token.STRING (hg text)
    | _ =>
        rfl
  exact hback.injective

theorem unquoted_injective : Function.Injective unquoted := by
  have : Nonempty QuotedText := ⟨⟨⟨⟨[34, 34], by decide⟩, by decide⟩, [], rfl⟩⟩
  exact List.map_injective_iff.mpr (Token.map_injective unquote_injective)

/-- The tree that the parser reads off the heap for a statement, with enough fuel for all nodes. -/
def parsed (sql : Sql) (h : Heap) : SyntaxNode :=
  (start sql h).2.read (start sql h).2.count (some (start sql h).1)

theorem parsed_eq (sql : Sql) (h : Heap) : parsed sql h = sql.tree := by
  rcases start_holds sql h with ⟨s, hold, hcard⟩
  exact hold.read hcard

/-- The tree of a statement gives its tokens and the items of its lists back, in order and with
string literals without their quotes; statements with the same tree have the same tokens, and no
node is reached along two paths. -/
theorem syntax_tree_faithful (sql : Sql) (h : Heap) :
    statement (parsed sql h) = unquoted (startTokens sql) ∧
    lists (parsed sql h) = sql.lists.map (List.map unquoted) ∧
    (∀ sql' h', parsed sql' h' = parsed sql h → startTokens sql' = startTokens sql) ∧
    ∀ path path' a, (start sql h).2.follow (some (start sql h).1) path = some a →
      (start sql h).2.follow (some (start sql h).1) path' = some a → path = path' := by
  have hstatement : ∀ sql h, statement (parsed sql h) = unquoted (startTokens sql) := by
    intro sql h
    rw [parsed_eq, statement, sql.parts_tree, startTokens, unquoted_append, List.flatten_singleton]
    rfl
  refine ⟨hstatement sql h, ?_, fun sql' h' htree => ?_, fun path path' a hpath hpath' => ?_⟩
  · rw [parsed_eq, sql.lists_tree]
  · apply unquoted_injective
    rw [← hstatement sql' h', ← hstatement sql h, htree]
  · rcases start_holds sql h with ⟨s, hold, _⟩
    exact hold.follow_inj hpath hpath'

end Parser
end MiniSQL
