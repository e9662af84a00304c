import MiniSQL.Parser.SyntaxTree

/-!
# Grammar — the derivations of `parser/minisql.y` and their semantic actions

A type stands for a nonterminal and its constructors for the productions, with the symbols of the
right-hand side that carry a value.  `tokens` is the word a derivation derives and `act` runs the
semantic actions in the order of the parser: the values of the right-hand side from left to right,
then the action of the production.  The lexer allocates the nodes of identifiers, numbers and
strings.
-/

namespace MiniSQL
namespace Parser

/-- The text of a string token: the pattern of the lexer starts and ends with a quote. -/
abbrev QuotedText := { text : CStr // ∃ body, text.val.val = 34 :: (body ++ [34]) }

/-- The tokens, with the type of the texts of string literals. -/
inductive Token (Text : Type)
  | CREATE | DROP | SELECT | INSERT | DELETE | UPDATE
  | TRXBEGIN | TRXCOMMIT | TRXROLLBACK | QUIT | EXECFILE | SHOW | USE | USING
  | DATABASE | DATABASES | TABLE | TABLES | INDEX | INDEXES
  | ON | FROM | WHERE | INTO | SET | VALUES | PRIMARY | KEY | UNIQUE
  | CHAR | INT | FLOAT | AND | OR | NOT | IS | FLAGNULL
  | IDENTIFIER (text : CStr)
  | STRING (text : Text)
  | NUMBER (text : CStr)
  | EQ | NE | LE | GE
  | lit (c : Char)

/-- A literal of the program as a C string. -/
def literal (text : String) : CStr :=
  if h : (ascii text).length < 2 ^ 32 ∧ (0 : UInt8) ∉ ascii text then ⟨⟨ascii text, h.1⟩, h.2⟩
  else ⟨⟨[], Nat.two_pow_pos 32⟩, List.not_mem_nil⟩

/-! ## Tokens with a value -/

def identifier (text : CStr) : StateM Heap Nat :=
  createSyntaxNode .kNodeIdentifier (some text)

def number (text : CStr) : StateM Heap Nat :=
  createSyntaxNode .kNodeNumber (some text)

def string (text : QuotedText) : StateM Heap Nat :=
  createSyntaxNode .kNodeString (some text.val)

/-! ## Lists

`column_list`, `column_values` and `update_values` have the same two productions. -/

inductive CommaList (α : Type)
  | one (item : α)
  | cons (item : α) (rest : CommaList α)

namespace CommaList

variable {α : Type}

def toList : CommaList α → List α
  | one item => [item]
  | cons item rest => item :: rest.toList

def tokens (word : α → List (Token QuotedText)) : CommaList α → List (Token QuotedText)
  | one item => word item
  | cons item rest => word item ++ .lit ',' :: rest.tokens word

def act (itemAct : α → StateM Heap Nat) : CommaList α → StateM Heap Nat
  | one item => itemAct item
  | cons item rest => do
    let node ← itemAct item
    let sib ← rest.act itemAct
    syntaxNodeAddSibling node sib
    return node

end CommaList

/-- `column_list`. -/
abbrev ColumnList := CommaList CStr

def ColumnList.tokens (columns : ColumnList) : List (Token QuotedText) :=
  CommaList.tokens (fun name => [.IDENTIFIER name]) columns

def ColumnList.act (columns : ColumnList) : StateM Heap Nat :=
  CommaList.act identifier columns

/-! ## Column definitions -/

inductive ColumnType
  | int
  | float
  | char (length : CStr)

namespace ColumnType

def tokens : ColumnType → List (Token QuotedText)
  | int => [.INT]
  | float => [.FLOAT]
  | char length => [.CHAR, .lit '(', .NUMBER length, .lit ')']

def act : ColumnType → StateM Heap Nat
  | int => createSyntaxNode .kNodeColumnType (some (literal "int"))
  | float => createSyntaxNode .kNodeColumnType (some (literal "float"))
  | char length => do
    let length ← number length
    let node ← createSyntaxNode .kNodeColumnType (some (literal "char"))
    syntaxNodeAddChildren node length
    return node

end ColumnType

inductive ColumnDefinition
  | unique (name : CStr) (type : ColumnType)
  | plain (name : CStr) (type : ColumnType)

namespace ColumnDefinition

def tokens : ColumnDefinition → List (Token QuotedText)
  | unique name type => .IDENTIFIER name :: (type.tokens ++ [.UNIQUE])
  | plain name type => .IDENTIFIER name :: type.tokens

/-- Both actions, with the text of the node. -/
def build (name : CStr) (type : ColumnType) (val : Option CStr) : StateM Heap Nat := do
  let name ← identifier name
  let type ← type.act
  let node ← createSyntaxNode .kNodeColumnDefinition val
  syntaxNodeAddChildren node name
  syntaxNodeAddChildren node type
  return node

def act : ColumnDefinition → StateM Heap Nat
  | unique name type => build name type (some (literal "unique"))
  | plain name type => build name type none

end ColumnDefinition

inductive ColumnDefinitionList
  | cons (definition : ColumnDefinition) (rest : ColumnDefinitionList)
  | one (definition : ColumnDefinition)
  | primaryKey (columns : ColumnList)

namespace ColumnDefinitionList

def tokens : ColumnDefinitionList → List (Token QuotedText)
  | cons definition rest => definition.tokens ++ .lit ',' :: rest.tokens
  | one definition => definition.tokens
  | primaryKey columns => [.PRIMARY, .KEY, .lit '('] ++ ColumnList.tokens columns ++ [.lit ')']

def act : ColumnDefinitionList → StateM Heap Nat
  | cons definition rest => do
    let node ← definition.act
    let sib ← rest.act
    syntaxNodeAddSibling node sib
    return node
  | one definition => definition.act
  | primaryKey columns => do
    let columns ← ColumnList.act columns
    let node ← createSyntaxNode .kNodeColumnList (some (literal "primary keys"))
    syntaxNodeAddChildren node columns
    return node

end ColumnDefinitionList

/-! ## Conditions and values -/

inductive ColumnValue
  | string (text : QuotedText)
  | number (text : CStr)
  | flagNull

namespace ColumnValue

def tokens : ColumnValue → List (Token QuotedText)
  | string text => [.STRING text]
  | number text => [.NUMBER text]
  | flagNull => [.FLAGNULL]

def act : ColumnValue → StateM Heap Nat
  | string text => Parser.string text
  | number text => Parser.number text
  | flagNull => createSyntaxNode .kNodeNull none

end ColumnValue

inductive Operator
  | eq
  | ne
  | le
  | ge
  | lt
  | gt
  | is
  | not

namespace Operator

def token : Operator → Token QuotedText
  | eq => .EQ
  | ne => .NE
  | le => .LE
  | ge => .GE
  | lt => .lit '<'
  | gt => .lit '>'
  | is => .IS
  | not => .NOT

def text : Operator → CStr
  | eq => literal "="
  | ne => literal "<>"
  | le => literal "<="
  | ge => literal ">="
  | lt => literal "<"
  | gt => literal ">"
  | is => literal "is"
  | not => literal "not"

def act (operator : Operator) : StateM Heap Nat :=
  createSyntaxNode .kNodeCompareOperator (some operator.text)

end Operator

inductive Connector
  | and
  | or

namespace Connector

def token : Connector → Token QuotedText
  | and => .AND
  | or => .OR

def text : Connector → CStr
  | and => literal "and"
  | or => literal "or"

def act (connector : Connector) : StateM Heap Nat :=
  createSyntaxNode .kNodeConnector (some connector.text)

end Connector

structure WhereCondition where
  column : CStr
  operator : Operator
  value : ColumnValue

namespace WhereCondition

def tokens (condition : WhereCondition) : List (Token QuotedText) :=
  .IDENTIFIER condition.column :: condition.operator.token :: condition.value.tokens

def act (condition : WhereCondition) : StateM Heap Nat := do
  let column ← identifier condition.column
  let node ← condition.operator.act
  let value ← condition.value.act
  syntaxNodeAddChildren node column
  syntaxNodeAddChildren node value
  return node

end WhereCondition

inductive WhereConditions
  | one (condition : WhereCondition)
  | connect (conditions : WhereConditions) (connector : Connector) (condition : WhereCondition)

namespace WhereConditions

def tokens : WhereConditions → List (Token QuotedText)
  | one condition => condition.tokens
  | connect conditions connector condition =>
    conditions.tokens ++ connector.token :: condition.tokens

def act : WhereConditions → StateM Heap Nat
  | one condition => condition.act
  | connect conditions connector condition => do
    let left ← conditions.act
    let node ← connector.act
    let right ← condition.act
    syntaxNodeAddChildren node left
    syntaxNodeAddChildren node right
    return node

end WhereConditions

structure UpdateValue where
  column : CStr
  value : ColumnValue

namespace UpdateValue

def tokens (assignment : UpdateValue) : List (Token QuotedText) :=
  .IDENTIFIER assignment.column :: .EQ :: assignment.value.tokens

def act (assignment : UpdateValue) : StateM Heap Nat := do
  let column ← identifier assignment.column
  let value ← assignment.value.act
  let node ← createSyntaxNode .kNodeUpdateValue none
  syntaxNodeAddChildren node column
  syntaxNodeAddChildren node value
  return node

end UpdateValue

inductive SelectColumns
  | all
  | list (columns : ColumnList)

namespace SelectColumns

def tokens : SelectColumns → List (Token QuotedText)
  | all => [.lit '*']
  | list columns => ColumnList.tokens columns

def act : SelectColumns → StateM Heap Nat
  | all => createSyntaxNode .kNodeAllColumns none
  | list columns => do
    let columns ← ColumnList.act columns
    let node ← createSyntaxNode .kNodeColumnList (some (literal "select columns"))
    syntaxNodeAddChildren node columns
    return node

end SelectColumns

/-! ## Statements -/

/-- `sql`, with the productions of the nonterminals it stands for. -/
inductive Sql
  | createDatabase (name : CStr)
  | dropDatabase (name : CStr)
  | showDatabases
  | useDatabase (name : CStr)
  | showTables
  | createTable (name : CStr) (definitions : ColumnDefinitionList)
  | dropTable (name : CStr)
  | createIndex (name table : CStr) (columns : ColumnList)
  | createIndexUsing (name table : CStr) (columns : ColumnList) (type : CStr)
  | dropIndex (name : CStr)
  | showIndexes
  | select (columns : SelectColumns) (table : CStr)
  | selectWhere (columns : SelectColumns) (table : CStr) (conditions : WhereConditions)
  | insert (table : CStr) (values : CommaList ColumnValue)
  | delete (table : CStr)
  | deleteWhere (table : CStr) (conditions : WhereConditions)
  | update (table : CStr) (values : CommaList UpdateValue)
  | updateWhere (table : CStr) (values : CommaList UpdateValue) (conditions : WhereConditions)
  | trxBegin
  | trxCommit
  | trxRollback
  | quit
  | execFile (file : QuotedText)

namespace Sql

def tokens : Sql → List (Token QuotedText)
  | createDatabase name => [.CREATE, .DATABASE, .IDENTIFIER name]
  | dropDatabase name => [.DROP, .DATABASE, .IDENTIFIER name]
  | showDatabases => [.SHOW, .DATABASES]
  | useDatabase name => [.USE, .IDENTIFIER name]
  | showTables => [.SHOW, .TABLES]
  | createTable name definitions =>
    [.CREATE, .TABLE, .IDENTIFIER name, .lit '('] ++ definitions.tokens ++ [.lit ')']
  | dropTable name => [.DROP, .TABLE, .IDENTIFIER name]
  | createIndex name table columns =>
    [.CREATE, .INDEX, .IDENTIFIER name, .ON, .IDENTIFIER table, .lit '('] ++
      ColumnList.tokens columns ++ [.lit ')']
  | createIndexUsing name table columns type =>
    [.CREATE, .INDEX, .IDENTIFIER name, .ON, .IDENTIFIER table, .lit '('] ++
      ColumnList.tokens columns ++ [.lit ')', .USING, .IDENTIFIER type]
  | dropIndex name => [.DROP, .INDEX, .IDENTIFIER name]
  | showIndexes => [.SHOW, .INDEXES]
  | select columns table => .SELECT :: columns.tokens ++ [.FROM, .IDENTIFIER table]
  | selectWhere columns table conditions =>
    .SELECT :: columns.tokens ++ [.FROM, .IDENTIFIER table, .WHERE] ++ conditions.tokens
  | insert table values =>
    [.INSERT, .INTO, .IDENTIFIER table, .VALUES, .lit '('] ++
      values.tokens ColumnValue.tokens ++ [.lit ')']
  | delete table => [.DELETE, .FROM, .IDENTIFIER table]
  | deleteWhere table conditions =>
    [.DELETE, .FROM, .IDENTIFIER table, .WHERE] ++ conditions.tokens
  | update table values =>
    [.UPDATE, .IDENTIFIER table, .SET] ++ values.tokens UpdateValue.tokens
  | updateWhere table values conditions =>
    [.UPDATE, .IDENTIFIER table, .SET] ++ values.tokens UpdateValue.tokens ++
      .WHERE :: conditions.tokens
  | trxBegin => [.TRXBEGIN]
  | trxCommit => [.TRXCOMMIT]
  | trxRollback => [.TRXROLLBACK]
  | quit => [.QUIT]
  | execFile file => [.EXECFILE, .STRING file]

/-- The action of the productions with one value: a node over it. -/
def wrap (type : SyntaxNodeType) (token : StateM Heap Nat) : StateM Heap Nat := do
  let child ← token
  let node ← createSyntaxNode type none
  syntaxNodeAddChildren node child
  return node

def act : Sql → StateM Heap Nat
  | createDatabase name => wrap .kNodeCreateDB (identifier name)
  | dropDatabase name => wrap .kNodeDropDB (identifier name)
  | showDatabases => createSyntaxNode .kNodeShowDB none
  | useDatabase name => wrap .kNodeUseDB (identifier name)
  | showTables => createSyntaxNode .kNodeShowTables none
  | createTable name definitions => do
    let name ← identifier name
    let definitions ← definitions.act
    let node ← createSyntaxNode .kNodeCreateTable none
    let listNode ← createSyntaxNode .kNodeColumnDefinitionList none
    syntaxNodeAddChildren listNode definitions
    syntaxNodeAddChildren node name
    syntaxNodeAddChildren node listNode
    return node
  | dropTable name => wrap .kNodeDropTable (identifier name)
  | createIndex name table columns => do
    let name ← identifier name
    let table ← identifier table
    let columns ← ColumnList.act columns
    let node ← createSyntaxNode .kNodeCreateIndex none
    syntaxNodeAddChildren node name
    syntaxNodeAddChildren node table
    let indexKeysNode ← createSyntaxNode .kNodeColumnList (some (literal "index keys"))
    syntaxNodeAddChildren indexKeysNode columns
    syntaxNodeAddChildren node indexKeysNode
    return node
  | createIndexUsing name table columns type => do
    let name ← identifier name
    let table ← identifier table
    let columns ← ColumnList.act columns
    let type ← identifier type
    let node ← createSyntaxNode .kNodeCreateIndex none
    syntaxNodeAddChildren node name
    syntaxNodeAddChildren node table
    let indexKeysNode ← createSyntaxNode .kNodeColumnList (some (literal "index keys"))
    syntaxNodeAddChildren indexKeysNode columns
    syntaxNodeAddChildren node indexKeysNode
    let indexTypeNode ← createSyntaxNode .kNodeIndexType (some (literal "index type"))
    syntaxNodeAddChildren indexTypeNode type
    syntaxNodeAddChildren node indexTypeNode
    return node
  | dropIndex name => wrap .kNodeDropIndex (identifier name)
  | showIndexes => createSyntaxNode .kNodeShowIndexes none
  | select columns table => do
    let columns ← columns.act
    let table ← identifier table
    let node ← createSyntaxNode .kNodeSelect none
    syntaxNodeAddChildren node columns
    syntaxNodeAddChildren node table
    return node
  | selectWhere columns table conditions => do
    let columns ← columns.act
    let table ← identifier table
    let conditions ← conditions.act
    let node ← createSyntaxNode .kNodeSelect none
    syntaxNodeAddChildren node columns
    syntaxNodeAddChildren node table
    let conditionNode ← createSyntaxNode .kNodeConditions none
    syntaxNodeAddChildren conditionNode conditions
    syntaxNodeAddChildren node conditionNode
    return node
  | insert table values => do
    let table ← identifier table
    let values ← values.act ColumnValue.act
    let node ← createSyntaxNode .kNodeInsert none
    syntaxNodeAddChildren node table
    let colValNode ← createSyntaxNode .kNodeColumnValues none
    syntaxNodeAddChildren colValNode values
    syntaxNodeAddChildren node colValNode
    return node
  | delete table => wrap .kNodeDelete (identifier table)
  | deleteWhere table conditions => do
    let table ← identifier table
    let conditions ← conditions.act
    let node ← createSyntaxNode .kNodeDelete none
    syntaxNodeAddChildren node table
    let conditionNode ← createSyntaxNode .kNodeConditions none
    syntaxNodeAddChildren conditionNode conditions
    syntaxNodeAddChildren node conditionNode
    return node
  | update table values => do
    let table ← identifier table
    let values ← values.act UpdateValue.act
    let node ← createSyntaxNode .kNodeUpdate none
    syntaxNodeAddChildren node table
    let updValuesNode ← createSyntaxNode .kNodeUpdateValues none
    syntaxNodeAddChildren updValuesNode values
    syntaxNodeAddChildren node updValuesNode
    return node
  | updateWhere table values conditions => do
    let table ← identifier table
    let values ← values.act UpdateValue.act
    let conditions ← conditions.act
    let node ← createSyntaxNode .kNodeUpdate none
    syntaxNodeAddChildren node table
    -- update values
    let updValuesNode ← createSyntaxNode .kNodeUpdateValues none
    syntaxNodeAddChildren updValuesNode values
    syntaxNodeAddChildren node updValuesNode
    -- where conditions
    let conditionNode ← createSyntaxNode .kNodeConditions none
    syntaxNodeAddChildren conditionNode conditions
    syntaxNodeAddChildren node conditionNode
    return node
  | trxBegin => createSyntaxNode .kNodeTrxBegin none
  | trxCommit => createSyntaxNode .kNodeTrxCommit none
  | trxRollback => createSyntaxNode .kNodeTrxRollback none
  | quit => createSyntaxNode .kNodeQuit none
  | execFile file => wrap .kNodeExecFile (string file)

end Sql

/-! ## The start symbol -/

/-- The word of `start: sql ';'`. -/
def startTokens (sql : Sql) : List (Token QuotedText) :=
  sql.tokens ++ [.lit ';']

/-- The action of `start`: the value of `sql` becomes the root (`MinisqlParserSetRoot`). -/
def start (sql : Sql) : StateM Heap Nat :=
  sql.act

end Parser
end MiniSQL
