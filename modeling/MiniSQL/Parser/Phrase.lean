import MiniSQL.Parser.Reading
import MiniSQL.Parser.YaccItems

/-!
# Phrase — what the symbols of the parser stand for

`parser/minisql_yacc.h` numbers the tokens.  A symbol on the stack of the parser stands for a token
or for a part of a statement (`Phrase`), and a rule makes one of those of its right-hand side
(`Phrase.node`).
-/

namespace MiniSQL
namespace Parser

open Lib.LR

/-! ## Tokens -/

/-- The tokens that the lexer returns; a character stands for itself. -/
def Token.Lexed {Text : Type} : Token Text → Prop
  | lit c => c ∈ [',', '*', ';', '\'', '<', '>', '(', ')']
  | _ => True

theorem Token.lexed_comma {Text : Type} : (Token.lit ',' : Token Text).Lexed := by
  simp [Token.Lexed]

theorem Token.lexed_semicolon {Text : Type} : (Token.lit ';' : Token Text).Lexed := by
  simp [Token.Lexed]

theorem Token.lexed_open {Text : Type} : (Token.lit '(' : Token Text).Lexed := by
  simp [Token.Lexed]

theorem Token.lexed_close {Text : Type} : (Token.lit ')' : Token Text).Lexed := by
  simp [Token.Lexed]

/-- `enum yytokentype`. -/
def Token.yytokentype {Text : Type} : Token Text → Nat
  | CREATE => 258
  | DROP => 259
  | SELECT => 260
  | INSERT => 261
  | DELETE => 262
  | UPDATE => 263
  | TRXBEGIN => 264
  | TRXCOMMIT => 265
  | TRXROLLBACK => 266
  | QUIT => 267
  | EXECFILE => 268
  | SHOW => 269
  | USE => 270
  | USING => 271
  | DATABASE => 272
  | DATABASES => 273
  | TABLE => 274
  | TABLES => 275
  | INDEX => 276
  | INDEXES => 277
  | ON => 278
  | FROM => 279
  | WHERE => 280
  | INTO => 281
  | SET => 282
  | VALUES => 283
  | PRIMARY => 284
  | KEY => 285
  | UNIQUE => 286
  | CHAR => 287
  | INT => 288
  | FLOAT => 289
  | AND => 290
  | OR => 291
  | NOT => 292
  | IS => 293
  | FLAGNULL => 294
  | IDENTIFIER _ => 295
  | STRING _ => 296
  | NUMBER _ => 297
  | EQ => 298
  | NE => 299
  | LE => 300
  | GE => 301
  | lit c => c.toNat

/-- A token with the characters in front of it that no pattern of the lexer matches. -/
structure Lexeme where
  invalid : List UInt8
  token : Token QuotedText
  lexed : token.Lexed

/-- The symbol of the tables for a token. -/
def Token.terminal (token : Token QuotedText) : Terminal :=
  Parser.terminal (YYTRANSLATE token.yytokentype)

/-! ## Phrases -/

inductive Phrase
  | token (token : Token QuotedText)
  | columns (columns : ColumnList)
  | definitions (definitions : ColumnDefinitionList)
  | definition (definition : ColumnDefinition)
  | type (type : ColumnType)
  | selection (columns : SelectColumns)
  | conditions (conditions : WhereConditions)
  | connector (connector : Connector)
  | condition (condition : WhereCondition)
  | value (value : ColumnValue)
  | operator (operator : Operator)
  | values (values : CommaList ColumnValue)
  | assignments (values : CommaList UpdateValue)
  | assignment (assignment : UpdateValue)
  | sql (sql : Sql)
  | start (sql : Sql)
  | undefined

namespace Phrase

def tokens : Phrase → List (Token QuotedText)
  | token t => [t]
  | columns cs => ColumnList.tokens cs
  | definitions ds => ds.tokens
  | definition d => d.tokens
  | type t => t.tokens
  | selection cs => cs.tokens
  | conditions ws => ws.tokens
  | connector c => [c.token]
  | condition w => w.tokens
  | value v => v.tokens
  | operator op => [op.token]
  | values vs => vs.tokens ColumnValue.tokens
  | assignments vs => vs.tokens UpdateValue.tokens
  | assignment a => a.tokens
  | sql s => s.tokens
  | start s => startTokens s
  | undefined => []

/-- The tree that the value of a symbol points to. -/
def tree : Phrase → Option SyntaxNode
  | token (.IDENTIFIER text) => some (identifierTree text)
  | token (.STRING text) => some (stringTree text)
  | token (.NUMBER text) => some (numberTree text)
  | token _ => none
  | columns cs => some (cs.tree identifierTree)
  | definitions ds => some ds.tree
  | definition d => some d.tree
  | type t => some t.tree
  | selection cs => some cs.tree
  | conditions ws => some ws.tree
  | connector c => some (branch .kNodeConnector (some c.text) .nullptr)
  | condition w => some w.tree
  | value v => some v.tree
  | operator op => some (branch .kNodeCompareOperator (some op.text) .nullptr)
  | values vs => some (vs.tree ColumnValue.tree)
  | assignments vs => some (vs.tree UpdateValue.tree)
  | assignment a => some a.tree
  | sql s => some s.tree
  | start s => some s.tree
  | undefined => none

/-- The phrase of a rule for those of its right-hand side. -/
def node : Nat → List Phrase → Phrase
  | 2, [sql s, _] => start s
  | 22, [_, _, token (.IDENTIFIER name)] => sql (.createDatabase name)
  | 23, [_, _, token (.IDENTIFIER name)] => sql (.dropDatabase name)
  | 24, [_, _] => sql .showDatabases
  | 25, [_, token (.IDENTIFIER name)] => sql (.useDatabase name)
  | 26, [_, _] => sql .showTables
  | 27, [_, _, token (.IDENTIFIER name), _, definitions ds, _] => sql (.createTable name ds)
  | 28, [token (.IDENTIFIER name), _, columns rest] => columns (.cons name rest)
  | 29, [token (.IDENTIFIER name)] => columns (.one name)
  | 30, [definition d, _, definitions rest] => definitions (.cons d rest)
  | 31, [definition d] => definitions (.one d)
  | 32, [_, _, _, columns cs, _] => definitions (.primaryKey cs)
  | 33, [token (.IDENTIFIER name), type t, _] => definition (.unique name t)
  | 34, [token (.IDENTIFIER name), type t] => definition (.plain name t)
  | 35, [_] => type .int
  | 36, [_] => type .float
  | 37, [_, _, token (.NUMBER length), _] => type (.char length)
  | 38, [_, _, token (.IDENTIFIER name)] => sql (.dropTable name)
  | 39, [_, _, token (.IDENTIFIER name), _, token (.IDENTIFIER table), _, columns cs, _] =>
    sql (.createIndex name table cs)
  | 40, [_, _, token (.IDENTIFIER name), _, token (.IDENTIFIER table), _, columns cs, _, _,
      token (.IDENTIFIER method)] =>
    sql (.createIndexUsing name table cs method)
  | 41, [_, _, token (.IDENTIFIER name)] => sql (.dropIndex name)
  | 42, [_, _] => sql .showIndexes
  | 43, [_, selection cs, _, token (.IDENTIFIER table)] => sql (.select cs table)
  | 44, [_, selection cs, _, token (.IDENTIFIER table), _, conditions ws] =>
    sql (.selectWhere cs table ws)
  | 45, [_] => selection .all
  | 46, [columns cs] => selection (.list cs)
  | 47, [conditions ws, connector c, condition w] => conditions (.connect ws c w)
  | 48, [condition w] => conditions (.one w)
  | 49, [_] => connector .and
  | 50, [_] => connector .or
  | 51, [token (.IDENTIFIER column), operator op, value v] => condition ⟨column, op, v⟩
  | 52, [token (.STRING text)] => value (.string text)
  | 53, [token (.NUMBER text)] => value (.number text)
  | 54, [_] => value .flagNull
  | 55, [_] => operator .eq
  | 56, [_] => operator .ne
  | 57, [_] => operator .le
  | 58, [_] => operator .ge
  | 59, [_] => operator .lt
  | 60, [_] => operator .gt
  | 61, [_] => operator .is
  | 62, [_] => operator .not
  | 63, [_, _, token (.IDENTIFIER table), _, _, values vs, _] => sql (.insert table vs)
  | 64, [value v, _, values rest] => values (.cons v rest)
  | 65, [value v] => values (.one v)
  | 66, [_, _, token (.IDENTIFIER table)] => sql (.delete table)
  | 67, [_, _, token (.IDENTIFIER table), _, conditions ws] => sql (.deleteWhere table ws)
  | 68, [_, token (.IDENTIFIER table), _, assignments vs] => sql (.update table vs)
  | 69, [_, token (.IDENTIFIER table), _, assignments vs, _, conditions ws] =>
    sql (.updateWhere table vs ws)
  | 70, [assignment a, _, assignments rest] => assignments (.cons a rest)
  | 71, [assignment a] => assignments (.one a)
  | 72, [token (.IDENTIFIER column), _, value v] => assignment ⟨column, v⟩
  | 73, [_] => sql .trxBegin
  | 74, [_] => sql .trxCommit
  | 75, [_] => sql .trxRollback
  | 76, [_] => sql .quit
  | 77, [_, token (.STRING file)] => sql (.execFile file)
  | n, [sql s] => if 3 ≤ n ∧ n ≤ 21 then sql s else undefined
  | _, _ => undefined

end Phrase

/-! ## Symbols and phrases -/

/-- The phrases a symbol stands for, with the symbols numbered as in `yyrhs`. -/
def Stands : Nat → Phrase → Prop
  | 2, v => v = .token (.lit '\'')
  | 3, v => v = .token .CREATE
  | 4, v => v = .token .DROP
  | 5, v => v = .token .SELECT
  | 6, v => v = .token .INSERT
  | 7, v => v = .token .DELETE
  | 8, v => v = .token .UPDATE
  | 9, v => v = .token .TRXBEGIN
  | 10, v => v = .token .TRXCOMMIT
  | 11, v => v = .token .TRXROLLBACK
  | 12, v => v = .token .QUIT
  | 13, v => v = .token .EXECFILE
  | 14, v => v = .token .SHOW
  | 15, v => v = .token .USE
  | 16, v => v = .token .USING
  | 17, v => v = .token .DATABASE
  | 18, v => v = .token .DATABASES
  | 19, v => v = .token .TABLE
  | 20, v => v = .token .TABLES
  | 21, v => v = .token .INDEX
  | 22, v => v = .token .INDEXES
  | 23, v => v = .token .ON
  | 24, v => v = .token .FROM
  | 25, v => v = .token .WHERE
  | 26, v => v = .token .INTO
  | 27, v => v = .token .SET
  | 28, v => v = .token .VALUES
  | 29, v => v = .token .PRIMARY
  | 30, v => v = .token .KEY
  | 31, v => v = .token .UNIQUE
  | 32, v => v = .token .CHAR
  | 33, v => v = .token .INT
  | 34, v => v = .token .FLOAT
  | 35, v => v = .token .AND
  | 36, v => v = .token .OR
  | 37, v => v = .token .NOT
  | 38, v => v = .token .IS
  | 39, v => v = .token .FLAGNULL
  | 40, v => ∃ text, v = .token (.IDENTIFIER text)
  | 41, v => ∃ text, v = .token (.STRING text)
  | 42, v => ∃ text, v = .token (.NUMBER text)
  | 43, v => v = .token .EQ
  | 44, v => v = .token .NE
  | 45, v => v = .token .LE
  | 46, v => v = .token .GE
  | 47, v => v = .token (.lit ';')
  | 48, v => v = .token (.lit '(')
  | 49, v => v = .token (.lit ')')
  | 50, v => v = .token (.lit ',')
  | 51, v => v = .token (.lit '*')
  | 52, v => v = .token (.lit '<')
  | 53, v => v = .token (.lit '>')
  | 55, v => ∃ s, v = .start s
  | 63, v => ∃ cs, v = .columns cs
  | 64, v => ∃ ds, v = .definitions ds
  | 65, v => ∃ d, v = .definition d
  | 66, v => ∃ t, v = .type t
  | 72, v => ∃ cs, v = .selection cs
  | 73, v => ∃ ws, v = .conditions ws
  | 74, v => ∃ c, v = .connector c
  | 75, v => ∃ w, v = .condition w
  | 76, v => ∃ x, v = .value x
  | 77, v => ∃ op, v = .operator op
  | 79, v => ∃ xs, v = .values xs
  | 82, v => ∃ xs, v = .assignments xs
  | 83, v => ∃ a, v = .assignment a
  | n, v => YYNTOKENS < n ∧ ∃ s, v = .sql s

/-- The number of a symbol in `yyrhs`. -/
def symbolNumber : GrammarSymbol Terminal Nonterminal → Nat
  | .terminal t => t.val + 1
  | .nonterminal B => B.val + YYNTOKENS

theorem symbol_symbolNumber (X : GrammarSymbol Terminal Nonterminal) :
    symbol (symbolNumber X) = X := by
  cases X with
  | terminal t =>
      have ht := t.isLt
      rw [symbolNumber, symbol, if_pos (by rw [YYNTOKENS]; omega), terminal, Nat.add_sub_cancel]
      exact congrArg GrammarSymbol.terminal (Fin.ofNat_val_eq_self t)
  | nonterminal B =>
      rw [symbolNumber, symbol, if_neg (by omega), nonterminal, Nat.add_sub_cancel]
      exact congrArg GrammarSymbol.nonterminal (Fin.ofNat_val_eq_self B)

theorem stands_token (token : Token QuotedText) (hlexed : token.Lexed) :
    Stands (symbolNumber (.terminal token.terminal)) (.token token) := by
  cases token with
  | IDENTIFIER text =>
      exact ⟨text, rfl⟩
  | STRING text =>
      exact ⟨text, rfl⟩
  | NUMBER text =>
      exact ⟨text, rfl⟩
  | lit c =>
      simp only [Token.Lexed, List.mem_cons, List.not_mem_nil, or_false] at hlexed
      rcases hlexed with rfl | rfl | rfl | rfl | rfl | rfl | rfl | rfl
      all_goals rfl
  | _ =>
      rfl

/-- The symbol that stands for a token is its terminal. -/
theorem stands_terminal {n : Nat} {token : Token QuotedText}
    (h : Stands n (.token token)) :
    symbol n = .terminal token.terminal := by
  unfold Stands at h
  split at h
  all_goals first
    | cases h; rfl
    | obtain ⟨_, h⟩ := h; cases h; rfl
    | obtain ⟨_, h⟩ := h; cases h; done
    | obtain ⟨_, _, h⟩ := h; cases h

end Parser
end MiniSQL
