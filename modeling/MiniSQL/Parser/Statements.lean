import MiniSQL.Parser.Yacc

/-!
# Statements — what the parser accepts

Every statement of the grammar has a derivation, and `depth` says how much of the stack it takes:
the lists of a statement are derived to the right, so their items stay on the stack until the last
one is read.  `yyparse` accepts the statements that fit and nothing else.
-/

namespace MiniSQL
namespace Parser

open Lib.LR

/-! ## Depth -/

def CommaList.depth {α : Type} (itemDepth : α → Nat) : CommaList α → Nat
  | one item => itemDepth item
  | cons item rest => max (itemDepth item) (rest.depth itemDepth + 2)

def ColumnType.depth : ColumnType → Nat
  | int => 1
  | float => 1
  | char _ => 4

def ColumnDefinition.depth : ColumnDefinition → Nat
  | unique _ type => 1 + max type.depth 2
  | plain _ type => 1 + type.depth

def ColumnDefinitionList.depth : ColumnDefinitionList → Nat
  | cons definition rest => max definition.depth (rest.depth + 2)
  | one definition => definition.depth
  | primaryKey columns => 3 + max (CommaList.depth (fun _ => 1) columns) 2

def WhereConditions.depth : WhereConditions → Nat
  | one _ => 3
  | connect conditions _ _ => max conditions.depth 5

def SelectColumns.depth : SelectColumns → Nat
  | all => 1
  | list columns => CommaList.depth (fun _ => 1) columns

/-- How many symbols a statement takes on the stack at most. -/
def Sql.depth : Sql → Nat
  | createDatabase _ => 3
  | dropDatabase _ => 3
  | showDatabases => 2
  | useDatabase _ => 2
  | showTables => 2
  | createTable _ definitions => 4 + max definitions.depth 2
  | dropTable _ => 3
  | createIndex _ _ columns => 6 + max (CommaList.depth (fun _ => 1) columns) 2
  | createIndexUsing _ _ columns _ => 6 + max (CommaList.depth (fun _ => 1) columns) 4
  | dropIndex _ => 3
  | showIndexes => 2
  | select columns _ => 1 + max columns.depth 3
  | selectWhere columns _ conditions => 1 + max columns.depth (4 + conditions.depth)
  | insert _ values => 5 + max (values.depth fun _ => 1) 2
  | delete _ => 3
  | deleteWhere _ conditions => 4 + conditions.depth
  | update _ values => 3 + values.depth fun _ => 3
  | updateWhere _ values conditions => 3 + max (values.depth fun _ => 3) (2 + conditions.depth)
  | trxBegin => 1
  | trxCommit => 1
  | trxRollback => 1
  | quit => 1
  | execFile _ => 2

/-! ## Derivations of phrases

The symbols are numbered as in `yyrhs`, so that the lists of the rules apply. -/

/-- The symbols derive the tokens of the phrases. -/
structure Yields (ns : List Nat) (vs : List Phrase) (d : Nat) : Prop where
  stands : List.Forall₂ Stands ns vs
  derives : ∀ w : List Lexeme, w.map Lexeme.token = vs.flatMap Phrase.tokens →
    Derives grammar phrases (ns.map symbol) vs w d

variable {ns : List Nat} {vs : List Phrase} {v : Phrase} {d e n B : Nat}

theorem Yields.nil : Yields [] [] 0 := by
  refine ⟨.nil, fun w hw => ?_⟩
  obtain rfl := List.map_eq_nil_iff.mp hw
  exact .nil

theorem Yields.token {token : Token QuotedText} (hstands : Stands n (.token token))
    (h : Yields ns vs d) : Yields (n :: ns) (.token token :: vs) (d + 1) := by
  refine ⟨.cons hstands h.stands, fun w hw => ?_⟩
  obtain ⟨x, w, rfl, rfl, hrest⟩ := List.map_eq_cons_iff.mp hw
  rw [List.map_cons, stands_terminal hstands]
  exact (h.derives w hrest).leaf x

/-- A token that stands alone for its symbol. -/
theorem Yields.word (token : Token QuotedText) (hstands : Stands n (.token token))
    (h : Yields ns vs d) : Yields (n :: ns) (.token token :: vs) (d + 1) :=
  .token hstands h

theorem Yields.identifier (name : CStr) (h : Yields ns vs d) :
    Yields (40 :: ns) (.token (.IDENTIFIER name) :: vs) (d + 1) :=
  .token ⟨name, rfl⟩ h

theorem Yields.string (text : QuotedText) (h : Yields ns vs d) :
    Yields (41 :: ns) (.token (.STRING text) :: vs) (d + 1) :=
  .token ⟨text, rfl⟩ h

theorem Yields.number (text : CStr) (h : Yields ns vs d) :
    Yields (42 :: ns) (.token (.NUMBER text) :: vs) (d + 1) :=
  .token ⟨text, rfl⟩ h

theorem Yields.cons (hv : Yields [B] [v] e) (h : Yields ns vs d) :
    Yields (B :: ns) (v :: vs) (max e (d + 1)) := by
  refine ⟨?_, fun w hw => ?_⟩
  · rcases hv.stands with _ | ⟨hstands, _⟩
    exact .cons hstands h.stands
  · obtain ⟨u, w', rfl, hu, hw'⟩ := List.map_eq_append_iff.mp hw
    have hd := hv.derives u (by rw [hu, List.flatMap_singleton])
    rw [List.map_singleton] at hd
    rw [List.map_cons]
    generalize symbol B = Y at hd ⊢
    cases hd with
    | leaf x hnil =>
        cases hnil
        rw [Nat.zero_add, Nat.max_eq_right (Nat.le_add_left 1 d)]
        exact (h.derives w' hw').leaf x
    | @node _ _ _ u _ e' _ r hr hnil =>
        cases hnil
        have hcons := hr.node r (h.derives w' hw')
        rw [List.append_nil]
        rwa [show max (max e' (0 + 1)) (d + 1) = max e' (d + 1) by omega]

theorem Yields.congr (h : Yields ns vs d) (heq : d = e) : Yields ns vs e :=
  heq ▸ h

/-- A symbol at the end. -/
theorem Yields.last (h : Yields [B] [v] e) : Yields [B] [v] (max e 1) :=
  h.cons .nil

/-- A rule makes a phrase for its left-hand side of phrases for its right-hand side. -/
def Reduces : Nat × Nat × List Nat → Prop
  | (n, B, ns) => ∀ {vs : List Phrase} {d : Nat}, Yields ns vs d →
    Yields [B] [.node n vs] (max d 1)

theorem rule_reduces (r : Rule) :
    Reduces (r.number, symbolNumber (.nonterminal (grammar.lhs r)),
      (grammar.rhs r).map symbolNumber) := by
  intro vs d h
  obtain ⟨hnode, htokens, _⟩ := rule_handled r _ h.stands
  refine ⟨.cons hnode .nil, fun w hw => ?_⟩
  rw [List.flatMap_singleton, htokens] at hw
  have hrhs : ((grammar.rhs r).map symbolNumber).map symbol = grammar.rhs r := by
    rw [List.map_map]
    exact (List.map_congr_left fun X _ => symbol_symbolNumber X).trans (List.map_id _)
  have hd := h.derives w hw
  rw [hrhs] at hd
  have hlhs := hd.node r .nil
  rw [List.append_nil] at hlhs
  rw [List.map_singleton, symbol_symbolNumber]
  exact hlhs

theorem rules_reduce :
    (((statementRules.Forall Reduces ∧ listRules.Forall Reduces) ∧ columnRules.Forall Reduces) ∧
      conditionRules.Forall Reduces) ∧ sqlRules.Forall Reduces := by
  simp only [← List.forall_append]
  refine List.forall_iff_forall_mem.mpr fun e he => ?_
  rw [rules_mem e he]
  exact rule_reduces _

theorem statementRules_reduce : statementRules.Forall Reduces :=
  rules_reduce.1.1.1.1

theorem listRules_reduce : listRules.Forall Reduces :=
  rules_reduce.1.1.1.2

theorem columnRules_reduce : columnRules.Forall Reduces :=
  rules_reduce.1.1.2

theorem conditionRules_reduce : conditionRules.Forall Reduces :=
  rules_reduce.1.2

theorem sqlRules_reduce : sqlRules.Forall Reduces :=
  rules_reduce.2

/-! ### Lists and columns -/

theorem CommaList.depth_pos {α : Type} {itemDepth : α → Nat} (hpos : ∀ item, 1 ≤ itemDepth item)
    (items : CommaList α) : 1 ≤ items.depth itemDepth := by
  cases items with
  | one item =>
      exact hpos item
  | cons item rest =>
      rw [depth]
      omega

/-- A list, from the rules for its first item and for its last one. -/
theorem yields_list {α : Type} {itemDepth : α → Nat} {phrase : CommaList α → Phrase}
    (hpos : ∀ item, 1 ≤ itemDepth item)
    (hone : ∀ item, Yields [B] [phrase (.one item)] (itemDepth item))
    (hcons : ∀ item rest d, 1 ≤ d → Yields [B] [phrase rest] d →
      Yields [B] [phrase (.cons item rest)] (max (itemDepth item) (d + 2)))
    (items : CommaList α) : Yields [B] [phrase items] (items.depth itemDepth) := by
  induction items with
  | one item =>
      exact hone item
  | cons item rest ih =>
      exact hcons item rest _ (rest.depth_pos hpos) ih

theorem yields_columns (columns : ColumnList) :
    Yields [63] [.columns columns] (CommaList.depth (fun _ => 1) columns) := by
  obtain ⟨hcons, hone, -⟩ := listRules_reduce
  refine yields_list (fun _ => le_refl 1) (fun name => ?_) (fun name rest d hd hrest => ?_) columns
  · exact hone (.identifier name .nil)
  · exact (hcons (.identifier name (.word (.lit ',') rfl hrest.last))).congr (by omega)

theorem yields_type (type : ColumnType) :
    Yields [66] [.type type] type.depth := by
  obtain ⟨-, -, hint, hfloat, hchar, -⟩ := columnRules_reduce
  cases type with
  | int =>
      exact hint (.word .INT rfl .nil)
  | float =>
      exact hfloat (.word .FLOAT rfl .nil)
  | char length =>
      exact hchar (.word .CHAR rfl (.word (.lit '(') rfl
        (.number length (.word (.lit ')') rfl .nil))))

theorem ColumnType.depth_pos (type : ColumnType) : 1 ≤ type.depth := by
  cases type with
  | char _ =>
      rw [depth]
      omega
  | _ =>
      exact le_refl 1

theorem yields_definition (definition : ColumnDefinition) :
    Yields [65] [.definition definition] definition.depth := by
  obtain ⟨hunique, hplain, -⟩ := columnRules_reduce
  cases definition with
  | unique name type =>
      exact (hunique (.identifier name
        ((yields_type type).cons (.word .UNIQUE rfl .nil)))).congr (by
          rw [ColumnDefinition.depth]; omega)
  | plain name type =>
      have hpos := type.depth_pos
      exact (hplain (.identifier name (yields_type type).last)).congr (by
        rw [ColumnDefinition.depth]; omega)

theorem ColumnDefinition.depth_pos (definition : ColumnDefinition) : 1 ≤ definition.depth := by
  cases definition with
  | unique name type =>
      rw [depth]
      omega
  | plain name type =>
      rw [depth]
      omega

theorem ColumnDefinitionList.depth_pos (definitions : ColumnDefinitionList) :
    1 ≤ definitions.depth := by
  cases definitions with
  | cons definition rest =>
      rw [depth]
      omega
  | one definition =>
      exact definition.depth_pos
  | primaryKey columns =>
      rw [depth]
      omega

theorem yields_definitions (definitions : ColumnDefinitionList) :
    Yields [64] [.definitions definitions] definitions.depth := by
  obtain ⟨-, -, hcons, hone, hprimary, -⟩ := listRules_reduce
  induction definitions with
  | cons definition rest ih =>
      have hpos := rest.depth_pos
      have hpos' := definition.depth_pos
      exact (hcons ((yields_definition definition).cons (.word (.lit ',') rfl ih.last))).congr (by
        rw [ColumnDefinitionList.depth]; omega)
  | one definition =>
      have hpos := definition.depth_pos
      exact (hone (yields_definition definition).last).congr (by
        rw [ColumnDefinitionList.depth]; omega)
  | primaryKey columns =>
      exact (hprimary (.word .PRIMARY rfl (.word .KEY rfl (.word (.lit '(') rfl
        ((yields_columns columns).cons (.word (.lit ')') rfl .nil)))))).congr (by
          rw [ColumnDefinitionList.depth]; omega)

theorem yields_selection (columns : SelectColumns) :
    Yields [72] [.selection columns] columns.depth := by
  obtain ⟨-, -, -, -, -, hall, hlist⟩ := columnRules_reduce
  cases columns with
  | all =>
      exact hall (.word (.lit '*') rfl .nil)
  | list columns =>
      have hpos : 1 ≤ CommaList.depth (fun _ => 1) columns :=
        columns.depth_pos fun _ => le_refl 1
      exact (hlist (yields_columns columns).last).congr (by
        rw [SelectColumns.depth]; omega)

/-! ### Conditions and values -/

theorem yields_value (value : ColumnValue) : Yields [76] [.value value] 1 := by
  obtain ⟨-, -, -, -, -, hstring, hnumber, hnull, -⟩ := conditionRules_reduce
  cases value with
  | string text =>
      exact hstring (.string text .nil)
  | number text =>
      exact hnumber (.number text .nil)
  | flagNull =>
      exact hnull (.word .FLAGNULL rfl .nil)

theorem yields_operator (operator : Operator) :
    Yields [77] [.operator operator] 1 := by
  obtain ⟨-, -, -, -, -, -, -, -, heq, hne, hle, hge, hlt, hgt, his, hnot, -⟩ :=
    conditionRules_reduce
  cases operator with
  | eq =>
      exact heq (.word .EQ rfl .nil)
  | ne =>
      exact hne (.word .NE rfl .nil)
  | le =>
      exact hle (.word .LE rfl .nil)
  | ge =>
      exact hge (.word .GE rfl .nil)
  | lt =>
      exact hlt (.word (.lit '<') rfl .nil)
  | gt =>
      exact hgt (.word (.lit '>') rfl .nil)
  | is =>
      exact his (.word .IS rfl .nil)
  | not =>
      exact hnot (.word .NOT rfl .nil)

theorem yields_connector (connector : Connector) :
    Yields [74] [.connector connector] 1 := by
  obtain ⟨-, -, hand, hor, -⟩ := conditionRules_reduce
  cases connector with
  | and =>
      exact hand (.word .AND rfl .nil)
  | or =>
      exact hor (.word .OR rfl .nil)

theorem yields_condition (condition : WhereCondition) :
    Yields [75] [.condition condition] 3 := by
  obtain ⟨-, -, -, -, hcondition, -⟩ := conditionRules_reduce
  exact hcondition (.identifier condition.column
    ((yields_operator condition.operator).cons (yields_value condition.value).last))

theorem yields_conditions (conditions : WhereConditions) :
    Yields [73] [.conditions conditions] conditions.depth := by
  obtain ⟨hconnect, hone, -⟩ := conditionRules_reduce
  induction conditions with
  | one condition =>
      exact hone (yields_condition condition).last
  | connect conditions connector condition ih =>
      exact (hconnect (ih.cons
        ((yields_connector connector).cons (yields_condition condition).last))).congr (by
          rw [WhereConditions.depth]; omega)

theorem yields_assignment (assignment : UpdateValue) :
    Yields [83] [.assignment assignment] 3 := by
  obtain ⟨-, -, -, -, -, -, -, -, -, -, -, -, -, -, -, -, hassignment⟩ := conditionRules_reduce
  exact hassignment (.identifier assignment.column
    (.word .EQ rfl (yields_value assignment.value).last))

theorem yields_values (values : CommaList ColumnValue) :
    Yields [79] [.values values] (values.depth fun _ => 1) := by
  obtain ⟨-, -, -, -, -, hcons, hone, -⟩ := listRules_reduce
  refine yields_list (fun _ => le_refl 1) (fun value => ?_) (fun value rest d hd hrest => ?_) values
  · exact hone (yields_value value).last
  · exact (hcons ((yields_value value).cons (.word (.lit ',') rfl hrest.last))).congr (by omega)

theorem yields_assignments (values : CommaList UpdateValue) :
    Yields [82] [.assignments values] (values.depth fun _ => 3) := by
  obtain ⟨-, -, -, -, -, -, -, hcons, hone⟩ := listRules_reduce
  refine yields_list (fun _ => by omega) (fun value => ?_) (fun value rest d hd hrest => ?_) values
  · exact hone (yields_assignment value).last
  · exact (hcons ((yields_assignment value).cons (.word (.lit ',') rfl hrest.last))).congr
      (by omega)

/-! ### Statements -/

theorem WhereConditions.depth_pos (conditions : WhereConditions) : 3 ≤ conditions.depth := by
  cases conditions with
  | one condition =>
      exact le_refl 3
  | connect conditions connector condition =>
      rw [depth]
      omega

/-- The rules of `sql` pass on what a rule for the kind of statement yields. -/
theorem yields_pass {sql : Sql} (hn : Phrase.node n [.sql sql] = .sql sql)
    (hpass : Reduces (n, 56, [B])) (h : Yields [B] [.sql sql] d)
    (hd : max d 1 = e) : Yields [56] [.sql sql] e := by
  rw [← hn]
  exact (hpass h.last).congr (by omega)

theorem yields_sql (sql : Sql) : Yields [56] [.sql sql] sql.depth := by
  obtain ⟨-, hcreateDatabase, hdropDatabase, hshowDatabases, huseDatabase, hshowTables,
    hcreateTable, hdropTable, hcreateIndex, hcreateIndexUsing, hdropIndex, hshowIndexes, hselect,
    hselectWhere, hinsert, hdelete, hdeleteWhere, hupdate, hupdateWhere, htrxBegin, htrxCommit,
    htrxRollback, hquit, hexecFile⟩ := statementRules_reduce
  obtain ⟨hcreateDatabase', hdropDatabase', hshowDatabases', huseDatabase', hshowTables',
    hcreateTable', hdropTable', hcreateIndex', hdropIndex', hshowIndexes', hselect', hinsert',
    hdelete', hupdate', htrxBegin', htrxCommit', htrxRollback', hquit', hexecFile'⟩ :=
    sqlRules_reduce
  cases sql with
  | createDatabase name =>
      have h := hcreateDatabase (.word .CREATE rfl (.word .DATABASE rfl (.identifier name .nil)))
      exact yields_pass rfl hcreateDatabase' h rfl
  | dropDatabase name =>
      have h := hdropDatabase (.word .DROP rfl (.word .DATABASE rfl (.identifier name .nil)))
      exact yields_pass rfl hdropDatabase' h rfl
  | showDatabases =>
      have h := hshowDatabases (.word .SHOW rfl (.word .DATABASES rfl .nil))
      exact yields_pass rfl hshowDatabases' h rfl
  | useDatabase name =>
      have h := huseDatabase (.word .USE rfl (.identifier name .nil))
      exact yields_pass rfl huseDatabase' h rfl
  | showTables =>
      have h := hshowTables (.word .SHOW rfl (.word .TABLES rfl .nil))
      exact yields_pass rfl hshowTables' h rfl
  | createTable name definitions =>
      have h := hcreateTable (.word .CREATE rfl (.word .TABLE rfl (.identifier name
        (.word (.lit '(') rfl
          ((yields_definitions definitions).cons (.word (.lit ')') rfl .nil))))))
      exact yields_pass rfl hcreateTable' h (by rw [Sql.depth]; omega)
  | dropTable name =>
      have h := hdropTable (.word .DROP rfl (.word .TABLE rfl (.identifier name .nil)))
      exact yields_pass rfl hdropTable' h rfl
  | createIndex name table columns =>
      have h := hcreateIndex (.word .CREATE rfl (.word .INDEX rfl (.identifier name (.word .ON rfl
        (.identifier table (.word (.lit '(') rfl
          ((yields_columns columns).cons (.word (.lit ')') rfl .nil))))))))
      exact yields_pass rfl hcreateIndex' h (by rw [Sql.depth]; omega)
  | createIndexUsing name table columns method =>
      have h := hcreateIndexUsing (.word .CREATE rfl (.word .INDEX rfl (.identifier name
        (.word .ON rfl (.identifier table (.word (.lit '(') rfl ((yields_columns columns).cons
          (.word (.lit ')') rfl (.word .USING rfl (.identifier method .nil))))))))))
      exact yields_pass rfl hcreateIndex' h (by rw [Sql.depth]; omega)
  | dropIndex name =>
      have h := hdropIndex (.word .DROP rfl (.word .INDEX rfl (.identifier name .nil)))
      exact yields_pass rfl hdropIndex' h rfl
  | showIndexes =>
      have h := hshowIndexes (.word .SHOW rfl (.word .INDEXES rfl .nil))
      exact yields_pass rfl hshowIndexes' h rfl
  | select columns table =>
      have h := hselect (.word .SELECT rfl ((yields_selection columns).cons
        (.word .FROM rfl (.identifier table .nil))))
      exact yields_pass rfl hselect' h (by rw [Sql.depth]; omega)
  | selectWhere columns table conditions =>
      have hpos := conditions.depth_pos
      have h := hselectWhere (.word .SELECT rfl ((yields_selection columns).cons (.word .FROM rfl
        (.identifier table (.word .WHERE rfl (yields_conditions conditions).last)))))
      exact yields_pass rfl hselect' h (by rw [Sql.depth]; omega)
  | insert table values =>
      have h := hinsert (.word .INSERT rfl (.word .INTO rfl (.identifier table
        (.word .VALUES rfl (.word (.lit '(') rfl
          ((yields_values values).cons (.word (.lit ')') rfl .nil)))))))
      exact yields_pass rfl hinsert' h (by rw [Sql.depth]; omega)
  | delete table =>
      have h := hdelete (.word .DELETE rfl (.word .FROM rfl (.identifier table .nil)))
      exact yields_pass rfl hdelete' h rfl
  | deleteWhere table conditions =>
      have hpos := conditions.depth_pos
      have h := hdeleteWhere (.word .DELETE rfl (.word .FROM rfl (.identifier table
        (.word .WHERE rfl (yields_conditions conditions).last))))
      exact yields_pass rfl hdelete' h (by rw [Sql.depth]; omega)
  | update table values =>
      have h := hupdate (.word .UPDATE rfl (.identifier table
        (.word .SET rfl (yields_assignments values).last)))
      have hpos := values.depth_pos (fun _ => (by omega : 1 ≤ 3))
      exact yields_pass rfl hupdate' h (by rw [Sql.depth]; omega)
  | updateWhere table values conditions =>
      have hpos := conditions.depth_pos
      have h := hupdateWhere (.word .UPDATE rfl (.identifier table (.word .SET rfl
        ((yields_assignments values).cons (.word .WHERE rfl (yields_conditions conditions).last)))))
      exact yields_pass rfl hupdate' h (by rw [Sql.depth]; omega)
  | trxBegin =>
      have h := htrxBegin (.word .TRXBEGIN rfl .nil)
      exact yields_pass rfl htrxBegin' h rfl
  | trxCommit =>
      have h := htrxCommit (.word .TRXCOMMIT rfl .nil)
      exact yields_pass rfl htrxCommit' h rfl
  | trxRollback =>
      have h := htrxRollback (.word .TRXROLLBACK rfl .nil)
      exact yields_pass rfl htrxRollback' h rfl
  | quit =>
      have h := hquit (.word .QUIT rfl .nil)
      exact yields_pass rfl hquit' h rfl
  | execFile file =>
      have h := hexecFile (.word .EXECFILE rfl (.string file .nil))
      exact yields_pass rfl hexecFile' h rfl

/-- The stack that a statement takes with its semicolon. -/
def startDepth (sql : Sql) : Nat :=
  max sql.depth 2

theorem yields_start (sql : Sql) : Yields [55] [.start sql] (startDepth sql) := by
  obtain ⟨hstart, -⟩ := statementRules_reduce
  exact (hstart ((yields_sql sql).cons (.word (.lit ';') rfl .nil))).congr (by
    rw [startDepth]; omega)

/-! ## What the parser accepts -/

theorem derives_startTokens {sql : Sql} {w : List Lexeme}
    (htokens : w.map Lexeme.token = startTokens sql) :
    Derives grammar phrases [.nonterminal grammar.start] [.start sql] w (startDepth sql) :=
  (yields_start sql).derives w (by rw [htokens, List.flatMap_singleton]; rfl)

/-- A statement has one derivation: its tokens determine it. -/
theorem statement_unique {sql sql' : Sql} {w : List Lexeme}
    (htokens : w.map Lexeme.token = startTokens sql)
    (htokens' : w.map Lexeme.token = startTokens sql') : sql = sql' := by
  have h := tables_complete.unambiguous tables_sound (derives_startTokens htokens)
    (derives_startTokens htokens')
  exact Phrase.start.inj h.1

/-- `select a, b from t where a = 1 and b <> 2 or b is null`. -/
def selectPair : Sql :=
  .selectWhere (.list (.cons (literal "a") (.one (literal "b")))) (literal "t")
    (.connect
      (.connect (.one ⟨literal "a", .eq, .number (literal "1")⟩) .and
        ⟨literal "b", .ne, .number (literal "2")⟩)
      .or ⟨literal "b", .is, .flagNull⟩)

/-- The statement with its semicolon, as it comes from the lexer. -/
def selectPairTokens : List Lexeme :=
  [⟨[], .SELECT, trivial⟩, ⟨[], .IDENTIFIER (literal "a"), trivial⟩,
    ⟨[], .lit ',', Token.lexed_comma⟩, ⟨[], .IDENTIFIER (literal "b"), trivial⟩,
    ⟨[], .FROM, trivial⟩, ⟨[], .IDENTIFIER (literal "t"), trivial⟩, ⟨[], .WHERE, trivial⟩,
    ⟨[], .IDENTIFIER (literal "a"), trivial⟩, ⟨[], .EQ, trivial⟩,
    ⟨[], .NUMBER (literal "1"), trivial⟩, ⟨[], .AND, trivial⟩,
    ⟨[], .IDENTIFIER (literal "b"), trivial⟩, ⟨[], .NE, trivial⟩,
    ⟨[], .NUMBER (literal "2"), trivial⟩, ⟨[], .OR, trivial⟩,
    ⟨[], .IDENTIFIER (literal "b"), trivial⟩, ⟨[], .IS, trivial⟩, ⟨[], .FLAGNULL, trivial⟩,
    ⟨[], .lit ';', Token.lexed_semicolon⟩]

/-- The tokens are those of the statement, and it is the only one that has them. -/
theorem statement_unique_select :
    selectPairTokens.map Lexeme.token = startTokens selectPair ∧ selectPair = selectPair :=
  ⟨rfl, statement_unique (w := selectPairTokens) rfl rfl⟩

theorem accepted_iff (w : List Lexeme) (trailing : List UInt8) (s : ParserState) :
    (yyrun w trailing s).status = .accepted ↔
      ∃ sql, w.map Lexeme.token = startTokens sql ∧ startDepth sql + 1 < YYMAXDEPTH := by
  rw [yyrun, tables_complete.accepted_iff (M := phrases) tables_sound rfl (by decide)
    (yyparse_stops w trailing s)]
  constructor
  · rintro ⟨v, d, hd, hfit⟩
    obtain ⟨sql, rfl, htokens⟩ := derives_start hd
    obtain ⟨_, rfl⟩ := tables_complete.unambiguous tables_sound hd (derives_startTokens htokens)
    exact ⟨sql, htokens, hfit⟩
  · rintro ⟨sql, htokens, hfit⟩
    exact ⟨.start sql, _, derives_startTokens htokens, hfit⟩

theorem start_follow : ∀ t : Option Terminal, t ∈ followOf grammar.start := by
  decide

/-- Behind `start` nothing is shifted. -/
theorem start_error : ∀ s : State, (none, 1) ∈ itemsOf s → ∀ t : Terminal,
    automaton.action s (some t) = .error := by
  decide +kernel

/-- Behind a statement the parser stops, with the statement on the stack. -/
theorem yyphrases_prefix {sql : Sql} {u : List Lexeme}
    (htokens : u.map Lexeme.token = startTokens sql) (hfit : startDepth sql + 1 < YYMAXDEPTH)
    (z : List Lexeme) (trailing : List UInt8) (h : Heap) :
    (∃ s p, (yyphrases (u ++ z) trailing h).stack = [(s, (.start sql, p))]) ∧
      (yyphrases (u ++ z) trailing h).status = if z = [] then .accepted else .rejected := by
  have hC : ((client trailing).ghost phrases).Models phrases Prod.fst := Client.ghost_models rfl
  obtain ⟨n, hread⟩ := (tables_complete.reads_start (L := YYMAXDEPTH) (h := ParserState.init h)
    tables_sound hC (derives_startTokens htokens) (start_follow (z.head?.map phrases.kind))
    (by decide)).1 hfit
  obtain ⟨pre, hpre, hvals⟩ := hread.stack
  obtain ⟨⟨s, v, p⟩, rfl⟩ : ∃ e, pre = [e] := by
    apply List.length_eq_one_iff.mp
    rw [← List.length_map Prod.snd, ← List.length_reverse, ← List.length_map Prod.fst, hvals]
    rfl
  obtain rfl : v = .start sql := by simpa using hvals
  obtain ⟨c₁, hc₁, hstep, _⟩ := step_eq (C := (client trailing).ghost phrases) (L := YYMAXDEPTH)
    tables_sound hread.proper hread.running
  rw [hread.pending] at hstep
  have hstack : c₁.stack = [(s, (.start sql, p))] := by
    rcases hc₁ with rfl | rfl
    · exact hpre
    · rw [fetch_stack]
      exact hpre
  have hend : (automaton.step ((client trailing).ghost phrases) YYMAXDEPTH
      (automaton.run ((client trailing).ghost phrases) YYMAXDEPTH n
        (Automaton.begin (u ++ z) (.init h)))).stack = [(s, (.start sql, p))] ∧
      (automaton.step ((client trailing).ghost phrases) YYMAXDEPTH
        (automaton.run ((client trailing).ghost phrases) YYMAXDEPTH n
          (Automaton.begin (u ++ z) (.init h)))).status =
        if z = [] then .accepted else .rejected := by
    rw [hstep]
    cases z with
    | nil =>
        have hserved := tables_complete.served _ _ hread.item
        simp only [Served, Grammar.body, List.getElem?_cons_succ, List.getElem?_nil,
          ServedBy] at hserved
        rw [List.head?_nil, Option.map_none, hserved]
        exact ⟨hstack, rfl⟩
    | cons x z =>
        rw [List.head?_cons, Option.map_some, start_error _ hread.item]
        exact ⟨hstack, rfl⟩
  rw [← run_succ] at hend
  have hstop : (automaton.run ((client trailing).ghost phrases) YYMAXDEPTH (n + 1)
      (Automaton.begin (u ++ z) (.init h))).status ≠ .running := by
    rw [hend.2]
    split <;> decide
  have hfinal := run_unique hstop
    (tables_sound.halts (L := YYMAXDEPTH) hC tables_ranked (u ++ z) (ParserState.init h))
  rw [hfinal] at hend
  exact ⟨⟨s, p, hend.1⟩, hend.2⟩

/-- Input that starts with a statement has its tree as the root, and it is accepted when nothing
comes behind. -/
theorem yyrun_prefix {sql : Sql} {u : List Lexeme} (htokens : u.map Lexeme.token = startTokens sql)
    (hfit : startDepth sql + 1 < YYMAXDEPTH) (z : List Lexeme) (trailing : List UInt8) (h : Heap) :
    ∃ p, (yyrun (u ++ z) trailing (.init h)).state.root = some p ∧
      Built (yyrun (u ++ z) trailing (.init h)).state.heap sql.tree p ∧
      (yyrun (u ++ z) trailing (.init h)).status = if z = [] then .accepted else .rejected := by
  obtain ⟨⟨s, p, hstack⟩, hstatus⟩ := yyphrases_prefix htokens hfit z trailing h
  obtain ⟨⟨Ys, hfollows⟩, howned⟩ := yyphrases_follows (u ++ z) trailing h
  have hmem : (Phrase.start sql, p) ∈ (yyphrases (u ++ z) trailing h).values := by
    rw [Config.values, hstack]
    exact List.mem_append_right _ (List.mem_singleton_self _)
  obtain ⟨q, hq⟩ := Option.ne_none_iff_exists'.mp (howned.rooted sql p hmem)
  obtain ⟨sql', hmem'⟩ := howned.root q hq
  obtain rfl : q = p := by
    rw [Config.values, hstack] at hmem'
    rcases List.mem_append.mp hmem' with hahead | hsingle
    · exact absurd hahead (start_notMem_ahead hfollows.proper)
    · exact (Prod.mk.inj (List.mem_singleton.mp hsingle)).2
  rw [yyrun_eq]
  exact ⟨q, hq, howned.built hmem rfl, hstatus⟩

end Parser
end MiniSQL
