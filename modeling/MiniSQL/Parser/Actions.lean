import MiniSQL.Parser.Phrase

/-!
# Actions — the semantic actions of `parser/minisql_yacc.c`

The `switch` of `yyparse` over the rules.  The actions work on pointers to trees that share no node;
for every rule, the value that is pushed points to the tree of the phrase that the rule makes
(`rule_handled`).
-/

namespace MiniSQL
namespace Parser

open Lib.LR

/-! ## Actions -/

/-- `$$ = CreateSyntaxNode(type, val)` with one child. -/
def overOne (type : SyntaxNodeType) (val : Option CStr) (child : Nat) : StateM Heap Nat := do
  let node ← createSyntaxNode type val
  syntaxNodeAddChildren node child
  return node

/-- `$$ = CreateSyntaxNode(type, val)` with two children. -/
def overTwo (type : SyntaxNodeType) (val : Option CStr) (left right : Nat) :
    StateM Heap Nat := do
  let node ← createSyntaxNode type val
  syntaxNodeAddChildren node left
  syntaxNodeAddChildren node right
  return node

/-- `$$` is the node of a connector or an operator, which gets both operands. -/
def between (node left right : Nat) : StateM Heap Nat := do
  syntaxNodeAddChildren node left
  syntaxNodeAddChildren node right
  return node

/-- `$$` is the first item of a list, which gets the others as siblings. -/
def before (node sib : Nat) : StateM Heap Nat := do
  syntaxNodeAddSibling node sib
  return node

/-- The actions of the rules; `yyvsp k` is `$k`.  The other rules keep the default `$$ = $1`. -/
def yyaction (yyn : Nat) (yyvsp : Nat → Nat) : StateM Heap Nat :=
  match yyn with
  | 22 => overOne .kNodeCreateDB none (yyvsp 3)
  | 23 => overOne .kNodeDropDB none (yyvsp 3)
  | 24 => createSyntaxNode .kNodeShowDB none
  | 25 => overOne .kNodeUseDB none (yyvsp 2)
  | 26 => createSyntaxNode .kNodeShowTables none
  | 27 => do
    let node ← createSyntaxNode .kNodeCreateTable none
    let listNode ← createSyntaxNode .kNodeColumnDefinitionList none
    syntaxNodeAddChildren listNode (yyvsp 5)
    syntaxNodeAddChildren node (yyvsp 3)
    syntaxNodeAddChildren node listNode
    return node
  | 28 => before (yyvsp 1) (yyvsp 3)
  | 30 => before (yyvsp 1) (yyvsp 3)
  | 32 => overOne .kNodeColumnList (some (literal "primary keys")) (yyvsp 4)
  | 33 => overTwo .kNodeColumnDefinition (some (literal "unique")) (yyvsp 1) (yyvsp 2)
  | 34 => overTwo .kNodeColumnDefinition none (yyvsp 1) (yyvsp 2)
  | 35 => createSyntaxNode .kNodeColumnType (some (literal "int"))
  | 36 => createSyntaxNode .kNodeColumnType (some (literal "float"))
  | 37 => overOne .kNodeColumnType (some (literal "char")) (yyvsp 3)
  | 38 => overOne .kNodeDropTable none (yyvsp 3)
  | 39 => do
    let node ← createSyntaxNode .kNodeCreateIndex none
    syntaxNodeAddChildren node (yyvsp 3)
    syntaxNodeAddChildren node (yyvsp 5)
    let indexKeysNode ← createSyntaxNode .kNodeColumnList (some (literal "index keys"))
    syntaxNodeAddChildren indexKeysNode (yyvsp 7)
    syntaxNodeAddChildren node indexKeysNode
    return node
  | 40 => do
    let node ← createSyntaxNode .kNodeCreateIndex none
    syntaxNodeAddChildren node (yyvsp 3)
    syntaxNodeAddChildren node (yyvsp 5)
    let indexKeysNode ← createSyntaxNode .kNodeColumnList (some (literal "index keys"))
    syntaxNodeAddChildren indexKeysNode (yyvsp 7)
    syntaxNodeAddChildren node indexKeysNode
    let indexTypeNode ← createSyntaxNode .kNodeIndexType (some (literal "index type"))
    syntaxNodeAddChildren indexTypeNode (yyvsp 10)
    syntaxNodeAddChildren node indexTypeNode
    return node
  | 41 => overOne .kNodeDropIndex none (yyvsp 3)
  | 42 => createSyntaxNode .kNodeShowIndexes none
  | 43 => overTwo .kNodeSelect none (yyvsp 2) (yyvsp 4)
  | 44 => do
    let node ← createSyntaxNode .kNodeSelect none
    syntaxNodeAddChildren node (yyvsp 2)
    syntaxNodeAddChildren node (yyvsp 4)
    let conditionNode ← createSyntaxNode .kNodeConditions none
    syntaxNodeAddChildren conditionNode (yyvsp 6)
    syntaxNodeAddChildren node conditionNode
    return node
  | 45 => createSyntaxNode .kNodeAllColumns none
  | 46 => overOne .kNodeColumnList (some (literal "select columns")) (yyvsp 1)
  | 47 => between (yyvsp 2) (yyvsp 1) (yyvsp 3)
  | 49 => createSyntaxNode .kNodeConnector (some (literal "and"))
  | 50 => createSyntaxNode .kNodeConnector (some (literal "or"))
  | 51 => between (yyvsp 2) (yyvsp 1) (yyvsp 3)
  | 54 => createSyntaxNode .kNodeNull none
  | 55 => createSyntaxNode .kNodeCompareOperator (some (literal "="))
  | 56 => createSyntaxNode .kNodeCompareOperator (some (literal "<>"))
  | 57 => createSyntaxNode .kNodeCompareOperator (some (literal "<="))
  | 58 => createSyntaxNode .kNodeCompareOperator (some (literal ">="))
  | 59 => createSyntaxNode .kNodeCompareOperator (some (literal "<"))
  | 60 => createSyntaxNode .kNodeCompareOperator (some (literal ">"))
  | 61 => createSyntaxNode .kNodeCompareOperator (some (literal "is"))
  | 62 => createSyntaxNode .kNodeCompareOperator (some (literal "not"))
  | 63 => do
    let node ← createSyntaxNode .kNodeInsert none
    syntaxNodeAddChildren node (yyvsp 3)
    let colValNode ← createSyntaxNode .kNodeColumnValues none
    syntaxNodeAddChildren colValNode (yyvsp 6)
    syntaxNodeAddChildren node colValNode
    return node
  | 64 => before (yyvsp 1) (yyvsp 3)
  | 66 => overOne .kNodeDelete none (yyvsp 3)
  | 67 => do
    let node ← createSyntaxNode .kNodeDelete none
    syntaxNodeAddChildren node (yyvsp 3)
    let conditionNode ← createSyntaxNode .kNodeConditions none
    syntaxNodeAddChildren conditionNode (yyvsp 5)
    syntaxNodeAddChildren node conditionNode
    return node
  | 68 => do
    let node ← createSyntaxNode .kNodeUpdate none
    syntaxNodeAddChildren node (yyvsp 2)
    let updValuesNode ← createSyntaxNode .kNodeUpdateValues none
    syntaxNodeAddChildren updValuesNode (yyvsp 4)
    syntaxNodeAddChildren node updValuesNode
    return node
  | 69 => do
    let node ← createSyntaxNode .kNodeUpdate none
    syntaxNodeAddChildren node (yyvsp 2)
    -- update values
    let updValuesNode ← createSyntaxNode .kNodeUpdateValues none
    syntaxNodeAddChildren updValuesNode (yyvsp 4)
    syntaxNodeAddChildren node updValuesNode
    -- where conditions
    let conditionNode ← createSyntaxNode .kNodeConditions none
    syntaxNodeAddChildren conditionNode (yyvsp 6)
    syntaxNodeAddChildren node conditionNode
    return node
  | 70 => before (yyvsp 1) (yyvsp 3)
  | 72 => overTwo .kNodeUpdateValue none (yyvsp 1) (yyvsp 3)
  | 73 => createSyntaxNode .kNodeTrxBegin none
  | 74 => createSyntaxNode .kNodeTrxCommit none
  | 75 => createSyntaxNode .kNodeTrxRollback none
  | 76 => createSyntaxNode .kNodeQuit none
  | 77 => overOne .kNodeExecFile none (yyvsp 2)
  | _ => return yyvsp 1

/-! ## What the actions do to trees -/

variable {rest : List (Nat × SyntaxNode)}

theorem leaf_triple (type : SyntaxNodeType) (val : Option CStr) (hne : type ≠ .kNodeString) :
    Triple rest (createSyntaxNode type val) fun p => (p, branch type val .nullptr) :: rest :=
  (builds_node type val hne).triple rest

theorem overOne_triple (type : SyntaxNodeType) (val : Option CStr) (child : Nat) (t : SyntaxNode)
    (hne : type ≠ .kNodeString) :
    Triple ((child, t) :: rest) (overOne type val child) fun p =>
      (p, branch type val t) :: rest := by
  refine (leaf_triple type val hne).bind fun node => ?_
  refine (Triple.addChildren (.refl _)).bind fun _ => ?_
  exact .pure node (.refl _)

theorem overTwo_triple (type : SyntaxNodeType) (val : Option CStr) (left right : Nat)
    (t t' : SyntaxNode) (hne : type ≠ .kNodeString) :
    Triple ((left, t) :: (right, t') :: rest) (overTwo type val left right) fun p =>
      (p, branch type val (t.append t')) :: rest := by
  refine (leaf_triple type val hne).bind fun node => ?_
  refine (Triple.addChildren (.refl _)).bind fun _ => ?_
  refine (Triple.addChildren (.refl _)).bind fun _ => ?_
  exact .pure node (.refl _)

theorem between_triple {type : SyntaxNodeType} {val : Option CStr} (node left right : Nat)
    (t t' : SyntaxNode) :
    Triple ((left, t) :: (node, branch type val .nullptr) :: (right, t') :: rest)
      (between node left right) fun p => (p, branch type val (t.append t')) :: rest := by
  refine (Triple.addChildren (.swap ..)).bind fun _ => ?_
  refine (Triple.addChildren (.refl _)).bind fun _ => ?_
  exact .pure node (.refl _)

theorem before_triple (node sib : Nat) (t t' : SyntaxNode) :
    Triple ((node, t) :: (sib, t') :: rest) (before node sib) fun p =>
      (p, t.append t') :: rest := by
  refine (Triple.addSibling (.refl _)).bind fun _ => ?_
  exact .pure node (.refl _)

/-! ## The rules

The numbers of the rules, with the symbols of both sides as in `yyr1` and `yyrhs`. -/

/-- The rules of `start` and of the statements. -/
def statementRules : List (Nat × Nat × List Nat) :=
  [(2, 55, [56, 47]), (22, 57, [3, 17, 40]), (23, 58, [4, 17, 40]), (24, 59, [14, 18]),
   (25, 60, [15, 40]), (26, 61, [14, 20]), (27, 62, [3, 19, 40, 48, 64, 49]),
   (38, 67, [4, 19, 40]), (39, 68, [3, 21, 40, 23, 40, 48, 63, 49]),
   (40, 68, [3, 21, 40, 23, 40, 48, 63, 49, 16, 40]), (41, 69, [4, 21, 40]), (42, 70, [14, 22]),
   (43, 71, [5, 72, 24, 40]), (44, 71, [5, 72, 24, 40, 25, 73]),
   (63, 78, [6, 26, 40, 28, 48, 79, 49]), (66, 80, [7, 24, 40]), (67, 80, [7, 24, 40, 25, 73]),
   (68, 81, [8, 40, 27, 82]), (69, 81, [8, 40, 27, 82, 25, 73]), (73, 84, [9]), (74, 85, [10]),
   (75, 86, [11]), (76, 87, [12]), (77, 88, [13, 41])]

/-- The rules of the lists. -/
def listRules : List (Nat × Nat × List Nat) :=
  [(28, 63, [40, 50, 63]), (29, 63, [40]), (30, 64, [65, 50, 64]), (31, 64, [65]),
   (32, 64, [29, 30, 48, 63, 49]), (64, 79, [76, 50, 79]), (65, 79, [76]),
   (70, 82, [83, 50, 82]), (71, 82, [83])]

/-- The rules of columns. -/
def columnRules : List (Nat × Nat × List Nat) :=
  [(33, 65, [40, 66, 31]), (34, 65, [40, 66]), (35, 66, [33]), (36, 66, [34]),
   (37, 66, [32, 48, 42, 49]), (45, 72, [51]), (46, 72, [63])]

/-- The rules of conditions and values. -/
def conditionRules : List (Nat × Nat × List Nat) :=
  [(47, 73, [73, 74, 75]), (48, 73, [75]), (49, 74, [35]), (50, 74, [36]),
   (51, 75, [40, 77, 76]), (52, 76, [41]), (53, 76, [42]), (54, 76, [39]), (55, 77, [43]),
   (56, 77, [44]), (57, 77, [45]), (58, 77, [46]), (59, 77, [52]), (60, 77, [53]),
   (61, 77, [38]), (62, 77, [37]), (72, 83, [40, 43, 76])]

/-- The rules of `sql`. -/
def sqlRules : List (Nat × Nat × List Nat) :=
  [(3, 56, [57]), (4, 56, [58]), (5, 56, [59]), (6, 56, [60]), (7, 56, [61]), (8, 56, [62]),
   (9, 56, [67]), (10, 56, [68]), (11, 56, [69]), (12, 56, [70]), (13, 56, [71]), (14, 56, [78]),
   (15, 56, [80]), (16, 56, [81]), (17, 56, [84]), (18, 56, [85]), (19, 56, [86]),
   (20, 56, [87]), (21, 56, [88])]

/-- The trees of phrases, behind the pointers from `i` on. -/
def treesFrom (i : Nat) (yyvsp : Nat → Nat) : List Phrase → List (Nat × SyntaxNode)
  | [] => []
  | v :: vs => (v.tree.map fun t => (yyvsp i, t)).toList ++ treesFrom (i + 1) yyvsp vs

/-- What a rule makes of phrases for its right-hand side: a phrase for its left-hand side, with the
same tokens, whose tree the action builds. -/
def Handled : Nat × Nat × List Nat → Prop
  | (n, lhs, rhs) => ∀ vs, List.Forall₂ Stands rhs vs →
    Stands lhs (Phrase.node n vs) ∧ (Phrase.node n vs).tokens = vs.flatMap Phrase.tokens ∧
    ∀ yyvsp rest, Triple (treesFrom 1 yyvsp vs ++ rest) (yyaction n yyvsp) fun p =>
      treesFrom 1 (fun _ => p) [Phrase.node n vs] ++ rest

theorem statementRules_handled : statementRules.Forall Handled := by
  refine ⟨?_, ?_, ?_, ?_, ?_, ?_, ?_, ?_, ?_, ?_, ?_, ?_,
    ?_, ?_, ?_, ?_, ?_, ?_, ?_, ?_, ?_, ?_, ?_, ?_⟩
  · rintro _ (_ | ⟨⟨_, s, rfl⟩, _ | ⟨rfl, ⟨⟩⟩⟩)
    exact ⟨⟨_, rfl⟩, rfl, fun yyvsp _ => .pure (yyvsp 1) (.refl _)⟩
  · rintro _ (_ | ⟨rfl, _ | ⟨rfl, _ | ⟨⟨name, rfl⟩, ⟨⟩⟩⟩⟩)
    exact ⟨⟨by decide, _, rfl⟩, rfl, fun _ _ => overOne_triple _ _ _ _ (by decide)⟩
  · rintro _ (_ | ⟨rfl, _ | ⟨rfl, _ | ⟨⟨name, rfl⟩, ⟨⟩⟩⟩⟩)
    exact ⟨⟨by decide, _, rfl⟩, rfl, fun _ _ => overOne_triple _ _ _ _ (by decide)⟩
  · rintro _ (_ | ⟨rfl, _ | ⟨rfl, ⟨⟩⟩⟩)
    exact ⟨⟨by decide, _, rfl⟩, rfl, fun _ _ => leaf_triple _ none (by decide)⟩
  · rintro _ (_ | ⟨rfl, _ | ⟨⟨name, rfl⟩, ⟨⟩⟩⟩)
    exact ⟨⟨by decide, _, rfl⟩, rfl, fun _ _ => overOne_triple _ _ _ _ (by decide)⟩
  · rintro _ (_ | ⟨rfl, _ | ⟨rfl, ⟨⟩⟩⟩)
    exact ⟨⟨by decide, _, rfl⟩, rfl, fun _ _ => leaf_triple _ none (by decide)⟩
  · rintro _ (_ | ⟨rfl, _ | ⟨rfl, _ | ⟨⟨name, rfl⟩, _ | ⟨rfl, _ | ⟨⟨ds, rfl⟩, _ | ⟨rfl, ⟨⟩⟩⟩⟩⟩⟩⟩)
    refine ⟨⟨by decide, _, rfl⟩, ?_, fun _ _ => ?_⟩
    · rfl
    · refine (leaf_triple .kNodeCreateTable none (by decide)).bind fun node => ?_
      refine (leaf_triple .kNodeColumnDefinitionList none (by decide)).bind fun listNode => ?_
      refine (Triple.addChildren (perm_behind _ _ [_, _] _)).bind fun _ => ?_
      refine (Triple.addChildren ((List.Perm.swap ..).trans ((List.Perm.swap ..).cons _))).bind
        fun _ => ?_
      refine (Triple.addChildren (.refl _)).bind fun _ => ?_
      exact .pure node (.refl _)
  · rintro _ (_ | ⟨rfl, _ | ⟨rfl, _ | ⟨⟨name, rfl⟩, ⟨⟩⟩⟩⟩)
    exact ⟨⟨by decide, _, rfl⟩, rfl, fun _ _ => overOne_triple _ _ _ _ (by decide)⟩
  · rintro _ (_ | ⟨rfl, _ | ⟨rfl, _ | ⟨⟨name, rfl⟩, _ | ⟨rfl, _ | ⟨⟨table, rfl⟩, _ | ⟨rfl,
          _ | ⟨⟨cs, rfl⟩, _ | ⟨rfl, ⟨⟩⟩⟩⟩⟩⟩⟩⟩⟩)
    refine ⟨⟨by decide, _, rfl⟩, ?_, fun _ _ => ?_⟩
    · rfl
    · refine (leaf_triple .kNodeCreateIndex none (by decide)).bind fun node => ?_
      refine (Triple.addChildren (.refl _)).bind fun _ => ?_
      refine (Triple.addChildren (.refl _)).bind fun _ => ?_
      refine Triple.attach .kNodeColumnList _ [] ?_ (by decide)
      exact .pure node (.refl _)
  · rintro _ (_ | ⟨rfl, _ | ⟨rfl, _ | ⟨⟨name, rfl⟩, _ | ⟨rfl, _ | ⟨⟨table, rfl⟩, _ | ⟨rfl,
          _ | ⟨⟨cs, rfl⟩, _ | ⟨rfl, _ | ⟨rfl, _ | ⟨⟨method, rfl⟩, ⟨⟩⟩⟩⟩⟩⟩⟩⟩⟩⟩⟩)
    refine ⟨⟨by decide, _, rfl⟩, ?_, fun _ _ => ?_⟩
    · change Sql.tokens (.createIndexUsing name table cs method) = _
      simp [Sql.tokens, Phrase.tokens]
    · refine (leaf_triple .kNodeCreateIndex none (by decide)).bind fun node => ?_
      refine (Triple.addChildren (.refl _)).bind fun _ => ?_
      refine (Triple.addChildren (.refl _)).bind fun _ => ?_
      refine Triple.attach .kNodeColumnList _ [] ?_ (by decide)
      refine Triple.attach .kNodeIndexType _ [] ?_ (by decide)
      exact .pure node (.refl _)
  · rintro _ (_ | ⟨rfl, _ | ⟨rfl, _ | ⟨⟨name, rfl⟩, ⟨⟩⟩⟩⟩)
    exact ⟨⟨by decide, _, rfl⟩, rfl, fun _ _ => overOne_triple _ _ _ _ (by decide)⟩
  · rintro _ (_ | ⟨rfl, _ | ⟨rfl, ⟨⟩⟩⟩)
    exact ⟨⟨by decide, _, rfl⟩, rfl, fun _ _ => leaf_triple _ none (by decide)⟩
  · rintro _ (_ | ⟨rfl, _ | ⟨⟨cs, rfl⟩, _ | ⟨rfl, _ | ⟨⟨table, rfl⟩, ⟨⟩⟩⟩⟩⟩)
    refine ⟨⟨by decide, _, rfl⟩, ?_, fun _ _ => overTwo_triple _ _ _ _ _ _ (by decide)⟩
    change Sql.tokens (.select cs table) = _
    simp [Sql.tokens, Phrase.tokens]
  · rintro _ (_ | ⟨rfl, _ | ⟨⟨cs, rfl⟩, _ | ⟨rfl, _ | ⟨⟨table, rfl⟩, _ | ⟨rfl,
          _ | ⟨⟨ws, rfl⟩, ⟨⟩⟩⟩⟩⟩⟩⟩)
    refine ⟨⟨by decide, _, rfl⟩, ?_, fun _ _ => ?_⟩
    · change Sql.tokens (.selectWhere cs table ws) = _
      simp [Sql.tokens, Phrase.tokens]
    · refine (leaf_triple .kNodeSelect none (by decide)).bind fun node => ?_
      refine (Triple.addChildren (.refl _)).bind fun _ => ?_
      refine (Triple.addChildren (.refl _)).bind fun _ => ?_
      refine Triple.attach .kNodeConditions none [] ?_ (by decide)
      exact .pure node (.refl _)
  · rintro _ (_ | ⟨rfl, _ | ⟨rfl, _ | ⟨⟨table, rfl⟩, _ | ⟨rfl, _ | ⟨rfl, _ | ⟨⟨xs, rfl⟩,
          _ | ⟨rfl, ⟨⟩⟩⟩⟩⟩⟩⟩⟩)
    refine ⟨⟨by decide, _, rfl⟩, ?_, fun _ _ => ?_⟩
    · rfl
    · refine (leaf_triple .kNodeInsert none (by decide)).bind fun node => ?_
      refine (Triple.addChildren (.refl _)).bind fun _ => ?_
      refine Triple.attach .kNodeColumnValues none [] ?_ (by decide)
      exact .pure node (.refl _)
  · rintro _ (_ | ⟨rfl, _ | ⟨rfl, _ | ⟨⟨name, rfl⟩, ⟨⟩⟩⟩⟩)
    exact ⟨⟨by decide, _, rfl⟩, rfl, fun _ _ => overOne_triple _ _ _ _ (by decide)⟩
  · rintro _ (_ | ⟨rfl, _ | ⟨rfl, _ | ⟨⟨table, rfl⟩, _ | ⟨rfl, _ | ⟨⟨ws, rfl⟩, ⟨⟩⟩⟩⟩⟩⟩)
    refine ⟨⟨by decide, _, rfl⟩, ?_, fun _ _ => ?_⟩
    · change Sql.tokens (.deleteWhere table ws) = _
      simp [Sql.tokens, Phrase.tokens]
    · refine (leaf_triple .kNodeDelete none (by decide)).bind fun node => ?_
      refine (Triple.addChildren (.refl _)).bind fun _ => ?_
      refine Triple.attach .kNodeConditions none [] ?_ (by decide)
      exact .pure node (.refl _)
  · rintro _ (_ | ⟨rfl, _ | ⟨⟨table, rfl⟩, _ | ⟨rfl, _ | ⟨⟨xs, rfl⟩, ⟨⟩⟩⟩⟩⟩)
    refine ⟨⟨by decide, _, rfl⟩, ?_, fun _ _ => ?_⟩
    · change Sql.tokens (.update table xs) = _
      simp [Sql.tokens, Phrase.tokens]
    · refine (leaf_triple .kNodeUpdate none (by decide)).bind fun node => ?_
      refine (Triple.addChildren (.refl _)).bind fun _ => ?_
      refine Triple.attach .kNodeUpdateValues none [] ?_ (by decide)
      exact .pure node (.refl _)
  · rintro _ (_ | ⟨rfl, _ | ⟨⟨table, rfl⟩, _ | ⟨rfl, _ | ⟨⟨xs, rfl⟩, _ | ⟨rfl,
          _ | ⟨⟨ws, rfl⟩, ⟨⟩⟩⟩⟩⟩⟩⟩)
    refine ⟨⟨by decide, _, rfl⟩, ?_, fun _ _ => ?_⟩
    · change Sql.tokens (.updateWhere table xs ws) = _
      simp [Sql.tokens, Phrase.tokens]
    · refine (leaf_triple .kNodeUpdate none (by decide)).bind fun node => ?_
      refine (Triple.addChildren (.refl _)).bind fun _ => ?_
      refine Triple.attach .kNodeUpdateValues none [] ?_ (by decide)
      refine Triple.attach .kNodeConditions none [] ?_ (by decide)
      exact .pure node (.refl _)
  · rintro _ (_ | ⟨rfl, ⟨⟩⟩)
    exact ⟨⟨by decide, _, rfl⟩, rfl, fun _ _ => leaf_triple _ none (by decide)⟩
  · rintro _ (_ | ⟨rfl, ⟨⟩⟩)
    exact ⟨⟨by decide, _, rfl⟩, rfl, fun _ _ => leaf_triple _ none (by decide)⟩
  · rintro _ (_ | ⟨rfl, ⟨⟩⟩)
    exact ⟨⟨by decide, _, rfl⟩, rfl, fun _ _ => leaf_triple _ none (by decide)⟩
  · rintro _ (_ | ⟨rfl, ⟨⟩⟩)
    exact ⟨⟨by decide, _, rfl⟩, rfl, fun _ _ => leaf_triple _ none (by decide)⟩
  · rintro _ (_ | ⟨rfl, _ | ⟨⟨text, rfl⟩, ⟨⟩⟩⟩)
    exact ⟨⟨by decide, _, rfl⟩, rfl, fun _ _ => overOne_triple _ _ _ _ (by decide)⟩

theorem listRules_handled : listRules.Forall Handled := by
  refine ⟨?_, ?_, ?_, ?_, ?_, ?_, ?_, ?_, ?_⟩
  · rintro _ (_ | ⟨⟨name, rfl⟩, _ | ⟨rfl, _ | ⟨⟨cs, rfl⟩, ⟨⟩⟩⟩⟩)
    refine ⟨⟨_, rfl⟩, ?_, fun _ _ => before_triple _ _ _ _⟩
    change ColumnList.tokens (.cons name cs) = _
    simp [ColumnList.tokens, CommaList.tokens, Phrase.tokens]
  · rintro _ (_ | ⟨⟨name, rfl⟩, ⟨⟩⟩)
    exact ⟨⟨_, rfl⟩, rfl, fun yyvsp _ => .pure (yyvsp 1) (.refl _)⟩
  · rintro _ (_ | ⟨⟨d, rfl⟩, _ | ⟨rfl, _ | ⟨⟨ds, rfl⟩, ⟨⟩⟩⟩⟩)
    refine ⟨⟨_, rfl⟩, ?_, fun _ _ => before_triple _ _ _ _⟩
    change ColumnDefinitionList.tokens (.cons d ds) = _
    simp [ColumnDefinitionList.tokens, Phrase.tokens]
  · rintro _ (_ | ⟨⟨d, rfl⟩, ⟨⟩⟩)
    exact ⟨⟨_, rfl⟩, (List.append_nil _).symm, fun yyvsp _ => .pure (yyvsp 1) (.refl _)⟩
  · rintro _ (_ | ⟨rfl, _ | ⟨rfl, _ | ⟨rfl, _ | ⟨⟨cs, rfl⟩, _ | ⟨rfl, ⟨⟩⟩⟩⟩⟩⟩)
    exact ⟨⟨_, rfl⟩, rfl, fun _ _ => overOne_triple _ _ _ _ (by decide)⟩
  · rintro _ (_ | ⟨⟨x, rfl⟩, _ | ⟨rfl, _ | ⟨⟨xs, rfl⟩, ⟨⟩⟩⟩⟩)
    refine ⟨⟨_, rfl⟩, ?_, fun _ _ => before_triple _ _ _ _⟩
    change CommaList.tokens ColumnValue.tokens (.cons x xs) = _
    simp [CommaList.tokens, Phrase.tokens]
  · rintro _ (_ | ⟨⟨x, rfl⟩, ⟨⟩⟩)
    exact ⟨⟨_, rfl⟩, (List.append_nil _).symm, fun yyvsp _ => .pure (yyvsp 1) (.refl _)⟩
  · rintro _ (_ | ⟨⟨a, rfl⟩, _ | ⟨rfl, _ | ⟨⟨xs, rfl⟩, ⟨⟩⟩⟩⟩)
    refine ⟨⟨_, rfl⟩, ?_, fun _ _ => before_triple _ _ _ _⟩
    change CommaList.tokens UpdateValue.tokens (.cons a xs) = _
    simp [CommaList.tokens, Phrase.tokens]
  · rintro _ (_ | ⟨⟨a, rfl⟩, ⟨⟩⟩)
    exact ⟨⟨_, rfl⟩, (List.append_nil _).symm, fun yyvsp _ => .pure (yyvsp 1) (.refl _)⟩

theorem columnRules_handled : columnRules.Forall Handled := by
  refine ⟨?_, ?_, ?_, ?_, ?_, ?_, ?_⟩
  · rintro _ (_ | ⟨⟨name, rfl⟩, _ | ⟨⟨t, rfl⟩, _ | ⟨rfl, ⟨⟩⟩⟩⟩)
    exact ⟨⟨_, rfl⟩, rfl, fun _ _ => overTwo_triple _ _ _ _ _ _ (by decide)⟩
  · rintro _ (_ | ⟨⟨name, rfl⟩, _ | ⟨⟨t, rfl⟩, ⟨⟩⟩⟩)
    refine ⟨⟨_, rfl⟩, ?_, fun _ _ => overTwo_triple _ _ _ _ _ _ (by decide)⟩
    change ColumnDefinition.tokens (.plain name t) = _
    simp [ColumnDefinition.tokens, Phrase.tokens]
  · rintro _ (_ | ⟨rfl, ⟨⟩⟩)
    exact ⟨⟨_, rfl⟩, rfl, fun _ _ => leaf_triple _ _ (by decide)⟩
  · rintro _ (_ | ⟨rfl, ⟨⟩⟩)
    exact ⟨⟨_, rfl⟩, rfl, fun _ _ => leaf_triple _ _ (by decide)⟩
  · rintro _ (_ | ⟨rfl, _ | ⟨rfl, _ | ⟨⟨text, rfl⟩, _ | ⟨rfl, ⟨⟩⟩⟩⟩⟩)
    exact ⟨⟨_, rfl⟩, rfl, fun _ _ => overOne_triple _ _ _ _ (by decide)⟩
  · rintro _ (_ | ⟨rfl, ⟨⟩⟩)
    exact ⟨⟨_, rfl⟩, rfl, fun _ _ => leaf_triple _ _ (by decide)⟩
  · rintro _ (_ | ⟨⟨cs, rfl⟩, ⟨⟩⟩)
    exact ⟨⟨_, rfl⟩, (List.append_nil _).symm, fun _ _ => overOne_triple _ _ _ _ (by decide)⟩

theorem conditionRules_handled : conditionRules.Forall Handled := by
  refine ⟨?_, ?_, ?_, ?_, ?_, ?_, ?_, ?_, ?_, ?_, ?_, ?_, ?_, ?_, ?_, ?_, ?_⟩
  · rintro _ (_ | ⟨⟨ws, rfl⟩, _ | ⟨⟨c, rfl⟩, _ | ⟨⟨w, rfl⟩, ⟨⟩⟩⟩⟩)
    refine ⟨⟨_, rfl⟩, ?_, fun _ _ => between_triple _ _ _ _ _⟩
    change WhereConditions.tokens (.connect ws c w) = _
    simp [WhereConditions.tokens, Phrase.tokens]
  · rintro _ (_ | ⟨⟨w, rfl⟩, ⟨⟩⟩)
    exact ⟨⟨_, rfl⟩, (List.append_nil _).symm, fun yyvsp _ => .pure (yyvsp 1) (.refl _)⟩
  · rintro _ (_ | ⟨rfl, ⟨⟩⟩)
    exact ⟨⟨_, rfl⟩, rfl, fun _ _ => leaf_triple _ _ (by decide)⟩
  · rintro _ (_ | ⟨rfl, ⟨⟩⟩)
    exact ⟨⟨_, rfl⟩, rfl, fun _ _ => leaf_triple _ _ (by decide)⟩
  · rintro _ (_ | ⟨⟨name, rfl⟩, _ | ⟨⟨op, rfl⟩, _ | ⟨⟨x, rfl⟩, ⟨⟩⟩⟩⟩)
    refine ⟨⟨_, rfl⟩, ?_, fun _ _ => between_triple _ _ _ _ _⟩
    change WhereCondition.tokens ⟨name, op, x⟩ = _
    simp [WhereCondition.tokens, Phrase.tokens]
  · rintro _ (_ | ⟨⟨text, rfl⟩, ⟨⟩⟩)
    exact ⟨⟨_, rfl⟩, rfl, fun yyvsp _ => .pure (yyvsp 1) (.refl _)⟩
  · rintro _ (_ | ⟨⟨text, rfl⟩, ⟨⟩⟩)
    exact ⟨⟨_, rfl⟩, rfl, fun yyvsp _ => .pure (yyvsp 1) (.refl _)⟩
  · rintro _ (_ | ⟨rfl, ⟨⟩⟩)
    exact ⟨⟨_, rfl⟩, rfl, fun _ _ => leaf_triple _ _ (by decide)⟩
  · rintro _ (_ | ⟨rfl, ⟨⟩⟩)
    exact ⟨⟨_, rfl⟩, rfl, fun _ _ => leaf_triple _ _ (by decide)⟩
  · rintro _ (_ | ⟨rfl, ⟨⟩⟩)
    exact ⟨⟨_, rfl⟩, rfl, fun _ _ => leaf_triple _ _ (by decide)⟩
  · rintro _ (_ | ⟨rfl, ⟨⟩⟩)
    exact ⟨⟨_, rfl⟩, rfl, fun _ _ => leaf_triple _ _ (by decide)⟩
  · rintro _ (_ | ⟨rfl, ⟨⟩⟩)
    exact ⟨⟨_, rfl⟩, rfl, fun _ _ => leaf_triple _ _ (by decide)⟩
  · rintro _ (_ | ⟨rfl, ⟨⟩⟩)
    exact ⟨⟨_, rfl⟩, rfl, fun _ _ => leaf_triple _ _ (by decide)⟩
  · rintro _ (_ | ⟨rfl, ⟨⟩⟩)
    exact ⟨⟨_, rfl⟩, rfl, fun _ _ => leaf_triple _ _ (by decide)⟩
  · rintro _ (_ | ⟨rfl, ⟨⟩⟩)
    exact ⟨⟨_, rfl⟩, rfl, fun _ _ => leaf_triple _ _ (by decide)⟩
  · rintro _ (_ | ⟨rfl, ⟨⟩⟩)
    exact ⟨⟨_, rfl⟩, rfl, fun _ _ => leaf_triple _ _ (by decide)⟩
  · rintro _ (_ | ⟨⟨name, rfl⟩, _ | ⟨rfl, _ | ⟨⟨x, rfl⟩, ⟨⟩⟩⟩⟩)
    refine ⟨⟨_, rfl⟩, ?_, fun _ _ => overTwo_triple _ _ _ _ _ _ (by decide)⟩
    change UpdateValue.tokens ⟨name, x⟩ = _
    simp [UpdateValue.tokens, Phrase.tokens]

/-- A rule that passes a statement on. -/
theorem handled_sql {n B : Nat} (hB : ∀ v, Stands B v → ∃ s, v = .sql s)
    (hnode : ∀ s, Phrase.node n [.sql s] = .sql s)
    (hact : ∀ yyvsp, yyaction n yyvsp = pure (yyvsp 1)) : Handled (n, 56, [B]) := by
  rintro _ (_ | ⟨hv, ⟨⟩⟩)
  obtain ⟨s, rfl⟩ := hB _ hv
  rw [hnode]
  refine ⟨⟨by decide, s, rfl⟩, (List.append_nil _).symm, fun yyvsp rest => ?_⟩
  rw [hact]
  exact .pure (yyvsp 1) (.refl _)

theorem sqlRules_handled : sqlRules.Forall Handled := by
  refine ⟨?_, ?_, ?_, ?_, ?_, ?_, ?_, ?_, ?_, ?_, ?_, ?_, ?_, ?_, ?_, ?_, ?_, ?_, ?_⟩
  all_goals
    apply handled_sql
    · exact fun _ hv => hv.2
    · exact fun _ => rfl
    · exact fun _ => rfl

/-- The rules of the grammar are those of the lists. -/
theorem rule_mem : ∀ r : Rule,
    (r.number, symbolNumber (.nonterminal (grammar.lhs r)), (grammar.rhs r).map symbolNumber) ∈
      statementRules ++ listRules ++ columnRules ++ conditionRules ++ sqlRules := by
  decide +kernel

/-- The entries of the lists are those of rules. -/
theorem rules_mem :
    ∀ e ∈ statementRules ++ listRules ++ columnRules ++ conditionRules ++ sqlRules,
      e = (Rule.number (Fin.ofNat 76 (e.1 - 2)),
        symbolNumber (.nonterminal (grammar.lhs (Fin.ofNat 76 (e.1 - 2)))),
        (grammar.rhs (Fin.ofNat 76 (e.1 - 2))).map symbolNumber) := by
  decide +kernel

theorem rule_handled (r : Rule) :
    Handled (r.number, symbolNumber (.nonterminal (grammar.lhs r)),
      (grammar.rhs r).map symbolNumber) := by
  have hall : (statementRules ++ listRules ++ columnRules ++ conditionRules ++ sqlRules).Forall
      Handled := by
    simp only [List.forall_append]
    exact ⟨⟨⟨⟨statementRules_handled, listRules_handled⟩, columnRules_handled⟩,
      conditionRules_handled⟩, sqlRules_handled⟩
  exact List.forall_iff_forall_mem.mp hall _ (rule_mem r)

end Parser
end MiniSQL
