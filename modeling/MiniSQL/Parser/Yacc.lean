import MiniSQL.Parser.Actions

/-!
# Yacc — the parser `yyparse`

`yyparse` runs the tables over the tokens of the lexer, with the actions on the heap of syntax
nodes.  Its stack has room for `YYMAXDEPTH` states, a syntax error ends it (`no_error_shift`), and
`start` sets the root.
-/

namespace MiniSQL
namespace Parser

open Lib.LR

def YYMAXDEPTH : Nat := 10000

/-! ## The state of the parser -/

/-- The variables of `parser/parser.c`; positions serve the printed message only. -/
structure ParserState where
  heap : Heap
  root : Option Nat
  error : Option (List UInt8)

namespace ParserState

/-- `MinisqlParserInit`; nodes of earlier statements are not reset. -/
def init (h : Heap) : ParserState :=
  ⟨h, none, none⟩

/-- `MinisqlParserSetError`: the first error stays. -/
def setError (msg : List UInt8) (s : ParserState) : ParserState :=
  if s.error.isSome then s else { s with error := some msg }

/-- `MinisqlParserSetRoot`. -/
def setRoot (node : Nat) (s : ParserState) : ParserState :=
  { s with root := some node }

end ParserState

/-- The message of the lexer for a character that no pattern matches. -/
def unrecognized (c : UInt8) : List UInt8 :=
  ascii "Unrecognized token [" ++ [c] ++ ascii "] in input sql."

/-- The lexer goes over characters that no pattern matches. -/
def skipInvalid (invalid : List UInt8) (s : ParserState) : ParserState :=
  invalid.foldl (fun s c => s.setError (unrecognized c)) s

/-- A node of the lexer. -/
def lexNode (act : StateM Heap Nat) (s : ParserState) : Nat × ParserState :=
  ((act s.heap).1, { s with heap := (act s.heap).2 })

/-- `yylex` in the state of the parser: identifiers, strings and numbers get a node.  The value of
the other tokens is not used. -/
def readLexeme (x : Lexeme) (s : ParserState) : Nat × ParserState :=
  match x.token with
  | .IDENTIFIER text => lexNode (identifier text) (skipInvalid x.invalid s)
  | .STRING text => lexNode (string text) (skipInvalid x.invalid s)
  | .NUMBER text => lexNode (number text) (skipInvalid x.invalid s)
  | _ => (0, skipInvalid x.invalid s)

/-- The action of a rule; that of `start` sets the root as well. -/
def reduceRule (r : Rule) (values : List Nat) (s : ParserState) : Nat × ParserState :=
  let result := lexNode (yyaction r.number fun k => values.getD (k - 1) 0) s
  if r.number = 2 then (result.1, result.2.setRoot result.1) else result

/-- The parser reads the tokens, with `trailing` invalid characters behind the last one. -/
def client (trailing : List UInt8) : Client Terminal Rule Lexeme Nat ParserState where
  kind x := x.token.terminal
  read := readLexeme
  readEnd := skipInvalid trailing
  reduce := reduceRule

/-- The phrases of tokens and rules. -/
def phrases : Algebra Terminal Rule Lexeme Phrase where
  kind x := x.token.terminal
  leaf x := .token x.token
  node r vs := .node r.number vs

/-- The parser when it has stopped, see `yyparse_stops`. -/
def yyrun (w : List Lexeme) (trailing : List UInt8) (s : ParserState) :
    Config State Lexeme Nat ParserState :=
  automaton.run (client trailing) YYMAXDEPTH (w.length * 8 + 1) (Automaton.begin w s)

/-- `yyparse`: what it returns and the state it leaves. -/
def yyparse (w : List Lexeme) (trailing : List UInt8) (s : ParserState) : Nat × ParserState :=
  let c := yyrun w trailing s
  match c.status with
  | .accepted => (0, c.state)
  | .exhausted => (2, c.state.setError (ascii "memory exhausted"))
  | _ => (1, c.state.setError (ascii "syntax error"))

/-! ## Phrases and derivations -/

variable {Xs : List (GrammarSymbol Terminal Nonterminal)} {vs : List Phrase} {w : List Lexeme}
  {d e : Nat}

/-- A derivation has phrases for its symbols, with the tokens of the word. -/
theorem derives_stands (h : Derives grammar phrases Xs vs w d) :
    List.Forall₂ Stands (Xs.map symbolNumber) vs ∧
      vs.flatMap Phrase.tokens = w.map Lexeme.token := by
  induction h with
  | nil =>
      exact ⟨.nil, rfl⟩
  | leaf x _ ih =>
      obtain ⟨hstands, htokens⟩ := ih
      refine ⟨.cons (stands_token x.token x.lexed) hstands, ?_⟩
      rw [List.flatMap_cons, htokens]
      rfl
  | node r _ _ ihr ih =>
      obtain ⟨hstands, htokens⟩ := ih
      obtain ⟨hrhs, hword⟩ := ihr
      obtain ⟨hnode, hnodetokens, _⟩ := rule_handled r _ hrhs
      refine ⟨.cons hnode hstands, ?_⟩
      rw [List.flatMap_cons, htokens, List.map_append, ← hword, ← hnodetokens]
      rfl

/-- What `start` derives is a statement with its semicolon. -/
theorem derives_start {v : Phrase}
    (h : Derives grammar phrases [.nonterminal grammar.start] [v] w d) :
    ∃ sql, v = .start sql ∧ w.map Lexeme.token = startTokens sql := by
  obtain ⟨hstands, htokens⟩ := derives_stands h
  rcases hstands with _ | ⟨⟨sql, rfl⟩, _⟩
  refine ⟨sql, rfl, ?_⟩
  rw [← htokens, List.flatMap_singleton]
  rfl

/-! ## Trees on the stack -/

/-- The trees of phrases, behind the values beside them. -/
def treesOf (pairs : List (Phrase × Nat)) : List (Nat × SyntaxNode) :=
  pairs.flatMap fun e => (e.1.tree.map fun t => (e.2, t)).toList

theorem treesOf_append (pairs pairs' : List (Phrase × Nat)) :
    treesOf (pairs ++ pairs') = treesOf pairs ++ treesOf pairs' :=
  List.flatMap_append

theorem treesFrom_eq (us : List (Phrase × Nat)) (i : Nat) (yyvsp : Nat → Nat)
    (hvalues : ∀ k, yyvsp (i + k) = (us.map Prod.snd).getD k 0) :
    treesFrom i yyvsp (us.map Prod.fst) = treesOf us := by
  induction us generalizing i with
  | nil =>
      rfl
  | cons e us ih =>
      have hhead : yyvsp i = e.2 := hvalues 0
      have htail : treesFrom (i + 1) yyvsp (us.map Prod.fst) = treesOf us :=
        ih (i + 1) fun k => by rw [Nat.add_assoc, Nat.add_comm 1 k, hvalues]; rfl
      rw [List.map_cons, treesFrom, htail, hhead]
      rfl

/-- The values in use are those of trees built since `base`, and the root is the value of
`start`. -/
structure Owned (base : Heap) (s : ParserState) (pairs : List (Phrase × Nat)) : Prop where
  reached : Reached base s.heap (treesOf pairs)
  root : ∀ p, s.root = some p → ∃ sql, (Phrase.start sql, p) ∈ pairs
  rooted : ∀ sql p, (Phrase.start sql, p) ∈ pairs → s.root ≠ none

variable {base : Heap} {s : ParserState} {pairs : List (Phrase × Nat)}

theorem skipInvalid_heap (invalid : List UInt8) (s : ParserState) :
    (skipInvalid invalid s).heap = s.heap ∧ (skipInvalid invalid s).root = s.root := by
  induction invalid generalizing s with
  | nil =>
      exact ⟨rfl, rfl⟩
  | cons c cs ih =>
      obtain ⟨hheap, hroot⟩ := ih (s.setError (unrecognized c))
      have hset : (s.setError (unrecognized c)).heap = s.heap ∧
          (s.setError (unrecognized c)).root = s.root := by
        rw [ParserState.setError]
        split <;> exact ⟨rfl, rfl⟩
      exact ⟨hheap.trans hset.1, hroot.trans hset.2⟩

theorem Owned.skip (howned : Owned base s pairs) (invalid : List UInt8) :
    Owned base (skipInvalid invalid s) pairs := by
  obtain ⟨hheap, hroot⟩ := skipInvalid_heap invalid s
  refine ⟨?_, fun p hp => howned.root p ?_, fun sql p hmem => ?_⟩
  · rw [hheap]
    exact howned.reached
  · rw [← hroot]
    exact hp
  · rw [hroot]
    exact howned.rooted sql p hmem

/-- A token whose node is built by the lexer. -/
theorem Owned.lex {act : StateM Heap Nat} {t : SyntaxNode} {token : Token QuotedText}
    (howned : Owned base s pairs) (hact : Builds act t)
    (htree : (Phrase.token token).tree = some t) :
    Owned base (lexNode act s).2 ((Phrase.token token, (lexNode act s).1) :: pairs) := by
  refine ⟨?_, fun p hp => ?_, fun sql p hmem => ?_⟩
  · have htrees : treesOf ((Phrase.token token, (lexNode act s).1) :: pairs) =
        ((lexNode act s).1, t) :: treesOf pairs := by
      simp [treesOf, htree]
    rw [htrees]
    exact hact.triple _ base s.heap howned.reached
  · obtain ⟨sql, hmem⟩ := howned.root p hp
    exact ⟨sql, List.mem_cons_of_mem _ hmem⟩
  · rcases List.mem_cons.mp hmem with heq | hmem
    · cases heq
    · exact howned.rooted sql p hmem

/-- A token without a node. -/
theorem Owned.bare {token : Token QuotedText} (howned : Owned base s pairs)
    (htree : (Phrase.token token).tree = none) (p : Nat) :
    Owned base s ((Phrase.token token, p) :: pairs) := by
  refine ⟨?_, fun q hq => ?_, fun sql q hmem => ?_⟩
  · have htrees : treesOf ((Phrase.token token, p) :: pairs) = treesOf pairs := by
      simp [treesOf, htree]
    rw [htrees]
    exact howned.reached
  · obtain ⟨sql, hmem⟩ := howned.root q hq
    exact ⟨sql, List.mem_cons_of_mem _ hmem⟩
  · rcases List.mem_cons.mp hmem with heq | hmem
    · cases heq
    · exact howned.rooted sql q hmem

theorem Owned.read (howned : Owned base s pairs) (x : Lexeme) :
    Owned base (readLexeme x s).2 ((Phrase.token x.token, (readLexeme x s).1) :: pairs) := by
  have hskip := howned.skip x.invalid
  rw [readLexeme]
  cases htoken : x.token with
  | IDENTIFIER text =>
      exact hskip.lex (builds_identifier text) rfl
  | STRING text =>
      exact hskip.lex (builds_string text) rfl
  | NUMBER text =>
      exact hskip.lex (builds_number text) rfl
  | _ =>
      exact hskip.bare rfl 0

/-- Only the symbol `start` stands for a statement with its semicolon. -/
theorem stands_start {n : Nat} {sql : Sql} (h : Stands n (.start sql)) : n = 55 := by
  unfold Stands at h
  split at h <;> simp_all

theorem derives_start_symbol {Y : GrammarSymbol Terminal Nonterminal} {sql : Sql}
    (h : Derives grammar phrases [Y] [.start sql] w d) : Y = .nonterminal grammar.start := by
  rcases (derives_stands h).1 with _ | ⟨hstands, _⟩
  have hnumber := stands_start hstands
  cases Y with
  | terminal t =>
      rw [symbolNumber] at hnumber
      omega
  | nonterminal B =>
      rw [symbolNumber, YYNTOKENS] at hnumber
      rw [show B = grammar.start from Fin.ext (by simpa [grammar] using hnumber)]

/-- `start` is on no right-hand side. -/
theorem start_notMem_rhs : ∀ r : Rule, 55 ∉ (grammar.rhs r).map symbolNumber := by
  decide +kernel

/-- Only rule 2 is for `start`. -/
theorem start_lhs : ∀ r : Rule, symbolNumber (.nonterminal (grammar.lhs r)) = 55 →
    r.number = 2 := by
  decide +kernel

theorem start_notMem {r : Rule} {us : List (Phrase × Nat)} {sql : Sql} {p : Nat}
    (hstands : List.Forall₂ Stands ((grammar.rhs r).map symbolNumber) (us.map Prod.fst)) :
    (Phrase.start sql, p) ∉ us := by
  intro hmem
  obtain ⟨n, hn, hstart⟩ : ∃ n ∈ (grammar.rhs r).map symbolNumber, Stands n (.start sql) := by
    have hfst : Phrase.start sql ∈ us.map Prod.fst := List.mem_map_of_mem hmem
    obtain ⟨k, hk, hget⟩ := List.getElem_of_mem hfst
    have hlen := hstands.length_eq
    have hat := hstands.get (i := k) (by omega) hk
    rw [List.get_eq_getElem, List.get_eq_getElem, hget] at hat
    exact ⟨_, List.getElem_mem _, hat⟩
  rw [stands_start hstart] at hn
  exact start_notMem_rhs r hn

theorem treesOf_perm {pairs' : List (Phrase × Nat)} (hperm : pairs.Perm pairs') :
    (treesOf pairs).Perm (treesOf pairs') :=
  hperm.flatMap_right _

theorem reduceRule_eq (r : Rule) (values : List Nat) (s : ParserState) :
    (reduceRule r values s).1 =
      (yyaction r.number (fun k => values.getD (k - 1) 0) s.heap).1 ∧
    (reduceRule r values s).2.heap =
      (yyaction r.number (fun k => values.getD (k - 1) 0) s.heap).2 ∧
    (reduceRule r values s).2.root =
      if r.number = 2 then some (reduceRule r values s).1 else s.root := by
  rw [reduceRule]
  split
  · exact ⟨rfl, rfl, rfl⟩
  · exact ⟨rfl, rfl, rfl⟩

/-- A rule replaces the trees of its right-hand side. -/
theorem Owned.reduce {r : Rule} {front us rest : List (Phrase × Nat)}
    (hd : Derives grammar phrases (grammar.rhs r) (us.map Prod.fst) w d)
    (howned : Owned base s (front ++ us.reverse ++ rest)) :
    Owned base (reduceRule r (us.map Prod.snd) s).2
      (front ++ (Phrase.node r.number (us.map Prod.fst),
        (reduceRule r (us.map Prod.snd) s).1) :: rest) := by
  obtain ⟨hstands, _⟩ := derives_stands hd
  obtain ⟨hlhs, _, htriple⟩ := rule_handled r _ hstands
  obtain ⟨hvalue, hheap, hroot⟩ := reduceRule_eq r (us.map Prod.snd) s
  have hbefore : (front ++ us.reverse ++ rest).Perm (us ++ (front ++ rest)) := by
    rw [← List.append_assoc]
    exact (List.perm_append_comm.trans (us.reverse_perm.append_right front)).append_right rest
  refine ⟨?_, fun p hp => ?_, fun sql p hmem => ?_⟩
  · let yyvsp : Nat → Nat := fun k => (us.map Prod.snd).getD (k - 1) 0
    have hact := htriple yyvsp (treesOf (front ++ rest)) base s.heap
    rw [treesFrom_eq us 1 yyvsp fun k => by simp only [yyvsp, Nat.add_sub_cancel_left],
      ← treesOf_append] at hact
    have hnew := hact (howned.reached.perm (treesOf_perm hbefore))
    have hafter : treesFrom 1 (fun _ => (yyaction r.number yyvsp s.heap).1)
        [Phrase.node r.number (us.map Prod.fst)] ++ treesOf (front ++ rest) =
        treesOf ((Phrase.node r.number (us.map Prod.fst),
          (yyaction r.number yyvsp s.heap).1) :: (front ++ rest)) := by
      simp [treesFrom, treesOf]
    simp only [hafter] at hnew
    rw [hvalue, hheap]
    exact hnew.perm (treesOf_perm List.perm_middle.symm)
  · rw [hroot] at hp
    split at hp
    · next htwo =>
        -- The rule of `start`.
        obtain rfl : r = 0 := Fin.ext (by rw [Rule.number] at htwo; simpa using htwo)
        obtain ⟨sql, hsql⟩ := hlhs
        refine ⟨sql, List.mem_append_right _ ?_⟩
        rw [← Option.some.inj hp, ← hsql]
        exact List.mem_cons_self
    · obtain ⟨sql, hmem⟩ := howned.root p hp
      rcases List.mem_append.mp (hbefore.mem_iff.mp hmem) with hmem | hmem
      · exact absurd hmem (start_notMem hstands)
      · exact ⟨sql, List.perm_middle.symm.mem_iff.mp (List.mem_cons_of_mem _ hmem)⟩
  · rw [hroot]
    split
    · exact Option.some_ne_none _
    · next hne =>
        rcases List.mem_cons.mp (List.perm_middle.mem_iff.mp hmem) with heq | hmem
        · rw [← (Prod.mk.inj heq).1] at hlhs
          exact absurd (start_lhs r (stands_start hlhs)) hne
        · exact howned.rooted sql p (hbefore.mem_iff.mpr (List.mem_append_right _ hmem))

theorem client_keeps (base : Heap) (trailing : List UInt8) :
    (client trailing).Keeps grammar phrases (Owned base) where
  read x _ _ howned := howned.read x
  readEnd _ _ howned := howned.skip trailing
  reduce _ _ _ _ _ _ _ hd howned := howned.reduce hd

/-! ## The end of a run -/

theorem yyparse_stops (w : List Lexeme) (trailing : List UInt8) (s : ParserState) :
    (yyrun w trailing s).status ≠ .running :=
  tables_sound.halts_client (M := phrases) rfl tables_ranked w s

/-- The tree is on the heap at the address. -/
def Built (h : Heap) (t : SyntaxNode) (p : Nat) : Prop :=
  ∃ s, Holds h t (some p) s ∧ ∀ a ∈ s, a < h.count

theorem Built.read {h : Heap} {t : SyntaxNode} {p : Nat} (hbuilt : Built h t p) :
    h.read h.count (some p) = t := by
  obtain ⟨s, hold, hlt⟩ := hbuilt
  have hsub : s ⊆ Finset.range h.count := fun a ha => Finset.mem_range.mpr (hlt a ha)
  exact hold.read (by simpa using Finset.card_le_card hsub)

theorem Owns.mem {h : Heap} {vs : List (Nat × SyntaxNode)} {s : Finset Nat} (hown : Owns h vs s)
    {p : Nat} {t : SyntaxNode} (hmem : (p, t) ∈ vs) : ∃ s' ⊆ s, Holds h t (some p) s' := by
  induction vs generalizing s with
  | nil =>
      cases hmem
  | cons v vs ih =>
      obtain ⟨s₁, s₂, hold, hrest, _, rfl⟩ := hown
      rcases List.mem_cons.mp hmem with rfl | hmem
      · exact ⟨s₁, Finset.subset_union_left, hold⟩
      · obtain ⟨s', hsub, hold'⟩ := ih hrest hmem
        exact ⟨s', hsub.trans Finset.subset_union_right, hold'⟩

theorem Owned.built (howned : Owned base s pairs) {v : Phrase} {t : SyntaxNode} {p : Nat}
    (hmem : (v, p) ∈ pairs) (htree : v.tree = some t) : Built s.heap t p := by
  obtain ⟨a, hown, hlt⟩ := howned.reached.owns
  have hmem' : (p, t) ∈ treesOf pairs :=
    List.mem_flatMap.mpr ⟨(v, p), hmem, by simp [htree]⟩
  obtain ⟨s', hsub, hold⟩ := hown.mem hmem'
  exact ⟨s', hold, fun b hb => (hlt b (hsub hb)).2⟩

theorem number_of_ruleOf {n : Nat} {r : Rule} (h : ruleOf n = some r) : r.number = n := by
  rw [ruleOf] at h
  split at h
  · next hn =>
      cases h
      exact Nat.sub_add_cancel hn.1
  · cases h

/-- `start` is derived at the bottom of the stack only. -/
theorem start_item (s : State) (item : Option Rule × Nat) (hitem : item ∈ itemsOf s)
    (hzero : item.2 = 0) (r : Rule) (hr : r ∈ item.1) (hlhs : grammar.lhs r = grammar.start) :
    s = automaton.initial := by
  have htable : ∀ s : State, (2, 0) ∈ itemTable.getD s [] → s = automaton.initial := by
    decide +kernel
  have htwo : r.number = 2 := start_lhs r (by rw [hlhs]; rfl)
  obtain ⟨⟨n, i⟩, hmem, rfl⟩ := List.mem_map.mp hitem
  obtain rfl : n = 2 := (number_of_ruleOf hr).symm.trans htwo
  obtain rfl : i = 0 := hzero
  exact htable s hmem

/-- The parser at the end of its run, with the phrases of the values. -/
def yyphrases (w : List Lexeme) (trailing : List UInt8) (h : Heap) :
    Config State Lexeme (Phrase × Nat) ParserState :=
  automaton.run ((client trailing).ghost phrases) YYMAXDEPTH (w.length * 8 + 1)
    (Automaton.begin w (.init h))

theorem yyrun_eq (w : List Lexeme) (trailing : List UInt8) (h : Heap) :
    yyrun w trailing (.init h) = (yyphrases w trailing h).map Prod.snd id :=
  run_ghost phrases _

theorem yyphrases_follows (w : List Lexeme) (trailing : List UInt8) (h : Heap) :
    (∃ Ys, (yyphrases w trailing h).Follows grammar automaton itemsOf phrases Prod.fst w Ys) ∧
      Owned h (yyphrases w trailing h).state (yyphrases w trailing h).values := by
  have hI : Owned h (ParserState.init h) [] := ⟨Reached.refl h, nofun, nofun⟩
  exact run_keeps tables_sound rfl (client_keeps h trailing) hI (w.length * 8 + 1)

/-- The lookahead is a token. -/
theorem start_notMem_ahead {c : Config State Lexeme (Phrase × Nat) ParserState} {sql : Sql}
    {p : Nat} (hc : c.Proper phrases Prod.fst) : (Phrase.start sql, p) ∉ c.ahead := by
  intro hmem
  rw [Config.ahead] at hmem
  split at hmem
  · next x v hlook =>
      have hleaf := hc.leaf x v hlook
      rw [← List.mem_singleton.mp hmem] at hleaf
      cases hleaf
  · cases hmem

/-- When there is a root, it has the tree of a statement that the input starts with, whether the
parser went on from there or not. -/
theorem yyrun_root {h : Heap} {w : List Lexeme} {trailing : List UInt8} {p : Nat}
    (hroot : (yyrun w trailing (.init h)).state.root = some p) :
    ∃ sql u z, w = u ++ z ∧ u.map Lexeme.token = startTokens sql ∧
      Built (yyrun w trailing (.init h)).state.heap sql.tree p := by
  obtain ⟨⟨Ys, hfollows⟩, howned⟩ := yyphrases_follows w trailing h
  rw [yyrun_eq] at hroot ⊢
  obtain ⟨sql, hmem⟩ := howned.root p hroot
  obtain ⟨u, hst, hword⟩ := hfollows.stacked
  rcases List.mem_append.mp hmem with hahead | hstack
  · exact absurd hahead (start_notMem_ahead hfollows.proper)
  · obtain ⟨⟨s, v⟩, hentry, hv⟩ := List.mem_map.mp hstack
    obtain rfl : v = (.start sql, p) := hv
    obtain ⟨st, Ys', u', w', z, Y, d, hst', rfl, hd, hitem⟩ := hst.mem hentry
    have hY := derives_start_symbol hd
    obtain ⟨r, hlhs, hzero⟩ := hitem _ hY
    obtain ⟨_, rfl⟩ := hst'.eq_nil (start_item _ _ hzero rfl r rfl hlhs)
    rw [hY] at hd
    obtain ⟨sql', hsql, htokens⟩ := derives_start hd
    cases hsql
    refine ⟨sql, w', z ++ (yyphrases w trailing h).pending, ?_, htokens, howned.built hmem rfl⟩
    rw [List.nil_append, List.append_assoc] at hword
    exact hword.symm

end Parser
end MiniSQL
