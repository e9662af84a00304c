import MiniSQL.Parser.YaccTables
import Mathlib.Data.Fintype.Option

/-!
# YaccItems — what the tables of the parser stand for

The items of every state, and the tokens that start and that follow a nonterminal.  The tables do
what these ask for and nothing else (`tables_sound`, `tables_complete`), and no state goes on after
a syntax error (`no_error_shift`).
-/

namespace MiniSQL
namespace Parser

open Lib.LR

/-! ## Items -/

/-- The items of the states: numbers of rules, with how much of their right-hand side was read. -/
def itemTable : List (List (Nat × Nat)) :=
  [
   [(1, 0), (2, 0), (3, 0), (4, 0), (5, 0), (6, 0), (7, 0), (8, 0), (9, 0), (10, 0), (11, 0),
    (12, 0), (13, 0), (14, 0), (15, 0), (16, 0), (17, 0), (18, 0), (19, 0), (20, 0), (21, 0),
    (22, 0), (23, 0), (24, 0), (25, 0), (26, 0), (27, 0), (38, 0), (39, 0), (40, 0), (41, 0),
    (42, 0), (43, 0), (44, 0), (63, 0), (66, 0), (67, 0), (68, 0), (69, 0), (73, 0), (74, 0),
    (75, 0), (76, 0), (77, 0)],
   [(22, 1), (27, 1), (39, 1), (40, 1)], [(23, 1), (38, 1), (41, 1)],
   [(28, 0), (29, 0), (43, 1), (44, 1), (45, 0), (46, 0)], [(63, 1)], [(66, 1), (67, 1)],
   [(68, 1), (69, 1)], [(73, 1)], [(74, 1)], [(75, 1)], [(76, 1)], [(77, 1)],
   [(24, 1), (26, 1), (42, 1)], [(25, 1)], [(1, 1)], [(2, 1)], [(3, 1)], [(4, 1)], [(5, 1)],
   [(6, 1)], [(7, 1)], [(8, 1)], [(9, 1)], [(10, 1)], [(11, 1)], [(12, 1)], [(13, 1)], [(14, 1)],
   [(15, 1)], [(16, 1)], [(17, 1)], [(18, 1)], [(19, 1)], [(20, 1)], [(21, 1)], [(22, 2)],
   [(27, 2)], [(39, 2), (40, 2)], [(23, 2)], [(38, 2)], [(41, 2)], [(28, 1), (29, 1)], [(45, 1)],
   [(46, 1)], [(43, 2), (44, 2)], [(63, 2)], [(66, 2), (67, 2)], [(68, 2), (69, 2)], [(77, 2)],
   [(24, 2)], [(26, 2)], [(42, 2)], [(25, 2)], [], [(2, 2)], [(22, 3)], [(27, 3)],
   [(39, 3), (40, 3)], [(23, 3)], [(38, 3)], [(41, 3)], [(28, 0), (28, 2), (29, 0)],
   [(43, 3), (44, 3)], [(63, 3)], [(66, 3), (67, 3)],
   [(68, 3), (69, 3), (70, 0), (71, 0), (72, 0)],
   [(27, 4), (30, 0), (31, 0), (32, 0), (33, 0), (34, 0)], [(39, 4), (40, 4)], [(28, 3)],
   [(43, 4), (44, 4)], [(63, 4)], [(47, 0), (48, 0), (51, 0), (67, 4)], [(72, 1)],
   [(68, 4), (69, 4)], [(70, 1), (71, 1)], [(32, 1)],
   [(33, 1), (34, 1), (35, 0), (36, 0), (37, 0)], [(27, 5)], [(30, 1), (31, 1)],
   [(39, 5), (40, 5)], [(44, 5), (47, 0), (48, 0), (51, 0)],
   [(52, 0), (53, 0), (54, 0), (63, 5), (64, 0), (65, 0)],
   [(51, 1), (55, 0), (56, 0), (57, 0), (58, 0), (59, 0), (60, 0), (61, 0), (62, 0)],
   [(47, 1), (49, 0), (50, 0), (67, 5)], [(48, 1)], [(52, 0), (53, 0), (54, 0), (72, 2)],
   [(47, 0), (48, 0), (51, 0), (69, 5)], [(70, 0), (70, 2), (71, 0), (72, 0)], [(32, 2)],
   [(37, 1)], [(35, 1)], [(36, 1)], [(33, 2), (34, 2)], [(27, 6)],
   [(30, 0), (30, 2), (31, 0), (32, 0), (33, 0), (34, 0)], [(28, 0), (29, 0), (39, 6), (40, 6)],
   [(44, 6), (47, 1), (49, 0), (50, 0)], [(54, 1)], [(52, 1)], [(53, 1)], [(64, 1), (65, 1)],
   [(63, 6)], [(62, 1)], [(61, 1)], [(55, 1)], [(56, 1)], [(57, 1)], [(58, 1)], [(59, 1)],
   [(60, 1)], [(51, 2), (52, 0), (53, 0), (54, 0)], [(49, 1)], [(50, 1)], [(47, 2), (51, 0)],
   [(72, 3)], [(47, 1), (49, 0), (50, 0), (69, 6)], [(70, 3)], [(28, 0), (29, 0), (32, 3)],
   [(37, 2)], [(33, 3)], [(30, 3)], [(39, 7), (40, 7)],
   [(52, 0), (53, 0), (54, 0), (64, 0), (64, 2), (65, 0)], [(63, 7)], [(51, 3)], [(47, 3)],
   [(32, 4)], [(37, 3)], [(39, 8), (40, 8)], [(64, 3)], [(32, 5)], [(37, 4)], [(40, 9)],
   [(40, 10)]]

def itemsOf (s : State) : List (Option Rule × Nat) :=
  (itemTable.getD s []).map fun item => (ruleOf item.1, item.2)

/-! ## Tokens that start and follow nonterminals -/

def firstTable : List (List Nat) :=
  [[], [3, 4, 5, 6, 7, 8, 9, 10, 11, 12, 13, 14, 15],
   [3, 4, 5, 6, 7, 8, 9, 10, 11, 12, 13, 14, 15], [3], [4], [14], [15], [14], [3], [40],
   [29, 40], [40], [32, 33, 34], [4], [3], [4], [14], [5], [40, 51], [40], [35, 36], [40],
   [39, 41, 42], [37, 38, 43, 44, 45, 46, 52, 53], [6], [39, 41, 42], [7], [8], [40], [40], [9],
   [10], [11], [12], [13]]

/-- The statement may have anything behind it: it is reduced before the next token is read. -/
def followTable : List (List Nat) :=
  [[], List.range 54, [47], [47], [47], [47], [47], [47], [47], [24, 49], [49], [49, 50],
   [31, 49, 50], [47], [47], [47], [47], [47], [24], [35, 36, 47], [40], [35, 36, 47],
   [25, 35, 36, 47, 49, 50], [39, 41, 42], [47], [49], [47], [47], [25, 47], [25, 47, 50], [47],
   [47], [47], [47], [47]]

def firstOf (B : Nonterminal) : List Terminal :=
  (firstTable.getD B []).map terminal

def followOf (B : Nonterminal) : List (Option Terminal) :=
  (followTable.getD B []).map fun n => if n = 0 then none else some (terminal n)

/-- A rank that falls along the rules with one symbol. -/
def rankOf : GrammarSymbol Terminal Nonterminal → Nat
  | .terminal _ => 3
  | .nonterminal B => if B.val ∈ [2, 10, 18, 19, 25, 28] then 1 else 2

/-! ## The tables against the items -/

/-- The decision for a token is the default of the state or an entry of the tables for the token. -/
theorem yybackup_cases (s : State) (yytoken : Nat) :
    yybackup s yytoken = yydefault s ∨ yypact.getD s 0 ≠ YYPACT_NINF ∧
      ∃ i : Fin 107, yycheck.getD i 0 = yytoken ∧ yypact.getD s 0 + yytoken = i ∧
        yybackup s yytoken = decisionOf (yytable.getD i 0) := by
  by_cases hninf : yypact.getD s 0 = YYPACT_NINF
  · exact .inl (by simp only [yybackup, if_pos hninf])
  · by_cases hout : yypact.getD s 0 + yytoken < 0 ∨ YYLAST < yypact.getD s 0 + yytoken ∨
        yycheck.getD (yypact.getD s 0 + yytoken).toNat 0 ≠ yytoken
    · exact .inl (by simp only [yybackup, if_neg hninf, if_pos hout])
    · have heq : yybackup s yytoken =
          decisionOf (yytable.getD (yypact.getD s 0 + yytoken).toNat 0) := by
        simp only [yybackup, if_neg hninf, if_neg hout]
      rw [not_or, not_or, not_lt, not_lt, not_not] at hout
      obtain ⟨hpos, hlast, hcheck⟩ := hout
      rw [YYLAST] at hlast
      exact .inr ⟨hninf, ⟨(yypact.getD s 0 + yytoken).toNat, by omega⟩, hcheck,
        (Int.toNat_of_nonneg hpos).symm, heq⟩

/-- A default only reduces what is read. -/
def DefaultJustified (s : State) : Decision State Rule → Prop
  | .reduce r => (some r, (grammar.rhs r).length) ∈ itemsOf s
  | .error => True
  | _ => False

instance DefaultJustified.decidable (s : State) : ∀ d, Decidable (DefaultJustified s d)
  | .reduce r => inferInstanceAs (Decidable ((some r, (grammar.rhs r).length) ∈ itemsOf s))
  | .error => .isTrue trivial
  | .accept => .isFalse id
  | .shift _ => .isFalse id

theorem default_justified : ∀ s, DefaultJustified s (yydefault s) := by
  decide +kernel

def terminalOf (n : Nat) : Option Terminal :=
  if n = 0 then none else some (terminal n)

theorem terminalOf_tokenNumber (t : Option Terminal) : terminalOf (tokenNumber t) = t := by
  cases t with
  | none =>
      rfl
  | some t =>
      simp [terminalOf, tokenNumber, terminal, Fin.ofNat, Nat.mod_eq_of_lt t.isLt]

theorem entry_justified : ∀ s : State, yypact.getD s 0 ≠ YYPACT_NINF → ∀ i : Fin 107,
    0 ≤ yycheck.getD i 0 → yypact.getD s 0 + yycheck.getD i 0 = i →
      Justified grammar automaton itemsOf s (terminalOf (yycheck.getD i 0).toNat)
        (decisionOf (yytable.getD i 0)) := by
  decide +kernel

theorem action_justified (s : State) (t : Option Terminal) :
    Justified grammar automaton itemsOf s t (automaton.action s t) := by
  have hact : automaton.action s t = yybackup s (tokenNumber t) := rfl
  rw [hact]
  rcases yybackup_cases s (tokenNumber t) with hdefault | ⟨hninf, i, hcheck, hsum, hentry⟩
  · have hjust := default_justified s
    rw [hdefault]
    cases hd : yydefault s with
    | shift s' =>
        rw [hd] at hjust
        exact hjust.elim
    | reduce r =>
        rw [hd] at hjust
        exact hjust
    | accept =>
        rw [hd] at hjust
        exact hjust.elim
    | error =>
        trivial
  · have hjust := entry_justified s hninf i (by omega) (by omega)
    rw [hcheck, Int.toNat_natCast, terminalOf_tokenNumber] at hjust
    rw [hentry]
    exact hjust

/-- A state that needs no token takes its default for all. -/
theorem quick_action (s : State) (d : Decision State Rule) (hquick : automaton.quick s = some d)
    (t : Option Terminal) : automaton.action s t = d := by
  simp only [automaton] at hquick ⊢
  split at hquick
  · next hninf =>
      simp only [yybackup, if_pos hninf]
      exact Option.some.inj hquick
  · cases hquick

/-- The parser does what the grammar allows. -/
theorem tables_sound : Sound grammar automaton itemsOf where
  size := by decide +kernel
  left := fun _ => rfl
  initial := by decide +kernel
  grounded := by decide +kernel
  quick := quick_action
  action := action_justified

/-- The parser does all that the grammar allows. -/
theorem tables_complete : Complete grammar automaton itemsOf firstOf followOf where
  initial := by decide +kernel
  served := by decide +kernel
  starts := by decide +kernel
  follows := by decide +kernel
  ended := by decide +kernel

theorem tables_ranked : Ranked grammar rankOf 3 where
  le Y := by
    cases Y with
    | terminal _ =>
        exact le_refl 3
    | nonterminal B =>
        rw [rankOf]
        split <;> decide
  rhs := by decide +kernel

/-! ## Errors -/

/-- The test of `yyerrlab1`: the state shifts the token `error`, which has number 1. -/
def shiftsError (s : State) : Bool :=
  let yyn := yypact.getD s 0
  yyn ≠ YYPACT_NINF && 0 ≤ yyn + 1 && yyn + 1 ≤ YYLAST && yycheck.getD (yyn + 1).toNat 0 = 1 &&
    0 < yytable.getD (yyn + 1).toNat 0

/-- No state goes on after a syntax error, so the loop of `yyerrlab1` ends in `YYABORT`. -/
theorem no_error_shift : ∀ s, shiftsError s = false := by
  decide +kernel

end Parser
end MiniSQL
