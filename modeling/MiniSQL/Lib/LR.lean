import Mathlib.Data.List.Basic
import Mathlib.Logic.Function.Iterate
import Mathlib.Tactic

/-!
# LR — parsers driven by tables

The driver of a shift-reduce parser and what its tables have to satisfy for it to recognise a
grammar.  A state that needs no lookahead decides before a token is read (`quick`), the stack has a
limit, and the actions of the grammar work on a state of their own.

* `Derives`: derivations of a word, with the value that an algebra gives to it and with the depth
  of stack that they take;
* `Items`: a set of items for every state, which the tables are checked against;
* `Items.sound`: what the parser accepts is derived, and the value is that of the derivation;
* `Items.halts`: a bound for the number of steps on every input.
-/

namespace MiniSQL
namespace Lib
namespace LR

variable {T N ι σ X V H : Type}

/-! ## Grammars -/

inductive GrammarSymbol (T N : Type)
  | terminal (t : T)
  | nonterminal (B : N)
  deriving DecidableEq

structure Grammar (T N ι : Type) where
  start : N
  lhs : ι → N
  rhs : ι → List (GrammarSymbol T N)

/-- The production, or the start symbol on its own. -/
def Grammar.body (G : Grammar T N ι) : Option ι → List (GrammarSymbol T N)
  | none => [.nonterminal G.start]
  | some r => G.rhs r

/-- Values for tokens and productions. -/
structure Algebra (T ι X V : Type) where
  kind : X → T
  leaf : X → V
  node : ι → List V → V

/-- The symbols derive the word with these values, on a stack that grows by `d` at most. -/
inductive Derives (G : Grammar T N ι) (M : Algebra T ι X V) :
    List (GrammarSymbol T N) → List V → List X → Nat → Prop
  | nil : Derives G M [] [] [] 0
  | leaf {Xs : List (GrammarSymbol T N)} {vs : List V} {w : List X} {d : Nat} (x : X) :
      Derives G M Xs vs w d →
      Derives G M (.terminal (M.kind x) :: Xs) (M.leaf x :: vs) (x :: w) (d + 1)
  | node {Xs : List (GrammarSymbol T N)} {us vs : List V} {u w : List X} {e d : Nat} (r : ι) :
      Derives G M (G.rhs r) us u e → Derives G M Xs vs w d →
      Derives G M (.nonterminal (G.lhs r) :: Xs) (M.node r us :: vs) (u ++ w) (max e (d + 1))

section Derives

variable {G : Grammar T N ι} {M : Algebra T ι X V} {Xs Ys : List (GrammarSymbol T N)}
  {us vs : List V} {u w : List X} {d e : Nat}

theorem Derives.append (h : Derives G M Xs vs w d) (h' : Derives G M Ys us u e) :
    ∃ d', Derives G M (Xs ++ Ys) (vs ++ us) (w ++ u) d' := by
  induction h with
  | nil =>
      exact ⟨e, h'⟩
  | leaf x _ ih =>
      obtain ⟨d', hd⟩ := ih
      exact ⟨_, hd.leaf x⟩
  | node r hr _ _ ih =>
      obtain ⟨d', hd⟩ := ih
      rw [List.append_assoc]
      exact ⟨_, hr.node r hd⟩

theorem Derives.length_eq (h : Derives G M Xs vs w d) : vs.length = Xs.length := by
  induction h with
  | nil =>
      rfl
  | leaf x _ ih =>
      simp [ih]
  | node r _ _ _ ih =>
      simp [ih]

end Derives

/-! ## The driver -/

inductive Decision (σ ι : Type)
  | shift (s : σ)
  | reduce (r : ι)
  | accept
  | error
  deriving DecidableEq

/-- The tables.  A production pops `size` states and pushes the one for `left`; at the end of the
input there is no token to act on. -/
structure Automaton (T N ι σ : Type) where
  initial : σ
  quick : σ → Option (Decision σ ι)
  action : σ → Option T → Decision σ ι
  goto : σ → N → σ
  size : ι → Nat
  left : ι → N

/-- What is done for tokens and productions, on a state `H`. -/
structure Client (T ι X V H : Type) where
  kind : X → T
  read : X → H → V × H
  readEnd : H → H
  reduce : ι → List V → H → V × H

inductive Status
  | running
  | accepted
  | rejected
  | exhausted
  deriving DecidableEq

/-- The stack above the initial state, the token that was read but not shifted, and the input. -/
structure Config (σ X V H : Type) where
  stack : List (σ × V)
  lookahead : Option (Option (X × V))
  input : List X
  state : H
  status : Status

namespace Automaton

variable (A : Automaton T N ι σ)

/-- The state on top. -/
def top : List (σ × V) → σ
  | [] => A.initial
  | (s, _) :: _ => s

/-- The parser before the first step. -/
def begin (w : List X) (h : H) : Config σ X V H :=
  ⟨[], none, w, h, .running⟩

/-- A new state on the stack, which may hold fewer than `L` states. -/
def push (L : Nat) (s : σ) (v : V) (c : Config σ X V H) : Config σ X V H :=
  { c with
    stack := (s, v) :: c.stack
    status := if L ≤ c.stack.length + 2 then .exhausted else c.status }

variable (C : Client T ι X V H) (L : Nat)

/-- The lookahead is read when there is none. -/
def fetch (c : Config σ X V H) : Config σ X V H :=
  match c.lookahead with
  | some _ => c
  | none =>
    match c.input with
    | [] => { c with lookahead := some none, state := C.readEnd c.state }
    | x :: xs =>
      { c with
        lookahead := some (some (x, (C.read x c.state).1))
        input := xs
        state := (C.read x c.state).2 }

/-- The kind of the lookahead. -/
def seen (c : Config σ X V H) : Option T :=
  c.lookahead.join.map fun x => C.kind x.1

def perform (c : Config σ X V H) : Decision σ ι → Config σ X V H
  | .shift s =>
    match c.lookahead with
    | some (some (_, v)) => push L s v { c with lookahead := none }
    | _ => { c with status := .rejected }
  | .reduce r =>
    let popped := (c.stack.take (A.size r)).map Prod.snd
    let result := C.reduce r popped.reverse c.state
    let below := c.stack.drop (A.size r)
    push L (A.goto (A.top below) (A.left r)) result.1
      { c with stack := below, state := result.2 }
  | .accept => { c with status := .accepted }
  | .error => { c with status := .rejected }

def step (c : Config σ X V H) : Config σ X V H :=
  match c.status with
  | .running =>
    match A.quick (A.top c.stack) with
    | some d => A.perform C L c d
    | none =>
      A.perform C L (fetch C c) (A.action (A.top c.stack) (seen C (fetch C c)))
  | _ => c

/-- The parser after `n` steps. -/
def run (n : Nat) (c : Config σ X V H) : Config σ X V H :=
  (A.step C L)^[n] c

end Automaton

/-- The client that computes values only. -/
def Algebra.client (M : Algebra T ι X V) : Client T ι X V Unit where
  kind := M.kind
  read x _ := (M.leaf x, ())
  readEnd _ := ()
  reduce r vs _ := (M.node r vs, ())

/-! ## Items

An item is a production with the number of symbols of its right-hand side that are on the stack. -/

section Items

/-- From `p` the symbol leads to `s`: what `s` has behind it ends in the symbol and starts in
`p`. -/
def Enters (G : Grammar T N ι) (A : Automaton T N ι σ) (items : σ → List (Option ι × Nat)) (p : σ)
    (Y : GrammarSymbol T N) (s : σ) : Prop :=
  s ≠ A.initial ∧ ∀ item ∈ items s, item.2 ≠ 0 →
    (G.body item.1)[item.2 - 1]? = some Y ∧ (item.1, item.2 - 1) ∈ items p

instance Enters.decidable [DecidableEq T] [DecidableEq N] [DecidableEq ι] [DecidableEq σ]
    (G : Grammar T N ι) (A : Automaton T N ι σ) (items : σ → List (Option ι × Nat)) (p : σ)
    (Y : GrammarSymbol T N) (s : σ) : Decidable (Enters G A items p Y s) :=
  inferInstanceAs (Decidable (s ≠ A.initial ∧ ∀ item ∈ items s, item.2 ≠ 0 →
    (G.body item.1)[item.2 - 1]? = some Y ∧ (item.1, item.2 - 1) ∈ items p))

/-- The items of the state allow the decision for the token. -/
def Justified (G : Grammar T N ι) (A : Automaton T N ι σ) (items : σ → List (Option ι × Nat))
    (s : σ) (t : Option T) : Decision σ ι → Prop
  | .shift s' => ∃ x ∈ t, Enters G A items s (.terminal x) s'
  | .reduce r => (some r, (G.rhs r).length) ∈ items s
  | .accept => t = none ∧ (none, 1) ∈ items s
  | .error => True

instance Justified.decidable [DecidableEq T] [DecidableEq N] [DecidableEq ι] [DecidableEq σ]
    (G : Grammar T N ι) (A : Automaton T N ι σ) (items : σ → List (Option ι × Nat)) (s : σ) :
    ∀ t d, Decidable (Justified G A items s t d)
  | some x, .shift s' =>
    decidable_of_iff (Enters G A items s (.terminal x) s') ⟨fun h => ⟨x, rfl, h⟩, fun h =>
      match h with
      | ⟨_, rfl, h⟩ => h⟩
  | none, .shift _ => .isFalse fun h =>
      match h with
      | ⟨_, hx, _⟩ => nomatch hx
  | _, .reduce r => inferInstanceAs (Decidable ((some r, (G.rhs r).length) ∈ items s))
  | t, .accept => inferInstanceAs (Decidable (t = none ∧ (none, 1) ∈ items s))
  | _, .error => .isTrue trivial

/-- What an item at the start of a production asks of its state. -/
def Grounded (G : Grammar T N ι) (A : Automaton T N ι σ) (items : σ → List (Option ι × Nat))
    (s : σ) : Option ι × Nat → Prop
  | (none, 0) => s = A.initial
  | (some r, 0) => Enters G A items s (.nonterminal (G.lhs r)) (A.goto s (G.lhs r))
  | (_, _ + 1) => True

instance Grounded.decidable [DecidableEq T] [DecidableEq N] [DecidableEq ι] [DecidableEq σ]
    (G : Grammar T N ι) (A : Automaton T N ι σ) (items : σ → List (Option ι × Nat)) (s : σ) :
    ∀ item, Decidable (Grounded G A items s item)
  | (none, 0) => inferInstanceAs (Decidable (s = A.initial))
  | (some _, 0) => Enters.decidable ..
  | (none, _ + 1) => .isTrue trivial
  | (some _, _ + 1) => .isTrue trivial

/-- The tables do only what their items allow. -/
structure Sound (G : Grammar T N ι) (A : Automaton T N ι σ) (items : σ → List (Option ι × Nat)) :
    Prop where
  size : ∀ r, A.size r = (G.rhs r).length
  left : ∀ r, A.left r = G.lhs r
  initial : ∀ item ∈ items A.initial, item.2 = 0
  grounded : ∀ s, ∀ item ∈ items s, Grounded G A items s item
  quick : ∀ s d, A.quick s = some d → ∀ t, A.action s t = d
  action : ∀ s t, Justified G A items s t (A.action s t)

end Items

/-! ## Soundness -/

/-- The values of a client stand for those of an algebra. -/
structure Client.Models {V' : Type} (C : Client T ι X V' H) (M : Algebra T ι X V)
    (val : V' → V) : Prop where
  kind : C.kind = M.kind
  read : ∀ x h, val (C.read x h).1 = M.leaf x
  reduce : ∀ r vs h, val (C.reduce r vs h).1 = M.node r (vs.map val)

/-- What is still to be shifted. -/
def Config.pending (c : Config σ X V H) : List X :=
  match c.lookahead with
  | some (some (x, _)) => x :: c.input
  | _ => c.input

/-- The end is seen only when no input is left, and a token that was read has its value. -/
structure Config.Proper {V' : Type} (M : Algebra T ι X V) (val : V' → V) (c : Config σ X V' H) :
    Prop where
  ended : c.lookahead = some none → c.input = []
  leaf : ∀ x v, c.lookahead = some (some (x, v)) → val v = M.leaf x

theorem Config.Proper.of_none {V' : Type} {M : Algebra T ι X V} {val : V' → V}
    {c : Config σ X V' H} (h : c.lookahead = none) : c.Proper M val :=
  ⟨fun hl => by simp [h] at hl, fun x v hl => by simp [h] at hl⟩

/-- The states of the stack are those for the symbols, which derive the word. -/
inductive Stacked {V' : Type} (G : Grammar T N ι) (A : Automaton T N ι σ)
    (items : σ → List (Option ι × Nat)) (M : Algebra T ι X V) (val : V' → V) :
    List (σ × V') → List (GrammarSymbol T N) → List X → Prop
  | nil : Stacked G A items M val [] [] []
  | cons {st : List (σ × V')} {Ys : List (GrammarSymbol T N)} {u w : List X} {s : σ} {v : V'}
      {Y : GrammarSymbol T N} {d : Nat} : Stacked G A items M val st Ys u →
      Enters G A items (A.top st) Y s →
      (∀ B, Y = .nonterminal B → ∃ r, G.lhs r = B ∧ (some r, 0) ∈ items (A.top st)) →
      Derives G M [Y] [val v] w d → Stacked G A items M val ((s, v) :: st) (Y :: Ys) (u ++ w)

section Sound

variable {V' : Type} {G : Grammar T N ι} {A : Automaton T N ι σ}
  {items : σ → List (Option ι × Nat)} {M : Algebra T ι X V} {C : Client T ι X V' H} {val : V' → V}
  {L : Nat} {c : Config σ X V' H} {st : List (σ × V')} {Ys : List (GrammarSymbol T N)}
  {u w : List X}

theorem fetch_stack (C : Client T ι X V' H) (c : Config σ X V' H) :
    (Automaton.fetch C c).stack = c.stack := by
  rw [Automaton.fetch]
  split
  · rfl
  · split <;> rfl

theorem fetch_status (C : Client T ι X V' H) (c : Config σ X V' H) :
    (Automaton.fetch C c).status = c.status := by
  rw [Automaton.fetch]
  split
  · rfl
  · split <;> rfl

/-- Reading the lookahead leaves what is to be shifted as it is. -/
theorem fetch_pending (C : Client T ι X V' H) (c : Config σ X V' H) :
    (Automaton.fetch C c).pending = c.pending := by
  rcases c with ⟨stack, _ | _ | ⟨x, v⟩, input, state, status⟩
  · cases input <;> rfl
  · rfl
  · rfl

theorem fetch_proper (hC : C.Models M val) (hc : c.Proper M val) :
    (Automaton.fetch C c).Proper M val := by
  rcases c with ⟨stack, _ | _ | ⟨x, v⟩, input, state, status⟩
  · cases input with
    | nil =>
        refine ⟨fun _ => rfl, fun y v h => ?_⟩
        exact absurd (Option.some.inj h) nofun
    | cons x xs =>
        refine ⟨fun h => absurd (Option.some.inj h) nofun, fun y v h => ?_⟩
        obtain ⟨rfl, rfl⟩ := Prod.mk.inj (Option.some.inj (Option.some.inj h))
        exact hC.read x state
  · exact hc
  · exact hc

theorem seen_fetch (C : Client T ι X V' H) (hc : c.Proper M val) :
    Automaton.seen C (Automaton.fetch C c) = c.pending.head?.map C.kind := by
  rcases c with ⟨stack, _ | _ | ⟨x, v⟩, input, state, status⟩
  · cases input <;> rfl
  · obtain rfl : input = [] := hc.ended rfl
    rfl
  · rfl

/-- The next token is the lookahead once it is read. -/
theorem fetch_lookahead {x : X} {z : List X} (C : Client T ι X V' H) (hnext : c.pending = x :: z)
    (hc : c.Proper M val) :
    ∃ v, (Automaton.fetch C c).lookahead = some (some (x, v)) ∧
      (Automaton.fetch C c).input = z := by
  rcases c with ⟨stack, _ | _ | ⟨y, v⟩, input, state, status⟩
  · obtain rfl : input = x :: z := hnext
    exact ⟨_, rfl, rfl⟩
  · obtain rfl : input = x :: z := hnext
    cases hc.ended rfl
  · obtain ⟨rfl, rfl⟩ := List.cons.inj hnext
    exact ⟨v, rfl, rfl⟩

/-- The states under an item are those for the symbols before its position. -/
theorem Stacked.pop (hsound : Sound G A items) {k : Option ι} {i : Nat}
    (hst : Stacked G A items M val st Ys u) (hitem : (k, i) ∈ items (A.top st)) :
    ∃ pre st' Ys' u' w d, st = pre ++ st' ∧ pre.length = i ∧
      Ys = ((G.body k).take i).reverse ++ Ys' ∧ u = u' ++ w ∧
      Derives G M ((G.body k).take i) ((pre.map Prod.snd).reverse.map val) w d ∧
      Stacked G A items M val st' Ys' u' ∧ (k, 0) ∈ items (A.top st') := by
  induction i generalizing st Ys u with
  | zero =>
      exact ⟨[], st, Ys, u, [], 0, rfl, rfl, by simp, by simp, by simpa using .nil, hst, hitem⟩
  | succ i ih =>
      cases hst with
      | nil =>
          -- Nothing is on the stack in the initial state.
          exact absurd (hsound.initial _ hitem) (Nat.succ_ne_zero i)
      | @cons st Ys u w s v Y d hst henter _ hd =>
          obtain ⟨hsym, hback⟩ := henter.2 _ hitem (Nat.succ_ne_zero i)
          rw [Nat.add_sub_cancel] at hsym hback
          obtain ⟨pre, st', Ys', u', w', d', rfl, hlen, rfl, rfl, hd', hst', hzero⟩ := ih hst hback
          have htake : (G.body k).take (i + 1) = (G.body k).take i ++ [Y] := by
            rw [List.take_add_one, hsym]
            rfl
          obtain ⟨e, he⟩ := hd'.append hd
          refine ⟨(s, v) :: pre, st', Ys', u', w' ++ w, e, rfl, by simp [hlen], ?_, ?_, ?_, hst',
            hzero⟩
          · simp [htake]
          · rw [List.append_assoc]
          · rw [htake, List.map_cons, List.reverse_cons, List.map_append]
            exact he

/-- A value on the stack is derived from its symbol, between the words below and above it. -/
theorem Stacked.mem (hst : Stacked G A items M val st Ys u) {s : σ} {v : V'} (hmem : (s, v) ∈ st) :
    ∃ st' Ys' u' w z Y d, Stacked G A items M val st' Ys' u' ∧ u = u' ++ w ++ z ∧
      Derives G M [Y] [val v] w d ∧
      ∀ B, Y = .nonterminal B → ∃ r, G.lhs r = B ∧ (some r, 0) ∈ items (A.top st') := by
  induction hst with
  | nil =>
      cases hmem
  | @cons st Ys u w s' v' Y d hst henter hitem hd ih =>
      rcases List.mem_cons.mp hmem with heq | hmem
      · obtain ⟨rfl, rfl⟩ := Prod.mk.inj heq
        exact ⟨st, Ys, u, w, [], Y, d, hst, (List.append_nil _).symm, hd, hitem⟩
      · obtain ⟨st', Ys', u', w', z, Y', d', hst', rfl, hd', hitem'⟩ := ih hmem
        refine ⟨st', Ys', u', w', z ++ w, Y', d', hst', ?_, hd', hitem'⟩
        rw [← List.append_assoc]

/-- Nothing is on the stack when its state is the initial one. -/
theorem Stacked.eq_nil (hst : Stacked G A items M val st Ys u) (htop : A.top st = A.initial) :
    st = [] ∧ u = [] := by
  cases hst with
  | nil =>
      exact ⟨rfl, rfl⟩
  | cons _ henter _ _ =>
      exact absurd htop henter.1

/-- A step moves a symbol of the input to the stack or replaces a right-hand side. -/
inductive Move (G : Grammar T N ι) (kind : X → T) :
    List (GrammarSymbol T N) → List X → List (GrammarSymbol T N) → List X → Prop
  | shift (Ys : List (GrammarSymbol T N)) (x : X) (z : List X) :
      Move G kind Ys (x :: z) (.terminal (kind x) :: Ys) z
  | reduce (Ys : List (GrammarSymbol T N)) (z : List X) (r : ι) :
      Move G kind ((G.rhs r).reverse ++ Ys) z (.nonterminal (G.lhs r) :: Ys) z

/-- A state that needs no token decides as it does for the next one, and it does not shift. -/
theorem step_eq (hsound : Sound G A items) (hc : c.Proper M val) (hrun : c.status = .running) :
    ∃ c₁, (c₁ = c ∨ c₁ = Automaton.fetch C c) ∧
      A.step C L c =
        A.perform C L c₁ (A.action (A.top c.stack) (c.pending.head?.map C.kind)) ∧
      ∀ s, A.action (A.top c.stack) (c.pending.head?.map C.kind) = .shift s →
        c₁ = Automaton.fetch C c := by
  rw [Automaton.step, hrun]
  cases hquick : A.quick (A.top c.stack) with
  | none =>
      exact ⟨_, .inr rfl, by simp only [seen_fetch C hc], fun _ _ => rfl⟩
  | some d =>
      have hd := hsound.quick _ d hquick
      refine ⟨c, .inl rfl, by simp only [hd], fun s hs => ?_⟩
      have hjust := hsound.action (A.top c.stack) none
      rw [hd none, ← hd, hs] at hjust
      rcases hjust with ⟨x, hx, _⟩
      cases hx

theorem perform_shift {c₁ : Config σ X V' H} {x : X} {v : V'} {s : σ}
    (hst : Stacked G A items M val c₁.stack Ys u) (hlook : c₁.lookahead = some (some (x, v)))
    (hval : val v = M.leaf x) (henter : Enters G A items (A.top c₁.stack) (.terminal (M.kind x)) s)
    (hrun : c₁.status = .running) :
    (A.perform C L c₁ (.shift s)).Proper M val ∧
    Stacked G A items M val (A.perform C L c₁ (.shift s)).stack (.terminal (M.kind x) :: Ys)
      (u ++ [x]) ∧
    (A.perform C L c₁ (.shift s)).pending = c₁.input ∧
    ((A.perform C L c₁ (.shift s)).status = .running ∨
      (A.perform C L c₁ (.shift s)).status = .exhausted) := by
  have hd : Derives G M [.terminal (M.kind x)] [val v] [x] 1 := by
    rw [hval]
    exact Derives.nil.leaf x
  simp only [Automaton.perform, hlook, Automaton.push]
  refine ⟨.of_none rfl, .cons hst henter nofun hd, rfl, ?_⟩
  · split
    · exact .inr rfl
    · exact .inl hrun

theorem perform_reduce (hsound : Sound G A items) (hC : C.Models M val) {c₁ : Config σ X V' H}
    {r : ι} (hst : Stacked G A items M val c₁.stack Ys u) (hc : c₁.Proper M val)
    (hitem : (some r, (G.rhs r).length) ∈ items (A.top c₁.stack)) (hrun : c₁.status = .running) :
    (A.perform C L c₁ (.reduce r)).Proper M val ∧
    (∃ Ys', Ys = (G.rhs r).reverse ++ Ys' ∧
      Stacked G A items M val (A.perform C L c₁ (.reduce r)).stack
        (.nonterminal (G.lhs r) :: Ys') u) ∧
    (A.perform C L c₁ (.reduce r)).pending = c₁.pending ∧
    ((A.perform C L c₁ (.reduce r)).status = .running ∨
      (A.perform C L c₁ (.reduce r)).status = .exhausted) := by
  obtain ⟨pre, st, Ys', u', w, d, heq, hlen, rfl, rfl, hd, hst', hzero⟩ := hst.pop hsound hitem
  rw [Grammar.body, List.take_length] at hd
  have htake : c₁.stack.take (A.size r) = pre := by
    rw [heq, hsound.size, ← hlen, List.take_left]
  have hdrop : c₁.stack.drop (A.size r) = st := by
    rw [heq, hsound.size, ← hlen, List.drop_left]
  have hnode := hd.node r .nil
  rw [List.append_nil, ← hC.reduce r _ c₁.state] at hnode
  simp only [Automaton.perform, htake, hdrop, Automaton.push, hsound.left]
  have hitem' : ∀ B, GrammarSymbol.nonterminal (T := T) (G.lhs r) = .nonterminal B →
      ∃ r', G.lhs r' = B ∧ (some r', 0) ∈ items (A.top st) :=
    fun B hB => ⟨r, GrammarSymbol.nonterminal.inj hB, hzero⟩
  refine ⟨⟨hc.ended, hc.leaf⟩, ⟨Ys', ?_, .cons hst' (hsound.grounded _ _ hzero) hitem' hnode⟩,
    rfl, ?_⟩
  · rw [Grammar.body, List.take_length]
  · split
    · exact .inr rfl
    · exact .inl hrun

/-- The effect of a step. -/
theorem step_sound (hsound : Sound G A items) (hC : C.Models M val)
    (hst : Stacked G A items M val c.stack Ys u) (hc : c.Proper M val)
    (hrun : c.status = .running) :
    (A.step C L c).Proper M val ∧
    ((∃ Ys' u', Stacked G A items M val (A.step C L c).stack Ys' u' ∧
        u' ++ (A.step C L c).pending = u ++ c.pending ∧
        Move G M.kind Ys c.pending Ys' (A.step C L c).pending ∧
        ((A.step C L c).status = .running ∨ (A.step C L c).status = .exhausted)) ∨
      ((A.step C L c).stack = c.stack ∧ (A.step C L c).pending = c.pending ∧
        ((A.step C L c).status = .rejected ∨ (A.step C L c).status = .accepted ∧
          c.pending = [] ∧ (none, 1) ∈ items (A.top c.stack)))) := by
  obtain ⟨c₁, hc₁, hstep, hshift⟩ := step_eq (C := C) (L := L) hsound hc hrun
  have hjust := hsound.action (A.top c.stack) (c.pending.head?.map C.kind)
  rw [hstep]
  have hstack : c₁.stack = c.stack := by
    rcases hc₁ with rfl | rfl
    · rfl
    · exact fetch_stack C c
  have hpending : c₁.pending = c.pending := by
    rcases hc₁ with rfl | rfl
    · rfl
    · exact fetch_pending C c
  have hstatus : c₁.status = .running := by
    rcases hc₁ with rfl | rfl
    · exact hrun
    · rw [fetch_status, hrun]
  have hproper : c₁.Proper M val := by
    rcases hc₁ with rfl | rfl
    · exact hc
    · exact fetch_proper hC hc
  rw [← hstack] at hst hjust hshift ⊢
  cases hdec : A.action (A.top c₁.stack) (c.pending.head?.map C.kind) with
  | shift s =>
      rw [hdec] at hjust
      rcases hjust with ⟨t, ht, henter⟩
      obtain ⟨x, z, hnext⟩ : ∃ x z, c.pending = x :: z := by
        refine List.exists_cons_of_ne_nil fun hnil => ?_
        rw [hnil] at ht
        cases ht
      rw [hnext, List.head?_cons, Option.map_some, Option.mem_some_iff] at ht
      obtain ⟨v, hlook, hinput⟩ := fetch_lookahead C hnext hc
      rw [← hshift s hdec] at hlook hinput
      rw [← ht, hC.kind] at henter
      obtain ⟨hproper', hst', hpending', hstatus'⟩ :=
        perform_shift (C := C) (L := L) hst hlook (hproper.leaf x v hlook) henter hstatus
      rw [hinput] at hpending'
      refine ⟨hproper', .inl ⟨_, _, hst', ?_, ?_, hstatus'⟩⟩
      · rw [hpending', hnext, List.append_assoc, List.singleton_append]
      · rw [hpending', hnext]
        exact .shift Ys x z
  | reduce r =>
      rw [hdec] at hjust
      obtain ⟨hproper', ⟨Ys', rfl, hst'⟩, hpending', hstatus'⟩ :=
        perform_reduce (L := L) hsound hC hst hproper hjust hstatus
      rw [hpending] at hpending'
      refine ⟨hproper', .inl ⟨_, _, hst', by rw [hpending'], ?_, hstatus'⟩⟩
      rw [hpending']
      exact .reduce Ys' c.pending r
  | accept =>
      rw [hdec] at hjust
      rcases hjust with ⟨hnone, hitem⟩
      rw [Option.map_eq_none_iff, List.head?_eq_none_iff] at hnone
      exact ⟨⟨hproper.ended, hproper.leaf⟩, .inr ⟨rfl, hpending, .inr ⟨rfl, hnone, hitem⟩⟩⟩
  | error =>
      exact ⟨⟨hproper.ended, hproper.leaf⟩, .inr ⟨rfl, hpending, .inl rfl⟩⟩

theorem begin_proper (w : List X) (h : H) :
    (Automaton.begin w h : Config σ X V' H).Proper M val :=
  .of_none rfl

/-- A parser that has stopped stays as it is. -/
theorem step_stopped (hstop : c.status ≠ .running) : A.step C L c = c := by
  rw [Automaton.step]
  split
  · exact absurd ‹_› hstop
  · rfl

theorem run_stopped (n : Nat) (hstop : c.status ≠ .running) : A.run C L n c = c := by
  induction n with
  | zero =>
      rfl
  | succ n ih =>
      rw [Automaton.run, Function.iterate_succ_apply, step_stopped hstop]
      exact ih

theorem run_succ (n : Nat) (c : Config σ X V' H) :
    A.run C L (n + 1) c = A.step C L (A.run C L n c) :=
  Function.iterate_succ_apply' ..

theorem run_add (m n : Nat) (c : Config σ X V' H) :
    A.run C L (m + n) c = A.run C L m (A.run C L n c) :=
  Function.iterate_add_apply ..

/-! ### Exhaustion -/

theorem push_exhausted {s : σ} {v : V'} (hc : c.status ≠ .exhausted)
    (h : (Automaton.push L s v c).status = .exhausted) :
    L ≤ (Automaton.push L s v c).stack.length + 1 := by
  simp only [Automaton.push] at h ⊢
  split at h
  · next hfull =>
      exact hfull
  · exact absurd h hc

theorem perform_exhausted (hc : c.status ≠ .exhausted) (d : Decision σ ι)
    (h : (A.perform C L c d).status = .exhausted) :
    L ≤ (A.perform C L c d).stack.length + 1 := by
  cases d with
  | shift s =>
      rcases hlook : c.lookahead with _ | _ | ⟨x, v⟩
      · simp only [Automaton.perform, hlook] at h
        cases h
      · simp only [Automaton.perform, hlook] at h
        cases h
      · simp only [Automaton.perform, hlook] at h ⊢
        exact push_exhausted hc h
  | reduce r =>
      rw [Automaton.perform] at h ⊢
      exact push_exhausted hc h
  | accept =>
      cases h
  | error =>
      cases h

theorem step_exhausted (hc : c.status = .exhausted → L ≤ c.stack.length + 1)
    (h : (A.step C L c).status = .exhausted) : L ≤ (A.step C L c).stack.length + 1 := by
  by_cases hrun : c.status = .running
  · have hne : c.status ≠ .exhausted := by
      rw [hrun]
      decide
    have hfetch : (Automaton.fetch C c).status ≠ .exhausted := by
      rw [fetch_status]
      exact hne
    cases hquick : A.quick (A.top c.stack) with
    | some d =>
        simp only [Automaton.step, hrun, hquick] at h ⊢
        exact perform_exhausted hne d h
    | none =>
        simp only [Automaton.step, hrun, hquick] at h ⊢
        exact perform_exhausted hfetch _ h
  · rw [step_stopped hrun] at h ⊢
    exact hc h

/-- The stack is full when it is exhausted. -/
theorem run_exhausted {w : List X} {h : H} (n : Nat)
    (hstatus : (A.run C L n (Automaton.begin w h)).status = .exhausted) :
    L ≤ (A.run C L n (Automaton.begin w h)).stack.length + 1 := by
  induction n with
  | zero =>
      cases hstatus
  | succ n ih =>
      rw [run_succ] at hstatus ⊢
      exact step_exhausted ih hstatus

/-! ### The states of the stack -/

theorem perform_states {P : σ → Prop} (hgoto : ∀ s B, P (A.goto s B)) {d : Decision σ ι}
    (hshift : ∀ s, d = .shift s → P s) (hc : ∀ e ∈ c.stack, P e.1) :
    ∀ e ∈ (A.perform C L c d).stack, P e.1 := by
  cases d with
  | shift s =>
      rcases hlook : c.lookahead with _ | _ | ⟨x, v⟩
      · simp only [Automaton.perform, hlook]
        exact hc
      · simp only [Automaton.perform, hlook]
        exact hc
      · simp only [Automaton.perform, hlook, Automaton.push]
        exact List.forall_mem_cons.mpr ⟨hshift s rfl, hc⟩
  | reduce r =>
      simp only [Automaton.perform, Automaton.push]
      exact List.forall_mem_cons.mpr
        ⟨hgoto _ _, fun e he => hc e (List.mem_of_mem_drop he)⟩
  | accept =>
      exact hc
  | error =>
      exact hc

/-- What holds of the states that are shifted and gone to holds of those on the stack. -/
theorem run_states {P : σ → Prop} (hsound : Sound G A items) (hgoto : ∀ s B, P (A.goto s B))
    (hshift : ∀ s t s', A.action s t = .shift s' → P s') (n : Nat) (w : List X) (h : H) :
    ∀ e ∈ (A.run C L n (Automaton.begin w h)).stack, P e.1 := by
  induction n with
  | zero =>
      exact fun e he => nomatch he
  | succ n ih =>
      rw [run_succ]
      by_cases hrun : (A.run C L n (Automaton.begin w h)).status = .running
      · cases hquick : A.quick (A.top (A.run C L n (Automaton.begin w h)).stack) with
        | some d =>
            -- A quick decision is the decision for every token.
            simp only [Automaton.step, hrun, hquick]
            refine perform_states hgoto (fun s hs => ?_) ih
            exact hshift _ none s ((hsound.quick _ _ hquick none).trans hs)
        | none =>
            simp only [Automaton.step, hrun, hquick]
            refine perform_states hgoto (fun s hs => hshift _ _ s hs) ?_
            rw [fetch_stack]
            exact ih
      · rw [step_stopped hrun]
        exact ih

/-- The states of the stack and the rest of the input, at any time. -/
structure Config.Follows (G : Grammar T N ι) (A : Automaton T N ι σ)
    (items : σ → List (Option ι × Nat)) (M : Algebra T ι X V) (val : V' → V) (w : List X)
    (Ys : List (GrammarSymbol T N)) (c : Config σ X V' H) : Prop where
  proper : c.Proper M val
  stacked : ∃ u, Stacked G A items M val c.stack Ys u ∧ u ++ c.pending = w
  accepted : c.status = .accepted → c.pending = [] ∧ (none, 1) ∈ items (A.top c.stack)

/-- A step keeps what is known, and it moves unless the parser stops. -/
theorem Config.Follows.step (hsound : Sound G A items) (hC : C.Models M val)
    (hc : c.Follows G A items M val w Ys) :
    ∃ Ys', (A.step C L c).Follows G A items M val w Ys' ∧
      (c.status = .running → (A.step C L c).status = .running →
        Move G M.kind Ys c.pending Ys' (A.step C L c).pending) := by
  by_cases hrun : c.status = .running
  · obtain ⟨u, hst, hword⟩ := hc.stacked
    obtain ⟨hproper, hmove | ⟨hstack, hpending, hstatus⟩⟩ :=
      step_sound (L := L) hsound hC hst hc.proper hrun
    · obtain ⟨Ys', u', hst', hword', hmove, hstatus⟩ := hmove
      refine ⟨Ys', ⟨hproper, ⟨u', hst', hword'.trans hword⟩, fun hacc => ?_⟩, fun _ _ => hmove⟩
      rcases hstatus with hstatus | hstatus
      · rw [hstatus] at hacc
        cases hacc
      · rw [hstatus] at hacc
        cases hacc
    · refine ⟨Ys, ⟨hproper, ⟨u, ?_, ?_⟩, fun hacc => ?_⟩, fun _ hrun' => ?_⟩
      · rw [hstack]
        exact hst
      · rw [hpending, hword]
      · rcases hstatus with hstatus | ⟨_, hnil, hitem⟩
        · rw [hstatus] at hacc
          cases hacc
        · rw [hpending, hstack]
          exact ⟨hnil, hitem⟩
      · rcases hstatus with hstatus | ⟨hstatus, _, _⟩
        · rw [hstatus] at hrun'
          cases hrun'
        · rw [hstatus] at hrun'
          cases hrun'
  · rw [step_stopped hrun]
    exact ⟨Ys, hc, fun hrun' => absurd hrun' hrun⟩

theorem begin_follows (w : List X) (h : H) :
    (Automaton.begin w h : Config σ X V' H).Follows G A items M val w [] :=
  ⟨begin_proper w h, ⟨[], .nil, rfl⟩, nofun⟩

theorem run_follows (hsound : Sound G A items) (hC : C.Models M val) (n : Nat) (w : List X)
    (h : H) : ∃ Ys, (A.run C L n (Automaton.begin w h)).Follows G A items M val w Ys := by
  induction n with
  | zero =>
      exact ⟨[], begin_follows w h⟩
  | succ n ih =>
      obtain ⟨Ys, hc⟩ := ih
      obtain ⟨Ys', hc', _⟩ := hc.step (L := L) hsound hC
      rw [run_succ]
      exact ⟨Ys', hc'⟩

/-- What is accepted is derived from the start symbol, with the value that is left on the stack. -/
theorem Sound.accepted (hsound : Sound G A items) (hC : C.Models M val) {n : Nat} {h : H}
    (hacc : (A.run C L n (Automaton.begin w h)).status = .accepted) :
    ∃ s v d, (A.run C L n (Automaton.begin w h)).stack = [(s, v)] ∧
      Derives G M [.nonterminal G.start] [val v] w d := by
  obtain ⟨Ys, hc⟩ := run_follows (L := L) hsound hC n w h
  obtain ⟨u, hst, hword⟩ := hc.stacked
  obtain ⟨hnil, hitem⟩ := hc.accepted hacc
  rw [hnil, List.append_nil] at hword
  subst hword
  obtain ⟨pre, st, Ys', u', w', d, heq, hlen, _, rfl, hd, hst', hzero⟩ := hst.pop hsound hitem
  -- The start symbol is on the initial state, which nothing else is under.
  obtain ⟨rfl, -⟩ := hst'.eq_nil (hsound.grounded _ _ hzero)
  obtain ⟨⟨s, v⟩, rfl⟩ := List.length_eq_one_iff.mp hlen
  cases hst'
  exact ⟨s, v, d, heq, hd⟩

/-! ## Halting -/

/-- Every production is a step down in rank or takes two symbols at least. -/
structure Ranked (G : Grammar T N ι) (rank : GrammarSymbol T N → Nat) (bound : Nat) : Prop where
  le : ∀ Y, rank Y ≤ bound
  rhs : ∀ r, (∃ Y ∈ (G.rhs r).head?, (G.rhs r).length = 1 ∧
    rank (.nonterminal (G.lhs r)) < rank Y) ∨ 2 ≤ (G.rhs r).length

/-- A bound for the steps to come. -/
def potential (rank : GrammarSymbol T N → Nat) (bound : Nat) (Ys : List (GrammarSymbol T N))
    (z : List X) : Nat :=
  z.length * (2 * (bound + 1)) + Ys.length * (bound + 1) + (Ys.head?.map rank).getD 0

theorem Move.potential_lt {rank : GrammarSymbol T N → Nat} {bound : Nat}
    (hrank : Ranked G rank bound) {kind : X → T} {Ys Ys' : List (GrammarSymbol T N)}
    {z z' : List X} (hmove : Move G kind Ys z Ys' z') :
    potential rank bound Ys' z' < potential rank bound Ys z := by
  cases hmove with
  | shift Ys x z =>
      have hle := hrank.le (.terminal (kind x))
      simp only [potential, List.length_cons, List.head?_cons, Option.map_some, Option.getD_some,
        Nat.add_mul, Nat.one_mul]
      omega
  | reduce Ys z r =>
      have hle := hrank.le (.nonterminal (G.lhs r))
      simp only [potential, List.length_cons, List.head?_cons, Option.map_some, Option.getD_some,
        List.length_append, List.length_reverse, Nat.add_mul, Nat.one_mul]
      rcases hrank.rhs r with ⟨Y, hhead, hone, hlt⟩ | htwo
      · -- One symbol is replaced by one of smaller rank.
        obtain ⟨Y', hrhs⟩ := List.length_eq_one_iff.mp hone
        rw [hrhs, List.head?_cons, Option.mem_some_iff] at hhead
        subst hhead
        rw [hone, hrhs]
        simp only [List.reverse_singleton, List.singleton_append, List.head?_cons,
          Option.map_some, Option.getD_some]
        omega
      · have hmul := Nat.mul_le_mul_right (bound + 1) htwo
        omega

/-- The parser stops on every input. -/
theorem Sound.halts {rank : GrammarSymbol T N → Nat} {bound : Nat} (hsound : Sound G A items)
    (hC : C.Models M val) (hrank : Ranked G rank bound) (w : List X) (h : H) :
    (A.run C L (w.length * (2 * (bound + 1)) + 1) (Automaton.begin w h)).status
      ≠ .running := by
  have hinv : ∀ n, ∃ Ys, (A.run C L n (Automaton.begin w h)).Follows G A items M val w Ys ∧
      ((A.run C L n (Automaton.begin w h)).status = .running →
        n + potential rank bound Ys (A.run C L n (Automaton.begin w h)).pending ≤
          w.length * (2 * (bound + 1))) := by
    intro n
    induction n with
    | zero =>
        refine ⟨[], begin_follows w h, fun _ => ?_⟩
        simp [potential, Automaton.run, Automaton.begin, Config.pending]
    | succ n ih =>
        obtain ⟨Ys, hc, hle⟩ := ih
        obtain ⟨Ys', hc', hmove⟩ := hc.step (L := L) hsound hC
        rw [run_succ]
        refine ⟨Ys', hc', fun hrun' => ?_⟩
        have hrun : (A.run C L n (Automaton.begin w h)).status = .running := by
          by_contra hstop
          rw [step_stopped hstop] at hrun'
          exact hstop hrun'
        have hlt := (hmove hrun hrun').potential_lt hrank
        have := hle hrun
        omega
  intro hrun
  obtain ⟨Ys, _, hle⟩ := hinv (w.length * (2 * (bound + 1)) + 1)
  have := hle hrun
  omega

end Sound

end LR
end Lib
end MiniSQL
