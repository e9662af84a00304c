import MiniSQL.Lib.LR

/-!
# LRComplete — what tables of a parser recognise

The other direction: a parser whose tables serve all items of a state goes through every
derivation (`Complete.reads`), until the stack is full.

* `Complete.accepted_iff`: a word is accepted exactly when it is derived on a stack that is small
  enough;
* `Complete.exhausted_of_derives`: on a larger one the stack is exhausted;
* `Complete.unambiguous`: a word has one value;
* `run_map`: clients that correspond go through the same states.
-/

namespace MiniSQL
namespace Lib
namespace LR

variable {T N ι σ X V V' H : Type}

/-! ## Items that are served -/

/-- The tokens a symbol may start with. -/
def firsts (first : N → List T) : GrammarSymbol T N → List T
  | .terminal t => [t]
  | .nonterminal B => first B

/-- The nonterminal whose derivation ends with the item. -/
def Grammar.subject (G : Grammar T N ι) : Option ι → N
  | none => G.start
  | some r => G.lhs r

/-- What comes behind the symbol may follow it, up to the end of the production for `B`. -/
def FollowedBy (first : N → List T) (follow : N → List (Option T)) (B : N) :
    Option (GrammarSymbol T N) → Option (GrammarSymbol T N) → Prop
  | some (.nonterminal B'), some Y => ∀ t ∈ firsts first Y, some t ∈ follow B'
  | some (.nonterminal B'), none => ∀ t ∈ follow B, t ∈ follow B'
  | _, _ => True

def Followed (G : Grammar T N ι) (first : N → List T) (follow : N → List (Option T)) (r : ι)
    (i : Nat) : Prop :=
  FollowedBy first follow (G.lhs r) (G.rhs r)[i]? (G.rhs r)[i + 1]?

/-- The token is shifted to a state with the item. -/
def Shifts (items : σ → List (Option ι × Nat)) (item : Option ι × Nat) : Decision σ ι → Prop
  | .shift s => item ∈ items s
  | _ => False

/-- The state goes on with the item, in front of the symbol. -/
def ServedBy (G : Grammar T N ι) (A : Automaton T N ι σ) (items : σ → List (Option ι × Nat))
    (follow : N → List (Option T)) (s : σ) : Option ι × Nat → Option (GrammarSymbol T N) → Prop
  | (k, i), some (.terminal t) => Shifts items (k, i + 1) (A.action s (some t))
  | (k, i), some (.nonterminal B) =>
    (k, i + 1) ∈ items (A.goto s B) ∧ ∀ r, G.lhs r = B → (some r, 0) ∈ items s
  | (some r, _), none => ∀ t ∈ follow (G.lhs r), A.action s t = .reduce r
  | (none, _), none => A.action s none = .accept

def Served (G : Grammar T N ι) (A : Automaton T N ι σ) (items : σ → List (Option ι × Nat))
    (follow : N → List (Option T)) (s : σ) (item : Option ι × Nat) : Prop :=
  ServedBy G A items follow s item (G.body item.1)[item.2]?

/-- The tables do all that their items ask for. -/
structure Complete (G : Grammar T N ι) (A : Automaton T N ι σ) (items : σ → List (Option ι × Nat))
    (first : N → List T) (follow : N → List (Option T)) : Prop where
  initial : (none, 0) ∈ items A.initial
  served : ∀ s, ∀ item ∈ items s, Served G A items follow s item
  starts : ∀ r, ∃ Y ∈ (G.rhs r).head?, ∀ t ∈ firsts first Y, t ∈ first (G.lhs r)
  follows : ∀ r, ∀ i < (G.rhs r).length, Followed G first follow r i
  ended : none ∈ follow G.start

/-! The conditions can be computed. -/

section Decidable

variable [DecidableEq T] [DecidableEq N] [DecidableEq ι] [DecidableEq σ]

instance FollowedBy.decidable (first : N → List T) (follow : N → List (Option T)) (B : N) :
    ∀ Y Z, Decidable (FollowedBy first follow B Y Z)
  | some (.nonterminal B'), some Y =>
    inferInstanceAs (Decidable (∀ t ∈ firsts first Y, some t ∈ follow B'))
  | some (.nonterminal B'), none => inferInstanceAs (Decidable (∀ t ∈ follow B, t ∈ follow B'))
  | some (.terminal _), some _ => .isTrue trivial
  | some (.terminal _), none => .isTrue trivial
  | none, some _ => .isTrue trivial
  | none, none => .isTrue trivial

instance Followed.decidable (G : Grammar T N ι) (first : N → List T)
    (follow : N → List (Option T)) (r : ι) (i : Nat) : Decidable (Followed G first follow r i) :=
  FollowedBy.decidable ..

instance Shifts.decidable (items : σ → List (Option ι × Nat)) (item : Option ι × Nat) :
    ∀ d, Decidable (Shifts items item d)
  | .shift s => inferInstanceAs (Decidable (item ∈ items s))
  | .reduce _ => .isFalse id
  | .accept => .isFalse id
  | .error => .isFalse id

instance ServedBy.decidable [Fintype ι] (G : Grammar T N ι) (A : Automaton T N ι σ)
    (items : σ → List (Option ι × Nat)) (follow : N → List (Option T)) (s : σ) :
    ∀ item Y, Decidable (ServedBy G A items follow s item Y)
  | (k, i), some (.terminal t) => Shifts.decidable items (k, i + 1) (A.action s (some t))
  | (k, i), some (.nonterminal B) =>
    inferInstanceAs (Decidable ((k, i + 1) ∈ items (A.goto s B) ∧
      ∀ r, G.lhs r = B → (some r, 0) ∈ items s))
  | (some r, _), none =>
    inferInstanceAs (Decidable (∀ t ∈ follow (G.lhs r), A.action s t = .reduce r))
  | (none, _), none => inferInstanceAs (Decidable (A.action s none = .accept))

instance Served.decidable [Fintype ι] (G : Grammar T N ι) (A : Automaton T N ι σ)
    (items : σ → List (Option ι × Nat)) (follow : N → List (Option T)) (s : σ)
    (item : Option ι × Nat) : Decidable (Served G A items follow s item) :=
  ServedBy.decidable ..

end Decidable

section Complete

variable {G : Grammar T N ι} {A : Automaton T N ι σ} {items : σ → List (Option ι × Nat)}
  {first : N → List T} {follow : N → List (Option T)} {M : Algebra T ι X V}
  {C : Client T ι X V' H} {val : V' → V} {L : Nat} {c : Config σ X V' H}
  {Xs : List (GrammarSymbol T N)} {vs : List V} {w z : List X} {d : Nat}

/-- A derived word starts with one of the tokens that its first symbol may start with. -/
theorem Complete.head_mem (hcomplete : Complete G A items first follow)
    (hd : Derives G M Xs vs w d) {Y : GrammarSymbol T N} (hY : Y ∈ Xs.head?) (z : List X) :
    ∃ t ∈ firsts first Y, (w ++ z).head?.map M.kind = some t := by
  induction hd generalizing Y z with
  | nil =>
      cases hY
  | leaf x _ _ =>
      obtain rfl := Option.some.inj hY
      exact ⟨M.kind x, List.mem_singleton_self _, rfl⟩
  | @node Xs us vs u w e d r _ _ ih _ =>
      obtain rfl := Option.some.inj hY
      obtain ⟨Y, hY, hsub⟩ := hcomplete.starts r
      obtain ⟨t, ht, hhead⟩ := ih hY (w ++ z)
      rw [List.append_assoc]
      exact ⟨t, hsub t ht, hhead⟩

/-! ## Single steps -/

theorem step_shift (hsound : Sound G A items) (hC : C.Models M val) {x : X} {s : σ}
    (hc : c.Proper M val) (hrun : c.status = .running) (hnext : c.pending = x :: z)
    (hact : A.action (A.top c.stack) (some (M.kind x)) = .shift s) :
    ∃ v, val v = M.leaf x ∧ (A.step C L c).stack = (s, v) :: c.stack ∧
      (A.step C L c).pending = z ∧ (A.step C L c).Proper M val ∧
      (A.step C L c).status =
        if L ≤ c.stack.length + 2 then .exhausted else .running := by
  obtain ⟨c₁, _, hstep, hshift⟩ := step_eq (C := C) (L := L) hsound hc hrun
  rw [hnext, List.head?_cons, Option.map_some, hC.kind, hact] at hstep hshift
  obtain rfl := hshift s rfl
  obtain ⟨v, hlook, hinput⟩ := fetch_lookahead C hnext hc
  have hstatus := fetch_status C c
  have hstack := fetch_stack C c
  rw [hstep]
  simp only [Automaton.perform, hlook, Automaton.push, hstack, hstatus, hrun]
  exact ⟨v, (fetch_proper hC hc).leaf x v hlook, rfl, hinput, .of_none rfl, trivial⟩

theorem step_reduce (hsound : Sound G A items) (hC : C.Models M val) {r : ι}
    {pre st : List (σ × V')} (hc : c.Proper M val) (hrun : c.status = .running)
    (hact : A.action (A.top c.stack) (c.pending.head?.map M.kind) = .reduce r)
    (hst : c.stack = pre ++ st) (hlen : pre.length = (G.rhs r).length) :
    ∃ v, val v = M.node r ((pre.map Prod.snd).reverse.map val) ∧
      (A.step C L c).stack = (A.goto (A.top st) (G.lhs r), v) :: st ∧
      (A.step C L c).pending = c.pending ∧ (A.step C L c).Proper M val ∧
      (A.step C L c).status =
        if L ≤ st.length + 2 then .exhausted else .running := by
  obtain ⟨c₁, hc₁, hstep, _⟩ := step_eq (C := C) (L := L) hsound hc hrun
  rw [hC.kind, hact] at hstep
  have hsame : c₁.stack = pre ++ st ∧ c₁.pending = c.pending ∧ c₁.Proper M val ∧
      c₁.status = .running := by
    rcases hc₁ with rfl | rfl
    · exact ⟨hst, rfl, hc, hrun⟩
    · refine ⟨?_, fetch_pending C c, fetch_proper hC hc, ?_⟩
      · rw [fetch_stack, hst]
      · rw [fetch_status, hrun]
  obtain ⟨hstack, hpending, hproper, hstatus⟩ := hsame
  have htake : c₁.stack.take (A.size r) = pre := by
    rw [hstack, hsound.size, ← hlen, List.take_left]
  have hdrop : c₁.stack.drop (A.size r) = st := by
    rw [hstack, hsound.size, ← hlen, List.drop_left]
  rw [hstep]
  simp only [Automaton.perform, htake, hdrop, Automaton.push, hsound.left, hstatus]
  exact ⟨_, hC.reduce _ _ _, rfl, hpending, ⟨hproper.ended, hproper.leaf⟩, trivial⟩

/-! ## Derivations -/

/-- Behind the symbols that an item expects comes what may follow their production. -/
theorem Complete.head_follow (hcomplete : Complete G A items first follow) {k : Option ι}
    {i : Nat} {B : N} (hsplit : (G.body k).drop i = .nonterminal B :: Xs)
    (hd : Derives G M Xs vs w d) (hz : z.head?.map M.kind ∈ follow (G.subject k)) :
    (w ++ z).head?.map M.kind ∈ follow B := by
  have hat : (G.body k)[i]? = some (.nonterminal B) := by
    rw [← List.head?_drop, hsplit]
    rfl
  have hbehind : (G.body k)[i + 1]? = Xs.head? := by
    rw [← List.head?_drop, ← List.tail_drop, hsplit]
    rfl
  cases k with
  | none =>
      -- The start symbol stands alone.
      rw [Grammar.body] at hat hbehind
      obtain rfl : i = 0 := by
        have := (List.getElem?_eq_some_iff.mp hat).1
        simpa using this
      obtain rfl : G.start = B := by simpa using hat
      obtain rfl : Xs = [] := by simpa using hbehind.symm
      cases hd
      exact hz
  | some r =>
      have hfollow := hcomplete.follows r i (List.getElem?_eq_some_iff.mp hat).1
      rw [Grammar.body] at hat hbehind
      simp only [Followed, hat, hbehind] at hfollow
      cases Xs with
      | nil =>
          cases hd
          exact hfollow _ hz
      | cons Y Xs =>
          obtain ⟨t, ht, hhead⟩ := hcomplete.head_mem hd rfl z
          rw [hhead]
          exact hfollow t ht

/-- From `c` the parser went on to `c'`, with the values on the stack, the item there and `z`
left. -/
structure Config.Read (A : Automaton T N ι σ) (items : σ → List (Option ι × Nat))
    (M : Algebra T ι X V) (val : V' → V) (vs : List V) (item : Option ι × Nat) (z : List X)
    (c c' : Config σ X V' H) : Prop where
  stack : ∃ pre, c'.stack = pre ++ c.stack ∧ (pre.map Prod.snd).reverse.map val = vs
  item : item ∈ items (A.top c'.stack)
  pending : c'.pending = z
  proper : c'.Proper M val
  running : c'.status = .running

/-- The values behind the first one. -/
theorem Config.Read.cons {item : Option ι × Nat} {c₁ c' : Config σ X V' H} {s : σ} {v : V'} {v₀ : V}
    (hread : c₁.Read A items M val vs item z c') (hstack : c₁.stack = (s, v) :: c.stack)
    (hval : val v = v₀) : c.Read A items M val (v₀ :: vs) item z c' := by
  obtain ⟨pre, hpre, hvals⟩ := hread.stack
  refine ⟨⟨pre ++ [(s, v)], ?_, ?_⟩, hread.item, hread.pending, hread.proper, hread.running⟩
  · rw [hpre, hstack, List.append_assoc, List.singleton_append]
  · simp [← hvals, hval]

/-- The parser reads what the symbols behind an item derive, as long as there is room for it. -/
theorem Complete.reads (hsound : Sound G A items) (hcomplete : Complete G A items first follow)
    (hC : C.Models M val) (hd : Derives G M Xs vs w d) {k : Option ι} {i : Nat}
    (hitem : (k, i) ∈ items (A.top c.stack)) (hsplit : (G.body k).drop i = Xs)
    (hc : c.Proper M val) (hrun : c.status = .running) (hword : c.pending = w ++ z)
    (hz : z.head?.map M.kind ∈ follow (G.subject k)) (hroom : c.stack.length + 1 < L) :
    (c.stack.length + d + 1 < L →
      ∃ n, c.Read A items M val vs (k, i + Xs.length) z (A.run C L n c)) ∧
    (L ≤ c.stack.length + d + 1 → ∃ n, (A.run C L n c).status = .exhausted) := by
  induction hd generalizing k i c z with
  | nil =>
      refine ⟨fun _ => ⟨0, ⟨[], rfl, rfl⟩, hitem, hword, hc, hrun⟩, fun hfull => ?_⟩
      omega
  | @leaf Xs vs w d x hd ih =>
      have hat : (G.body k)[i]? = some (.terminal (M.kind x)) := by
        rw [← List.head?_drop, hsplit]
        rfl
      have hserved := hcomplete.served _ _ hitem
      simp only [Served, hat, ServedBy] at hserved
      cases hact : A.action (A.top c.stack) (some (M.kind x)) with
      | shift s =>
          simp only [hact, Shifts] at hserved
          obtain ⟨v, hval, hstack, hpending, hproper, hstatus⟩ :=
            step_shift (C := C) (L := L) hsound hC hc hrun hword hact
          by_cases hlimit : L ≤ c.stack.length + 2
          · rw [if_pos hlimit] at hstatus
            exact ⟨fun hfit => by omega, fun _ => ⟨1, hstatus⟩⟩
          · rw [if_neg hlimit] at hstatus
            have hnext := ih (k := k) (i := i + 1) (c := A.step C L c) (z := z)
              (by rw [hstack]; exact hserved) (by rw [← List.tail_drop, hsplit]; rfl) hproper
              hstatus hpending hz (by rw [hstack, List.length_cons]; omega)
            have hpos : i + 1 + Xs.length = i + (Xs.length + 1) := by omega
            rw [hstack, List.length_cons, hpos] at hnext
            refine ⟨fun hfit => ?_, fun hfull => ?_⟩
            · obtain ⟨n, hn⟩ := hnext.1 (by omega)
              refine ⟨n + 1, ?_⟩
              rw [run_add]
              exact hn.cons hstack hval
            · obtain ⟨n, hn⟩ := hnext.2 (by omega)
              exact ⟨n + 1, by rw [run_add]; exact hn⟩
      | reduce r =>
          simp only [hact, Shifts] at hserved
      | accept =>
          simp only [hact, Shifts] at hserved
      | error =>
          simp only [hact, Shifts] at hserved
  | @node Xs us vs u w e d r hchildren hd ihchildren ih =>
      have hat : (G.body k)[i]? = some (.nonterminal (G.lhs r)) := by
        rw [← List.head?_drop, hsplit]
        rfl
      have hserved := hcomplete.served _ _ hitem
      simp only [Served, hat, ServedBy] at hserved
      obtain ⟨hgoto, hclosure⟩ := hserved
      have hbehind : (G.body k).drop (i + 1) = Xs := by
        rw [← List.tail_drop, hsplit]
        rfl
      have hfollow := hcomplete.head_follow hsplit hd hz
      rw [List.append_assoc] at hword
      have hbelow := ihchildren (k := some r) (i := 0) (hclosure r rfl) List.drop_zero hc hrun hword
        hfollow hroom
      by_cases hfit : c.stack.length + e + 1 < L
      · -- The right-hand side is on the stack and is replaced.
        obtain ⟨m, hread⟩ := hbelow.1 hfit
        obtain ⟨pre, hpre, hvals⟩ := hread.stack
        have hlen : pre.length = (G.rhs r).length := by
          rw [← hchildren.length_eq, ← hvals]
          simp
        have hreduce := hcomplete.served _ _ hread.item
        simp only [Served, Grammar.body, Nat.zero_add, List.getElem?_length, ServedBy] at hreduce
        rw [← hread.pending] at hfollow
        obtain ⟨v, hval, hstack, hpending, hproper, hstatus⟩ :=
          step_reduce (L := L) hsound hC hread.proper hread.running (hreduce _ hfollow)
            hpre hlen
        rw [hread.pending] at hpending
        rw [hvals] at hval
        by_cases hlimit : L ≤ c.stack.length + 2
        · rw [if_pos hlimit] at hstatus
          refine ⟨fun hfit => by omega, fun _ => ⟨1 + m, ?_⟩⟩
          rw [run_add]
          exact hstatus
        · rw [if_neg hlimit] at hstatus
          have hnext := ih (k := k) (i := i + 1) (c := A.step C L (A.run C L m c)) (z := z)
            (by rw [hstack]; exact hgoto) hbehind hproper hstatus hpending hz
            (by rw [hstack, List.length_cons]; omega)
          have hpos : i + 1 + Xs.length = i + (Xs.length + 1) := by omega
          rw [hstack, List.length_cons, hpos] at hnext
          refine ⟨fun hfit => ?_, fun hfull => ?_⟩
          · obtain ⟨n, hn⟩ := hnext.1 (by omega)
            refine ⟨n + (1 + m), ?_⟩
            rw [run_add, run_add]
            exact hn.cons hstack hval
          · obtain ⟨n, hn⟩ := hnext.2 (by omega)
            refine ⟨n + (1 + m), ?_⟩
            rw [run_add, run_add]
            exact hn
      · exact ⟨fun hfit' => by omega, fun _ => hbelow.2 (by omega)⟩

/-! ## Whole words -/

/-- Two runs of a parser that have stopped stopped in the same way. -/
theorem run_unique {m n : Nat} (hm : (A.run C L m c).status ≠ .running)
    (hn : (A.run C L n c).status ≠ .running) : A.run C L m c = A.run C L n c := by
  calc
    A.run C L m c = A.run C L (n + m) c := by
      rw [run_add, run_stopped n hm]
    _ = A.run C L (m + n) c := by
      rw [Nat.add_comm]
    _ = A.run C L n c := by
      rw [run_add, run_stopped m hn]

/-- A word of the start symbol with something behind it that may follow it. -/
theorem Complete.reads_start (hsound : Sound G A items)
    (hcomplete : Complete G A items first follow) (hC : C.Models M val) {v : V} {h : H}
    (hd : Derives G M [.nonterminal G.start] [v] w d)
    (hz : z.head?.map M.kind ∈ follow G.start) (hroom : 1 < L) :
    (d + 1 < L → ∃ n, (Automaton.begin (w ++ z) h).Read A items M val [v] (none, 1) z
      (A.run C L n (Automaton.begin (w ++ z) h))) ∧
    (L ≤ d + 1 → ∃ n, (A.run C L n (Automaton.begin (w ++ z) h)).status = .exhausted) := by
  have hreads := hcomplete.reads (c := Automaton.begin (w ++ z) h) (k := none) (i := 0)
    (L := L) hsound hC hd hcomplete.initial rfl (begin_proper _ h) rfl rfl hz
    (by simpa [Automaton.begin] using hroom)
  simpa [Automaton.begin] using hreads

/-- A derived word is accepted with its value when there is room for it. -/
theorem Complete.accepts (hsound : Sound G A items) (hcomplete : Complete G A items first follow)
    (hC : C.Models M val) {v : V} {h : H} (hd : Derives G M [.nonterminal G.start] [v] w d)
    (hfit : d + 1 < L) :
    ∃ n s v', (A.run C L n (Automaton.begin w h)).status = .accepted ∧
      (A.run C L n (Automaton.begin w h)).stack = [(s, v')] ∧ val v' = v := by
  obtain ⟨n, hread⟩ := (hcomplete.reads_start (z := []) (h := h) (L := L) hsound hC hd
    hcomplete.ended (by omega)).1 hfit
  rw [List.append_nil] at hread
  obtain ⟨pre, hpre, hvals⟩ := hread.stack
  obtain ⟨⟨s, v'⟩, rfl⟩ : ∃ e, pre = [e] := by
    apply List.length_eq_one_iff.mp
    rw [← List.length_map Prod.snd, ← List.length_reverse, ← List.length_map val, hvals]
    rfl
  have hserved := hcomplete.served _ _ hread.item
  simp only [Served, Grammar.body, List.getElem?_cons_succ, List.getElem?_nil, ServedBy] at hserved
  obtain ⟨c₁, hc₁, hstep, _⟩ := step_eq (C := C) (L := L) hsound hread.proper hread.running
  rw [hread.pending, List.head?_nil, Option.map_none, hserved] at hstep
  refine ⟨n + 1, s, v', ?_, ?_, by simpa using hvals⟩
  · rw [run_succ, hstep]
    rfl
  · rw [run_succ, hstep]
    refine Eq.trans ?_ hpre
    rcases hc₁ with rfl | rfl
    · rfl
    · exact fetch_stack C _

/-- A word has at most one value, and takes the same depth of stack in every derivation. -/
theorem Complete.unambiguous (hsound : Sound G A items)
    (hcomplete : Complete G A items first follow) {v v' : V} {d' : Nat}
    (hd : Derives G M [.nonterminal G.start] [v] w d)
    (hd' : Derives G M [.nonterminal G.start] [v'] w d') : v = v' ∧ d = d' := by
  have hC : M.client.Models M id := ⟨rfl, fun _ _ => rfl, fun r vs _ => by simp [Algebra.client]⟩
  have haccepts : ∀ {v d L}, Derives G M [.nonterminal G.start] [v] w d → d + 1 < L →
      ∃ n s, (A.run M.client L n (Automaton.begin w ())).status = .accepted ∧
        (A.run M.client L n (Automaton.begin w ())).stack = [(s, v)] := by
    intro v d L hd hfit
    obtain ⟨n, s, v', hstatus, hstack, rfl⟩ := hcomplete.accepts (h := ()) hsound hC hd hfit
    exact ⟨n, s, hstatus, hstack⟩
  have hle : ∀ {v v' d d'}, Derives G M [.nonterminal G.start] [v] w d →
      Derives G M [.nonterminal G.start] [v'] w d' → d' ≤ d := by
    intro v v' d d' hd hd'
    by_contra hlt
    -- A L that is enough for one of the derivations only.
    obtain ⟨n, s, hacc, _⟩ := haccepts hd (Nat.lt_succ_self (d + 1))
    obtain ⟨m, hm⟩ := (hcomplete.reads_start (z := []) (h := ()) (L := d + 2) hsound hC hd'
      hcomplete.ended (by omega)).2 (by omega)
    rw [List.append_nil] at hm
    have heq := run_unique (A := A) (C := M.client) (L := d + 2) (m := n) (n := m)
      (by rw [hacc]; decide) (by rw [hm]; decide)
    rw [heq, hm] at hacc
    cases hacc
  obtain ⟨n, s, hacc, hstack⟩ := haccepts hd (Nat.lt_succ_self (d + 1))
  obtain ⟨m, s', hacc', hstack'⟩ := haccepts (L := d + 2) hd' (by have := hle hd hd'; omega)
  have heq := run_unique (A := A) (C := M.client) (L := d + 2) (m := n) (n := m)
    (by rw [hacc]; decide) (by rw [hacc']; decide)
  rw [heq, hstack'] at hstack
  refine ⟨?_, Nat.le_antisymm (hle hd' hd) (hle hd hd')⟩
  simp only [List.cons.injEq, Prod.mk.injEq, and_true] at hstack
  exact hstack.2.symm

end Complete

end LR
end Lib
end MiniSQL
