import MiniSQL.Lib.LRComplete

/-!
# LRClients — parsers whose actions work on a state

The actions of a grammar may have values that say nothing on their own, such as addresses.  Such a
client runs in step with one that has the value of an algebra beside each of its own
(`Client.ghost`), so what it accepts is what is derived; and a property of the state and of the
values that are in use, which every action keeps (`Client.Keeps`), holds at any time.
-/

namespace MiniSQL
namespace Lib
namespace LR

variable {T N ι σ X V V' H H' : Type}

/-! ## Clients in step -/

/-- The values and the state of one client are images of those of the other. -/
structure Client.Maps (C : Client T ι X V H) (C' : Client T ι X V' H') (f : V → V') (g : H → H') :
    Prop where
  kind : C'.kind = C.kind
  read : ∀ x h, C'.read x (g h) = Prod.map f g (C.read x h)
  readEnd : ∀ h, C'.readEnd (g h) = g (C.readEnd h)
  reduce : ∀ r vs h, C'.reduce r (vs.map f) (g h) = Prod.map f g (C.reduce r vs h)

def Config.map (f : V → V') (g : H → H') (c : Config σ X V H) : Config σ X V' H' where
  stack := c.stack.map (Prod.map id f)
  lookahead := c.lookahead.map (Option.map (Prod.map id f))
  input := c.input
  state := g c.state
  status := c.status

section Maps

variable {A : Automaton T N ι σ} {C : Client T ι X V H} {C' : Client T ι X V' H'} {f : V → V'}
  {g : H → H'} {L : Nat}

theorem top_map (A : Automaton T N ι σ) (f : V → V') (st : List (σ × V)) :
    A.top (st.map (Prod.map id f)) = A.top st := by
  cases st <;> rfl

theorem fetch_map (hmaps : C.Maps C' f g) (c : Config σ X V H) :
    Automaton.fetch C' (c.map f g) = (Automaton.fetch C c).map f g := by
  rcases c with ⟨stack, _ | _ | ⟨x, v⟩, input, state, status⟩
  · cases input with
    | nil =>
        simp [Automaton.fetch, Config.map, hmaps.readEnd]
    | cons x xs =>
        simp [Automaton.fetch, Config.map, hmaps.read]
  · rfl
  · rfl

theorem seen_map (hmaps : C.Maps C' f g) (c : Config σ X V H) :
    Automaton.seen C' (c.map f g) = Automaton.seen C c := by
  rcases c with ⟨stack, _ | _ | ⟨x, v⟩, input, state, status⟩
  · rfl
  · rfl
  · simp [Automaton.seen, Config.map, hmaps.kind]

theorem perform_map (hmaps : C.Maps C' f g) (c : Config σ X V H) (d : Decision σ ι) :
    A.perform C' L (c.map f g) d = (A.perform C L c d).map f g := by
  cases d with
  | shift s =>
      rcases c with ⟨stack, _ | _ | ⟨x, v⟩, input, state, status⟩
      · rfl
      · rfl
      · simp [Automaton.perform, Automaton.push, Config.map]
  | reduce r =>
      have hpopped : ((c.map f g).stack.take (A.size r)).map Prod.snd =
          ((c.stack.take (A.size r)).map Prod.snd).map f := by
        simp [Config.map, List.map_take]
        rfl
      have hbelow : (c.map f g).stack.drop (A.size r) =
          (c.stack.drop (A.size r)).map (Prod.map id f) := by
        simp [Config.map, List.map_drop]
      have hreduce := hmaps.reduce r ((c.stack.take (A.size r)).map Prod.snd).reverse c.state
      rw [List.map_reverse] at hreduce
      simp only [Automaton.perform, hpopped, hbelow, top_map]
      rw [show (c.map f g).state = g c.state from rfl, hreduce]
      simp [Automaton.push, Config.map]
  | accept =>
      rfl
  | error =>
      rfl

theorem step_map (hmaps : C.Maps C' f g) (c : Config σ X V H) :
    A.step C' L (c.map f g) = (A.step C L c).map f g := by
  have hstatus : (c.map f g).status = c.status := rfl
  have htop : A.top (c.map f g).stack = A.top c.stack := top_map A f c.stack
  rw [Automaton.step, Automaton.step, hstatus, htop]
  cases c.status with
  | running =>
      cases A.quick (A.top c.stack) with
      | some d =>
          exact perform_map hmaps c d
      | none =>
          simp only [fetch_map hmaps, seen_map hmaps]
          exact perform_map hmaps _ _
  | _ =>
      rfl

theorem run_map (hmaps : C.Maps C' f g) (n : Nat) (c : Config σ X V H) :
    A.run C' L n (c.map f g) = (A.run C L n c).map f g := by
  induction n with
  | zero =>
      rfl
  | succ n ih =>
      rw [run_succ, run_succ, ih, step_map hmaps]

end Maps

/-! ## Values of an algebra beside those of a client -/

/-- The client with a value of the algebra beside every value. -/
def Client.ghost (C : Client T ι X V' H) (M : Algebra T ι X V) : Client T ι X (V × V') H where
  kind := C.kind
  read x h := ((M.leaf x, (C.read x h).1), (C.read x h).2)
  readEnd := C.readEnd
  reduce r vs h :=
    ((M.node r (vs.map Prod.fst), (C.reduce r (vs.map Prod.snd) h).1),
      (C.reduce r (vs.map Prod.snd) h).2)

section Ghost

variable {G : Grammar T N ι} {A : Automaton T N ι σ} {items : σ → List (Option ι × Nat)}
  {first : N → List T} {follow : N → List (Option T)} {M : Algebra T ι X V}
  {C : Client T ι X V' H} {L : Nat} {w : List X} {h : H}

theorem Client.ghost_maps (C : Client T ι X V' H) (M : Algebra T ι X V) :
    (C.ghost M).Maps C Prod.snd id :=
  ⟨rfl, fun _ _ => rfl, fun _ => rfl, fun _ _ _ => rfl⟩

theorem Client.ghost_models (hkind : C.kind = M.kind) : (C.ghost M).Models M Prod.fst :=
  ⟨hkind, fun _ _ => rfl, fun _ _ _ => rfl⟩

theorem run_ghost (M : Algebra T ι X V) (n : Nat) :
    A.run C L n (Automaton.begin w h) =
      (A.run (C.ghost M) L n (Automaton.begin w h)).map Prod.snd id :=
  run_map (C.ghost_maps M) n (Automaton.begin w h)

theorem status_ghost (M : Algebra T ι X V) (n : Nat) :
    (A.run C L n (Automaton.begin w h)).status =
      (A.run (C.ghost M) L n (Automaton.begin w h)).status := by
  rw [run_ghost M]
  rfl

/-- A bound for the steps of every client. -/
theorem Sound.halts_client {rank : GrammarSymbol T N → Nat} {bound : Nat} (hsound : Sound G A items)
    (hkind : C.kind = M.kind) (hrank : Ranked G rank bound) (w : List X) (h : H) :
    (A.run C L (w.length * (2 * (bound + 1)) + 1) (Automaton.begin w h)).status
      ≠ .running := by
  rw [status_ghost M]
  exact hsound.halts (Client.ghost_models hkind) hrank w h

/-- The words that a client accepts, in the end, are those derived on a stack that is small
enough. -/
theorem Complete.accepted_iff (hsound : Sound G A items)
    (hcomplete : Complete G A items first follow) (hkind : C.kind = M.kind) (hroom : 1 < L)
    {n : Nat} (hstop : (A.run C L n (Automaton.begin w h)).status ≠ .running) :
    (A.run C L n (Automaton.begin w h)).status = .accepted ↔
      ∃ v d, Derives G M [.nonterminal G.start] [v] w d ∧ d + 1 < L := by
  have hC : (C.ghost M).Models M Prod.fst := Client.ghost_models hkind
  rw [status_ghost M] at hstop ⊢
  constructor
  · intro hacc
    obtain ⟨s, v, d, _, hd⟩ := hsound.accepted hC hacc
    refine ⟨v.1, d, hd, ?_⟩
    by_contra hfull
    obtain ⟨m, hm⟩ := (hcomplete.reads_start (z := []) (h := h) (L := L) hsound hC hd
      hcomplete.ended hroom).2 (by omega)
    rw [List.append_nil] at hm
    have heq := run_unique (m := m) (by rw [hm]; decide) hstop
    rw [← heq, hm] at hacc
    cases hacc
  · rintro ⟨v, d, hd, hfit⟩
    obtain ⟨m, s, v', hm, _, _⟩ := hcomplete.accepts (h := h) hsound hC hd hfit
    rw [← run_unique (m := m) (by rw [hm]; decide) hstop, hm]

/-- A derived word that takes more room exhausts the stack. -/
theorem Complete.exhausted_of_derives (hsound : Sound G A items)
    (hcomplete : Complete G A items first follow) (hkind : C.kind = M.kind) (hroom : 1 < L)
    {n : Nat} (hstop : (A.run C L n (Automaton.begin w h)).status ≠ .running) {v : V} {d : Nat}
    (hd : Derives G M [.nonterminal G.start] [v] w d) (hfull : L ≤ d + 1) :
    (A.run C L n (Automaton.begin w h)).status = .exhausted := by
  have hC : (C.ghost M).Models M Prod.fst := Client.ghost_models hkind
  rw [status_ghost M] at hstop ⊢
  obtain ⟨m, hm⟩ := (hcomplete.reads_start (z := []) (h := h) (L := L) hsound hC hd
    hcomplete.ended hroom).2 hfull
  rw [List.append_nil] at hm
  rw [← run_unique (m := m) (by rw [hm]; decide) hstop, hm]

/-! ## Properties of the state -/

/-- The value of the lookahead. -/
def Config.ahead (c : Config σ X V H) : List V :=
  match c.lookahead with
  | some (some (_, v)) => [v]
  | _ => []

/-- The values that are in use. -/
def Config.values (c : Config σ X V H) : List V :=
  c.ahead ++ c.stack.map Prod.snd

/-- What every action keeps, for the values that are in use. -/
structure Client.Keeps (C : Client T ι X V' H) (G : Grammar T N ι) (M : Algebra T ι X V)
    (I : H → List (V × V') → Prop) : Prop where
  read : ∀ x h vs, I h vs → I (C.read x h).2 ((M.leaf x, (C.read x h).1) :: vs)
  readEnd : ∀ h vs, I h vs → I (C.readEnd h) vs
  reduce : ∀ r h (front us vs : List (V × V')) w d, Derives G M (G.rhs r) (us.map Prod.fst) w d →
    I h (front ++ us.reverse ++ vs) →
    I (C.reduce r (us.map Prod.snd) h).2
      (front ++ (M.node r (us.map Prod.fst), (C.reduce r (us.map Prod.snd) h).1) :: vs)

variable {I : H → List (V × V') → Prop} {c : Config σ X (V × V') H} {Ys : List (GrammarSymbol T N)}

theorem fetch_keeps (hkeeps : C.Keeps G M I) (hI : I c.state c.values) :
    I (Automaton.fetch (C.ghost M) c).state (Automaton.fetch (C.ghost M) c).values := by
  rcases c with ⟨stack, _ | _ | ⟨x, v⟩, input, state, status⟩
  · cases input with
    | nil =>
        exact hkeeps.readEnd _ _ hI
    | cons x xs =>
        exact hkeeps.read x _ _ hI
  · exact hI
  · exact hI

theorem step_keeps (hsound : Sound G A items) (hkeeps : C.Keeps G M I)
    (hc : c.Follows G A items M Prod.fst w Ys) (hI : I c.state c.values) :
    I (A.step (C.ghost M) L c).state (A.step (C.ghost M) L c).values := by
  by_cases hrun : c.status = .running
  · obtain ⟨c₁, hc₁, hstep, hshift⟩ :=
      step_eq (C := C.ghost M) (L := L) hsound hc.proper hrun
    rw [hstep]
    have hstack : c₁.stack = c.stack ∧ I c₁.state c₁.values := by
      rcases hc₁ with rfl | rfl
      · exact ⟨rfl, hI⟩
      · exact ⟨fetch_stack _ c, fetch_keeps hkeeps hI⟩
    have hjust := hsound.action (A.top c.stack) (c.pending.head?.map (C.ghost M).kind)
    cases hdec : A.action (A.top c.stack) (c.pending.head?.map (C.ghost M).kind) with
    | shift s =>
        -- The value of the lookahead goes to the stack.
        rcases c₁ with ⟨stack, _ | _ | ⟨x, v⟩, input, state, status⟩
        · exact hstack.2
        · exact hstack.2
        · exact hstack.2
    | reduce r =>
        rw [hdec] at hjust
        obtain ⟨u, hst, _⟩ := hc.stacked
        obtain ⟨pre, st, Ys', u', w', d, heq, hlen, _, _, hd, _, _⟩ := hst.pop hsound hjust
        rw [Grammar.body, List.take_length] at hd
        have hsame := hstack.1.trans heq
        have htake : c₁.stack.take (A.size r) = pre := by
          rw [hsame, hsound.size, ← hlen, List.take_left]
        have hdrop : c₁.stack.drop (A.size r) = st := by
          rw [hsame, hsound.size, ← hlen, List.drop_left]
        have hvalues : c₁.values =
            c₁.ahead ++ (pre.map Prod.snd).reverse.reverse ++ st.map Prod.snd := by
          rw [Config.values, hsame, List.map_append, List.reverse_reverse, List.append_assoc]
        have hI₁ := hstack.2
        rw [hvalues] at hI₁
        have hnode := hkeeps.reduce r _ _ _ _ _ _ hd hI₁
        simp only [Automaton.perform, htake, hdrop]
        exact hnode
    | accept =>
        exact hstack.2
    | error =>
        exact hstack.2
  · rw [step_stopped hrun]
    exact hI

/-- At any time the property holds of the state and of the values in use, which stand for what was
read. -/
theorem run_keeps (hsound : Sound G A items) (hkind : C.kind = M.kind) (hkeeps : C.Keeps G M I)
    (hI : I h []) (n : Nat) :
    (∃ Ys, (A.run (C.ghost M) L n (Automaton.begin w h)).Follows G A items M Prod.fst w Ys) ∧
      I (A.run (C.ghost M) L n (Automaton.begin w h)).state
        (A.run (C.ghost M) L n (Automaton.begin w h)).values := by
  have hC : (C.ghost M).Models M Prod.fst := Client.ghost_models hkind
  refine ⟨run_follows hsound hC n w h, ?_⟩
  induction n with
  | zero =>
      exact hI
  | succ n ih =>
      obtain ⟨Ys, hc⟩ := run_follows (L := L) hsound hC n w h
      rw [run_succ]
      exact step_keeps hsound hkeeps hc ih

end Ghost

end LR
end Lib
end MiniSQL
