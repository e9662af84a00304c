import Mathlib.Tactic

/-!
# Run — finite runs of a transition relation, invariants and simulations

A system is a relation `step s i s'` ("from `s` the event `i` leads to `s'`").  `Run step s is s'`
says that the events `is`, in this order, lead from `s` to `s'`.

* `Run.invariant`: what every step keeps, every run keeps;
* `Run.simulates`: when every step keeps a relation to an abstract state that moves by a function
  `g` of the event, the state after a run is related to the fold of `g` over its events;
* `Run.follows`: a second system follows a run as long as its own states allow the next event;
* `Run.deterministic`: two runs with the same inputs are the same when every step is determined.
-/

namespace MiniSQL
namespace Lib

variable {σ τ ι : Type*}

/-- Finite runs, labelled with the events they go through. -/
inductive Run (step : σ → ι → σ → Prop) : σ → List ι → σ → Prop
  | nil (s : σ) : Run step s [] s
  | cons {s s' s'' : σ} {i : ι} {is : List ι} :
      step s i s' → Run step s' is s'' → Run step s (i :: is) s''

namespace Run

variable {step : σ → ι → σ → Prop} {s s' s'' : σ} {is js : List ι}

/-- Invariant rule. -/
theorem invariant {P : σ → Prop} (hstep : ∀ s i s', P s → step s i s' → P s')
    (hrun : Run step s is s') (hs : P s) : P s' := by
  induction hrun with
  | nil s =>
      exact hs
  | cons h _ ih =>
      exact ih (hstep _ _ _ hs h)

/-- Runs compose at their shared state. -/
theorem append (hrun : Run step s is s') (hrun' : Run step s' js s'') :
    Run step s (is ++ js) s'' := by
  induction hrun with
  | nil s =>
      exact hrun'
  | cons h _ ih =>
      exact Run.cons h (ih hrun')

/-- Simulation rule: the abstract state moves by `g`. -/
theorem simulates {R : σ → τ → Prop} {g : τ → ι → τ}
    (hstep : ∀ s i s' t, R s t → step s i s' → R s' (g t i))
    (hrun : Run step s is s') {t : τ} (hs : R s t) : R s' (is.foldl g t) := by
  -- The abstract state moves along with the run, so it is not fixed in the induction.
  induction hrun generalizing t with
  | nil s =>
      exact hs
  | cons h _ ih =>
      exact ih (hstep _ _ _ _ hs h)

/-- Following rule: the second system can take every event of the run, provided that the state it
is in then allows it. -/
theorem follows {T : τ → ι → τ → Prop} {R : σ → τ → Prop} {C : τ → ι → Prop}
    (hstep : ∀ s i s' t, R s t → step s i s' → C t i → ∃ t', T t i t' ∧ R s' t')
    (hrun : Run step s is s') {t : τ} (hs : R s t)
    (hC : ∀ pre i post t', is = pre ++ i :: post → Run T t pre t' → C t' i) :
    ∃ t', Run T t is t' ∧ R s' t' := by
  induction hrun generalizing t with
  | nil s =>
      exact ⟨t, Run.nil t, hs⟩
  | @cons s s₁ s' i is h _ ih =>
      rcases hstep s i s₁ t hs h (hC [] i is t rfl (Run.nil t)) with ⟨t₁, ht₁, hs₁⟩
      have hC₁ : ∀ pre j post t', is = pre ++ j :: post → Run T t₁ pre t' → C t' j := by
        intro pre j post t' heq hpre
        exact hC (i :: pre) j post t' (by rw [heq, List.cons_append]) (Run.cons ht₁ hpre)
      rcases ih hs₁ hC₁ with ⟨t', hrun', hs'⟩
      exact ⟨t', Run.cons ht₁ hrun', hs'⟩

/-- Events with the same key lead from a state to the same state, so runs do too. -/
theorem deterministic {κ : Type*} {key : ι → κ}
    (hstep : ∀ s i j s' s'', key j = key i → step s i s' → step s j s'' → j = i ∧ s'' = s')
    (hrun : Run step s is s') (hrun' : Run step s js s'') (hkeys : js.map key = is.map key) :
    js = is ∧ s'' = s' := by
  induction hrun generalizing js with
  | nil s =>
      obtain rfl := List.map_eq_nil_iff.mp hkeys
      cases hrun'
      exact ⟨rfl, rfl⟩
  | cons h _ ih =>
      cases hrun' with
      | nil =>
          cases hkeys
      | cons h' hrest =>
          rcases List.cons.inj hkeys with ⟨hkey, htail⟩
          rcases hstep _ _ _ _ _ hkey h h' with ⟨rfl, rfl⟩
          rcases ih hrest htail with ⟨rfl, rfl⟩
          exact ⟨rfl, rfl⟩

/-- A run whose events all satisfy `P` is a run of the restricted relation. -/
theorem restrict {P : ι → Prop} (hrun : Run step s is s') (hP : ∀ i ∈ is, P i) :
    Run (fun s i s' => P i ∧ step s i s') s is s' := by
  induction hrun with
  | nil s =>
      exact Run.nil s
  | cons h _ ih =>
      refine Run.cons ⟨hP _ (by simp), h⟩ (ih fun i hi => hP i ?_)
      simp [hi]

/-- Runs are monotone in the relation. -/
theorem mono {step' : σ → ι → σ → Prop} (h : ∀ s i s', step s i s' → step' s i s')
    (hrun : Run step s is s') : Run step' s is s' := by
  induction hrun with
  | nil s =>
      exact Run.nil s
  | cons hs _ ih =>
      exact Run.cons (h _ _ _ hs) ih

end Run

/-! ## Computations that may fail -/

universe u v

variable {ε : Type u} {α β : Type v}

/-- A sequence of two computations succeeds exactly when both do. -/
theorem bind_eq_ok {x : Except ε α} {f : α → Except ε β} {b : β} :
    (x >>= f) = .ok b ↔ ∃ a, x = .ok a ∧ f a = .ok b := by
  cases x with
  | error e =>
      -- Neither side can hold: the failure is passed on.
      simp [bind, Except.bind]
  | ok a =>
      simp [bind, Except.bind]

@[simp] theorem ok_bind (a : α) (f : α → Except ε β) : ((Except.ok a : Except ε α) >>= f) = f a :=
  rfl

@[simp] theorem error_bind (e : ε) (f : α → Except ε β) :
    ((Except.error e : Except ε α) >>= f) = .error e :=
  rfl

/-- What every step of a loop keeps, the loop keeps when it succeeds. -/
theorem foldlM_invariant {f : β → α → Except ε β} {P : β → Prop}
    (hstep : ∀ b a b', P b → f b a = .ok b' → P b') {xs : List α} {b b' : β}
    (h : xs.foldlM f b = .ok b') (hb : P b) : P b' := by
  induction xs generalizing b with
  | nil =>
      obtain rfl : b = b' := Except.ok.inj h
      exact hb
  | cons a xs ih =>
      rw [List.foldlM_cons] at h
      rcases bind_eq_ok.mp h with ⟨b₁, h₁, h⟩
      exact ih h (hstep b a b₁ hb h₁)

/-- A traversal succeeds when it does on every element. -/
theorem mapM_eq_ok_of_forall {f : α → Except ε β} {xs : List α}
    (h : ∀ x ∈ xs, ∃ y, f x = .ok y) : ∃ ys, xs.mapM f = .ok ys := by
  induction xs with
  | nil =>
      exact ⟨[], rfl⟩
  | cons x xs ih =>
      obtain ⟨y, hy⟩ := h x List.mem_cons_self
      obtain ⟨ys, hys⟩ := ih fun z hz => h z (List.mem_cons_of_mem x hz)
      exact ⟨y :: ys, by rw [List.mapM_cons, hy, hys]; rfl⟩

/-- A traversal that succeeds has one result for every element. -/
theorem mapM_length {f : α → Except ε β} {xs : List α} {ys : List β} (h : xs.mapM f = .ok ys) :
    ys.length = xs.length := by
  induction xs generalizing ys with
  | nil =>
      obtain rfl : [] = ys := Except.ok.inj h
      rfl
  | cons x xs ih =>
      rw [List.mapM_cons] at h
      rcases bind_eq_ok.mp h with ⟨y, _, h⟩
      rcases bind_eq_ok.mp h with ⟨ys', hrest, h⟩
      obtain rfl : y :: ys' = ys := Except.ok.inj h
      rw [List.length_cons, ih hrest, List.length_cons]

end Lib
end MiniSQL
