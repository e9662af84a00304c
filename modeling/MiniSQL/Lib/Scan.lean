import Mathlib.Computability.Language
import Mathlib.Tactic

/-!
# Scan — scanners and the regular expressions they implement

A scanner is an automaton whose states may accept a rule.  It is certified by giving every state the
expressions that the rules have left there: a transition takes their derivatives.  Then the state
after a text accepts the first rule that matches the text, and the scanner finds the longest prefix
that a rule matches.
-/

namespace MiniSQL
namespace Lib
namespace Scan

/-- Regular expressions over character classes; `word` is one class after the other. -/
inductive Regex (κ : Type)
  | fail
  | word (Ks : List κ)
  | cat (p q : Regex κ)
  | alt (p q : Regex κ)
  | star (p : Regex κ)
deriving DecidableEq

variable {κ α β σ : Type} {mem : κ → α → Bool} {a : α} {w v : List α}

namespace Regex

variable {p q : Regex κ}

/-- The texts that the expression matches, where `mem` says which characters a class has. -/
def language (mem : κ → α → Bool) : Regex κ → Language α
  | fail => 0
  | word Ks => {w | List.Forall₂ (fun K a => mem K a = true) Ks w}
  | cat p q => p.language mem * q.language mem
  | alt p q => p.language mem + q.language mem
  | star p => KStar.kstar (p.language mem)

/-- The classes of the expression. -/
def classes : Regex κ → List κ
  | fail => []
  | word Ks => Ks
  | cat p q => p.classes ++ q.classes
  | alt p q => p.classes ++ q.classes
  | star p => p.classes

/-! ## Derivatives -/

def nullable : Regex κ → Bool
  | fail => false
  | word Ks => Ks.isEmpty
  | cat p q => p.nullable && q.nullable
  | alt p q => p.nullable || q.nullable
  | star _ => true

/-- `cat` without the parts that say nothing. -/
def followedBy : Regex κ → Regex κ → Regex κ
  | fail, _ => fail
  | word [], q => q
  | p, q => cat p q

/-- `alt` without the parts that say nothing. -/
def orElse : Regex κ → Regex κ → Regex κ
  | fail, q => q
  | p, fail => p
  | p, q => alt p q

/-- What the expression has left behind the character. -/
def deriv (mem : κ → α → Bool) (a : α) : Regex κ → Regex κ
  | fail => fail
  | word [] => fail
  | word (K :: Ks) => if mem K a then word Ks else fail
  | cat p q =>
    if p.nullable then ((p.deriv mem a).followedBy q).orElse (q.deriv mem a)
    else (p.deriv mem a).followedBy q
  | alt p q => (p.deriv mem a).orElse (q.deriv mem a)
  | star p => (p.deriv mem a).followedBy (star p)

theorem notMem_fail : w ∉ (fail : Regex κ).language mem :=
  id

theorem mem_word {Ks : List κ} :
    w ∈ (word Ks).language mem ↔ List.Forall₂ (fun K a => mem K a = true) Ks w :=
  Iff.rfl

theorem mem_cat : w ∈ (cat p q).language mem ↔
    ∃ u ∈ p.language mem, ∃ v ∈ q.language mem, u ++ v = w :=
  Language.mem_mul

theorem mem_alt : w ∈ (alt p q).language mem ↔ w ∈ p.language mem ∨ w ∈ q.language mem :=
  Iff.rfl

theorem nullable_iff (mem : κ → α → Bool) : p.nullable = true ↔ [] ∈ p.language mem := by
  induction p with
  | fail =>
      exact iff_of_false Bool.false_ne_true notMem_fail
  | word Ks =>
      rw [nullable, List.isEmpty_iff, mem_word, List.forall₂_nil_right_iff]
  | cat p q ihp ihq =>
      rw [nullable, Bool.and_eq_true, ihp, ihq, mem_cat]
      constructor
      · rintro ⟨hp, hq⟩
        exact ⟨[], hp, [], hq, rfl⟩
      · rintro ⟨u, hp, v, hq, huv⟩
        obtain ⟨rfl, rfl⟩ := List.append_eq_nil_iff.mp huv
        exact ⟨hp, hq⟩
  | alt p q ihp ihq =>
      rw [nullable, Bool.or_eq_true, ihp, ihq, mem_alt]
  | star p =>
      exact iff_of_true rfl (Language.nil_mem_kstar _)

theorem mem_followedBy : w ∈ (p.followedBy q).language mem ↔ w ∈ (cat p q).language mem := by
  rw [followedBy.eq_def]
  split
  · rw [mem_cat]
    constructor
    · intro h
      exact absurd h notMem_fail
    · rintro ⟨u, hu, _⟩
      exact absurd hu notMem_fail
  · rw [mem_cat]
    constructor
    · intro h
      exact ⟨[], List.Forall₂.nil, w, h, rfl⟩
    · rintro ⟨u, hu, v, hv, rfl⟩
      rw [mem_word, List.forall₂_nil_left_iff] at hu
      rw [hu]
      exact hv
  · exact Iff.rfl

theorem mem_orElse : w ∈ (p.orElse q).language mem ↔ w ∈ (alt p q).language mem := by
  rw [orElse.eq_def, mem_alt]
  split
  · exact (or_iff_right notMem_fail).symm
  · exact (or_iff_left notMem_fail).symm
  · exact mem_alt

/-- A text of `star p` that is not empty starts with one of `p` that is not empty. -/
theorem cons_mem_star : a :: w ∈ (star p).language mem ↔
    ∃ u v, a :: u ∈ p.language mem ∧ v ∈ (star p).language mem ∧ u ++ v = w := by
  constructor
  · intro h
    obtain ⟨ws, hflat, hws⟩ := Language.mem_kstar_iff_exists_nonempty.mp h
    cases ws with
    | nil =>
        exact absurd hflat (List.cons_ne_nil a w)
    | cons u ws =>
        obtain ⟨hu, hne⟩ := hws u List.mem_cons_self
        obtain ⟨b, u, rfl⟩ := List.exists_cons_of_ne_nil hne
        rw [List.flatten_cons, List.cons_append, List.cons.injEq] at hflat
        obtain ⟨rfl, rfl⟩ := hflat
        refine ⟨u, ws.flatten, hu, ?_, rfl⟩
        exact Language.join_mem_kstar fun y hy => (hws y (List.mem_cons_of_mem _ hy)).1
  · rintro ⟨u, v, hu, hv, rfl⟩
    obtain ⟨ws, rfl, hws⟩ := Language.mem_kstar.mp hv
    refine Language.mem_kstar.mpr ⟨(a :: u) :: ws, rfl, fun y hy => ?_⟩
    rcases List.mem_cons.mp hy with rfl | hy
    · exact hu
    · exact hws y hy

theorem mem_class {K : κ} : w ∈ (word [K]).language mem ↔ ∃ a, mem K a = true ∧ w = [a] := by
  rw [mem_word, List.forall₂_cons_left_iff]
  constructor
  · rintro ⟨a, v, hmem, hv, rfl⟩
    rw [List.forall₂_nil_left_iff.mp hv]
    exact ⟨a, hmem, rfl⟩
  · rintro ⟨a, hmem, rfl⟩
    exact ⟨a, [], hmem, .nil, rfl⟩

/-- A class repeated any number of times. -/
theorem mem_star_class {K : κ} :
    w ∈ (star (word [K])).language mem ↔ ∀ a ∈ w, mem K a = true := by
  induction w with
  | nil =>
      exact iff_of_true (Language.nil_mem_kstar _) fun a ha => nomatch ha
  | cons a w ih =>
      rw [cons_mem_star, List.forall_mem_cons, ← ih]
      constructor
      · rintro ⟨u, v, hu, hv, rfl⟩
        obtain ⟨b, hmem, hb⟩ := mem_class.mp hu
        obtain ⟨rfl, rfl⟩ := List.cons.inj hb
        exact ⟨hmem, hv⟩
      · rintro ⟨hmem, hw⟩
        exact ⟨[], w, mem_class.mpr ⟨a, hmem, rfl⟩, hw, rfl⟩

/-- The derivative matches what the expression matches behind the character. -/
theorem mem_deriv : w ∈ (p.deriv mem a).language mem ↔ a :: w ∈ p.language mem := by
  induction p generalizing w with
  | fail =>
      exact iff_of_false notMem_fail notMem_fail
  | word Ks =>
      cases Ks with
      | nil =>
          rw [deriv, mem_word, List.forall₂_nil_left_iff]
          exact iff_of_false notMem_fail (List.cons_ne_nil a w)
      | cons K Ks =>
          rw [deriv, mem_word, List.forall₂_cons]
          split
          · next hK =>
              exact (and_iff_right hK).symm
          · next hK =>
              exact iff_of_false notMem_fail fun h => hK h.1
  | cat p q ihp ihq =>
      -- The character belongs to `p`, or `p` matches nothing and it belongs to `q`.
      have hsplit : a :: w ∈ (cat p q).language mem ↔
          w ∈ (cat (p.deriv mem a) q).language mem ∨
            p.nullable = true ∧ a :: w ∈ q.language mem := by
        rw [mem_cat, mem_cat, nullable_iff mem]
        constructor
        · rintro ⟨u, hu, v, hv, huv⟩
          cases u with
          | nil =>
              rw [List.nil_append] at huv
              exact .inr ⟨hu, huv ▸ hv⟩
          | cons b u =>
              rw [List.cons_append, List.cons.injEq] at huv
              obtain ⟨rfl, rfl⟩ := huv
              exact .inl ⟨u, ihp.mpr hu, v, hv, rfl⟩
        · rintro (⟨u, hu, v, hv, rfl⟩ | ⟨hnil, hq⟩)
          · exact ⟨a :: u, ihp.mp hu, v, hv, rfl⟩
          · exact ⟨[], hnil, a :: w, hq, rfl⟩
      rw [deriv, hsplit]
      split
      · next hnull =>
          rw [mem_orElse, mem_alt, mem_followedBy, ihq]
          exact or_congr_right (and_iff_right hnull).symm
      · next hnull =>
          rw [mem_followedBy]
          exact (or_iff_left fun h => hnull h.1).symm
  | alt p q ihp ihq =>
      rw [deriv, mem_orElse, mem_alt, mem_alt, ihp, ihq]
  | star p ih =>
      rw [deriv, mem_followedBy, mem_cat, cons_mem_star]
      constructor
      · rintro ⟨u, hu, v, hv, huv⟩
        exact ⟨u, v, ih.mp hu, hv, huv⟩
      · rintro ⟨u, v, hu, hv, huv⟩
        exact ⟨u, ih.mpr hu, v, hv, huv⟩

/-- Only the classes of the expression decide about the derivative. -/
theorem deriv_congr {mem' : κ → β → Bool} {b : β}
    (h : ∀ K ∈ p.classes, mem K a = mem' K b) : p.deriv mem a = p.deriv mem' b := by
  induction p with
  | fail =>
      rfl
  | word Ks =>
      cases Ks with
      | nil =>
          rfl
      | cons K Ks =>
          rw [deriv, deriv, h K List.mem_cons_self]
  | cat p q ihp ihq =>
      rw [deriv, deriv, ihp fun K hK => h K (List.mem_append_left _ hK),
        ihq fun K hK => h K (List.mem_append_right _ hK)]
  | alt p q ihp ihq =>
      rw [deriv, deriv, ihp fun K hK => h K (List.mem_append_left _ hK),
        ihq fun K hK => h K (List.mem_append_right _ hK)]
  | star p ih =>
      rw [deriv, deriv, ih h]

end Regex

/-! ## Rules

A rule has a number, and of two rules that match a text the one with the smaller number wins. -/

variable {items rules : List (Nat × Regex κ)} {n : Nat}

/-- The rule `n` matches the text. -/
def Matches (mem : κ → α → Bool) (rules : List (Nat × Regex κ)) (n : Nat) (w : List α) : Prop :=
  ∃ p, (n, p) ∈ rules ∧ w ∈ p.language mem

/-- `n` is the first rule that matches the text. -/
def First (mem : κ → α → Bool) (rules : List (Nat × Regex κ)) (n : Nat) (w : List α) : Prop :=
  Matches mem rules n w ∧ ∀ m, Matches mem rules m w → n ≤ m

/-- The prefix of length `k` is the longest one that a rule matches, and `n` is the first rule for
it. -/
def Longest (mem : κ → α → Bool) (rules : List (Nat × Regex κ)) (w : List α) (n k : Nat) : Prop :=
  k ≤ w.length ∧ First mem rules n (w.take k) ∧
    ∀ j, k < j → j ≤ w.length → ∀ m, ¬ Matches mem rules m (w.take j)

/-- What the rules have left behind the character. -/
def advance (mem : κ → α → Bool) (a : α) : List (Nat × Regex κ) → List (Nat × Regex κ)
  | [] => []
  | (n, p) :: items =>
    match p.deriv mem a with
    | .fail => advance mem a items
    | q => (n, q) :: advance mem a items

/-- The first rule that matches the empty text. -/
def firstRule : List (Nat × Regex κ) → Option Nat
  | [] => none
  | (n, p) :: items => if p.nullable then some n else firstRule items

theorem matches_cons {p : Regex κ} {m : Nat} : Matches mem ((m, p) :: items) n w ↔
    n = m ∧ w ∈ p.language mem ∨ Matches mem items n w := by
  simp only [Matches, List.mem_cons, Prod.mk.injEq]
  constructor
  · rintro ⟨q, ⟨rfl, rfl⟩ | hq, hw⟩
    · exact .inl ⟨rfl, hw⟩
    · exact .inr ⟨q, hq, hw⟩
  · rintro (⟨rfl, hw⟩ | ⟨q, hq, hw⟩)
    · exact ⟨p, .inl ⟨rfl, rfl⟩, hw⟩
    · exact ⟨q, .inr hq, hw⟩

theorem not_matches_nil : ¬ Matches mem ([] : List (Nat × Regex κ)) n w := by
  rintro ⟨p, hp, _⟩
  exact absurd hp List.not_mem_nil

theorem matches_advance : Matches mem (advance mem a items) n w ↔ Matches mem items n (a :: w) := by
  induction items with
  | nil =>
      exact iff_of_false not_matches_nil not_matches_nil
  | cons e items ih =>
      obtain ⟨m, p⟩ := e
      rw [matches_cons, ← Regex.mem_deriv, ← ih, advance]
      split
      · next hfail =>
          rw [hfail]
          exact (or_iff_right fun h => Regex.notMem_fail h.2).symm
      · exact matches_cons

theorem advance_congr {mem' : κ → β → Bool} {b : β}
    (h : ∀ e ∈ items, ∀ K ∈ e.2.classes, mem K a = mem' K b) :
    advance mem a items = advance mem' b items := by
  induction items with
  | nil =>
      rfl
  | cons e items ih =>
      obtain ⟨m, p⟩ := e
      rw [advance, advance, Regex.deriv_congr (h (m, p) List.mem_cons_self),
        ih fun e he => h e (List.mem_cons_of_mem _ he)]

/-- The numbers of what is left are numbers of the rules, in their order. -/
theorem advance_sublist : ((advance mem a items).map Prod.fst).Sublist (items.map Prod.fst) := by
  induction items with
  | nil =>
      exact .slnil
  | cons e items ih =>
      obtain ⟨m, p⟩ := e
      rw [advance]
      split
      · exact ih.cons _
      · exact ih.cons_cons _

theorem firstRule_eq_some (mem : κ → α → Bool)
    (hsorted : (items.map Prod.fst).Pairwise (· < ·)) :
    firstRule items = some n ↔ First mem items n [] := by
  induction items with
  | nil =>
      exact iff_of_false (Option.some_ne_none n).symm fun h => not_matches_nil h.1
  | cons e items ih =>
      obtain ⟨m, p⟩ := e
      rw [List.map_cons, List.pairwise_cons] at hsorted
      obtain ⟨hhead, htail⟩ := hsorted
      have hlater : ∀ k, Matches mem items k [] → m < k := by
        rintro k ⟨q, hq, _⟩
        exact hhead k (List.mem_map_of_mem (f := Prod.fst) hq)
      rw [firstRule]
      split
      · next hnull =>
          have hp := (Regex.nullable_iff mem).mp hnull
          constructor
          · intro h
            obtain rfl := Option.some.inj h
            refine ⟨matches_cons.mpr (.inl ⟨rfl, hp⟩), fun k hk => ?_⟩
            rcases matches_cons.mp hk with ⟨rfl, _⟩ | hk
            · exact le_refl _
            · exact (hlater k hk).le
          · rintro ⟨hn, hfirst⟩
            have hle := hfirst m (matches_cons.mpr (.inl ⟨rfl, hp⟩))
            rcases matches_cons.mp hn with ⟨rfl, _⟩ | hn
            · rfl
            · exact absurd (hlater n hn) hle.not_gt
      · next hnull =>
          have hp : [] ∉ p.language mem := fun h => hnull ((Regex.nullable_iff mem).mpr h)
          have hrest : ∀ k, Matches mem ((m, p) :: items) k [] ↔ Matches mem items k [] :=
            fun k => matches_cons.trans (or_iff_right fun h => hp h.2)
          rw [ih htail]
          simp only [First, hrest]

/-! ## Scanners -/

/-- An automaton whose states may accept a rule; `next` is `none` where it cannot go on. -/
structure Scanner (σ α : Type) where
  start : σ
  next : σ → α → Option σ
  rule : σ → Option Nat

namespace Scanner

/-- The rule and the length of the longest prefix that is accepted from the state on. -/
def best (S : Scanner σ α) : σ → List α → Option (Nat × Nat)
  | s, [] => (S.rule s).map (·, 0)
  | s, a :: w =>
    match (S.next s a).bind fun t => S.best t w with
    | some (n, k) => some (n, k + 1)
    | none => (S.rule s).map (·, 0)

/-- `items` are what the rules have left in the states. -/
structure Certified (S : Scanner σ α) (mem : κ → α → Bool) (rules : List (Nat × Regex κ))
    (items : σ → List (Nat × Regex κ)) : Prop where
  sorted : (rules.map Prod.fst).Pairwise (· < ·)
  start : items S.start = rules
  next : ∀ s a, advance mem a (items s) = ((S.next s a).map items).getD []
  rule : ∀ s, S.rule s = firstRule (items s)

variable {S : Scanner σ α} {items : σ → List (Nat × Regex κ)}

theorem Certified.matches_next (hS : S.Certified mem rules items) {s t : σ}
    (hnext : S.next s a = some t) :
    Matches mem (items t) n w ↔ Matches mem (items s) n (a :: w) := by
  have hitems := hS.next s a
  rw [hnext, Option.map_some, Option.getD_some] at hitems
  rw [← hitems, matches_advance]

theorem Certified.not_matches (hS : S.Certified mem rules items) {s : σ}
    (hnext : S.next s a = none) : ¬ Matches mem (items s) n (a :: w) := by
  have hitems := hS.next s a
  rw [hnext, Option.map_none, Option.getD_none] at hitems
  rw [← matches_advance, hitems]
  exact not_matches_nil

/-- `best` from a state whose items are in order. -/
theorem Certified.best_from (hS : S.Certified mem rules items) {s : σ}
    (hsorted : ((items s).map Prod.fst).Pairwise (· < ·)) (w : List α) :
    match S.best s w with
    | some (n, k) => Longest mem (items s) w n k
    | none => ∀ j, j ≤ w.length → ∀ m, ¬ Matches mem (items s) m (w.take j) := by
  -- What the state accepts itself, when nothing longer matches.
  have hhere : ∀ {s : σ}, ((items s).map Prod.fst).Pairwise (· < ·) → ∀ w : List α,
      (∀ j, 0 < j → j ≤ w.length → ∀ m, ¬ Matches mem (items s) m (w.take j)) →
      match (S.rule s).map (·, 0) with
      | some (n, k) => Longest mem (items s) w n k
      | none => ∀ j, j ≤ w.length → ∀ m, ¬ Matches mem (items s) m (w.take j) := by
    intro s hsorted w hlonger
    cases hrule : S.rule s with
    | some n =>
        rw [hS.rule, firstRule_eq_some mem hsorted] at hrule
        exact ⟨Nat.zero_le _, hrule, hlonger⟩
    | none =>
        rw [hS.rule] at hrule
        have hnone : ∀ m, ¬ Matches mem (items s) m [] := by
          intro m hm
          classical
          have hex : ∃ m, Matches mem (items s) m [] := ⟨m, hm⟩
          have hfirst : First mem (items s) (Nat.find hex) [] :=
            ⟨Nat.find_spec hex, fun k hk => Nat.find_min' hex hk⟩
          rw [← firstRule_eq_some mem hsorted, hrule] at hfirst
          exact absurd hfirst (Option.some_ne_none _).symm
        intro j hj m
        rcases Nat.eq_zero_or_pos j with rfl | hpos
        · exact hnone m
        · exact hlonger j hpos hj m
  induction w generalizing s with
  | nil =>
      exact hhere hsorted [] fun j hpos hj => absurd hj (Nat.not_le.mpr hpos)
  | cons a w ih =>
      rw [best]
      cases hnext : S.next s a with
      | none =>
          refine hhere hsorted (a :: w) fun j hpos _ m => ?_
          obtain ⟨j, rfl⟩ := Nat.exists_eq_add_of_lt hpos
          rw [Nat.zero_add, List.take_succ_cons]
          exact hS.not_matches hnext
      | some t =>
          have hitems := hS.next s a
          rw [hnext, Option.map_some, Option.getD_some] at hitems
          have hrest := ih (s := t) (hitems ▸ hsorted.sublist advance_sublist)
          have hstep : ∀ {j m : Nat}, Matches mem (items s) m ((a :: w).take (j + 1)) ↔
              Matches mem (items t) m (w.take j) := by
            intro j m
            rw [List.take_succ_cons]
            exact (hS.matches_next hnext).symm
          rw [Option.bind_some]
          cases hbest : S.best t w with
          | none =>
              rw [hbest] at hrest
              refine hhere hsorted (a :: w) fun j hpos hj m => ?_
              obtain ⟨j, rfl⟩ := Nat.exists_eq_add_of_lt hpos
              rw [List.length_cons] at hj
              rw [Nat.zero_add, hstep]
              exact hrest j (by omega) m
          | some e =>
              obtain ⟨n, k⟩ := e
              rw [hbest] at hrest
              obtain ⟨hk, ⟨hmatch, hfirst⟩, hlonger⟩ := hrest
              refine ⟨Nat.succ_le_succ hk, ⟨hstep.mpr hmatch, fun m hm => ?_⟩,
                fun j hj hlen m => ?_⟩
              · exact hfirst m (hstep.mp hm)
              · obtain ⟨j, rfl⟩ := Nat.exists_eq_add_of_lt (Nat.zero_lt_of_lt hj)
                rw [List.length_cons] at hlen
                rw [Nat.zero_add, hstep]
                exact hlonger j (by omega) (by omega) m

/-- The scanner finds the longest prefix that a rule matches. -/
theorem Certified.best_eq_some (hS : S.Certified mem rules items) {k : Nat} :
    S.best S.start w = some (n, k) ↔ Longest mem rules w n k := by
  have hfrom := hS.best_from (s := S.start) (by rw [hS.start]; exact hS.sorted) w
  rw [hS.start] at hfrom
  constructor
  · intro h
    rw [h] at hfrom
    exact hfrom
  · rintro ⟨hk, hfirst, hlonger⟩
    cases hbest : S.best S.start w with
    | none =>
        rw [hbest] at hfrom
        exact absurd hfirst.1 (hfrom k hk n)
    | some e =>
        obtain ⟨n', k'⟩ := e
        rw [hbest] at hfrom
        obtain ⟨hk', hfirst', hlonger'⟩ := hfrom
        rcases Nat.lt_trichotomy k k' with hlt | rfl | hgt
        · exact absurd hfirst'.1 (hlonger k' hlt hk' n')
        · rw [le_antisymm (hfirst.2 n' hfirst'.1) (hfirst'.2 n hfirst.1)]
        · exact absurd hfirst.1 (hlonger' k hgt hk n)

end Scanner
end Scan
end Lib
end MiniSQL
