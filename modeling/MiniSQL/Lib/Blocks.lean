import Mathlib.Tactic

/-!
# Blocks — disjoint blocks at the upper end of a region

A region of addresses is filled from its end `top` downwards, and `low` is where the free part
ends.  Block `i` stands at `off i` and is `len i` long; a length of zero is no block.  `Packed` says
that the blocks lie between `low` and `top` and do not overlap.

* `Packed.alloc`: a new block right below the others;
* `Packed.resize`: block `k` gets another length, its end stays, and what lies below it moves along.
-/

namespace MiniSQL
namespace Lib

/-- The blocks numbered below `n`. -/
structure Packed (n low top : Nat) (off len : Nat → Nat) : Prop where
  low_le : low ≤ top
  inside : ∀ i, i < n → len i ≠ 0 → low ≤ off i ∧ off i + len i ≤ top
  apart : ∀ i j, i < n → j < n → i ≠ j → len i ≠ 0 → len j ≠ 0 →
    off i + len i ≤ off j ∨ off j + len j ≤ off i

namespace Packed

variable {n n' low low' top k s : Nat} {off len off' len' : Nat → Nat}

theorem empty (h : low ≤ top) : Packed 0 low top off len :=
  ⟨h, fun _ hi => absurd hi (Nat.not_lt_zero _), fun _ _ hi => absurd hi (Nat.not_lt_zero _)⟩

/-- Block `k` apart, every block lies and keeps its distance as it should: it is enough to look at
block `k` against the others. -/
theorem of_others (hlow : low' ≤ top)
    (hself : k < n' → len' k ≠ 0 → low' ≤ off' k ∧ off' k + len' k ≤ top)
    (hinside : ∀ i, i < n' → i ≠ k → len' i ≠ 0 → low' ≤ off' i ∧ off' i + len' i ≤ top)
    (hagainst : ∀ i, i < n' → i ≠ k → len' i ≠ 0 → len' k ≠ 0 →
      off' k + len' k ≤ off' i ∨ off' i + len' i ≤ off' k)
    (hothers : ∀ i j, i < n' → j < n' → i ≠ j → i ≠ k → j ≠ k → len' i ≠ 0 → len' j ≠ 0 →
      off' i + len' i ≤ off' j ∨ off' j + len' j ≤ off' i) : Packed n' low' top off' len' := by
  refine ⟨hlow, fun i hi hlen => ?_, fun i j hi hj hne hlen hlen' => ?_⟩
  · by_cases hik : i = k
    · subst hik
      exact hself hi hlen
    · exact hinside i hi hik hlen
  · by_cases hik : i = k
    · subst hik
      exact hagainst j hj (Ne.symm hne) hlen' hlen
    · by_cases hjk : j = k
      · subst hjk
        exact (hagainst i hi hik hlen hlen').symm
      · exact hothers i j hi hj hne hik hjk hlen hlen'

/-- Fewer blocks, at the same places. -/
theorem congr (h : Packed n low top off len) (hn : n' ≤ n)
    (heq : ∀ i, i < n' → off' i = off i ∧ len' i = len i) : Packed n' low top off' len' := by
  refine ⟨h.low_le, fun i hi => ?_, fun i j hi hj => ?_⟩
  · rw [(heq i hi).1, (heq i hi).2]
    exact h.inside i (by omega)
  · rw [(heq i hi).1, (heq i hi).2, (heq j hj).1, (heq j hj).2]
    exact h.apart i j (by omega) (by omega)

theorem alloc (h : Packed n low top off len) (hs : s ≤ low) (hoff : off' k = low - s)
    (hlen : len' k = s)
    (hother : ∀ i, i < n' → i ≠ k → i < n ∧ off' i = off i ∧ len' i = len i) :
    Packed n' (low - s) top off' len' := by
  have hlow := h.low_le
  refine of_others (k := k) (by omega) (fun _ _ => by omega) ?_ ?_ ?_
  · intro i hi hik hne
    rcases hother i hi hik with ⟨hin, hoff₀, hlen₀⟩
    rw [hlen₀] at hne
    have hinside := h.inside i hin hne
    omega
  · -- The others start at `low` or above, where the new block ends.
    intro i hi hik hne _
    rcases hother i hi hik with ⟨hin, hoff₀, hlen₀⟩
    rw [hlen₀] at hne
    have hinside := h.inside i hin hne
    omega
  · intro i j hi hj hne hik hjk hleni hlenj
    rcases hother i hi hik with ⟨hin, hoffi, hleni₀⟩
    rcases hother j hj hjk with ⟨hjn, hoffj, hlenj₀⟩
    rw [hleni₀] at hleni
    rw [hlenj₀] at hlenj
    rw [hoffi, hoffj, hleni₀, hlenj₀]
    exact h.apart i j hin hjn hne hleni hlenj

/-- Another block starts below the end of block `k` exactly when it starts below its start. -/
theorem before_iff (h : Packed n low top off len) {i : Nat} (hk : k < n) (hi : i < n) (hik : i ≠ k)
    (hlenk : len k ≠ 0) (hleni : len i ≠ 0) : off i < off k + len k ↔ off i < off k := by
  have hapart := h.apart i k hi hk hik hleni hlenk
  omega

theorem resize (h : Packed n low top off len) (hn : n' ≤ n) (hk : k < n) (hlenk : len k ≠ 0)
    (hs : s ≤ low + len k) (hself : len' k = s) (hoff : s ≠ 0 → off' k = off k + len k - s)
    (hother : ∀ i, i < n' → i ≠ k → len' i = len i ∧
      (len i ≠ 0 → off' i = if off i < off k then off i + len k - s else off i)) :
    Packed n' (low + len k - s) top off' len' := by
  have hinsidek := h.inside k hk hlenk
  -- Where another block went, and on which side of block `k` it was.
  have hcases : ∀ i, i < n' → i ≠ k → len' i ≠ 0 → i < n ∧ len i ≠ 0 ∧ len' i = len i ∧
      low ≤ off i ∧ off i + len i ≤ top ∧
      ((off i + len i ≤ off k ∧ off' i = off i + len k - s) ∨
        (off k + len k ≤ off i ∧ off' i = off i)) := by
    intro i hi hik hne
    rcases hother i hi hik with ⟨hlen, hmoved⟩
    rw [hlen] at hne
    have hin : i < n := by omega
    have hinside := h.inside i hin hne
    refine ⟨hin, hne, hlen, hinside.1, hinside.2, ?_⟩
    rcases h.apart i k hin hk hik hne hlenk with hbelow | habove
    · rw [hmoved hne, if_pos (by omega)]
      exact Or.inl ⟨hbelow, rfl⟩
    · rw [hmoved hne, if_neg (by omega)]
      exact Or.inr ⟨habove, rfl⟩
  refine of_others (k := k) (by omega) ?_ ?_ ?_ ?_
  · intro _ hne
    rw [hself] at hne
    have := hoff hne
    omega
  · intro i hi hik hne
    rcases hcases i hi hik hne with ⟨_, _, hlen, _, _, hplace⟩
    omega
  · intro i hi hik hne hnek
    rw [hself] at hnek
    have := hoff hnek
    rcases hcases i hi hik hne with ⟨_, _, hlen, _, _, hplace⟩
    omega
  · intro i j hi hj hne hik hjk hnei hnej
    rcases hcases i hi hik hnei with ⟨hin, hleni, heqi, hlowi, _, hplacei⟩
    rcases hcases j hj hjk hnej with ⟨hjn, hlenj, heqj, hlowj, _, hplacej⟩
    have hapart := h.apart i j hin hjn hne hleni hlenj
    omega

end Packed
end Lib
end MiniSQL
