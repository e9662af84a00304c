import Mathlib.Data.List.Chain

/-!
# Links — following a successor function to its end

A linked list in a store is a successor function and a value that ends it.  `Leads next stop a as`
says that following `next` from `a` visits the elements `as`, no one twice, and then is at `stop`.
-/

namespace MiniSQL
namespace Lib

variable {α : Type} {next next' prev prev' : α → α} {stop a b c l : α} {as bs : List α}

inductive Leads (next : α → α) (stop : α) : α → List α → Prop
  | nil : Leads next stop stop []
  | cons {a : α} {as : List α} : a ≠ stop → a ∉ as → Leads next stop (next a) as →
      Leads next stop a (a :: as)

namespace Leads

/-- Only the links of the elements visited matter. -/
theorem congr (h : Leads next stop a as) (hsame : ∀ b ∈ as, next' b = next b) :
    Leads next' stop a as := by
  induction h with
  | nil =>
      exact nil
  | cons hne hnot _ ih =>
      refine cons hne hnot ?_
      rw [hsame _ (List.mem_cons_self ..)]
      exact ih fun b hb => hsame b (List.mem_cons_of_mem _ hb)

theorem head (h : Leads next stop a (b :: bs)) : b = a ∧ a ≠ stop := by
  cases h with
  | cons hne _ _ => exact ⟨rfl, hne⟩

theorem eq_stop (h : Leads next stop a []) : a = stop := by
  cases h
  rfl

/-- An element that is its own successor leads nowhere. -/
theorem not_self (hself : next a = a) (hne : a ≠ stop) : ¬Leads next stop a as := by
  intro h
  cases h with
  | nil =>
      exact hne rfl
  | cons _ hnot hrest =>
      rw [hself] at hrest
      cases hrest with
      | nil => exact hne rfl
      | cons _ _ _ => exact hnot (List.mem_cons_self ..)

/-- What is visited behind an element. -/
theorem behind (h : Leads next stop a (as ++ b :: bs)) : Leads next stop (next b) bs := by
  induction as generalizing a with
  | nil =>
      cases h with
      | cons _ _ hrest => exact hrest
  | cons c as ih =>
      rw [List.cons_append] at h
      cases h with
      | cons _ _ hrest => exact ih hrest

theorem nodup (h : Leads next stop a as) : as.Nodup := by
  induction h with
  | nil =>
      exact List.nodup_nil
  | cons _ hnot _ ih =>
      exact List.nodup_cons.mpr ⟨hnot, ih⟩

/-- An element put behind the last one is visited last. -/
theorem append (h : Leads next stop a (as ++ [l])) (hc : c ≠ stop) (hnew : c ∉ as ++ [l])
    (hlink : next' l = c) (hend : next' c = stop) (hsame : ∀ b ∈ as, next' b = next b) :
    Leads next' stop a (as ++ [l, c]) := by
  induction as generalizing a with
  | nil =>
      cases h with
      | cons hne _ _ =>
          have hcl : l ≠ c := by
            rintro rfl
            exact hnew (by simp)
          refine cons hne (by simpa using hcl) ?_
          rw [hlink]
          refine cons hc List.not_mem_nil ?_
          rw [hend]
          exact nil
  | cons b as ih =>
      rw [List.cons_append] at h
      cases h with
      | cons hne hnot hrest =>
          rw [List.cons_append, List.mem_cons, not_or] at hnew
          have hb : b ∉ as ++ [l, c] := by
            intro hmem
            rw [List.mem_append, List.mem_pair] at hmem
            rcases hmem with hmem | heq | heq
            · exact hnot (List.mem_append_left _ hmem)
            · exact hnot (by simp [heq])
            · exact hnew.1 heq.symm
          refine cons hne hb ?_
          rw [hsame b (List.mem_cons_self ..)]
          exact ih hrest hnew.2 fun b hb => hsame b (List.mem_cons_of_mem _ hb)

end Leads

/-! ## Doubly linked lists -/

/-- The elements `as` are visited from `a` on, and each but the first names the one before it. -/
structure DoublyLinked (next prev : α → α) (stop a : α) (as : List α) : Prop where
  leads : Leads next stop a as
  back : as.IsChain fun b c => prev c = b

namespace DoublyLinked

theorem congr (h : DoublyLinked next prev stop a as) (hnext : ∀ b ∈ as, next' b = next b)
    (hprev : ∀ b ∈ as, prev' b = prev b) : DoublyLinked next' prev' stop a as := by
  refine ⟨h.leads.congr hnext, h.back.imp_of_mem_imp fun b c _ hc hbc => ?_⟩
  rw [hprev c hc]
  exact hbc

theorem append (h : DoublyLinked next prev stop a (as ++ [l])) (hc : c ≠ stop)
    (hnew : c ∉ as ++ [l]) (hlink : next' l = c) (hend : next' c = stop)
    (hsame : ∀ b ∈ as, next' b = next b) (hfront : prev' c = l)
    (hprev : ∀ b ∈ as ++ [l], prev' b = prev b) :
    DoublyLinked next' prev' stop a (as ++ [l, c]) := by
  refine ⟨h.leads.append hc hnew hlink hend hsame, ?_⟩
  have hback : (as ++ [l]).IsChain fun b c => prev' c = b := by
    refine h.back.imp_of_mem_imp fun b d _ hd hbd => ?_
    rw [hprev d hd]
    exact hbd
  exact List.isChain_append_cons_cons.mpr ⟨hback, hfront, List.isChain_singleton c⟩

end DoublyLinked
end Lib
end MiniSQL
