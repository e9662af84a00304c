import Mathlib.Data.List.Nodup
import Mathlib.Tactic

/-!
# Directory — a finite map kept as an array of entries

New entries go behind the old ones, an entry is deleted by moving the later ones up, and a key is
found by a search for its first entry.  Keys are distinct, which is part of the structure, so the
array is a map: `get?_push`, `get?_eraseAt` and `get?_setAt` say which.  `serve` answers requests on
a directory, and `serve_fst` and `get?_serve` say that it does so as the map would.
-/

namespace MiniSQL
namespace Lib

/-! ## The search loop -/

/-- The first number among `i, …, i + n - 1` that has the property. -/
def search (p : Nat → Bool) : Nat → Nat → Option Nat
  | 0, _ => none
  | n + 1, i => if p i then some i else search p n (i + 1)

/-- The search in an array is the search in the list of its elements. -/
theorem search_eq_findIdx? {α : Type*} (l : List α) (q : α → Bool) {p : Nat → Bool} {i : Nat}
    (h : ∀ j a, l[j]? = some a → p (i + j) = q a) :
    search p l.length i = (l.findIdx? q).map (i + ·) := by
  induction l generalizing i with
  | nil =>
      rfl
  | cons a l ih =>
      have hhead : p i = q a := h 0 a rfl
      have htail := ih (i := i + 1) fun j b hb => by
        have hb' := h (j + 1) b (by rw [List.getElem?_cons_succ]; exact hb)
        rwa [← Nat.add_assoc, Nat.add_right_comm] at hb'
      rw [List.length_cons, search, hhead, List.findIdx?_cons]
      cases q a with
      | true =>
          rfl
      | false =>
          simp only [Bool.false_eq_true, if_false, htail, Option.map_map]
          congr 1
          funext j
          simp only [Function.comp_apply]
          omega

theorem search_lt {p : Nat → Bool} {n i j : Nat} (h : search p n i = some j) : j < i + n := by
  induction n generalizing i with
  | zero =>
      cases h
  | succ n ih =>
      rw [search] at h
      by_cases hp : p i = true
      · rw [if_pos hp] at h
        cases h
        omega
      · rw [if_neg hp] at h
        have := ih h
        omega

/-! ## Directories -/

/-- Entries with pairwise distinct keys. -/
structure Directory (κ ν : Type*) where
  entries : List (κ × ν)
  nodup : (entries.map Prod.fst).Nodup

namespace Directory

variable {κ ν : Type*} [DecidableEq κ] {d : Directory κ ν} {k k' : κ} {v v' : ν} {i j : Nat}

def empty : Directory κ ν :=
  ⟨[], List.nodup_nil⟩

/-- The place of the entry. -/
def find (d : Directory κ ν) (k : κ) : Option Nat :=
  d.entries.findIdx? fun e => e.1 = k

/-- The map that the entries stand for. -/
def get? (d : Directory κ ν) (k : κ) : Option ν :=
  (d.find k).bind fun i => d.entries[i]?.map Prod.snd

omit [DecidableEq κ] in
theorem index_unique (hi : d.entries[i]? = some (k, v)) (hj : d.entries[j]? = some (k, v')) :
    i = j := by
  have hkey : ∀ {n : Nat} {w : ν}, d.entries[n]? = some (k, w) →
      (d.entries.map Prod.fst)[n]? = some k := fun h => by
    rw [List.getElem?_map, h]
    rfl
  have hlt : i < (d.entries.map Prod.fst).length := (List.getElem?_eq_some_iff.mp (hkey hi)).1
  exact (List.getElem?_inj hlt d.nodup).mp ((hkey hi).trans (hkey hj).symm)

theorem find_eq_some : d.find k = some i ↔ ∃ v, d.entries[i]? = some (k, v) := by
  constructor
  · intro h
    rcases List.findIdx?_eq_some_iff_getElem.mp h with ⟨hlt, hkey, _⟩
    refine ⟨d.entries[i].2, ?_⟩
    rw [List.getElem?_eq_getElem hlt, ← of_decide_eq_true hkey]
  · rintro ⟨v, hi⟩
    cases hfind : d.find k with
    | none =>
        have hnot := List.findIdx?_eq_none_iff.mp hfind _ (List.mem_of_getElem? hi)
        simp at hnot
    | some j =>
        rcases List.findIdx?_eq_some_iff_getElem.mp hfind with ⟨hlt, hkey, _⟩
        have hj : d.entries[j]? = some (k, d.entries[j].2) := by
          rw [List.getElem?_eq_getElem hlt, ← of_decide_eq_true hkey]
        rw [index_unique hi hj]

theorem get?_eq_some : d.get? k = some v ↔ ∃ i : Nat, d.entries[i]? = some (k, v) := by
  constructor
  · intro h
    rcases Option.bind_eq_some_iff.mp h with ⟨i, hfind, hget⟩
    rcases find_eq_some.mp hfind with ⟨w, hi⟩
    rw [hi] at hget
    obtain rfl : w = v := Option.some.inj hget
    exact ⟨i, hi⟩
  · rintro ⟨i, hi⟩
    rw [get?, find_eq_some.mpr ⟨v, hi⟩, Option.bind_some, hi]
    rfl

theorem find_eq_none : d.find k = none ↔ d.get? k = none := by
  constructor
  · intro h
    rw [get?, h]
    rfl
  · intro h
    cases hfind : d.find k with
    | none =>
        rfl
    | some i =>
        rcases find_eq_some.mp hfind with ⟨v, hi⟩
        rw [get?_eq_some.mpr ⟨i, hi⟩] at h
        cases h

theorem get?_of_find (h : d.find k = some i) : ∃ v, d.entries[i]? = some (k, v) ∧
    d.get? k = some v := by
  rcases find_eq_some.mp h with ⟨v, hi⟩
  exact ⟨v, hi, get?_eq_some.mpr ⟨i, hi⟩⟩

theorem get?_empty : (empty : Directory κ ν).get? = fun _ => none :=
  rfl

/-- Two maps with the same bindings. -/
theorem get?_ext {μ : κ → Option ν}
    (h : ∀ k v, (∃ i : Nat, d.entries[i]? = some (k, v)) ↔ μ k = some v) : d.get? = μ := by
  funext k
  refine Option.ext fun v => ?_
  rw [← h k v]
  exact get?_eq_some

/-! ## The operations -/

/-- A new entry behind the others. -/
def push (d : Directory κ ν) (k : κ) (v : ν) (h : d.get? k = none) : Directory κ ν where
  entries := d.entries ++ [(k, v)]
  nodup := by
    rw [List.map_append, List.nodup_append]
    refine ⟨d.nodup, by simp, fun a ha b hb hab => ?_⟩
    rcases List.mem_map.mp ha with ⟨⟨k', w⟩, hmem, rfl⟩
    rcases List.mem_iff_getElem?.mp hmem with ⟨i, hi⟩
    rw [List.map_cons, List.map_nil, List.mem_singleton] at hb
    obtain rfl : k' = k := hab.trans hb
    rw [get?_eq_some.mpr ⟨i, hi⟩] at h
    cases h

/-- The entry is taken out, and the later ones move up. -/
def eraseAt (d : Directory κ ν) (i : Nat) : Directory κ ν where
  entries := d.entries.eraseIdx i
  nodup := d.nodup.sublist ((List.eraseIdx_sublist _ _).map Prod.fst)

/-- The entry keeps its key and gets a new value. -/
def setAt (d : Directory κ ν) (i : Nat) (v : ν) : Directory κ ν where
  entries := d.entries.modify i fun e => (e.1, v)
  nodup := by
    have hkeys : (d.entries.modify i fun e => (e.1, v)).map Prod.fst =
        d.entries.map Prod.fst := by
      refine List.ext_getElem? fun j => ?_
      simp only [List.getElem?_map, List.getElem?_modify]
      cases d.entries[j]? with
      | none =>
          rfl
      | some e =>
          by_cases hij : i = j
          · simp [hij]
          · simp [hij]
    rw [hkeys]
    exact d.nodup

theorem get?_push (h : d.get? k = none) :
    (d.push k v h).get? = Function.update d.get? k (some v) := by
  refine get?_ext fun k' v' => ?_
  simp only [push, ← List.mem_iff_getElem?, List.mem_append, List.mem_singleton, Prod.mk.injEq]
  by_cases hk : k' = k
  · subst hk
    rw [Function.update_self]
    constructor
    · rintro (hmem | ⟨_, rfl⟩)
      · rcases List.mem_iff_getElem?.mp hmem with ⟨i, hi⟩
        rw [get?_eq_some.mpr ⟨i, hi⟩] at h
        cases h
      · rfl
    · intro heq
      exact Or.inr ⟨rfl, (Option.some.inj heq).symm⟩
  · rw [Function.update_of_ne hk, get?_eq_some, ← List.mem_iff_getElem?]
    simp only [hk, false_and, or_false]

theorem get?_eraseAt (h : d.find k = some i) :
    (d.eraseAt i).get? = Function.update d.get? k none := by
  rcases find_eq_some.mp h with ⟨v, hi⟩
  refine get?_ext fun k' v' => ?_
  simp only [eraseAt, ← List.mem_iff_getElem?, List.mem_eraseIdx_iff_getElem?]
  by_cases hk : k' = k
  · subst hk
    rw [Function.update_self]
    refine iff_of_false ?_ (by simp)
    rintro ⟨j, hne, hj⟩
    exact hne (index_unique hj hi)
  · rw [Function.update_of_ne hk, get?_eq_some]
    constructor
    · rintro ⟨j, _, hj⟩
      exact ⟨j, hj⟩
    · rintro ⟨j, hj⟩
      refine ⟨j, ?_, hj⟩
      rintro rfl
      rw [hi] at hj
      simp only [Option.some.injEq, Prod.mk.injEq] at hj
      exact hk hj.1.symm

omit [DecidableEq κ] in
theorem getElem?_setAt : (d.setAt i v).entries[j]? = some (k', v') ↔
    (j = i ∧ v' = v ∧ ∃ w, d.entries[i]? = some (k', w)) ∨
      (j ≠ i ∧ d.entries[j]? = some (k', v')) := by
  simp only [setAt, List.getElem?_modify]
  by_cases hij : i = j
  · subst hij
    cases d.entries[i]? with
    | none =>
        simp
    | some e =>
        simp only [if_true, Option.map_eq_map, Option.map_some, Option.some.injEq]
        constructor
        · intro heq
          cases heq
          exact Or.inl ⟨trivial, rfl, e.2, rfl⟩
        · rintro (⟨_, rfl, w, rfl⟩ | ⟨hne, _⟩)
          · rfl
          · exact absurd rfl hne
  · have hji : j ≠ i := Ne.symm hij
    simp [hij, hji]

theorem get?_setAt (h : d.find k = some i) :
    (d.setAt i v).get? = Function.update d.get? k (some v) := by
  rcases find_eq_some.mp h with ⟨w, hi⟩
  refine get?_ext fun k' v' => ?_
  simp only [getElem?_setAt]
  by_cases hk : k' = k
  · subst hk
    rw [Function.update_self]
    constructor
    · rintro ⟨j, ⟨_, rfl, _⟩ | ⟨hne, hj⟩⟩
      · rfl
      · exact absurd (index_unique hj hi) hne
    · intro heq
      exact ⟨i, Or.inl ⟨rfl, (Option.some.inj heq).symm, w, hi⟩⟩
  · rw [Function.update_of_ne hk, get?_eq_some]
    -- The entry that changed has another key.
    have hother : ∀ {u : ν}, d.entries[i]? ≠ some (k', u) := by
      intro u hu
      rw [hi] at hu
      cases hu
      exact hk rfl
    constructor
    · rintro ⟨j, ⟨_, _, u, hu⟩ | ⟨_, hj⟩⟩
      · exact absurd hu hother
      · exact ⟨j, hj⟩
    · rintro ⟨j, hj⟩
      refine ⟨j, Or.inr ⟨?_, hj⟩⟩
      rintro rfl
      exact hother hj

/-! ## Requests -/

/-- What a user of a map asks for. -/
inductive Request (κ ν : Type*)
  | insert (k : κ) (v : ν)
  | delete (k : κ)
  | update (k : κ) (v : ν)
  | get (k : κ)

/-- The map after a request. -/
def Request.apply (μ : κ → Option ν) : Request κ ν → κ → Option ν
  | .insert k v => if (μ k).isNone then Function.update μ k (some v) else μ
  | .delete k => Function.update μ k none
  | .update k v => if (μ k).isSome then Function.update μ k (some v) else μ
  | .get _ => μ

/-- Whether the map grants the request: only absent keys are inserted, all else needs the key. -/
def Request.answer (μ : κ → Option ν) : Request κ ν → Bool
  | .insert k _ => (μ k).isNone
  | .delete k => (μ k).isSome
  | .update k _ => (μ k).isSome
  | .get k => (μ k).isSome

/-- The answer of the directory and the directory after the request. -/
def serve (d : Directory κ ν) : Request κ ν → Bool × Directory κ ν
  | .insert k v => if h : d.get? k = none then (true, d.push k v h) else (false, d)
  | .delete k =>
    match d.find k with
    | none => (false, d)
    | some i => (true, d.eraseAt i)
  | .update k v =>
    match d.find k with
    | none => (false, d)
    | some i => (true, d.setAt i v)
  | .get k => ((d.get? k).isSome, d)

theorem isSome_find : (d.find k).isSome = (d.get? k).isSome := by
  cases hfind : d.find k with
  | none =>
      rw [find_eq_none.mp hfind]
      rfl
  | some i =>
      rcases get?_of_find hfind with ⟨v, _, hget⟩
      rw [hget]
      rfl

theorem serve_fst (d : Directory κ ν) (r : Request κ ν) : (d.serve r).1 = r.answer d.get? := by
  cases r with
  | insert k v =>
      by_cases h : d.get? k = none
      · simp [serve, Request.answer, h]
      · simp [serve, Request.answer, h, Option.isSome_iff_ne_none]
  | delete k =>
      rw [Request.answer, ← isSome_find, serve]
      cases d.find k <;> rfl
  | update k v =>
      rw [Request.answer, ← isSome_find, serve]
      cases d.find k <;> rfl
  | get k =>
      rfl

theorem get?_serve (d : Directory κ ν) (r : Request κ ν) : (d.serve r).2.get? = r.apply d.get? := by
  cases r with
  | insert k v =>
      by_cases h : d.get? k = none
      · simp [serve, Request.apply, h, get?_push]
      · simp [serve, Request.apply, h]
  | delete k =>
      cases hfind : d.find k with
      | none =>
          -- Nothing is bound to the key, so taking it out changes nothing.
          have hsame : Function.update d.get? k none = d.get? := by
            rw [← find_eq_none.mp hfind, Function.update_eq_self]
          simp only [serve, hfind, Request.apply, hsame]
      | some i =>
          simp only [serve, hfind, Request.apply, get?_eraseAt hfind]
  | update k v =>
      rw [Request.apply, ← isSome_find]
      cases hfind : d.find k with
      | none =>
          simp [serve, hfind]
      | some i =>
          simp [serve, hfind, get?_setAt hfind]
  | get k =>
      rfl

end Directory
end Lib
end MiniSQL
