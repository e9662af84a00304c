import Mathlib.Data.List.AList
import MiniSQL.Common.Config

/-!
# LRUReplacer — the queue of evictable frames

`buffer/lru_replacer.cpp`.  The replacer keeps a `std::list` of frames and a table from a frame to
an iterator into the list.  An iterator is the identity of its list node, so the list holds pairs
of a node and a frame.  That the table points at the right nodes is part of the structure; what a
client sees is the duplicate-free list `frames`.  `least_recently_unpinned` reads the order of the
victims off the history of calls alone.
-/

namespace MiniSQL

variable {α : Type} [DecidableEq α]

/-- `std::list::erase(it)` takes out the node `it` points at. -/
def eraseNode (node : Nat) (l : List (Nat × α)) : List (Nat × α) :=
  l.eraseP fun x => x.1 = node

structure LRUReplacer (α : Type) [DecidableEq α] where
  lruList : List (Nat × α)
  lruTable : AList fun _ : α => Nat
  /-- The identity of the next node to be made. -/
  nextNode : Nat
  nodes_lt : ∀ x ∈ lruList, x.1 < nextNode
  nodes_nodup : (lruList.map Prod.fst).Nodup
  table_iff : ∀ f node, lruTable.lookup f = some node ↔ (node, f) ∈ lruList

namespace LRUReplacer

/-- The frames in the replacer, the next victim first. -/
def frames (r : LRUReplacer α) : List α :=
  r.lruList.map Prod.snd

/-- In the list a node and its frame determine each other. -/
theorem node_iff_frame (r : LRUReplacer α) {node : Nat} {f : α} (h : (node, f) ∈ r.lruList)
    {x : Nat × α} (hx : x ∈ r.lruList) : x.1 = node ↔ x.2 = f := by
  constructor
  · intro hnode
    have heq := List.inj_on_of_nodup_map r.nodes_nodup hx h hnode
    rw [heq]
  · rintro rfl
    have h1 := (r.table_iff x.2 x.1).mpr hx
    have h2 := (r.table_iff x.2 node).mpr h
    rw [h1] at h2
    exact Option.some.inj h2

theorem mem_frames (r : LRUReplacer α) {f : α} : f ∈ r.frames ↔ ∃ node, (node, f) ∈ r.lruList := by
  simp [frames]

theorem nodup_frames (r : LRUReplacer α) : r.frames.Nodup := by
  have hnodup : r.lruList.Nodup := List.Nodup.of_map _ r.nodes_nodup
  refine (List.nodup_map_iff_inj_on hnodup).mpr ?_
  rintro ⟨n₁, f₁⟩ h1 ⟨n₂, f₂⟩ h2 heq
  have hnode : n₁ = n₂ := (r.node_iff_frame h2 h1).mpr heq
  exact Prod.ext hnode heq

theorem lookup_isSome_iff (r : LRUReplacer α) {f : α} :
    (∃ node, r.lruTable.lookup f = some node) ↔ f ∈ r.frames := by
  simp only [mem_frames, table_iff]

/-! ## The model -/

/-- The constructor; its argument is not used. -/
def empty : LRUReplacer α where
  lruList := []
  lruTable := ∅
  nextNode := 0
  nodes_lt := by simp
  nodes_nodup := by simp
  table_iff := by simp

def size (r : LRUReplacer α) : Nat :=
  r.lruList.length

theorem eraseNode_spec {l : List (Nat × α)} {node : Nat} {f : α}
    (h : ∀ x ∈ l, x.1 = node ↔ x.2 = f) :
    (eraseNode node l).map Prod.snd = (l.map Prod.snd).erase f := by
  induction l with
  | nil =>
      rfl
  | cons x l ih =>
      have hx := h x (List.mem_cons_self ..)
      have ih' := ih fun y hy => h y (List.mem_cons_of_mem _ hy)
      by_cases hnode : x.1 = node
      · have hf := hx.mp hnode
        simp [eraseNode, hnode, hf]
      · have hf : x.2 ≠ f := fun heq => hnode (hx.mpr heq)
        simp only [eraseNode] at ih' ⊢
        simp [hnode, hf, ih']

omit [DecidableEq α] in
theorem mem_eraseNode {l : List (Nat × α)} {node : Nat} (hnodup : (l.map Prod.fst).Nodup)
    {x : Nat × α} : x ∈ eraseNode node l ↔ x ∈ l ∧ x.1 ≠ node := by
  induction l with
  | nil =>
      simp [eraseNode]
  | cons y l ih =>
      simp only [List.map_cons, List.nodup_cons] at hnodup
      rcases hnodup with ⟨hnot, hrest⟩
      have ih' := ih hrest
      simp only [eraseNode] at ih' ⊢
      by_cases hy : y.1 = node
      · -- The node is gone after one erasure, since no other entry has it.
        have hfresh : ∀ z ∈ l, z.1 ≠ node := by
          intro z hz heq
          exact hnot (List.mem_map.mpr ⟨z, hz, by rw [heq, hy]⟩)
        simp only [hy, decide_true, List.eraseP_cons_of_pos, List.mem_cons]
        constructor
        · intro hx
          exact ⟨Or.inr hx, hfresh x hx⟩
        · rintro ⟨rfl | hx, hne⟩
          · exact absurd hy hne
          · exact hx
      · simp only [hy, decide_false, Bool.false_eq_true, not_false_eq_true,
          List.eraseP_cons_of_neg, List.mem_cons, ih']
        constructor
        · rintro (rfl | ⟨hx, hne⟩)
          · exact ⟨Or.inl rfl, hy⟩
          · exact ⟨Or.inr hx, hne⟩
        · rintro ⟨rfl | hx, hne⟩
          · exact Or.inl rfl
          · exact Or.inr ⟨hx, hne⟩

/-- Take frame `f` with list node `node` out of both the list and the table. -/
def remove (r : LRUReplacer α) (node : Nat) (f : α) (h : (node, f) ∈ r.lruList) :
    LRUReplacer α where
  lruList := eraseNode node r.lruList
  lruTable := r.lruTable.erase f
  nextNode := r.nextNode
  nodes_lt := fun x hx => r.nodes_lt x (List.mem_of_mem_eraseP hx)
  nodes_nodup := r.nodes_nodup.sublist (List.eraseP_sublist.map Prod.fst)
  table_iff := by
    intro g nd
    rw [mem_eraseNode r.nodes_nodup]
    by_cases hg : g = f
    · subst hg
      simp only [AList.lookup_erase, reduceCtorEq, false_iff, not_and, not_not]
      exact fun hmem => (r.node_iff_frame h hmem).mpr rfl
    · rw [AList.lookup_erase_ne hg, r.table_iff]
      constructor
      · intro hmem
        exact ⟨hmem, fun heq => hg ((r.node_iff_frame h hmem).mp heq)⟩
      · exact And.left

theorem frames_remove (r : LRUReplacer α) {node : Nat} {f : α} (h : (node, f) ∈ r.lruList) :
    (r.remove node f h).frames = r.frames.erase f :=
  eraseNode_spec fun _ hx => r.node_iff_frame h hx

/-- `Victim`: the frame at the front of the list. -/
def victim (r : LRUReplacer α) : Option (α × LRUReplacer α) :=
  match h : r.lruList with
  | [] => none
  | (node, f) :: _ => some (f, r.remove node f (by rw [h]; exact List.mem_cons_self ..))

def pin (r : LRUReplacer α) (f : α) : LRUReplacer α :=
  match h : r.lruTable.lookup f with
  | some node => r.remove node f ((r.table_iff f node).mp h)
  | none => r

def unpin (r : LRUReplacer α) (f : α) : LRUReplacer α :=
  match h : r.lruTable.lookup f with
  | some _ => r
  | none =>
    { lruList := r.lruList ++ [(r.nextNode, f)]
      lruTable := r.lruTable.insert f r.nextNode
      nextNode := r.nextNode + 1
      nodes_lt := by
        intro x hx
        rcases List.mem_append.mp hx with hx | hx
        · exact Nat.lt_succ_of_lt (r.nodes_lt x hx)
        · rw [List.mem_singleton.mp hx]
          exact Nat.lt_succ_self _
      nodes_nodup := by
        rw [List.map_append, List.nodup_append]
        refine ⟨r.nodes_nodup, by simp, ?_⟩
        intro a ha b hb
        rcases List.mem_map.mp ha with ⟨x, hx, rfl⟩
        -- The new node is above all old ones.
        have hlt := r.nodes_lt x hx
        simp only [List.map_cons, List.map_nil, List.mem_singleton] at hb
        omega
      table_iff := by
        intro g node
        have hfresh : ∀ nd, (nd, f) ∉ r.lruList := by
          intro nd hmem
          rw [(r.table_iff f nd).mpr hmem] at h
          exact absurd h (by simp)
        by_cases hg : g = f
        · subst hg
          simp [AList.lookup_insert, hfresh, eq_comm]
        · rw [AList.lookup_insert_ne hg, r.table_iff]
          simp [hg] }

/-! ## What a client sees -/

theorem size_eq_length (r : LRUReplacer α) : r.size = r.frames.length := by
  simp [size, frames]

theorem victim_none {r : LRUReplacer α} : r.victim = none ↔ r.frames = [] := by
  unfold victim
  split
  · simp [frames, *]
  · simp [frames, *]

theorem victim_some {r r' : LRUReplacer α} {f : α} (h : r.victim = some (f, r')) :
    r.frames = f :: r'.frames := by
  unfold victim at h
  split at h
  · simp at h
  · rename_i node g rest heq
    simp only [Option.some.injEq, Prod.mk.injEq] at h
    rcases h with ⟨rfl, rfl⟩
    rw [frames_remove]
    simp [frames, heq]

theorem frames_pin (r : LRUReplacer α) (f : α) : (r.pin f).frames = r.frames.erase f := by
  unfold pin
  split
  · exact r.frames_remove _
  · rename_i hnone
    have hnot : f ∉ r.frames := by
      rw [← lookup_isSome_iff]
      simp [hnone]
    exact (List.erase_of_not_mem hnot).symm

theorem frames_unpin (r : LRUReplacer α) (f : α) :
    (r.unpin f).frames = if f ∈ r.frames then r.frames else r.frames ++ [f] := by
  unfold unpin
  split
  · rename_i node hsome
    rw [if_pos (r.lookup_isSome_iff.mp ⟨node, hsome⟩)]
  · rename_i hnone
    have hnot : f ∉ r.frames := by
      rw [← lookup_isSome_iff]
      simp [hnone]
    rw [if_neg hnot]
    simp [frames]

/-! ## The order of the victims -/

open Lib

/-- A completed call, with the frame `Victim` took. -/
inductive Event (α : Type)
  | unpin (f : α)
  | pin (f : α)
  | victim (reply : Option α)

def Step (r : LRUReplacer α) : Event α → LRUReplacer α → Prop
  | .unpin f, r' => r' = r.unpin f
  | .pin f, r' => r' = r.pin f
  | .victim (some f), r' => r.victim = some (f, r')
  | .victim none, r' => r.victim = none ∧ r' = r

/-- The call takes frame `f` out. -/
def Event.Removes (f : α) (e : Event α) : Prop :=
  e = .pin f ∨ e = .victim (some f)

variable {es : List (Event α)} {e : Event α} {f g : α} {i j : Nat} {r r' : LRUReplacer α}

/-- Call number `i` of the history is `Unpin(f)`, and no call after it took `f` out. -/
def WaitsSince (es : List (Event α)) (f : α) (i : Nat) : Prop :=
  es[i]? = some (.unpin f) ∧ ∀ k e, i < k → es[k]? = some e → ¬e.Removes f

/-- The frame was unpinned and not taken out since. -/
def Waits (es : List (Event α)) (f : α) : Prop :=
  ∃ i, WaitsSince es f i

/-- Call number `i` is the earliest `Unpin(f)` since `f` was last taken out. -/
structure FirstUnpin (es : List (Event α)) (f : α) (i : Nat) : Prop where
  since : WaitsSince es f i
  first : ∀ j, WaitsSince es f j → i ≤ j

omit [DecidableEq α] in
theorem FirstUnpin.unique (h : FirstUnpin es f i) (h' : FirstUnpin es f j) : i = j :=
  le_antisymm (h.first j h'.since) (h'.first i h.since)

omit [DecidableEq α] in
theorem Waits.firstUnpin (h : Waits es f) : ∃ i, FirstUnpin es f i := by
  classical
  exact ⟨Nat.find h, Nat.find_spec h, fun j hj => Nat.find_min' h hj⟩

omit [DecidableEq α] in
theorem WaitsSince.lt (h : WaitsSince es f i) : i < es.length :=
  (List.getElem?_eq_some_iff.mp h.1).1

omit [DecidableEq α] in
/-- One more call: an earlier `Unpin(f)` counts unless `f` is taken out, and the call itself does
when it is one. -/
theorem waitsSince_append :
    WaitsSince (es ++ [e]) f i ↔
      (WaitsSince es f i ∧ ¬e.Removes f) ∨ (i = es.length ∧ e = .unpin f) := by
  have hlast : (es ++ [e])[es.length]? = some e := by
    rw [List.getElem?_append_right (le_refl _), Nat.sub_self]
    rfl
  constructor
  · -- The call counted is an earlier one or the last one.
    rintro ⟨hi, hkept⟩
    by_cases hlt : i < es.length
    · rw [List.getElem?_append_left hlt] at hi
      refine Or.inl ⟨⟨hi, fun k d hk hd => hkept k d hk ?_⟩, hkept es.length e hlt hlast⟩
      rw [List.getElem?_append_left (List.getElem?_eq_some_iff.mp hd).1]
      exact hd
    · have hbound := (List.getElem?_eq_some_iff.mp hi).1
      rw [List.length_append, List.length_singleton] at hbound
      have heq : i = es.length := by omega
      rw [heq, hlast] at hi
      exact Or.inr ⟨heq, Option.some.inj hi⟩
  · rintro (⟨h, hnot⟩ | ⟨rfl, rfl⟩)
    · refine ⟨by rw [List.getElem?_append_left h.lt]; exact h.1, fun k d hk hd => ?_⟩
      by_cases hlt : k < es.length
      · rw [List.getElem?_append_left hlt] at hd
        exact h.2 k d hk hd
      · have hbound := (List.getElem?_eq_some_iff.mp hd).1
        rw [List.length_append, List.length_singleton] at hbound
        have heq : k = es.length := by omega
        rw [heq, hlast] at hd
        rw [← Option.some.inj hd]
        exact hnot
    · refine ⟨hlast, fun k d hk hd => ?_⟩
      have hbound := (List.getElem?_eq_some_iff.mp hd).1
      rw [List.length_append, List.length_singleton] at hbound
      omega

/-- The list of the replacer, as the history has it. -/
structure Queued (es : List (Event α)) (r : LRUReplacer α) : Prop where
  mem_iff : ∀ f, f ∈ r.frames ↔ Waits es f
  sorted : r.frames.Pairwise fun f g => ∀ i j, FirstUnpin es f i → FirstUnpin es g j → i < j

omit [DecidableEq α] in
theorem waits_append :
    Waits (es ++ [e]) f ↔ (Waits es f ∧ ¬e.Removes f) ∨ e = .unpin f := by
  constructor
  · rintro ⟨i, hi⟩
    rcases waitsSince_append.mp hi with ⟨h, hnot⟩ | ⟨_, rfl⟩
    · exact Or.inl ⟨⟨i, h⟩, hnot⟩
    · exact Or.inr rfl
  · rintro (⟨⟨i, h⟩, hnot⟩ | rfl)
    · exact ⟨i, waitsSince_append.mpr (Or.inl ⟨h, hnot⟩)⟩
    · exact ⟨es.length, waitsSince_append.mpr (Or.inr ⟨rfl, rfl⟩)⟩

omit [DecidableEq α] in
/-- A repeated `Unpin` does not refresh a frame that waits already. -/
theorem FirstUnpin.of_append (h : FirstUnpin (es ++ [e]) f i) (hwaits : Waits es f)
    (hnot : ¬e.Removes f) : FirstUnpin es f i := by
  have hmore : ∀ j, WaitsSince es f j → i ≤ j := fun j hj =>
    h.first j (waitsSince_append.mpr (Or.inl ⟨hj, hnot⟩))
  rcases waitsSince_append.mp h.since with ⟨hi, _⟩ | ⟨rfl, _⟩
  · exact ⟨hi, hmore⟩
  · rcases hwaits with ⟨j, hj⟩
    exact absurd hj.lt (Nat.not_lt.mpr (hmore j hj))

/-- The frames that stay keep their order. -/
theorem Queued.sorted_append (h : Queued es r) {l : List α} (hsub : l.Sublist r.frames)
    (hnot : ∀ f ∈ l, ¬e.Removes f) :
    l.Pairwise fun f g => ∀ i j, FirstUnpin (es ++ [e]) f i → FirstUnpin (es ++ [e]) g j →
      i < j := by
  refine (h.sorted.sublist hsub).imp_of_mem fun hf hg hlt i j hi hj => hlt i j ?_ ?_
  · exact hi.of_append ((h.mem_iff _).mp (hsub.subset hf)) (hnot _ hf)
  · exact hj.of_append ((h.mem_iff _).mp (hsub.subset hg)) (hnot _ hg)

theorem Queued.unpin (h : Queued es r) (f : α) : Queued (es ++ [.unpin f]) (r.unpin f) := by
  have hstay : ∀ g : α, ¬(Event.unpin f).Removes g := by
    rintro g (hpin | hvictim)
    · cases hpin
    · cases hvictim
  have hframes := r.frames_unpin f
  have hsorted := h.sorted_append (List.Sublist.refl _) fun g _ => hstay g
  by_cases hmem : f ∈ r.frames
  · rw [if_pos hmem] at hframes
    constructor
    · intro g
      rw [hframes, h.mem_iff, waits_append]
      constructor
      · exact fun hg => Or.inl ⟨hg, hstay g⟩
      · rintro (⟨hg, _⟩ | heq)
        · exact hg
        · cases heq
          exact (h.mem_iff f).mp hmem
    · rw [hframes]
      exact hsorted
  · rw [if_neg hmem] at hframes
    constructor
    · intro g
      rw [hframes, List.mem_append, List.mem_singleton, h.mem_iff, waits_append]
      constructor
      · rintro (hg | rfl)
        · exact Or.inl ⟨hg, hstay g⟩
        · exact Or.inr rfl
      · rintro (⟨hg, _⟩ | heq)
        · exact Or.inl hg
        · cases heq
          exact Or.inr rfl
    · rw [hframes, List.pairwise_append]
      refine ⟨hsorted, List.pairwise_singleton _ _, fun g hg f' hf' i j hi hj => ?_⟩
      rw [List.mem_singleton.mp hf'] at hj
      -- The frame did not wait before, so this call is its first.
      have hjlast : j = es.length := by
        rcases waitsSince_append.mp hj.since with ⟨hsince, _⟩ | ⟨heq, _⟩
        · exact absurd ((h.mem_iff f).mpr ⟨j, hsince⟩) hmem
        · exact heq
      rw [hjlast]
      exact (hi.of_append ((h.mem_iff g).mp hg) (hstay g)).since.lt

/-- One frame is taken out. -/
theorem Queued.remove (h : Queued es r) (he : e.Removes f)
    (hother : ∀ g, e.Removes g → g = f) (hnew : ∀ g, e ≠ .unpin g)
    (hframes : r'.frames = r.frames.erase f) : Queued (es ++ [e]) r' := by
  have hmem : ∀ g, g ∈ r'.frames ↔ g ≠ f ∧ g ∈ r.frames := fun g => by
    rw [hframes, r.nodup_frames.mem_erase_iff]
  constructor
  · intro g
    rw [hmem, h.mem_iff, waits_append]
    constructor
    · rintro ⟨hne, hg⟩
      exact Or.inl ⟨hg, fun hremoves => hne (hother g hremoves)⟩
    · rintro (⟨hg, hnot⟩ | heq)
      · exact ⟨fun heq => hnot (heq ▸ he), hg⟩
      · exact absurd heq (hnew g)
  · refine h.sorted_append ?_ fun g hg hremoves => ((hmem g).mp hg).1 (hother g hremoves)
    rw [hframes]
    exact List.erase_sublist

/-- One call. -/
theorem Step.queued (hstep : Step r e r') (h : Queued es r) : Queued (es ++ [e]) r' := by
  cases e with
  | unpin f =>
      obtain rfl : r' = r.unpin f := hstep
      exact h.unpin f
  | pin f =>
      obtain rfl : r' = r.pin f := hstep
      refine h.remove (Or.inl rfl) ?_ (fun g heq => by cases heq) (r.frames_pin f)
      rintro g (heq | heq)
      · cases heq
        rfl
      · cases heq
  | victim reply =>
      cases reply with
      | none =>
          obtain rfl : r' = r := hstep.2
          have hempty := victim_none.mp hstep.1
          -- Nothing to take out: the queue is empty, so no frame waits.
          have hnone : ∀ g, ¬Waits es g := fun g hg => by
            have hmem := (h.mem_iff g).mpr hg
            rw [hempty] at hmem
            cases hmem
          constructor
          · intro g
            rw [hempty, waits_append]
            refine iff_of_false List.not_mem_nil ?_
            rintro (⟨hg, _⟩ | heq)
            · exact hnone g hg
            · cases heq
          · rw [hempty]
            exact List.Pairwise.nil
      | some f =>
          have hframes := victim_some hstep
          refine h.remove (Or.inr rfl) ?_ (fun g heq => by cases heq) ?_
          · rintro g (heq | heq)
            · cases heq
            · cases heq
              rfl
          · rw [hframes, List.erase_cons_head]

theorem run_queued {pre : List (Event α)} (hrun : Run Step r es r') (h : Queued pre r) :
    Queued (pre ++ es) r' := by
  -- The history grows along the run.
  induction hrun generalizing pre with
  | nil r =>
      rw [List.append_nil]
      exact h
  | cons hstep _ ih =>
      have h' := ih (hstep.queued h)
      rwa [List.append_assoc, List.singleton_append] at h'

theorem queued_empty : Queued [] (empty : LRUReplacer α) := by
  constructor
  · intro f
    refine iff_of_false List.not_mem_nil ?_
    rintro ⟨i, hi, _⟩
    cases hi
  · exact List.Pairwise.nil

/-- The frame at the front of the list waits longest. -/
theorem Queued.victim (h : Queued es r) (hvictim : r.victim = some (f, r')) :
    ∃ i, FirstUnpin es f i ∧ ∀ g j, FirstUnpin es g j → i ≤ j := by
  have hframes := victim_some hvictim
  have hf : f ∈ r.frames := by
    rw [hframes]
    exact List.mem_cons_self ..
  rcases ((h.mem_iff f).mp hf).firstUnpin with ⟨i, hi⟩
  refine ⟨i, hi, fun g j hj => ?_⟩
  have hg : g ∈ f :: r'.frames := by
    rw [← hframes]
    exact (h.mem_iff g).mpr ⟨j, hj.since⟩
  rcases List.mem_cons.mp hg with rfl | hg
  · exact le_of_eq (hi.unique hj)
  · have hsorted := h.sorted
    rw [hframes] at hsorted
    exact le_of_lt ((List.pairwise_cons.mp hsorted).1 g hg i j hi hj)

/-- After every history of calls the list has no duplicates and the table points at its nodes;
the size counts the frames unpinned and not taken out since; and `Victim` takes the frame whose
earliest `Unpin` since then is oldest, if there is one. -/
theorem least_recently_unpinned (hrun : Run Step (empty : LRUReplacer α) es r) :
    (r.frames.Nodup ∧ (∀ f, f ∈ r.lruTable ↔ f ∈ r.frames) ∧ (r.lruList.map Prod.fst).Nodup ∧
        ∀ f node, r.lruTable.lookup f = some node ↔ (node, f) ∈ r.lruList) ∧
      (∃ waiting : Finset α, (∀ f, f ∈ waiting ↔ Waits es f) ∧ r.size = waiting.card) ∧
      (r.victim = none ↔ ∀ f, ¬Waits es f) ∧
      ∀ f r', r.victim = some (f, r') →
        (∃ i, FirstUnpin es f i ∧ ∀ g j, FirstUnpin es g j → i ≤ j) ∧
          r'.frames = r.frames.erase f := by
  have h : Queued es r := run_queued hrun queued_empty
  refine ⟨⟨r.nodup_frames, fun f => ?_, r.nodes_nodup, r.table_iff⟩,
    ⟨r.frames.toFinset, fun f => ?_, ?_⟩, ?_, fun f r' hvictim => ⟨h.victim hvictim, ?_⟩⟩
  · rw [← lookup_isSome_iff, ← AList.lookup_isSome, Option.isSome_iff_exists]
  · rw [List.mem_toFinset, h.mem_iff]
  · rw [r.size_eq_length, List.toFinset_card_of_nodup r.nodup_frames]
  · rw [victim_none, List.eq_nil_iff_forall_not_mem]
    exact forall_congr' fun f => not_congr (h.mem_iff f)
  · rw [victim_some hvictim, List.erase_cons_head]

/-- Frame 1 is unpinned first and again last; it is the victim, not frame 2. -/
theorem least_recently_unpinned_twice :
    ∃ r r' : LRUReplacer Nat, Run Step empty [.unpin 1, .unpin 2, .unpin 1] r ∧
      r.victim = some (1, r') ∧ ∃ i, FirstUnpin [.unpin 1, .unpin 2, .unpin 1] 1 i ∧
        ∀ g j, FirstUnpin [.unpin 1, .unpin 2, .unpin 1] g j → i ≤ j := by
  have hrun : Run Step (empty : LRUReplacer Nat) [.unpin 1, .unpin 2, .unpin 1]
      (((empty.unpin 1).unpin 2).unpin 1) :=
    Run.cons rfl (Run.cons rfl (Run.cons rfl (Run.nil _)))
  have hvictim : ∃ r', (((empty.unpin 1).unpin 2).unpin 1 : LRUReplacer Nat).victim =
      some (1, r') := ⟨_, rfl⟩
  rcases hvictim with ⟨r', hvictim⟩
  exact ⟨_, r', hrun, hvictim, ((least_recently_unpinned hrun).2.2.2 1 r' hvictim).1⟩

end LRUReplacer
end MiniSQL
