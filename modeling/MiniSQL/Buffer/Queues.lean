import MiniSQL.Buffer.Frames

/-!
# Queues — what `DeletePage` leaves of the frame invariant

`DeletePage` puts a frame on the free list without taking it out of the replacer, so a frame can be
in both queues.  `QueueInv` allows this.  It says what the two queues are for: a frame in one of
them is not pinned, a frame that is not pinned is in one of them, and a frame on the free list
holds no page.  `FetchPage` keeps it, because it takes the frame it loads out of both queues.
-/

namespace MiniSQL
namespace BufferPoolManager

open Lib

variable {n : Nat} {D : Type} {s s₁ s' : BufferPoolManager n D} {f g : Fin n} {p : PageId}

structure QueueInv (s : BufferPoolManager n D) : Prop where
  table : TableInv s
  free : ∀ f ∈ s.freeList, (s.pages f).pageId = INVALID_PAGE_ID ∧ (s.pages f).pinCount = 0
  free_nodup : s.freeList.Nodup
  evict : ∀ f ∈ s.replacer.frames, (s.pages f).pinCount = 0
  idle : ∀ f, (s.pages f).pinCount = 0 → f ∈ s.freeList ∨ f ∈ s.replacer.frames

/-- A frame in exactly one class is in at most one queue. -/
theorem FrameInv.queueInv (h : FrameInv s) : QueueInv s := by
  refine ⟨h.tableInv, fun f hf => ?_, List.nodup_iff_count_le_one.mpr fun f => ?_, fun f hf => ?_,
    fun f hf => ?_⟩
  · have hpos : 0 < s.freeList.count f := List.count_pos_iff.mpr hf
    rcases h.inClass f with hc | hc | hc
    · exact hc.2.2
    · exact absurd hc.1 hpos.ne'
    · exact absurd hc.1 hpos.ne'
  · rcases h.inClass f with hc | hc | hc
    · exact le_of_eq hc.1
    · exact le_of_eq_of_le hc.1 (Nat.zero_le 1)
    · exact le_of_eq_of_le hc.1 (Nat.zero_le 1)
  · have hpos : 0 < s.replacer.frames.count f := List.count_pos_iff.mpr hf
    rcases h.inClass f with hc | hc | hc
    · exact hc.2.2.2
    · exact hc.2.2.2
    · exact absurd hc.2.1 hpos.ne'
  · rcases h.inClass f with hc | hc | hc
    · exact Or.inl (List.count_pos_iff.mp (lt_of_lt_of_eq Nat.one_pos hc.1.symm))
    · exact Or.inr (List.count_pos_iff.mp (lt_of_lt_of_eq Nat.one_pos hc.2.1.symm))
    · exact absurd hf hc.2.2.2.ne'

theorem QueueInv.pickFrame_none_iff (h : QueueInv s) :
    s.pickFrame = none ↔ ∀ f, (s.pages f).pinCount ≠ 0 := by
  rw [BufferPoolManager.pickFrame_none_iff]
  constructor
  · rintro ⟨hfree, hrep⟩ f hpin
    rcases h.idle f hpin with hf | hf
    · rw [hfree] at hf
      cases hf
    · rw [hrep] at hf
      cases hf
  · intro hall
    constructor
    · refine List.eq_nil_iff_forall_not_mem.mpr fun f hf => hall f (h.free f hf).2
    · refine List.eq_nil_iff_forall_not_mem.mpr fun f hf => hall f (h.evict f hf)

theorem QueueInv.pickFrame_ok (h : QueueInv s) (hf : (s.pages f).pinCount = 0) :
    ∃ g s₁, s.pickFrame = some (g, s₁) := by
  cases hpick : s.pickFrame with
  | none =>
      exact absurd hf (h.pickFrame_none_iff.mp hpick f)
  | some fs =>
      exact ⟨fs.1, fs.2, rfl⟩

/-- A frame picked is not pinned; afterwards it is off the free list, the other frames stay where
they were, and it is gone from the replacer too once it is pinned there. -/
structure Picks (s : BufferPoolManager n D) (f : Fin n) (s₁ : BufferPoolManager n D) : Prop where
  unpinned : (s.pages f).pinCount = 0
  not_free : f ∉ s₁.freeList
  nodup : s₁.freeList.Nodup
  free : ∀ g, g ≠ f → (g ∈ s₁.freeList ↔ g ∈ s.freeList)
  evict : ∀ g, g ≠ f → (g ∈ (s₁.replacer.pin f).frames ↔ g ∈ s.replacer.frames)

theorem not_mem_pin (r : LRUReplacer (Fin n)) (f : Fin n) : f ∉ (r.pin f).frames := by
  rw [LRUReplacer.frames_pin]
  exact fun hmem => (List.Nodup.mem_erase_iff r.nodup_frames).mp hmem |>.1 rfl

theorem mem_pin_iff {r : LRUReplacer (Fin n)} (hg : g ≠ f) :
    g ∈ (r.pin f).frames ↔ g ∈ r.frames := by
  rw [LRUReplacer.frames_pin, List.mem_erase_of_ne hg]

theorem QueueInv.picks (h : QueueInv s) (hpick : s.pickFrame = some (f, s₁)) : Picks s f s₁ := by
  rcases pickFrame_cases hpick with ⟨rest, hfree, rfl⟩ | ⟨hfree, r, hframes, rfl⟩
  · have hnodup := h.free_nodup
    rw [hfree, List.nodup_cons] at hnodup
    refine ⟨(h.free f (by simp [hfree])).2, hnodup.1, hnodup.2, fun g hg => ?_, fun g hg =>
      mem_pin_iff hg⟩
    simp [hfree, hg]
  · refine ⟨h.evict f (by simp [hframes]), by simp [hfree], by simp [hfree], fun g hg => Iff.rfl,
      fun g hg => ?_⟩
    rw [mem_pin_iff hg, hframes]
    simp [hg]

/-- A frame that leaves both queues and is pinned. -/
theorem QueueInv.hold (h : QueueInv s) (page : Page) (htable : TableInv s')
    (hpages : s'.pages = Function.update s.pages f page) (hpin : page.pinCount ≠ 0)
    (hfree : f ∉ s'.freeList) (hnodup : s'.freeList.Nodup) (hrep : f ∉ s'.replacer.frames)
    (hfrees : ∀ g, g ≠ f → (g ∈ s'.freeList ↔ g ∈ s.freeList))
    (hevicts : ∀ g, g ≠ f → (g ∈ s'.replacer.frames ↔ g ∈ s.replacer.frames)) : QueueInv s' := by
  have hself : s'.pages f = page := by rw [hpages, Function.update_self]
  have hother : ∀ g, g ≠ f → s'.pages g = s.pages g := by
    intro g hg
    rw [hpages, Function.update_of_ne hg]
  refine ⟨htable, fun g hg => ?_, hnodup, fun g hg => ?_, fun g hg => ?_⟩
  · have hgf : g ≠ f := fun heq => hfree (heq ▸ hg)
    rw [hother g hgf]
    exact h.free g ((hfrees g hgf).mp hg)
  · have hgf : g ≠ f := fun heq => hrep (heq ▸ hg)
    rw [hother g hgf]
    exact h.evict g ((hevicts g hgf).mp hg)
  · have hgf : g ≠ f := by
      rintro rfl
      rw [hself] at hg
      exact hpin hg
    rw [hother g hgf] at hg
    rw [hfrees g hgf, hevicts g hgf]
    exact h.idle g hg

/-- A resident frame is not on the free list. -/
theorem QueueInv.resident_not_free (h : QueueInv s) (hl : s.pageTable.lookup p = some f) :
    f ∉ s.freeList := by
  intro hf
  rcases (h.table p f).mp hl with ⟨hvalid, hid⟩
  exact hvalid (hid.symm.trans (h.free f hf).1)

theorem QueueInv.fetchPage [Disk D] (h : QueueInv s) {r : Option (Fin n)}
    (hok : s.fetchPage p = .ok (r, s')) : QueueInv s' := by
  rcases fetchPage_cases hok with ⟨_, rfl⟩ | ⟨f, _, hl, hs'⟩ |
    ⟨f, s₁, dm, data, dm', _, hnone, hpick, _, hread, hs'⟩
  · exact h
  · subst hs'
    refine h.hold (f := f) _ ?_ rfl (Nat.succ_ne_zero _) (h.resident_not_free hl) h.free_nodup
      (not_mem_pin _ _) (fun g _ => Iff.rfl) fun g hg => mem_pin_iff hg
    intro q g
    rw [h.table q g]
    simp only [field_update Page.pageId]
  · subst hs'
    have hp := h.picks hpick
    refine h.hold (f := f) _ ?_ rfl (Nat.succ_ne_zero _) hp.not_free hp.nodup (not_mem_pin _ _)
      hp.free hp.evict
    refine h.table.load (p := p) (f := f) 
      (ne_INVALID_of_nonneg (Disk.readPage_nonneg hread)) ?_ ?_ ?_ rfl
    · intro g hg
      rw [hnone] at hg
      cases hg
    · intro g hg
      simp only [Function.update_of_ne hg]
    · simp only [Function.update_self]

end BufferPoolManager
end MiniSQL
