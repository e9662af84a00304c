import MiniSQL.Buffer.Evictions

/-!
# Orderly — pools that have seen a deletion

`DeletePage` breaks the invariant of the frames, because the frame stays in the replacer.  What is
left is enough for `FetchPage`, `UnpinPage` and `DeletePage` to work: the queues know the frames
nobody pins, and such a frame either is dirty or holds what is on disk.
-/

namespace MiniSQL
namespace BufferPoolManager

open Lib

variable {n : Nat} {s s' : BufferPoolManager n} {f g : Fin n} {p q : PageId}

structure Orderly (s : BufferPoolManager n) : Prop where
  queues : QueueInv s
  disk : DiskManager.Inv s.diskManager
  resident : ∀ p f, s.pageTable.lookup p = some f → 0 ≤ p.toInt
  clean : ∀ f, (s.pages f).pageId = INVALID_PAGE_ID → (s.pages f).isDirty = false
  spare : ∀ f, (s.pages f).pinCount = 0 → Spare s f

theorem PoolInv.orderly (h : PoolInv s) (hsync : Synced s) : Orderly s :=
  ⟨h.frames.queueInv, h.disk, fun p f hl => (h.allocated p f hl).1, h.clean, fun f _ => hsync f⟩

/-- Every page can be fetched while a frame is not pinned. -/
theorem Orderly.fetchPage_ok (h : Orderly s) (hf : (s.pages f).pinCount = 0) (hp : 0 ≤ p.toInt) :
    ∃ g s', s.fetchPage p = .ok (some g, s') := by
  refine h.queues.fetchPage_ok (fun g hdirty => ?_) hf hp
  have hvalid : (s.pages g).pageId ≠ INVALID_PAGE_ID := by
    intro hid
    rw [h.clean g hid] at hdirty
    cases hdirty
  exact h.resident _ g ((h.queues.table _ g).mpr ⟨hvalid, rfl⟩)

/-! ## FetchPage -/

/-- Page `p` was fetched and is held; no page sees other bytes. -/
structure Acquired (s : BufferPoolManager n) (p : PageId) (f : Fin n) (s' : BufferPoolManager n) :
    Prop extends Loaded s p f s' where
  orderly : Orderly s'
  contents : ∀ q, 0 ≤ q.toInt → s'.contents q = s.contents q

theorem Orderly.acquired (h : Orderly s) (hok : s.fetchPage p = .ok (some f, s')) :
    Acquired s p f s' := by
  have hloaded := h.queues.loaded hok
  have hstep : Step s (.fetchPage p (some f)) s' := hok
  have hdisk := hstep.diskInv h.disk
  have hpinned : (s'.pages f).pinCount ≠ 0 := by
    rw [hloaded.frame_pins]
    exact Nat.succ_ne_zero _
  have hid := (hloaded.queues.table p f).mp hloaded.lookup
  -- The frame now has a page; the others are as they were.
  have hclean : ∀ g, (s'.pages g).pageId = INVALID_PAGE_ID → (s'.pages g).isDirty = false := by
    intro g hg
    by_cases hgf : g = f
    · rw [hgf, hid.2] at hg
      exact absurd hg hid.1
    · rw [hloaded.others g hgf] at hg ⊢
      exact h.clean g hg
  rcases fetchPage_inversion hok with ⟨hnone, _⟩ | ⟨g, hg, hl, hs'⟩ |
    ⟨g, s₁, dm, hg, hnone, hpick, hwrite, hpos, hs'⟩
  · cases hnone
  · -- The page was resident.
    obtain rfl := Option.some.inj hg
    have htable : s'.pageTable = s.pageTable := by rw [hs']
    have hfile : s'.diskManager = s.diskManager := by rw [hs']
    refine ⟨hloaded, ⟨hloaded.queues, hdisk, ?_, hclean, fun g hzero q hq => ?_⟩, fun q _ => ?_⟩
    · rw [htable]
      exact h.resident
    · have hgf : g ≠ f := by
        rintro rfl
        exact hpinned hzero
      rw [htable] at hq
      rw [hloaded.others g hgf] at hzero ⊢
      rw [hfile]
      exact h.spare g hzero q hq
    · rw [h.queues.table.contents_touch hl _ (by rw [hs']) htable hfile]
      split
      · rename_i hqp
        rw [hqp, contents_of_lookup hl]
      · rfl
  · -- The page takes a frame that nobody pins and that can be spared.
    obtain rfl := Option.some.inj hg
    have hfree := (h.queues.picks hpick).unpinned
    rcases h.queues.table.stored_spare (h.spare f hfree) hwrite with ⟨hheld, hothers⟩
    have htable : s'.pageTable = (s.pageTable.erase (s.pages f).pageId).insert p f := by rw [hs']
    have hfile : s'.diskManager = dm := by rw [hs']
    refine ⟨hloaded, ⟨hloaded.queues, hdisk, fun q g hq => ?_, hclean, fun g hzero => ?_⟩,
      fun q hq => ?_⟩
    · by_cases hqp : q = p
      · rw [hqp]
        exact hpos
      · exact h.resident q g (hloaded.resident q g hq hqp)
    · have hgf : g ≠ f := by
        rintro rfl
        exact hpinned hzero
      rw [hloaded.others g hgf] at hzero
      exact spare_load _ (by rw [hs']) htable h.resident (by rw [hfile]; exact hothers) hgf
        (h.spare g hzero)
    · rw [h.queues.table.contents_load _ (by rw [hs']) htable (by rw [hfile]; exact hheld)
        (by rw [hfile]; exact hothers) hq]
      split
      · rename_i hqp
        rw [hqp, contents_of_none hnone]
        exact hothers p hpos (by simp [hnone])
      · rfl

/-- `FetchPage` returns null for a page that nobody pins when all frames are pinned. -/
theorem Orderly.fetchPage_null (h : Orderly s) (hp : s.pins p = 0)
    (hall : ∀ g, (s.pages g).pinCount ≠ 0) : s.fetchPage p = .ok (none, s) := by
  have hnone : s.pageTable.lookup p = none := by
    cases hl : s.pageTable.lookup p with
    | none => rfl
    | some f =>
        rw [pins_of_lookup hl] at hp
        exact absurd hp (hall f)
  simp only [fetchPage, hnone, h.queues.pickFrame_none_iff.mpr hall]

/-- A page nobody pinned is fetched to a frame nobody pinned. -/
theorem Acquired.unpinned (h : Acquired s p f s') (hp : s.pins p = 0) :
    (s.pages f).pinCount = 0 := by
  have hcount := h.pins p
  rw [pins_of_lookup h.lookup, h.frame_pins, hp, if_pos rfl] at hcount
  omega

/-! ## DeletePage -/

/-- Page `p` was given back by the last that held it, and deleted. -/
structure Dropped (s : BufferPoolManager n) (p : PageId) (f : Fin n) (s' : BufferPoolManager n) :
    Prop where
  orderly : Orderly s'
  lookup : ∀ q, s'.pageTable.lookup q = if q = p then none else s.pageTable.lookup q
  unpinned : (s'.pages f).pinCount = 0
  pins : ∀ q, q ≠ p → s'.pins q = s.pins q
  free : ∀ q, 0 ≤ q.toInt →
    (s'.diskManager.isPageFree q = true ↔ q = p ∨ s.diskManager.isPageFree q = true)
  contents : ∀ q, 0 ≤ q.toInt → q ≠ p → s'.contents q = s.contents q

theorem TableInv.erase (h : TableInv s) (hl : s.pageTable.lookup p = some f)
    (htable : s'.pageTable = s.pageTable.erase p) (hf : (s'.pages f).pageId = INVALID_PAGE_ID)
    (hothers : ∀ g, g ≠ f → (s'.pages g).pageId = (s.pages g).pageId) : TableInv s' := by
  intro q g
  rw [htable]
  by_cases hqp : q = p
  · -- Only `f` held page `p`, and it does not any more.
    rw [hqp, AList.lookup_erase]
    refine iff_of_false (by simp) ?_
    rintro ⟨hvalid, hg⟩
    by_cases hgf : g = f
    · rw [hgf, hf] at hg
      exact hvalid hg.symm
    · rw [hothers g hgf] at hg
      exact hgf (h.inj hvalid hg ((h p f).mp hl).2)
  · rw [AList.lookup_erase_ne hqp, h]
    by_cases hgf : g = f
    · refine iff_of_false ?_ ?_
      · rintro ⟨_, hg⟩
        rw [hgf, ((h p f).mp hl).2] at hg
        exact hqp hg.symm
      · rintro ⟨hvalid, hg⟩
        rw [hgf, hf] at hg
        exact hvalid hg.symm
    · rw [hothers g hgf]

/-- The frame goes to the free list, and to the replacer as well. -/
theorem QueueInv.dropped (h : QueueInv s) (hl : s.pageTable.lookup p = some f)
    (htable : TableInv s') (hf : (s'.pages f).pageId = INVALID_PAGE_ID)
    (hpin : (s'.pages f).pinCount = 0) (hothers : ∀ g, g ≠ f → s'.pages g = s.pages g)
    (hfree : s'.freeList = s.freeList ++ [f]) (hrep : s'.replacer = s.replacer.unpin f) :
    QueueInv s' := by
  -- `Unpin` puts the frame behind the others, unless it waits there already.
  have hevict : ∀ g, g ∈ s'.replacer.frames ↔ g ∈ s.replacer.frames ∨ g = f := by
    intro g
    rw [hrep, LRUReplacer.frames_unpin]
    split
    · rename_i hmem
      exact ⟨Or.inl, fun hg => hg.elim id fun heq => heq ▸ hmem⟩
    · simp
  refine ⟨htable, fun g hg => ?_, ?_, fun g hg => ?_, fun g hg => ?_⟩
  · rw [hfree, List.mem_append, List.mem_singleton] at hg
    rcases hg with hg | rfl
    · have hgf : g ≠ f := fun heq => h.resident_not_free hl (heq ▸ hg)
      rw [hothers g hgf]
      exact h.free g hg
    · exact ⟨hf, hpin⟩
  · rw [hfree, List.nodup_append]
    refine ⟨h.free_nodup, List.nodup_singleton f, fun a ha b hb heq => ?_⟩
    rw [List.mem_singleton] at hb
    exact h.resident_not_free hl (hb ▸ heq ▸ ha)
  · by_cases hgf : g = f
    · rw [hgf, hpin]
    · rw [hothers g hgf]
      exact h.evict g (((hevict g).mp hg).resolve_right hgf)
  · rw [hfree, hevict, List.mem_append, List.mem_singleton]
    by_cases hgf : g = f
    · exact Or.inl (Or.inr hgf)
    · rw [hothers g hgf] at hg
      exact (h.idle g hg).imp Or.inl Or.inl

theorem Orderly.drop (h : Orderly s) (hl : s.pageTable.lookup p = some f)
    (hpin : (s.pages f).pinCount = 1) :
    ∃ r s', (s.unpinPage p false).2.deletePage p = .ok (r, s') ∧ Dropped s p f s' := by
  have hp := h.resident p f hl
  rcases hu : s.unpinPage p false with ⟨done, s₁⟩
  have hstep₁ : Step s (.unpinPage p false done) s₁ := hu
  have hdisk₁ := hstep₁.diskInv h.disk
  rcases unpinPage_inversion hu with ⟨hnone, _⟩ | ⟨g, hg, hs₁⟩
  · rw [hl] at hnone
    cases hnone
  rw [hl] at hg
  obtain rfl := Option.some.inj hg
  have hl₁ : s₁.pageTable.lookup p = some f := by rw [hs₁, hl]
  have hself₁ : (s₁.pages f).pinCount = 0 := by simp only [hs₁, Function.update_self, hpin]
  have hothers₁ : ∀ g, g ≠ f → s₁.pages g = s.pages g := by
    intro g hg
    simp only [hs₁, Function.update_of_ne hg]
  have hfile₁ : s₁.diskManager = s.diskManager := by rw [hs₁]
  -- After the unpin nobody holds the page, so `DeletePage` goes all the way.
  rcases deletePage_ok hdisk₁ hp with ⟨r, s', hdelete⟩
  have hstep' : Step s₁ (.deletePage p r) s' := hdelete
  have hdisk' := hstep'.diskInv hdisk₁
  have hfreed := fun (q : PageId) (hq : 0 ≤ q.toInt) =>
    deAllocatePage_free_iff hdisk₁ (deletePage_diskManager hdelete) hq
  have hcontents := fun (q : PageId) (hq : 0 ≤ q.toInt) (hne : q ≠ p) =>
    deletePage_contents_ne hdisk₁ hdelete hq hne
  -- The page is resident and not pinned, which leaves one of the three ways through the call.
  refine ⟨r, s', hdelete, ?_⟩
  rcases deletePage_inversion hdelete with ⟨dm, hfree, ⟨hnone, _⟩ | ⟨g, hg, ⟨hne, _⟩ | ⟨_, _, hs'⟩⟩⟩
  · rw [hl₁] at hnone
    cases hnone
  · rw [hl₁] at hg
    obtain rfl := Option.some.inj hg
    exact absurd hself₁ hne
  · rw [hl₁] at hg
    obtain rfl := Option.some.inj hg
    have hothers : ∀ g, g ≠ f → s'.pages g = s.pages g := by
      intro g hg
      simp only [hs', Function.update_of_ne hg, hothers₁ g hg]
    have hself : s'.pages f = { s₁.pages f with
        pageId := INVALID_PAGE_ID, pinCount := 0, isDirty := false } := by
      simp only [hs', Function.update_self]
    have htable : s'.pageTable = s.pageTable.erase p := by rw [hs', hs₁]
    have htab : TableInv s' := h.queues.table.erase hl htable (by rw [hself])
      fun g hg => by rw [hothers g hg]
    have hrep : s'.replacer = s.replacer.unpin f := by simp only [hs', hs₁, hpin, if_true]
    have hqueues : QueueInv s' := h.queues.dropped hl htab (by rw [hself]) (by rw [hself]) hothers
      (by rw [hs', hs₁]) hrep
    have hlookup : ∀ q, s'.pageTable.lookup q = if q = p then none else s.pageTable.lookup q := by
      intro q
      rw [htable]
      split
      · rename_i hqp
        rw [hqp, AList.lookup_erase]
      · rename_i hqp
        rw [AList.lookup_erase_ne hqp]
    -- What is resident afterwards was resident in another frame.
    have hresident : ∀ q g, s'.pageTable.lookup q = some g → q ≠ p ∧ g ≠ f ∧
        s.pageTable.lookup q = some g := by
      intro q g hq
      rw [hlookup] at hq
      split at hq
      · cases hq
      · rename_i hqp
        exact ⟨hqp, h.queues.table.frame_ne hl hq hqp, hq⟩
    refine ⟨⟨hqueues, hdisk', fun q g hq => ?_, fun g hg => ?_, fun g hg q hq => ?_⟩, hlookup,
      by rw [hself], fun q hqp => ?_, fun q hq => ?_, fun q hq hne => ?_⟩
    · exact h.resident q g (hresident q g hq).2.2
    · by_cases hgf : g = f
      · rw [hgf, hself]
      · rw [hothers g hgf] at hg ⊢
        exact h.clean g hg
    · rcases hresident q g hq with ⟨hqp, hgf, hq⟩
      have hstored : stored s'.diskManager q = stored s.diskManager q := by
        have hd : s'.diskManager = dm := by rw [hs']
        rw [hd, stored_deAllocatePage hdisk₁ hfree (h.resident q g hq), hfile₁]
      rw [hothers g hgf] at hg ⊢
      rw [hstored]
      exact h.spare g hg q hq
    · have hq := hlookup q
      rw [if_neg hqp] at hq
      cases hl' : s.pageTable.lookup q with
      | none =>
          rw [pins_of_none hl', pins_of_none (hq.trans hl')]
      | some g =>
          rw [pins_of_lookup hl', pins_of_lookup (hq.trans hl'),
            hothers g (h.queues.table.frame_ne hl hl' hqp)]
    · rw [hfreed q hq, hfile₁]
    · rw [hcontents q hq hne, h.queues.table.contents_touch hl _ (by rw [hs₁]) (by rw [hs₁]) hfile₁,
        if_neg hne]

end BufferPoolManager
end MiniSQL
