import MiniSQL.Buffer.Lasting

/-!
# Resting — a pool whose clients hold few frames

A call of the catalog takes at most two frames, each pinned once, and gives them back.  After a
deletion a frame can be on the free list and in the replacer at once, so a frame that is held may
be picked again as a victim; the lemma about `NewPage` asks that it is not.  Nothing is asked of
the frames in the replacer otherwise, which is what lets the invariant survive deletions.
-/

namespace MiniSQL
namespace BufferPoolManager

open Lib

variable {n : Nat} {s s' s₁ : BufferPoolManager n} {f g : Fin n} {p q x : PageId}
  {held : Finset (Fin n)} {G : PageData → Prop}

/-- The frames `held` are pinned once and no other is. -/
structure Holding (s : BufferPoolManager n) (held : Finset (Fin n)) : Prop where
  table : TableInv s
  disk : DiskManager.Inv s.diskManager
  used : ResidentUsed s
  clean : ∀ f, (s.pages f).pageId = INVALID_PAGE_ID → (s.pages f).isDirty = false
  pins : ∀ f, (s.pages f).pinCount = if f ∈ held then 1 else 0
  free : ∀ f ∈ s.freeList, (s.pages f).pageId = INVALID_PAGE_ID ∧ f ∉ held
  free_nodup : s.freeList.Nodup
  queued : ∀ f, f ∉ held → f ∈ s.freeList ∨ f ∈ s.replacer.frames

theorem init_holding (n : Nat) {dm : DiskManager} (hdm : DiskManager.Inv dm) :
    Holding (init n dm) ∅ := by
  have hpool := init_poolInv n hdm
  have hqueues := hpool.frames.queueInv
  refine ⟨hqueues.table, hdm, hpool.allocated, hpool.clean, fun f => ?_, fun f hf => ?_,
    hqueues.free_nodup, fun f _ => hqueues.idle f rfl⟩
  · rw [if_neg (Finset.notMem_empty f)]
    rfl
  · exact ⟨(hqueues.free f hf).1, Finset.notMem_empty f⟩

/-- While nobody holds a frame the queues are in order. -/
theorem Holding.queueInv (h : Holding s ∅) : QueueInv s := by
  have hzero : ∀ f, (s.pages f).pinCount = 0 := by
    intro f
    rw [h.pins f, if_neg (Finset.notMem_empty f)]
  exact ⟨h.table, fun f hf => ⟨(h.free f hf).1, hzero f⟩, h.free_nodup, fun f _ => hzero f,
    fun f _ => h.queued f (Finset.notMem_empty f)⟩

theorem Holding.dirty_nonneg (h : Holding s held) (hdirty : (s.pages f).isDirty = true) :
    0 ≤ (s.pages f).pageId.toInt := by
  have hvalid : (s.pages f).pageId ≠ INVALID_PAGE_ID := by
    intro hid
    rw [h.clean f hid] at hdirty
    cases hdirty
  exact (h.used _ f ((h.table _ f).mpr ⟨hvalid, rfl⟩)).1

/-! ## NewPage -/

/-- Picking a frame leaves the others where they were. -/
theorem pickFrame_others (hpick : s.pickFrame = some (f, s₁)) (hg : g ≠ f) :
    (g ∈ s₁.freeList ↔ g ∈ s.freeList) ∧
      (g ∈ s₁.replacer.frames ↔ g ∈ s.replacer.frames) := by
  rcases pickFrame_cases hpick with ⟨rest, hfree, rfl⟩ | ⟨_, r, hframes, rfl⟩
  · simp [hfree, hg]
  · simp [hframes, hg]

/-- The frame that is picked is not on the free list any more. -/
theorem Holding.picked (h : Holding s held) (hpick : s.pickFrame = some (f, s₁)) :
    f ∉ s₁.freeList ∧ s₁.freeList.Nodup := by
  have hnodup := h.free_nodup
  rcases pickFrame_cases hpick with ⟨rest, hfree, rfl⟩ | ⟨hfree, r, _, rfl⟩
  · rw [hfree, List.nodup_cons] at hnodup
    exact hnodup
  · simp [hfree]

/-- The page `q` was made, in frame `f`. -/
structure Obtained (s : BufferPoolManager n) (q : PageId) (f : Fin n) (s' : BufferPoolManager n) :
    Prop where
  valid : 0 ≤ q.toInt
  was_free : s.diskManager.isPageFree q = true
  now_used : s'.diskManager.isPageFree q = false
  free : ∀ x, 0 ≤ x.toInt → x ≠ q → s'.diskManager.isPageFree x = s.diskManager.isPageFree x
  lookup : s'.pageTable.lookup q = some f
  others : ∀ g, g ≠ f → s'.pages g = s.pages g
  lookup_other : ∀ x, x ≠ q → s.pageTable.lookup x ≠ some f → 0 ≤ x.toInt →
    s'.pageTable.lookup x = s.pageTable.lookup x
  lasting : ∀ x G, 0 ≤ x.toInt → x ≠ q → s.pageTable.lookup x ≠ some f → Lasting s x G →
    Lasting s' x G

theorem Holding.newPage (h : Holding s held) (hnew : s.newPage = .ok (some (q, f), s'))
    (hf : f ∉ held) : Holding s' (insert f held) ∧ Obtained s q f s' := by
  rcases newPage_inversion hnew with ⟨hnone, _⟩ |
    ⟨q', f', s₁, dm₁, dm₂, heq, hpick, halloc, hwrite, hs'⟩
  · cases hnone
  cases heq
  have hstep : Step s (.newPage (some (q, f))) s' := hnew
  have htakes := h.disk.takesLowest halloc
  have hvalid := htakes.valid.1
  -- A resident page is in use on disk, and the allocator gave out a free one.
  have hfresh : s.pageTable.lookup q = none := by
    cases hl : s.pageTable.lookup q with
    | none =>
        rfl
    | some g =>
        have hnot := (h.used q g hl).2
        rw [htakes.was_free] at hnot
        cases hnot
  have hzero : (s.pages f).pinCount = 0 := by rw [h.pins f, if_neg hf]
  have hpages : s'.pages = Function.update s.pages f
      { data := Buf.zero PAGE_SIZE, pageId := q, pinCount := 1, isDirty := false } := by
    rw [hs', hzero]
  have hself : s'.pages f =
      { data := Buf.zero PAGE_SIZE, pageId := q, pinCount := 1, isDirty := false } := by
    rw [hpages, Function.update_self]
  have hothers : ∀ g, g ≠ f → s'.pages g = s.pages g := by
    intro g hg
    rw [hpages, Function.update_of_ne hg]
  have htable : s'.pageTable = (s.pageTable.erase (s.pages f).pageId).insert q f := by rw [hs']
  have hfree : ∀ x, 0 ≤ x.toInt → x ≠ q →
      s'.diskManager.isPageFree x = s.diskManager.isPageFree x := by
    intro x hx hne
    rw [hs', writeBack_isPageFree hwrite hx, htakes.others x hx hne]
  have hused : s'.diskManager.isPageFree q = false := by
    rw [hs', writeBack_isPageFree hwrite hvalid, htakes.now_used]
  have hlookup : ∀ x, s'.pageTable.lookup x =
      if x = q then some f else if x = (s.pages f).pageId then none
        else s.pageTable.lookup x := fun x => lookup_load htable
  -- First the invariant with one more frame held, then what the caller obtained.
  refine ⟨⟨?_, hstep.diskInv h.disk, fun x g hl => ?_, fun g hg => ?_, fun g => ?_,
    fun g hg => ?_, ?_, fun g hg => ?_⟩, ⟨hvalid, htakes.was_free, hused, hfree, ?_, hothers,
      fun x hxq hne hx => ?_, fun x G hx hxq hne hlast => ?_⟩⟩
  · refine h.table.load (ne_INVALID_of_nonneg hvalid) (fun g hg => ?_) (fun g hg => ?_) ?_ htable
    · rw [hfresh] at hg
      cases hg
    · rw [hothers g hg]
    · rw [hself]
  · rw [hlookup] at hl
    split at hl
    · rename_i hxq
      rw [hxq]
      exact ⟨hvalid, hused⟩
    · rename_i hxq
      split at hl
      · cases hl
      · have hold := h.used x g hl
        exact ⟨hold.1, by rw [hfree x hold.1 hxq, hold.2]⟩
  · by_cases hgf : g = f
    · rw [hgf, hself]
    · rw [hothers g hgf] at hg ⊢
      exact h.clean g hg
  · by_cases hgf : g = f
    · rw [hgf, hself, if_pos (Finset.mem_insert_self f held)]
    · rw [hothers g hgf, h.pins g]
      simp [hgf]
  · have hrest : g ∈ s₁.freeList := by rw [hs'] at hg; exact hg
    have hgf : g ≠ f := fun heq => (h.picked hpick).1 (heq ▸ hrest)
    have hold := h.free g ((pickFrame_others hpick hgf).1.mp hrest)
    rw [hothers g hgf]
    exact ⟨hold.1, by simp [hgf, hold.2]⟩
  · rw [hs']
    exact (h.picked hpick).2
  · rw [Finset.mem_insert, not_or] at hg
    rcases pickFrame_others hpick hg.1 with ⟨hfrees, hevicts⟩
    rw [hs']
    exact (h.queued g hg.2).imp hfrees.mpr hevicts.mpr
  · rw [hlookup, if_pos rfl]
  · rw [hlookup, if_neg hxq, if_neg]
    intro hid
    exact hne ((h.table.lookup_iff hx).mpr hid.symm)
  · exact hlast.newPage_other h.table h.disk hx hxq hne hnew

theorem Obtained.ne_of_used (h : Obtained s q f s') (hx : s.diskManager.isPageFree x = false) :
    x ≠ q := by
  rintro rfl
  rw [h.was_free] at hx
  cases hx

/-- Pages in use stay in use. -/
theorem Obtained.stays_used (h : Obtained s q f s') (hx : 0 ≤ x.toInt)
    (hused : s.diskManager.isPageFree x = false) : s'.diskManager.isPageFree x = false := by
  rw [h.free x hx (h.ne_of_used hused)]
  exact hused

/-- The last free frame is not the next victim as well. -/
def Apart (s : BufferPoolManager n) : Prop :=
  ∀ f, s.freeList = [f] → s.replacer.frames.head? ≠ some f

theorem init_apart (n : Nat) (dm : DiskManager) : Apart (init n dm) :=
  fun _ _ hhead => by cases hhead

theorem Apart.of_free {rest : List (Fin n)} (hfree : s.freeList = f :: g :: rest) : Apart s := by
  intro f' hsingle
  rw [hfree] at hsingle
  cases hsingle

/-- Two calls in a row take two frames then. -/
theorem Holding.newPage_twice {q' : PageId} {s'' : BufferPoolManager n} (h : Holding s held)
    (hapart : Apart s) (hnew : s.newPage = .ok (some (q, f), s'))
    (hnew' : s'.newPage = .ok (some (q', g), s'')) : g ≠ f := by
  rcases newPage_inversion hnew with ⟨hnone, _⟩ | ⟨_, _, s₁, _, _, heq, hpick, _, _, hs'⟩
  · cases hnone
  cases heq
  rcases newPage_inversion hnew' with ⟨hnone, _⟩ | ⟨_, _, s₂, _, _, heq, hpick', _, _, _⟩
  · cases hnone
  cases heq
  have hlist : s'.freeList = s₁.freeList := by rw [hs']
  have hrep : s'.replacer = s₁.replacer := by rw [hs']
  have hpicked := (h.picked hpick).1
  rintro rfl
  -- The second pick came from the free list or from the queue.
  rcases pickFrame_cases hpick' with ⟨rest, hfree, _⟩ | ⟨hfree, r, hframes, _⟩
  · rw [← hlist, hfree] at hpicked
    exact hpicked List.mem_cons_self
  · rw [hlist] at hfree
    rw [hrep] at hframes
    rcases pickFrame_cases hpick with ⟨rest, hfree', hs₁⟩ | ⟨_, r', hframes', hs₁⟩
    · have hrest : rest = [] := by
        rw [hs₁] at hfree
        exact hfree
      rw [hs₁] at hframes
      refine hapart g (by rw [hfree', hrest]) ?_
      rw [hframes]
      rfl
    · -- A victim leaves the replacer.
      have hnodup := s.replacer.nodup_frames
      rw [hs₁] at hframes
      rw [hframes', hframes, List.nodup_cons] at hnodup
      exact hnodup.1 List.mem_cons_self

/-! ## Writing and giving back -/

/-- Bytes stored in a frame. -/
theorem Holding.write (h : Holding s held) (f : Fin n) (data : PageData) :
    Holding (s.write f data) held := by
  refine ⟨fun x g => ?_, h.disk, h.used, fun g hg => ?_, fun g => ?_, fun g hg => ?_, h.free_nodup,
    h.queued⟩
  · rw [write_pageId]
    exact h.table x g
  · rw [write_pageId] at hg
    rw [write_isDirty]
    exact h.clean g hg
  · rw [write_pinCount]
    exact h.pins g
  · rw [write_pageId]
    exact h.free g hg

/-- A frame that is held is given back. -/
theorem Holding.unpinPage (h : Holding s held) (hl : s.pageTable.lookup p = some f)
    (hf : f ∈ held) (isDirty : Bool) :
    Holding (s.unpinPage p isDirty).2 (held.erase f) := by
  rcases hu : s.unpinPage p isDirty with ⟨done, s'⟩
  rcases unpinPage_inversion hu with ⟨hnone, _⟩ | ⟨f', hl', hs'⟩
  · rw [hl] at hnone
    cases hnone
  rw [hl] at hl'
  obtain rfl := Option.some.inj hl'
  have hone : (s.pages f).pinCount = 1 := by rw [h.pins f, if_pos hf]
  have hpages : s'.pages = Function.update s.pages f
      { s.pages f with isDirty := (s.pages f).isDirty || isDirty, pinCount := 0 } := by
    rw [hs', hone]
  have hid : ∀ g, (s'.pages g).pageId = (s.pages g).pageId := by
    intro g
    rw [hpages]
    exact field_update Page.pageId (by rfl) g
  have hothers : ∀ g, g ≠ f → s'.pages g = s.pages g := by
    intro g hg
    rw [hpages, Function.update_of_ne hg]
  have htable : s'.pageTable = s.pageTable := by rw [hs']
  have hdisk : s'.diskManager = s.diskManager := by rw [hs']
  have hlist : s'.freeList = s.freeList := by rw [hs']
  have hevict : ∀ g, g ∈ s'.replacer.frames ↔ g ∈ s.replacer.frames ∨ g = f := by
    intro g
    have hframes : s'.replacer.frames = (s.replacer.unpin f).frames := by rw [hs', if_pos hone]
    rw [hframes, LRUReplacer.frames_unpin]
    split
    · rename_i hmem
      exact ⟨Or.inl, fun hg => hg.elim id fun heq => heq ▸ hmem⟩
    · simp
  refine ⟨fun x g => ?_, ?_, fun x g hx => ?_, fun g hg => ?_, fun g => ?_, fun g hg => ?_, ?_,
    fun g hg => ?_⟩
  · rw [htable, hid g]
    exact h.table x g
  · rw [hdisk]
    exact h.disk
  · rw [htable] at hx
    rw [hdisk]
    exact h.used x g hx
  · by_cases hgf : g = f
    · -- The frame holds the page, so its id is not the invalid one.
      rw [hid, hgf, ((h.table p f).mp hl).2] at hg
      exact absurd hg ((h.table p f).mp hl).1
    · rw [hothers g hgf] at hg ⊢
      exact h.clean g hg
  · by_cases hgf : g = f
    · rw [hgf, hpages, Function.update_self, if_neg (Finset.notMem_erase f held)]
    · rw [hothers g hgf, h.pins g]
      simp [hgf]
  · rw [hlist] at hg
    rw [hid g]
    exact ⟨(h.free g hg).1, fun hmem => (h.free g hg).2 (Finset.mem_of_mem_erase hmem)⟩
  · rw [hlist]
    exact h.free_nodup
  · rw [hlist, hevict]
    by_cases hgf : g = f
    · exact Or.inr (Or.inr hgf)
    · have hnot : g ∉ held := fun hmem => hg (Finset.mem_erase.mpr ⟨hgf, hmem⟩)
      exact (h.queued g hnot).imp_right Or.inl

/-- The frame of a page given back as changed is marked. -/
theorem unpinPage_isDirty (hl : s.pageTable.lookup p = some f) :
    ((s.unpinPage p true).2.pages f).isDirty = true := by
  rcases hu : s.unpinPage p true with ⟨done, s'⟩
  rcases unpinPage_inversion hu with ⟨hnone, _⟩ | ⟨f', hl', hs'⟩
  · rw [hl] at hnone
    cases hnone
  · rw [hl] at hl'
    obtain rfl := Option.some.inj hl'
    simp only [hs', Function.update_self, Bool.or_true]

/-! ## DeletePage -/

theorem Holding.deletePage {r : Bool} (h : Holding s ∅) (hp : 0 ≤ p.toInt)
    (hok : s.deletePage p = .ok (r, s')) :
    Holding s' ∅ ∧
      (∀ x, 0 ≤ x.toInt → x ≠ p → s'.diskManager.isPageFree x = s.diskManager.isPageFree x) ∧
      ∀ x G, 0 ≤ x.toInt → x ≠ p → Lasting s x G → Lasting s' x G := by
  have hzero : ∀ f, (s.pages f).pinCount = 0 := by
    intro f
    rw [h.pins f, if_neg (Finset.notMem_empty f)]
  rcases deletePage_inversion hok with ⟨dm, hdealloc, hcases⟩
  have hdisk := DiskManager.deAllocatePage_inv hdealloc h.disk
  have hstored : ∀ x, 0 ≤ x.toInt → stored dm x = stored s.diskManager x := fun x hx =>
    stored_deAllocatePage h.disk hdealloc hx
  have hfree : ∀ x, 0 ≤ x.toInt → x ≠ p → dm.isPageFree x = s.diskManager.isPageFree x := by
    rcases h.disk.freesOnly hp with ⟨dm', hdealloc', hfrees⟩
    rw [hdealloc] at hdealloc'
    obtain rfl := Except.ok.inj hdealloc'
    exact hfrees.others
  -- Not resident, still pinned (impossible at rest), or the frame goes to the free list.
  rcases hcases with ⟨hnone, _, rfl⟩ | ⟨f, hl, ⟨hpin, _, _⟩ | ⟨_, _, hs'⟩⟩
  · refine ⟨⟨h.table, hdisk, fun x g hx => ?_, h.clean, h.pins, h.free, h.free_nodup, h.queued⟩,
      hfree, fun x G hx _ hlast => ?_⟩
    · have hold := h.used x g hx
      have hxp : x ≠ p := by
        rintro rfl
        rw [hnone] at hx
        cases hx
      exact ⟨hold.1, by rw [hfree x hold.1 hxp, hold.2]⟩
    · exact hlast.congr rfl (fun _ _ => rfl) (hstored x hx)
  · exact absurd (hzero f) hpin
  · have hpages : s'.pages = Function.update s.pages f
        { s.pages f with pageId := INVALID_PAGE_ID, pinCount := 0, isDirty := false } := by rw [hs']
    have htable : s'.pageTable = s.pageTable.erase p := by rw [hs']
    have hfile : s'.diskManager = dm := by rw [hs']
    have hlist : s'.freeList = s.freeList ++ [f] := by rw [hs']
    have hrep : s'.replacer = s.replacer := by rw [hs']
    have hothers : ∀ g, g ≠ f → s'.pages g = s.pages g := by
      intro g hg
      rw [hpages, Function.update_of_ne hg]
    have hlookup : ∀ x, x ≠ p → s'.pageTable.lookup x = s.pageTable.lookup x := by
      intro x hxp
      rw [htable, AList.lookup_erase_ne hxp]
    have hnot := h.queueInv.resident_not_free hl
    refine ⟨⟨?_, ?_, fun x g hx => ?_, fun g hg => ?_, fun g => ?_, fun g hg => ?_, ?_,
      fun g hg => ?_⟩, ?_, fun x G hx hxp hlast => ?_⟩
    · refine h.table.erase hl htable ?_ fun g hg => by rw [hothers g hg]
      rw [hpages, Function.update_self]
    · rw [hfile]
      exact hdisk
    · have hxp : x ≠ p := by
        rintro rfl
        rw [htable, AList.lookup_erase] at hx
        cases hx
      rw [hlookup x hxp] at hx
      have hold := h.used x g hx
      rw [hfile]
      exact ⟨hold.1, by rw [hfree x hold.1 hxp, hold.2]⟩
    · by_cases hgf : g = f
      · rw [hgf, hpages, Function.update_self]
      · rw [hothers g hgf] at hg ⊢
        exact h.clean g hg
    · by_cases hgf : g = f
      · rw [hgf, hpages, Function.update_self, if_neg (Finset.notMem_empty f)]
      · rw [hothers g hgf]
        exact h.pins g
    · rw [hlist, List.mem_append, List.mem_singleton] at hg
      by_cases hgf : g = f
      · rw [hgf, hpages, Function.update_self]
        exact ⟨rfl, Finset.notMem_empty f⟩
      · rw [hothers g hgf]
        exact h.free g (hg.resolve_right hgf)
    · rw [hlist, List.nodup_append]
      refine ⟨h.free_nodup, List.nodup_singleton f, fun a ha b hb heq => ?_⟩
      rw [List.mem_singleton] at hb
      exact hnot (hb ▸ heq ▸ ha)
    · rw [hlist, hrep, List.mem_append]
      exact (h.queued g hg).imp_left Or.inl
    · rw [hfile]
      exact hfree
    · refine hlast.congr (hlookup x hxp) (fun g hg => hothers g ?_) ?_
      · exact h.table.frame_ne hl hg hxp
      · rw [hfile]
        exact hstored x hx

/-! ## Closing -/

theorem flushPage_pageTable {r : Bool} (hok : s.flushPage p = .ok (r, s')) :
    s'.pageTable = s.pageTable := by
  rcases flushPage_inversion hok with ⟨_, rfl⟩ | ⟨f, dm, _, _, rfl⟩
  · rfl
  · rfl

/-- A flush writes what the page shows. -/
theorem Lasting.flushPage {r : Bool} (h : Lasting s x G) (htab : TableInv s) (hx : 0 ≤ x.toInt)
    (hok : s.flushPage p = .ok (r, s')) : Lasting s' x G := by
  rcases flushPage_inversion hok with ⟨_, rfl⟩ | ⟨f, dm, hl, hwrite, hs'⟩
  · exact h
  · have htable : s'.pageTable = s.pageTable := by rw [hs']
    have hdisk : s'.diskManager = dm := by rw [hs']
    have hstored := (stored_writePage hwrite hx).2
    by_cases hxp : x = p
    · subst hxp
      have hshown := h.shown
      rw [contents_of_lookup hl] at hshown
      rw [if_pos rfl] at hstored
      refine ⟨?_, fun _ _ _ _ => ?_⟩
      · rw [contents_of_lookup (f := f) (by rw [htable, hl]), hs']
        simpa using hshown
      · rw [hdisk, hstored]
        exact hshown
    · rw [if_neg hxp] at hstored
      refine h.congr (by rw [htable]) (fun g hg => ?_) (by rw [hdisk, hstored])
      rw [hs']
      exact Function.update_of_ne (htab.frame_ne hl hg hxp) _ _

/-- What every page shows is on disk when the pool is gone. -/
theorem destroy_contents {order : List PageId}
    (hres : ∀ p f, s.pageTable.lookup p = some f → 0 ≤ p.toInt)
    (horder : order.Perm s.pageTable.keys) :
    ∃ s', s.destroy order = .ok s' ∧
      ∀ x, 0 ≤ x.toInt → stored s'.diskManager x = s.contents x := by
  rcases destroy_stores hres horder with ⟨s', hok, hresident, hothers⟩
  refine ⟨s', hok, fun x hx => ?_⟩
  cases hl : s.pageTable.lookup x with
  | none =>
      rw [contents_of_none hl, hothers x hx hl]
  | some f =>
      rw [contents_of_lookup hl, hresident x f hl]

/-! ## Opening -/

/-- A pool that only fetched pages of the disk, with `k` frames that were never used. -/
structure Opening (s : BufferPoolManager n) (dm : DiskManager) (k : Nat) : Prop where
  queues : QueueInv s
  clean : ∀ f, (s.pages f).isDirty = false
  disk : s.diskManager = dm
  shown : ∀ x, 0 ≤ x.toInt → s.contents x = stored dm x
  free : k ≤ s.freeList.length

theorem init_opening (n : Nat) (dm : DiskManager) : Opening (init n dm) dm n where
  queues := (init_frameInv n dm).queueInv
  clean := fun _ => rfl
  disk := rfl
  shown := fun _ _ => contents_of_none rfl
  free := by simp [init]

/-- The next page is fetched with what is on disk. -/
theorem Opening.fetchPage {dm : DiskManager} {k : Nat} (h : Opening s dm (k + 1))
    (hp : 0 ≤ p.toInt) :
    ∃ f s', s.fetchPage p = .ok (some f, s') ∧ (s'.pages f).data = stored dm p ∧
      Opening s' dm k := by
  obtain ⟨g, rest, hlist⟩ : ∃ g rest, s.freeList = g :: rest := by
    have hlen := h.free
    cases hlist : s.freeList with
    | nil =>
        rw [hlist] at hlen
        cases hlen
    | cons g rest =>
        exact ⟨g, rest, rfl⟩
  have hpin : (s.pages g).pinCount = 0 := (h.queues.free g (by simp [hlist])).2
  have hdirty : ∀ g, (s.pages g).isDirty = true → 0 ≤ (s.pages g).pageId.toInt := by
    intro g hg
    rw [h.clean g] at hg
    cases hg
  rcases h.queues.fetchPage_ok hdirty hpin hp with ⟨f, s', hok⟩
  have hloaded := h.queues.loaded hok
  have hlasts : ∀ x, 0 ≤ x.toInt → Lasting s' x (· = stored dm x) := by
    intro x hx
    have hlast : Lasting s x (· = stored dm x) := ⟨h.shown x hx, fun _ _ _ _ => by rw [h.disk]⟩
    exact hlast.fetchPage h.queues hx hok
  have hlen := h.free
  have hrest : (s'.pages f).isDirty = false ∧ s'.diskManager = dm ∧ k ≤ s'.freeList.length := by
    rcases fetchPage_inversion hok with ⟨hnone, _⟩ | ⟨f', hf', _, hs'⟩ |
      ⟨f', s₁, dm', hf', _, hpick, hwrite, _, hs'⟩
    · cases hnone
    · obtain rfl := Option.some.inj hf'
      have hpages : s'.pages = Function.update s.pages f
          { s.pages f with pinCount := (s.pages f).pinCount + 1 } := by rw [hs']
      have hfree : s'.freeList = s.freeList := by rw [hs']
      have hfile : s'.diskManager = s.diskManager := by rw [hs']
      refine ⟨?_, hfile.trans h.disk, ?_⟩
      · rw [hpages, Function.update_self]
        exact h.clean f
      · rw [hfree]
        omega
    · obtain rfl := Option.some.inj hf'
      have hpages : s'.pages f = { data := dm'.file (DiskManager.mapPageId p), pageId := p
                                   pinCount := (s.pages f).pinCount + 1, isDirty := false } := by
        rw [hs']
        exact Function.update_self ..
      have hfree : s'.freeList = s₁.freeList := by rw [hs']
      have hfile : s'.diskManager = dm' := by rw [hs']
      -- The frame is clean, so nothing is written.
      unfold writeBack at hwrite
      rw [h.clean f, if_neg Bool.false_ne_true] at hwrite
      refine ⟨by rw [hpages], ?_, ?_⟩
      · rw [hfile, ← Except.ok.inj hwrite, h.disk]
      · rcases pickFrame_cases hpick with ⟨rest', hrest', rfl⟩ | ⟨hempty, _⟩
        · rw [hrest', List.length_cons] at hlen
          rw [hfree]
          exact Nat.le_of_succ_le_succ hlen
        · rw [hempty] at hlen
          cases hlen
  refine ⟨f, s', hok, ?_, hloaded.queues, fun g' => ?_, hrest.2.1,
    fun x hx => (hlasts x hx).shown, hrest.2.2⟩
  · rw [hloaded.data, h.shown p hp]
  · by_cases hgf : g' = f
    · rw [hgf]
      exact hrest.1
    · rw [hloaded.others g' hgf]
      exact h.clean g'

end BufferPoolManager
end MiniSQL
