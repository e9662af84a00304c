import MiniSQL.Buffer.Contents

/-!
# Evictions — when a page keeps its bytes while frames change hands

A frame that `FetchPage` or `NewPage` takes may have held another page.  That page keeps its
contents when the frame held no page, or when what ends up on disk are the bytes of the frame.
`FetchPage` writes a dirty frame back; `NewPage` writes zeros for it, so there the frame has to be
clean.
-/

namespace MiniSQL

open Lib

namespace DiskManager

variable {dm dm' dm₁ : DiskManager} {p q : PageId}

/-! ## Allocators that agree -/

/-- The two managers hand out the same pages: their meta pages and bitmaps are the same. -/
structure SameAllocator (dm dm' : DiskManager) : Prop where
  metaData : dm'.metaData = dm.metaData
  bitmaps : ∀ k, k < EXTENT_BOUND →
    dm'.readPhysicalPage (bitmapAddr k) = dm.readPhysicalPage (bitmapAddr k)

theorem SameAllocator.refl (dm : DiskManager) : SameAllocator dm dm :=
  ⟨rfl, fun _ _ => rfl⟩

theorem SameAllocator.symm (h : SameAllocator dm dm') : SameAllocator dm' dm :=
  ⟨h.metaData.symm, fun k hk => (h.bitmaps k hk).symm⟩

theorem SameAllocator.trans (h : SameAllocator dm dm₁) (h' : SameAllocator dm₁ dm') :
    SameAllocator dm dm' :=
  ⟨h'.metaData.trans h.metaData, fun k hk => (h'.bitmaps k hk).trans (h.bitmaps k hk)⟩

theorem SameAllocator.isPageFree_eq (h : SameAllocator dm dm') (hp : 0 ≤ p.toInt) :
    dm'.isPageFree p = dm.isPageFree p := by
  have hk := extentIndex_lt hp
  have hmod : sizeT p / BITMAP_SIZE % 2 ^ 32 = sizeT p / BITMAP_SIZE :=
    Nat.mod_eq_of_lt (lt_trans hk (by decide))
  simp only [isPageFree, hmod, h.bitmaps _ hk]

/-- A write to a logical page is no business of the allocator. -/
theorem writePage_sameAllocator {data : PageData} (h : dm.writePage p data = .ok dm') :
    SameAllocator dm dm' := by
  rcases bind_eq_ok.mp h with ⟨_, hp, h⟩
  simp only [assert_eq_ok, decide_eq_true_eq] at hp
  rw [← Except.ok.inj h]
  refine ⟨rfl, fun k hk => ?_⟩
  exact Function.update_of_ne (mapPageId_ne_bitmapAddr hp hk).symm _ _

/-- A bitmap page is written on both sides. -/
theorem SameAllocator.write (h : SameAllocator dm dm') (addr : PageId) (m data : PageData) :
    SameAllocator ({ dm with metaData := m }.writePhysicalPage addr data)
      ({ dm' with metaData := m }.writePhysicalPage addr data) := by
  refine ⟨rfl, fun k hk => ?_⟩
  simp only [readPhysicalPage, writePhysicalPage]
  by_cases heq : bitmapAddr k = addr
  · rw [heq, Function.update_self, Function.update_self]
  · rw [Function.update_of_ne heq, Function.update_of_ne heq]
    exact h.bitmaps k hk

theorem SameAllocator.allocatePage (h : SameAllocator dm dm')
    (hok : dm.allocatePage = .ok (q, dm₁)) :
    ∃ dm₁', dm'.allocatePage = .ok (q, dm₁') ∧ SameAllocator dm₁ dm₁' := by
  unfold DiskManager.allocatePage at hok ⊢
  rw [h.metaData]
  simp only at hok ⊢
  split at hok
  · rename_i hroom
    have hk : findExtent dm.metaData.mem (DiskFileMetaPage.numExtents dm.metaData.mem) 0 <
        EXTENT_BOUND := by
      simp only [PAGE_SIZE] at hroom
      simp only [EXTENT_BOUND]
      omega
    rw [if_pos hroom]
    split at hok
    · rename_i hopen
      simp only [Except.ok.injEq, Prod.mk.injEq] at hok
      rcases hok with ⟨rfl, rfl⟩
      rw [if_pos hopen, h.bitmaps _ hk]
      exact ⟨_, rfl, h.write _ _ _⟩
    · rename_i hopen
      simp only [Except.ok.injEq, Prod.mk.injEq] at hok
      rcases hok with ⟨rfl, rfl⟩
      rw [if_neg hopen]
      exact ⟨_, rfl, h.write _ _ _⟩
  · cases hok

end DiskManager

namespace BufferPoolManager

variable {n : Nat} {s s' s₁ : BufferPoolManager n} {f g : Fin n} {p q : PageId}

theorem writeBack_sameAllocator {page : Page} {data : PageData} {dm dm' : DiskManager}
    (h : writeBack page data dm = .ok dm') : DiskManager.SameAllocator dm dm' := by
  unfold writeBack at h
  split at h
  · exact DiskManager.writePage_sameAllocator h
  · rw [← Except.ok.inj h]
    exact DiskManager.SameAllocator.refl dm

/-! ## Frames that can be taken -/

/-- Taking the frame loses nothing, if it is written back when it is dirty. -/
def Spare (s : BufferPoolManager n) (f : Fin n) : Prop :=
  ∀ q, s.pageTable.lookup q = some f →
    (s.pages f).isDirty = true ∨ (s.pages f).data = stored s.diskManager q

/-- Every clean frame holds the bytes that are on disk. -/
def Synced (s : BufferPoolManager n) : Prop :=
  ∀ f, Spare s f

/-- No page is pinned. -/
def Idle (s : BufferPoolManager n) : Prop :=
  ∀ f, (s.pages f).pinCount = 0

theorem FrameInv.spare_of_free (h : FrameInv s) (hf : f ∈ s.freeList) : Spare s f :=
  fun q hq => absurd hq (h.free_not_resident hf q)

/-- The frame of a page is taken for page `p` and the disk has the bytes of the frame: only page `p`
sees other bytes. -/
theorem TableInv.contents_load (htab : TableInv s) (page : Page)
    (hpages : s'.pages = Function.update s.pages f page)
    (htable : s'.pageTable = (s.pageTable.erase (s.pages f).pageId).insert p f)
    (hheld : ∀ q, 0 ≤ q.toInt → s.pageTable.lookup q = some f →
      stored s'.diskManager q = (s.pages f).data)
    (hothers : ∀ q, 0 ≤ q.toInt → s.pageTable.lookup q ≠ some f →
      stored s'.diskManager q = stored s.diskManager q)
    (hq : 0 ≤ q.toInt) : s'.contents q = if q = p then page.data else s.contents q := by
  have hl := lookup_load htable (q := q)
  by_cases hqp : q = p
  · rw [if_pos hqp] at hl ⊢
    rw [contents_of_lookup hl, hpages, Function.update_self]
  · rw [if_neg hqp] at hl ⊢
    by_cases hold : q = (s.pages f).pageId
    · -- The page that was in the frame is on disk now.
      rw [if_pos hold] at hl
      have hs : s.pageTable.lookup q = some f := (htab.lookup_iff hq).mpr hold.symm
      rw [contents_of_none hl, contents_of_lookup hs, hheld q hq hs]
    · rw [if_neg hold] at hl
      have hne : s.pageTable.lookup q ≠ some f :=
        fun hs => hold ((htab q f).mp hs).2.symm
      cases hs : s.pageTable.lookup q with
      | none =>
          rw [hs] at hl
          rw [contents_of_none hl, contents_of_none hs, hothers q hq hne]
      | some g =>
          rw [hs] at hl hne
          have hgf : g ≠ f := fun heq => hne (by rw [heq])
          rw [contents_of_lookup hl, contents_of_lookup hs, hpages, Function.update_of_ne hgf]

/-- What is on disk after a frame was written back that could be spared. -/
theorem TableInv.stored_spare (htab : TableInv s) (hspare : Spare s f) {dm : DiskManager}
    (hwrite : writeBack (s.pages f) (s.pages f).data s.diskManager = .ok dm) :
    (∀ q, 0 ≤ q.toInt → s.pageTable.lookup q = some f → stored dm q = (s.pages f).data) ∧
      ∀ q, 0 ≤ q.toInt → s.pageTable.lookup q ≠ some f →
        stored dm q = stored s.diskManager q := by
  refine ⟨fun q hq hs => ?_, fun q hq hne => htab.writeBack_others hwrite hq hne⟩
  rw [stored_writeBack hwrite hq, ((htab q f).mp hs).2]
  rcases hspare q hs with hdirty | hsame
  · rw [if_pos ⟨hdirty, rfl⟩]
  · split
    · rfl
    · exact hsame.symm

/-- The other frames stay as they were when frame `f` is taken for page `p`. -/
theorem spare_load (page : Page) (hpages : s'.pages = Function.update s.pages f page)
    (htable : s'.pageTable = (s.pageTable.erase (s.pages f).pageId).insert p f)
    (hresident : ∀ q g, s.pageTable.lookup q = some g → 0 ≤ q.toInt)
    (hothers : ∀ q, 0 ≤ q.toInt → s.pageTable.lookup q ≠ some f →
      stored s'.diskManager q = stored s.diskManager q)
    (hgf : g ≠ f) (hspare : Spare s g) : Spare s' g := by
  intro q hq
  rw [lookup_load htable] at hq
  split at hq
  · exact absurd (Option.some.inj hq).symm hgf
  · split at hq
    · cases hq
    · have hne : s.pageTable.lookup q ≠ some f := by
        rw [hq]
        exact fun heq => hgf (Option.some.inj heq)
      rw [hpages, Function.update_of_ne hgf, hothers q (hresident q g hq) hne]
      exact hspare q hq

/-! ## Visits -/

/-- `FetchPage`, and `UnpinPage` without a change. -/
def visit (s : BufferPoolManager n) (p : PageId) :
    Result (Option (Fin n) × BufferPoolManager n) := do
  let (reply, s₁) ← s.fetchPage p
  .ok (reply, (s₁.unpinPage p false).2)

/-- The pool after page `p` was read into frame `f`. -/
def loaded (s : BufferPoolManager n) (p : PageId) (f : Fin n) (dm : DiskManager)
    (freeList : List (Fin n)) (replacer : LRUReplacer (Fin n)) : BufferPoolManager n :=
  { pages := Function.update s.pages f
      { data := stored dm p, pageId := p, pinCount := 0, isDirty := false }
    pageTable := (s.pageTable.erase (s.pages f).pageId).insert p f
    replacer := replacer
    freeList := freeList
    diskManager := dm }

section loaded

variable (s : BufferPoolManager n) (p : PageId) (f : Fin n) (dm : DiskManager)
variable (free : List (Fin n)) (r : LRUReplacer (Fin n))

theorem loaded_self : (s.loaded p f dm free r).pages f =
    { data := stored dm p, pageId := p, pinCount := 0, isDirty := false } :=
  Function.update_self ..

theorem loaded_ne (hg : g ≠ f) : (s.loaded p f dm free r).pages g = s.pages g :=
  Function.update_of_ne hg _ _

theorem lookup_loaded (q : PageId) : (s.loaded p f dm free r).pageTable.lookup q =
    if q = p then some f else if q = (s.pages f).pageId then none else s.pageTable.lookup q :=
  lookup_load rfl

end loaded

theorem visit_inversion (hframes : FrameInv s) (h : s.visit p = .ok (some f, s')) :
    (s.pageTable.lookup p = some f ∧ ∃ r, s' = { s with replacer := r } ∧
        ((s.pages f).pinCount = 0 → r.frames = s.replacer.frames.erase f ++ [f])) ∨
      (s.pageTable.lookup p = none ∧ ∃ s₀ dm r, s.pickFrame = some (f, s₀) ∧
        writeBack (s.pages f) (s.pages f).data s.diskManager = .ok dm ∧ 0 ≤ p.toInt ∧
        s' = s.loaded p f dm s₀.freeList r) := by
  rcases bind_eq_ok.mp h with ⟨⟨reply, s₁⟩, hfetch, h⟩
  simp only [Except.ok.injEq, Prod.mk.injEq] at h
  rcases h with ⟨rfl, rfl⟩
  rcases fetchPage_inversion hfetch with ⟨hnone, _⟩ | ⟨g, hg, hl, rfl⟩ |
    ⟨g, s₀, dm, hg, hl, hpick, hwrite, hp, rfl⟩
  · cases hnone
  · -- The pin of `FetchPage` is given back, and the frame moves to the end of the queue.
    obtain rfl := Option.some.inj hg
    left
    set s₁ : BufferPoolManager n := { s with
      pages := Function.update s.pages f { s.pages f with pinCount := (s.pages f).pinCount + 1 }
      replacer := s.replacer.pin f } with hs₁
    have hl₁ : s₁.pageTable.lookup p = some f := hl
    rcases unpinPage_of_lookup hl₁ false with ⟨done, heq⟩
    refine ⟨hl, if (s₁.pages f).pinCount = 1 then s₁.replacer.unpin f else s₁.replacer, ?_,
      fun hpin => ?_⟩
    · rw [heq]
      simp [hs₁, Function.update_idem, Function.update_eq_self]
    · have hnot : f ∉ s.replacer.frames.erase f := s.replacer.nodup_frames.not_mem_erase
      simp [hs₁, hpin, LRUReplacer.frames_unpin, LRUReplacer.frames_pin, hnot]
  · obtain rfl := Option.some.inj hg
    right
    set s₁ : BufferPoolManager n :=
      { pages := Function.update s.pages f
          { data := dm.file (DiskManager.mapPageId p), pageId := p
            pinCount := (s.pages f).pinCount + 1, isDirty := false }
        pageTable := (s.pageTable.erase (s.pages f).pageId).insert p f
        replacer := s₀.replacer.pin f
        freeList := s₀.freeList
        diskManager := dm } with hs₁
    have hl₁ : s₁.pageTable.lookup p = some f := AList.lookup_insert _
    rcases unpinPage_of_lookup hl₁ false with ⟨done, heq⟩
    refine ⟨hl, s₀, dm, if (s₁.pages f).pinCount = 1 then s₁.replacer.unpin f else s₁.replacer,
      hpick, hwrite, hp, ?_⟩
    rw [heq]
    simp [hs₁, loaded, Function.update_idem, hframes.pickFrame_unpinned hpick, stored]

/-- A visit to a resident page moves its frame to the end of the queue. -/
theorem visit_resident (hframes : FrameInv s) (hl : s.pageTable.lookup p = some f) :
    ∃ r, s.visit p = .ok (some f, { s with replacer := r }) ∧
      ((s.pages f).pinCount = 0 → r.frames = s.replacer.frames.erase f ++ [f]) := by
  have hvisit : ∃ s', s.visit p = .ok (some f, s') := by
    simp only [visit, fetchPage, hl, ok_bind]
    exact ⟨_, rfl⟩
  rcases hvisit with ⟨s', hvisit⟩
  rcases visit_inversion hframes hvisit with ⟨_, r, rfl, hr⟩ | ⟨hnone, _⟩
  · exact ⟨r, hvisit, hr⟩
  · rw [hl] at hnone
    cases hnone

/-- A page was visited, and no page lost its bytes. -/
structure Kept (s : BufferPoolManager n) (p : PageId) (f : Fin n) (s' : BufferPoolManager n) :
    Prop where
  pool : PoolInv s'
  lookup : s'.pageTable.lookup p = some f
  idle : Idle s → Idle s'
  allocator : DiskManager.SameAllocator s.diskManager s'.diskManager
  contents : ∀ q, 0 ≤ q.toInt → s'.contents q = s.contents q
  synced : Synced s → Synced s'

theorem PoolInv.visit_inOrder (h : PoolInv s) (hvisit : s.visit p = .ok (some f, s')) :
    FrameInv s' ∧ DiskManager.Inv s'.diskManager := by
  rcases bind_eq_ok.mp hvisit with ⟨⟨reply, s₁⟩, hfetch, hvisit⟩
  simp only [Except.ok.injEq, Prod.mk.injEq] at hvisit
  rcases hvisit with ⟨rfl, rfl⟩
  have hf := h.frames.fetched h.disk hfetch
  have hu := hf.frames.unpinned p false
  refine ⟨hu.frames, ?_⟩
  rw [hu.disk]
  exact hf.disk

theorem PoolInv.kept (h : PoolInv s) (hvisit : s.visit p = .ok (some f, s')) (hp : 0 ≤ p.toInt)
    (hused : s.diskManager.isPageFree p = false)
    (hspare : s.pageTable.lookup p = none → Spare s f) : Kept s p f s' := by
  rcases h.visit_inOrder hvisit with ⟨hframes, hdisk⟩
  rcases visit_inversion h.frames hvisit with ⟨hl, r, rfl, _⟩ |
    ⟨hl, s₀, dm, r, hpick, hwrite, _, rfl⟩
  · -- The page was resident: nothing but the replacer changes.
    exact ⟨⟨hframes, h.disk, h.allocated, h.clean⟩, hl, id, DiskManager.SameAllocator.refl _,
      fun _ _ => rfl, id⟩
  · -- It is read into frame `f`, whose page can be spared.
    rcases h.frames.tableInv.stored_spare (hspare hl) hwrite with ⟨hheld, hothers⟩
    have hsame := writeBack_sameAllocator hwrite
    have hlp : (s.loaded p f dm s₀.freeList r).pageTable.lookup p = some f := by
      rw [lookup_loaded, if_pos rfl]
    refine ⟨⟨hframes, hdisk, fun q g hq => ?_, fun g hg => ?_⟩, hlp, fun hidle g => ?_, hsame,
      fun q hq => ?_, fun hsync g => ?_⟩
    · rw [lookup_loaded] at hq
      split at hq
      · rename_i hqp
        rw [hqp]
        exact ⟨hp, (hsame.isPageFree_eq hp).trans hused⟩
      · split at hq
        · cases hq
        · rcases h.allocated q g hq with ⟨hpos, hnot⟩
          exact ⟨hpos, (hsame.isPageFree_eq hpos).trans hnot⟩
    · by_cases hgf : g = f
      · rw [hgf, loaded_self]
      · rw [loaded_ne s p f dm _ r hgf] at hg ⊢
        exact h.clean g hg
    · by_cases hgf : g = f
      · rw [hgf, loaded_self]
      · rw [loaded_ne s p f dm _ r hgf]
        exact hidle g
    · rw [h.frames.tableInv.contents_load _ rfl rfl hheld hothers hq]
      split
      · rename_i hqp
        rw [hqp, contents_of_none hl]
        exact hothers p hp (by simp [hl])
      · rfl
    · by_cases hgf : g = f
      · rw [hgf]
        intro q hq
        rw [hframes.tableInv.page_eq hlp hq, loaded_self]
        exact Or.inr rfl
      · exact spare_load _ rfl rfl (fun q g hq => (h.allocated q g hq).1) hothers hgf (hsync g)

/-- A dirty frame holds a page, and its id is a page id the disk accepts. -/
theorem PoolInv.dirty_nonneg (h : PoolInv s) (hdirty : (s.pages f).isDirty = true) :
    0 ≤ (s.pages f).pageId.toInt := by
  have hvalid : (s.pages f).pageId ≠ INVALID_PAGE_ID := by
    intro hid
    rw [h.clean f hid] at hdirty
    cases hdirty
  exact (h.allocated _ f ((h.frames.table _ f).mpr ⟨hvalid, rfl⟩)).1

/-- While a frame is not pinned, every page can be fetched. -/
theorem QueueInv.fetchPage_ok (h : QueueInv s)
    (hdirty : ∀ g, (s.pages g).isDirty = true → 0 ≤ (s.pages g).pageId.toInt)
    (hf : (s.pages f).pinCount = 0) (hp : 0 ≤ p.toInt) :
    ∃ g s', s.fetchPage p = .ok (some g, s') := by
  cases hl : s.pageTable.lookup p with
  | some g =>
      simp only [BufferPoolManager.fetchPage, hl]
      exact ⟨g, _, rfl⟩
  | none =>
      rcases h.pickFrame_ok hf with ⟨g, s₀, hpick⟩
      rcases pickFrame_rest hpick with ⟨hpages, htable, hdisk⟩
      have hback : ∃ dm, writeBack (s.pages g) (s.pages g).data s.diskManager = .ok dm := by
        unfold writeBack
        split
        · rename_i hd
          exact writePage_ok _ _ (hdirty g hd)
        · exact ⟨_, rfl⟩
      rcases hback with ⟨dm, hback⟩
      simp only [BufferPoolManager.fetchPage, hl, hpick, hpages, hdisk, hback, ok_bind,
        Disk.readPage_eq, read_eq_stored hp]
      exact ⟨g, _, rfl⟩

theorem PoolInv.fetchPage_ok (h : PoolInv s) (hf : (s.pages f).pinCount = 0) (hp : 0 ≤ p.toInt) :
    ∃ g s', s.fetchPage p = .ok (some g, s') :=
  h.frames.queueInv.fetchPage_ok (fun _ => h.dirty_nonneg) hf hp

/-- While nobody pins a page, every page can be visited. -/
theorem PoolInv.visit_ok (h : PoolInv s) (hidle : Idle s) (f : Fin n) (hp : 0 ≤ p.toInt) :
    ∃ g s', s.visit p = .ok (some g, s') := by
  rcases h.fetchPage_ok (hidle f) hp with ⟨g, s₁, hfetch⟩
  exact ⟨g, (s₁.unpinPage p false).2, by simp only [visit, hfetch, ok_bind]⟩

/-! ## New pages -/

/-- `NewPage` took frame `f` for page `q`. -/
structure Made (s : BufferPoolManager n) (q : PageId) (f : Fin n) (s' : BufferPoolManager n) :
    Prop where
  pool : PoolInv s'
  valid : 0 ≤ q.toInt
  fresh : s.pageTable.lookup q = none
  lookup : s'.pageTable.lookup q = some f
  lookup_other : ∀ p g, s.pageTable.lookup p = some g → g ≠ f → s'.pageTable.lookup p = some g
  page : s'.pages f = { data := Buf.zero PAGE_SIZE, pageId := q, pinCount := 1, isDirty := false }
  others : ∀ g, g ≠ f → s'.pages g = s.pages g
  allocator : ∃ dm, s.diskManager.allocatePage = .ok (q, dm) ∧
    DiskManager.SameAllocator dm s'.diskManager

theorem PoolInv.made (h : PoolInv s) (hnew : s.newPage = .ok (some (q, f), s')) :
    Made s q f s' := by
  have hc := h.frames.created h.disk h.allocated hnew
  rcases newPage_inversion hnew with ⟨hnone, _⟩ | ⟨q', f', s₁, dm₁, dm₂, hsome, hpick, halloc,
    hwrite, rfl⟩
  · cases hnone
  · cases hsome
    refine ⟨⟨hc.frames, hc.disk, fun p g hl => ?_, fun g hg => ?_⟩, hc.valid, hc.fresh, hc.lookup,
      fun p g hl hg => ?_, ?_, hc.others, dm₁, halloc, writeBack_sameAllocator hwrite⟩
    · by_cases hpq : p = q
      · rw [hpq]
        exact ⟨hc.valid, hc.now_used⟩
      · rcases h.allocated p g (hc.resident p g hl hpq) with ⟨hpos, hnot⟩
        exact ⟨hpos, (hc.free p hpos hpq).trans hnot⟩
    · by_cases hgf : g = f
      · rw [hgf]
        simp
      · rw [hc.others g hgf] at hg ⊢
        exact h.clean g hg
    · have hpq : p ≠ q := by
        rintro rfl
        rw [hc.fresh] at hl
        cases hl
      have hold : p ≠ (s.pages f).pageId := by
        rintro rfl
        exact hg (h.frames.inj (h.frames.pageId hl).1 (h.frames.pageId hl).2 rfl)
      rw [lookup_load (s := s) (p := q) (f := f) rfl, if_neg hpq, if_neg hold, hl]
    · simp [hc.unpinned]

/-- A clean frame is not written to disk, so no page changes there. -/
theorem PoolInv.newPage_clean (h : PoolInv s) (hnew : s.newPage = .ok (some (q, f), s'))
    (hclean : (s.pages f).isDirty = false) :
    s'.pages = Function.update s.pages f
        { data := Buf.zero PAGE_SIZE, pageId := q, pinCount := (s.pages f).pinCount + 1
          isDirty := false } ∧
      s'.pageTable = (s.pageTable.erase (s.pages f).pageId).insert q f ∧
      ∀ x, 0 ≤ x.toInt → stored s'.diskManager x = stored s.diskManager x := by
  rcases newPage_inversion hnew with ⟨hnone, _⟩ | ⟨q', f', s₁, dm₁, dm₂, hsome, hpick, halloc,
    hwrite, rfl⟩
  · cases hnone
  · cases hsome
    have hdm : dm₂ = dm₁ := by
      rw [writeBack, hclean] at hwrite
      exact (Except.ok.inj hwrite).symm
    exact ⟨rfl, rfl, fun x hx => by rw [hdm, stored_allocatePage h.disk halloc hx]⟩

/-- What was in a clean frame is on disk, and the other pages are where they were. -/
theorem PoolInv.made_contents (h : PoolInv s) (hnew : s.newPage = .ok (some (q, f), s'))
    (hclean : (s.pages f).isDirty = false) (hspare : Spare s f) {x : PageId} (hx : 0 ≤ x.toInt)
    (hxq : x ≠ q) : s'.contents x = s.contents x := by
  rcases h.newPage_clean hnew hclean with ⟨hpages, htable, hstored⟩
  have hheld : ∀ y, 0 ≤ y.toInt → s.pageTable.lookup y = some f →
      stored s'.diskManager y = (s.pages f).data := by
    intro y hy hl
    refine (hstored y hy).trans ?_
    rcases hspare y hl with hdirty | hsame
    · rw [hclean] at hdirty
      cases hdirty
    · exact hsame.symm
  rw [h.frames.tableInv.contents_load _ hpages htable hheld (fun y hy _ => hstored y hy) hx,
    if_neg hxq]

/-- The page in a dirty frame is overwritten with zeros. -/
theorem PoolInv.made_dirty (h : PoolInv s) (hnew : s.newPage = .ok (some (q, f), s'))
    (hdirty : (s.pages f).isDirty = true) (hl : s.pageTable.lookup p = some f) :
    s'.contents p = Buf.zero PAGE_SIZE := by
  have hp := (h.allocated p f hl).1
  have hid := (h.frames.pageId hl).2
  have hpq : p ≠ q := by
    rintro rfl
    rw [(h.made hnew).fresh] at hl
    cases hl
  rcases newPage_inversion hnew with ⟨hnone, _⟩ | ⟨q', f', s₁, dm₁, dm₂, hsome, hpick, halloc,
    hwrite, rfl⟩
  · cases hnone
  · cases hsome
    rw [contents_of_none]
    · rw [stored_writeBack hwrite hp, if_pos ⟨hdirty, hid.symm⟩]
    · rw [lookup_load (s := s) (p := q) (f := f) rfl, if_neg hpq, if_pos hid.symm]

theorem PoolInv.made_spare (h : PoolInv s) (hnew : s.newPage = .ok (some (q, f), s'))
    (hclean : (s.pages f).isDirty = false) (hgf : g ≠ f) (hspare : Spare s g) : Spare s' g := by
  rcases h.newPage_clean hnew hclean with ⟨hpages, htable, hstored⟩
  exact spare_load _ hpages htable (fun q g hq => (h.allocated q g hq).1)
    (fun y hy _ => hstored y hy) hgf hspare

/-! ## Stores -/

/-- Bytes are stored in the frame of page `p`, and the page is unpinned dirty. -/
structure Written (s : BufferPoolManager n) (p : PageId) (f : Fin n) (data : PageData)
    (s' : BufferPoolManager n) : Prop where
  pool : PoolInv s'
  table : s'.pageTable = s.pageTable
  free : s'.freeList = s.freeList
  disk : s'.diskManager = s.diskManager
  contents : ∀ x, s'.contents x = if x = p then data else s.contents x
  page : s'.pages f =
    { data := data, pageId := p, pinCount := (s.pages f).pinCount - 1, isDirty := true }
  others : ∀ g, g ≠ f → s'.pages g = s.pages g

theorem PoolInv.written (h : PoolInv s) (hl : s.pageTable.lookup p = some f) (data : PageData) :
    Written s p f data ((s.write f data).unpinPage p true).2 := by
  have hl₁ : (s.write f data).pageTable.lookup p = some f := hl
  rcases (h.write hl data).unpinPage_resident hl₁ true with ⟨hpool, hsame⟩
  rcases unpinPage_of_lookup hl₁ true with ⟨done, heq⟩
  have hpages : ((s.write f data).unpinPage p true).2.pages = Function.update s.pages f
      { data := data, pageId := p, pinCount := (s.pages f).pinCount - 1, isDirty := true } := by
    rw [heq]
    simp [BufferPoolManager.write, setPage, Function.update_idem, (h.frames.pageId hl).2]
  refine ⟨hpool, hsame.table, hsame.free, hsame.disk, fun x => ?_, ?_, fun g hg => ?_⟩
  · exact h.frames.tableInv.contents_touch hl _ hpages hsame.table hsame.disk x
  · rw [hpages, Function.update_self]
  · rw [hpages, Function.update_of_ne hg]

theorem Written.idle {data : PageData} (h : Written s p f data s')
    (hpin : (s.pages f).pinCount ≤ 1) (hothers : ∀ g, g ≠ f → (s.pages g).pinCount = 0) :
    Idle s' := by
  intro g
  by_cases hgf : g = f
  · rw [hgf, h.page]
    exact Nat.sub_eq_zero_of_le hpin
  · rw [h.others g hgf, hothers g hgf]

theorem Written.synced {data : PageData} (h : Written s p f data s')
    (hothers : ∀ g, g ≠ f → Spare s g) : Synced s' := by
  intro g q hq
  rw [h.table] at hq
  by_cases hgf : g = f
  · rw [hgf, h.page]
    exact Or.inl rfl
  · rw [h.others g hgf, h.disk]
    exact hothers g hgf q hq

/-! ## Any frame -/

/-- An allocated page is fetched, whatever frame is taken for it. -/
theorem PoolInv.fetchPage (h : PoolInv s) (hused : s.diskManager.isPageFree p = false)
    (hok : s.fetchPage p = .ok (some f, s')) : PoolInv s' := by
  have hf := h.frames.fetched h.disk hok
  have hpos : 0 ≤ p.toInt := by
    cases hl : s.pageTable.lookup p with
    | some g =>
        exact (h.allocated p g hl).1
    | none =>
        rcases fetchPage_inversion hok with
          ⟨hnone, _⟩ | ⟨g, _, hg, _⟩ | ⟨_, _, _, _, _, _, _, hp, _⟩
        · cases hnone
        · rw [hl] at hg
          cases hg
        · exact hp
  refine ⟨hf.frames, hf.disk, fun q g hq => ?_, fun g hg => ?_⟩
  · by_cases hqp : q = p
    · rw [hqp, hf.free p hpos]
      exact ⟨hpos, hused⟩
    · rcases h.allocated q g (hf.resident q g hq hqp) with ⟨hq0, hnot⟩
      exact ⟨hq0, (hf.free q hq0).trans hnot⟩
  · by_cases hgf : g = f
    · rw [hgf, (hf.frames.pageId hf.lookup).2] at hg
      exact absurd hg (ne_INVALID_of_nonneg hpos)
    · rw [hf.others g hgf] at hg ⊢
      exact h.clean g hg

theorem PoolInv.unpinPage (h : PoolInv s) (p : PageId) (isDirty : Bool) :
    PoolInv (s.unpinPage p isDirty).2 := by
  cases hl : s.pageTable.lookup p with
  | some f =>
      exact (h.unpinPage_resident hl isDirty).1
  | none =>
      simp only [BufferPoolManager.unpinPage, hl]
      exact h

end BufferPoolManager
end MiniSQL
