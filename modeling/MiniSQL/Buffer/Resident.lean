import MiniSQL.Buffer.Frames

/-!
# Resident — the pool while nothing is evicted

As long as every page that is asked for is resident and every new page finds a frame on the free
list, the pool is a store of pages: `FetchPage` and `UnpinPage` change pin counts only, `NewPage`
adds a zeroed page and a client changes the bytes of one frame.
-/

namespace MiniSQL
namespace BufferPoolManager

open Lib

variable {n : Nat} {s s' s'' : BufferPoolManager n} {f g : Fin n} {p q : PageId}

/-- The frames are in order, resident pages are allocated on disk and free frames are clean. -/
structure PoolInv (s : BufferPoolManager n) : Prop where
  frames : FrameInv s
  disk : DiskManager.Inv s.diskManager
  allocated : ∀ p f, s.pageTable.lookup p = some f →
    0 ≤ p.toInt ∧ s.diskManager.isPageFree p = false
  clean : ∀ f, (s.pages f).pageId = INVALID_PAGE_ID → (s.pages f).isDirty = false

/-- The pools differ in pin counts, dirty flags and the replacer only. -/
structure SameStore (s s' : BufferPoolManager n) : Prop where
  table : s'.pageTable = s.pageTable
  pageId : ∀ f, (s'.pages f).pageId = (s.pages f).pageId
  data : ∀ f, (s'.pages f).data = (s.pages f).data
  free : s'.freeList = s.freeList
  disk : s'.diskManager = s.diskManager

/-- `s'` is `s` with the new page `q`, zeroed, in frame `f`. -/
structure Adds (s : BufferPoolManager n) (q : PageId) (f : Fin n) (s' : BufferPoolManager n) :
    Prop where
  fresh : s.pageTable.lookup q = none
  valid : 0 ≤ q.toInt
  lookup_new : s'.pageTable.lookup q = some f
  lookup_other : ∀ p, p ≠ q → s'.pageTable.lookup p = s.pageTable.lookup p
  pageId : (s'.pages f).pageId = q
  data : (s'.pages f).data = Buf.zero PAGE_SIZE
  pages_other : ∀ g, g ≠ f → s'.pages g = s.pages g
  free : s.freeList = f :: s'.freeList

theorem SameStore.refl (s : BufferPoolManager n) : SameStore s s :=
  ⟨rfl, fun _ => rfl, fun _ => rfl, rfl, rfl⟩

theorem SameStore.trans (h : SameStore s s') (h' : SameStore s' s'') : SameStore s s'' where
  table := h'.table.trans h.table
  pageId := fun f => (h'.pageId f).trans (h.pageId f)
  data := fun f => (h'.data f).trans (h.data f)
  free := h'.free.trans h.free
  disk := h'.disk.trans h.disk

theorem init_poolInv (n : Nat) {dm : DiskManager} (hdm : DiskManager.Inv dm) :
    PoolInv (init n dm) where
  frames := init_frameInv n dm
  disk := hdm
  allocated := by
    intro p f hl
    simp [init] at hl
  clean := fun _ _ => rfl

/-- Pin counts and dirty flags of one resident frame may change. -/
theorem PoolInv.touch (h : PoolInv s) (hl : s.pageTable.lookup p = some f) (page : Page)
    (hid : page.pageId = (s.pages f).pageId) (hframes : FrameInv s')
    (hpages : s'.pages = Function.update s.pages f page) (htable : s'.pageTable = s.pageTable)
    (hdisk : s'.diskManager = s.diskManager) : PoolInv s' where
  frames := hframes
  disk := by
    rw [hdisk]
    exact h.disk
  allocated := by
    intro q g hq
    rw [htable] at hq
    rw [hdisk]
    exact h.allocated q g hq
  clean := by
    intro g hg
    rw [hpages] at hg ⊢
    by_cases hgf : g = f
    · -- A resident frame holds a page, so nothing is claimed about its flag.
      subst hgf
      have hvalid := h.frames.pageId hl
      rw [Function.update_self, hid, hvalid.2] at hg
      exact absurd hg hvalid.1
    · rw [Function.update_of_ne hgf] at hg ⊢
      exact h.clean g hg

theorem SameStore.update (page : Page) (hid : page.pageId = (s.pages f).pageId)
    (hdata : page.data = (s.pages f).data) (hpages : s'.pages = Function.update s.pages f page)
    (htable : s'.pageTable = s.pageTable) (hfree : s'.freeList = s.freeList)
    (hdisk : s'.diskManager = s.diskManager) : SameStore s s' := by
  refine ⟨htable, fun g => ?_, fun g => ?_, hfree, hdisk⟩
  · rw [hpages]
    exact field_update Page.pageId hid g
  · rw [hpages]
    exact field_update Page.data hdata g

theorem PoolInv.fetchPage_resident (h : PoolInv s) (hl : s.pageTable.lookup p = some f) :
    ∃ s', s.fetchPage p = .ok (some f, s') ∧ PoolInv s' ∧ SameStore s s' := by
  set page : Page := { s.pages f with pinCount := (s.pages f).pinCount + 1 } with hpage
  refine ⟨{ s with
    pages := Function.update s.pages f page
    replacer := s.replacer.pin f }, ?_, ?_, ?_⟩
  · simp only [fetchPage, hl, hpage]
  · exact h.touch hl page rfl (h.frames.pin hl) rfl rfl rfl
  · exact SameStore.update page rfl rfl rfl rfl rfl rfl

theorem PoolInv.unpinPage_resident (h : PoolInv s) (hl : s.pageTable.lookup p = some f)
    (isDirty : Bool) :
    PoolInv (s.unpinPage p isDirty).2 ∧ SameStore s (s.unpinPage p isDirty).2 := by
  rcases unpinPage_of_lookup hl isDirty with ⟨done, heq⟩
  set page : Page :=
    { s.pages f with
      isDirty := (s.pages f).isDirty || isDirty
      pinCount := (s.pages f).pinCount - 1 } with hpage
  rw [heq]
  constructor
  · exact h.touch hl page rfl (h.frames.unpin hl _) rfl rfl rfl
  · exact SameStore.update page rfl rfl rfl rfl rfl rfl

/-- A client stores bytes in a resident frame. -/
theorem PoolInv.write (h : PoolInv s) (hl : s.pageTable.lookup p = some f) (data : PageData) :
    PoolInv (s.write f data) := by
  refine h.touch hl { s.pages f with data := data } rfl ?_ rfl rfl rfl
  exact h.frames.congr rfl rfl rfl fun g =>
    ⟨field_update Page.pageId (by rfl) g, field_update Page.pinCount (by rfl) g⟩

/-- A frame on the free list holds no page. -/
theorem FrameInv.free_frame (h : FrameInv s) (hf : f ∈ s.freeList) :
    (s.pages f).pageId = INVALID_PAGE_ID ∧ (s.pages f).pinCount = 0 := by
  have hcount : 0 < s.freeList.count f := List.count_pos_iff.mpr hf
  rcases h.inClass f with hc | hc | hc
  · exact ⟨hc.2.2.1, hc.2.2.2⟩
  · simp only [Status.InClass, status] at hc
    omega
  · simp only [Status.InClass, status] at hc
    omega

theorem FrameInv.free_not_resident (h : FrameInv s) (hf : f ∈ s.freeList) (p : PageId) :
    s.pageTable.lookup p ≠ some f := by
  intro hl
  rcases h.pageId hl with ⟨hvalid, hid⟩
  exact hvalid (hid.symm.trans (h.free_frame hf).1)

theorem Adds.free_eq {rest : List (Fin n)} (h : Adds s q f s') (hfree : s.freeList = f :: rest) :
    s'.freeList = rest :=
  (List.cons.inj (h.free.symm.trans hfree)).2

theorem Adds.ne_new (h : Adds s q f s') (hl : s.pageTable.lookup p = some g) : p ≠ q := by
  rintro rfl
  rw [h.fresh] at hl
  cases hl

/-- The pages that were there stay in their frames. -/
theorem Adds.lookup_old (h : Adds s q f s') (hl : s.pageTable.lookup p = some g) :
    s'.pageTable.lookup p = some g := by
  rw [h.lookup_other p (h.ne_new hl), hl]

/-- `NewPage` with a frame on the free list and room on disk. -/
theorem PoolInv.newPage_free {rest : List (Fin n)} {dm : DiskManager} (h : PoolInv s)
    (hfree : s.freeList = f :: rest) (halloc : s.diskManager.allocatePage = .ok (q, dm)) :
    ∃ s', s.newPage = .ok (some (q, f), s') ∧ PoolInv s' ∧ Adds s q f s' ∧
      s'.diskManager = dm := by
  rcases h.frames.free_frame (f := f) (by simp [hfree]) with ⟨hid, hpin⟩
  have htakes := h.disk.takesLowest halloc
  have hvalid := htakes.valid.1
  -- The page was free on disk, so it is not resident.
  have hfresh : s.pageTable.lookup q = none := by
    cases hq : s.pageTable.lookup q with
    | none =>
        rfl
    | some g =>
        have hused := (h.allocated q g hq).2
        rw [htakes.was_free] at hused
        cases hused
  have hnew := newPage_of_free hfree hpin (h.clean f hid) halloc
  set s' : BufferPoolManager n :=
    { pages := Function.update s.pages f
        { data := Buf.zero PAGE_SIZE, pageId := q, pinCount := 1, isDirty := false }
      pageTable := (s.pageTable.erase (s.pages f).pageId).insert q f
      replacer := s.replacer
      freeList := rest
      diskManager := dm } with hs'
  have hstep : Step s (.newPage (some (q, f))) s' := hnew
  -- The free frame had no page, so erasing its page id takes nothing out of the table.
  have hnone : s.pageTable.lookup INVALID_PAGE_ID = none := by
    cases hi : s.pageTable.lookup INVALID_PAGE_ID with
    | none =>
        rfl
    | some g =>
        exact absurd rfl (h.frames.pageId hi).1
  have hlookup : ∀ p, p ≠ q → s'.pageTable.lookup p = s.pageTable.lookup p := by
    intro p hp
    have htable : s'.pageTable = (s.pageTable.erase (s.pages f).pageId).insert q f := rfl
    rw [lookup_load htable, if_neg hp, hid]
    split
    · rename_i hinv
      rw [hinv, hnone]
    · rfl
  refine ⟨s', hnew, ⟨?_, hstep.diskInv h.disk, ?_, ?_⟩, ?_, rfl⟩
  · -- The call is careful: the page handed out is not resident.
    refine (hstep.frameInv_iff h.frames h.disk).mpr ?_
    intro f' s₁ q' dm' g _ halloc' hl
    rw [Disk.allocatePage_eq, halloc] at halloc'
    cases halloc'
    rw [hfresh] at hl
    cases hl
  · intro p g hl
    by_cases hp : p = q
    · subst hp
      exact ⟨hvalid, htakes.now_used⟩
    · rw [hlookup p hp] at hl
      rcases h.allocated p g hl with ⟨h1, h2⟩
      exact ⟨h1, (htakes.others p h1 hp).trans h2⟩
  · intro g hg
    by_cases hgf : g = f
    · subst hgf
      simp [hs']
    · simp only [hs', Function.update_of_ne hgf] at hg ⊢
      exact h.clean g hg
  · refine ⟨hfresh, hvalid, ?_, hlookup, ?_, ?_, ?_, hfree⟩
    · simp [hs']
    · simp [hs']
    · simp [hs']
    · intro g hg
      simp [hs', Function.update_of_ne hg]

end BufferPoolManager
end MiniSQL
