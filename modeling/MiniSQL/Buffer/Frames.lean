import MiniSQL.Buffer.BufferPoolManager

/-!
# Frames — where each frame of the pool stands

Every frame is free, evictable or pinned.  `status` collects what decides this for one frame; each
call of the pool changes the status of at most one frame, and the lemmas below say to what.  The
frame invariant over runs is then a case analysis on one status.
-/

namespace MiniSQL
namespace BufferPoolManager

open Lib

variable {n : Nat} {D : Type} {s s' s₁ : BufferPoolManager n D} {f g : Fin n} {p : PageId}

/-- A field that a change of one frame keeps is the same in every frame. -/
theorem field_update {α : Type} (field : Page → α) {pages : Fin n → Page} {page : Page}
    (h : field page = field (pages f)) (g : Fin n) :
    field (Function.update pages f page g) = field (pages g) := by
  by_cases hg : g = f
  · rw [hg, Function.update_self, h]
  · rw [Function.update_of_ne hg]

/-! ## Classes of frames -/

/-- How often a frame is on the free list and in the replacer, and what its header says. -/
structure Status where
  free : Nat
  evict : Nat
  pageId : PageId
  pinCount : Nat

inductive FrameClass
  | free
  | evictable
  | pinned
  deriving DecidableEq

def Status.InClass (st : Status) : FrameClass → Prop
  | .free => st.free = 1 ∧ st.evict = 0 ∧ st.pageId = INVALID_PAGE_ID ∧ st.pinCount = 0
  | .evictable => st.free = 0 ∧ st.evict = 1 ∧ st.pageId ≠ INVALID_PAGE_ID ∧ st.pinCount = 0
  | .pinned => st.free = 0 ∧ st.evict = 0 ∧ st.pageId ≠ INVALID_PAGE_ID ∧ 0 < st.pinCount

theorem Status.inClass_unique {st : Status} {c d : FrameClass} (hc : st.InClass c)
    (hd : st.InClass d) : c = d := by
  cases c <;> cases d <;> simp only [Status.InClass] at hc hd <;> first | rfl | omega

def status (s : BufferPoolManager n D) (f : Fin n) : Status :=
  { free := s.freeList.count f
    evict := s.replacer.frames.count f
    pageId := (s.pages f).pageId
    pinCount := (s.pages f).pinCount }

/-- The frame invariant: one class for every frame, and the page table is the inverse of the page
ids in the frames. -/
structure FrameInv (s : BufferPoolManager n D) : Prop where
  classes : ∀ f, ∃! c, (s.status f).InClass c
  table : ∀ p f, s.pageTable.lookup p = some f ↔ p ≠ INVALID_PAGE_ID ∧ (s.pages f).pageId = p

theorem FrameInv.inClass (h : FrameInv s) (f : Fin n) :
    (s.status f).InClass .free ∨ (s.status f).InClass .evictable ∨
      (s.status f).InClass .pinned := by
  rcases h.classes f with ⟨c, hc, _⟩
  cases c with
  | free => exact Or.inl hc
  | evictable => exact Or.inr (Or.inl hc)
  | pinned => exact Or.inr (Or.inr hc)

/-- The table part alone. -/
def TableInv (s : BufferPoolManager n D) : Prop :=
  ∀ p f, s.pageTable.lookup p = some f ↔ p ≠ INVALID_PAGE_ID ∧ (s.pages f).pageId = p

theorem FrameInv.tableInv (h : FrameInv s) : TableInv s :=
  h.table

theorem TableInv.inj (h : TableInv s) (hp : p ≠ INVALID_PAGE_ID) (hf : (s.pages f).pageId = p)
    (hg : (s.pages g).pageId = p) : f = g := by
  have h1 := (h p f).mpr ⟨hp, hf⟩
  have h2 := (h p g).mpr ⟨hp, hg⟩
  rw [h1] at h2
  exact Option.some.inj h2

/-- A frame holds one page. -/
theorem TableInv.page_eq {q : PageId} (h : TableInv s) (hp : s.pageTable.lookup p = some f)
    (hq : s.pageTable.lookup q = some f) : q = p := by
  rw [← ((h q f).mp hq).2, ((h p f).mp hp).2]

theorem TableInv.frame_ne {q : PageId} (h : TableInv s) (hp : s.pageTable.lookup p = some f)
    (hq : s.pageTable.lookup q = some g) (hne : q ≠ p) : g ≠ f := by
  rintro rfl
  exact hne (h.page_eq hp hq)

theorem FrameInv.inj (h : FrameInv s) (hp : p ≠ INVALID_PAGE_ID) (hf : (s.pages f).pageId = p)
    (hg : (s.pages g).pageId = p) : f = g :=
  h.tableInv.inj hp hf hg

theorem FrameInv.pageId (h : FrameInv s) (hl : s.pageTable.lookup p = some f) :
    p ≠ INVALID_PAGE_ID ∧ (s.pages f).pageId = p :=
  (h.table p f).mp hl

theorem FrameInv.frame_ne {q : PageId} (h : FrameInv s) (hp : s.pageTable.lookup p = some f)
    (hq : s.pageTable.lookup q = some g) (hne : q ≠ p) : g ≠ f :=
  h.tableInv.frame_ne hp hq hne

/-- A frame in the page table is not on the free list. -/
theorem FrameInv.resident_class (h : FrameInv s) (hp : (s.pages f).pageId ≠ INVALID_PAGE_ID) :
    (s.status f).InClass .evictable ∨ (s.status f).InClass .pinned := by
  rcases h.inClass f with hc | hc
  · exact absurd hc.2.2.1 hp
  · exact hc

theorem count_frames_le (s : BufferPoolManager n D) (f : Fin n) :
    s.replacer.frames.count f ≤ 1 :=
  List.nodup_iff_count_le_one.mp s.replacer.nodup_frames f

theorem init_frameInv (n : Nat) (dm : D) : FrameInv (init n dm) := by
  refine ⟨fun f => ?_, fun p f => ?_⟩
  · have hfree : ((init n dm).status f).InClass .free :=
      ⟨List.count_eq_one_of_mem (List.nodup_finRange n) (List.mem_finRange f), rfl, rfl, rfl⟩
    exact ⟨.free, hfree, fun c hc => Status.inClass_unique hc hfree⟩
  · simp [init, Page.empty]
    exact fun hp heq => hp heq.symm

theorem ne_INVALID_of_nonneg (hp : 0 ≤ p.toInt) : p ≠ INVALID_PAGE_ID := by
  rintro rfl
  exact absurd hp (by decide)

/-- A page of the disk is resident in the frame that has its id. -/
theorem TableInv.lookup_iff (h : TableInv s) (hp : 0 ≤ p.toInt) :
    s.pageTable.lookup p = some f ↔ (s.pages f).pageId = p :=
  (h p f).trans (and_iff_right (ne_INVALID_of_nonneg hp))

theorem TableInv.pageId_ne (h : TableInv s) (hp : 0 ≤ p.toInt)
    (hnone : s.pageTable.lookup p = none) (f : Fin n) : (s.pages f).pageId ≠ p := by
  intro heq
  have hl := (h.lookup_iff hp).mpr heq
  rw [hnone] at hl
  cases hl

/-- The page table after page `p` was put in frame `f`. -/
theorem lookup_load {q : PageId}
    (htable : s'.pageTable = (s.pageTable.erase (s.pages f).pageId).insert p f) :
    s'.pageTable.lookup q =
      if q = p then some f else if q = (s.pages f).pageId then none else s.pageTable.lookup q := by
  rw [htable]
  split
  · rename_i h
    rw [h, AList.lookup_insert]
  · rename_i h
    rw [AList.lookup_insert_ne h]
    split
    · rename_i ho
      rw [ho, AList.lookup_erase]
    · rename_i ho
      rw [AList.lookup_erase_ne ho]

/-- A call that changes the status of one frame, to one that has a class, keeps the classes. -/
theorem classes_update (h : FrameInv s) (f : Fin n) (st : Status) {c : FrameClass}
    (hc : st.InClass c) (heq : s'.status = Function.update s.status f st) :
    ∀ g, ∃! c, (s'.status g).InClass c := by
  intro g
  rw [heq]
  by_cases hg : g = f
  · subst hg
    rw [Function.update_self]
    exact ⟨c, hc, fun d hd => Status.inClass_unique hd hc⟩
  · rw [Function.update_of_ne hg]
    exact h.classes g

/-- The table part when page `p` moves into frame `f`. -/
theorem TableInv.load (h : TableInv s) (hp : p ≠ INVALID_PAGE_ID)
    (hnew : ∀ g, s.pageTable.lookup p = some g → g = f)
    (hpages : ∀ g, g ≠ f → (s'.pages g).pageId = (s.pages g).pageId)
    (hf : (s'.pages f).pageId = p)
    (htable : s'.pageTable = (s.pageTable.erase (s.pages f).pageId).insert p f) :
    TableInv s' := by
  intro q g
  rw [htable]
  by_cases hqp : q = p
  · -- Page `p` itself: it is in `f`, and it was in no other frame.
    subst hqp
    rw [AList.lookup_insert]
    constructor
    · intro heq
      rw [← Option.some.inj heq]
      exact ⟨hp, hf⟩
    · rintro ⟨_, hg⟩
      by_cases hgf : g = f
      · rw [hgf]
      · rw [hpages g hgf] at hg
        exact absurd (hnew g ((h q g).mpr ⟨hp, hg⟩)) hgf
  · rw [AList.lookup_insert_ne hqp]
    by_cases hold : q = (s.pages f).pageId
    · -- The page that was in `f` leaves the table, and no other frame had it.
      rw [hold, AList.lookup_erase]
      simp only [reduceCtorEq, false_iff, not_and]
      intro hne hg
      by_cases hgf : g = f
      · rw [hgf, hf] at hg
        exact hqp (by rw [hold, hg])
      · rw [hpages g hgf] at hg
        exact hgf (h.inj hne hg rfl)
    · -- Any other page stays where it was.
      rw [AList.lookup_erase_ne hold, h]
      by_cases hgf : g = f
      · subst hgf
        rw [hf]
        constructor
        · rintro ⟨_, heq⟩
          exact absurd heq.symm hold
        · rintro ⟨_, heq⟩
          exact absurd heq.symm hqp
      · rw [hpages g hgf]

/-! ## Picking a frame -/

theorem pickFrame_cases (h : s.pickFrame = some (f, s₁)) :
    (∃ rest, s.freeList = f :: rest ∧ s₁ = { s with freeList := rest }) ∨
      (s.freeList = [] ∧ ∃ r, s.replacer.frames = f :: r.frames ∧
        s₁ = { s with replacer := r }) := by
  unfold pickFrame at h
  split at h
  · rename_i g rest hfree
    simp only [Option.some.injEq, Prod.mk.injEq] at h
    rcases h with ⟨rfl, rfl⟩
    exact Or.inl ⟨rest, hfree, rfl⟩
  · rename_i hfree
    split at h
    · rename_i g r hvictim
      simp only [Option.some.injEq, Prod.mk.injEq] at h
      rcases h with ⟨rfl, rfl⟩
      exact Or.inr ⟨hfree, r, LRUReplacer.victim_some hvictim, rfl⟩
    · simp at h

/-- The pool after a frame was picked differs from the one before in the two queues only. -/
theorem pickFrame_rest (h : s.pickFrame = some (f, s₁)) :
    s₁.pages = s.pages ∧ s₁.pageTable = s.pageTable ∧ s₁.diskManager = s.diskManager := by
  rcases pickFrame_cases h with ⟨_, _, rfl⟩ | ⟨_, _, _, rfl⟩
  · exact ⟨rfl, rfl, rfl⟩
  · exact ⟨rfl, rfl, rfl⟩

/-- A frame picked is in neither queue afterwards, and the other frames stay where they were. -/
theorem FrameInv.pickFrame_counts (hinv : FrameInv s) (h : s.pickFrame = some (f, s₁)) :
    s₁.freeList.count f = 0 ∧ s₁.replacer.frames.count f = 0 ∧
      ∀ g, g ≠ f → s₁.freeList.count g = s.freeList.count g ∧
        s₁.replacer.frames.count g = s.replacer.frames.count g := by
  rcases pickFrame_cases h with ⟨rest, hfree, rfl⟩ | ⟨hfree, r, hframes, rfl⟩
  · -- A frame on the free list is there once and is not in the replacer.
    have hcount : s.freeList.count f = rest.count f + 1 := by
      rw [hfree, List.count_cons_self]
    rcases hinv.inClass f with hc | hc | hc
    · simp only [Status.InClass, status] at hc
      refine ⟨by simp only; omega, hc.2.1, fun g hg => ⟨?_, rfl⟩⟩
      rw [hfree, List.count_cons_of_ne (Ne.symm hg)]
    · simp only [Status.InClass, status] at hc
      omega
    · simp only [Status.InClass, status] at hc
      omega
  · -- The free list is empty, and the replacer never holds a frame twice.
    have hle := count_frames_le s f
    rw [hframes, List.count_cons_self] at hle
    refine ⟨by rw [hfree]; rfl, by simp only; omega, fun g hg => ⟨rfl, ?_⟩⟩
    rw [hframes, List.count_cons_of_ne (Ne.symm hg)]

/-- The victim is never pinned. -/
theorem FrameInv.pickFrame_unpinned (hinv : FrameInv s) (h : s.pickFrame = some (f, s₁)) :
    (s.pages f).pinCount = 0 := by
  have hmem : 0 < s.freeList.count f ∨ 0 < s.replacer.frames.count f := by
    rcases pickFrame_cases h with ⟨rest, hfree, _⟩ | ⟨_, r, hframes, _⟩
    · left
      rw [hfree, List.count_cons_self]
      omega
    · right
      rw [hframes, List.count_cons_self]
      omega
  rcases hinv.inClass f with hc | hc | hc
  · exact hc.2.2.2
  · exact hc.2.2.2
  · simp only [Status.InClass, status] at hc
    omega

/-- The free list and the replacer decide whether a frame can be picked. -/
theorem pickFrame_none_iff : s.pickFrame = none ↔ s.freeList = [] ∧ s.replacer.frames = [] := by
  unfold pickFrame
  split
  · rename_i f rest hfree
    simp [hfree]
  · rename_i hfree
    split
    · rename_i f r hvictim
      simp [LRUReplacer.victim_some hvictim]
    · rename_i hnone
      simp [hfree, LRUReplacer.victim_none.mp hnone]

/-- No frame can be picked exactly when all are pinned. -/
theorem FrameInv.pickFrame_none (hinv : FrameInv s) (h : s.pickFrame = none) (f : Fin n) :
    (s.pages f).pinCount ≠ 0 := by
  have hempty := pickFrame_none_iff.mp h
  rcases hinv.inClass f with hc | hc | hc
  · simp [Status.InClass, status, hempty] at hc
  · simp [Status.InClass, status, hempty] at hc
  · exact Nat.pos_iff_ne_zero.mp hc.2.2.2

/-! ## What each call does -/

section Disk

variable [Disk D]

theorem fetchPage_cases {r : Option (Fin n)} (h : s.fetchPage p = .ok (r, s')) :
    (r = none ∧ s' = s) ∨
      (∃ f, r = some f ∧ s.pageTable.lookup p = some f ∧ s' = { s with
        pages := Function.update s.pages f { s.pages f with pinCount := (s.pages f).pinCount + 1 }
        replacer := s.replacer.pin f }) ∨
      ∃ f s₁ dm data dm', r = some f ∧ s.pageTable.lookup p = none ∧
        s.pickFrame = some (f, s₁) ∧
        writeBack (s.pages f) (s.pages f).data s.diskManager = .ok dm ∧
        Disk.readPage dm p = .ok (data, dm') ∧
        s' =
          { pages := Function.update s.pages f
              { data := data, pageId := p
                pinCount := (s.pages f).pinCount + 1, isDirty := false }
            pageTable := (s.pageTable.erase (s.pages f).pageId).insert p f
            replacer := s₁.replacer.pin f
            freeList := s₁.freeList
            diskManager := dm' } := by
  unfold fetchPage at h
  split at h
  · rename_i hnone
    split at h
    · simp only [Except.ok.injEq, Prod.mk.injEq] at h
      exact Or.inl ⟨h.1.symm, h.2.symm⟩
    · rename_i f s₁ hpick
      rcases pickFrame_rest hpick with ⟨hpages, htable, hdisk⟩
      -- The write-back, then the read.
      rcases bind_eq_ok.mp h with ⟨dm, hwrite, h⟩
      rcases bind_eq_ok.mp h with ⟨⟨data, dm'⟩, hread, h⟩
      simp only [Except.ok.injEq, Prod.mk.injEq] at h
      rcases h with ⟨rfl, rfl⟩
      refine Or.inr (Or.inr ⟨f, s₁, dm, data, dm', rfl, hnone, hpick, ?_, hread, ?_⟩)
      · rw [hpages, hdisk] at hwrite
        exact hwrite
      · rw [hpages, htable]
  · rename_i f hsome
    simp only [Except.ok.injEq, Prod.mk.injEq] at h
    exact Or.inr (Or.inl ⟨f, h.1.symm, hsome, h.2.symm⟩)

theorem newPage_cases {r : Option (PageId × Fin n)} (h : s.newPage = .ok (r, s')) :
    (r = none ∧ s' = s) ∨
      ∃ q f s₁ dm₁ dm₂, r = some (q, f) ∧ s.pickFrame = some (f, s₁) ∧
        Disk.allocatePage s.diskManager = .ok (q, dm₁) ∧
        writeBack (s.pages f) (Buf.zero PAGE_SIZE) dm₁ = .ok dm₂ ∧
        s' =
          { pages := Function.update s.pages f
              { data := Buf.zero PAGE_SIZE, pageId := q
                pinCount := (s.pages f).pinCount + 1, isDirty := false }
            pageTable := (s.pageTable.erase (s.pages f).pageId).insert q f
            replacer := s₁.replacer
            freeList := s₁.freeList
            diskManager := dm₂ } := by
  unfold newPage at h
  split at h
  · simp only [Except.ok.injEq, Prod.mk.injEq] at h
    exact Or.inl ⟨h.1.symm, h.2.symm⟩
  · split at h
    · simp only [Except.ok.injEq, Prod.mk.injEq] at h
      exact Or.inl ⟨h.1.symm, h.2.symm⟩
    · rename_i f s₁ hpick
      rcases pickFrame_rest hpick with ⟨hpages, htable, hdisk⟩
      rcases bind_eq_ok.mp h with ⟨⟨q, dm₁⟩, halloc, h⟩
      rcases bind_eq_ok.mp h with ⟨dm₂, hwrite, h⟩
      simp only [Except.ok.injEq, Prod.mk.injEq] at h
      rcases h with ⟨rfl, rfl⟩
      rw [hdisk] at halloc
      rw [hpages] at hwrite
      refine Or.inr ⟨q, f, s₁, dm₁, dm₂, rfl, hpick, halloc, hwrite, ?_⟩
      rw [hpages, htable]

theorem deletePage_cases {r : Bool} (h : s.deletePage p = .ok (r, s')) :
    ∃ dm, Disk.deAllocatePage s.diskManager p = .ok dm ∧
      ((s.pageTable.lookup p = none ∧ r = true ∧ s' = { s with diskManager := dm }) ∨
        ∃ f, s.pageTable.lookup p = some f ∧
          (((s.pages f).pinCount ≠ 0 ∧ r = false ∧ s' = { s with diskManager := dm }) ∨
            ((s.pages f).pinCount = 0 ∧ r = true ∧ s' =
              { s with
                pages := Function.update s.pages f
                  { s.pages f with pageId := INVALID_PAGE_ID, pinCount := 0, isDirty := false }
                pageTable := s.pageTable.erase p
                freeList := s.freeList ++ [f]
                diskManager := dm }))) := by
  rcases bind_eq_ok.mp h with ⟨dm, hfree, h⟩
  refine ⟨dm, hfree, ?_⟩
  split at h
  · rename_i hnone
    simp only [Except.ok.injEq, Prod.mk.injEq] at h
    exact Or.inl ⟨hnone, h.1.symm, h.2.symm⟩
  · rename_i f hsome
    refine Or.inr ⟨f, hsome, ?_⟩
    split at h
    · rename_i hpin
      simp only [Except.ok.injEq, Prod.mk.injEq] at h
      exact Or.inl ⟨hpin, h.1.symm, h.2.symm⟩
    · rename_i hpin
      simp only [Except.ok.injEq, Prod.mk.injEq] at h
      exact Or.inr ⟨by simpa using hpin, h.1.symm, h.2.symm⟩

theorem flushPage_cases {r : Bool} (h : s.flushPage p = .ok (r, s')) :
    (s.pageTable.lookup p = none ∧ s' = s) ∨
      ∃ f dm, s.pageTable.lookup p = some f ∧
        Disk.writePage s.diskManager p (s.pages f).data = .ok dm ∧
        s' = { s with
          pages := Function.update s.pages f { s.pages f with isDirty := false }
          diskManager := dm } := by
  unfold flushPage at h
  split at h
  · rename_i hnone
    simp only [Except.ok.injEq, Prod.mk.injEq] at h
    exact Or.inl ⟨hnone, h.2.symm⟩
  · rename_i f hsome
    rcases bind_eq_ok.mp h with ⟨dm, hwrite, h⟩
    simp only [Except.ok.injEq, Prod.mk.injEq] at h
    exact Or.inr ⟨f, dm, hsome, hwrite, h.2.symm⟩

end Disk

/-- `UnpinPage` touches the frame of the page only; it joins the replacer with its last unpin. -/
theorem unpinPage_inversion {isDirty r : Bool} (h : s.unpinPage p isDirty = (r, s')) :
    (s.pageTable.lookup p = none ∧ s' = s) ∨
      ∃ f, s.pageTable.lookup p = some f ∧ s' = { s with
        pages := Function.update s.pages f
          { s.pages f with
            isDirty := (s.pages f).isDirty || isDirty
            pinCount := (s.pages f).pinCount - 1 }
        replacer := if (s.pages f).pinCount = 1 then s.replacer.unpin f else s.replacer } := by
  unfold unpinPage at h
  split at h
  · rename_i hnone
    simp only [Prod.mk.injEq] at h
    exact Or.inl ⟨hnone, h.2.symm⟩
  · rename_i f hsome
    refine Or.inr ⟨f, hsome, ?_⟩
    -- `0 - 1 = 0`, so a page that is not pinned fits the same description.
    by_cases hzero : (s.pages f).pinCount = 0
    · simp only [hzero, if_true, Prod.mk.injEq] at h
      rw [← h.2]
      simp [hzero, setPage]
    · by_cases hone : (s.pages f).pinCount = 1
      · simp only [hone, Nat.one_ne_zero, if_false, Nat.sub_self, if_true, Prod.mk.injEq] at h
        rw [← h.2]
        simp [hone, setPage]
      · have hsub : ¬(s.pages f).pinCount - 1 = 0 := by omega
        simp only [hzero, hsub, if_false, Prod.mk.injEq] at h
        rw [← h.2]
        simp [hone, setPage]

theorem unpinPage_diskManager (s : BufferPoolManager n D) (p : PageId) (isDirty : Bool) :
    (s.unpinPage p isDirty).2.diskManager = s.diskManager := by
  rcases hu : s.unpinPage p isDirty with ⟨done, s'⟩
  rcases unpinPage_inversion hu with ⟨_, rfl⟩ | ⟨_, _, rfl⟩
  · rfl
  · rfl

theorem unpinPage_pageTable (s : BufferPoolManager n D) (p : PageId) (isDirty : Bool) :
    (s.unpinPage p isDirty).2.pageTable = s.pageTable := by
  rcases hu : s.unpinPage p isDirty with ⟨done, s'⟩
  rcases unpinPage_inversion hu with ⟨_, rfl⟩ | ⟨_, _, rfl⟩
  · rfl
  · rfl

/-! ## Preservation -/

/-- A frame was picked and page `p` put in it. -/
theorem FrameInv.load (hinv : FrameInv s) (page : Page) (hpick : s.pickFrame = some (f, s₁))
    (hp : p ≠ INVALID_PAGE_ID) (hnew : ∀ g, s.pageTable.lookup p = some g → g = f)
    (hpages : s'.pages = Function.update s.pages f page) (hid : page.pageId = p)
    (hpin : page.pinCount = (s.pages f).pinCount + 1)
    (htable : s'.pageTable = (s.pageTable.erase (s.pages f).pageId).insert p f)
    (hfree : s'.freeList = s₁.freeList) (hrep : s'.replacer.frames = s₁.replacer.frames) :
    FrameInv s' := by
  -- The picked frame has left both queues, so its new status is that of a pinned frame.
  rcases hinv.pickFrame_counts hpick with ⟨hfree₀, hrep₀, hother⟩
  have hself : s'.pages f = page := by rw [hpages, Function.update_self]
  have hne : ∀ g, g ≠ f → s'.pages g = s.pages g := by
    intro g hg
    rw [hpages, Function.update_of_ne hg]
  refine ⟨classes_update (c := .pinned) hinv f ⟨0, 0, p, (s.pages f).pinCount + 1⟩
    ⟨rfl, rfl, hp, Nat.succ_pos _⟩ ?_, ?_⟩
  · funext g
    by_cases hg : g = f
    · subst hg
      simp [status, hfree, hrep, hfree₀, hrep₀, hself, hid, hpin]
    · rcases hother g hg with ⟨h1, h2⟩
      simp [status, hfree, hrep, h1, h2, hne g hg, Function.update_of_ne hg]
  · refine hinv.tableInv.load hp hnew (fun g hg => by rw [hne g hg]) ?_ htable
    rw [hself, hid]

/-- The queues and the headers stay as they are. -/
theorem FrameInv.congr (hinv : FrameInv s) (hfree : s'.freeList = s.freeList)
    (hrep : s'.replacer = s.replacer) (htable : s'.pageTable = s.pageTable)
    (hpages : ∀ g, (s'.pages g).pageId = (s.pages g).pageId ∧
      (s'.pages g).pinCount = (s.pages g).pinCount) : FrameInv s' := by
  have hstatus : s'.status = s.status := by
    funext g
    simp [status, hfree, hrep, hpages g]
  refine ⟨fun g => ?_, fun p g => ?_⟩
  · rw [hstatus]
    exact hinv.classes g
  · rw [htable, (hpages g).1]
    exact hinv.table p g

/-- Pinning a resident page takes its frame out of the replacer. -/
theorem FrameInv.pin (hinv : FrameInv s) (hl : s.pageTable.lookup p = some f) :
    FrameInv { s with
      pages := Function.update s.pages f { s.pages f with pinCount := (s.pages f).pinCount + 1 }
      replacer := s.replacer.pin f } := by
  have hid := (hinv.pageId hl).2
  have hvalid : (s.pages f).pageId ≠ INVALID_PAGE_ID := by
    rw [hid]
    exact (hinv.pageId hl).1
  have hfree : s.freeList.count f = 0 := by
    rcases hinv.resident_class hvalid with hc | hc
    · exact hc.1
    · exact hc.1
  refine ⟨classes_update (c := .pinned) hinv f
    ⟨0, 0, (s.pages f).pageId, (s.pages f).pinCount + 1⟩
    ⟨rfl, rfl, hvalid, Nat.succ_pos _⟩ ?_, fun q g => ?_⟩
  · funext g
    by_cases hg : g = f
    · subst hg
      have hle := count_frames_le s g
      have hgone : (s.replacer.pin g).frames.count g = 0 := by
        rw [LRUReplacer.frames_pin, List.count_erase_self]
        omega
      simp [status, hfree, hgone]
    · simp [status, LRUReplacer.frames_pin, List.count_erase_of_ne hg, Function.update_of_ne hg]
  · rw [hinv.table q g]
    simp only [field_update Page.pageId]

/-- Unpinning a resident page puts its frame in the replacer when nobody holds it any more. -/
theorem FrameInv.unpin (hinv : FrameInv s) (hl : s.pageTable.lookup p = some f) (isDirty : Bool) :
    FrameInv { s with
      pages := Function.update s.pages f
        { s.pages f with isDirty := isDirty, pinCount := (s.pages f).pinCount - 1 }
      replacer := if (s.pages f).pinCount = 1 then s.replacer.unpin f else s.replacer } := by
  have hid := (hinv.pageId hl).2
  have hvalid : (s.pages f).pageId ≠ INVALID_PAGE_ID := by
    rw [hid]
    exact (hinv.pageId hl).1
  have hothers : ∀ g, g ≠ f → (s.replacer.unpin f).frames.count g = s.replacer.frames.count g := by
    intro g hg
    rw [LRUReplacer.frames_unpin]
    split
    · rfl
    · rw [List.count_append, List.count_singleton]
      simp [Ne.symm hg]
  have htable : ∀ (page : Page), page.pageId = (s.pages f).pageId → ∀ q g,
      s.pageTable.lookup q = some g ↔
        q ≠ INVALID_PAGE_ID ∧ (Function.update s.pages f page g).pageId = q := by
    intro page hpage q g
    rw [hinv.table q g, field_update Page.pageId hpage]
  rcases hinv.resident_class hvalid with hc | hc
  · -- Already unpinned: only the dirty flag can change.
    simp only [Status.InClass, status] at hc
    refine ⟨classes_update (c := .evictable) hinv f (s.status f)
      ⟨hc.1, hc.2.1, hc.2.2.1, hc.2.2.2⟩ ?_, htable _ rfl⟩
    funext g
    by_cases hg : g = f
    · subst hg
      simp [status, hc.2.2.2]
    · simp [status, hc.2.2.2, Function.update_of_ne hg]
  · simp only [Status.InClass, status] at hc
    by_cases hone : (s.pages f).pinCount = 1
    · -- The last pin.
      have hnot : f ∉ s.replacer.frames := List.count_eq_zero.mp hc.2.1
      have hcount : (s.replacer.unpin f).frames.count f = 1 := by
        rw [LRUReplacer.frames_unpin, if_neg hnot, List.count_append, hc.2.1]
        simp
      refine ⟨classes_update (c := .evictable) hinv f ⟨0, 1, (s.pages f).pageId, 0⟩
        ⟨rfl, rfl, hvalid, rfl⟩ ?_, htable _ rfl⟩
      funext g
      by_cases hg : g = f
      · subst hg
        simp [status, hone, hcount, hc.1]
      · simp [status, hone, hothers g hg, Function.update_of_ne hg]
    · refine ⟨classes_update (c := .pinned) hinv f
        ⟨0, 0, (s.pages f).pageId, (s.pages f).pinCount - 1⟩
        ⟨rfl, rfl, hvalid, by simp only; omega⟩ ?_, htable _ rfl⟩
      funext g
      by_cases hg : g = f
      · subst hg
        simp [status, hone, hc.1, hc.2.1]
      · simp [status, hone, Function.update_of_ne hg]

/-- What a call must respect for the frame invariant to survive it: `DeletePage` is not given an
unpinned resident page, and `NewPage` is not called while the page the disk hands out next is
resident in a frame other than the one picked. -/
def Careful [Disk D] (s : BufferPoolManager n D) : Event n → Prop
  | .deletePage p _ => ∀ f, s.pageTable.lookup p = some f → (s.pages f).pinCount ≠ 0
  | .newPage _ => ∀ f s₁ q dm g, s.pickFrame = some (f, s₁) →
      Disk.allocatePage s.diskManager = .ok (q, dm) → s.pageTable.lookup q = some g → g = f
  | _ => True

/-- A deleted frame is on the free list and still in the replacer. -/
theorem FrameInv.deletePage_breaks (hinv : FrameInv s) (hl : s.pageTable.lookup p = some f)
    (hpin : (s.pages f).pinCount = 0) (hfree : f ∈ s'.freeList)
    (hrep : s'.replacer = s.replacer) : ¬FrameInv s' := by
  intro hinv'
  have hid := hinv.pageId hl
  -- Resident and not pinned: the frame was evictable.
  have hevict : s.replacer.frames.count f = 1 := by
    rcases hinv.resident_class (by rw [hid.2]; exact hid.1) with hc | hc
    · exact hc.2.1
    · simp only [Status.InClass, status] at hc
      omega
  have hpos : 0 < s'.freeList.count f := List.count_pos_iff.mpr hfree
  rcases hinv'.inClass f with hc | hc | hc
  · simp only [Status.InClass, status, hrep] at hc
    omega
  · simp only [Status.InClass, status] at hc
    omega
  · simp only [Status.InClass, status] at hc
    omega

/-- In a state with the invariant, the next call keeps it exactly when it is careful. -/
theorem Step.frameInv_iff_careful [Disk D] {e : Event n} (hstep : Step s e s') (hinv : FrameInv s)
    (hvalid : ∀ q dm, Disk.allocatePage s.diskManager = .ok (q, dm) → q ≠ INVALID_PAGE_ID) :
    FrameInv s' ↔ Careful s e := by
  cases e with
  | fetchPage p r =>
      refine iff_of_true ?_ trivial
      rcases fetchPage_cases hstep with ⟨_, rfl⟩ | ⟨f, _, hl, rfl⟩ |
        ⟨f, s₁, dm, data, dm', _, hnone, hpick, _, hread, rfl⟩
      · exact hinv
      · exact hinv.pin hl
      · have hp : p ≠ INVALID_PAGE_ID := ne_INVALID_of_nonneg (Disk.readPage_nonneg hread)
        refine hinv.load _ hpick hp (fun g hg => ?_) rfl rfl rfl rfl rfl ?_
        · rw [hnone] at hg
          simp at hg
        · have hnot : f ∉ s₁.replacer.frames :=
            List.count_eq_zero.mp (hinv.pickFrame_counts hpick).2.1
          simp [LRUReplacer.frames_pin, List.erase_of_not_mem hnot]
  | newPage r =>
      rcases newPage_cases hstep with ⟨rfl, hs'⟩ |
        ⟨q, f, s₁, dm₁, dm₂, rfl, hpick, halloc, hwrite, hs'⟩
      · refine iff_of_true (hs' ▸ hinv) ?_
        intro f s₁ q dm g hpick halloc
        -- `NewPage` returned null, so every frame is pinned and none can be picked.
        have hall : ∀ f, (s.pages f).pinCount ≠ 0 := by
          by_contra hex
          simp only [Step, newPage, hex, if_false, hpick] at hstep
          rcases bind_eq_ok.mp hstep with ⟨⟨_, _⟩, _, hstep⟩
          rcases bind_eq_ok.mp hstep with ⟨_, _, hstep⟩
          simp at hstep
        exact absurd (hinv.pickFrame_unpinned hpick) (hall f)
      · constructor
        · intro hinv' f' s₁' q' dm' g hpick' halloc' hl
          rw [hpick] at hpick'
          rw [halloc] at halloc'
          simp only [Option.some.injEq, Prod.mk.injEq] at hpick'
          simp only [Except.ok.injEq, Prod.mk.injEq] at halloc'
          rcases hpick' with ⟨rfl, rfl⟩
          rcases halloc' with ⟨rfl, rfl⟩
          -- Otherwise the frames `f` and `g` both hold `q` afterwards.
          by_contra hne
          have hid := hinv.pageId hl
          refine hne (hinv'.inj hid.1 ?_ ?_)
          · rw [hs']
            simp [Function.update_of_ne hne, hid.2]
          · rw [hs']
            simp
        · intro hcareful
          refine hinv.load ⟨Buf.zero PAGE_SIZE, q, (s.pages f).pinCount + 1, false⟩ hpick
            (hvalid q dm₁ halloc)
            (fun g hg => hcareful f s₁ q dm₁ g hpick halloc hg) ?_ rfl rfl ?_ ?_ ?_
          · rw [hs']
          · rw [hs']
          · rw [hs']
          · rw [hs']
  | unpinPage p isDirty r =>
      refine iff_of_true ?_ trivial
      rcases unpinPage_inversion hstep with ⟨_, rfl⟩ | ⟨f, hl, rfl⟩
      · exact hinv
      · exact hinv.unpin hl _
  | flushPage p r =>
      refine iff_of_true ?_ trivial
      rcases flushPage_cases hstep with ⟨_, rfl⟩ | ⟨f, dm, _, _, rfl⟩
      · exact hinv
      · exact hinv.congr rfl rfl rfl fun g =>
          ⟨field_update Page.pageId (by rfl) g, field_update Page.pinCount (by rfl) g⟩
  | deletePage p r =>
      rcases deletePage_cases hstep with ⟨dm, _, h⟩
      rcases h with ⟨hnone, _, rfl⟩ | ⟨f, hl, ⟨hpin, _, rfl⟩ | ⟨hpin, _, hs'⟩⟩
      · refine iff_of_true (hinv.congr rfl rfl rfl fun _ => ⟨rfl, rfl⟩) ?_
        intro f hl
        rw [hnone] at hl
        simp at hl
      · refine iff_of_true (hinv.congr rfl rfl rfl fun _ => ⟨rfl, rfl⟩) ?_
        intro g hg
        rw [hl] at hg
        exact Option.some.inj hg ▸ hpin
      · refine iff_of_false (hinv.deletePage_breaks hl hpin ?_ ?_) (fun hc => hc f hl hpin)
        · rw [hs']
          simp
        · rw [hs']
  | write f p data =>
      refine iff_of_true ?_ trivial
      rcases hstep with ⟨_, rfl⟩
      exact hinv.congr rfl rfl rfl fun g =>
        ⟨field_update Page.pageId (by rfl) g, field_update Page.pinCount (by rfl) g⟩

theorem unpinPage_of_lookup (hl : s.pageTable.lookup p = some f) (isDirty : Bool) :
    ∃ done, s.unpinPage p isDirty = (done, { s with
      pages := Function.update s.pages f
        { s.pages f with
          isDirty := (s.pages f).isDirty || isDirty
          pinCount := (s.pages f).pinCount - 1 }
      replacer := if (s.pages f).pinCount = 1 then s.replacer.unpin f else s.replacer }) := by
  rcases hu : s.unpinPage p isDirty with ⟨done, s'⟩
  rcases unpinPage_inversion hu with ⟨hnone, _⟩ | ⟨g, hg, rfl⟩
  · rw [hl] at hnone
    simp at hnone
  · rw [hl] at hg
    rw [Option.some.inj hg]
    exact ⟨done, rfl⟩

/-! ## On the map of pages -/

section DiskManager

variable {s s' s₁ : BufferPoolManager n}

theorem fetchPage_inversion {r : Option (Fin n)} (h : s.fetchPage p = .ok (r, s')) :
    (r = none ∧ s' = s) ∨
      (∃ f, r = some f ∧ s.pageTable.lookup p = some f ∧ s' = { s with
        pages := Function.update s.pages f { s.pages f with pinCount := (s.pages f).pinCount + 1 }
        replacer := s.replacer.pin f }) ∨
      ∃ f s₁ dm, r = some f ∧ s.pageTable.lookup p = none ∧ s.pickFrame = some (f, s₁) ∧
        writeBack (s.pages f) (s.pages f).data s.diskManager = .ok dm ∧ 0 ≤ p.toInt ∧
        s' =
          { pages := Function.update s.pages f
              { data := dm.file (DiskManager.mapPageId p), pageId := p
                pinCount := (s.pages f).pinCount + 1, isDirty := false }
            pageTable := (s.pageTable.erase (s.pages f).pageId).insert p f
            replacer := s₁.replacer.pin f
            freeList := s₁.freeList
            diskManager := dm } := by
  rcases fetchPage_cases h with hnull | hresident | ⟨f, s₁, dm, data, dm', hr, hnone, hpick, hwrite,
    hread, hs'⟩
  · exact Or.inl hnull
  · exact Or.inr (Or.inl hresident)
  · rcases DiskManager.read_eq_ok.mp hread with ⟨hpos, rfl, rfl⟩
    exact Or.inr (Or.inr ⟨f, s₁, dm', hr, hnone, hpick, hwrite, hpos, hs'⟩)

theorem newPage_inversion {r : Option (PageId × Fin n)} (h : s.newPage = .ok (r, s')) :
    (r = none ∧ s' = s) ∨
      ∃ q f s₁ dm₁ dm₂, r = some (q, f) ∧ s.pickFrame = some (f, s₁) ∧
        s.diskManager.allocatePage = .ok (q, dm₁) ∧
        writeBack (s.pages f) (Buf.zero PAGE_SIZE) dm₁ = .ok dm₂ ∧
        s' =
          { pages := Function.update s.pages f
              { data := Buf.zero PAGE_SIZE, pageId := q
                pinCount := (s.pages f).pinCount + 1, isDirty := false }
            pageTable := (s.pageTable.erase (s.pages f).pageId).insert q f
            replacer := s₁.replacer
            freeList := s₁.freeList
            diskManager := dm₂ } :=
  newPage_cases h

theorem deletePage_inversion {r : Bool} (h : s.deletePage p = .ok (r, s')) :
    ∃ dm, s.diskManager.deAllocatePage p = .ok dm ∧
      ((s.pageTable.lookup p = none ∧ r = true ∧ s' = { s with diskManager := dm }) ∨
        ∃ f, s.pageTable.lookup p = some f ∧
          (((s.pages f).pinCount ≠ 0 ∧ r = false ∧ s' = { s with diskManager := dm }) ∨
            ((s.pages f).pinCount = 0 ∧ r = true ∧ s' =
              { s with
                pages := Function.update s.pages f
                  { s.pages f with pageId := INVALID_PAGE_ID, pinCount := 0, isDirty := false }
                pageTable := s.pageTable.erase p
                freeList := s.freeList ++ [f]
                diskManager := dm }))) :=
  deletePage_cases h

theorem flushPage_inversion {r : Bool} (h : s.flushPage p = .ok (r, s')) :
    (s.pageTable.lookup p = none ∧ s' = s) ∨
      ∃ f dm, s.pageTable.lookup p = some f ∧
        s.diskManager.writePage p (s.pages f).data = .ok dm ∧
        s' = { s with
          pages := Function.update s.pages f { s.pages f with isDirty := false }
          diskManager := dm } :=
  flushPage_cases h

theorem writeBack_inv {page : Page} {data : PageData} {dm dm' : DiskManager}
    (h : writeBack page data dm = .ok dm') (hinv : DiskManager.Inv dm) : DiskManager.Inv dm' := by
  unfold writeBack at h
  split at h
  · exact DiskManager.writePage_inv h hinv
  · exact Except.ok.inj h ▸ hinv

theorem Step.diskInv {e : Event n} (hstep : Step s e s')
    (hinv : DiskManager.Inv s.diskManager) : DiskManager.Inv s'.diskManager := by
  cases e with
  | fetchPage p r =>
      rcases fetchPage_inversion hstep with ⟨_, rfl⟩ | ⟨f, _, _, rfl⟩ |
        ⟨f, s₁, dm, _, _, _, hwrite, _, rfl⟩
      · exact hinv
      · exact hinv
      · exact writeBack_inv hwrite hinv
  | newPage r =>
      rcases newPage_inversion hstep with ⟨_, rfl⟩ | ⟨q, f, s₁, dm₁, dm₂, _, _, halloc, hwrite, rfl⟩
      · exact hinv
      · rcases hinv.allocatePage_cases halloc with ⟨k, o, _, ha⟩
        exact writeBack_inv hwrite (ha.inv hinv)
  | unpinPage p isDirty r =>
      rcases unpinPage_inversion hstep with ⟨_, rfl⟩ | ⟨f, _, rfl⟩
      · exact hinv
      · exact hinv
  | flushPage p r =>
      rcases flushPage_inversion hstep with ⟨_, rfl⟩ | ⟨f, dm, _, hwrite, rfl⟩
      · exact hinv
      · exact DiskManager.writePage_inv hwrite hinv
  | deletePage p r =>
      rcases deletePage_inversion hstep with ⟨dm, hfree, h⟩
      have hdm : DiskManager.Inv dm := DiskManager.deAllocatePage_inv hfree hinv
      rcases h with ⟨_, _, rfl⟩ | ⟨f, _, ⟨_, _, rfl⟩ | ⟨_, _, rfl⟩⟩
      · exact hdm
      · exact hdm
      · exact hdm
  | write f p data =>
      rcases hstep with ⟨_, rfl⟩
      exact hinv

/-- The frame invariant on the map of pages: every id the disk hands out is a page id. -/
theorem Step.frameInv_iff {e : Event n} (hstep : Step s e s') (hinv : FrameInv s)
    (hdisk : DiskManager.Inv s.diskManager) : FrameInv s' ↔ Careful s e :=
  hstep.frameInv_iff_careful hinv fun _ _ halloc =>
    ne_INVALID_of_nonneg (hdisk.takesLowest halloc).valid.1

/-! ## Runs -/

def CarefulStep (s : BufferPoolManager n) (e : Event n) (s' : BufferPoolManager n) : Prop :=
  Careful s e ∧ Step s e s'

theorem run_frameInv {es : List (Event n)} (hrun : Run CarefulStep s es s') (hinv : FrameInv s)
    (hdisk : DiskManager.Inv s.diskManager) :
    FrameInv s' ∧ DiskManager.Inv s'.diskManager := by
  refine hrun.invariant (P := fun s => FrameInv s ∧ DiskManager.Inv s.diskManager) ?_
    ⟨hinv, hdisk⟩
  rintro s₀ e s₁ ⟨hinv₀, hdisk₀⟩ ⟨hcareful, hstep⟩
  exact ⟨(hstep.frameInv_iff hinv₀ hdisk₀).mpr hcareful, hstep.diskInv hdisk₀⟩

/-- Every pool reached by careful calls keeps each frame in one class and never picks a pinned
frame, and its next call keeps this exactly when it is careful. -/
theorem frames_of_careful_run {ds : List DiskManager.Event} {dm : DiskManager}
    (hdisk : Run DiskManager.Step DiskManager.fresh ds dm) {es : List (Event n)}
    (hrun : Run CarefulStep (init n dm) es s) :
    FrameInv s ∧ (∀ f s₁, s.pickFrame = some (f, s₁) → (s.pages f).pinCount = 0) ∧
      ∀ e s', Step s e s' → (FrameInv s' ↔ Careful s e) := by
  have hdm := (DiskManager.run_represents hdisk).inv
  rcases run_frameInv hrun (init_frameInv n dm) hdm with ⟨hinv, hdisk'⟩
  exact ⟨hinv, fun _ _ hpick => hinv.pickFrame_unpinned hpick,
    fun _ _ hstep => hstep.frameInv_iff hinv hdisk'⟩

/-- `NewPage` with a frame on the free list. -/
theorem newPage_of_free {rest : List (Fin n)} {q : PageId} {dm : DiskManager}
    (hfree : s.freeList = f :: rest) (hpin : (s.pages f).pinCount = 0)
    (hclean : (s.pages f).isDirty = false) (halloc : s.diskManager.allocatePage = .ok (q, dm)) :
    s.newPage = .ok (some (q, f),
      { pages := Function.update s.pages f
          { data := Buf.zero PAGE_SIZE, pageId := q, pinCount := 1, isDirty := false }
        pageTable := (s.pageTable.erase (s.pages f).pageId).insert q f
        replacer := s.replacer
        freeList := rest
        diskManager := dm }) := by
  have hsome : ¬∀ g, (s.pages g).pinCount ≠ 0 := fun hall => hall f hpin
  have hpick : s.pickFrame = some (f, { s with freeList := rest }) := by
    simp [pickFrame, hfree]
  simp [newPage, hsome, hpick, halloc, writeBack, hclean, hpin]

theorem deletePage_ok (hinv : DiskManager.Inv s.diskManager) (hp : 0 ≤ p.toInt) :
    ∃ r s', s.deletePage p = .ok (r, s') := by
  rcases hinv.freesOnly hp with ⟨dm, hfree, _⟩
  simp only [deletePage, Disk.deAllocatePage_eq, hfree, ok_bind]
  split
  · exact ⟨_, _, rfl⟩
  · split
    · exact ⟨_, _, rfl⟩
    · exact ⟨_, _, rfl⟩

/-- The first page of a one-frame pool on a new file. -/
theorem first_newPage : ∃ s : BufferPoolManager 1,
    (init 1 DiskManager.fresh).newPage = .ok (some (0, 0), s) ∧
      s.pageTable.lookup 0 = some 0 ∧
      s.pages 0 = { data := Buf.zero PAGE_SIZE, pageId := 0, pinCount := 1, isDirty := false } ∧
      DiskManager.Dense s.diskManager 1 := by
  rcases DiskManager.fresh_dense.allocatePage_ok (by decide) with ⟨dm, halloc, hdense⟩
  refine ⟨_, newPage_of_free (f := 0) rfl rfl rfl halloc, ?_, ?_, hdense⟩
  · simp
  · simp

/-- The calls that fetch only pages that are allocated on disk. -/
def FetchesAllocated (s : BufferPoolManager n) : Event n → Prop
  | .fetchPage p _ => s.isPageFree p = false
  | _ => True

/-- A page is made, unpinned and deleted: its frame is on the free list and in the replacer. -/
theorem deleted_frame_stays_evictable :
    ¬∀ n (es : List (Event n)) s,
      Run (fun s e s' => FetchesAllocated s e ∧ Step s e s') (init n DiskManager.fresh) es s →
      FrameInv s := by
  intro hall
  rcases first_newPage with ⟨s₁, hnew, hl, hpage, _⟩
  rcases unpinPage_of_lookup hl false with ⟨done, hunpin⟩
  set s₂ : BufferPoolManager 1 := { s₁ with
    pages := Function.update s₁.pages 0
      { s₁.pages 0 with
        isDirty := (s₁.pages 0).isDirty || false
        pinCount := (s₁.pages 0).pinCount - 1 }
    replacer := if (s₁.pages 0).pinCount = 1 then s₁.replacer.unpin 0 else s₁.replacer } with hs₂
  have hstep₁ : Step (init 1 DiskManager.fresh) (.newPage (some (0, 0))) s₁ := hnew
  have hstep₂ : Step s₁ (.unpinPage 0 false done) s₂ := hunpin
  have hdisk₂ := hstep₂.diskInv (hstep₁.diskInv DiskManager.fresh_inv)
  rcases deletePage_ok (p := 0) hdisk₂ (by decide) with ⟨r, s₃, hdelete⟩
  have hstep₃ : Step s₂ (.deletePage 0 r) s₃ := hdelete
  have hrun₂ : Run (fun s e s' => FetchesAllocated s e ∧ Step s e s')
      (init 1 DiskManager.fresh) [.newPage (some (0, 0)), .unpinPage 0 false done] s₂ :=
    Run.cons ⟨trivial, hstep₁⟩ (Run.cons ⟨trivial, hstep₂⟩ (Run.nil _))
  have hrun₃ : Run (fun s e s' => FetchesAllocated s e ∧ Step s e s')
      (init 1 DiskManager.fresh)
      [.newPage (some (0, 0)), .unpinPage 0 false done, .deletePage 0 r] s₃ :=
    Run.cons ⟨trivial, hstep₁⟩ (Run.cons ⟨trivial, hstep₂⟩ (Run.cons ⟨trivial, hstep₃⟩ (Run.nil _)))
  have hcareful := (hstep₃.frameInv_iff (hall _ _ _ hrun₂) hdisk₂).mp (hall _ _ _ hrun₃)
  exact hcareful 0 hl (by simp [hs₂, hpage])

/-- A careful run, with the page it makes still pinned. -/
theorem frames_of_careful_run_newPage :
    ∃ s : BufferPoolManager 1,
      Run CarefulStep (init 1 DiskManager.fresh) [.newPage (some (0, 0))] s ∧ FrameInv s := by
  rcases first_newPage with ⟨s, hnew, _⟩
  have hcareful : Careful (init 1 DiskManager.fresh) (.newPage (some (0, 0))) := by
    intro f s₁ q dm g _ _ hl
    simp [init] at hl
  have hrun : Run CarefulStep (init 1 DiskManager.fresh) [.newPage (some (0, 0))] s :=
    Run.cons ⟨hcareful, hnew⟩ (Run.nil _)
  exact ⟨s, hrun, (frames_of_careful_run (Run.nil _) hrun).1⟩

end DiskManager

end BufferPoolManager
end MiniSQL
