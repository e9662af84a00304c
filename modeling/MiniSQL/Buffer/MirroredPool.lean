import MiniSQL.Buffer.Frames

/-!
# MirroredPool — the pool on a file below 2 GiB

As long as the pages it is asked for and the pages the disk manager hands out lie below 2 GiB, the
pool on the bytes of the file does what the pool on the map of pages does: the same results, the
same frames, and a file that holds the pages of the map (`run_mirrors`).  So what is proved of the
pool on the map holds for the file in those runs.
-/

namespace MiniSQL

open Lib

variable {n : Nat} {pd pd' : PhysicalDisk} {dm dm' : DiskManager} {p q : PageId}
variable {pageData : PageData}

/-! ## The disk -/

namespace PhysicalDisk

/-- The bytes of the page, and of the bitmap of its extent, lie below 2 GiB. -/
def LowPage (p : PageId) : Prop :=
  0 ≤ p.toInt ∧ PhysicalFile.physicalPage p + 1 < 2 ^ 19

theorem LowPage.extent (h : LowPage p) : sizeT p / BITMAP_SIZE ≤ 16 := by
  have hlow := h.2
  simp only [PhysicalFile.physicalPage, BITMAP_SIZE] at hlow ⊢
  omega

theorem LowPage.valid (h : LowPage p) : PhysicalFile.ValidId p := by
  have hlow := h.2
  refine ⟨h.1, ?_⟩
  simp only [PhysicalFile.physicalPage, BITMAP_SIZE, MAX_VALID_PAGE_ID] at hlow ⊢
  omega

theorem Mirrors.readPage_of (h : Mirrors pd dm) (hlow : LowPage p)
    (hok : pd.readPage p = .ok (pageData, pd')) :
    dm.read p = .ok (pageData, dm) ∧ pd' = pd := by
  rw [h.readPage hlow.valid (lt_trans (Nat.lt_succ_self _) hlow.2)] at hok
  rcases hread : dm.readPage p with _ | d
  · rw [hread] at hok
    cases hok
  · rw [hread] at hok
    cases hok
    refine ⟨?_, rfl⟩
    rw [DiskManager.read, hread, ok_bind]

/-- `WritePage` asks only that the id is not negative. -/
theorem Mirrors.writePage_of (h : Mirrors pd dm) (hinv : DiskManager.Inv dm) (hlow : LowPage p)
    (hok : pd.writePage p pageData = .ok pd') :
    ∃ dm', dm.writePage p pageData = .ok dm' ∧ DiskManager.Inv dm' ∧ Mirrors pd' dm' := by
  have hwrite : ∃ dm', dm.writePage p pageData = .ok dm' := by
    simp only [DiskManager.writePage, hlow.1, decide_true, assert_true, ok_bind]
    exact ⟨_, rfl⟩
  rcases hwrite with ⟨dm', hwrite⟩
  have hstep : DiskManager.Step dm (.writePage p pageData) dm' := hwrite
  rcases h.step hinv hstep hlow.2 with ⟨pd'', hstep', h'⟩
  rw [Step, hok] at hstep'
  cases hstep'
  exact ⟨dm', hwrite, hstep.inv hinv, h'⟩

theorem Mirrors.allocatePage_of (h : Mirrors pd dm) (hinv : DiskManager.Inv dm)
    (hlow : ∀ q dm', dm.allocatePage = .ok (q, dm') → LowPage q)
    (hok : pd.allocatePage = .ok (p, pd')) :
    ∃ dm', dm.allocatePage = .ok (p, dm') ∧ DiskManager.Inv dm' ∧ Mirrors pd' dm' := by
  have halloc : ∃ q dm', dm.allocatePage = .ok (q, dm') := by
    by_cases hbound : 8 + 4 * DiskManager.findExtent dm.metaData.mem
        (DiskFileMetaPage.numExtents dm.metaData.mem) 0 + 4 ≤ PAGE_SIZE
    · simp only [DiskManager.allocatePage, hbound, if_true]
      split
      · exact ⟨_, _, rfl⟩
      · exact ⟨_, _, rfl⟩
    · -- The counter is past the end of the meta page for both.
      simp only [PhysicalDisk.allocatePage, h.metaData, hbound, if_false] at hok
      cases hok
  rcases halloc with ⟨q, dm', halloc⟩
  rcases h.allocatePage hinv halloc (hlow q dm' halloc).extent with ⟨pd'', hok', h'⟩
  rw [hok] at hok'
  cases hok'
  have hstep : DiskManager.Step dm (.allocatePage p) dm' := halloc
  exact ⟨dm', halloc, hstep.inv hinv, h'⟩

theorem Mirrors.deAllocatePage_of (h : Mirrors pd dm) (hinv : DiskManager.Inv dm)
    (hlow : LowPage p) (hok : pd.deAllocatePage p = .ok pd') :
    ∃ dm', dm.deAllocatePage p = .ok dm' ∧ DiskManager.Inv dm' ∧ Mirrors pd' dm' := by
  rcases hinv.freesOnly hlow.1 with ⟨dm', hfree, _⟩
  rcases h.deAllocatePage hlow.1 hfree hlow.extent with ⟨pd'', hok', h'⟩
  rw [hok] at hok'
  cases hok'
  exact ⟨dm', hfree, DiskManager.deAllocatePage_inv hfree hinv, h'⟩

end PhysicalDisk

namespace BufferPoolManager

open PhysicalDisk (LowPage)

variable {t : BufferPoolManager n} {s s' : BufferPoolManager n PhysicalDisk} {f : Fin n}

/-! ## The pool -/

/-- The pool over another disk. -/
def withDisk {D D' : Type} (s : BufferPoolManager n D) (d : D') : BufferPoolManager n D' :=
  { pages := s.pages
    pageTable := s.pageTable
    replacer := s.replacer
    freeList := s.freeList
    diskManager := d }

section

variable {D D' : Type} (u : BufferPoolManager n D) (d : D')

@[simp] theorem withDisk_pages : (u.withDisk d).pages = u.pages :=
  rfl

@[simp] theorem withDisk_pageTable : (u.withDisk d).pageTable = u.pageTable :=
  rfl

@[simp] theorem withDisk_diskManager : (u.withDisk d).diskManager = d :=
  rfl

theorem withDisk_pickFrame :
    (u.withDisk d).pickFrame = u.pickFrame.map fun (f, u₁) => (f, u₁.withDisk d) := by
  cases hfree : u.freeList with
  | nil =>
      cases hvictim : u.replacer.victim with
      | none => simp [pickFrame, withDisk, hfree, hvictim]
      | some v => simp [pickFrame, withDisk, hfree, hvictim]
  | cons f rest =>
      simp [pickFrame, withDisk, hfree]

/-- `UnpinPage` has nothing to do with the disk. -/
theorem withDisk_unpinPage (p : PageId) (isDirty : Bool) :
    (u.withDisk d).unpinPage p isDirty =
      ((u.unpinPage p isDirty).1, (u.unpinPage p isDirty).2.withDisk d) := by
  simp only [unpinPage, withDisk_pageTable, withDisk_pages]
  cases u.pageTable.lookup p with
  | none =>
      rfl
  | some f =>
      by_cases hzero : (u.pages f).pinCount = 0
      · simp only [hzero, if_true]
        rfl
      · by_cases hlast : (u.pages f).pinCount - 1 = 0
        · simp only [hzero, if_false, hlast, if_true]
          rfl
        · simp only [hzero, if_false, hlast]
          rfl

end

/-- The pools agree but for the disk, and the file holds the pages of the map. -/
structure Mirrors (s : BufferPoolManager n PhysicalDisk) (t : BufferPoolManager n) : Prop where
  pool : s = t.withDisk s.diskManager
  disk : PhysicalDisk.Mirrors s.diskManager t.diskManager
  inv : DiskManager.Inv t.diskManager
  low : ∀ f, (t.pages f).pageId = INVALID_PAGE_ID ∨ LowPage (t.pages f).pageId

/-- The call keeps to pages below 2 GiB. -/
def Low (t : BufferPoolManager n) : Event n → Prop
  | .fetchPage p _ => LowPage p
  | .newPage _ => ∀ q dm, t.diskManager.allocatePage = .ok (q, dm) → LowPage q
  | .flushPage p _ => LowPage p
  | .deletePage p _ => LowPage p
  | _ => True

theorem init_mirrors (n : Nat) :
    Mirrors (init n PhysicalDisk.fresh) (init n DiskManager.fresh) :=
  ⟨rfl, PhysicalDisk.fresh_mirrors, DiskManager.fresh_inv, fun _ => Or.inl rfl⟩

/-- Only a page with an id is ever written back. -/
theorem writeBack_of {page : Page} {data : PageData} (h : PhysicalDisk.Mirrors pd dm)
    (hinv : DiskManager.Inv dm) (hlow : page.pageId = INVALID_PAGE_ID ∨ LowPage page.pageId)
    (hok : writeBack page data pd = .ok pd') :
    ∃ dm', writeBack page data dm = .ok dm' ∧ DiskManager.Inv dm' ∧
      PhysicalDisk.Mirrors pd' dm' := by
  unfold writeBack at hok ⊢
  split at hok
  · rename_i hdirty
    rw [if_pos hdirty]
    rcases hlow with hid | hlow
    · rw [hid] at hok
      cases hok
    · exact h.writePage_of hinv hlow hok
  · rename_i hclean
    rw [if_neg hclean]
    cases hok
    exact ⟨dm, rfl, hinv, h⟩

/-- A frame gets another page, or the same one with other fields. -/
theorem low_update {pages : Fin n → Page} {page : Page}
    (hlow : ∀ f, (pages f).pageId = INVALID_PAGE_ID ∨ LowPage (pages f).pageId)
    (hpage : page.pageId = INVALID_PAGE_ID ∨ LowPage page.pageId) (g : Fin n) :
    (Function.update pages f page g).pageId = INVALID_PAGE_ID ∨
      LowPage (Function.update pages f page g).pageId := by
  by_cases hg : g = f
  · rw [hg, Function.update_self]
    exact hpage
  · rw [Function.update_of_ne hg]
    exact hlow g

theorem Mirrors.fetchPage {r : Option (Fin n)} (h : Mirrors s t) (hp : LowPage p)
    (hok : s.fetchPage p = .ok (r, s')) :
    ∃ t', t.fetchPage p = .ok (r, t') ∧ Mirrors s' t' := by
  rcases h with ⟨hpool, hdisk, hinv, hlow⟩
  rw [hpool] at hok
  simp only [BufferPoolManager.fetchPage, withDisk_pageTable, withDisk_pickFrame,
    withDisk_pages] at hok ⊢
  cases hl : t.pageTable.lookup p with
  | some f =>
      -- The page is resident: only its pin count and the replacer change.
      simp only [hl, Except.ok.injEq, Prod.mk.injEq] at hok ⊢
      rcases hok with ⟨rfl, rfl⟩
      exact ⟨_, ⟨rfl, rfl⟩, rfl, hdisk, hinv, low_update hlow (hlow f)⟩
  | none =>
      cases hpick : t.pickFrame with
      | none =>
          -- There is no frame for it, on either disk.
          simp only [hl, hpick, Option.map_none, Except.ok.injEq, Prod.mk.injEq] at hok ⊢
          rcases hok with ⟨rfl, rfl⟩
          exact ⟨_, ⟨rfl, rfl⟩, rfl, hdisk, hinv, hlow⟩
      | some c =>
          rcases c with ⟨f, t₁⟩
          rcases pickFrame_rest hpick with ⟨hpages, htable, hdm⟩
          simp only [hl, hpick, Option.map_some, withDisk_pages, withDisk_pageTable,
            withDisk_diskManager] at hok ⊢
          rcases bind_eq_ok.mp hok with ⟨pd₁, hwrite, hok⟩
          rcases bind_eq_ok.mp hok with ⟨⟨data, pd₂⟩, hread, hok⟩
          simp only [Except.ok.injEq, Prod.mk.injEq] at hok
          rcases hok with ⟨rfl, rfl⟩
          -- The page is written back, and the other one read, on both disks.
          have hlow₁ : ∀ g, (t₁.pages g).pageId = INVALID_PAGE_ID ∨
              LowPage (t₁.pages g).pageId := by
            rw [hpages]
            exact hlow
          rw [← hdm] at hdisk hinv
          rcases writeBack_of hdisk hinv (hlow₁ f) hwrite with ⟨dm₁, hwrite', hinv₁, hdisk₁⟩
          rcases hdisk₁.readPage_of hp hread with ⟨hread', rfl⟩
          simp only [hwrite', ok_bind, Disk.readPage_eq, hread', Except.ok.injEq, Prod.mk.injEq,
            true_and]
          exact ⟨_, rfl, rfl, hdisk₁, hinv₁, low_update hlow₁ (Or.inr hp)⟩

theorem Mirrors.newPage {r : Option (PageId × Fin n)} (h : Mirrors s t)
    (hp : ∀ q dm, t.diskManager.allocatePage = .ok (q, dm) → LowPage q)
    (hok : s.newPage = .ok (r, s')) : ∃ t', t.newPage = .ok (r, t') ∧ Mirrors s' t' := by
  rcases h with ⟨hpool, hdisk, hinv, hlow⟩
  rw [hpool] at hok
  simp only [BufferPoolManager.newPage, withDisk_pages, withDisk_pickFrame] at hok ⊢
  by_cases hall : ∀ f, (t.pages f).pinCount ≠ 0
  · rw [if_pos hall, Except.ok.injEq, Prod.mk.injEq] at hok
    rcases hok with ⟨rfl, rfl⟩
    exact ⟨t, if_pos hall, rfl, hdisk, hinv, hlow⟩
  · rw [if_neg hall] at hok
    simp only [if_neg hall]
    cases hpick : t.pickFrame with
    | none =>
        simp only [hpick, Option.map_none, Except.ok.injEq, Prod.mk.injEq] at hok ⊢
        rcases hok with ⟨rfl, rfl⟩
        exact ⟨_, ⟨rfl, rfl⟩, rfl, hdisk, hinv, hlow⟩
    | some c =>
        rcases c with ⟨f, t₁⟩
        rcases pickFrame_rest hpick with ⟨hpages, htable, hdm⟩
        simp only [hpick, Option.map_some, withDisk_pages, withDisk_pageTable,
          withDisk_diskManager] at hok ⊢
        rcases bind_eq_ok.mp hok with ⟨⟨q, pd₁⟩, halloc, hok⟩
        rcases bind_eq_ok.mp hok with ⟨pd₂, hwrite, hok⟩
        simp only [Except.ok.injEq, Prod.mk.injEq] at hok
        rcases hok with ⟨rfl, rfl⟩
        have hlow₁ : ∀ g, (t₁.pages g).pageId = INVALID_PAGE_ID ∨ LowPage (t₁.pages g).pageId := by
          rw [hpages]
          exact hlow
        rw [← hdm] at hdisk hinv hp
        -- Both disks hand out the same page, and both write zeros for the page that is evicted.
        rcases hdisk.allocatePage_of hinv hp halloc with ⟨dm₁, halloc', hinv₁, hdisk₁⟩
        rcases writeBack_of hdisk₁ hinv₁ (hlow₁ f) hwrite with ⟨dm₂, hwrite', hinv₂, hdisk₂⟩
        simp only [Disk.allocatePage_eq, halloc', ok_bind, hwrite', Except.ok.injEq, Prod.mk.injEq,
          true_and]
        exact ⟨_, rfl, rfl, hdisk₂, hinv₂, low_update hlow₁ (Or.inr (hp q dm₁ halloc'))⟩

theorem Mirrors.unpinPage {isDirty done : Bool} (h : Mirrors s t)
    (hok : s.unpinPage p isDirty = (done, s')) :
    ∃ t', t.unpinPage p isDirty = (done, t') ∧ Mirrors s' t' := by
  rcases h with ⟨hpool, hdisk, hinv, hlow⟩
  rw [hpool, withDisk_unpinPage] at hok
  rcases hu : t.unpinPage p isDirty with ⟨done', t'⟩
  rw [hu, Prod.mk.injEq] at hok
  rcases hok with ⟨rfl, rfl⟩
  rcases unpinPage_inversion hu with ⟨_, rfl⟩ | ⟨f, _, rfl⟩
  · exact ⟨t', rfl, rfl, hdisk, hinv, hlow⟩
  · exact ⟨_, rfl, rfl, hdisk, hinv, low_update hlow (hlow f)⟩

theorem Mirrors.flushPage {done : Bool} (h : Mirrors s t) (hp : LowPage p)
    (hok : s.flushPage p = .ok (done, s')) :
    ∃ t', t.flushPage p = .ok (done, t') ∧ Mirrors s' t' := by
  rcases h with ⟨hpool, hdisk, hinv, hlow⟩
  rw [hpool] at hok
  simp only [BufferPoolManager.flushPage, withDisk_pageTable, withDisk_pages,
    withDisk_diskManager] at hok ⊢
  cases hl : t.pageTable.lookup p with
  | none =>
      simp only [hl, Except.ok.injEq, Prod.mk.injEq] at hok ⊢
      rcases hok with ⟨rfl, rfl⟩
      exact ⟨_, ⟨rfl, rfl⟩, rfl, hdisk, hinv, hlow⟩
  | some f =>
      simp only [hl] at hok ⊢
      rcases bind_eq_ok.mp hok with ⟨pd₁, hwrite, hok⟩
      simp only [Except.ok.injEq, Prod.mk.injEq] at hok
      rcases hok with ⟨rfl, rfl⟩
      rcases hdisk.writePage_of hinv hp hwrite with ⟨dm₁, hwrite', hinv₁, hdisk₁⟩
      simp only [Disk.writePage_eq, hwrite', ok_bind, Except.ok.injEq, Prod.mk.injEq, true_and]
      exact ⟨_, rfl, rfl, hdisk₁, hinv₁, low_update hlow (hlow f)⟩

theorem Mirrors.deletePage {done : Bool} (h : Mirrors s t) (hp : LowPage p)
    (hok : s.deletePage p = .ok (done, s')) :
    ∃ t', t.deletePage p = .ok (done, t') ∧ Mirrors s' t' := by
  rcases h with ⟨hpool, hdisk, hinv, hlow⟩
  rw [hpool] at hok
  rcases deletePage_cases hok with ⟨pd₁, hfree, hcases⟩
  rcases hdisk.deAllocatePage_of hinv hp hfree with ⟨dm₁, hfree', hinv₁, hdisk₁⟩
  simp only [BufferPoolManager.deletePage, Disk.deAllocatePage_eq, hfree', ok_bind]
  -- Not resident, still pinned, or its frame becomes free.
  rcases hcases with ⟨hl, rfl, rfl⟩ | ⟨f, hl, ⟨hpin, rfl, rfl⟩ | ⟨hpin, rfl, rfl⟩⟩
  · rw [withDisk_pageTable] at hl
    simp only [hl]
    exact ⟨_, rfl, rfl, hdisk₁, hinv₁, hlow⟩
  · rw [withDisk_pageTable] at hl
    rw [withDisk_pages] at hpin
    simp only [hl]
    exact ⟨_, if_pos hpin, rfl, hdisk₁, hinv₁, hlow⟩
  · rw [withDisk_pageTable] at hl
    rw [withDisk_pages] at hpin
    simp only [hl]
    exact ⟨_, if_neg (not_not.mpr hpin), rfl, hdisk₁, hinv₁, low_update hlow (Or.inl rfl)⟩

theorem Mirrors.step {e : Event n} (h : Mirrors s t) (hstep : Step s e s') (hlow : Low t e) :
    ∃ t', Step t e t' ∧ Mirrors s' t' := by
  cases e with
  | fetchPage p r =>
      exact h.fetchPage hlow hstep
  | newPage r =>
      exact h.newPage hlow hstep
  | unpinPage p isDirty done =>
      exact h.unpinPage hstep
  | flushPage p done =>
      exact h.flushPage hlow hstep
  | deletePage p done =>
      exact h.deletePage hlow hstep
  | write f p data =>
      rcases hstep with ⟨hid, rfl⟩
      rcases h with ⟨hpool, hdisk, hinv, hall⟩
      rw [hpool] at hid ⊢
      exact ⟨t.write f data, ⟨hid, rfl⟩, rfl, hdisk, hinv, low_update hall (hall f)⟩

/-- What the pool does on the bytes of a new file it does on the map of pages too, as long as the
calls keep to pages below 2 GiB; and the file holds the pages of the map. -/
theorem run_mirrors {es : List (Event n)} (hrun : Run Step (init n PhysicalDisk.fresh) es s)
    (hlow : ∀ pre e post t, es = pre ++ e :: post → Run Step (init n DiskManager.fresh) pre t →
      Low t e) : ∃ t, Run Step (init n DiskManager.fresh) es t ∧ Mirrors s t :=
  hrun.follows (fun _ _ _ _ h hstep hlow => h.step hstep hlow) (init_mirrors n) hlow

end BufferPoolManager
end MiniSQL
