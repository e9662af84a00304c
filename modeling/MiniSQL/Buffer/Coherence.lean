import MiniSQL.Buffer.Frames

/-!
# Coherence — no write of a client is lost

A page's bytes live in its frame or on disk.  A `History` records, from the events alone, the last
bytes written to each page that came from `NewPage`, and which pages have been written without a
later `UnpinPage(…, true)`.  `Coherent` ties the pool to a history.
-/

namespace MiniSQL
namespace BufferPoolManager

open Lib

variable {n : Nat} {s s' : BufferPoolManager n} {f : Fin n} {p : PageId}

/-! ## What the disk stores for a page -/

/-- The bytes of a logical page on disk. -/
def stored (dm : DiskManager) (p : PageId) : PageData :=
  dm.file (DiskManager.mapPageId p)

theorem readPage_eq_stored {dm : DiskManager} (hp : 0 ≤ p.toInt) :
    dm.readPage p = .ok (stored dm p) := by
  simp [DiskManager.readPage, hp, stored, DiskManager.readPhysicalPage]

theorem read_eq_stored {dm : DiskManager} (hp : 0 ≤ p.toInt) :
    dm.read p = .ok (stored dm p, dm) := by
  rw [DiskManager.read, readPage_eq_stored hp]
  rfl

/-- A write is read back, and other pages keep their bytes. -/
theorem stored_writePage {dm dm' : DiskManager} {q : PageId} {data : PageData}
    (h : dm.writePage q data = .ok dm') (hp : 0 ≤ p.toInt) :
    0 ≤ q.toInt ∧ stored dm' p = if p = q then data else stored dm p := by
  rcases bind_eq_ok.mp h with ⟨_, hq, h⟩
  simp only [assert_eq_ok, decide_eq_true_eq] at hq
  refine ⟨hq, ?_⟩
  rw [← Except.ok.inj h]
  by_cases hpq : p = q
  · subst hpq
    simp [stored, DiskManager.writePhysicalPage]
  · have hne : DiskManager.mapPageId p ≠ DiskManager.mapPageId q := fun heq =>
      hpq (DiskManager.mapPageId_inj hp hq heq)
    simp [stored, DiskManager.writePhysicalPage, Function.update_of_ne hne, hpq]

theorem writePage_ok (dm : DiskManager) (data : PageData) (hp : 0 ≤ p.toInt) :
    ∃ dm', dm.writePage p data = .ok dm' := by
  refine ⟨dm.writePhysicalPage (DiskManager.mapPageId p) data, ?_⟩
  simp [DiskManager.writePage, hp]

theorem stored_writeBack {dm dm' : DiskManager} {page : Page} {data : PageData}
    (h : writeBack page data dm = .ok dm') (hp : 0 ≤ p.toInt) :
    stored dm' p = if page.isDirty = true ∧ p = page.pageId then data else stored dm p := by
  unfold writeBack at h
  split at h
  · rename_i hdirty
    rw [(stored_writePage h hp).2]
    simp [hdirty]
  · rename_i hclean
    rw [← Except.ok.inj h]
    simp [hclean]

/-- What the write-back of a frame leaves alone. -/
theorem TableInv.writeBack_others (htab : TableInv s) {dm dm' : DiskManager} {data : PageData}
    (hwrite : writeBack (s.pages f) data dm = .ok dm') (hp : 0 ≤ p.toInt)
    (hne : s.pageTable.lookup p ≠ some f) : stored dm' p = stored dm p := by
  rw [stored_writeBack hwrite hp, if_neg]
  rintro ⟨_, hid⟩
  exact hne ((htab.lookup_iff hp).mpr hid.symm)

/-- The allocator changes bitmap pages only. -/
theorem stored_allocatePage {dm dm' : DiskManager} {q : PageId} (hinv : DiskManager.Inv dm)
    (h : dm.allocatePage = .ok (q, dm')) (hp : 0 ≤ p.toInt) : stored dm' p = stored dm p := by
  rcases hinv.allocatePage_cases h with ⟨k, o, _, ha⟩
  exact ha.file_other _ (DiskManager.mapPageId_ne_bitmapAddr hp
    (DiskManager.EXTENT_BOUND_of_MAX ha.extent_lt))

theorem stored_deAllocatePage {dm dm' : DiskManager} {q : PageId} (hinv : DiskManager.Inv dm)
    (h : dm.deAllocatePage q = .ok dm') (hp : 0 ≤ p.toInt) : stored dm' p = stored dm p := by
  by_cases hq : 0 ≤ q.toInt
  · rcases hinv.freed_cases hq h with ⟨_, rfl⟩ | hf
    · rfl
    · exact hf.file_other _ (DiskManager.mapPageId_ne_bitmapAddr hp
        (DiskManager.extentIndex_lt hq))
  · rw [DiskManager.deAllocatePage_of_neg (by omega) h]

/-! ## Histories -/

/-- What the clients did: the last bytes of every page that came from `NewPage` and was not
deleted since, and the pages written without a later `UnpinPage` with `is_dirty = true`. -/
structure History where
  last : PageId → Option PageData
  pending : PageId → Bool

def History.start : History :=
  { last := fun _ => none, pending := fun _ => false }

def History.track (h : History) : Event n → History
  | .newPage (some (p, _)) =>
    { last := Function.update h.last p (some (Buf.zero PAGE_SIZE))
      pending := Function.update h.pending p false }
  | .write _ p data =>
    { last := Function.update h.last p ((h.last p).map fun _ => data)
      pending := Function.update h.pending p true }
  | .unpinPage p true _ => { h with pending := Function.update h.pending p false }
  | .deletePage p true => { h with last := Function.update h.last p none }
  | _ => h

/-- How clients behave: they write into frames they hold pinned, and a page written is not
released by its last holder before an `UnpinPage` with `is_dirty = true`. -/
def Client (s : BufferPoolManager n) (h : History) : Event n → Prop
  | .write f _ _ => 0 < (s.pages f).pinCount
  | .unpinPage p false _ =>
    ∀ f, s.pageTable.lookup p = some f → (s.pages f).pinCount = 1 → h.pending p = false
  | _ => True

def ClientStep (c : BufferPoolManager n × History) (e : Event n)
    (c' : BufferPoolManager n × History) : Prop :=
  Client c.1 c.2 e ∧ Step c.1 e c'.1 ∧ c'.2 = c.2.track e

/-- What a fetch returns and what the destructor leaves on disk, against the history. -/
structure NoLostWrite (s : BufferPoolManager n) (h : History) : Prop where
  fetched : ∀ p data f s', h.last p = some data → s.fetchPage p = .ok (some f, s') →
    (s'.pages f).data = data
  destroyed : ∀ order : List PageId, order.Perm s.pageTable.keys →
    ∃ s', s.destroy order = .ok s' ∧
      ∀ p data, h.last p = some data → s'.diskManager.readPage p = .ok data

/-! ## The coherence invariant -/

/-- Where the bytes of a page are. -/
structure Coherent (s : BufferPoolManager n) (h : History) : Prop where
  frames : FrameInv s
  disk : DiskManager.Inv s.diskManager
  resident_nonneg : ∀ p f, s.pageTable.lookup p = some f → 0 ≤ p.toInt
  known_nonneg : ∀ p data, h.last p = some data → 0 ≤ p.toInt
  pending_pinned : ∀ p, h.pending p = true →
    ∃ f, s.pageTable.lookup p = some f ∧ 0 < (s.pages f).pinCount
  in_frame : ∀ p data f, h.last p = some data → s.pageTable.lookup p = some f →
    (s.pages f).data = data ∧
      ((s.pages f).isDirty = false → h.pending p = false → stored s.diskManager p = data)
  on_disk : ∀ p data, h.last p = some data → s.pageTable.lookup p = none →
    stored s.diskManager p = data

theorem init_coherent (n : Nat) {dm : DiskManager} (hdm : DiskManager.Inv dm) :
    Coherent (init n dm) History.start := by
  refine ⟨init_frameInv n dm, hdm, ?_, ?_, ?_, ?_, ?_⟩
  · intro p f hl
    simp [init] at hl
  · intro p data hlast
    simp [History.start] at hlast
  · intro p hpend
    simp [History.start] at hpend
  · intro p data f hlast
    simp [History.start] at hlast
  · intro p data hlast
    simp [History.start] at hlast

/-- The condition under which nothing is lost: where `NewPage` takes a frame it is clean or holds
only zeros, and the page it gets is not resident and reads as zeros; and `DeletePage` is not given
an unpinned resident page. -/
def LossFree (s : BufferPoolManager n) : Event n → Prop
  | .deletePage p _ => ∀ f, s.pageTable.lookup p = some f → (s.pages f).pinCount ≠ 0
  | .newPage _ => ∀ f s₁, s.pickFrame = some (f, s₁) →
    ((s.pages f).isDirty = true → (s.pages f).data = Buf.zero PAGE_SIZE) ∧
    ∀ q dm, s.diskManager.allocatePage = .ok (q, dm) →
      s.pageTable.lookup q = none ∧ stored s.diskManager q = Buf.zero PAGE_SIZE
  | _ => True

theorem LossFree.careful {e : Event n} (h : LossFree s e) : Careful s e := by
  cases e with
  | deletePage p r =>
      exact h
  | newPage r =>
      intro f s₁ q dm g hpick halloc hl
      rw [((h f s₁ hpick).2 q dm halloc).1] at hl
      simp at hl
  | fetchPage p r => trivial
  | unpinPage p d r => trivial
  | flushPage p r => trivial
  | write f p data => trivial

/-! ## Preservation -/

/-- Page `p` is put in a picked frame `f`; the page that was there is safe on disk. -/
theorem Coherent.load {h h' : History} {page : Page} {s₁ : BufferPoolManager n}
    (hc : Coherent s h) (hpick : s.pickFrame = some (f, s₁)) (hframes : FrameInv s')
    (hdisk : DiskManager.Inv s'.diskManager)
    (hpages : s'.pages = Function.update s.pages f page)
    (htable : s'.pageTable = (s.pageTable.erase (s.pages f).pageId).insert p f)
    (hp : 0 ≤ p.toInt)
    (hkeep : ∀ q, 0 ≤ q.toInt → q ≠ (s.pages f).pageId →
      stored s'.diskManager q = stored s.diskManager q)
    (hevict : ∀ data, h.last (s.pages f).pageId = some data →
      s.pageTable.lookup (s.pages f).pageId = some f →
      stored s'.diskManager (s.pages f).pageId = data)
    (hlast : ∀ q, q ≠ p → h'.last q = h.last q)
    (hpend : ∀ q, q ≠ p → h'.pending q = h.pending q) (hpend' : h'.pending p = false)
    (hknown : ∀ data, h'.last p = some data →
      page.data = data ∧ stored s'.diskManager p = data) :
    Coherent s' h' := by
  have hunpinned := hc.frames.pickFrame_unpinned hpick
  have hself : s'.pages f = page := by rw [hpages, Function.update_self]
  have hother : ∀ g, g ≠ f → s'.pages g = s.pages g := by
    intro g hg
    rw [hpages, Function.update_of_ne hg]
  -- A page other than `p` that is resident afterwards was resident before, in a frame other
  -- than `f`.
  have hbefore : ∀ q g, q ≠ p → s'.pageTable.lookup q = some g →
      s.pageTable.lookup q = some g ∧ g ≠ f ∧ q ≠ (s.pages f).pageId := by
    intro q g hqp hl
    rw [lookup_load htable, if_neg hqp] at hl
    by_cases ho : q = (s.pages f).pageId
    · simp [ho] at hl
    · rw [if_neg ho] at hl
      refine ⟨hl, ?_, ho⟩
      rintro rfl
      exact ho (hc.frames.pageId hl).2.symm
  -- Each part splits on whether the page asked about is `p`, the page loaded.
  refine ⟨hframes, hdisk, ?_, ?_, ?_, ?_, ?_⟩
  · intro q g hl
    by_cases hqp : q = p
    · rw [hqp]
      exact hp
    · exact hc.resident_nonneg q g (hbefore q g hqp hl).1
  · intro q data hq
    by_cases hqp : q = p
    · rw [hqp]
      exact hp
    · rw [hlast q hqp] at hq
      exact hc.known_nonneg q data hq
  · intro q hq
    have hqp : q ≠ p := by
      rintro rfl
      rw [hpend'] at hq
      exact Bool.false_ne_true hq
    rw [hpend q hqp] at hq
    rcases hc.pending_pinned q hq with ⟨g, hl, hpin⟩
    -- A page with a write pending is pinned, so it is not the one evicted.
    have hgf : g ≠ f := by
      rintro rfl
      omega
    have hqo : q ≠ (s.pages f).pageId := by
      intro heq
      rcases hc.frames.pageId hl with ⟨hvalid, hid⟩
      exact hgf (hc.frames.inj hvalid hid heq.symm)
    refine ⟨g, ?_, ?_⟩
    · rw [lookup_load htable, if_neg hqp, if_neg hqo]
      exact hl
    · rw [hother g hgf]
      exact hpin
  · intro q data g hq hl
    by_cases hqp : q = p
    · subst hqp
      rw [lookup_load htable, if_pos rfl] at hl
      rw [← Option.some.inj hl, hself]
      exact ⟨(hknown data hq).1, fun _ _ => (hknown data hq).2⟩
    · rcases hbefore q g hqp hl with ⟨hl₀, hgf, hqo⟩
      rw [hlast q hqp] at hq
      rw [hother g hgf, hpend q hqp, hkeep q (hc.known_nonneg q data hq) hqo]
      exact hc.in_frame q data g hq hl₀
  · intro q data hq hl
    have hqp : q ≠ p := by
      rintro rfl
      rw [lookup_load htable, if_pos rfl] at hl
      simp at hl
    rw [hlast q hqp] at hq
    have hnonneg := hc.known_nonneg q data hq
    by_cases ho : q = (s.pages f).pageId
    · -- The page that was evicted.
      have hres := (hc.frames.tableInv.lookup_iff hnonneg).mpr ho.symm
      rw [ho] at hq hres ⊢
      exact hevict data hq hres
    · rw [lookup_load htable, if_neg hqp, if_neg ho] at hl
      rw [hkeep q hnonneg ho]
      exact hc.on_disk q data hq hl

/-- Bytes of an unpinned clean frame are also on disk. -/
theorem Coherent.clean_stored {h : History} (hc : Coherent s h) {data : PageData}
    (hpin : (s.pages f).pinCount = 0) (hlast : h.last p = some data)
    (hl : s.pageTable.lookup p = some f) (hclean : (s.pages f).isDirty = false) :
    stored s.diskManager p = data := by
  have hpend : h.pending p = false := by
    by_contra hne
    rcases hc.pending_pinned p (by simpa using hne) with ⟨g, hg, hpos⟩
    rw [hl] at hg
    rw [← Option.some.inj hg] at hpos
    omega
  exact (hc.in_frame p data f hlast hl).2 hclean hpend

theorem Coherent.fetchPage {h : History} (hc : Coherent s h) {r : Option (Fin n)}
    (hstep : s.fetchPage p = .ok (r, s')) : Coherent s' h := by
  have hs : Step s (.fetchPage p r) s' := hstep
  have hframes := (hs.frameInv_iff hc.frames hc.disk).mpr trivial
  have hdisk := hs.diskInv hc.disk
  rcases fetchPage_inversion hstep with ⟨_, rfl⟩ | ⟨f, _, hl, rfl⟩ |
    ⟨f, s₁, dm, _, hnone, hpick, hwrite, hp, rfl⟩
  · exact hc
  · -- The page is resident: only its pin count grows.
    set page : Page := { s.pages f with pinCount := (s.pages f).pinCount + 1 } with hpage
    have hdata : ∀ g, (Function.update s.pages f page g).data = (s.pages g).data :=
      field_update Page.data rfl
    have hdirty : ∀ g, (Function.update s.pages f page g).isDirty = (s.pages g).isDirty :=
      field_update Page.isDirty rfl
    have hpins : ∀ g, (s.pages g).pinCount ≤ (Function.update s.pages f page g).pinCount := by
      intro g
      by_cases hg : g = f
      · subst hg
        simp [hpage]
      · simp [Function.update_of_ne hg]
    refine ⟨hframes, hdisk, hc.resident_nonneg, hc.known_nonneg, ?_, ?_, hc.on_disk⟩
    · intro q hq
      rcases hc.pending_pinned q hq with ⟨g, hg, hpos⟩
      exact ⟨g, hg, lt_of_lt_of_le hpos (hpins g)⟩
    · intro q data g hq hg
      simp only [hdata g, hdirty g]
      exact hc.in_frame q data g hq hg
  · -- The page is read from disk into the frame picked.
    have hunpinned := hc.frames.pickFrame_unpinned hpick
    have hpend : h.pending p = false := by
      by_contra hne
      rcases hc.pending_pinned p (by simpa using hne) with ⟨g, hg, _⟩
      rw [hnone] at hg
      simp at hg
    have hpo := (hc.frames.tableInv.pageId_ne hp hnone f).symm
    refine hc.load hpick hframes hdisk rfl rfl hp ?_ ?_ (fun _ _ => rfl) (fun _ _ => rfl) hpend ?_
    · intro q hq hqo
      rw [stored_writeBack hwrite hq]
      simp [hqo]
    · -- The frame's own bytes are written back when it is dirty.
      intro data hlast hl
      rw [stored_writeBack hwrite (hc.known_nonneg _ data hlast)]
      by_cases hdirty : (s.pages f).isDirty = true
      · simp [hdirty, (hc.in_frame _ data f hlast hl).1]
      · simp only [hdirty, Bool.false_eq_true, false_and, if_false]
        exact hc.clean_stored hunpinned hlast hl (by simpa using hdirty)
    · intro data hlast
      have hst : stored dm p = data := by
        rw [stored_writeBack hwrite hp]
        simp only [hpo, and_false, if_false]
        exact hc.on_disk p data hlast hnone
      exact ⟨hst, hst⟩

theorem Coherent.newPage {h : History} (hc : Coherent s h) {r : Option (PageId × Fin n)}
    (hsafe : LossFree s (.newPage r)) (hstep : s.newPage = .ok (r, s')) :
    Coherent s' (h.track (.newPage r)) := by
  have hs : Step s (.newPage r) s' := hstep
  have hframes := (hs.frameInv_iff hc.frames hc.disk).mpr hsafe.careful
  have hdisk := hs.diskInv hc.disk
  rcases newPage_inversion hstep with ⟨rfl, rfl⟩ |
    ⟨q, f, s₁, dm₁, dm₂, rfl, hpick, halloc, hwrite, rfl⟩
  · exact hc
  · have hunpinned := hc.frames.pickFrame_unpinned hpick
    have hq := (hc.disk.takesLowest halloc).valid.1
    rcases hsafe f s₁ hpick with ⟨hclean, hfresh⟩
    rcases hfresh q dm₁ halloc with ⟨hnone, hzero⟩
    have hqo := (hc.frames.tableInv.pageId_ne hq hnone f).symm
    refine hc.load hpick hframes hdisk rfl rfl hq ?_ ?_ ?_ ?_ ?_ ?_
    · intro q' hq' hne
      rw [stored_writeBack hwrite hq', stored_allocatePage hc.disk halloc hq']
      simp [hne]
    · intro data hlast hl
      have hnonneg := hc.known_nonneg _ data hlast
      rw [stored_writeBack hwrite hnonneg, stored_allocatePage hc.disk halloc hnonneg]
      by_cases hdirty : (s.pages f).isDirty = true
      · -- Zeros are written over a frame that holds zeros.
        simp only [hdirty, and_self, if_true]
        rw [← hclean hdirty]
        exact (hc.in_frame _ data f hlast hl).1
      · simp only [hdirty, Bool.false_eq_true, false_and, if_false]
        exact hc.clean_stored hunpinned hlast hl (by simpa using hdirty)
    · intro q' hne
      simp [History.track, Function.update_of_ne hne]
    · intro q' hne
      simp [History.track, Function.update_of_ne hne]
    · simp [History.track]
    · intro data hlast
      simp only [History.track, Function.update_self, Option.some.injEq] at hlast
      refine ⟨hlast, ?_⟩
      rw [stored_writeBack hwrite hq, stored_allocatePage hc.disk halloc hq]
      simp only [hqo, and_false, if_false]
      rw [hzero, hlast]

theorem Coherent.unpinPage {h : History} (hc : Coherent s h) {isDirty r : Bool}
    (hclient : Client s h (.unpinPage p isDirty r)) (hstep : s.unpinPage p isDirty = (r, s')) :
    Coherent s' (h.track (.unpinPage (n := n) p isDirty r)) := by
  have hs : Step s (.unpinPage p isDirty r) s' := hstep
  have hframes := (hs.frameInv_iff hc.frames hc.disk).mpr trivial
  have hlast : (h.track (.unpinPage (n := n) p isDirty r)).last = h.last := by
    cases isDirty <;> rfl
  -- Only an unpin with `is_dirty = true` settles a pending write.
  have hpend : ∀ q, (h.track (.unpinPage (n := n) p isDirty r)).pending q =
      if isDirty = true ∧ q = p then false else h.pending q := by
    intro q
    cases isDirty with
    | false => simp [History.track]
    | true =>
        by_cases hq : q = p
        · simp [History.track, hq]
        · simp [History.track, hq]
  rcases unpinPage_inversion hstep with ⟨hnone, rfl⟩ | ⟨f, hl, rfl⟩
  · refine ⟨hframes, hc.disk, hc.resident_nonneg, ?_, ?_, ?_, ?_⟩
    · rw [hlast]
      exact hc.known_nonneg
    · intro q hq
      rw [hpend] at hq
      split at hq
      · simp at hq
      · exact hc.pending_pinned q hq
    · intro q data g hq hg
      rw [hlast] at hq
      refine ⟨(hc.in_frame q data g hq hg).1, fun hclean hpendq => ?_⟩
      have hqp : q ≠ p := by
        rintro rfl
        rw [hnone] at hg
        simp at hg
      rw [hpend, if_neg (by simp [hqp])] at hpendq
      exact (hc.in_frame q data g hq hg).2 hclean hpendq
    · rw [hlast]
      exact hc.on_disk
  · have hother : ∀ g, g ≠ f → Function.update s.pages f
        { s.pages f with
          isDirty := (s.pages f).isDirty || isDirty
          pinCount := (s.pages f).pinCount - 1 } g = s.pages g := by
      intro g hg
      rw [Function.update_of_ne hg]
    refine ⟨hframes, hc.disk, hc.resident_nonneg, ?_, ?_, ?_, ?_⟩
    · rw [hlast]
      exact hc.known_nonneg
    · intro q hq
      rw [hpend] at hq
      split at hq
      · simp at hq
      · rename_i hnot
        rcases hc.pending_pinned q hq with ⟨g, hg, hpos⟩
        refine ⟨g, hg, ?_⟩
        by_cases hgf : g = f
        · -- The page itself, written and unpinned with `false`: somebody else still holds it.
          subst hgf
          have hqp := hc.frames.tableInv.page_eq hl hg
          subst hqp
          have hfalse : isDirty = false := by
            cases isDirty with
            | false => rfl
            | true => exact absurd ⟨rfl, rfl⟩ hnot
          subst hfalse
          have hne : (s.pages g).pinCount ≠ 1 := by
            intro hone
            have hno := hclient g hl hone
            rw [hq] at hno
            simp at hno
          simp only [Function.update_self]
          omega
        · simp only [hother g hgf]
          exact hpos
    · intro q data g hq hg
      rw [hlast] at hq
      have hold := hc.in_frame q data g hq hg
      by_cases hgf : g = f
      · -- If the frame is clean after the call, it was clean before and `isDirty` is false.
        subst hgf
        simp only [Function.update_self]
        refine ⟨hold.1, fun hclean hpendq => ?_⟩
        simp only [Bool.or_eq_false_iff] at hclean
        rw [hpend, hclean.2] at hpendq
        exact hold.2 hclean.1 (by simpa using hpendq)
      · simp only [hother g hgf]
        refine ⟨hold.1, fun hclean hpendq => ?_⟩
        have hqp : q ≠ p := by
          rintro rfl
          rw [hl] at hg
          exact hgf (Option.some.inj hg).symm
        rw [hpend, if_neg (by simp [hqp])] at hpendq
        exact hold.2 hclean hpendq
    · rw [hlast]
      exact hc.on_disk

theorem Coherent.flushPage {h : History} (hc : Coherent s h) {r : Bool}
    (hstep : s.flushPage p = .ok (r, s')) : Coherent s' h := by
  have hs : Step s (.flushPage p r) s' := hstep
  have hframes := (hs.frameInv_iff hc.frames hc.disk).mpr trivial
  have hdisk := hs.diskInv hc.disk
  rcases flushPage_inversion hstep with ⟨_, rfl⟩ | ⟨f, dm, hl, hwrite, rfl⟩
  · exact hc
  · set page : Page := { s.pages f with isDirty := false } with hpage
    have hdata : ∀ g, (Function.update s.pages f page g).data = (s.pages g).data :=
      field_update Page.data rfl
    have hpins : ∀ g, (Function.update s.pages f page g).pinCount = (s.pages g).pinCount :=
      field_update Page.pinCount rfl
    refine ⟨hframes, hdisk, hc.resident_nonneg, hc.known_nonneg, ?_, ?_, ?_⟩
    · intro q hq
      rcases hc.pending_pinned q hq with ⟨g, hg, hpos⟩
      exact ⟨g, hg, by simpa only [hpins g] using hpos⟩
    · -- The flushed page has its bytes on disk now; the others have them where they had them.
      intro q data g hq hg
      have hold := hc.in_frame q data g hq hg
      simp only [hdata g]
      refine ⟨hold.1, fun hclean hpendq => ?_⟩
      rw [(stored_writePage hwrite (hc.known_nonneg q data hq)).2]
      by_cases hqp : q = p
      · subst hqp
        rw [hl] at hg
        rw [if_pos rfl, Option.some.inj hg]
        exact hold.1
      · rw [if_neg hqp]
        simp only [Function.update_of_ne (hc.frames.frame_ne hl hg hqp)] at hclean
        exact hold.2 hclean hpendq
    · intro q data hq hg
      have hqp : q ≠ p := by
        rintro rfl
        simp only [hl] at hg
        simp at hg
      rw [(stored_writePage hwrite (hc.known_nonneg q data hq)).2, if_neg hqp]
      exact hc.on_disk q data hq hg

theorem Coherent.deletePage {h : History} (hc : Coherent s h) {r : Bool}
    (hsafe : LossFree s (.deletePage p r)) (hstep : s.deletePage p = .ok (r, s')) :
    Coherent s' (h.track (.deletePage (n := n) p r)) := by
  have hs : Step s (.deletePage p r) s' := hstep
  have hframes := (hs.frameInv_iff hc.frames hc.disk).mpr hsafe
  have hdisk := hs.diskInv hc.disk
  -- The history only forgets.
  have hpend : (h.track (.deletePage (n := n) p r)).pending = h.pending := by
    cases r <;> rfl
  have hlast : ∀ q data, (h.track (.deletePage (n := n) p r)).last q = some data →
      h.last q = some data := by
    intro q data hq
    cases r with
    | false => exact hq
    | true =>
        by_cases hqp : q = p
        · simp [History.track, hqp] at hq
        · simpa [History.track, Function.update_of_ne hqp] using hq
  rcases deletePage_inversion hstep with ⟨dm, hfree, hcases⟩
  -- The condition excludes the branch that gives the frame away.
  have hsame : s' = { s with diskManager := dm } := by
    rcases hcases with ⟨_, _, h'⟩ | ⟨f, hl, ⟨_, _, h'⟩ | ⟨hpin, _, _⟩⟩
    · exact h'
    · exact h'
    · exact absurd hpin (hsafe f hl)
  subst hsame
  refine ⟨hframes, hdisk, hc.resident_nonneg, ?_, ?_, ?_, ?_⟩
  · intro q data hq
    exact hc.known_nonneg q data (hlast q data hq)
  · intro q hq
    rw [hpend] at hq
    exact hc.pending_pinned q hq
  · intro q data g hq hg
    have hq' := hlast q data hq
    rw [hpend, stored_deAllocatePage hc.disk hfree (hc.known_nonneg q data hq')]
    exact hc.in_frame q data g hq' hg
  · intro q data hq hg
    have hq' := hlast q data hq
    rw [stored_deAllocatePage hc.disk hfree (hc.known_nonneg q data hq')]
    exact hc.on_disk q data hq' hg

theorem Coherent.write {h : History} (hc : Coherent s h) {data : PageData}
    (hpin : 0 < (s.pages f).pinCount) (hid : (s.pages f).pageId = p) :
    Coherent (s.write f data) (h.track (.write f p data)) := by
  have hs : Step s (.write f p data) (s.write f data) := ⟨hid, rfl⟩
  have hframes := (hs.frameInv_iff hc.frames hc.disk).mpr trivial
  have hvalid : p ≠ INVALID_PAGE_ID := by
    rcases hc.frames.inClass f with hcl | hcl | hcl
    · have := hcl.2.2.2
      simp only [status] at this
      omega
    · exact hid ▸ hcl.2.2.1
    · exact hid ▸ hcl.2.2.1
  have hl : s.pageTable.lookup p = some f := (hc.frames.table p f).mpr ⟨hvalid, hid⟩
  have hother : ∀ g, g ≠ f → (s.write f data).pages g = s.pages g := by
    intro g hg
    simp [BufferPoolManager.write, setPage, Function.update_of_ne hg]
  have hself : (s.write f data).pages f = { s.pages f with data := data } := by
    simp [BufferPoolManager.write, setPage]
  refine ⟨hframes, hc.disk, hc.resident_nonneg, ?_, ?_, ?_, ?_⟩
  · intro q d hq
    by_cases hqp : q = p
    · subst hqp
      exact hc.resident_nonneg q f hl
    · simp only [History.track, Function.update_of_ne hqp] at hq
      exact hc.known_nonneg q d hq
  · intro q hq
    by_cases hqp : q = p
    · subst hqp
      refine ⟨f, hl, ?_⟩
      rw [hself]
      exact hpin
    · simp only [History.track, Function.update_of_ne hqp] at hq
      rcases hc.pending_pinned q hq with ⟨g, hg, hpos⟩
      refine ⟨g, hg, ?_⟩
      rw [hother g (hc.frames.frame_ne hl hg hqp)]
      exact hpos
  · intro q d g hq hg
    by_cases hqp : q = p
    · subst hqp
      rw [show s.pageTable.lookup q = some g from hg] at hl
      rw [Option.some.inj hl, hself]
      simp only [History.track, Function.update_self, Option.map_eq_some_iff] at hq
      rcases hq with ⟨_, _, rfl⟩
      -- The frame holds the bytes just written, and nothing is asked of the disk until the unpin.
      exact ⟨rfl, fun _ hno => by simp [History.track] at hno⟩
    · simp only [History.track, Function.update_of_ne hqp] at hq ⊢
      rw [hother g (hc.frames.frame_ne hl hg hqp)]
      exact hc.in_frame q d g hq hg
  · intro q d hq hg
    have hqp : q ≠ p := by
      rintro rfl
      rw [show s.pageTable.lookup q = none from hg] at hl
      simp at hl
    simp only [History.track, Function.update_of_ne hqp] at hq
    exact hc.on_disk q d hq hg

theorem Coherent.step {h : History} {e : Event n} (hc : Coherent s h) (hclient : Client s h e)
    (hsafe : LossFree s e) (hstep : Step s e s') : Coherent s' (h.track e) := by
  cases e with
  | fetchPage p r =>
      exact hc.fetchPage hstep
  | newPage r =>
      exact hc.newPage hsafe hstep
  | unpinPage p isDirty r =>
      exact hc.unpinPage hclient hstep
  | flushPage p r =>
      exact hc.flushPage hstep
  | deletePage p r =>
      exact hc.deletePage hsafe hstep
  | write f p data =>
      rcases hstep with ⟨hid, rfl⟩
      exact hc.write hclient hid

/-! ## Destruction -/

/-- Flushing one page after the other leaves the bytes of each on disk, and touches no page that
is not flushed. -/
theorem destroy_spec {order : List PageId}
    (hres : ∀ p f, s.pageTable.lookup p = some f → 0 ≤ p.toInt)
    (horder : ∀ p ∈ order, p ∈ s.pageTable.keys) :
    ∃ s', s.destroy order = .ok s' ∧ s'.pageTable = s.pageTable ∧
      (∀ g, (s'.pages g).data = (s.pages g).data) ∧
      (∀ p, 0 ≤ p.toInt → p ∉ order → stored s'.diskManager p = stored s.diskManager p) ∧
      ∀ p f, p ∈ order → s.pageTable.lookup p = some f →
        stored s'.diskManager p = (s.pages f).data := by
  induction order generalizing s with
  | nil =>
      refine ⟨s, rfl, rfl, fun _ => rfl, fun _ _ _ => rfl, fun p f hp _ => ?_⟩
      simp at hp
  | cons q order ih =>
      have hmem : q ∈ s.pageTable := AList.mem_keys.mpr (horder q (by simp))
      rcases Option.isSome_iff_exists.mp (AList.lookup_isSome.mpr hmem) with ⟨f, hl⟩
      have hq := hres q f hl
      rcases writePage_ok s.diskManager (s.pages f).data hq with ⟨dm, hwrite⟩
      set s₁ : BufferPoolManager n :=
        { s.setPage f { s.pages f with isDirty := false } with diskManager := dm } with hs₁
      have hflush : s.flushPage q = .ok (true, s₁) := by
        simp [BufferPoolManager.flushPage, hl, hwrite, hs₁]
      have hdata : ∀ g, (s₁.pages g).data = (s.pages g).data := fun g =>
        field_update Page.data (by rfl) g
      -- The flushes that follow keep the page unless it comes again, and then store it again.
      rcases ih (s := s₁) hres (fun p hp => horder p (by simp [hp])) with
        ⟨s', hok, htable, hdata', hkeep, hdone⟩
      refine ⟨s', ?_, htable, fun g => (hdata' g).trans (hdata g), ?_, ?_⟩
      · simpa [BufferPoolManager.destroy, List.foldlM_cons, hflush] using hok
      · intro p hp hnot
        simp only [List.mem_cons, not_or] at hnot
        rw [hkeep p hp hnot.2]
        exact ((stored_writePage hwrite hp).2).trans (if_neg hnot.1)
      · intro p g hp hg
        by_cases hlater : p ∈ order
        · rw [hdone p g hlater hg, hdata g]
        · have hpq : p = q := by
            rcases List.mem_cons.mp hp with hpq | hp
            · exact hpq
            · exact absurd hp hlater
          subst hpq
          rw [hl] at hg
          rw [hkeep p hq hlater, ← Option.some.inj hg]
          exact ((stored_writePage hwrite hq).2).trans (if_pos rfl)

/-- When every resident page is flushed, the pages that were resident have the bytes of their
frame on disk and the others keep what was there. -/
theorem destroy_stores {order : List PageId}
    (hres : ∀ p f, s.pageTable.lookup p = some f → 0 ≤ p.toInt)
    (horder : order.Perm s.pageTable.keys) :
    ∃ s', s.destroy order = .ok s' ∧
      (∀ p f, s.pageTable.lookup p = some f → stored s'.diskManager p = (s.pages f).data) ∧
      ∀ p, 0 ≤ p.toInt → s.pageTable.lookup p = none →
        stored s'.diskManager p = stored s.diskManager p := by
  rcases destroy_spec hres fun p hp => horder.mem_iff.mp hp with ⟨s', hok, _, _, hkeep, hdone⟩
  refine ⟨s', hok, fun p f hl => hdone p f ?_ hl, fun p hp hnone => hkeep p hp ?_⟩
  · rw [horder.mem_iff, ← AList.mem_keys, ← AList.lookup_isSome, hl]
    rfl
  · rw [horder.mem_iff, ← AList.mem_keys, ← AList.lookup_eq_none]
    exact hnone

theorem Coherent.noLostWrite {h : History} (hc : Coherent s h) : NoLostWrite s h := by
  refine ⟨fun p data f s' hlast hfetch => ?_, fun order hperm => ?_⟩
  · -- After the fetch the page is resident in the frame returned.
    have hc' := hc.fetchPage hfetch
    have hl : s'.pageTable.lookup p = some f := by
      rcases fetchPage_inversion hfetch with ⟨h', _⟩ | ⟨g, h', hl, rfl⟩ |
        ⟨g, s₁, dm, h', _, _, _, _, rfl⟩
      · simp at h'
      · rw [Option.some.inj h']
        exact hl
      · rw [Option.some.inj h']
        simp
    exact (hc'.in_frame p data f hlast hl).1
  · rcases destroy_stores hc.resident_nonneg hperm with ⟨s', hok, hresident, hothers⟩
    refine ⟨s', hok, fun p data hlast => ?_⟩
    have hp := hc.known_nonneg p data hlast
    rw [readPage_eq_stored hp]
    cases hl : s.pageTable.lookup p with
    | some f =>
        rw [hresident p f hl, (hc.in_frame p data f hlast hl).1]
    | none =>
        rw [hothers p hp hl, hc.on_disk p data hlast hl]

/-! ## Runs -/

/-- A client's step that meets the condition. -/
def LossFreeStep (c : BufferPoolManager n × History) (e : Event n)
    (c' : BufferPoolManager n × History) : Prop :=
  LossFree c.1 e ∧ ClientStep c e c'

theorem run_coherent {es : List (Event n)} {c c' : BufferPoolManager n × History}
    (hrun : Run LossFreeStep c es c') (hc : Coherent c.1 c.2) : Coherent c'.1 c'.2 := by
  refine hrun.invariant (P := fun c => Coherent c.1 c.2) ?_ hc
  rintro c₀ e c₁ hc₀ ⟨hsafe, hclient, hstep, hhist⟩
  rw [hhist]
  exact hc₀.step hclient hsafe hstep

/-- No write is lost in a run whose calls all meet the condition. -/
theorem noLostWrite_of_lossFree_run {ds : List DiskManager.Event} {dm : DiskManager}
    (hdisk : Run DiskManager.Step DiskManager.fresh ds dm) {es : List (Event n)} {h : History}
    (hrun : Run LossFreeStep (init n dm, History.start) es (s, h)) : NoLostWrite s h :=
  (run_coherent hrun (init_coherent n (DiskManager.run_represents hdisk).inv)).noLostWrite

/-! ## What `NewPage` loses -/

/-- Whenever `NewPage` evicts a dirty frame with nonzero bytes, they are lost. -/
theorem Coherent.newPage_loses {h : History} {s₁ : BufferPoolManager n} {data : PageData}
    {q : PageId} {g : Fin n} (hc : Coherent s h) (hpick : s.pickFrame = some (f, s₁))
    (hdirty : (s.pages f).isDirty = true) (hlast : h.last (s.pages f).pageId = some data)
    (hne : data ≠ Buf.zero PAGE_SIZE) (hstep : s.newPage = .ok (some (q, g), s'))
    (hqo : q ≠ (s.pages f).pageId) : ¬NoLostWrite s' (h.track (.newPage (some (q, g)))) := by
  intro hno
  have hnonneg := hc.known_nonneg _ data hlast
  rcases newPage_inversion hstep with ⟨h', _⟩ |
    ⟨q', f', s₁', dm₁, dm₂, h', hpick', halloc, hwrite, hs'⟩
  · simp at h'
  simp only [Option.some.injEq, Prod.mk.injEq] at h'
  rw [hpick] at hpick'
  simp only [Option.some.injEq, Prod.mk.injEq] at hpick'
  rcases h' with ⟨rfl, rfl⟩
  rcases hpick' with ⟨rfl, rfl⟩
  have htable : s'.pageTable = (s.pageTable.erase (s.pages f).pageId).insert q f := by
    rw [hs']
  -- The page that was evicted has zeros on disk and no frame.
  have hzero : stored s'.diskManager (s.pages f).pageId = Buf.zero PAGE_SIZE := by
    rw [hs']
    simp only [stored_writeBack hwrite hnonneg, hdirty, and_self, if_true]
  have hgone : s'.pageTable.lookup (s.pages f).pageId = none := by
    rw [lookup_load htable, if_neg (Ne.symm hqo), if_pos rfl]
  have hres : ∀ p g, s'.pageTable.lookup p = some g → 0 ≤ p.toInt := by
    intro p g hl
    rw [lookup_load htable] at hl
    split at hl
    · rename_i hp
      rw [hp]
      exact (hc.disk.takesLowest halloc).valid.1
    · split at hl
      · simp at hl
      · exact hc.resident_nonneg p g hl
  -- So the destructor leaves the zeros there.
  rcases hno.destroyed _ (List.Perm.refl _) with ⟨s₂, hok, hread⟩
  rcases destroy_stores hres (List.Perm.refl _) with ⟨s₃, hok', _, hothers⟩
  rw [hok] at hok'
  have hlast' : (h.track (.newPage (some (q, f)))).last (s.pages f).pageId = some data := by
    simpa [History.track, Function.update_of_ne (Ne.symm hqo)] using hlast
  have hdata := hread _ data hlast'
  rw [readPage_eq_stored hnonneg, Except.ok.inj hok', hothers _ hnonneg hgone, hzero] at hdata
  exact hne (Except.ok.inj hdata).symm

/-- `NewPage` returns a frame when one can be picked and the disk has room. -/
theorem newPage_ok {s₁ : BufferPoolManager n} {q : PageId} {dm : DiskManager}
    (hpick : s.pickFrame = some (f, s₁)) (hpin : (s.pages f).pinCount = 0)
    (halloc : s.diskManager.allocatePage = .ok (q, dm))
    (hdirty : (s.pages f).isDirty = true → 0 ≤ (s.pages f).pageId.toInt) :
    ∃ s', s.newPage = .ok (some (q, f), s') := by
  rcases pickFrame_rest hpick with ⟨hpages, htable, hdisk⟩
  have hsome : ¬∀ g, (s.pages g).pinCount ≠ 0 := fun hall => hall f hpin
  -- The write-back can fail only for a page below zero.
  have hback : ∃ dm₂, writeBack (s.pages f) (Buf.zero PAGE_SIZE) dm = .ok dm₂ := by
    unfold writeBack
    split
    · rename_i hd
      exact writePage_ok _ _ (hdirty hd)
    · exact ⟨dm, rfl⟩
  rcases hback with ⟨dm₂, hback⟩
  simp [newPage, hsome, hpick, hpages, hdisk, halloc, hback]

/-- One byte that is not zero. -/
def sampleData : PageData :=
  fun _ => 1

/-- The calls up to the loss: a page is made, written and unpinned dirty in a one-frame pool. -/
theorem dirty_page_run : ∃ (s : BufferPoolManager 1) (h : History) (done : Bool),
    Run LossFreeStep (init 1 DiskManager.fresh, History.start)
      [.newPage (some (0, 0)), .write 0 0 sampleData, .unpinPage 0 true done] (s, h) ∧
      s.pages 0 = { data := sampleData, pageId := 0, pinCount := 0, isDirty := true } ∧
      h.last 0 = some sampleData ∧ DiskManager.Dense s.diskManager 1 := by
  rcases first_newPage with ⟨s₁, hnew, hl, hpage, hdense⟩
  have hunpin : ∃ done s₃, (s₁.write 0 sampleData).unpinPage 0 true = (done, s₃) ∧
      s₃.pages 0 = { data := sampleData, pageId := 0, pinCount := 0, isDirty := true } ∧
      s₃.diskManager = s₁.diskManager := by
    have hl₂ : (s₁.write 0 sampleData).pageTable.lookup 0 = some 0 := hl
    rcases unpinPage_of_lookup hl₂ true with ⟨done, hunpin⟩
    exact ⟨done, _, hunpin, by simp [write, setPage, hpage], rfl⟩
  rcases hunpin with ⟨done, s₃, hunpin, hpage₃, hdisk₃⟩
  -- Nothing was in the frames yet, so the first page costs nothing.
  have hsafe : LossFree (init 1 DiskManager.fresh) (.newPage (some (0, 0))) := by
    refine fun f s₁ _ => ⟨fun hdirty => ?_, fun q dm _ => ⟨by simp [init], rfl⟩⟩
    simp [init, Page.empty] at hdirty
  have hpinned : Client s₁ (History.start.track (.newPage (n := 1) (some (0, 0))))
      (.write 0 0 sampleData) := by
    rw [Client, hpage]
    decide
  set h₁ := History.start.track (.newPage (n := 1) (some (0, 0)))
  set h₂ := h₁.track (.write (n := 1) 0 0 sampleData)
  have hstep₁ : LossFreeStep (init 1 DiskManager.fresh, History.start) (.newPage (some (0, 0)))
      (s₁, h₁) := ⟨hsafe, trivial, hnew, rfl⟩
  have hstep₂ : LossFreeStep (s₁, h₁) (.write 0 0 sampleData) (s₁.write 0 sampleData, h₂) :=
    ⟨trivial, hpinned, ⟨by rw [hpage], rfl⟩, rfl⟩
  have hstep₃ : LossFreeStep (s₁.write 0 sampleData, h₂) (.unpinPage 0 true done)
      (s₃, h₂.track (.unpinPage (n := 1) 0 true done)) := ⟨trivial, trivial, hunpin, rfl⟩
  refine ⟨s₃, _, done, Run.cons hstep₁ (Run.cons hstep₂ (Run.cons hstep₃ (Run.nil _))), hpage₃,
    ?_, ?_⟩
  · simp [h₁, h₂, History.track, History.start]
  · rw [hdisk₃]
    exact hdense

/-- The second `NewPage` of a one-frame pool overwrites the first page with zeros. -/
theorem newPage_loses_write :
    ¬∀ n (es : List (Event n)) s h,
      Run ClientStep (init n DiskManager.fresh, History.start) es (s, h) → NoLostWrite s h := by
  intro hall
  rcases dirty_page_run with ⟨s, h, done, hrun, hpage, hlast, hdense⟩
  have hc := run_coherent hrun (init_coherent 1 DiskManager.fresh_inv)
  rcases hdense.allocatePage_ok (by decide) with ⟨dm, halloc, _⟩
  -- The only frame is unpinned, so it is the one picked.
  cases hpick : s.pickFrame with
  | none =>
      exact hc.frames.pickFrame_none hpick 0 (by rw [hpage])
  | some pick =>
      rcases pick with ⟨f, s₁⟩
      have hf : f = 0 := Subsingleton.elim _ _
      subst hf
      rcases newPage_ok hpick (by rw [hpage]) halloc (fun _ => by rw [hpage]; decide) with
        ⟨s', hnew⟩
      have hlossy : ClientStep (s, h) (.newPage (some (Int32.ofNat 1, 0)))
          (s', h.track (.newPage (n := 1) (some (Int32.ofNat 1, 0)))) := ⟨trivial, hnew, rfl⟩
      have hclient : Run ClientStep (init 1 DiskManager.fresh, History.start)
          ([.newPage (some (0, 0)), .write 0 0 sampleData, .unpinPage 0 true done] ++
            [.newPage (some (Int32.ofNat 1, 0))])
          (s', h.track (.newPage (n := 1) (some (Int32.ofNat 1, 0)))) :=
        (hrun.mono fun _ _ _ hstep => hstep.2).append (Run.cons hlossy (Run.nil _))
      refine hc.newPage_loses hpick (by rw [hpage]) (by rw [hpage]; exact hlast) ?_ hnew
        (by rw [hpage]; decide) (hall _ _ _ _ hclient)
      intro heq
      have := congrFun heq ⟨0, by decide⟩
      exact absurd this (by decide)

/-- The condition holds up to the point of the loss: the run so far is coherent. -/
theorem noLostWrite_of_lossFree_run_dirty : ∃ (s : BufferPoolManager 1) (h : History) (done : Bool),
    Run LossFreeStep (init 1 DiskManager.fresh, History.start)
      [.newPage (some (0, 0)), .write 0 0 sampleData, .unpinPage 0 true done] (s, h) ∧
      h.last 0 = some sampleData ∧ NoLostWrite s h := by
  rcases dirty_page_run with ⟨s, h, done, hrun, _, hlast, _⟩
  exact ⟨s, h, done, hrun, hlast, noLostWrite_of_lossFree_run (Run.nil _) hrun⟩

end BufferPoolManager
end MiniSQL
