import MiniSQL.Buffer.Coherence
import MiniSQL.Buffer.Pins
import MiniSQL.Buffer.Resident

/-!
# Contents — the pool as a store of pages

Two things a client can tell about a page: its bytes, which are in its frame when it is resident
and on disk otherwise, and how often it is pinned.  Every call is described by what it does to
these, whichever frames it moves pages to.
-/

namespace MiniSQL
namespace BufferPoolManager

open Lib

variable {n : Nat} {s s' : BufferPoolManager n} {f g : Fin n} {p q : PageId}

/-- The bytes `FetchPage` finds for a page. -/
def contents (s : BufferPoolManager n) (p : PageId) : PageData :=
  match s.pageTable.lookup p with
  | some f => (s.pages f).data
  | none => stored s.diskManager p

theorem contents_of_lookup (h : s.pageTable.lookup p = some f) :
    s.contents p = (s.pages f).data := by
  rw [contents, h]

theorem contents_of_none (h : s.pageTable.lookup p = none) :
    s.contents p = stored s.diskManager p := by
  rw [contents, h]

/-! ## One frame changes

Either a resident frame gets other bytes, flags or counts, or a page takes the place of the page
that was in a frame. -/

theorem TableInv.contents_touch (hinv : TableInv s) (hl : s.pageTable.lookup p = some f)
    (page : Page) (hpages : s'.pages = Function.update s.pages f page)
    (htable : s'.pageTable = s.pageTable) (hdisk : s'.diskManager = s.diskManager) (q : PageId) :
    s'.contents q = if q = p then page.data else s.contents q := by
  by_cases hq : q = p
  · subst hq
    rw [if_pos rfl, contents_of_lookup (htable ▸ hl), hpages, Function.update_self]
  · rw [if_neg hq]
    cases hs : s.pageTable.lookup q with
    | none =>
        rw [contents_of_none hs, contents_of_none (htable ▸ hs), hdisk]
    | some g =>
        rw [contents_of_lookup hs, contents_of_lookup (htable ▸ hs), hpages,
          Function.update_of_ne (hinv.frame_ne hl hs hq)]

/-! ## FetchPage -/

/-- What `FetchPage` does when it returns a frame. -/
structure Loaded (s : BufferPoolManager n) (p : PageId) (f : Fin n) (s' : BufferPoolManager n) :
    Prop where
  queues : QueueInv s'
  lookup : s'.pageTable.lookup p = some f
  data : (s'.pages f).data = s.contents p
  pins : ∀ q, s'.pins q = s.pins q + if q = p then 1 else 0
  frame_pins : (s'.pages f).pinCount = (s.pages f).pinCount + 1
  others : ∀ g, g ≠ f → s'.pages g = s.pages g
  free : ∀ q, 0 ≤ q.toInt → s'.diskManager.isPageFree q = s.diskManager.isPageFree q
  resident : ∀ q g, s'.pageTable.lookup q = some g → q ≠ p → s.pageTable.lookup q = some g

/-- The same over the frame invariant. -/
structure Fetched (s : BufferPoolManager n) (p : PageId) (f : Fin n) (s' : BufferPoolManager n) :
    Prop extends Loaded s p f s' where
  frames : FrameInv s'
  disk : DiskManager.Inv s'.diskManager

theorem writeBack_isPageFree {page : Page} {data : PageData} {dm dm' : DiskManager}
    (h : writeBack page data dm = .ok dm') (hq : 0 ≤ q.toInt) :
    dm'.isPageFree q = dm.isPageFree q := by
  unfold writeBack at h
  split at h
  · exact DiskManager.writePage_isPageFree h hq
  · rw [Except.ok.inj h]

theorem QueueInv.loaded (hinv : QueueInv s) (h : s.fetchPage p = .ok (some f, s')) :
    Loaded s p f s' := by
  have hqueues := hinv.fetchPage h
  rcases fetchPage_inversion h with ⟨hnone, _⟩ | ⟨g, hg, hl, hs'⟩ |
    ⟨g, s₁, dm, hg, hnone, hpick, hwrite, hpos, hs'⟩
  · cases hnone
  · obtain rfl := Option.some.inj hg
    set page : Page := { s.pages f with pinCount := (s.pages f).pinCount + 1 } with hpage
    have hpages : s'.pages = Function.update s.pages f page := by rw [hs']
    have htable : s'.pageTable = s.pageTable := by rw [hs']
    have hfile : s'.diskManager = s.diskManager := by rw [hs']
    refine ⟨hqueues, by rw [htable, hl], ?_, fun q => ?_, ?_, ?_, ?_, ?_⟩
    · rw [contents_of_lookup hl, hpages, Function.update_self]
    · rw [hinv.table.pins_touch hl page hpages htable]
      by_cases hq : q = p
      · subst hq
        rw [if_pos rfl, if_pos rfl, pins_of_lookup hl]
      · rw [if_neg hq, if_neg hq, Nat.add_zero]
    · rw [hpages, Function.update_self]
    · intro g hgf
      rw [hpages, Function.update_of_ne hgf]
    · intro q _
      rw [hfile]
    · intro q g hq _
      rwa [htable] at hq
  · obtain rfl := Option.some.inj hg
    have hpin := (hinv.picks hpick).unpinned
    set page : Page :=
      { data := dm.file (DiskManager.mapPageId p), pageId := p
        pinCount := (s.pages f).pinCount + 1, isDirty := false } with hpage
    have hpages : s'.pages = Function.update s.pages f page := by rw [hs']
    have htable : s'.pageTable = (s.pageTable.erase (s.pages f).pageId).insert p f := by rw [hs']
    have hfile : s'.diskManager = dm := by rw [hs']
    refine ⟨hqueues, ?_, ?_, fun q => ?_, ?_, ?_, ?_, ?_⟩
    · rw [htable, AList.lookup_insert]
    · -- What is read is what the disk held: the write-back goes to another page.
      have hne : ¬((s.pages f).isDirty = true ∧ p = (s.pages f).pageId) := by
        rintro ⟨_, heq⟩
        exact hinv.table.pageId_ne hpos hnone f heq.symm
      have hstored := stored_writeBack hwrite hpos
      rw [if_neg hne] at hstored
      rw [hpages, Function.update_self, contents_of_none hnone, ← hstored]
      rfl
    · rw [hinv.table.pins_load page hpin hpages htable]
      by_cases hq : q = p
      · subst hq
        rw [if_pos rfl, if_pos rfl, pins_of_none hnone]
        simp only [hpage, hpin]
      · rw [if_neg hq, if_neg hq, Nat.add_zero]
    · rw [hpages, Function.update_self]
    · intro g hgf
      rw [hpages, Function.update_of_ne hgf]
    · intro q hq
      rw [hfile]
      exact writeBack_isPageFree hwrite hq
    · intro q g hq hne
      rw [lookup_load htable, if_neg hne] at hq
      split at hq
      · cases hq
      · exact hq

theorem FrameInv.fetched (hinv : FrameInv s) (hdisk : DiskManager.Inv s.diskManager)
    (h : s.fetchPage p = .ok (some f, s')) : Fetched s p f s' := by
  have hstep : Step s (.fetchPage p (some f)) s' := h
  exact ⟨hinv.queueInv.loaded h, (hstep.frameInv_iff hinv hdisk).mpr trivial,
    hstep.diskInv hdisk⟩

/-- Whatever the pool, the page fetched is pinned more often than before. -/
theorem fetchPage_pins_lt (hok : s.fetchPage p = .ok (some f, s')) : s.pins p < s'.pins p := by
  rcases fetchPage_inversion hok with ⟨hnone, _⟩ | ⟨g, _, hl, hs'⟩ |
    ⟨g, s₁, dm, _, hnone, _, _, _, hs'⟩
  · cases hnone
  · have hl' : s'.pageTable.lookup p = some g := by rw [hs', hl]
    rw [pins_of_lookup hl, pins_of_lookup hl', hs']
    simp only [Function.update_self, Nat.lt_succ_self]
  · have hl' : s'.pageTable.lookup p = some g := by rw [hs', AList.lookup_insert]
    rw [pins_of_none hnone, pins_of_lookup hl', hs']
    simp only [Function.update_self, Nat.succ_pos]

/-! ## Stores -/

theorem FrameInv.write_contents (hinv : FrameInv s) (hl : s.pageTable.lookup p = some f)
    (data : PageData) (q : PageId) :
    (s.write f data).contents q = if q = p then data else s.contents q := by
  have hpages : (s.write f data).pages =
      Function.update s.pages f { s.pages f with data := data } := rfl
  exact hinv.tableInv.contents_touch hl _ hpages rfl rfl q

/-! ## NewPage -/

/-- What `NewPage` does when it returns a page. -/
structure Created (s : BufferPoolManager n) (p : PageId) (f : Fin n) (s' : BufferPoolManager n) :
    Prop where
  frames : FrameInv s'
  disk : DiskManager.Inv s'.diskManager
  valid : 0 ≤ p.toInt
  was_free : s.diskManager.isPageFree p = true
  lookup : s'.pageTable.lookup p = some f
  fresh : s.pageTable.lookup p = none
  data : (s'.pages f).data = Buf.zero PAGE_SIZE
  pins : ∀ q, s'.pins q = if q = p then 1 else s.pins q
  unpinned : (s.pages f).pinCount = 0
  others : ∀ g, g ≠ f → s'.pages g = s.pages g
  free : ∀ q, 0 ≤ q.toInt → q ≠ p → s'.diskManager.isPageFree q = s.diskManager.isPageFree q
  now_used : s'.diskManager.isPageFree p = false
  resident : ∀ q g, s'.pageTable.lookup q = some g → q ≠ p → s.pageTable.lookup q = some g

/-- Every resident page is allocated on disk. -/
def ResidentUsed (s : BufferPoolManager n) : Prop :=
  ∀ p f, s.pageTable.lookup p = some f → 0 ≤ p.toInt ∧ s.diskManager.isPageFree p = false

theorem FrameInv.created (hinv : FrameInv s) (hdisk : DiskManager.Inv s.diskManager)
    (hused : ResidentUsed s) (h : s.newPage = .ok (some (p, f), s')) : Created s p f s' := by
  have hstep : Step s (.newPage (some (p, f))) s' := h
  rcases newPage_inversion h with ⟨hnone, _⟩ |
    ⟨q, g, s₁, dm₁, dm₂, heq, hpick, halloc, hwrite, hs'⟩
  · cases hnone
  · cases heq
    have htakes := hdisk.takesLowest halloc
    have hvalid := htakes.valid.1
    -- A resident page is allocated, and the one handed out was free.
    have hfresh : s.pageTable.lookup p = none := by
      cases hl : s.pageTable.lookup p with
      | none =>
          rfl
      | some g =>
          have hnot := (hused p g hl).2
          rw [htakes.was_free] at hnot
          cases hnot
    -- So the frame of another page is never overwritten in the table.
    have hcareful : Careful s (.newPage (some (p, f))) := by
      intro f' s₁' q' dm' g _ halloc' hl
      rw [Disk.allocatePage_eq, halloc] at halloc'
      cases halloc'
      rw [hfresh] at hl
      cases hl
    have hpin := hinv.pickFrame_unpinned hpick
    set page : Page :=
      { data := Buf.zero PAGE_SIZE, pageId := p
        pinCount := (s.pages f).pinCount + 1, isDirty := false } with hpage
    have hpages : s'.pages = Function.update s.pages f page := by rw [hs']
    have htable : s'.pageTable = (s.pageTable.erase (s.pages f).pageId).insert p f := by rw [hs']
    have hfile : s'.diskManager = dm₂ := by rw [hs']
    refine ⟨(hstep.frameInv_iff hinv hdisk).mpr hcareful, hstep.diskInv hdisk, hvalid,
      htakes.was_free, ?_, hfresh, ?_, fun q => ?_, hpin, fun g hg => ?_, fun q hq hne => ?_, ?_,
      fun q g hq hne => ?_⟩
    · rw [htable, AList.lookup_insert]
    · rw [hpages, Function.update_self]
    · rw [hinv.tableInv.pins_load page hpin hpages htable]
      simp only [hpage, hpin]
    · rw [hpages, Function.update_of_ne hg]
    · rw [hfile, writeBack_isPageFree hwrite hq, htakes.others q hq hne]
    · rw [hfile, writeBack_isPageFree hwrite hvalid, htakes.now_used]
    · rw [lookup_load htable, if_neg hne] at hq
      split at hq
      · cases hq
      · exact hq

/-! ## DeletePage -/

theorem deAllocatePage_free_iff {dm dm' : DiskManager} (hinv : DiskManager.Inv dm)
    (hok : dm.deAllocatePage p = .ok dm') (hq : 0 ≤ q.toInt) :
    dm'.isPageFree q = true ↔ q = p ∨ dm.isPageFree q = true := by
  by_cases hp : 0 ≤ p.toInt
  · rcases hinv.freesOnly hp with ⟨dm₁, hok₁, hfrees⟩
    rw [hok] at hok₁
    obtain rfl := Except.ok.inj hok₁
    by_cases hqp : q = p
    · rw [hqp]
      exact iff_of_true hfrees.now_free (Or.inl rfl)
    · rw [hfrees.others q hq hqp, or_iff_right hqp]
  · have hqp : q ≠ p := by
      rintro rfl
      exact hp hq
    rw [DiskManager.deAllocatePage_of_neg (by omega) hok, or_iff_right hqp]

theorem deletePage_diskManager {r : Bool} (h : s.deletePage p = .ok (r, s')) :
    s.diskManager.deAllocatePage p = .ok s'.diskManager := by
  rcases deletePage_inversion h with ⟨dm, hfree, ⟨_, _, rfl⟩ | ⟨_, _, ⟨_, _, rfl⟩ | ⟨_, _, rfl⟩⟩⟩
  · exact hfree
  · exact hfree
  · exact hfree

/-- Deleting the page would not lose bytes: it stays in its frame, or they are on disk. -/
def Backed (s : BufferPoolManager n) (p : PageId) : Prop :=
  ∀ f, s.pageTable.lookup p = some f → (s.pages f).pinCount = 0 →
    (s.pages f).data = stored s.diskManager p

theorem deletePage_contents_ne {r : Bool} (hdisk : DiskManager.Inv s.diskManager)
    (h : s.deletePage p = .ok (r, s')) (hq : 0 ≤ q.toInt) (hne : q ≠ p) :
    s'.contents q = s.contents q := by
  rcases deletePage_inversion h with ⟨dm, hfree, ⟨_, _, rfl⟩ | ⟨f, _, ⟨_, _, rfl⟩ | ⟨_, _, rfl⟩⟩⟩
  · simp only [contents, stored_deAllocatePage hdisk hfree hq]
  · simp only [contents, stored_deAllocatePage hdisk hfree hq]
  · simp only [contents, AList.lookup_erase_ne hne, stored_deAllocatePage hdisk hfree hq]
    split
    · exact field_update Page.data (by rfl) _
    · rfl

theorem flushPage_ok (hl : s.pageTable.lookup p = some f) (hp : 0 ≤ p.toInt) :
    ∃ s', s.flushPage p = .ok (true, s') := by
  rcases writePage_ok s.diskManager (s.pages f).data hp with ⟨dm, hwrite⟩
  simp only [flushPage, hl, Disk.writePage_eq, hwrite, ok_bind]
  exact ⟨_, rfl⟩

end BufferPoolManager
end MiniSQL
