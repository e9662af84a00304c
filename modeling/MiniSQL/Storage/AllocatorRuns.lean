import MiniSQL.Storage.PageAllocator

/-!
# AllocatorRuns — whole sessions of the disk manager

A session is a run of calls on a fresh file.  `Represents` ties the manager to the set of pages
its history leaves in use; `Dense` covers the sessions that free nothing, where the page numbers
come out one after the other.  The last part closes the manager and opens the file again.
-/

namespace MiniSQL
namespace DiskManager

open Lib DiskFileMetaPage

variable {dm dm' : DiskManager}

/-! ## Runs -/

/-- A completed call of the disk manager, with what it returned. -/
inductive Event
  | allocatePage (p : PageId)
  | deAllocatePage (p : PageId)
  | isPageFree (p : PageId) (free : Bool)
  | writePage (p : PageId) (pageData : PageData)

/-- The transitions of the disk manager on logical page ids. -/
def Step (dm : DiskManager) : Event → DiskManager → Prop
  | .allocatePage p, dm' => dm.allocatePage = .ok (p, dm')
  | .deAllocatePage p, dm' => 0 ≤ p.toInt ∧ dm.deAllocatePage p = .ok dm'
  | .isPageFree p free, dm' => 0 ≤ p.toInt ∧ dm.isPageFree p = free ∧ dm' = dm
  | .writePage p pageData, dm' => dm.writePage p pageData = .ok dm'

/-- The pages in use, from the history of calls alone. -/
def track (pages : Finset PageId) : Event → Finset PageId
  | .allocatePage p => insert p pages
  | .deAllocatePage p => pages.erase p
  | _ => pages

def allocatedPages (es : List Event) : Finset PageId :=
  es.foldl track ∅

/-- The disk manager represents this set of pages in use. -/
structure Represents (dm : DiskManager) (pages : Finset PageId) : Prop where
  inv : Inv dm
  nonneg : ∀ p ∈ pages, 0 ≤ p.toInt
  free_iff : ∀ p : PageId, 0 ≤ p.toInt → (dm.isPageFree p = true ↔ p ∉ pages)

theorem fresh_represents : Represents fresh ∅ := by
  refine ⟨fresh_inv, by simp, fun p _ => ?_⟩
  have : fresh.isPageFree p = true := BitmapPage.isPageFree_zero _
  simp [this]

/-- Inversion of a returned `DeAllocatePage`. -/
theorem Inv.freed_cases (hinv : Inv dm) {p : PageId} (hp : 0 ≤ p.toInt)
    (hok : dm.deAllocatePage p = .ok dm') :
    (dm.isPageFree p = true ∧ dm' = dm) ∨
      Frees dm dm' (sizeT p / BITMAP_SIZE) (sizeT p % BITMAP_SIZE) := by
  rcases hinv.deAllocatePage_cases hp with ⟨hfree, hsame⟩ | ⟨dm₁, hok₁, hf⟩
  · rw [hsame] at hok
    exact Or.inl ⟨hfree, (Except.ok.inj hok).symm⟩
  · rw [hok₁] at hok
    exact Or.inr (Except.ok.inj hok ▸ hf)

/-- The extent computed from a negative page id lies far outside the extent table, so a call that
returns did nothing. -/
theorem deAllocatePage_of_neg {p : PageId} (hp : p.toInt < 0)
    (hok : dm.deAllocatePage p = .ok dm') : dm' = dm := by
  have hlo := p.le_toInt
  -- As a `size_t` the id is close to `2 ^ 64`, and its extent index past any table.
  have hbound : ¬8 + 4 * (sizeT p / BITMAP_SIZE % 2 ^ 32) + 4 ≤ PAGE_SIZE := by
    have hsize : (sizeT p : Int) = p.toInt + 2 ^ 64 := by
      unfold sizeT
      omega
    simp only [BITMAP_SIZE, PAGE_SIZE]
    omega
  simp only [deAllocatePage, hbound, if_false] at hok
  split at hok
  · simp at hok
  · exact (Except.ok.inj hok).symm

theorem deAllocatePage_inv {p : PageId} (hok : dm.deAllocatePage p = .ok dm') (hinv : Inv dm) :
    Inv dm' := by
  by_cases hp : 0 ≤ p.toInt
  · rcases hinv.freed_cases hp hok with ⟨_, rfl⟩ | hf
    · exact hinv
    · exact hf.inv hinv
  · rw [deAllocatePage_of_neg (by omega) hok]
    exact hinv

theorem Step.inv {e : Event} (hstep : Step dm e dm') (hinv : Inv dm) : Inv dm' := by
  cases e with
  | allocatePage p =>
      rcases hinv.allocatePage_cases hstep with ⟨k, o, _, ha⟩
      exact ha.inv hinv
  | deAllocatePage p =>
      exact deAllocatePage_inv hstep.2 hinv
  | isPageFree p free =>
      rcases hstep with ⟨_, _, rfl⟩
      exact hinv
  | writePage p d =>
      exact writePage_inv hstep hinv

theorem Step.represents {pages : Finset PageId} {e : Event} (hstep : Step dm e dm')
    (h : Represents dm pages) : Represents dm' (track pages e) := by
  refine ⟨hstep.inv h.inv, ?_, ?_⟩
  · -- Only an allocation adds a page, and it adds one of the extent table.
    cases e with
    | allocatePage p =>
        intro q hq
        rcases h.inv.allocatePage_cases hstep with ⟨k, o, rfl, ha⟩
        rcases Finset.mem_insert.mp hq with rfl | hq
        · exact page_nonneg ha.extent_lt ha.offset_lt
        · exact h.nonneg q hq
    | deAllocatePage p =>
        intro q hq
        exact h.nonneg q (Finset.mem_of_mem_erase hq)
    | isPageFree p free =>
        exact h.nonneg
    | writePage p pageData =>
        exact h.nonneg
  · intro q hq
    cases e with
    | allocatePage p =>
        rcases h.inv.allocatePage_cases hstep with ⟨k, o, rfl, ha⟩
        rw [ha.isPageFree hq, track, Finset.mem_insert, Bool.and_eq_true, h.free_iff q hq]
        simp only [Bool.not_eq_true', decide_eq_false_iff_not]
        tauto
    | deAllocatePage p =>
        rcases hstep with ⟨hp, hok⟩
        rcases h.inv.freed_cases hp hok with ⟨hfree, rfl⟩ | hf
        · -- A free page is not in the set, so erasing it changes nothing.
          rw [track, Finset.erase_eq_of_notMem ((h.free_iff p hp).mp hfree)]
          exact h.free_iff q hq
        · rw [hf.isPageFree hp hq, track, Finset.mem_erase, Bool.or_eq_true, h.free_iff q hq]
          simp only [decide_eq_true_eq]
          tauto
    | isPageFree p free =>
        rcases hstep with ⟨_, _, rfl⟩
        exact h.free_iff q hq
    | writePage p pageData =>
        rw [writePage_isPageFree hstep hq]
        exact h.free_iff q hq

/-- After every run the manager represents the pages its history leaves in use. -/
theorem run_represents {es : List Event} (hrun : Run Step fresh es dm) :
    Represents dm (allocatedPages es) :=
  Run.simulates (R := Represents) (g := track)
    (fun _ _ _ _ h hstep => Step.represents hstep h) hrun fresh_represents

/-! ## Sequential allocation -/

/-- The hint of every bitmap is below every free offset.  A deallocation breaks this. -/
def LeastHint (dm : DiskManager) : Prop :=
  ∀ k, k < EXTENT_BOUND → ∀ i, i < BITMAP_SIZE → BitmapPage.isPageFree (dm.bitmap k) i = true →
    BitmapPage.nextFreePage (dm.bitmap k) ≤ i

/-- The pages in use are exactly those below `n`. -/
structure Dense (dm : DiskManager) (n : Nat) : Prop where
  inv : Inv dm
  hint : LeastHint dm
  count_le : n ≤ MAX_VALID_PAGE_ID
  free_iff : ∀ p : PageId, 0 ≤ p.toInt → (dm.isPageFree p = true ↔ n ≤ sizeT p)

theorem fresh_dense : Dense fresh 0 := by
  refine ⟨fresh_inv, fun k _ i _ _ => ?_, Nat.zero_le _, fun p _ => ?_⟩
  · have hzero : BitmapPage.nextFreePage (fresh.bitmap k) = 0 := Buf.u32_zero 4
    omega
  · have hfree : fresh.isPageFree p = true := BitmapPage.isPageFree_zero _
    simp [hfree]

/-- All pages below the one returned were in use. -/
theorem Allocates.below_used {k o : Nat} (h : Allocates dm dm' k o) (hhint : LeastHint dm)
    {j : Nat} (hj : j < o + BITMAP_SIZE * k) : dm.isPageFree (Int32.ofNat j) = false := by
  have hlt := h.extent_lt
  have holt := h.offset_lt
  have hj31 : j < 2 ^ 31 := by
    simp only [MAX_EXTENTS, BITMAP_SIZE] at *
    omega
  have hnonneg : 0 ≤ (Int32.ofNat j).toInt := by
    rw [ofNat_toInt hj31]
    omega
  rw [isPageFree_eq_false_iff hnonneg, sizeT_ofNat hj31]
  have hmod : j % BITMAP_SIZE < BITMAP_SIZE := Nat.mod_lt _ (by decide)
  by_cases hext : j / BITMAP_SIZE < k
  · -- A lower extent is full.
    exact BitmapPage.mem_bits.mpr ⟨hmod, BitmapPage.isPageFree_of_full (h.lower_full _ hext) hmod⟩
  · -- The same extent, below the hint.
    have heq : j / BITMAP_SIZE = k := by
      simp only [BITMAP_SIZE] at *
      omega
    have hbelow : j % BITMAP_SIZE < o := by
      simp only [BITMAP_SIZE] at *
      omega
    rw [heq]
    refine BitmapPage.mem_bits.mpr ⟨hmod, ?_⟩
    by_contra hfree
    have hle := hhint k (EXTENT_BOUND_of_MAX hlt) _ hmod (by simpa using hfree)
    rw [← h.offset_hint] at hle
    omega

/-- In a dense state `AllocatePage` returns the next page number. -/
theorem Dense.allocatePage {n : Nat} (h : Dense dm n) {p : PageId}
    (hok : dm.allocatePage = .ok (p, dm')) : p = Int32.ofNat n ∧ Dense dm' (n + 1) := by
  rcases h.inv.allocatePage_cases hok with ⟨k, o, rfl, ha⟩
  have hpage := sizeT_page ha.extent_lt ha.offset_lt
  have hnonneg := page_nonneg ha.extent_lt ha.offset_lt
  -- The page was free, so it is not below `n`; all pages below it are taken, so `n` is not below
  -- it.
  have hge : n ≤ o + BITMAP_SIZE * k := by
    have := (h.free_iff _ hnonneg).mp ha.page_free
    omega
  have hle : o + BITMAP_SIZE * k ≤ n := by
    by_contra hgt
    have hn31 : n < 2 ^ 31 := lt_of_le_of_lt h.count_le (by decide)
    have hused := ha.below_used h.hint (j := n) (by omega)
    have hfree := (h.free_iff (Int32.ofNat n) (by rw [ofNat_toInt hn31]; omega)).mpr
      (by rw [sizeT_ofNat hn31])
    rw [hused] at hfree
    exact Bool.false_ne_true hfree
  have heq : o + BITMAP_SIZE * k = n := le_antisymm hle hge
  have hlt := ha.extent_lt
  have holt := ha.offset_lt
  refine ⟨by rw [heq], ha.inv h.inv, ?_, ?_, fun q hq => ?_⟩
  · -- The bitmap of extent `k` has a new hint, the others keep theirs.
    intro j hj i hi hfree
    by_cases hjk : j = k
    · subst hjk
      exact ha.hint_least i hi hfree
    · rw [ha.bitmap_other hj hjk] at hfree ⊢
      exact h.hint j hj i hi hfree
  · simp only [MAX_EXTENTS, BITMAP_SIZE, MAX_VALID_PAGE_ID] at *
    omega
  · rw [ha.isPageFree hq, Bool.and_eq_true, h.free_iff q hq]
    have hiff : q = Int32.ofNat (o + BITMAP_SIZE * k) ↔ sizeT q = n := by
      constructor
      · rintro rfl
        rw [hpage, heq]
      · intro hs
        exact sizeT_inj hq hnonneg (by rw [hs, hpage, heq])
    simp only [Bool.not_eq_true', decide_eq_false_iff_not, hiff]
    omega

/-- As long as page numbers are left, the next one is handed out. -/
theorem Dense.allocatePage_ok {n : Nat} (h : Dense dm n) (hn : n < MAX_VALID_PAGE_ID) :
    ∃ dm', dm.allocatePage = .ok (Int32.ofNat n, dm') ∧ Dense dm' (n + 1) := by
  have hn31 : n < 2 ^ 31 := lt_trans hn (by decide)
  have hk : n / BITMAP_SIZE < MAX_EXTENTS := by
    simp only [MAX_VALID_PAGE_ID, BITMAP_SIZE, MAX_EXTENTS] at *
    omega
  have hnonneg : 0 ≤ (Int32.ofNat n).toInt := by
    rw [ofNat_toInt hn31]
    omega
  have hfree : dm.isPageFree (Int32.ofNat n) = true :=
    (h.free_iff _ hnonneg).mpr (by rw [sizeT_ofNat hn31])
  -- The extent of page `n` is not full, since page `n` is free.
  have hroom : (dm.used (n / BITMAP_SIZE)).card < BITMAP_SIZE := by
    refine lt_of_le_of_ne (card_used_le dm _) fun hfull => ?_
    have hmod : n % BITMAP_SIZE < BITMAP_SIZE := Nat.mod_lt _ (by decide)
    have hused : n % BITMAP_SIZE ∈ dm.used (n / BITMAP_SIZE) :=
      BitmapPage.mem_bits.mpr ⟨hmod, BitmapPage.isPageFree_of_full hfull hmod⟩
    rw [← sizeT_ofNat hn31, ← isPageFree_eq_false_iff hnonneg, hfree] at hused
    exact Bool.false_ne_true hused.symm
  rcases h.inv.allocatePage_ok hk hroom with ⟨p, dm', hok⟩
  rcases h.allocatePage hok with ⟨rfl, hdense⟩
  exact ⟨dm', hok, hdense⟩

/-- A write keeps all hints. -/
theorem writePage_dense {n : Nat} {p : PageId} {d : PageData} (h : Dense dm n)
    (hok : dm.writePage p d = .ok dm') : Dense dm' n := by
  refine ⟨writePage_inv hok h.inv, fun k hk => ?_, h.count_le, fun q hq => ?_⟩
  · rw [bitmap, writePage_bitmap hok hk]
    exact h.hint k hk
  · rw [writePage_isPageFree hok hq]
    exact h.free_iff q hq

/-- The pages `AllocatePage` returned, in order. -/
def allocations (es : List Event) : List PageId :=
  es.filterMap fun
    | .allocatePage p => some p
    | _ => none

/-- Without deallocations the page numbers are handed out one after the other. -/
theorem run_allocations {es : List Event} (hrun : Run Step dm es dm') {n : Nat} (h : Dense dm n)
    (hno : ∀ p, Event.deAllocatePage p ∉ es) :
    allocations es = (List.range' n (allocations es).length).map Int32.ofNat := by
  -- Along the run `n` counts the pages handed out; a deallocation, which would break `Dense`,
  -- does not occur.
  induction hrun generalizing n with
  | nil s =>
      rfl
  | @cons s s' s'' e es' hstep _ ih =>
      have hno' : ∀ p, Event.deAllocatePage p ∉ es' := fun p hp =>
        hno p (List.mem_cons_of_mem _ hp)
      cases e with
      | allocatePage p =>
          rcases h.allocatePage hstep with ⟨rfl, hdense⟩
          have hcons : allocations (.allocatePage (Int32.ofNat n) :: es') =
              Int32.ofNat n :: allocations es' := rfl
          rw [hcons]
          calc
            Int32.ofNat n :: allocations es'
                = Int32.ofNat n ::
                    (List.range' (n + 1) (allocations es').length).map Int32.ofNat := by
                  rw [← ih hdense hno']
            _ = (List.range' n ((allocations es').length + 1)).map Int32.ofNat := by
                  rw [List.range'_succ, List.map_cons]
      | deAllocatePage p =>
          exact absurd (List.mem_cons_self ..) (hno p)
      | isPageFree p free =>
          rcases hstep with ⟨_, _, rfl⟩
          exact ih h hno'
      | writePage p d =>
          exact ih (writePage_dense h hstep) hno'

/-! ## The allocator -/

/-- What one call of `AllocatePage` may do: take a free page of the lowest extent with room, the
one past the open extents only when these are full, and touch no other page. -/
structure TakesLowest (dm : DiskManager) (p : PageId) (dm' : DiskManager) : Prop where
  valid : 0 ≤ p.toInt ∧ sizeT p < MAX_VALID_PAGE_ID
  was_free : dm.isPageFree p = true
  now_used : dm'.isPageFree p = false
  others : ∀ q : PageId, 0 ≤ q.toInt → q ≠ p → dm'.isPageFree q = dm.isPageFree q
  lower_full : ∀ j, j < sizeT p / BITMAP_SIZE → (dm.used j).card = BITMAP_SIZE
  room : (dm.used (sizeT p / BITMAP_SIZE)).card < BITMAP_SIZE
  extents : numExtents dm'.metaData.mem =
    if sizeT p / BITMAP_SIZE = numExtents dm.metaData.mem then numExtents dm.metaData.mem + 1
    else numExtents dm.metaData.mem

/-- What one call of `DeAllocatePage` may do: free `p` and nothing else, and nothing at all when
`p` is free or lies in an extent that was never opened. -/
structure FreesOnly (dm : DiskManager) (p : PageId) (dm' : DiskManager) : Prop where
  now_free : dm'.isPageFree p = true
  others : ∀ q : PageId, 0 ≤ q.toInt → q ≠ p → dm'.isPageFree q = dm.isPageFree q
  free_noop : dm.isPageFree p = true → dm' = dm
  unopened_noop : numExtents dm.metaData.mem ≤ sizeT p / BITMAP_SIZE → dm' = dm

theorem Inv.takesLowest (hinv : Inv dm) {p : PageId} (hok : dm.allocatePage = .ok (p, dm')) :
    TakesLowest dm p dm' := by
  rcases hinv.allocatePage_cases hok with ⟨k, o, rfl, ha⟩
  have hlt := ha.extent_lt
  have holt := ha.offset_lt
  have hpage := sizeT_page hlt holt
  have hnonneg := page_nonneg hlt holt
  rcases page_extent hlt holt with ⟨hdiv, _⟩
  refine ⟨⟨hnonneg, ?_⟩, ha.page_free, ?_, ?_, ?_, ?_, ?_⟩
  · rw [hpage]
    simp only [MAX_EXTENTS, BITMAP_SIZE, MAX_VALID_PAGE_ID] at *
    omega
  · rw [ha.isPageFree hnonneg]
    simp
  · intro q hq hne
    rw [ha.isPageFree hq, decide_eq_false hne, Bool.not_false, Bool.and_true]
  · rw [hdiv]
    exact ha.lower_full
  · rw [hdiv]
    exact ha.room
  · have hle := ha.extent_le
    rw [hdiv, ha.extents]
    split <;> omega

theorem Inv.freesOnly (hinv : Inv dm) {p : PageId} (hp : 0 ≤ p.toInt) :
    ∃ dm', dm.deAllocatePage p = .ok dm' ∧ FreesOnly dm p dm' := by
  rcases hinv.deAllocatePage_cases hp with ⟨hfree, hok⟩ | ⟨dm', hok, hf⟩
  · exact ⟨dm, hok, hfree, fun _ _ _ => rfl, fun _ => rfl, fun _ => rfl⟩
  · refine ⟨dm', hok, ?_, fun q hq hne => ?_, fun hfree => ?_, fun hle => ?_⟩
    · rw [hf.isPageFree hp hp]
      simp
    · rw [hf.isPageFree hp hq]
      simp [hne]
    · rw [(isPageFree_eq_false_iff hp).mpr hf.offset_used] at hfree
      exact absurd hfree Bool.false_ne_true
    · have := hf.extent_open
      omega

/-- The disk allocator over every session on a fresh file. -/
theorem session_allocator {es : List Event} {dm : DiskManager} (hrun : Run Step fresh es dm) :
    numAllocatedPages dm.metaData.mem =
        ∑ k ∈ Finset.range (numExtents dm.metaData.mem), extentUsedPage dm.metaData.mem k ∧
      (∀ k, k < MAX_EXTENTS → extentUsedPage dm.metaData.mem k = (dm.used k).card) ∧
      (∀ p : PageId, 0 ≤ p.toInt → (dm.isPageFree p = true ↔ p ∉ allocatedPages es)) ∧
      (∀ p dm', dm.allocatePage = .ok (p, dm') → TakesLowest dm p dm') ∧
      ((∃ k, k < MAX_EXTENTS ∧ (dm.used k).card < BITMAP_SIZE) →
        ∃ p dm', dm.allocatePage = .ok (p, dm')) ∧
      (∀ p : PageId, 0 ≤ p.toInt → ∃ dm', dm.deAllocatePage p = .ok dm' ∧ FreesOnly dm p dm') ∧
      ((∀ p, Event.deAllocatePage p ∉ es) →
        allocations es = (List.range (allocations es).length).map Int32.ofNat) := by
  have hrep := run_represents hrun
  refine ⟨hrep.inv.allocated, hrep.inv.extent_used, hrep.free_iff, ?_, ?_, ?_, ?_⟩
  · intro p dm' hok
    exact hrep.inv.takesLowest hok
  · rintro ⟨k, hk, hroom⟩
    exact hrep.inv.allocatePage_ok hk hroom
  · intro p hp
    exact hrep.inv.freesOnly hp
  · intro hno
    rw [List.range_eq_range']
    exact run_allocations hrun fresh_dense hno

/-- A manager whose meta page is zero opens extent 0 and hands out page 0. -/
theorem allocatePage_of_zero_meta (hmeta : dm.metaData = Buf.zero PAGE_SIZE) :
    ∃ dm', dm.allocatePage = .ok (0, dm') := by
  have hextents : numExtents dm.metaData.mem = 0 := by
    rw [hmeta]
    exact Buf.u32_zero 4
  -- The bitmap of a new extent is a zeroed buffer, whatever the file holds there.
  have hinv : BitmapPage.Inv PAGE_SIZE (Buf.zero PAGE_SIZE).mem :=
    BitmapPage.inv_zero (by decide)
  rcases BitmapPage.allocatePage_of_room hinv (by decide)
    (by rw [BitmapPage.bits_zero]; decide) with ⟨m', heq, _⟩
  have hhint : BitmapPage.nextFreePage (Buf.zero PAGE_SIZE).mem = 0 := Buf.u32_zero 4
  simp only [allocatePage, hextents, findExtent, heq, hhint, Nat.lt_irrefl, if_false,
    show 8 + 4 * 0 + 4 ≤ PAGE_SIZE by decide, if_true]
  exact ⟨_, rfl⟩

theorem session_allocator_two :
    ∃ dm, Run Step fresh [.allocatePage 0, .isPageFree 0 false] dm ∧
      numAllocatedPages dm.metaData.mem =
        ∑ k ∈ Finset.range (numExtents dm.metaData.mem), extentUsedPage dm.metaData.mem k ∧
      dm.isPageFree 1 = true := by
  have hzero : fresh.metaData = Buf.zero PAGE_SIZE := rfl
  rcases allocatePage_of_zero_meta hzero with ⟨dm, hok⟩
  have hfree := (fresh_inv.takesLowest hok).now_used
  have hrun : Run Step fresh [.allocatePage 0, .isPageFree 0 false] dm :=
    Run.cons hok (Run.cons ⟨by decide, hfree, rfl⟩ (Run.nil _))
  rcases session_allocator hrun with ⟨hsum, _, hiff, _⟩
  exact ⟨dm, hrun, hsum, (hiff 1 (by decide)).mpr (by decide)⟩

/-! ## Closing and opening again -/

/-- No call writes the meta page back to the file. -/
theorem Step.file_meta {e : Event} (hstep : Step dm e dm') (hinv : Inv dm) :
    dm'.file META_PAGE_ID = dm.file META_PAGE_ID := by
  cases e with
  | allocatePage p =>
      rcases hinv.allocatePage_cases hstep with ⟨k, o, _, ha⟩
      exact ha.file_other _ (bitmapAddr_ne_meta (EXTENT_BOUND_of_MAX ha.extent_lt)).symm
  | deAllocatePage p =>
      rcases hstep with ⟨hp, hok⟩
      rcases hinv.freed_cases hp hok with ⟨_, rfl⟩ | hf
      · rfl
      · exact hf.file_other _ (bitmapAddr_ne_meta (extentIndex_lt hp)).symm
  | isPageFree p free =>
      rcases hstep with ⟨_, _, rfl⟩
      rfl
  | writePage p d =>
      by_cases hp : 0 ≤ p.toInt
      · simp only [Step, writePage, hp, decide_true, assert_true, ok_bind, Except.ok.injEq]
          at hstep
        subst hstep
        simp [writePhysicalPage, Function.update_of_ne (mapPageId_ne_meta hp).symm]
      · simp [Step, writePage, assert, hp] at hstep

/-- The meta page in the file stays as it was when the file was new. -/
theorem run_file_meta {es : List Event} (hrun : Run Step fresh es dm) :
    dm.file META_PAGE_ID = Buf.zero PAGE_SIZE := by
  -- That a write misses the meta page rests on the invariant, so both are carried along.
  have hboth : Inv dm ∧ dm.file META_PAGE_ID = Buf.zero PAGE_SIZE := by
    refine hrun.invariant (P := fun d => Inv d ∧ d.file META_PAGE_ID = Buf.zero PAGE_SIZE) ?_
      ⟨fresh_inv, rfl⟩
    rintro s e s' ⟨hinv, hmeta⟩ hstep
    exact ⟨hstep.inv hinv, by rw [hstep.file_meta hinv, hmeta]⟩
  exact hboth.2

/-- An extent, once open, stays open. -/
theorem Step.extents_le {e : Event} (hstep : Step dm e dm') (hinv : Inv dm) :
    numExtents dm.metaData.mem ≤ numExtents dm'.metaData.mem := by
  cases e with
  | allocatePage p =>
      rcases hinv.allocatePage_cases hstep with ⟨k, o, _, ha⟩
      rw [ha.extents]
      exact le_max_left _ _
  | deAllocatePage p =>
      rcases hstep with ⟨hp, hok⟩
      rcases hinv.freed_cases hp hok with ⟨_, rfl⟩ | hf
      · exact le_refl _
      · rw [hf.extents]
  | isPageFree p free =>
      rcases hstep with ⟨_, _, rfl⟩
      exact le_refl _
  | writePage p d =>
      rw [writePage_metaData hstep]

/-- A session that allocates has opened an extent. -/
theorem run_extents_pos {es : List Event} (hrun : Run Step dm es dm') (hinv : Inv dm)
    (hpos : 0 < numExtents dm.metaData.mem ∨ ∃ p, Event.allocatePage p ∈ es) :
    0 < numExtents dm'.metaData.mem := by
  induction hrun with
  | nil s =>
      simpa using hpos
  | @cons s s' s'' e es' hstep _ ih =>
      refine ih (hstep.inv hinv) ?_
      -- An extent was open before, or this call allocates, or a later one does.
      rcases hpos with hpos | ⟨p, hp⟩
      · exact Or.inl (lt_of_lt_of_le hpos (hstep.extents_le hinv))
      · rcases List.mem_cons.mp hp with rfl | hp
        · rcases hinv.allocatePage_cases hstep with ⟨k, o, _, ha⟩
          left
          rw [ha.extents]
          omega
        · exact Or.inr ⟨p, hp⟩

/-- A session that allocates nothing leaves the meta page zero and no page in use. -/
theorem run_without_allocations {es : List Event} (hrun : Run Step fresh es dm)
    (hno : ∀ p, Event.allocatePage p ∉ es) :
    dm.metaData = Buf.zero PAGE_SIZE ∧ allocatedPages es = ∅ := by
  have hR := Run.simulates (R := fun d pages => Represents d pages ∧
      d.metaData = Buf.zero PAGE_SIZE ∧ pages = ∅) (g := track) ?_
    (hrun.restrict (P := fun e => ∀ p, e ≠ .allocatePage p) ?_)
    ⟨fresh_represents, rfl, rfl⟩
  · exact hR.2
  · rintro s e s' pages ⟨hrep, hmeta, rfl⟩ ⟨hne, hstep⟩
    refine ⟨hstep.represents hrep, ?_, ?_⟩
    · cases e with
      | allocatePage p =>
          exact absurd rfl (hne p)
      | deAllocatePage p =>
          rcases hstep with ⟨hp, hok⟩
          rcases hrep.inv.freed_cases hp hok with ⟨_, rfl⟩ | hf
          · exact hmeta
          · -- Nothing is in use, so nothing can be freed.
            have hfree := (hrep.free_iff p hp).mpr (by simp)
            rw [(isPageFree_eq_false_iff hp).mpr hf.offset_used] at hfree
            exact absurd hfree Bool.false_ne_true
      | isPageFree p free =>
          rcases hstep with ⟨_, _, rfl⟩
          exact hmeta
      | writePage p d =>
          rw [writePage_metaData hstep, hmeta]
    · cases e with
      | allocatePage p =>
          exact absurd rfl (hne p)
      | _ =>
          rfl
  · rintro e he p rfl
    exact hno p he

/-- What reopening promises of a manager `dm` closed with these pages in use: the counters come
back, and a later session that frees none of the old pages neither hands one out nor clears its
bit. -/
structure ReopenSafe (dm : DiskManager) (pages : Finset PageId) : Prop where
  allocated : numAllocatedPages (openFile dm.close).metaData.mem =
    numAllocatedPages dm.metaData.mem
  extents : numExtents (openFile dm.close).metaData.mem = numExtents dm.metaData.mem
  extent_used : ∀ k, k < MAX_EXTENTS →
    extentUsedPage (openFile dm.close).metaData.mem k = extentUsedPage dm.metaData.mem k
  kept : ∀ es dm', Run Step (openFile dm.close) es dm' →
    (∀ p ∈ pages, Event.deAllocatePage p ∉ es) →
    (∀ p ∈ allocations es, p ∉ pages) ∧ ∀ p ∈ pages, dm'.isPageFree p = false

/-- The meta page is never written back, so reopening is safe only after a session that allocated
nothing. -/
theorem reopen_safe_iff {es : List Event} {dm : DiskManager} (hrun : Run Step fresh es dm) :
    ReopenSafe dm (allocatedPages es) ↔ ∀ p, Event.allocatePage p ∉ es := by
  have hmeta : (openFile dm.close).metaData = Buf.zero PAGE_SIZE := run_file_meta hrun
  constructor
  · -- The extent that was opened is not in the meta page of the file.
    intro hsafe p hp
    have hpos := run_extents_pos hrun fresh_inv (Or.inr ⟨p, hp⟩)
    have hzero := hsafe.extents
    rw [hmeta, numExtents, Buf.u32_zero] at hzero
    omega
  · -- Nothing is in use, and both meta pages are zero.
    intro hno
    rcases run_without_allocations hrun hno with ⟨hzero, hnone⟩
    refine ⟨?_, ?_, ?_, ?_⟩
    · rw [hmeta, hzero]
    · rw [hmeta, hzero]
    · intro k _
      rw [hmeta, hzero]
    · rw [hnone]
      intro es' dm' _ _
      simp

/-- A session without an allocation, to which the condition applies. -/
theorem reopen_safe_iff_write :
    ∃ dm, Run Step fresh [.writePage 3 (Buf.zero PAGE_SIZE)] dm ∧ ReopenSafe dm ∅ := by
  have hrun : Run Step fresh [.writePage 3 (Buf.zero PAGE_SIZE)]
      (fresh.writePhysicalPage (mapPageId 3) (Buf.zero PAGE_SIZE)) :=
    Run.cons rfl (Run.nil _)
  exact ⟨_, hrun, (reopen_safe_iff hrun).mpr (by simp)⟩

/-- Whatever the session was, the first page handed out after reopening is page 0. -/
theorem reopen_allocatePage {es : List Event} (hrun : Run Step fresh es dm) :
    ∃ dm', (openFile dm.close).allocatePage = .ok (0, dm') :=
  allocatePage_of_zero_meta (run_file_meta hrun)

/-- One allocation, a close and a reopen: page 0 is in use and is handed out again. -/
theorem reopen_hands_out_used_page :
    ¬∀ es dm, Run Step fresh es dm → ReopenSafe dm (allocatedPages es) := by
  intro hall
  have hzero : fresh.metaData = Buf.zero PAGE_SIZE := rfl
  rcases allocatePage_of_zero_meta hzero with ⟨dm, hok⟩
  have hrun : Run Step fresh [.allocatePage 0] dm := Run.cons hok (Run.nil _)
  rcases reopen_allocatePage hrun with ⟨dm', hagain⟩
  have hsafe := (hall _ _ hrun).kept [.allocatePage 0] dm' (Run.cons hagain (Run.nil _)) (by simp)
  exact hsafe.1 0 (by simp [allocations]) (by simp [allocatedPages, track])

end DiskManager
end MiniSQL
