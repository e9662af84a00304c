import MiniSQL.Storage.HeapView

/-!
# HeapScan — a scan over a heap whose pages come and go

`Begin` gives every page back that it fetches.  `operator++` gives the page before the last one back
twice and keeps the last one pinned, so a page whose bytes are nowhere but in its frame can lose the
pin that holds it there.  Where the pinned pages are dirty or on disk (`PinnedStored`) it leaves the
tuples of the heap alone.
-/

namespace MiniSQL

open Lib

namespace TableHeap

open BufferPoolManager

variable {n : Nat} {s₀ s s' s₁ s₂ : BufferPoolManager n} {f : Fin n} {p q c last : PageId}
variable {heap : TableHeap} {row row' : Row} {rid : RowId} {fuel : Nat} {done : Bool}
variable {T : HeapView} {first found : Option RowId} {it it' : TableIterator}

/-! ## Links -/

/-- The page behind a page of the heap is one of the heap, or there is none. -/
def LinksInside (s₀ s : BufferPoolManager n) : Prop :=
  ∀ p, OfHeap s₀ s p → behind s p = INVALID_PAGE_ID ∨ OfHeap s₀ s (behind s p)

/-- A page of zeros has page 0 behind it. -/
def HeapView.Linked (T : HeapView) : Prop :=
  ∀ p, T p = .zeros → T 0 ≠ .other

theorem Refines.behind_zeros (h : Refines heap s₀ s T) (hT : T p = .zeros) : behind s p = 0 := by
  have hshown := h.shown (p := p) (by rw [hT]; exact PageView.noConfusion)
  rw [hT] at hshown
  rw [behind, show s.contents p = Buf.zero PAGE_SIZE from hshown]
  simp only [TablePage.getNextPageId, Buf.u32_zero]
  rfl

theorem Refines.linked (h : Refines heap s₀ s T) (hinside : LinksInside s₀ s) : T.Linked := by
  intro p hT
  have hp : T p ≠ .other := by
    rw [hT]
    exact PageView.noConfusion
  have hnext := hinside p ((h.made p).mp hp)
  rw [h.behind_zeros hT] at hnext
  exact (h.made 0).mpr (hnext.resolve_left (by decide))

theorem Refines.behind (h : Refines heap s₀ s T) (hlinked : T.Linked) (hp : T p ≠ .other) :
    behind s p = INVALID_PAGE_ID ∨ T (behind s p) ≠ .other := by
  cases hT : T p with
  | other =>
      exact absurd hT hp
  | zeros =>
      rw [h.behind_zeros hT]
      exact Or.inr (hlinked p hT)
  | entries es =>
      have hshown := h.shown hp
      rw [hT] at hshown
      exact hshown.2

/-- The first live tuple of a page of the heap is a tuple of the heap. -/
theorem Refines.firstTuple (h : Refines heap s₀ s T) (hp : T p ≠ .other)
    (hfirst : TablePage.getFirstTupleRid (s.contents p).mem = (true, rid)) :
    T rid.pageId ≠ .other := by
  have hshown := h.shown hp
  cases hT : T p with
  | other =>
      exact absurd hT hp
  | zeros =>
      rw [hT] at hshown
      rw [show s.contents p = Buf.zero PAGE_SIZE from hshown] at hfirst
      simp [TablePage.getFirstTupleRid, TablePage.getTupleCount, Buf.u32_zero,
        TablePage.findLive] at hfirst
  | entries es =>
      rw [hT] at hshown
      rw [(getFirstTupleRid_live hshown.1 hfirst).1]
      exact hp

/-! ## Begin -/

/-- Reading a tuple moves pages only. -/
theorem Refines.getTuple_keeps (h : Refines heap s₀ s T) (hp : T row.rid.pageId ≠ .other)
    (hok : heap.getTuple s row = .ok (done, row', s')) : Refines heap s₀ s' T := by
  rcases bind_eq_ok.mp hok with ⟨⟨reply, s₁⟩, hfetch, hok⟩
  cases reply with
  | none =>
      cases hok
      rw [fetchPage_null hfetch]
      exact h
  | some f =>
      rcases bind_eq_ok.mp hok with ⟨_, _, hok⟩
      cases hok
      exact h.visit hp hfetch

theorem Refines.findFirst (h : Refines heap s₀ s T) (hlinked : T.Linked)
    (hp : p = INVALID_PAGE_ID ∨ T p ≠ .other)
    (hok : findFirst fuel s p = .ok (some (first, s'))) :
    Refines heap s₀ s' T ∧ ∀ rid, first = some rid → T rid.pageId ≠ .other := by
  -- The links lead from page to page of the heap, and each page is given back.
  induction fuel generalizing s p with
  | zero =>
      unfold TableHeap.findFirst at hok
      split at hok
      · cases hok
        exact ⟨h, fun _ hnone => by cases hnone⟩
      · cases hok
  | succ fuel ih =>
      unfold TableHeap.findFirst at hok
      split at hok
      · cases hok
        exact ⟨h, fun _ hnone => by cases hnone⟩
      · rename_i hvalid
        have hp := hp.resolve_left hvalid
        rcases bind_eq_ok.mp hok with ⟨⟨reply, s₁⟩, hfetch, hok⟩
        rcases bind_eq_ok.mp hok with ⟨g, hderef, hok⟩
        cases reply with
        | none =>
            cases hderef
        | some g' =>
            obtain rfl := Except.ok.inj hderef
            have hf := h.pool.frames.fetched h.pool.disk hfetch
            have h₁ := h.fetchPage hp hfetch
            have h₂ := h.visit hp hfetch
            have hl₂ : (s₁.unpinPage p false).2.pageTable.lookup p = some g' := by
              rw [(hf.frames.unpinned p false).table]
              exact hf.lookup
            simp only at hok
            split at hok
            · rename_i hfound
              cases hok
              refine ⟨h₂, fun rid heq => h₁.firstTuple hp ?_⟩
              cases heq
              rw [← bytes_of_lookup hf.lookup]
              exact Prod.ext hfound rfl
            · refine ih h₂ ?_ hok
              rw [bytes_of_lookup hl₂]
              exact h₂.behind hlinked hp

theorem Refines.begin (h : Refines heap s₀ s T) (hlinked : T.Linked)
    (hok : heap.begin fuel s = .ok (some (it, s'))) : Refines heap s₀ s' T := by
  rcases bind_eq_ok.mp hok with ⟨found, hfirst, hok⟩
  rcases found with _ | ⟨_ | rid, s₁⟩
  · cases hok
  · cases hok
    exact (h.findFirst hlinked (Or.inr h.first) hfirst).1
  · rcases bind_eq_ok.mp hok with ⟨⟨done, row, s₂⟩, hget, hok⟩
    cases hok
    rcases h.findFirst hlinked (Or.inr h.first) hfirst with ⟨h₁, hrid⟩
    exact h₁.getTuple_keeps (hrid rid rfl) hget

/-! ## The next tuple -/

/-- A page of the heap that somebody has pinned is marked dirty or has its bytes on disk. -/
def PinnedStored (s₀ s : BufferPoolManager n) : Prop :=
  ∀ p f, OfHeap s₀ s p → s.pageTable.lookup p = some f → (s.pages f).pinCount ≠ 0 →
    (s.pages f).isDirty = false → stored s.diskManager p = (s.pages f).data

/-- The pages show the same without their pins. -/
structure Steady (heap : TableHeap) (s₀ s : BufferPoolManager n) (T : HeapView) : Prop
    extends Refines heap s₀ s T where
  firm : ∀ p, 0 ≤ p.toInt → Firm s p ((T p).Shown heap.schema T p)

theorem Refines.steady (h : Refines heap s₀ s T) (hpinned : PinnedStored s₀ s) :
    Steady heap s₀ s T := by
  refine ⟨h, fun p hp => ?_⟩
  by_cases hT : T p = .other
  · rw [hT]
    exact ⟨trivial, fun _ _ _ => trivial⟩
  · exact (h.pages p hp).firm fun f => hpinned p f ((h.made p).mp hT)

theorem Steady.fetchPage (h : Steady heap s₀ s T) (hp : T p ≠ .other)
    (hok : s.fetchPage p = .ok (some f, s')) : Steady heap s₀ s' T :=
  ⟨h.toRefines.fetchPage hp hok, fun x hx =>
    (h.firm x hx).fetchPage h.pool.frames.queueInv hx hok⟩

theorem Steady.unpinPage (h : Steady heap s₀ s T) (q : PageId) :
    Steady heap s₀ (s.unpinPage q false).2 T := by
  have hfirm := fun x hx => (h.firm x hx).unpinPage q false
  refine ⟨h.congr (h.pool.unpinPage q false) (fun _ _ => ?_) fun x hx => (hfirm x hx).lasting,
    hfirm⟩
  rw [isPageFree, unpinPage_diskManager]
  rfl

theorem Steady.getTuple (h : Steady heap s₀ s T) (hp : T row.rid.pageId ≠ .other)
    (hok : heap.getTuple s row = .ok (done, row', s')) : Steady heap s₀ s' T := by
  rcases bind_eq_ok.mp hok with ⟨⟨reply, s₁⟩, hfetch, hok⟩
  cases reply with
  | none =>
      cases hok
      rw [fetchPage_null hfetch]
      exact h
  | some f =>
      rcases bind_eq_ok.mp hok with ⟨_, _, hok⟩
      cases hok
      exact (h.fetchPage hp hfetch).unpinPage _

/-- The search of `operator++` stands on pages of the heap. -/
theorem Steady.searchPages (h : Steady heap s₀ s T) (hlinked : T.Linked)
    (hl : s.pageTable.lookup p = some f) (hp : T p ≠ .other)
    (hok : searchPages fuel s f c = .ok (some (found, last, s'))) :
    Steady heap s₀ s' T ∧ ∀ rid, found = some rid → T rid.pageId ≠ .other := by
  induction fuel generalizing s f p c with
  | zero =>
      unfold TableHeap.searchPages at hok
      split at hok
      · cases hok
        exact ⟨h, fun _ hnone => by cases hnone⟩
      · cases hok
  | succ fuel ih =>
      unfold TableHeap.searchPages at hok
      split at hok
      · cases hok
        exact ⟨h, fun _ hnone => by cases hnone⟩
      · rename_i hnext
        have hu := h.pool.frames.unpinned p false
        simp only [(h.pool.frames.pageId hl).2, hu.bytes_eq] at hok
        rw [bytes_of_lookup hl] at hok hnext
        -- The pointer to the page that was given back is still followed, to a page of the heap.
        have hq := (h.behind hlinked hp).resolve_left hnext
        rcases bind_eq_ok.mp hok with ⟨⟨reply, s₂⟩, hfetch, hok⟩
        rcases bind_eq_ok.mp hok with ⟨g, hderef, hok⟩
        cases reply with
        | none =>
            cases hderef
        | some g' =>
            obtain rfl := Except.ok.inj hderef
            have h₁ := h.unpinPage p
            have hf := h₁.pool.frames.fetched h₁.pool.disk hfetch
            have h₂ := h₁.fetchPage hq hfetch
            simp only at hok
            split at hok
            · rename_i hfound
              cases hok
              refine ⟨h₂, fun rid heq => h₂.firstTuple hq ?_⟩
              cases heq
              rw [TableHeap.behind, ← bytes_of_lookup hf.lookup]
              exact Prod.ext hfound rfl
            · exact ih h₂ hf.lookup hq hok

/-- The id that follows on the same page. -/
theorem getNextTupleRid_pageId {m : Mem} {nextRID : RowId}
    (hok : TablePage.getNextTupleRid m rid = .ok (true, nextRID)) :
    nextRID.pageId = rid.pageId := by
  rcases bind_eq_ok.mp hok with ⟨_, hsame, hok⟩
  simp only [assert_eq_ok, decide_eq_true_eq] at hsame
  dsimp only at hok
  split at hok
  · cases hok
    exact hsame.symm
  · cases hok

theorem Steady.next (h : Steady heap s₀ s T) (hlinked : T.Linked)
    (hrow : ∀ row, it.row = some row → T row.rid.pageId ≠ .other)
    (hok : heap.next fuel s it = .ok (some (it', s'))) : Steady heap s₀ s' T := by
  rcases next_inversion hok with ⟨row, f, s₁, heq, hfetch, hcases⟩
  have hp := hrow row heq
  have hf := h.pool.frames.fetched h.pool.disk hfetch
  have h₁ := h.fetchPage hp hfetch
  rcases hcases with ⟨nextRID, _, _, s₂, hnext, hget, rfl⟩ |
    ⟨_, found, last, s₂, _, hsearch, hend⟩
  · refine (h₁.getTuple ?_ hget).unpinPage _
    rw [getNextTupleRid_pageId hnext]
    exact hp
  · rcases h₁.searchPages hlinked hf.lookup hp hsearch with ⟨h₂, hrid⟩
    -- The loop variable names a page that may have been given back already.
    rcases hend with rfl | ⟨rid, _, _, s₃, heq, hget, rfl⟩
    · exact h₂.unpinPage last
    · exact (h₂.getTuple (hrid rid heq) hget).unpinPage last

end TableHeap
end MiniSQL
