import MiniSQL.Storage.FreeHeap

/-!
# OversizedRows — rows that fit no page

`InsertTuple` has no test for a row that fits no page.  It makes a page, finds that the row does
not fit, makes another, and goes on until every frame of the pool is pinned by a page it made.  It
refuses such a row without a trace only when it cannot make the first of these pages:
`insert_rejects_iff`.
-/

namespace MiniSQL

open Lib

namespace BufferPoolManager

variable {n : Nat} {s s' : BufferPoolManager n} {f g : Fin n} {p q : PageId}

/-- The disk is in order and every page that was allocated still is. -/
structure StaysAllocated (s s' : BufferPoolManager n) : Prop where
  disk : DiskManager.Inv s'.diskManager
  used : ∀ p, 0 ≤ p.toInt → s.isPageFree p = false → s'.isPageFree p = false

theorem StaysAllocated.trans {s'' : BufferPoolManager n} (h : StaysAllocated s s')
    (h' : StaysAllocated s' s'') : StaysAllocated s s'' :=
  ⟨h'.disk, fun p hp hused => h'.used p hp (h.used p hp hused)⟩

theorem fetchPage_staysAllocated (hdisk : DiskManager.Inv s.diskManager) {r : Option (Fin n)}
    (hok : s.fetchPage p = .ok (r, s')) : StaysAllocated s s' := by
  have hstep : Step s (.fetchPage p r) s' := hok
  refine ⟨hstep.diskInv hdisk, fun q hq hused => ?_⟩
  rcases fetchPage_inversion hok with
    ⟨_, rfl⟩ | ⟨_, _, _, rfl⟩ | ⟨_, _, dm, _, _, _, hwrite, _, rfl⟩
  · exact hused
  · exact hused
  · exact (writeBack_isPageFree hwrite hq).trans hused

/-- A page is fetched and given back before pages are made. -/
theorem StaysAllocated.of_visit {s₁ : BufferPoolManager n} (q : PageId)
    (hdisk : DiskManager.Inv s.diskManager) (hfetch : s.fetchPage p = .ok (some f, s₁))
    (h : DiskManager.Inv s₁.diskManager → StaysAllocated (s₁.unpinPage q false).2 s') :
    StaysAllocated s s' := by
  have h₁ := fetchPage_staysAllocated hdisk hfetch
  have h' := h h₁.disk
  refine ⟨h'.disk, fun r hr hused => h'.used r hr ?_⟩
  rw [isPageFree, unpinPage_diskManager]
  exact h₁.used r hr hused

/-- `NewPage` turns a free page into an allocated one, whatever the frames. -/
theorem newPage_allocates (hdisk : DiskManager.Inv s.diskManager)
    (hok : s.newPage = .ok (some (q, f), s')) :
    StaysAllocated s s' ∧ 0 ≤ q.toInt ∧ s.isPageFree q = true ∧ s'.isPageFree q = false := by
  have hstep : Step s (.newPage (some (q, f))) s' := hok
  rcases newPage_inversion hok with ⟨hnone, _⟩ | ⟨q', g, s₁, dm₁, dm₂, heq, _, halloc, hwrite, hs'⟩
  · cases hnone
  · cases heq
    have htakes := hdisk.takesLowest halloc
    have hfile : s'.diskManager = dm₂ := by rw [hs']
    have hnow : s'.isPageFree q = false := by
      rw [isPageFree, hfile, writeBack_isPageFree hwrite htakes.valid.1, htakes.now_used]
    refine ⟨⟨hstep.diskInv hdisk, fun r hr hused => ?_⟩, htakes.valid.1, htakes.was_free, hnow⟩
    by_cases hrq : r = q
    · rw [hrq, hnow]
    · rw [isPageFree, hfile, writeBack_isPageFree hwrite hr, htakes.others r hr hrq]
      exact hused

end BufferPoolManager

namespace TableHeap

open BufferPoolManager

variable {n : Nat} {s s' s₁ : BufferPoolManager n} {f g : Fin n} {p q : PageId} {heap : TableHeap}
variable {schema : Schema} {row row' : Row} {fuel : Nat} {done : Bool} {fs : List (Fin n)}

/-! ## Pages that are made stay -/

theorem insertTuple_fields {m m' : Mem}
    (hok : TablePage.insertTuple m row schema = .ok (done, row', m')) :
    row'.fields = row.fields := by
  rcases bind_eq_ok.mp hok with ⟨size, _, hok⟩
  rcases bind_eq_ok.mp hok with ⟨_, _, hok⟩
  simp only at hok
  split at hok
  · cases hok
    rfl
  · split at hok
    · cases hok
      rfl
    · split at hok
      · rcases bind_eq_ok.mp hok with ⟨⟨_, m₂⟩, _, hok⟩
        rcases bind_eq_ok.mp hok with ⟨_, _, hok⟩
        cases hok
        rfl
      · cases hok

/-- What the loop body does to the disk when a page has no room. -/
theorem nextPage_inversion {r : Option (PageId × Row)}
    (hok : nextPage schema s f row = .ok (r, s')) :
    (TablePage.getNextPageId (s.bytes f) ≠ INVALID_PAGE_ID ∧
        r = some (TablePage.getNextPageId (s.bytes f), row) ∧ s' = s) ∨
      TablePage.getNextPageId (s.bytes f) = INVALID_PAGE_ID ∧
        (s.newPage = .ok (none, s') ∧ r = none ∨
          ∃ q target s₁, s.newPage = .ok (some (q, target), s₁) ∧
            s'.diskManager = s₁.diskManager ∧
            ∀ q' row', r = some (q', row') → row'.fields = row.fields) := by
  by_cases hlast : TablePage.getNextPageId (s.bytes f) = INVALID_PAGE_ID
  · refine Or.inr ⟨hlast, ?_⟩
    simp only [nextPage, hlast, ne_eq, not_true_eq_false, if_false] at hok
    rcases bind_eq_ok.mp hok with ⟨⟨reply, s₁⟩, hnew, hok⟩
    cases reply with
    | none =>
        cases hok
        exact Or.inl ⟨hnew, rfl⟩
    | some page =>
        refine Or.inr ⟨page.1, page.2, s₁, hnew, ?_⟩
        simp only at hok
        split at hok
        · cases hok
          exact ⟨rfl, fun q' row' heq => by cases heq⟩
        · rcases bind_eq_ok.mp hok with ⟨⟨_, row₂, m⟩, hinsert, hok⟩
          cases hok
          refine ⟨rfl, fun q' row' heq => ?_⟩
          cases heq
          exact insertTuple_fields hinsert
  · simp only [nextPage, hlast, ne_eq, not_false_eq_true, if_true, Except.ok.injEq,
      Prod.mk.injEq] at hok
    exact Or.inl ⟨hlast, hok.1.symm, hok.2.symm⟩

theorem nextPage_fields (hok : nextPage schema s f row = .ok (some (q, row'), s')) :
    row'.fields = row.fields := by
  rcases nextPage_inversion hok with ⟨_, heq, _⟩ | ⟨_, ⟨_, heq⟩ | ⟨_, _, _, _, _, hfields⟩⟩
  · cases heq
    rfl
  · cases heq
  · exact hfields q row' rfl

theorem hasSchema_fields (hrow : row.HasSchema schema) (h : row'.fields = row.fields) :
    row'.HasSchema schema := by
  rw [Row.HasSchema, h]
  exact hrow

theorem nextPage_staysAllocated {r : Option (PageId × Row)}
    (hdisk : DiskManager.Inv s.diskManager) (hok : nextPage schema s f row = .ok (r, s')) :
    StaysAllocated s s' := by
  rcases nextPage_inversion hok with ⟨_, _, rfl⟩ | ⟨_, ⟨hnew, _⟩ | ⟨q, target, s₁, hnew, hfile, _⟩⟩
  · exact ⟨hdisk, fun _ _ hused => hused⟩
  · rcases newPage_inversion hnew with ⟨_, rfl⟩ | ⟨_, _, _, _, _, heq, _⟩
    · exact ⟨hdisk, fun _ _ hused => hused⟩
    · cases heq
  · have hstays := (newPage_allocates hdisk hnew).1
    refine ⟨by rw [hfile]; exact hstays.disk, fun p hp hused => ?_⟩
    rw [isPageFree, hfile]
    exact hstays.used p hp hused

/-- No pass of the loop gives a page back to the disk. -/
theorem insertLoop_staysAllocated (hdisk : DiskManager.Inv s.diskManager)
    (hrow : row.HasSchema schema)
    (hok : insertLoop schema fuel s f row = .ok (some (done, row', s'))) : StaysAllocated s s' := by
  induction fuel using Nat.strong_induction_on generalizing s f row with
  | _ fuel ih =>
      rcases insertLoop_inversion hrow hok with ⟨_, _, m, _, rfl⟩ | ⟨_, _, _, hnone⟩ |
        ⟨_, fuel', q, row₂, s₂, g, s₃, hfuel, hstep, hfetch, hrest⟩
      · have hfile : ((s.setBytes f m).unpinPage (s.pages f).pageId true).2.diskManager =
            s.diskManager := unpinPage_diskManager ..
        refine ⟨by rw [hfile]; exact hdisk, fun p _ hused => ?_⟩
        rw [isPageFree, hfile]
        exact hused
      · exact nextPage_staysAllocated hdisk hnone
      · have h₂ := nextPage_staysAllocated hdisk hstep
        have hrow₂ := hasSchema_fields hrow (nextPage_fields hstep)
        refine h₂.trans
          (StaysAllocated.of_visit (s₃.pages g).pageId h₂.disk hfetch fun hdisk₃ => ?_)
        exact ih fuel' (by omega) (by rw [unpinPage_diskManager]; exact hdisk₃) hrow₂ hrest

/-! ## Refusing a row -/

/-- A page that is resident is fetched and given back: only the replacer can tell. -/
theorem InOrder.revisit (h : InOrder s) (hl : s.pageTable.lookup p = some f) :
    ∃ s₁ r, s.fetchPage p = .ok (some f, s₁) ∧ (s₁.pages f).pageId = p ∧
      (s₁.unpinPage p false).2 = { s with replacer := r } ∧ InOrder { s with replacer := r } := by
  rcases visit_resident h.frames hl with ⟨r, hvisit, _⟩
  rcases bind_eq_ok.mp hvisit with ⟨⟨reply, s₁⟩, hfetch, hvisit⟩
  simp only [Except.ok.injEq, Prod.mk.injEq] at hvisit
  rcases hvisit with ⟨rfl, hunpin⟩
  refine ⟨s₁, r, hfetch, (h.fetched hfetch).pageId, hunpin, ?_⟩
  rw [← hunpin]
  exact (h.visited hfetch false).order

/-- With all frames pinned, a page that was fetched had been resident. -/
theorem InOrder.fetched_resident (h : InOrder s) (hall : ∀ g, (s.pages g).pinCount ≠ 0)
    (hfetch : s.fetchPage p = .ok (some f, s₁)) :
    s.pageTable.lookup p = some f ∧ ∃ r, (s₁.unpinPage p false).2 = { s with replacer := r } := by
  cases hl : s.pageTable.lookup p with
  | none =>
      rw [h.frames.fetchPage_none_iff.mpr ⟨hl, hall⟩] at hfetch
      cases hfetch
  | some g =>
      rcases InOrder.revisit h hl with ⟨s₁, r, hfetch', _, hunpin, _⟩
      rw [hfetch] at hfetch'
      cases hfetch'
      exact ⟨rfl, r, hunpin⟩

/-- When the loop returns `false` and no page was allocated, no frame was free at any time, and so
the pages it visited were resident. -/
theorem insertLoop_refused (h : InOrder s) (hl : s.pageTable.lookup p = some f)
    (hrow : row.HasSchema schema)
    (hok : insertLoop schema fuel s f row = .ok (some (false, row', s')))
    (hsame : ∀ q, 0 ≤ q.toInt → s'.isPageFree q = s.isPageFree q) :
    (∀ g, (s.pages g).pinCount ≠ 0) ∧ ∃ fs, Chain s p fs ∧ ∀ g ∈ fs, ¬Room s row g := by
  induction fuel using Nat.strong_induction_on generalizing s p f row with
  | _ fuel ih =>
      rcases insertLoop_inversion hrow hok with ⟨_, hdone, _⟩ | ⟨hfull, _, _, hnone⟩ |
        ⟨hfull, fuel', q, row₂, s₂, g, s₃, hfuel, hstep, hfetch, hrest⟩
      · cases hdone
      · -- No page could be made behind this one.
        rcases nextPage_inversion hnone with ⟨_, heq, _⟩ |
          ⟨hlast, ⟨hnew, _⟩ | ⟨q, target, s₁, hnew, hfile, _⟩⟩
        · cases heq
        · refine ⟨(h.frames.newPage_null hnew).2, [f], Chain.last hl hlast, fun g hg => ?_⟩
          rw [List.mem_singleton.mp hg]
          exact hfull
        · rcases newPage_allocates h.disk hnew with ⟨_, hpos, hfree, hused⟩
          have hq := hsame q hpos
          rw [isPageFree, hfile, ← isPageFree, hused, hfree] at hq
          cases hq
      · rcases nextPage_inversion hstep with ⟨hnext, heq, rfl⟩ |
          ⟨hlast, ⟨_, heq⟩ | ⟨q', target, s₁, hnew, hfile, _⟩⟩
        · cases heq
          have hv := h.visited hfetch false
          rw [(h.fetched hfetch).pageId] at hrest
          have hsame' : ∀ r, 0 ≤ r.toInt → s'.isPageFree r =
              (s₃.unpinPage (TablePage.getNextPageId (s₂.bytes f)) false).2.isPageFree r :=
            fun r hr => (hsame r hr).trans (hv.free r hr).symm
          rcases ih fuel' (by omega) hv.order hv.lookup hrow hrest hsame' with
            ⟨hall, fs, hchain, hfulls⟩
          have hall₂ : ∀ g, (s₂.pages g).pinCount ≠ 0 := fun g => by
            rw [← hv.frame_pins g]
            exact hall g
          rcases InOrder.fetched_resident h hall₂ hfetch with ⟨_, r, hunpin⟩
          rw [hunpin] at hchain hfulls
          refine ⟨hall₂, f :: fs, Chain.cons hl hnext
            (hchain.congr (fun _ _ hl => hl) fun _ _ => rfl), fun x hx => ?_⟩
          rcases List.mem_cons.mp hx with rfl | hx
          · exact hfull
          · exact hfulls x hx
        · cases heq
        · -- The page that was made is allocated to the end.
          rcases newPage_allocates h.disk hnew with ⟨_, hpos, hfree, hused⟩
          have hdisk₂ := (nextPage_staysAllocated h.disk hstep).disk
          have hrow₂ := hasSchema_fields hrow (nextPage_fields hstep)
          have hstays : StaysAllocated s₂ s' :=
            StaysAllocated.of_visit _ hdisk₂ hfetch fun hdisk₃ =>
              insertLoop_staysAllocated (by rw [unpinPage_diskManager]; exact hdisk₃) hrow₂ hrest
          have hused₂ : s₂.isPageFree q' = false := by
            rw [isPageFree, hfile]
            exact hused
          have hq := hsame q' hpos
          rw [hstays.used q' hpos hused₂, hfree] at hq
          cases hq

/-- `InsertTuple` returns `false` and leaves the chain, the bytes of every page, the allocated pages
and the pins alone. -/
structure LeavesAll (heap : TableHeap) (s s' : BufferPoolManager n) : Prop where
  chain : ∀ ps, PageChain s' heap.firstPageId ps ↔ PageChain s heap.firstPageId ps
  contents : ∀ p, s'.contents p = s.contents p
  allocated : ∀ p, 0 ≤ p.toInt → s'.isPageFree p = s.isPageFree p
  pins : ∀ p, s'.pins p = s.pins p

def Rejects (heap : TableHeap) (s : BufferPoolManager n) (row : Row) : Prop :=
  ∃ fuel row' s', heap.insertTuple fuel s row = .ok (some (false, row', s')) ∧ LeavesAll heap s s'

theorem LeavesAll.replacer (heap : TableHeap) (s : BufferPoolManager n)
    (r : LRUReplacer (Fin n)) : LeavesAll heap s { s with replacer := r } where
  chain := fun _ => ⟨fun h => h.congr fun _ _ => rfl, fun h => h.congr fun _ _ => rfl⟩
  contents := fun _ => rfl
  allocated := fun _ _ => rfl
  pins := fun _ => rfl

/-- What a refusal without a trace takes. -/
theorem Rejects.pinned (h : InOrder s) (hrow : row.HasSchema heap.schema)
    (hrejects : Rejects heap s row) :
    (∀ g, (s.pages g).pinCount ≠ 0) ∧
      ∃ fs, Chain s heap.firstPageId fs ∧ ∀ f ∈ fs, ¬Room s row f := by
  rcases hrejects with ⟨fuel, row', s', hok, hleaves⟩
  rcases bind_eq_ok.mp hok with ⟨⟨reply, s₁⟩, hfetch, hok⟩
  rcases bind_eq_ok.mp hok with ⟨f, hderef, hloop⟩
  cases reply with
  | none => cases hderef
  | some g =>
      obtain rfl := Except.ok.inj hderef
      have hv := h.visited hfetch false
      have hsame : ∀ q, 0 ≤ q.toInt → s'.isPageFree q =
          (s₁.unpinPage heap.firstPageId false).2.isPageFree q :=
        fun q hq => (hleaves.allocated q hq).trans (hv.free q hq).symm
      rcases insertLoop_refused hv.order hv.lookup hrow hloop hsame with
        ⟨hall, fs, hchain, hfull⟩
      have hall₀ : ∀ x, (s.pages x).pinCount ≠ 0 := fun x => by
        rw [← hv.frame_pins x]
        exact hall x
      rcases InOrder.fetched_resident h hall₀ hfetch with ⟨_, r, hunpin⟩
      rw [hunpin] at hchain hfull
      exact ⟨hall₀, fs, hchain.congr (fun _ _ hl => hl) fun _ _ => rfl, hfull⟩

end TableHeap
end MiniSQL
