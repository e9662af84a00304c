import MiniSQL.Buffer.Lasting
import MiniSQL.Storage.PageLinks

/-!
# HeapView — the tuples of a heap over any pool

The abstract heap says for each page id what the heap has there: nothing, a list of entries, or
zeros, where `NewPage` took the frame of a dirty page.  `Refines` ties it to a pool, whatever is in
a frame and whatever is on disk only.  An insertion appends entries, makes pages and turns pages
into zeros (`Grows`); the pool moves all the rest behind the heap's back.
-/

namespace MiniSQL

open Lib

namespace TableHeap

open BufferPoolManager

variable {n : Nat} {s₀ s s' s₁ s₂ : BufferPoolManager n} {f g target : Fin n} {p q x : PageId}
variable {heap : TableHeap} {schema : Schema} {row row' : Row} {fuel : Nat} {done : Bool}
variable {d : PageData} {es : List Entry}

/-! ## The abstract heap -/

/-- What a heap has on a page. -/
inductive PageView
  | other
  | zeros
  | entries (es : List Entry)

abbrev HeapView := PageId → PageView

variable {T T' T'' : HeapView} {v v' : PageView}

/-- The bytes of page `p` when the heap has `v` there.  A page with entries is linked to another
page of the heap or to none. -/
def PageView.Shown (schema : Schema) (T : HeapView) (p : PageId) : PageView → PageData → Prop
  | .other, _ => True
  | .zeros, d => d = Buf.zero PAGE_SIZE
  | .entries es, d => TablePage.Represents schema p d.mem es ∧
      (TablePage.getNextPageId d.mem = INVALID_PAGE_ID ∨
        T (TablePage.getNextPageId d.mem) ≠ .other)

/-- What an insertion can do to a page of the heap. -/
def PageView.Grows : PageView → PageView → Prop
  | .other, _ => True
  | .zeros, v => v = .zeros
  | .entries es, v => v = .zeros ∨ ∃ fs, v = .entries (es ++ fs)

def HeapView.Grows (T T' : HeapView) : Prop :=
  ∀ p, (T p).Grows (T' p)

theorem PageView.Grows.refl (v : PageView) : v.Grows v := by
  cases v with
  | other => exact trivial
  | zeros => rfl
  | entries es => exact Or.inr ⟨[], by rw [List.append_nil]⟩

theorem PageView.Grows.trans {v'' : PageView} (h : v.Grows v') (h' : v'.Grows v'') :
    v.Grows v'' := by
  cases v with
  | other =>
      exact trivial
  | zeros =>
      obtain rfl : v' = .zeros := h
      exact h'
  | entries es =>
      rcases h with rfl | ⟨fs, rfl⟩
      · exact Or.inl h'
      · rcases h' with rfl | ⟨gs, rfl⟩
        · exact Or.inl rfl
        · exact Or.inr ⟨fs ++ gs, by rw [List.append_assoc]⟩

theorem PageView.Grows.ne_other (h : v.Grows v') (hv : v ≠ .other) : v' ≠ .other := by
  rintro rfl
  cases v with
  | other => exact hv rfl
  | zeros => cases h
  | entries es => rcases h with h | ⟨fs, h⟩ <;> cases h

theorem HeapView.Grows.refl (T : HeapView) : T.Grows T :=
  fun p => PageView.Grows.refl (T p)

theorem HeapView.Grows.trans (h : T.Grows T') (h' : T'.Grows T'') : T.Grows T'' :=
  fun p => (h p).trans (h' p)

/-- A heap with more pages shows the same bytes. -/
theorem PageView.Shown.mono (h : v.Shown schema T p d)
    (hmore : ∀ q, T q ≠ .other → T' q ≠ .other) : v.Shown schema T' p d := by
  cases v with
  | other => exact trivial
  | zeros => exact h
  | entries es => exact ⟨h.1, h.2.imp id (hmore _)⟩

/-! ## The heap in a pool -/

/-- The page was made since the pool was `s₀`. -/
def OfHeap (s₀ s : BufferPoolManager n) (p : PageId) : Prop :=
  0 ≤ p.toInt ∧ s₀.isPageFree p = true ∧ s.isPageFree p = false

structure Refines (heap : TableHeap) (s₀ s : BufferPoolManager n) (T : HeapView) : Prop where
  pool : PoolInv s
  first : T heap.firstPageId ≠ .other
  grown : ∀ p, 0 ≤ p.toInt → s₀.isPageFree p = false → s.isPageFree p = false
  made : ∀ p, T p ≠ .other ↔ OfHeap s₀ s p
  pages : ∀ p, 0 ≤ p.toInt → Lasting s p ((T p).Shown heap.schema T p)

theorem Refines.nonneg (h : Refines heap s₀ s T) (hp : T p ≠ .other) : 0 ≤ p.toInt :=
  ((h.made p).mp hp).1

theorem Refines.used (h : Refines heap s₀ s T) (hp : T p ≠ .other) : s.isPageFree p = false :=
  ((h.made p).mp hp).2.2

/-- The bytes in the frame of a page. -/
theorem Refines.shown (h : Refines heap s₀ s T) (hp : T p ≠ .other) :
    (T p).Shown heap.schema T p (s.contents p) :=
  (h.pages p (h.nonneg hp)).shown

/-- Steps of the pool that allocate nothing. -/
theorem Refines.congr (h : Refines heap s₀ s T) (hpool : PoolInv s')
    (hfree : ∀ p, 0 ≤ p.toInt → s'.isPageFree p = s.isPageFree p)
    (hpages : ∀ p, 0 ≤ p.toInt → Lasting s' p ((T p).Shown heap.schema T p)) :
    Refines heap s₀ s' T := by
  refine ⟨hpool, h.first, fun p hp hused => (hfree p hp).trans (h.grown p hp hused), fun p => ?_,
    hpages⟩
  rw [h.made p]
  constructor
  · rintro ⟨hp, h₀, hused⟩
    exact ⟨hp, h₀, (hfree p hp).trans hused⟩
  · rintro ⟨hp, h₀, hused⟩
    exact ⟨hp, h₀, (hfree p hp).symm.trans hused⟩

theorem Refines.fetchPage (h : Refines heap s₀ s T) (hp : T p ≠ .other)
    (hok : s.fetchPage p = .ok (some f, s')) : Refines heap s₀ s' T :=
  h.congr (h.pool.fetchPage (h.used hp) hok) (h.pool.frames.fetched h.pool.disk hok).free
    fun x hx => (h.pages x hx).fetchPage h.pool.frames.queueInv hx hok

theorem Refines.unpinDirty (h : Refines heap s₀ s T) (q : PageId) :
    Refines heap s₀ (s.unpinPage q true).2 T :=
  h.congr (h.pool.unpinPage q true) (fun _ _ => by rw [isPageFree, unpinPage_diskManager]; rfl)
    fun x hx => (h.pages x hx).unpinDirty h.pool.frames.tableInv q

theorem Refines.visit (h : Refines heap s₀ s T) (hp : T p ≠ .other)
    (hfetch : s.fetchPage p = .ok (some f, s₁)) :
    Refines heap s₀ (s₁.unpinPage p false).2 T := by
  have hvisit : s.visit p = .ok (some f, (s₁.unpinPage p false).2) := by
    simp only [BufferPoolManager.visit, hfetch, ok_bind]
  refine h.congr ((h.pool.fetchPage (h.used hp) hfetch).unpinPage p false) (fun x hx => ?_)
    fun x hx => (h.pages x hx).visit h.pool.frames hx hvisit
  rw [isPageFree, unpinPage_diskManager]
  exact (h.pool.frames.fetched h.pool.disk hfetch).free x hx

/-! ## Stores -/

/-- Another view of one page leaves the pages of the heap the same. -/
theorem ne_other_update (hp : T p ≠ .other) (hv : v ≠ .other) (q : PageId) :
    Function.update T p v q ≠ .other ↔ T q ≠ .other := by
  by_cases hq : q = p
  · subst hq
    rw [Function.update_self]
    exact iff_of_true hv hp
  · rw [Function.update_of_ne hq]

/-- Page `p` gets the view `v`, when its new bytes last. -/
theorem Refines.update (h : Refines heap s₀ s T) (hpool : PoolInv s')
    (hdisk : s'.diskManager = s.diskManager) (hp : T p ≠ .other) (hv : v ≠ .other)
    (hself : Lasting s' p (v.Shown heap.schema T p))
    (hothers : ∀ q G, 0 ≤ q.toInt → q ≠ p → Lasting s q G → Lasting s' q G) :
    Refines heap s₀ s' (Function.update T p v) := by
  have hmore : ∀ q, T q ≠ .other → Function.update T p v q ≠ .other :=
    fun q => (ne_other_update hp hv q).mpr
  refine ⟨hpool, hmore _ h.first, fun q hq hused => ?_, fun q => ?_, fun q hq => ?_⟩
  · rw [isPageFree, hdisk]
    exact h.grown q hq hused
  · rw [ne_other_update hp hv, h.made]
    simp only [OfHeap, isPageFree, hdisk]
  · by_cases hqp : q = p
    · subst hqp
      rw [Function.update_self]
      exact hself.mono fun _ hd => hd.mono hmore
    · rw [Function.update_of_ne hqp]
      exact (hothers q _ hq hqp (h.pages q hq)).mono fun _ hd => hd.mono hmore

/-- Bytes are stored in a frame that is pinned. -/
theorem Refines.store (h : Refines heap s₀ s T) (hl : s.pageTable.lookup p = some f)
    (hpin : (s.pages f).pinCount ≠ 0) (hp : T p ≠ .other) (hv : v ≠ .other)
    (hd : v.Shown heap.schema T p d) :
    Refines heap s₀ (s.write f d) (Function.update T p v) :=
  h.update (h.pool.write hl d) rfl hp hv (lasting_write_pinned hl hpin hd)
    fun _ _ _ hqp hlast => hlast.write_other h.pool.frames.tableInv hl hqp d

/-- Bytes that show the same are stored in any frame. -/
theorem Refines.restore (h : Refines heap s₀ s T) (hl : s.pageTable.lookup p = some f)
    (hp : T p ≠ .other) (hd : (T p).Shown heap.schema T p d) :
    Refines heap s₀ (s.write f d) T := by
  have hself := (h.pages p (h.nonneg hp)).write_self hl hd
  have h' := h.update (h.pool.write hl d) rfl hp hp hself
    fun _ _ _ hqp hlast => hlast.write_other h.pool.frames.tableInv hl hqp d
  rwa [Function.update_eq_self] at h'

/-- Bytes are stored in a frame, and its page is given back as changed. -/
theorem Refines.written (h : Refines heap s₀ s T) (hl : s.pageTable.lookup p = some f)
    (hw : Written s p f d s') (hp : T p ≠ .other) (hv : v ≠ .other)
    (hd : v.Shown heap.schema T p d) : Refines heap s₀ s' (Function.update T p v) :=
  h.update hw.pool hw.disk hp hv (hw.lasting_self hl hd)
    fun _ _ _ hqp hlast => hw.lasting_other h.pool.frames.tableInv hl hqp hlast

/-! ## New pages -/

open Classical in
/-- The heap after `NewPage` made page `q`: a page that does not last was turned into zeros. -/
noncomputable def HeapView.afterNewPage (schema : Schema) (T : HeapView)
    (s₁ : BufferPoolManager n) (q : PageId) : HeapView := fun x =>
  if x = q then .zeros
  else if Lasting s₁ x ((T x).Shown schema T x) then T x else .zeros

theorem afterNewPage_self (schema : Schema) (T : HeapView) (s₁ : BufferPoolManager n)
    (q : PageId) : T.afterNewPage schema s₁ q q = .zeros := by
  rw [HeapView.afterNewPage, if_pos rfl]

theorem afterNewPage_cases (schema : Schema) (T : HeapView) (s₁ : BufferPoolManager n)
    (hxq : x ≠ q) :
    (T.afterNewPage schema s₁ q x = T x ∧ Lasting s₁ x ((T x).Shown schema T x)) ∨
      T.afterNewPage schema s₁ q x = .zeros ∧ ¬Lasting s₁ x ((T x).Shown schema T x) := by
  by_cases hlast : Lasting s₁ x ((T x).Shown schema T x)
  · exact Or.inl ⟨by rw [HeapView.afterNewPage, if_neg hxq, if_pos hlast], hlast⟩
  · exact Or.inr ⟨by rw [HeapView.afterNewPage, if_neg hxq, if_neg hlast], hlast⟩

theorem afterNewPage_ne_other (schema : Schema) (T : HeapView) (s₁ : BufferPoolManager n)
    (hxq : x ≠ q) : T.afterNewPage schema s₁ q x ≠ .other ↔ T x ≠ .other := by
  rcases afterNewPage_cases schema T s₁ hxq with ⟨heq, _⟩ | ⟨hzero, hnot⟩
  · rw [heq]
  · rw [hzero]
    refine iff_of_true PageView.noConfusion fun hx => hnot ?_
    rw [hx]
    exact ⟨trivial, fun _ _ _ _ => trivial⟩

theorem grows_afterNewPage (schema : Schema) (s₁ : BufferPoolManager n) (hq : T q = .other) :
    T.Grows (T.afterNewPage schema s₁ q) := by
  intro x
  by_cases hxq : x = q
  · rw [hxq, hq]
    exact trivial
  · rcases afterNewPage_cases schema T s₁ hxq with ⟨heq, _⟩ | ⟨hzero, _⟩
    · rw [heq]
      exact PageView.Grows.refl _
    · rw [hzero]
      cases T x with
      | other => exact trivial
      | zeros => rfl
      | entries es => exact Or.inl rfl

/-- `NewPage` adds a page of zeros, and may turn one other page into zeros. -/
theorem Refines.newPage (h : Refines heap s₀ s T)
    (hnew : s.newPage = .ok (some (q, target), s₁)) :
    T q = .other ∧ Refines heap s₀ s₁ (T.afterNewPage heap.schema s₁ q) := by
  have hc := h.pool.frames.created h.pool.disk h.pool.allocated hnew
  have hm := h.pool.made hnew
  have hwas : s.isPageFree q = true := hc.was_free
  have hq₀ : s₀.isPageFree q = true := by
    cases hfree : s₀.isPageFree q with
    | true =>
        rfl
    | false =>
        rw [h.grown q hc.valid hfree] at hwas
        cases hwas
  have hTq : T q = .other := by
    by_contra hne
    rw [h.used hne] at hwas
    cases hwas
  have hmore : ∀ x, T x ≠ .other → T.afterNewPage heap.schema s₁ q x ≠ .other :=
    fun x => (grows_afterNewPage heap.schema s₁ hTq x).ne_other
  refine ⟨hTq, hm.pool, hmore _ h.first, fun x hx hused => ?_, fun x => ?_, fun x hx => ?_⟩
  · exact (newPage_allocates h.pool.disk hnew).1.used x hx (h.grown x hx hused)
  · by_cases hxq : x = q
    · subst hxq
      rw [afterNewPage_self]
      exact iff_of_true PageView.noConfusion ⟨hc.valid, hq₀, hc.now_used⟩
    · rw [afterNewPage_ne_other heap.schema T s₁ hxq, h.made x]
      refine and_congr_right fun hx => and_congr_right fun _ => ?_
      rw [isPageFree, isPageFree, hc.free x hx hxq]
  · by_cases hxq : x = q
    · -- The new page is pinned.
      subst hxq
      rw [afterNewPage_self]
      refine lasting_of_held hm.lookup (fun hpin => ?_) ?_
      · rw [hm.page] at hpin
        cases hpin
      · rw [contents_of_lookup hm.lookup, hm.page]
        rfl
    · rcases afterNewPage_cases heap.schema T s₁ hxq with ⟨heq, hlast⟩ | ⟨hzero, hnot⟩
      · rw [heq]
        exact hlast.mono fun _ hd => hd.mono hmore
      · rw [hzero]
        exact ((h.pages x hx).newPage h.pool hx hxq hnew).resolve_left hnot

/-- A page that is not in the frame `NewPage` takes stays as it is. -/
theorem Refines.newPage_other (h : Refines heap s₀ s T)
    (hnew : s.newPage = .ok (some (q, target), s₁)) (hx : 0 ≤ x.toInt) (hxq : x ≠ q)
    (hne : s.pageTable.lookup x ≠ some target) : T.afterNewPage heap.schema s₁ q x = T x := by
  rcases afterNewPage_cases heap.schema T s₁ hxq with ⟨heq, _⟩ | ⟨_, hnot⟩
  · exact heq
  · have hshown := (h.pages x hx).newPage_other h.pool.frames.tableInv h.pool.disk hx hxq hne hnew
    exact absurd hshown hnot

/-! ## Insertions -/

theorem room_zero (hsize : row.encode.length + 32 ≤ 2 ^ 32) :
    row.encode.length + TablePage.SIZE_TUPLE ≤
      TablePage.getFreeSpaceRemaining (Buf.zero PAGE_SIZE).mem := by
  have hremaining : TablePage.getFreeSpaceRemaining (Buf.zero PAGE_SIZE).mem = 2 ^ 32 - 24 := by
    simp only [TablePage.getFreeSpaceRemaining, TablePage.getFreeSpacePointer,
      TablePage.getTupleCount, Buf.u32_zero]
    decide
  rw [hremaining]
  simp only [TablePage.SIZE_TUPLE]
  omega

/-- There is no inserting on a page of zeros: the tuple would start outside of it. -/
theorem insertTuple_zero (hrow : row.HasSchema schema) (hsize : row.encode.length + 32 ≤ 2 ^ 32) :
    TablePage.insertTuple (Buf.zero PAGE_SIZE).mem row schema = .error .outOfBounds := by
  have hpos := TablePage.encode_pos row
  have hnot : ¬TablePage.getFreeSpaceRemaining (Buf.zero PAGE_SIZE).mem <
      row.encode.length + TablePage.SIZE_TUPLE := Nat.not_lt.mpr (room_zero hsize)
  have hptr : TablePage.getFreeSpacePointer (Buf.zero PAGE_SIZE).mem = 0 := Buf.u32_zero 16
  have hwrap : wrap32 (((0 : Nat) : Int) - row.encode.length) = 2 ^ 32 - row.encode.length := by
    simp only [wrap32]
    omega
  have hread : TablePage.getFreeSpacePointer (TablePage.setFreeSpacePointer
      (Buf.zero PAGE_SIZE).mem (2 ^ 32 - row.encode.length)) = 2 ^ 32 - row.encode.length :=
    Mem.u32_setU32_of_lt (by omega)
  have houtside : ¬2 ^ 32 - row.encode.length + row.encode.length ≤ PAGE_SIZE := by
    simp only [PAGE_SIZE]
    omega
  simp only [TablePage.insertTuple, Row.getSerializedSize_eq hrow, ok_bind, hpos, decide_true,
    assert_true, hnot, if_false, and_false, hptr, hwrap, hread, houtside]

/-- Whether or not the row fits, the page shows its entries and those that were added. -/
theorem shown_inserted (h : (PageView.entries es).Shown schema T p d) (hrow : row.HasSchema schema)
    {m : Mem} (hinsert : TablePage.insertTuple d.mem row schema = .ok (done, row', m)) :
    ∃ fs, (PageView.entries (es ++ fs)).Shown schema T p (Buf.ofMem PAGE_SIZE m) := by
  have hholds : Holds schema d p (TablePage.getNextPageId d.mem) es := ⟨h.1, rfl⟩
  rcases hholds.inserted hrow with ⟨_, _, _, fs, _, _, hholds', _⟩
  rw [insertedPage_eq hinsert] at hholds'
  refine ⟨fs, hholds'.rows, ?_⟩
  rw [hholds'.next_eq]
  exact h.2

theorem shown_linked (h : (PageView.entries es).Shown schema T p d) (hq : T q ≠ .other) :
    (PageView.entries es).Shown schema T p (linkedPage d q) := by
  have hholds : Holds schema d p (TablePage.getNextPageId d.mem) es := ⟨h.1, rfl⟩
  have hlinked := linkedPage_holds hholds q
  refine ⟨hlinked.rows, Or.inr ?_⟩
  rw [hlinked.next_eq]
  exact hq

theorem shown_init (schema : Schema) (T : HeapView) (q p : PageId) :
    (PageView.entries []).Shown schema T q (emptyPage q p) := by
  have hholds := emptyPage_holds schema q p
  exact ⟨hholds.rows, Or.inl hholds.next_eq⟩

theorem HeapView.Grows.update (hv : (T p).Grows v) : T.Grows (Function.update T p v) := by
  intro x
  by_cases hxp : x = p
  · rw [hxp, Function.update_self]
    exact hv
  · rw [Function.update_of_ne hxp]
    exact PageView.Grows.refl _

/-- A page with room is not one of zeros, so it gets the row. -/
theorem Refines.insert_here (h : Refines heap s₀ s T) (hl : s.pageTable.lookup p = some f)
    (hp : T p ≠ .other) (hrow : row.HasSchema heap.schema)
    (hsize : row.encode.length + 32 ≤ 2 ^ 32) {m : Mem}
    (hinsert : TablePage.insertTuple (s.bytes f) row heap.schema = .ok (done, row', m)) :
    ∃ T', Refines heap s₀ ((s.setBytes f m).unpinPage p true).2 T' ∧ T.Grows T' := by
  have hw := h.pool.written hl (Buf.ofMem PAGE_SIZE m)
  have hshown := h.shown hp
  rw [bytes_of_lookup hl] at hinsert
  cases hT : T p with
  | other =>
      exact absurd hT hp
  | zeros =>
      rw [hT] at hshown
      rw [show s.contents p = Buf.zero PAGE_SIZE from hshown, insertTuple_zero hrow hsize]
        at hinsert
      cases hinsert
  | entries es =>
      rw [hT] at hshown
      rcases shown_inserted hshown hrow hinsert with ⟨fs, hfs⟩
      refine ⟨_, h.written hl hw hp PageView.noConfusion hfs, HeapView.Grows.update ?_⟩
      rw [hT]
      exact Or.inr ⟨fs, rfl⟩

/-- The stores to a new page: it is set up, linked behind the page in frame `f`, which may be its
own frame by now, and gets the row if it fits. -/
theorem Refines.setUp (h : Refines heap s₀ s T) (hl : s.pageTable.lookup q = some target)
    (hpage : s.pages target =
      { data := Buf.zero PAGE_SIZE, pageId := q, pinCount := 1, isDirty := false })
    (hq : T q = .zeros) (hf : f ≠ target → ∃ p es, s.pageTable.lookup p = some f ∧
      T p = .entries es) (hrow : row.HasSchema heap.schema)
    (hs₂ : s₂ = s.setBytes target (TablePage.init (s.bytes target) q (s.pages f).pageId))
    (hs₃ : s₁ = s₂.setBytes f (TablePage.setNextPageId (s₂.bytes f) (s₂.pages target).pageId))
    {m : Mem} (hinsert : TablePage.insertTuple (s₁.bytes target) row heap.schema =
      .ok (done, row', m)) :
    ∃ fs, Refines heap s₀ (s₁.setBytes target m) (Function.update T q (.entries fs)) := by
  have hqT : T q ≠ .other := by
    rw [hq]
    exact PageView.noConfusion
  have hpin : (s.pages target).pinCount ≠ 0 := by
    rw [hpage]
    exact one_ne_zero
  have hempty : s₂ = s.write target (emptyPage q (s.pages f).pageId) := by
    rw [hs₂, bytes, hpage]
    rfl
  have h₂ : Refines heap s₀ s₂ (Function.update T q (.entries [])) := by
    rw [hempty]
    exact h.store hl hpin hqT PageView.noConfusion (shown_init heap.schema T q _)
  have hl₂ : s₂.pageTable.lookup q = some target := by
    rw [hempty]
    exact hl
  set T₂ : HeapView := Function.update T q (.entries []) with hT₂
  have hq₂ : T₂ q = .entries [] := Function.update_self ..
  have hqT₂ : T₂ q ≠ .other := by
    rw [hq₂]
    exact PageView.noConfusion
  -- The page in frame `f`: the one before, or the new one itself.
  have hprev : ∃ y es, s₂.pageTable.lookup y = some f ∧ T₂ y = .entries es := by
    by_cases hft : f = target
    · rw [hft]
      exact ⟨q, [], hl₂, hq₂⟩
    · rcases hf hft with ⟨y, es, hy, hTy⟩
      have hyq : y ≠ q := by
        rintro rfl
        rw [hq] at hTy
        cases hTy
      refine ⟨y, es, by rw [hempty]; exact hy, ?_⟩
      rw [hT₂, Function.update_of_ne hyq, hTy]
  rcases hprev with ⟨y, es, hy, hTy⟩
  have hyT : T₂ y ≠ .other := by
    rw [hTy]
    exact PageView.noConfusion
  have hid : (s₂.pages target).pageId = q := by
    rw [hempty, write_pageId, hpage]
  have hlink : s₁ = s₂.write f (linkedPage (s₂.contents y) q) := by
    rw [hs₃, hid, bytes_of_lookup hy]
    rfl
  have h₃ : Refines heap s₀ s₁ T₂ := by
    rw [hlink]
    refine h₂.restore hy hyT ?_
    have hshown := h₂.shown hyT
    rw [hTy] at hshown ⊢
    exact shown_linked hshown hqT₂
  have hl₃ : s₁.pageTable.lookup q = some target := by
    rw [hlink]
    exact hl₂
  have hpin₃ : (s₁.pages target).pinCount ≠ 0 := by
    rw [hlink, write_pinCount, hempty, write_pinCount]
    exact hpin
  have hshown := h₃.shown hqT₂
  rw [hq₂] at hshown
  rw [bytes_of_lookup hl₃] at hinsert
  rcases shown_inserted hshown hrow hinsert with ⟨fs, hfs⟩
  have h₄ := h₃.store hl₃ hpin₃ hqT₂ PageView.noConfusion hfs
  rw [hT₂, Function.update_idem] at h₄
  exact ⟨[] ++ fs, h₄⟩

/-- The page behind a page without room is one of the heap, found or made. -/
theorem Refines.nextPage (h : Refines heap s₀ s T) (hl : s.pageTable.lookup p = some f)
    (hp : T p ≠ .other) (hrow : row.HasSchema heap.schema)
    (hsize : row.encode.length + 32 ≤ 2 ^ 32) (hfull : ¬Room s row f)
    (hok : nextPage heap.schema s f row = .ok (some (q, row'), s')) :
    ∃ T', Refines heap s₀ s' T' ∧ T.Grows T' ∧ T' q ≠ .other := by
  have hshown := h.shown hp
  have hbytes := bytes_of_lookup hl
  -- A zeroed page would have had room for the row.
  have hentries : ∃ es, T p = .entries es := by
    cases hT : T p with
    | other =>
        exact absurd hT hp
    | entries es =>
        exact ⟨es, rfl⟩
    | zeros =>
        rw [hT] at hshown
        rw [Room, hbytes, show s.contents p = Buf.zero PAGE_SIZE from hshown] at hfull
        exact absurd (room_zero hsize) hfull
  rcases hentries with ⟨es, hT⟩
  rw [hT] at hshown
  rcases nextPage_inversion hok with
    ⟨hnext, heq, rfl⟩ | ⟨hlast, ⟨_, heq⟩ | ⟨q', target, s₁, hnew, _⟩⟩
  · cases heq
    refine ⟨T, h, HeapView.Grows.refl T, ?_⟩
    rw [hbytes] at hnext ⊢
    exact hshown.2.resolve_left hnext
  · cases heq
  · rcases h.newPage hnew with ⟨hTq, h₁⟩
    have hm := h.pool.made hnew
    have hvalid : q' ≠ INVALID_PAGE_ID := ne_INVALID_of_nonneg hm.valid
    -- When the page was not the victim, it stands in the view as before.
    have hf : f ≠ target → ∃ p es, s₁.pageTable.lookup p = some f ∧
        T.afterNewPage heap.schema s₁ q' p = .entries es := by
      intro hft
      refine ⟨p, es, hm.lookup_other p f hl hft, ?_⟩
      have hpq : p ≠ q' := by
        rintro rfl
        exact hp hTq
      have hne : s.pageTable.lookup p ≠ some target := by
        rw [hl]
        exact fun heq => hft (Option.some.inj heq)
      rw [h.newPage_other hnew (h.nonneg hp) hpq hne, hT]
    simp only [TableHeap.nextPage, hlast, ne_eq, not_true_eq_false, if_false, hnew, ok_bind,
      hvalid] at hok
    rcases bind_eq_ok.mp hok with ⟨⟨done, row₂, m⟩, hinsert, hok⟩
    cases hok
    rcases h₁.setUp hm.lookup hm.page (afterNewPage_self ..) hf hrow rfl rfl hinsert with ⟨fs, h₂⟩
    refine ⟨_, h₂, fun x => ?_, ?_⟩
    · by_cases hxq : x = q
      · rw [hxq, hTq]
        exact trivial
      · rw [Function.update_of_ne hxq]
        exact grows_afterNewPage heap.schema s₁ hTq x
    · rw [Function.update_self]
      exact PageView.noConfusion

theorem nextPage_null (h : PoolInv s) (hok : nextPage schema s f row = .ok (none, s')) :
    s' = s := by
  rcases nextPage_inversion hok with ⟨_, heq, _⟩ | ⟨hlast, ⟨hnew, _⟩ | ⟨q, target, s₁, hnew, _⟩⟩
  · cases heq
  · exact (h.frames.newPage_null hnew).1
  · -- A page that was made is returned.
    have hvalid : q ≠ INVALID_PAGE_ID := ne_INVALID_of_nonneg (h.made hnew).valid
    simp only [nextPage, hlast, ne_eq, not_true_eq_false, if_false, hnew, ok_bind, hvalid] at hok
    rcases bind_eq_ok.mp hok with ⟨_, _, hok⟩
    cases hok

theorem encode_length_fields (h : row'.fields = row.fields) :
    row'.encode.length = row.encode.length := by
  have heq : row' = { row with rid := row'.rid } := by
    cases row'
    simp only at h
    rw [h]
  rw [heq, encode_length_rid]

theorem Refines.insertLoop (h : Refines heap s₀ s T) (hl : s.pageTable.lookup p = some f)
    (hp : T p ≠ .other) (hrow : row.HasSchema heap.schema)
    (hsize : row.encode.length + 32 ≤ 2 ^ 32)
    (hok : insertLoop heap.schema fuel s f row = .ok (some (done, row', s'))) :
    ∃ T', Refines heap s₀ s' T' ∧ T.Grows T' := by
  induction fuel using Nat.strong_induction_on generalizing s f p row T with
  | _ fuel ih =>
      rcases insertLoop_inversion hrow hok with ⟨_, _, m, hinsert, rfl⟩ | ⟨_, _, _, hnone⟩ |
        ⟨hfull, fuel', q, row₂, s₂, g, s₃, hfuel, hstep, hfetch, hrest⟩
      · rw [(h.pool.frames.pageId hl).2]
        exact h.insert_here hl hp hrow hsize hinsert
      · -- No page could be made, and nothing has changed.
        rw [nextPage_null h.pool hnone]
        exact ⟨T, h, HeapView.Grows.refl T⟩
      · rcases h.nextPage hl hp hrow hsize hfull hstep with ⟨T₂, h₂, hgrows, hq⟩
        have hf := h₂.pool.frames.fetched h₂.pool.disk hfetch
        rw [(hf.frames.pageId hf.lookup).2] at hrest
        have hfields := nextPage_fields hstep
        have hl₃ : (s₃.unpinPage q false).2.pageTable.lookup q = some g := by
          rw [(hf.frames.unpinned q false).table]
          exact hf.lookup
        rcases ih fuel' (by omega) (h₂.visit hq hfetch) hl₃ hq (hasSchema_fields hrow hfields)
          (by rw [encode_length_fields hfields]; exact hsize) hrest with ⟨T', h', hgrows'⟩
        exact ⟨T', h', hgrows.trans hgrows'⟩

theorem Refines.insertTuple (h : Refines heap s₀ s T) (hrow : row.HasSchema heap.schema)
    (hsize : row.encode.length + 32 ≤ 2 ^ 32)
    (hok : heap.insertTuple fuel s row = .ok (some (done, row', s'))) :
    ∃ T', Refines heap s₀ s' T' ∧ T.Grows T' := by
  rcases bind_eq_ok.mp hok with ⟨⟨reply, s₁⟩, hfetch, hok⟩
  rcases bind_eq_ok.mp hok with ⟨f, hderef, hloop⟩
  cases reply with
  | none =>
      cases hderef
  | some g =>
      obtain rfl := Except.ok.inj hderef
      have hf := h.pool.frames.fetched h.pool.disk hfetch
      have hl : (s₁.unpinPage heap.firstPageId false).2.pageTable.lookup heap.firstPageId =
          some g := by
        rw [(hf.frames.unpinned heap.firstPageId false).table]
        exact hf.lookup
      exact (h.visit h.first hfetch).insertLoop hl h.first hrow hsize hloop

end TableHeap
end MiniSQL
