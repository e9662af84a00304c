import MiniSQL.Buffer.Evictions
import MiniSQL.Storage.PinNeutral

/-!
# PoolSize — the same insertions over a large and a small pool

A heap over a pool that never evicts is compared with one over a pool that does.  Every store of
`InsertTuple` has to survive evictions.  Two do not: the link to a new page is stored in the frame
of the last page without marking it dirty, and `NewPage` writes zeros for a dirty frame it takes.
As long as neither strikes, both pools show the same pages and return the same ids.
-/

namespace MiniSQL

open Lib

namespace TableHeap

open BufferPoolManager

variable {n : Nat} {s s' s₁ s₂ : BufferPoolManager n} {f g target : Fin n} {p q : PageId}
variable {schema : Schema} {row row' : Row} {fuel : Nat} {done : Bool} {heap : TableHeap}

/-! ## The bytes of the pages -/

/-- A page after `InsertTuple`. -/
def insertedPage (schema : Schema) (d : PageData) (row : Row) : PageData :=
  match TablePage.insertTuple d.mem row schema with
  | .ok (_, _, m) => Buf.ofMem PAGE_SIZE m
  | .error _ => d

/-- A new page `q` behind page `p`. -/
def emptyPage (q p : PageId) : PageData :=
  Buf.ofMem PAGE_SIZE (TablePage.init (Buf.zero PAGE_SIZE).mem q p)

/-- A page linked to page `q`. -/
def linkedPage (d : PageData) (q : PageId) : PageData :=
  Buf.ofMem PAGE_SIZE (TablePage.setNextPageId d.mem q)

theorem insertedPage_eq {d : PageData} {m : Mem}
    (h : TablePage.insertTuple d.mem row schema = .ok (done, row', m)) :
    insertedPage schema d row = Buf.ofMem PAGE_SIZE m := by
  simp only [insertedPage, h]

/-- A page holds these tuples and names this next page. -/
structure Holds (schema : Schema) (d : PageData) (p next : PageId) (es : List Entry) : Prop where
  rows : TablePage.Represents schema p d.mem es
  next_eq : TablePage.getNextPageId d.mem = next

/-- What `GetFreeSpaceRemaining` finds there. -/
theorem Holds.room_iff {d : PageData} {next : PageId} {es : List Entry}
    (h : Holds schema d p next es) (row : Row) :
    row.encode.length + TablePage.SIZE_TUPLE ≤ TablePage.getFreeSpaceRemaining d.mem ↔
      row.encode.length + 8 ≤ 4072 - 8 * es.length - TablePage.used es := by
  have hfits := h.rows.fits
  rw [h.rows.remaining]
  simp only [PAGE_SIZE, TablePage.SIZE_TABLE_PAGE_HEADER, TablePage.SIZE_TUPLE] at hfits ⊢
  omega

theorem emptyPage_holds (schema : Schema) (q p : PageId) :
    Holds schema (emptyPage q p) q INVALID_PAGE_ID [] := by
  have hbytes : ∀ j, j < PAGE_SIZE →
      (emptyPage q p).mem j = TablePage.init (Buf.zero PAGE_SIZE).mem q p j :=
    fun j hj => Buf.mem_ofMem_of_lt hj
  constructor
  · refine (TablePage.init_represents schema (Buf.zero PAGE_SIZE).mem q p).congr fun j hj => ?_
    refine hbytes j ?_
    simp only [PAGE_SIZE] at hj ⊢
    omega
  · rw [TablePage.getNextPageId_congr fun j hj => hbytes j (lt_trans hj (by decide)),
      TablePage.getNextPageId_init]

theorem linkedPage_holds {d : PageData} {next : PageId} {es : List Entry}
    (h : Holds schema d p next es) (q : PageId) : Holds schema (linkedPage d q) p q es := by
  have hbytes : ∀ j, j < PAGE_SIZE →
      (linkedPage d q).mem j = TablePage.setNextPageId d.mem q j :=
    fun j hj => Buf.mem_ofMem_of_lt hj
  constructor
  · refine h.rows.congr fun j hj => ?_
    simp only [PAGE_SIZE] at hj
    rw [hbytes j (by simp only [PAGE_SIZE]; omega)]
    exact Mem.setU32_apply_outside (by omega)
  · rw [TablePage.getNextPageId_congr fun j hj => hbytes j (lt_trans hj (by decide)),
      TablePage.getNextPageId_set]

/-- A row that fits is appended. -/
theorem Holds.insert {d : PageData} {next : PageId} {es : List Entry}
    (h : Holds schema d p next es) (hrow : row.HasSchema schema)
    (hroom : row.encode.length + 8 ≤ 4072 - 8 * es.length - TablePage.used es) :
    (∃ m, TablePage.insertTuple d.mem row schema =
        .ok (true, { row with rid := ⟨p, UInt32.ofNat es.length⟩ }, m)) ∧
      Holds schema (insertedPage schema d row) p next (es ++ [⟨row, false⟩]) := by
  have hroom' := (h.room_iff row).mpr hroom
  have hinsert := h.rows.insertTuple_eq hrow hroom'
  refine ⟨⟨_, hinsert⟩, ?_, ?_⟩
  · rw [insertedPage_eq hinsert]
    refine (h.rows.insert hrow hroom').congr fun j hj => Buf.mem_ofMem_of_lt ?_
    simp only [PAGE_SIZE] at hj ⊢
    omega
  · rw [insertedPage_eq hinsert, ← h.next_eq]
    refine TablePage.getNextPageId_congr fun j hj => ?_
    rw [Buf.mem_ofMem_of_lt (lt_trans hj (by decide))]
    exact h.rows.inserted_header hroom' hj

/-- The row goes to the new page once, and once more. -/
theorem emptyPage_inserts (hrow : row.HasSchema schema)
    (htwo : 2 * (row.encode.length + TablePage.SIZE_TUPLE) ≤ 4072) (q p : PageId) :
    ∃ m m', TablePage.insertTuple (emptyPage q p).mem row schema =
        .ok (true, { row with rid := ⟨q, 0⟩ }, m) ∧
      TablePage.insertTuple (insertedPage schema (emptyPage q p) row).mem
        { row with rid := ⟨q, 0⟩ } schema = .ok (true, { row with rid := ⟨q, 1⟩ }, m') ∧
      Holds schema (insertedPage schema (insertedPage schema (emptyPage q p) row)
        { row with rid := ⟨q, 0⟩ }) q INVALID_PAGE_ID
        [⟨row, false⟩, ⟨{ row with rid := ⟨q, 0⟩ }, false⟩] := by
  simp only [TablePage.SIZE_TUPLE] at htwo
  have hroom : row.encode.length + 8 ≤
      4072 - 8 * ([] : List Entry).length - TablePage.used ([] : List Entry) := by
    simp only [List.length_nil, TablePage.used, List.map_nil, List.sum_nil]
    omega
  rcases (emptyPage_holds schema q p).insert hrow hroom with ⟨⟨m, hfirst⟩, hholds⟩
  have hrow' : Row.HasSchema { row with rid := ⟨q, 0⟩ } schema := hrow
  have hlen := encode_length_rid row ⟨q, 0⟩
  have hroom₁ : (Row.encode { row with rid := ⟨q, 0⟩ }).length + 8 ≤
      4072 - 8 * ([] ++ [(⟨row, false⟩ : Entry)]).length -
        TablePage.used ([] ++ [(⟨row, false⟩ : Entry)]) := by
    simp only [hlen, TablePage.used, Entry.size, List.nil_append, List.map_cons, List.map_nil,
      List.sum_cons, List.sum_nil, List.length_singleton]
    omega
  rcases hholds.insert hrow' hroom₁ with ⟨⟨m', hsecond⟩, hholds₂⟩
  exact ⟨m, m', hfirst, hsecond, hholds₂⟩

/-! ## One pass of the loop -/

theorem bytes_of_lookup (hl : s.pageTable.lookup p = some f) :
    s.bytes f = (s.contents p).mem := by
  rw [bytes, contents_of_lookup hl]

/-- The condition of the loop stores the row on page `p` and the call returns. -/
theorem insertLoop_room {m : Mem} (h : PoolInv s) (hl : s.pageTable.lookup p = some f)
    (hinsert : TablePage.insertTuple (s.contents p).mem row schema = .ok (true, row', m))
    (fuel : Nat) :
    ∃ s', insertLoop schema fuel s f row = .ok (some (true, row', s')) ∧
      Written s p f (insertedPage schema (s.contents p) row) s' := by
  rw [insertedPage_eq hinsert]
  rw [← bytes_of_lookup hl] at hinsert
  refine ⟨_, ?_, h.written hl (Buf.ofMem PAGE_SIZE m)⟩
  unfold insertLoop
  simp only [hinsert, ok_bind, if_true, setBytes_pageId, (h.frames.pageId hl).2]
  rfl

theorem insertTuple_visit (hvisit : s.visit heap.firstPageId = .ok (some f, s'))
    (fuel : Nat) (row : Row) :
    heap.insertTuple fuel s row = insertLoop heap.schema fuel s' f row := by
  rcases bind_eq_ok.mp hvisit with ⟨⟨reply, s₁⟩, hfetch, hvisit⟩
  simp only [Except.ok.injEq, Prod.mk.injEq] at hvisit
  rcases hvisit with ⟨rfl, rfl⟩
  simp only [insertTuple, hfetch, ok_bind, deref]

/-- A page without room: the loop goes on with the page that `nextPage` names. -/
theorem insertLoop_visit (hrow : row.HasSchema schema) (hfull : ¬Room s row f)
    (hnext : nextPage schema s f row = .ok (some (q, row'), s₁)) (h : PoolInv s₁)
    (hvisit : s₁.visit q = .ok (some g, s')) (fuel : Nat) :
    insertLoop schema (fuel + 1) s f row = insertLoop schema fuel s' g row' := by
  rcases bind_eq_ok.mp hvisit with ⟨⟨reply, s₂⟩, hfetch, hvisit⟩
  simp only [Except.ok.injEq, Prod.mk.injEq] at hvisit
  rcases hvisit with ⟨rfl, rfl⟩
  have hid := (h.frames.fetched h.disk hfetch).pageId
  conv_lhs => unfold insertLoop
  simp only [insertTuple_full hrow hfull, ok_bind, Bool.false_eq_true, if_false, setBytes_bytes,
    hnext, hfetch, deref, hid]

/-! ## A new page -/

/-- The page made for a row: it gets the row in the body of the loop and in its condition. -/
def grownPage (schema : Schema) (q p : PageId) (row : Row) : PageData :=
  insertedPage schema (insertedPage schema (emptyPage q p) row) { row with rid := ⟨q, 0⟩ }

/-- The three stores to a new page and to the page before it. -/
def linkedPool (schema : Schema) (s : BufferPoolManager n) (f : Fin n) (p : PageId)
    (target : Fin n) (q : PageId) (row : Row) : BufferPoolManager n :=
  ((s.write target (emptyPage q p)).write f (linkedPage (s.contents p) q)).write target
    (insertedPage schema (emptyPage q p) row)

/-- The page that was just made is empty, so the stores to the two pages are known. -/
theorem linked_eq (hid : (s.pages f).pageId = p) (hl : s.pageTable.lookup p = some f)
    (hmade : s.pages target = ⟨Buf.zero PAGE_SIZE, q, 1, false⟩) (hft : f ≠ target) :
    linked s f target q =
      (s.write target (emptyPage q p)).write f (linkedPage (s.contents p) q) := by
  set s' := s.write target (emptyPage q p) with hs'
  have hinit : s.setBytes target (TablePage.init (s.bytes target) q (s.pages f).pageId) = s' := by
    rw [hid, bytes, hmade]
    rfl
  have hbytes : s'.bytes f = (s.contents p).mem := by
    rw [← bytes_of_lookup hl]
    exact bytes_setBytes_ne _ hft
  simp only [linked, hinit, hbytes]
  rw [hs', write_pageId, hmade]
  rfl

theorem nextPage_new (h : PoolInv s) (hm : Made s q target s₁)
    (hnew : s.newPage = .ok (some (q, target), s₁)) (hl : s.pageTable.lookup p = some f)
    (hft : f ≠ target) (hlast : TablePage.getNextPageId (s.bytes f) = INVALID_PAGE_ID) {m : Mem}
    (hinsert : TablePage.insertTuple (emptyPage q p).mem row schema = .ok (done, row', m)) :
    nextPage schema s f row =
      .ok (some (q, row'), linkedPool schema s₁ f p target q row) := by
  have hid : (s₁.pages f).pageId = p := by
    rw [hm.others f hft, (h.frames.pageId hl).2]
  have htarget : ((s₁.write target (emptyPage q p)).write f (linkedPage (s₁.contents p) q)).bytes
      target = (emptyPage q p).mem := by
    simp only [bytes, BufferPoolManager.write, setPage, Function.update_of_ne (Ne.symm hft),
      Function.update_self]
  rw [nextPage_of_new (ne_INVALID_of_nonneg hm.valid) hlast hnew,
    linked_eq hid (hm.lookup_other p f hl hft) hm.page hft, htarget, hinsert, linkedPool,
    insertedPage_eq hinsert]
  rfl

theorem linkedPool_contents (h : FrameInv s) (hf : s.pageTable.lookup p = some f)
    (ht : s.pageTable.lookup q = some target) (x : PageId) :
    (linkedPool schema s f p target q row).contents x =
      if x = q then insertedPage schema (emptyPage q p) row
      else if x = p then linkedPage (s.contents p) q else s.contents x := by
  have h₁ := h.write target (emptyPage q p)
  have h₂ := h₁.write f (linkedPage (s.contents p) q)
  rw [linkedPool, h₂.write_contents (p := q) ht]
  split
  · rfl
  · rename_i hxq
    rw [h₁.write_contents (p := p) hf, h.write_contents (p := q) ht, if_neg hxq]

/-- The frames other than the two keep everything, and that of the last page keeps its header. -/
theorem linkedPool_pages (schema : Schema) (s : BufferPoolManager n) (f : Fin n) (p q : PageId)
    (row : Row) (hgt : g ≠ target) :
    ((linkedPool schema s f p target q row).pages g).pinCount = (s.pages g).pinCount ∧
      ((linkedPool schema s f p target q row).pages g).isDirty = (s.pages g).isDirty ∧
      (g ≠ f → (linkedPool schema s f p target q row).pages g = s.pages g) := by
  refine ⟨?_, ?_, fun hgf => ?_⟩
  · simp only [linkedPool, write_pinCount]
  · simp only [linkedPool, write_isDirty]
  · rw [linkedPool, write_ne _ _ hgt, write_ne _ _ hgf, write_ne _ _ hgt]

/-- The pool after the row went twice to the new page `q` in frame `target` of `s₁`, which is
linked behind page `p` in frame `f`. -/
structure Extended (schema : Schema) (s₁ : BufferPoolManager n) (f : Fin n) (p : PageId)
    (target : Fin n) (q : PageId) (row : Row) (s' : BufferPoolManager n) : Prop where
  pool : PoolInv s'
  table : s'.pageTable = s₁.pageTable
  free : s'.freeList = s₁.freeList
  disk : s'.diskManager = s₁.diskManager
  isDirty : ∀ g, g ≠ target → (s'.pages g).isDirty = (s₁.pages g).isDirty
  contents : ∀ x, s'.contents x =
    if x = q then grownPage schema q p row
    else if x = p then linkedPage (s₁.contents p) q else s₁.contents x
  idle : (∀ g, g ≠ target → (s₁.pages g).pinCount = 0) → Idle s'
  synced : (s₁.pages f).isDirty = true → (∀ g, g ≠ target → Spare s₁ g) → Synced s'

theorem insertLoop_new (h : PoolInv s) (hm : Made s q target s₁)
    (hnew : s.newPage = .ok (some (q, target), s₁)) (hl : s.pageTable.lookup p = some f)
    (hft : f ≠ target) (hlast : TablePage.getNextPageId (s.bytes f) = INVALID_PAGE_ID)
    (hfull : ¬Room s row f) (hrow : row.HasSchema schema)
    (htwo : 2 * (row.encode.length + TablePage.SIZE_TUPLE) ≤ 4072) (fuel : Nat) :
    ∃ s', insertLoop schema (fuel + 1) s f row =
        .ok (some (true, { row with rid := ⟨q, 1⟩ }, s')) ∧
      Extended schema s₁ f p target q row s' := by
  have hl₁ : s₁.pageTable.lookup p = some f := hm.lookup_other p f hl hft
  have hpq : p ≠ q := by
    rintro rfl
    rw [hm.fresh] at hl
    cases hl
  set s₄ := linkedPool schema s₁ f p target q row with hs₄
  have hpool₄ : PoolInv s₄ :=
    ((hm.pool.write hm.lookup _).write (p := p) hl₁ _).write (p := q) hm.lookup _
  have hq₄ : s₄.pageTable.lookup q = some target := hm.lookup
  rcases emptyPage_inserts hrow htwo q p with ⟨_, m, hfirst, hinsert, _⟩
  have hnext := nextPage_new h hm hnew hl hft hlast hfirst
  -- The page just made is resident, so fetching it changes the queue only.
  rcases visit_resident hpool₄.frames hq₄ with ⟨r, hvisit, _⟩
  rw [insertLoop_visit hrow hfull hnext hpool₄ hvisit]
  have hk := hpool₄.kept hvisit hm.valid (hpool₄.allocated q target hq₄).2
    (fun hnone => by rw [hq₄] at hnone; cases hnone)
  set s₅ : BufferPoolManager n := { s₄ with replacer := r } with hs₅
  have hcontents : ∀ x, s₅.contents x =
      if x = q then insertedPage schema (emptyPage q p) row
      else if x = p then linkedPage (s₁.contents p) q else s₁.contents x := by
    intro x
    have hsame : s₅.contents x = s₄.contents x := rfl
    rw [hsame, hs₄, linkedPool_contents hm.pool.frames hl₁ hm.lookup]
  have hq₅ : (s₅.contents q) = insertedPage schema (emptyPage q p) row := by
    rw [hcontents, if_pos rfl]
  rw [← hq₅] at hinsert
  rcases insertLoop_room hk.pool hk.lookup hinsert fuel with ⟨s', hok, hw⟩
  have hdisk : s₅.diskManager = s₁.diskManager := rfl
  have htable : s₅.pageTable = s₁.pageTable := rfl
  have hfree : s₅.freeList = s₁.freeList := rfl
  refine ⟨s', hok, hw.pool, hw.table.trans htable, hw.free.trans hfree, hw.disk.trans hdisk,
    fun g hg => ?_, fun x => ?_, fun hidle => hw.idle ?_ fun g hg => ?_,
    fun hdirty hspare => hw.synced fun g hg => ?_⟩
  · rw [hw.others g hg]
    exact (linkedPool_pages schema s₁ f p q row hg).2.1
  · rw [hw.contents, hq₅]
    split
    · rfl
    · rename_i hxq
      rw [hcontents, if_neg hxq]
  · have hpin : (s₅.pages target).pinCount = (s₁.pages target).pinCount := by
      simp only [hs₅, hs₄, linkedPool, write_pinCount]
    rw [hpin, hm.page]
  · exact (linkedPool_pages schema s₁ f p q row hg).1.trans (hidle g hg)
  · intro x hx
    rcases linkedPool_pages schema s₁ f p q row hg with ⟨_, hflag, hsame⟩
    by_cases hgf : g = f
    · -- The link is safe because the frame is marked already.
      left
      rw [hgf] at hflag ⊢
      exact hflag.trans hdirty
    · have hpage : s₅.pages g = s₁.pages g := hsame hgf
      rw [hpage]
      exact hspare g hg x hx

/-! ## Two pools -/

/-- The pools show the same pages and would hand out the same ones. -/
structure Alike {m : Nat} (a : BufferPoolManager n) (b : BufferPoolManager m) : Prop where
  contents : ∀ p, 0 ≤ p.toInt → b.contents p = a.contents p
  allocator : DiskManager.SameAllocator a.diskManager b.diskManager

/-- When a page has to be made behind the last one, the last page is marked dirty in its frame and
the frame that `NewPage` takes is not. -/
def Covered (row : Row) (s : BufferPoolManager n) (p : PageId) : Prop :=
  ∀ s' q, Reaches row s p s' q → ¬Takes s' row q → behind s' q = INVALID_PAGE_ID →
    ∀ f s₁, s'.visit q = .ok (some f, s₁) → (s₁.pages f).isDirty = true ∧
      ∀ target s₂, s₁.pickFrame = some (target, s₂) → (s₁.pages target).isDirty = false

theorem visit_fetch (h : s.visit p = .ok (some f, s')) :
    ∃ s₁, s.fetchPage p = .ok (some f, s₁) ∧ s' = (s₁.unpinPage p false).2 := by
  rcases bind_eq_ok.mp h with ⟨⟨reply, s₁⟩, hfetch, h⟩
  simp only [Except.ok.injEq, Prod.mk.injEq] at h
  rcases h with ⟨rfl, rfl⟩
  exact ⟨s₁, hfetch, rfl⟩

theorem Covered.next (h : Covered row s p) (hvisit : s.visit p = .ok (some f, s'))
    (hfull : ¬Takes s row p) (hnext : behind s p ≠ INVALID_PAGE_ID) :
    Covered row s' (behind s p) := by
  intro s₂ q hreach
  rcases visit_fetch hvisit with ⟨s₁, hfetch, rfl⟩
  exact h s₂ q (.next hfetch hfull hnext hreach)

section alike

variable {m : Nat} {a a' a₁ : BufferPoolManager n} {b b' b₁ : BufferPoolManager m} {h : Fin m}

/-- The same page was made in both pools, in frames whose pages are on disk. -/
theorem Alike.extended {t : Fin n} {u : Fin m} (hab : Alike a b) (ha : PoolInv a) (hb : PoolInv b)
    (hnewa : a.newPage = .ok (some (q, t), a₁)) (hta : (a.pages t).isDirty = false)
    (hsa : Spare a t) (hnewb : b.newPage = .ok (some (q, u), b₁))
    (hub : (b.pages u).isDirty = false) (hsb : Spare b u) (hp : 0 ≤ p.toInt) (hpq : p ≠ q)
    (hxa : Extended schema a₁ f p t q row a') (hxb : Extended schema b₁ h p u q row b') :
    Alike a' b' := by
  have hsame : ∀ x, 0 ≤ x.toInt → x ≠ q → b₁.contents x = a₁.contents x := by
    intro x hx hxq
    calc
      b₁.contents x = b.contents x := hb.made_contents hnewb hub hsb hx hxq
      _ = a.contents x := hab.contents x hx
      _ = a₁.contents x := (ha.made_contents hnewa hta hsa hx hxq).symm
  -- The contents agree page by page; the allocators took the same step.
  constructor
  · intro x hx
    rw [hxb.contents, hxa.contents, hsame p hp hpq]
    by_cases hxq : x = q
    · rw [if_pos hxq, if_pos hxq]
    · rw [if_neg hxq, if_neg hxq, hsame x hx hxq]
  · rcases (ha.made hnewa).allocator with ⟨dm, halloc, hdm⟩
    rcases (hb.made hnewb).allocator with ⟨dm', halloc', hdm'⟩
    rcases hab.allocator.allocatePage halloc with ⟨dm'', hallocb, hboth⟩
    rw [halloc'] at hallocb
    cases hallocb
    rw [hxb.disk, hxa.disk]
    exact (hdm.symm.trans hboth).trans hdm'

/-- Both loops stand on a full last page: both make the same page and put the row there twice. -/
theorem Alike.grow (hab : Alike a b) (hc : ChainInv schema a p [f]) (hb : PoolInv b)
    (hh : b.pageTable.lookup p = some h) (hia : Idle a) (hib : Idle b) (hsync : Synced b)
    (hrow : row.HasSchema schema) (hsize : row.encode.length ≤ TablePage.SIZE_MAX_ROW)
    (hfull : ¬Room a row f) (hfuel : fuel ≤ a.freeList.length)
    (hdirty : (b.pages h).isDirty = true)
    (hclean : ∀ target b₁, b.pickFrame = some (target, b₁) → (b.pages target).isDirty = false)
    (hok : insertLoop schema fuel a f row = .ok (some (done, row', a'))) :
    done = true ∧ Idle a' ∧ ∃ b', insertLoop schema fuel b h row = .ok (some (done, row', b')) ∧
      PoolInv b' ∧ Idle b' ∧ Synced b' ∧ Alike a' b' := by
  have hf : a.pageTable.lookup p = some f := hc.chain.head
  have hp : 0 ≤ p.toInt := (hc.pool.allocated p f hf).1
  have hlast := hc.chain.next_of_single
  have hsize' : row.encode.length + TablePage.SIZE_TUPLE ≤ 4072 := by
    simp only [TablePage.SIZE_MAX_ROW, TablePage.SIZE_TUPLE] at hsize ⊢
    omega
  -- The large pool returned, so the row fits twice on the page and the disk had room for it.
  have htwo : 2 * (row.encode.length + TablePage.SIZE_TUPLE) ≤ 4072 := by
    by_contra hnot
    exact insertLoop_never hc hrow hsize' (Nat.lt_of_not_le hnot) hfull hfuel _ hok
  cases fuel with
  | zero =>
      rw [insertLoop_zero hrow hfull] at hok
      cases hok
  | succ fuel =>
      have hne : a.freeList ≠ [] := List.ne_nil_of_length_pos (by omega)
      rcases List.exists_cons_of_ne_nil hne with ⟨g, free, hfree⟩
      by_cases halloc : ∃ q dm, a.diskManager.allocatePage = .ok (q, dm)
      · rcases halloc with ⟨q, dm, halloc⟩
        rcases hc.pool.newPage_free hfree halloc with ⟨a₁, hnewa, _, _, _⟩
        have hma := hc.pool.made hnewa
        have hg : g ∈ a.freeList := by simp [hfree]
        have hfg : f ≠ g := by
          rintro rfl
          exact hc.pool.frames.free_not_resident hg p hf
        have hga := hc.pool.clean g (hc.pool.frames.free_frame hg).1
        rcases insertLoop_new hc.pool hma hnewa hf hfg hlast hfull hrow htwo fuel with
          ⟨a₂, hoka, hxa⟩
        rw [hoka] at hok
        cases hok
        -- The small pool takes another frame than that of the last page: one is dirty, one is not.
        rcases hb.frames.queueInv.pickFrame_ok (hib h) with ⟨target, b₀, hpick⟩
        have htb := hclean target b₀ hpick
        have hht : h ≠ target := by
          rintro rfl
          rw [hdirty] at htb
          cases htb
        rcases hab.allocator.allocatePage halloc with ⟨dm', hallocb, _⟩
        rcases newPage_ok hpick (hib target) hallocb hb.dirty_nonneg with ⟨b₁, hnewb⟩
        have hmb := hb.made hnewb
        have hbytes : b.bytes h = a.bytes f := by
          rw [bytes_of_lookup hh, bytes_of_lookup hf, hab.contents p hp]
        rcases insertLoop_new hb hmb hnewb hh hht (by rw [hbytes]; exact hlast)
          (by rw [Room, hbytes]; exact hfull) hrow htwo fuel with ⟨b', hokb, hxb⟩
        have hpq : p ≠ q := by
          rintro rfl
          rw [hma.fresh] at hf
          cases hf
        refine ⟨rfl, hxa.idle fun i hi => ?_, b', hokb, hxb.pool, hxb.idle fun i hi => ?_,
          hxb.synced ?_ fun i hi => ?_, ?_⟩
        · rw [hma.others i hi, hia i]
        · rw [hmb.others i hi, hib i]
        · rw [hmb.others h hht, hdirty]
        · exact hb.made_spare hnewb htb hi (hsync i)
        · exact hab.extended hc.pool hb hnewa hga (hc.pool.frames.spare_of_free hg) hnewb htb
            (hsync target) hp hpq hxa hxb
      · rcases insertLoop_disk_full hc hlast hrow hfull hfree (fun r hr => halloc ⟨r.1, r.2, hr⟩)
          fuel with ⟨e, herr⟩
        rw [herr] at hok
        cases hok

/-- A page on the chain is visited in both pools. -/
structure Standing (schema : Schema) (p : PageId) (f : Fin n) (fs : List (Fin n))
    (a : BufferPoolManager n) (h : Fin m) (b : BufferPoolManager m) : Prop where
  chain : ChainInv schema a p (f :: fs)
  pool : PoolInv b
  lookup : b.pageTable.lookup p = some h
  idle : Idle a
  idle_small : Idle b
  synced : Synced b
  alike : Alike a b

theorem Standing.bytes_eq {fs : List (Fin n)} (hs : Standing schema p f fs a h b) :
    b.bytes h = a.bytes f := by
  have hf := hs.chain.chain.head
  rw [bytes_of_lookup hs.lookup, bytes_of_lookup hf,
    hs.alike.contents p (hs.chain.pool.allocated p f hf).1]

/-- Both loops stand on a page with room. -/
theorem Standing.room {fs : List (Fin n)} {b₀ : BufferPoolManager m}
    (hs : Standing schema p f fs a h b) (hrow : row.HasSchema schema) (hroom : Room a row f)
    (hvisit : b₀.visit p = .ok (some h, b))
    (hok : insertLoop schema fuel a f row = .ok (some (done, row', a'))) :
    done = true ∧ Idle a' ∧ ∃ h b b', b₀.visit p = .ok (some h, b) ∧
      insertLoop schema fuel b h row = .ok (some (done, row', b')) ∧
      PoolInv b' ∧ Idle b' ∧ Synced b' ∧ Alike a' b' := by
  have hf := hs.chain.chain.head
  have hp : 0 ≤ p.toInt := (hs.chain.pool.allocated p f hf).1
  rcases insertLoop_inversion hrow hok with ⟨_, rfl, m, hinsert, _⟩ | ⟨hfull, _⟩ | ⟨hfull, _⟩
  · rw [bytes_of_lookup hf] at hinsert
    rcases insertLoop_room hs.chain.pool hf hinsert fuel with ⟨a₂, hok₂, hwa⟩
    rw [hok₂] at hok
    cases hok
    rw [← hs.alike.contents p hp] at hinsert
    rcases insertLoop_room hs.pool hs.lookup hinsert fuel with ⟨b', hokb, hwb⟩
    have hia' : Idle a' := hwa.idle (by rw [hs.idle]; omega) fun g _ => hs.idle g
    have hib' : Idle b' := hwb.idle (by rw [hs.idle_small]; omega) fun g _ => hs.idle_small g
    refine ⟨rfl, hia', h, b, b', hvisit, hokb, hwb.pool, hib',
      hwb.synced fun g _ => hs.synced g, ?_, ?_⟩
    · intro x hx
      rw [hwb.contents, hwa.contents, hs.alike.contents p hp, hs.alike.contents x hx]
    · rw [hwb.disk, hwa.disk]
      exact hs.alike.allocator
  · exact absurd hroom hfull
  · exact absurd hroom hfull

theorem Chain.tail {fs : List (Fin n)} (hc : Chain s p (f :: g :: fs)) :
    TablePage.getNextPageId (s.bytes f) ≠ INVALID_PAGE_ID ∧
      Chain s (TablePage.getNextPageId (s.bytes f)) (g :: fs) := by
  cases hc with
  | cons _ hnext hrest => exact ⟨hnext, hrest⟩

theorem Alike.visit {fs : List (Fin n)} (i : Fin m) (hab : Alike a b)
    (hc : ChainInv schema a p (f :: fs)) (hb : PoolInv b) (hia : Idle a) (hib : Idle b)
    (hsync : Synced b) (hvisit : a.visit p = .ok (some f, a₁)) :
    a₁.freeList = a.freeList ∧ (b.contents p).mem = a₁.bytes f ∧
      ∃ h b₁, b.visit p = .ok (some h, b₁) ∧ Standing schema p f fs a₁ h b₁ := by
  have hf := hc.chain.head
  rcases hc.pool.allocated p f hf with ⟨hp, hused⟩
  have hka := hc.pool.kept hvisit hp hused fun hnone => by
    rw [hf] at hnone
    cases hnone
  rcases hb.visit_ok hib i hp with ⟨h, b₁, hvisitb⟩
  have hkb := hb.kept hvisitb hp ((hab.allocator.isPageFree_eq hp).trans hused) fun _ => hsync h
  rcases visit_inversion hc.pool.frames hvisit with ⟨_, r, rfl, _⟩ | ⟨hnone, _⟩
  · have hsame : SameStore a { a with replacer := r } := ⟨rfl, fun _ => rfl, fun _ => rfl, rfl, rfl⟩
    refine ⟨rfl, ?_, h, b₁, hvisitb, hc.same hka.pool hsame, hkb.pool, hkb.lookup, hka.idle hia,
      hkb.idle hib, hkb.synced hsync, fun x hx => ?_, ?_⟩
    · rw [hab.contents p hp, ← hka.contents p hp, bytes_of_lookup hka.lookup]
    · rw [hkb.contents x hx, hab.contents x hx, hka.contents x hx]
    · exact (hka.allocator.symm.trans hab.allocator).trans hkb.allocator
  · rw [hf] at hnone
    cases hnone

theorem nextPage_follow (hq : TablePage.getNextPageId (s.bytes f) = q)
    (hvalid : q ≠ INVALID_PAGE_ID) (row : Row) :
    nextPage schema s f row = .ok (some (q, row), s) := by
  simp only [nextPage, hq, ne_eq, hvalid, not_false_eq_true, if_true]

/-- The search for room visits the same pages in both pools. -/
theorem Alike.walk {fs : List (Fin n)} (i : Fin m) (hab : Alike a b)
    (hc : ChainInv schema a p (f :: fs)) (hb : PoolInv b) (hia : Idle a) (hib : Idle b)
    (hsync : Synced b) (hrow : row.HasSchema schema)
    (hsize : row.encode.length ≤ TablePage.SIZE_MAX_ROW) (hcov : Covered row b p)
    (hfuel : fuel ≤ fs.length + a.freeList.length) (hvisit : a.visit p = .ok (some f, a₁))
    (hok : insertLoop schema fuel a₁ f row = .ok (some (done, row', a'))) :
    done = true ∧ Idle a' ∧ ∃ h b₁ b', b.visit p = .ok (some h, b₁) ∧
      insertLoop schema fuel b₁ h row = .ok (some (done, row', b')) ∧
      PoolInv b' ∧ Idle b' ∧ Synced b' ∧ Alike a' b' := by
  -- On the pages that are left: every pass leaves the pools alike on the next one.
  induction fs generalizing a a₁ b p f fuel with
  | nil =>
      rcases hab.visit i hc hb hia hib hsync hvisit with
        ⟨hfree, hbytes, h, b₁, hvisitb, hs⟩
      by_cases hroom : Room a₁ row f
      · exact hs.room hrow hroom hvisitb hok
      · rcases hcov b p (.here b p) (by rw [Takes, hbytes]; exact hroom)
          (by rw [behind, hbytes]; exact hs.chain.chain.next_of_single) h b₁ hvisitb with
          ⟨hdirty, hclean⟩
        have hfuel' : fuel ≤ a₁.freeList.length := by
          rw [hfree]
          simpa using hfuel
        rcases hs.alike.grow hs.chain hs.pool hs.lookup hs.idle hs.idle_small hs.synced hrow hsize
          hroom hfuel' hdirty hclean hok with ⟨hdone, hia', b', hokb, hrest⟩
        exact ⟨hdone, hia', h, b₁, b', hvisitb, hokb, hrest⟩
  | cons f₂ fs ih =>
      rcases hab.visit i hc hb hia hib hsync hvisit with
        ⟨hfree, hbytes, h, b₁, hvisitb, hs⟩
      by_cases hroom : Room a₁ row f
      · exact hs.room hrow hroom hvisitb hok
      · rcases hs.chain.chain.tail with ⟨hnext, hrest⟩
        set q := TablePage.getNextPageId (a₁.bytes f) with hq
        have hc₂ : ChainInv schema a₁ q (f₂ :: fs) :=
          ⟨hs.chain.pool, hrest, fun g hg => hs.chain.pages g (List.mem_cons_of_mem _ hg)⟩
        -- The next page is resident in the large pool, where nothing is evicted.
        rcases visit_resident hs.chain.pool.frames hrest.head with ⟨r, hvisit₂, _⟩
        cases fuel with
        | zero =>
            rw [insertLoop_zero hrow hroom] at hok
            cases hok
        | succ fuel =>
            rw [insertLoop_visit hrow hroom (nextPage_follow hq.symm hnext row) hs.chain.pool
              hvisit₂] at hok
            have hcov₂ : Covered row b₁ q := by
              have hbehind : behind b p = q := by
                rw [behind, hbytes]
              rw [← hbehind]
              exact hcov.next hvisitb (by rw [Takes, hbytes]; exact hroom)
                (by rw [hbehind]; exact hnext)
            have hfuel₂ : fuel ≤ fs.length + a₁.freeList.length := by
              rw [hfree]
              simp only [List.length_cons] at hfuel
              omega
            rcases ih hs.alike hc₂ hs.pool hs.idle hs.idle_small hs.synced hcov₂ hfuel₂ hvisit₂ hok
              with ⟨hdone, hia', h₂, b₂, b', hvisitb₂, hokb, hresult⟩
            refine ⟨hdone, hia', h, b₁, b', hvisitb, ?_, hresult⟩
            have hnextb : TablePage.getNextPageId (b₁.bytes h) = q := by
              rw [hs.bytes_eq]
            rw [insertLoop_visit hrow (by rw [Room, hs.bytes_eq]; exact hroom)
              (nextPage_follow hnextb hnext row) hs.pool hvisitb₂]
            exact hokb

end alike

/-! ## Runs -/

/-- A call of the heap with what it returned, or a visit to another page. -/
inductive HeapEvent
  | insertTuple (row : Row) (done : Bool) (row' : Row)
  | touch (pageId : PageId)

/-- What the client asked for. -/
def HeapEvent.input : HeapEvent → Row ⊕ PageId
  | .insertTuple row _ _ => .inl row
  | .touch pageId => .inr pageId

def HeapStep (heap : TableHeap) (s : BufferPoolManager n) :
    HeapEvent → BufferPoolManager n → Prop
  | .insertTuple row done row', s' =>
    ∃ fuel, heap.insertTuple fuel s row = .ok (some (done, row', s'))
  | .touch pageId, s' => ∃ f, s.visit pageId = .ok (some f, s')

/-- The step evicts nothing: the pages of the heap are resident, and for each page that is made or
read there is a free frame.  `fuel` passes of the loop make at most `fuel + 1 - fs.length` pages.
Rows are of the schema and not too long, and only pages that exist are visited. -/
def QuietStep (heap : TableHeap) (s : BufferPoolManager n) :
    HeapEvent → BufferPoolManager n → Prop
  | .insertTuple row done row', s' =>
    row.HasSchema heap.schema ∧ row.encode.length ≤ TablePage.SIZE_MAX_ROW ∧
      ∃ fs fuel, Chain s heap.firstPageId fs ∧ fuel < fs.length + s.freeList.length ∧
        heap.insertTuple fuel s row = .ok (some (done, row', s'))
  | .touch pageId, s' =>
    0 ≤ pageId.toInt ∧ s.diskManager.isPageFree pageId = false ∧
      (s.pageTable.lookup pageId = none → s.freeList ≠ []) ∧
      ∃ f, s.visit pageId = .ok (some f, s')

/-- The condition on the small pool before a step. -/
def Safe (heap : TableHeap) (s : BufferPoolManager n) : HeapEvent → Prop
  | .insertTuple row _ _ => Covered row s heap.firstPageId
  | .touch _ => True

theorem QuietStep.heapStep {e : HeapEvent} (h : QuietStep heap s e s') : HeapStep heap s e s' := by
  cases e with
  | insertTuple row done row' =>
      rcases h with ⟨_, _, _, fuel, _, _, hok⟩
      exact ⟨fuel, hok⟩
  | touch u =>
      exact h.2.2.2

/-- The large pool `a` and the small pool `b` between two calls. -/
structure Related {m : Nat} (heap : TableHeap) (a : BufferPoolManager n)
    (b : BufferPoolManager m) : Prop where
  chain : ∃ fs, ChainInv heap.schema a heap.firstPageId fs
  idle : Idle a
  pool : PoolInv b
  idle_small : Idle b
  synced : Synced b
  alike : Alike a b

section runs

variable {m : Nat} {a a' : BufferPoolManager n} {b b' : BufferPoolManager m}

/-- A visit that takes a free frame leaves the resident pages where they are. -/
theorem visit_keeps (h : PoolInv s) (hp : 0 ≤ p.toInt)
    (hused : s.diskManager.isPageFree p = false)
    (hfree : s.pageTable.lookup p = none → s.freeList ≠ [])
    (hvisit : s.visit p = .ok (some f, s')) : Kept s p f s' ∧ Keeps s s' := by
  -- A page that is not resident gets a free frame, so no page is evicted.
  have hmem : s.pageTable.lookup p = none → f ∈ s.freeList := by
    intro hnone
    rcases visit_inversion h.frames hvisit with ⟨hl, _⟩ | ⟨_, s₀, _, _, hpick, _⟩
    · rw [hl] at hnone
      cases hnone
    · rcases pickFrame_cases hpick with ⟨rest, heq, _⟩ | ⟨hnil, _⟩
      · simp [heq]
      · exact absurd hnil (hfree hnone)
  have hk := h.kept hvisit hp hused fun hnone => h.frames.spare_of_free (hmem hnone)
  refine ⟨hk, hk.pool, fun q g hq => ?_⟩
  rcases visit_inversion h.frames hvisit with ⟨_, r, rfl, _⟩ | ⟨hnone, s₀, dm, r, _, _, _, rfl⟩
  · exact ⟨hq, rfl⟩
  · have hgf : g ≠ f := by
      rintro rfl
      exact h.frames.free_not_resident (hmem hnone) q hq
    have hqp : q ≠ p := by
      rintro rfl
      rw [hnone] at hq
      cases hq
    have hid : q ≠ (s.pages f).pageId := by
      rw [(h.frames.free_frame (hmem hnone)).1]
      exact (h.frames.pageId hq).1
    rw [lookup_loaded, if_neg hqp, if_neg hid, loaded_ne s p f dm _ r hgf]
    exact ⟨hq, rfl⟩

/-- The small pool takes every step of the large one, and they stay related. -/
theorem Related.step (i : Fin m) (h : Related heap a b) {e : HeapEvent}
    (hstep : QuietStep heap a e a') (hsafe : Safe heap b e) :
    ∃ b', HeapStep heap b e b' ∧ Related heap a' b' := by
  rcases h.chain with ⟨fs, hc⟩
  cases e with
  | insertTuple row done row' =>
      rcases hstep with ⟨hrow, hsize, gs, fuel, hchain, hfuel, hok⟩
      rw [hchain.unique hc.chain] at hfuel
      rcases hc.chain.ne_nil with ⟨f, rest, rfl⟩
      rcases visit_resident hc.pool.frames hc.chain.head with ⟨r, hvisit, _⟩
      have hloop := hok
      rw [insertTuple_visit hvisit] at hloop
      have hfuel' : fuel ≤ rest.length + a.freeList.length := by
        simp only [List.length_cons] at hfuel
        omega
      -- The small pool may evict where the large one has a free frame: `Safe` is about that.
      rcases h.alike.walk i hc h.pool h.idle h.idle_small h.synced hrow hsize hsafe hfuel' hvisit
        hloop with ⟨rfl, hidle, g, b₁, b', hvisitb, hokb, hpool, hidleb, hsync, halike⟩
      refine ⟨b', ⟨fuel, by rw [insertTuple_visit hvisitb]; exact hokb⟩, ?_, hidle, hpool, hidleb,
        hsync, halike⟩
      rcases insertTuple_true hc hrow hsize hfuel hok with ⟨_, _, _, _, _, hputs⟩ |
        ⟨_, _, l, hl, _, _, _, _, hgrows, hputs⟩
      · exact ⟨_, hputs.chainInv hc⟩
      · exact ⟨_, hputs.chainInv (hgrows.chainInv hc hl)⟩
  | touch u =>
      rcases hstep with ⟨hu, hused, hfree, f, hvisit⟩
      rcases visit_keeps hc.pool hu hused hfree hvisit with ⟨hka, hkeeps⟩
      rcases h.pool.visit_ok h.idle_small i hu with ⟨g, b', hvisitb⟩
      have hkb := h.pool.kept hvisitb hu ((h.alike.allocator.isPageFree_eq hu).trans hused)
        fun _ => h.synced g
      refine ⟨b', ⟨g, hvisitb⟩, ⟨fs, hkeeps.chainInv hc⟩, hka.idle h.idle, hkb.pool,
        hkb.idle h.idle_small, hkb.synced h.synced, fun x hx => ?_, ?_⟩
      · rw [hkb.contents x hx, h.alike.contents x hx, hka.contents x hx]
      · exact (hka.allocator.symm.trans h.alike.allocator).trans hkb.allocator

/-- The constructor makes a page and sets it up. -/
theorem create_written (h : PoolInv s) (hok : create s schema = .ok (heap, s')) :
    ∃ q f s₁, heap = ⟨q, schema⟩ ∧ s.newPage = .ok (some (q, f), s₁) ∧
      Written s₁ q f (emptyPage q 4096) s' := by
  rcases bind_eq_ok.mp hok with ⟨⟨reply, s₁⟩, hnew, hok⟩
  rcases reply with _ | ⟨q, f⟩
  · cases hok
  · simp only [Except.ok.injEq, Prod.mk.injEq] at hok
    rcases hok with ⟨rfl, rfl⟩
    have hm := h.made hnew
    refine ⟨q, f, s₁, rfl, hnew, ?_⟩
    have hbytes : s₁.setBytes f (TablePage.init (s₁.bytes f) q 4096) =
        s₁.write f (emptyPage q 4096) := by
      rw [bytes, hm.page]
      rfl
    rw [hbytes]
    exact hm.pool.written hm.lookup _

theorem init_idle (n : Nat) (dm : DiskManager) : Idle (init n dm) :=
  fun _ => rfl

theorem init_synced (n : Nat) (dm : DiskManager) : Synced (init n dm) := by
  intro f q hq
  simp [init] at hq

theorem init_contents (n : Nat) (dm : DiskManager) (p : PageId) :
    (init n dm).contents p = stored dm p :=
  contents_of_none rfl

/-- A new heap in a new pool: nothing is pinned, and the page of the heap is marked dirty. -/
theorem create_init {dm : DiskManager} (hdm : DiskManager.Inv dm)
    (hok : create (init n dm) schema = .ok (heap, s)) :
    ∃ q dm', dm.allocatePage = .ok (q, dm') ∧ heap = ⟨q, schema⟩ ∧ PoolInv s ∧ Idle s ∧
      Synced s ∧ DiskManager.SameAllocator dm' s.diskManager ∧
      ∀ x, 0 ≤ x.toInt → s.contents x = if x = q then emptyPage q 4096 else stored dm x := by
  have hpool := init_poolInv n hdm
  rcases create_written hpool hok with ⟨q, f, s₁, rfl, hnew, hw⟩
  have hm := hpool.made hnew
  rcases hm.allocator with ⟨dm', halloc, hsame⟩
  have hidle := init_idle n dm
  have hsync := init_synced n dm
  have hclean : ((init n dm).pages f).isDirty = false := rfl
  refine ⟨q, dm', halloc, rfl, hw.pool, hw.idle (by rw [hm.page]) fun g hg => ?_,
    hw.synced fun g hg => hpool.made_spare hnew hclean hg (hsync g), ?_, fun x hx => ?_⟩
  · rw [hm.others g hg, hidle g]
  · rw [hw.disk]
    exact hsame
  · rw [hw.contents]
    split
    · rfl
    · rename_i hxq
      rw [hpool.made_contents hnew hclean (hsync f) hx hxq, init_contents]

theorem create_related {dm : DiskManager} {heap' : TableHeap} (hdm : DiskManager.Inv dm)
    (ha : create (init n dm) schema = .ok (heap, a))
    (hb : create (init m dm) schema = .ok (heap', b)) :
    heap' = heap ∧ Related heap a b := by
  rcases create_written (init_poolInv n hdm) ha with ⟨_, f₀, _⟩
  rcases create_init hdm ha with ⟨q, dm₁, halloc, rfl, _, hidle, _, halla, hconta⟩
  rcases create_init hdm hb with ⟨q', dm₁', halloc', rfl, hpool, hidleb, hsync, hallb, hcontb⟩
  rw [halloc] at halloc'
  cases halloc'
  have hne : (init n dm).freeList ≠ [] := List.ne_nil_of_mem (List.mem_finRange f₀)
  rcases create_chainInv (init_poolInv n hdm) hne ha with ⟨f, hc⟩
  refine ⟨rfl, ⟨[f], hc⟩, hidle, hpool, hidleb, hsync, fun x hx => ?_, halla.symm.trans hallb⟩
  rw [hcontb x hx, hconta x hx]

/-- More passes do not change what was returned. -/
theorem insertLoop_fuel {fuel' : Nat} {r : Bool × Row × BufferPoolManager n} (hle : fuel ≤ fuel')
    (hok : insertLoop schema fuel s f row = .ok (some r)) :
    insertLoop schema fuel' s f row = .ok (some r) := by
  -- More fuel changes no pass, only how many there may be.
  induction fuel generalizing fuel' s f row with
  | zero =>
      unfold insertLoop at hok ⊢
      rcases bind_eq_ok.mp hok with ⟨⟨done, row₁, m⟩, hinsert, hok⟩
      cases done with
      | false => cases hok
      | true => simpa only [hinsert, ok_bind, if_true] using hok
  | succ fuel ih =>
      rcases Nat.exists_eq_add_of_le' hle with ⟨k, rfl⟩
      have hpass : k + (fuel + 1) = (k + fuel) + 1 := by omega
      rw [hpass]
      unfold insertLoop at hok ⊢
      rcases bind_eq_ok.mp hok with ⟨⟨done, row₁, m⟩, hinsert, hok⟩
      cases done with
      | true => simpa only [hinsert, ok_bind, if_true] using hok
      | false =>
          simp only [Bool.false_eq_true, if_false] at hok
          rcases bind_eq_ok.mp hok with ⟨⟨next, s₂⟩, hnext, hok⟩
          simp only [hinsert, ok_bind, Bool.false_eq_true, if_false, hnext]
          rcases next with _ | ⟨q, row₂⟩
          · exact hok
          · rcases bind_eq_ok.mp hok with ⟨⟨reply, s₃⟩, hfetch, hok⟩
            rcases bind_eq_ok.mp hok with ⟨g, hderef, hok⟩
            simp only [hfetch, ok_bind, hderef]
            exact ih (Nat.le_add_left fuel k) hok

theorem insertTuple_fuel {fuel' : Nat} {r : Bool × Row × BufferPoolManager n} (hle : fuel ≤ fuel')
    (hok : heap.insertTuple fuel s row = .ok (some r)) :
    heap.insertTuple fuel' s row = .ok (some r) := by
  rcases bind_eq_ok.mp hok with ⟨⟨reply, s₁⟩, hfetch, hok⟩
  rcases bind_eq_ok.mp hok with ⟨f, hderef, hok⟩
  simp only [insertTuple, hfetch, ok_bind, hderef]
  exact insertLoop_fuel hle hok

theorem HeapStep.deterministic {e e' : HeapEvent} {s' s'' : BufferPoolManager n}
    (hinput : e'.input = e.input) (h : HeapStep heap s e s') (h' : HeapStep heap s e' s'') :
    e' = e ∧ s'' = s' := by
  cases e with
  | insertTuple row done row₁ =>
      cases e' with
      | insertTuple row' done' row₁' =>
          obtain rfl : row' = row := Sum.inl.inj hinput
          rcases h with ⟨fuel, hok⟩
          rcases h' with ⟨fuel', hok'⟩
          -- Two runs of the loop are compared at the larger fuel.
          have hmax := insertTuple_fuel (Nat.le_max_left fuel fuel') hok
          have hmax' := insertTuple_fuel (Nat.le_max_right fuel fuel') hok'
          rw [hmax] at hmax'
          cases hmax'
          exact ⟨rfl, rfl⟩
      | touch u =>
          cases hinput
  | touch u =>
      cases e' with
      | insertTuple row' done' row₁' =>
          cases hinput
      | touch u' =>
          obtain rfl : u' = u := Sum.inr.inj hinput
          rcases h with ⟨f, hok⟩
          rcases h' with ⟨f', hok'⟩
          rw [hok] at hok'
          cases hok'
          exact ⟨rfl, rfl⟩

/-- The tuples found on the pages from page `p` on, when at most `fuel` pages are read. -/
def tuplesFrom (schema : Schema) (s : BufferPoolManager n) :
    Nat → PageId → List (RowId × List Field)
  | 0, _ => []
  | fuel + 1, p =>
    if p = INVALID_PAGE_ID then []
    else TablePage.liveTuples (s.contents p).mem schema ++ tuplesFrom schema s fuel (behind s p)

theorem tuplesFrom_invalid (s : BufferPoolManager n) (fuel : Nat) :
    tuplesFrom schema s fuel INVALID_PAGE_ID = [] := by
  cases fuel with
  | zero => rfl
  | succ fuel => simp only [tuplesFrom, if_true]

theorem Alike.behind_eq (hab : Alike a b) (hp : 0 ≤ p.toInt) : behind b p = behind a p := by
  rw [behind, behind, hab.contents p hp]

theorem Alike.tuplesFrom_eq {fs : List (Fin n)} (hab : Alike a b) (ha : PoolInv a)
    (hc : Chain a p fs) (fuel : Nat) : tuplesFrom schema b fuel p = tuplesFrom schema a fuel p := by
  induction hc generalizing fuel with
  | @last p f hl hnext =>
      cases fuel with
      | zero => rfl
      | succ fuel =>
          have hp := (ha.allocated p f hl).1
          have hlast : behind a p = INVALID_PAGE_ID := by
            rw [behind, ← bytes_of_lookup hl, hnext]
          simp only [tuplesFrom, hab.behind_eq hp, hab.contents p hp, hlast, tuplesFrom_invalid]
  | @cons p f fs hl hnext _ ih =>
      cases fuel with
      | zero => rfl
      | succ fuel =>
          have hp := (ha.allocated p f hl).1
          have hrest : behind a p = TablePage.getNextPageId (a.bytes f) := by
            rw [behind, ← bytes_of_lookup hl]
          simp only [tuplesFrom, hab.behind_eq hp, hab.contents p hp, hrest, ih fuel]

/-- In every run over a pool that never evicts, a pool that is safe before every call returns the
same results and ids, and the tuples found by following the links are the same. -/
theorem heap_independent_of_pool_size {ds : List DiskManager.Event} {dm : DiskManager}
    (hdisk : Run DiskManager.Step DiskManager.fresh ds dm) {heap' : TableHeap}
    {a₀ : BufferPoolManager n} {b₀ : BufferPoolManager m}
    (ha : create (init n dm) schema = .ok (heap, a₀))
    (hb : create (init m dm) schema = .ok (heap', b₀)) {es : List HeapEvent}
    (hrun : Run (QuietStep heap) a₀ es a)
    (hsafe : ∀ pre e post b, es = pre ++ e :: post → Run (HeapStep heap) b₀ pre b →
      Safe heap b e) :
    heap' = heap ∧ ∃ b, Run (HeapStep heap) b₀ es b ∧
      (∀ es' b', es'.map HeapEvent.input = es.map HeapEvent.input →
        Run (HeapStep heap) b₀ es' b' → es' = es ∧ b' = b) ∧
      ∀ fuel, tuplesFrom heap.schema b fuel heap.firstPageId =
        tuplesFrom heap.schema a fuel heap.firstPageId := by
  have hdm := (DiskManager.run_represents hdisk).inv
  rcases create_written (init_poolInv m hdm) hb with ⟨_, i, _⟩
  rcases create_related hdm ha hb with ⟨hheap, hrel⟩
  rcases hrun.follows (R := Related heap) (T := HeapStep heap) (C := Safe heap)
    (fun a e a' b h hstep hs => h.step i hstep hs) hrel hsafe with ⟨b, hrunb, hrelb⟩
  rcases hrelb.chain with ⟨fs, hc⟩
  refine ⟨hheap, b, hrunb, fun es' b' hinputs hrun' => ?_, fun fuel => ?_⟩
  · refine Run.deterministic ?_ hrunb hrun' hinputs
    intro s e e' s₁ s₂ hinput hstep hstep'
    exact HeapStep.deterministic hinput hstep hstep'
  · exact hrelb.alike.tuplesFrom_eq hc.pool hc.chain fuel

end runs

/-! ## Three rows -/

section sample

variable {free : List (Fin n)} {k : Nat} {next : PageId}

/-- A string of 2047 bytes, then one of 2000 bytes on a page of its own. -/
def firstInsert : HeapEvent :=
  .insertTuple (charRow 2047) true { charRow 2047 with rid := ⟨0, 0⟩ }

def secondInsert : HeapEvent :=
  .insertTuple (charRow 2000) true { charRow 2000 with rid := ⟨1, 1⟩ }

def thirdInsert : HeapEvent :=
  .insertTuple (charRow 2000) true { charRow 2000 with rid := ⟨2, 1⟩ }

/-- The long string is on page 0, which is marked dirty in frame `f`; there are `k` pages. -/
structure Filled (s : BufferPoolManager n) (f : Fin n) (free : List (Fin n)) (k : Nat)
    (next : PageId) : Prop where
  pool : PoolInv s
  idle : Idle s
  free_eq : s.freeList = free
  dense : DiskManager.Dense s.diskManager k
  lookup : s.pageTable.lookup 0 = some f
  dirty : (s.pages f).isDirty = true
  first : Holds charSchema (s.contents 0) 0 next [⟨charRow 2047, false⟩]

theorem Filled.full (h : Filled s f free k next) : ¬Room s (charRow 2000) f := by
  rw [Room, bytes_of_lookup h.lookup, h.first.room_iff, charRow_size (by decide)]
  have hused : TablePage.used [(⟨charRow 2047, false⟩ : Entry)] = 2064 := by
    simp [TablePage.used, Entry.size, charRow_size (k := 2047) (by decide)]
  rw [hused]
  decide

/-- Pins and the queue do not matter. -/
theorem Filled.with_replacer (h : Filled s f free k next) {r : LRUReplacer (Fin n)}
    (hpool : PoolInv { s with replacer := r }) : Filled { s with replacer := r } f free k next :=
  ⟨hpool, h.idle, h.free_eq, h.dense, h.lookup, h.dirty, h.first⟩

theorem Filled.visit (h : Filled s f free k next) :
    ∃ r, s.visit 0 = .ok (some f, { s with replacer := r }) ∧
      Filled { s with replacer := r } f free k next ∧
      r.frames = s.replacer.frames.erase f ++ [f] := by
  rcases visit_resident h.pool.frames h.lookup with ⟨r, hvisit, hframes⟩
  rcases h.pool.allocated 0 f h.lookup with ⟨hp, hused⟩
  have hk := h.pool.kept hvisit hp hused fun hnone => by
    rw [h.lookup] at hnone
    cases hnone
  exact ⟨r, hvisit, h.with_replacer hk.pool, hframes (h.idle f)⟩

theorem sample_first (hfree : (init n DiskManager.fresh).freeList = f :: free) :
    ∃ s₀ s₁, create (init n DiskManager.fresh) charSchema = .ok (charHeap, s₀) ∧
      Takes s₀ (charRow 2047) 0 ∧ QuietStep charHeap s₀ firstInsert s₁ ∧
      Filled s₁ f free 1 INVALID_PAGE_ID := by
  have hinit := init_poolInv n DiskManager.fresh_inv
  rcases DiskManager.fresh_dense.allocatePage_ok (by decide) with ⟨dm, halloc, hdense⟩
  rcases create_spec hinit hfree halloc charSchema with ⟨s₀, hok, hc, _, hfree₀, hdm, _⟩
  rcases create_init DiskManager.fresh_inv hok with ⟨q, _, halloc', _, hpool₀, hidle₀, _, _,
    hcontents⟩
  rw [halloc] at halloc'
  cases halloc'
  have hl : s₀.pageTable.lookup 0 = some f := hc.chain.head
  -- The constructor set the page up, so the first insert finds it empty.
  have hempty : s₀.contents 0 = emptyPage 0 4096 := by
    rw [hcontents 0 (by decide)]
    rfl
  have hrow : (charRow 2047).HasSchema charSchema := charRow_hasSchema (by decide)
  have hsize := charRow_size (k := 2047) (by decide)
  rcases (emptyPage_holds charSchema 0 4096).insert hrow (by rw [hsize]; decide) with
    ⟨⟨m, hinsert⟩, hholds⟩
  rcases visit_resident hpool₀.frames hl with ⟨r, hvisit, _⟩
  rcases hpool₀.allocated 0 f hl with ⟨hp, hused⟩
  have hk := hpool₀.kept hvisit hp hused fun hnone => by
    rw [hl] at hnone
    cases hnone
  rw [← hempty, ← hk.contents 0 hp] at hinsert
  rcases insertLoop_room hk.pool hk.lookup hinsert 0 with ⟨s₁, hloop, hw⟩
  have hcall : charHeap.insertTuple 0 s₀ (charRow 2047) =
      .ok (some (true, { charRow 2047 with rid := ⟨0, 0⟩ }, s₁)) := by
    rw [insertTuple_visit hvisit]
    exact hloop
  have htakes : Takes s₀ (charRow 2047) 0 := by
    rw [Takes, hempty, (emptyPage_holds charSchema 0 4096).room_iff, hsize]
    decide
  refine ⟨s₀, s₁, hok, htakes, ⟨hrow, by rw [hsize]; decide, [f], 0, hc.chain, by simp, hcall⟩,
    hw.pool, hw.idle (by rw [hk.idle hidle₀]; omega) fun g _ => hk.idle hidle₀ g, ?_, ?_, ?_, ?_,
    ?_⟩
  · rw [hw.free]
    exact hfree₀
  · rw [hw.disk]
    exact hdm ▸ hdense
  · rw [hw.table]
    exact hl
  · rw [hw.page]
  · rw [hw.contents, if_pos rfl, hk.contents 0 hp, hempty]
    exact hholds

/-- The pages after the second row. -/
structure TwoPages (s : BufferPoolManager n) (f g : Fin n) (free : List (Fin n)) : Prop where
  filled : Filled s f free 2 1
  lookup : s.pageTable.lookup 1 = some g
  second : Holds charSchema (s.contents 1) 1 INVALID_PAGE_ID
    [⟨charRow 2000, false⟩, ⟨{ charRow 2000 with rid := ⟨1, 0⟩ }, false⟩]

/-- The second row does not fit on the first page and goes twice to a page in the next free
frame. -/
theorem Filled.second (h : Filled s f (g :: free) 1 INVALID_PAGE_ID) :
    ∃ s', QuietStep charHeap s secondInsert s' ∧ TwoPages s' f g free := by
  have hrow : (charRow 2000).HasSchema charSchema := charRow_hasSchema (by decide)
  have hsize := charRow_size (k := 2000) (by decide)
  have htwo : 2 * ((charRow 2000).encode.length + TablePage.SIZE_TUPLE) ≤ 4072 := by
    rw [hsize]
    decide
  rcases h.visit with ⟨r, hvisit, h₁, _⟩
  set s₁ : BufferPoolManager n := { s with replacer := r } with hs₁
  have hlast : TablePage.getNextPageId (s₁.bytes f) = INVALID_PAGE_ID := by
    rw [bytes_of_lookup h₁.lookup, h₁.first.next_eq]
  have hg : g ∈ s₁.freeList := by
    rw [h₁.free_eq]
    simp
  rcases h₁.dense.allocatePage_ok (by decide) with ⟨dm, halloc, hdense⟩
  rcases h₁.pool.newPage_free h₁.free_eq halloc with ⟨s₂, hnew, _, hadds, hdm⟩
  have hm := h₁.pool.made hnew
  have hfg : f ≠ g := by
    rintro rfl
    exact h₁.pool.frames.free_not_resident hg 0 h₁.lookup
  -- The loop makes a page, puts the row there and finds room for it again.
  rcases insertLoop_new h₁.pool hm hnew h₁.lookup hfg hlast h₁.full hrow htwo 0 with
    ⟨s', hloop, hx⟩
  have hcall : charHeap.insertTuple 1 s (charRow 2000) =
      .ok (some (true, { charRow 2000 with rid := ⟨1, 1⟩ }, s')) := by
    rw [insertTuple_visit hvisit]
    exact hloop
  have hchain : Chain s 0 [f] := by
    refine Chain.last h.lookup ?_
    rw [bytes_of_lookup h.lookup, h.first.next_eq]
  have hkept : s₂.contents 0 = s₁.contents 0 :=
    h₁.pool.made_contents hnew (h₁.pool.clean g (h₁.pool.frames.free_frame hg).1)
      (h₁.pool.frames.spare_of_free hg) (by decide) (by decide)
  have hfuel : 1 < [f].length + s.freeList.length := by
    rw [h.free_eq]
    simp only [List.length_cons]
    omega
  refine ⟨s', ⟨hrow, by rw [hsize]; decide, [f], 1, hchain, hfuel, hcall⟩,
    ⟨hx.pool, hx.idle fun i hi => ?_, ?_, ?_, ?_, ?_, ?_⟩, ?_, ?_⟩
  · rw [hm.others i hi]
    exact h₁.idle i
  · rw [hx.free]
    exact hadds.free_eq h₁.free_eq
  · rw [hx.disk, hdm]
    exact hdense
  · rw [hx.table]
    exact hm.lookup_other 0 f h₁.lookup hfg
  · rw [hx.isDirty f hfg, hm.others f hfg]
    exact h₁.dirty
  · have hzero : s'.contents 0 = linkedPage (s₁.contents 0) 1 := by
      rw [hx.contents, if_neg (by decide), if_pos rfl, hkept]
      rfl
    rw [hzero]
    exact linkedPage_holds h₁.first 1
  · rw [hx.table]
    exact hm.lookup
  · have hone : s'.contents 1 = grownPage charSchema 1 0 (charRow 2000) := by
      rw [hx.contents]
      exact if_pos rfl
    rw [hone]
    rcases emptyPage_inserts hrow htwo 1 0 with ⟨_, _, _, _, hholds⟩
    exact hholds

theorem TwoPages.chain (h : TwoPages s f g free) : Chain s 0 [f, g] := by
  have hf : TablePage.getNextPageId (s.bytes f) = 1 := by
    rw [bytes_of_lookup h.filled.lookup, h.filled.first.next_eq]
  refine Chain.cons h.filled.lookup (by rw [hf]; decide) ?_
  rw [hf]
  refine Chain.last h.lookup ?_
  rw [bytes_of_lookup h.lookup, h.second.next_eq]

theorem TwoPages.full (h : TwoPages s f g free) : ¬Room s (charRow 2000) g := by
  have hsize := charRow_size (k := 2000) (by decide)
  rw [Room, bytes_of_lookup h.lookup, h.second.room_iff, hsize]
  have hused : TablePage.used [(⟨charRow 2000, false⟩ : Entry),
      ⟨{ charRow 2000 with rid := ⟨1, 0⟩ }, false⟩] = 4034 := by
    simp [TablePage.used, Entry.size, hsize, encode_length_rid]
  rw [hused]
  decide

/-- The third row fits on neither page: the search ends on the second one, and `NewPage` decides
what happens next. -/
theorem TwoPages.third (h : TwoPages s f g free) :
    ∃ r, TwoPages { s with replacer := r } f g free ∧
      r.frames = (s.replacer.frames.erase f ++ [f]).erase g ++ [g] ∧
      ∀ target s₁, { s with replacer := r }.newPage = .ok (some (2, target), s₁) → g ≠ target →
        ∃ s', charHeap.insertTuple 2 s (charRow 2000) =
            .ok (some (true, { charRow 2000 with rid := ⟨2, 1⟩ }, s')) ∧
          Extended charSchema s₁ g 1 target 2 (charRow 2000) s' := by
  have hrow : (charRow 2000).HasSchema charSchema := charRow_hasSchema (by decide)
  have htwo : 2 * ((charRow 2000).encode.length + TablePage.SIZE_TUPLE) ≤ 4072 := by
    rw [charRow_size (by decide)]
    decide
  rcases h.filled.visit with ⟨r, hvisit, hfilled, hframes⟩
  have h₁ : TwoPages { s with replacer := r } f g free := ⟨hfilled, h.lookup, h.second⟩
  rcases visit_resident h₁.filled.pool.frames h₁.lookup with ⟨r₂, hvisit₂, hframes₂⟩
  rcases h₁.filled.pool.allocated 1 g h₁.lookup with ⟨hp, hused⟩
  have hk := h₁.filled.pool.kept hvisit₂ hp hused fun hnone => by
    rw [h₁.lookup] at hnone
    cases hnone
  have h₂ : TwoPages { s with replacer := r₂ } f g free :=
    ⟨h₁.filled.with_replacer hk.pool, h.lookup, h.second⟩
  refine ⟨r₂, h₂, ?_, fun target s₁ hnew hgt => ?_⟩
  · rw [hframes₂ (h₁.filled.idle g), hframes]
  · have hnext :
        TablePage.getNextPageId (BufferPoolManager.bytes { s with replacer := r } f) = 1 := by
      rw [bytes_of_lookup h₁.filled.lookup, h₁.filled.first.next_eq]
    have hlast : TablePage.getNextPageId
        (BufferPoolManager.bytes { s with replacer := r₂ } g) = INVALID_PAGE_ID := by
      rw [bytes_of_lookup h₂.lookup, h₂.second.next_eq]
    rcases insertLoop_new h₂.filled.pool (h₂.filled.pool.made hnew) hnew h₂.lookup hgt hlast h₂.full
      hrow htwo 0 with ⟨s', hloop, hx⟩
    refine ⟨s', ?_, hx⟩
    calc
      charHeap.insertTuple 2 s (charRow 2000)
        = insertLoop charSchema 2 { s with replacer := r } f (charRow 2000) :=
          insertTuple_visit hvisit 2 (charRow 2000)
      _ = insertLoop charSchema 1 { s with replacer := r₂ } g (charRow 2000) :=
          insertLoop_visit hrow h₁.filled.full (nextPage_follow hnext (by decide) _)
            h₁.filled.pool hvisit₂ 1
      _ = .ok (some (true, { charRow 2000 with rid := ⟨2, 1⟩ }, s')) := hloop

/-- With a free frame the third row goes to a new page, and page 0 keeps its row. -/
theorem TwoPages.third_free {h : Fin n} (hs : TwoPages s f g (h :: free)) :
    ∃ s', QuietStep charHeap s thirdInsert s' ∧ tuplesFrom charSchema s' 1 0 ≠ [] := by
  rcases hs.third with ⟨r, hs₁, _, hinsert⟩
  rcases hs₁.filled.dense.allocatePage_ok (by decide) with ⟨dm, halloc, _⟩
  rcases hs₁.filled.pool.newPage_free hs₁.filled.free_eq halloc with ⟨s₁, hnew, _⟩
  have hh : h ∈ BufferPoolManager.freeList { s with replacer := r } := by
    rw [hs₁.filled.free_eq]
    simp
  have hgh : g ≠ h := by
    rintro rfl
    exact hs₁.filled.pool.frames.free_not_resident hh 1 hs₁.lookup
  rcases hinsert h s₁ hnew hgh with ⟨s', hcall, hx⟩
  have hkept : s'.contents 0 = s.contents 0 := by
    rw [hx.contents, if_neg (by decide), if_neg (by decide)]
    exact hs₁.filled.pool.made_contents hnew
      (hs₁.filled.pool.clean h (hs₁.filled.pool.frames.free_frame hh).1)
      (hs₁.filled.pool.frames.spare_of_free hh) (by decide) (by decide)
  have hfuel : 2 < [f, g].length + s.freeList.length := by
    rw [hs.filled.free_eq]
    simp only [List.length_cons]
    omega
  refine ⟨s', ⟨charRow_hasSchema (by decide), by rw [charRow_size (by decide)]; decide, [f, g], 2,
    hs.chain, hfuel, hcall⟩, ?_⟩
  have hlive := hs.filled.first.rows.liveTuples_eq (by decide)
  rw [← hkept] at hlive
  rw [tuplesFrom, if_neg (by decide), hlive]
  simp [TablePage.liveEntry]

/-- Visiting both frames of a pool of two puts them in the order of the visits. -/
theorem queue_order {l : List (Fin 2)} (hnodup : l.Nodup) (h0 : 0 ∈ l) (h1 : 1 ∈ l) :
    (l.erase 0 ++ [0]).erase 1 ++ [1] = [0, 1] := by
  have hlen := hnodup.length_le_card
  rw [Fintype.card_fin] at hlen
  rcases l with _ | ⟨x, _ | ⟨y, _ | ⟨z, l⟩⟩⟩
  · cases h0
  · fin_cases x <;> simp_all
  · fin_cases x <;> fin_cases y <;> simp_all
  · simp only [List.length_cons] at hlen
    omega

/-- A frame that is neither free nor pinned is in the queue. -/
theorem mem_queue (h : PoolInv s) (hidle : Idle s) (hfree : s.freeList = []) (f : Fin n) :
    f ∈ s.replacer.frames := by
  rcases h.frames.inClass f with hc | hc | hc
  · simp [Status.InClass, status, hfree] at hc
  · have hcount : s.replacer.frames.count f = 1 := hc.2.1
    exact List.count_pos_iff.mp (by omega)
  · exact absurd (hidle f) (Nat.pos_iff_ne_zero.mp hc.2.2.2)

/-- Without one the third row takes the frame of page 0, which is overwritten with zeros. -/
theorem TwoPages.third_evicts {s : BufferPoolManager 2} (hs : TwoPages s 0 1 []) :
    ∃ s', HeapStep charHeap s thirdInsert s' ∧ s'.contents 0 = Buf.zero PAGE_SIZE := by
  rcases hs.third with ⟨r, hs₁, hframes, hinsert⟩
  have hmem := mem_queue hs.filled.pool hs.filled.idle hs.filled.free_eq
  rw [queue_order s.replacer.nodup_frames (hmem 0) (hmem 1)] at hframes
  set s₁ : BufferPoolManager 2 := { s with replacer := r } with hs₁'
  have hpick : ∃ s₂, s₁.pickFrame = some (0, s₂) := by
    rcases hs₁.filled.pool.frames.queueInv.pickFrame_ok (hs₁.filled.idle 0) with ⟨f, s₂, hpick⟩
    rcases pickFrame_cases hpick with ⟨rest, hfree, _⟩ | ⟨_, r', hr', _⟩
    · rw [hs₁.filled.free_eq] at hfree
      cases hfree
    · have hhead : (0 : Fin 2) :: [1] = f :: r'.frames := hframes.symm.trans hr'
      rw [← (List.cons.inj hhead).1] at hpick
      exact ⟨s₂, hpick⟩
  rcases hpick with ⟨s₂, hpick⟩
  rcases hs₁.filled.dense.allocatePage_ok (by decide) with ⟨dm, halloc, _⟩
  rcases newPage_ok hpick (hs₁.filled.idle 0) halloc hs₁.filled.pool.dirty_nonneg with
    ⟨s₃, hnew⟩
  rcases hinsert 0 s₃ hnew (by decide) with ⟨s', hcall, hx⟩
  refine ⟨s', ⟨2, hcall⟩, ?_⟩
  rw [hx.contents, if_neg (by decide), if_neg (by decide)]
  exact hs₁.filled.pool.made_dirty hnew hs₁.filled.dirty hs₁.filled.lookup

theorem tuplesFrom_zero (h : s.contents 0 = Buf.zero PAGE_SIZE) :
    tuplesFrom charSchema s 1 0 = [] := by
  have hcount : TablePage.getTupleCount (Buf.zero PAGE_SIZE).mem = 0 := Buf.u32_zero 20
  rw [tuplesFrom, if_neg (by decide), h, TablePage.liveTuples, hcount]
  rfl

/-- Three rows over pools of three and of two frames: the small pool loses page 0, which has the
first row, when the third row makes a page. -/
theorem third_page_loses_first_row :
    ∃ (es : List HeapEvent) (a₀ a : BufferPoolManager 3) (b₀ b : BufferPoolManager 2),
      create (init 3 DiskManager.fresh) charSchema = .ok (charHeap, a₀) ∧
      create (init 2 DiskManager.fresh) charSchema = .ok (charHeap, b₀) ∧
      Run (QuietStep charHeap) a₀ es a ∧ Run (HeapStep charHeap) b₀ es b ∧
      tuplesFrom charSchema b 1 charHeap.firstPageId = [] ∧
      tuplesFrom charSchema a 1 charHeap.firstPageId ≠ [] := by
  have hthree : (init 3 DiskManager.fresh).freeList = 0 :: 1 :: 2 :: [] := by decide
  have htwo : (init 2 DiskManager.fresh).freeList = 0 :: 1 :: [] := by decide
  rcases sample_first hthree with ⟨a₀, a₁, hcreate, _, hstep₁, hfilled⟩
  rcases hfilled.second with ⟨a₂, hstep₂, hpages⟩
  rcases hpages.third_free with ⟨a₃, hstep₃, hkept⟩
  rcases sample_first htwo with ⟨b₀, b₁, hcreateb, _, hstepb₁, hfilledb⟩
  rcases hfilledb.second with ⟨b₂, hstepb₂, hpagesb⟩
  rcases hpagesb.third_evicts with ⟨b₃, hstepb₃, hzero⟩
  exact ⟨[firstInsert, secondInsert, thirdInsert], a₀, a₃, b₀, b₃, hcreate, hcreateb,
    Run.cons hstep₁ (Run.cons hstep₂ (Run.cons hstep₃ (Run.nil _))),
    Run.cons hstepb₁.heapStep (Run.cons hstepb₂.heapStep (Run.cons hstepb₃ (Run.nil _))),
    tuplesFrom_zero hzero, hkept⟩

/-- While a frame is free the second row is safe: page 0 is dirty, and a free frame is clean. -/
theorem Filled.covered (h : Filled s f (g :: free) k INVALID_PAGE_ID) :
    Covered (charRow 2000) s 0 := by
  intro s' q hreach _ _ f' s₁ hvisit
  rcases hreach.stops (Or.inr h.first.next_eq) with ⟨rfl, rfl⟩
  rcases h.visit with ⟨r, hvisit', h₁, _⟩
  rw [hvisit] at hvisit'
  cases hvisit'
  refine ⟨h₁.dirty, fun target s₂ hpick => ?_⟩
  rcases pickFrame_cases hpick with ⟨rest, hfree, _⟩ | ⟨hnil, _⟩
  · exact h₁.pool.clean target (h₁.pool.frames.free_frame (by rw [hfree]; simp)).1
  · rw [h₁.free_eq] at hnil
    cases hnil

/-- The first two rows over the same pools. -/
theorem heap_independent_of_pool_size_two_rows :
    ∃ (a₀ a : BufferPoolManager 3) (b₀ b : BufferPoolManager 2),
      create (init 3 DiskManager.fresh) charSchema = .ok (charHeap, a₀) ∧
      create (init 2 DiskManager.fresh) charSchema = .ok (charHeap, b₀) ∧
      Run (QuietStep charHeap) a₀ [firstInsert, secondInsert] a ∧
      Run (HeapStep charHeap) b₀ [firstInsert, secondInsert] b ∧
      ∀ fuel, tuplesFrom charSchema b fuel charHeap.firstPageId =
        tuplesFrom charSchema a fuel charHeap.firstPageId := by
  have hthree : (init 3 DiskManager.fresh).freeList = 0 :: 1 :: 2 :: [] := by decide
  have htwo : (init 2 DiskManager.fresh).freeList = 0 :: 1 :: [] := by decide
  rcases sample_first hthree with ⟨a₀, a₁, hcreate, _, hstep₁, hfilled⟩
  rcases hfilled.second with ⟨a₂, hstep₂, _⟩
  rcases sample_first htwo with ⟨b₀, b₁, hcreateb, htakes, hstepb₁, hfilledb⟩
  have hrun : Run (QuietStep charHeap) a₀ [firstInsert, secondInsert] a₂ :=
    Run.cons hstep₁ (Run.cons hstep₂ (Run.nil _))
  have hsafe : ∀ pre e post b, [firstInsert, secondInsert] = pre ++ e :: post →
      Run (HeapStep charHeap) b₀ pre b → Safe charHeap b e := by
    intro pre e post b heq hpre
    rcases pre with _ | ⟨e₁, _ | ⟨e₂, pre⟩⟩
    · cases hpre
      rcases List.cons.inj heq with ⟨rfl, _⟩
      intro s' q hreach hfull
      rcases hreach.stops (Or.inl htakes) with ⟨rfl, rfl⟩
      exact absurd htakes hfull
    · rcases List.cons.inj heq with ⟨rfl, htail⟩
      rcases List.cons.inj htail with ⟨rfl, _⟩
      cases hpre with
      | cons hstep hnil =>
          cases hnil
          rw [(HeapStep.deterministic rfl hstepb₁.heapStep hstep).2]
          exact hfilledb.covered
    · have hlen := congrArg List.length heq
      simp only [List.length_cons, List.length_append, List.length_nil] at hlen
      omega
  rcases heap_independent_of_pool_size (Run.nil _) hcreate hcreateb hrun hsafe with
    ⟨_, b, hrunb, _, hsame⟩
  exact ⟨a₀, a₂, b₀, b, hcreate, hcreateb, hrun, hrunb, hsame⟩

end sample

end TableHeap
end MiniSQL
