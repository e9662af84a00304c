import MiniSQL.Storage.HeapChain

/-!
# HeapInsert — what `TableHeap::InsertTuple` does

The loop walks the chain to the first page with room.  Past the last page it makes a new one,
inserts the row there and then tests its condition on that page, which inserts the row once more.
`insert_exactly_once_iff` says when the row is stored once.
-/

namespace MiniSQL

open Lib

namespace BufferPoolManager

variable {n : Nat} {s : BufferPoolManager n} {f g : Fin n} {p : PageId}

theorem bytes_setBytes {m : Mem} {j : Nat} (hj : j < PAGE_SIZE) :
    (s.setBytes f m).bytes f j = m j := by
  simp only [bytes, setBytes, write, setPage, Function.update_self]
  exact Buf.mem_ofMem_of_lt hj

theorem bytes_setBytes_ne (m : Mem) (hg : g ≠ f) : (s.setBytes f m).bytes g = s.bytes g := by
  simp only [bytes, setBytes, write, setPage, Function.update_of_ne hg]

theorem setBytes_other (s : BufferPoolManager n) (m : Mem) (hg : g ≠ f) :
    (s.setBytes f m).pages g = s.pages g :=
  Function.update_of_ne hg _ _

@[simp] theorem setBytes_pageId (f g : Fin n) (m : Mem) :
    ((s.setBytes f m).pages g).pageId = (s.pages g).pageId :=
  field_update Page.pageId (by rfl) g

@[simp] theorem setBytes_pageTable (f : Fin n) (m : Mem) :
    (s.setBytes f m).pageTable = s.pageTable :=
  rfl

@[simp] theorem setBytes_freeList (f : Fin n) (m : Mem) :
    (s.setBytes f m).freeList = s.freeList :=
  rfl

/-- Storing the bytes that are there changes nothing. -/
theorem setBytes_bytes (s : BufferPoolManager n) (f : Fin n) : s.setBytes f (s.bytes f) = s := by
  simp [setBytes, bytes, write, setPage, Function.update_eq_self]

theorem PoolInv.setBytes (h : PoolInv s) (hl : s.pageTable.lookup p = some f) (m : Mem) :
    PoolInv (s.setBytes f m) :=
  h.write hl _

end BufferPoolManager

namespace TableHeap

open BufferPoolManager

variable {n : Nat} {s s' s₁ : BufferPoolManager n} {f g l target : Fin n} {fs : List (Fin n)}
variable {p q : PageId} {schema : Schema} {row : Row} {fuel : Nat}

/-- The page in frame `f` can take the row and a slot. -/
def Room (s : BufferPoolManager n) (row : Row) (f : Fin n) : Prop :=
  row.encode.length + TablePage.SIZE_TUPLE ≤ TablePage.getFreeSpaceRemaining (s.bytes f)

theorem encode_length_rid (row : Row) (rid : RowId) :
    (Row.encode { row with rid := rid }).length = row.encode.length := by
  simp [Row.encode, Row.ridBytes]

/-! ## One pass of the loop -/

/-- The condition of the loop on a page with room: the row is stored and the call returns. -/
theorem insertLoop_fit (hc : ChainInv schema s p fs) (hf : f ∈ fs) (hrow : row.HasSchema schema)
    (hroom : Room s row f) (fuel : Nat) :
    ∃ rid s', insertLoop schema fuel s f row = .ok (some (true, { row with rid := rid }, s')) ∧
      Puts schema s f row rid s' := by
  rcases hc.pages f hf with ⟨es, hrep⟩
  rcases hc.pageId_valid hf with ⟨_, hl⟩
  have heq := hrep.insertTuple_eq hrow hroom
  set m := TablePage.inserted (s.bytes f) row
    (PAGE_SIZE - TablePage.used es - row.encode.length) es.length with hm
  have hl₁ : (s.setBytes f m).pageTable.lookup ((s.setBytes f m).pages f).pageId = some f := by
    rw [setBytes_pageId]
    exact hl
  rcases (hc.pool.setBytes hl m).unpinPage_resident hl₁ true with ⟨hpool, hsame⟩
  refine ⟨⟨(s.pages f).pageId, UInt32.ofNat es.length⟩, _, ?_,
    ⟨hpool, hsame.table, hsame.free, hsame.disk, ?_, ?_, ?_, ?_⟩⟩
  · unfold insertLoop
    simp only [heq, ok_bind, if_true]
  · intro g
    rw [hsame.pageId, setBytes_pageId]
  · intro g hg
    rw [bytes_congr hsame, bytes_setBytes_ne m hg]
  · rw [bytes_congr hsame]
    refine TablePage.getNextPageId_congr fun j hj => ?_
    rw [bytes_setBytes (lt_trans hj (by decide)), hm]
    exact hrep.inserted_header hroom hj
  · refine ⟨es, hrep, ?_, rfl⟩
    rw [bytes_congr hsame]
    refine (hrep.insert hrow hroom).congr fun j hj => bytes_setBytes ?_
    simp only [PAGE_SIZE] at hj ⊢
    omega

theorem insertTuple_full (hrow : row.HasSchema schema) (hfull : ¬Room s row f) :
    TablePage.insertTuple (s.bytes f) row schema = .ok (false, row, s.bytes f) :=
  TablePage.insertTuple_of_full hrow.count (Nat.lt_of_not_le hfull)

theorem insertLoop_zero (hrow : row.HasSchema schema) (hfull : ¬Room s row f) :
    insertLoop schema 0 s f row = .ok none := by
  unfold insertLoop
  simp only [insertTuple_full hrow hfull, ok_bind, Bool.false_eq_true, if_false]

/-- The end of the loop body: page `q` is fetched and unpinned, and the loop goes on with it. -/
theorem insertLoop_fetch {row' : Row} (hrow : row.HasSchema schema) (hfull : ¬Room s row f)
    (hnext : nextPage schema s f row = .ok (some (q, row'), s₁)) (hpool : PoolInv s₁)
    (hl : s₁.pageTable.lookup q = some g) (fuel : Nat) :
    ∃ s', insertLoop schema (fuel + 1) s f row = insertLoop schema fuel s' g row' ∧
      PoolInv s' ∧ SameStore s₁ s' := by
  rcases hpool.fetchPage_resident hl with ⟨s₂, hfetch, hpool₂, hsame₂⟩
  have hid : (s₂.pages g).pageId = q := by
    rw [hsame₂.pageId]
    exact (hpool.frames.pageId hl).2
  have hl₂ : s₂.pageTable.lookup (s₂.pages g).pageId = some g := by
    rw [hid, hsame₂.table, hl]
  rcases hpool₂.unpinPage_resident hl₂ false with ⟨hpool₃, hsame₃⟩
  refine ⟨_, ?_, hpool₃, hsame₂.trans hsame₃⟩
  conv_lhs => unfold insertLoop
  simp only [insertTuple_full hrow hfull, ok_bind, Bool.false_eq_true, if_false, setBytes_bytes,
    hnext, hfetch, deref]

/-- A full page with a next page: the loop goes on with that page. -/
theorem insertLoop_next (hc : ChainInv schema s p (f :: g :: fs)) (hrow : row.HasSchema schema)
    (hfull : ¬Room s row f) (fuel : Nat) :
    ∃ s', insertLoop schema (fuel + 1) s f row = insertLoop schema fuel s' g row ∧
      PoolInv s' ∧ SameStore s s' := by
  cases hc.chain with
  | cons _ hnext hrest =>
      refine insertLoop_fetch hrow hfull ?_ hc.pool hrest.head fuel
      simp only [nextPage, hnext, ne_eq, not_false_eq_true, if_true]

/-- The free space of a page without tuples. -/
theorem TablePage.remaining_nil {m : Mem} (h : TablePage.Represents schema p m []) :
    TablePage.getFreeSpaceRemaining m = 4072 :=
  h.remaining

theorem TablePage.setNextPageId_congr {m m' : Mem} {j : Nat} (h : m j = m' j) (q : PageId) :
    TablePage.setNextPageId m q j = TablePage.setNextPageId m' q j := by
  simp only [TablePage.setNextPageId, Mem.setU32, Mem.store, h]

/-- The pool after the page `q` in frame `target` was set up and linked behind the page in frame
`f`. -/
def linked (s : BufferPoolManager n) (f target : Fin n) (q : PageId) : BufferPoolManager n :=
  let s' := s.setBytes target (TablePage.init (s.bytes target) q (s.pages f).pageId)
  s'.setBytes f (TablePage.setNextPageId (s'.bytes f) (s'.pages target).pageId)

@[simp] theorem linked_pageId (s : BufferPoolManager n) (f target : Fin n) (q : PageId)
    (g : Fin n) : ((linked s f target q).pages g).pageId = (s.pages g).pageId := by
  simp [linked]

theorem linked_other (s : BufferPoolManager n) (q : PageId) (hf : g ≠ f) (hg : g ≠ target) :
    (linked s f target q).pages g = s.pages g := by
  rw [linked, setBytes_other _ _ hf, setBytes_other _ _ hg]

/-- The link is stored next to the page id, or in the new page itself when the frame was taken. -/
theorem linked_target (hid : (s.pages target).pageId = q) {j : Nat} (hj : j < PAGE_SIZE) :
    (linked s f target q).bytes target j =
      if f = target then
        TablePage.setNextPageId (TablePage.init (s.bytes target) q (s.pages f).pageId) q j
      else TablePage.init (s.bytes target) q (s.pages f).pageId j := by
  simp only [linked, setBytes_pageId, hid]
  by_cases hft : f = target
  · subst hft
    rw [if_pos rfl, bytes_setBytes hj]
    exact TablePage.setNextPageId_congr (bytes_setBytes hj) q
  · rw [if_neg hft, bytes_setBytes_ne _ (Ne.symm hft), bytes_setBytes hj]

theorem linked_link (hid : (s.pages target).pageId = q) (hft : f ≠ target) {j : Nat}
    (hj : j < PAGE_SIZE) :
    (linked s f target q).bytes f j = TablePage.setNextPageId (s.bytes f) q j := by
  simp only [linked, setBytes_pageId, hid]
  rw [bytes_setBytes hj, bytes_setBytes_ne _ hft]

theorem linked_represents (schema : Schema) (hid : (s.pages target).pageId = q) :
    TablePage.Represents schema q ((linked s f target q).bytes target) [] := by
  refine (TablePage.init_represents schema (s.bytes target) q (s.pages f).pageId).congr
    fun j hj => ?_
  have hlt : j < PAGE_SIZE := by
    simp only [PAGE_SIZE] at hj ⊢
    omega
  rw [linked_target hid hlt]
  split
  · exact Mem.setU32_apply_outside (by omega)
  · rfl

theorem linked_next (hid : (s.pages target).pageId = q) :
    TablePage.getNextPageId ((linked s f target q).bytes target) =
      if f = target then q else INVALID_PAGE_ID := by
  have htarget := fun j (hj : j < 16) =>
    linked_target (f := f) hid (lt_trans hj (by decide : 16 < PAGE_SIZE))
  by_cases hft : f = target
  · simp only [if_pos hft] at htarget ⊢
    exact (TablePage.getNextPageId_congr htarget).trans (TablePage.getNextPageId_set _ q)
  · simp only [if_neg hft] at htarget ⊢
    exact (TablePage.getNextPageId_congr htarget).trans (TablePage.getNextPageId_init _ q _)

/-- The body of the loop behind a last page, when there is a new page. -/
theorem nextPage_of_new (hvalid : q ≠ INVALID_PAGE_ID)
    (hlast : TablePage.getNextPageId (s.bytes f) = INVALID_PAGE_ID)
    (hnew : s.newPage = .ok (some (q, target), s₁)) :
    nextPage schema s f row = (do
      let (_, row', m) ← TablePage.insertTuple ((linked s₁ f target q).bytes target) row schema
      .ok (some (q, row'), (linked s₁ f target q).setBytes target m)) := by
  simp only [nextPage, hlast, ne_eq, not_true_eq_false, if_false, hnew, ok_bind, hvalid]
  rfl

/-- The new page is given the row. -/
theorem nextPage_makes (hid : (s₁.pages target).pageId = q) (hvalid : q ≠ INVALID_PAGE_ID)
    (hlast : TablePage.getNextPageId (s.bytes f) = INVALID_PAGE_ID)
    (hnew : s.newPage = .ok (some (q, target), s₁)) (hrow : row.HasSchema schema)
    (hsize : row.encode.length + TablePage.SIZE_TUPLE ≤ 4072) :
    ∃ m, nextPage schema s f row = .ok (some (q, { row with rid := ⟨q, 0⟩ }),
        (linked s₁ f target q).setBytes target m) ∧
      TablePage.Represents schema q (((linked s₁ f target q).setBytes target m).bytes target)
        [⟨row, false⟩] ∧
      TablePage.getNextPageId (((linked s₁ f target q).setBytes target m).bytes target) =
        if f = target then q else INVALID_PAGE_ID := by
  have hrep := linked_represents (f := f) schema hid
  have hroom : row.encode.length + TablePage.SIZE_TUPLE ≤
      TablePage.getFreeSpaceRemaining ((linked s₁ f target q).bytes target) := by
    rw [TablePage.remaining_nil hrep]
    exact hsize
  -- The new page is empty, so the row goes into its slot 0.
  refine ⟨TablePage.inserted ((linked s₁ f target q).bytes target) row
    (PAGE_SIZE - TablePage.used [] - row.encode.length) ([] : List Entry).length, ?_, ?_, ?_⟩
  · rw [nextPage_of_new hvalid hlast hnew, hrep.insertTuple_eq hrow hroom]
    rfl
  · refine (hrep.insert hrow hroom).congr fun j hj => bytes_setBytes ?_
    simp only [PAGE_SIZE] at hj ⊢
    omega
  · rw [← linked_next hid]
    refine TablePage.getNextPageId_congr fun j hj => ?_
    rw [bytes_setBytes (lt_trans hj (by decide))]
    exact hrep.inserted_header hroom hj

/-- Without evictions the heap grows by the new page. -/
theorem nextPage_grow {rest : List (Fin n)} {dm : DiskManager} (hc : ChainInv schema s p fs)
    (hf : f ∈ fs) (hlast : TablePage.getNextPageId (s.bytes f) = INVALID_PAGE_ID)
    (hrow : row.HasSchema schema) (hsize : row.encode.length + TablePage.SIZE_TUPLE ≤ 4072)
    (hfree : s.freeList = g :: rest) (halloc : s.diskManager.allocatePage = .ok (q, dm)) :
    ∃ s', nextPage schema s f row = .ok (some (q, { row with rid := ⟨q, 0⟩ }), s') ∧
      Grows schema s f q g row s' := by
  rcases hc.pageId_valid hf with ⟨_, hl⟩
  rcases hc.pool.newPage_free hfree halloc with ⟨s₁, hnew, hpool₁, hadds, hdisk⟩
  have hempty := hc.pool.frames.free_not_resident (f := g) (by simp [hfree])
  have hfg : f ≠ g := by
    rintro rfl
    exact hempty _ hl
  have hvalid : q ≠ INVALID_PAGE_ID := ne_INVALID_of_nonneg hadds.valid
  have hsame : s₁.bytes f = s.bytes f := by
    rw [bytes, bytes, hadds.pages_other f hfg]
  rcases nextPage_makes hadds.pageId hvalid hlast hnew hrow hsize with ⟨m, hok, hpage, hnext⟩
  rw [if_neg hfg] at hnext
  have hpool : PoolInv ((linked s₁ f g q).setBytes g m) :=
    ((hpool₁.setBytes hadds.lookup_new _).setBytes (hadds.lookup_old hl) _).setBytes
      hadds.lookup_new m
  -- The old last page changes in its link only.
  have hlink : ∀ j, j < PAGE_SIZE → ((linked s₁ f g q).setBytes g m).bytes f j =
      TablePage.setNextPageId (s.bytes f) q j := by
    intro j hj
    rw [bytes_setBytes_ne m hfg, linked_link hadds.pageId hfg hj, hsame]
  refine ⟨_, hok, hpool, hadds.fresh, hempty, hvalid, hadds.lookup_new, hadds.lookup_other,
    ?_, ?_, ?_, ⟨hlast, ?_⟩, ?_, hnext, hpage, hadds.free, ?_⟩
  · rw [setBytes_pageId, linked_pageId, hadds.pageId]
  · intro h hg
    rw [setBytes_pageId, linked_pageId, hadds.pages_other h hg]
  · intro h hg hf
    rw [bytes_setBytes_ne m hg, bytes, bytes, linked_other _ _ hf hg, hadds.pages_other h hg]
  · refine Eq.trans (TablePage.getNextPageId_congr fun j hj => ?_)
      (TablePage.getNextPageId_set (s.bytes f) q)
    exact hlink j (lt_trans hj (by decide))
  · intro es hes
    refine hes.congr fun j hj => ?_
    rw [hlink j (by simp only [PAGE_SIZE] at hj ⊢; omega)]
    exact Mem.setU32_apply_outside (by omega)
  · rw [halloc, ← hdisk]
    rfl

theorem Grows.then_same (h : Grows schema s l q g row s₁) (hpool : PoolInv s')
    (hsame : SameStore s₁ s') : Grows schema s l q g row s' := by
  have hb := bytes_congr hsame
  refine ⟨hpool, h.fresh, h.empty, h.valid, ?_, ?_, ?_, ?_, ?_, ⟨h.link.1, ?_⟩, ?_, ?_, ?_, ?_, ?_⟩
  · rw [hsame.table]
    exact h.lookup_new
  · rw [hsame.table]
    exact h.lookup_other
  · rw [hsame.pageId]
    exact h.pageId_new
  · intro f hf
    rw [hsame.pageId, h.pageId_other f hf]
  · intro f hg hl
    rw [hb, h.other f hg hl]
  · rw [hb]
    exact h.link.2
  · rw [hb]
    exact h.kept
  · rw [hb]
    exact h.last
  · rw [hb]
    exact h.page
  · rw [hsame.free]
    exact h.free
  · rw [hsame.disk]
    exact h.disk

/-- One pass on a full last page, when the disk has a page to hand out: the loop goes on with the
new page, which holds the row already. -/
theorem insertLoop_grow {rest : List (Fin n)} {dm : DiskManager} (hc : ChainInv schema s p fs)
    (hf : f ∈ fs) (hlast : TablePage.getNextPageId (s.bytes f) = INVALID_PAGE_ID)
    (hrow : row.HasSchema schema) (hsize : row.encode.length + TablePage.SIZE_TUPLE ≤ 4072)
    (hfull : ¬Room s row f) (hfree : s.freeList = g :: rest)
    (halloc : s.diskManager.allocatePage = .ok (q, dm)) (fuel : Nat) :
    ∃ s', insertLoop schema (fuel + 1) s f row =
        insertLoop schema fuel s' g { row with rid := ⟨q, 0⟩ } ∧
      Grows schema s f q g row s' := by
  rcases nextPage_grow hc hf hlast hrow hsize hfree halloc with ⟨s₁, hnext, hgrows⟩
  rcases insertLoop_fetch hrow hfull hnext hgrows.pool hgrows.lookup_new fuel with
    ⟨s', heq, hpool, hsame⟩
  exact ⟨s', heq, hgrows.then_same hpool hsame⟩

/-- One pass on a full last page when the disk is full: `AllocatePage` does not return. -/
theorem insertLoop_disk_full {rest : List (Fin n)} (hc : ChainInv schema s p fs)
    (hlast : TablePage.getNextPageId (s.bytes f) = INVALID_PAGE_ID)
    (hrow : row.HasSchema schema) (hfull : ¬Room s row f) (hfree : s.freeList = g :: rest)
    (halloc : ∀ r, s.diskManager.allocatePage ≠ .ok r) (fuel : Nat) :
    ∃ e, insertLoop schema (fuel + 1) s f row = .error e := by
  rcases hc.pool.frames.free_frame (f := g) (by simp [hfree]) with ⟨_, hpin⟩
  have hsome : ¬∀ h, (s.pages h).pinCount ≠ 0 := fun hall => hall g hpin
  cases ha : s.diskManager.allocatePage with
  | ok r =>
      exact absurd ha (halloc r)
  | error e =>
      -- The error of `AllocatePage` goes through `NewPage` and the loop unchanged.
      refine ⟨e, ?_⟩
      unfold insertLoop
      simp only [insertTuple_full hrow hfull, ok_bind, Bool.false_eq_true, if_false,
        setBytes_bytes, nextPage, hlast, ne_eq, not_true_eq_false, newPage, hsome, pickFrame,
        hfree, Disk.allocatePage_eq, ha, error_bind]

/-! ## The whole loop -/

theorem Room.congr (hsame : SameStore s s') : Room s' row f ↔ Room s row f := by
  rw [Room, Room, bytes_congr hsame]

theorem ChainInv.tail (hc : ChainInv schema s p (f :: g :: fs)) :
    ∃ q, ChainInv schema s q (g :: fs) := by
  cases hc.chain with
  | cons _ _ hrest =>
      exact ⟨_, hc.pool, hrest, fun h hh => hc.pages h (by simp [List.mem_cons.mp hh])⟩

/-- Some page has room: the loop stores the row on such a page. -/
theorem insertLoop_fits (hc : ChainInv schema s p (f :: fs)) (hrow : row.HasSchema schema)
    (hroom : ∃ g ∈ f :: fs, Room s row g) (fuel : Nat) :
    (fuel < fs.length ∧ insertLoop schema fuel s f row = .ok none) ∨
      ∃ g ∈ f :: fs, ∃ rid s', Room s row g ∧
        insertLoop schema fuel s f row = .ok (some (true, { row with rid := rid }, s')) ∧
        Puts schema s g row rid s' := by
  induction fs generalizing f s p fuel with
  | nil =>
      rcases hroom with ⟨g, hg, hroom⟩
      rw [List.mem_singleton.mp hg] at hroom
      rcases insertLoop_fit hc (by simp) hrow hroom fuel with ⟨rid, s', heq, hputs⟩
      exact Or.inr ⟨f, by simp, rid, s', hroom, heq, hputs⟩
  | cons g fs ih =>
      by_cases hf : Room s row f
      · rcases insertLoop_fit hc (by simp) hrow hf fuel with ⟨rid, s', heq, hputs⟩
        exact Or.inr ⟨f, by simp, rid, s', hf, heq, hputs⟩
      · cases fuel with
        | zero =>
            exact Or.inl ⟨by simp, insertLoop_zero hrow hf⟩
        | succ fuel =>
            -- The pool after the pass has the same pages, so the hypothesis applies to the rest.
            rcases insertLoop_next hc hrow hf fuel with ⟨s₁, heq, hpool, hsame⟩
            rcases hc.tail with ⟨q, htail⟩
            have hroom₁ : ∃ h ∈ g :: fs, Room s₁ row h := by
              rcases hroom with ⟨h, hh, hroom⟩
              rcases List.mem_cons.mp hh with rfl | hh
              · exact absurd hroom hf
              · exact ⟨h, hh, (Room.congr hsame).mpr hroom⟩
            rw [heq]
            rcases ih (htail.same hpool hsame) hroom₁ fuel with ⟨hlt, hnone⟩ |
              ⟨h, hh, rid, s', hroom, hok, hputs⟩
            · exact Or.inl ⟨by simpa using hlt, hnone⟩
            · exact Or.inr ⟨h, List.mem_cons_of_mem f hh, rid, s', (Room.congr hsame).mp hroom, hok,
                hputs.of_same hsame⟩

/-- No page has room: the loop comes to the last page. -/
theorem insertLoop_walk (hc : ChainInv schema s p (f :: fs)) (hrow : row.HasSchema schema)
    (hfull : ∀ g ∈ f :: fs, ¬Room s row g) (fuel : Nat) :
    (fuel < fs.length ∧ insertLoop schema fuel s f row = .ok none) ∨
      fs.length ≤ fuel ∧ ∃ l ∈ f :: fs, ∃ q s', insertLoop schema fuel s f row =
          insertLoop schema (fuel - fs.length) s' l row ∧
        ChainInv schema s' q [l] ∧ SameStore s s' := by
  -- The chain from the page on; a pass takes its first page off.
  induction fs generalizing f s p fuel with
  | nil =>
      exact Or.inr ⟨Nat.zero_le _, f, by simp, p, s, rfl, hc, SameStore.refl s⟩
  | cons g fs ih =>
      have hf := hfull f (by simp)
      cases fuel with
      | zero =>
          exact Or.inl ⟨by simp, insertLoop_zero hrow hf⟩
      | succ fuel =>
          rcases insertLoop_next hc hrow hf fuel with ⟨s₁, heq, hpool, hsame⟩
          rcases hc.tail with ⟨q, htail⟩
          have hfull₁ : ∀ h ∈ g :: fs, ¬Room s₁ row h := by
            intro h hh hroom
            exact hfull h (by simp [List.mem_cons.mp hh]) ((Room.congr hsame).mp hroom)
          rw [heq]
          rcases ih (htail.same hpool hsame) hfull₁ fuel with ⟨hlt, hnone⟩ |
            ⟨hle, l, hl, q', s', hok, hc', hsame'⟩
          · exact Or.inl ⟨by simpa using hlt, hnone⟩
          · refine Or.inr ⟨by simpa using hle, l, List.mem_cons_of_mem f hl, q', s', ?_, hc',
              hsame.trans hsame'⟩
            rw [hok, List.length_cons, Nat.add_sub_add_right]

/-- The room left on a new page that holds the row. -/
theorem room_after_grow (h : Grows schema s l q g row s') {rid : RowId} :
    Room s' { row with rid := rid } g ↔ 2 * (row.encode.length + TablePage.SIZE_TUPLE) ≤ 4072 := by
  have hrem := h.page.remaining
  have hused : TablePage.used [⟨row, false⟩] = row.encode.length := by
    simp [TablePage.used, Entry.size]
  rw [hused, List.length_singleton] at hrem
  simp only [Room, encode_length_rid, hrem, PAGE_SIZE, TablePage.SIZE_TUPLE]
  omega

/-- A row that is added takes its bytes and a slot from the free space. -/
theorem Puts.remaining {rid : RowId} (h : Puts schema s f row rid s') :
    TablePage.getFreeSpaceRemaining (s'.bytes f) + row.encode.length + TablePage.SIZE_TUPLE =
      TablePage.getFreeSpaceRemaining (s.bytes f) := by
  rcases h.page with ⟨es, hold, hnew, _⟩
  have hused : TablePage.used (es ++ [⟨row, false⟩]) = TablePage.used es + row.encode.length := by
    rw [TablePage.used_append]
    simp [TablePage.used, Entry.size]
  have hfits := hnew.fits
  rw [hused, List.length_append, List.length_singleton] at hfits
  rw [hnew.remaining, hold.remaining, hused, List.length_append, List.length_singleton]
  simp only [PAGE_SIZE, TablePage.SIZE_TUPLE, TablePage.SIZE_TABLE_PAGE_HEADER] at *
  omega

/-- One pass on a full last page when two copies fit a page: the new page gets the row in the body
of the loop and again in its condition. -/
theorem insertLoop_twice {rest : List (Fin n)} {dm : DiskManager} (hc : ChainInv schema s p fs)
    (hf : f ∈ fs) (hlast : TablePage.getNextPageId (s.bytes f) = INVALID_PAGE_ID)
    (hrow : row.HasSchema schema)
    (htwo : 2 * (row.encode.length + TablePage.SIZE_TUPLE) ≤ 4072) (hfull : ¬Room s row f)
    (hfree : s.freeList = g :: rest) (halloc : s.diskManager.allocatePage = .ok (q, dm))
    (fuel : Nat) :
    ∃ rid s₁ s', insertLoop schema (fuel + 1) s f row =
        .ok (some (true, { row with rid := rid }, s')) ∧
      Grows schema s f q g row s₁ ∧ Puts schema s₁ g { row with rid := ⟨q, 0⟩ } rid s' := by
  rcases insertLoop_grow hc hf hlast hrow (by omega) hfull hfree halloc fuel with
    ⟨s₁, heq, hgrows⟩
  have hrow' : Row.HasSchema { row with rid := ⟨q, 0⟩ } schema := hrow
  have hroom : Room s₁ { row with rid := ⟨q, 0⟩ } g := (room_after_grow hgrows).mpr htwo
  rcases insertLoop_fit (f := g) (hgrows.chainInv hc hf) (by simp) hrow' hroom fuel with
    ⟨rid, s', heq', hputs⟩
  exact ⟨rid, s₁, s', heq.trans heq', hgrows, hputs⟩

theorem Chain.next_of_single (h : Chain s p [f]) :
    TablePage.getNextPageId (s.bytes f) = INVALID_PAGE_ID := by
  cases h with
  | last _ hnext => exact hnext
  | cons _ _ hrest => cases hrest

/-- A row that does not fit twice on a page: every new page is full after its first insertion, so
the loop does not return as long as frames are free. -/
theorem insertLoop_never (hc : ChainInv schema s p [f]) (hrow : row.HasSchema schema)
    (hsize : row.encode.length + TablePage.SIZE_TUPLE ≤ 4072)
    (htwo : 4072 < 2 * (row.encode.length + TablePage.SIZE_TUPLE)) (hfull : ¬Room s row f)
    (hfuel : fuel ≤ s.freeList.length) (r : Bool × Row × BufferPoolManager n) :
    insertLoop schema fuel s f row ≠ .ok (some r) := by
  -- On the passes: each makes a page, takes a frame and stops on a full last page again.
  induction fuel generalizing s p f row with
  | zero =>
      rw [insertLoop_zero hrow hfull]
      simp
  | succ fuel ih =>
      have hlast := hc.chain.next_of_single
      cases hfree : s.freeList with
      | nil =>
          rw [hfree] at hfuel
          simp at hfuel
      | cons g rest =>
          by_cases halloc : ∃ q dm, s.diskManager.allocatePage = .ok (q, dm)
          · rcases halloc with ⟨q, dm, halloc⟩
            rcases insertLoop_grow hc (by simp) hlast hrow hsize hfull hfree halloc fuel with
              ⟨s', heq, hgrows⟩
            rw [heq]
            have hc' : ChainInv schema s' q [g] := by
              refine ⟨hgrows.pool, Chain.last hgrows.lookup_new hgrows.last, fun h hh => ?_⟩
              rw [List.mem_singleton.mp hh, hgrows.pageId_new]
              exact ⟨_, hgrows.page⟩
            have hlen := hgrows.free
            refine ih hc' hrow (by rwa [encode_length_rid]) (by rwa [encode_length_rid]) ?_ ?_
            · rw [room_after_grow hgrows]
              omega
            · rw [hlen] at hfuel
              simpa using hfuel
          · have hnone : ∀ r, s.diskManager.allocatePage ≠ .ok r :=
              fun r hr => halloc ⟨r.1, r.2, hr⟩
            rcases insertLoop_disk_full hc hlast hrow hfull hfree hnone fuel with ⟨e, heq⟩
            rw [heq]
            simp

/-- How the loop can return on a full last page while frames are free: the row went twice to a new
page behind it. -/
theorem insertLoop_last {row' : Row} (hc : ChainInv schema s p [l]) (hrow : row.HasSchema schema)
    (hsize : row.encode.length + TablePage.SIZE_TUPLE ≤ 4072) (hfull : ¬Room s row l)
    (hfuel : fuel ≤ s.freeList.length)
    (hok : insertLoop schema fuel s l row = .ok (some (true, row', s'))) :
    2 * (row.encode.length + TablePage.SIZE_TUPLE) ≤ 4072 ∧
      ∃ q g s₁ rid, Grows schema s l q g row s₁ ∧
        Puts schema s₁ g { row with rid := ⟨q, 0⟩ } rid s' := by
  have hlast := hc.chain.next_of_single
  have htwo : 2 * (row.encode.length + TablePage.SIZE_TUPLE) ≤ 4072 := by
    by_contra hnot
    exact insertLoop_never hc hrow hsize (Nat.lt_of_not_le hnot) hfull hfuel _ hok
  refine ⟨htwo, ?_⟩
  cases fuel with
  | zero =>
      rw [insertLoop_zero hrow hfull] at hok
      cases hok
  | succ fuel =>
      -- The pass needs a frame, which is there, and a page on disk, or it does not return.
      have hfree : s.freeList ≠ [] := List.ne_nil_of_length_pos (by omega)
      rcases List.exists_cons_of_ne_nil hfree with ⟨g, free, hfree⟩
      by_cases halloc : ∃ q dm, s.diskManager.allocatePage = .ok (q, dm)
      · rcases halloc with ⟨q, dm, halloc⟩
        rcases insertLoop_twice hc (by simp) hlast hrow htwo hfull hfree halloc fuel with
          ⟨rid, s₁, s₂, heq, hgrows, hputs⟩
        rw [heq] at hok
        cases hok
        exact ⟨q, g, s₁, rid, hgrows, hputs⟩
      · rcases insertLoop_disk_full hc hlast hrow hfull hfree (fun r hr => halloc ⟨r.1, r.2, hr⟩)
          fuel with ⟨e, herr⟩
        rw [herr] at hok
        cases hok

/-! ## The call -/

variable {heap : TableHeap}

theorem insertTuple_enter (hc : ChainInv heap.schema s heap.firstPageId (f :: fs)) (fuel : Nat)
    (row : Row) : ∃ s', heap.insertTuple fuel s row = insertLoop heap.schema fuel s' f row ∧
      PoolInv s' ∧ SameStore s s' := by
  have hl := hc.chain.head
  rcases hc.pool.fetchPage_resident hl with ⟨s₁, hfetch, hpool₁, hsame₁⟩
  have hl₁ : s₁.pageTable.lookup heap.firstPageId = some f := by
    rw [hsame₁.table, hl]
  rcases hpool₁.unpinPage_resident hl₁ false with ⟨hpool₂, hsame₂⟩
  refine ⟨_, ?_, hpool₂, hsame₁.trans hsame₂⟩
  simp only [insertTuple, hfetch, ok_bind, deref]

theorem Chain.ne_nil (h : Chain s p fs) : ∃ f gs, fs = f :: gs := by
  cases h with
  | last _ _ => exact ⟨_, _, rfl⟩
  | cons _ _ _ => exact ⟨_, _, rfl⟩

/-- How a call can return `true` while no frame is evicted: the row went to a page with room, or
it went twice to a new page. -/
theorem insertTuple_true {row' : Row} (hc : ChainInv heap.schema s heap.firstPageId fs)
    (hrow : row.HasSchema heap.schema) (hsize : row.encode.length ≤ TablePage.SIZE_MAX_ROW)
    (hfuel : fuel < fs.length + s.freeList.length)
    (hok : heap.insertTuple fuel s row = .ok (some (true, row', s'))) :
    (∃ g ∈ fs, Room s row g ∧ ∃ rid, row' = { row with rid := rid } ∧
      Puts heap.schema s g row rid s') ∨
    ((∀ g ∈ fs, ¬Room s row g) ∧ 2 * (row.encode.length + TablePage.SIZE_TUPLE) ≤ 4072 ∧
      ∃ l ∈ fs, ∃ q g s₁ rid, Grows heap.schema s l q g row s₁ ∧
        Puts heap.schema s₁ g { row with rid := ⟨q, 0⟩ } rid s') := by
  have hsize' : row.encode.length + TablePage.SIZE_TUPLE ≤ 4072 := by
    simp only [TablePage.SIZE_MAX_ROW, TablePage.SIZE_TUPLE] at hsize ⊢
    omega
  rcases hc.chain.ne_nil with ⟨f, rest, rfl⟩
  rcases insertTuple_enter hc fuel row with ⟨s₀, henter, hpool₀, hsame₀⟩
  have hc₀ := hc.same hpool₀ hsame₀
  rw [henter] at hok
  -- The first page with room takes the row; without one the heap grows.
  by_cases hroom : ∃ g ∈ f :: rest, Room s row g
  · left
    have hroom₀ : ∃ g ∈ f :: rest, Room s₀ row g := by
      rcases hroom with ⟨g, hg, hroom⟩
      exact ⟨g, hg, (Room.congr hsame₀).mpr hroom⟩
    rcases insertLoop_fits hc₀ hrow hroom₀ fuel with ⟨_, hnone⟩ |
      ⟨g, hg, rid, s'', hroom', heq, hputs⟩
    · rw [hnone] at hok
      cases hok
    · rw [heq] at hok
      cases hok
      exact ⟨g, hg, (Room.congr hsame₀).mp hroom', rid, rfl, hputs.of_same hsame₀⟩
  · right
    have hfull : ∀ g ∈ f :: rest, ¬Room s row g := fun g hg hr => hroom ⟨g, hg, hr⟩
    have hfull₀ : ∀ g ∈ f :: rest, ¬Room s₀ row g :=
      fun g hg hr => hfull g hg ((Room.congr hsame₀).mp hr)
    rcases insertLoop_walk hc₀ hrow hfull₀ fuel with ⟨_, hnone⟩ |
      ⟨hle, l, hl, q', s₁, heq, hc₁, hsame₁⟩
    · rw [hnone] at hok
      cases hok
    · have hsame := hsame₀.trans hsame₁
      have hfull₁ : ¬Room s₁ row l := fun hr => hfull l hl ((Room.congr hsame).mp hr)
      rw [heq] at hok
      have hfuel₁ : fuel - rest.length ≤ s₁.freeList.length := by
        rw [hsame.free]
        simp only [List.length_cons] at hfuel
        omega
      rcases insertLoop_last hc₁ hrow hsize' hfull₁ hfuel₁ hok with
        ⟨htwo, q, g, s₂, rid, hgrows, hputs⟩
      exact ⟨hfull, htwo, l, hl, q, g, s₂, rid, hgrows.of_same hsame, hputs⟩

/-- Without room on the chain, with room for two copies on a new page, a free frame and a page on
disk, the call returns `true`. -/
theorem insertTuple_returns {g : Fin n} {free : List (Fin n)} {dm : DiskManager}
    (hc : ChainInv heap.schema s heap.firstPageId fs) (hrow : row.HasSchema heap.schema)
    (hfull : ∀ h ∈ fs, ¬Room s row h)
    (htwo : 2 * (row.encode.length + TablePage.SIZE_TUPLE) ≤ 4072)
    (hfree : s.freeList = g :: free) (halloc : s.diskManager.allocatePage = .ok (q, dm)) :
    ∃ row' s', heap.insertTuple fs.length s row = .ok (some (true, row', s')) := by
  rcases hc.chain.ne_nil with ⟨f, rest, rfl⟩
  rcases insertTuple_enter hc (f :: rest).length row with ⟨s₀, henter, hpool₀, hsame₀⟩
  rcases insertLoop_walk (hc.same hpool₀ hsame₀) hrow
    (fun h hh hr => hfull h hh ((Room.congr hsame₀).mp hr)) (f :: rest).length with ⟨hlt, _⟩ |
      ⟨_, l, hl, q', s₁, heq, hc₁, hsame₁⟩
  · simp at hlt
  · have hsame := hsame₀.trans hsame₁
    have hfull₁ : ¬Room s₁ row l := fun hr => hfull l hl ((Room.congr hsame).mp hr)
    have hpass : (f :: rest).length - rest.length = 0 + 1 := by simp
    rcases insertLoop_twice hc₁ (by simp) hc₁.chain.next_of_single hrow htwo hfull₁
      (hsame.free.trans hfree) (hsame.disk ▸ halloc) 0 with ⟨rid, _, s₂, heq₂, _, _⟩
    exact ⟨{ row with rid := rid }, s₂, by rw [henter, heq, hpass, heq₂]⟩

/-! ## Heaps reached by insertions -/

/-- A new heap is one page without tuples. -/
theorem create_spec {rest : List (Fin n)} {dm : DiskManager} (hpool : PoolInv s)
    (hfree : s.freeList = f :: rest) (halloc : s.diskManager.allocatePage = .ok (q, dm))
    (schema : Schema) :
    ∃ s', create s schema = .ok (⟨q, schema⟩, s') ∧ ChainInv schema s' q [f] ∧
      TablePage.Represents schema q (s'.bytes f) [] ∧ s'.freeList = rest ∧ s'.diskManager = dm ∧
      ∀ p g, s.pageTable.lookup p = some g → s'.pageTable.lookup p = some g := by
  rcases hpool.newPage_free hfree halloc with ⟨s₁, hnew, hpool₁, hadds, hdisk⟩
  -- The constructor passes `PAGE_SIZE` for the previous page id.
  set m := TablePage.init (s₁.bytes f) q 4096 with hm
  have hl : (s₁.setBytes f m).pageTable.lookup q = some f := hadds.lookup_new
  rcases (hpool₁.setBytes hadds.lookup_new m).unpinPage_resident hl true with ⟨hpool₂, hsame⟩
  set s' := ((s₁.setBytes f m).unpinPage q true).2 with hs'
  have hbytes : ∀ j, j < PAGE_SIZE → s'.bytes f j = m j := by
    intro j hj
    rw [bytes_congr hsame, bytes_setBytes hj]
  have hrep : TablePage.Represents schema q (s'.bytes f) [] := by
    refine (TablePage.init_represents schema (s₁.bytes f) q 4096).congr fun j hj => hbytes j ?_
    simp only [PAGE_SIZE] at hj ⊢
    omega
  refine ⟨s', ?_, ⟨hpool₂, Chain.last ?_ ?_, fun h hh => ?_⟩, hrep, ?_, ?_, fun p g hg => ?_⟩
  · simp only [create, hnew, ok_bind, ← hm, ← hs']
  · rw [hsame.table]
    exact hadds.lookup_new
  · refine Eq.trans (TablePage.getNextPageId_congr fun j hj => ?_)
      (TablePage.getNextPageId_init (s₁.bytes f) q 4096)
    exact hbytes j (lt_trans hj (by decide))
  · rw [List.mem_singleton.mp hh, hsame.pageId, setBytes_pageId, hadds.pageId]
    exact ⟨[], hrep⟩
  · rw [hsame.free, setBytes_freeList, hadds.free_eq hfree]
  · exact hsame.disk.trans hdisk
  · rw [hsame.table, setBytes_pageTable, hadds.lookup_old hg]

theorem create_chainInv (hpool : PoolInv s) (hfree : s.freeList ≠ [])
    (hok : create s schema = .ok (heap, s')) : ∃ f, ChainInv schema s' heap.firstPageId [f] := by
  rcases List.exists_cons_of_ne_nil hfree with ⟨f, rest, hfree⟩
  rcases bind_eq_ok.mp hok with ⟨⟨reply, s₁⟩, hnew, hrest⟩
  rcases newPage_inversion hnew with ⟨rfl, _⟩ | ⟨q, _, _, dm, _, _, _, halloc, _, _⟩
  · cases hrest
  · rcases create_spec hpool hfree halloc schema with ⟨s₂, hok₂, hc, _⟩
    rw [hok₂] at hok
    cases hok
    exact ⟨f, hc⟩

/-- A heap made by the constructor and then filled by insertions, in a pool that never evicts:
`fuel` passes of the loop make at most `fuel + 1 - fs.length` pages, and there is a free frame for
each.  Between the insertions others may use the pool. -/
inductive Reachable (heap : TableHeap) : BufferPoolManager n → Prop
  | create {s s' : BufferPoolManager n} : PoolInv s → s.freeList ≠ [] →
      create s heap.schema = .ok (heap, s') → Reachable heap s'
  | insertTuple {s s' : BufferPoolManager n} {row row' : Row} {fuel : Nat} {fs : List (Fin n)} :
      Reachable heap s → row.HasSchema heap.schema →
      row.encode.length ≤ TablePage.SIZE_MAX_ROW → Chain s heap.firstPageId fs →
      fuel < fs.length + s.freeList.length →
      heap.insertTuple fuel s row = .ok (some (true, row', s')) → Reachable heap s'
  | others {s s' : BufferPoolManager n} : Reachable heap s → Keeps s s' → Reachable heap s'

theorem Reachable.chainInv (h : Reachable heap s) :
    ∃ fs, ChainInv heap.schema s heap.firstPageId fs := by
  induction h with
  | create hpool hfree hok =>
      rcases create_chainInv hpool hfree hok with ⟨f, hc⟩
      exact ⟨[f], hc⟩
  | insertTuple _ hrow hsize hchain hfuel hok ih =>
      rcases ih with ⟨fs, hc⟩
      rw [hchain.unique hc.chain] at hfuel
      rcases insertTuple_true hc hrow hsize hfuel hok with ⟨g, _, _, rid, _, hputs⟩ |
        ⟨_, _, l, hl, q, g, s₁, rid, hgrows, hputs⟩
      · exact ⟨fs, hputs.chainInv hc⟩
      · exact ⟨fs ++ [g], hputs.chainInv (hgrows.chainInv hc hl)⟩
  | others _ hk ih =>
      rcases ih with ⟨fs, hc⟩
      exact ⟨fs, hk.chainInv hc⟩

/-- Whenever `InsertTuple(row)` returns `true` without an eviction, the live tuples are the earlier
ones and one copy of the row, at the new id left in the row. -/
def InsertsOnce (heap : TableHeap) (s : BufferPoolManager n) (row : Row) : Prop :=
  ∀ fs fuel row' s', Chain s heap.firstPageId fs → fuel < fs.length + s.freeList.length →
    heap.insertTuple fuel s row = .ok (some (true, row', s')) →
    ∃ fs', Chain s' heap.firstPageId fs' ∧
      (liveTuples heap.schema s' fs').Perm
        ((row'.rid, row.fields) :: liveTuples heap.schema s fs) ∧
      row'.rid ∉ (liveTuples heap.schema s fs).map Prod.fst

/-- When no page is added, or the call does not return, the row is stored once. -/
theorem insertsOnce_of_not_twice (hc : ChainInv heap.schema s heap.firstPageId fs)
    (hrow : row.HasSchema heap.schema) (hsize : row.encode.length ≤ TablePage.SIZE_MAX_ROW)
    (hcond : (∃ f ∈ fs, Room s row f) ∨ 4072 < 2 * (row.encode.length + TablePage.SIZE_TUPLE) ∨
      ∀ r, s.diskManager.allocatePage ≠ .ok r) : InsertsOnce heap s row := by
  intro gs fuel row' s' hchain hfuel hok
  have hgs := hchain.unique hc.chain
  subst hgs
  rcases insertTuple_true hc hrow hsize hfuel hok with ⟨g, hg, _, rid, rfl, hputs⟩ |
    ⟨hfull, hfits, l, hl, q, g, s₁, rid, hgrows, _⟩
  · exact ⟨gs, hputs.chain hchain, hputs.live hc hg, hputs.fresh hc⟩
  · -- Two copies on a new page: each of the three conditions excludes it.
    rcases hcond with ⟨f, hf, hroom⟩ | htwo | hdisk
    · exact absurd hroom (hfull f hf)
    · exact absurd hfits (Nat.not_le_of_lt htwo)
    · exact absurd hgrows.disk (hdisk _)

/-- On a new page that takes two copies the row is stored twice. -/
theorem not_insertsOnce (hc : ChainInv heap.schema s heap.firstPageId fs)
    (hrow : row.HasSchema heap.schema) (hfull : ∀ f ∈ fs, ¬Room s row f)
    (htwo : 2 * (row.encode.length + TablePage.SIZE_TUPLE) ≤ 4072) (hfree : s.freeList ≠ [])
    {dm : DiskManager} (halloc : s.diskManager.allocatePage = .ok (q, dm)) :
    ¬InsertsOnce heap s row := by
  intro honce
  rcases List.exists_cons_of_ne_nil hfree with ⟨g, free, hfree⟩
  have hfuel : fs.length < fs.length + s.freeList.length := by
    rw [hfree, List.length_cons]
    omega
  have hsize : row.encode.length ≤ TablePage.SIZE_MAX_ROW := by
    simp only [TablePage.SIZE_MAX_ROW, TablePage.SIZE_TUPLE] at htwo ⊢
    omega
  rcases insertTuple_returns hc hrow hfull htwo hfree halloc with ⟨row', s', hok⟩
  rcases honce fs fs.length row' s' hc.chain hfuel hok with ⟨fs', hchain', hperm, _⟩
  rcases insertTuple_true hc hrow hsize hfuel hok with ⟨h, hh, hroom, _⟩ |
    ⟨_, _, l, hl, q', g', s₁, rid, hgrows, hputs⟩
  · exact hfull h hh hroom
  · -- Two more live tuples than before, where one more was promised.
    have hc₁ := hgrows.chainInv hc hl
    have hfs' := hchain'.unique (hputs.chain hc₁.chain)
    subst hfs'
    have hlen := hperm.length_eq
    have hlen' := (hputs.live hc₁ (by simp)).length_eq
    rw [List.length_cons] at hlen hlen'
    rw [hgrows.live hc, List.length_append, List.length_singleton] at hlen'
    omega

/-- When `InsertTuple` is exactly-once: some page of the chain has room for the row, or the row
does not fit twice on a page (the call then never returns `true`), or the disk is full. -/
theorem insert_exactly_once_iff {size : Nat} (hreach : Reachable heap s)
    (hrow : row.HasSchema heap.schema) (hsize : row.getSerializedSize heap.schema = .ok size)
    (hmax : size ≤ TablePage.SIZE_MAX_ROW) (hfree : s.freeList ≠ []) :
    InsertsOnce heap s row ↔
      (∃ fs, Chain s heap.firstPageId fs ∧ ∃ f ∈ fs,
        size + TablePage.SIZE_TUPLE ≤ TablePage.getFreeSpaceRemaining (s.bytes f)) ∨
      PAGE_SIZE - TablePage.SIZE_TABLE_PAGE_HEADER < 2 * (size + TablePage.SIZE_TUPLE) ∨
      ∀ r, s.diskManager.allocatePage ≠ .ok r := by
  rcases hreach.chainInv with ⟨fs, hc⟩
  rw [TablePage.size_eq hrow hsize] at hmax ⊢
  -- A new page has 4072 bytes for rows and their slots.
  have hpage : PAGE_SIZE - TablePage.SIZE_TABLE_PAGE_HEADER = 4072 := rfl
  rw [hpage]
  constructor
  · intro honce
    by_contra hnot
    push Not at hnot
    rcases hnot with ⟨hfull, htwo, ⟨q, dm⟩, halloc⟩
    refine not_insertsOnce hc hrow (fun f hf hroom => ?_) htwo hfree halloc honce
    exact absurd hroom (Nat.not_le_of_lt (hfull fs hc.chain f hf))
  · intro hcond
    refine insertsOnce_of_not_twice hc hrow hmax ?_
    rcases hcond with ⟨gs, hchain, hroom⟩ | hother
    · rw [hchain.unique hc.chain] at hroom
      exact Or.inl hroom
    · exact Or.inr hother

/-- A table of one column, `s char(2047)`. -/
def charSchema : Schema where
  columns := [⟨⟨[115], by decide⟩, .kTypeChar, 2047, 0, true, false, by decide⟩]
  isManage := true
  columns_lt := by decide

/-- A heap of that table, from page 0 on. -/
def charHeap : TableHeap where
  firstPageId := 0
  schema := charSchema

/-- A row of that table with a string of length `k`. -/
def charRow (k : Nat) : Row where
  rid := INVALID_ROWID
  fields := [.char (List.replicate k 65)]

theorem charRow_hasSchema {k : Nat} (hk : k < VARCHAR_MAX_LEN) :
    (charRow k).HasSchema charSchema := by
  simp only [Row.HasSchema, charRow, charSchema, Field.HasType, Field.getTypeId]
  simpa using hk

theorem charRow_getSerializedSize (k : Nat) :
    (charRow k).getSerializedSize charSchema = .ok (17 + k) := by
  have hcount : charSchema.getColumnCount = (charRow k).fields.length := rfl
  simp only [Row.getSerializedSize, hcount, decide_true, assert_true, ok_bind]
  simp [charRow, Field.isNull, Field.getSerializedSize]
  omega

theorem charRow_size {k : Nat} (hk : k < VARCHAR_MAX_LEN) : (charRow k).encode.length = 17 + k :=
  (TablePage.size_eq (charRow_hasSchema hk) (charRow_getSerializedSize k)).symm

/-- A new heap of that table in a pool of three frames. -/
theorem sample_create : ∃ s : BufferPoolManager 3,
    Reachable charHeap s ∧ ChainInv charHeap.schema s charHeap.firstPageId [0] ∧
      TablePage.Represents charSchema 0 (s.bytes 0) [] ∧ s.freeList = [1, 2] ∧
      DiskManager.Dense s.diskManager 1 := by
  have hpool := init_poolInv 3 DiskManager.fresh_inv
  rcases DiskManager.fresh_dense.allocatePage_ok (by decide) with ⟨dm, halloc, hdense⟩
  have hfree : (init 3 DiskManager.fresh).freeList = (0 : Fin 3) :: [1, 2] := rfl
  rcases create_spec hpool hfree halloc charSchema with ⟨s, hok, hc, hrep, hfree', hdm, _⟩
  refine ⟨s, Reachable.create hpool (by rw [hfree]; simp) hok, hc, hrep, hfree', ?_⟩
  rw [hdm]
  exact hdense

/-- A string of 2047 bytes is stored on the first page, where 2000 bytes are left then. -/
theorem sample_full : ∃ s : BufferPoolManager 3,
    Reachable charHeap s ∧ ChainInv charHeap.schema s charHeap.firstPageId [0] ∧
      ¬Room s (charRow 2000) 0 ∧ s.freeList = [1, 2] ∧ DiskManager.Dense s.diskManager 1 := by
  rcases sample_create with ⟨s, hreach, hc, hrep, hfree, hdense⟩
  have hbig : (charRow 2047).HasSchema charSchema := charRow_hasSchema (by decide)
  have hsize := charRow_size (k := 2047) (by decide)
  rcases insertTuple_enter hc 0 (charRow 2047) with
    ⟨s₀, henter, hpool₀, hsame₀⟩
  have hroom : Room s (charRow 2047) 0 := by
    rw [Room, TablePage.remaining_nil hrep, hsize]
    decide
  rcases insertLoop_fit (hc.same hpool₀ hsame₀) (by simp) hbig ((Room.congr hsame₀).mpr hroom) 0
    with ⟨rid, s₁, heq, hputs⟩
  have hok := henter.trans heq
  have hputs := hputs.of_same hsame₀
  have hreach₁ : Reachable charHeap s₁ :=
    Reachable.insertTuple hreach hbig (by rw [hsize]; decide) hc.chain (by rw [hfree]; decide) hok
  refine ⟨s₁, hreach₁, hputs.chainInv hc, ?_, hputs.free.trans hfree, hputs.disk ▸ hdense⟩
  rcases hputs.page with ⟨es, hold, hnew, _⟩
  have hnil : es = [] := by
    have hcount := hold.count.symm.trans hrep.count
    exact List.eq_nil_of_length_eq_zero hcount
  subst hnil
  have hrem := hnew.remaining
  have hused : TablePage.used ([] ++ [⟨charRow 2047, false⟩]) = 2064 := by
    simp [TablePage.used, Entry.size, hsize]
  rw [hused] at hrem
  rw [Room, hrem, charRow_size (by decide)]
  decide

/-- A string of 2000 bytes, which does not fit on the first page any more, is stored twice on a new
page. -/
theorem insert_stores_row_twice :
    ∃ s : BufferPoolManager 3, Reachable charHeap s ∧
      (charRow 2000).HasSchema charSchema ∧
      (charRow 2000).getSerializedSize charSchema = .ok 2017 ∧ 2017 ≤ TablePage.SIZE_MAX_ROW ∧
      s.freeList ≠ [] ∧ ¬InsertsOnce charHeap s (charRow 2000) := by
  rcases sample_full with ⟨s, hreach, hc, hfull, hfree, hdense⟩
  have hrow : (charRow 2000).HasSchema charSchema := charRow_hasSchema (by decide)
  have hsome : s.freeList ≠ [] := by
    rw [hfree]
    simp
  rcases hdense.allocatePage_ok (by decide) with ⟨dm, halloc, _⟩
  refine ⟨s, hreach, hrow, charRow_getSerializedSize 2000, by decide, hsome, ?_⟩
  refine not_insertsOnce hc hrow (fun f hf => ?_) (by rw [charRow_size (by decide)]; decide) hsome
    halloc
  rw [List.mem_singleton.mp hf]
  exact hfull

/-- An insertion in a new heap. -/
theorem insert_exactly_once_iff_first :
    ∃ s : BufferPoolManager 3, Reachable charHeap s ∧
      InsertsOnce charHeap s (charRow 5) := by
  rcases sample_create with ⟨s, hreach, hc, hrep, hfree, _⟩
  refine ⟨s, hreach, (insert_exactly_once_iff hreach (charRow_hasSchema (by decide))
    (charRow_getSerializedSize 5) (by decide) (by rw [hfree]; simp)).mpr ?_⟩
  refine Or.inl ⟨[0], hc.chain, 0, by simp, ?_⟩
  rw [TablePage.remaining_nil hrep]
  decide

end TableHeap
end MiniSQL
