import MiniSQL.Storage.OversizedRows

/-!
# PageLinks — the links of a heap under insertions

The pages of a heap form a doubly linked list, and the loop of `InsertTuple` walks along it while it
extends it.  The link to a new page is stored through a pointer to a frame nobody pins, and
`NewPage` writes zeros for a dirty frame it takes.  So the list survives exactly as long as
`NewPage` takes frames of other pages: `page_links_kept`.
-/

namespace MiniSQL

open Lib

/-! ## The bytes of the links -/

namespace TablePage

variable {m m' : Mem}

theorem getPrevPageId_congr (h : ∀ j, j < 12 → m' j = m j) :
    getPrevPageId m' = getPrevPageId m := by
  rw [getPrevPageId, getPrevPageId, Mem.u32_congr fun j _ h2 => h j (by omega)]

theorem getPrevPageId_init (m : Mem) (p prev : PageId) : getPrevPageId (init m p prev) = prev := by
  simp only [getPrevPageId, init, setTupleCount, setFreeSpacePointer, setNextPageId, setPrevPageId]
  rw [Mem.u32_setU32_ne (by omega), Mem.u32_setU32_ne (by omega), Mem.u32_setU32_ne (by omega),
    Mem.u32_setU32_of_lt prev.toUInt32.toNat_lt]
  exact pageId_word prev

theorem getPrevPageId_setNext (m : Mem) (q : PageId) :
    getPrevPageId (setNextPageId m q) = getPrevPageId m :=
  getPrevPageId_congr fun _ hj => Mem.setU32_apply_outside (by omega)

end TablePage

namespace TableHeap

open BufferPoolManager

variable {n : Nat} {s s' s₁ s₂ : BufferPoolManager n} {f g target : Fin n} {p q : PageId}
variable {schema : Schema} {row row' : Row} {fuel : Nat} {done : Bool} {heap : TableHeap}
variable {d : PageData} {next : PageId} {es : List Entry} {ps pre post : List PageId}

/-- Whether or not the row fits, the page stays in order and keeps its links. -/
theorem Holds.inserted (h : Holds schema d p next es) (hrow : row.HasSchema schema) :
    ∃ done row' m fs, TablePage.insertTuple d.mem row schema = .ok (done, row', m) ∧
      row'.fields = row.fields ∧ Holds schema (insertedPage schema d row) p next (es ++ fs) ∧
      TablePage.getPrevPageId (insertedPage schema d row).mem = TablePage.getPrevPageId d.mem := by
  by_cases hroom : row.encode.length + TablePage.SIZE_TUPLE ≤ TablePage.getFreeSpaceRemaining d.mem
  · rcases h.insert hrow ((h.room_iff row).mp hroom) with ⟨⟨m, hinsert⟩, hholds⟩
    refine ⟨_, _, m, _, hinsert, rfl, hholds, TablePage.getPrevPageId_congr fun j hj => ?_⟩
    rw [insertedPage_eq (h.rows.insertTuple_eq hrow hroom),
      Buf.mem_ofMem_of_lt (lt_trans hj (by decide))]
    exact h.rows.inserted_header hroom (lt_trans hj (by decide))
  · have hinsert := TablePage.insertTuple_of_full hrow.count (Nat.lt_of_not_le hroom)
    have hsame : insertedPage schema d row = d := by
      rw [insertedPage_eq hinsert]
      exact Buf.ofMem_mem d
    refine ⟨false, row, d.mem, [], hinsert, rfl, ?_, ?_⟩
    · rw [hsame, List.append_nil]
      exact h
    · rw [hsame]

theorem emptyPage_prev (q p : PageId) : TablePage.getPrevPageId (emptyPage q p).mem = p := by
  refine Eq.trans (TablePage.getPrevPageId_congr fun j hj => ?_)
    (TablePage.getPrevPageId_init (Buf.zero PAGE_SIZE).mem q p)
  exact Buf.mem_ofMem_of_lt (lt_trans hj (by decide))

theorem linkedPage_prev (d : PageData) (q : PageId) :
    TablePage.getPrevPageId (linkedPage d q).mem = TablePage.getPrevPageId d.mem := by
  refine Eq.trans (TablePage.getPrevPageId_congr fun j hj => ?_)
    (TablePage.getPrevPageId_setNext d.mem q)
  exact Buf.mem_ofMem_of_lt (lt_trans hj (by decide))

/-! ## The list of pages -/

/-- The page before `p`. -/
def before (s : BufferPoolManager n) (p : PageId) : PageId :=
  TablePage.getPrevPageId (s.contents p).mem

/-- The heap is the doubly linked list of the pages `ps`, and each of them is in a frame. -/
structure LinkedPages (heap : TableHeap) (s : BufferPoolManager n) (ps : List PageId) : Prop where
  pool : PoolInv s
  first : heap.firstPageId ≠ INVALID_PAGE_ID
  links : DoublyLinked (behind s) (before s) INVALID_PAGE_ID heap.firstPageId ps
  resident : ∀ p ∈ ps, ∃ f, s.pageTable.lookup p = some f
  pages : ∀ p ∈ ps, ∃ es, TablePage.Represents heap.schema p (s.contents p).mem es

theorem LinkedPages.pageChain (h : LinkedPages heap s ps) : PageChain s heap.firstPageId ps := by
  refine ⟨h.links.leads, fun q hq => ?_⟩
  rcases h.resident q hq with ⟨f, hl⟩
  exact (h.pool.allocated q f hl).1

theorem LinkedPages.holds (h : LinkedPages heap s ps) (hp : p ∈ ps) :
    ∃ es, Holds heap.schema (s.contents p) p (behind s p) es := by
  rcases h.pages p hp with ⟨es, hes⟩
  exact ⟨es, hes, rfl⟩

/-- A resident page is visited. -/
theorem LinkedPages.visit (h : LinkedPages heap s ps) (hp : p ∈ ps) :
    ∃ f r, s.visit p = .ok (some f, { s with replacer := r }) ∧ s.pageTable.lookup p = some f ∧
      LinkedPages heap { s with replacer := r } ps := by
  rcases h.resident p hp with ⟨f, hl⟩
  rcases visit_resident h.pool.frames hl with ⟨r, hvisit, _⟩
  rcases h.pool.allocated p f hl with ⟨hpos, hused⟩
  have hk := h.pool.kept hvisit hpos hused fun hnone => by
    rw [hl] at hnone
    cases hnone
  exact ⟨f, r, hvisit, hl, hk.pool, h.first, h.links, h.resident, h.pages⟩

/-- The condition of the loop stores the row on a page of the heap. -/
theorem LinkedPages.store (h : LinkedPages heap s ps) (hp : p ∈ ps)
    (hl : s.pageTable.lookup p = some f) (hrow : row.HasSchema heap.schema) (hroom : Room s row f)
    (fuel : Nat) :
    ∃ row' s', insertLoop heap.schema fuel s f row = .ok (some (true, row', s')) ∧
      LinkedPages heap s' ps := by
  rcases h.holds hp with ⟨es, hholds⟩
  rw [Room, bytes_of_lookup hl] at hroom
  have hinsert := hholds.rows.insertTuple_eq hrow hroom
  rcases hholds.inserted hrow with ⟨_, _, _, fs, _, _, hholds', hprev⟩
  rcases insertLoop_room h.pool hl hinsert fuel with ⟨s', hloop, hw⟩
  refine ⟨_, s', hloop, hw.pool, h.first, h.links.congr (fun q _ => ?_) (fun q _ => ?_),
    fun q hq => ?_, fun q hq => ?_⟩
  · rw [behind, behind, hw.contents]
    split
    · rename_i hqp
      rw [hholds'.next_eq, hqp, behind]
    · rfl
  · rw [before, before, hw.contents]
    split
    · rename_i hqp
      rw [hprev, hqp]
    · rfl
  · rw [hw.table]
    exact h.resident q hq
  · rw [hw.contents]
    split
    · rename_i hqp
      rw [hqp]
      exact ⟨es ++ fs, hholds'.rows⟩
    · exact h.pages q hq

theorem mem_snoc {x : PageId} (hx : x ∈ pre ++ [p, q]) : x ∈ pre ++ [p] ∨ x = q := by
  simp only [List.mem_append, List.mem_cons, List.not_mem_nil, or_false] at hx ⊢
  tauto

/-- A page is made in a frame that holds no page of the heap: those stay where they are. -/
theorem LinkedPages.made {x : PageId} (h : LinkedPages heap s ps) (hm : Made s q target s₁)
    (hcalm : (s.pages target).pageId ∉ ps) (hx : x ∈ ps) :
    x ≠ q ∧ s₁.contents x = s.contents x ∧ ∃ g, g ≠ target ∧ s.pageTable.lookup x = some g ∧
      s₁.pageTable.lookup x = some g := by
  rcases h.resident x hx with ⟨g, hg⟩
  have hgt : g ≠ target := by
    rintro rfl
    rw [(h.pool.frames.pageId hg).2] at hcalm
    exact hcalm hx
  have hg₁ := hm.lookup_other x g hg hgt
  refine ⟨?_, ?_, g, hgt, hg, hg₁⟩
  · rintro rfl
    rw [hm.fresh] at hg
    cases hg
  · rw [contents_of_lookup hg, contents_of_lookup hg₁, hm.others g hgt]

/-- Such a page, made behind the last one, becomes the last page, with or without the row. -/
theorem LinkedPages.extend (h : LinkedPages heap s (pre ++ [p]))
    (hl : s.pageTable.lookup p = some f) (hlast : behind s p = INVALID_PAGE_ID)
    (hrow : row.HasSchema heap.schema) (hnew : s.newPage = .ok (some (q, target), s₁))
    (hcalm : (s.pages target).pageId ∉ pre ++ [p]) :
    ∃ row' s', nextPage heap.schema s f row = .ok (some (q, row'), s') ∧
      row'.fields = row.fields ∧ LinkedPages heap s' (pre ++ [p, q]) ∧
      s'.idleFrames.card + 1 = s.idleFrames.card := by
  have hm := h.pool.made hnew
  have hunpinned := (h.pool.frames.created h.pool.disk h.pool.allocated hnew).unpinned
  have hp : p ∈ pre ++ [p] := by simp
  have hnot : p ∉ pre := fun hmem =>
    List.disjoint_of_nodup_append h.links.leads.nodup hmem (by simp)
  rcases h.made hm hcalm hp with ⟨_, hsame, g, hft, hg, hl₁⟩
  rw [hl] at hg
  obtain rfl := Option.some.inj hg
  rcases h.holds hp with ⟨es, hholds⟩
  rcases (emptyPage_holds heap.schema q p).inserted hrow with
    ⟨done, row', m, fs, hinsert, hfields, hempty, hprev⟩
  have hbytes : TablePage.getNextPageId (s.bytes f) = INVALID_PAGE_ID := by
    rw [bytes_of_lookup hl]
    exact hlast
  have hlinked := linkedPage_holds hholds q
  set s' := linkedPool heap.schema s₁ f p target q row with hs'
  have hpool : PoolInv s' :=
    ((hm.pool.write hm.lookup _).write (p := p) hl₁ _).write (p := q) hm.lookup _
  have hcontents : ∀ x, s'.contents x =
      if x = q then insertedPage heap.schema (emptyPage q p) row
      else if x = p then linkedPage (s₁.contents p) q else s₁.contents x :=
    linkedPool_contents hm.pool.frames hl₁ hm.lookup
  -- The old pages are the same, but for the link of the last one.
  have hold : ∀ x ∈ pre ++ [p], s'.contents x =
      if x = p then linkedPage (s.contents p) q else s.contents x := by
    intro x hx
    rcases h.made hm hcalm hx with ⟨hxq, hx₁, _⟩
    rw [hcontents, if_neg hxq, hsame, hx₁]
  have hnewest : s'.contents q = insertedPage heap.schema (emptyPage q p) row := by
    rw [hcontents, if_pos rfl]
  refine ⟨row', s', nextPage_new h.pool hm hnew hl hft hbytes hinsert, hfields,
    ⟨hpool, h.first, h.links.append (ne_INVALID_of_nonneg hm.valid)
      (fun hq => (h.made hm hcalm hq).1 rfl) ?_ ?_ (fun x hx => ?_) ?_ (fun x hx => ?_),
      fun x hx => ?_, fun x hx => ?_⟩, ?_⟩
  · rw [behind, hold p hp, if_pos rfl, hlinked.next_eq]
  · rw [behind, hnewest, hempty.next_eq]
  · have hxp : x ≠ p := by
      rintro rfl
      exact hnot hx
    rw [behind, behind, hold x (List.mem_append_left _ hx), if_neg hxp]
  · rw [before, hnewest, hprev, emptyPage_prev]
  · rw [before, before, hold x hx]
    split
    · rename_i hxp
      rw [linkedPage_prev, hxp]
    · rfl
  · rcases mem_snoc hx with hx | rfl
    · rcases h.made hm hcalm hx with ⟨_, _, g, _, _, hg⟩
      exact ⟨g, hg⟩
    · exact ⟨target, hm.lookup⟩
  · rcases mem_snoc hx with hx | rfl
    · rw [hold x hx]
      split
      · rename_i hxp
        rw [hxp]
        exact ⟨es, hlinked.rows⟩
      · exact h.pages x hx
    · rw [hnewest]
      exact ⟨[] ++ fs, hempty.rows⟩
  · refine idleFrames_take hunpinned ?_ fun g hg => ?_
    · simp [hs', linkedPool, hm.page]
    · simp [hs', linkedPool, hm.others g hg]

/-! ## The loop -/

/-- The passes of the loop of `InsertTuple`: it stands on frame `f` of pool `s` with `row`, and
comes to stand on frame `g` of pool `s'` with `row'`. -/
inductive Passes (schema : Schema) :
    BufferPoolManager n → Fin n → Row → BufferPoolManager n → Fin n → Row → Prop
  | here (s : BufferPoolManager n) (f : Fin n) (row : Row) : Passes schema s f row s f row
  | next {s s₁ s₂ s' : BufferPoolManager n} {f g g' : Fin n} {row row₁ row' : Row} {q : PageId} :
      ¬Room s row f → nextPage schema s f row = .ok (some (q, row₁), s₁) →
      s₁.visit q = .ok (some g, s₂) → Passes schema s₂ g row₁ s' g' row' →
      Passes schema s f row s' g' row'

/-- When the loop makes a page, it takes a frame that holds no page of the heap. -/
def CalmLoop (heap : TableHeap) (s : BufferPoolManager n) (f : Fin n) (row : Row) : Prop :=
  ∀ s' g row', Passes heap.schema s f row s' g row' → ¬Room s' row' g →
    TablePage.getNextPageId (s'.bytes g) = INVALID_PAGE_ID →
    ∀ q target s₁, s'.newPage = .ok (some (q, target), s₁) →
      ∀ ps, PageChain s' heap.firstPageId ps → (s'.pages target).pageId ∉ ps

/-- The condition on the pool before a call of `InsertTuple`. -/
def Calm (heap : TableHeap) (s : BufferPoolManager n) (row : Row) : Prop :=
  ∀ f s₁, s.visit heap.firstPageId = .ok (some f, s₁) → CalmLoop heap s₁ f row

theorem CalmLoop.pass (h : CalmLoop heap s f row) (hfull : ¬Room s row f)
    (hnext : nextPage heap.schema s f row = .ok (some (q, row'), s₁))
    (hvisit : s₁.visit q = .ok (some g, s₂)) : CalmLoop heap s₂ g row' :=
  fun s' g' row'' hpasses => h s' g' row'' (.next hfull hnext hvisit hpasses)

theorem allocatePage_fault {dm : DiskManager} {e : Fault} (h : dm.allocatePage = .error e) :
    e = .outOfBounds := by
  unfold DiskManager.allocatePage at h
  simp only at h
  split at h
  · split at h <;> cases h
  · exact (Except.error.inj h).symm

/-- `NewPage` faults only when the disk is full. -/
theorem newPage_fault {e : Fault} (h : PoolInv s) (hnew : s.newPage = .error e) :
    e = .outOfBounds := by
  by_cases hall : ∀ g, (s.pages g).pinCount ≠ 0
  · rw [newPage, if_pos hall] at hnew
    cases hnew
  · cases hpick : s.pickFrame with
    | none =>
        simp [newPage, hall, hpick] at hnew
    | some picked =>
        cases halloc : s.diskManager.allocatePage with
        | ok r =>
            have hpin := (h.frames.queueInv.picks hpick).unpinned
            rcases newPage_ok hpick hpin halloc h.dirty_nonneg with ⟨s', hok⟩
            rw [hok] at hnew
            cases hnew
        | error e' =>
            rcases pickFrame_rest hpick with ⟨_, _, hdisk⟩
            rw [newPage, if_neg hall] at hnew
            simp only [hpick, hdisk, Disk.allocatePage_eq, halloc, error_bind] at hnew
            obtain rfl := Except.error.inj hnew
            exact allocatePage_fault halloc

/-- The last page has no room and none can be made behind it. -/
theorem insertLoop_last_full (hrow : row.HasSchema schema) (hfull : ¬Room s row f)
    (hlast : TablePage.getNextPageId (s.bytes f) = INVALID_PAGE_ID) (fuel : Nat) :
    (∀ e, s.newPage = .error e → insertLoop schema (fuel + 1) s f row = .error e) ∧
      ∀ s', s.newPage = .ok (none, s') →
        insertLoop schema (fuel + 1) s f row = .ok (some (false, row, s')) := by
  constructor
  · intro e hnew
    unfold insertLoop
    simp only [insertTuple_full hrow hfull, ok_bind, Bool.false_eq_true, if_false, setBytes_bytes,
      nextPage, hlast, ne_eq, not_true_eq_false, hnew, error_bind]
  · intro s' hnew
    unfold insertLoop
    simp only [insertTuple_full hrow hfull, ok_bind, Bool.false_eq_true, if_false, setBytes_bytes,
      nextPage, hlast, ne_eq, not_true_eq_false, hnew]

/-- What the loop comes to: it returns and the pages of the heap are a list again, or the disk is
full. -/
def Finishes (heap : TableHeap)
    (r : Result (Option (Bool × Row × BufferPoolManager n))) : Prop :=
  (∃ done row' s' ps, r = .ok (some (done, row', s')) ∧ LinkedPages heap s' ps) ∨
    r = .error .outOfBounds

/-- Each pass leaves a page of the list behind or takes a frame for a new one, so there are at most
as many passes as there are pages to come and frames nobody pins. -/
theorem insertLoop_finishes (h : LinkedPages heap s (pre ++ p :: post))
    (hl : s.pageTable.lookup p = some f) (hrow : row.HasSchema heap.schema)
    (hcalm : CalmLoop heap s f row) (hfuel : post.length + s.idleFrames.card < fuel) :
    Finishes heap (insertLoop heap.schema fuel s f row) := by
  induction fuel generalizing s f row pre p post with
  | zero =>
      cases hfuel
  | succ fuel ih =>
      by_cases hroom : Room s row f
      · rcases h.store (by simp) hl hrow hroom (fuel + 1) with ⟨row', s', hloop, h'⟩
        exact Or.inl ⟨true, row', s', _, hloop, h'⟩
      · have hrest := h.links.leads.behind
        have hbytes : TablePage.getNextPageId (s.bytes f) = behind s p := by
          rw [bytes_of_lookup hl, behind]
        cases post with
        | cons q post =>
            -- The next page of the list.
            obtain ⟨rfl, hvalid⟩ := hrest.head
            have hnext : nextPage heap.schema s f row = .ok (some (behind s p, row), s) :=
              nextPage_follow hbytes hvalid row
            set q := behind s p
            have hmem : q ∈ pre ++ p :: q :: post := by simp
            rcases h.visit hmem with ⟨g, r, hvisit, hlq, h'⟩
            rw [insertLoop_visit hrow hroom hnext h.pool hvisit]
            have hsplit : pre ++ p :: q :: post = (pre ++ [p]) ++ q :: post := by simp
            rw [hsplit] at h'
            refine ih h' hlq hrow (hcalm.pass hroom hnext hvisit) ?_
            rw [List.length_cons, Nat.succ_add] at hfuel
            exact Nat.lt_of_succ_lt_succ hfuel
        | nil =>
            have hlast : behind s p = INVALID_PAGE_ID := hrest.eq_stop
            rw [hlast] at hbytes
            rcases insertLoop_last_full hrow hroom hbytes fuel with ⟨hfaults, hstops⟩
            rcases hnew : s.newPage with e | ⟨reply, s₁⟩
            · rw [newPage_fault h.pool hnew] at hnew
              exact Or.inr (hfaults _ hnew)
            · cases reply with
              | none =>
                  rcases h.pool.frames.newPage_null hnew with ⟨rfl, _⟩
                  exact Or.inl ⟨false, row, s₁, _, hstops _ hnew, h⟩
              | some page =>
                  rcases page with ⟨q, target⟩
                  have hclear := hcalm s f row (.here s f row) hroom hbytes q target s₁ hnew _
                    h.pageChain
                  rcases h.extend hl hlast hrow hnew hclear with
                    ⟨row', s₂, hnext, hfields, h₂, hcard⟩
                  rcases h₂.visit (p := q) (by simp) with ⟨g, r, hvisit, hlq, h₃⟩
                  rw [insertLoop_visit hrow hroom hnext h₂.pool hvisit]
                  have hsplit : pre ++ [p, q] = (pre ++ [p]) ++ [q] := by simp
                  rw [hsplit] at h₃
                  refine ih h₃ hlq (hasSchema_fields hrow hfields)
                    (hcalm.pass hroom hnext hvisit) ?_
                  rw [List.length_nil, Nat.zero_add] at hfuel ⊢
                  have hidle : BufferPoolManager.idleFrames { s₂ with replacer := r } =
                    s₂.idleFrames := rfl
                  rw [hidle]
                  omega

/-! ## Runs -/

theorem insertTuple_finishes (h : LinkedPages heap s ps) (hrow : row.HasSchema heap.schema)
    (hcalm : Calm heap s row) (hfuel : ps.length + s.idleFrames.card ≤ fuel) :
    Finishes heap (heap.insertTuple fuel s row) := by
  cases ps with
  | nil =>
      exact absurd h.links.leads.eq_stop h.first
  | cons p post =>
      obtain ⟨rfl, _⟩ := h.links.leads.head
      rcases h.visit (List.mem_cons_self ..) with ⟨f, r, hvisit, hl, h'⟩
      rw [insertTuple_visit hvisit]
      have hstart : LinkedPages heap { s with replacer := r } ([] ++ heap.firstPageId :: post) := h'
      refine insertLoop_finishes hstart hl hrow (hcalm f _ hvisit) ?_
      rw [List.length_cons] at hfuel
      have hidle : BufferPoolManager.idleFrames { s with replacer := r } = s.idleFrames := rfl
      rw [hidle]
      omega

/-- A call of `InsertTuple` that returns. -/
def InsertStep (heap : TableHeap) (s : BufferPoolManager n) (row : Row)
    (s' : BufferPoolManager n) : Prop :=
  row.HasSchema heap.schema ∧
    ∃ fuel done row', heap.insertTuple fuel s row = .ok (some (done, row', s'))

/-- Such a call in a pool that meets the condition. -/
def CalmStep (heap : TableHeap) (s : BufferPoolManager n) (row : Row)
    (s' : BufferPoolManager n) : Prop :=
  Calm heap s row ∧ InsertStep heap s row s'

theorem LinkedPages.step (h : LinkedPages heap s ps) (hstep : CalmStep heap s row s') :
    ∃ ps', LinkedPages heap s' ps' := by
  rcases hstep with ⟨hcalm, hrow, fuel, done, row', hok⟩
  have hok' := insertTuple_fuel (Nat.le_max_left fuel (ps.length + s.idleFrames.card)) hok
  rcases insertTuple_finishes h hrow hcalm
    (Nat.le_max_right fuel (ps.length + s.idleFrames.card)) with ⟨_, _, _, ps', heq, h'⟩ | hfault
  · rw [hok'] at heq
    cases heq
    exact ⟨ps', h'⟩
  · rw [hok'] at hfault
    cases hfault

/-- The heap that the constructor makes has one page. -/
theorem create_linkedPages (h : PoolInv s) (hok : create s schema = .ok (heap, s')) :
    ∃ q, LinkedPages heap s' [q] := by
  rcases create_written h hok with ⟨q, f, s₁, rfl, hnew, hw⟩
  have hm := h.made hnew
  have hq := ne_INVALID_of_nonneg hm.valid
  have hholds := emptyPage_holds schema q 4096
  have hcontents : s'.contents q = emptyPage q 4096 := by
    rw [hw.contents, if_pos rfl]
  refine ⟨q, hw.pool, hq, ⟨Leads.cons hq List.not_mem_nil ?_, List.isChain_singleton q⟩,
    fun x hx => ?_, fun x hx => ?_⟩
  · rw [behind, hcontents, hholds.next_eq]
    exact Leads.nil
  · rw [List.mem_singleton.mp hx, hw.table]
    exact ⟨f, hm.lookup⟩
  · rw [List.mem_singleton.mp hx, hcontents]
    exact ⟨[], hholds.rows⟩

/-- The pages of the heap are a doubly linked list that comes to an end, and every further call
that meets the condition comes to an end; the only fault there can be is that of `AllocatePage` on a
full disk. -/
theorem page_links_kept {s₀ : BufferPoolManager n} {rows : List Row} (hpool : PoolInv s₀)
    (hcreate : create s₀ schema = .ok (heap, s)) (hrun : Run (CalmStep heap) s rows s') :
    (∃ ps, DoublyLinked (behind s') (before s') INVALID_PAGE_ID heap.firstPageId ps) ∧
      ∀ row, row.HasSchema heap.schema → Calm heap s' row →
        ∃ fuel, (∃ r, heap.insertTuple fuel s' row = .ok (some r)) ∨
          heap.insertTuple fuel s' row = .error .outOfBounds := by
  have hlinked : ∃ ps, LinkedPages heap s' ps := by
    refine hrun.invariant (P := fun s => ∃ ps, LinkedPages heap s ps) ?_ ?_
    · rintro s row s' ⟨ps, h⟩ hstep
      exact h.step hstep
    · rcases create_linkedPages hpool hcreate with ⟨q, h⟩
      exact ⟨[q], h⟩
  rcases hlinked with ⟨ps, h⟩
  refine ⟨⟨ps, h.links⟩, fun row hrow hcalm => ⟨ps.length + s'.idleFrames.card, ?_⟩⟩
  rcases insertTuple_finishes h hrow hcalm (le_refl _) with ⟨_, _, _, _, heq, _⟩ | hfault
  · exact Or.inl ⟨_, heq⟩
  · exact Or.inr hfault

/-! ## Three rows -/

theorem calmLoop_of_room (hroom : Room s row f) : CalmLoop heap s f row := by
  intro s' g row' hpasses hfull
  cases hpasses with
  | here => exact absurd hroom hfull
  | next hfull' _ _ _ => exact absurd hroom hfull'

/-- The row is on the new page, and there is room for it once more. -/
theorem linkedPool_room (h : FrameInv s) (hl : s.pageTable.lookup p = some f)
    (hq : s.pageTable.lookup q = some target) (hrow : row.HasSchema schema)
    (htwo : 2 * (row.encode.length + TablePage.SIZE_TUPLE) ≤ 4072) :
    Room (linkedPool schema s f p target q row) { row with rid := ⟨q, 0⟩ } target := by
  rcases emptyPage_inserts hrow htwo q p with ⟨_, _, _, hsecond, _⟩
  have hrow' : Row.HasSchema { row with rid := ⟨q, 0⟩ } schema := hrow
  have hlq : (linkedPool schema s f p target q row).pageTable.lookup q = some target := hq
  rw [Room, bytes_of_lookup hlq, linkedPool_contents h hl hq, if_pos rfl]
  exact (insertTuple_done_iff hrow' hsecond).mp rfl

/-- While a frame is free, a row that fits on a new page twice can be inserted. -/
theorem calmLoop_of_free (h : PoolInv s) (hl : s.pageTable.lookup p = some f)
    (hlast : behind s p = INVALID_PAGE_ID) (hrow : row.HasSchema heap.schema)
    (htwo : 2 * (row.encode.length + TablePage.SIZE_TUPLE) ≤ 4072) (hfree : s.freeList ≠ []) :
    CalmLoop heap s f row := by
  have hbytes : TablePage.getNextPageId (s.bytes f) = INVALID_PAGE_ID := by
    rw [bytes_of_lookup hl]
    exact hlast
  -- A free frame is taken before a victim is looked for.
  have htaken : ∀ q target s₁, s.newPage = .ok (some (q, target), s₁) →
      target ∈ s.freeList := by
    intro q target s₁ hnew
    rcases newPage_inversion hnew with ⟨hnone, _⟩ | ⟨_, _, _, _, _, heq, hpick, _⟩
    · cases hnone
    · cases heq
      rcases pickFrame_cases hpick with ⟨rest, heq, _⟩ | ⟨hnil, _⟩
      · rw [heq]
        exact List.mem_cons_self ..
      · exact absurd hnil hfree
  intro s' g row' hpasses
  cases hpasses with
  | here =>
      intro _ _ q target s₁ hnew ps hchain hmem
      have hid := (h.frames.free_frame (htaken q target s₁ hnew)).1
      rw [hid] at hmem
      exact ne_INVALID_of_nonneg (hchain.valid _ hmem) rfl
  | next _ hnext hvisit hrest =>
      rcases nextPage_inversion hnext with ⟨hne, _⟩ | ⟨_, ⟨_, heq⟩ | ⟨q, target, s₁, hnew, _⟩⟩
      · exact absurd hbytes hne
      · cases heq
      · have hft : f ≠ target := by
          rintro rfl
          exact h.frames.free_not_resident (htaken q f s₁ hnew) p hl
        have hm := h.made hnew
        have hl₁ := hm.lookup_other p f hl hft
        rcases emptyPage_inserts hrow htwo q p with ⟨_, _, hinsert, _, _⟩
        rw [nextPage_new h hm hnew hl hft hbytes hinsert] at hnext
        simp only [Except.ok.injEq, Prod.mk.injEq, Option.some.injEq] at hnext
        rcases hnext with ⟨⟨rfl, rfl⟩, rfl⟩
        have hpool : PoolInv (linkedPool heap.schema s₁ f p target q row) :=
          ((hm.pool.write hm.lookup _).write (p := p) hl₁ _).write (p := q) hm.lookup _
        have hroom := linkedPool_room hm.pool.frames hl₁ hm.lookup hrow htwo
        rcases visit_resident (p := q) hpool.frames hm.lookup with ⟨r, hvisit', _⟩
        rw [hvisit'] at hvisit
        simp only [Except.ok.injEq, Prod.mk.injEq, Option.some.injEq] at hvisit
        rcases hvisit with ⟨rfl, rfl⟩
        -- The new page holds one copy and has room for the second.
        refine calmLoop_of_room ?_ s' g row' hrest
        exact hroom

/-- Two rows over a pool of two frames. -/
theorem page_links_kept_two_rows :
    ∃ s₀ s : BufferPoolManager 2,
      create (BufferPoolManager.init 2 DiskManager.fresh) charSchema = .ok (charHeap, s₀) ∧
      Run (CalmStep charHeap) s₀ [charRow 2047, charRow 2000] s ∧
      ∃ ps, DoublyLinked (behind s) (before s) INVALID_PAGE_ID charHeap.firstPageId ps := by
  have hpool := init_poolInv 2 DiskManager.fresh_inv
  have htwo : (BufferPoolManager.init 2 DiskManager.fresh).freeList = 0 :: 1 :: [] := by decide
  rcases sample_first htwo with ⟨s₀, s₁, hcreate, htakes, hstep₁, hfilled⟩
  rcases hfilled.second with ⟨s₂, hstep₂, _⟩
  rcases hstep₁ with ⟨hrow₁, _, _, fuel₁, _, _, hok₁⟩
  rcases hstep₂ with ⟨hrow₂, _, _, fuel₂, _, _, hok₂⟩
  have hcalm₁ : Calm charHeap s₀ (charRow 2047) := by
    intro f s hvisit
    rcases create_linkedPages hpool hcreate with ⟨q, hlinked⟩
    rcases visit_fetch hvisit with ⟨s', hfetch, rfl⟩
    have horder : InOrder s₀ := ⟨hlinked.pool.frames, hlinked.pool.disk⟩
    exact calmLoop_of_room ((visited_room_iff (horder.visited hfetch false)).mpr htakes)
  have hcalm₂ : Calm charHeap s₁ (charRow 2000) := by
    intro f s hvisit
    rcases hfilled.visit with ⟨r, hvisit', hfilled', _⟩
    have hsame := hvisit.symm.trans hvisit'
    cases hsame
    refine calmLoop_of_free hfilled'.pool hfilled'.lookup hfilled'.first.next_eq hrow₂ ?_ ?_
    · rw [charRow_size (by decide)]
      decide
    · rw [hfilled'.free_eq]
      exact List.cons_ne_nil _ _
  have hrun : Run (CalmStep charHeap) s₀ [charRow 2047, charRow 2000] s₂ :=
    Run.cons ⟨hcalm₁, hrow₁, fuel₁, _, _, hok₁⟩
      (Run.cons ⟨hcalm₂, hrow₂, fuel₂, _, _, hok₂⟩ (Run.nil _))
  exact ⟨s₀, s₂, hcreate, hrun, (page_links_kept hpool hcreate hrun).1⟩

/-- A third row takes the frame of page 0.  Zeros are written for the page, and so it is behind
itself. -/
theorem third_page_closes_cycle :
    ∃ s₀ s : BufferPoolManager 2,
      create (BufferPoolManager.init 2 DiskManager.fresh) charSchema = .ok (charHeap, s₀) ∧
      Run (InsertStep charHeap) s₀ [charRow 2047, charRow 2000, charRow 2000] s ∧
      ¬∃ ps, Leads (behind s) INVALID_PAGE_ID charHeap.firstPageId ps := by
  have htwo : (BufferPoolManager.init 2 DiskManager.fresh).freeList = 0 :: 1 :: [] := by decide
  rcases sample_first htwo with ⟨s₀, s₁, hcreate, _, hstep₁, hfilled⟩
  rcases hfilled.second with ⟨s₂, hstep₂, hpages⟩
  rcases hpages.third_evicts with ⟨s₃, ⟨fuel₃, hok₃⟩, hzero⟩
  rcases hstep₁ with ⟨hrow₁, _, _, fuel₁, _, _, hok₁⟩
  rcases hstep₂ with ⟨hrow₂, _, _, fuel₂, _, _, hok₂⟩
  have hself : behind s₃ 0 = 0 := by
    rw [behind, hzero, TablePage.getNextPageId, Buf.u32_zero]
    decide
  refine ⟨s₀, s₃, hcreate, Run.cons ⟨hrow₁, fuel₁, _, _, hok₁⟩
    (Run.cons ⟨hrow₂, fuel₂, _, _, hok₂⟩ (Run.cons ⟨hrow₂, fuel₃, _, _, hok₃⟩ (Run.nil _))), ?_⟩
  rintro ⟨ps, hleads⟩
  exact Leads.not_self hself (by decide) hleads

end TableHeap
end MiniSQL
