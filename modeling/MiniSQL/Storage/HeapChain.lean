import MiniSQL.Buffer.Resident
import MiniSQL.Page.SlotMapRuns
import MiniSQL.Storage.TableHeap

/-!
# HeapChain — the pages of a heap and its live tuples

While nothing is evicted the pages of a heap are resident and linked by their next page ids.
`Chain` lists their frames; `liveTuples` is what `GetTuple` finds on them.
-/

namespace MiniSQL

open Lib

/-! ## Live tuples of a page -/

namespace TablePage

variable {schema : Schema} {p : PageId} {m : Mem} {es : List Entry}

/-- The tuples `GetTuple` reads on a page, with their ids, in slot order. -/
def liveTuples (m : Mem) (schema : Schema) : List (RowId × List Field) :=
  (List.range (getTupleCount m)).filterMap fun i =>
    match getTuple m ⟨⟨getTablePageId m, UInt32.ofNat i⟩, []⟩ schema with
    | .ok (true, row) => some (⟨getTablePageId m, UInt32.ofNat i⟩, row.fields)
    | _ => none

/-- The live entry of slot `i`. -/
def liveEntry (p : PageId) (es : List Entry) (i : Nat) : Option (RowId × List Field) :=
  match es[i]? with
  | some ⟨row, false⟩ => some (⟨p, UInt32.ofNat i⟩, row.fields)
  | _ => none

theorem Represents.liveTuples_eq (h : Represents schema p m es) (hp : p ≠ INVALID_PAGE_ID) :
    liveTuples m schema = (List.range es.length).filterMap (liveEntry p es) := by
  rw [liveTuples, h.count, h.pageId]
  refine List.filterMap_congr fun i hi => ?_
  have hlt := List.mem_range.mp hi
  have hslot : (UInt32.ofNat i).toNat = i :=
    UInt32.toNat_ofNat_of_lt' (lt_trans hlt h.length_lt)
  have hrid : (⟨p, UInt32.ofNat i⟩ : RowId) ≠ INVALID_ROWID :=
    fun heq => hp (congrArg RowId.pageId heq)
  have hread := slot_cases es (UInt32.ofNat i).toNat
  simp only [liveEntry]
  rcases hread with hnone | ⟨row, he⟩ | ⟨row, he⟩
  · rw [h.getTuple_none hrid hnone]
    rw [hslot] at hnone
    simp [hnone]
  · rw [h.getTuple_marked hrid he]
    rw [hslot] at he
    simp [he]
  · rw [h.getTuple_live hrid he]
    rw [hslot] at he
    simp [he]

theorem liveEntries_append (p : PageId) (es : List Entry) (row : Row) :
    (List.range (es ++ [(⟨row, false⟩ : Entry)]).length).filterMap
        (liveEntry p (es ++ [⟨row, false⟩])) =
      (List.range es.length).filterMap (liveEntry p es) ++
        [(⟨p, UInt32.ofNat es.length⟩, row.fields)] := by
  have hold : ∀ i ∈ List.range es.length,
      liveEntry p (es ++ [⟨row, false⟩]) i = liveEntry p es i := by
    intro i hi
    rw [liveEntry, liveEntry, List.getElem?_append_left (List.mem_range.mp hi)]
  have hnew : liveEntry p (es ++ [⟨row, false⟩]) es.length =
      some (⟨p, UInt32.ofNat es.length⟩, row.fields) := by
    simp [liveEntry]
  calc
    (List.range (es ++ [(⟨row, false⟩ : Entry)]).length).filterMap
        (liveEntry p (es ++ [⟨row, false⟩]))
      = (List.range es.length).filterMap (liveEntry p (es ++ [⟨row, false⟩])) ++
          [es.length].filterMap (liveEntry p (es ++ [⟨row, false⟩])) := by
        rw [List.length_append, List.length_singleton, List.range_succ, List.filterMap_append]
    _ = (List.range es.length).filterMap (liveEntry p es) ++
          [(⟨p, UInt32.ofNat es.length⟩, row.fields)] := by
        rw [List.filterMap_congr hold, List.filterMap_cons, hnew, List.filterMap_nil]

/-- The ids on a page name the page and a slot below the count. -/
theorem mem_liveEntries {rid : RowId} {fields : List Field}
    (h : (rid, fields) ∈ (List.range es.length).filterMap (liveEntry p es)) :
    rid.pageId = p ∧ ∃ i, i < es.length ∧ rid.slotNum = UInt32.ofNat i := by
  rcases List.mem_filterMap.mp h with ⟨i, hi, heq⟩
  unfold liveEntry at heq
  split at heq
  · simp only [Option.some.injEq, Prod.mk.injEq] at heq
    rw [← heq.1]
    exact ⟨rfl, i, List.mem_range.mp hi, rfl⟩
  · cases heq

theorem getNextPageId_congr {m' : Mem} (h : ∀ j, j < 16 → m' j = m j) :
    getNextPageId m' = getNextPageId m := by
  rw [getNextPageId, getNextPageId, Mem.u32_congr fun j _ h2 => h j (by omega)]

/-- A new page has no next page. -/
theorem getNextPageId_init (m : Mem) (p prev : PageId) :
    getNextPageId (init m p prev) = INVALID_PAGE_ID := by
  simp only [getNextPageId, init, setTupleCount, setFreeSpacePointer, setNextPageId]
  rw [Mem.u32_setU32_ne (by omega), Mem.u32_setU32_ne (by omega), Mem.u32_setU32_of_lt (by decide)]
  rfl

theorem getNextPageId_set (m : Mem) (q : PageId) : getNextPageId (setNextPageId m q) = q := by
  rw [getNextPageId, setNextPageId, Mem.u32_setU32_of_lt q.toUInt32.toNat_lt]
  exact pageId_word q

end TablePage

/-! ## The chain -/

namespace TableHeap

open BufferPoolManager

variable {n : Nat} {s s' s₁ : BufferPoolManager n} {f g l : Fin n} {fs : List (Fin n)}
variable {p q : PageId} {schema : Schema} {row : Row}

/-- The frames of the pages from page `p` on, up to the one without a next page. -/
inductive Chain (s : BufferPoolManager n) : PageId → List (Fin n) → Prop
  | last {p : PageId} {f : Fin n} : s.pageTable.lookup p = some f →
      TablePage.getNextPageId (s.bytes f) = INVALID_PAGE_ID → Chain s p [f]
  | cons {p : PageId} {f : Fin n} {fs : List (Fin n)} : s.pageTable.lookup p = some f →
      TablePage.getNextPageId (s.bytes f) ≠ INVALID_PAGE_ID →
      Chain s (TablePage.getNextPageId (s.bytes f)) fs → Chain s p (f :: fs)

/-- The live tuples of the pages in these frames. -/
def liveTuples (schema : Schema) (s : BufferPoolManager n) (fs : List (Fin n)) :
    List (RowId × List Field) :=
  fs.flatMap fun f => TablePage.liveTuples (s.bytes f) schema

/-- A chain whose pages hold rows of the schema, in a pool that is in order. -/
structure ChainInv (schema : Schema) (s : BufferPoolManager n) (p : PageId) (fs : List (Fin n)) :
    Prop where
  pool : PoolInv s
  chain : Chain s p fs
  pages : ∀ f ∈ fs, ∃ es, TablePage.Represents schema (s.pages f).pageId (s.bytes f) es

theorem Chain.head (h : Chain s p (f :: fs)) : s.pageTable.lookup p = some f := by
  cases h with
  | last hl _ => exact hl
  | cons hl _ _ => exact hl

theorem Chain.unique {gs : List (Fin n)} (h : Chain s p fs) (h' : Chain s p gs) : fs = gs := by
  induction h generalizing gs with
  | last hl hnext =>
      cases h' with
      | last hl' _ =>
          rw [hl] at hl'
          rw [Option.some.inj hl']
      | cons hl' hnext' _ =>
          rw [hl] at hl'
          rw [← Option.some.inj hl'] at hnext'
          exact absurd hnext hnext'
  | cons hl hnext _ ih =>
      cases h' with
      | last hl' hnext' =>
          rw [hl] at hl'
          rw [← Option.some.inj hl'] at hnext'
          exact absurd hnext' hnext
      | cons hl' hnext' hrest' =>
          rw [hl] at hl'
          have hf := Option.some.inj hl'
          subst hf
          rw [ih hrest']

/-- Every frame of a chain starts a chain that is not longer. -/
theorem Chain.suffix (h : Chain s p fs) (hf : f ∈ fs) :
    ∃ q gs, s.pageTable.lookup q = some f ∧ Chain s q gs ∧ gs.length ≤ fs.length := by
  induction h with
  | @last p g hl hnext =>
      rw [List.mem_singleton.mp hf]
      exact ⟨p, [g], hl, Chain.last hl hnext, le_refl _⟩
  | @cons p g gs hl hnext hrest ih =>
      rcases List.mem_cons.mp hf with rfl | hf
      · exact ⟨p, _, hl, Chain.cons hl hnext hrest, le_refl _⟩
      · rcases ih hf with ⟨q, gs', hq, hchain, hle⟩
        refine ⟨q, gs', hq, hchain, ?_⟩
        rw [List.length_cons]
        omega

/-- No page stands twice on a chain: the two rests would have different lengths. -/
theorem Chain.nodup (hinv : FrameInv s) (h : Chain s p fs) : fs.Nodup := by
  induction h with
  | last _ _ =>
      exact List.nodup_singleton _
  | @cons p f fs hl hnext hrest ih =>
      refine List.nodup_cons.mpr ⟨fun hmem => ?_, ih⟩
      rcases hrest.suffix hmem with ⟨q, gs, hq, hchain, hle⟩
      have hpq := hinv.tableInv.page_eq hl hq
      subst hpq
      have heq := (Chain.cons hl hnext hrest).unique hchain
      rw [← heq, List.length_cons] at hle
      omega

theorem Chain.resident (h : Chain s p fs) (hf : f ∈ fs) : ∃ q, s.pageTable.lookup q = some f := by
  rcases h.suffix hf with ⟨q, _, hq, _, _⟩
  exact ⟨q, hq⟩

/-- The page in a frame of a chain has an id. -/
theorem ChainInv.pageId_valid (h : ChainInv schema s p fs) (hf : f ∈ fs) :
    (s.pages f).pageId ≠ INVALID_PAGE_ID ∧ s.pageTable.lookup (s.pages f).pageId = some f := by
  rcases h.chain.resident hf with ⟨q, hq⟩
  rcases h.pool.frames.pageId hq with ⟨hvalid, hid⟩
  rw [hid]
  exact ⟨hvalid, hq⟩

theorem Chain.congr (h : Chain s p fs)
    (htable : ∀ p f, s.pageTable.lookup p = some f → s'.pageTable.lookup p = some f)
    (hnext : ∀ f ∈ fs, TablePage.getNextPageId (s'.bytes f) = TablePage.getNextPageId (s.bytes f)) :
    Chain s' p fs := by
  induction h with
  | @last p f hl hn =>
      refine Chain.last (htable p f hl) ?_
      rw [hnext f (by simp), hn]
  | @cons p f fs hl hn _ ih =>
      have hf := hnext f (by simp)
      refine Chain.cons (htable p f hl) (by rw [hf]; exact hn) ?_
      rw [hf]
      exact ih fun g hg => hnext g (by simp [hg])

theorem bytes_congr (h : SameStore s s') (f : Fin n) : s'.bytes f = s.bytes f := by
  rw [bytes, bytes, h.data f]

/-- Pins and unpins do not change the chain. -/
theorem ChainInv.same (h : ChainInv schema s p fs) (hpool : PoolInv s') (hsame : SameStore s s') :
    ChainInv schema s' p fs := by
  refine ⟨hpool, h.chain.congr (fun p f hl => ?_) fun f _ => ?_, fun f hf => ?_⟩
  · rw [hsame.table, hl]
  · rw [bytes_congr hsame]
  · rw [hsame.pageId f, bytes_congr hsame f]
    exact h.pages f hf

/-- Others used the pool without evicting: resident pages stay, with their bytes. -/
structure Keeps (s s' : BufferPoolManager n) : Prop where
  pool : PoolInv s'
  resident : ∀ p f, s.pageTable.lookup p = some f →
    s'.pageTable.lookup p = some f ∧ (s'.pages f).data = (s.pages f).data

theorem Keeps.chainInv (hk : Keeps s s') (h : ChainInv schema s p fs) :
    ChainInv schema s' p fs := by
  have hbytes : ∀ f ∈ fs, s'.bytes f = s.bytes f := by
    intro f hf
    rcases h.chain.resident hf with ⟨q, hq⟩
    rw [bytes, bytes, (hk.resident q f hq).2]
  refine ⟨hk.pool, h.chain.congr (fun p f hl => (hk.resident p f hl).1) fun f hf => ?_,
    fun f hf => ?_⟩
  · rw [hbytes f hf]
  · rcases h.chain.resident hf with ⟨q, hq⟩
    have hid : (s'.pages f).pageId = (s.pages f).pageId := by
      rw [(hk.pool.frames.pageId (hk.resident q f hq).1).2, (h.pool.frames.pageId hq).2]
    rw [hid, hbytes f hf]
    exact h.pages f hf

/-! ## Adding a tuple -/

/-- `s'` is `s` with `row` added to the page in frame `f`, under the id `rid`. -/
structure Puts (schema : Schema) (s : BufferPoolManager n) (f : Fin n) (row : Row) (rid : RowId)
    (s' : BufferPoolManager n) : Prop where
  pool : PoolInv s'
  table : s'.pageTable = s.pageTable
  free : s'.freeList = s.freeList
  disk : s'.diskManager = s.diskManager
  pageId : ∀ g, (s'.pages g).pageId = (s.pages g).pageId
  other : ∀ g, g ≠ f → s'.bytes g = s.bytes g
  next : TablePage.getNextPageId (s'.bytes f) = TablePage.getNextPageId (s.bytes f)
  page : ∃ es, TablePage.Represents schema (s.pages f).pageId (s.bytes f) es ∧
    TablePage.Represents schema (s.pages f).pageId (s'.bytes f) (es ++ [⟨row, false⟩]) ∧
    rid = ⟨(s.pages f).pageId, UInt32.ofNat es.length⟩

theorem Puts.of_same {rid : RowId} (h : Puts schema s₁ f row rid s') (hsame : SameStore s s₁) :
    Puts schema s f row rid s' := by
  refine ⟨h.pool, h.table.trans hsame.table, h.free.trans hsame.free, h.disk.trans hsame.disk,
    fun g => (h.pageId g).trans (hsame.pageId g),
    fun g hg => (h.other g hg).trans (bytes_congr hsame g), ?_, ?_⟩
  · rw [h.next, bytes_congr hsame]
  · rcases h.page with ⟨es, h1, h2, h3⟩
    rw [hsame.pageId, bytes_congr hsame] at h1
    rw [hsame.pageId] at h2 h3
    exact ⟨es, h1, h2, h3⟩

theorem Puts.chain {rid : RowId} (h : Puts schema s g row rid s') (hc : Chain s p fs) :
    Chain s' p fs := by
  refine hc.congr (fun p f hl => by rw [h.table, hl]) fun f _ => ?_
  by_cases hf : f = g
  · rw [hf, h.next]
  · rw [h.other f hf]

theorem Puts.chainInv {rid : RowId} (h : Puts schema s g row rid s')
    (hc : ChainInv schema s p fs) : ChainInv schema s' p fs := by
  refine ⟨h.pool, h.chain hc.chain, fun f hf => ?_⟩
  rw [h.pageId f]
  by_cases hfg : f = g
  · subst hfg
    rcases h.page with ⟨es, _, hrep, _⟩
    exact ⟨_, hrep⟩
  · rw [h.other f hfg]
    exact hc.pages f hf

/-- The live tuples are the earlier ones and one more. -/
theorem Puts.live {rid : RowId} (h : Puts schema s g row rid s') (hc : ChainInv schema s p fs)
    (hg : g ∈ fs) :
    (liveTuples schema s' fs).Perm ((rid, row.fields) :: liveTuples schema s fs) := by
  have hnodup := hc.chain.nodup hc.pool.frames
  rcases List.append_of_mem hg with ⟨pre, post, rfl⟩
  rcases List.nodup_append.mp hnodup with ⟨_, hpost, hdisj⟩
  have hpre : ∀ f ∈ pre, f ≠ g := fun f hf => hdisj f hf g (by simp)
  have hpost' : ∀ f ∈ post, f ≠ g := by
    intro f hf heq
    rw [heq] at hf
    exact (List.nodup_cons.mp hpost).1 hf
  have hsame : ∀ gs : List (Fin n), (∀ f ∈ gs, f ≠ g) →
      liveTuples schema s' gs = liveTuples schema s gs := by
    intro gs hgs
    refine List.flatMap_congr fun f hf => ?_
    rw [h.other f (hgs f hf)]
  have hpage : TablePage.liveTuples (s'.bytes g) schema =
      TablePage.liveTuples (s.bytes g) schema ++ [(rid, row.fields)] := by
    have hvalid := (hc.pageId_valid hg).1
    rcases h.page with ⟨es, hold, hnew, hrid⟩
    rw [hnew.liveTuples_eq hvalid, hold.liveTuples_eq hvalid, TablePage.liveEntries_append, hrid]
  have hsplit : ∀ t : BufferPoolManager n, liveTuples schema t (pre ++ g :: post) =
      liveTuples schema t pre ++ (TablePage.liveTuples (t.bytes g) schema ++
        liveTuples schema t post) := by
    intro t
    simp [liveTuples]
  -- Only the page in frame `g` changes, and its new tuple comes last on it.
  calc liveTuples schema s' (pre ++ g :: post)
      = liveTuples schema s' pre ++ (TablePage.liveTuples (s'.bytes g) schema ++
          liveTuples schema s' post) := hsplit s'
    _ = (liveTuples schema s pre ++ TablePage.liveTuples (s.bytes g) schema) ++
          (rid, row.fields) :: liveTuples schema s post := by
        rw [hsame pre hpre, hsame post hpost', hpage]
        simp
    List.Perm _ ((rid, row.fields) :: ((liveTuples schema s pre ++
          TablePage.liveTuples (s.bytes g) schema) ++ liveTuples schema s post)) :=
        List.perm_middle
    _ = (rid, row.fields) :: liveTuples schema s (pre ++ g :: post) := by
        rw [hsplit, List.append_assoc]

/-- The id was not in use. -/
theorem Puts.fresh {rid : RowId} (h : Puts schema s g row rid s') (hc : ChainInv schema s p fs) :
    rid ∉ (liveTuples schema s fs).map Prod.fst := by
  intro hmem
  rcases List.mem_map.mp hmem with ⟨⟨rid', fields⟩, hlive, rfl⟩
  rcases List.mem_flatMap.mp hlive with ⟨f, hf, hlive⟩
  rcases hc.pageId_valid hf with ⟨hvalid, hl⟩
  rcases h.page with ⟨es, hrep, _, hrid⟩
  -- The page of the id decides the frame, and the slot is past the entries of that page.
  have hpage : (s.pages f).pageId = (s.pages g).pageId := by
    rcases hc.pages f hf with ⟨es', hrep'⟩
    rw [hrep'.liveTuples_eq hvalid] at hlive
    rw [← (TablePage.mem_liveEntries hlive).1]
    exact congrArg RowId.pageId hrid
  have hfg : f = g := hc.pool.frames.inj hvalid rfl hpage.symm
  subst hfg
  rw [hrep.liveTuples_eq hvalid] at hlive
  rcases (TablePage.mem_liveEntries hlive).2 with ⟨i, hi, hslot⟩
  have hslots : UInt32.ofNat i = UInt32.ofNat es.length := by
    rw [← hslot]
    exact congrArg RowId.slotNum hrid
  have hnat := congrArg UInt32.toNat hslots
  have hlen := hrep.length_lt
  rw [UInt32.toNat_ofNat_of_lt' (lt_trans hi hlen), UInt32.toNat_ofNat_of_lt' hlen] at hnat
  omega

/-! ## Adding a page -/

/-- `s'` is `s` with the page `q`, which holds `row` only, in frame `g`, linked behind the page
in frame `l`. -/
structure Grows (schema : Schema) (s : BufferPoolManager n) (l : Fin n) (q : PageId) (g : Fin n)
    (row : Row) (s' : BufferPoolManager n) : Prop where
  pool : PoolInv s'
  fresh : s.pageTable.lookup q = none
  empty : ∀ p, s.pageTable.lookup p ≠ some g
  valid : q ≠ INVALID_PAGE_ID
  lookup_new : s'.pageTable.lookup q = some g
  lookup_other : ∀ p, p ≠ q → s'.pageTable.lookup p = s.pageTable.lookup p
  pageId_new : (s'.pages g).pageId = q
  pageId_other : ∀ f, f ≠ g → (s'.pages f).pageId = (s.pages f).pageId
  other : ∀ f, f ≠ g → f ≠ l → s'.bytes f = s.bytes f
  link : TablePage.getNextPageId (s.bytes l) = INVALID_PAGE_ID ∧
    TablePage.getNextPageId (s'.bytes l) = q
  kept : ∀ es, TablePage.Represents schema (s.pages l).pageId (s.bytes l) es →
    TablePage.Represents schema (s.pages l).pageId (s'.bytes l) es
  last : TablePage.getNextPageId (s'.bytes g) = INVALID_PAGE_ID
  page : TablePage.Represents schema q (s'.bytes g) [⟨row, false⟩]
  free : s.freeList = g :: s'.freeList
  disk : s.diskManager.allocatePage = .ok (q, s'.diskManager)

theorem Grows.of_same (h : Grows schema s₁ l q g row s') (hsame : SameStore s s₁) :
    Grows schema s l q g row s' := by
  have hb := bytes_congr hsame
  refine ⟨h.pool, ?_, ?_, h.valid, h.lookup_new, ?_, h.pageId_new, ?_, ?_, ?_, ?_, h.last, h.page,
    ?_, ?_⟩
  · rw [← hsame.table]
    exact h.fresh
  · rw [← hsame.table]
    exact h.empty
  · rw [← hsame.table]
    exact h.lookup_other
  · intro f hf
    rw [h.pageId_other f hf, hsame.pageId]
  · intro f hg hl
    rw [h.other f hg hl, hb]
  · rw [← hb l]
    exact h.link
  · rw [← hsame.pageId l, ← hb l]
    exact h.kept
  · rw [← hsame.free]
    exact h.free
  · rw [← hsame.disk]
    exact h.disk

theorem Grows.ne_new (h : Grows schema s l q g row s') (hl : s.pageTable.lookup p = some f) :
    p ≠ q ∧ f ≠ g := by
  constructor
  · rintro rfl
    rw [h.fresh] at hl
    cases hl
  · rintro rfl
    exact h.empty p hl

/-- The chain is one page longer. -/
theorem Grows.chain (h : Grows schema s l q g row s') (hc : Chain s p fs)
    (hlast : l ∈ fs) : Chain s' p (fs ++ [g]) := by
  have hnew : Chain s' q [g] := Chain.last h.lookup_new h.last
  induction hc with
  | @last p f hl hn =>
      rw [List.mem_singleton.mp hlast] at h
      have hp := (h.ne_new hl).1
      refine Chain.cons (by rw [h.lookup_other p hp, hl]) ?_ ?_
      · rw [h.link.2]
        exact h.valid
      · rw [h.link.2]
        exact hnew
  | @cons p f fs hl hn hrest ih =>
      rcases h.ne_new hl with ⟨hp, hg⟩
      -- Only the last page has no next page, so `f` is not the page that was linked.
      have hfl : f ≠ l := by
        rintro rfl
        exact hn h.link.1
      have hmem : l ∈ fs := by
        rcases List.mem_cons.mp hlast with heq | hmem
        · exact absurd heq.symm hfl
        · exact hmem
      have hb := h.other f hg hfl
      rw [List.cons_append]
      refine Chain.cons (by rw [h.lookup_other p hp, hl]) (by rw [hb]; exact hn) ?_
      rw [hb]
      exact ih hmem

theorem Grows.chainInv (h : Grows schema s l q g row s') (hc : ChainInv schema s p fs)
    (hlast : l ∈ fs) : ChainInv schema s' p (fs ++ [g]) := by
  refine ⟨h.pool, h.chain hc.chain hlast, fun f hf => ?_⟩
  rcases List.mem_append.mp hf with hf | hf
  · rcases hc.chain.resident hf with ⟨_, hl⟩
    have hg := (h.ne_new hl).2
    rcases hc.pages f hf with ⟨es, hrep⟩
    rw [h.pageId_other f hg]
    by_cases hfl : f = l
    · subst hfl
      exact ⟨es, h.kept es hrep⟩
    · rw [h.other f hg hfl]
      exact ⟨es, hrep⟩
  · rw [List.mem_singleton.mp hf, h.pageId_new]
    exact ⟨_, h.page⟩

/-- The new page adds one live tuple. -/
theorem Grows.live (h : Grows schema s l q g row s') (hc : ChainInv schema s p fs) :
    liveTuples schema s' (fs ++ [g]) = liveTuples schema s fs ++ [(⟨q, 0⟩, row.fields)] := by
  have hold : liveTuples schema s' fs = liveTuples schema s fs := by
    refine List.flatMap_congr fun f hf => ?_
    rcases hc.chain.resident hf with ⟨_, hl⟩
    have hg := (h.ne_new hl).2
    by_cases hfl : f = l
    · -- The link is in the header; the tuples of the page are the same.
      subst hfl
      rcases hc.pages f hf with ⟨es, hrep⟩
      have hvalid := (hc.pageId_valid hf).1
      rw [hrep.liveTuples_eq hvalid, (h.kept es hrep).liveTuples_eq hvalid]
    · rw [h.other f hg hfl]
  have hnew : TablePage.liveTuples (s'.bytes g) schema = [(⟨q, 0⟩, row.fields)] := by
    rw [h.page.liveTuples_eq h.valid]
    rfl
  calc
    liveTuples schema s' (fs ++ [g])
      = liveTuples schema s' fs ++ TablePage.liveTuples (s'.bytes g) schema := by
        simp [liveTuples]
    _ = liveTuples schema s fs ++ [(⟨q, 0⟩, row.fields)] := by rw [hold, hnew]

end TableHeap
end MiniSQL
