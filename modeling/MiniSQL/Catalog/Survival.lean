import MiniSQL.Catalog.Reopen
import MiniSQL.Catalog.IndexDirectory

/-!
# Survival — runs after which a catalog can be opened again

While a catalog has at most one table and one index on it, the pages of its record show what the
maps in memory say.  Each call keeps this, as long as no id is handed out twice, a table is dropped
only after its index, and the frames that `NewPage` takes are not those of a page of the record.
-/

namespace MiniSQL

open Lib BufferPoolManager

namespace CatalogManager

variable {n m : Nat} {c c' : CatalogManager n} {r : Record} {a : Str} {err : DbErr}
variable {s s' : BufferPoolManager n} {page : PageId × List UInt8} {p q : PageId} {f g : Fin n}

/-! ## The pages of a record -/

/-- A meta page is in use, and shows its bytes whatever the pool evicts. -/
structure Stands (s : BufferPoolManager n) (page : PageId × List UInt8) : Prop where
  valid : 0 ≤ page.1.toInt
  apart : page.1 ≠ CATALOG_META_PAGE_ID
  used : s.diskManager.isPageFree page.1 = false
  lasting : Lasting s page.1 fun d => Mem.Holds d.mem 0 page.2

/-- Nobody holds a frame, and the page of the catalog is in use. -/
structure Quiet (s : BufferPoolManager n) : Prop where
  pool : Holding s ∅
  frames : 0 < n
  used : s.diskManager.isPageFree CATALOG_META_PAGE_ID = false

/-- The pages of the catalog say what the record does. -/
structure Written (c : CatalogManager n) (r : Record) : Prop where
  quiet : Quiet c.bufferPoolManager
  catalogMeta : c.catalogMeta = r.catalogMeta
  wellFormed : r.WellFormed
  pages : ∀ page ∈ r.pages, Stands c.bufferPoolManager page

/-! ## Closing -/

theorem Record.catalogMeta_fits (r : Record) : r.catalogMeta.getSerializedSize ≤ PAGE_SIZE := by
  have hsize : ∀ (k : UInt32) (p : PageId), ((∅ : PageMap).insert k p).size = 1 := fun _ _ => rfl
  cases r with
  | empty =>
      simp [catalogMeta, CatalogMeta.newInstance, CatalogMeta.getSerializedSize, PAGE_SIZE]
  | table p t =>
      simp [catalogMeta, CatalogMeta.getSerializedSize, PAGE_SIZE, hsize]
  | index p t q x =>
      simp [catalogMeta, CatalogMeta.getSerializedSize, PAGE_SIZE, hsize]

/-- Once the catalog and the pool are destroyed, a catalog is constructed that has the maps of the
record. -/
theorem Written.reopens (h : Written c r) (hm : r.pages.length < m) :
    ∃ c₁, c.flushCatalogMetaPage = .ok (.success, c₁) ∧
      ∀ order, order.Perm c₁.bufferPoolManager.pageTable.keys →
        ∃ bpm c₂, c₁.bufferPoolManager.destroy order = .ok bpm ∧
          load (BufferPoolManager.init m (DiskManager.openFile bpm.diskManager.close)) = .ok c₂ ∧
          Records c₂ r := by
  have hpool := h.quiet.pool
  have hqueues := hpool.queueInv
  have hzero : (c.bufferPoolManager.pages ⟨0, h.quiet.frames⟩).pinCount = 0 := by
    rw [hpool.pins, if_neg (Finset.notMem_empty _)]
  have hcatalog : 0 ≤ Int32.toInt CATALOG_META_PAGE_ID := by decide
  rcases hqueues.fetchPage_ok (fun g => hpool.dirty_nonneg) hzero hcatalog with ⟨f, bpm₁, hfetch⟩
  have hloaded := hqueues.loaded hfetch
  have hfits : c.catalogMeta.getSerializedSize ≤ PAGE_SIZE := by
    rw [h.catalogMeta]
    exact r.catalogMeta_fits
  rcases flushCatalogMetaPage_fetched hfetch hloaded.lookup hfits with
    ⟨c₁, data, hflush, hwrite, hholds⟩
  have htable : TableInv (bpm₁.write f data) := fun x g => by
    rw [write_pageId]
    exact hloaded.queues.table x g
  refine ⟨c₁, hflush, fun order horder => ?_⟩
  have hres : ∀ x g, c₁.bufferPoolManager.pageTable.lookup x = some g → 0 ≤ x.toInt := by
    intro x g hx
    by_cases hxc : x = CATALOG_META_PAGE_ID
    · rw [hxc]
      exact hcatalog
    · rw [flushPage_pageTable hwrite] at hx
      exact (hpool.used x g (hloaded.resident x g hx hxc)).1
  rcases destroy_contents hres horder with ⟨bpm, hdestroy, hstores⟩
  -- Closing the file and opening it again changes nothing on disk.
  set dm := DiskManager.openFile bpm.diskManager.close with hdm
  have hdisk : ∀ x, stored dm x = stored bpm.diskManager x := fun x => rfl
  have hshown : Mem.Holds (stored dm CATALOG_META_PAGE_ID).mem 0 r.catalogMeta.encode := by
    have hpinned : (bpm₁.pages f).pinCount ≠ 0 := by
      rw [hloaded.frame_pins]
      exact Nat.succ_ne_zero _
    have hlast := (lasting_write_pinned (G := fun d => Mem.Holds d.mem 0 c.catalogMeta.encode)
      hloaded.lookup hpinned hholds).flushPage htable hcatalog hwrite
    rw [hdisk, hstores _ hcatalog, ← h.catalogMeta]
    exact hlast.shown
  have hpages : ∀ page ∈ r.pages, 0 ≤ page.1.toInt ∧
      Mem.Holds (stored dm page.1).mem 0 page.2 := by
    intro page hpage
    have hstands := h.pages page hpage
    have hlast := ((hstands.lasting.fetchPage hqueues hstands.valid hfetch).write_other
      hloaded.queues.table hloaded.lookup hstands.apart data).flushPage htable hstands.valid hwrite
    rw [hdisk, hstores _ hstands.valid]
    exact ⟨hstands.valid, hlast.shown⟩
  rcases load_record h.wellFormed hm hshown hpages with ⟨c₂, hload, hrecords⟩
  exact ⟨bpm, c₂, hdestroy, hload, hrecords⟩

theorem Written.survives (h : Written c r) (hmaps : Records c r) (hm : r.pages.length < m) :
    Survives c m := by
  rcases h.reopens hm with ⟨c₁, hflush, hopen⟩
  refine ⟨c₁, hflush, fun order horder => ?_⟩
  rcases hopen order horder with ⟨bpm, c₂, hdestroy, hload, hmaps'⟩
  exact ⟨bpm, c₂, hdestroy, hload, hmaps.sameAnswers hmaps'⟩

/-! ## The calls of the pool -/

/-- A page is made in a frame that does not hold the page. -/
theorem Stands.newPage (h : Stands s page) (hmade : Obtained s q f s')
    (hne : s.pageTable.lookup page.1 ≠ some f) : Stands s' page where
  valid := h.valid
  apart := h.apart
  used := hmade.stays_used h.valid h.used
  lasting := hmade.lasting _ _ h.valid (hmade.ne_of_used h.used) hne h.lasting

theorem Stands.write_other (h : Stands s page) (htab : TableInv s)
    (hl : s.pageTable.lookup q = some f) (hne : page.1 ≠ q) (data : PageData) :
    Stands (s.write f data) page where
  valid := h.valid
  apart := h.apart
  used := h.used
  lasting := h.lasting.write_other htab hl hne data

theorem Stands.unpinDirty (h : Stands s page) (htab : TableInv s) (q : PageId) :
    Stands (s.unpinPage q true).2 page where
  valid := h.valid
  apart := h.apart
  used := by
    rw [unpinPage_diskManager]
    exact h.used
  lasting := h.lasting.unpinDirty htab q

/-- A heap is made: one frame is taken and given back. -/
theorem create_holding {held : Finset (Fin n)} {heap : TableHeap} {schema : Schema}
    (h : Holding s held) (hok : TableHeap.create s schema = .ok (heap, s'))
    (hfresh : ∀ q g s₁, s.newPage = .ok (some (q, g), s₁) → g ∉ held) :
    heap.schema = schema ∧ Holding s' held ∧
      (∀ x, 0 ≤ x.toInt → s.diskManager.isPageFree x = false →
        s'.diskManager.isPageFree x = false) ∧
      ∀ x f, 0 ≤ x.toInt → s.diskManager.isPageFree x = false →
        s.pageTable.lookup x = some f → f ∈ held → s'.pageTable.lookup x = some f := by
  rcases bind_eq_ok.mp hok with ⟨⟨reply, s₁⟩, hnew, hok⟩
  rcases reply with _ | ⟨q, g⟩
  · cases hok
  · simp only [Except.ok.injEq, Prod.mk.injEq] at hok
    rcases hok with ⟨rfl, rfl⟩
    have hg := hfresh q g s₁ hnew
    rcases h.newPage hnew hg with ⟨hheld, hmade⟩
    have hwritten := hheld.write g (Buf.ofMem PAGE_SIZE (TablePage.init (s₁.bytes g) q 4096))
    have hback := hwritten.unpinPage (p := q) hmade.lookup (Finset.mem_insert_self g held) true
    rw [Finset.erase_insert hg] at hback
    -- The frame of the new page is none of the held ones, so their pages stay.
    refine ⟨rfl, hback, fun x hx hused => ?_, fun x f hx hused hl hf => ?_⟩
    · rw [unpinPage_diskManager]
      exact hmade.stays_used hx hused
    · rw [unpinPage_pageTable]
      refine (hmade.lookup_other x (hmade.ne_of_used hused) ?_ hx).trans hl
      rw [hl]
      rintro heq
      rw [Option.some.inj heq] at hf
      exact hg hf

/-! ## CreateTable -/

/-- A table was made, with its metadata on page `p`. -/
structure TableMade (c : CatalogManager n) (p : PageId) (t : TableMetadata)
    (c' : CatalogManager n) : Prop where
  quiet : Quiet c'.bufferPoolManager
  stands : Stands c'.bufferPoolManager (p, t.encode)
  tableId : t.tableId = c.catalogMeta.getNextTableId
  catalogMeta : c'.catalogMeta =
    { c.catalogMeta with tableMetaPages := c.catalogMeta.tableMetaPages.insert t.tableId p }
  tableNames : c'.tableNames = c.tableNames.insert t.tableName t.tableId
  tables : c'.tables = c.tables.insert t.tableId (some (infoOf t))
  indexNames : c'.indexNames = c.indexNames
  indexes : c'.indexes = c.indexes

theorem createTable_made {schema : Schema} {info : Option TableInfo}
    (h : Quiet c.bufferPoolManager) (hapart : Apart c.bufferPoolManager)
    (hok : c.createTable a schema = .ok (.success, info, c')) :
    ∃ p t, t.tableName = a ∧ TableMade c p t c' := by
  unfold createTable at hok
  split at hok
  · cases hok
  rcases bind_eq_ok.mp hok with ⟨⟨reply, bpm₁⟩, hnew, hok₁⟩
  rcases bind_eq_ok.mp hok₁ with ⟨⟨⟨root, heapSchema⟩, bpm₂⟩, hheap, hok₂⟩
  rcases bind_eq_ok.mp hok₂ with ⟨⟨p, f⟩, hreply, hok₃⟩
  rcases bind_eq_ok.mp hok₃ with ⟨⟨k, bytes⟩, hwrite, hok₄⟩
  cases hok₄
  rw [deref_eq_ok hreply] at hnew
  -- The page of the metadata is held while the heap is made.
  rcases h.pool.newPage hnew (Finset.notMem_empty f) with ⟨hheld, hmade⟩
  have hsingle : insert f (∅ : Finset (Fin n)) = {f} := rfl
  rw [hsingle] at hheld
  rcases create_holding hheld hheap fun q g s₁ hnew' => by
    rw [Finset.mem_singleton]
    exact h.pool.newPage_twice hapart hnew hnew' with ⟨hschema, hheld₂, hused, hkept⟩
  have hl : bpm₂.pageTable.lookup p = some f :=
    hkept p f hmade.valid hmade.now_used hmade.lookup (Finset.mem_singleton_self f)
  rcases TableMetadata.serializeTo_stores hwrite with ⟨hfits, _, rfl⟩
  have hpinned : (bpm₂.pages f).pinCount ≠ 0 := by
    rw [hheld₂.pins f, if_pos (Finset.mem_singleton_self f)]
    exact one_ne_zero
  have hcatalog : 0 ≤ Int32.toInt CATALOG_META_PAGE_ID := by decide
  set t : TableMetadata := ⟨c.catalogMeta.getNextTableId, a, root, schema⟩ with ht
  set bpm₃ := bpm₂.setBytes f ((bpm₂.bytes f).store 0 t.encode) with hbpm₃
  have hheld₃ : Holding bpm₃ {f} := hheld₂.write f _
  have hback := hheld₃.unpinPage (p := p) hl (Finset.mem_singleton_self f) true
  rw [Finset.erase_singleton] at hback
  have hmeta : Lasting bpm₃ p fun d => Mem.Holds d.mem 0 t.encode :=
    lasting_write_pinned hl hpinned (Buf.holds_ofMem_store _ hfits)
  -- The metadata is in the frame before the unpin, which marks it dirty.
  refine ⟨p, t, rfl, ⟨hback, h.frames, ?_⟩, ⟨hmade.valid, ?_, ?_, hmeta.unpinDirty hheld₃.table p⟩,
    rfl, rfl, rfl, ?_, rfl, rfl⟩
  · rw [unpinPage_diskManager]
    exact hused _ hcatalog (hmade.stays_used hcatalog h.used)
  · exact (hmade.ne_of_used h.used).symm
  · rw [unpinPage_diskManager]
    exact hused p hmade.valid hmade.now_used
  · have hsame : heapSchema = schema := hschema
    rw [hsame]
    rfl

/-- The pages and the maps of the catalog are those of the record. -/
structure Kept (c : CatalogManager n) (r : Record) : Prop extends Written c r where
  maps : Records c r

/-- The first table. -/
theorem TableMade.kept {t : TableMetadata} (hmade : TableMade c p t c') (h : Kept c .empty) :
    Kept c' (.table p t) where
  quiet := hmade.quiet
  catalogMeta := by
    rw [hmade.catalogMeta, h.catalogMeta]
    rfl
  wellFormed := trivial
  pages := by
    intro page hpage
    rw [List.mem_singleton.mp hpage]
    exact hmade.stands
  maps := by
    refine ⟨?_, ?_, ?_, ?_, ?_⟩
    · rw [hmade.catalogMeta, h.catalogMeta]
      rfl
    · rw [hmade.tableNames, h.maps.tableNames]
      rfl
    · rw [hmade.tables, h.maps.tables]
      rfl
    · rw [hmade.indexNames, h.maps.indexNames]
      rfl
    · rw [hmade.indexes, h.maps.indexes]
      rfl

/-! ## CreateIndex -/

/-- An index was made, with its metadata on page `q`. -/
structure IndexMade (c : CatalogManager n) (a : Str) (q : PageId) (x : IndexInfo)
    (c' : CatalogManager n) : Prop where
  quiet : Quiet c'.bufferPoolManager
  stands : Stands c'.bufferPoolManager (q, x.metaData.encode)
  others : ∀ page, Stands c.bufferPoolManager page →
    (∀ f bpm, c.bufferPoolManager.pickFrame = some (f, bpm) →
      c.bufferPoolManager.pageTable.lookup page.1 ≠ some f) →
    Stands c'.bufferPoolManager page ∧ page.1 ≠ q
  table : c.tableNames.lookup a = some x.metaData.tableId
  info : c.tables.lookup x.metaData.tableId = some (some x.tableInfo)
  made : IndexInfo.init x.metaData x.tableInfo = .ok x
  catalogMeta : c'.catalogMeta = { c.catalogMeta with
    indexMetaPages := c.catalogMeta.indexMetaPages.insert x.metaData.indexId q }
  tableNames : c'.tableNames = c.tableNames
  tables : c'.tables = c.tables
  indexNames : c'.indexNames = (c.indexNames.insert a ((c.indexNames.lookup a).getD ∅)).insert a
    (((c.indexNames.lookup a).getD ∅).insert x.metaData.indexName x.metaData.indexId)
  indexes : c'.indexes = c.indexes.insert x.metaData.indexId x

theorem createIndex_made {i : Str} {keys : { ks : List Str // ks.length < 2 ^ 32 }}
    (h : Quiet c.bufferPoolManager) (hok : c.createIndex a i keys = .ok (.success, c')) :
    ∃ q x, IndexMade c a q x c' := by
  unfold createIndex at hok
  split at hok
  · cases hok
  rename_i tableId hid
  simp only at hok
  split at hok
  · cases hok
  cases htable : c.tables.lookup tableId with
  | none =>
      simp only [tableAt, htable, deref, error_bind] at hok
      cases hok
  | some info =>
      simp only [tableAt, htable] at hok
      rcases bind_eq_ok.mp hok with ⟨tableInfo, hinfo, hok₁⟩
      rw [deref_eq_ok hinfo] at htable
      split at hok₁
      · cases hok₁
      · rename_i keyMap hkeys
        rcases bind_eq_ok.mp hok₁ with ⟨⟨reply, bpm₁⟩, hnew, hok₂⟩
        rcases bind_eq_ok.mp hok₂ with ⟨⟨q, f⟩, hreply, hok₃⟩
        rcases bind_eq_ok.mp hok₃ with ⟨⟨k, bytes⟩, hwrite, hok₄⟩
        rcases bind_eq_ok.mp hok₄ with ⟨x, hinit, hok₅⟩
        cases hok₅
        have hmade' : reply = some (q, f) := deref_eq_ok hreply
        rw [hmade'] at hnew
        rcases h.pool.newPage hnew (Finset.notMem_empty f) with ⟨hheld, hmade⟩
        have hsingle : insert f (∅ : Finset (Fin n)) = {f} := rfl
        rw [hsingle] at hheld
        -- The source unpins the page first and serializes into it afterwards.
        have hback := hheld.unpinPage hmade.lookup (Finset.mem_singleton_self f) true
        rw [Finset.erase_singleton] at hback
        set bpm₂ := (bpm₁.unpinPage q true).2 with hbpm₂
        have hl : bpm₂.pageTable.lookup q = some f := by
          rw [hbpm₂, unpinPage_pageTable]
          exact hmade.lookup
        have hdisk : bpm₂.diskManager = bpm₁.diskManager := unpinPage_diskManager ..
        have hcatalog : 0 ≤ Int32.toInt CATALOG_META_PAGE_ID := by decide
        rcases IndexMetadata.serializeTo_stores hwrite with ⟨hfits, _, rfl⟩
        have hx : x.metaData = ⟨c.catalogMeta.getNextIndexId, i, tableId, keyMap.val,
            lt_of_eq_of_lt keyMap.2 keys.2⟩ ∧ x.tableInfo = tableInfo := by
          rcases bind_eq_ok.mp hinit with ⟨columns, _, hx⟩
          rw [← Except.ok.inj hx]
          exact ⟨rfl, rfl⟩
        rw [← hx.1] at hfits hinit ⊢
        rw [← hx.2] at hinit htable
        have hid' : c.tableNames.lookup a = some x.metaData.tableId := by rw [hid, hx.1]
        have hinfo' : c.tables.lookup x.metaData.tableId = some (some x.tableInfo) := by
          rw [hx.1]
          exact htable
        set bytes := (bpm₂.bytes f).store 0 x.metaData.encode with hbytes
        have hmeta : Lasting (bpm₂.setBytes f bytes) q
            fun d => Mem.Holds d.mem 0 x.metaData.encode := by
          refine lasting_of_held (f := f) hl (fun _ => ?_) ?_
          · exact (write_isDirty ..).trans (unpinPage_isDirty hmade.lookup)
          · exact (write_contents_self hl _).symm ▸ Buf.holds_ofMem_store _ hfits
        refine ⟨q, x, ⟨hback.write f _, h.frames, ?_⟩,
          ⟨hmade.valid, (hmade.ne_of_used h.used).symm, ?_, hmeta⟩, fun page hpage hpick => ?_,
          hid', hinfo', hinit, ?_, rfl, rfl, ?_, ?_⟩
        · exact hdisk ▸ hmade.stays_used hcatalog h.used
        · exact hdisk ▸ hmade.now_used
        · -- Another page stands as long as the index did not take its frame.
          have hne := hmade.ne_of_used hpage.used
          have hframe : c.bufferPoolManager.pageTable.lookup page.1 ≠ some f := by
            rcases newPage_inversion hnew with ⟨hnone, _⟩ | ⟨_, _, s₁, _, _, heq, hpicked, _⟩
            · cases hnone
            · cases heq
              exact hpick f s₁ hpicked
          exact ⟨((hpage.newPage hmade hframe).unpinDirty hheld.table q).write_other hback.table hl
            hne _, hne⟩
        · rw [hx.1]
        · rw [hx.1]
        · rw [hx.1]

theorem lookup_singleton_self {α : Type} {β : Type} [DecidableEq α] (k : α) (v : β) :
    (AList.singleton (β := fun _ => β) k v).lookup k = some v :=
  AList.lookup_insert (β := fun _ => β) ∅

theorem lookup_singleton {α : Type} {β : Type} [DecidableEq α] {k k' : α} {v v' : β}
    (h : (AList.singleton (β := fun _ => β) k v).lookup k' = some v') : k' = k ∧ v' = v := by
  have hinsert : AList.singleton (β := fun _ => β) k v = AList.insert k v ∅ := rfl
  rw [hinsert] at h
  by_cases hk : k' = k
  · rw [hk, AList.lookup_insert] at h
    exact ⟨hk, (Option.some.inj h).symm⟩
  · rw [AList.lookup_insert_ne hk] at h
    cases h

/-- The first index of the only table. -/
theorem IndexMade.kept {t : TableMetadata} {x : IndexInfo} (hmade : IndexMade c a q x c')
    (h : Kept c (.table p t))
    (hpick : ∀ f bpm, c.bufferPoolManager.pickFrame = some (f, bpm) →
      c.bufferPoolManager.pageTable.lookup p ≠ some f) :
    Kept c' (.index p t q x) := by
  have hname := hmade.table
  rw [h.maps.tableNames] at hname
  rcases lookup_singleton hname with ⟨rfl, hid⟩
  have hinfo := hmade.info
  rw [h.maps.tables] at hinfo
  have hinfo' : x.tableInfo = infoOf t := by
    have hsome := (lookup_singleton hinfo).2
    exact Option.some.inj hsome
  have hwf : Record.WellFormed (.index p t q x) := by
    refine ⟨?_, hid, hinfo' ▸ hmade.made⟩
    exact (hmade.others _ (h.pages _ List.mem_cons_self) hpick).2
  have hcatalog : c'.catalogMeta = (Record.index p t q x).catalogMeta := by
    rw [hmade.catalogMeta, h.catalogMeta]
    rfl
  refine ⟨⟨hmade.quiet, hcatalog, hwf, fun page hpage => ?_⟩, hcatalog, ?_, ?_, ?_, ?_⟩
  · rcases List.mem_cons.mp hpage with rfl | hpage
    · exact (hmade.others _ (h.pages _ List.mem_cons_self) hpick).1
    · rw [List.mem_singleton.mp hpage]
      exact hmade.stands
  · rw [hmade.tableNames, h.maps.tableNames]
    rfl
  · rw [hmade.tables, h.maps.tables]
    rfl
  · rw [hmade.indexNames, h.maps.indexNames, AList.insert_insert]
    rfl
  · rw [hmade.indexes, h.maps.indexes]
    rfl

/-! ## DropTable and DropIndex -/

theorem Quiet.deletePage {done : Bool} (h : Quiet s) (hp : 0 ≤ p.toInt)
    (hne : p ≠ CATALOG_META_PAGE_ID) (hok : s.deletePage p = .ok (done, s')) :
    Quiet s' ∧ ∀ page, Stands s page → page.1 ≠ p → Stands s' page := by
  rcases h.pool.deletePage hp hok with ⟨hpool, hfree, hlasting⟩
  refine ⟨⟨hpool, h.frames, ?_⟩, fun page hpage hpagep => ?_⟩
  · rw [hfree _ (by decide) hne.symm]
    exact h.used
  · refine ⟨hpage.valid, hpage.apart, ?_, hlasting _ _ hpage.valid hpagep hpage.lasting⟩
    rw [hfree _ hpage.valid hpagep]
    exact hpage.used

theorem erase_singleton {α : Type} {β : Type} [DecidableEq α] (k : α) (v : β) :
    (AList.singleton (β := fun _ => β) k v).erase k = ∅ := by
  apply AList.ext
  show List.kerase k [(⟨k, v⟩ : Sigma fun _ => β)] = []
  exact List.kerase_cons_eq rfl

theorem erase_insert_empty (k : UInt32) (p : PageId) :
    ((∅ : PageMap).insert k p).erase k = ∅ := by
  refine Std.ExtTreeMap.ext_getElem? fun k' => ?_
  simp

/-- The only table is dropped. -/
theorem dropTable_kept {t : TableMetadata} (h : Kept c (.table p t))
    (hok : c.dropTable a = .ok (.success, c')) : Kept c' .empty := by
  unfold dropTable at hok
  split at hok
  · cases hok
  · rename_i tableId hname
    rcases bind_eq_ok.mp hok with ⟨⟨done, bpm⟩, hdelete, hok₁⟩
    cases hok₁
    rw [h.maps.tableNames] at hname
    rcases lookup_singleton hname with ⟨rfl, rfl⟩
    have hpage := h.pages _ List.mem_cons_self
    have hp : c.catalogMeta.tableMetaPages.getD t.tableId 0 = p := by
      rw [h.catalogMeta]
      exact Std.ExtTreeMap.getD_insert_self
    rw [hp] at hdelete
    -- Nothing else is on record, so only the catalog page has to survive the deletion.
    rcases h.quiet.deletePage hpage.valid hpage.apart hdelete with ⟨hquiet, _⟩
    have hcatalog : CatalogMeta.mk (c.catalogMeta.tableMetaPages.erase t.tableId)
        c.catalogMeta.indexMetaPages = Record.empty.catalogMeta := by
      rw [h.catalogMeta]
      exact congrArg (CatalogMeta.mk · ∅) (erase_insert_empty t.tableId p)
    refine ⟨⟨hquiet, hcatalog, trivial, fun page hpage => ?_⟩, hcatalog, ?_, ?_, ?_, ?_⟩
    · cases hpage
    · rw [h.maps.tableNames]
      exact erase_singleton ..
    · rw [h.maps.tables]
      exact erase_singleton ..
    · exact h.maps.indexNames
    · exact h.maps.indexes

/-- The only index is dropped. -/
theorem dropIndex_kept {i : Str} {t : TableMetadata} {x : IndexInfo} (h : Kept c (.index p t q x))
    (hok : c.dropIndex a i = .ok (.success, c')) : Kept c' (.table p t) := by
  unfold dropIndex at hok
  split at hok
  · cases hok
  split at hok
  · cases hok
  rename_i names hnames
  split at hok
  · cases hok
  rename_i indexId hindex
  rcases bind_eq_ok.mp hok with ⟨⟨done, bpm⟩, hdelete, hok₁⟩
  cases hok₁
  rw [h.maps.indexNames] at hnames
  rcases lookup_singleton hnames with ⟨rfl, rfl⟩
  rcases lookup_singleton hindex with ⟨_, rfl⟩
  have hindexPage := h.pages _ (List.mem_cons_of_mem _ List.mem_cons_self)
  have hq : c.catalogMeta.indexMetaPages.getD x.metaData.indexId 0 = q := by
    rw [h.catalogMeta]
    exact Std.ExtTreeMap.getD_insert_self
  rw [hq] at hdelete
  -- The page of the table is not the deleted one.
  rcases h.quiet.deletePage hindexPage.valid hindexPage.apart hdelete with ⟨hquiet, hstands⟩
  have hcatalog : CatalogMeta.mk c.catalogMeta.tableMetaPages
      (c.catalogMeta.indexMetaPages.erase x.metaData.indexId) =
        (Record.table p t).catalogMeta := by
    rw [h.catalogMeta]
    exact congrArg (CatalogMeta.mk _ ·) (erase_insert_empty x.metaData.indexId q)
  refine ⟨⟨hquiet, hcatalog, trivial, fun page hpage => ?_⟩, hcatalog, ?_, ?_, ?_, ?_⟩
  · rw [List.mem_singleton.mp hpage]
    exact hstands _ (h.pages _ List.mem_cons_self) h.wellFormed.1
  · exact h.maps.tableNames
  · exact h.maps.tables
  · rw [h.maps.indexNames]
    exact erase_singleton ..
  · rw [h.maps.indexes]
    exact erase_singleton ..

/-! ## Runs -/

theorem staticPage_eq_ok {id : PageId} {message : String} :
    DBStorageEngine.staticPage s id message = .ok s' ↔ ∃ f, s.newPage = .ok (some (id, f), s') := by
  constructor
  · intro hok
    rcases bind_eq_ok.mp hok with ⟨⟨reply, s₁⟩, hnew, hok₁⟩
    cases reply with
    | none =>
        cases hok₁
    | some page =>
        rcases page with ⟨id', f⟩
        simp only [ite_not] at hok₁
        split at hok₁
        · rename_i hid
          cases hok₁
          exact ⟨f, hid ▸ hnew⟩
        · cases hok₁
  · rintro ⟨f, hnew⟩
    simp only [DBStorageEngine.staticPage, hnew, ok_bind, ne_eq, not_true_eq_false, if_false]

/-- A new database. -/
theorem create_kept (hok : DBStorageEngine.create n = .ok c) : Kept c .empty := by
  rcases bind_eq_ok.mp hok with ⟨_, _, hok₁⟩
  rcases bind_eq_ok.mp hok₁ with ⟨_, _, hok₂⟩
  rcases bind_eq_ok.mp hok₂ with ⟨bpm₁, hcatalogPage, hok₃⟩
  rcases bind_eq_ok.mp hok₃ with ⟨bpm₂, hrootsPage, hok₄⟩
  rcases bind_eq_ok.mp hok₄ with ⟨_, _, hok₅⟩
  cases hok₅
  rcases staticPage_eq_ok.mp hcatalogPage with ⟨f, hnew⟩
  rcases staticPage_eq_ok.mp hrootsPage with ⟨g, hnew'⟩
  have hinit := init_holding n DiskManager.fresh_inv
  -- Two pages are made while the first is still pinned: they have two frames.
  have hgf := hinit.newPage_twice (init_apart n _) hnew hnew'
  rcases hinit.newPage hnew (Finset.notMem_empty f) with ⟨hheld, hmade⟩
  rcases hheld.newPage hnew' (by simpa using hgf) with ⟨hheld', hmade'⟩
  have hcatalog : 0 ≤ Int32.toInt CATALOG_META_PAGE_ID := by decide
  have hl : bpm₂.pageTable.lookup CATALOG_META_PAGE_ID = some f := by
    refine (hmade'.lookup_other _ (by decide) ?_ hcatalog).trans hmade.lookup
    rw [hmade.lookup]
    exact fun heq => hgf (Option.some.inj heq).symm
  have hback := hheld'.unpinPage hl (by simp) false
  have hl' : (bpm₂.unpinPage CATALOG_META_PAGE_ID false).2.pageTable.lookup INDEX_ROOTS_PAGE_ID =
      some g := by
    rw [unpinPage_pageTable]
    exact hmade'.lookup
  have hback' := hback.unpinPage hl' (by simp [hgf]) false
  have hnone : ((insert g (insert f ∅) : Finset (Fin n)).erase f).erase g = ∅ := by
    ext x
    simp only [Finset.mem_erase, Finset.mem_insert, Finset.notMem_empty, or_false, iff_false]
    tauto
  rw [hnone] at hback'
  refine ⟨⟨⟨hback', f.pos, ?_⟩, rfl, trivial, fun page hpage => by cases hpage⟩,
    rfl, rfl, rfl, rfl, rfl⟩
  rw [CatalogManager.init]
  simp only [unpinPage_diskManager]
  exact hmade'.stays_used hcatalog hmade.now_used

/-- One of the four calls that change the catalog, which succeeded. -/
def Succeeds : Event → Prop
  | .createTable _ _ err _ => err = .success
  | .dropTable _ err => err = .success
  | .getTable _ _ _ => False
  | .createIndex _ _ _ err => err = .success
  | .dropIndex _ _ err => err = .success

/-- The condition on the catalog before the call: a table is made while there is none and a table is
dropped or an index made while there is no index; the two pages of a table get two frames, and the
page of an index does not get the frame of a table's metadata. -/
def Careful (c : CatalogManager n) : Event → Prop
  | .createTable _ _ _ _ =>
    (∀ b, c.tableNames.lookup b = none) ∧ Apart c.bufferPoolManager
  | .dropTable _ _ => ∀ k, c.indexes.lookup k = none
  | .getTable _ _ _ => True
  | .createIndex _ _ _ _ => (∀ k, c.indexes.lookup k = none) ∧
    ∀ (id : UInt32) (page : PageId) f bpm, c.catalogMeta.tableMetaPages[id]? = some page →
      c.bufferPoolManager.pickFrame = some (f, bpm) →
      c.bufferPoolManager.pageTable.lookup page ≠ some f
  | .dropIndex _ _ _ => True

theorem Step.kept {e : Event} (hstep : Step c e c') (hsucceeds : Succeeds e)
    (hcareful : Careful c e) (h : Kept c r) : ∃ r', Kept c' r' := by
  -- `Careful` excludes the records that the call does not start from.
  cases e with
  | createTable a schema err info =>
      obtain rfl : err = .success := hsucceeds
      rcases createTable_made h.quiet hcareful.2 hstep with ⟨p, t, _, hmade⟩
      cases r with
      | empty =>
          exact ⟨_, hmade.kept h⟩
      | table p' t' =>
          have hnone := hcareful.1 t'.tableName
          rw [h.maps.tableNames] at hnone
          simp [Record.tableNames, lookup_singleton_self] at hnone
      | index p' t' q x =>
          have hnone := hcareful.1 t'.tableName
          rw [h.maps.tableNames] at hnone
          simp [Record.tableNames, lookup_singleton_self] at hnone
  | dropTable a err =>
      obtain rfl : err = .success := hsucceeds
      cases r with
      | empty =>
          rcases dropTable_cases hstep with ⟨hfalse, _⟩ | ⟨id, _, hid, _⟩
          · cases hfalse
          · rw [h.maps.tableNames] at hid
            cases hid
      | table p t =>
          exact ⟨_, dropTable_kept h hstep⟩
      | index p t q x =>
          have hnone := hcareful x.metaData.indexId
          rw [h.maps.indexes] at hnone
          simp [Record.indexes, lookup_singleton_self] at hnone
  | getTable a err info =>
      cases hsucceeds
  | createIndex a i keys err =>
      obtain rfl : err = .success := hsucceeds
      rcases createIndex_made h.quiet hstep with ⟨q, x, hmade⟩
      cases r with
      | empty =>
          have hid := hmade.table
          rw [h.maps.tableNames] at hid
          cases hid
      | table p t =>
          refine ⟨_, hmade.kept h fun f bpm hpick => ?_⟩
          refine hcareful.2 t.tableId p f bpm ?_ hpick
          rw [h.catalogMeta]
          exact Std.ExtTreeMap.getElem?_insert_self
      | index p t q' x' =>
          have hnone := hcareful.1 x'.metaData.indexId
          rw [h.maps.indexes] at hnone
          simp [Record.indexes, lookup_singleton_self] at hnone
  | dropIndex a i err =>
      obtain rfl : err = .success := hsucceeds
      rcases dropIndex_cases hstep with ⟨hfalse, _⟩ | ⟨_, names, _, _, _, hnames, _⟩
      · exact absurd rfl hfalse
      · cases r with
        | empty =>
            rw [h.maps.indexNames] at hnames
            cases hnames
        | table p t =>
            rw [h.maps.indexNames] at hnames
            cases hnames
        | index p t q x =>
            exact ⟨_, dropIndex_kept h hstep⟩

theorem Record.length_pages (r : Record) :
    r.pages.length = r.catalogMeta.tableMetaPages.size + r.catalogMeta.indexMetaPages.size := by
  cases r <;> rfl

/-- In every run of successful calls that meet the condition, on a new database, the catalog
survives in every pool with a frame for each of its pages. -/
theorem catalog_survives_run {c₀ : CatalogManager n} {es : List Event}
    (hnew : DBStorageEngine.create n = .ok c₀)
    (hrun : Run (fun c e c' => Careful c e ∧ Succeeds e ∧ Step c e c') c₀ es c)
    (hm : c.catalogMeta.tableMetaPages.size + c.catalogMeta.indexMetaPages.size < m) :
    Survives c m := by
  have hkept := hrun.invariant (P := fun c => ∃ r, Kept c r)
    (fun c e c' ⟨r, h⟩ ⟨hcareful, hsucceeds, hstep⟩ => hstep.kept hsucceeds hcareful h)
    ⟨.empty, create_kept hnew⟩
  rcases hkept with ⟨r, h⟩
  refine h.survives h.maps ?_
  rw [r.length_pages, ← h.catalogMeta]
  exact hm

/-- A database is made in a pool of two frames or more. -/
theorem create_new {f g : Fin n} {rest : List (Fin n)}
    (hfree : (BufferPoolManager.init n DiskManager.fresh).freeList = f :: g :: rest) :
    ∃ bpm, DBStorageEngine.create n = .ok (init bpm) ∧ PoolInv bpm ∧ bpm.freeList = rest ∧
      DiskManager.Dense bpm.diskManager 2 := by
  have hdense := DiskManager.fresh_dense
  rcases hdense.allocatePage_ok (by decide) with ⟨dm₁, halloc₁, hdense₁⟩
  rcases (init_poolInv n DiskManager.fresh_inv).newPage_free hfree halloc₁ with
    ⟨bpm₁, hpage₁, hpool₁, hadds₁, hdm₁⟩
  rw [← hdm₁] at hdense₁
  rcases hdense₁.allocatePage_ok (by decide) with ⟨dm₂, halloc₂, hdense₂⟩
  rcases hpool₁.newPage_free (hadds₁.free_eq hfree) halloc₂ with
    ⟨bpm₂, hpage₂, hpool₂, hadds₂, hdm₂⟩
  rw [← hdm₂] at hdense₂
  have hl : bpm₂.pageTable.lookup CATALOG_META_PAGE_ID = some f :=
    (hadds₂.lookup_other _ (by decide)).trans hadds₁.lookup_new
  rcases hpool₂.unpinPage_resident hl false with ⟨hpool₃, hsame₃⟩
  have hl' : (bpm₂.unpinPage CATALOG_META_PAGE_ID false).2.pageTable.lookup INDEX_ROOTS_PAGE_ID =
      some g := by
    rw [hsame₃.table]
    exact hadds₂.lookup_new
  rcases hpool₃.unpinPage_resident hl' false with ⟨hpool₄, hsame₄⟩
  -- The allocator gives out pages 0 and 1, the two that the engine asks for.
  have hbefore : ∀ p : PageId, 0 ≤ p.toInt →
      (BufferPoolManager.init n DiskManager.fresh).isPageFree p = true := fun p hp =>
    (hdense.free_iff p hp).mpr (Nat.zero_le _)
  have hafter : ∀ p : PageId, 0 ≤ p.toInt → sizeT p < 2 → bpm₂.isPageFree p = false := by
    intro p hp hlt
    rw [← Bool.not_eq_true]
    intro hpfree
    exact absurd ((hdense₂.free_iff p hp).mp hpfree) (by omega)
  refine ⟨_, ?_, hpool₄, ?_, ?_⟩
  · have hcatalogPage (message : String) : DBStorageEngine.staticPage
        (BufferPoolManager.init n DiskManager.fresh) CATALOG_META_PAGE_ID message = .ok bpm₁ :=
      staticPage_eq_ok.mpr ⟨f, hpage₁⟩
    have hrootsPage (message : String) :
        DBStorageEngine.staticPage bpm₁ INDEX_ROOTS_PAGE_ID message = .ok bpm₂ :=
      staticPage_eq_ok.mpr ⟨g, hpage₂⟩
    have hcatalogFree := hbefore CATALOG_META_PAGE_ID (by decide)
    have hrootsFree := hbefore INDEX_ROOTS_PAGE_ID (by decide)
    have hcatalogUsed := hafter CATALOG_META_PAGE_ID (by decide) (by decide)
    have hrootsUsed := hafter INDEX_ROOTS_PAGE_ID (by decide) (by decide)
    simp only [DBStorageEngine.create, hcatalogFree, hrootsFree, hcatalogUsed, hrootsUsed,
      hcatalogPage, hrootsPage, assert_true, ok_bind, Bool.not_false, Bool.and_self]
  · rw [hsame₄.free, hsame₃.free]
    exact hadds₂.free_eq (hadds₁.free_eq hfree)
  · rw [hsame₄.disk, hsame₃.disk]
    exact hdense₂

/-- A table and an index of it are made. -/
theorem catalog_survives_run_indexed :
    ∃ (c₀ c : CatalogManager 6) (es : List Event), DBStorageEngine.create 6 = .ok c₀ ∧
      Run (fun c e c' => Careful c e ∧ Succeeds e ∧ Step c e c') c₀ es c ∧ es.length = 2 ∧
      Survives c (c.catalogMeta.tableMetaPages.size + c.catalogMeta.indexMetaPages.size + 1) := by
  rcases create_new (n := 6) (f := 0) (g := 1) rfl with ⟨bpm, hcreate, hpool, hfree, hdense⟩
  rcases createTable_new (c := init bpm) (f := 2) (g := 3) hpool hfree hdense (by decide) rfl
    (charSchema_fits (a := nameA) rfl) with ⟨made, c₁, hstep₁, hpool₁, hfree₁, hdense₁, _⟩
  have hsame := createTable_sameIndexes hstep₁
  have hindexes : ∀ k, c₁.indexes.lookup k = none := by
    intro k
    rw [hsame.indexes]
    rfl
  rcases createTable_cases hstep₁ with ⟨hfalse, _⟩ | ⟨_, made', hmade, hadds⟩
  · cases hfalse
  cases hmade
  have hid : ∃ tableId, c₁.tableNames.lookup nameA = some tableId ∧
      c₁.tables.lookup tableId = some (some made) := by
    rw [hadds.names, hadds.tables]
    exact ⟨_, AList.lookup_insert .., AList.lookup_insert ..⟩
  rcases hid with ⟨tableId, hid, htable⟩
  let keys : { ks : List Str // ks.length < 2 ^ 32 } := ⟨[⟨[115], by decide⟩], by decide⟩
  have hkeys : made.getSchema.keyMap keys.val = some ⟨[0], rfl⟩ := by
    rw [hadds.schema]
    rfl
  have hnames : ((c₁.indexNames.lookup nameA).getD ∅).lookup nameB = none := by
    rw [hsame.names]
    rfl
  rcases createIndex_new hpool₁ hfree₁ hdense₁ (by decide) hid htable hnames hkeys
    (by rw [hadds.schema]; rfl)
    (fun _ _ => by simp [IndexMetadata.getSerializedSize, nameB, PAGE_SIZE]) with ⟨c₂, hstep₂⟩
  have hrun : Run (fun c e c' => Careful c e ∧ Succeeds e ∧ Step c e c') (init bpm)
      [.createTable nameA TableHeap.charSchema .success (some made),
        .createIndex nameA nameB keys .success] c₂ := by
    refine Run.cons ⟨⟨fun _ => rfl, .of_free hfree⟩, rfl, hstep₁⟩
      (Run.cons ⟨⟨hindexes, fun id page f s hpage hpick => ?_⟩, rfl, hstep₂⟩ (Run.nil _))
    -- A free frame is picked, and no page is in it.
    rcases pickFrame_cases hpick with ⟨rest, hrest, _⟩ | ⟨hnone, _⟩
    · exact hpool₁.frames.free_not_resident (by simp [hrest]) page
    · rw [hfree₁] at hnone
      cases hnone
  exact ⟨_, c₂, _, hcreate, hrun, rfl, catalog_survives_run hcreate hrun (Nat.lt_succ_self _)⟩

/-- A second table gets the id of the first, whose entry is lost. -/
theorem TableMade.written_again {p₀ : PageId} {t t₀ : TableMetadata} (hmade : TableMade c p t c')
    (h : Written c (.table p₀ t₀)) : Written c' (.table p t) := by
  have hid : t.tableId = t₀.tableId := by
    rw [hmade.tableId, h.catalogMeta]
    simp [CatalogMeta.getNextTableId, Record.catalogMeta, lastKey, Std.ExtTreeMap.maxKey?_insert]
  have hover : ((∅ : PageMap).insert t₀.tableId p₀).insert t₀.tableId p =
      (∅ : PageMap).insert t₀.tableId p := by
    refine Std.ExtTreeMap.ext_getElem? fun k => ?_
    simp only [Std.ExtTreeMap.getElem?_insert]
    split <;> rfl
  refine ⟨hmade.quiet, ?_, trivial, fun page hpage => ?_⟩
  · rw [hmade.catalogMeta, h.catalogMeta, hid]
    simp only [Record.catalogMeta, hid, hover]
  · rw [List.mem_singleton.mp hpage]
    exact hmade.stands

/-- Two tables `a` and `b` are made; `a` is gone when the database is opened again. -/
theorem second_table_lost :
    ∃ (c₀ c : CatalogManager 6) (es : List Event), DBStorageEngine.create 6 = .ok c₀ ∧
      Run (fun c e c' => Succeeds e ∧ Step c e c') c₀ es c ∧
      c.catalogMeta.getSerializedSize ≤ PAGE_SIZE ∧ (c.getTable nameA).1 = .success ∧
      ∀ m, 1 < m → ¬Survives c m := by
  rcases create_new (n := 6) (f := 0) (g := 1) rfl with ⟨bpm, hcreate, hpool, hfree, hdense⟩
  have hkept := create_kept hcreate
  rcases createTable_new (c := init bpm) (f := 2) (g := 3) hpool hfree hdense (by decide) rfl
    (charSchema_fits (a := nameA) rfl) with ⟨made₁, c₁, hstep₁, hpool₁, hfree₁, hdense₁, _⟩
  rcases createTable_made hkept.quiet (.of_free hfree) hstep₁ with ⟨p₁, t₁, hname₁, hmade₁⟩
  have hkept₁ := hmade₁.kept hkept
  have hnew : c₁.tableNames.lookup nameB = none := by
    rw [hmade₁.tableNames, AList.lookup_insert_ne (by rw [hname₁]; decide)]
    rfl
  rcases createTable_new hpool₁ hfree₁ hdense₁ (by decide) hnew (charSchema_fits rfl) with
    ⟨made₂, c₂, hstep₂, _⟩
  rcases createTable_made hkept₁.quiet (.of_free hfree₁) hstep₂ with ⟨p₂, t₂, hname₂, hmade₂⟩
  have hwritten := hmade₂.written_again hkept₁.toWritten
  have hrun : Run (fun c e c' => Succeeds e ∧ Step c e c') (init bpm)
      [.createTable nameA TableHeap.charSchema .success (some made₁),
        .createTable nameB TableHeap.charSchema .success (some made₂)] c₂ :=
    Run.cons ⟨rfl, hstep₁⟩ (Run.cons ⟨rfl, hstep₂⟩ (Run.nil _))
  have hfound : (c₂.getTable nameA).1 = .success := by
    have hid : c₂.tableNames.lookup nameA = some t₁.tableId := by
      calc
        c₂.tableNames.lookup nameA = c₁.tableNames.lookup nameA := by
          rw [hmade₂.tableNames, AList.lookup_insert_ne (by rw [hname₂]; decide)]
        _ = some t₁.tableId := by rw [hmade₁.tableNames, ← hname₁, AList.lookup_insert]
    simp only [CatalogManager.getTable, hid]
  refine ⟨_, c₂, _, hcreate, hrun, ?_, hfound, fun m hm hsurvives => ?_⟩
  · rw [hwritten.catalogMeta]
    exact Record.catalogMeta_fits _
  · rcases hsurvives with ⟨c₃, hflush, hopen⟩
    rcases hwritten.reopens hm with ⟨c₃', hflush', hopen'⟩
    rw [hflush, Except.ok.injEq, Prod.mk.injEq] at hflush'
    obtain rfl := hflush'.2
    rcases hopen _ (List.Perm.refl _) with ⟨bpm₄, c₄, hdestroy, hload, hsame⟩
    rcases hopen' _ (List.Perm.refl _) with ⟨bpm₄', c₄', hdestroy', hload', hrecords⟩
    rw [hdestroy] at hdestroy'
    obtain rfl := Except.ok.inj hdestroy'
    rw [hload] at hload'
    obtain rfl := Except.ok.inj hload'
    -- The catalog that is read back knows `b` only.
    have hlost : c₄.tableNames.lookup nameA = none := by
      have hnames : c₄.tableNames = AList.insert t₂.tableName t₂.tableId ∅ := hrecords.tableNames
      rw [hnames, AList.lookup_insert_ne (by rw [hname₂]; decide)]
      rfl
    have hmissing : (c₄.getTable nameA).1 = .tableNotExist := by
      simp only [CatalogManager.getTable, hlost]
    rw [(hsame.getTable nameA).1, hfound] at hmissing
    cases hmissing

end CatalogManager
end MiniSQL
