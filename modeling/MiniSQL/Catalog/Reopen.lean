import MiniSQL.Catalog.TableDirectory
import MiniSQL.Catalog.OpenPins
import MiniSQL.Buffer.Resting

/-!
# Reopen — closing a database and opening its catalog again

`common/instance.cpp` and the constructor and destructor of `CatalogManager`.  The catalog is kept
on its own page and on one page for each table and each index.  Ids are handed out again while they
are in use, so a catalog can keep at most one table and one index; a `Record` is what the pages of
such a catalog say.  The pages outlast the calls as long as `NewPage` does not take the frame of one
of them, which it would not write back.
-/

namespace MiniSQL

open Lib BufferPoolManager

/-! ## The engine -/

namespace DBStorageEngine

variable {n : Nat}

/-- A page of the engine's own is allocated, with the id it has to get. -/
def staticPage (bpm : BufferPoolManager n) (id : PageId) (message : String) :
    Result (BufferPoolManager n) := do
  let (reply, bpm') ← bpm.newPage
  match reply with
  | none => .error (.assertion message)
  | some (id', _) => if id' ≠ id then .error (.assertion message) else .ok bpm'

/-- The constructor with `init`, over a new file. -/
def create (n : Nat) : Result (CatalogManager n) := do
  let bpm := BufferPoolManager.init n DiskManager.fresh
  assert (bpm.isPageFree CATALOG_META_PAGE_ID) "Catalog meta page not free."
  assert (bpm.isPageFree INDEX_ROOTS_PAGE_ID) "Header page not free."
  let bpm₁ ← staticPage bpm CATALOG_META_PAGE_ID "Failed to allocate catalog meta page."
  let bpm₂ ← staticPage bpm₁ INDEX_ROOTS_PAGE_ID "Failed to allocate header page."
  assert (!bpm₂.isPageFree CATALOG_META_PAGE_ID && !bpm₂.isPageFree INDEX_ROOTS_PAGE_ID) "exit"
  let bpm₃ := (bpm₂.unpinPage CATALOG_META_PAGE_ID false).2
  let bpm₄ := (bpm₃.unpinPage INDEX_ROOTS_PAGE_ID false).2
  .ok (CatalogManager.init bpm₄)

end DBStorageEngine

namespace CatalogManager

variable {n m : Nat}

/-- The catalogs answer alike, for all names. -/
structure SameAnswers (c : CatalogManager n) (c' : CatalogManager m) : Prop where
  getTable : ∀ t, (c'.getTable t).1 = (c.getTable t).1 ∧ (c'.getTable t).2.1 = (c.getTable t).2.1
  getIndex : ∀ t i, c'.getIndex t i = c.getIndex t i
  getTableIndexes : ∀ t, (c'.getTableIndexes t).1 = (c.getTableIndexes t).1 ∧
    (c'.getTableIndexes t).2.Perm (c.getTableIndexes t).2

/-- The catalog is destroyed, then the pool, in whatever order its table has; a catalog constructed
on the file answers as this one did. -/
def Survives (c : CatalogManager n) (m : Nat) : Prop :=
  ∃ c₁, c.flushCatalogMetaPage = .ok (.success, c₁) ∧
    ∀ order, order.Perm c₁.bufferPoolManager.pageTable.keys →
      ∃ bpm c₂, c₁.bufferPoolManager.destroy order = .ok bpm ∧
        load (BufferPoolManager.init m (DiskManager.openFile bpm.diskManager.close)) = .ok c₂ ∧
        SameAnswers c c₂

/-! ## Records -/

/-- A table info with the heap that its metadata names. -/
def infoOf (t : TableMetadata) : TableInfo :=
  ⟨t, ⟨t.rootPageId, t.schema⟩⟩

/-- What the pages of a catalog say: no table, a table with its meta page, or a table with an
index. -/
inductive Record
  | empty
  | table (p : PageId) (t : TableMetadata)
  | index (p : PageId) (t : TableMetadata) (q : PageId) (x : IndexInfo)

namespace Record

def catalogMeta : Record → CatalogMeta
  | empty => CatalogMeta.newInstance
  | table p t => ⟨(∅ : PageMap).insert t.tableId p, ∅⟩
  | index p t q x => ⟨(∅ : PageMap).insert t.tableId p, (∅ : PageMap).insert x.metaData.indexId q⟩

def tableNames : Record → AList fun _ : Str => UInt32
  | empty => ∅
  | table _ t => AList.singleton t.tableName t.tableId
  | index _ t _ _ => AList.singleton t.tableName t.tableId

def tables : Record → AList fun _ : UInt32 => Option TableInfo
  | empty => ∅
  | table _ t => AList.singleton t.tableId (some (infoOf t))
  | index _ t _ _ => AList.singleton t.tableId (some (infoOf t))

def indexNames : Record → AList fun _ : Str => AList fun _ : Str => UInt32
  | empty => ∅
  | table _ _ => ∅
  | index _ t _ x => AList.singleton t.tableName
      (AList.singleton x.metaData.indexName x.metaData.indexId)

def indexes : Record → AList fun _ : UInt32 => IndexInfo
  | empty => ∅
  | table _ _ => ∅
  | index _ _ _ x => AList.singleton x.metaData.indexId x

/-- The meta pages, with the bytes they start with. -/
def pages : Record → List (PageId × List UInt8)
  | empty => []
  | table p t => [(p, t.encode)]
  | index p t q x => [(p, t.encode), (q, x.metaData.encode)]

/-- The index is one of the table, and the meta pages are not the same. -/
def WellFormed : Record → Prop
  | empty => True
  | table _ _ => True
  | index p t q x => p ≠ q ∧ x.metaData.tableId = t.tableId ∧
      IndexInfo.init x.metaData (infoOf t) = .ok x

end Record

/-- The maps of the catalog are those of the record. -/
structure Records (c : CatalogManager n) (r : Record) : Prop where
  catalogMeta : c.catalogMeta = r.catalogMeta
  tableNames : c.tableNames = r.tableNames
  tables : c.tables = r.tables
  indexNames : c.indexNames = r.indexNames
  indexes : c.indexes = r.indexes

theorem Records.sameAnswers {c : CatalogManager n} {c' : CatalogManager m} {r : Record}
    (h : Records c r) (h' : Records c' r) : SameAnswers c c' := by
  have hnames := h'.tableNames.trans h.tableNames.symm
  have htables := h'.tables.trans h.tables.symm
  have hindexNames := h'.indexNames.trans h.indexNames.symm
  have hindexes := h'.indexes.trans h.indexes.symm
  refine ⟨fun t => ?_, fun t i => ?_, fun t => ?_⟩
  · unfold CatalogManager.getTable tableAt
    rw [hnames, htables]
    cases c.tableNames.lookup t with
    | none =>
        exact ⟨rfl, rfl⟩
    | some tableId =>
        cases htable : c.tables.lookup tableId with
        | none =>
            simp [htable]
        | some info =>
            simp [htable]
  · unfold CatalogManager.getIndex
    rw [hnames, hindexNames, hindexes]
  · unfold CatalogManager.getTableIndexes
    rw [hnames, hindexes]
    exact ⟨rfl, List.Perm.refl _⟩

/-! ## Opening -/

section Opening

variable {c : CatalogManager m} {dm : DiskManager} {k : Nat} {p : PageId}

/-- The table of metadata `t` was opened. -/
structure TableOpened (c : CatalogManager m) (t : TableMetadata) (c' : CatalogManager m) :
    Prop where
  catalogMeta : c'.catalogMeta = c.catalogMeta
  tableNames : c'.tableNames = c.tableNames.insert t.tableName t.tableId
  tables : c'.tables = c.tables.insert t.tableId (some (infoOf t))
  indexNames : c'.indexNames = c.indexNames
  indexes : c'.indexes = c.indexes

theorem openTable_opening {t : TableMetadata} (h : Opening c.bufferPoolManager dm (k + 1))
    (hp : 0 ≤ p.toInt) (hpage : Mem.Holds (stored dm p).mem 0 t.encode) :
    ∃ c', c.openTable p = .ok c' ∧ Opening c'.bufferPoolManager dm k ∧ TableOpened c t c' := by
  rcases h.fetchPage hp with ⟨f, bpm, hfetch, hdata, hopening⟩
  have hread : TableMetadata.deserializeFrom (bpm.bytes f) 0 = .ok (t, t.encode.length) := by
    rw [bytes, hdata]
    simpa using t.reads_encode _ 0 hpage
  simp only [openTable, hfetch, ok_bind, deref, hread]
  exact ⟨_, rfl, hopening, ⟨rfl, rfl, rfl, rfl, rfl⟩⟩

/-- The index `x` of the table `info` was opened. -/
structure IndexOpened (c : CatalogManager m) (info : TableInfo) (x : IndexInfo)
    (c' : CatalogManager m) : Prop where
  catalogMeta : c'.catalogMeta = c.catalogMeta
  tableNames : c'.tableNames = c.tableNames
  tables : c'.tables = c.tables
  indexNames : c'.indexNames = c.indexNames.insert info.getTableName
    (((c.indexNames.lookup info.getTableName).getD ∅).insert x.metaData.indexName
      x.metaData.indexId)
  indexes : c'.indexes = c.indexes.insert x.metaData.indexId x

theorem openIndex_opening {x : IndexInfo} {info : TableInfo}
    (h : Opening c.bufferPoolManager dm (k + 1)) (hp : 0 ≤ p.toInt)
    (hpage : Mem.Holds (stored dm p).mem 0 x.metaData.encode)
    (htable : c.tables.lookup x.metaData.tableId = some (some info))
    (hinit : IndexInfo.init x.metaData info = .ok x) :
    ∃ c', c.openIndex p = .ok c' ∧ Opening c'.bufferPoolManager dm k ∧
      IndexOpened c info x c' := by
  rcases h.fetchPage hp with ⟨f, bpm, hfetch, hdata, hopening⟩
  have hread : IndexMetadata.deserializeFrom (bpm.bytes f) 0 =
      .ok (x.metaData, x.metaData.encode.length) := by
    rw [bytes, hdata]
    simpa using x.metaData.reads_encode _ 0 hpage
  simp only [openIndex, hfetch, ok_bind, deref, hread, tableAt, htable, hinit]
  exact ⟨_, rfl, hopening, ⟨rfl, rfl, rfl, rfl, rfl⟩⟩

/-- The catalog's own page. -/
theorem Record.reads_catalogMeta (r : Record) :
    Decoder.Reads CatalogMeta.deserializeFrom r.catalogMeta.encode r.catalogMeta := by
  cases r with
  | empty =>
      exact CatalogMeta.reads_encode (by decide) (by decide)
  | table p t =>
      exact CatalogMeta.reads_encode (show 1 < 2 ^ 32 by decide) (show 0 < 2 ^ 32 by decide)
  | index p t q x =>
      exact CatalogMeta.reads_encode (show 1 < 2 ^ 32 by decide) (show 1 < 2 ^ 32 by decide)

/-- Over pages with a record a catalog is constructed that has the maps of the record. -/
theorem load_record {r : Record} (hwf : r.WellFormed) (hm : r.pages.length < m)
    (hcatalog : Mem.Holds (stored dm CATALOG_META_PAGE_ID).mem 0 r.catalogMeta.encode)
    (hpages : ∀ page ∈ r.pages, 0 ≤ page.1.toInt ∧ Mem.Holds (stored dm page.1).mem 0 page.2) :
    ∃ c, load (BufferPoolManager.init m dm) = .ok c ∧ Records c r := by
  obtain ⟨k, rfl⟩ : ∃ k, m = k + r.pages.length + 1 := ⟨m - r.pages.length - 1, by omega⟩
  have hinit : Opening (BufferPoolManager.init (k + r.pages.length + 1) dm) dm
      (k + r.pages.length + 1) := init_opening _ dm
  have hvalid : 0 ≤ Int32.toInt CATALOG_META_PAGE_ID := by decide
  rcases hinit.fetchPage hvalid with ⟨f, bpm, hfetch, hdata, hopening⟩
  have hread : CatalogMeta.deserializeFrom (bpm.bytes f) 0 =
      .ok (r.catalogMeta, r.catalogMeta.encode.length) := by
    rw [bytes, hdata]
    simpa using r.reads_catalogMeta _ 0 hcatalog
  simp only [load, hfetch, ok_bind, deref, hread]
  -- The pages on record are opened one by one: none, the table, the table and its index.
  cases r with
  | empty =>
      exact ⟨_, rfl, ⟨rfl, rfl, rfl, rfl, rfl⟩⟩
  | table p t =>
      rcases hpages _ List.mem_cons_self with ⟨hp, hpage⟩
      have htables : (Record.table p t).catalogMeta.tableMetaPages.toList = [(t.tableId, p)] := rfl
      have hindexes : (Record.table p t).catalogMeta.indexMetaPages.toList = [] := rfl
      set c₀ : CatalogManager _ :=
        { init bpm with catalogMeta := Record.catalogMeta (.table p t) } with hc₀
      rcases openTable_opening (c := c₀) hopening hp hpage with ⟨c₁, hopen, _, hopened⟩
      refine ⟨c₁, ?_, ⟨hopened.catalogMeta, hopened.tableNames, hopened.tables,
        hopened.indexNames, hopened.indexes⟩⟩
      rw [htables, hindexes]
      simp only [List.foldlM_cons, List.foldlM_nil, hopen, ok_bind, pure_bind]
      rfl
  | index p t q x =>
      rcases hwf with ⟨_, htableId, hmade⟩
      rcases hpages _ List.mem_cons_self with ⟨hp, hpage⟩
      rcases hpages _ (List.mem_cons_of_mem _ List.mem_cons_self) with ⟨hq, hpage'⟩
      have htables : (Record.index p t q x).catalogMeta.tableMetaPages.toList =
          [(t.tableId, p)] := rfl
      have hindexes : (Record.index p t q x).catalogMeta.indexMetaPages.toList =
          [(x.metaData.indexId, q)] := rfl
      set c₀ : CatalogManager _ :=
        { init bpm with catalogMeta := Record.catalogMeta (.index p t q x) } with hc₀
      rcases openTable_opening (c := c₀) hopening hp hpage with ⟨c₁, hopen, hopening₁, hopened⟩
      have hlookup : c₁.tables.lookup x.metaData.tableId = some (some (infoOf t)) := by
        rw [hopened.tables, htableId]
        exact AList.lookup_insert _
      rcases openIndex_opening hopening₁ hq hpage' hlookup hmade with ⟨c₂, hopen', _, hopened'⟩
      refine ⟨c₂, ?_, ⟨hopened'.catalogMeta.trans hopened.catalogMeta,
        hopened'.tableNames.trans hopened.tableNames, hopened'.tables.trans hopened.tables,
        hopened'.indexNames.trans ?_, hopened'.indexes.trans ?_⟩⟩
      · rw [htables, hindexes]
        simp only [List.foldlM_cons, List.foldlM_nil, hopen, hopen', ok_bind, pure_bind]
        rfl
      · rw [hopened.indexNames]
        rfl
      · rw [hopened.indexes]
        rfl

end Opening

end CatalogManager
end MiniSQL
