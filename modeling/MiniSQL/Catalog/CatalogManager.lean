import MiniSQL.Catalog.Metadata
import MiniSQL.Storage.TableHeap

/-!
# CatalogManager — tables and indexes of a database

`catalog/catalog.h`, `catalog/catalog.cpp`, `IndexInfo` of `catalog/indexes.h` and the part of
`record/schema.h` they use.  An `unordered_map` is a finite map without order.  Reading it with
`operator[]` adds a missing key: a null pointer to `tables_`, an empty map to `index_names_` and
page 0 to the maps of meta pages.  A `TableInfo` is never changed after `Init`, so the pointer to
it is its value.
-/

namespace MiniSQL

open Lib BufferPoolManager

/-- `dberr_t`, the codes the catalog returns. -/
inductive DbErr
  | success
  | failed
  | tableAlreadyExist
  | tableNotExist
  | indexAlreadyExist
  | indexNotFound
  | columnNameNotExist
  deriving DecidableEq, Repr

structure TableInfo where
  tableMeta : TableMetadata
  tableHeap : TableHeap

namespace TableInfo

def getTableName (info : TableInfo) : Str :=
  info.tableMeta.tableName

def getSchema (info : TableInfo) : Schema :=
  info.tableMeta.schema

def getTableId (info : TableInfo) : UInt32 :=
  info.tableMeta.tableId

end TableInfo

namespace Schema

/-- `GetColumnIndex`: the first column of that name. -/
def getColumnIndex (schema : Schema) (colName : Str) : Option UInt32 :=
  (schema.columns.findIdx? fun column => column.name = colName).map UInt32.ofNat

/-- The key map of `CreateIndex`; `none` at the first name that is no column. -/
def keyMap (schema : Schema) :
    (indexKeys : List Str) → Option { xs : List UInt32 // xs.length = indexKeys.length }
  | [] => some ⟨[], rfl⟩
  | key :: keys => do
    let colIdx ← schema.getColumnIndex key
    let ⟨xs, h⟩ ← schema.keyMap keys
    some ⟨colIdx :: xs, by rw [List.length_cons, h, List.length_cons]⟩

end Schema

/-- `IndexInfo` after `Init`: the columns of the key schema, and the key size of the tree that was
made, if the key is not too large for one. -/
structure IndexInfo where
  metaData : IndexMetadata
  tableInfo : TableInfo
  keyColumns : List Column
  index : Option Nat

namespace IndexInfo

/-- `IndexInfo::CreateIndex` for a tree: the key size for this many bytes of columns. -/
def keySize (maxSize : Nat) : Option Nat :=
  if maxSize ≤ 8 then some 16
  else if maxSize ≤ 24 then some 32
  else if maxSize ≤ 56 then some 64
  else if maxSize ≤ 120 then some 128
  else if maxSize ≤ 248 then some 256
  else none

/-- `Init`; a column index past the schema is a fault. -/
def init (metaData : IndexMetadata) (tableInfo : TableInfo) : Result IndexInfo := do
  let keyColumns ← metaData.keyMap.mapM fun i => tableInfo.getSchema.getColumn i.toNat
  .ok
    { metaData := metaData
      tableInfo := tableInfo
      keyColumns := keyColumns
      index := keySize (keyColumns.map fun column => column.len.toNat).sum }

end IndexInfo

/-- `rbegin()->first`, the largest key, or 0 for an empty map. -/
def lastKey (pages : PageMap) : UInt32 :=
  pages.maxKey?.getD 0

namespace CatalogMeta

def newInstance : CatalogMeta :=
  { tableMetaPages := ∅, indexMetaPages := ∅ }

def getNextTableId (c : CatalogMeta) : UInt32 :=
  lastKey c.tableMetaPages

def getNextIndexId (c : CatalogMeta) : UInt32 :=
  lastKey c.indexMetaPages

end CatalogMeta

structure CatalogManager (n : Nat) where
  bufferPoolManager : BufferPoolManager n
  catalogMeta : CatalogMeta
  tableNames : AList fun _ : Str => UInt32
  tables : AList fun _ : UInt32 => Option TableInfo
  indexNames : AList fun _ : Str => AList fun _ : Str => UInt32
  indexes : AList fun _ : UInt32 => IndexInfo

namespace CatalogManager

variable {n : Nat}

/-- The constructor with `init`: an empty catalog. -/
def init (bufferPoolManager : BufferPoolManager n) : CatalogManager n :=
  { bufferPoolManager := bufferPoolManager
    catalogMeta := CatalogMeta.newInstance
    tableNames := ∅
    tables := ∅
    indexNames := ∅
    indexes := ∅ }

/-- `tables_[tableId]`. -/
def tableAt (c : CatalogManager n) (tableId : UInt32) : Option TableInfo × CatalogManager n :=
  match c.tables.lookup tableId with
  | some info => (info, c)
  | none => (none, { c with tables := c.tables.insert tableId none })

def createTable (c : CatalogManager n) (tableName : Str) (schema : Schema) :
    Result (DbErr × Option TableInfo × CatalogManager n) :=
  match c.tableNames.lookup tableName with
  | some _ => .ok (.tableAlreadyExist, none, c)
  | none => do
    let tableId := c.catalogMeta.getNextTableId
    let (reply, bpm₁) ← c.bufferPoolManager.newPage
    let (tableHeap, bpm₂) ← TableHeap.create bpm₁ schema
    -- The pointer to the meta page is followed only now.
    let (pageId, f) ← deref reply
    let tableMeta : TableMetadata := ⟨tableId, tableName, tableHeap.firstPageId, schema⟩
    let (_, m) ← tableMeta.serializeTo (bpm₂.bytes f) 0
    let bpm₃ := ((bpm₂.setBytes f m).unpinPage pageId true).2
    let tableInfo : TableInfo := ⟨tableMeta, tableHeap⟩
    .ok (.success, some tableInfo,
      { c with
        bufferPoolManager := bpm₃
        catalogMeta := { c.catalogMeta with
          tableMetaPages := c.catalogMeta.tableMetaPages.insert tableId pageId }
        tableNames := c.tableNames.insert tableName tableId
        tables := c.tables.insert tableId (some tableInfo) })

/-- `GetTable`: the code, the table info, which may be null, and the catalog. -/
def getTable (c : CatalogManager n) (tableName : Str) :
    DbErr × Option TableInfo × CatalogManager n :=
  match c.tableNames.lookup tableName with
  | none => (.tableNotExist, none, c)
  | some tableId =>
    let (info, c') := c.tableAt tableId
    (.success, info, c')

def createIndex (c : CatalogManager n) (tableName indexName : Str)
    (indexKeys : { ks : List Str // ks.length < 2 ^ 32 }) : Result (DbErr × CatalogManager n) :=
  match c.tableNames.lookup tableName with
  | none => .ok (.tableNotExist, c)
  | some tableId => do
    -- `index_names_[table_name]` adds an empty map for a table without one.
    let names := (c.indexNames.lookup tableName).getD ∅
    let c₁ := { c with indexNames := c.indexNames.insert tableName names }
    if (names.lookup indexName).isSome then .ok (.indexAlreadyExist, c₁)
    else do
      let (info, c₂) := c₁.tableAt tableId
      let tableInfo ← deref info
      match tableInfo.getSchema.keyMap indexKeys.val with
      | none => .ok (.columnNameNotExist, c₂)
      | some keyMap => do
        let indexId := c₂.catalogMeta.getNextIndexId
        let (reply, bpm₁) ← c₂.bufferPoolManager.newPage
        let (pageId, f) ← deref reply
        -- The page is unpinned first and written to after.
        let bpm₂ := (bpm₁.unpinPage pageId true).2
        let indexMeta : IndexMetadata :=
          ⟨indexId, indexName, tableId, keyMap.val, lt_of_eq_of_lt keyMap.2 indexKeys.2⟩
        let (_, m) ← indexMeta.serializeTo (bpm₂.bytes f) 0
        let indexInfo ← IndexInfo.init indexMeta tableInfo
        .ok (.success,
          { c₂ with
            bufferPoolManager := bpm₂.setBytes f m
            catalogMeta := { c₂.catalogMeta with
              indexMetaPages := c₂.catalogMeta.indexMetaPages.insert indexId pageId }
            indexNames := c₂.indexNames.insert tableName (names.insert indexName indexId)
            indexes := c₂.indexes.insert indexId indexInfo })

/-- `GetIndex`: both maps are read with `at`, which throws for a missing key. -/
def getIndex (c : CatalogManager n) (tableName indexName : Str) :
    Result (DbErr × Option IndexInfo) :=
  match c.tableNames.lookup tableName with
  | none => .ok (.tableNotExist, none)
  | some _ =>
    match c.indexNames.lookup tableName with
    | none => .error .outOfRange
    | some names =>
      match names.lookup indexName with
      | none => .ok (.indexNotFound, none)
      | some indexId =>
        match c.indexes.lookup indexId with
        | none => .error .outOfRange
        | some indexInfo => .ok (.success, some indexInfo)

/-- `GetTableIndexes`: the indexes whose table has that name; the map has no order of its own. -/
def getTableIndexes (c : CatalogManager n) (tableName : Str) : DbErr × List IndexInfo :=
  match c.tableNames.lookup tableName with
  | none => (.tableNotExist, [])
  | some _ =>
    (.success, (c.indexes.entries.map Sigma.snd).filter fun indexInfo =>
      indexInfo.tableInfo.getTableName = tableName)

def dropTable (c : CatalogManager n) (tableName : Str) : Result (DbErr × CatalogManager n) :=
  match c.tableNames.lookup tableName with
  | none => .ok (.tableNotExist, c)
  | some tableId => do
    -- The heap of the table keeps its pages; only the meta page is deleted.
    let pageId := c.catalogMeta.tableMetaPages.getD tableId 0
    let (_, bpm) ← c.bufferPoolManager.deletePage pageId
    .ok (.success,
      { c with
        bufferPoolManager := bpm
        catalogMeta := { c.catalogMeta with
          tableMetaPages := c.catalogMeta.tableMetaPages.erase tableId }
        tableNames := c.tableNames.erase tableName
        tables := c.tables.erase tableId })

/-- `DropIndex`: `at` throws when the table has no map, and the erasure takes the table's whole
map of index names. -/
def dropIndex (c : CatalogManager n) (tableName indexName : Str) :
    Result (DbErr × CatalogManager n) :=
  match c.tableNames.lookup tableName with
  | none => .ok (.tableNotExist, c)
  | some _ =>
    match c.indexNames.lookup tableName with
    | none => .error .outOfRange
    | some names =>
      match names.lookup indexName with
      | none => .ok (.indexNotFound, c)
      | some indexId => do
        let pageId := c.catalogMeta.indexMetaPages.getD indexId 0
        let (_, bpm) ← c.bufferPoolManager.deletePage pageId
        .ok (.success,
          { c with
            bufferPoolManager := bpm
            catalogMeta := { c.catalogMeta with
              indexMetaPages := c.catalogMeta.indexMetaPages.erase indexId }
            indexNames := c.indexNames.erase tableName
            indexes := c.indexes.erase indexId })

/-! ## Opening and flushing -/

/-- One pass of the constructor's loop over the tables. -/
def openTable (c : CatalogManager n) (pageId : PageId) : Result (CatalogManager n) := do
  let (reply, bpm) ← c.bufferPoolManager.fetchPage pageId
  let f ← deref reply
  let (tableMeta, _) ← TableMetadata.deserializeFrom (bpm.bytes f) 0
  let tableHeap : TableHeap := ⟨tableMeta.rootPageId, tableMeta.schema⟩
  .ok
    { c with
      bufferPoolManager := bpm
      tableNames := c.tableNames.insert tableMeta.tableName tableMeta.tableId
      tables := c.tables.insert tableMeta.tableId (some ⟨tableMeta, tableHeap⟩) }

/-- One pass of the constructor's loop over the indexes.  The index's table is looked up by
`tables_[…]` and its name read through the pointer. -/
def openIndex (c : CatalogManager n) (pageId : PageId) : Result (CatalogManager n) := do
  let (reply, bpm) ← c.bufferPoolManager.fetchPage pageId
  let f ← deref reply
  let (indexMeta, _) ← IndexMetadata.deserializeFrom (bpm.bytes f) 0
  let (info, c₁) := c.tableAt indexMeta.tableId
  let tableInfo ← deref info
  let names := (c₁.indexNames.lookup tableInfo.getTableName).getD ∅
  let indexInfo ← IndexInfo.init indexMeta tableInfo
  .ok
    { c₁ with
      bufferPoolManager := bpm
      indexNames := c₁.indexNames.insert tableInfo.getTableName
        (names.insert indexMeta.indexName indexMeta.indexId)
      indexes := c₁.indexes.insert indexMeta.indexId indexInfo }

/-- The constructor without `init`: the catalog is read back from its pages. -/
def load (bufferPoolManager : BufferPoolManager n) : Result (CatalogManager n) := do
  let (reply, bpm) ← bufferPoolManager.fetchPage CATALOG_META_PAGE_ID
  let f ← deref reply
  let (catalogMeta, _) ← CatalogMeta.deserializeFrom (bpm.bytes f) 0
  let c₁ ← catalogMeta.tableMetaPages.toList.foldlM (fun c entry => c.openTable entry.2)
    { init bpm with catalogMeta := catalogMeta }
  catalogMeta.indexMetaPages.toList.foldlM (fun c entry => c.openIndex entry.2) c₁

/-- `FlushCatalogMetaPage`, which is also what the destructor does to the pages. -/
def flushCatalogMetaPage (c : CatalogManager n) : Result (DbErr × CatalogManager n) := do
  let (reply, bpm₁) ← c.bufferPoolManager.fetchPage CATALOG_META_PAGE_ID
  let f ← deref reply
  let (_, m) ← c.catalogMeta.serializeTo (bpm₁.bytes f) 0
  let (done, bpm₂) ← (bpm₁.setBytes f m).flushPage CATALOG_META_PAGE_ID
  .ok (if done then .success else .failed, { c with bufferPoolManager := bpm₂ })

/-! ## Calls as transitions -/

/-- A completed call, with what it returned. -/
inductive Event
  | createTable (tableName : Str) (schema : Schema) (err : DbErr) (info : Option TableInfo)
  | dropTable (tableName : Str) (err : DbErr)
  | getTable (tableName : Str) (err : DbErr) (info : Option TableInfo)
  | createIndex (tableName indexName : Str) (indexKeys : { ks : List Str // ks.length < 2 ^ 32 })
      (err : DbErr)
  | dropIndex (tableName indexName : Str) (err : DbErr)

def Step (c : CatalogManager n) : Event → CatalogManager n → Prop
  | .createTable tableName schema err info, c' =>
    c.createTable tableName schema = .ok (err, info, c')
  | .dropTable tableName err, c' => c.dropTable tableName = .ok (err, c')
  | .getTable tableName err info, c' => c.getTable tableName = (err, info, c')
  | .createIndex tableName indexName indexKeys err, c' =>
    c.createIndex tableName indexName indexKeys = .ok (err, c')
  | .dropIndex tableName indexName err, c' => c.dropIndex tableName indexName = .ok (err, c')

end CatalogManager
end MiniSQL
