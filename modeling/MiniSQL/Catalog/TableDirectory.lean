import MiniSQL.Catalog.CatalogManager
import MiniSQL.Storage.HeapInsert

/-!
# TableDirectory — the table maps of the catalog over whole runs

`GetNextTableId` returns the largest id in use and not the one after it.  So the maps of the
catalog stay in step as long as a table is only made while there is no other, and the first table
made beside another one takes that one's id.
-/

namespace MiniSQL
namespace CatalogManager

open Lib BufferPoolManager

variable {n : Nat} {c c' : CatalogManager n} {a b : Str} {schema : Schema} {err : DbErr}
variable {info : Option TableInfo}

/-! ## What each call does to the table maps -/

/-- The table maps are the same. -/
structure SameTables (c c' : CatalogManager n) : Prop where
  names : c'.tableNames = c.tableNames
  tables : c'.tables = c.tables
  pages : c'.catalogMeta.tableMetaPages = c.catalogMeta.tableMetaPages

theorem SameTables.refl (c : CatalogManager n) : SameTables c c :=
  ⟨rfl, rfl, rfl⟩

/-- `c'` is `c` with the table `info`, under the id and on the page given. -/
structure AddsTable (c : CatalogManager n) (a : Str) (schema : Schema) (info : TableInfo)
    (c' : CatalogManager n) : Prop where
  fresh : c.tableNames.lookup a = none
  name : info.getTableName = a
  schema : info.getSchema = schema
  names : c'.tableNames = c.tableNames.insert a c.catalogMeta.getNextTableId
  tables : c'.tables = c.tables.insert c.catalogMeta.getNextTableId (some info)
  pages : ∃ pageId, c'.catalogMeta.tableMetaPages =
    c.catalogMeta.tableMetaPages.insert c.catalogMeta.getNextTableId pageId

theorem createTable_cases (h : c.createTable a schema = .ok (err, info, c')) :
    (err = .tableAlreadyExist ∧ c' = c ∧ ∃ i, c.tableNames.lookup a = some i) ∨
      (err = .success ∧ ∃ made, info = some made ∧ AddsTable c a schema made c') := by
  unfold createTable at h
  split at h
  · rename_i i hi
    cases h
    exact Or.inl ⟨rfl, rfl, i, hi⟩
  · rename_i hnone
    rcases bind_eq_ok.mp h with ⟨⟨reply, bpm₁⟩, _, h⟩
    rcases bind_eq_ok.mp h with ⟨⟨tableHeap, bpm₂⟩, _, h⟩
    rcases bind_eq_ok.mp h with ⟨⟨pageId, f⟩, _, h⟩
    rcases bind_eq_ok.mp h with ⟨⟨_, m⟩, _, h⟩
    cases h
    exact Or.inr ⟨rfl, _, rfl, hnone, rfl, rfl, rfl, rfl, pageId, rfl⟩

theorem dropTable_cases (h : c.dropTable a = .ok (err, c')) :
    (err = .tableNotExist ∧ c' = c ∧ c.tableNames.lookup a = none) ∨
      ∃ i, err = .success ∧ c.tableNames.lookup a = some i ∧
        c'.tableNames = c.tableNames.erase a ∧ c'.tables = c.tables.erase i ∧
        c'.catalogMeta.tableMetaPages = c.catalogMeta.tableMetaPages.erase i := by
  unfold dropTable at h
  split at h
  · rename_i hnone
    cases h
    exact Or.inl ⟨rfl, rfl, hnone⟩
  · rename_i i hi
    rcases bind_eq_ok.mp h with ⟨⟨_, bpm⟩, _, h⟩
    cases h
    exact Or.inr ⟨i, rfl, hi, rfl, rfl, rfl⟩

/-- `c'` is `c` with an index on the table of id `tableId`. -/
structure AddsIndex (c : CatalogManager n) (a indexName : Str) (tableId : UInt32)
    (info : IndexInfo) (c' : CatalogManager n) : Prop where
  table : c.tables.lookup tableId = some (some info.tableInfo)
  made : IndexInfo.init info.metaData info.tableInfo = .ok info
  indexId : info.metaData.indexId = c.catalogMeta.getNextIndexId
  name : info.metaData.indexName = indexName
  tableId : info.metaData.tableId = tableId
  names : c'.indexNames = (c.indexNames.insert a ((c.indexNames.lookup a).getD ∅)).insert a
    (((c.indexNames.lookup a).getD ∅).insert indexName c.catalogMeta.getNextIndexId)
  indexes : c'.indexes = c.indexes.insert c.catalogMeta.getNextIndexId info
  pages : ∃ pageId, c'.catalogMeta.indexMetaPages =
    c.catalogMeta.indexMetaPages.insert c.catalogMeta.getNextIndexId pageId

/-- `index_names_[a]` was read: the table `a` has a map of index names now. -/
def touchNames (c : CatalogManager n) (a : Str) : CatalogManager n :=
  { c with indexNames := c.indexNames.insert a ((c.indexNames.lookup a).getD ∅) }

/-- What `CreateIndex` can return, and why; a missing table info is a null pointer. -/
theorem createIndex_inversion {indexName : Str}
    {indexKeys : { ks : List Str // ks.length < 2 ^ 32 }}
    (h : c.createIndex a indexName indexKeys = .ok (err, c')) :
    (err = .tableNotExist ∧ c' = c ∧ c.tableNames.lookup a = none) ∨
      ∃ tableId, c.tableNames.lookup a = some tableId ∧
        ((err = .indexAlreadyExist ∧ (((c.indexNames.lookup a).getD ∅).lookup indexName).isSome ∧
            c' = c.touchNames a) ∨
          ((c.indexNames.lookup a).getD ∅).lookup indexName = none ∧
            ∃ tableInfo, c.tables.lookup tableId = some (some tableInfo) ∧
              ((err = .columnNameNotExist ∧ tableInfo.getSchema.keyMap indexKeys.val = none ∧
                  c' = c.touchNames a) ∨
                ∃ keyMap info, err = .success ∧
                  tableInfo.getSchema.keyMap indexKeys.val = some keyMap ∧
                  info.metaData.keyMap = keyMap.val ∧ info.tableInfo = tableInfo ∧
                  SameTables c c' ∧ AddsIndex c a indexName tableId info c')) := by
  unfold createIndex at h
  split at h
  · rename_i hnone
    cases h
    exact Or.inl ⟨rfl, rfl, hnone⟩
  · rename_i i hi
    refine Or.inr ⟨i, hi, ?_⟩
    simp only at h
    split at h
    · rename_i hsome
      cases h
      exact Or.inl ⟨rfl, hsome, rfl⟩
    · rename_i hfresh
      have hnone : ((c.indexNames.lookup a).getD ∅).lookup indexName = none := by
        simpa using hfresh
      refine Or.inr ⟨hnone, ?_⟩
      -- The code does not test the table info for null before it uses it.
      cases ht : c.tables.lookup i with
      | none =>
          simp only [tableAt, ht, deref, error_bind] at h
          cases h
      | some x =>
          cases x with
          | none =>
              simp only [tableAt, ht, deref, error_bind] at h
              cases h
          | some tableInfo =>
              simp only [tableAt, ht, deref, ok_bind] at h
              refine ⟨tableInfo, rfl, ?_⟩
              split at h
              · rename_i hkeys
                cases h
                exact Or.inl ⟨rfl, hkeys, rfl⟩
              · rename_i keyMap hkeys
                rcases bind_eq_ok.mp h with ⟨⟨reply, bpm₁⟩, _, h⟩
                rcases bind_eq_ok.mp h with ⟨⟨pageId, f⟩, _, h⟩
                rcases bind_eq_ok.mp h with ⟨⟨_, m⟩, _, h⟩
                rcases bind_eq_ok.mp h with ⟨indexInfo, hinit, h⟩
                cases h
                rcases bind_eq_ok.mp hinit with ⟨keyColumns, hcolumns, hmade⟩
                rw [← Except.ok.inj hmade] at hinit ⊢
                exact Or.inr ⟨keyMap, _, rfl, hkeys, rfl, rfl, ⟨rfl, rfl, rfl⟩,
                  ⟨ht, hinit, rfl, rfl, rfl, rfl, rfl, pageId, rfl⟩⟩

/-- `CreateIndex` on a table that is there makes sure that it has a map of index names. -/
theorem createIndex_cases {indexName : Str} {indexKeys : { ks : List Str // ks.length < 2 ^ 32 }}
    (h : c.createIndex a indexName indexKeys = .ok (err, c')) :
    (err = .tableNotExist ∧ c' = c ∧ c.tableNames.lookup a = none) ∨
      ∃ tableId, c.tableNames.lookup a = some tableId ∧ SameTables c c' ∧
        ((err ≠ .success ∧ err ≠ .tableNotExist ∧
            c'.indexNames = c.indexNames.insert a ((c.indexNames.lookup a).getD ∅) ∧
            c'.indexes = c.indexes ∧
            c'.catalogMeta.indexMetaPages = c.catalogMeta.indexMetaPages) ∨
          (err = .success ∧ ((c.indexNames.lookup a).getD ∅).lookup indexName = none ∧
            ∃ info, AddsIndex c a indexName tableId info c')) := by
  have htouched : SameTables c (c.touchNames a) := ⟨rfl, rfl, rfl⟩
  rcases createIndex_inversion h with hnone | ⟨tableId, hid, ⟨rfl, _, rfl⟩ |
    ⟨hnew, tableInfo, _, ⟨rfl, _, rfl⟩ | ⟨keyMap, info, rfl, _, _, _, hsame, hadds⟩⟩⟩
  · exact Or.inl hnone
  · exact Or.inr ⟨tableId, hid, htouched, Or.inl ⟨by decide, by decide, rfl, rfl, rfl⟩⟩
  · exact Or.inr ⟨tableId, hid, htouched, Or.inl ⟨by decide, by decide, rfl, rfl, rfl⟩⟩
  · exact Or.inr ⟨tableId, hid, hsame, Or.inr ⟨rfl, hnew, info, hadds⟩⟩

theorem createIndex_same {indexName : Str} {indexKeys : { ks : List Str // ks.length < 2 ^ 32 }}
    (h : c.createIndex a indexName indexKeys = .ok (err, c')) : SameTables c c' := by
  rcases createIndex_cases h with ⟨_, rfl, _⟩ | ⟨_, _, hsame, _⟩
  · exact SameTables.refl c'
  · exact hsame

/-- `DropIndex` takes the table's whole map of index names. -/
theorem dropIndex_cases {indexName : Str} (h : c.dropIndex a indexName = .ok (err, c')) :
    (err ≠ .success ∧ c' = c) ∨
      ∃ tableId names indexId, err = .success ∧ c.tableNames.lookup a = some tableId ∧
        c.indexNames.lookup a = some names ∧ names.lookup indexName = some indexId ∧
        SameTables c c' ∧ c'.indexNames = c.indexNames.erase a ∧
        c'.indexes = c.indexes.erase indexId ∧
        c'.catalogMeta.indexMetaPages = c.catalogMeta.indexMetaPages.erase indexId := by
  unfold dropIndex at h
  split at h
  · cases h
    exact Or.inl ⟨by decide, rfl⟩
  · rename_i tableId hid
    split at h
    · cases h
    · rename_i names hnames
      split at h
      · cases h
        exact Or.inl ⟨by decide, rfl⟩
      · rename_i indexId hindex
        rcases bind_eq_ok.mp h with ⟨⟨_, bpm⟩, _, h⟩
        cases h
        exact Or.inr ⟨tableId, names, indexId, rfl, hid, hnames, hindex, ⟨rfl, rfl, rfl⟩, rfl, rfl,
          rfl⟩

theorem dropIndex_same {indexName : Str} (h : c.dropIndex a indexName = .ok (err, c')) :
    SameTables c c' := by
  rcases dropIndex_cases h with ⟨_, rfl⟩ | ⟨_, _, _, _, _, _, _, hsame, _⟩
  · exact SameTables.refl c'
  · exact hsame

/-! ## Consistency -/

/-- The tables a client made and did not drop, each with its schema and the first page of its
heap. -/
abbrev History := Str → Option (Schema × PageId)

def track (h : History) : Event → History
  | .createTable a schema .success (some info) =>
    Function.update h a (some (schema, info.tableHeap.firstPageId))
  | .dropTable a _ => Function.update h a none
  | _ => h

/-- The maps of the catalog are in step and `GetTable` answers what the history says. -/
structure Consistent (c : CatalogManager n) (h : History) : Prop where
  ids_distinct : ∀ a b i, c.tableNames.lookup a = some i → c.tableNames.lookup b = some i → a = b
  ids_tables : ∀ i, (∃ a, c.tableNames.lookup a = some i) ↔ i ∈ c.tables
  ids_pages : ∀ i, (∃ a, c.tableNames.lookup a = some i) ↔ i ∈ c.catalogMeta.tableMetaPages
  get_none : ∀ a, h a = none → c.getTable a = (.tableNotExist, none, c)
  get_some : ∀ a schema p, h a = some (schema, p) →
    ∃ info, c.getTable a = (.success, some info, c) ∧ info.getTableName = a ∧
      info.getSchema = schema ∧ info.tableHeap.firstPageId = p

variable {h : History}

/-- What the maps hold for a name the history has, or has not. -/
def Recorded (c : CatalogManager n) (a : Str) : Option (Schema × PageId) → Prop
  | none => c.tableNames.lookup a = none
  | some (schema, p) => ∃ i info, c.tableNames.lookup a = some i ∧
      c.tables.lookup i = some (some info) ∧ info.getTableName = a ∧ info.getSchema = schema ∧
      info.tableHeap.firstPageId = p

theorem Consistent.recorded (hc : Consistent c h) (a : Str) : Recorded c a (h a) := by
  cases ha : h a with
  | none =>
      have hget := hc.get_none a ha
      unfold getTable at hget
      split at hget
      · rename_i hnone
        exact hnone
      · cases hget
  | some v =>
      rcases v with ⟨schema, p⟩
      rcases hc.get_some a schema p ha with ⟨info, hget, hinfo⟩
      unfold getTable at hget
      split at hget
      · cases hget
      · rename_i i hi
        cases ht : c.tables.lookup i with
        | none =>
            simp [tableAt, ht] at hget
        | some x =>
            simp only [tableAt, ht, Prod.mk.injEq, and_true, true_and] at hget
            subst hget
            exact ⟨i, info, hi, ht, hinfo⟩

/-- What the maps hold for a name is kept with its entries. -/
theorem Recorded.congr {v : Option (Schema × PageId)} (hrec : Recorded c a v)
    (hname : c'.tableNames.lookup a = c.tableNames.lookup a)
    (htable : ∀ i, c.tableNames.lookup a = some i → c'.tables.lookup i = c.tables.lookup i) :
    Recorded c' a v := by
  cases v with
  | none =>
      simp only [Recorded] at hrec ⊢
      rw [hname, hrec]
  | some v =>
      rcases hrec with ⟨i, info, hi, ht, hinfo⟩
      exact ⟨i, info, by rw [hname, hi], by rw [htable i hi, ht], hinfo⟩

theorem consistent_of_recorded
    (ids_distinct : ∀ a b i, c.tableNames.lookup a = some i → c.tableNames.lookup b = some i →
      a = b)
    (ids_tables : ∀ i, (∃ a, c.tableNames.lookup a = some i) ↔ i ∈ c.tables)
    (ids_pages : ∀ i, (∃ a, c.tableNames.lookup a = some i) ↔ i ∈ c.catalogMeta.tableMetaPages)
    (hrec : ∀ a, Recorded c a (h a)) : Consistent c h := by
  refine ⟨ids_distinct, ids_tables, ids_pages, fun a ha => ?_, fun a schema p ha => ?_⟩
  · have hnone := hrec a
    rw [ha] at hnone
    simp only [Recorded] at hnone
    simp only [getTable, hnone]
  · have hsome := hrec a
    rw [ha] at hsome
    rcases hsome with ⟨i, info, hi, ht, hinfo⟩
    refine ⟨info, ?_, hinfo⟩
    simp only [getTable, hi, tableAt, ht]

/-- A name is in the catalog exactly when the history has it. -/
theorem Consistent.lookup_eq_none_iff (hc : Consistent c h) (a : Str) :
    c.tableNames.lookup a = none ↔ h a = none := by
  have hrec := hc.recorded a
  constructor
  · intro hnone
    cases ha : h a with
    | none =>
        rfl
    | some v =>
        rw [ha] at hrec
        rcases hrec with ⟨i, _, hi, _⟩
        rw [hnone] at hi
        cases hi
  · intro ha
    rw [ha] at hrec
    exact hrec

theorem Consistent.same (hc : Consistent c h) (hs : SameTables c c') : Consistent c' h := by
  refine consistent_of_recorded ?_ ?_ ?_ fun a => ?_
  · rw [hs.names]
    exact hc.ids_distinct
  · rw [hs.names, hs.tables]
    exact hc.ids_tables
  · rw [hs.names, hs.pages]
    exact hc.ids_pages
  · exact (hc.recorded a).congr (by rw [hs.names]) fun i _ => by rw [hs.tables]

theorem init_consistent (bpm : BufferPoolManager n) : Consistent (init bpm) fun _ => none := by
  refine consistent_of_recorded ?_ ?_ ?_ fun a => ?_
  · intro a b i ha
    simp [init] at ha
  · intro i
    simp [init]
  · intro i
    simp [init, CatalogMeta.newInstance]
  · simp [Recorded, init]

/-! ## One call -/

/-- The condition: a table that is not there yet is only made while there is no table. -/
def OneAtATime (c : CatalogManager n) : Event → Prop
  | .createTable a _ _ _ => c.tableNames.lookup a = none → ∀ b, c.tableNames.lookup b = none
  | _ => True

/-- The only table of a catalog has id 0. -/
theorem Consistent.addsTable {made : TableInfo} (hc : Consistent c h)
    (hadds : AddsTable c a schema made c') (hempty : ∀ b, c.tableNames.lookup b = none) :
    Consistent c' (Function.update h a (some (schema, made.tableHeap.firstPageId))) := by
  -- The catalog was empty, so the new table is the only one after the call.
  have hnames : ∀ b i, c'.tableNames.lookup b = some i ↔
      b = a ∧ i = c.catalogMeta.getNextTableId := by
    intro b i
    rw [hadds.names]
    by_cases hb : b = a
    · subst hb
      rw [AList.lookup_insert]
      simp [eq_comm]
    · rw [AList.lookup_insert_ne hb, hempty b]
      simp [hb]
  have hids : ∀ i, (∃ b, c'.tableNames.lookup b = some i) ↔
      i = c.catalogMeta.getNextTableId := by
    intro i
    constructor
    · rintro ⟨b, hb⟩
      exact ((hnames b i).mp hb).2
    · rintro rfl
      exact ⟨a, (hnames a _).mpr ⟨rfl, rfl⟩⟩
  have hnotable : ∀ i, ¬(∃ b, c.tableNames.lookup b = some i) := by
    rintro i ⟨b, hb⟩
    rw [hempty b] at hb
    cases hb
  refine consistent_of_recorded ?_ ?_ ?_ ?_
  · intro x y i hx hy
    rw [((hnames x i).mp hx).1, ((hnames y i).mp hy).1]
  · intro i
    have hold := (hc.ids_tables i).not.mp (hnotable i)
    rw [hids, hadds.tables, AList.mem_insert]
    simp [hold]
  · intro i
    have hold := (hc.ids_pages i).not.mp (hnotable i)
    rcases hadds.pages with ⟨pageId, hpages⟩
    rw [hids, hpages, Std.ExtTreeMap.mem_insert, Std.LawfulEqCmp.compare_eq_iff_eq]
    simp [hold, eq_comm]
  · intro b
    by_cases hb : b = a
    · subst hb
      rw [Function.update_self]
      refine ⟨_, made, (hnames b _).mpr ⟨rfl, rfl⟩, ?_, hadds.name, hadds.schema, rfl⟩
      rw [hadds.tables, AList.lookup_insert]
    · rw [Function.update_of_ne hb, (hc.lookup_eq_none_iff b).mp (hempty b)]
      simp only [Recorded]
      rw [hadds.names, AList.lookup_insert_ne hb, hempty b]

/-- A table made beside another one takes the id of one that is there. -/
theorem Consistent.addsTable_shares {made : TableInfo} (hc : Consistent c h)
    (hadds : AddsTable c a schema made c') {i : UInt32} (hb : c.tableNames.lookup b = some i) :
    ∃ owner k, owner ≠ a ∧ c.tableNames.lookup owner = some k ∧
      c'.tableNames.lookup owner = some k ∧ c'.tableNames.lookup a = some k := by
  have hmem : i ∈ c.catalogMeta.tableMetaPages := (hc.ids_pages i).mp ⟨b, hb⟩
  have hsome : ∃ k, c.catalogMeta.tableMetaPages.maxKey? = some k := by
    cases hk : c.catalogMeta.tableMetaPages.maxKey? with
    | none =>
        rw [Std.ExtTreeMap.maxKey?_eq_none_iff] at hk
        rw [hk] at hmem
        simp at hmem
    | some k =>
        exact ⟨k, rfl⟩
  rcases hsome with ⟨k, hk⟩
  have hnext : c.catalogMeta.getNextTableId = k := by
    simp [CatalogMeta.getNextTableId, lastKey, hk]
  -- The largest id in the map belongs to some table.
  rcases (hc.ids_pages k).mpr (Std.ExtTreeMap.maxKey?_mem hk) with ⟨owner, howner⟩
  have hne : owner ≠ a := by
    rintro rfl
    rw [hadds.fresh] at howner
    cases howner
  refine ⟨owner, k, hne, howner, ?_, ?_⟩
  · rw [hadds.names, AList.lookup_insert_ne hne, howner]
  · rw [hadds.names, hnext, AList.lookup_insert]

theorem Consistent.addsTable_breaks {made : TableInfo} {h' : History} (hc : Consistent c h)
    (hadds : AddsTable c a schema made c') {i : UInt32} (hb : c.tableNames.lookup b = some i) :
    ¬Consistent c' h' := by
  intro hc'
  rcases hc.addsTable_shares hadds hb with ⟨owner, k, hne, _, hold, hnew⟩
  exact hne (hc'.ids_distinct owner a k hold hnew)

/-- A table is taken out of all maps. -/
theorem Consistent.dropTable (hc : Consistent c h) (hok : c.dropTable a = .ok (err, c')) :
    Consistent c' (Function.update h a none) := by
  rcases dropTable_cases hok with ⟨_, rfl, hnone⟩ | ⟨k, _, hk, hnames, htables, hpages⟩
  · have hsame : Function.update h a none = h := by
      rw [← (hc.lookup_eq_none_iff a).mp hnone, Function.update_eq_self]
    rw [hsame]
    exact hc
  · have hlookup : ∀ b, b ≠ a → c'.tableNames.lookup b = c.tableNames.lookup b := by
      intro b hb
      rw [hnames, AList.lookup_erase_ne hb]
    have hself : c'.tableNames.lookup a = none := by
      rw [hnames, AList.lookup_erase]
    have hne : ∀ b i, c'.tableNames.lookup b = some i → b ≠ a := by
      rintro b i hb rfl
      rw [hself] at hb
      cases hb
    -- The other names have other ids, so exactly the id `k` goes.
    have hids : ∀ i, (∃ b, c'.tableNames.lookup b = some i) ↔
        i ≠ k ∧ ∃ b, c.tableNames.lookup b = some i := by
      intro i
      constructor
      · rintro ⟨b, hb⟩
        have hba := hne b i hb
        rw [hlookup b hba] at hb
        refine ⟨?_, b, hb⟩
        rintro rfl
        exact hba (hc.ids_distinct b a i hb hk)
      · rintro ⟨hik, b, hb⟩
        have hba : b ≠ a := by
          rintro rfl
          rw [hk] at hb
          exact hik (Option.some.inj hb).symm
        exact ⟨b, by rw [hlookup b hba, hb]⟩
    refine consistent_of_recorded ?_ ?_ ?_ ?_
    · intro x y i hx hy
      rw [hlookup x (hne x i hx)] at hx
      rw [hlookup y (hne y i hy)] at hy
      exact hc.ids_distinct x y i hx hy
    · intro i
      rw [hids, hc.ids_tables, htables, AList.mem_erase]
    · intro i
      calc
        (∃ b, c'.tableNames.lookup b = some i)
            ↔ i ≠ k ∧ i ∈ c.catalogMeta.tableMetaPages := by rw [hids, hc.ids_pages]
        _ ↔ i ∈ c.catalogMeta.tableMetaPages.erase k := by
            rw [Std.ExtTreeMap.mem_erase, ne_comm, ne_eq, ne_eq,
              Std.LawfulEqCmp.compare_eq_iff_eq]
        _ ↔ i ∈ c'.catalogMeta.tableMetaPages := by rw [hpages]
    · intro b
      by_cases hb : b = a
      · rw [hb, Function.update_self]
        exact hself
      · rw [Function.update_of_ne hb]
        refine (hc.recorded b).congr (hlookup b hb) fun i hi => ?_
        have hik : i ≠ k := by
          rintro rfl
          exact hb (hc.ids_distinct b a i hi hk)
        rw [htables, AList.lookup_erase_ne hik]

/-- In a consistent catalog `GetTable` changes nothing. -/
theorem Consistent.getTable_same (hc : Consistent c h) (hok : c.getTable a = (err, info, c')) :
    c' = c := by
  cases ha : h a with
  | none =>
      rw [hc.get_none a ha] at hok
      cases hok
      rfl
  | some v =>
      rcases hc.get_some a v.1 v.2 ha with ⟨_, hget, _⟩
      rw [hget] at hok
      cases hok
      rfl

/-- In a consistent catalog the next call keeps it so exactly when it meets the condition. -/
theorem Step.consistent_iff {e : Event} (hstep : Step c e c') (hc : Consistent c h) :
    Consistent c' (track h e) ↔ OneAtATime c e := by
  cases e with
  | createTable a schema err info =>
      rcases createTable_cases hstep with ⟨rfl, rfl, i, hi⟩ | ⟨rfl, made, rfl, hadds⟩
      · refine iff_of_true hc fun hnone => ?_
        rw [hi] at hnone
        cases hnone
      · -- The table is new: were there another one, it would take that one's id.
        constructor
        · intro hc' _ b
          cases hb : c.tableNames.lookup b with
          | none =>
              rfl
          | some i =>
              exact absurd hc' (hc.addsTable_breaks hadds hb)
        · intro hone
          exact hc.addsTable hadds (hone hadds.fresh)
  | dropTable a err =>
      exact iff_of_true (hc.dropTable hstep) trivial
  | getTable a err info =>
      rw [hc.getTable_same hstep]
      exact iff_of_true hc trivial
  | createIndex a indexName indexKeys err =>
      exact iff_of_true (hc.same (createIndex_same hstep)) trivial
  | dropIndex a indexName err =>
      exact iff_of_true (hc.same (dropIndex_same hstep)) trivial

/-! ## Runs -/

/-- A call, with the history of the client. -/
def ClientStep (x : CatalogManager n × History) (e : Event) (y : CatalogManager n × History) :
    Prop :=
  Step x.1 e y.1 ∧ y.2 = track x.2 e

/-- In every run on a new catalog in which tables are made one at a time the catalog is consistent
in every state, and there the next call keeps it so exactly when it meets the condition. -/
theorem directory_of_one_table_run {bpm : BufferPoolManager n} {es : List Event}
    {c : CatalogManager n} {h : History}
    (hrun : Run (fun x e y => OneAtATime x.1 e ∧ ClientStep x e y) (init bpm, fun _ => none) es
      (c, h)) :
    Consistent c h ∧ ∀ e c', Step c e c' → (Consistent c' (track h e) ↔ OneAtATime c e) := by
  have hinv := hrun.invariant (P := fun x => Consistent x.1 x.2)
    (fun x e y hc hstep => by
      rcases hstep with ⟨hone, hstep, htrack⟩
      rw [htrack]
      exact (hstep.consistent_iff hc).mpr hone) (init_consistent bpm)
  exact ⟨hinv, fun e c' hstep => hstep.consistent_iff hinv⟩

/-- `CreateTable` of a new name, with two free frames and room on disk, succeeds. -/
theorem createTable_new {f g : Fin n} {rest : List (Fin n)} {k : Nat}
    (hpool : PoolInv c.bufferPoolManager)
    (hfree : c.bufferPoolManager.freeList = f :: g :: rest)
    (hdense : DiskManager.Dense c.bufferPoolManager.diskManager k)
    (hk : k + 1 < MAX_VALID_PAGE_ID) (hnew : c.tableNames.lookup a = none)
    (hfits : ∀ id page, (TableMetadata.mk id a page schema).getSerializedSize ≤ PAGE_SIZE) :
    ∃ made c', c.createTable a schema = .ok (.success, some made, c') ∧
      PoolInv c'.bufferPoolManager ∧ c'.bufferPoolManager.freeList = rest ∧
      DiskManager.Dense c'.bufferPoolManager.diskManager (k + 2) ∧
      c'.catalogMeta.tableMetaPages =
        c.catalogMeta.tableMetaPages.insert c.catalogMeta.getNextTableId (Int32.ofNat k) ∧
      made.tableHeap.firstPageId = Int32.ofNat (k + 1) ∧
      TableHeap.Chain c'.bufferPoolManager (Int32.ofNat (k + 1)) [g] := by
  rcases hdense.allocatePage_ok (by omega) with ⟨dm₁, halloc₁, hdense₁⟩
  rcases hpool.newPage_free hfree halloc₁ with ⟨bpm₁, hpage, hpool₁, hadds, hdm₁⟩
  have hfree₁ := hadds.free_eq hfree
  rw [← hdm₁] at hdense₁
  rcases hdense₁.allocatePage_ok hk with ⟨dm₂, halloc₂, hdense₂⟩
  rcases TableHeap.create_spec hpool₁ hfree₁ halloc₂ schema with
    ⟨bpm₂, hheap, hchain, _, hfree₂, hdm₂, hkept⟩
  -- The meta page is still in its frame when it is written and unpinned.
  have hl₂ : bpm₂.pageTable.lookup (Int32.ofNat k) = some f := hkept _ _ hadds.lookup_new
  set tableMeta : TableMetadata :=
    ⟨c.catalogMeta.getNextTableId, a, Int32.ofNat (k + 1), schema⟩ with hmeta
  have hwrite : tableMeta.serializeTo (bpm₂.bytes f) 0 =
      .ok (tableMeta.getSerializedSize, (bpm₂.bytes f).store 0 tableMeta.encode) :=
    TableMetadata.serializeTo_eq (hfits _ _) _ _
  set m := (bpm₂.bytes f).store 0 tableMeta.encode with hm
  have hl₃ : (bpm₂.setBytes f m).pageTable.lookup (Int32.ofNat k) = some f := hl₂
  rcases (hchain.pool.setBytes hl₂ m).unpinPage_resident hl₃ true with ⟨hpool₃, hsame⟩
  refine ⟨⟨tableMeta, ⟨Int32.ofNat (k + 1), schema⟩⟩,
    { c with
      bufferPoolManager := ((bpm₂.setBytes f m).unpinPage (Int32.ofNat k) true).2
      catalogMeta := { c.catalogMeta with
        tableMetaPages := c.catalogMeta.tableMetaPages.insert c.catalogMeta.getNextTableId
          (Int32.ofNat k) }
      tableNames := c.tableNames.insert a c.catalogMeta.getNextTableId
      tables := c.tables.insert c.catalogMeta.getNextTableId
        (some ⟨tableMeta, ⟨Int32.ofNat (k + 1), schema⟩⟩) }, ?_, hpool₃, ?_, ?_, rfl, rfl, ?_⟩
  · simp only [createTable, hnew, hpage, ok_bind, hheap, deref, ← hmeta, hwrite]
  · rw [hsame.free, setBytes_freeList, hfree₂]
  · rw [hsame.disk]
    have hdisk : (bpm₂.setBytes f m).diskManager = dm₂ := hdm₂
    rw [hdisk]
    exact hdense₂
  · have hgf : g ≠ f := by
      rintro rfl
      exact hpool₁.frames.free_not_resident (by simp [hfree₁]) _ hadds.lookup_new
    refine hchain.chain.congr (fun p h hp => by rw [hsame.table]; exact hp) fun h hh => ?_
    rw [List.mem_singleton.mp hh, TableHeap.bytes_congr hsame, bytes_setBytes_ne m hgf]

/-- Table names `a` and `b`. -/
def nameA : Str := ⟨[97], by decide⟩
def nameB : Str := ⟨[98], by decide⟩

theorem charSchema_fits {a : Str} (ha : a.val.length = 1) (id : UInt32) (page : PageId) :
    (TableMetadata.mk id a page TableHeap.charSchema).getSerializedSize ≤ PAGE_SIZE := by
  have hschema : TableHeap.charSchema.getSerializedSize + 17 ≤ PAGE_SIZE := by decide
  simp only [TableMetadata.getSerializedSize, ha]
  omega

/-- The first table of a new catalog in a pool of four frames. -/
theorem first_table : ∃ (made : TableInfo) (c : CatalogManager 4),
    Step (init (BufferPoolManager.init 4 DiskManager.fresh))
      (.createTable nameA TableHeap.charSchema .success (some made)) c ∧
    PoolInv c.bufferPoolManager ∧ c.bufferPoolManager.freeList = [2, 3] ∧
    DiskManager.Dense c.bufferPoolManager.diskManager 2 ∧
    c.catalogMeta.tableMetaPages =
      CatalogMeta.newInstance.tableMetaPages.insert CatalogMeta.newInstance.getNextTableId 0 ∧
    made.tableHeap.firstPageId = Int32.ofNat 1 ∧
    TableHeap.Chain c.bufferPoolManager (Int32.ofNat 1) [1] := by
  exact createTable_new (c := init (BufferPoolManager.init 4 DiskManager.fresh))
    (f := (0 : Fin 4)) (g := 1) (init_poolInv 4 DiskManager.fresh_inv) rfl DiskManager.fresh_dense
    (by decide) rfl (charSchema_fits rfl)

/-- Two tables are made one after the other: both get id 0. -/
theorem second_table_shares_id :
    ∃ (es : List Event) (c : CatalogManager 4) (h : History),
      Run ClientStep (init (BufferPoolManager.init 4 DiskManager.fresh), fun _ => none) es (c, h) ∧
      (∃ i, c.tableNames.lookup nameA = some i ∧ c.tableNames.lookup nameB = some i) ∧
      ¬Consistent c h := by
  rcases first_table with ⟨made, c₁, hstep₁, hpool₁, hfree₁, hdense₁, _⟩
  have hc₁ := (hstep₁.consistent_iff (init_consistent _)).mpr fun _ _ => rfl
  rcases createTable_cases hstep₁ with ⟨hfalse, _⟩ | ⟨_, made', hmade, hadds₁⟩
  · cases hfalse
  · cases hmade
    have hnew : c₁.tableNames.lookup nameB = none := by
      rw [hadds₁.names, AList.lookup_insert_ne (by decide)]
      rfl
    rcases createTable_new hpool₁ hfree₁ hdense₁ (by decide) hnew (charSchema_fits rfl) with
      ⟨made₂, c₂, hok, _⟩
    have hstep₂ : Step c₁ (.createTable nameB TableHeap.charSchema .success (some made₂)) c₂ := hok
    rcases createTable_cases hok with ⟨hfalse, _⟩ | ⟨_, made', hmade, hadds₂⟩
    · cases hfalse
    · cases hmade
      have hidA : ∃ i, c₁.tableNames.lookup nameA = some i := by
        rw [hadds₁.names, AList.lookup_insert]
        exact ⟨_, rfl⟩
      rcases hidA with ⟨i, hidA⟩
      rcases hc₁.addsTable_shares hadds₂ hidA with ⟨owner, k, hne, hold, howner, hid⟩
      -- Only one name was there to share an id with.
      have hnameA : owner = nameA := by
        by_contra hother
        rw [hadds₁.names, AList.lookup_insert_ne hother] at hold
        cases hold
      subst hnameA
      set h₁ := track (fun _ => none)
        (.createTable nameA TableHeap.charSchema .success (some made)) with hh₁
      set h₂ := track h₁ (.createTable nameB TableHeap.charSchema .success (some made₂)) with hh₂
      have hclient₁ : ClientStep (init (BufferPoolManager.init 4 DiskManager.fresh), fun _ => none)
          (.createTable nameA TableHeap.charSchema .success (some made)) (c₁, h₁) := ⟨hstep₁, rfl⟩
      have hclient₂ : ClientStep (c₁, h₁)
          (.createTable nameB TableHeap.charSchema .success (some made₂)) (c₂, h₂) := ⟨hstep₂, rfl⟩
      exact ⟨_, c₂, h₂, Run.cons hclient₁ (Run.cons hclient₂ (Run.nil _)), ⟨k, howner, hid⟩,
        hc₁.addsTable_breaks hadds₂ hidA⟩

/-- One table is made and can be found. -/
theorem directory_of_one_table_run_first :
    ∃ (made : TableInfo) (c : CatalogManager 4) (h : History),
      Run (fun x e y => OneAtATime x.1 e ∧ ClientStep x e y)
        (init (BufferPoolManager.init 4 DiskManager.fresh), fun _ => none)
        [.createTable nameA TableHeap.charSchema .success (some made)] (c, h) ∧
      Consistent c h := by
  rcases first_table with ⟨made, c, hstep, _⟩
  have hrun : Run (fun x e y => OneAtATime x.1 e ∧ ClientStep x e y)
      (init (BufferPoolManager.init 4 DiskManager.fresh), fun _ => none)
      [.createTable nameA TableHeap.charSchema .success (some made)] (c, _) :=
    Run.cons ⟨fun _ _ => rfl, hstep, rfl⟩ (Run.nil _)
  exact ⟨made, c, _, hrun, (directory_of_one_table_run hrun).1⟩

end CatalogManager
end MiniSQL
