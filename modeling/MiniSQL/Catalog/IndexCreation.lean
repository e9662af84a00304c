import MiniSQL.Catalog.IndexDirectory
import MiniSQL.Catalog.KeySize

/-!
# IndexCreation — is `CreateIndex` all or nothing

`CreateIndex` reads `index_names_[table]` before it has looked at the keys, which leaves an empty
map there when a key is no column: from then on `GetIndex` answers for the table instead of
throwing.  And a key that is too large for a tree is noticed in `IndexInfo` only, so the call
succeeds with a null index.  `createIndex_all_or_nothing_iff` says that these are the only two
cases.  `index_type` is not looked at: `Init` passes the name of the one kind there is.
-/

namespace MiniSQL

open Lib

namespace Schema

variable {schema : Schema}

/-- The columns these names stand for, the first of each name; `none` when one stands for none. -/
def namedColumns (schema : Schema) (names : List Str) : Option (List Column) :=
  names.mapM fun name => schema.columns.find? fun column => column.name = name

/-- `GetColumnIndex` and `GetColumn` lead to the column of that name. -/
theorem getColumnIndex_cases (schema : Schema) (name : Str) :
    (schema.getColumnIndex name = none ∧
        (schema.columns.find? fun column => column.name = name) = none) ∨
      ∃ k column, schema.getColumnIndex name = some k ∧
        (schema.columns.find? fun column => column.name = name) = some column ∧
        schema.getColumn k.toNat = .ok column := by
  unfold getColumnIndex
  cases hfind : schema.columns.findIdx? fun column => column.name = name with
  | none =>
      refine Or.inl ⟨rfl, List.find?_eq_none.mpr fun column hmem => ?_⟩
      simpa using List.findIdx?_eq_none_iff.mp hfind column hmem
  | some i =>
      rcases List.findIdx?_eq_some_iff_getElem.mp hfind with ⟨hi, hname, hbefore⟩
      have hlt : i < 2 ^ 32 := lt_trans hi schema.columns_lt
      refine Or.inr ⟨UInt32.ofNat i, schema.columns[i], rfl, ?_, ?_⟩
      · refine List.find?_eq_some_iff_getElem.mpr ⟨hname, i, hi, rfl, fun j hj => ?_⟩
        simpa using hbefore j hj
      · rw [getColumn_eq_ok, UInt32.toNat_ofNat_of_lt' hlt, List.getElem?_eq_getElem hi]

/-- The key map of `CreateIndex` leads to the named columns. -/
theorem keyMap_cases (schema : Schema) (names : List Str) :
    (schema.keyMap names = none ∧ schema.namedColumns names = none) ∨
      ∃ keyMap columns, schema.keyMap names = some keyMap ∧
        schema.namedColumns names = some columns ∧
        keyMap.val.mapM (fun k => schema.getColumn k.toNat) = .ok columns := by
  induction names with
  | nil =>
      exact Or.inr ⟨⟨[], rfl⟩, [], rfl, rfl, rfl⟩
  | cons name names ih =>
      rcases schema.getColumnIndex_cases name with ⟨hnone, hfind⟩ | ⟨k, column, hk, hfind, hget⟩
      · refine Or.inl ⟨?_, ?_⟩
        · simp only [keyMap, hnone, Option.bind_eq_bind, Option.bind_none]
        · simp only [namedColumns, List.mapM_cons, hfind, Option.bind_eq_bind, Option.bind_none]
      · -- The column is there; the rest of the names decides.
        rcases ih with ⟨hkeys, hnamed⟩ | ⟨rest, columns, hkeys, hnamed, hgets⟩
        · refine Or.inl ⟨?_, ?_⟩
          · simp only [keyMap, hk, hkeys, Option.bind_eq_bind, Option.bind_some, Option.bind_none]
          · rw [namedColumns] at hnamed
            simp only [namedColumns, List.mapM_cons, hfind, hnamed, Option.bind_eq_bind,
              Option.bind_some, Option.bind_none]
        · refine Or.inr ⟨⟨k :: rest.val, by rw [List.length_cons, rest.2, List.length_cons]⟩,
            column :: columns, ?_, ?_, ?_⟩
          · simp only [keyMap, hk, hkeys, Option.bind_eq_bind, Option.bind_some]
          · rw [namedColumns] at hnamed
            simp only [namedColumns, List.mapM_cons, hfind, hnamed, Option.bind_eq_bind,
              Option.bind_some, Option.pure_def]
          · simp only [List.mapM_cons, hget, ok_bind, hgets]
            rfl

end Schema

namespace CatalogManager

open BufferPoolManager

variable {n : Nat} {c c' d : CatalogManager n} {t i : Str} {err : DbErr}
  {keys : { ks : List Str // ks.length < 2 ^ 32 }}

/-! ## Later calls -/

/-- The calls about indexes. -/
inductive IndexCall
  | getIndex (tableName indexName : Str)
  | dropIndex (tableName indexName : Str)
  | createIndex (tableName indexName : Str) (indexKeys : { ks : List Str // ks.length < 2 ^ 32 })

/-- What a call returns, with its out parameter, and the catalog after it. -/
def answer (c : CatalogManager n) :
    IndexCall → Result ((DbErr × Option IndexInfo) × CatalogManager n)
  | .getIndex t i => (c.getIndex t i).map fun reply => (reply, c)
  | .dropIndex t i => (c.dropIndex t i).map fun x => ((x.1, none), x.2)
  | .createIndex t i keys =>
    (c.createIndex t i keys).map fun x => ((x.1, c.madeIndex x.1 x.2), x.2)

/-- What the calls return, one after the other, up to the first that does not. -/
def outcomes (c : CatalogManager n) : List IndexCall → List (Result (DbErr × Option IndexInfo))
  | [] => []
  | call :: calls =>
    match c.answer call with
    | .ok (reply, c') => .ok reply :: c'.outcomes calls
    | .error e => [.error e]

/-- The catalogs differ in the order of `index_names_` at most. -/
structure Alike (c c' : CatalogManager n) : Prop where
  pool : c'.bufferPoolManager = c.bufferPoolManager
  metaData : c'.catalogMeta = c.catalogMeta
  tableNames : c'.tableNames = c.tableNames
  tables : c'.tables = c.tables
  indexes : c'.indexes = c.indexes
  indexNames : ∀ t, c'.indexNames.lookup t = c.indexNames.lookup t

/-- Two answers are the same, up to catalogs that are alike. -/
inductive Agree {α : Type} :
    Result (α × CatalogManager n) → Result (α × CatalogManager n) → Prop
  | ok {a : α} {c c' : CatalogManager n} : Alike c c' → Agree (.ok (a, c)) (.ok (a, c'))
  | error (e : Fault) : Agree (.error e) (.error e)

theorem Agree.bind {α β : Type} (x : Result β) {f f' : β → Result (α × CatalogManager n)}
    (h : ∀ b, Agree (f b) (f' b)) : Agree (x >>= f) (x >>= f') := by
  cases x with
  | error e =>
      exact Agree.error e
  | ok b =>
      exact h b

theorem getIndex_alike (h : Alike c c') (t i : Str) : c'.getIndex t i = c.getIndex t i := by
  simp only [getIndex, h.tableNames, h.indexNames, h.indexes]

theorem dropIndex_alike (h : Alike c c') (t i : Str) :
    Agree (c.dropIndex t i) (c'.dropIndex t i) := by
  simp only [dropIndex, h.tableNames, h.indexNames, h.metaData, h.pool, h.indexes, h.tables]
  split
  · exact Agree.ok h
  · split
    · exact Agree.error _
    · split
      · exact Agree.ok h
      · refine Agree.bind _ fun reply => Agree.ok ⟨rfl, rfl, rfl, rfl, rfl, fun t' => ?_⟩
        by_cases ht : t' = t
        · rw [ht, AList.lookup_erase, AList.lookup_erase]
        · rw [AList.lookup_erase_ne ht, AList.lookup_erase_ne ht, h.indexNames]

theorem createIndex_alike (h : Alike c c') (t i : Str)
    (keys : { ks : List Str // ks.length < 2 ^ 32 }) :
    Agree (c.createIndex t i keys) (c'.createIndex t i keys) := by
  have hinsert : ∀ (names : AList fun _ : Str => UInt32) (t' : Str),
      (c'.indexNames.insert t names).lookup t' = (c.indexNames.insert t names).lookup t' := by
    intro names t'
    -- `operator[]` has left a map under the name on both sides by now.
    by_cases ht : t' = t
    · rw [ht, AList.lookup_insert, AList.lookup_insert]
    · rw [AList.lookup_insert_ne ht, AList.lookup_insert_ne ht, h.indexNames]
  simp only [createIndex, tableAt, h.tableNames, h.indexNames, h.metaData, h.pool, h.indexes,
    h.tables]
  split
  · exact Agree.ok h
  · split
    · exact Agree.ok ⟨rfl, rfl, rfl, rfl, rfl, hinsert _⟩
    · cases htable : c.tables.lookup _ with
      | none =>
          exact Agree.error _
      | some info =>
          dsimp only
          refine Agree.bind _ fun tableInfo => ?_
          split
          · exact Agree.ok ⟨rfl, rfl, rfl, rfl, rfl, hinsert _⟩
          · refine Agree.bind _ fun reply => Agree.bind _ fun page => Agree.bind _ fun m =>
              Agree.bind _ fun indexInfo => Agree.ok ⟨rfl, rfl, rfl, rfl, rfl, fun t' => ?_⟩
            by_cases ht : t' = t
            · rw [ht, AList.lookup_insert, AList.lookup_insert]
            · simp only [AList.lookup_insert_ne ht, h.indexNames]

/-- Catalogs that are alike cannot be told apart by calls about indexes. -/
theorem outcomes_alike (h : Alike c c') (calls : List IndexCall) :
    c'.outcomes calls = c.outcomes calls := by
  induction calls generalizing c c' with
  | nil =>
      rfl
  | cons call calls ih =>
      have hagree : Agree (c.answer call) (c'.answer call) := by
        cases call with
        | getIndex t i =>
            simp only [answer, getIndex_alike h]
            cases c.getIndex t i with
            | error e => exact Agree.error e
            | ok reply => exact Agree.ok h
        | dropIndex t i =>
            have hdrop := dropIndex_alike h t i
            -- Both catalogs answer alike; only the outcome matters from here.
            simp only [answer]
            generalize c.dropIndex t i = x at hdrop
            generalize c'.dropIndex t i = y at hdrop
            cases hdrop with
            | ok hd => exact Agree.ok hd
            | error e => exact Agree.error e
        | createIndex t i keys =>
            have hcreate := createIndex_alike h t i keys
            simp only [answer]
            generalize c.createIndex t i keys = x at hcreate
            generalize c'.createIndex t i keys = y at hcreate
            cases hcreate with
            | @ok a d d' hd =>
                have hnext : c'.madeIndex a d' = c.madeIndex a d := by
                  rw [madeIndex, madeIndex, h.metaData, hd.indexes]
                simp only [Except.map, hnext]
                exact Agree.ok hd
            | error e => exact Agree.error e
      simp only [outcomes]
      generalize c.answer call = x at hagree
      generalize c'.answer call = y at hagree
      cases hagree with
      | ok hd => simp only [ih hd]
      | error e => rfl

/-! ## All or nothing -/

/-- The index that `CreateIndex` returned has a tree, is over the named columns of the table, in
order, and is recorded in the three maps. -/
structure Installed (c : CatalogManager n) (t i : Str) (keys : List Str) (c' : CatalogManager n)
    (info : IndexInfo) : Prop where
  returned : c.madeIndex .success c' = some info
  tree : info.index ≠ none
  table : ∃ tableId, c.tableNames.lookup t = some tableId ∧
    c.tables.lookup tableId = some (some info.tableInfo)
  columns : info.tableInfo.getSchema.namedColumns keys = some info.keyColumns
  named : ∃ names, c'.indexNames.lookup t = some names ∧
    names.lookup i = some info.metaData.indexId
  stored : c'.indexes.lookup info.metaData.indexId = some info
  paged : info.metaData.indexId ∈ c'.catalogMeta.indexMetaPages

/-- The maps and the allocated pages are those before the call, and so is what later calls about
indexes return. -/
structure Untouched (c c' : CatalogManager n) : Prop where
  tableNames : ∀ t, c'.tableNames.lookup t = c.tableNames.lookup t
  tables : ∀ tableId, c'.tables.lookup tableId = c.tables.lookup tableId
  indexNames : ∀ t, c'.indexNames.lookup t = c.indexNames.lookup t
  indexes : ∀ indexId, c'.indexes.lookup indexId = c.indexes.lookup indexId
  metaData : c'.catalogMeta = c.catalogMeta
  allocated : ∀ p, c'.bufferPoolManager.isPageFree p = c.bufferPoolManager.isPageFree p
  later : ∀ calls, c'.outcomes calls = c.outcomes calls

def AllOrNothing (c : CatalogManager n) (t i : Str) (keys : List Str) (err : DbErr)
    (c' : CatalogManager n) : Prop :=
  (err = .success → ∃ info, Installed c t i keys c' info) ∧ (err ≠ .success → Untouched c c')

theorem Alike.untouched (h : Alike c c') : Untouched c c' where
  tableNames := fun t => by rw [h.tableNames]
  tables := fun tableId => by rw [h.tables]
  indexNames := h.indexNames
  indexes := fun indexId => by rw [h.indexes]
  metaData := h.metaData
  allocated := fun p => by rw [h.pool]
  later := outcomes_alike h

/-- Reading `index_names_[t]` changes nothing when there is a map for the table. -/
theorem touchNames_alike {names : AList fun _ : Str => UInt32}
    (hnames : c.indexNames.lookup t = some names) : Alike c (c.touchNames t) := by
  refine ⟨rfl, rfl, rfl, rfl, rfl, fun t' => ?_⟩
  simp only [touchNames, hnames, Option.getD_some]
  by_cases ht : t' = t
  · rw [ht, AList.lookup_insert, hnames]
  · rw [AList.lookup_insert_ne ht]

/-- What has to hold of the catalog and the arguments: the table is not there, or the index is, or
the keys are columns of at most 248 bytes together, or one is no column and the table has a map of
index names. -/
def Harmless (c : CatalogManager n) (t i : Str) (keys : List Str) : Prop :=
  c.tableNames.lookup t = none ∨
    (∃ names, c.indexNames.lookup t = some names ∧ (names.lookup i).isSome) ∨
    ∃ tableId tableInfo, c.tableNames.lookup t = some tableId ∧
      c.tables.lookup tableId = some (some tableInfo) ∧
      ((∃ columns, tableInfo.getSchema.namedColumns keys = some columns ∧
          (columns.map fun column => column.len.toNat).sum ≤ 248) ∨
        (tableInfo.getSchema.namedColumns keys = none ∧
          ∃ names, c.indexNames.lookup t = some names))

end CatalogManager

theorem IndexInfo.keySize_ne_none_iff {size : Nat} :
    IndexInfo.keySize size ≠ none ↔ size ≤ 248 := by
  unfold IndexInfo.keySize
  split_ifs <;> simp <;> omega

namespace CatalogManager

open BufferPoolManager

variable {n : Nat} {c c' d : CatalogManager n} {t i : Str} {err : DbErr}
  {keys : { ks : List Str // ks.length < 2 ^ 32 }}

/-- The columns of an index that was made are those named by its keys. -/
theorem AddsIndex.columns {tableId : UInt32} {info : IndexInfo}
    {keyMap : { xs : List UInt32 // xs.length = keys.val.length }}
    (h : AddsIndex c t i tableId info c')
    (hkeys : info.tableInfo.getSchema.keyMap keys.val = some keyMap)
    (hmap : info.metaData.keyMap = keyMap.val) :
    info.tableInfo.getSchema.namedColumns keys.val = some info.keyColumns := by
  rcases bind_eq_ok.mp h.made with ⟨keyColumns, hcolumns, hmade⟩
  rw [hmap] at hcolumns
  rcases info.tableInfo.getSchema.keyMap_cases keys.val with ⟨hnone, _⟩ |
    ⟨keyMap', columns, hkeys', hnamed, hgets⟩
  · rw [hkeys] at hnone
    cases hnone
  · rw [hkeys] at hkeys'
    obtain rfl := Option.some.inj hkeys'
    rw [hgets] at hcolumns
    rw [hnamed, Except.ok.inj hcolumns, ← Except.ok.inj hmade]

/-- An index that was made is installed exactly when its columns are small enough for a tree. -/
theorem AddsIndex.installed_iff {tableId : UInt32} {info : IndexInfo}
    (h : AddsIndex c t i tableId info c') (hid : c.tableNames.lookup t = some tableId)
    (hcolumns : info.tableInfo.getSchema.namedColumns keys.val = some info.keyColumns) :
    (∃ info', Installed c t i keys.val c' info') ↔
      (info.keyColumns.map fun column => column.len.toNat).sum ≤ 248 := by
  have hreturned : c.madeIndex .success c' = some info := by
    rw [madeIndex, if_pos rfl, h.indexes, AList.lookup_insert]
  rw [← IndexInfo.keySize_ne_none_iff, ← (IndexInfo.init_cases h.made).2]
  constructor
  · rintro ⟨info', hinst⟩
    have hsame := hinst.returned
    rw [hreturned] at hsame
    obtain rfl := Option.some.inj hsame
    exact hinst.tree
  · intro htree
    refine ⟨info, hreturned, htree, ⟨tableId, hid, h.table⟩, hcolumns, ?_, ?_, ?_⟩
    · rw [h.names, h.indexId]
      exact ⟨_, AList.lookup_insert .., AList.lookup_insert ..⟩
    · rw [h.indexes, h.indexId, AList.lookup_insert]
    · rcases h.pages with ⟨pageId, hpages⟩
      rw [hpages, h.indexId]
      exact Std.ExtTreeMap.mem_insert_self

/-- A call that failed on a table is harmless exactly when the table has a map of index names. -/
theorem touchNames_untouched_iff :
    Untouched c (c.touchNames t) ↔ ∃ names, c.indexNames.lookup t = some names := by
  constructor
  · intro h
    have hsame := h.indexNames t
    rw [touchNames, AList.lookup_insert] at hsame
    exact ⟨_, hsame.symm⟩
  · rintro ⟨names, hnames⟩
    exact (touchNames_alike hnames).untouched

theorem Harmless.found_iff {tableId : UInt32} {tableInfo : TableInfo}
    (hid : c.tableNames.lookup t = some tableId)
    (htable : c.tables.lookup tableId = some (some tableInfo))
    (hnew : ((c.indexNames.lookup t).getD ∅).lookup i = none) {ks : List Str} :
    Harmless c t i ks ↔
      (∃ columns, tableInfo.getSchema.namedColumns ks = some columns ∧
          (columns.map fun column => column.len.toNat).sum ≤ 248) ∨
        (tableInfo.getSchema.namedColumns ks = none ∧
          ∃ names, c.indexNames.lookup t = some names) := by
  constructor
  · rintro (hnone | ⟨names, hnames, hsome⟩ | ⟨tableId', tableInfo', hid', htable', h⟩)
    · rw [hid] at hnone
      cases hnone
    · rw [hnames, Option.getD_some] at hnew
      rw [hnew] at hsome
      cases hsome
    · rw [hid] at hid'
      obtain rfl := Option.some.inj hid'
      rw [htable] at htable'
      obtain rfl := Option.some.inj (Option.some.inj htable')
      exact h
  · intro h
    exact Or.inr (Or.inr ⟨tableId, tableInfo, hid, htable, h⟩)

/-- `CreateIndex` is all or nothing exactly on the arguments that are harmless. -/
theorem createIndex_all_or_nothing_iff (hok : c.createIndex t i keys = .ok (err, c')) :
    AllOrNothing c t i keys.val err c' ↔ Harmless c t i keys.val := by
  have hfailed : ∀ {e : DbErr} {d : CatalogManager n}, e ≠ .success →
      (AllOrNothing c t i keys.val e d ↔ Untouched c d) := fun hne =>
    ⟨fun h => h.2 hne, fun h => ⟨fun heq => absurd heq hne, fun _ => h⟩⟩
  rcases createIndex_inversion hok with ⟨rfl, rfl, hnone⟩ | ⟨tableId, hid, ⟨rfl, hsome, rfl⟩ |
    ⟨hnew, tableInfo, htable, ⟨rfl, hkeys, rfl⟩ |
      ⟨keyMap, info, rfl, hkeys, hmap, rfl, _, hadds⟩⟩⟩
  · -- The table is not there.
    rw [hfailed (by decide)]
    exact ⟨fun _ => Or.inl hnone, fun _ => Alike.untouched ⟨rfl, rfl, rfl, rfl, rfl, fun _ => rfl⟩⟩
  · -- The index is there, and so is the map that has it.
    cases hnames : c.indexNames.lookup t with
    | none =>
        rw [hnames] at hsome
        cases hsome
    | some names =>
        rw [hnames, Option.getD_some] at hsome
        rw [hfailed (by decide), touchNames_untouched_iff]
        exact ⟨fun _ => Or.inr (Or.inl ⟨names, hnames, hsome⟩), fun _ => ⟨names, hnames⟩⟩
  · -- A key is no column.
    have hnamed : tableInfo.getSchema.namedColumns keys.val = none := by
      rcases tableInfo.getSchema.keyMap_cases keys.val with ⟨_, hnamed⟩ | ⟨keyMap, _, hsome, _⟩
      · exact hnamed
      · rw [hkeys] at hsome
        cases hsome
    rw [hfailed (by decide), touchNames_untouched_iff, Harmless.found_iff hid htable hnew, hnamed]
    constructor
    · intro h
      exact Or.inr ⟨rfl, h⟩
    · rintro (⟨columns, hcolumns, _⟩ | ⟨_, h⟩)
      · cases hcolumns
      · exact h
  · -- The index is made; whether it has a tree is up to the size of its columns.
    have hcolumns := hadds.columns hkeys hmap
    calc AllOrNothing c t i keys.val .success c'
        ↔ ∃ info', Installed c t i keys.val c' info' :=
          ⟨fun h => h.1 rfl, fun h => ⟨fun _ => h, fun hne => absurd rfl hne⟩⟩
      _ ↔ (info.keyColumns.map fun column => column.len.toNat).sum ≤ 248 :=
          hadds.installed_iff hid hcolumns
      _ ↔ Harmless c t i keys.val := by
          rw [Harmless.found_iff hid htable hnew, hcolumns]
          constructor
          · intro hsize
            exact Or.inl ⟨_, rfl, hsize⟩
          · rintro (⟨columns, hsame, hsize⟩ | ⟨hnone, _⟩)
            · obtain rfl := Option.some.inj hsame
              exact hsize
            · cases hnone

/-- A table of one column of integers. -/
def intSchema : Schema where
  columns := [IndexInfo.idInt]
  isManage := true
  columns_lt := by decide

theorem intSchema_fits (id : UInt32) (page : PageId) :
    (TableMetadata.mk id nameA page intSchema).getSerializedSize ≤ PAGE_SIZE := by
  have hschema : intSchema.getSerializedSize + 17 ≤ PAGE_SIZE := by decide
  have hname : nameA.val.length = 1 := rfl
  simp only [TableMetadata.getSerializedSize, hname]
  omega

/-- An index over that column is made, all of it. -/
theorem createIndex_all_or_nothing_iff_first :
    ∃ (made : TableInfo) (c c' : CatalogManager 4),
      Step (init (BufferPoolManager.init 4 DiskManager.fresh))
        (.createTable nameA intSchema .success (some made)) c ∧
      c.createIndex nameA nameB ⟨[IndexInfo.idInt.name], by decide⟩ = .ok (.success, c') ∧
      AllOrNothing c nameA nameB [IndexInfo.idInt.name] .success c' := by
  rcases first_table_found intSchema_fits with
    ⟨made, c, tableId, hstep, hpool, hfree, hdense, hid, htable, hnames, hschema⟩
  have hnew : ((c.indexNames.lookup nameA).getD ∅).lookup nameB = none := by
    rw [hnames]
    rfl
  let keys : { ks : List Str // ks.length < 2 ^ 32 } := ⟨[IndexInfo.idInt.name], by decide⟩
  have hkeys : made.getSchema.keyMap keys.val = some ⟨[0], rfl⟩ := by
    rw [hschema]
    rfl
  rcases createIndex_new hpool hfree hdense (by decide) hid htable hnew hkeys
    (by rw [hschema]; rfl)
    (fun _ _ => by simp [IndexMetadata.getSerializedSize, nameB, PAGE_SIZE]) with ⟨c', hok⟩
  refine ⟨made, c, c', hstep, hok, (createIndex_all_or_nothing_iff hok).mpr ?_⟩
  rw [Harmless.found_iff hid htable hnew, hschema]
  exact Or.inl ⟨[IndexInfo.idInt], rfl, by decide⟩

/-- An index over a column that the table does not have is refused.  `GetIndex` threw before
and does not throw after. -/
theorem createIndex_leaves_names :
    ∃ (made : TableInfo) (c c' : CatalogManager 4),
      Step (init (BufferPoolManager.init 4 DiskManager.fresh))
        (.createTable nameA intSchema .success (some made)) c ∧
      c.createIndex nameA nameB ⟨[nameB], by decide⟩ = .ok (.columnNameNotExist, c') ∧
      c.getIndex nameA nameB = .error .outOfRange ∧
      c'.getIndex nameA nameB = .ok (.indexNotFound, none) ∧
      ¬AllOrNothing c nameA nameB [nameB] .columnNameNotExist c' := by
  rcases first_table_found intSchema_fits with
    ⟨made, c, tableId, hstep, _, _, _, hid, htable, hnames, hschema⟩
  have hkeys : made.getSchema.keyMap [nameB] = none := by
    rw [hschema]
    rfl
  have hok : c.createIndex nameA nameB ⟨[nameB], by decide⟩ =
      .ok (.columnNameNotExist, c.touchNames nameA) := by
    simp only [createIndex, hid, hnames, Option.getD_none, tableAt, htable, deref, ok_bind, hkeys,
      touchNames]
    rfl
  have hbefore : c.getIndex nameA nameB = .error .outOfRange := by
    simp only [getIndex, hid, hnames]
  have hafter : (c.touchNames nameA).getIndex nameA nameB = .ok (.indexNotFound, none) := by
    simp only [getIndex, touchNames, hid, hnames, Option.getD_none, AList.lookup_insert]
    rfl
  refine ⟨made, c, _, hstep, hok, hbefore, hafter, fun h => ?_⟩
  -- The two catalogs answer the next `GetIndex` differently.
  have hlater := (h.2 (by decide)).later [.getIndex nameA nameB]
  simp only [outcomes, answer, hbefore, hafter] at hlater
  cases hlater

end CatalogManager
end MiniSQL
