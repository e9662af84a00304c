import MiniSQL.Catalog.IndexCreation
import MiniSQL.Index.GenericKey

/-!
# KeyExtraction — the key of a row, by positions and by names

`ShallowCopySchema` of `record/schema.h` and `GetKeyFromRow` of `record/row.cpp`.  `CreateIndex`
turns the names of the key columns into positions, which are stored; the key schema is cut from the
table's schema by these positions, and the key of a row is looked up by the names in the key schema.
The names of the key schema are the names `CreateIndex` was given, whatever their order.
-/

namespace MiniSQL

open Lib

/-! ## The model -/

/-- `ShallowCopySchema`; an index past the columns is a fault. -/
def Schema.shallowCopySchema (tableSchema : Schema)
    (attrs : { xs : List UInt32 // xs.length < 2 ^ 32 }) : Result Schema :=
  match h : attrs.val.mapM fun i => tableSchema.getColumn i.toNat with
  | .ok cols =>
    .ok { columns := cols, isManage := false, columns_lt := (mapM_length h).trans_lt attrs.2 }
  | .error e => .error e

namespace Row

/-- The loop of `GetKeyFromRow`: `idx` keeps its value when the name is no column. -/
def keyFields (row : Row) (schema : Schema) : (idx : UInt32) → List Column → Result (List Field)
  | _, [] => .ok []
  | idx, column :: columns => do
    let idx' := (schema.getColumnIndex column.name).getD idx
    let field ← row.getField idx'.toNat
    let fields ← row.keyFields schema idx' columns
    .ok (field :: fields)

/-- `GetKeyFromRow`: the row that `key_row` becomes.  `idx` is what that variable holds before it
is set. -/
def getKeyFromRow (row : Row) (idx : UInt32) (schema keySchema : Schema) : Result Row := do
  let fields ← row.keyFields schema idx keySchema.columns
  .ok { rid := INVALID_ROWID, fields := fields }

end Row

/-- `Init` keeps the columns of the shallow copy. -/
theorem IndexInfo.keyColumns_eq {x : IndexMetadata} {tableInfo : TableInfo} {info : IndexInfo}
    {keySchema : Schema} (hinit : IndexInfo.init x tableInfo = .ok info)
    (hcopy : tableInfo.getSchema.shallowCopySchema ⟨x.keyMap, x.keyMap_lt⟩ = .ok keySchema) :
    info.keyColumns = keySchema.columns := by
  rcases bind_eq_ok.mp hinit with ⟨columns, hcolumns, hinfo⟩
  cases hinfo
  unfold Schema.shallowCopySchema at hcopy
  split at hcopy
  · rename_i cols hcols
    rw [hcolumns] at hcols
    cases hcols
    cases hcopy
    rfl
  · cases hcopy

/-! ## Positions and names -/

namespace Schema

variable {schema : Schema} {name : Str} {k : UInt32}

/-- The column found has the name that was looked for. -/
theorem getColumn_of_getColumnIndex (h : schema.getColumnIndex name = some k) :
    ∃ column, schema.getColumn k.toNat = .ok column ∧ column.name = name := by
  rcases schema.getColumnIndex_cases name with ⟨hnone, _⟩ | ⟨k', column, hk, hfind, hget⟩
  · rw [hnone] at h
    cases h
  · rw [hk] at h
    obtain rfl := Option.some.inj h
    exact ⟨column, hget, by simpa using List.find?_some hfind⟩

theorem getColumnIndex_of_mem (hname : name ∈ schema.columns.map Column.name) :
    ∃ k, schema.getColumnIndex name = some k := by
  rcases schema.getColumnIndex_cases name with ⟨_, hfind⟩ | ⟨k, _, hk, _, _⟩
  · rcases List.mem_map.mp hname with ⟨column, hmem, hcolumn⟩
    exact absurd hcolumn (by simpa using List.find?_eq_none.mp hfind column hmem)
  · exact ⟨k, hk⟩

/-- Where no name is there twice, it is the one column of that name. -/
theorem getColumnIndex_of_nodup (hnames : (schema.columns.map Column.name).Nodup) {j : Nat}
    {column : Column} (hj : schema.columns[j]? = some column) :
    schema.getColumnIndex column.name = some (UInt32.ofNat j) := by
  rcases List.getElem?_eq_some_iff.mp hj with ⟨hlt, hcolumn⟩
  have hfind : (schema.columns.findIdx? fun col => col.name = column.name) = some j := by
    refine List.findIdx?_eq_some_iff_getElem.mpr ⟨hlt, by simp [hcolumn], fun i hi => ?_⟩
    simp only [decide_eq_true_eq]
    intro hsame
    have hi' : i < schema.columns.length := lt_trans hi hlt
    have hmaps : (schema.columns.map Column.name)[i]? = (schema.columns.map Column.name)[j]? := by
      simp only [List.getElem?_map, hj, List.getElem?_eq_getElem hi', Option.map_some, hsame]
    exact hi.ne ((List.getElem?_inj (by simpa using hi') hnames).mp hmaps)
  rw [getColumnIndex, hfind, Option.map_some]

/-- The key map has the position of each name. -/
theorem forall₂_keyMap {names : List Str}
    {keyMap : { xs : List UInt32 // xs.length = names.length }}
    (h : schema.keyMap names = some keyMap) :
    List.Forall₂ (fun name k => schema.getColumnIndex name = some k) names keyMap.val := by
  induction names with
  | nil =>
      cases h
      exact List.Forall₂.nil
  | cons name names ih =>
      simp only [Schema.keyMap, Option.bind_eq_bind, Option.bind_eq_some_iff,
        Option.some.injEq] at h
      rcases h with ⟨k, hk, rest, hrest, rfl⟩
      exact List.Forall₂.cons hk (ih hrest)

theorem keyMap_of_found {names : List Str}
    (hfound : ∀ name ∈ names, ∃ k, schema.getColumnIndex name = some k) :
    ∃ keyMap, schema.keyMap names = some keyMap := by
  induction names with
  | nil =>
      exact ⟨⟨[], rfl⟩, rfl⟩
  | cons name names ih =>
      rcases hfound name List.mem_cons_self with ⟨k, hk⟩
      rcases ih fun name' hname => hfound name' (List.mem_cons_of_mem _ hname) with ⟨rest, hrest⟩
      simp only [keyMap, hk, hrest, Option.bind_eq_bind, Option.bind_some, Option.some.injEq]
      exact ⟨_, rfl⟩

/-- The columns at these positions have these names. -/
theorem mapM_getColumn_names {names : List Str} {attrs : List UInt32}
    (h : List.Forall₂ (fun name k => schema.getColumnIndex name = some k) names attrs) :
    ∃ cols, attrs.mapM (fun i => schema.getColumn i.toNat) = .ok cols ∧
      cols.map Column.name = names := by
  induction h with
  | nil =>
      exact ⟨[], rfl, rfl⟩
  | cons hk _ ih =>
      rcases getColumn_of_getColumnIndex hk with ⟨column, hget, hname⟩
      rcases ih with ⟨cols, hcols, hnames⟩
      refine ⟨column :: cols, ?_, ?_⟩
      · rw [List.mapM_cons, hget, ok_bind, hcols]
        rfl
      · rw [List.map_cons, hname, hnames]

/-- The key schema has the names `CreateIndex` was given. -/
theorem shallowCopySchema_names {names : List Str}
    {attrs : { xs : List UInt32 // xs.length < 2 ^ 32 }}
    (h : List.Forall₂ (fun name k => schema.getColumnIndex name = some k) names attrs.val) :
    ∃ keySchema, schema.shallowCopySchema attrs = .ok keySchema ∧
      keySchema.columns.map Column.name = names := by
  rcases mapM_getColumn_names h with ⟨cols, hcols, hnames⟩
  unfold shallowCopySchema
  split
  · rename_i cols' hcols'
    rw [hcols] at hcols'
    obtain rfl := Except.ok.inj hcols'
    exact ⟨_, rfl, hnames⟩
  · rename_i e herror
    rw [hcols] at herror
    cases herror

end Schema

/-! ## The key of a row -/

namespace Row

variable {row keyRow : Row} {schema : Schema} {keys : List Str}

/-- One field for each key: that of the row in a column of this name. -/
structure Projects (row : Row) (schema : Schema) (keys : List Str) (keyRow : Row) : Prop where
  length : keyRow.fields.length = keys.length
  field : ∀ (i j : Nat) (key : Str) (column : Column), keys[i]? = some key →
    schema.columns[j]? = some column → column.name = key →
    ∃ field, row.fields[j]? = some field ∧ keyRow.fields[i]? = some field

/-- The fields are looked up by name, so `idx` is set before it is used. -/
theorem keyFields_names (hrow : row.HasSchema schema) {columns : List Column}
    (hfound : ∀ column ∈ columns, ∃ k, schema.getColumnIndex column.name = some k)
    (idx : UInt32) :
    ∃ fields, row.keyFields schema idx columns = .ok fields ∧
      List.Forall₂ (fun column field => ∃ k, schema.getColumnIndex column.name = some k ∧
        row.fields[k.toNat]? = some field) columns fields := by
  induction columns generalizing idx with
  | nil =>
      exact ⟨[], rfl, List.Forall₂.nil⟩
  | cons column columns ih =>
      rcases hfound column List.mem_cons_self with ⟨k, hk⟩
      rcases Schema.getColumn_of_getColumnIndex hk with ⟨col, hget, _⟩
      have hlt : k.toNat < row.fields.length := by
        rw [hrow.length_eq]
        exact (List.getElem?_eq_some_iff.mp (Schema.getColumn_eq_ok.mp hget)).1
      rcases ih (fun col hcol => hfound col (List.mem_cons_of_mem _ hcol)) k with
        ⟨fields, hfields, hall⟩
      have hfield : row.fields[k.toNat]? = some row.fields[k.toNat] :=
        List.getElem?_eq_getElem hlt
      refine ⟨row.fields[k.toNat] :: fields, ?_, List.Forall₂.cons ⟨k, hk, hfield⟩ hall⟩
      simp only [keyFields, hk, Option.getD_some, getField, hfield, ok_bind, hfields]

/-- A key schema with the key names makes the projection to the key columns. -/
theorem getKeyFromRow_projects (hnames : (schema.columns.map Column.name).Nodup)
    (hrow : row.HasSchema schema) {keySchema : Schema}
    (hkeys : keySchema.columns.map Column.name = keys)
    (hfound : ∀ key ∈ keys, ∃ k, schema.getColumnIndex key = some k) (idx : UInt32) :
    ∃ keyRow, row.getKeyFromRow idx schema keySchema = .ok keyRow ∧
      row.Projects schema keys keyRow := by
  have hcolumns : ∀ column ∈ keySchema.columns, ∃ k,
      schema.getColumnIndex column.name = some k := by
    intro column hcolumn
    refine hfound column.name ?_
    rw [← hkeys]
    exact List.mem_map_of_mem hcolumn
  rcases keyFields_names hrow hcolumns idx with ⟨fields, hfields, hall⟩
  refine ⟨⟨INVALID_ROWID, fields⟩, ?_, ?_, fun i j key column hi hj hname => ?_⟩
  · simp only [getKeyFromRow, hfields, ok_bind]
  · rw [← hkeys, List.length_map]
    exact hall.length_eq.symm
  · -- The `i`-th column of the key schema has the name of the `j`-th column of the table.
    rw [← hkeys, List.getElem?_map, Option.map_eq_some_iff] at hi
    rcases hi with ⟨keyColumn, hkeyColumn, hkey⟩
    rcases List.getElem?_eq_some_iff.mp hkeyColumn with ⟨hlt, hget⟩
    have hlt' : i < fields.length := hall.length_eq ▸ hlt
    rcases hall.get hlt hlt' with ⟨k, hk, hfield⟩
    have hj' := Schema.getColumnIndex_of_nodup hnames hj
    have hjk : k.toNat = j := by
      have hsame : (keySchema.columns.get ⟨i, hlt⟩).name = column.name := by
        rw [List.get_eq_getElem, hget, hkey, hname]
      rw [hsame, hj'] at hk
      rw [← Option.some.inj hk]
      exact UInt32.toNat_ofNat_of_lt'
        (lt_trans (List.getElem?_eq_some_iff.mp hj).1 schema.columns_lt)
    rw [hjk] at hfield
    exact ⟨_, hfield, List.getElem?_eq_getElem hlt'⟩

/-- The key of the row under the key schema made from the metadata, which is also the one that
`IndexInfo` keeps. -/
def ExtractsKey (row : Row) (schema : Schema) (keys : List Str) (x : IndexMetadata) : Prop :=
  ∃ keySchema, schema.shallowCopySchema ⟨x.keyMap, x.keyMap_lt⟩ = .ok keySchema ∧
    (∀ idx, ∃ keyRow, row.getKeyFromRow idx schema keySchema = .ok keyRow ∧
      row.Projects schema keys keyRow) ∧
    ∀ tableInfo info, tableInfo.getSchema = schema → IndexInfo.init x tableInfo = .ok info →
      info.keyColumns = keySchema.columns

theorem extractsKey_of_keyMap (hnames : (schema.columns.map Column.name).Nodup)
    (hkeys : ∀ key ∈ keys, key ∈ schema.columns.map Column.name) (hrow : row.HasSchema schema)
    {keyMap : { xs : List UInt32 // xs.length = keys.length }}
    (hmap : schema.keyMap keys = some keyMap) {x : IndexMetadata} (hx : x.keyMap = keyMap.val) :
    row.ExtractsKey schema keys x := by
  have hpositions := Schema.forall₂_keyMap hmap
  rw [← hx] at hpositions
  rcases @Schema.shallowCopySchema_names schema keys ⟨x.keyMap, x.keyMap_lt⟩ hpositions with
    ⟨keySchema, hcopy, hkeyNames⟩
  refine ⟨keySchema, hcopy, fun idx => ?_, fun tableInfo info hschema hinit => ?_⟩
  · exact getKeyFromRow_projects hnames hrow hkeyNames
      (fun key hkey => Schema.getColumnIndex_of_mem (hkeys key hkey)) idx
  · exact IndexInfo.keyColumns_eq hinit (by rw [hschema, hcopy])

end Row

/-- For every list of existing column names the key of every row is its projection to these
columns, also when the key map comes back from its page. -/
theorem key_of_row_is_projection {schema : Schema}
    (hnames : (schema.columns.map Column.name).Nodup)
    {keys : { ks : List Str // ks.length < 2 ^ 32 }}
    (hkeys : ∀ key ∈ keys.val, key ∈ schema.columns.map Column.name) {row : Row}
    (hrow : row.HasSchema schema) (indexId tableId : UInt32) (indexName : Str) :
    ∃ keyMap, schema.keyMap keys.val = some keyMap ∧
      let x : IndexMetadata :=
        ⟨indexId, indexName, tableId, keyMap.val, lt_of_eq_of_lt keyMap.2 keys.2⟩
      row.ExtractsKey schema keys.val x ∧
        ∀ m buf k m', x.serializeTo m buf = .ok (k, m') →
          ∃ x', IndexMetadata.deserializeFrom m' buf = .ok (x', k) ∧
            row.ExtractsKey schema keys.val x' := by
  rcases Schema.keyMap_of_found fun key hkey => Schema.getColumnIndex_of_mem (hkeys key hkey) with
    ⟨keyMap, hmap⟩
  refine ⟨keyMap, hmap, ?_⟩
  intro x
  have hextracts := Row.extractsKey_of_keyMap hnames hkeys hrow hmap (x := x) rfl
  refine ⟨hextracts, fun m buf k m' hwrite => ⟨x, ?_, hextracts⟩⟩
  rcases IndexMetadata.serializeTo_stores hwrite with ⟨_, hk, rfl⟩
  rw [hk]
  exact x.reads_encode _ buf (Mem.holds_store m buf x.encode)

/-- The last column, the first one and the last one again. -/
def sampleKeys : { ks : List Str // ks.length < 2 ^ 32 } :=
  let first := (Schema.sample.columns.head (by decide)).name
  let last := (Schema.sample.columns.getLast (by decide)).name
  ⟨[last, first, last], by simp⟩

theorem key_of_row_is_projection_sample :
    ∃ x : IndexMetadata, x.keyMap = [2, 0, 2] ∧
      Row.sample.ExtractsKey Schema.sample sampleKeys.val x := by
  rcases @key_of_row_is_projection Schema.sample (by decide) sampleKeys (by decide) Row.sample
    Row.sample_hasSchema 0 0 ⟨[105], by decide⟩ with ⟨keyMap, hmap, hextracts, _⟩
  have hpositions : Schema.sample.keyMap sampleKeys.val = some ⟨[2, 0, 2], rfl⟩ := rfl
  rw [hpositions] at hmap
  refine ⟨_, ?_, hextracts⟩
  rw [← Option.some.inj hmap]

end MiniSQL
