import MiniSQL.Catalog.TableDirectory

/-!
# IndexDirectory — the index maps of the catalog over whole runs

`GetNextIndexId` returns the largest id in use, so every index gets id 0: `indexes_` never holds
more than one, and making or dropping an index takes the others out of it.  `DropIndex` erases the
map of all index names of its table, and `GetIndex` throws for a table without one.  What the
catalog finds is compared with a history of the calls.
-/

namespace MiniSQL
namespace CatalogManager

open Lib BufferPoolManager

variable {n : Nat} {c c' : CatalogManager n} {a b i j : Str} {schema : Schema} {err : DbErr}

/-! ## Calls and their history -/

/-- A completed call, with what it returned; `CreateIndex` returns the index it made. -/
inductive IndexEvent
  | createTable (tableName : Str) (schema : Schema) (err : DbErr) (info : Option TableInfo)
  | createIndex (tableName indexName : Str) (indexKeys : { ks : List Str // ks.length < 2 ^ 32 })
      (err : DbErr) (made : Option IndexInfo)
  | dropIndex (tableName indexName : Str) (err : DbErr)

/-- The out parameter of `CreateIndex`: the pointer stored in `indexes_` under the new id. -/
def madeIndex (c : CatalogManager n) (err : DbErr) (c' : CatalogManager n) : Option IndexInfo :=
  if err = .success then c'.indexes.lookup c.catalogMeta.getNextIndexId else none

def IndexStep (c : CatalogManager n) : IndexEvent → CatalogManager n → Prop
  | .createTable tableName schema err info, c' =>
    c.createTable tableName schema = .ok (err, info, c')
  | .createIndex tableName indexName indexKeys err made, c' =>
    c.createIndex tableName indexName indexKeys = .ok (err, c') ∧ made = c.madeIndex err c'
  | .dropIndex tableName indexName err, c' => c.dropIndex tableName indexName = .ok (err, c')

/-- What a client knows from the calls: the tables there are, those for which `CreateIndex` was
called since they were made and since the last index of theirs was dropped, the live indexes, and
the index made by the last call that made or dropped one. -/
structure IndexHistory where
  tables : Str → Bool
  touched : Str → Bool
  live : Str → Str → Option IndexInfo
  last : Option (Str × Str)

namespace IndexHistory

def start : IndexHistory :=
  { tables := fun _ => false, touched := fun _ => false, live := fun _ _ => none, last := none }

def setLive (h : IndexHistory) (a i : Str) (made : Option IndexInfo) :
    Str → Str → Option IndexInfo :=
  fun b j => if b = a ∧ j = i then made else h.live b j

def track (h : IndexHistory) : IndexEvent → IndexHistory
  | .createTable a _ err _ =>
    if err = .success then { h with tables := Function.update h.tables a true } else h
  | .createIndex a i _ err made =>
    if err = .tableNotExist then h
    else if err = .success then
      { h with
        touched := Function.update h.touched a true
        live := h.setLive a i made
        last := some (a, i) }
    else { h with touched := Function.update h.touched a true }
  | .dropIndex a i err =>
    if err = .success then
      { h with
        touched := Function.update h.touched a false
        live := h.setLive a i none
        last := none }
    else h

/-- Every table had a `CreateIndex` since it was made and since an index of it was dropped, and
no index is live but the one made last. -/
structure OneInUse (h : IndexHistory) : Prop where
  touched : ∀ a, h.tables a = true → h.touched a = true
  only : ∀ a i info, h.live a i = some info → h.last = some (a, i)

end IndexHistory

def IndexClient (x : CatalogManager n × IndexHistory) (e : IndexEvent)
    (y : CatalogManager n × IndexHistory) : Prop :=
  IndexStep x.1 e y.1 ∧ y.2 = x.2.track e

/-! ## The directory -/

/-- The catalog is a directory of the live indexes: `GetIndex` on a table that is there finds
exactly these, no two have the same id, and dropping one changes what is found of no other. -/
structure Directory (c : CatalogManager n) (h : IndexHistory) : Prop where
  found : ∀ a i info, h.tables a = true → h.live a i = some info →
    c.getIndex a i = .ok (.success, some info)
  not_found : ∀ a i, h.tables a = true → h.live a i = none →
    c.getIndex a i = .ok (.indexNotFound, none)
  distinct : ∀ a i info b j info', h.live a i = some info → h.live b j = some info' →
    (a, i) ≠ (b, j) → info.metaData.indexId ≠ info'.metaData.indexId
  drop_others : ∀ a i c', c.dropIndex a i = .ok (.success, c') →
    ∀ b j info, (b, j) ≠ (a, i) → h.live b j = some info →
      c'.getIndex b j = c.getIndex b j ∧
        ∀ t, (info ∈ (c'.getTableIndexes t).2 ↔ info ∈ (c.getTableIndexes t).2)

/-! ## What the calls do to the maps -/

/-- The index maps are the same. -/
structure SameIndexes (c c' : CatalogManager n) : Prop where
  names : c'.indexNames = c.indexNames
  indexes : c'.indexes = c.indexes
  pages : c'.catalogMeta.indexMetaPages = c.catalogMeta.indexMetaPages

theorem createTable_sameIndexes {info : Option TableInfo}
    (h : c.createTable a schema = .ok (err, info, c')) : SameIndexes c c' := by
  unfold createTable at h
  split at h
  · cases h
    exact ⟨rfl, rfl, rfl⟩
  · rcases bind_eq_ok.mp h with ⟨⟨reply, bpm₁⟩, _, h⟩
    rcases bind_eq_ok.mp h with ⟨⟨tableHeap, bpm₂⟩, _, h⟩
    rcases bind_eq_ok.mp h with ⟨⟨pageId, f⟩, _, h⟩
    rcases bind_eq_ok.mp h with ⟨⟨_, m⟩, _, h⟩
    cases h
    exact ⟨rfl, rfl, rfl⟩

/-- While only id 0 is in use, the next id is 0. -/
theorem getNextIndexId_eq_zero {pages : CatalogMeta}
    (h : ∀ k, k ∈ pages.indexMetaPages → k = 0) : pages.getNextIndexId = 0 := by
  unfold CatalogMeta.getNextIndexId lastKey
  cases hmax : pages.indexMetaPages.maxKey? with
  | none =>
      rfl
  | some k =>
      exact h k (Std.ExtTreeMap.maxKey?_eq_some_iff_mem_and_forall.mp hmax).1

/-- The maps against the history. -/
structure Tracks (c : CatalogManager n) (h : IndexHistory) : Prop where
  tables : ∀ a, h.tables a = true ↔ ∃ tableId, c.tableNames.lookup a = some tableId
  touched : ∀ a, h.touched a = true ↔ ∃ names, c.indexNames.lookup a = some names
  named : ∀ a names i k, c.indexNames.lookup a = some names → names.lookup i = some k →
    k = 0 ∧ ∃ info, h.live a i = some info
  pages : ∀ k, k ∈ c.catalogMeta.indexMetaPages → k = 0
  last_some : ∀ a i, h.last = some (a, i) → ∃ names info, c.indexNames.lookup a = some names ∧
    names.lookup i = some 0 ∧ h.live a i = some info ∧ c.indexes.lookup 0 = some info
  last_none : h.last = none → c.indexes.lookup 0 = none
  live_id : ∀ a i info, h.live a i = some info → info.metaData.indexId = 0
  live_table : ∀ a i info, h.live a i = some info → h.tables a = true

theorem init_tracks (bpm : BufferPoolManager n) : Tracks (init bpm) IndexHistory.start := by
  refine ⟨?_, ?_, ?_, ?_, ?_, fun _ => rfl, ?_, ?_⟩
  · simp [init, IndexHistory.start]
  · simp [init, IndexHistory.start]
  · simp [init]
  · simp [init, CatalogMeta.newInstance]
  · simp [IndexHistory.start]
  · simp [IndexHistory.start]
  · simp [IndexHistory.start]

variable {h : IndexHistory}

theorem Tracks.createTable {info : Option TableInfo} (ht : Tracks c h)
    (hok : c.createTable a schema = .ok (err, info, c')) :
    Tracks c' (h.track (.createTable a schema err info)) := by
  have hsame := createTable_sameIndexes hok
  rcases createTable_cases hok with ⟨rfl, rfl, _⟩ | ⟨rfl, made, _, hadds⟩
  · exact ht
  · -- Only the tables of the history change; names, pages and indexes stay.
    simp only [IndexHistory.track, if_true]
    refine ⟨fun b => ?_, ?_, ?_, ?_, ?_, ?_, ht.live_id, fun b j x hlive => ?_⟩
    · rw [hadds.names]
      by_cases hb : b = a
      · subst hb
        simp
      · dsimp only
        rw [Function.update_of_ne hb, AList.lookup_insert_ne hb]
        exact ht.tables b
    · rw [hsame.names]
      exact ht.touched
    · rw [hsame.names]
      exact ht.named
    · rw [hsame.pages]
      exact ht.pages
    · rw [hsame.names, hsame.indexes]
      exact ht.last_some
    · rw [hsame.indexes]
      exact ht.last_none
    · by_cases hb : b = a
      · rw [hb]
        exact Function.update_self ..
      · dsimp only
        rw [Function.update_of_ne hb]
        exact ht.live_table b j x hlive

/-- A call of `CreateIndex` that made nothing: the table has a map of index names now. -/
theorem Tracks.touch (ht : Tracks c h) (hsame : SameTables c c')
    (hnames : c'.indexNames = c.indexNames.insert a ((c.indexNames.lookup a).getD ∅))
    (hindexes : c'.indexes = c.indexes)
    (hpages : c'.catalogMeta.indexMetaPages = c.catalogMeta.indexMetaPages) :
    Tracks c' { h with touched := Function.update h.touched a true } := by
  -- The map of a table that had one is the same.
  have hold : ∀ b names, c.indexNames.lookup b = some names →
      c'.indexNames.lookup b = some names := by
    intro b names hb
    rw [hnames]
    by_cases hba : b = a
    · subst hba
      rw [AList.lookup_insert, hb]
      rfl
    · rw [AList.lookup_insert_ne hba, hb]
  refine ⟨?_, fun b => ?_, fun b names j k hb hj => ?_, ?_, fun b j hlast => ?_, ?_, ht.live_id,
    ht.live_table⟩
  · rw [hsame.names]
    exact ht.tables
  · rw [hnames]
    by_cases hba : b = a
    · subst hba
      simp
    · dsimp only
      rw [Function.update_of_ne hba, AList.lookup_insert_ne hba]
      exact ht.touched b
  · cases hb' : c.indexNames.lookup b with
    | some names' =>
        rw [hold b names' hb'] at hb
        obtain rfl := Option.some.inj hb
        exact ht.named b names' j k hb' hj
    | none =>
        rw [hnames] at hb
        by_cases hba : b = a
        · subst hba
          rw [AList.lookup_insert, hb'] at hb
          obtain rfl := Option.some.inj hb
          simp at hj
        · rw [AList.lookup_insert_ne hba, hb'] at hb
          cases hb
  · rw [hpages]
    exact ht.pages
  · rcases ht.last_some b j hlast with ⟨names, x, hb, hj, hlive, hx⟩
    exact ⟨names, x, hold b names hb, hj, hlive, by rw [hindexes]; exact hx⟩
  · rw [hindexes]
    exact ht.last_none

theorem setLive_self (h : IndexHistory) (a i : Str) (made : Option IndexInfo) :
    h.setLive a i made a i = made :=
  if_pos ⟨rfl, rfl⟩

/-- The live indexes after one was made or dropped. -/
theorem setLive_cases {made : Option IndexInfo} {x : IndexInfo}
    (hx : h.setLive a i made b j = some x) :
    (b = a ∧ j = i ∧ made = some x) ∨ (¬(b = a ∧ j = i) ∧ h.live b j = some x) := by
  unfold IndexHistory.setLive at hx
  split at hx
  · rename_i heq
    exact Or.inl ⟨heq.1, heq.2, hx⟩
  · rename_i hne
    exact Or.inr ⟨hne, hx⟩

/-- An index is made, under id 0 like every other. -/
theorem Tracks.addsIndex {tableId : UInt32} {info : IndexInfo} (ht : Tracks c h)
    (hsame : SameTables c c') (hid : c.tableNames.lookup a = some tableId)
    (hadds : AddsIndex c a i tableId info c') :
    Tracks c' { h with
      touched := Function.update h.touched a true
      live := h.setLive a i (some info)
      last := some (a, i) } := by
  have hzero : c.catalogMeta.getNextIndexId = 0 := getNextIndexId_eq_zero ht.pages
  have hnames := hadds.names
  rw [hzero] at hnames
  set old := (c.indexNames.lookup a).getD ∅ with hold
  have hother : ∀ b, b ≠ a → c'.indexNames.lookup b = c.indexNames.lookup b := by
    intro b hb
    rw [hnames, AList.lookup_insert_ne hb, AList.lookup_insert_ne hb]
  have hself : c'.indexNames.lookup a = some (old.insert i 0) := by
    rw [hnames, AList.lookup_insert]
  have hindexes : c'.indexes.lookup 0 = some info := by
    rw [hadds.indexes, hzero, AList.lookup_insert]
  refine ⟨?_, fun b => ?_, fun b names j k hb hj => ?_, fun k hk => ?_, fun b j hlast => ?_,
    fun hlast => ?_, fun b j x hx => ?_, fun b j x hx => ?_⟩
  · rw [hsame.names]
    exact ht.tables
  · by_cases hba : b = a
    · subst hba
      simp [hself]
    · dsimp only
      rw [Function.update_of_ne hba, hother b hba]
      exact ht.touched b
  · by_cases hba : b = a
    · subst hba
      rw [hself] at hb
      obtain rfl := Option.some.inj hb
      by_cases hji : j = i
      · subst hji
        rw [AList.lookup_insert] at hj
        exact ⟨(Option.some.inj hj).symm, info, setLive_self h b j _⟩
      · -- The other names of the table are those it had.
        rw [AList.lookup_insert_ne hji] at hj
        cases hb' : c.indexNames.lookup b with
        | none =>
            rw [hold, hb'] at hj
            simp at hj
        | some names' =>
            rw [hold, hb'] at hj
            rcases ht.named b names' j k hb' hj with ⟨hk, x, hx⟩
            exact ⟨hk, x, (if_neg fun heq => hji heq.2).trans hx⟩
    · rw [hother b hba] at hb
      rcases ht.named b names j k hb hj with ⟨hk, x, hx⟩
      exact ⟨hk, x, (if_neg fun heq => hba heq.1).trans hx⟩
  · rcases hadds.pages with ⟨pageId, hpages⟩
    rw [hpages, hzero, Std.ExtTreeMap.mem_insert] at hk
    rcases hk with heq | hk
    · exact (Std.LawfulEqCmp.eq_of_compare heq).symm
    · exact ht.pages k hk
  · simp only [Option.some.injEq, Prod.mk.injEq] at hlast
    rcases hlast with ⟨rfl, rfl⟩
    exact ⟨old.insert i 0, info, hself, AList.lookup_insert .., setLive_self h a i _, hindexes⟩
  · cases hlast
  · rcases setLive_cases hx with ⟨_, _, hmade⟩ | ⟨_, hx⟩
    · rw [← Option.some.inj hmade, hadds.indexId, hzero]
    · exact ht.live_id b j x hx
  · rcases setLive_cases hx with ⟨rfl, _, _⟩ | ⟨_, hx⟩
    · exact (ht.tables b).mpr ⟨tableId, hid⟩
    · exact ht.live_table b j x hx

theorem Tracks.createIndex {indexKeys : { ks : List Str // ks.length < 2 ^ 32 }}
    (ht : Tracks c h) (hok : c.createIndex a i indexKeys = .ok (err, c')) :
    Tracks c' (h.track (.createIndex a i indexKeys err (c.madeIndex err c'))) := by
  rcases createIndex_cases hok with ⟨rfl, rfl, _⟩ |
    ⟨tableId, hid, hsame, ⟨hfail, hexists, hnames, hindexes, hpages⟩ | ⟨rfl, _, info, hadds⟩⟩
  · exact ht
  · simp only [IndexHistory.track, hexists, hfail, if_false]
    exact ht.touch hsame hnames hindexes hpages
  · have hmade : c.madeIndex .success c' = some info := by
      rw [madeIndex, if_pos rfl, hadds.indexes, AList.lookup_insert]
    have hne : (DbErr.success = DbErr.tableNotExist) = False := by simp
    simp only [IndexHistory.track, hne, if_false, if_true, hmade]
    exact ht.addsIndex hsame hid hadds

theorem Tracks.dropIndex (ht : Tracks c h) (hok : c.dropIndex a i = .ok (err, c')) :
    Tracks c' (h.track (.dropIndex a i err)) := by
  rcases dropIndex_cases hok with ⟨hfail, rfl⟩ |
    ⟨tableId, names, k, rfl, hid, hnames, hk, hsame, hnames', hindexes, hpages⟩
  · simp only [IndexHistory.track, hfail, if_false]
    exact ht
  · -- The map of one name is erased, and the history forgets every index with it.
    obtain ⟨rfl, _⟩ := ht.named a names i k hnames hk
    simp only [IndexHistory.track, if_true]
    refine ⟨?_, fun b => ?_, fun b names j k hb hj => ?_, fun k hk => ?_, ?_, fun _ => ?_,
      fun b j x hx => ?_, fun b j x hx => ?_⟩
    · rw [hsame.names]
      exact ht.tables
    · rw [hnames']
      by_cases hba : b = a
      · subst hba
        simp
      · dsimp only
        rw [Function.update_of_ne hba, AList.lookup_erase_ne hba]
        exact ht.touched b
    · rw [hnames'] at hb
      by_cases hba : b = a
      · subst hba
        rw [AList.lookup_erase] at hb
        cases hb
      · rw [AList.lookup_erase_ne hba] at hb
        rcases ht.named b names j k hb hj with ⟨hk, x, hx⟩
        exact ⟨hk, x, (if_neg fun heq => hba heq.1).trans hx⟩
    · rw [hpages] at hk
      exact ht.pages k (Std.ExtTreeMap.mem_of_mem_erase hk)
    · intro b j hlast
      cases hlast
    · rw [hindexes, AList.lookup_erase]
    · rcases setLive_cases hx with ⟨_, _, hmade⟩ | ⟨_, hx⟩
      · cases hmade
      · exact ht.live_id b j x hx
    · rcases setLive_cases hx with ⟨_, _, hmade⟩ | ⟨_, hx⟩
      · cases hmade
      · exact ht.live_table b j x hx

theorem IndexStep.tracks {e : IndexEvent} (hstep : IndexStep c e c') (ht : Tracks c h) :
    Tracks c' (h.track e) := by
  cases e with
  | createTable a schema err info =>
      exact ht.createTable hstep
  | createIndex a i indexKeys err made =>
      rcases hstep with ⟨hok, rfl⟩
      exact ht.createIndex hok
  | dropIndex a i err =>
      exact ht.dropIndex hstep

theorem run_tracks {bpm : BufferPoolManager n} {es : List IndexEvent}
    (hrun : Run IndexClient (init bpm, IndexHistory.start) es (c, h)) : Tracks c h :=
  hrun.invariant (P := fun x => Tracks x.1 x.2)
    (fun x e y ht hstep => by
      rw [hstep.2]
      exact hstep.1.tracks ht) (init_tracks bpm)

/-! ## When the directory is right -/

theorem getIndex_ok {reply : DbErr × Option IndexInfo} {tableId : UInt32}
    (hid : c.tableNames.lookup a = some tableId) (hok : c.getIndex a i = .ok reply) :
    ∃ names, c.indexNames.lookup a = some names ∧
      (reply.1 = .success → ∃ k, names.lookup i = some k ∧ c.indexes.lookup k = reply.2) := by
  unfold getIndex at hok
  simp only [hid] at hok
  split at hok
  · cases hok
  · rename_i names hnames
    refine ⟨names, hnames, fun hsuccess => ?_⟩
    split at hok
    · rw [← Except.ok.inj hok] at hsuccess
      cases hsuccess
    · rename_i k hk
      split at hok
      · cases hok
      · rename_i info hinfo
        rw [← Except.ok.inj hok]
        exact ⟨k, hk, hinfo⟩

theorem Tracks.oneInUse (ht : Tracks c h) (hd : Directory c h) : h.OneInUse := by
  have hreply : ∀ a i, h.tables a = true → ∃ reply, c.getIndex a i = .ok reply := by
    intro a i htable
    cases hlive : h.live a i with
    | none =>
        exact ⟨_, hd.not_found a i htable hlive⟩
    | some info =>
        exact ⟨_, hd.found a i info htable hlive⟩
  refine ⟨fun a htable => ?_, fun a i info hlive => ?_⟩
  · rcases (ht.tables a).mp htable with ⟨tableId, hid⟩
    rcases hreply a a htable with ⟨reply, hok⟩
    rcases getIndex_ok hid hok with ⟨names, hnames, _⟩
    exact (ht.touched a).mpr ⟨names, hnames⟩
  · have htable := ht.live_table a i info hlive
    rcases (ht.tables a).mp htable with ⟨tableId, hid⟩
    cases hlast : h.last with
    | none =>
        -- Nothing is left under id 0, so the index cannot be found.
        rcases getIndex_ok hid (hd.found a i info htable hlive) with ⟨names, hnames, hfound⟩
        rcases hfound rfl with ⟨k, hk, hinfo⟩
        rw [(ht.named a names i k hnames hk).1, ht.last_none hlast] at hinfo
        cases hinfo
    | some last =>
        rcases last with ⟨b, j⟩
        rcases ht.last_some b j hlast with ⟨_, info', _, _, hlive', _⟩
        by_contra hne
        have hpair : (a, i) ≠ (b, j) := fun heq => hne (by rw [heq])
        refine hd.distinct a i info b j info' hlive hlive' hpair ?_
        rw [ht.live_id a i info hlive, ht.live_id b j info' hlive']

theorem Tracks.directory (ht : Tracks c h) (hone : h.OneInUse) : Directory c h := by
  refine ⟨fun a i info htable hlive => ?_, fun a i htable hlive => ?_,
    fun a i info b j info' hlive hlive' hne => ?_, fun a i c' hdrop b j info hne hlive => ?_⟩
  · rcases (ht.tables a).mp htable with ⟨tableId, hid⟩
    rcases ht.last_some a i (hone.only a i info hlive) with ⟨names, x, hnames, hi, hx, hindex⟩
    rw [hlive] at hx
    obtain rfl := Option.some.inj hx
    simp only [getIndex, hid, hnames, hi, hindex]
  · rcases (ht.tables a).mp htable with ⟨tableId, hid⟩
    rcases (ht.touched a).mp (hone.touched a htable) with ⟨names, hnames⟩
    cases hi : names.lookup i with
    | none =>
        simp only [getIndex, hid, hnames, hi]
    | some k =>
        rcases (ht.named a names i k hnames hi).2 with ⟨info, hinfo⟩
        rw [hlive] at hinfo
        cases hinfo
  · have hlast := hone.only a i info hlive
    rw [hone.only b j info' hlive'] at hlast
    exact absurd (Option.some.inj hlast).symm hne
  · -- The index dropped is the only live one.
    rcases dropIndex_cases hdrop with ⟨hfail, _⟩ | ⟨_, names, k, _, _, hnames, hk, _⟩
    · exact absurd rfl hfail
    · rcases (ht.named a names i k hnames hk).2 with ⟨info', hlive'⟩
      have hlast := hone.only a i info' hlive'
      rw [hone.only b j info hlive] at hlast
      exact absurd (Option.some.inj hlast) hne

/-- In every run of `CreateTable`, `CreateIndex` and `DropIndex` on a new catalog, whatever they
return, the catalog is a directory of the live indexes if and only if every table had a
`CreateIndex` since it was made and since an index of it was dropped, and no index is live but the
one made last. -/
theorem index_directory_iff {bpm : BufferPoolManager n} {es : List IndexEvent}
    (hrun : Run IndexClient (init bpm, IndexHistory.start) es (c, h)) :
    Directory c h ↔ h.OneInUse :=
  ⟨(run_tracks hrun).oneInUse, (run_tracks hrun).directory⟩

/-- `CreateIndex` of a new name, with a free frame and room on disk, succeeds. -/
theorem createIndex_new {f : Fin n} {rest : List (Fin n)} {k : Nat} {tableId : UInt32}
    {tableInfo : TableInfo} {indexKeys : { ks : List Str // ks.length < 2 ^ 32 }}
    {keyMap : { xs : List UInt32 // xs.length = indexKeys.val.length }} {columns : List Column}
    (hpool : PoolInv c.bufferPoolManager) (hfree : c.bufferPoolManager.freeList = f :: rest)
    (hdense : DiskManager.Dense c.bufferPoolManager.diskManager k) (hk : k < MAX_VALID_PAGE_ID)
    (hid : c.tableNames.lookup a = some tableId)
    (htable : c.tables.lookup tableId = some (some tableInfo))
    (hnew : ((c.indexNames.lookup a).getD ∅).lookup i = none)
    (hkeys : tableInfo.getSchema.keyMap indexKeys.val = some keyMap)
    (hcolumns : keyMap.val.mapM (fun x => tableInfo.getSchema.getColumn x.toNat) = .ok columns)
    (hfits : ∀ id hlen, (IndexMetadata.mk id i tableId keyMap.val hlen).getSerializedSize ≤
      PAGE_SIZE) :
    ∃ c', c.createIndex a i indexKeys = .ok (.success, c') := by
  rcases hdense.allocatePage_ok hk with ⟨dm, halloc, _⟩
  rcases hpool.newPage_free hfree halloc with ⟨bpm₁, hpage, _⟩
  have hnot : ((((c.indexNames.lookup a).getD ∅).lookup i).isSome = true) = False := by
    simp [hnew]
  simp only [createIndex, hid, hnot, if_false, tableAt, htable, deref, ok_bind, hkeys, hpage,
    IndexMetadata.serializeTo_eq (hfits _ _), IndexInfo.init, hcolumns]
  exact ⟨_, rfl⟩

/-- Table `a` is made in an empty database. -/
theorem first_table_found {schema : Schema}
    (hfits : ∀ id page, (TableMetadata.mk id nameA page schema).getSerializedSize ≤ PAGE_SIZE) :
    ∃ (made : TableInfo) (c : CatalogManager 4) (tableId : UInt32),
      Step (init (BufferPoolManager.init 4 DiskManager.fresh))
        (.createTable nameA schema .success (some made)) c ∧
      PoolInv c.bufferPoolManager ∧ c.bufferPoolManager.freeList = [2, 3] ∧
      DiskManager.Dense c.bufferPoolManager.diskManager 2 ∧
      c.tableNames.lookup nameA = some tableId ∧ c.tables.lookup tableId = some (some made) ∧
      c.indexNames.lookup nameA = none ∧ made.getSchema = schema := by
  rcases createTable_new (c := init (BufferPoolManager.init 4 DiskManager.fresh)) (f := (0 : Fin 4))
    (g := 1) (init_poolInv 4 DiskManager.fresh_inv) rfl DiskManager.fresh_dense (by decide) rfl
    hfits with ⟨made, c, hstep, hpool, hfree, hdense, _⟩
  have hnames : c.indexNames.lookup nameA = none := by
    rw [(createTable_sameIndexes hstep).names]
    rfl
  -- The new table is under its name and under its id.
  rcases createTable_cases hstep with ⟨hfalse, _⟩ | ⟨_, made', hmade, hadds⟩
  · cases hfalse
  · cases hmade
    have hfound : ∃ tableId, c.tableNames.lookup nameA = some tableId ∧
        c.tables.lookup tableId = some (some made) := by
      rw [hadds.names, hadds.tables]
      exact ⟨_, AList.lookup_insert .., AList.lookup_insert ..⟩
    rcases hfound with ⟨tableId, hid, htable⟩
    exact ⟨made, c, tableId, hstep, hpool, hfree, hdense, hid, htable, hnames, hadds.schema⟩

/-- A table is made; asking for an index of it throws. -/
theorem getIndex_throws :
    ∃ (es : List IndexEvent) (c : CatalogManager 4) (h : IndexHistory),
      Run IndexClient (init (BufferPoolManager.init 4 DiskManager.fresh), IndexHistory.start) es
        (c, h) ∧
      h.tables nameA = true ∧ c.getIndex nameA nameB = .error .outOfRange ∧ ¬Directory c h := by
  rcases first_table_found (charSchema_fits rfl) with
    ⟨made, c, tableId, hstep, _, _, _, hid, _, hnone, _⟩
  have hstep' : IndexStep (init (BufferPoolManager.init 4 DiskManager.fresh))
      (.createTable nameA TableHeap.charSchema .success (some made)) c := hstep
  set h := IndexHistory.start.track
    (.createTable nameA TableHeap.charSchema .success (some made)) with hh
  have hrun : Run IndexClient
      (init (BufferPoolManager.init 4 DiskManager.fresh), IndexHistory.start)
      [.createTable nameA TableHeap.charSchema .success (some made)] (c, h) :=
    Run.cons ⟨hstep', rfl⟩ (Run.nil _)
  have htable : h.tables nameA = true := by
    simp [hh, IndexHistory.track]
  refine ⟨_, c, h, hrun, htable, ?_, fun hd => ?_⟩
  · simp only [getIndex, hid, hnone]
  · have htouched := ((run_tracks hrun).oneInUse hd).touched nameA htable
    simp [hh, IndexHistory.track, IndexHistory.start] at htouched

/-- One index of one table is made and can be found. -/
theorem index_directory_iff_first :
    ∃ (es : List IndexEvent) (c : CatalogManager 4) (h : IndexHistory) (info : IndexInfo),
      Run IndexClient (init (BufferPoolManager.init 4 DiskManager.fresh), IndexHistory.start) es
        (c, h) ∧
      h.live nameA nameB = some info ∧ Directory c h := by
  rcases first_table_found (charSchema_fits rfl) with
    ⟨made, c₁, tableId, hstep₁, hpool, hfree, hdense, hid, htable, hnames, hschema⟩
  let keys : { ks : List Str // ks.length < 2 ^ 32 } := ⟨[⟨[115], by decide⟩], by decide⟩
  have hkeys : made.getSchema.keyMap keys.val = some ⟨[0], rfl⟩ := by
    rw [hschema]
    rfl
  rcases createIndex_new (i := nameB) hpool hfree hdense (by decide) hid htable
    (by rw [hnames]; rfl) hkeys (by rw [hschema]; rfl)
    (fun _ _ => by simp [IndexMetadata.getSerializedSize, nameB, PAGE_SIZE]) with ⟨c₂, hok⟩
  set e₁ : IndexEvent := .createTable nameA TableHeap.charSchema .success (some made) with he₁
  set e₂ : IndexEvent :=
    .createIndex nameA nameB keys .success (c₁.madeIndex .success c₂) with he₂
  set h₁ := IndexHistory.start.track e₁ with hh₁
  set h₂ := h₁.track e₂ with hh₂
  have hstep₁' : IndexStep (init (BufferPoolManager.init 4 DiskManager.fresh)) e₁ c₁ := hstep₁
  have hstep₂ : IndexStep c₁ e₂ c₂ := ⟨hok, rfl⟩
  have hclient₁ : IndexClient
      (init (BufferPoolManager.init 4 DiskManager.fresh), IndexHistory.start) e₁ (c₁, h₁) :=
    ⟨hstep₁', rfl⟩
  have hclient₂ : IndexClient (c₁, h₁) e₂ (c₂, h₂) := ⟨hstep₂, rfl⟩
  have hrun := Run.cons hclient₁ (Run.cons hclient₂ (Run.nil _))
  have hmade : ∃ info, c₁.madeIndex .success c₂ = some info := by
    rcases createIndex_cases hok with ⟨hfalse, _⟩ | ⟨_, _, _, ⟨hfail, _⟩ | ⟨_, _, info, hi⟩⟩
    · cases hfalse
    · exact absurd rfl hfail
    · refine ⟨info, ?_⟩
      rw [madeIndex, if_pos rfl, hi.indexes, AList.lookup_insert]
  rcases hmade with ⟨info, hinfo⟩
  have hlive : ∀ b j, h₂.live b j =
      if b = nameA ∧ j = nameB then some info else none := by
    intro b j
    rw [← hinfo]
    rfl
  -- One table, touched by `CreateIndex`, and one live index, the last one made.
  refine ⟨_, c₂, h₂, info, hrun, by rw [hlive]; rfl, (index_directory_iff hrun).mpr ⟨?_, ?_⟩⟩
  · intro b hb
    by_cases hba : b = nameA
    · rw [hba]
      rfl
    · have hfalse : h₂.tables b = false := Function.update_of_ne hba _ _
      rw [hfalse] at hb
      cases hb
  · intro b j x hx
    rw [hlive] at hx
    split at hx
    · rename_i heq
      rw [heq.1, heq.2]
      rfl
    · cases hx

end CatalogManager
end MiniSQL
