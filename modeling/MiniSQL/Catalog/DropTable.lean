import MiniSQL.Buffer.Contents
import MiniSQL.Catalog.IndexDirectory

/-!
# DropTable — what a dropped table leaves behind

`DropTable` erases the name, the table info and the entry of the meta page, and deletes that page.
It neither looks at the indexes of the table nor at the pages of its heap, so it leaves nothing
behind only when there was nothing else: no index, no heap page that is still allocated, and no
other table under the same id.
-/

namespace MiniSQL
namespace CatalogManager

open Lib BufferPoolManager

variable {n : Nat} {c c' : CatalogManager n} {t b : Str} {tableId : UInt32}

/-! ## What belongs to a table -/

/-- The pages linked behind page `p`, itself included. -/
inductive OnChain (s : BufferPoolManager n) : PageId → PageId → Prop
  | here (p : PageId) : OnChain s p p
  | next {p q : PageId} : TablePage.getNextPageId (s.contents p).mem ≠ INVALID_PAGE_ID →
      OnChain s (TablePage.getNextPageId (s.contents p).mem) q → OnChain s p q

/-- The id of an index of table `t`: one of its index names has it, or the index refers to it. -/
def IndexOf (c : CatalogManager n) (t : Str) (k : UInt32) : Prop :=
  (∃ names i, c.indexNames.lookup t = some names ∧ names.lookup i = some k) ∨
    ∃ x, c.indexes.lookup k = some x ∧ x.tableInfo.getTableName = t

/-- The pages of a table: its meta page, those of its heap and the meta pages of its indexes. -/
def Owns (c : CatalogManager n) (t : Str) (q : PageId) : Prop :=
  0 ≤ q.toInt ∧ ∃ tableId, c.tableNames.lookup t = some tableId ∧
    (c.catalogMeta.tableMetaPages[tableId]? = some q ∨
      (∃ info, c.tables.lookup tableId = some (some info) ∧
        OnChain c.bufferPoolManager info.tableHeap.firstPageId q) ∨
      ∃ k, IndexOf c t k ∧ c.catalogMeta.indexMetaPages[k]? = some q)

/-- Every index refers to a table that is there. -/
def Referential (c : CatalogManager n) : Prop :=
  ∀ k x, c.indexes.lookup k = some x →
    c.tableNames.lookup x.tableInfo.getTableName = some x.metaData.tableId ∧
      c.tables.lookup x.metaData.tableId = some (some x.tableInfo)

/-- Whether a page is free on disk. -/
def isFree (c : CatalogManager n) (q : PageId) : Bool :=
  c.bufferPoolManager.diskManager.isPageFree q

/-- What should hold when table `t` was dropped from `c`. -/
structure LeavesNothing (c : CatalogManager n) (t : Str) (c' : CatalogManager n) : Prop where
  index_names : ∀ names i, c'.indexNames.lookup t = some names → names.lookup i = none
  indexes : ∀ k x, c'.indexes.lookup k = some x → x.tableInfo.getTableName ≠ t
  index_pages : ∀ k, IndexOf c t k → k ∉ c'.catalogMeta.indexMetaPages
  refers : Referential c → Referential c'
  freed : ∀ q, Owns c t q → c'.isFree q = true
  other_lookups : ∀ b, b ≠ t → (c'.getTable b).1 = (c.getTable b).1 ∧
    (c'.getTable b).2.1 = (c.getTable b).2.1 ∧ (∀ i, c'.getIndex b i = c.getIndex b i) ∧
    c'.getTableIndexes b = c.getTableIndexes b
  other_pages : ∀ b q, b ≠ t → Owns c b q → c'.isFree q = c.isFree q ∧
    c'.bufferPoolManager.contents q = c.bufferPoolManager.contents q
  recreated : ∀ schema info c'', c'.createTable t schema = .ok (.success, info, c'') →
    (c''.getTableIndexes t).2 = [] ∧ ∀ i x, c''.getIndex t i ≠ .ok (.success, some x)

/-- The page `DropTable` deletes; a missing entry reads as page 0. -/
def droppedPage (c : CatalogManager n) (tableId : UInt32) : PageId :=
  c.catalogMeta.tableMetaPages.getD tableId 0

/-- There is nothing of the table but its name, its id and its meta page. -/
structure Bare (c : CatalogManager n) (t : Str) (tableId : UInt32) : Prop where
  unindexed : ∀ k, ¬IndexOf c t k
  heap_free : ∀ info q, c.tables.lookup tableId = some (some info) → 0 ≤ q.toInt →
    OnChain c.bufferPoolManager info.tableHeap.firstPageId q → q ≠ c.droppedPage tableId →
    c.isFree q = true
  alone : ∀ b, b ≠ t → c.tableNames.lookup b = some tableId →
    (c.tables.lookup tableId).getD none = none
  own_page : ∀ b, b ≠ t → Owns c b (c.droppedPage tableId) →
    c.isFree (c.droppedPage tableId) = true ∧ Backed c.bufferPoolManager (c.droppedPage tableId)

/-! ## What `DropTable` does -/

/-- The catalog after `DropTable` of a table that is there. -/
structure Drops (c : CatalogManager n) (t : Str) (tableId : UInt32) (c' : CatalogManager n) :
    Prop where
  names : c'.tableNames = c.tableNames.erase t
  tables : c'.tables = c.tables.erase tableId
  index_names : c'.indexNames = c.indexNames
  indexes : c'.indexes = c.indexes
  index_pages : c'.catalogMeta.indexMetaPages = c.catalogMeta.indexMetaPages
  free_iff : ∀ q, 0 ≤ q.toInt →
    (c'.isFree q = true ↔ q = c.droppedPage tableId ∨ c.isFree q = true)
  contents_ne : ∀ q, 0 ≤ q.toInt → q ≠ c.droppedPage tableId →
    c'.bufferPoolManager.contents q = c.bufferPoolManager.contents q
  contents_iff : 0 ≤ (c.droppedPage tableId).toInt →
    (c'.bufferPoolManager.contents (c.droppedPage tableId) =
        c.bufferPoolManager.contents (c.droppedPage tableId) ↔
      Backed c.bufferPoolManager (c.droppedPage tableId))

theorem Drops.lookup_other (h : Drops c t tableId c') (hb : b ≠ t) :
    c'.tableNames.lookup b = c.tableNames.lookup b := by
  rw [h.names, AList.lookup_erase_ne hb]

theorem getTable_eq (c : CatalogManager n) (b : Str) :
    ((c.getTable b).1, (c.getTable b).2.1) =
      match c.tableNames.lookup b with
      | none => (.tableNotExist, none)
      | some k => (.success, (c.tables.lookup k).getD none) := by
  unfold getTable
  cases hb : c.tableNames.lookup b with
  | none =>
      rfl
  | some k =>
      simp only [tableAt]
      cases c.tables.lookup k with
      | none => rfl
      | some x => rfl

theorem Drops.bare (h : Drops c t tableId c') (hid : c.tableNames.lookup t = some tableId)
    (hl : LeavesNothing c t c') : Bare c t tableId := by
  refine ⟨?_, fun info q hinfo hq hchain hne => ?_, fun b hb hshared => ?_, fun b hb howns => ?_⟩
  · rintro k (⟨names, i, hnames, hi⟩ | ⟨x, hx, hname⟩)
    · rw [hl.index_names names i (by rw [h.index_names]; exact hnames)] at hi
      cases hi
    · exact hl.indexes k x (by rw [h.indexes]; exact hx) hname
  · have howns : Owns c t q := ⟨hq, tableId, hid, Or.inr (Or.inl ⟨info, hinfo, hchain⟩)⟩
    exact ((h.free_iff q hq).mp (hl.freed q howns)).resolve_left hne
  · -- The other table under this id loses its table info.
    rcases hl.other_lookups b hb with ⟨hcode, htable, _⟩
    have hafter := getTable_eq c' b
    rw [hcode, htable, getTable_eq c b, h.lookup_other hb] at hafter
    simp only [hshared, h.tables, AList.lookup_erase, Option.getD_none, Prod.mk.injEq,
      true_and] at hafter
    exact hafter
  · rcases hl.other_pages b _ hb howns with ⟨hfree, hcontents⟩
    refine ⟨?_, (h.contents_iff howns.1).mp hcontents⟩
    rw [← hfree]
    exact (h.free_iff _ howns.1).mpr (Or.inl rfl)

theorem Drops.freed (h : Drops c t tableId c') (hid : c.tableNames.lookup t = some tableId)
    (hb : Bare c t tableId) {q : PageId} (howns : Owns c t q) : c'.isFree q = true := by
  rcases howns with ⟨hq, tableId', hid', hcases⟩
  rw [hid] at hid'
  obtain rfl := Option.some.inj hid'
  rw [h.free_iff q hq]
  rcases hcases with hmeta | ⟨info, hinfo, hchain⟩ | ⟨k, hk, _⟩
  · left
    rw [droppedPage, Std.ExtTreeMap.getD_eq_getD_getElem?, hmeta]
    rfl
  · by_cases hne : q = c.droppedPage tableId
    · exact Or.inl hne
    · exact Or.inr (hb.heap_free info q hinfo hq hchain hne)
  · exact absurd hk (hb.unindexed k)

theorem Drops.other_pages (h : Drops c t tableId c') (hb : Bare c t tableId) (hbt : b ≠ t)
    {q : PageId} (howns : Owns c b q) :
    c'.isFree q = c.isFree q ∧
      c'.bufferPoolManager.contents q = c.bufferPoolManager.contents q := by
  by_cases hq : q = c.droppedPage tableId
  · rw [hq] at howns ⊢
    rcases hb.own_page b hbt howns with ⟨hfree, hbacked⟩
    refine ⟨?_, (h.contents_iff howns.1).mpr hbacked⟩
    rw [hfree, h.free_iff _ howns.1]
    exact Or.inl rfl
  · refine ⟨?_, h.contents_ne q howns.1 hq⟩
    rw [Bool.eq_iff_iff, h.free_iff q howns.1, or_iff_right hq]

end CatalogManager
end MiniSQL
