import MiniSQL.Record.Schema

/-!
# Metadata — what the catalog stores on its pages

`catalog/table.cpp`, `catalog/indexes.cpp` and the codec part of `catalog/catalog.cpp`.  A
`std::map` is a tree map: iteration runs in key order, and `emplace` keeps an entry that is
already there.
-/

namespace MiniSQL

open Lib

/-! ## Table metadata -/

structure TableMetadata where
  tableId : UInt32
  tableName : Str
  rootPageId : PageId
  schema : Schema
  deriving DecidableEq

namespace TableMetadata

def TABLE_METADATA_MAGIC_NUM : Nat := 344528

def getSerializedSize (t : TableMetadata) : Nat :=
  2 * 4 + 4 + t.tableName.val.length + 4 + t.schema.getSerializedSize

def serializeTo (t : TableMetadata) (m : Mem) (buf : Nat) : Result (Nat × Mem) := do
  let ofs := t.getSerializedSize
  assert (ofs ≤ PAGE_SIZE) "Failed to serialize table info."
  let (len, m') := Writer.all
    [Writer.word TABLE_METADATA_MAGIC_NUM,
     Writer.word t.tableId.toNat,
     Writer.word t.tableName.val.length,
     Writer.bytes t.tableName.val,
     Writer.word t.rootPageId.toUInt32.toNat,
     t.schema.serializeTo] m buf
  assert (len = ofs) "Unexpected serialize size."
  .ok (ofs, m')

def deserializeFrom : Decoder Fault TableMetadata := do
  let magicNum ← Decoder.word
  Decoder.lift (assert (magicNum.toNat = TABLE_METADATA_MAGIC_NUM)
    "Failed to deserialize table info.")
  let tableId ← Decoder.word
  let len ← Decoder.word
  let tableName ← Decoder.str len
  let rootPageId ← Decoder.word
  let schema ← Schema.deserializeFrom
  pure { tableId := tableId, tableName := tableName, rootPageId := rootPageId.toInt32,
         schema := schema }

/-- The bytes of the table metadata. -/
def encode (t : TableMetadata) : List UInt8 :=
  Mem.le32 TABLE_METADATA_MAGIC_NUM ++ (Mem.le32 t.tableId.toNat ++
    (Mem.le32 t.tableName.val.length ++ (t.tableName.val ++
      (Mem.le32 t.rootPageId.toUInt32.toNat ++ (t.schema.encode ++ [])))))

theorem encode_length (t : TableMetadata) : t.encode.length = t.getSerializedSize := by
  simp only [encode, getSerializedSize, List.length_append, Mem.le32_length,
    Schema.encode_length, List.length_nil]
  omega

theorem serializeTo_eq {t : TableMetadata} (hfits : t.getSerializedSize ≤ PAGE_SIZE) (m : Mem)
    (buf : Nat) : t.serializeTo m buf = .ok (t.getSerializedSize, m.store buf t.encode) := by
  have hw : Writer.Writes (Writer.all
      [Writer.word TABLE_METADATA_MAGIC_NUM, Writer.word t.tableId.toNat,
       Writer.word t.tableName.val.length, Writer.bytes t.tableName.val,
       Writer.word t.rootPageId.toUInt32.toNat, t.schema.serializeTo]) t.encode := by
    refine (Writer.writes_word _).all_cons ?_
    refine (Writer.writes_word _).all_cons ?_
    refine (Writer.writes_word _).all_cons ?_
    refine (Writer.writes_bytes _).all_cons ?_
    refine (Writer.writes_word _).all_cons ?_
    exact t.schema.writes_encode.all_cons Writer.writes_all_nil
  simp only [serializeTo, hfits, decide_true, assert_true, ok_bind, hw m buf, encode_length]

/-- What fits its page was stored. -/
theorem serializeTo_stores {t : TableMetadata} {m m' : Mem} {buf k : Nat}
    (h : t.serializeTo m buf = .ok (k, m')) :
    t.encode.length ≤ PAGE_SIZE ∧ k = t.encode.length ∧ m' = m.store buf t.encode := by
  rcases bind_eq_ok.mp h with ⟨_, hassert, _⟩
  have hfits := of_decide_eq_true (assert_eq_ok.mp hassert)
  rw [serializeTo_eq hfits, Except.ok.injEq, Prod.mk.injEq] at h
  exact ⟨t.encode_length.trans_le hfits, h.1.symm.trans t.encode_length.symm, h.2.symm⟩

theorem reads_encode (t : TableMetadata) : Decoder.Reads deserializeFrom t.encode t := by
  refine (Decoder.reads_word _).bind ?_
  refine (Decoder.reads_lift ()).bind_nil ?_
  refine (Decoder.reads_u32 _).bind ?_
  refine (Decoder.reads_word _).bind ?_
  refine (Decoder.reads_str _).bind ?_
  refine (Decoder.reads_u32 _).bind ?_
  refine t.schema.reads_encode.bind ?_
  exact Decoder.reads_pure t

end TableMetadata

/-! ## Index metadata -/

structure IndexMetadata where
  indexId : UInt32
  indexName : Str
  tableId : UInt32
  keyMap : List UInt32
  keyMap_lt : keyMap.length < 2 ^ 32
  deriving DecidableEq

namespace IndexMetadata

def INDEX_METADATA_MAGIC_NUM : Nat := 344528

def getSerializedSize (x : IndexMetadata) : Nat :=
  4 + 4 + 4 + x.indexName.val.length + 4 + 4 + x.keyMap.length * 4

def serializeTo (x : IndexMetadata) (m : Mem) (buf : Nat) : Result (Nat × Mem) := do
  let ofs := x.getSerializedSize
  assert (ofs ≤ PAGE_SIZE) "Failed to serialize index info."
  let (len, m') := Writer.all
    [Writer.word INDEX_METADATA_MAGIC_NUM,
     Writer.word x.indexId.toNat,
     Writer.word x.indexName.val.length,
     Writer.bytes x.indexName.val,
     Writer.word x.tableId.toNat,
     Writer.word x.keyMap.length,
     Writer.each (fun colIndex => Writer.word colIndex.toNat) x.keyMap] m buf
  assert (len = ofs) "Unexpected serialize size."
  .ok (ofs, m')

def deserializeFrom : Decoder Fault IndexMetadata := do
  let magicNum ← Decoder.word
  Decoder.lift (assert (magicNum.toNat = INDEX_METADATA_MAGIC_NUM)
    "Failed to deserialize index info.")
  let indexId ← Decoder.word
  let len ← Decoder.word
  let indexName ← Decoder.str len
  let tableId ← Decoder.word
  let indexKeyCount ← Decoder.word
  let keyMap ← Decoder.times Decoder.word indexKeyCount.toNat
  pure ⟨indexId, indexName, tableId, keyMap.val,
    by rw [keyMap.property]; exact indexKeyCount.toNat_lt⟩

/-- The bytes of the index metadata. -/
def encode (x : IndexMetadata) : List UInt8 :=
  Mem.le32 INDEX_METADATA_MAGIC_NUM ++ (Mem.le32 x.indexId.toNat ++
    (Mem.le32 x.indexName.val.length ++ (x.indexName.val ++ (Mem.le32 x.tableId.toNat ++
      (Mem.le32 x.keyMap.length ++ (x.keyMap.flatMap (fun k => Mem.le32 k.toNat) ++ []))))))

theorem encode_length (x : IndexMetadata) : x.encode.length = x.getSerializedSize := by
  have hkeys : (x.keyMap.flatMap fun k => Mem.le32 k.toNat).length = x.keyMap.length * 4 := by
    simp [List.length_flatMap]
  simp only [encode, getSerializedSize, List.length_append, Mem.le32_length, hkeys,
    List.length_nil]
  omega

theorem serializeTo_eq {x : IndexMetadata} (hfits : x.getSerializedSize ≤ PAGE_SIZE) (m : Mem)
    (buf : Nat) : x.serializeTo m buf = .ok (x.getSerializedSize, m.store buf x.encode) := by
  have hw : Writer.Writes (Writer.all
      [Writer.word INDEX_METADATA_MAGIC_NUM, Writer.word x.indexId.toNat,
       Writer.word x.indexName.val.length, Writer.bytes x.indexName.val,
       Writer.word x.tableId.toNat, Writer.word x.keyMap.length,
       Writer.each (fun colIndex => Writer.word colIndex.toNat) x.keyMap]) x.encode := by
    refine (Writer.writes_word _).all_cons ?_
    refine (Writer.writes_word _).all_cons ?_
    refine (Writer.writes_word _).all_cons ?_
    refine (Writer.writes_bytes _).all_cons ?_
    refine (Writer.writes_word _).all_cons ?_
    refine (Writer.writes_word _).all_cons ?_
    exact (Writer.writes_each fun k _ => Writer.writes_word _).all_cons Writer.writes_all_nil
  simp only [serializeTo, hfits, decide_true, assert_true, ok_bind, hw m buf, encode_length]

/-- What fits its page was stored. -/
theorem serializeTo_stores {x : IndexMetadata} {m m' : Mem} {buf k : Nat}
    (h : x.serializeTo m buf = .ok (k, m')) :
    x.encode.length ≤ PAGE_SIZE ∧ k = x.encode.length ∧ m' = m.store buf x.encode := by
  rcases bind_eq_ok.mp h with ⟨_, hassert, _⟩
  have hfits := of_decide_eq_true (assert_eq_ok.mp hassert)
  rw [serializeTo_eq hfits, Except.ok.injEq, Prod.mk.injEq] at h
  exact ⟨x.encode_length.trans_le hfits, h.1.symm.trans x.encode_length.symm, h.2.symm⟩

theorem reads_encode (x : IndexMetadata) : Decoder.Reads deserializeFrom x.encode x := by
  have hcount : x.keyMap.length = (UInt32.ofNat x.keyMap.length).toNat :=
    (UInt32.toNat_ofNat_of_lt' x.keyMap_lt).symm
  refine (Decoder.reads_word _).bind ?_
  refine (Decoder.reads_lift ()).bind_nil ?_
  refine (Decoder.reads_u32 _).bind ?_
  refine (Decoder.reads_word _).bind ?_
  refine (Decoder.reads_str _).bind ?_
  refine (Decoder.reads_u32 _).bind ?_
  refine (Decoder.reads_word _).bind ?_
  refine (Decoder.reads_times (fun k _ => Decoder.reads_u32 k) hcount).bind ?_
  exact Decoder.reads_pure _

end IndexMetadata

/-! ## Catalog metadata -/

/-- `std::map<uint32_t, page_id_t>`. -/
abbrev PageMap := Std.ExtTreeMap UInt32 PageId

structure CatalogMeta where
  tableMetaPages : PageMap
  indexMetaPages : PageMap

namespace CatalogMeta

def CATALOG_METADATA_MAGIC_NUM : Nat := 89849

/-- `sizeof(unsigned long)` is 8. -/
def getSerializedSize (c : CatalogMeta) : Nat :=
  4 + 2 * 8 + (4 + 4) * c.tableMetaPages.size + (4 + 4) * c.indexMetaPages.size

/-- One entry of a map: the id and the page. -/
def writeEntry (entry : UInt32 × PageId) : Writer :=
  Writer.all [Writer.word entry.1.toNat, Writer.word entry.2.toUInt32.toNat]

def writer (c : CatalogMeta) : Writer :=
  Writer.all
    [Writer.word CATALOG_METADATA_MAGIC_NUM,
     Writer.word c.tableMetaPages.size,
     Writer.word c.indexMetaPages.size,
     Writer.each writeEntry c.tableMetaPages.toList,
     Writer.each writeEntry c.indexMetaPages.toList]

/-- `SerializeTo` returns nothing; the number of bytes it writes is kept for the proofs. -/
def serializeTo (c : CatalogMeta) (m : Mem) (buf : Nat) : Result (Nat × Mem) := do
  assert (c.getSerializedSize ≤ PAGE_SIZE) "Failed to serialize catalog metadata to disk."
  .ok (c.writer m buf)

def readEntry : Decoder Fault (UInt32 × PageId) := do
  let id ← Decoder.word
  let pageId ← Decoder.word
  pure (id, pageId.toInt32)

/-- `emplace` for one entry after the other. -/
def emplaceAll (entries : List (UInt32 × PageId)) (pages : PageMap) : PageMap :=
  entries.foldl (fun pages entry => pages.insertIfNew entry.1 entry.2) pages

def deserializeFrom : Decoder Fault CatalogMeta := do
  let magicNum ← Decoder.word
  Decoder.lift (assert (magicNum.toNat = CATALOG_METADATA_MAGIC_NUM)
    "Failed to deserialize catalog metadata from disk.")
  let tableNums ← Decoder.word
  let indexNums ← Decoder.word
  let tables ← Decoder.times readEntry tableNums.toNat
  let indexes ← Decoder.times readEntry indexNums.toNat
  pure { tableMetaPages := emplaceAll tables.val ∅, indexMetaPages := emplaceAll indexes.val ∅ }

/-! ### The maps -/

/-- What `emplace` over a list finds: an old entry, else an entry of the list. -/
theorem getElem?_emplaceAll {entries : List (UInt32 × PageId)}
    (hkeys : ∀ k v v', (k, v) ∈ entries → (k, v') ∈ entries → v = v') (pages : PageMap)
    (k : UInt32) (v : PageId) :
    (emplaceAll entries pages)[k]? = some v ↔
      pages[k]? = some v ∨ (pages[k]? = none ∧ (k, v) ∈ entries) := by
  induction entries generalizing pages with
  | nil =>
      simp [emplaceAll]
  | cons entry entries ih =>
      rcases entry with ⟨k₀, v₀⟩
      have hkeys' : ∀ k v v', (k, v) ∈ entries → (k, v') ∈ entries → v = v' :=
        fun k v v' h h' => hkeys k v v' (List.mem_cons_of_mem _ h) (List.mem_cons_of_mem _ h')
      have hrec := ih hkeys' (pages.insertIfNew k₀ v₀)
      have hstep : emplaceAll ((k₀, v₀) :: entries) pages =
          emplaceAll entries (pages.insertIfNew k₀ v₀) := rfl
      rw [hstep, hrec, Std.ExtTreeMap.getElem?_insertIfNew, List.mem_cons]
      by_cases hk : k₀ = k
      · subst hk
        by_cases hmem : k₀ ∈ pages
        · -- The key was there before, and stays.
          simp [hmem]
        · -- The key is new, and no later entry for it has another page.
          have hnone : pages[k₀]? = none := Std.ExtTreeMap.getElem?_eq_none hmem
          simp only [Std.compare_self, hmem, not_false_eq_true, and_self, if_true,
            Option.some.injEq, reduceCtorEq, false_and, or_false, hnone, false_or, true_and,
            Prod.mk.injEq, true_and]
          constructor
          · rintro rfl
            exact Or.inl rfl
          · rintro (rfl | hin)
            · rfl
            · exact hkeys k₀ v₀ v (List.mem_cons_self ..) (List.mem_cons_of_mem _ hin)
      · have hcmp : ¬compare k₀ k = .eq := fun h => hk (Std.LawfulEqCmp.eq_of_compare h)
        simp [hcmp, Ne.symm hk]

/-- A map is rebuilt from the list of its entries. -/
theorem emplaceAll_toList (pages : PageMap) : emplaceAll pages.toList ∅ = pages := by
  have hmem : ∀ k v, (k, v) ∈ pages.toList ↔ pages[k]? = some v := fun k v =>
    Std.ExtTreeMap.mem_toList_iff_getElem?_eq_some
  have hkeys : ∀ k v v', (k, v) ∈ pages.toList → (k, v') ∈ pages.toList → v = v' := by
    intro k v v' h h'
    have heq := ((hmem k v).mp h).symm.trans ((hmem k v').mp h')
    exact Option.some.inj heq
  refine Std.ExtTreeMap.ext_getElem? fun k => Option.ext fun v => ?_
  rw [getElem?_emplaceAll hkeys, hmem]
  simp

/-! ### The codec -/

/-- The bytes of one entry. -/
def encodeEntry (entry : UInt32 × PageId) : List UInt8 :=
  Mem.le32 entry.1.toNat ++ (Mem.le32 entry.2.toUInt32.toNat ++ [])

/-- The bytes of the catalog metadata. -/
def encode (c : CatalogMeta) : List UInt8 :=
  Mem.le32 CATALOG_METADATA_MAGIC_NUM ++ (Mem.le32 c.tableMetaPages.size ++
    (Mem.le32 c.indexMetaPages.size ++ (c.tableMetaPages.toList.flatMap encodeEntry ++
      (c.indexMetaPages.toList.flatMap encodeEntry ++ []))))

theorem writes_entry (entry : UInt32 × PageId) :
    Writer.Writes (writeEntry entry) (encodeEntry entry) :=
  (Writer.writes_word _).all_cons ((Writer.writes_word _).all_cons Writer.writes_all_nil)

theorem writes_encode (c : CatalogMeta) : Writer.Writes c.writer c.encode := by
  refine (Writer.writes_word _).all_cons ?_
  refine (Writer.writes_word _).all_cons ?_
  refine (Writer.writes_word _).all_cons ?_
  refine (Writer.writes_each fun entry _ => writes_entry entry).all_cons ?_
  exact (Writer.writes_each fun entry _ => writes_entry entry).all_cons Writer.writes_all_nil

theorem reads_entry (entry : UInt32 × PageId) :
    Decoder.Reads readEntry (encodeEntry entry) entry := by
  refine (Decoder.reads_u32 _).bind ?_
  refine (Decoder.reads_u32 _).bind ?_
  exact Decoder.reads_pure entry

/-- The decoder rebuilds the catalog metadata when the two counts fit their words. -/
theorem reads_encode {c : CatalogMeta} (ht : c.tableMetaPages.size < 2 ^ 32)
    (hx : c.indexMetaPages.size < 2 ^ 32) : Decoder.Reads deserializeFrom c.encode c := by
  have htables : c.tableMetaPages.toList.length = (UInt32.ofNat c.tableMetaPages.size).toNat := by
    rw [Std.ExtTreeMap.length_toList, UInt32.toNat_ofNat_of_lt' ht]
  have hindexes : c.indexMetaPages.toList.length = (UInt32.ofNat c.indexMetaPages.size).toNat := by
    rw [Std.ExtTreeMap.length_toList, UInt32.toNat_ofNat_of_lt' hx]
  have hpure : Decoder.Reads (pure ⟨emplaceAll c.tableMetaPages.toList ∅,
      emplaceAll c.indexMetaPages.toList ∅⟩ : Decoder Fault CatalogMeta) [] c := by
    rw [emplaceAll_toList, emplaceAll_toList]
    exact Decoder.reads_pure c
  refine (Decoder.reads_word _).bind ?_
  refine (Decoder.reads_lift ()).bind_nil ?_
  refine (Decoder.reads_word _).bind ?_
  refine (Decoder.reads_word _).bind ?_
  refine (Decoder.reads_times (fun entry _ => reads_entry entry) htables).bind ?_
  refine (Decoder.reads_times (fun entry _ => reads_entry entry) hindexes).bind ?_
  exact hpure

theorem encode_length (c : CatalogMeta) : c.encode.length = c.getSerializedSize - 8 := by
  have hentries : ∀ pages : PageMap,
      (pages.toList.flatMap encodeEntry).length = 8 * pages.size := by
    intro pages
    simp [List.length_flatMap, encodeEntry, Std.ExtTreeMap.length_toList, Nat.mul_comm]
  simp only [encode, getSerializedSize, List.length_append, Mem.le32_length, hentries,
    List.length_nil]
  omega

/-! ### The size -/

/-- The size is the number of bytes that are written, and the assertion admits the catalog exactly
when these fit the page. -/
structure SizeExact (c : CatalogMeta) : Prop where
  written : ∀ m buf, (c.writer m buf).1 = c.getSerializedSize
  admitted : ∀ m buf, (∃ r, c.serializeTo m buf = .ok r) ↔ (c.writer m buf).1 ≤ PAGE_SIZE

/-- The two counts take four bytes each, where the size has eight for each. -/
theorem written_add (c : CatalogMeta) (m : Mem) (buf : Nat) :
    (c.writer m buf).1 + 8 = c.getSerializedSize := by
  rw [c.writes_encode m buf, encode_length, getSerializedSize]
  omega

theorem admitted_iff (c : CatalogMeta) (m : Mem) (buf : Nat) :
    (∃ r, c.serializeTo m buf = .ok r) ↔ c.getSerializedSize ≤ PAGE_SIZE := by
  unfold serializeTo
  by_cases hfits : c.getSerializedSize ≤ PAGE_SIZE
  · simp [hfits]
  · simp [hfits, assert_false]

/-- The assertion refuses one number of entries too early. -/
theorem admitted_iff_written (c : CatalogMeta) (m : Mem) (buf : Nat) :
    ((∃ r, c.serializeTo m buf = .ok r) ↔ (c.writer m buf).1 ≤ PAGE_SIZE) ↔
      c.tableMetaPages.size + c.indexMetaPages.size ≠ 510 := by
  have hwritten := c.written_add m buf
  rw [admitted_iff]
  simp only [getSerializedSize, PAGE_SIZE] at hwritten ⊢
  omega

/-- The size is 8 more than the number of bytes for every catalog, also in the `uint32_t` in which
it is returned.  While that does not wrap, the assertion is wrong about the catalogs with 510
tables and indexes only. -/
theorem size_never_exact (c : CatalogMeta) (m : Mem) (buf : Nat) :
    ¬c.SizeExact ∧
      UInt32.ofNat c.getSerializedSize = UInt32.ofNat (c.writer m buf).1 + 8 ∧
      (c.getSerializedSize < 2 ^ 32 →
        (((∃ r, c.serializeTo m buf = .ok r) ↔ (c.writer m buf).1 ≤ PAGE_SIZE) ↔
          c.tableMetaPages.size + c.indexMetaPages.size ≠ 510)) := by
  have hwritten := c.written_add m buf
  refine ⟨fun hexact => ?_, ?_, fun _ => c.admitted_iff_written m buf⟩
  · rw [hexact.written] at hwritten
    omega
  · rw [← hwritten, UInt32.ofNat_add]
    rfl

/-- Tables with the ids below `k`. -/
def firstIds : Nat → PageMap
  | 0 => ∅
  | k + 1 => (firstIds k).insert (UInt32.ofNat k) 0

theorem size_firstIds {k : Nat} (hk : k ≤ 2 ^ 32) :
    (firstIds k).size = k ∧ ∀ id ∈ firstIds k, id.toNat < k := by
  induction k with
  | zero =>
      simp [firstIds]
  | succ k ih =>
      rcases ih (Nat.le_of_succ_le hk) with ⟨hsize, hids⟩
      have hid : (UInt32.ofNat k).toNat = k := UInt32.toNat_ofNat_of_lt' hk
      have hnew : UInt32.ofNat k ∉ firstIds k := by
        intro hmem
        have hlt := hids _ hmem
        omega
      refine ⟨?_, fun id hmem => ?_⟩
      · rw [firstIds, Std.ExtTreeMap.size_insert, if_neg (by simpa using hnew), hsize]
      · rw [firstIds, Std.ExtTreeMap.mem_insert] at hmem
        rcases hmem with heq | hold
        · rw [← Std.LawfulEqCmp.eq_of_compare heq, hid]
          exact Nat.lt_succ_self k
        · exact Nat.lt_succ_of_lt (hids id hold)

theorem exists_sizes : ∃ c : CatalogMeta, c.tableMetaPages.size = 510 ∧ c.indexMetaPages.size = 0 :=
  ⟨⟨firstIds 510, ∅⟩, (size_firstIds (by decide)).1, Std.ExtTreeMap.size_empty⟩

/-- The bytes of 510 tables fit the page, and the assertion refuses them. -/
theorem refuses_what_fits : ∃ c : CatalogMeta,
    (∀ m buf, (c.writer m buf).1 = 4092 ∧
      c.serializeTo m buf =
        .error (.assertion "Failed to serialize catalog metadata to disk.")) ∧
    c.getSerializedSize = 4100 ∧ ¬c.SizeExact := by
  rcases exists_sizes with ⟨c, htables, hindexes⟩
  have hserialized : c.getSerializedSize = 4100 := by
    rw [getSerializedSize, htables, hindexes]
  refine ⟨c, fun m buf => ⟨?_, ?_⟩, hserialized, fun hexact => ?_⟩
  · have hwritten := c.written_add m buf
    omega
  · rw [serializeTo, hserialized]
    rfl
  · have hwritten := c.written_add (fun _ => 0) 0
    have hsame := hexact.written (fun _ => 0) 0
    omega

end CatalogMeta

/-! ## Round trips -/

end MiniSQL
