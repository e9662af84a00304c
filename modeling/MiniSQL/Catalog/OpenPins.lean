import MiniSQL.Buffer.Contents
import MiniSQL.Catalog.CatalogManager

/-!
# OpenPins — opening and flushing a catalog pins pages

The constructor without `init` fetches the page of the catalog and the meta page of every table and
index, and `FlushCatalogMetaPage` fetches the page of the catalog; neither has an `UnpinPage`.  So
neither leaves the pin counts as they were, on any pool and for any stored catalog
(`open_and_flush_leave_pins`): the page of the catalog is pinned once more than before.

The proof follows the frame of the catalog's page.  After the fetch it is in neither queue, so no
later fetch takes it.
-/

namespace MiniSQL
namespace BufferPoolManager

open Lib

variable {n : Nat} {s s' : BufferPoolManager n} {f g : Fin n} {p q : PageId}

/-- The page table is the inverse of the page ids in the frames, and the frames on the free list
are different and hold no page.  Nothing is said about the replacer. -/
structure HoldInv (s : BufferPoolManager n) : Prop where
  table : TableInv s
  free : ∀ f ∈ s.freeList, (s.pages f).pageId = INVALID_PAGE_ID
  free_nodup : s.freeList.Nodup

theorem QueueInv.holdInv (h : QueueInv s) : HoldInv s :=
  ⟨h.table, fun f hf => (h.free f hf).1, h.free_nodup⟩

theorem init_holdInv (n : Nat) (dm : DiskManager) : HoldInv (init n dm) :=
  (init_frameInv n dm).queueInv.holdInv

/-- The page is in a frame that is in neither queue and is pinned at least `k` times. -/
structure Held (s : BufferPoolManager n) (p : PageId) (f : Fin n) (k : Nat) : Prop where
  lookup : s.pageTable.lookup p = some f
  not_free : f ∉ s.freeList
  not_evict : f ∉ s.replacer.frames
  pinned : k ≤ (s.pages f).pinCount

/-- A frame that is in neither queue is not picked, and does not join one by this. -/
theorem pickFrame_ne {s₁ : BufferPoolManager n} (hpick : s.pickFrame = some (g, s₁))
    (hfree : f ∉ s.freeList) (hevict : f ∉ s.replacer.frames) :
    f ≠ g ∧ f ∉ s₁.freeList ∧ f ∉ s₁.replacer.frames := by
  rcases pickFrame_cases hpick with ⟨rest, hlist, rfl⟩ | ⟨hlist, r, hframes, rfl⟩
  · rw [hlist, List.mem_cons, not_or] at hfree
    exact ⟨hfree.1, hfree.2, hevict⟩
  · rw [hframes, List.mem_cons, not_or] at hevict
    exact ⟨hevict.1, hfree, hevict.2⟩

/-- The free list loses its front at most. -/
theorem pickFrame_freeList {s₁ : BufferPoolManager n} (hpick : s.pickFrame = some (g, s₁))
    (hnodup : s.freeList.Nodup) :
    (∀ f ∈ s₁.freeList, f ∈ s.freeList) ∧ s₁.freeList.Nodup ∧ g ∉ s₁.freeList := by
  rcases pickFrame_cases hpick with ⟨rest, hlist, rfl⟩ | ⟨hlist, r, hframes, rfl⟩
  · rw [hlist, List.nodup_cons] at hnodup
    exact ⟨fun f hf => by rw [hlist]; exact List.mem_cons_of_mem _ hf, hnodup.2, hnodup.1⟩
  · exact ⟨fun f hf => hf, hnodup, by simp [hlist]⟩

/-- A fetch keeps the invariant, holds its own page, and lets no held page go. -/
theorem HoldInv.fetchPage (h : HoldInv s) (hok : s.fetchPage q = .ok (some g, s')) :
    HoldInv s' ∧ Held s' q g (s.pins q + 1) ∧ ∀ p f k, Held s p f k → Held s' p f k := by
  rcases fetchPage_inversion hok with ⟨hnone, _⟩ | ⟨f, hf, hl, hs'⟩ |
    ⟨f, s₁, dm, hf, hnone, hpick, _, hpos, hs'⟩
  · cases hnone
  · obtain rfl := Option.some.inj hf
    subst hs'
    have hvalid := (h.table q g).mp hl
    have hfree : g ∉ s.freeList := fun hmem => hvalid.1 (hvalid.2.symm.trans (h.free g hmem))
    refine ⟨⟨?_, ?_, h.free_nodup⟩, ⟨hl, hfree, not_mem_pin _ _, ?_⟩, ?_⟩
    · intro p f
      rw [h.table p f]
      simp only [field_update Page.pageId]
    · intro f hf
      simp only [field_update Page.pageId]
      exact h.free f hf
    · simp only [Function.update_self, pins_of_lookup hl, le_refl]
    · intro p f k hheld
      refine ⟨hheld.lookup, hheld.not_free, ?_, ?_⟩
      · rw [LRUReplacer.frames_pin]
        exact fun hmem => hheld.not_evict (List.mem_of_mem_erase hmem)
      · by_cases hfg : f = g
        · subst hfg
          simp only [Function.update_self]
          exact Nat.le_succ_of_le hheld.pinned
        · simp only [Function.update_of_ne hfg]
          exact hheld.pinned
  · obtain rfl := Option.some.inj hf
    rcases pickFrame_freeList hpick h.free_nodup with ⟨hsub, hnodup, hself⟩
    have htable : TableInv s' := h.table.load (f := g) (ne_INVALID_of_nonneg hpos)
      (fun f hf => by rw [hnone] at hf; cases hf)
      (fun f hf => by simp only [hs', Function.update_of_ne hf])
      (by simp only [hs', Function.update_self]) (by rw [hs'])
    subst hs'
    refine ⟨⟨htable, ?_, hnodup⟩, ⟨AList.lookup_insert .., hself, not_mem_pin _ _, ?_⟩, ?_⟩
    · intro f hf
      have hfg : f ≠ g := fun heq => hself (heq ▸ hf)
      simp only [Function.update_of_ne hfg]
      exact h.free f (hsub f hf)
    · simp only [Function.update_self, pins_of_none hnone]
      omega
    · intro p f k hheld
      rcases pickFrame_ne hpick hheld.not_free hheld.not_evict with ⟨hfg, hfree, hevict⟩
      have hpq : p ≠ q := by
        rintro rfl
        have hl := hheld.lookup
        rw [hnone] at hl
        cases hl
      -- The picked frame holds another page, so the entry of `p` is not the one erased.
      have hpg : p ≠ (s.pages g).pageId := by
        intro heq
        have hvalid := (h.table p f).mp hheld.lookup
        exact hfg (h.table.inj hvalid.1 hvalid.2 heq.symm)
      refine ⟨?_, hfree, ?_, ?_⟩
      · simp only
        rw [AList.lookup_insert_ne hpq, AList.lookup_erase_ne hpg]
        exact hheld.lookup
      · rw [LRUReplacer.frames_pin]
        exact fun hmem => hevict (List.mem_of_mem_erase hmem)
      · simp only [Function.update_of_ne hfg]
        exact hheld.pinned

theorem Held.pins {k : Nat} (h : Held s p f k) : k ≤ s.pins p := by
  rw [pins_of_lookup h.lookup]
  exact h.pinned

theorem deref_eq_ok {α : Type} {r : Option α} {a : α} (h : deref r = .ok a) : r = some a := by
  cases r with
  | none =>
      cases h
  | some b =>
      rw [Except.ok.inj h]

end BufferPoolManager

namespace CatalogManager

open Lib BufferPoolManager

variable {n : Nat} {c c' : CatalogManager n} {bpm : BufferPoolManager n} {p q : PageId}

/-- The pool after one pass of either loop is that after the fetch. -/
theorem openTable_pool (hok : c.openTable q = .ok c') :
    ∃ g, c.bufferPoolManager.fetchPage q = .ok (some g, c'.bufferPoolManager) := by
  rcases bind_eq_ok.mp hok with ⟨⟨reply, bpm⟩, hfetch, hok⟩
  rcases bind_eq_ok.mp hok with ⟨g, hderef, hok⟩
  rcases bind_eq_ok.mp hok with ⟨⟨tableMeta, _⟩, _, hok⟩
  rw [deref_eq_ok hderef] at hfetch
  rw [← Except.ok.inj hok]
  exact ⟨g, hfetch⟩

theorem openIndex_pool (hok : c.openIndex q = .ok c') :
    ∃ g, c.bufferPoolManager.fetchPage q = .ok (some g, c'.bufferPoolManager) := by
  rcases bind_eq_ok.mp hok with ⟨⟨reply, bpm⟩, hfetch, hok⟩
  rcases bind_eq_ok.mp hok with ⟨g, hderef, hok⟩
  rcases bind_eq_ok.mp hok with ⟨⟨indexMeta, _⟩, _, hok⟩
  rcases bind_eq_ok.mp hok with ⟨tableInfo, _, hok⟩
  rcases bind_eq_ok.mp hok with ⟨indexInfo, _, hok⟩
  rw [deref_eq_ok hderef] at hfetch
  rw [← Except.ok.inj hok]
  exact ⟨g, hfetch⟩

/-- The page of the catalog ends up pinned at least once more. -/
theorem load_pins (hinv : HoldInv bpm) (hok : load bpm = .ok c) :
    bpm.pins CATALOG_META_PAGE_ID < c.bufferPoolManager.pins CATALOG_META_PAGE_ID := by
  rcases bind_eq_ok.mp hok with ⟨⟨reply, bpm₁⟩, hfetch, hok⟩
  rcases bind_eq_ok.mp hok with ⟨f, hderef, hok⟩
  rcases bind_eq_ok.mp hok with ⟨⟨catalogMeta, _⟩, _, hok⟩
  rcases bind_eq_ok.mp hok with ⟨c₁, htables, hindexes⟩
  rw [deref_eq_ok hderef] at hfetch
  rcases hinv.fetchPage hfetch with ⟨hinv₁, hheld₁, _⟩
  -- Both loops keep the frame of the catalog's page held.
  let P : CatalogManager n → Prop := fun c => HoldInv c.bufferPoolManager ∧
    Held c.bufferPoolManager CATALOG_META_PAGE_ID f (bpm.pins CATALOG_META_PAGE_ID + 1)
  have hstep : ∀ (c c' : CatalogManager n) q g, P c →
      c.bufferPoolManager.fetchPage q = .ok (some g, c'.bufferPoolManager) → P c' := by
    rintro c c' q g ⟨hinv, hheld⟩ hfetch
    rcases hinv.fetchPage hfetch with ⟨hinv', _, hkeeps⟩
    exact ⟨hinv', hkeeps _ _ _ hheld⟩
  have hP₁ : P c₁ := by
    refine foldlM_invariant (fun c entry c' hP hopen => ?_) htables ⟨hinv₁, hheld₁⟩
    rcases openTable_pool hopen with ⟨g, hfetch⟩
    exact hstep c c' _ g hP hfetch
  have hP : P c := by
    refine foldlM_invariant (fun c entry c' hP hopen => ?_) hindexes hP₁
    rcases openIndex_pool hopen with ⟨g, hfetch⟩
    exact hstep c c' _ g hP hfetch
  exact hP.2.pins

/-- `FlushCatalogMetaPage` pins the page of the catalog once more, whatever the pool. -/
theorem flushCatalogMetaPage_pins {err : DbErr} (hok : c.flushCatalogMetaPage = .ok (err, c')) :
    c.bufferPoolManager.pins CATALOG_META_PAGE_ID <
      c'.bufferPoolManager.pins CATALOG_META_PAGE_ID := by
  rcases bind_eq_ok.mp hok with ⟨⟨reply, bpm₁⟩, hfetch, hok⟩
  rcases bind_eq_ok.mp hok with ⟨f, hderef, hok⟩
  rcases bind_eq_ok.mp hok with ⟨⟨_, m⟩, _, hok⟩
  rcases bind_eq_ok.mp hok with ⟨⟨done, bpm₂⟩, hflush, hok⟩
  rw [deref_eq_ok hderef] at hfetch
  have hpool : c'.bufferPoolManager = bpm₂ := by
    rw [← (Prod.mk.inj (Except.ok.inj hok)).2]
  rw [hpool]
  calc
    c.bufferPoolManager.pins CATALOG_META_PAGE_ID < bpm₁.pins CATALOG_META_PAGE_ID :=
      fetchPage_pins_lt hfetch
    _ = (bpm₁.setBytes f m).pins CATALOG_META_PAGE_ID := (write_pins ..).symm
    _ = bpm₂.pins CATALOG_META_PAGE_ID := (flushPage_pins hflush _).symm

/-- The call returns and every page is pinned as often as before. -/
def KeepsPins (before : BufferPoolManager n) (call : Result (CatalogManager n)) : Prop :=
  ∃ c, call = .ok c ∧ ∀ p, c.bufferPoolManager.pins p = before.pins p

/-- Opening and flushing and the pin counts.  Whatever catalog the pages hold and however many
frames the pool has, the constructor without `init` does not return with the pin counts it found,
and neither does `FlushCatalogMetaPage`. -/
theorem open_and_flush_leave_pins (hinv : HoldInv bpm) :
    ¬KeepsPins bpm (load bpm) ∧
      ∀ c : CatalogManager n,
        ¬KeepsPins c.bufferPoolManager (c.flushCatalogMetaPage.map Prod.snd) := by
  constructor
  · rintro ⟨c, hok, hkeeps⟩
    have hpins := load_pins hinv hok
    rw [hkeeps] at hpins
    exact lt_irrefl _ hpins
  · rintro c ⟨c', hok, hkeeps⟩
    cases hflush : c.flushCatalogMetaPage with
    | error e =>
        rw [hflush] at hok
        cases hok
    | ok reply =>
        rcases reply with ⟨err, c''⟩
        rw [hflush] at hok
        obtain rfl : c'' = c' := Except.ok.inj hok
        have hpins := flushCatalogMetaPage_pins hflush
        rw [hkeeps] at hpins
        exact lt_irrefl _ hpins

/-- Once the page of the catalog is fetched, the encoded catalog is stored in its frame and the
frame is flushed. -/
theorem flushCatalogMetaPage_fetched {f : Fin n} {bpm₁ : BufferPoolManager n}
    (hfetch : c.bufferPoolManager.fetchPage CATALOG_META_PAGE_ID = .ok (some f, bpm₁))
    (hl : bpm₁.pageTable.lookup CATALOG_META_PAGE_ID = some f)
    (hfits : c.catalogMeta.getSerializedSize ≤ PAGE_SIZE) :
    ∃ c' data, c.flushCatalogMetaPage = .ok (.success, c') ∧
      (bpm₁.write f data).flushPage CATALOG_META_PAGE_ID = .ok (true, c'.bufferPoolManager) ∧
      Mem.Holds data.mem 0 c.catalogMeta.encode := by
  set m := (bpm₁.bytes f).store 0 c.catalogMeta.encode with hm
  have hserialize : c.catalogMeta.serializeTo (bpm₁.bytes f) 0 =
      .ok (c.catalogMeta.encode.length, m) := by
    simp only [CatalogMeta.serializeTo, hfits, decide_true, assert_true, ok_bind,
      c.catalogMeta.writes_encode _ _, hm]
  have hl' : (bpm₁.setBytes f m).pageTable.lookup CATALOG_META_PAGE_ID = some f := hl
  rcases flushPage_ok hl' (by decide) with ⟨bpm₂, hflush⟩
  refine ⟨{ c with bufferPoolManager := bpm₂ }, Buf.ofMem PAGE_SIZE m, ?_, hflush, ?_⟩
  · simp only [flushCatalogMetaPage, hfetch, ok_bind, deref, hserialize, hflush, if_true]
  · refine Buf.holds_ofMem_store _ ?_
    rw [CatalogMeta.encode_length]
    omega

/-- Flushing while the page of the catalog is resident puts the encoded catalog on disk. -/
theorem flushCatalogMetaPage_resident {f : Fin n}
    (hl : c.bufferPoolManager.pageTable.lookup CATALOG_META_PAGE_ID = some f)
    (hfits : c.catalogMeta.getSerializedSize ≤ PAGE_SIZE) :
    ∃ c', c.flushCatalogMetaPage = .ok (.success, c') ∧
      Mem.Holds (stored c'.bufferPoolManager.diskManager CATALOG_META_PAGE_ID).mem 0
        c.catalogMeta.encode := by
  rcases hbpm : c.bufferPoolManager.fetchPage CATALOG_META_PAGE_ID with e | ⟨reply, bpm₁⟩
  · simp [fetchPage, hl] at hbpm
  have hfetch := hbpm
  simp only [fetchPage, hl, Except.ok.injEq, Prod.mk.injEq] at hfetch
  rcases hfetch with ⟨rfl, hs⟩
  have hl₁ : bpm₁.pageTable.lookup CATALOG_META_PAGE_ID = some f := by rw [← hs, hl]
  rcases flushCatalogMetaPage_fetched hbpm hl₁ hfits with ⟨c', data, hflush, hwrite, hholds⟩
  refine ⟨c', hflush, ?_⟩
  have hl₂ : (bpm₁.write f data).pageTable.lookup CATALOG_META_PAGE_ID = some f := hl₁
  rcases flushPage_inversion hwrite with ⟨hnone, _⟩ | ⟨g, dm, hg, hstore, hs'⟩
  · rw [hl₂] at hnone
    cases hnone
  · rw [hl₂] at hg
    obtain rfl := Option.some.inj hg
    have hdata : ((bpm₁.write f data).pages f).data = data := by simp [write, setPage]
    rw [hs']
    simp only
    rw [(stored_writePage hstore (by decide)).2, if_pos rfl, hdata]
    exact hholds

/-- A pool without pages, over a disk that holds an empty catalog. -/
theorem load_empty {dm : DiskManager}
    (hstored : Mem.Holds (stored dm CATALOG_META_PAGE_ID).mem 0 CatalogMeta.newInstance.encode) :
    ∃ c, load (BufferPoolManager.init (n + 1) dm) = .ok c := by
  have hread : CatalogMeta.deserializeFrom (stored dm CATALOG_META_PAGE_ID).mem 0 =
      .ok (CatalogMeta.newInstance, CatalogMeta.newInstance.encode.length) :=
    CatalogMeta.reads_encode (by decide) (by decide) _ 0 hstored
  have hlookup : (BufferPoolManager.init (n + 1) dm).pageTable.lookup CATALOG_META_PAGE_ID =
      none := rfl
  have hpick : ∃ s₁, (BufferPoolManager.init (n + 1) dm).pickFrame = some (0, s₁) ∧
      s₁.pages = (fun _ => Page.empty) ∧ s₁.diskManager = dm := by
    simp only [pickFrame, BufferPoolManager.init, List.finRange_succ]
    exact ⟨_, rfl, rfl, rfl⟩
  rcases hpick with ⟨s₁, hpick, hpages, hdisk⟩
  have hdm : Disk.readPage dm CATALOG_META_PAGE_ID = .ok (stored dm CATALOG_META_PAGE_ID, dm) :=
    read_eq_stored (by decide)
  have hclean : Page.empty.isDirty = false := rfl
  simp only [load, fetchPage, hlookup, hpick, writeBack, hpages, hclean, hdisk, Bool.false_eq_true,
    if_false, ok_bind, hdm, deref, bytes, Function.update_self, hread]
  exact ⟨_, rfl⟩

/-- A new database: its first page is the catalog's, which is flushed with no table in it and
opened again in a pool of two free frames. -/
theorem new_database : ∃ (s : BufferPoolManager 2) (c₁ c₂ : CatalogManager 2),
    (BufferPoolManager.init 2 DiskManager.fresh).newPage =
        .ok (some (CATALOG_META_PAGE_ID, 0), s) ∧
      (init (s.unpinPage CATALOG_META_PAGE_ID false).2).flushCatalogMetaPage =
        .ok (.success, c₁) ∧
      load (BufferPoolManager.init 2 c₁.bufferPoolManager.diskManager) = .ok c₂ := by
  rcases DiskManager.fresh_dense.allocatePage_ok (by decide) with ⟨dm, halloc, _⟩
  rcases hnew : (BufferPoolManager.init 2 DiskManager.fresh).newPage with e | ⟨reply, s⟩
  · rw [newPage_of_free (f := 0) rfl rfl rfl halloc] at hnew
    cases hnew
  rw [newPage_of_free (f := 0) rfl rfl rfl halloc] at hnew
  rcases Prod.mk.inj (Except.ok.inj hnew) with ⟨rfl, hs⟩
  have hl : s.pageTable.lookup CATALOG_META_PAGE_ID = some 0 := by
    rw [← hs]
    exact AList.lookup_insert ..
  rcases unpinPage_of_lookup hl false with ⟨done, hunpin⟩
  have hl' : (init (s.unpinPage CATALOG_META_PAGE_ID false).2).bufferPoolManager.pageTable.lookup
      CATALOG_META_PAGE_ID = some 0 := by
    rw [hunpin]
    exact hl
  have hfits : CatalogMeta.newInstance.getSerializedSize ≤ PAGE_SIZE := by decide
  rcases flushCatalogMetaPage_resident hl' hfits with ⟨c₁, hflush, hstored⟩
  rcases load_empty (n := 1) hstored with ⟨c₂, hload⟩
  exact ⟨s, c₁, c₂, rfl, hflush, hload⟩

/-- Opening the empty catalog of a new database. -/
theorem open_and_flush_leave_pins_empty : ∃ (dm : DiskManager) (c : CatalogManager 2),
    load (BufferPoolManager.init 2 dm) = .ok c ∧
      ¬KeepsPins (BufferPoolManager.init 2 dm) (load (BufferPoolManager.init 2 dm)) := by
  rcases new_database with ⟨_, c₁, c₂, _, _, hload⟩
  exact ⟨_, c₂, hload, (open_and_flush_leave_pins (init_holdInv 2 _)).1⟩

/-- The catalog of a new database is flushed and opened again in a pool of two free frames.  The
first call leaves its page pinned, and so does the second. -/
theorem empty_catalog_stays_pinned : ∃ (s : BufferPoolManager 2) (c₁ c₂ : CatalogManager 2),
    (BufferPoolManager.init 2 DiskManager.fresh).newPage =
        .ok (some (CATALOG_META_PAGE_ID, 0), s) ∧
      (init (s.unpinPage CATALOG_META_PAGE_ID false).2).flushCatalogMetaPage =
        .ok (.success, c₁) ∧
      (s.unpinPage CATALOG_META_PAGE_ID false).2.pins CATALOG_META_PAGE_ID <
        c₁.bufferPoolManager.pins CATALOG_META_PAGE_ID ∧
      load (BufferPoolManager.init 2 c₁.bufferPoolManager.diskManager) = .ok c₂ ∧
      (BufferPoolManager.init 2 c₁.bufferPoolManager.diskManager).pins CATALOG_META_PAGE_ID <
        c₂.bufferPoolManager.pins CATALOG_META_PAGE_ID := by
  rcases new_database with ⟨s, c₁, c₂, hnew, hflush, hload⟩
  exact ⟨s, c₁, c₂, hnew, hflush, flushCatalogMetaPage_pins hflush, hload,
    load_pins (init_holdInv 2 _) hload⟩

end CatalogManager
end MiniSQL
