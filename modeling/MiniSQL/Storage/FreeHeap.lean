import MiniSQL.Buffer.Orderly
import MiniSQL.Lib.Links
import MiniSQL.Storage.PoolSize

/-!
# FreeHeap — the two ways to free a heap

`FreeTableHeap` holds one page at a time.  `DeleteTable` calls itself for the next page before it
gives a page back, so it holds the whole chain at once and follows a null pointer when the chain is
longer than the frames nobody pins.  `free_heap_agree_iff` says that this is the only difference.
-/

namespace MiniSQL

open Lib

namespace BufferPoolManager

variable {n : Nat} {s s' : BufferPoolManager n} {f g : Fin n} {p q : PageId}

/-- The frames nobody pins. -/
def idleFrames (s : BufferPoolManager n) : Finset (Fin n) :=
  Finset.univ.filter fun f => (s.pages f).pinCount = 0

theorem mem_idleFrames : f ∈ s.idleFrames ↔ (s.pages f).pinCount = 0 := by
  simp [idleFrames]

/-- A frame that gets its first pin is one of them no more. -/
theorem idleFrames_take (hf : (s.pages f).pinCount = 0) (hpin : (s'.pages f).pinCount ≠ 0)
    (hothers : ∀ g, g ≠ f → (s'.pages g).pinCount = (s.pages g).pinCount) :
    s'.idleFrames.card + 1 = s.idleFrames.card := by
  have herase : s'.idleFrames = s.idleFrames.erase f := by
    ext g
    rw [Finset.mem_erase, mem_idleFrames, mem_idleFrames]
    by_cases hgf : g = f
    · subst hgf
      simp [hpin]
    · rw [hothers g hgf]
      simp [hgf]
  rw [herase, Finset.card_erase_add_one (mem_idleFrames.mpr hf)]

/-- Fetching a page that nobody pinned takes one of them. -/
theorem Acquired.idleFrames_card (h : Acquired s p f s') (hp : s.pins p = 0) :
    s'.idleFrames.card + 1 = s.idleFrames.card := by
  refine idleFrames_take (h.unpinned hp) ?_ fun g hg => by rw [h.others g hg]
  rw [h.frame_pins]
  exact Nat.succ_ne_zero _

end BufferPoolManager

namespace TableHeap

open BufferPoolManager

variable {n : Nat} {s s' s₁ : BufferPoolManager n} {f g : Fin n} {p q : PageId} {heap : TableHeap}
variable {ps : List PageId} {fuel : Nat}

/-- The pages of a heap whose first page is `p`, from the first to the last. -/
structure PageChain (s : BufferPoolManager n) (p : PageId) (ps : List PageId) : Prop where
  leads : Leads (behind s) INVALID_PAGE_ID p ps
  valid : ∀ q ∈ ps, 0 ≤ q.toInt

/-- Exactly the pages `ps` became free and left the pool, and nothing happened to the others. -/
structure Freed (s : BufferPoolManager n) (ps : List PageId) (s' : BufferPoolManager n) : Prop where
  free : ∀ q, 0 ≤ q.toInt → (s'.isPageFree q = true ↔ q ∈ ps ∨ s.isPageFree q = true)
  absent : ∀ q ∈ ps, s'.pageTable.lookup q = none
  contents : ∀ q, 0 ≤ q.toInt → q ∉ ps → s'.contents q = s.contents q

/-- What both ways keep while they are at it. -/
structure Frees (s : BufferPoolManager n) (ps : List PageId) (s' : BufferPoolManager n) :
    Prop where
  orderly : Orderly s'
  free : ∀ q, 0 ≤ q.toInt → (s'.isPageFree q = true ↔ q ∈ ps ∨ s.isPageFree q = true)
  resident : ∀ q g, s'.pageTable.lookup q = some g → q ∉ ps ∧ s.pageTable.lookup q = some g
  contents : ∀ q, 0 ≤ q.toInt → q ∉ ps → s'.contents q = s.contents q
  pins : ∀ q, q ∉ ps → s'.pins q = s.pins q

theorem Frees.freed (h : Frees s ps s') : Freed s ps s' where
  free := h.free
  absent := fun q hq => by
    cases hl : s'.pageTable.lookup q with
    | none => rfl
    | some g => exact absurd hq (h.resident q g hl).1
  contents := h.contents

theorem Frees.nil (h : Orderly s) : Frees s [] s where
  orderly := h
  free := fun q _ => by simp
  resident := fun q g hq => ⟨List.not_mem_nil, hq⟩
  contents := fun _ _ _ => rfl
  pins := fun _ _ => rfl

theorem Frees.trans {qs : List PageId} {s'' : BufferPoolManager n} (h : Frees s ps s')
    (h' : Frees s' qs s'') : Frees s (ps ++ qs) s'' := by
  refine ⟨h'.orderly, fun q hq => ?_, fun q g hq => ?_, fun q hq hnot => ?_, fun q hnot => ?_⟩
  · calc
      s''.isPageFree q = true ↔ q ∈ qs ∨ s'.isPageFree q = true := h'.free q hq
      _ ↔ q ∈ qs ∨ q ∈ ps ∨ s.isPageFree q = true := or_congr_right (h.free q hq)
      _ ↔ (q ∈ ps ∨ q ∈ qs) ∨ s.isPageFree q = true := by rw [← or_assoc, or_comm (a := q ∈ qs)]
      _ ↔ q ∈ ps ++ qs ∨ s.isPageFree q = true := by rw [List.mem_append]
  · rcases h'.resident q g hq with ⟨hqs, hq'⟩
    rcases h.resident q g hq' with ⟨hps, hl⟩
    exact ⟨fun hmem => (List.mem_append.mp hmem).elim hps hqs, hl⟩
  · rw [List.mem_append, not_or] at hnot
    exact (h'.contents q hq hnot.2).trans (h.contents q hq hnot.1)
  · rw [List.mem_append, not_or] at hnot
    exact (h'.pins q hnot.2).trans (h.pins q hnot.1)

/-- Page `p` is fetched, pages are freed, and page `p` is deleted. -/
theorem Frees.cons {s₂ s₃ : BufferPoolManager n} (hacq : Acquired s p f s₁) (hrest : Frees s₁ ps s₂)
    (hdrop : Dropped s₂ p g s₃) : Frees s (p :: ps) s₃ := by
  have hresident : ∀ q g, s₃.pageTable.lookup q = some g →
      q ≠ p ∧ s₂.pageTable.lookup q = some g := by
    intro q g hq
    rw [hdrop.lookup] at hq
    split at hq
    · cases hq
    · rename_i hqp
      exact ⟨hqp, hq⟩
  refine ⟨hdrop.orderly, fun q hq => ?_, fun q g hq => ?_, fun q hq hnot => ?_, fun q hnot => ?_⟩
  · calc
      s₃.isPageFree q = true ↔ q = p ∨ s₂.isPageFree q = true := hdrop.free q hq
      _ ↔ q = p ∨ q ∈ ps ∨ s₁.isPageFree q = true := or_congr_right (hrest.free q hq)
      _ ↔ q = p ∨ q ∈ ps ∨ s.isPageFree q = true := by
        rw [isPageFree, isPageFree, hacq.free q hq]
      _ ↔ q ∈ p :: ps ∨ s.isPageFree q = true := by rw [List.mem_cons, or_assoc]
  · rcases hresident q g hq with ⟨hqp, hq₂⟩
    rcases hrest.resident q g hq₂ with ⟨hps, hq₁⟩
    exact ⟨fun hmem => (List.mem_cons.mp hmem).elim hqp hps, hacq.resident q g hq₁ hqp⟩
  · rw [List.mem_cons, not_or] at hnot
    calc s₃.contents q = s₂.contents q := hdrop.contents q hq hnot.1
      _ = s₁.contents q := hrest.contents q hq hnot.2
      _ = s.contents q := hacq.contents q hq
  · rw [List.mem_cons, not_or] at hnot
    calc s₃.pins q = s₂.pins q := hdrop.pins q hnot.1
      _ = s₁.pins q := hrest.pins q hnot.2
      _ = s.pins q := by rw [hacq.pins, if_neg hnot.1, Nat.add_zero]

theorem PageChain.congr (h : PageChain s p ps)
    (hsame : ∀ q ∈ ps, s'.contents q = s.contents q) : PageChain s' p ps :=
  ⟨h.leads.congr fun q hq => by rw [behind, behind, hsame q hq], h.valid⟩

/-- The chain behind the first page. -/
theorem PageChain.tail (h : PageChain s p (p :: ps)) :
    0 ≤ p.toInt ∧ p ∉ ps ∧ PageChain s (behind s p) ps := by
  have hvalid := h.valid
  cases h.leads with
  | cons _ hnot hrest =>
      exact ⟨hvalid p (List.mem_cons_self ..), hnot, hrest, fun q hq =>
        hvalid q (List.mem_cons_of_mem _ hq)⟩

theorem PageChain.first_valid (h : PageChain s p (q :: ps)) : p ≠ INVALID_PAGE_ID := by
  cases h.leads with
  | cons hne _ _ => exact hne

/-- The chain behind a page that was fetched. -/
theorem PageChain.acquired (h : PageChain s p (p :: ps)) (hacq : Acquired s p f s₁)
    (hpins : ∀ q ∈ p :: ps, s.pins q = 0) :
    PageChain s₁ (behind s p) ps ∧ TablePage.getNextPageId (s₁.bytes f) = behind s p ∧
      ∀ q ∈ ps, s₁.pins q = 0 := by
  rcases h.tail with ⟨_, hnot, hrest⟩
  refine ⟨hrest.congr fun q hq => hacq.contents q (hrest.valid q hq), ?_, fun q hq => ?_⟩
  · rw [behind, bytes, hacq.data]
  · have hqp : q ≠ p := by
      rintro rfl
      exact hnot hq
    rw [hacq.pins, if_neg hqp, Nat.add_zero]
    exact hpins q (List.mem_cons_of_mem _ hq)

/-- The page that was fetched is still held once and can be deleted. -/
theorem Acquired.drop {s₂ : BufferPoolManager n} (hacq : Acquired s p f s₁) (hp : s.pins p = 0)
    (hnot : p ∉ ps) (hrest : Frees s₁ ps s₂) :
    ∃ r g s₃, (s₂.unpinPage p false).2.deletePage p = .ok (r, s₃) ∧ Dropped s₂ p g s₃ := by
  have hpin : s₂.pins p = 1 := by
    rw [hrest.pins p hnot, hacq.pins, if_pos rfl, hp]
  cases hl : s₂.pageTable.lookup p with
  | none =>
      rw [pins_of_none hl] at hpin
      cases hpin
  | some g =>
      rw [pins_of_lookup hl] at hpin
      rcases hrest.orderly.drop hl hpin with ⟨r, s₃, hok, hdrop⟩
      exact ⟨r, g, s₃, hok, hdrop⟩

/-! ## FreeTableHeap -/

/-- One frame is enough for the loop, because each page gives its frame back. -/
theorem freeLoop_frees (h : Orderly s) (hchain : PageChain s p ps)
    (hidle : (s.pages g).pinCount = 0) (hpins : ∀ q ∈ ps, s.pins q = 0) :
    ∃ s', freeLoop ps.length s p = .ok (some s') ∧ Frees s ps s' := by
  induction ps generalizing s p g with
  | nil =>
      cases hchain.leads
      refine ⟨s, ?_, Frees.nil h⟩
      simp [freeLoop]
  | cons p' ps ih =>
      have hp' : p' = p := by
        cases hchain.leads
        rfl
      subst hp'
      rcases hchain.tail with ⟨hpos, hnot, _⟩
      have hzero := hpins p' (List.mem_cons_self ..)
      rcases h.fetchPage_ok hidle hpos with ⟨f, s₁, hfetch⟩
      have hacq := h.acquired hfetch
      rcases hchain.acquired hacq hpins with ⟨hrest, hnext, hpins₁⟩
      rcases Acquired.drop hacq hzero List.not_mem_nil (Frees.nil hacq.orderly) with
        ⟨r, f', s₂, hdelete, hdrop⟩
      have hone : Frees s [p'] s₂ := Frees.cons hacq (Frees.nil hacq.orderly) hdrop
      have hrest₂ : PageChain s₂ (behind s p') ps := by
        refine hchain.tail.2.2.congr fun q hq => hone.contents q (hrest.valid q hq) ?_
        rw [List.mem_singleton]
        rintro rfl
        exact hnot hq
      have hpins₂ : ∀ q ∈ ps, s₂.pins q = 0 := by
        intro q hq
        rw [hdrop.pins q fun heq => hnot (heq ▸ hq)]
        exact hpins₁ q hq
      rcases ih hdrop.orderly hrest₂ hdrop.unpinned hpins₂ with ⟨s', hloop, hfrees⟩
      refine ⟨s', ?_, hone.trans hfrees⟩
      rw [List.length_cons, freeLoop, if_pos (ne_INVALID_of_nonneg hpos)]
      simp only [hfetch, ok_bind, hdelete, hnext]
      exact hloop

/-! ## DeleteTable -/

/-- The call for the next page, if there is one: a frame for each page is enough. -/
theorem deleteTable_frees (heap : TableHeap) (h : Orderly s) (hchain : PageChain s p ps)
    (hlen : ps.length ≤ s.idleFrames.card) (hpins : ∀ q ∈ ps, s.pins q = 0) :
    ∃ s', (if p ≠ INVALID_PAGE_ID then heap.deleteTable ps.length s p else .ok (some s)) =
        .ok (some s') ∧ Frees s ps s' := by
  induction ps generalizing s p with
  | nil =>
      cases hchain.leads
      exact ⟨s, if_neg (not_not.mpr rfl), Frees.nil h⟩
  | cons p' ps ih =>
      have hp' : p' = p := by
        cases hchain.leads
        rfl
      subst hp'
      rcases hchain.tail with ⟨hpos, hnot, _⟩
      have hzero := hpins p' (List.mem_cons_self ..)
      have hcard : 0 < s.idleFrames.card := lt_of_lt_of_le (Nat.succ_pos _) hlen
      rcases Finset.card_pos.mp hcard with ⟨g, hg⟩
      rcases h.fetchPage_ok (mem_idleFrames.mp hg) hpos with ⟨f, s₁, hfetch⟩
      have hacq := h.acquired hfetch
      rcases hchain.acquired hacq hpins with ⟨hrest, hnext, hpins₁⟩
      have hlen₁ : ps.length ≤ s₁.idleFrames.card := by
        have := hacq.idleFrames_card hzero
        rw [List.length_cons] at hlen
        omega
      rcases ih hacq.orderly hrest hlen₁ hpins₁ with ⟨s₂, hcall, hfrees⟩
      rcases Acquired.drop hacq hzero hnot hfrees with ⟨r, g', s₃, hdelete, hdrop⟩
      refine ⟨s₃, ?_, Frees.cons hacq hfrees hdrop⟩
      have hvalid : p' ≠ INVALID_PAGE_ID := ne_INVALID_of_nonneg hpos
      rw [if_pos hvalid, List.length_cons, deleteTable, if_pos hvalid]
      simp only [hfetch, ok_bind, deref, hnext, hcall, hdelete]

/-- With more pages than frames, the call gets a null pointer for one of them and follows it. -/
theorem deleteTable_stuck (heap : TableHeap) (h : Orderly s) (hchain : PageChain s p ps)
    (hlen : s.idleFrames.card < ps.length) (hpins : ∀ q ∈ ps, s.pins q = 0) (fuel : Nat) :
    heap.deleteTable fuel s p =
      if s.idleFrames.card < fuel then .error .nullPointer else .ok none := by
  induction ps generalizing s p fuel with
  | nil =>
      cases hlen
  | cons p' ps ih =>
      have hp' : p' = p := by
        cases hchain.leads
        rfl
      subst hp'
      rcases hchain.tail with ⟨hpos, hnot, _⟩
      have hzero := hpins p' (List.mem_cons_self ..)
      cases fuel with
      | zero =>
          rfl
      | succ fuel =>
          rw [deleteTable, if_pos (ne_INVALID_of_nonneg hpos)]
          by_cases hall : ∀ g, (s.pages g).pinCount ≠ 0
          · have hcard : s.idleFrames.card = 0 :=
              Finset.card_eq_zero.mpr (Finset.eq_empty_of_forall_notMem fun g hg =>
                hall g (mem_idleFrames.mp hg))
            rw [hcard, if_pos (Nat.succ_pos fuel)]
            simp only [h.fetchPage_null hzero hall, ok_bind, deref, error_bind]
          · rw [not_forall] at hall
            rcases hall with ⟨g, hg⟩
            rcases h.fetchPage_ok (not_not.mp hg) hpos with ⟨f, s₁, hfetch⟩
            have hacq := h.acquired hfetch
            rcases hchain.acquired hacq hpins with ⟨hrest, hnext, hpins₁⟩
            have hcard := hacq.idleFrames_card hzero
            have hlen₁ : s₁.idleFrames.card < ps.length := by
              rw [List.length_cons] at hlen
              omega
            -- The chain goes on, and the call for its rest does not come back.
            have hvalid : behind s p' ≠ INVALID_PAGE_ID := by
              cases ps with
              | nil => cases hlen₁
              | cons q ps => exact hrest.first_valid
            simp only [hfetch, ok_bind, deref, hnext, if_pos hvalid,
              ih hacq.orderly hrest hlen₁ hpins₁ fuel, ← hcard, Nat.add_lt_add_iff_right]
            split
            · rfl
            · rfl

/-- Then it does not come to an end with the default argument either. -/
theorem deleteTable_default_stuck (h : Orderly s) (hchain : PageChain s heap.firstPageId ps)
    (hlen : s.idleFrames.card < ps.length) (hpins : ∀ q ∈ ps, s.pins q = 0) (fuel : Nat)
    (s' : BufferPoolManager n) : heap.deleteTable fuel s INVALID_PAGE_ID ≠ .ok (some s') := by
  intro hok
  cases fuel with
  | zero =>
      cases hok
  | succ fuel =>
      rw [deleteTable, if_neg (not_not.mpr rfl), deleteTable_stuck heap h hchain hlen hpins] at hok
      split at hok
      · cases hok
      · cases hok

/-- The default argument leads to the first page; without one the call never ends. -/
theorem deleteTable_default :
    (∃ fuel s', heap.deleteTable fuel s INVALID_PAGE_ID = .ok (some s')) →
      heap.firstPageId ≠ INVALID_PAGE_ID := by
  rintro ⟨fuel, s', hok⟩ hfirst
  induction fuel with
  | zero =>
      simp [deleteTable] at hok
  | succ fuel ih =>
      rw [deleteTable, if_neg (not_not.mpr rfl), hfirst] at hok
      exact ih hok

/-! ## Both ways -/

/-- Both ways come to an end, and both free exactly the pages `ps`. -/
def FreeAgree (heap : TableHeap) (s : BufferPoolManager n) (ps : List PageId) : Prop :=
  (∃ fuel s', heap.deleteTable fuel s INVALID_PAGE_ID = .ok (some s') ∧ Freed s ps s') ∧
    ∃ fuel s', heap.freeTableHeap fuel s = .ok (some s') ∧ Freed s ps s'

/-- The two ways agree exactly when there is a first page and the chain is not longer than the
frames nobody pins. -/
theorem free_heap_agree_iff (h : Orderly s) (hchain : PageChain s heap.firstPageId ps)
    (hidle : ∃ g, (s.pages g).pinCount = 0) (hpins : ∀ q ∈ ps, s.pins q = 0) :
    FreeAgree heap s ps ↔
      heap.firstPageId ≠ INVALID_PAGE_ID ∧ ps.length ≤ s.idleFrames.card := by
  constructor
  · rintro ⟨⟨fuel, s', hok, _⟩, _⟩
    refine ⟨deleteTable_default ⟨fuel, s', hok⟩, Nat.le_of_not_lt fun hlen => ?_⟩
    exact deleteTable_default_stuck h hchain hlen hpins fuel s' hok
  · rintro ⟨hfirst, hlen⟩
    rcases hidle with ⟨g, hg⟩
    rcases deleteTable_frees heap h hchain hlen hpins with ⟨s₁, hdelete, hfrees₁⟩
    rcases freeLoop_frees h hchain hg hpins with ⟨s₂, hloop, hfrees₂⟩
    refine ⟨⟨ps.length + 1, s₁, ?_, hfrees₁.freed⟩, ps.length, s₂, hloop, hfrees₂.freed⟩
    rw [if_pos hfirst] at hdelete
    rw [deleteTable, if_neg (not_not.mpr rfl), hdelete]

/-- Two pages of a heap on disk, page 0 and behind it page 1. -/
theorem stored_chain : ∃ dm : DiskManager, DiskManager.Dense dm 2 ∧
    ∀ k, PageChain (BufferPoolManager.init k dm) 0 [0, 1] := by
  rcases DiskManager.fresh_dense.allocatePage_ok (by decide) with ⟨dm₁, _, hdense₁⟩
  rcases hdense₁.allocatePage_ok (by decide) with ⟨dm₂, _, hdense₂⟩
  rcases writePage_ok dm₂ (linkedPage (emptyPage 0 4096) 1) (p := 0) (by decide) with ⟨dm₃, hwrite₃⟩
  rcases writePage_ok dm₃ (emptyPage 1 0) (p := 1) (by decide) with ⟨dm₄, hwrite₄⟩
  have hdense₄ := DiskManager.writePage_dense (DiskManager.writePage_dense hdense₂ hwrite₃) hwrite₄
  refine ⟨dm₄, hdense₄, fun k => ?_⟩
  have hbehind : ∀ q, behind (BufferPoolManager.init k dm₄) q =
      TablePage.getNextPageId (stored dm₄ q).mem := fun q => rfl
  have hfirst : behind (BufferPoolManager.init k dm₄) 0 = 1 := by
    -- Page 0 was written before page 1, and stays.
    have hkept : stored dm₄ 0 = stored dm₃ 0 :=
      (stored_writePage hwrite₄ (by decide)).2.trans (if_neg (by decide))
    have hwritten : stored dm₃ 0 = linkedPage (emptyPage 0 4096) 1 :=
      (stored_writePage hwrite₃ (by decide)).2.trans (if_pos rfl)
    rw [hbehind, hkept, hwritten]
    exact (linkedPage_holds (emptyPage_holds charSchema 0 4096) 1).next_eq
  have hlast : behind (BufferPoolManager.init k dm₄) 1 = INVALID_PAGE_ID := by
    rw [hbehind, (stored_writePage hwrite₄ (by decide)).2, if_pos rfl]
    exact (emptyPage_holds charSchema 1 0).next_eq
  have hvalid : ∀ q ∈ [(0 : PageId), 1], 0 ≤ q.toInt := by
    intro q hq
    rcases List.mem_pair.mp hq with rfl | rfl
    · decide
    · decide
  refine ⟨Leads.cons (by decide) (by simp) ?_, hvalid⟩
  rw [hfirst]
  refine Leads.cons (by decide) List.not_mem_nil ?_
  rw [hlast]
  exact Leads.nil

theorem init_orderly {k : Nat} {dm : DiskManager} (h : DiskManager.Inv dm) :
    Orderly (BufferPoolManager.init k dm) :=
  (init_poolInv k h).orderly (init_synced k dm)

theorem init_idleFrames {k : Nat} {dm : DiskManager} :
    (BufferPoolManager.init k dm).idleFrames.card = k := by
  have huniv : (BufferPoolManager.init k dm).idleFrames = Finset.univ := by
    ext f
    simp [mem_idleFrames, BufferPoolManager.init, Page.empty]
  rw [huniv, Finset.card_univ, Fintype.card_fin]

/-- Two frames are enough for the two pages. -/
theorem free_heap_agree_iff_two : ∃ dm : DiskManager,
    PageChain (BufferPoolManager.init 2 dm) charHeap.firstPageId [0, 1] ∧
      FreeAgree charHeap (BufferPoolManager.init 2 dm) [0, 1] := by
  rcases stored_chain with ⟨dm, hdense, hchain⟩
  refine ⟨dm, hchain 2, (free_heap_agree_iff (init_orderly hdense.inv) (hchain 2) ⟨0, rfl⟩
    fun q _ => rfl).mpr ⟨by decide, ?_⟩⟩
  rw [init_idleFrames]
  exact le_refl 2

/-- One frame is not: `DeleteTable` does not complete, and `FreeTableHeap` does. -/
theorem deleteTable_needs_frames : ∃ dm : DiskManager,
    Orderly (BufferPoolManager.init 1 dm) ∧
    PageChain (BufferPoolManager.init 1 dm) charHeap.firstPageId [0, 1] ∧
    ((BufferPoolManager.init 1 dm).pages 0).pinCount = 0 ∧
    charHeap.deleteTable 3 (BufferPoolManager.init 1 dm) INVALID_PAGE_ID = .error .nullPointer ∧
    (∃ s, charHeap.freeTableHeap 2 (BufferPoolManager.init 1 dm) = .ok (some s)) ∧
    ¬FreeAgree charHeap (BufferPoolManager.init 1 dm) [0, 1] := by
  rcases stored_chain with ⟨dm, hdense, hchain⟩
  have horder := init_orderly (k := 1) hdense.inv
  have hpins : ∀ q ∈ [(0 : PageId), 1], (BufferPoolManager.init 1 dm).pins q = 0 := fun q _ => rfl
  have hlen : (BufferPoolManager.init 1 dm).idleFrames.card < [(0 : PageId), 1].length := by
    rw [init_idleFrames]
    decide
  rcases freeLoop_frees horder (hchain 1) (g := 0) rfl hpins with ⟨s, hfree, _⟩
  refine ⟨dm, horder, hchain 1, rfl, ?_, ⟨s, hfree⟩, ?_⟩
  · have hstuck := deleteTable_stuck charHeap horder (hchain 1) hlen hpins 2
    rw [init_idleFrames] at hstuck
    rw [deleteTable, if_neg (not_not.mpr rfl)]
    exact hstuck
  · rintro ⟨⟨fuel, s', hok, _⟩, _⟩
    exact deleteTable_default_stuck horder (hchain 1) hlen hpins fuel s' hok

end TableHeap
end MiniSQL
