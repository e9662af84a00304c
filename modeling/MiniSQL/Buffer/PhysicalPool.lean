import MiniSQL.Storage.UnreadBitmap
import MiniSQL.Buffer.Replacement

/-!
# PhysicalPool — the replacement policy on the bytes of the file

The disk manager on the bytes of its file keeps the contract of `Replacement`: even where its
bitmaps can no longer be read, it serves the page ids it handed out.  So the policy holds in every
run in which `NewPage` is not handed the id of a page that sits in another frame.  Allocations
alone lead to a call that is: page 555968 is handed out twice, to two frames.
-/

namespace MiniSQL

open Lib

def PhysicalDisk.contract : DiskContract PhysicalDisk where
  Inv := PhysicalDisk.Served
  Valid := PhysicalDisk.Known
  nonneg := fun h => h.1
  read := fun h hp => h.readPage hp
  write := fun h hp pageData => h.writePage hp pageData
  allocate := fun h hok => h.allocatePage hok

namespace BufferPoolManager

variable {n m : Nat} {s s' : BufferPoolManager n PhysicalDisk} {l l' : Ledger n} {f g : Fin n}
variable {q : PageId} {pd : PhysicalDisk}

/-! ## Pages not handed out before -/

/-- `NewPage` while some frame is not pinned and none is dirty. -/
theorem Booked.newPage_clean (h : Booked PhysicalDisk.contract s l)
    (hclean : ∀ f, (s.pages f).isDirty = false) (hf : (s.pages f).pinCount = 0)
    (halloc : s.diskManager.allocatePage = .ok (q, pd)) :
    ∃ g s', s.newPage = .ok (some (q, g), s') ∧ (s.pages g).pinCount = 0 ∧
      s'.diskManager = pd ∧ s'.pageTable.lookup q = some g ∧ s'.pages = Function.update s.pages g
        { data := Buf.zero PAGE_SIZE, pageId := q, pinCount := 1, isDirty := false } := by
  rcases h.frames.queueInv.pickFrame_ok hf with ⟨g, s₁, hpick⟩
  rcases h.newPage_ok hpick halloc with ⟨s', hok⟩
  have hpin := h.frames.pickFrame_unpinned hpick
  refine ⟨g, s', hok, hpin, ?_⟩
  rcases newPage_cases hok with ⟨hnone, _⟩ | ⟨q', g', s₂, dm₁, dm₂, heq, _, halloc', hwrite, hs'⟩
  · cases hnone
  · cases heq
    rw [writeBack, hclean g, if_neg Bool.false_ne_true] at hwrite
    obtain rfl := Except.ok.inj hwrite
    have hdisk : Disk.allocatePage s.diskManager = .ok (q, pd) := halloc
    rw [hdisk, Except.ok.injEq, Prod.mk.injEq] at halloc'
    rw [hs']
    exact ⟨halloc'.2.symm, AList.lookup_insert _, by rw [hpin]⟩

/-- A page id never handed out is not resident. -/
theorem Booked.careful (h : Booked PhysicalDisk.contract s l)
    (halloc : s.diskManager.allocatePage = .ok (q, pd)) (hq : l.issued q = false)
    (r : Option (PageId × Fin n)) : Careful s (.newPage r) := by
  intro g s₁ q' dm k _ halloc' hl
  have hdisk : Disk.allocatePage s.diskManager = .ok (q, pd) := halloc
  rw [hdisk, Except.ok.injEq, Prod.mk.injEq] at halloc'
  rw [← halloc'.1] at hl
  rw [h.resident q k hl] at hq
  cases hq

theorem Booked.newPage_next (h : Booked PhysicalDisk.contract s l)
    (hclean : ∀ f, (s.pages f).isDirty = false) (hf : (s.pages f).pinCount = 0)
    (halloc : s.diskManager.allocatePage = .ok (q, pd)) (hq : l.issued q = false) :
    ∃ g s', CarefulLedgerStep (s, l) (.newPage (some (q, g))) (s', (l.issue q).acquire q g) ∧
      (s.pages g).pinCount = 0 ∧ s'.diskManager = pd ∧ s'.pageTable.lookup q = some g ∧
      s'.pages = Function.update s.pages g
        { data := Buf.zero PAGE_SIZE, pageId := q, pinCount := 1, isDirty := false } := by
  rcases h.newPage_clean hclean hf halloc with ⟨g, s', hok, hrest⟩
  exact ⟨g, s', ⟨h.careful halloc hq _, trivial, hok, rfl⟩, hrest⟩

/-- The pool after the last unpin of frame `f`, the page not changed. -/
def letGo (s : BufferPoolManager n PhysicalDisk) (f : Fin n) : BufferPoolManager n PhysicalDisk :=
  { s with
    pages := Function.update s.pages f { s.pages f with pinCount := 0 }
    replacer := s.replacer.unpin f }

theorem letGo_self : ((s.letGo f).pages f).pinCount = 0 := by
  simp only [letGo, Function.update_self]

theorem letGo_ne (hg : g ≠ f) : (s.letGo f).pages g = s.pages g :=
  Function.update_of_ne hg ..

theorem unpinPage_step (hl : s.pageTable.lookup q = some f) (hpin : (s.pages f).pinCount = 1) :
    CarefulLedgerStep (s, l) (.unpinPage q false true) (s.letGo f, l.release q f 1) := by
  refine ⟨trivial, trivial, ?_, ?_⟩
  · simp [Step, unpinPage, hl, hpin, setPage, letGo]
  · simp only [Ledger.track, hl, hpin, Nat.one_ne_zero, if_false]

/-! ## The policy -/

/-- Eviction and availability.  In every state that a pool of any size reaches on a new file by
`NewPage`, `FetchPage` of pages that came from `NewPage`, `UnpinPage`, `FlushPage` and stores, where
`NewPage` is not called while the next page of the disk is resident in a frame it does not take:
`FetchPage` of a page that is not resident and `NewPage` return null exactly when all frames are
pinned; otherwise they take a frame never used, or the one let go longest ago when there is none;
the pin count of a page is the number of times it was handed out less the number of times it was
given back; and a page stays in its frame while it is pinned. -/
theorem replacement_policy {es : List (Event n)}
    (hrun : Run CarefulLedgerStep (init n PhysicalDisk.fresh, Ledger.start) es (s, l)) :
    Policy s l :=
  (run_booked hrun (init_booked (C := PhysicalDisk.contract) n PhysicalDisk.fresh_served)).policy

/-- A pool of two frames that holds its first two pages. -/
theorem two_pages : ∃ (f g : Fin 2) (s : BufferPoolManager 2 PhysicalDisk) (pd : PhysicalDisk),
    f ≠ g ∧ s.pageTable.lookup 0 = some f ∧ s.pageTable.lookup 1 = some g ∧
      (∀ k, (s.pages k).pinCount = 1) ∧ s.diskManager.allocatePage = .ok (2, pd) ∧
      Run CarefulLedgerStep (init 2 PhysicalDisk.fresh, Ledger.start)
        [.newPage (some (0, f)), .newPage (some (1, g))]
        (s, (((Ledger.start.issue 0).acquire 0 f).issue 1).acquire 1 g) := by
  rcases PhysicalDisk.fresh_filled.allocatePage (by decide) with ⟨pd₁, halloc₁, hfilled₁⟩
  rcases hfilled₁.allocatePage (by decide) with ⟨pd₂, halloc₂, hfilled₂⟩
  rcases hfilled₂.allocatePage (by decide) with ⟨pd₃, halloc₃, _⟩
  have hbooked₀ : Booked PhysicalDisk.contract (init 2 PhysicalDisk.fresh) Ledger.start :=
    init_booked 2 PhysicalDisk.fresh_served
  have hother : ∀ a : Fin 2, ∃ k, k ≠ a := by decide
  have hboth : ∀ a b c : Fin 2, a ≠ b → c ≠ b → c = a := by decide
  rcases hbooked₀.newPage_next (f := 0) (fun _ => rfl) rfl halloc₁ rfl with
    ⟨f, s₁, hstep₁, _, hdisk₁, hl₁, hpages₁⟩
  have hbooked₁ := hbooked₀.step hstep₁
  have hempty : ∀ k, k ≠ f → s₁.pages k = Page.empty := by
    intro k hk
    rw [hpages₁, Function.update_of_ne hk]
    rfl
  have hclean : ∀ k, (s₁.pages k).isDirty = false := by
    intro k
    by_cases hk : k = f
    · rw [hpages₁, hk, Function.update_self]
    · rw [hempty k hk]
      rfl
  rcases hother f with ⟨k, hk⟩
  have hfree : (s₁.pages k).pinCount = 0 := by
    rw [hempty k hk]
    rfl
  rcases hbooked₁.newPage_next hclean hfree (hdisk₁ ▸ halloc₂) rfl with
    ⟨g, s₂, hstep₂, hpin, hdisk₂, hl₂, hpages₂⟩
  have hfg : f ≠ g := by
    rintro rfl
    rw [hpages₁, Function.update_self] at hpin
    cases hpin
  have hpage : s₂.pages f = s₁.pages f := by rw [hpages₂, Function.update_of_ne hfg]
  refine ⟨f, g, s₂, pd₃, hfg, ?_, hl₂, fun k => ?_, ?_, Run.cons hstep₁ (Run.cons hstep₂
    (Run.nil _))⟩
  · refine ((hbooked₁.step hstep₂).frames.table 0 f).mpr ⟨by decide, ?_⟩
    rw [hpage]
    exact (hbooked₁.frames.pageId hl₁).2
  · by_cases hkg : k = g
    · rw [hkg, hpages₂, Function.update_self]
    · rw [hboth f g k hfg hkg, hpage, hpages₁, Function.update_self]
  · rw [hdisk₂]
    exact halloc₃

/-- Both frames are let go, and the next page goes to the one let go first. -/
theorem replacement_policy_oldest : ∃ (f g : Fin 2) (s : BufferPoolManager 2 PhysicalDisk)
    (l : Ledger 2), f ≠ g ∧
      Run CarefulLedgerStep (init 2 PhysicalDisk.fresh, Ledger.start)
        [.newPage (some (0, f)), .newPage (some (1, g)), .unpinPage 0 false true,
          .unpinPage 1 false true, .newPage (some (2, f))] (s, l) ∧ Policy s l := by
  rcases two_pages with ⟨f, g, s, pd, hfg, hf, hg, hpins, halloc, hrun⟩
  have hboth : ∀ a b c : Fin 2, a ≠ b → c = a ∨ c = b := by decide
  set l := (((Ledger.start.issue 0).acquire 0 f).issue 1).acquire 1 g with hl
  have hstep₃ : CarefulLedgerStep (s, l) (.unpinPage 0 false true)
      (s.letGo f, l.release 0 f 1) := unpinPage_step hf (hpins f)
  have hpin : ((s.letGo f).pages g).pinCount = 1 := by
    rw [letGo_ne hfg.symm, hpins]
  have hstep₄ : CarefulLedgerStep (s.letGo f, l.release 0 f 1) (.unpinPage 1 false true)
      ((s.letGo f).letGo g, (l.release 0 f 1).release 1 g 1) := unpinPage_step hg hpin
  have hrun₄ := hrun.append (Run.cons hstep₃ (Run.cons hstep₄ (Run.nil _)))
  -- What the theorem says of the fifth call.
  have hused : ∀ k, ((l.release 0 f 1).release 1 g 1).used k = true := by
    intro k
    show Function.update (Function.update Ledger.start.used f true) g true k = true
    rcases hboth f g k hfg with rfl | rfl
    · rw [Function.update_of_ne hfg, Function.update_self]
    · rw [Function.update_self]
  have hidle : ∀ k, (((s.letGo f).letGo g).pages k).pinCount = 0 := by
    intro k
    rcases hboth f g k hfg with rfl | rfl
    · rw [letGo_ne hfg, letGo_self]
    · exact letGo_self
  rcases (replacement_policy hrun₄).new_takes 2 pd halloc (fun hall =>
    absurd (hidle f) (hall f).ne') with ⟨k, s', hok, htakes⟩
  have hkf : k = f := by
    rcases hboth f g k hfg with rfl | rfl
    · rfl
    · have hlt := (htakes.oldest hused).2 f (hidle f) hfg
      have hdropped : ((l.release 0 f 1).release 1 k 1).droppedAt =
          Function.update (Function.update Ledger.start.droppedAt f 0) k 1 := rfl
      rw [hdropped, Function.update_self, Function.update_of_ne hfg, Function.update_self] at hlt
      cases hlt
  subst hkf
  have hbooked₄ := run_booked hrun₄ (init_booked (C := PhysicalDisk.contract) 2
    PhysicalDisk.fresh_served)
  have hnew : ((l.release 0 k 1).release 1 g 1).issued 2 = false := rfl
  have hstep₅ : CarefulLedgerStep ((s.letGo k).letGo g, (l.release 0 k 1).release 1 g 1)
      (.newPage (some (2, k))) (s', _) := 
    ⟨hbooked₄.careful halloc hnew _, trivial, hok, rfl⟩
  have hrun₅ := hrun₄.append (Run.cons hstep₅ (Run.nil _))
  exact ⟨k, g, s', _, hfg, hrun₅, replacement_policy hrun₅⟩

/-! ## A page handed out twice -/

/-- No page is held and no frame dirty.  The first `m` page ids were handed out. -/
structure AllReturned (m : Nat) (s : BufferPoolManager n PhysicalDisk) (l : Ledger n) : Prop where
  booked : Booked PhysicalDisk.contract s l
  clean : ∀ f, (s.pages f).isDirty = false
  unpinned : ∀ f, (s.pages f).pinCount = 0
  issued : ∀ p, l.issued p = true → sizeT p < m
  disk : PhysicalDisk.Filled s.diskManager m

theorem init_allReturned (n : Nat) :
    AllReturned 0 (init n PhysicalDisk.fresh) Ledger.start where
  booked := init_booked n PhysicalDisk.fresh_served
  clean := fun _ => rfl
  unpinned := fun _ => rfl
  issued := by simp [Ledger.start]
  disk := PhysicalDisk.fresh_filled

theorem AllReturned.not_issued (h : AllReturned m s l) (hm : m < 2 ^ 31) :
    l.issued (Int32.ofNat m) = false := by
  cases hi : l.issued (Int32.ofNat m) with
  | false =>
      rfl
  | true =>
      have := h.issued _ hi
      rw [sizeT_ofNat hm] at this
      omega

/-- One more page is taken and given back. -/
theorem AllReturned.round (h : AllReturned m s l)
    (hm : m < BITMAP_SIZE * PhysicalDisk.UNREAD_EXTENT) (f : Fin n) :
    ∃ es s' l', Run CarefulLedgerStep (s, l) es (s', l') ∧ AllReturned (m + 1) s' l' := by
  have hm31 : m < 2 ^ 31 := lt_trans hm (by decide)
  rcases h.disk.allocatePage hm with ⟨pd, halloc, hfilled⟩
  rcases h.booked.newPage_next h.clean (h.unpinned f) halloc (h.not_issued hm31) with
    ⟨g, s₁, hstep₁, _, hdisk₁, hl₁, hpages₁⟩
  have hpin₁ : (s₁.pages g).pinCount = 1 := by rw [hpages₁, Function.update_self]
  have hstep₂ := unpinPage_step (l := (l.issue (Int32.ofNat m)).acquire (Int32.ofNat m) g) hl₁ hpin₁
  refine ⟨_, _, _, Run.cons hstep₁ (Run.cons hstep₂ (Run.nil _)),
    (h.booked.step hstep₁).step hstep₂, fun k => ?_, fun k => ?_, fun p hp => ?_, ?_⟩
  · by_cases hk : k = g
    · simp only [letGo, hk, Function.update_self, hpages₁]
    · rw [letGo_ne hk, hpages₁, Function.update_of_ne hk, h.clean k]
  · by_cases hk : k = g
    · rw [hk, letGo_self]
    · rw [letGo_ne hk, hpages₁, Function.update_of_ne hk, h.unpinned k]
  · simp only [Ledger.release, Ledger.acquire, Ledger.issue] at hp
    by_cases hpm : p = Int32.ofNat m
    · rw [hpm, sizeT_ofNat hm31]
      exact Nat.lt_succ_self m
    · rw [Function.update_of_ne hpm] at hp
      exact Nat.lt_succ_of_lt (h.issued p hp)
  · simpa only [letGo, hdisk₁] using hfilled

/-- All pages below the unread extent can be taken and given back in turn. -/
theorem run_allReturned (f : Fin n) (hm : m ≤ BITMAP_SIZE * PhysicalDisk.UNREAD_EXTENT) :
    ∃ es s l, Run CarefulLedgerStep (init n PhysicalDisk.fresh, Ledger.start) es (s, l) ∧
      AllReturned m s l := by
  induction m with
  | zero =>
      exact ⟨[], _, _, Run.nil _, init_allReturned n⟩
  | succ m ih =>
      rcases ih (Nat.le_of_succ_le hm) with ⟨es, s, l, hrun, hret⟩
      rcases hret.round hm f with ⟨es', s', l', hrun', hret'⟩
      exact ⟨es ++ es', s', l', hrun.append hrun', hret'⟩

/-- The next two pages are one and the same. -/
theorem AllReturned.newPage_twice {s : BufferPoolManager 2 PhysicalDisk} {l : Ledger 2}
    (h : AllReturned (BITMAP_SIZE * PhysicalDisk.UNREAD_EXTENT) s l) :
    ∃ f g s' l', f ≠ g ∧ Run LedgerStep (s, l)
        [.newPage (some (555968, f)), .newPage (some (555968, g))] (s', l') ∧
      l'.acquired 555968 = l'.released 555968 + 2 ∧ s'.pins 555968 = 1 := by
  have hpage : Int32.ofNat (BITMAP_SIZE * PhysicalDisk.UNREAD_EXTENT) = 555968 := by decide
  rcases h.disk.counts.allocatePage_unread h.booked.disk (by decide) with ⟨pd₁, halloc₁, hcounts₁⟩
  have hnew := h.not_issued (by decide)
  rw [hpage] at halloc₁ hnew
  rcases h.booked.newPage_next h.clean (h.unpinned 0) halloc₁ hnew with
    ⟨f, s₁, hstep₁, _, hdisk₁, _, hpages₁⟩
  have hbooked₁ := h.booked.step hstep₁
  rw [← hdisk₁] at hcounts₁
  rcases hcounts₁.allocatePage_unread hbooked₁.disk (by decide) with ⟨pd₂, halloc₂, _⟩
  rw [hpage] at halloc₂
  have hclean₁ : ∀ k, (s₁.pages k).isDirty = false := by
    intro k
    by_cases hk : k = f
    · rw [hpages₁, hk, Function.update_self]
    · rw [hpages₁, Function.update_of_ne hk, h.clean]
  -- The other frame is still free.
  have hother : ∀ a : Fin 2, ∃ k, k ≠ a := by decide
  rcases hother f with ⟨k, hk⟩
  have hfree : (s₁.pages k).pinCount = 0 := by
    rw [hpages₁, Function.update_of_ne hk, h.unpinned]
  rcases hbooked₁.newPage_clean hclean₁ hfree halloc₂ with
    ⟨g, s₂, hok₂, hpin₂, _, hl₂, hpages₂⟩
  have hfg : f ≠ g := by
    rintro rfl
    rw [hpages₁, Function.update_self] at hpin₂
    cases hpin₂
  have hstep₂ : LedgerStep (s₁, (l.issue 555968).acquire 555968 f)
      (.newPage (some (555968, g))) (s₂, _) := ⟨trivial, hok₂, rfl⟩
  refine ⟨f, g, s₂, _, hfg, Run.cons hstep₁.2 (Run.cons hstep₂ (Run.nil _)), ?_, ?_⟩
  · have hzero : s.pins 555968 = 0 := by
      cases hl : s.pageTable.lookup 555968 with
      | none =>
          exact pins_of_none hl
      | some k =>
          rw [pins_of_lookup hl, h.unpinned]
    have hbefore := h.booked.pins 555968
    simp only [Ledger.acquire, Ledger.issue, Function.update_self]
    omega
  · rw [pins_of_lookup hl₂, hpages₂, Function.update_self]

theorem page_handed_out_twice : ¬∀ (n : Nat) (es : List (Event n))
    (s : BufferPoolManager n PhysicalDisk) (l : Ledger n), 1 ≤ n →
      Run LedgerStep (init n PhysicalDisk.fresh, Ledger.start) es (s, l) → Policy s l := by
  intro hall
  rcases run_allReturned (n := 2) 0 (le_refl _) with ⟨es, s, l, hrun, hret⟩
  rcases hret.newPage_twice with ⟨f, g, s', l', _, hrun', hacquired, hpins⟩
  have hledger : Run LedgerStep (init 2 PhysicalDisk.fresh, Ledger.start) es (s, l) :=
    hrun.mono fun _ _ _ h => h.2
  have hpolicy := hall 2 _ s' l' (by decide) (hledger.append hrun')
  have := hpolicy.pins 555968
  omega

end BufferPoolManager
end MiniSQL
