import MiniSQL.Buffer.Pins

/-!
# Replacement — which frame a page gets

A pool is run here beside a ledger of what its clients did: which pages came from `NewPage`, how
often each was handed out and given back and in which frame it is held, which frames were ever
handed out, and when the pin count of a frame last dropped to zero.  As long as no page is deleted
and `NewPage` is not given a page that another frame holds, the free list holds the frames never
used and the replacer the unpinned ones, in the order in which they were let go (`Booked`).  So the
pool takes a frame never used while there is one, else the one let go longest ago, and nothing
while all are pinned (`Policy`).

Of the disk only this is used: it goes on serving the page ids it handed out (`DiskContract`).
-/

namespace MiniSQL

open Lib

/-- A disk manager that reads and writes the page ids it once handed out, whatever the bytes. -/
structure DiskContract (D : Type) [Disk D] where
  Inv : D → Prop
  Valid : D → PageId → Prop
  nonneg : ∀ {d p}, Valid d p → 0 ≤ p.toInt
  read : ∀ {d p}, Inv d → Valid d p → ∃ pageData d', Disk.readPage d p = .ok (pageData, d') ∧
    Inv d' ∧ ∀ q, Valid d q → Valid d' q
  write : ∀ {d p}, Inv d → Valid d p → ∀ pageData, ∃ d', Disk.writePage d p pageData = .ok d' ∧
    Inv d' ∧ ∀ q, Valid d q → Valid d' q
  allocate : ∀ {d d' p}, Inv d → Disk.allocatePage d = .ok (p, d') →
    Inv d' ∧ Valid d' p ∧ ∀ q, Valid d q → Valid d' q

namespace BufferPoolManager

variable {n : Nat} {D : Type} {s s' s₁ : BufferPoolManager n D} {f g : Fin n} {p q : PageId}
variable {e : Event n}

/-! ## The ledger -/

/-- What the clients of a pool did. -/
structure Ledger (n : Nat) where
  /-- The pages that came from `NewPage`. -/
  issued : PageId → Bool
  /-- How often `FetchPage` and `NewPage` returned the page. -/
  acquired : PageId → Nat
  /-- How often `UnpinPage` found the page pinned. -/
  released : PageId → Nat
  /-- The frame in which the page was handed out when it was last not held. -/
  home : PageId → Option (Fin n)
  /-- The frames that `FetchPage` or `NewPage` ever returned. -/
  used : Fin n → Bool
  /-- When the pin count of the frame last dropped to zero. -/
  droppedAt : Fin n → Nat
  /-- The number of releases so far. -/
  clock : Nat

namespace Ledger

def start : Ledger n :=
  { issued := fun _ => false
    acquired := fun _ => 0
    released := fun _ => 0
    home := fun _ => none
    used := fun _ => false
    droppedAt := fun _ => 0
    clock := 0 }

/-- Page `p` is handed out in frame `f`. -/
def acquire (l : Ledger n) (p : PageId) (f : Fin n) : Ledger n :=
  { l with
    acquired := Function.update l.acquired p (l.acquired p + 1)
    home := if l.acquired p = l.released p then Function.update l.home p (some f) else l.home
    used := Function.update l.used f true }

/-- Page `p` came from `NewPage`. -/
def issue (l : Ledger n) (p : PageId) : Ledger n :=
  { l with issued := Function.update l.issued p true }

/-- Page `p`, pinned `k` times in frame `f`, is given back once. -/
def release (l : Ledger n) (p : PageId) (f : Fin n) (k : Nat) : Ledger n :=
  { l with
    released := Function.update l.released p (l.released p + 1)
    droppedAt := if k = 1 then Function.update l.droppedAt f l.clock else l.droppedAt
    clock := l.clock + 1 }

/-- The ledger after a call made in the pool `s`. -/
def track (l : Ledger n) (s : BufferPoolManager n D) : Event n → Ledger n
  | .fetchPage p (some f) => l.acquire p f
  | .newPage (some (p, f)) => (l.issue p).acquire p f
  | .unpinPage p _ _ =>
    match s.pageTable.lookup p with
    | some f => if (s.pages f).pinCount = 0 then l else l.release p f (s.pages f).pinCount
    | none => l
  | _ => l

/-- A page that came from `NewPage` is issued, and issuing it again changes nothing. -/
theorem issue_of_issued {l : Ledger n} (h : l.issued p = true) : l.issue p = l := by
  have hsame : Function.update l.issued p true = l.issued := by
    rw [← h, Function.update_eq_self]
  rw [issue, hsame]

end Ledger

/-- The calls considered: pages that came from `NewPage` are fetched, and none is deleted. -/
def Deleteless (l : Ledger n) : Event n → Prop
  | .fetchPage p _ => l.issued p = true
  | .deletePage _ _ => False
  | _ => True

def LedgerStep [Disk D] (c : BufferPoolManager n D × Ledger n) (e : Event n)
    (c' : BufferPoolManager n D × Ledger n) : Prop :=
  Deleteless c.2 e ∧ Step c.1 e c'.1 ∧ c'.2 = c.2.track c.1 e

/-- Moreover `NewPage` is not called while the page the disk hands out next is resident in a frame
other than the one taken. -/
def CarefulLedgerStep [Disk D] (c : BufferPoolManager n D × Ledger n) (e : Event n)
    (c' : BufferPoolManager n D × Ledger n) : Prop :=
  Careful c.1 e ∧ LedgerStep c e c'

/-! ## Pages handed out -/

/-- Page `p` was handed out in frame `f`: its frame leaves both queues, and the other frames stay as
they were. -/
structure HandsOut (s : BufferPoolManager n D) (p : PageId) (f : Fin n)
    (s' : BufferPoolManager n D) : Prop where
  frames : FrameInv s'
  lookup : s'.pageTable.lookup p = some f
  resident : ∀ q g, s'.pageTable.lookup q = some g → q ≠ p → s.pageTable.lookup q = some g
  others : ∀ g, g ≠ f → s'.pages g = s.pages g
  kept : 0 < s.pins p → s.pageTable.lookup p = some f
  pins : ∀ q, s'.pins q = s.pins q + if q = p then 1 else 0
  free : ∀ g, g ≠ f → (g ∈ s'.freeList ↔ g ∈ s.freeList)
  evict : s'.replacer.frames.Sublist s.replacer.frames

theorem pin_sublist (r : LRUReplacer (Fin n)) (f : Fin n) :
    (r.pin f).frames.Sublist r.frames := by
  rw [LRUReplacer.frames_pin]
  exact List.erase_sublist

theorem pickFrame_sublist (hpick : s.pickFrame = some (f, s₁)) :
    s₁.replacer.frames.Sublist s.replacer.frames := by
  rcases pickFrame_cases hpick with ⟨rest, _, rfl⟩ | ⟨_, r, hframes, rfl⟩
  · exact List.Sublist.refl _
  · rw [hframes]
    exact List.sublist_cons_self ..

/-- A frame was picked for page `p`, which no other frame holds. -/
theorem FrameInv.handsOut (h : FrameInv s) (page : Page) (hframes : FrameInv s')
    (hpick : s.pickFrame = some (f, s₁)) (hnew : ∀ g, s.pageTable.lookup p = some g → g = f)
    (hpages : s'.pages = Function.update s.pages f page)
    (hpin : page.pinCount = (s.pages f).pinCount + 1)
    (htable : s'.pageTable = (s.pageTable.erase (s.pages f).pageId).insert p f)
    (hfree : s'.freeList = s₁.freeList) (hevict : s'.replacer.frames.Sublist s₁.replacer.frames) :
    HandsOut s p f s' := by
  have hpicks := h.queueInv.picks hpick
  -- The frame picked is not pinned, so neither is page `p`, wherever it is.
  have hzero : s.pins p = 0 := by
    cases hl : s.pageTable.lookup p with
    | none =>
        exact pins_of_none hl
    | some g =>
        rw [pins_of_lookup hl, hnew g hl, hpicks.unpinned]
  refine ⟨hframes, ?_, fun q g hq hne => ?_, fun g hg => ?_, fun hpos => ?_, fun q => ?_, ?_,
    hevict.trans (pickFrame_sublist hpick)⟩
  · rw [htable, AList.lookup_insert]
  · rw [lookup_load htable, if_neg hne] at hq
    split at hq
    · cases hq
    · exact hq
  · rw [hpages, Function.update_of_ne hg]
  · omega
  · rw [h.tableInv.pins_load page hpicks.unpinned hpages htable]
    by_cases hq : q = p
    · rw [if_pos hq, if_pos hq, hq, hzero, hpin, hpicks.unpinned]
    · rw [if_neg hq, if_neg hq, Nat.add_zero]
  · rw [hfree]
    exact hpicks.free

/-- The frame of a resident page is pinned once more. -/
theorem FrameInv.handsOut_again (h : FrameInv s) (hframes : FrameInv s')
    (hl : s.pageTable.lookup p = some f) (hs' : s' = { s with
      pages := Function.update s.pages f { s.pages f with pinCount := (s.pages f).pinCount + 1 }
      replacer := s.replacer.pin f }) : HandsOut s p f s' := by
  have hpages : s'.pages = Function.update s.pages f
      { s.pages f with pinCount := (s.pages f).pinCount + 1 } := by rw [hs']
  have htable : s'.pageTable = s.pageTable := by rw [hs']
  refine ⟨hframes, by rw [htable, hl], fun q g hq _ => ?_, fun g hg => ?_, fun _ => hl,
    fun q => ?_, fun g _ => ?_, ?_⟩
  · rwa [htable] at hq
  · rw [hpages, Function.update_of_ne hg]
  · rw [h.tableInv.pins_touch hl _ hpages htable]
    by_cases hq : q = p
    · rw [if_pos hq, if_pos hq, hq, pins_of_lookup hl]
    · rw [if_neg hq, if_neg hq, Nat.add_zero]
  · rw [hs']
  · rw [hs']
    exact pin_sublist _ _

section Disk

variable [Disk D]

theorem FrameInv.handsOut_fetchPage (h : FrameInv s) (hframes : FrameInv s')
    (hok : s.fetchPage p = .ok (some f, s')) : HandsOut s p f s' := by
  rcases fetchPage_cases hok with ⟨hnone, _⟩ | ⟨g, hg, hl, hs'⟩ |
    ⟨g, s₁, dm, data, dm', hg, hnone, hpick, _, _, rfl⟩
  · cases hnone
  · obtain rfl := Option.some.inj hg
    exact h.handsOut_again hframes hl hs'
  · obtain rfl := Option.some.inj hg
    refine h.handsOut _ hframes hpick (fun k hk => ?_) rfl rfl rfl rfl (pin_sublist _ _)
    rw [hnone] at hk
    cases hk

theorem FrameInv.handsOut_newPage (h : FrameInv s) (hframes : FrameInv s')
    (hcareful : Careful s (.newPage (some (p, f)))) (hok : s.newPage = .ok (some (p, f), s')) :
    HandsOut s p f s' := by
  rcases newPage_cases hok with ⟨hnone, _⟩ | ⟨q, g, s₁, dm₁, dm₂, heq, hpick, halloc, _, rfl⟩
  · cases hnone
  · cases heq
    exact h.handsOut _ hframes hpick (fun k hk => hcareful f s₁ p dm₁ k hpick halloc hk) rfl rfl rfl
      rfl (List.Sublist.refl _)

end Disk

/-! ## The pool as the ledger has it -/

/-- The free list, the replacer and the pin counts as the ledger has them. -/
structure Booked [Disk D] (C : DiskContract D) (s : BufferPoolManager n D) (l : Ledger n) :
    Prop where
  frames : FrameInv s
  disk : C.Inv s.diskManager
  clean : ∀ f, (s.pages f).pageId = INVALID_PAGE_ID → (s.pages f).isDirty = false
  resident : ∀ p f, s.pageTable.lookup p = some f → l.issued p = true
  issued : ∀ p, l.issued p = true → C.Valid s.diskManager p
  pins : ∀ p, l.acquired p = l.released p + s.pins p
  home : ∀ p f, s.pageTable.lookup p = some f → 0 < (s.pages f).pinCount → l.home p = some f
  unused : ∀ f, l.used f = false ↔ f ∈ s.freeList
  sorted : s.replacer.frames.Pairwise fun f g => l.droppedAt f < l.droppedAt g
  past : ∀ f ∈ s.replacer.frames, l.droppedAt f < l.clock

section Booked

variable [Disk D] {C : DiskContract D} {l l' : Ledger n}

theorem init_booked (n : Nat) {dm : D} (hdm : C.Inv dm) : Booked C (init n dm) Ledger.start where
  frames := init_frameInv n dm
  disk := hdm
  clean := fun _ _ => rfl
  resident := by simp [init]
  issued := by simp [Ledger.start]
  pins := fun p => by simp [Ledger.start, BufferPoolManager.pins, init]
  home := by simp [init]
  unused := fun f => by simp [Ledger.start, init]
  sorted := List.Pairwise.nil
  past := by simp [init, LRUReplacer.empty, LRUReplacer.frames]

/-- A dirty frame holds a page the disk takes back. -/
theorem Booked.dirty_valid (h : Booked C s l) (hdirty : (s.pages f).isDirty = true) :
    C.Valid s.diskManager (s.pages f).pageId := by
  have hvalid : (s.pages f).pageId ≠ INVALID_PAGE_ID := by
    intro hid
    rw [h.clean f hid] at hdirty
    cases hdirty
  exact h.issued _ (h.resident _ f ((h.frames.table _ f).mpr ⟨hvalid, rfl⟩))

/-- The disk after a frame was written back. -/
theorem DiskContract.writeBack {d d' : D} {page : Page} {data : PageData} (hd : C.Inv d)
    (hvalid : page.isDirty = true → C.Valid d page.pageId)
    (hok : BufferPoolManager.writeBack page data d = .ok d') :
    C.Inv d' ∧ ∀ q, C.Valid d q → C.Valid d' q := by
  unfold BufferPoolManager.writeBack at hok
  split at hok
  · rename_i hdirty
    rcases C.write hd (hvalid hdirty) data with ⟨d₁, hwrite, hkeep⟩
    rw [hwrite] at hok
    rw [← Except.ok.inj hok]
    exact hkeep
  · rw [← Except.ok.inj hok]
    exact ⟨hd, fun _ h => h⟩

theorem DiskContract.writeBack_ok {d : D} {page : Page} (data : PageData) (hd : C.Inv d)
    (hvalid : page.isDirty = true → C.Valid d page.pageId) :
    ∃ d', BufferPoolManager.writeBack page data d = .ok d' := by
  unfold BufferPoolManager.writeBack
  split
  · rename_i hdirty
    rcases C.write hd (hvalid hdirty) data with ⟨d₁, hwrite, _⟩
    exact ⟨d₁, hwrite⟩
  · exact ⟨d, rfl⟩

/-- A page is handed out, and the disk goes on serving those handed out before. -/
theorem Booked.handsOut (h : Booked C s l) (ho : HandsOut s p f s')
    (hdisk : C.Inv s'.diskManager) (hp : C.Valid s'.diskManager p)
    (hkeep : ∀ q, C.Valid s.diskManager q → C.Valid s'.diskManager q) :
    Booked C s' ((l.issue p).acquire p f) where
  frames := ho.frames
  disk := hdisk
  clean := fun g hg => by
    by_cases hgf : g = f
    · rw [hgf, (ho.frames.pageId ho.lookup).2] at hg
      exact absurd hg (ho.frames.pageId ho.lookup).1
    · rw [ho.others g hgf] at hg ⊢
      exact h.clean g hg
  resident := fun q g hq => by
    by_cases hqp : q = p
    · simp [Ledger.acquire, Ledger.issue, hqp]
    · simp only [Ledger.acquire, Ledger.issue, Function.update_of_ne hqp]
      exact h.resident q g (ho.resident q g hq hqp)
  issued := fun q hq => by
    by_cases hqp : q = p
    · rw [hqp]
      exact hp
    · simp only [Ledger.acquire, Ledger.issue, Function.update_of_ne hqp] at hq
      exact hkeep q (h.issued q hq)
  pins := fun q => by
    rw [ho.pins q]
    by_cases hqp : q = p
    · subst hqp
      simp only [Ledger.acquire, Ledger.issue, Function.update_self, if_true, h.pins q,
        Nat.add_assoc]
    · simp only [Ledger.acquire, Ledger.issue, Function.update_of_ne hqp, if_neg hqp, h.pins q,
        Nat.add_zero]
  home := fun q g hq hpos => by
    by_cases hqp : q = p
    · subst hqp
      obtain rfl : f = g := Option.some.inj (ho.lookup.symm.trans hq)
      -- It was held before, and then in this frame, or this frame is its home now.
      by_cases hheld : l.acquired q = l.released q
      · simp only [Ledger.acquire, Ledger.issue, hheld, if_true, Function.update_self]
      · have hpins := h.pins q
        have hl := ho.kept (by omega)
        rw [pins_of_lookup hl] at hpins
        simp only [Ledger.acquire, Ledger.issue, hheld, if_false]
        exact h.home q f hl (by omega)
    · have hgf : g ≠ f := ho.frames.frame_ne ho.lookup hq hqp
      rw [ho.others g hgf] at hpos
      have hold := h.home q g (ho.resident q g hq hqp) hpos
      by_cases hheld : l.acquired p = l.released p
      · simp only [Ledger.acquire, Ledger.issue, hheld, if_true, Function.update_of_ne hqp, hold]
      · simp only [Ledger.acquire, Ledger.issue, hheld, if_false, hold]
  unused := fun g => by
    by_cases hgf : g = f
    · subst hgf
      simp [Ledger.acquire, Ledger.issue, ho.frames.queueInv.resident_not_free ho.lookup]
    · simp only [Ledger.acquire, Ledger.issue, Function.update_of_ne hgf, ho.free g hgf,
        h.unused g]
  sorted := h.sorted.sublist ho.evict
  past := fun g hg => h.past g (ho.evict.mem hg)

/-- No call of `NewPage` is handed `INVALID_PAGE_ID`. -/
theorem Booked.allocated_ne (h : Booked C s l) (q : PageId) (dm : D)
    (halloc : Disk.allocatePage s.diskManager = .ok (q, dm)) : q ≠ INVALID_PAGE_ID :=
  ne_INVALID_of_nonneg (C.nonneg (C.allocate h.disk halloc).2.1)

theorem Booked.fetchPage (h : Booked C s l) (hp : l.issued p = true)
    (hok : s.fetchPage p = .ok (some f, s')) : Booked C s' (l.acquire p f) := by
  have hstep : Step s (.fetchPage p (some f)) s' := hok
  have hframes := (hstep.frameInv_iff_careful h.frames h.allocated_ne).mpr trivial
  have ho := h.frames.handsOut_fetchPage hframes hok
  have hvalid := h.issued p hp
  have hdisk : C.Inv s'.diskManager ∧ ∀ q, C.Valid s.diskManager q → C.Valid s'.diskManager q := by
    rcases fetchPage_cases hok with ⟨hnone, _⟩ | ⟨g, _, _, hs'⟩ |
      ⟨g, s₁, dm, data, dm', _, _, _, hwrite, hread, hs'⟩
    · cases hnone
    · rw [hs']
      exact ⟨h.disk, fun _ h => h⟩
    · -- A write-back, then the read.
      rcases DiskContract.writeBack h.disk h.dirty_valid hwrite with ⟨hdm, hkeep⟩
      rcases C.read hdm (hkeep p hvalid) with ⟨data₁, dm₁, hread₁, hdm₁, hkeep₁⟩
      rw [hread, Except.ok.injEq, Prod.mk.injEq] at hread₁
      rcases hread₁ with ⟨_, rfl⟩
      rw [hs']
      exact ⟨hdm₁, fun q hq => hkeep₁ q (hkeep q hq)⟩
  have hbooked := h.handsOut ho hdisk.1 (hdisk.2 p hvalid) hdisk.2
  rwa [Ledger.issue_of_issued hp] at hbooked

theorem Booked.newPage (h : Booked C s l) (hcareful : Careful s (.newPage (some (q, f))))
    (hok : s.newPage = .ok (some (q, f), s')) : Booked C s' ((l.issue q).acquire q f) := by
  have hstep : Step s (.newPage (some (q, f))) s' := hok
  have hframes := (hstep.frameInv_iff_careful h.frames h.allocated_ne).mpr hcareful
  have ho := h.frames.handsOut_newPage hframes hcareful hok
  rcases newPage_cases hok with ⟨hnone, _⟩ | ⟨q', f', s₁, dm₁, dm₂, heq, _, halloc, hwrite, hs'⟩
  · cases hnone
  · cases heq
    rcases C.allocate h.disk halloc with ⟨hdm₁, hq, hkeep⟩
    rcases DiskContract.writeBack hdm₁ (fun hd => hkeep _ (h.dirty_valid hd)) hwrite with
      ⟨hdm₂, hkeep₂⟩
    have hfile : s'.diskManager = dm₂ := by rw [hs']
    refine h.handsOut ho ?_ ?_ fun r hr => ?_
    · rw [hfile]
      exact hdm₂
    · rw [hfile]
      exact hkeep₂ q hq
    · rw [hfile]
      exact hkeep₂ r (hkeep r hr)

/-- A frame that joins the replacer now stands behind those that joined before. -/
theorem Booked.join (h : Booked C s l) (hf : f ∉ s.replacer.frames) :
    (s.replacer.unpin f).frames.Pairwise (fun a b =>
        Function.update l.droppedAt f l.clock a < Function.update l.droppedAt f l.clock b) ∧
      ∀ g ∈ (s.replacer.unpin f).frames, Function.update l.droppedAt f l.clock g < l.clock + 1 := by
  have hold : ∀ g ∈ s.replacer.frames,
      Function.update l.droppedAt f l.clock g = l.droppedAt g := by
    intro g hg
    have hgf : g ≠ f := fun heq => hf (heq ▸ hg)
    exact Function.update_of_ne hgf ..
  rw [LRUReplacer.frames_unpin, if_neg hf]
  constructor
  · refine List.pairwise_append.mpr ⟨?_, List.pairwise_singleton .., fun g hg k hk => ?_⟩
    · refine h.sorted.imp_of_mem fun {a b} ha hb hlt => ?_
      rw [hold a ha, hold b hb]
      exact hlt
    · rw [List.mem_singleton.mp hk, hold g hg, Function.update_self]
      exact h.past g hg
  · intro g hg
    rcases List.mem_append.mp hg with hg | hg
    · rw [hold g hg]
      exact Nat.lt_succ_of_lt (h.past g hg)
    · rw [List.mem_singleton.mp hg, Function.update_self]
      exact Nat.lt_succ_self _

/-- The last unpin of a frame puts it at the end of the replacer, with the latest time. -/
theorem Booked.unpinPage (h : Booked C s l) {isDirty r : Bool}
    (hok : s.unpinPage p isDirty = (r, s')) :
    Booked C s' (l.track s (.unpinPage p isDirty r)) := by
  have hu := h.frames.unpinned p isDirty
  rw [hok] at hu
  have hdisk : s'.diskManager = s.diskManager := hu.disk
  have hpins : ∀ q, s'.pins q = if q = p then s.pins p - 1 else s.pins q := hu.pins
  rcases unpinPage_inversion hok with ⟨hnone, rfl⟩ | ⟨f, hl, hs'⟩
  · -- No frame holds the page: the call returns and the ledger books nothing.
    simp only [Ledger.track, hnone]
    exact h
  · have hpages : s'.pages = Function.update s.pages f
        { s.pages f with
          isDirty := (s.pages f).isDirty || isDirty
          pinCount := (s.pages f).pinCount - 1 } := by rw [hs']
    have hfree : s'.freeList = s.freeList := by rw [hs']
    have htable : s'.pageTable = s.pageTable := by rw [hs']
    have hrep : s'.replacer =
        if (s.pages f).pinCount = 1 then s.replacer.unpin f else s.replacer := by rw [hs']
    have hvalid := (h.frames.pageId hl).1
    have hid := (h.frames.pageId hl).2
    have hclean : ∀ g, (s'.pages g).pageId = INVALID_PAGE_ID → (s'.pages g).isDirty = false := by
      intro g hg
      by_cases hgf : g = f
      · rw [hgf, hpages, Function.update_self] at hg
        exact absurd (hid.symm.trans hg) hvalid
      · rw [hpages, Function.update_of_ne hgf] at hg ⊢
        exact h.clean g hg
    have hresident : ∀ q g, s'.pageTable.lookup q = some g → l.issued q = true := by
      rw [htable]
      exact h.resident
    have hissued : ∀ q, l.issued q = true → C.Valid s'.diskManager q := by
      rw [hdisk]
      exact h.issued
    have hhome : ∀ q g, s'.pageTable.lookup q = some g → 0 < (s'.pages g).pinCount →
        l.home q = some g := by
      intro q g hq hpos
      rw [htable] at hq
      refine h.home q g hq ?_
      by_cases hgf : g = f
      · rw [hgf, hpages, Function.update_self] at hpos
        rw [hgf]
        exact lt_of_lt_of_le hpos (Nat.sub_le _ _)
      · rwa [hpages, Function.update_of_ne hgf] at hpos
    simp only [Ledger.track, hl]
    rw [pins_of_lookup hl] at hpins
    -- The source warns about an unpin at count zero and changes nothing but the dirty bit.
    by_cases hzero : (s.pages f).pinCount = 0
    · rw [if_pos hzero]
      have hsame : s'.replacer = s.replacer := by rw [hrep, if_neg (by omega)]
      refine ⟨hu.frames, hdisk ▸ h.disk, hclean, hresident, hissued, fun q => ?_, hhome,
        fun g => ?_, ?_, ?_⟩
      · rw [hpins q, h.pins q]
        by_cases hqp : q = p
        · rw [if_pos hqp, hqp, pins_of_lookup hl, hzero]
        · rw [if_neg hqp]
      · rw [hfree]
        exact h.unused g
      · rw [hsame]
        exact h.sorted
      · rw [hsame]
        exact h.past
    · rw [if_neg hzero]
      have hcount : ∀ q, (l.release p f (s.pages f).pinCount).acquired q =
          (l.release p f (s.pages f).pinCount).released q + s'.pins q := by
        intro q
        rw [hpins q]
        by_cases hqp : q = p
        · subst hqp
          have hq := h.pins q
          rw [pins_of_lookup hl] at hq
          simp only [Ledger.release, Function.update_self, if_true, hq]
          omega
        · simp only [Ledger.release, Function.update_of_ne hqp, if_neg hqp, h.pins q]
      have hunused : ∀ g, (l.release p f (s.pages f).pinCount).used g = false ↔
          g ∈ s'.freeList := by
        intro g
        rw [hfree]
        exact h.unused g
      by_cases hone : (s.pages f).pinCount = 1
      · have hout : f ∉ s.replacer.frames := fun hmem =>
          hzero (h.frames.queueInv.evict f hmem)
        rw [if_pos hone] at hrep
        have hjoin := h.join hout
        refine ⟨hu.frames, hdisk ▸ h.disk, hclean, hresident, hissued, hcount, hhome, hunused,
          ?_, ?_⟩
        · simp only [hrep, Ledger.release, if_pos hone]
          exact hjoin.1
        · simp only [hrep, Ledger.release, if_pos hone]
          exact hjoin.2
      · rw [if_neg hone] at hrep
        refine ⟨hu.frames, hdisk ▸ h.disk, hclean, hresident, hissued, hcount, hhome, hunused,
          ?_, ?_⟩
        · simp only [hrep, Ledger.release, if_neg hone]
          exact h.sorted
        · simp only [hrep, Ledger.release, if_neg hone]
          exact fun g hg => Nat.lt_succ_of_lt (h.past g hg)

/-- Flags and bytes are not in the ledger. -/
theorem Booked.congr (h : Booked C s l) (hdisk : C.Inv s'.diskManager)
    (hkeep : ∀ q, C.Valid s.diskManager q → C.Valid s'.diskManager q)
    (htable : s'.pageTable = s.pageTable) (hfree : s'.freeList = s.freeList)
    (hrep : s'.replacer = s.replacer)
    (hpages : ∀ g, (s'.pages g).pageId = (s.pages g).pageId ∧
      (s'.pages g).pinCount = (s.pages g).pinCount)
    (hclean : ∀ g, (s.pages g).isDirty = false → (s'.pages g).isDirty = false) :
    Booked C s' l where
  frames := h.frames.congr hfree hrep htable hpages
  disk := hdisk
  clean := fun g hg => hclean g (h.clean g ((hpages g).1.symm.trans hg))
  resident := by
    rw [htable]
    exact h.resident
  issued := fun p hp => hkeep p (h.issued p hp)
  pins := fun p => by
    have hsame : s'.pins p = s.pins p := by
      simp only [BufferPoolManager.pins, htable, hpages]
    rw [hsame]
    exact h.pins p
  home := fun p g hg hpos => by
    rw [htable] at hg
    rw [(hpages g).2] at hpos
    exact h.home p g hg hpos
  unused := fun f => by
    rw [hfree]
    exact h.unused f
  sorted := by
    rw [hrep]
    exact h.sorted
  past := by
    rw [hrep]
    exact h.past

theorem Booked.flushPage (h : Booked C s l) {r : Bool} (hok : s.flushPage p = .ok (r, s')) :
    Booked C s' l := by
  rcases flushPage_cases hok with ⟨_, rfl⟩ | ⟨f, dm, hl, hwrite, rfl⟩
  · exact h
  · rcases C.write h.disk (h.issued p (h.resident p f hl)) (s.pages f).data with
      ⟨dm₁, hwrite₁, hdm, hkeep⟩
    rw [hwrite] at hwrite₁
    obtain rfl := Except.ok.inj hwrite₁
    refine h.congr hdm hkeep rfl rfl rfl (fun g => ⟨field_update Page.pageId (by rfl) g,
      field_update Page.pinCount (by rfl) g⟩) fun g hg => ?_
    by_cases hgf : g = f
    · simp only [hgf, Function.update_self]
    · simpa only [Function.update_of_ne hgf] using hg

theorem Booked.step (h : Booked C s l) (hstep : CarefulLedgerStep (s, l) e (s', l')) :
    Booked C s' l' := by
  rcases hstep with ⟨hcareful, hallowed, hstep, hl'⟩
  simp only at hcareful hallowed hstep hl'
  subst hl'
  cases e with
  | fetchPage p r =>
      cases r with
      | none =>
          rw [show s' = s from fetchPage_null hstep]
          exact h
      | some f =>
          exact h.fetchPage hallowed hstep
  | newPage r =>
      cases r with
      | none =>
          rw [show s' = s from (h.frames.newPage_null hstep).1]
          exact h
      | some qf =>
          exact h.newPage hcareful hstep
  | unpinPage p isDirty r =>
      exact h.unpinPage hstep
  | flushPage p r =>
      exact h.flushPage hstep
  | deletePage p r =>
      exact absurd hallowed id
  | write f p data =>
      rcases hstep with ⟨_, rfl⟩
      refine h.congr h.disk (fun _ hq => hq) rfl rfl rfl
        (fun g => ⟨write_pageId s f g data, write_pinCount s f g data⟩) fun g hg => ?_
      rw [write_isDirty]
      exact hg

theorem run_booked {es : List (Event n)} {c c' : BufferPoolManager n D × Ledger n}
    (hrun : Run CarefulLedgerStep c es c') (hc : Booked C c.1 c.2) : Booked C c'.1 c'.2 := by
  refine hrun.invariant (P := fun c => Booked C c.1 c.2) ?_ hc
  rintro ⟨s, l⟩ e ⟨s', l'⟩ h hstep
  exact h.step hstep

end Booked

/-! ## The policy -/

/-- Frame `f` is the one to take: never used while there is such a frame, else the unpinned one
whose pin count dropped to zero longest ago. -/
structure Takes (s : BufferPoolManager n D) (l : Ledger n) (f : Fin n) : Prop where
  unused : (∃ g, l.used g = false) → l.used f = false
  oldest : (∀ g, l.used g = true) → (s.pages f).pinCount = 0 ∧
    ∀ g, (s.pages g).pinCount = 0 → g ≠ f → l.droppedAt f < l.droppedAt g

/-- What the pool does next, against the ledger. -/
structure Policy [Disk D] (s : BufferPoolManager n D) (l : Ledger n) : Prop where
  fetch_null_iff : ∀ p, l.issued p = true → s.pageTable.lookup p = none →
    ((∃ s', s.fetchPage p = .ok (none, s')) ↔ ∀ f, 0 < (s.pages f).pinCount)
  fetch_takes : ∀ p, l.issued p = true → s.pageTable.lookup p = none →
    (¬∀ f, 0 < (s.pages f).pinCount) → ∃ f s', s.fetchPage p = .ok (some f, s') ∧ Takes s l f
  new_null_iff : (∃ s', s.newPage = .ok (none, s')) ↔ ∀ f, 0 < (s.pages f).pinCount
  new_takes : ∀ q dm, Disk.allocatePage s.diskManager = .ok (q, dm) →
    (¬∀ f, 0 < (s.pages f).pinCount) → ∃ f s', s.newPage = .ok (some (q, f), s') ∧ Takes s l f
  pins : ∀ p, l.acquired p = l.released p + s.pins p
  frame_fixed : ∀ p, l.released p < l.acquired p → ∃ f, l.home p = some f ∧
    s.pageTable.lookup p = some f ∧ (s.pages f).pageId = p

section Policy

variable [Disk D] {C : DiskContract D} {l : Ledger n}

theorem Booked.takes (h : Booked C s l) (hpick : s.pickFrame = some (f, s₁)) : Takes s l f := by
  have hqueues := h.frames.queueInv
  rcases pickFrame_cases hpick with ⟨rest, hfree, _⟩ | ⟨hfree, r, hframes, _⟩
  · have hf : l.used f = false := (h.unused f).mpr (by simp [hfree])
    refine ⟨fun _ => hf, fun hall => ?_⟩
    rw [hall f] at hf
    cases hf
  · refine ⟨fun hex => ?_, fun _ => ⟨(hqueues.picks hpick).unpinned, fun g hg hgf => ?_⟩⟩
    · rcases hex with ⟨g, hg⟩
      have hmem := (h.unused g).mp hg
      rw [hfree] at hmem
      cases hmem
    · -- An unpinned frame is in the replacer, behind the victim.
      have hsorted := h.sorted
      rw [hframes, List.pairwise_cons] at hsorted
      refine hsorted.1 g ?_
      rcases hqueues.idle g hg with hmem | hmem
      · rw [hfree] at hmem
        cases hmem
      · rw [hframes] at hmem
        exact List.mem_of_ne_of_mem hgf hmem

/-- While a frame is not pinned, a page handed out before can be fetched. -/
theorem Booked.fetchPage_ok (h : Booked C s l) (hp : l.issued p = true)
    (hnone : s.pageTable.lookup p = none) (hpick : s.pickFrame = some (f, s₁)) :
    ∃ s', s.fetchPage p = .ok (some f, s') := by
  rcases pickFrame_rest hpick with ⟨hpages, _, hdisk⟩
  rcases DiskContract.writeBack_ok (s.pages f).data h.disk (h.dirty_valid (f := f)) with
    ⟨dm, hback⟩
  rcases DiskContract.writeBack h.disk h.dirty_valid hback with ⟨hdm, hkeep⟩
  rcases C.read hdm (hkeep p (h.issued p hp)) with ⟨data, dm', hread, _⟩
  simp only [BufferPoolManager.fetchPage, hnone, hpick, hpages, hdisk, hback, ok_bind, hread]
  exact ⟨_, rfl⟩

/-- While a frame is not pinned, `NewPage` returns the page the disk hands out. -/
theorem Booked.newPage_ok (h : Booked C s l) {dm : D} (hpick : s.pickFrame = some (f, s₁))
    (halloc : Disk.allocatePage s.diskManager = .ok (q, dm)) :
    ∃ s', s.newPage = .ok (some (q, f), s') := by
  rcases pickFrame_rest hpick with ⟨hpages, _, hdisk⟩
  have hsome : ¬∀ g, (s.pages g).pinCount ≠ 0 := fun hall =>
    hall f (h.frames.pickFrame_unpinned hpick)
  rcases C.allocate h.disk halloc with ⟨hdm, _, hkeep⟩
  rcases DiskContract.writeBack_ok (Buf.zero PAGE_SIZE) hdm
    (fun hd => hkeep _ (h.dirty_valid (f := f) hd)) with ⟨dm₂, hback⟩
  simp only [BufferPoolManager.newPage, hsome, if_false, hpick, hpages, hdisk, halloc, ok_bind,
    hback]
  exact ⟨_, rfl⟩

theorem Booked.policy (h : Booked C s l) : Policy s l where
  fetch_null_iff := by
    intro p _ hnone
    constructor
    · rintro ⟨s', hok⟩ f
      rw [fetchPage_null hok] at hok
      exact Nat.pos_of_ne_zero ((h.frames.fetchPage_none_iff.mp hok).2 f)
    · intro hall
      exact ⟨s, h.frames.fetchPage_none_iff.mpr ⟨hnone, fun f => (hall f).ne'⟩⟩
  fetch_takes := by
    intro p hp hnone hsome
    rcases not_forall.mp hsome with ⟨g, hg⟩
    rcases h.frames.queueInv.pickFrame_ok (Nat.eq_zero_of_not_pos hg) with ⟨f, s₁, hpick⟩
    rcases h.fetchPage_ok hp hnone hpick with ⟨s', hok⟩
    exact ⟨f, s', hok, h.takes hpick⟩
  new_null_iff := by
    constructor
    · rintro ⟨s', hok⟩ f
      exact Nat.pos_of_ne_zero ((h.frames.newPage_null hok).2 f)
    · intro hall
      have hpinned : ∀ f, (s.pages f).pinCount ≠ 0 := fun f => (hall f).ne'
      exact ⟨s, by simp only [BufferPoolManager.newPage, hpinned, ne_eq, not_false_eq_true,
        implies_true, if_true]⟩
  new_takes := by
    intro q dm halloc hsome
    rcases not_forall.mp hsome with ⟨g, hg⟩
    rcases h.frames.queueInv.pickFrame_ok (Nat.eq_zero_of_not_pos hg) with ⟨f, s₁, hpick⟩
    rcases h.newPage_ok hpick halloc with ⟨s', hok⟩
    exact ⟨f, s', hok, h.takes hpick⟩
  pins := h.pins
  frame_fixed := by
    intro p hheld
    have hpins := h.pins p
    cases hl : s.pageTable.lookup p with
    | none =>
        rw [pins_of_none hl] at hpins
        omega
    | some f =>
        rw [pins_of_lookup hl] at hpins
        exact ⟨f, h.home p f hl (by omega), rfl, (h.frames.pageId hl).2⟩

end Policy

end BufferPoolManager
end MiniSQL
