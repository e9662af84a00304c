import MiniSQL.Page.SlotLayout
import MiniSQL.Storage.HeapGrow

/-!
# PinNeutral — the pins a heap operation leaves

A heap operation pins the pages it works on and should give every pin back.  `GetTuple` and
`Begin` do.  `UpdateTuple` and `ApplyDelete` return as soon as they have the page and keep it
pinned.  `MarkDelete` and `RollbackDelete` unpin the page the header names, `operator++` unpins the
page before the one it fetched last, and `InsertTuple` unpins the page of the row once more than it
fetched it.  `pin_neutral_iff` says for each operation when the counts come out even.
-/

namespace MiniSQL

open Lib

namespace BufferPoolManager

variable {n : Nat} {s s' s₁ : BufferPoolManager n} {f g : Fin n} {p q : PageId}

/-- Every page is pinned as often as before. -/
def PinNeutral (s s' : BufferPoolManager n) : Prop :=
  ∀ p, s'.pins p = s.pins p

theorem PinNeutral.trans {s'' : BufferPoolManager n} (h : PinNeutral s s')
    (h' : PinNeutral s' s'') : PinNeutral s s'' :=
  fun p => (h' p).trans (h p)

/-- A page that is fetched and given back. -/
structure Visited (s : BufferPoolManager n) (p : PageId) (f : Fin n) (s' : BufferPoolManager n) :
    Prop where
  order : InOrder s'
  lookup : s'.pageTable.lookup p = some f
  pageId : (s'.pages f).pageId = p
  bytes_eq : s'.bytes f = (s.contents p).mem
  neutral : PinNeutral s s'
  frame_pins : ∀ g, (s'.pages g).pinCount = (s.pages g).pinCount
  free : ∀ q, 0 ≤ q.toInt → s'.diskManager.isPageFree q = s.diskManager.isPageFree q
  resident : ∀ q g, s'.pageTable.lookup q = some g → q ≠ p → s.pageTable.lookup q = some g

theorem InOrder.visited (h : InOrder s) (hfetch : s.fetchPage p = .ok (some f, s₁))
    (isDirty : Bool) : Visited s p f (s₁.unpinPage p isDirty).2 := by
  have hf := h.fetched hfetch
  have hu := hf.frames.unpinned p isDirty
  have hlookup : (s₁.unpinPage p isDirty).2.pageTable.lookup p = some f := by
    rw [hu.table, hf.lookup]
  refine ⟨hf.inOrder.unpin p isDirty, hlookup, ?_, ?_, fun q => ?_, fun g => ?_, fun q hq => ?_,
    fun q g hq hne => ?_⟩
  · rw [hu.pageId, hf.pageId]
  · rw [hu.bytes_eq, hf.bytes_eq]
  · rw [hu.pins, hf.pins, hf.pins]
    by_cases hq : q = p
    · subst hq
      simp
    · simp [hq]
  · by_cases hgf : g = f
    · subst hgf
      have hcount := hu.pins p
      rw [if_pos rfl, pins_of_lookup hlookup, pins_of_lookup hf.lookup, hf.frame_pins] at hcount
      rw [hcount, Nat.add_sub_cancel]
    · have hne : s₁.pageTable.lookup p ≠ some g := by
        rw [hf.lookup]
        exact fun heq => hgf (Option.some.inj heq).symm
      rw [hu.others g hne, hf.others g hgf]
  · rw [hu.disk, hf.free q hq]
  · rw [hu.table] at hq
    exact hf.resident q g hq hne

theorem Visited.residentUsed (hv : Visited s p f s') (hused : ResidentUsed s) (hp : 0 ≤ p.toInt)
    (hfree : s.diskManager.isPageFree p = false) : ResidentUsed s' := by
  intro q g hq
  by_cases hqp : q = p
  · subst hqp
    exact ⟨hp, (hv.free q hp).trans hfree⟩
  · rcases hused q g (hv.resident q g hq hqp) with ⟨hpos, hnot⟩
    exact ⟨hpos, (hv.free q hpos).trans hnot⟩

end BufferPoolManager

namespace TablePage

variable {m m' : Mem} {rid : RowId}

theorem markDelete_pageId (m : Mem) (rid : RowId) :
    getTablePageId (markDelete m rid).2 = getTablePageId m :=
  pageId_congr fun _ hj => markDelete_header m rid (by omega)

theorem rollbackDelete_pageId (h : rollbackDelete m rid = .ok m') :
    getTablePageId m' = getTablePageId m :=
  pageId_congr fun _ hj => rollbackDelete_header h (by omega)

theorem getTablePageId_ofMem (m : Mem) :
    getTablePageId (Buf.ofMem PAGE_SIZE m).mem = getTablePageId m :=
  pageId_congr fun _ hj => Buf.mem_ofMem_of_lt (lt_trans hj (by decide))

end TablePage

namespace TableHeap

open BufferPoolManager

variable {n : Nat} {s s' s₁ : BufferPoolManager n} {f g : Fin n} {p q : PageId} {heap : TableHeap}
variable {rid : RowId}

/-! ## The operations on one page -/

theorem getTuple_neutral (h : InOrder s) {row row' : Row} {found : Bool}
    (hok : heap.getTuple s row = .ok (found, row', s')) : InOrder s' ∧ PinNeutral s s' := by
  rcases bind_eq_ok.mp hok with ⟨⟨reply, s₁⟩, hfetch, hrest⟩
  cases reply with
  | none =>
      simp only [Except.ok.injEq, Prod.mk.injEq] at hrest
      rcases hrest with ⟨_, _, rfl⟩
      rw [fetchPage_null hfetch]
      exact ⟨h, fun _ => rfl⟩
  | some f =>
      rcases bind_eq_ok.mp hrest with ⟨⟨found', row''⟩, _, hret⟩
      simp only [Except.ok.injEq, Prod.mk.injEq] at hret
      rcases hret with ⟨_, _, rfl⟩
      have hv := h.visited hfetch false
      exact ⟨hv.order, hv.neutral⟩

/-- The page cannot be had: it is not resident and all frames are pinned. -/
def Unavailable (s : BufferPoolManager n) (p : PageId) : Prop :=
  s.pageTable.lookup p = none ∧ ∀ g, (s.pages g).pinCount ≠ 0

/-- The header of the page names the page. -/
def NamesItself (s : BufferPoolManager n) (p : PageId) : Prop :=
  TablePage.getTablePageId (s.contents p).mem = p

/-- Fetching `p` and unpinning the page its header names. -/
theorem unpin_named_iff (h : InOrder s) (hfetch : s.fetchPage p = .ok (some f, s₁)) {m : Mem}
    (hm : TablePage.getTablePageId m = TablePage.getTablePageId (s₁.bytes f)) :
    PinNeutral s ((s₁.setBytes f m).unpinPage
        (TablePage.getTablePageId ((s₁.setBytes f m).bytes f)) true).2 ↔
      NamesItself s p := by
  have hf := h.fetched hfetch
  have hid : TablePage.getTablePageId ((s₁.setBytes f m).bytes f) =
      TablePage.getTablePageId (s.contents p).mem := by
    rw [← hf.bytes_eq, ← hm]
    simp only [bytes, setBytes, BufferPoolManager.write, setPage, Function.update_self]
    exact TablePage.getTablePageId_ofMem m
  have hu := (hf.inOrder.setBytes f m).frames.unpinned
    (TablePage.getTablePageId (s.contents p).mem) true
  rw [hid]
  constructor
  · -- The page keeps its new pin unless the header names it.
    intro hneutral
    by_contra hne
    have hp := hneutral p
    rw [hu.pins, if_neg fun heq => hne heq.symm, setBytes_pins, hf.pins, if_pos rfl] at hp
    omega
  · intro hself q
    rw [NamesItself] at hself
    rw [hu.pins, setBytes_pins, setBytes_pins, hf.pins, hf.pins, hself]
    by_cases hq : q = p
    · subst hq
      simp
    · simp [hq]

theorem markDelete_neutral_iff (h : InOrder s) {done : Bool}
    (hok : markDelete s rid = .ok (done, s')) :
    PinNeutral s s' ↔ NamesItself s rid.pageId ∨ Unavailable s rid.pageId := by
  rcases bind_eq_ok.mp hok with ⟨⟨reply, s₁⟩, hfetch, hrest⟩
  cases reply with
  | none =>
      simp only [Except.ok.injEq, Prod.mk.injEq] at hrest
      rcases hrest with ⟨_, rfl⟩
      have hs := fetchPage_null hfetch
      subst hs
      exact iff_of_true (fun _ => rfl) (Or.inr (h.frames.fetchPage_none_iff.mp hfetch))
  | some f =>
      simp only [Except.ok.injEq, Prod.mk.injEq] at hrest
      rcases hrest with ⟨_, rfl⟩
      have hiff := unpin_named_iff h hfetch (TablePage.markDelete_pageId (s₁.bytes f) rid)
      refine hiff.trans ⟨Or.inl, fun hcond => hcond.resolve_right fun hun => ?_⟩
      rw [h.frames.fetchPage_none_iff.mpr hun] at hfetch
      simp at hfetch

theorem rollbackDelete_neutral_iff (h : InOrder s) (hok : rollbackDelete s rid = .ok s') :
    PinNeutral s s' ↔ NamesItself s rid.pageId := by
  rcases bind_eq_ok.mp hok with ⟨⟨reply, s₁⟩, hfetch, hrest⟩
  cases reply with
  | none =>
      cases hrest
  | some f =>
      rcases bind_eq_ok.mp hrest with ⟨m, hroll, hret⟩
      rw [← Except.ok.inj hret]
      exact unpin_named_iff h hfetch (TablePage.rollbackDelete_pageId hroll)

theorem fetch_not_neutral (h : InOrder s) (hfetch : s.fetchPage p = .ok (some f, s₁)) :
    ¬PinNeutral s s₁ := by
  intro hneutral
  have hp := hneutral p
  rw [(h.fetched hfetch).pins, if_pos rfl] at hp
  omega

theorem updateTuple_not_neutral (h : InOrder s) {row : Row} {done : Bool}
    (hok : updateTuple s row rid = .ok (done, s')) : ¬PinNeutral s s' := by
  rcases bind_eq_ok.mp hok with ⟨⟨reply, s₁⟩, hfetch, hrest⟩
  cases reply with
  | none =>
      cases hrest
  | some f =>
      simp only [Except.ok.injEq, Prod.mk.injEq] at hrest
      rcases hrest with ⟨_, rfl⟩
      exact fetch_not_neutral h hfetch

theorem applyDelete_not_neutral (h : InOrder s) (hok : applyDelete s rid = .ok s') :
    ¬PinNeutral s s' := by
  rcases bind_eq_ok.mp hok with ⟨⟨reply, s₁⟩, hfetch, hrest⟩
  cases reply with
  | none =>
      cases hrest
  | some f =>
      simp only [Except.ok.injEq] at hrest
      rw [← hrest]
      exact fetch_not_neutral h hfetch

/-! ## Scanning -/

theorem findFirst_neutral (h : InOrder s) {fuel : Nat} {first : Option RowId}
    (hok : findFirst fuel s p = .ok (some (first, s'))) : InOrder s' ∧ PinNeutral s s' := by
  induction fuel generalizing s p with
  | zero =>
      unfold findFirst at hok
      split at hok
      · simp only [Except.ok.injEq, Option.some.injEq, Prod.mk.injEq] at hok
        rw [← hok.2]
        exact ⟨h, fun _ => rfl⟩
      · simp at hok
  | succ fuel ih =>
      unfold findFirst at hok
      split at hok
      · simp only [Except.ok.injEq, Option.some.injEq, Prod.mk.injEq] at hok
        rw [← hok.2]
        exact ⟨h, fun _ => rfl⟩
      · rcases bind_eq_ok.mp hok with ⟨⟨reply, s₁⟩, hfetch, hrest⟩
        rcases bind_eq_ok.mp hrest with ⟨f, hderef, hret⟩
        cases reply with
        | none =>
            cases hderef
        | some g =>
            obtain rfl := Except.ok.inj hderef
            -- The page is fetched and unpinned before the loop goes on.
            have hv := h.visited hfetch false
            simp only at hret
            split at hret
            · simp only [Except.ok.injEq, Option.some.injEq, Prod.mk.injEq] at hret
              rw [← hret.2]
              exact ⟨hv.order, hv.neutral⟩
            · rcases ih hv.order hret with ⟨horder, hneutral⟩
              exact ⟨horder, hv.neutral.trans hneutral⟩

theorem begin_neutral (h : InOrder s) {fuel : Nat} {it : TableIterator}
    (hok : heap.begin fuel s = .ok (some (it, s'))) : PinNeutral s s' := by
  rcases bind_eq_ok.mp hok with ⟨first, hfirst, hrest⟩
  rcases first with _ | ⟨headRID, s₁⟩
  · cases hrest
  · rcases findFirst_neutral h hfirst with ⟨horder, hneutral⟩
    cases headRID with
    | none =>
        simp only [Except.ok.injEq, Option.some.injEq, Prod.mk.injEq] at hrest
        rw [← hrest.2]
        exact hneutral
    | some headRID =>
        rcases bind_eq_ok.mp hrest with ⟨⟨_, row, s₂⟩, hget, hret⟩
        simp only [Except.ok.injEq, Option.some.injEq, Prod.mk.injEq] at hret
        rw [← hret.2]
        exact hneutral.trans (getTuple_neutral horder hget).2

/-- What the loop of `operator++` does from a page `c` that it holds pinned, when there is a page
behind it: it gives `c` back and ends up holding the page `r`, while its loop variable names the
page before. -/
structure Moved (s : BufferPoolManager n) (c r : PageId) (s' : BufferPoolManager n) : Prop where
  order : InOrder s'
  pins : ∀ x, s'.pins x + (if x = c then 1 else 0) = s.pins x + if x = r then 1 else 0

/-- One pass of the loop: the page behind `c` is pinned and `c` is not. -/
theorem moved_once (h : InOrder s) {c : PageId} (hpin : 1 ≤ s.pins c)
    (hfetch : (s.unpinPage c false).2.fetchPage q = .ok (some g, s₁)) : Moved s c q s₁ := by
  have hu := h.frames.unpinned c false
  have hf := (h.unpin c false).fetched hfetch
  refine ⟨hf.inOrder, fun x => ?_⟩
  rw [hf.pins, hu.pins]
  by_cases hx : x = c
  · subst hx
    simp only [if_true]
    omega
  · simp [hx]

/-- A page without a live tuple whose next page is itself is visited for ever. -/
theorem searchPages_loop (h : InOrder s) {c currPgId : PageId} {currPg : Fin n}
    (hl : s.pageTable.lookup c = some currPg)
    (hnext : TablePage.getNextPageId (s.bytes currPg) = c)
    (hnone : (TablePage.getFirstTupleRid (s.bytes currPg)).1 = false) (fuel : Nat) :
    searchPages fuel s currPg currPgId = .ok none := by
  have hid := h.frames.pageId hl
  induction fuel generalizing s currPgId with
  | zero =>
      simp only [searchPages, hnext, hid.1, if_false]
  | succ fuel ih =>
      have hu := h.frames.unpinned c false
      have hl₁ : (s.unpinPage c false).2.pageTable.lookup c = some currPg := by
        rw [hu.table, hl]
      rcases hfetch : (s.unpinPage c false).2.fetchPage c with err | ⟨reply, s₂⟩
      · simp [fetchPage, hl₁] at hfetch
      · -- The page is its own successor, so every pass fetches the same frame.
        have hreply : reply = some currPg := by
          simp only [fetchPage, hl₁, Except.ok.injEq, Prod.mk.injEq] at hfetch
          exact hfetch.1.symm
        subst hreply
        have hf := (h.unpin c false).fetched hfetch
        have hbytes : s₂.bytes currPg = s.bytes currPg := by
          rw [hf.bytes_eq, contents_of_lookup hl₁, hu.data]
          rfl
        rw [searchPages, if_neg (by rw [hnext]; exact hid.1)]
        simp only [hid.2, hu.bytes_eq, hnext, hfetch, ok_bind, deref, hbytes, hnone,
          Bool.false_eq_true, if_false]
        exact ih hf.inOrder hf.lookup (by rw [hbytes]; exact hnext) (by rw [hbytes]; exact hnone)
          ⟨hid.1, hf.pageId⟩

theorem searchPages_moves (h : InOrder s) {c currPgId last : PageId} {currPg : Fin n}
    {found : Option RowId} {fuel : Nat} (hl : s.pageTable.lookup c = some currPg)
    (hpin : 1 ≤ s.pins c) (hnext : TablePage.getNextPageId (s.bytes currPg) ≠ INVALID_PAGE_ID)
    (hok : searchPages fuel s currPg currPgId = .ok (some (found, last, s'))) :
    ∃ r, Moved s c r s' ∧ (r = last ↔ TablePage.getNextPageId (s.bytes currPg) = c) := by
  induction fuel generalizing s c currPg currPgId with
  | zero =>
      rw [searchPages, if_neg hnext] at hok
      simp at hok
  | succ fuel ih =>
      have hid := h.frames.pageId hl
      have hu := h.frames.unpinned c false
      rw [searchPages, if_neg hnext] at hok
      simp only [hid.2, hu.bytes_eq] at hok
      set q := TablePage.getNextPageId (s.bytes currPg) with hq
      rcases bind_eq_ok.mp hok with ⟨⟨reply, s₂⟩, hfetch, hrest⟩
      rcases bind_eq_ok.mp hrest with ⟨g, hderef, hret⟩
      cases reply with
      | none =>
          cases hderef
      | some g' =>
          obtain rfl := Except.ok.inj hderef
          have hmoved := moved_once h hpin hfetch
          have hf := (h.unpin c false).fetched hfetch
          split at hret
          · -- Found on the next page: the loop variable still names `c`.
            simp only [Except.ok.injEq, Option.some.injEq, Prod.mk.injEq] at hret
            rcases hret with ⟨_, rfl, rfl⟩
            exact ⟨q, hmoved, Iff.rfl⟩
          · rename_i hnotfound
            have hnone : (TablePage.getFirstTupleRid (s₂.bytes g')).1 = false := by
              simpa using hnotfound
            by_cases hend : TablePage.getNextPageId (s₂.bytes g') = INVALID_PAGE_ID
            · -- The chain ends there: the loop variable names `c` as well.
              unfold searchPages at hret
              rw [if_pos hend] at hret
              simp only [Except.ok.injEq, Option.some.injEq, Prod.mk.injEq] at hret
              rcases hret with ⟨_, rfl, rfl⟩
              exact ⟨q, hmoved, Iff.rfl⟩
            · have hpin₂ : 1 ≤ s₂.pins q := by
                rw [hf.pins, if_pos rfl]
                omega
              rcases ih hf.inOrder hf.lookup hpin₂ hend hret with ⟨r, hmoved₂, hiff⟩
              -- A page that was searched in vain is not its own next page, or the call would not
              -- have returned.
              have hnoloop : TablePage.getNextPageId (s₂.bytes g') ≠ q := by
                intro hself
                rw [searchPages_loop hf.inOrder hf.lookup hself hnone] at hret
                simp at hret
              refine ⟨r, ⟨hmoved₂.order, fun x => ?_⟩, iff_of_false (mt hiff.mp hnoloop) ?_⟩
              · have h₁ := hmoved.pins x
                have h₂ := hmoved₂.pins x
                omega
              · intro hqc
                have hl₁ : (s.unpinPage c false).2.pageTable.lookup q = some currPg := by
                  rw [hu.table, hqc, hl]
                have hbytes : s₂.bytes g' = s.bytes currPg := by
                  rw [hf.bytes_eq, contents_of_lookup hl₁, hu.data]
                  rfl
                exact hnoloop (by rw [hbytes])

/-- There is nothing behind the page of the row but what `operator++` finds on it. -/
def StaysOnPage (s : BufferPoolManager n) (rid : RowId) : Prop :=
  let m := (s.contents rid.pageId).mem
  (∃ nextRID, TablePage.getNextTupleRid m rid = .ok (true, nextRID)) ∨
    TablePage.getNextPageId m = INVALID_PAGE_ID ∨ TablePage.getNextPageId m = rid.pageId

/-- After the search, the tuple found is read and the loop variable is unpinned. -/
theorem next_inversion {fuel : Nat} {it it' : TableIterator}
    (hok : heap.next fuel s it = .ok (some (it', s'))) :
    ∃ row f s₁, it.row = some row ∧ s.fetchPage row.rid.pageId = .ok (some f, s₁) ∧
      ((∃ nextRID found row' s₂,
          TablePage.getNextTupleRid (s₁.bytes f) row.rid = .ok (true, nextRID) ∧
          heap.getTuple s₁ { row with rid := nextRID } = .ok (found, row', s₂) ∧
          s' = (s₂.unpinPage row.rid.pageId false).2) ∨
        ∃ nextRID found last s₂,
          TablePage.getNextTupleRid (s₁.bytes f) row.rid = .ok (false, nextRID) ∧
          searchPages fuel s₁ f row.rid.pageId = .ok (some (found, last, s₂)) ∧
          (s' = (s₂.unpinPage last false).2 ∨ ∃ rid done row' s₃, found = some rid ∧
            heap.getTuple s₂ ⟨rid, []⟩ = .ok (done, row', s₃) ∧
            s' = (s₃.unpinPage last false).2)) := by
  rcases bind_eq_ok.mp hok with ⟨row, hderef, hok⟩
  cases hrow : it.row with
  | none =>
      rw [hrow] at hderef
      cases hderef
  | some row₀ =>
      rw [hrow] at hderef
      obtain rfl := Except.ok.inj hderef
      rcases bind_eq_ok.mp hok with ⟨⟨reply, s₁⟩, hfetch, hok⟩
      cases reply with
      | none =>
          cases hok
      | some f =>
          rcases bind_eq_ok.mp hok with ⟨⟨isFound, nextRID⟩, hnext, hok⟩
          refine ⟨row₀, f, s₁, rfl, hfetch, ?_⟩
          -- The next tuple is on the same page, or the pages behind it are searched.
          cases isFound with
          | true =>
              rcases bind_eq_ok.mp hok with ⟨⟨found, row', s₂⟩, hget, hok⟩
              simp only [Except.ok.injEq, Option.some.injEq, Prod.mk.injEq] at hok
              exact Or.inl ⟨nextRID, found, row', s₂, hnext, hget, hok.2.symm⟩
          | false =>
              rcases bind_eq_ok.mp hok with ⟨found, hsearch, hok⟩
              rcases found with _ | ⟨_ | rid, last, s₂⟩
              · cases hok
              · simp only [Except.ok.injEq, Option.some.injEq, Prod.mk.injEq] at hok
                exact Or.inr ⟨nextRID, none, last, s₂, hnext, hsearch, Or.inl hok.2.symm⟩
              · rcases bind_eq_ok.mp hok with ⟨⟨done, row', s₃⟩, hget, hok⟩
                simp only [Except.ok.injEq, Option.some.injEq, Prod.mk.injEq] at hok
                exact Or.inr ⟨nextRID, some rid, last, s₂, hnext, hsearch,
                  Or.inr ⟨rid, done, row', s₃, rfl, hget, hok.2.symm⟩⟩

/-- Unpinning the page that was fetched gives the count back. -/
theorem unpin_fetched (hf : Fetched s p f s₁) {s₂ : BufferPoolManager n} (h₂ : InOrder s₂)
    (hsame : PinNeutral s₁ s₂) : PinNeutral s (s₂.unpinPage p false).2 := by
  intro q
  have hpins : ∀ q, s₂.pins q = s.pins q + if q = p then 1 else 0 := fun q =>
    (hsame q).trans (hf.pins q)
  rw [(h₂.frames.unpinned p false).pins, hpins, hpins]
  by_cases hq : q = p
  · subst hq
    simp
  · simp [hq]

theorem next_neutral_iff (h : InOrder s) {fuel : Nat} {it it' : TableIterator} {row : Row}
    (hrow : it.row = some row) (hok : heap.next fuel s it = .ok (some (it', s'))) :
    PinNeutral s s' ↔ StaysOnPage s row.rid := by
  rcases next_inversion hok with ⟨row₀, f, s₁, hrow₀, hfetch, hcases⟩
  rw [hrow] at hrow₀
  obtain rfl := Option.some.inj hrow₀
  have hf := h.fetched hfetch
  rcases hcases with ⟨nextRID, found, row', s₂, hnext, hget, rfl⟩ |
    ⟨nextRID, found, last, s₂, hnext, hsearch, hend⟩
  · rcases getTuple_neutral hf.inOrder hget with ⟨horder, hneutral⟩
    refine iff_of_true (unpin_fetched hf horder hneutral) (Or.inl ⟨nextRID, ?_⟩)
    rw [← hf.bytes_eq]
    exact hnext
  · -- Reading the tuple that was found changes no count.
    obtain ⟨s₃, h₃, hsame, rfl⟩ : ∃ s₃, (InOrder s₂ → InOrder s₃) ∧
        (InOrder s₂ → PinNeutral s₂ s₃) ∧ s' = (s₃.unpinPage last false).2 := by
      rcases hend with rfl | ⟨rid, done, row', s₃, _, hget, rfl⟩
      · exact ⟨s₂, id, fun _ _ => rfl, rfl⟩
      · exact ⟨s₃, fun h₂ => (getTuple_neutral h₂ hget).1, fun h₂ => (getTuple_neutral h₂ hget).2,
          rfl⟩
    have hnotfound : ¬∃ rid, TablePage.getNextTupleRid (s.contents row.rid.pageId).mem row.rid =
        .ok (true, rid) := by
      rintro ⟨rid, hfound⟩
      rw [hf.bytes_eq, hfound] at hnext
      simp at hnext
    rw [StaysOnPage, ← hf.bytes_eq] at *
    by_cases hlast : TablePage.getNextPageId (s₁.bytes f) = INVALID_PAGE_ID
    · unfold searchPages at hsearch
      rw [if_pos hlast] at hsearch
      simp only [Except.ok.injEq, Option.some.injEq, Prod.mk.injEq] at hsearch
      rcases hsearch with ⟨_, rfl, rfl⟩
      exact iff_of_true (unpin_fetched hf (h₃ hf.inOrder) (hsame hf.inOrder))
        (Or.inr (Or.inl hlast))
    · have hpin : 1 ≤ s₁.pins row.rid.pageId := by
        rw [hf.pins, if_pos rfl]
        omega
      rcases searchPages_moves hf.inOrder hf.lookup hpin hlast hsearch with ⟨r, hmoved, hiff⟩
      have hpins : ∀ x, (s₃.unpinPage last false).2.pins x =
          if x = last then s.pins x + (if x = r then 1 else 0) - 1
          else s.pins x + if x = r then 1 else 0 := by
        intro x
        have h₂ : ∀ y, s₃.pins y = s.pins y + if y = r then 1 else 0 := by
          intro y
          have hy := hmoved.pins y
          rw [hf.pins] at hy
          rw [hsame hmoved.order]
          omega
        rw [((h₃ hmoved.order).frames.unpinned last false).pins, h₂, h₂]
        by_cases hx : x = last
        · rw [if_pos hx, if_pos hx, hx]
        · rw [if_neg hx, if_neg hx]
      constructor
      · -- The page the loop holds last keeps its pin unless it is the one unpinned.
        intro hneutral
        have hr := hneutral r
        rw [hpins] at hr
        by_cases hrl : r = last
        · exact Or.inr (Or.inr (hiff.mp hrl))
        · rw [if_neg hrl, if_pos rfl] at hr
          omega
      · intro hcond x
        have hself := (hcond.resolve_left hnotfound).resolve_left hlast
        have hrl := hiff.mpr hself
        rw [hpins, hrl]
        by_cases hx : x = last
        · simp [hx]
        · simp [hx]

/-! ## InsertTuple -/

/-- The page can take the row and a slot. -/
def Takes (s : BufferPoolManager n) (row : Row) (p : PageId) : Prop :=
  row.encode.length + TablePage.SIZE_TUPLE ≤ TablePage.getFreeSpaceRemaining (s.contents p).mem

/-- The page behind `p`. -/
def behind (s : BufferPoolManager n) (p : PageId) : PageId :=
  TablePage.getNextPageId (s.contents p).mem

/-- From page `p` of pool `s` the search for room gets to page `q`; the pool is `s'` then, with
the pages on the way fetched and given back. -/
inductive Reaches (row : Row) : BufferPoolManager n → PageId → BufferPoolManager n → PageId → Prop
  | here (s : BufferPoolManager n) (p : PageId) : Reaches row s p s p
  | next {s s₁ s' : BufferPoolManager n} {f : Fin n} {p q : PageId} :
      s.fetchPage p = .ok (some f, s₁) → ¬Takes s row p → behind s p ≠ INVALID_PAGE_ID →
      Reaches row (s₁.unpinPage p false).2 (behind s p) s' q → Reaches row s p s' q

/-- When `InsertTuple` leaves the pins alone: the page that takes the row is pinned by nobody, and
when a page has to be made, the row fits on it twice or there is no frame for it. -/
def InsertBalanced (s : BufferPoolManager n) (row : Row) (p : PageId) : Prop :=
  ∀ s' q, Reaches row s p s' q →
    (Takes s' row q → s.pins q = 0) ∧
      (¬Takes s' row q → behind s' q = INVALID_PAGE_ID →
        2 * (row.encode.length + TablePage.SIZE_TUPLE) ≤ 4072 ∨ ∀ g, (s.pages g).pinCount ≠ 0)

/-- The pages of the heap, as far as the search looks at them, are allocated. -/
def ChainUsed (s : BufferPoolManager n) (row : Row) (p : PageId) : Prop :=
  ∀ s' q, Reaches row s p s' q → 0 ≤ q.toInt ∧ s.diskManager.isPageFree q = false

variable {row row' : Row} {schema : Schema} {fuel : Nat} {done : Bool}

theorem visited_room_iff (hv : Visited s p f s') : Room s' row f ↔ Takes s row p := by
  rw [Room, Takes, hv.bytes_eq]

theorem visited_next_eq (hv : Visited s p f s') :
    TablePage.getNextPageId (s'.bytes f) = behind s p := by
  rw [behind, hv.bytes_eq]

/-- A page that takes the row, or has nothing behind it, is where the search ends. -/
theorem Reaches.stops {s'' : BufferPoolManager n} (hreach : Reaches row s p s'' q)
    (hend : Takes s row p ∨ behind s p = INVALID_PAGE_ID) : s'' = s ∧ q = p := by
  cases hreach with
  | here =>
      exact ⟨rfl, rfl⟩
  | next _ hfull hnext _ =>
      rcases hend with htakes | hlast
      · exact absurd htakes hfull
      · exact absurd hlast hnext

theorem insertBalanced_of_takes (htakes : Takes s row p) :
    InsertBalanced s row p ↔ s.pins p = 0 := by
  constructor
  · exact fun h => (h s p (.here s p)).1 htakes
  · intro hpin s' q hreach
    rcases hreach.stops (Or.inl htakes) with ⟨rfl, rfl⟩
    exact ⟨fun _ => hpin, fun hnot => absurd htakes hnot⟩

theorem insertBalanced_of_last (hfull : ¬Takes s row p) (hlast : behind s p = INVALID_PAGE_ID) :
    InsertBalanced s row p ↔
      2 * (row.encode.length + TablePage.SIZE_TUPLE) ≤ 4072 ∨
        ∀ g, (s.pages g).pinCount ≠ 0 := by
  constructor
  · exact fun h => (h s p (.here s p)).2 hfull hlast
  · intro hcond s' q hreach
    rcases hreach.stops (Or.inr hlast) with ⟨rfl, rfl⟩
    exact ⟨fun htakes => absurd htakes hfull, fun _ _ => hcond⟩

/-- A page on the way asks for nothing: the pins are the same on the next page. -/
theorem insertBalanced_of_next (h : InOrder s) (hfetch : s.fetchPage p = .ok (some f, s₁))
    (hfull : ¬Takes s row p) (hnext : behind s p ≠ INVALID_PAGE_ID) :
    InsertBalanced s row p ↔ InsertBalanced (s₁.unpinPage p false).2 row (behind s p) := by
  have hv := h.visited hfetch false
  have hall : (∀ g, ((s₁.unpinPage p false).2.pages g).pinCount ≠ 0) ↔
      ∀ g, (s.pages g).pinCount ≠ 0 := by
    simp only [hv.frame_pins]
  constructor
  · intro hb s' q hreach
    rw [hv.neutral q, hall]
    exact hb s' q (.next hfetch hfull hnext hreach)
  · intro hb s' q hreach
    cases hreach with
    | here =>
        exact ⟨fun htakes => absurd htakes hfull, fun _ hlast => absurd hlast hnext⟩
    | next hfetch' _ _ hrest =>
        rw [hfetch] at hfetch'
        cases hfetch'
        have hq := hb s' q hrest
        rwa [hv.neutral q, hall] at hq

theorem ChainUsed.next (hchain : ChainUsed s row p) (h : InOrder s)
    (hfetch : s.fetchPage p = .ok (some f, s₁)) (hfull : ¬Takes s row p)
    (hnext : behind s p ≠ INVALID_PAGE_ID) :
    ChainUsed (s₁.unpinPage p false).2 row (behind s p) := by
  intro s' q hreach
  rcases hchain s' q (.next hfetch hfull hnext hreach) with ⟨hpos, hused⟩
  exact ⟨hpos, ((h.visited hfetch false).free q hpos).trans hused⟩

/-- The pool when the loop stands on the page `q` it has just made: `q` keeps the pin of
`NewPage`. -/
structure Grown (s : BufferPoolManager n) (row : Row) (q : PageId) (g : Fin n)
    (s' : BufferPoolManager n) : Prop where
  order : InOrder s'
  used : ResidentUsed s'
  lookup : s'.pageTable.lookup q = some g
  fresh : s.pageTable.lookup q = none
  valid : 0 ≤ q.toInt
  was_free : s.diskManager.isPageFree q = true
  free : ∀ r, 0 ≤ r.toInt → s'.diskManager.isPageFree r = true →
    s.diskManager.isPageFree r = true
  pins : ∀ r, s'.pins r = if r = q then 1 else s.pins r
  room_iff : ∀ rid, Room s' { row with rid := rid } g ↔
    2 * (row.encode.length + TablePage.SIZE_TUPLE) ≤ 4072
  next : TablePage.getNextPageId (s'.bytes g) = INVALID_PAGE_ID ∨
    TablePage.getNextPageId (s'.bytes g) = q

theorem grown {target : Fin n} {s₂ s₃ : BufferPoolManager n} (hused : ResidentUsed s)
    (hc : Created s q target s₁) (hlinked : Linked schema s₁ f q target row s₂)
    (hfetch : s₂.fetchPage q = .ok (some g, s₃)) :
    Grown s row q g (s₃.unpinPage (s₃.pages g).pageId false).2 := by
  have h₂ : InOrder s₂ := ⟨hlinked.frames, by rw [hlinked.disk]; exact hc.disk⟩
  have hf := h₂.fetched hfetch
  rw [hf.pageId]
  have hv := h₂.visited hfetch false
  have hl₂ : s₂.pageTable.lookup q = some target := by
    rw [hlinked.table, hc.lookup]
  have hbytes : (s₃.unpinPage q false).2.bytes g = s₂.bytes target := by
    rw [hv.bytes_eq, contents_of_lookup hl₂]
    rfl
  have hused₂ : ResidentUsed s₂ := by
    intro r h hr
    rw [hlinked.table] at hr
    rw [hlinked.disk]
    by_cases hrq : r = q
    · subst hrq
      exact ⟨hc.valid, hc.now_used⟩
    · rcases hused r h (hc.resident r h hr hrq) with ⟨hpos, hnot⟩
      exact ⟨hpos, (hc.free r hpos hrq).trans hnot⟩
  have hq₂ := hused₂ q target hl₂
  refine ⟨hv.order, hv.residentUsed hused₂ hc.valid hq₂.2, hv.lookup, hc.fresh, hc.valid,
    hc.was_free, fun r hr hfree => ?_, fun r => ?_, fun rid => ?_, ?_⟩
  · rw [hv.free r hr, hlinked.disk] at hfree
    by_cases hrq : r = q
    · rw [hrq]
      exact hc.was_free
    · rwa [hc.free r hr hrq] at hfree
  · rw [hv.neutral r, hlinked.pins r, hc.pins r]
  · -- The new page holds the row once; what is left decides about the second copy.
    have hrem := hlinked.page.remaining
    have hlen : TablePage.used [⟨row, false⟩] = row.encode.length := by
      simp [TablePage.used, Entry.size]
    rw [hlen] at hrem
    rw [Room, encode_length_rid, hbytes, hrem]
    have hfits := hlinked.page.fits
    rw [hlen] at hfits
    simp only [PAGE_SIZE, TablePage.SIZE_TABLE_PAGE_HEADER, TablePage.SIZE_TUPLE,
      List.length_singleton] at hfits ⊢
    omega
  · rw [hbytes, hlinked.next]
    split
    · exact Or.inr rfl
    · exact Or.inl rfl

/-- A row that does not fit twice on an empty page leaves the loop standing on a full page that is
pinned; when it returns, a page it made still is. -/
theorem insertLoop_stuck (h : InOrder s) (hused : ResidentUsed s)
    (hl : s.pageTable.lookup q = some f) (hpin : 1 ≤ s.pins q) (hrow : row.HasSchema schema)
    (hsize : row.encode.length ≤ TablePage.SIZE_MAX_ROW)
    (htwice : ¬2 * (row.encode.length + TablePage.SIZE_TUPLE) ≤ 4072) (hfull : ¬Room s row f)
    (hnext : TablePage.getNextPageId (s.bytes f) = INVALID_PAGE_ID ∨
      TablePage.getNextPageId (s.bytes f) = q)
    (hok : insertLoop schema fuel s f row = .ok (some (done, row', s'))) :
    ∃ r, 1 ≤ s'.pins r ∧ (r = q ∨ 0 ≤ r.toInt ∧ s.diskManager.isPageFree r = true) := by
  induction fuel generalizing s q f row with
  | zero =>
      rw [insertLoop_zero hrow hfull] at hok
      simp at hok
  | succ fuel ih =>
      rcases insertLoop_inversion hrow hok with ⟨hroom, _⟩ | ⟨_, _, _, hnone⟩ |
        ⟨_, fuel', q₂, row₂, s₂, g, s₃, hfuel, hstep, hfetch, hrest⟩
      · exact absurd hroom hfull
      · -- No frame is left, and the page stays pinned.
        rcases nextPage_cases h hused hrow hsize hnone with ⟨_, hr, _⟩ | ⟨_, _, rfl, _⟩ |
          ⟨_, _, _, _, hr, _⟩
        · cases hr
        · exact ⟨q, hpin, Or.inl rfl⟩
        · cases hr
      · obtain rfl : fuel = fuel' := by omega
        rcases nextPage_cases h hused hrow hsize hstep with ⟨hne, hr, rfl⟩ | ⟨_, hr, _⟩ |
          ⟨_, q₁, target, s₁, hr, _, hc, hlinked⟩
        · -- The page is its own next page.
          have hself := hnext.resolve_left hne
          rw [hself] at hr
          cases hr
          have hf := h.fetched hfetch
          have hv := h.visited hfetch false
          rw [hf.pageId] at hrest
          have hbytes : (s₃.unpinPage q false).2.bytes g = s₂.bytes f := by
            rw [hv.bytes_eq, contents_of_lookup hl]
            rfl
          have hq := hused q f hl
          refine (ih hv.order (hv.residentUsed hused hq.1 hq.2) hv.lookup ?_ hrow hsize htwice ?_ ?_
            hrest).imp fun r hr => ⟨hr.1, hr.2.imp_right fun hfree => ⟨hfree.1, ?_⟩⟩
          · rw [hv.neutral q]
            exact hpin
          · rw [Room, hbytes]
            exact hfull
          · rw [hbytes]
            exact hnext
          · rw [← hv.free r hfree.1]
            exact hfree.2
        · cases hr
        · cases hr
          have hg := grown hused hc hlinked hfetch
          have hpin' : 1 ≤ (s₃.unpinPage (s₃.pages g).pageId false).2.pins q₂ := by
            rw [hg.pins, if_pos rfl]
          have hlen : (Row.encode { row with rid := ⟨q₂, 0⟩ }).length = row.encode.length :=
            encode_length_rid row _
          have hrow' : Row.HasSchema { row with rid := ⟨q₂, 0⟩ } schema := hrow
          rcases ih hg.order hg.used hg.lookup hpin' hrow' (by rw [hlen]; exact hsize)
            (by rw [hlen]; exact htwice) (mt (hg.room_iff _).mp htwice) hg.next hrest with
            ⟨r, hrpin, rfl | ⟨hrpos, hrfree⟩⟩
          · exact ⟨r, hrpin, Or.inr ⟨hg.valid, hg.was_free⟩⟩
          · exact ⟨r, hrpin, Or.inr ⟨hrpos, hg.free r hrpos hrfree⟩⟩

theorem pins_of_free (hused : ResidentUsed s) (hfree : s.diskManager.isPageFree q = true) :
    s.pins q = 0 := by
  cases hl : s.pageTable.lookup q with
  | none =>
      exact pins_of_none hl
  | some g =>
      have hnot := (hused q g hl).2
      rw [hfree] at hnot
      cases hnot

/-- The rest of the loop on a page it made: the second copy of the row takes the pin off. -/
theorem grown_neutral_iff {s₂ s₄ : BufferPoolManager n} (hv : Visited s p f s₂)
    (hused : ResidentUsed s₂) (hg : Grown s₂ row q g s₄) (hrow : row.HasSchema schema)
    (hsize : row.encode.length ≤ TablePage.SIZE_MAX_ROW) {rid : RowId}
    (hok : insertLoop schema fuel s₄ g { row with rid := rid } = .ok (some (done, row', s'))) :
    PinNeutral s s' ↔ 2 * (row.encode.length + TablePage.SIZE_TUPLE) ≤ 4072 := by
  have hrow' : Row.HasSchema { row with rid := rid } schema := hrow
  have hlen : (Row.encode { row with rid := rid }).length = row.encode.length :=
    encode_length_rid row rid
  by_cases htwice : 2 * (row.encode.length + TablePage.SIZE_TUPLE) ≤ 4072
  · refine iff_of_true ?_ htwice
    have hroom := (hg.room_iff rid).mpr htwice
    rcases insertLoop_inversion hrow' hok with ⟨_, _, m, _, rfl⟩ | ⟨hfull, _⟩ | ⟨hfull, _⟩
    · have hid := (hg.order.frames.pageId hg.lookup).2
      have hu := (hg.order.setBytes g m).frames.unpinned q true
      intro r
      rw [hid, hu.pins, setBytes_pins, setBytes_pins, hg.pins, hg.pins, ← hv.neutral r]
      by_cases hr : r = q
      · subst hr
        rw [if_pos rfl, if_pos rfl, pins_of_none hg.fresh]
      · rw [if_neg hr, if_neg hr]
    · exact absurd hroom hfull
    · exact absurd hroom hfull
  · refine iff_of_false ?_ htwice
    intro hneutral
    have hpin : 1 ≤ s₄.pins q := by
      rw [hg.pins, if_pos rfl]
    rcases insertLoop_stuck hg.order hg.used hg.lookup hpin hrow' (by rw [hlen]; exact hsize)
      (by rw [hlen]; exact htwice) (mt (hg.room_iff rid).mp htwice) hg.next hok with
      ⟨r, hrpin, hr⟩
    -- The page that stays pinned was not there before.
    have hzero : s₂.pins r = 0 := by
      rcases hr with rfl | ⟨hrpos, hrfree⟩
      · exact pins_of_none hg.fresh
      · exact pins_of_free hused (hg.free r hrpos hrfree)
    have hsame := hneutral r
    rw [← hv.neutral r, hzero] at hsame
    omega

/-- The loop of `InsertTuple`, from a page `p` that was just fetched and given back. -/
theorem insertLoop_neutral_iff (h : InOrder s) (hused : ResidentUsed s)
    (hchain : ChainUsed s row p) (hrow : row.HasSchema schema)
    (hsize : row.encode.length ≤ TablePage.SIZE_MAX_ROW)
    (hfetch : s.fetchPage p = .ok (some f, s₁))
    (hok : insertLoop schema fuel (s₁.unpinPage p false).2 f row = .ok (some (done, row', s'))) :
    PinNeutral s s' ↔ InsertBalanced s row p := by
  induction fuel using Nat.strong_induction_on generalizing s s₁ p f row with
  | _ fuel ih =>
      have hv := h.visited hfetch false
      have hused' := hv.residentUsed hused (hchain s p (.here s p)).1 (hchain s p (.here s p)).2
      rcases insertLoop_inversion hrow hok with ⟨hroom, _, m, _, rfl⟩ | ⟨hfull, _, _, hnone⟩ |
        ⟨hfull, fuel', q₂, row₂, s₂, g, s₃, hfuel, hstep, hfetch₂, hrest⟩
      · -- The page is unpinned although the pin was given back before.
        have htakes := (visited_room_iff hv).mp hroom
        rw [insertBalanced_of_takes htakes, hv.pageId]
        have hu := (hv.order.setBytes f m).frames.unpinned p true
        constructor
        · intro hneutral
          have hp := hneutral p
          rw [hu.pins, if_pos rfl, setBytes_pins, hv.neutral p] at hp
          omega
        · intro hpin q
          rw [hu.pins, setBytes_pins, setBytes_pins, hv.neutral, hv.neutral]
          by_cases hq : q = p
          · subst hq
            rw [if_pos rfl, hpin]
          · rw [if_neg hq]
      · rw [visited_room_iff hv] at hfull
        rcases nextPage_cases hv.order hused' hrow hsize hnone with
          ⟨_, hr, _⟩ | ⟨hlast, _, rfl, hall⟩ | ⟨_, _, _, _, hr, _⟩
        · cases hr
        · rw [visited_next_eq hv] at hlast
          rw [insertBalanced_of_last hfull hlast]
          refine iff_of_true hv.neutral (Or.inr fun g => ?_)
          rw [← hv.frame_pins g]
          exact hall g
        · cases hr
      · rw [visited_room_iff hv] at hfull
        rcases nextPage_cases hv.order hused' hrow hsize hstep with ⟨hne, hr, rfl⟩ | ⟨_, hr, _⟩ |
          ⟨hlast, q₁, target, s₁', hr, _, hc, hlinked⟩
        · -- The next page of the chain.
          rw [visited_next_eq hv] at hne hr
          cases hr
          have hf₂ := hv.order.fetched hfetch₂
          rw [hf₂.pageId] at hrest
          rw [insertBalanced_of_next h hfetch hfull hne]
          have hchain' := hchain.next h hfetch hfull hne
          have hiff := ih fuel' (by omega) hv.order hused' hchain' hrow hsize hfetch₂ hrest
          rw [← hiff]
          exact ⟨fun hn q => (hn q).trans (hv.neutral q).symm, hv.neutral.trans⟩
        · cases hr
        · cases hr
          rw [visited_next_eq hv] at hlast
          rw [insertBalanced_of_last hfull hlast]
          have hg := grown hused' hc hlinked hfetch₂
          -- The frame that was taken is not pinned, so the row has to fit twice.
          have hnotall : ¬∀ g, (s.pages g).pinCount ≠ 0 := by
            intro hall
            apply hall target
            rw [← hv.frame_pins target]
            exact hc.unpinned
          rw [or_iff_left hnotall]
          exact grown_neutral_iff hv hused' hg hrow hsize hrest

theorem insertTuple_neutral_iff (h : InOrder s) (hused : ResidentUsed s)
    (hchain : ChainUsed s row heap.firstPageId) (hrow : row.HasSchema heap.schema)
    (hsize : row.encode.length ≤ TablePage.SIZE_MAX_ROW)
    (hok : heap.insertTuple fuel s row = .ok (some (done, row', s'))) :
    PinNeutral s s' ↔ InsertBalanced s row heap.firstPageId := by
  rcases bind_eq_ok.mp hok with ⟨⟨reply, s₁⟩, hfetch, hrest⟩
  rcases bind_eq_ok.mp hrest with ⟨f, hderef, hloop⟩
  cases reply with
  | none =>
      cases hderef
  | some g =>
      obtain rfl := Except.ok.inj hderef
      exact insertLoop_neutral_iff h hused hchain hrow hsize hfetch hloop

/-! ## All operations -/

/-- The operations of a heap that go through the pool. -/
inductive HeapCall
  | insertTuple (row : Row)
  | getTuple (row : Row)
  | markDelete (rid : RowId)
  | rollbackDelete (rid : RowId)
  | updateTuple (row : Row) (rid : RowId)
  | applyDelete (rid : RowId)
  | begin
  | next (it : TableIterator)

/-- The call returns and leaves the pool `s'`. -/
def HeapCall.Returns (heap : TableHeap) (s s' : BufferPoolManager n) : HeapCall → Prop
  | .insertTuple row => ∃ fuel done row', heap.insertTuple fuel s row = .ok (some (done, row', s'))
  | .getTuple row => ∃ found row', heap.getTuple s row = .ok (found, row', s')
  | .markDelete rid => ∃ done, TableHeap.markDelete s rid = .ok (done, s')
  | .rollbackDelete rid => TableHeap.rollbackDelete s rid = .ok s'
  | .updateTuple row rid => ∃ done, TableHeap.updateTuple s row rid = .ok (done, s')
  | .applyDelete rid => TableHeap.applyDelete s rid = .ok s'
  | .begin => ∃ fuel it, heap.begin fuel s = .ok (some (it, s'))
  | .next it => ∃ fuel it', heap.next fuel s it = .ok (some (it', s'))

/-- What an insertion starts from: a row of the table that fits on a page, and pages of the heap
and of the pool that are allocated on disk. -/
def HeapCall.Proper (heap : TableHeap) (s : BufferPoolManager n) : HeapCall → Prop
  | .insertTuple row => row.HasSchema heap.schema ∧ row.encode.length ≤ TablePage.SIZE_MAX_ROW ∧
      ResidentUsed s ∧ ChainUsed s row heap.firstPageId
  | _ => True

/-- When the pins come out even. -/
def HeapCall.Balanced (heap : TableHeap) (s : BufferPoolManager n) : HeapCall → Prop
  | .insertTuple row => InsertBalanced s row heap.firstPageId
  | .getTuple _ => True
  | .markDelete rid => NamesItself s rid.pageId ∨ Unavailable s rid.pageId
  | .rollbackDelete rid => NamesItself s rid.pageId
  | .updateTuple _ _ => False
  | .applyDelete _ => False
  | .begin => True
  | .next it => ∀ row, it.row = some row → StaysOnPage s row.rid

/-- In a pool whose frames are in order, whoever else has pages pinned, a heap operation that
returns leaves every pin count as it was if and only if it is balanced. -/
theorem pin_neutral_iff {call : HeapCall} (hpool : InOrder s) (hproper : call.Proper heap s)
    (hret : call.Returns heap s s') : PinNeutral s s' ↔ call.Balanced heap s := by
  -- `UpdateTuple` and `ApplyDelete` never give back the pin they take.
  cases call with
  | insertTuple row =>
      rcases hproper with ⟨hrow, hsize, hused, hchain⟩
      rcases hret with ⟨fuel, done, row', hok⟩
      exact insertTuple_neutral_iff hpool hused hchain hrow hsize hok
  | getTuple row =>
      rcases hret with ⟨found, row', hok⟩
      exact iff_of_true (getTuple_neutral hpool hok).2 trivial
  | markDelete rid =>
      rcases hret with ⟨done, hok⟩
      exact markDelete_neutral_iff hpool hok
  | rollbackDelete rid =>
      exact rollbackDelete_neutral_iff hpool hret
  | updateTuple row rid =>
      rcases hret with ⟨done, hok⟩
      exact iff_of_false (updateTuple_not_neutral hpool hok) id
  | applyDelete rid =>
      exact iff_of_false (applyDelete_not_neutral hpool hret) id
  | begin =>
      rcases hret with ⟨fuel, it, hok⟩
      exact iff_of_true (begin_neutral hpool hok) trivial
  | next it =>
      rcases hret with ⟨fuel, it', hok⟩
      rcases next_inversion hok with ⟨row, _, _, hrow, _⟩
      refine (next_neutral_iff hpool hrow hok).trans
        ⟨fun hstay row' hrow' => ?_, fun h => h row hrow⟩
      rw [hrow] at hrow'
      exact Option.some.inj hrow' ▸ hstay

/-- Where all pages of the chain are resident the search does not change them. -/
theorem ChainInv.reaches {fs : List (Fin n)} (hc : ChainInv schema s p fs)
    (hreach : Reaches row s p s' q) :
    SameStore s s' ∧ ∃ f ∈ fs, s.pageTable.lookup q = some f := by
  induction hreach generalizing fs with
  | here s p =>
      rcases hc.chain.ne_nil with ⟨f, rest, rfl⟩
      exact ⟨SameStore.refl s, f, by simp, hc.chain.head⟩
  | @next s s₁ s' f p q hfetch _ hnext _ ih =>
      rcases hc.chain.ne_nil with ⟨g, rest, rfl⟩
      have hl := hc.chain.head
      rcases hc.pool.fetchPage_resident hl with ⟨s₂, hfetch₂, hpool₂, hsame₂⟩
      rw [hfetch, Except.ok.injEq, Prod.mk.injEq] at hfetch₂
      rcases hfetch₂ with ⟨hfg, rfl⟩
      obtain rfl := Option.some.inj hfg
      have hl₁ : s₁.pageTable.lookup p = some f := by
        rw [hsame₂.table, hl]
      rcases hpool₂.unpinPage_resident hl₁ false with ⟨hpool₃, hsame₃⟩
      have hsame := hsame₂.trans hsame₃
      have hbehind : behind s p = TablePage.getNextPageId (s.bytes f) := by
        rw [behind, contents_of_lookup hl]
        rfl
      rw [hbehind] at hnext ih
      cases hc.chain with
      | last _ hlast =>
          exact absurd hlast hnext
      | cons _ _ hrest =>
          have htail : ChainInv schema s (TablePage.getNextPageId (s.bytes f)) rest :=
            ⟨hc.pool, hrest, fun g hg => hc.pages g (List.mem_cons_of_mem _ hg)⟩
          rcases ih (htail.same hpool₃ hsame) with ⟨hsame', g, hg, hq⟩
          rw [hsame.table] at hq
          exact ⟨hsame.trans hsame', g, List.mem_cons_of_mem _ hg, hq⟩

theorem ChainInv.chainUsed {fs : List (Fin n)} (hc : ChainInv schema s p fs) (row : Row) :
    ChainUsed s row p := by
  intro s' q hreach
  rcases hc.reaches hreach with ⟨_, f, _, hl⟩
  exact hc.pool.allocated q f hl

/-- No page has room and the row fits twice on a new one. -/
theorem ChainInv.insertBalanced {fs : List (Fin n)} (hc : ChainInv schema s p fs)
    (hfull : ∀ f ∈ fs, ¬Room s row f)
    (htwo : 2 * (row.encode.length + TablePage.SIZE_TUPLE) ≤ 4072) : InsertBalanced s row p := by
  intro s' q hreach
  rcases hc.reaches hreach with ⟨hsame, f, hf, hl⟩
  refine ⟨fun htakes => absurd ?_ (hfull f hf), fun _ _ => Or.inl htwo⟩
  have hl' : s'.pageTable.lookup q = some f := by
    rw [hsame.table, hl]
  rw [Takes, contents_of_lookup hl', hsame.data] at htakes
  exact htakes

/-- A client holds the first page of a heap of two full pages.  An insertion that has to make a
third page leaves that pin alone. -/
theorem pin_neutral_iff_insertTuple :
    ∃ (s s' : BufferPoolManager 3) (f g : Fin 3) (row' : Row), InOrder s ∧ ResidentUsed s ∧
      Chain s charHeap.firstPageId [f, g] ∧ 0 < s.pins charHeap.firstPageId ∧
      charHeap.insertTuple 2 s (charRow 2000) = .ok (some (true, row', s')) ∧ PinNeutral s s' := by
  rcases sample_full with ⟨s₁, _, hc₁, hfull₁, hfree₁, hdense₁⟩
  have hrow : (charRow 2000).HasSchema charSchema := charRow_hasSchema (by decide)
  have hsize := charRow_size (k := 2000) (by decide)
  have htwo : 2 * ((charRow 2000).encode.length + TablePage.SIZE_TUPLE) ≤ 4072 := by
    rw [hsize]
    decide
  have hall₁ : ∀ f ∈ [(0 : Fin 3)], ¬Room s₁ (charRow 2000) f := by
    intro f hf
    rw [List.mem_singleton.mp hf]
    exact hfull₁
  -- The second page gets the row twice.
  rcases hdense₁.allocatePage_ok (by decide) with ⟨dm₁, halloc₁, hdense₂⟩
  rcases insertTuple_returns hc₁ hrow hall₁ htwo hfree₁ halloc₁ with ⟨row₁, s₂, hok₁⟩
  rcases insertTuple_true hc₁ hrow (by rw [hsize]; decide) (by rw [hfree₁]; decide) hok₁ with
    ⟨g, hg, hroom, _⟩ | ⟨_, _, l, hl, q, g, s₃, rid, hgrows, hputs⟩
  · exact absurd hroom (hall₁ g hg)
  · obtain rfl := List.mem_singleton.mp hl
    have hc₂ : ChainInv charHeap.schema s₂ charHeap.firstPageId [0, g] :=
      hputs.chainInv (hgrows.chainInv hc₁ hl)
    have hempty : (1 : Fin 3) = g ∧ [2] = s₃.freeList := by
      simpa only [hfree₁, List.cons.injEq] using hgrows.free
    rcases hempty with ⟨rfl, hfree₃⟩
    have hdisk := hgrows.disk
    rw [halloc₁, Except.ok.injEq, Prod.mk.injEq] at hdisk
    -- Neither page has room now.
    have hfull₂ : ∀ f ∈ [(0 : Fin 3), 1], ¬Room s₂ (charRow 2000) f := by
      intro f hf hroom
      simp only [List.mem_cons, List.not_mem_nil, or_false] at hf
      rcases hf with rfl | rfl
      · rcases hc₁.pages 0 (by simp) with ⟨es, hrep⟩
        rw [Room, hputs.other 0 (by decide), (hgrows.kept es hrep).remaining,
          ← hrep.remaining] at hroom
        exact hfull₁ hroom
      · have hrem := hputs.remaining
        rw [encode_length_rid, hgrows.page.remaining] at hrem
        rw [Room] at hroom
        simp [TablePage.used, Entry.size, hsize, PAGE_SIZE, TablePage.SIZE_TUPLE] at hrem hroom
        omega
    -- Then the client fetches the first page.
    rcases hc₂.pool.fetchPage_resident hc₂.chain.head with ⟨s₄, hfetch, hpool₄, hsame⟩
    have hc₄ := hc₂.same hpool₄ hsame
    have hfull₄ : ∀ f ∈ [(0 : Fin 3), 1], ¬Room s₄ (charRow 2000) f := fun f hf hroom =>
      hfull₂ f hf ((Room.congr hsame).mp hroom)
    have horder : InOrder s₄ := ⟨hpool₄.frames, hpool₄.disk⟩
    have horder₂ : InOrder s₂ := ⟨hc₂.pool.frames, hc₂.pool.disk⟩
    have hpins := (horder₂.fetched hfetch).pins charHeap.firstPageId
    rcases hdense₂.allocatePage_ok (by decide) with ⟨dm₂, halloc₂, _⟩
    rw [hdisk.2, ← hputs.disk, ← hsame.disk] at halloc₂
    rcases insertTuple_returns hc₄ hrow hfull₄ htwo
      (hsame.free.trans (hputs.free.trans hfree₃.symm)) halloc₂ with ⟨row', s', hok⟩
    have hret : (HeapCall.insertTuple (charRow 2000)).Returns charHeap s₄ s' := ⟨_, _, _, hok⟩
    have hproper : (HeapCall.insertTuple (charRow 2000)).Proper charHeap s₄ :=
      ⟨hrow, by rw [hsize]; decide, hpool₄.allocated, hc₄.chainUsed _⟩
    refine ⟨s₄, s', 0, 1, row', horder, hpool₄.allocated, hc₄.chain, ?_, hok,
      (pin_neutral_iff horder hproper hret).mpr (hc₄.insertBalanced hfull₄ htwo)⟩
    rw [hpins, if_pos rfl]
    exact Nat.succ_pos _

/-- `UpdateTuple` on a page of a new heap leaves the page pinned. -/
theorem updateTuple_keeps_pin :
    ∃ s s' : BufferPoolManager 3, Reachable charHeap s ∧ InOrder s ∧
      TableHeap.updateTuple s (charRow 5) ⟨0, 0⟩ = .ok (false, s') ∧
      s'.pins 0 = s.pins 0 + 1 ∧ ¬PinNeutral s s' := by
  rcases sample_create with ⟨s, hreach, hc, _, _, _⟩
  have horder : InOrder s := ⟨hc.pool.frames, hc.pool.disk⟩
  rcases hc.pool.fetchPage_resident hc.chain.head with ⟨s₁, hfetch, _, _⟩
  have hfetch' : s.fetchPage 0 = .ok (some 0, s₁) := hfetch
  refine ⟨s, s₁, hreach, horder, ?_, (horder.fetched hfetch').pins 0,
    fetch_not_neutral horder hfetch'⟩
  simp only [TableHeap.updateTuple, hfetch', ok_bind]

end TableHeap
end MiniSQL
