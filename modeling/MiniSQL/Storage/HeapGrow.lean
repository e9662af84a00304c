import MiniSQL.Buffer.Contents
import MiniSQL.Storage.TableIterator

/-!
# HeapGrow — inserting in a heap over any pool

`HeapInsert` follows `InsertTuple` while nothing is evicted.  Here the pool may evict pages: the
page the loop looks at is unpinned already, so `NewPage` can even take its frame, and then the new
page is linked to itself.
-/

namespace MiniSQL

open Lib

namespace BufferPoolManager

variable {n : Nat} {s s' s₁ : BufferPoolManager n} {f g : Fin n} {p q : PageId}

/-- The frames are in order, and so is the disk. -/
structure InOrder (s : BufferPoolManager n) : Prop where
  frames : FrameInv s
  disk : DiskManager.Inv s.diskManager

theorem InOrder.fetched (h : InOrder s) (hfetch : s.fetchPage p = .ok (some f, s')) :
    Fetched s p f s' :=
  h.frames.fetched h.disk hfetch

theorem Fetched.inOrder (h : Fetched s p f s') : InOrder s' :=
  ⟨h.frames, h.disk⟩

theorem InOrder.unpin (h : InOrder s) (p : PageId) (isDirty : Bool) :
    InOrder (s.unpinPage p isDirty).2 :=
  ⟨(h.frames.unpinned p isDirty).frames, by
    rw [(h.frames.unpinned p isDirty).disk]
    exact h.disk⟩

theorem InOrder.setBytes (h : InOrder s) (f : Fin n) (m : Mem) : InOrder (s.setBytes f m) :=
  ⟨h.frames.write f _, h.disk⟩

@[simp] theorem setBytes_pins (s : BufferPoolManager n) (f : Fin n) (m : Mem) (q : PageId) :
    (s.setBytes f m).pins q = s.pins q :=
  write_pins s f _ q

theorem Fetched.bytes_eq (h : Fetched s p f s') : s'.bytes f = (s.contents p).mem := by
  rw [bytes, h.data]

theorem Fetched.pageId (h : Fetched s p f s') : (s'.pages f).pageId = p :=
  (h.frames.pageId h.lookup).2

theorem Unpinned.bytes_eq (h : Unpinned s p s') (g : Fin n) : s'.bytes g = s.bytes g := by
  rw [bytes, bytes, h.data]

end BufferPoolManager

namespace TableHeap

open BufferPoolManager

variable {n : Nat} {s s' s₁ : BufferPoolManager n} {f g target : Fin n} {p q : PageId}
variable {schema : Schema} {row row' : Row} {fuel : Nat} {done : Bool}

/-- On a page that returns from `InsertTuple`, the row was taken exactly when there was room. -/
theorem insertTuple_done_iff {m m' : Mem} (hrow : row.HasSchema schema)
    (h : TablePage.insertTuple m row schema = .ok (done, row', m')) :
    done = true ↔ row.encode.length + TablePage.SIZE_TUPLE ≤ TablePage.getFreeSpaceRemaining m := by
  by_cases hroom : row.encode.length + TablePage.SIZE_TUPLE ≤ TablePage.getFreeSpaceRemaining m
  · refine iff_of_true ?_ hroom
    have hnot : ¬TablePage.getFreeSpaceRemaining m < row.encode.length + TablePage.SIZE_TUPLE :=
      Nat.not_lt.mpr hroom
    rcases bind_eq_ok.mp h with ⟨size, hsize, h⟩
    rw [Row.getSerializedSize_eq hrow] at hsize
    obtain rfl := Except.ok.inj hsize
    rcases bind_eq_ok.mp h with ⟨_, _, h⟩
    rw [if_neg hnot] at h
    simp only [hnot, and_false, if_false] at h
    split at h
    · rcases bind_eq_ok.mp h with ⟨⟨written, m₂⟩, _, h⟩
      rcases bind_eq_ok.mp h with ⟨_, _, h⟩
      simp only [Except.ok.injEq, Prod.mk.injEq] at h
      exact h.1.symm
    · cases h
  · refine iff_of_false ?_ hroom
    rw [TablePage.insertTuple_of_full hrow.count (Nat.lt_of_not_le hroom)] at h
    simp only [Except.ok.injEq, Prod.mk.injEq] at h
    rw [← h.1]
    exact Bool.false_ne_true

/-! ## A new page -/

/-- The pool after the page `q`, just made in frame `target` of `s₁`, was set up, linked behind
the page in frame `f` and given the row. -/
structure Linked (schema : Schema) (s₁ : BufferPoolManager n) (f : Fin n) (q : PageId)
    (target : Fin n) (row : Row) (s' : BufferPoolManager n) : Prop where
  frames : FrameInv s'
  table : s'.pageTable = s₁.pageTable
  disk : s'.diskManager = s₁.diskManager
  pins : ∀ p, s'.pins p = s₁.pins p
  isDirty : ∀ g, (s'.pages g).isDirty = (s₁.pages g).isDirty
  others : ∀ g, g ≠ f → g ≠ target → s'.pages g = s₁.pages g
  link : f ≠ target → ∀ j, j < PAGE_SIZE →
    s'.bytes f j = TablePage.setNextPageId (s₁.bytes f) q j
  page : TablePage.Represents schema q (s'.bytes target) [⟨row, false⟩]
  next : TablePage.getNextPageId (s'.bytes target) = if f = target then q else INVALID_PAGE_ID

theorem setBytes_isDirty (s : BufferPoolManager n) (f g : Fin n) (m : Mem) :
    ((s.setBytes f m).pages g).isDirty = (s.pages g).isDirty :=
  field_update Page.isDirty (by rfl) g

theorem nextPage_linked (hframes : FrameInv s₁) (hid : (s₁.pages target).pageId = q)
    (hvalid : q ≠ INVALID_PAGE_ID)
    (hlast : TablePage.getNextPageId (s.bytes f) = INVALID_PAGE_ID)
    (hnew : s.newPage = .ok (some (q, target), s₁)) (hrow : row.HasSchema schema)
    (hsize : row.encode.length ≤ TablePage.SIZE_MAX_ROW) :
    ∃ s', nextPage schema s f row = .ok (some (q, { row with rid := ⟨q, 0⟩ }), s') ∧
      Linked schema s₁ f q target row s' := by
  have hroom : row.encode.length + TablePage.SIZE_TUPLE ≤ 4072 := by
    simp only [TablePage.SIZE_MAX_ROW, TablePage.SIZE_TUPLE] at hsize ⊢
    omega
  rcases nextPage_makes hid hvalid hlast hnew hrow hroom with ⟨m, hok, hpage, hnext⟩
  refine ⟨_, hok, ((hframes.write _ _).write _ _).write _ _, rfl, rfl, fun p => ?_, fun g => ?_,
    fun g hg hgt => ?_, fun hft j hj => ?_, hpage, hnext⟩
  · rw [setBytes_pins, linked, setBytes_pins, setBytes_pins]
  · rw [setBytes_isDirty, linked, setBytes_isDirty, setBytes_isDirty]
  · rw [setBytes_other _ _ hgt, linked_other _ _ hg hgt]
  · rw [bytes_setBytes_ne m hft, linked_link hid hft hj]

/-- What the loop body does with the page it stands on when that page has no room. -/
theorem nextPage_cases {r : Option (PageId × Row)} (h : InOrder s) (hused : ResidentUsed s)
    (hrow : row.HasSchema schema) (hsize : row.encode.length ≤ TablePage.SIZE_MAX_ROW)
    (hok : nextPage schema s f row = .ok (r, s')) :
    (TablePage.getNextPageId (s.bytes f) ≠ INVALID_PAGE_ID ∧
        r = some (TablePage.getNextPageId (s.bytes f), row) ∧ s' = s) ∨
      (TablePage.getNextPageId (s.bytes f) = INVALID_PAGE_ID ∧ r = none ∧ s' = s ∧
        ∀ g, (s.pages g).pinCount ≠ 0) ∨
      (TablePage.getNextPageId (s.bytes f) = INVALID_PAGE_ID ∧ ∃ q target s₁,
        r = some (q, { row with rid := ⟨q, 0⟩ }) ∧ s.newPage = .ok (some (q, target), s₁) ∧
        Created s q target s₁ ∧ Linked schema s₁ f q target row s') := by
  by_cases hlast : TablePage.getNextPageId (s.bytes f) = INVALID_PAGE_ID
  · right
    rcases hnew : s.newPage with err | ⟨reply, s₁⟩
    · simp [nextPage, hlast, hnew] at hok
    · rcases reply with _ | ⟨q, target⟩
      · -- No page can be made: every frame is pinned.
        rcases h.frames.newPage_null hnew with ⟨rfl, hall⟩
        simp only [nextPage, hlast, ne_eq, not_true_eq_false, if_false, hnew, ok_bind,
          Except.ok.injEq, Prod.mk.injEq] at hok
        exact Or.inl ⟨hlast, hok.1.symm, hok.2.symm, hall⟩
      · have hc := h.frames.created h.disk hused hnew
        have hid := (hc.frames.pageId hc.lookup).2
        rcases nextPage_linked hc.frames hid (ne_INVALID_of_nonneg hc.valid) hlast hnew hrow hsize
          with ⟨s₂, heq, hlinked⟩
        rw [heq] at hok
        simp only [Except.ok.injEq, Prod.mk.injEq] at hok
        rcases hok with ⟨rfl, rfl⟩
        exact Or.inr ⟨hlast, q, target, s₁, rfl, rfl, hc, hlinked⟩
  · simp only [nextPage, hlast, ne_eq, not_false_eq_true, if_true, Except.ok.injEq,
      Prod.mk.injEq] at hok
    exact Or.inl ⟨hlast, hok.1.symm, hok.2.symm⟩

/-- How the loop of `InsertTuple` returns: from a page with room, because no page can be made, or
from the loop on the next page. -/
theorem insertLoop_inversion (hrow : row.HasSchema schema)
    (hok : insertLoop schema fuel s f row = .ok (some (done, row', s'))) :
    (Room s row f ∧ done = true ∧
        ∃ m, TablePage.insertTuple (s.bytes f) row schema = .ok (true, row', m) ∧
          s' = ((s.setBytes f m).unpinPage (s.pages f).pageId true).2) ∨
      (¬Room s row f ∧ done = false ∧ row' = row ∧
        nextPage schema s f row = .ok (none, s')) ∨
      (¬Room s row f ∧ ∃ fuel' q row₂ s₂ g s₃, fuel = fuel' + 1 ∧
        nextPage schema s f row = .ok (some (q, row₂), s₂) ∧
        s₂.fetchPage q = .ok (some g, s₃) ∧
        insertLoop schema fuel' (s₃.unpinPage (s₃.pages g).pageId false).2 g row₂ =
          .ok (some (done, row', s'))) := by
  -- The page takes the row exactly when it has room.
  by_cases hroom : Room s row f
  · unfold insertLoop at hok
    rcases bind_eq_ok.mp hok with ⟨⟨done₁, row₁, m⟩, hinsert, hrest⟩
    have hdone : done₁ = true := (insertTuple_done_iff hrow hinsert).mpr hroom
    subst hdone
    simp only [if_true, Except.ok.injEq, Option.some.injEq, Prod.mk.injEq, setBytes_pageId] at hrest
    rcases hrest with ⟨rfl, rfl, rfl⟩
    exact Or.inl ⟨hroom, rfl, m, hinsert, rfl⟩
  · right
    cases fuel with
    | zero =>
        rw [insertLoop_zero hrow hroom] at hok
        simp at hok
    | succ fuel =>
        unfold insertLoop at hok
        simp only [insertTuple_full hrow hroom, ok_bind, Bool.false_eq_true, if_false,
          setBytes_bytes] at hok
        rcases bind_eq_ok.mp hok with ⟨⟨next, s₂⟩, hnext, hrest⟩
        rcases next with _ | ⟨q, row₂⟩
        · simp only [Except.ok.injEq, Option.some.injEq, Prod.mk.injEq] at hrest
          rcases hrest with ⟨rfl, rfl, rfl⟩
          exact Or.inl ⟨hroom, rfl, rfl, hnext⟩
        · rcases bind_eq_ok.mp hrest with ⟨⟨reply, s₃⟩, hfetch, hrest⟩
          rcases bind_eq_ok.mp hrest with ⟨g, hderef, hrest⟩
          cases reply with
          | none =>
              cases hderef
          | some g' =>
              obtain rfl := Except.ok.inj hderef
              exact Or.inr ⟨hroom, fuel, q, row₂, s₂, g', s₃, rfl, hnext, hfetch, hrest⟩

end TableHeap
end MiniSQL
