import MiniSQL.Buffer.Queues

/-!
# Pins — how often each page is pinned

The pin count of a page is that of its frame, and zero when it is not resident.  What a call does to
it does not depend on the disk below the pool.
-/

namespace MiniSQL
namespace BufferPoolManager

open Lib

variable {n : Nat} {D : Type} {s s' : BufferPoolManager n D} {f g : Fin n} {p q : PageId}

/-- The pin count of a page; a page that is not resident is not pinned. -/
def pins (s : BufferPoolManager n D) (p : PageId) : Nat :=
  match s.pageTable.lookup p with
  | some f => (s.pages f).pinCount
  | none => 0

theorem pins_of_lookup (h : s.pageTable.lookup p = some f) : s.pins p = (s.pages f).pinCount := by
  rw [pins, h]

theorem pins_of_none (h : s.pageTable.lookup p = none) : s.pins p = 0 := by
  rw [pins, h]

/-! ## One frame changes -/

theorem TableInv.pins_touch (hinv : TableInv s) (hl : s.pageTable.lookup p = some f) (page : Page)
    (hpages : s'.pages = Function.update s.pages f page) (htable : s'.pageTable = s.pageTable)
    (q : PageId) : s'.pins q = if q = p then page.pinCount else s.pins q := by
  by_cases hq : q = p
  · subst hq
    rw [if_pos rfl, pins_of_lookup (htable ▸ hl), hpages, Function.update_self]
  · rw [if_neg hq]
    cases hs : s.pageTable.lookup q with
    | none =>
        rw [pins_of_none hs, pins_of_none (htable ▸ hs)]
    | some g =>
        rw [pins_of_lookup hs, pins_of_lookup (htable ▸ hs), hpages,
          Function.update_of_ne (hinv.frame_ne hl hs hq)]

/-- Nobody pins the page that gives its frame away, so only the new page sees its count change. -/
theorem TableInv.pins_load (hinv : TableInv s) (page : Page) (hpin : (s.pages f).pinCount = 0)
    (hpages : s'.pages = Function.update s.pages f page)
    (htable : s'.pageTable = (s.pageTable.erase (s.pages f).pageId).insert p f) (q : PageId) :
    s'.pins q = if q = p then page.pinCount else s.pins q := by
  by_cases hq : q = p
  · subst hq
    have hl : s'.pageTable.lookup q = some f := by
      rw [htable, AList.lookup_insert]
    rw [if_pos rfl, pins_of_lookup hl, hpages, Function.update_self]
  · rw [if_neg hq]
    have hl := lookup_load htable (q := q)
    rw [if_neg hq] at hl
    by_cases hold : q = (s.pages f).pageId
    · -- The page that was in the frame is not resident any more.
      rw [if_pos hold] at hl
      rw [pins_of_none hl]
      cases hs : s.pageTable.lookup q with
      | none =>
          exact (pins_of_none hs).symm
      | some g =>
          have hid := (hinv q g).mp hs
          have hgf : g = f := hinv.inj hid.1 hid.2 hold.symm
          rw [pins_of_lookup hs, hgf, hpin]
    · rw [if_neg hold] at hl
      cases hs : s.pageTable.lookup q with
      | none =>
          rw [hs] at hl
          rw [pins_of_none hl, pins_of_none hs]
      | some g =>
          rw [hs] at hl
          have hgf : g ≠ f := by
            rintro rfl
            exact hold ((hinv q g).mp hs).2.symm
          rw [pins_of_lookup hl, pins_of_lookup hs, hpages, Function.update_of_ne hgf]

/-! ## UnpinPage and stores -/

/-- What `UnpinPage` does: pin counts never go below zero. -/
structure Unpinned (s : BufferPoolManager n D) (p : PageId) (s' : BufferPoolManager n D) :
    Prop where
  frames : FrameInv s'
  disk : s'.diskManager = s.diskManager
  table : s'.pageTable = s.pageTable
  pageId : ∀ g, (s'.pages g).pageId = (s.pages g).pageId
  data : ∀ g, (s'.pages g).data = (s.pages g).data
  pins : ∀ q, s'.pins q = if q = p then s.pins p - 1 else s.pins q
  others : ∀ g, s.pageTable.lookup p ≠ some g → s'.pages g = s.pages g

theorem FrameInv.unpinned (hinv : FrameInv s) (p : PageId) (isDirty : Bool) :
    Unpinned s p (s.unpinPage p isDirty).2 := by
  rcases hu : s.unpinPage p isDirty with ⟨done, s'⟩
  rcases unpinPage_inversion hu with ⟨hnone, rfl⟩ | ⟨f, hl, hs'⟩
  · refine ⟨hinv, rfl, rfl, fun _ => rfl, fun _ => rfl, fun q => ?_, fun _ _ => rfl⟩
    by_cases hq : q = p
    · subst hq
      rw [if_pos rfl, pins_of_none hnone]
    · rw [if_neg hq]
  · set page : Page :=
      { s.pages f with
        isDirty := (s.pages f).isDirty || isDirty
        pinCount := (s.pages f).pinCount - 1 } with hpage
    have hpages : s'.pages = Function.update s.pages f page := by rw [hs']
    have htable : s'.pageTable = s.pageTable := by rw [hs']
    refine ⟨?_, by rw [hs'], htable, fun g => ?_, fun g => ?_, fun q => ?_, fun g hg => ?_⟩
    · rw [hs']
      exact hinv.unpin hl _
    · rw [hpages]
      exact field_update Page.pageId (by rfl) g
    · rw [hpages]
      exact field_update Page.data (by rfl) g
    · rw [hinv.tableInv.pins_touch hl page hpages htable, pins_of_lookup hl]
    · rw [hpages, Function.update_of_ne]
      rintro rfl
      exact hg hl

@[simp] theorem write_pageTable (s : BufferPoolManager n D) (f : Fin n) (data : PageData) :
    (s.write f data).pageTable = s.pageTable := rfl

@[simp] theorem write_pageId (s : BufferPoolManager n D) (f g : Fin n) (data : PageData) :
    ((s.write f data).pages g).pageId = (s.pages g).pageId :=
  field_update Page.pageId (by rfl) g

@[simp] theorem write_pinCount (s : BufferPoolManager n D) (f g : Fin n) (data : PageData) :
    ((s.write f data).pages g).pinCount = (s.pages g).pinCount :=
  field_update Page.pinCount (by rfl) g

@[simp] theorem write_isDirty (s : BufferPoolManager n D) (f g : Fin n) (data : PageData) :
    ((s.write f data).pages g).isDirty = (s.pages g).isDirty :=
  field_update Page.isDirty (by rfl) g

theorem write_ne (s : BufferPoolManager n D) (data : PageData) (hg : g ≠ f) :
    (s.write f data).pages g = s.pages g :=
  Function.update_of_ne hg _ _

@[simp] theorem write_pins (s : BufferPoolManager n D) (f : Fin n) (data : PageData) (q : PageId) :
    (s.write f data).pins q = s.pins q := by
  unfold pins
  rw [write_pageTable]
  cases s.pageTable.lookup q with
  | none =>
      rfl
  | some g =>
      exact write_pinCount s f g data

theorem FrameInv.write (hinv : FrameInv s) (f : Fin n) (data : PageData) :
    FrameInv (s.write f data) :=
  hinv.congr rfl rfl rfl fun g => ⟨write_pageId s f g data, write_pinCount s f g data⟩

/-! ## Calls that keep every pin count -/

section Disk

variable [Disk D]

/-- `FetchPage` returns null for a page that is not resident while all frames are pinned. -/
theorem FrameInv.fetchPage_none_iff (hinv : FrameInv s) :
    s.fetchPage p = .ok (none, s) ↔
      s.pageTable.lookup p = none ∧ ∀ g, (s.pages g).pinCount ≠ 0 := by
  constructor
  · intro h
    unfold fetchPage at h
    split at h
    · rename_i hnone
      split at h
      · rename_i hpick
        exact ⟨hnone, hinv.pickFrame_none hpick⟩
      · rcases bind_eq_ok.mp h with ⟨dm, _, h⟩
        rcases bind_eq_ok.mp h with ⟨data, _, h⟩
        simp at h
    · simp at h
  · rintro ⟨hnone, hall⟩
    have hpick : s.pickFrame = none := by
      cases hp : s.pickFrame with
      | none =>
          rfl
      | some fs =>
          rcases fs with ⟨f, s₁⟩
          exact absurd (hinv.pickFrame_unpinned hp) (hall f)
    simp only [fetchPage, hnone, hpick]

theorem fetchPage_null (h : s.fetchPage p = .ok (none, s')) : s' = s := by
  rcases fetchPage_cases h with ⟨_, rfl⟩ | ⟨g, hg, _⟩ | ⟨g, _, _, _, _, hg, _⟩
  · rfl
  · cases hg
  · cases hg

theorem flushPage_pins {r : Bool} (hok : s.flushPage p = .ok (r, s')) (q : PageId) :
    s'.pins q = s.pins q := by
  rcases flushPage_cases hok with ⟨_, rfl⟩ | ⟨f, dm, hl, _, hs'⟩
  · rfl
  · have htable : s'.pageTable = s.pageTable := by rw [hs']
    have hpins : ∀ g, (s'.pages g).pinCount = (s.pages g).pinCount := by
      intro g
      rw [hs']
      exact field_update Page.pinCount (by rfl) g
    simp only [pins, htable, hpins]

/-- `NewPage` returns null exactly when all frames are pinned. -/
theorem FrameInv.newPage_null (hinv : FrameInv s) (h : s.newPage = .ok (none, s')) :
    s' = s ∧ ∀ g, (s.pages g).pinCount ≠ 0 := by
  unfold newPage at h
  split at h
  · rename_i hall
    simp only [Except.ok.injEq, Prod.mk.injEq, true_and] at h
    exact ⟨h.symm, hall⟩
  · split at h
    · rename_i hpick
      simp only [Except.ok.injEq, Prod.mk.injEq, true_and] at h
      exact ⟨h.symm, hinv.pickFrame_none hpick⟩
    · rcases bind_eq_ok.mp h with ⟨_, _, h⟩
      rcases bind_eq_ok.mp h with ⟨_, _, h⟩
      simp at h

end Disk

end BufferPoolManager
end MiniSQL
