import MiniSQL.Buffer.Frames

/-!
# FailedCalls — what a call that reports failure leaves behind

A call of the pool reports failure by a null pointer or by `false`.  `Unchanged` is the frame
condition such a call should satisfy.  Two of the five calls work before they look: `DeletePage`
deallocates first, and `UnpinPage` sets the dirty flag first.
-/

namespace MiniSQL
namespace BufferPoolManager

open Lib

variable {n : Nat} {s s' : BufferPoolManager n} {f : Fin n} {p : PageId}

/-! ## The output argument of `NewPage` -/

/-- Nothing a caller or a later call can observe has moved: the two queues, the page table, every
frame, and which pages the disk holds for allocated. -/
structure Unchanged (s s' : BufferPoolManager n) : Prop where
  pageTable : s'.pageTable = s.pageTable
  freeList : s'.freeList = s.freeList
  replacer : s'.replacer = s.replacer
  pages : s'.pages = s.pages
  metaData : s'.diskManager.metaData = s.diskManager.metaData
  isPageFree : ∀ q : PageId, 0 ≤ q.toInt →
    s'.diskManager.isPageFree q = s.diskManager.isPageFree q

theorem Unchanged.refl (s : BufferPoolManager n) : Unchanged s s :=
  ⟨rfl, rfl, rfl, rfl, rfl, fun _ _ => rfl⟩

/-- When a failing call does leave everything as it was: `DeletePage` had nothing to deallocate,
and `UnpinPage` no flag to set. -/
def Harmless (s : BufferPoolManager n) : Event n → Prop
  | .deletePage p _ => s.isPageFree p = true
  | .unpinPage p isDirty _ =>
      isDirty = false ∨ ∀ f, s.pageTable.lookup p = some f → (s.pages f).isDirty = true
  | _ => True

/-! ## Resident pages are never negative -/

/-- The page table holds ids that `ReadPage` or the allocator has let through. -/
def ResidentNonneg (s : BufferPoolManager n) : Prop :=
  ∀ p f, s.pageTable.lookup p = some f → 0 ≤ p.toInt

theorem ResidentNonneg.load (h : ResidentNonneg s) (hp : 0 ≤ p.toInt)
    (htable : s'.pageTable = (s.pageTable.erase (s.pages f).pageId).insert p f) :
    ResidentNonneg s' := by
  intro q g hl
  rw [lookup_load htable] at hl
  split at hl
  · rename_i hq
    exact hq ▸ hp
  · split at hl
    · simp at hl
    · exact h q g hl

end BufferPoolManager
end MiniSQL
