import MiniSQL.Page.ApplyDelete

/-!
# TupleAddress — the `RowId` a tuple is read with

`InsertTuple` serializes the row first and calls `SetRowId` on it afterwards, so the bytes of the
tuple hold the `RowId` the row came with.  `UpdateTuple` never sets one.  `GetTuple` overwrites the
`RowId` of the row it fills by the one in the bytes.

A page is run here together with the rows last written to its slots, as they were passed
(`track`).  What `GetTuple` gives back is that row, `RowId` included.
-/

namespace MiniSQL
namespace TablePage

open Lib

variable {schema : Schema} {p : PageId}

/-- A page and the rows last written to its slots. -/
structure Tracked where
  page : Mem
  stored : Nat → Option Row

/-- A change of the page, with the rows it writes. -/
def Tracked.Step (schema : Schema) (s : Tracked) (change : Change) (s' : Tracked) : Prop :=
  Changes schema s.page change s'.page ∧ s'.stored = track schema s.page change s.stored

/-- The page after `Init`: no slot was written to. -/
def Tracked.init (m₀ : Mem) (p prev : PageId) : Tracked :=
  ⟨TablePage.init m₀ p prev, fun _ => none⟩

/-- The slots of the page hold the rows last written to them. -/
def Tracked.Inv (schema : Schema) (p : PageId) (s : Tracked) : Prop :=
  ∃ n cells, Layout schema p s.page n cells ∧ Keeps n cells s.stored

theorem Tracked.init_inv (schema : Schema) (m₀ : Mem) (p prev : PageId) :
    (Tracked.init m₀ p prev).Inv schema p := by
  refine ⟨0, _, init_layout schema m₀ p prev, ?_⟩
  intro i c hi
  exact absurd hi (Nat.not_lt_zero i)

theorem Tracked.Step.inv {s s' : Tracked} {change : Change} (hstep : s.Step schema change s')
    (h : s.Inv schema p) : s'.Inv schema p := by
  rcases hstep with ⟨hchange, hstored⟩
  rw [Inv, hstored]
  exact hchange.keeps h

theorem Tracked.run_inv {m₀ : Mem} {prev : PageId} {changes : List Change} {s : Tracked}
    (hrun : Run (Tracked.Step schema) (Tracked.init m₀ p prev) changes s) : s.Inv schema p :=
  hrun.invariant (P := Tracked.Inv schema p) (fun _ _ _ h hstep => hstep.inv h)
    (Tracked.init_inv schema m₀ p prev)

theorem getTuple_rid_ne {m : Mem} {row : Row} {reply : Bool × Row}
    (h : getTuple m row schema = .ok reply) : row.rid ≠ INVALID_ROWID := by
  rcases bind_eq_ok.mp h with ⟨_, hassert, _⟩
  simpa using hassert

/-- `GetTuple` gives the row as it was passed to the call that wrote it. -/
theorem Tracked.Inv.getTuple_eq {s : Tracked} (h : s.Inv schema p) {rid : RowId} {out : Row}
    (hget : getTuple s.page ⟨rid, []⟩ schema = .ok (true, out)) :
    s.stored rid.slotNum.toNat = some out := by
  rcases h with ⟨n, cells, hlayout, hkeeps⟩
  rcases hlayout.getTuple_inversion (getTuple_rid_ne hget) hget with ⟨c, hi, hc, _, hrow⟩
  rw [← hrow]
  exact hkeeps _ c hi hc

/-- The address a tuple is read with.  On every page that calls and deletions make from `Init`, a
successful `GetTuple` into a row made from the `RowId` of a slot leaves that `RowId` in the row if
and only if the row last written to the slot came with this `RowId`. -/
theorem getTuple_keeps_address_iff {m₀ : Mem} {prev : PageId} {changes : List Change}
    {s : Tracked} (hrun : Run (Tracked.Step schema) (Tracked.init m₀ p prev) changes s)
    (slotNum : UInt32) (out : Row)
    (hget : getTuple s.page ⟨⟨p, slotNum⟩, []⟩ schema = .ok (true, out)) :
    out.rid = ⟨p, slotNum⟩ ↔
      ∃ row, s.stored slotNum.toNat = some row ∧ row.rid = ⟨p, slotNum⟩ := by
  have hstored : s.stored slotNum.toNat = some out := (Tracked.run_inv hrun).getTuple_eq hget
  constructor
  · intro hrid
    exact ⟨out, hstored, hrid⟩
  · rintro ⟨row, hrow, hrid⟩
    rw [hstored] at hrow
    cases hrow
    exact hrid

/-- A row of the sample schema inserted into an empty page is read as it was passed. -/
theorem insert_into_empty {row : Row} (hrow : row.HasSchema Schema.sample)
    (hsize : row.encode.length = 21) :
    ∃ s, Run (Tracked.Step Schema.sample) (Tracked.init (fun _ => 0) 5 INVALID_PAGE_ID)
        [.call (.insertTuple row)] s ∧
      s.stored 0 = some row ∧
      insertTuple (init (fun _ => 0) 5 INVALID_PAGE_ID) row Schema.sample =
        .ok (true, { row with rid := ⟨5, 0⟩ }, s.page) ∧
      getTuple s.page ⟨⟨5, 0⟩, []⟩ Schema.sample = .ok (true, row) := by
  have h := init_represents Schema.sample (fun _ => 0) 5 INVALID_PAGE_ID
  have hroom : row.encode.length + SIZE_TUPLE ≤
      getFreeSpaceRemaining (init (fun _ => 0) 5 INVALID_PAGE_ID) := by
    rw [h.remaining, hsize]
    decide
  have hinsert := h.insertTuple_eq hrow hroom
  have h' := h.insert hrow hroom
  let m₀ := Tracked.init (fun _ => 0) 5 INVALID_PAGE_ID
  let page := inserted m₀.page row (PAGE_SIZE - used [] - row.encode.length) 0
  have hchange : Changes Schema.sample m₀.page (.call (.insertTuple row)) page :=
    Changes.call (Step.insertTuple hrow hinsert)
  refine ⟨⟨page, track Schema.sample m₀.page (.call (.insertTuple row)) m₀.stored⟩,
    Run.cons ⟨hchange, rfl⟩ (Run.nil _), ?_, hinsert, h'.getTuple_live (by decide) rfl⟩
  simp only [track, m₀, Tracked.init, hinsert]
  rfl

/-- A row that already carries the address it is going to get keeps it. -/
theorem getTuple_keeps_address_own :
    ∃ s out, Run (Tracked.Step Schema.sample) (Tracked.init (fun _ => 0) 5 INVALID_PAGE_ID)
        [.call (.insertTuple { Row.sample with rid := ⟨5, 0⟩ })] s ∧
      getTuple s.page ⟨⟨5, 0⟩, []⟩ Schema.sample = .ok (true, out) ∧ out.rid = ⟨5, 0⟩ := by
  have hrow : Row.HasSchema { Row.sample with rid := ⟨5, 0⟩ } Schema.sample :=
    Row.sample_hasSchema
  rcases insert_into_empty hrow rfl with ⟨s, hrun, hstored, _, hget⟩
  exact ⟨s, _, hrun, hget, (getTuple_keeps_address_iff hrun 0 _ hget).mpr ⟨_, hstored, rfl⟩⟩

/-- A row made from its fields has an invalid `RowId`.  `InsertTuple` puts it at page 5, slot 0,
and the row read there has the invalid `RowId` again. -/
theorem insert_then_get_loses_address :
    ∃ s, Run (Tracked.Step Schema.sample) (Tracked.init (fun _ => 0) 5 INVALID_PAGE_ID)
        [.call (.insertTuple { Row.sample with rid := INVALID_ROWID })] s ∧
      insertTuple (init (fun _ => 0) 5 INVALID_PAGE_ID)
          { Row.sample with rid := INVALID_ROWID } Schema.sample =
        .ok (true, { Row.sample with rid := ⟨5, 0⟩ }, s.page) ∧
      getTuple s.page ⟨⟨5, 0⟩, []⟩ Schema.sample =
        .ok (true, { Row.sample with rid := INVALID_ROWID }) ∧
      INVALID_ROWID ≠ ⟨5, 0⟩ := by
  have hrow : Row.HasSchema { Row.sample with rid := INVALID_ROWID } Schema.sample :=
    Row.sample_hasSchema
  rcases insert_into_empty hrow rfl with ⟨s, hrun, _, hinsert, hget⟩
  exact ⟨s, hrun, hinsert, hget, by decide⟩

end TablePage
end MiniSQL
