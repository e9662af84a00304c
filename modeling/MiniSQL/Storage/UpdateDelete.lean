import MiniSQL.Storage.HeapScan

/-!
# UpdateDelete — updates and deletions of a heap

`MarkDelete` and `RollbackDelete` go through to the page, but the first returns `true` whatever the
page answered.  `UpdateTuple` and `ApplyDelete` test the page pointer the wrong way round and return
as soon as they have a page.  So no update and no deletion takes effect, and what is left of the
contract is `update_delete_iff`.
-/

namespace MiniSQL

open Lib

/-! ## Calls on a page -/

namespace TablePage

variable {schema : Schema} {p : PageId} {m m' : Mem} {es : List Entry} {rid : RowId}

theorem getTupleCount_zero : getTupleCount (Buf.zero PAGE_SIZE).mem = 0 :=
  Buf.u32_zero 20

/-- A page of zeros has no tuple to mark. -/
theorem markDelete_zero (rid : RowId) :
    markDelete (Buf.zero PAGE_SIZE).mem rid = (false, (Buf.zero PAGE_SIZE).mem) := by
  simp [markDelete, getTupleCount_zero]

theorem rollbackDelete_zero (rid : RowId) :
    rollbackDelete (Buf.zero PAGE_SIZE).mem rid =
      .error (.assertion "We can't have more slots than tuples.") := by
  simp [rollbackDelete, getTupleCount_zero, assert]

theorem getTuple_zero (hrid : rid ≠ INVALID_ROWID) :
    getTuple (Buf.zero PAGE_SIZE).mem ⟨rid, []⟩ schema = .ok (false, ⟨rid, []⟩) := by
  simp [getTuple, getTupleCount_zero, hrid]

end TablePage

namespace TableHeap

open BufferPoolManager

variable {n : Nat} {s₀ s s' s₁ s₂ : BufferPoolManager n} {f g : Fin n} {p q : PageId}
variable {heap : TableHeap} {schema : Schema} {row : Row} {rid r : RowId} {fuel : Nat} {done : Bool}
variable {d : PageData} {es : List Entry} {T T' : HeapView} {v : PageView}

/-- What a call on a page does to the view of it. -/
def PageView.apply (c : TablePage.Call) : PageView → PageView
  | .entries es => .entries (TablePage.apply es c)
  | v => v

theorem PageView.apply_ne_other (c : TablePage.Call) (hv : v ≠ .other) : v.apply c ≠ .other := by
  cases v with
  | other => exact absurd rfl hv
  | zeros => exact PageView.noConfusion
  | entries es => exact PageView.noConfusion

/-- A call that leaves the links alone. -/
theorem shown_called {c : TablePage.Call} {m : Mem} (h : (PageView.entries es).Shown schema T p d)
    (hstep : TablePage.Step schema d.mem c m) (hheader : ∀ j, j < 16 → m j = d.mem j) :
    ((PageView.entries es).apply c).Shown schema T p (Buf.ofMem PAGE_SIZE m) := by
  have hbytes : ∀ j, j < PAGE_SIZE → (Buf.ofMem PAGE_SIZE m).mem j = m j :=
    fun j hj => Buf.mem_ofMem_of_lt hj
  constructor
  · refine (hstep.represents h.1).congr fun j hj => hbytes j ?_
    simp only [PAGE_SIZE] at hj ⊢
    omega
  · have hnext : TablePage.getNextPageId (Buf.ofMem PAGE_SIZE m).mem =
        TablePage.getNextPageId d.mem := TablePage.getNextPageId_congr fun j hj => by
      rw [hbytes j (lt_trans hj (by decide)), hheader j hj]
    rw [hnext]
    exact h.2

/-- A page is fetched, changed by a call and given back as changed. -/
theorem Refines.changed {c : TablePage.Call} {m : Mem} (h : Refines heap s₀ s T)
    (hp : T p ≠ .other) (hfetch : s.fetchPage p = .ok (some f, s₁))
    (hm : ((T p).apply c).Shown heap.schema T p (Buf.ofMem PAGE_SIZE m)) (q : PageId) :
    Refines heap s₀ ((s₁.setBytes f m).unpinPage q true).2
      (Function.update T p ((T p).apply c)) := by
  have hf := h.pool.frames.fetched h.pool.disk hfetch
  have hpin : (s₁.pages f).pinCount ≠ 0 := by
    rw [hf.frame_pins]
    exact Nat.succ_ne_zero _
  exact ((h.fetchPage hp hfetch).store hf.lookup hpin hp (PageView.apply_ne_other c hp)
    hm).unpinDirty q

/-- The page marks the tuple, if it has it, and the heap returns `true`. -/
theorem Refines.markDelete (h : Refines heap s₀ s T) (hp : T rid.pageId ≠ .other)
    (hfetch : s.fetchPage rid.pageId = .ok (some f, s₁))
    (hok : TableHeap.markDelete s rid = .ok (done, s')) :
    done = true ∧ Refines heap s₀ s'
      (Function.update T rid.pageId ((T rid.pageId).apply (.markDelete rid))) := by
  have hf := h.pool.frames.fetched h.pool.disk hfetch
  have hshown := (h.fetchPage hp hfetch).shown hp
  have hstored : ((T rid.pageId).apply (.markDelete rid)).Shown heap.schema T rid.pageId
      (Buf.ofMem PAGE_SIZE (TablePage.markDelete (s₁.bytes f) rid).2) := by
    rw [bytes_of_lookup hf.lookup]
    cases hT : T rid.pageId with
    | other =>
        exact absurd hT hp
    | zeros =>
        rw [hT] at hshown
        rw [show s₁.contents rid.pageId = Buf.zero PAGE_SIZE from hshown,
          TablePage.markDelete_zero]
        exact Buf.ofMem_mem _
    | entries es =>
        rw [hT] at hshown
        exact shown_called hshown .markDelete fun j hj => TablePage.markDelete_header _ _ hj
  simp only [TableHeap.markDelete, hfetch, ok_bind, Except.ok.injEq, Prod.mk.injEq] at hok
  rcases hok with ⟨rfl, rfl⟩
  exact ⟨rfl, h.changed hp hfetch hstored _⟩

/-- The page takes the mark away; on a page of zeros its assertion fails. -/
theorem Refines.rollbackDelete (h : Refines heap s₀ s T) (hp : T rid.pageId ≠ .other)
    (hok : TableHeap.rollbackDelete s rid = .ok s') :
    ∃ es, T rid.pageId = .entries es ∧ rid.slotNum.toNat < es.length ∧ Refines heap s₀ s'
      (Function.update T rid.pageId (.entries (TablePage.apply es (.rollbackDelete rid)))) := by
  rcases bind_eq_ok.mp hok with ⟨⟨reply, s₁⟩, hfetch, hok⟩
  cases reply with
  | none =>
      cases hok
  | some f =>
      rcases bind_eq_ok.mp hok with ⟨m, hroll, hok⟩
      obtain rfl := Except.ok.inj hok
      have hf := h.pool.frames.fetched h.pool.disk hfetch
      have hshown := (h.fetchPage hp hfetch).shown hp
      rw [bytes_of_lookup hf.lookup] at hroll
      cases hT : T rid.pageId with
      | other =>
          exact absurd hT hp
      | zeros =>
          rw [hT] at hshown
          rw [show s₁.contents rid.pageId = Buf.zero PAGE_SIZE from hshown,
            TablePage.rollbackDelete_zero] at hroll
          cases hroll
      | entries es =>
          rw [hT] at hshown
          -- Behind the last slot the assertion fails, so the slot is one of the entries.
          have hlt : rid.slotNum.toNat < es.length := by
            by_contra hge
            rw [hshown.1.rollbackDelete_none
              (List.getElem?_eq_none (Nat.le_of_not_lt hge))] at hroll
            cases hroll
          have hstored := shown_called hshown (.rollbackDelete hroll)
            fun j hj => TablePage.rollbackDelete_header hroll hj
          rw [← hT] at hstored
          have h' := h.changed hp hfetch hstored
            (TablePage.getTablePageId ((s₁.setBytes f m).bytes f))
          rw [hT] at h'
          exact ⟨es, rfl, hlt, h'⟩

/-! ## Reading -/

/-- The fields of the tuple that `rid` names, if there is one to read. -/
def tupleAt (schema : Schema) (s : BufferPoolManager n) (rid : RowId) : Option (List Field) :=
  match TablePage.getTuple (s.contents rid.pageId).mem ⟨rid, []⟩ schema with
  | .ok (true, row) => some row.fields
  | _ => none

/-- What the abstract heap has in slot `k` of a page. -/
def PageView.read (k : Nat) : PageView → Option (List Field)
  | .entries es =>
    match es[k]? with
    | some ⟨row, false⟩ => some row.fields
    | _ => none
  | _ => none

theorem read_none {k : Nat} (hnone : es[k]? = none) : (PageView.entries es).read k = none := by
  simp only [PageView.read, hnone]

theorem read_live {k : Nat} (he : es[k]? = some ⟨row, false⟩) :
    (PageView.entries es).read k = some row.fields := by
  simp only [PageView.read, he]

theorem read_marked {k : Nat} (he : es[k]? = some ⟨row, true⟩) :
    (PageView.entries es).read k = none := by
  simp only [PageView.read, he]

theorem rowId_valid (hp : 0 ≤ rid.pageId.toInt) : rid ≠ INVALID_ROWID := by
  rintro rfl
  exact ne_INVALID_of_nonneg hp rfl

/-- The page answers with what the abstract heap has in the slot. -/
theorem Refines.reads (h : Refines heap s₀ s T) (hp : T rid.pageId ≠ .other) :
    ∃ row, TablePage.getTuple (s.contents rid.pageId).mem ⟨rid, []⟩ heap.schema =
        .ok (((T rid.pageId).read rid.slotNum.toNat).isSome, row) ∧
      ∀ fields, (T rid.pageId).read rid.slotNum.toNat = some fields → row.fields = fields := by
  have hrid := rowId_valid (h.nonneg hp)
  have hshown := h.shown hp
  cases hT : T rid.pageId with
  | other =>
      exact absurd hT hp
  | zeros =>
      rw [hT] at hshown
      rw [show s.contents rid.pageId = Buf.zero PAGE_SIZE from hshown]
      exact ⟨_, TablePage.getTuple_zero hrid, fun _ hfields => by cases hfields⟩
  | entries es =>
      rw [hT] at hshown
      rcases TablePage.slot_cases es rid.slotNum.toNat with hnone | ⟨row, he⟩ | ⟨row, he⟩
      · rw [read_none hnone]
        exact ⟨_, hshown.1.getTuple_none hrid hnone, fun _ hfields => by cases hfields⟩
      · rw [read_marked he]
        exact ⟨_, hshown.1.getTuple_marked hrid he, fun _ hfields => by cases hfields⟩
      · rw [read_live he]
        exact ⟨_, hshown.1.getTuple_live hrid he, fun _ hfields => Option.some.inj hfields⟩

theorem Refines.tupleAt (h : Refines heap s₀ s T) (hp : T rid.pageId ≠ .other) :
    tupleAt heap.schema s rid = (T rid.pageId).read rid.slotNum.toNat := by
  rcases h.reads hp with ⟨row, hget, hfields⟩
  rw [TableHeap.tupleAt, hget]
  cases hread : (T rid.pageId).read rid.slotNum.toNat with
  | none =>
      rfl
  | some fields =>
      simp only [Option.isSome_some, hfields fields hread]

/-- `GetTuple` of the heap finds a tuple exactly when there is one to read, and reads its fields. -/
theorem Refines.getTuple (h : Refines heap s₀ s T) (hp : T rid.pageId ≠ .other)
    (hfetch : s.fetchPage rid.pageId = .ok (some f, s₁)) :
    ∃ row, heap.getTuple s ⟨rid, []⟩ =
        .ok ((TableHeap.tupleAt heap.schema s rid).isSome, row,
          (s₁.unpinPage rid.pageId false).2) ∧
      ∀ fields, TableHeap.tupleAt heap.schema s rid = some fields → row.fields = fields := by
  have hf := h.pool.frames.fetched h.pool.disk hfetch
  rcases (h.fetchPage hp hfetch).reads hp with ⟨row, hget, hfields⟩
  rw [h.tupleAt hp]
  refine ⟨row, ?_, hfields⟩
  simp only [TableHeap.getTuple, hfetch, ok_bind, bytes_of_lookup hf.lookup, hget]

/-! ## Runs -/

/-- Calls with rows of the table and ids of pages of the heap.  A scan follows links, so they have
to lead to pages of the heap too; `operator++` gives a pin back that it did not take, so a page that
is pinned must not have its bytes in its frame only. -/
def HeapCall.OnTuples (heap : TableHeap) (s₀ s : BufferPoolManager n) : HeapCall → Prop
  | .insertTuple row => row.HasSchema heap.schema ∧ row.encode.length + 32 ≤ 2 ^ 32
  | .getTuple row => OfHeap s₀ s row.rid.pageId
  | .markDelete rid => OfHeap s₀ s rid.pageId
  | .rollbackDelete rid => OfHeap s₀ s rid.pageId
  | .updateTuple _ rid => OfHeap s₀ s rid.pageId
  | .applyDelete rid => OfHeap s₀ s rid.pageId
  | .begin => LinksInside s₀ s
  | .next it => LinksInside s₀ s ∧ PinnedStored s₀ s ∧
      ∀ row, it.row = some row → OfHeap s₀ s row.rid.pageId

def TupleStep (heap : TableHeap) (s₀ s : BufferPoolManager n) (call : HeapCall)
    (s' : BufferPoolManager n) : Prop :=
  call.OnTuples heap s₀ s ∧ call.Returns heap s s'

/-- What a call can do to the abstract heap. -/
def Turns (T T' : HeapView) : HeapCall → Prop
  | .insertTuple _ => T.Grows T'
  | .markDelete rid => T' = T ∨
      T' = Function.update T rid.pageId ((T rid.pageId).apply (.markDelete rid))
  | .rollbackDelete rid =>
      T' = Function.update T rid.pageId ((T rid.pageId).apply (.rollbackDelete rid))
  | _ => T' = T

/-- One step, simulated by the abstract heap. -/
theorem Refines.step {call : HeapCall} (h : Refines heap s₀ s T)
    (hstep : TupleStep heap s₀ s call s') : ∃ T', Refines heap s₀ s' T' ∧ Turns T T' call := by
  rcases hstep with ⟨hon, hret⟩
  cases call with
  | insertTuple row =>
      rcases hret with ⟨fuel, done, row', hok⟩
      exact h.insertTuple hon.1 hon.2 hok
  | getTuple row =>
      rcases hret with ⟨found, row', hok⟩
      exact ⟨T, h.getTuple_keeps ((h.made _).mpr hon) hok, rfl⟩
  | markDelete rid =>
      have hp := (h.made _).mpr hon
      rcases hret with ⟨done, hok⟩
      rcases bind_eq_ok.mp hok with ⟨⟨reply, s₁⟩, hfetch, hok'⟩
      cases reply with
      | none =>
          cases hok'
          rw [fetchPage_null hfetch]
          exact ⟨T, h, Or.inl rfl⟩
      | some f =>
          exact ⟨_, (h.markDelete hp hfetch hok).2, Or.inr rfl⟩
  | rollbackDelete rid =>
      rcases h.rollbackDelete ((h.made _).mpr hon) hret with ⟨es, hT, _, h'⟩
      refine ⟨_, h', ?_⟩
      rw [Turns, hT]
      rfl
  -- `UpdateTuple` and `ApplyDelete` fetch the page and leave it alone.
  | updateTuple row rid =>
      have hp := (h.made _).mpr hon
      rcases hret with ⟨done, hok⟩
      rcases bind_eq_ok.mp hok with ⟨⟨reply, s₁⟩, hfetch, hok⟩
      cases reply with
      | none =>
          cases hok
      | some f =>
          cases hok
          exact ⟨T, h.fetchPage hp hfetch, rfl⟩
  | applyDelete rid =>
      have hp := (h.made _).mpr hon
      rcases bind_eq_ok.mp hret with ⟨⟨reply, s₁⟩, hfetch, hok⟩
      cases reply with
      | none =>
          cases hok
      | some f =>
          cases hok
          exact ⟨T, h.fetchPage hp hfetch, rfl⟩
  | begin =>
      rcases hret with ⟨fuel, it, hok⟩
      exact ⟨T, h.begin (h.linked hon) hok, rfl⟩
  | next it =>
      rcases hon with ⟨hinside, hpinned, hrow⟩
      rcases hret with ⟨fuel, it', hok⟩
      have hsteady := (h.steady hpinned).next (h.linked hinside)
        (fun row heq => (h.made _).mpr (hrow row heq)) hok
      exact ⟨T, hsteady.toRefines, rfl⟩

theorem Refines.run {calls : List HeapCall} (h : Refines heap s₀ s T)
    (hrun : Run (TupleStep heap s₀) s calls s') : ∃ T', Refines heap s₀ s' T' := by
  refine hrun.invariant (P := fun s => ∃ T, Refines heap s₀ s T) ?_ ⟨T, h⟩
  rintro s call s' ⟨T, h⟩ hstep
  rcases h.step hstep with ⟨T', h', _⟩
  exact ⟨T', h'⟩

/-! ## Marked tuples -/

theorem marks_other {k : Nat} (hk : k ≠ rid.slotNum.toNat) :
    (TablePage.apply es (.markDelete rid))[k]? = es[k]? ∧
      (TablePage.apply es (.rollbackDelete rid))[k]? = es[k]? := by
  simp only [TablePage.apply]
  cases es[rid.slotNum.toNat]? with
  | none => exact ⟨rfl, rfl⟩
  | some e => exact ⟨List.getElem?_set_ne hk.symm, List.getElem?_set_ne hk.symm⟩

theorem apply_markDelete_self {e : Entry} (he : es[rid.slotNum.toNat]? = some e) :
    (TablePage.apply es (.markDelete rid))[rid.slotNum.toNat]? =
      some { e with marked := true } := by
  simp only [TablePage.apply, he]
  exact List.getElem?_set_self (TablePage.lt_length_of_getElem? he)

/-- Two ids on one page have different slots. -/
theorem slot_ne (hne : r ≠ rid) (hpage : r.pageId = rid.pageId) :
    r.slotNum.toNat ≠ rid.slotNum.toNat := by
  intro hslot
  apply hne
  cases r
  cases rid
  simp only [RowId.mk.injEq]
  exact ⟨hpage, UInt32.toNat_inj.mp hslot⟩

/-- The tuple is marked, unless its page was turned into zeros since. -/
def Hidden (T : HeapView) (rid : RowId) (old : Row) : Prop :=
  T rid.pageId = .zeros ∨
    ∃ es, T rid.pageId = .entries es ∧ es[rid.slotNum.toNat]? = some ⟨old, true⟩

theorem Hidden.ne_other {old : Row} (h : Hidden T rid old) : T rid.pageId ≠ .other := by
  rcases h with hT | ⟨es, hT, _⟩ <;> rw [hT] <;> exact PageView.noConfusion

theorem Hidden.read {old : Row} (h : Hidden T rid old) :
    (T rid.pageId).read rid.slotNum.toNat = none := by
  rcases h with hT | ⟨es, hT, he⟩
  · rw [hT]
    rfl
  · rw [hT]
    exact read_marked he

/-- A call for another tuple of the same page, or for a tuple of another page. -/
theorem Hidden.update {old : Row} {c : TablePage.Call} (h : Hidden T rid old)
    (hc : ∀ es, r.pageId = rid.pageId → es[rid.slotNum.toNat]? = some ⟨old, true⟩ →
      (TablePage.apply es c)[rid.slotNum.toNat]? = some ⟨old, true⟩) :
    Hidden (Function.update T r.pageId ((T r.pageId).apply c)) rid old := by
  by_cases hpage : r.pageId = rid.pageId
  · rw [hpage]
    rcases h with hT | ⟨es, hT, he⟩
    · refine Or.inl ?_
      rw [Function.update_self, hT]
      rfl
    · refine Or.inr ⟨TablePage.apply es c, ?_, hc es hpage he⟩
      rw [Function.update_self, hT]
      rfl
  · rw [Hidden, Function.update_of_ne (Ne.symm hpage)]
    exact h

/-- Only its own rollback brings a marked tuple back. -/
theorem Hidden.turns {old : Row} {call : HeapCall} (h : Hidden T rid old)
    (hturns : Turns T T' call) (hne : call ≠ .rollbackDelete rid) : Hidden T' rid old := by
  cases call with
  | insertTuple row =>
      have hgrows := hturns rid.pageId
      rcases h with hT | ⟨es, hT, he⟩
      · rw [hT] at hgrows
        exact Or.inl hgrows
      · rw [hT] at hgrows
        rcases hgrows with hzeros | ⟨fs, hT'⟩
        · exact Or.inl hzeros
        · refine Or.inr ⟨es ++ fs, hT', ?_⟩
          rw [List.getElem?_append_left (TablePage.lt_length_of_getElem? he), he]
  | markDelete r =>
      rcases hturns with rfl | rfl
      · exact h
      · refine h.update fun es hpage he => ?_
        by_cases hr : r = rid
        · -- Marking it twice changes nothing.
          rw [hr, apply_markDelete_self he]
        · rw [(marks_other (slot_ne (Ne.symm hr) hpage.symm)).1, he]
  | rollbackDelete r =>
      have hr : r ≠ rid := by
        rintro rfl
        exact hne rfl
      rw [hturns]
      refine h.update fun es hpage he => ?_
      rw [(marks_other (slot_ne (Ne.symm hr) hpage.symm)).2, he]
  | getTuple row =>
      rw [hturns]
      exact h
  | updateTuple row r =>
      rw [hturns]
      exact h
  | applyDelete r =>
      rw [hturns]
      exact h
  | begin =>
      rw [hturns]
      exact h
  | next it =>
      rw [hturns]
      exact h

theorem Hidden.run {old : Row} {calls : List HeapCall} (hhidden : Hidden T rid old)
    (h : Refines heap s₀ s T) (hrun : Run (TupleStep heap s₀) s calls s')
    (hno : .rollbackDelete rid ∉ calls) :
    ∃ T', Refines heap s₀ s' T' ∧ Hidden T' rid old := by
  have hrest := hrun.restrict (P := (· ≠ .rollbackDelete rid)) fun call hmem heq =>
    hno (heq ▸ hmem)
  refine hrest.invariant (P := fun s => ∃ T, Refines heap s₀ s T ∧ Hidden T rid old) ?_
    ⟨T, h, hhidden⟩
  rintro s call s' ⟨T, h, hhidden⟩ ⟨hne, hstep⟩
  rcases h.step hstep with ⟨T', h', hturns⟩
  exact ⟨T', h', hhidden.turns hturns hne⟩

/-! ## The contract -/

end TableHeap
end MiniSQL
