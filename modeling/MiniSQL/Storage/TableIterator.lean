import MiniSQL.Storage.HeapInsert

/-!
# TableIterator — scanning a heap

`storage/table_iterator.cpp` and `TableHeap::Begin` / `End`.  An iterator is the pointer to the row
it stands on, null at the end.  `scan` is the loop a client writes,
`for (it = heap.Begin(txn); it != heap.End(); ++it)`, with the ids and fields it visits.
-/

namespace MiniSQL

open Lib BufferPoolManager

/-- The row the iterator points to. -/
structure TableIterator where
  row : Option Row

namespace TableIterator

/-- `operator==` compares the ids of the two rows. -/
def eq (it itr : TableIterator) : Result Bool := do
  let row ← deref it.row
  let other ← deref itr.row
  .ok (row.rid = other.rid)

/-- `operator!=`. -/
def ne (it itr : TableIterator) : Result Bool := do
  let same ← it.eq itr
  .ok (!same)

/-- `operator->`. -/
def arrow (it : TableIterator) : Result Row :=
  match it.row with
  | some row => .ok row
  | none => .error (.assertion "Nullptr visited in TableIt.")

end TableIterator

namespace TableHeap

variable {n : Nat}

/-! ## The model -/

/-- `End()`. -/
def end_ : TableIterator :=
  ⟨none⟩

/-- The loop of `Begin` over the pages: the id of the first live tuple. -/
def findFirst (fuel : Nat) (s : BufferPoolManager n) (currPgId : PageId) :
    Result (Option (Option RowId × BufferPoolManager n)) :=
  if currPgId = INVALID_PAGE_ID then .ok (some (none, s))
  else
    match fuel with
    | 0 => .ok none
    | fuel + 1 => do
      let (reply, s₁) ← s.fetchPage currPgId
      let f ← deref reply
      let (isFound, headRID) := TablePage.getFirstTupleRid (s₁.bytes f)
      let s₂ := (s₁.unpinPage currPgId false).2
      if isFound then .ok (some (some headRID, s₂))
      else findFirst fuel s₂ (TablePage.getNextPageId (s₂.bytes f))

/-- `Begin`. -/
def begin (heap : TableHeap) (fuel : Nat) (s : BufferPoolManager n) :
    Result (Option (TableIterator × BufferPoolManager n)) := do
  let first ← findFirst fuel s heap.firstPageId
  match first with
  | none => .ok none
  | some (none, s₁) => .ok (some (end_, s₁))
  | some (some headRID, s₁) => do
    let (_, row, s₂) ← heap.getTuple s₁ ⟨headRID, []⟩
    .ok (some (⟨some row⟩, s₂))

/-- The loop of `operator++` over the pages behind `currPg`: the id of the first live tuple there,
and the page id the loop variable is left with. -/
def searchPages (fuel : Nat) (s : BufferPoolManager n) (currPg : Fin n) (currPgId : PageId) :
    Result (Option (Option RowId × PageId × BufferPoolManager n)) :=
  if TablePage.getNextPageId (s.bytes currPg) = INVALID_PAGE_ID then
    .ok (some (none, currPgId, s))
  else
    match fuel with
    | 0 => .ok none
    | fuel + 1 => do
      let currPgId := (s.pages currPg).pageId
      let s₁ := (s.unpinPage currPgId false).2
      let (reply, s₂) ← s₁.fetchPage (TablePage.getNextPageId (s₁.bytes currPg))
      let f ← deref reply
      let (isFound, nextRID) := TablePage.getFirstTupleRid (s₂.bytes f)
      -- `currPgId` still names the page before: the caller unpins that one.
      if isFound then .ok (some (some nextRID, currPgId, s₂))
      else searchPages fuel s₂ f currPgId

/-- `operator++`.  On the same page the row is reused, with its fields; on a later page it is a
new row. -/
def next (heap : TableHeap) (fuel : Nat) (s : BufferPoolManager n) (it : TableIterator) :
    Result (Option (TableIterator × BufferPoolManager n)) := do
  let row ← deref it.row
  let currPgId := row.rid.pageId
  let (reply, s₁) ← s.fetchPage currPgId
  match reply with
  | none => .error (.assertion "Fetched null page in TableIt")
  | some f => do
    let (isFound, nextRID) ← TablePage.getNextTupleRid (s₁.bytes f) row.rid
    if isFound then do
      -- The row still has its fields, which `DeserializeFrom` asserts it has not.
      let (_, row', s₂) ← heap.getTuple s₁ { row with rid := nextRID }
      .ok (some (⟨some row'⟩, (s₂.unpinPage currPgId false).2))
    else do
      let found ← searchPages fuel s₁ f currPgId
      match found with
      | none => .ok none
      | some (none, currPgId, s₂) => .ok (some (⟨none⟩, (s₂.unpinPage currPgId false).2))
      | some (some nextRID, currPgId, s₂) => do
        let (_, row', s₃) ← heap.getTuple s₂ ⟨nextRID, []⟩
        .ok (some (⟨some row'⟩, (s₃.unpinPage currPgId false).2))

/-- The loop of a client, with what it visited so far. -/
def scanLoop (heap : TableHeap) (fuel : Nat) (s : BufferPoolManager n) (it : TableIterator)
    (visited : List (RowId × List Field)) :
    Result (Option (List (RowId × List Field) × BufferPoolManager n)) := do
  let more ← it.ne end_
  if !more then .ok (some (visited, s))
  else
    match fuel with
    | 0 => .ok none
    | fuel + 1 => do
      let row ← it.arrow
      let step ← heap.next fuel s it
      match step with
      | none => .ok none
      | some (it', s') => scanLoop heap fuel s' it' (visited ++ [(row.rid, row.fields)])

def scan (heap : TableHeap) (fuel : Nat) (s : BufferPoolManager n) :
    Result (Option (List (RowId × List Field) × BufferPoolManager n)) := do
  let start ← heap.begin fuel s
  match start with
  | none => .ok none
  | some (it, s₁) => scanLoop heap fuel s₁ it []

/-! ## The end of the scan -/

variable {s s' : BufferPoolManager n} {f : Fin n} {fs : List (Fin n)} {p : PageId}
variable {schema : Schema} {heap : TableHeap}

/-- The test for the end follows the null row of `End()`, wherever the iterator stands. -/
theorem ne_end (it : TableIterator) : it.ne end_ = .error .nullPointer := by
  cases h : it.row with
  | none =>
      simp [TableIterator.ne, TableIterator.eq, h, deref]
  | some row =>
      simp [TableIterator.ne, TableIterator.eq, h, deref, end_]

theorem scanLoop_faults (heap : TableHeap) (fuel : Nat) (s : BufferPoolManager n)
    (it : TableIterator) (visited : List (RowId × List Field)) :
    scanLoop heap fuel s it visited = .error .nullPointer := by
  unfold scanLoop
  rw [ne_end]
  rfl

theorem findLive_spec {m : Mem} {k i j : Nat} (h : TablePage.findLive m k i = some j) :
    i ≤ j ∧ j < i + k ∧ TablePage.isDeleted (TablePage.getTupleSize m j) = false := by
  induction k generalizing i with
  | zero =>
      cases h
  | succ k ih =>
      rw [TablePage.findLive] at h
      split at h
      · rcases ih h with ⟨h1, h2, h3⟩
        exact ⟨by omega, by omega, h3⟩
      · rename_i hlive
        cases h
        exact ⟨le_refl _, by omega, by simpa using hlive⟩

/-- The id `GetFirstTupleRid` finds is that of a live entry of the page. -/
theorem getFirstTupleRid_live {m : Mem} {es : List Entry} {rid : RowId}
    (hrep : TablePage.Represents schema p m es)
    (h : TablePage.getFirstTupleRid m = (true, rid)) :
    rid.pageId = p ∧ ∃ row, es[rid.slotNum.toNat]? = some ⟨row, false⟩ := by
  unfold TablePage.getFirstTupleRid at h
  split at h
  · rename_i i hfind
    rcases findLive_spec hfind with ⟨_, hlt, hlive⟩
    rw [hrep.count, Nat.zero_add] at hlt
    cases h
    refine ⟨hrep.pageId, ?_⟩
    have hslot : (UInt32.ofNat i).toNat = i :=
      UInt32.toNat_ofNat_of_lt' (lt_trans hlt hrep.length_lt)
    simp only [hslot]
    have he : es[i]? = some es[i] := List.getElem?_eq_getElem hlt
    have hmark := hrep.isDeleted he
    rw [hlive] at hmark
    refine ⟨es[i].row, ?_⟩
    rw [he, hmark]
  · cases h

/-- `Begin`'s loop on a chain of resident pages comes to an end, with the id of a live tuple if it
has one. -/
theorem findFirst_chain (hc : ChainInv schema s p fs) {fuel : Nat} (hfuel : fs.length ≤ fuel) :
    ∃ first s', findFirst fuel s p = .ok (some (first, s')) ∧ PoolInv s' ∧ SameStore s s' ∧
      ∀ rid, first = some rid → ∃ f ∈ fs, ∃ es row, rid.pageId = (s.pages f).pageId ∧
        TablePage.Represents schema (s.pages f).pageId (s.bytes f) es ∧
        es[rid.slotNum.toNat]? = some ⟨row, false⟩ := by
  -- Along the chain; the pool changes with every pass, but not its pages.
  induction fs generalizing s p fuel with
  | nil =>
      rcases hc.chain.ne_nil with ⟨_, _, hnil⟩
      cases hnil
  | cons f fs ih =>
      cases fuel with
      | zero =>
          simp at hfuel
      | succ fuel =>
          have hl := hc.chain.head
          have hp := (hc.pool.frames.pageId hl).1
          rcases hc.pool.fetchPage_resident hl with ⟨s₁, hfetch, hpool₁, hsame₁⟩
          have hl₁ : s₁.pageTable.lookup p = some f := by
            rw [hsame₁.table, hl]
          rcases hpool₁.unpinPage_resident hl₁ false with ⟨hpool₂, hsame₂⟩
          have hsame := hsame₁.trans hsame₂
          rcases hc.pages f (by simp) with ⟨es, hrep⟩
          cases hfirst : TablePage.getFirstTupleRid (s.bytes f) with
          | mk isFound rid =>
              cases isFound with
              | true =>
                  refine ⟨some rid, _, ?_, hpool₂, hsame, ?_⟩
                  · unfold findFirst
                    simp only [hp, if_false, hfetch, ok_bind, deref, bytes_congr hsame₁, hfirst,
                      if_true]
                  · intro rid' heq
                    cases heq
                    rcases getFirstTupleRid_live hrep hfirst with ⟨hid, row, he⟩
                    exact ⟨f, by simp, es, row, hid, hrep, he⟩
              | false =>
                  -- No live tuple here: the loop goes on where the page points.
                  have hstep : findFirst (fuel + 1) s p =
                      findFirst fuel (s₁.unpinPage p false).2
                        (TablePage.getNextPageId (s.bytes f)) := by
                    conv_lhs => unfold findFirst
                    simp only [hp, if_false, hfetch, ok_bind, deref, bytes_congr hsame₁, hfirst,
                      Bool.false_eq_true, bytes_congr hsame₂]
                  rw [hstep]
                  cases hc.chain with
                  | last _ hnext =>
                      refine ⟨none, _, ?_, hpool₂, hsame, by simp⟩
                      rw [hnext]
                      unfold findFirst
                      simp
                  | cons _ hnext hrest =>
                      have htail : ChainInv schema s (TablePage.getNextPageId (s.bytes f)) fs :=
                        ⟨hc.pool, hrest, fun g hg => hc.pages g (by simp [hg])⟩
                      rcases ih (htail.same hpool₂ hsame) (by simpa using hfuel) with
                        ⟨first, s', hok, hpool', hsame', hlive⟩
                      refine ⟨first, s', hok, hpool', hsame.trans hsame', fun rid' heq => ?_⟩
                      rcases hlive rid' heq with ⟨g, hg, es', row, hid, hrep', he⟩
                      rw [hsame.pageId] at hid hrep'
                      rw [bytes_congr hsame] at hrep'
                      exact ⟨g, by simp [hg], es', row, hid, hrep', he⟩

/-- `Begin` returns an iterator on every heap whose pages are resident. -/
theorem begin_chain (hc : ChainInv heap.schema s heap.firstPageId fs) :
    ∃ it s', heap.begin fs.length s = .ok (some (it, s')) := by
  rcases findFirst_chain hc (le_refl _) with ⟨first, s₁, hfirst, hpool₁, hsame₁, hlive⟩
  cases first with
  | none =>
      exact ⟨end_, s₁, by simp only [begin, hfirst, ok_bind]⟩
  | some rid =>
      rcases hlive rid rfl with ⟨f, hf, es, row, hid, hrep, he⟩
      rcases hc.pageId_valid hf with ⟨hvalid, hl⟩
      have hl₁ : s₁.pageTable.lookup rid.pageId = some f := by
        rw [hsame₁.table, hid, hl]
      rcases hpool₁.fetchPage_resident hl₁ with ⟨s₂, hfetch, _, hsame₂⟩
      have hrid : rid ≠ INVALID_ROWID := by
        intro heq
        rw [heq] at hid
        exact hvalid hid.symm
      -- The page still holds what it held when the id was found.
      have hread := hrep.getTuple_live hrid he
      rw [← bytes_congr (hsame₁.trans hsame₂)] at hread
      refine ⟨⟨some row⟩, (s₂.unpinPage rid.pageId false).2, ?_⟩
      simp only [begin, hfirst, ok_bind, getTuple, hfetch, hread]

theorem scan_faults (hc : ChainInv heap.schema s heap.firstPageId fs) :
    heap.scan fs.length s = .error .nullPointer := by
  rcases begin_chain hc with ⟨it, s', hbegin⟩
  simp only [scan, hbegin, ok_bind, scanLoop_faults]

theorem scan_ne_ok (heap : TableHeap) (fuel : Nat) (s : BufferPoolManager n)
    (r : List (RowId × List Field) × BufferPoolManager n) : heap.scan fuel s ≠ .ok (some r) := by
  intro h
  rcases bind_eq_ok.mp h with ⟨start, _, h⟩
  cases start with
  | none =>
      cases h
  | some c =>
      simp only [scanLoop_faults] at h
      cases h

/-- The scan ends and visits the live tuples of the heap, each once, page by page and in slot
order. -/
def ScanComplete (heap : TableHeap) (s : BufferPoolManager n) : Prop :=
  ∃ fs fuel s', Chain s heap.firstPageId fs ∧
    heap.scan fuel s = .ok (some (liveTuples heap.schema s fs, s'))

/-- No scan is complete, whatever the heap and the pool; where all pages of the heap are at hand,
the loop follows a null row before its first pass. -/
theorem scan_never_completes (heap : TableHeap) (s : BufferPoolManager n) :
    ¬ScanComplete heap s ∧
      ∀ fs, ChainInv heap.schema s heap.firstPageId fs →
        heap.scan fs.length s = .error .nullPointer := by
  refine ⟨?_, fun fs hc => scan_faults hc⟩
  rintro ⟨fs, fuel, s', _, hok⟩
  exact scan_ne_ok heap fuel s _ hok

/-- The scan of a new heap. -/
theorem scan_of_new_heap_faults :
    ∃ s : BufferPoolManager 3, Reachable charHeap s ∧
      charHeap.scan 1 s = .error .nullPointer ∧ ¬ScanComplete charHeap s := by
  rcases sample_create with ⟨s, hreach, hc, _⟩
  have hfault : charHeap.scan 1 s = .error .nullPointer := scan_faults hc
  refine ⟨s, hreach, hfault, ?_⟩
  rintro ⟨fs, fuel, s', _, hok⟩
  exact scan_ne_ok _ fuel s _ hok

end TableHeap
end MiniSQL
