import MiniSQL.Index.KeyOrder

/-!
# ScanKey — range scans over an index

`BPlusTreeIndex::ScanKey` of `index/b_plus_tree_index.cpp`.  The functions of the tree and of its
iterator are stubs, so the tree is a parameter here and `Documented` says what their comments
promise: a finite map with unique keys in the order of `CompareKeys`.  A key splits the entries
into those below, at most one at it, and those above; each operator collects some of the three.
-/

namespace MiniSQL

open Lib

/-! ## The model -/

/-- `BPlusTree` and `IndexIterator`, as far as `ScanKey` calls them. -/
structure BPlusTree (I : Type) where
  getBeginIterator : I
  getBeginIteratorAt : Mem → I
  getEndIterator : I
  current : I → Mem × RowId
  next : I → I
  getValue : Mem → List RowId → Bool × List RowId

/-- `dberr_t`, the codes `ScanKey` returns. -/
inductive ScanErr
  | success
  | keyNotFound
  deriving DecidableEq, Repr

namespace BPlusTree

variable {I : Type} [DecidableEq I]

/-- `for (; iter != stop; ++iter)`, appending the row id of each entry; `none` when the loop is not
done after `fuel` passes. -/
def collect (t : BPlusTree I) (stop : I) : (fuel : Nat) → I → List RowId → Option (List RowId)
  | 0, iter, result => if iter = stop then some result else none
  | fuel + 1, iter, result =>
    if iter = stop then some result
    else t.collect stop fuel (t.next iter) (result ++ [(t.current iter).2])

/-- `result.erase(find(…, temp[0]))`: both the access and the erasure need an element. -/
def eraseFirst (result : List RowId) : List RowId → Result (List RowId)
  | [] => .error .outOfBounds
  | rid :: _ => if rid ∈ result then .ok (result.erase rid) else .error .outOfBounds

/-- The branches of `ScanKey`; an operator it does not know collects nothing. -/
def scan (t : BPlusTree I) (fuel : Nat) (indexKey : Mem) (result : List RowId)
    (compareOperator : String) : Result (Option (List RowId)) :=
  if compareOperator = "=" then .ok (some (t.getValue indexKey result).2)
  else if compareOperator = ">" then
    let iter := t.getBeginIteratorAt indexKey
    -- The lookup that decides whether to skip an entry appends to the result.
    let (found, result₁) := t.getValue indexKey result
    .ok (t.collect t.getEndIterator fuel (if found then t.next iter else iter) result₁)
  else if compareOperator = ">=" then
    .ok (t.collect t.getEndIterator fuel (t.getBeginIteratorAt indexKey) result)
  else if compareOperator = "<" then
    .ok (t.collect (t.getBeginIteratorAt indexKey) fuel t.getBeginIterator result)
  else if compareOperator = "<=" then
    match t.collect (t.getBeginIteratorAt indexKey) fuel t.getBeginIterator result with
    | none => .ok none
    | some result₁ => .ok (some (t.getValue indexKey result₁).2)
  else if compareOperator = "<>" then
    match t.collect t.getEndIterator fuel t.getBeginIterator result with
    | none => .ok none
    | some result₁ =>
      let (found, temp) := t.getValue indexKey []
      if found then do
        let result₂ ← eraseFirst result₁ temp
        .ok (some result₂)
      else .ok (some result₁)
  else .ok (some result)

/-- `ScanKey`; `buf` is the memory `InitKey` allocated. -/
def scanKey (km : KeyManager) (t : BPlusTree I) (buf : Mem) (fuel : Nat) (key : Row)
    (result : List RowId) (compareOperator : String) :
    Result (Option (ScanErr × List RowId)) := do
  let indexKey ← km.serializeFromKey buf key km.keySchema
  let out ← t.scan fuel indexKey result compareOperator
  .ok (out.map fun result => (if result ≠ [] then .success else .keyNotFound, result))

end BPlusTree

/-- The operator applied to the value of a comparison. -/
def CompareOp.Holds (op : CompareOp) (x : Int) : Prop :=
  op.Relates x 0

namespace BPlusTree

/-! ## The tree as documented -/

variable {I : Type}

/-- `order`, the value of `CompareKeys`, is a total order on the keys in use. -/
structure OrderOn (keys : Mem → Prop) (order : Mem → Mem → Int) : Prop where
  opposite : ∀ a b, keys a → keys b → (order a b < 0 ↔ 0 < order b a)
  trans : ∀ a b c, keys a → keys b → keys c → order a b ≤ 0 → order b c ≤ 0 → order a c ≤ 0

/-- The tree holds these entries.  `position i` is the iterator at entry `i`, and the one past the
last entry is the end. -/
structure Documented (t : BPlusTree I) (keys : Mem → Prop) (order : Mem → Mem → Int)
    (entries : List (Mem × RowId)) (position : Nat → I) : Prop where
  begins : t.getBeginIterator = position 0
  ends : t.getEndIterator = position entries.length
  distinct : ∀ i j, i ≤ entries.length → j ≤ entries.length → position i = position j → i = j
  next : ∀ i, i < entries.length → t.next (position i) = position (i + 1)
  current : ∀ i e, entries[i]? = some e → t.current (position i) = e
  seeks : ∀ k, keys k → ∃ i, i ≤ entries.length ∧ t.getBeginIteratorAt k = position i ∧
    (∀ e ∈ entries.take i, order e.1 k < 0) ∧ ∀ e, entries[i]? = some e → 0 ≤ order e.1 k
  finds : ∀ k e result, keys k → e ∈ entries → order e.1 k = 0 →
    t.getValue k result = (true, result ++ [e.2])
  misses : ∀ k result, keys k → (∀ e ∈ entries, order e.1 k ≠ 0) →
    t.getValue k result = (false, result)
  in_use : ∀ e ∈ entries, keys e.1
  sorted : entries.Pairwise fun e e' => order e.1 e'.1 < 0
  rids_nodup : (entries.map Prod.snd).Nodup

variable {t : BPlusTree I} {keys : Mem → Prop}
variable {order : Mem → Mem → Int} {entries below here above : List (Mem × RowId)}
variable {position : Nat → I} {k : Mem} {fuel : Nat}

/-! ## A key splits the entries -/

/-- The entries below the key, at it and above it. -/
structure Split (t : BPlusTree I) (order : Mem → Mem → Int) (entries : List (Mem × RowId))
    (position : Nat → I) (k : Mem) (below here above : List (Mem × RowId)) : Prop where
  entries_eq : entries = below ++ here ++ above
  seeks : t.getBeginIteratorAt k = position below.length
  below_lt : ∀ e ∈ below, order e.1 k < 0
  here_eq : ∀ e ∈ here, order e.1 k = 0
  above_gt : ∀ e ∈ above, 0 < order e.1 k
  here_le_one : here.length ≤ 1

/-- An entry behind one that is not below the key is above the key. -/
theorem lt_of_behind (ho : OrderOn keys order) {a b : Mem} (ha : keys a)
    (hb : keys b) (hk : keys k) (hab : order a b < 0) (hak : 0 ≤ order a k) : 0 < order b k := by
  by_contra hbk
  have hka : order k a ≤ 0 := by
    by_contra hpos
    have hlt := (ho.opposite a k ha hk).mpr (not_le.mp hpos)
    exact absurd hak (not_le.mpr hlt)
  have hba : 0 < order b a := (ho.opposite a b ha hb).mp hab
  exact absurd (ho.trans b k a hb hk ha (not_lt.mp hbk) hka) (not_le.mpr hba)

theorem Documented.split (h : Documented t keys order entries position) (ho : OrderOn keys order)
    (hk : keys k) : ∃ below here above, Split t order entries position k below here above := by
  rcases h.seeks k hk with ⟨i, hi, hseek, hbelow, hfirst⟩
  have hlen : (entries.take i).length = i := List.length_take_of_le hi
  have hparts : entries = entries.take i ++ entries.drop i := (List.take_append_drop i entries).symm
  cases hdrop : entries.drop i with
  | nil =>
      refine ⟨entries.take i, [], [], ?_, by rw [hlen, hseek], hbelow, by simp, by simp, by simp⟩
      rw [hdrop] at hparts
      simpa using hparts
  | cons e rest =>
      have hget : entries[i]? = some e := by
        rw [← List.head?_drop, hdrop]
        rfl
      have hnot : 0 ≤ order e.1 k := hfirst e hget
      rw [hdrop] at hparts
      have hmem : ∀ e' ∈ e :: rest, keys e'.1 := by
        intro e' he'
        refine h.in_use e' ?_
        rw [hparts]
        exact List.mem_append_right _ he'
      have hsorted := h.sorted
      rw [hparts, List.pairwise_append, List.pairwise_cons] at hsorted
      -- The list is strictly sorted, so at most its next entry stands at the key.
      have hrest : ∀ e' ∈ rest, 0 < order e'.1 k := by
        intro e' he'
        exact lt_of_behind ho (hmem e (List.mem_cons_self ..))
          (hmem e' (List.mem_cons_of_mem _ he')) hk (hsorted.2.1.1 e' he') hnot
      by_cases hzero : order e.1 k = 0
      · refine ⟨entries.take i, [e], rest, ?_, by rw [hlen, hseek], hbelow, ?_, hrest, by simp⟩
        · simpa using hparts
        · simpa using hzero
      · refine ⟨entries.take i, [], e :: rest, ?_, by rw [hlen, hseek], hbelow, by simp, ?_,
          by simp⟩
        · simpa using hparts
        · intro e' he'
          rcases List.mem_cons.mp he' with rfl | he'
          · omega
          · exact hrest e' he'

/-- `GetValue` appends the row id of the entry at the key. -/
theorem Documented.getValue_eq (h : Documented t keys order entries position) (hk : keys k)
    (hs : Split t order entries position k below here above) (result : List RowId) :
    t.getValue k result = (decide (here ≠ []), result ++ here.map Prod.snd) := by
  rcases here with _ | ⟨e, _ | ⟨e', rest⟩⟩
  · have hmiss : ∀ e ∈ entries, order e.1 k ≠ 0 := by
      intro e he
      rw [hs.entries_eq, List.append_nil, List.mem_append] at he
      rcases he with he | he
      · exact (hs.below_lt e he).ne
      · exact (hs.above_gt e he).ne'
    rw [h.misses k result hk hmiss]
    simp
  · have he : e ∈ entries := by
      rw [hs.entries_eq]
      simp
    rw [h.finds k e result hk he (hs.here_eq e (List.mem_singleton_self e))]
    simp
  · have hlen := hs.here_le_one
    simp at hlen

variable [DecidableEq I]

/-- A loop from one position to a later one appends the row ids in between. -/
theorem Documented.collect_eq (h : Documented t keys order entries position)
    {pre mid post : List (Mem × RowId)} (hparts : entries = pre ++ mid ++ post)
    (hfuel : mid.length ≤ fuel) (result : List RowId) :
    t.collect (position (pre.length + mid.length)) fuel (position pre.length) result =
      some (result ++ mid.map Prod.snd) := by
  induction mid generalizing pre fuel result with
  | nil =>
      cases fuel with
      | zero => simp [collect]
      | succ fuel => simp [collect]
  | cons e mid ih =>
      cases fuel with
      | zero => simp at hfuel
      | succ fuel =>
          have hlen : entries.length = pre.length + (mid.length + 1) + post.length := by
            rw [hparts]
            simp only [List.length_append, List.length_cons]
          -- The iterator has not reached the stop yet: positions are distinct.
          have hne : position pre.length ≠ position (pre.length + (e :: mid).length) := by
            intro heq
            have hpos := h.distinct _ _ (by omega) (by simp only [List.length_cons]; omega) heq
            simp at hpos
          have hget : entries[pre.length]? = some e := by
            rw [hparts]
            simp
          have hnext : t.next (position pre.length) = position (pre ++ [e]).length := by
            rw [h.next _ (by omega)]
            simp
          have hstop : pre.length + (e :: mid).length = (pre ++ [e]).length + mid.length := by
            simp only [List.length_cons, List.length_append, List.length_nil]
            omega
          have hparts' : entries = (pre ++ [e]) ++ mid ++ post := by
            rw [hparts]
            simp
          simp only [List.length_cons] at hfuel
          rw [collect, if_neg hne, h.current _ e hget, hnext, hstop,
            ih hparts' (by omega) (result ++ [e.2])]
          simp

/-! ## What each operator collects -/

/-- The entries that `ScanKey` collects.  For `>` these are the ones for `>=`. -/
def collected (below here above : List (Mem × RowId)) : CompareOp → List (Mem × RowId)
  | .eq => here
  | .ne => below ++ above
  | .lt => below
  | .le => below ++ here
  | .gt => here ++ above
  | .ge => here ++ above

section scan

variable (h : Documented t keys order entries position) (hk : keys k)
variable (hs : Split t order entries position k below here above)

include h hs

/-- From the key to the end. -/
theorem collect_from (hfuel : entries.length ≤ fuel) (result : List RowId) :
    t.collect t.getEndIterator fuel (t.getBeginIteratorAt k) result =
      some (result ++ (here ++ above).map Prod.snd) := by
  have hparts : entries = below ++ (here ++ above) ++ [] := by
    rw [hs.entries_eq]
    simp
  have hlen : entries.length = below.length + (here ++ above).length := by
    rw [hparts]
    simp only [List.length_append, List.length_nil, Nat.add_zero]
  rw [h.ends, hs.seeks, hlen]
  exact h.collect_eq hparts (by omega) result

/-- From the entry behind the key to the end. -/
theorem collect_behind {e : Mem × RowId} (he : here = [e]) (hfuel : entries.length ≤ fuel)
    (result : List RowId) :
    t.collect t.getEndIterator fuel (t.next (t.getBeginIteratorAt k)) result =
      some (result ++ above.map Prod.snd) := by
  have hparts : entries = (below ++ here) ++ above ++ [] := by
    rw [hs.entries_eq]
    simp
  have hlen : entries.length = (below ++ here).length + above.length := by
    rw [hparts]
    simp only [List.length_append, List.length_nil, Nat.add_zero]
  have hbehind : (below ++ here).length = below.length + 1 := by
    rw [he]
    simp
  rw [h.ends, hs.seeks, h.next _ (by omega), ← hbehind, hlen]
  exact h.collect_eq hparts (by omega) result

/-- From the first entry to the key. -/
theorem collect_until (hfuel : entries.length ≤ fuel) (result : List RowId) :
    t.collect (t.getBeginIteratorAt k) fuel t.getBeginIterator result =
      some (result ++ below.map Prod.snd) := by
  have hparts : entries = [] ++ below ++ (here ++ above) := by
    rw [hs.entries_eq]
    simp
  have hlen : entries.length = below.length + (here ++ above).length := by
    rw [hparts]
    simp only [List.nil_append, List.length_append]
  have hloop := h.collect_eq hparts (by omega : below.length ≤ fuel) result
  rw [h.begins, hs.seeks]
  simpa using hloop

include hk

theorem scan_eq (hfuel : entries.length ≤ fuel) (op : CompareOp) :
    t.scan fuel k [] op.text = .ok (some ((collected below here above op).map Prod.snd)) := by
  have hvalue := fun result => h.getValue_eq hk hs result
  cases op with
  | eq =>
      simp [scan, CompareOp.text, collected, hvalue]
  | gt =>
      rcases here with _ | ⟨e, _ | ⟨e', rest⟩⟩
      · have hloop := collect_from h hs hfuel []
        simpa [scan, CompareOp.text, collected, hvalue] using hloop
      · have hloop := collect_behind h hs rfl hfuel [e.2]
        simpa [scan, CompareOp.text, collected, hvalue] using hloop
      · have hlen := hs.here_le_one
        simp at hlen
  | ge =>
      simp [scan, CompareOp.text, collected, collect_from h hs hfuel []]
  | lt =>
      simp [scan, CompareOp.text, collected, collect_until h hs hfuel []]
  | le =>
      simp [scan, CompareOp.text, collected, collect_until h hs hfuel [], hvalue]
  | ne =>
      have hparts : entries = [] ++ entries ++ [] := by simp
      have hloop := h.collect_eq hparts (by omega : entries.length ≤ fuel) []
      simp only [List.length_nil, Nat.zero_add, List.nil_append, ← h.begins, ← h.ends] at hloop
      simp only [scan, CompareOp.text, collected, hloop, hvalue, List.nil_append]
      rcases here with _ | ⟨e, _ | ⟨e', rest⟩⟩
      · simp [hs.entries_eq]
      · -- The row ids are distinct, so the one that is erased is the one at the key.
        have hnodup := h.rids_nodup
        rw [hs.entries_eq] at hnodup
        simp only [List.map_append, List.map_cons, List.append_assoc, List.singleton_append]
          at hnodup
        have hnot : e.2 ∉ below.map Prod.snd := by
          intro hmem
          exact List.disjoint_of_nodup_append hnodup hmem (List.mem_cons_self ..)
        have hmem : e.2 ∈ entries.map Prod.snd := by
          rw [hs.entries_eq]
          simp
        have herase : (entries.map Prod.snd).erase e.2 = (below ++ above).map Prod.snd := by
          rw [hs.entries_eq]
          simp only [List.map_append, List.map_cons, List.append_assoc, List.singleton_append]
          rw [List.erase_append_right _ hnot, List.erase_cons_head]
        simp [eraseFirst, hmem, herase]
      · have hlen := hs.here_le_one
        simp at hlen

end scan

/-! ## When the scan is exact -/

/-- What a scan should yield: the row ids of the entries in the relation, each once, and the code
that says whether there are any. -/
structure Exact (order : Mem → Mem → Int) (entries : List (Mem × RowId)) (k : Mem)
    (op : CompareOp) (out : ScanErr × List RowId) : Prop where
  nodup : out.2.Nodup
  mem_iff : ∀ rid, rid ∈ out.2 ↔ ∃ e ∈ entries, e.2 = rid ∧ op.Holds (order e.1 k)
  code : out.1 = .keyNotFound ↔ ∀ e ∈ entries, ¬op.Holds (order e.1 k)

section exact

variable {e : Mem × RowId} {op : CompareOp}

omit [DecidableEq I] in
theorem Split.mem_cases (hs : Split t order entries position k below here above) :
    e ∈ entries ↔ e ∈ below ∨ e ∈ here ∨ e ∈ above := by
  rw [hs.entries_eq, List.mem_append, List.mem_append, or_assoc]

omit [DecidableEq I] in
theorem Split.mem_below (hs : Split t order entries position k below here above) :
    e ∈ below ↔ e ∈ entries ∧ order e.1 k < 0 := by
  refine ⟨fun he => ⟨hs.mem_cases.mpr (Or.inl he), hs.below_lt e he⟩, fun ⟨he, hlt⟩ => ?_⟩
  rcases hs.mem_cases.mp he with he | he | he
  · exact he
  · exact absurd (hs.here_eq e he) hlt.ne
  · exact absurd (hs.above_gt e he) hlt.not_gt

omit [DecidableEq I] in
theorem Split.mem_here (hs : Split t order entries position k below here above) :
    e ∈ here ↔ e ∈ entries ∧ order e.1 k = 0 := by
  refine ⟨fun he => ⟨hs.mem_cases.mpr (Or.inr (Or.inl he)), hs.here_eq e he⟩, fun ⟨he, heq⟩ => ?_⟩
  rcases hs.mem_cases.mp he with he | he | he
  · exact absurd heq (hs.below_lt e he).ne
  · exact he
  · exact absurd heq (hs.above_gt e he).ne'

omit [DecidableEq I] in
theorem Split.mem_above (hs : Split t order entries position k below here above) :
    e ∈ above ↔ e ∈ entries ∧ 0 < order e.1 k := by
  refine ⟨fun he => ⟨hs.mem_cases.mpr (Or.inr (Or.inr he)), hs.above_gt e he⟩, fun ⟨he, hgt⟩ => ?_⟩
  rcases hs.mem_cases.mp he with he | he | he
  · exact absurd (hs.below_lt e he) hgt.not_gt
  · exact absurd (hs.here_eq e he) hgt.ne'
  · exact he

omit [DecidableEq I] in
/-- Except for `>` with an entry at the key, what is collected is what was asked for. -/
theorem Split.mem_collected (hs : Split t order entries position k below here above)
    (hop : op = .gt → here = []) :
    e ∈ collected below here above op ↔ e ∈ entries ∧ op.Holds (order e.1 k) := by
  cases op with
  | eq =>
      exact hs.mem_here
  | ne =>
      calc
        e ∈ below ++ above ↔ e ∈ below ∨ e ∈ above := List.mem_append
        _ ↔ e ∈ entries ∧ order e.1 k < 0 ∨ e ∈ entries ∧ 0 < order e.1 k :=
          or_congr hs.mem_below hs.mem_above
        _ ↔ e ∈ entries ∧ (order e.1 k < 0 ∨ 0 < order e.1 k) := and_or_left.symm
        _ ↔ e ∈ entries ∧ order e.1 k ≠ 0 := and_congr_right' ne_iff_lt_or_gt.symm
  | lt =>
      exact hs.mem_below
  | le =>
      calc
        e ∈ below ++ here ↔ e ∈ below ∨ e ∈ here := List.mem_append
        _ ↔ e ∈ entries ∧ order e.1 k < 0 ∨ e ∈ entries ∧ order e.1 k = 0 :=
          or_congr hs.mem_below hs.mem_here
        _ ↔ e ∈ entries ∧ (order e.1 k < 0 ∨ order e.1 k = 0) := and_or_left.symm
        _ ↔ e ∈ entries ∧ order e.1 k ≤ 0 := and_congr_right' le_iff_lt_or_eq.symm
  | gt =>
      -- The code collects the entries at the key as well, so there must be none.
      rw [collected, hop rfl, List.nil_append]
      exact hs.mem_above
  | ge =>
      calc
        e ∈ here ++ above ↔ e ∈ here ∨ e ∈ above := List.mem_append
        _ ↔ e ∈ entries ∧ order e.1 k = 0 ∨ e ∈ entries ∧ 0 < order e.1 k :=
          or_congr hs.mem_here hs.mem_above
        _ ↔ e ∈ entries ∧ (order e.1 k = 0 ∨ 0 < order e.1 k) := and_or_left.symm
        _ ↔ e ∈ entries ∧ 0 ≤ order e.1 k := by rw [le_iff_eq_or_lt, eq_comm]

omit [DecidableEq I] in
theorem Split.collected_sublist (hs : Split t order entries position k below here above)
    (op : CompareOp) : (collected below here above op).Sublist entries := by
  rw [hs.entries_eq]
  cases op with
  | eq => exact (List.sublist_append_right below here).trans (List.sublist_append_left _ above)
  | ne => exact (List.sublist_append_left below here).append (List.Sublist.refl above)
  | lt => exact (List.sublist_append_left below here).trans (List.sublist_append_left _ above)
  | le => exact List.sublist_append_left (below ++ here) above
  | gt => exact (List.sublist_append_right below here).append (List.Sublist.refl above)
  | ge => exact (List.sublist_append_right below here).append (List.Sublist.refl above)

/-- The whole call, once the loops have enough passes. -/
theorem scanKey_eq {km : KeyManager} {buf : Mem} {key : Row}
    (h : Documented t keys order entries position)
    (hkey : km.serializeFromKey buf key km.keySchema = .ok k) (hk : keys k)
    (hs : Split t order entries position k below here above) (hfuel : entries.length ≤ fuel) :
    t.scanKey km buf fuel key [] op.text =
      .ok (some (if (collected below here above op).map Prod.snd ≠ [] then .success
        else .keyNotFound, (collected below here above op).map Prod.snd)) := by
  simp only [scanKey, hkey, scan_eq h hk hs hfuel op, ok_bind, Option.map_some]

omit [DecidableEq I] in
/-- For `>`, the entry at the key is collected, and no other entry has its row id. -/
theorem not_exact_at_key (h : Documented t keys order entries position)
    (hs : Split t order entries position k below here above) (he : e ∈ entries)
    (hzero : order e.1 k = 0) (code : ScanErr) :
    ¬Exact order entries k .gt (code, (collected below here above .gt).map Prod.snd) := by
  intro hexact
  have hmem : e.2 ∈ (here ++ above).map Prod.snd :=
    List.mem_map_of_mem (List.mem_append_left _ (hs.mem_here.mpr ⟨he, hzero⟩))
  rcases (hexact.mem_iff e.2).mp hmem with ⟨e', he', hrid, hgt⟩
  have hsame : e' = e := List.inj_on_of_nodup_map h.rids_nodup he' he hrid
  rw [hsame, hzero] at hgt
  exact lt_irrefl 0 hgt

/-- `ScanKey` on an empty result yields exactly the entries asked for, unless it is asked for the
entries above a key that is there: then it yields that entry as well. -/
theorem scanKey_exact_iff {km : KeyManager} {buf : Mem} {key : Row} (ho : OrderOn keys order)
    (h : Documented t keys order entries position)
    (hkey : km.serializeFromKey buf key km.keySchema = .ok k) (hk : keys k) (op : CompareOp) :
    (∃ passes, ∀ fuel, passes ≤ fuel → ∃ out,
        t.scanKey km buf fuel key [] op.text = .ok (some out) ∧ Exact order entries k op out) ↔
      ¬(op = .gt ∧ ∃ e ∈ entries, order e.1 k = 0) := by
  rcases h.split ho hk with ⟨below, here, above, hs⟩
  constructor
  · rintro ⟨passes, hall⟩ ⟨rfl, e, he, hzero⟩
    rcases hall (max passes entries.length) (le_max_left _ _) with ⟨out, hout, hexact⟩
    rw [scanKey_eq h hkey hk hs (le_max_right _ _)] at hout
    cases hout
    exact not_exact_at_key h hs he hzero _ hexact
  · intro hnot
    have hop : op = .gt → here = [] := by
      intro hgt
      by_contra hne
      rcases List.exists_mem_of_ne_nil here hne with ⟨e, he⟩
      exact hnot ⟨hgt, e, hs.mem_here.mp he⟩
    refine ⟨entries.length, fun fuel hfuel => ⟨_, scanKey_eq h hkey hk hs hfuel, ?_⟩⟩
    refine ⟨?_, fun rid => ?_, ?_⟩
    · exact h.rids_nodup.sublist ((hs.collected_sublist op).map Prod.snd)
    · simp only [List.mem_map, hs.mem_collected hop]
      exact ⟨fun ⟨e, ⟨he, hop⟩, hrid⟩ => ⟨e, he, hrid, hop⟩,
        fun ⟨e, he, hrid, hop⟩ => ⟨e, ⟨he, hop⟩, hrid⟩⟩
    · have hempty : (collected below here above op).map Prod.snd = [] ↔
          ∀ e ∈ entries, ¬op.Holds (order e.1 k) := by
        rw [List.map_eq_nil_iff, List.eq_nil_iff_forall_not_mem]
        simp only [hs.mem_collected hop, not_and]
      rw [← hempty]
      by_cases hnil : (collected below here above op).map Prod.snd = []
      · simp only [hnil, ne_eq, not_true_eq_false, if_false]
      · simp only [hnil, ne_eq, not_false_eq_true, if_true, reduceCtorEq]

end exact

/-! ## A tree that behaves as documented -/

/-- The tree of a sorted list: an iterator is a place in the list. -/
def ofList (order : Mem → Mem → Int) (entries : List (Mem × RowId)) : BPlusTree Nat where
  getBeginIterator := 0
  getBeginIteratorAt k := entries.findIdx fun e => 0 ≤ order e.1 k
  getEndIterator := entries.length
  current i := entries.getD i (fun _ => 0, INVALID_ROWID)
  next i := i + 1
  getValue k result :=
    match entries.find? fun e => order e.1 k = 0 with
    | some e => (true, result ++ [e.2])
    | none => (false, result)

omit [DecidableEq I] in
/-- Two entries of a sorted list do not both stand at the key. -/
theorem eq_of_at_key (ho : OrderOn keys order)
    (hsorted : entries.Pairwise fun e e' => order e.1 e'.1 < 0)
    (huse : ∀ e ∈ entries, keys e.1) (hk : keys k) {e e' : Mem × RowId} (he : e ∈ entries)
    (he' : e' ∈ entries) (hzero : order e.1 k = 0) (hzero' : order e'.1 k = 0) : e = e' := by
  have hnot : ∀ {a b : Mem × RowId}, a ∈ entries → b ∈ entries → order a.1 k = 0 →
      order b.1 k = 0 → ¬order a.1 b.1 < 0 := by
    intro a b ha hb hak hbk hab
    have hpos := lt_of_behind ho (huse a ha) (huse b hb) hk hab hak.ge
    exact absurd hbk hpos.ne'
  rcases List.getElem_of_mem he with ⟨i, hi, rfl⟩
  rcases List.getElem_of_mem he' with ⟨j, hj, rfl⟩
  rcases lt_trichotomy i j with hij | rfl | hij
  · exact absurd (List.pairwise_iff_getElem.mp hsorted i j hi hj hij) (hnot he he' hzero hzero')
  · rfl
  · exact absurd (List.pairwise_iff_getElem.mp hsorted j i hj hi hij) (hnot he' he hzero' hzero)

theorem ofList_documented (ho : OrderOn keys order) (huse : ∀ e ∈ entries, keys e.1)
    (hsorted : entries.Pairwise fun e e' => order e.1 e'.1 < 0)
    (hnodup : (entries.map Prod.snd).Nodup) :
    Documented (ofList order entries) keys order entries id where
  begins := rfl
  ends := rfl
  distinct := fun i j _ _ heq => heq
  next := fun i _ => rfl
  current := by
    intro i e hi
    simp only [ofList, id_eq, List.getD_eq_getElem?_getD, hi, Option.getD_some]
  seeks := by
    intro k _
    -- `findIdx` stops at the first entry that is not below the key.
    refine ⟨_, List.findIdx_le_length, rfl, fun e he => ?_, fun e he => ?_⟩
    · rcases List.mem_take_iff_getElem.mp he with ⟨i, hi, rfl⟩
      have hbefore := List.not_of_lt_findIdx (lt_of_lt_of_le hi (Nat.min_le_left _ _))
      simpa using hbefore
    · rcases List.getElem?_eq_some_iff.mp he with ⟨hlt, rfl⟩
      have hfirst := List.findIdx_getElem (w := hlt)
      simpa using hfirst
  finds := by
    intro k e result hk he hzero
    have hfind : entries.find? (fun e => decide (order e.1 k = 0)) = some e := by
      cases hsome : entries.find? fun e => decide (order e.1 k = 0) with
      | none =>
          have hno := List.find?_eq_none.mp hsome e he
          simp [hzero] at hno
      | some e' =>
          have hat : order e'.1 k = 0 := by simpa using List.find?_some hsome
          rw [eq_of_at_key ho hsorted huse hk (List.mem_of_find?_eq_some hsome) he hat hzero]
    simp only [ofList, hfind]
  misses := by
    intro k result _ hno
    have hfind : entries.find? (fun e => decide (order e.1 k = 0)) = none := by
      rw [List.find?_eq_none]
      intro e he
      simpa using hno e he
    simp only [ofList, hfind]
  in_use := huse
  sorted := hsorted
  rids_nodup := hnodup

/-! ## The order of `CompareKeys` -/

open KeyManager

/-- What `CompareKeys` returns; 0 where it does not return. -/
def keyOrder (km : KeyManager) (a b : Mem) : Int :=
  match km.compareKeys a b with
  | .ok x => x
  | .error _ => 0

/-- The keys of these rows. -/
def KeyOf (km : KeyManager) (rows : Row → Prop) (m : Mem) : Prop :=
  ∃ row, rows row ∧ km.IsKey m row

/-- On rows with the same null columns that do not first differ in a string, `CompareKeys` orders
the keys. -/
theorem keyOrder_orderOn {km : KeyManager} {rows : Row → Prop} (hcols : KeyedSchema km.keySchema)
    (hschema : ∀ a, rows a → a.HasSchema km.keySchema)
    (halike : ∀ a b, rows a → rows b →
      nullColumns a = nullColumns b ∧ ¬DifferAtChar a.fields b.fields) :
    OrderOn (KeyOf km rows) (keyOrder km) := by
  have hsign : ∀ {a b ka kb}, rows a → rows b → km.IsKey ka a → km.IsKey kb b →
      keyOrder km ka kb = sign (rowKey a.fields) (rowKey b.fields) := by
    intro a b ka kb ha hb hka hkb
    rcases halike a b ha hb with ⟨hnull, hchar⟩
    simp only [keyOrder, compareKeys_sign hcols (hschema a ha) (hschema b hb) hka hkb hnull hchar]
  constructor
  · rintro ka kb ⟨a, ha, hka⟩ ⟨b, hb, hkb⟩
    rw [hsign ha hb hka hkb, hsign hb ha hkb hka, sign_swap (rowKey a.fields)]
    omega
  · rintro ka kb kc ⟨a, ha, hka⟩ ⟨b, hb, hkb⟩ ⟨c, hc, hkc⟩ hab hbc
    rw [hsign ha hb hka hkb, sign_le_zero] at hab
    rw [hsign hb hc hkb hkc, sign_le_zero] at hbc
    rw [hsign ha hc hka hkc, sign_le_zero]
    exact le_trans hab hbc

/-- A row of one integer. -/
def intRow (x : Int32) : Row :=
  ⟨INVALID_ROWID, [.int x]⟩

theorem intRow_keys (x : Int32) : Keys intKey (fun nulls => nulls = [false]) (intRow x) where
  schema := by simp [intRow, Row.HasSchema, intKey, Column.ints, Field.HasType, Field.getTypeId]
  fits := by
    have hlen : (intRow x).encode.length = 17 := by
      simp [intRow, Row.encode, Row.ridBytes, nullBitmap_length, Row.encodeFields, Field.isNull,
        Field.encode]
    rw [hlen]
    decide
  nulls := rfl

theorem intKey_orderOn :
    OrderOn (KeyOf intKey (Keys intKey fun nulls => nulls = [false])) (keyOrder intKey) := by
  refine keyOrder_orderOn intKey_keyed (fun a ha => ha.schema) fun a b ha hb => ⟨?_, ?_⟩
  · rw [ha.nulls, hb.nulls]
  · exact not_differAtChar (by simp [intKey, Column.ints]) ha.schema _

theorem intRow_key (x : Int32) : ∃ k, intKey.serializeFromKey (fun _ => 0) (intRow x)
    intKey.keySchema = .ok k := by
  have hkey : intKey.serializeFromKey (fun _ => 0) (intRow x) intKey.keySchema = _ :=
    serializeFromKey_eq (intRow_keys x).schema _
  rw [if_pos (intRow_keys x).fits] at hkey
  exact ⟨_, hkey⟩

theorem keyOrder_intRow {x y : Int32} {kx ky : Mem}
    (hx : intKey.serializeFromKey (fun _ => 0) (intRow x) intKey.keySchema = .ok kx)
    (hy : intKey.serializeFromKey (fun _ => 0) (intRow y) intKey.keySchema = .ok ky) :
    keyOrder intKey kx ky = sign (rowKey (intRow x).fields) (rowKey (intRow y).fields) := by
  have hchar := not_differAtChar (by simp [intKey, Column.ints]) (intRow_keys x).schema
    (intRow y).fields
  simp only [keyOrder, compareKeys_sign intKey_keyed (intRow_keys x).schema (intRow_keys y).schema
    ⟨_, hx⟩ ⟨_, hy⟩ rfl hchar]

/-- A tree of the keys of integers, in their order, behaves as documented. -/
theorem ofList_ints (entries : List (Mem × RowId))
    (hkeys : ∀ e ∈ entries, ∃ x, intKey.serializeFromKey (fun _ => 0) (intRow x)
      intKey.keySchema = .ok e.1)
    (hsorted : entries.Pairwise fun e e' => keyOrder intKey e.1 e'.1 < 0)
    (hnodup : (entries.map Prod.snd).Nodup) :
    Documented (ofList (keyOrder intKey) entries)
      (KeyOf intKey (Keys intKey fun nulls => nulls = [false])) (keyOrder intKey) entries id := by
  refine ofList_documented intKey_orderOn (fun e he => ?_) hsorted hnodup
  rcases hkeys e he with ⟨x, hx⟩
  exact ⟨intRow x, intRow_keys x, _, hx⟩

/-- Asked for the keys above 5 in an index that has 5, the scan yields the row of 5. -/
theorem scan_above_key_yields_it :
    ∃ (k : Mem) (rid : RowId),
      intKey.serializeFromKey (fun _ => 0) (intRow 5) intKey.keySchema = .ok k ∧
      Documented (ofList (keyOrder intKey) [(k, rid)])
        (KeyOf intKey (Keys intKey fun nulls => nulls = [false])) (keyOrder intKey) [(k, rid)] id ∧
      ¬∃ passes, ∀ fuel, passes ≤ fuel →
        ∃ out, (ofList (keyOrder intKey) [(k, rid)]).scanKey intKey (fun _ => 0) fuel (intRow 5) []
          CompareOp.gt.text = .ok (some out) ∧ Exact (keyOrder intKey) [(k, rid)] k .gt out := by
  rcases intRow_key 5 with ⟨k, hk⟩
  have hdoc := ofList_ints [(k, ⟨0, 0⟩)]
    (fun e he => ⟨5, by rw [List.mem_singleton.mp he]; exact hk⟩) (List.pairwise_singleton _ _)
    (List.nodup_singleton _)
  have huse : KeyOf intKey (Keys intKey fun nulls => nulls = [false]) k :=
    ⟨intRow 5, intRow_keys 5, _, hk⟩
  have hzero : keyOrder intKey k k = 0 := by
    rw [keyOrder_intRow hk hk]
    rfl
  refine ⟨k, ⟨0, 0⟩, hk, hdoc, ?_⟩
  rintro ⟨passes, hall⟩
  rcases hdoc.split intKey_orderOn huse with ⟨below, here, above, hs⟩
  rcases hall (max passes 1) (le_max_left _ _) with ⟨out, hout, hexact⟩
  have hfuel : [(k, (⟨0, 0⟩ : RowId))].length ≤ max passes 1 := le_max_right _ _
  rw [scanKey_eq hdoc hk huse hs hfuel] at hout
  cases hout
  exact not_exact_at_key hdoc hs (List.mem_singleton_self _) hzero _ hexact

/-- Asked for the keys above 3, which is not one of its keys 1, 5 and 7, the scan yields the rows of
5 and 7. -/
theorem scanKey_exact_iff_absent :
    ∃ (k k₁ k₅ k₇ : Mem), intKey.serializeFromKey (fun _ => 0) (intRow 3) intKey.keySchema = .ok k ∧
      intKey.serializeFromKey (fun _ => 0) (intRow 1) intKey.keySchema = .ok k₁ ∧
      intKey.serializeFromKey (fun _ => 0) (intRow 5) intKey.keySchema = .ok k₅ ∧
      intKey.serializeFromKey (fun _ => 0) (intRow 7) intKey.keySchema = .ok k₇ ∧
      let entries := [(k₁, ⟨0, 0⟩), (k₅, ⟨0, 1⟩), (k₇, ⟨0, 2⟩)]
      Documented (ofList (keyOrder intKey) entries)
        (KeyOf intKey (Keys intKey fun nulls => nulls = [false])) (keyOrder intKey) entries id ∧
      ∃ passes, ∀ fuel, passes ≤ fuel →
        ∃ out, (ofList (keyOrder intKey) entries).scanKey intKey (fun _ => 0) fuel (intRow 3) []
          CompareOp.gt.text = .ok (some out) ∧ Exact (keyOrder intKey) entries k .gt out := by
  rcases intRow_key 3 with ⟨k, hk⟩
  rcases intRow_key 1 with ⟨k₁, hk₁⟩
  rcases intRow_key 5 with ⟨k₅, hk₅⟩
  rcases intRow_key 7 with ⟨k₇, hk₇⟩
  have h15 : keyOrder intKey k₁ k₅ < 0 := by
    rw [keyOrder_intRow hk₁ hk₅]
    decide
  have h17 : keyOrder intKey k₁ k₇ < 0 := by
    rw [keyOrder_intRow hk₁ hk₇]
    decide
  have h57 : keyOrder intKey k₅ k₇ < 0 := by
    rw [keyOrder_intRow hk₅ hk₇]
    decide
  have hne : ∀ {x : Int32} {kx : Mem},
      intKey.serializeFromKey (fun _ => 0) (intRow x) intKey.keySchema = .ok kx →
      sign (rowKey (intRow x).fields) (rowKey (intRow 3).fields) ≠ 0 →
      keyOrder intKey kx k ≠ 0 := by
    intro x kx hx hsign
    rwa [keyOrder_intRow hx hk]
  have hdoc := ofList_ints [(k₁, ⟨0, 0⟩), (k₅, ⟨0, 1⟩), (k₇, ⟨0, 2⟩)] (by
      intro e he
      simp only [List.mem_cons, List.not_mem_nil, or_false] at he
      rcases he with rfl | rfl | rfl
      · exact ⟨1, hk₁⟩
      · exact ⟨5, hk₅⟩
      · exact ⟨7, hk₇⟩)
    (by simp [h15, h17, h57])
    (show ([⟨0, 0⟩, ⟨0, 1⟩, ⟨0, 2⟩] : List RowId).Nodup by decide)
  refine ⟨k, k₁, k₅, k₇, hk, hk₁, hk₅, hk₇, hdoc, ?_⟩
  refine (scanKey_exact_iff intKey_orderOn hdoc hk ⟨intRow 3, intRow_keys 3, _, hk⟩ .gt).mpr ?_
  rintro ⟨_, e, he, hzero⟩
  simp only [List.mem_cons, List.not_mem_nil, or_false] at he
  rcases he with rfl | rfl | rfl
  · exact hne hk₁ (by decide) hzero
  · exact hne hk₅ (by decide) hzero
  · exact hne hk₇ (by decide) hzero

end BPlusTree
end MiniSQL
