import MiniSQL.Storage.DiskManager

/-!
# PhysicalFile — the pages of the database as bytes of a file

`ReadPhysicalPage`, `WritePhysicalPage` and `GetFileSize` of `storage/disk_manager.cpp`, one level
below `DiskManager`.  The write path computes byte offsets in 64 bits, the read path and the file
size are `int`.  Below 2 GiB the two agree, and the file is the map of pages that `DiskManager`
takes it for (`Stores`); above, a read can miss the page or hit another one.
-/

namespace MiniSQL

open Lib

/-- The stream `db_io_` and the file behind it.  Bytes that were never written are zero.  Once
`fail` is set no read and no write goes through, and nothing clears it. -/
structure PhysicalFile where
  size : Nat
  bytes : Mem
  fail : Bool

namespace PhysicalFile

/-! ## The model -/

/-- A new file, just opened. -/
def fresh : PhysicalFile :=
  { size := 0, bytes := fun _ => 0, fail := false }

/-- `st_size`, cut down to `int`. -/
def getFileSize (f : PhysicalFile) : Int32 :=
  Int32.ofNat f.size

/-- `seekp`: there is no position before the start of the file. -/
def seekp (f : PhysicalFile) (offset : Int) : PhysicalFile :=
  if offset < 0 then { f with fail := true } else f

def readPhysicalPage (f : PhysicalFile) (physicalPageId : PageId) : PageData × PhysicalFile :=
  let offset : Int32 := physicalPageId * 4096
  if f.getFileSize ≤ offset then (Buf.zero PAGE_SIZE, f)
  else
    let f₁ := f.seekp offset.toInt
    let pos := offset.toInt.toNat
    let readCount := if f₁.fail then 0 else min PAGE_SIZE (f₁.size - pos)
    -- What the stream did not deliver is set to zero.
    (Buf.ofMem PAGE_SIZE fun i => if i < readCount then f₁.bytes (pos + i) else 0,
      { f₁ with fail := f₁.fail || decide (readCount < PAGE_SIZE) })

/-- The offset is a `size_t`, which for every `page_id_t` is the product as a 64-bit position. -/
def writePhysicalPage (f : PhysicalFile) (physicalPageId : PageId) (pageData : PageData) :
    PhysicalFile :=
  let offset : Int := physicalPageId.toInt * PAGE_SIZE
  let f₁ := f.seekp offset
  let pos := offset.toNat
  if f₁.fail then f₁
  else
    { f₁ with
      size := max f₁.size (pos + PAGE_SIZE)
      bytes := fun i =>
        if pos ≤ i ∧ i < pos + PAGE_SIZE then pageData.mem (i - pos) else f₁.bytes i }

def readPage (f : PhysicalFile) (logicalPageId : PageId) : Result (PageData × PhysicalFile) := do
  assert (0 ≤ logicalPageId.toInt) "Invalid page id."
  .ok (f.readPhysicalPage (DiskManager.mapPageId logicalPageId))

def writePage (f : PhysicalFile) (logicalPageId : PageId) (pageData : PageData) :
    Result PhysicalFile := do
  assert (0 ≤ logicalPageId.toInt) "Invalid page id."
  .ok (f.writePhysicalPage (DiskManager.mapPageId logicalPageId) pageData)

/-- A sequence of `WritePage` calls. -/
def writeAll (f : PhysicalFile) (ws : List (PageId × PageData)) : Result PhysicalFile :=
  ws.foldlM (fun f w => f.writePage w.1 w.2) f

/-! ## Pages of the file -/

/-- The bytes of physical page `k`. -/
def pageAt (f : PhysicalFile) (k : Nat) : PageData :=
  Buf.ofMem PAGE_SIZE fun i => f.bytes (k * PAGE_SIZE + i)

/-- The stream works, and the file ends at the end of a page. -/
structure Sound (f : PhysicalFile) : Prop where
  good : f.fail = false
  whole : PAGE_SIZE ∣ f.size
  tail : ∀ i, f.size ≤ i → f.bytes i = 0

/-- A number of bytes converted to `int`. -/
def asInt (n : Nat) : Int :=
  (Int32.ofNat n).toInt

variable {f : PhysicalFile} {q : PageId} {k : Nat} {d : PageData}

theorem seekp_of_neg {offset : Int} (h : offset < 0) : f.seekp offset = { f with fail := true } :=
  if_pos h

theorem seekp_of_nonneg {offset : Int} (h : 0 ≤ offset) : f.seekp offset = f :=
  if_neg (not_lt.mpr h)

theorem fresh_sound : Sound fresh :=
  ⟨rfl, by simp [fresh], fun _ _ => rfl⟩

theorem asInt_eq (n : Nat) : asInt n = (n : Int).bmod (2 ^ 32) :=
  Int32.toInt_ofNat'

theorem offset_ofNat (k : Nat) :
    (Int32.ofNat k * 4096 : Int32).toInt = asInt (k * PAGE_SIZE) := by
  have hsize : (4096 : Int32).toInt = (PAGE_SIZE : Int) := rfl
  calc (Int32.ofNat k * 4096 : Int32).toInt
      = (asInt k * (4096 : Int32).toInt).bmod (2 ^ 32) := Int32.toInt_mul ..
    _ = ((k : Int).bmod (2 ^ 32) * PAGE_SIZE).bmod (2 ^ 32) := by rw [hsize, asInt_eq]
    _ = ((k * PAGE_SIZE : Nat) : Int).bmod (2 ^ 32) := by
        rw [Int.bmod_mul_bmod, ← Nat.cast_mul]
    _ = asInt (k * PAGE_SIZE) := (asInt_eq _).symm

theorem eq_ofNat (hq : q.toInt = k) : q = Int32.ofNat k := by
  rw [← Int32.ofInt_toInt q, hq, Int32.ofInt_eq_ofNat]

/-- An offset that is not negative as an `int` is that of the page 20 bits tell apart. -/
theorem asInt_offset (h : 0 ≤ asInt (k * PAGE_SIZE)) :
    asInt (k * PAGE_SIZE) = (k % 2 ^ 20 * PAGE_SIZE : Nat) := by
  rw [asInt_eq, Int.bmod_def] at *
  simp only [PAGE_SIZE] at *
  split at h <;> split <;> omega

theorem asInt_le (n : Nat) : asInt n ≤ n := by
  rw [asInt_eq, Int.bmod_def]
  split <;> omega

theorem asInt_dvd {n : Nat} (h : PAGE_SIZE ∣ n) : (PAGE_SIZE : Int) ∣ asInt n := by
  rw [asInt_eq, Int.bmod_def]
  simp only [PAGE_SIZE] at *
  split <;> omega

/-- The read path finds a page: its offset, as an `int`, lies in the file, whose size is an
`int`. -/
def Finds (size k : Nat) : Prop :=
  0 ≤ asInt (k * PAGE_SIZE) ∧ asInt (k * PAGE_SIZE) < asInt size

instance (size k : Nat) : Decidable (Finds size k) :=
  inferInstanceAs (Decidable (_ ∧ _))

/-- A read finds a page and the stream stays as it is, or it finds none: then the stream fails when
the position is refused. -/
theorem readPhysicalPage_cases (hf : Sound f) (k : Nat) :
    Finds f.size k ∧ f.readPhysicalPage (Int32.ofNat k) = (f.pageAt (k % 2 ^ 20), f) ∨
      ¬Finds f.size k ∧ f.readPhysicalPage (Int32.ofNat k) =
        (Buf.zero PAGE_SIZE, { f with fail := decide (asInt (k * PAGE_SIZE) < asInt f.size) }) := by
  have hoff := offset_ofNat k
  have hle : f.getFileSize ≤ Int32.ofNat k * 4096 ↔ asInt f.size ≤ asInt (k * PAGE_SIZE) := by
    rw [Int32.le_iff_toInt_le, hoff]
    rfl
  have hgood : { f with fail := false } = f := by
    rw [← hf.good]
  unfold readPhysicalPage
  by_cases hend : f.getFileSize ≤ Int32.ofNat k * 4096
  · have hnot : ¬Finds f.size k := fun h => absurd (hle.mp hend) (not_le.mpr h.2)
    refine .inr ⟨hnot, ?_⟩
    simp only [hend, if_true, decide_eq_false (not_lt.mpr (hle.mp hend)), hgood]
  · have hlt : asInt (k * PAGE_SIZE) < asInt f.size := by
      rw [hle] at hend
      omega
    by_cases hneg : asInt (k * PAGE_SIZE) < 0
    · -- The position is refused, and nothing is read.
      have hnot : ¬Finds f.size k := fun h => absurd h.1 (not_le.mpr hneg)
      refine .inr ⟨hnot, ?_⟩
      simp only [hend, if_false, hoff, seekp_of_neg hneg, if_true, Nat.not_lt_zero, Bool.true_or,
        decide_eq_true hlt]
      rfl
    · have hfinds : Finds f.size k := ⟨by omega, hlt⟩
      have hpos := asInt_offset hfinds.1
      -- Both the offset and the end of the file are at page boundaries, so a whole page is read.
      have hroom : PAGE_SIZE ≤ f.size - k % 2 ^ 20 * PAGE_SIZE := by
        have h1 := asInt_dvd hf.whole
        have h2 := asInt_le f.size
        simp only [PAGE_SIZE] at *
        omega
      have hseek := seekp_of_nonneg (f := f) hfinds.1
      rw [hpos] at hseek
      refine .inl ⟨hfinds, ?_⟩
      simp only [hend, if_false, hoff, hpos, hseek, hf.good, Bool.false_eq_true,
        Int.toNat_natCast, min_eq_left hroom, Nat.lt_irrefl, decide_false, Bool.or_false, hgood]
      refine Prod.ext ?_ rfl
      funext i
      simp only [Buf.ofMem, pageAt, i.2, if_true]

theorem readPhysicalPage_eq (hf : Sound f) (hq : q.toInt = k) :
    (f.readPhysicalPage q).1 =
      if Finds f.size k then f.pageAt (k % 2 ^ 20) else Buf.zero PAGE_SIZE := by
  rw [eq_ofNat hq]
  rcases readPhysicalPage_cases hf k with ⟨hfinds, hread⟩ | ⟨hnot, hread⟩
  · rw [hread, if_pos hfinds]
  · rw [hread, if_neg hnot]

/-- Reading changes nothing but the state of the stream, which does not recover. -/
theorem readPhysicalPage_state (f : PhysicalFile) (q : PageId) :
    ∃ b, (f.readPhysicalPage q).2 = { f with fail := b } ∧ (f.fail = true → b = true) := by
  unfold readPhysicalPage
  by_cases hend : f.getFileSize ≤ q * 4096
  · exact ⟨f.fail, by simp only [hend, if_true], id⟩
  · simp only [hend, if_false, seekp]
    split
    · exact ⟨true, rfl, fun _ => rfl⟩
    · exact ⟨_, rfl, fun h => by rw [h, Bool.true_or]⟩

theorem seekp_of_fail (hf : f.fail = true) (offset : Int) : f.seekp offset = f := by
  rw [seekp]
  split
  · rw [← hf]
  · rfl

/-- A stream that has failed delivers nothing. -/
theorem readPhysicalPage_of_fail (hf : f.fail = true) (q : PageId) :
    f.readPhysicalPage q = (Buf.zero PAGE_SIZE, f) := by
  unfold readPhysicalPage
  by_cases hend : f.getFileSize ≤ q * 4096
  · simp only [hend, if_true]
  · simp only [hend, if_false, seekp_of_fail hf, hf, if_true, Nat.not_lt_zero, Bool.true_or]
    rw [← hf]
    rfl

theorem writePhysicalPage_good (hf : Sound f) (hq : q.toInt = k) (d : PageData) :
    f.writePhysicalPage q d =
      { size := max f.size (k * PAGE_SIZE + PAGE_SIZE)
        bytes := fun i => if k * PAGE_SIZE ≤ i ∧ i < k * PAGE_SIZE + PAGE_SIZE
          then d.mem (i - k * PAGE_SIZE) else f.bytes i
        fail := false } := by
  have hpos : q.toInt * (PAGE_SIZE : Int) = (k * PAGE_SIZE : Nat) := by
    rw [hq]
    push_cast
    ring
  have hnonneg : (0 : Int) ≤ (k * PAGE_SIZE : Nat) := Int.natCast_nonneg _
  simp only [writePhysicalPage, hpos, seekp_of_nonneg hnonneg, hf.good, Bool.false_eq_true,
    if_false, Int.toNat_natCast]

/-- A stream that has failed writes nothing. -/
theorem writePhysicalPage_of_fail (hf : f.fail = true) (q : PageId) (d : PageData) :
    f.writePhysicalPage q d = f := by
  simp only [writePhysicalPage, seekp_of_fail hf, hf, if_true]

theorem writePhysicalPage_sound (hf : Sound f) (hq : q.toInt = k) (d : PageData) :
    Sound (f.writePhysicalPage q d) := by
  rw [writePhysicalPage_good hf hq]
  refine ⟨rfl, ?_, fun i hi => ?_⟩
  · have := hf.whole
    simp only [PAGE_SIZE] at *
    omega
  · have htail := hf.tail i
    simp only at hi ⊢
    rw [if_neg (by omega)]
    exact htail (by omega)

theorem pageAt_writePhysicalPage (hf : Sound f) (hq : q.toInt = k) (d : PageData) (j : Nat) :
    (f.writePhysicalPage q d).pageAt j = if j = k then d else f.pageAt j := by
  rw [writePhysicalPage_good hf hq]
  funext i
  have hi := i.2
  by_cases hjk : j = k
  · subst hjk
    simp [pageAt, Buf.ofMem, Buf.mem]
  · -- Different pages do not overlap.
    have hout : ¬(k * PAGE_SIZE ≤ j * PAGE_SIZE + i ∧
        j * PAGE_SIZE + i < k * PAGE_SIZE + PAGE_SIZE) := by
      simp only [PAGE_SIZE] at *
      omega
    simp only [pageAt, Buf.ofMem, hout, if_false, hjk]

/-- A stream that has failed writes nothing; one that works overwrites the page. -/
theorem writePhysicalPage_cases (hf : f.fail = false → Sound f) (hq : q.toInt = k) (d : PageData) :
    (f.fail = true ∧ f.writePhysicalPage q d = f) ∨
      (Sound f ∧ Sound (f.writePhysicalPage q d) ∧
        ∀ j, (f.writePhysicalPage q d).pageAt j = if j = k then d else f.pageAt j) := by
  cases hfail : f.fail with
  | true =>
      exact .inl ⟨rfl, writePhysicalPage_of_fail hfail q d⟩
  | false =>
      have hsound := hf hfail
      exact .inr ⟨hsound, writePhysicalPage_sound hsound hq d,
        pageAt_writePhysicalPage hsound hq d⟩

/-! ## The page map of `DiskManager` -/

/-- The file holds the pages of the manager. -/
def Stores (f : PhysicalFile) (dm : DiskManager) : Prop :=
  ∀ q : PageId, ∀ k : Nat, q.toInt = k → f.pageAt k = dm.file q

theorem Stores.writePhysicalPage {dm : DiskManager} (h : Stores f dm) (hf : Sound f)
    (hq : q.toInt = k) (d : PageData) :
    Stores (f.writePhysicalPage q d) (dm.writePhysicalPage q d) := by
  intro r j hr
  rw [pageAt_writePhysicalPage hf hq]
  by_cases hjk : j = k
  · have hrq : r = q := Int32.toInt_inj.mp (by rw [hr, hq, hjk])
    rw [if_pos hjk, hrq]
    simp [DiskManager.writePhysicalPage]
  · have hrq : r ≠ q := by
      rintro rfl
      exact hjk (Int.ofNat_inj.mp (hr.symm.trans hq))
    rw [if_neg hjk, h r j hr]
    simp [DiskManager.writePhysicalPage, Function.update_of_ne hrq]

theorem asInt_of_lt {n : Nat} (h : n < 2 ^ 31) : asInt n = n :=
  Int32.toInt_ofNat_of_lt h

/-- Below 2 GiB a read of the file is a read of the page map. -/
theorem Stores.readPhysicalPage {dm : DiskManager} (h : Stores f dm) (hf : Sound f)
    (hq : q.toInt = k) (hk : k < 2 ^ 19) (hsize : f.size < 2 ^ 31) :
    (f.readPhysicalPage q).1 = dm.readPhysicalPage q := by
  rw [readPhysicalPage_eq hf hq, DiskManager.readPhysicalPage, ← h q k hq,
    Nat.mod_eq_of_lt (lt_trans hk (by decide))]
  split
  · rfl
  · rename_i hnot
    -- Past the end of the file: a page that was never written.
    have hoff : k * PAGE_SIZE < 2 ^ 31 := by
      simp only [PAGE_SIZE]
      omega
    have hend : f.size ≤ k * PAGE_SIZE := by
      by_contra hlt
      refine hnot ⟨?_, ?_⟩
      · rw [asInt_of_lt hoff]
        omega
      · rw [asInt_of_lt hoff, asInt_of_lt hsize]
        omega
    funext i
    have hzero : f.bytes (k * PAGE_SIZE + i) = 0 := hf.tail _ (le_trans hend (Nat.le_add_right _ _))
    rw [pageAt, Buf.ofMem, hzero, Buf.zero]

/-! ## Reading after writing -/

/-- The logical ids one meta page can manage. -/
def ValidId (p : PageId) : Prop :=
  0 ≤ p.toInt ∧ sizeT p < MAX_VALID_PAGE_ID

instance (p : PageId) : Decidable (ValidId p) :=
  inferInstanceAs (Decidable (_ ∧ _))

/-- The number of the physical page of a logical page. -/
def physicalPage (p : PageId) : Nat :=
  sizeT p / BITMAP_SIZE + sizeT p + 2

/-- The end of the file after these writes. -/
def fileSize (ws : List (PageId × PageData)) : Nat :=
  ws.foldl (fun size w => max size (physicalPage w.1 * PAGE_SIZE + PAGE_SIZE)) 0

/-- The data last written to physical page `k`, zeros if there are none. -/
def storedAt (ws : List (PageId × PageData)) (k : Nat) : PageData :=
  ws.foldl (fun d w => if physicalPage w.1 = k then w.2 else d) (Buf.zero PAGE_SIZE)

/-- The data of the last `WritePage(p)`, zeros if there was none. -/
def lastWrite (ws : List (PageId × PageData)) (p : PageId) : PageData :=
  ws.foldl (fun d w => if w.1 = p then w.2 else d) (Buf.zero PAGE_SIZE)

/-- The condition on the writes and the page: where the read path finds a page it is the page
itself (below 2 GiB) or one with the same data, and where it finds none the page holds zeros. -/
def ReadsBack (ws : List (PageId × PageData)) (p : PageId) : Prop :=
  let k := physicalPage p
  if Finds (fileSize ws) k then k < 2 ^ 19 ∨ storedAt ws (k % 2 ^ 20) = lastWrite ws p
  else lastWrite ws p = Buf.zero PAGE_SIZE

theorem mapPageId_toInt {p : PageId} (hp : ValidId p) :
    (DiskManager.mapPageId p).toInt = physicalPage p := by
  have := hp.2
  refine ofNat_toInt ?_
  simp only [MAX_VALID_PAGE_ID, BITMAP_SIZE] at *
  omega

theorem physicalPage_inj {p q : PageId} (hp : ValidId p) (hq : ValidId q)
    (h : physicalPage p = physicalPage q) : p = q := by
  refine DiskManager.mapPageId_inj hp.1 hq.1 (Int32.toInt_inj.mp ?_)
  rw [mapPageId_toInt hp, mapPageId_toInt hq, h]

theorem storedAt_physicalPage {ws : List (PageId × PageData)} (hws : ∀ w ∈ ws, ValidId w.1)
    {p : PageId} (hp : ValidId p) : storedAt ws (physicalPage p) = lastWrite ws p := by
  refine List.foldl_ext _ _ _ fun d w hw => ?_
  have hiff : physicalPage w.1 = physicalPage p ↔ w.1 = p :=
    ⟨physicalPage_inj (hws w hw) hp, fun h => by rw [h]⟩
  simp only [hiff]

/-- What a sequence of writes makes of a file. -/
theorem writeAll_spec (hf : Sound f) {ws : List (PageId × PageData)}
    (hws : ∀ w ∈ ws, ValidId w.1) :
    ∃ f', f.writeAll ws = .ok f' ∧ Sound f' ∧
      f'.size = ws.foldl (fun size w => max size (physicalPage w.1 * PAGE_SIZE + PAGE_SIZE))
        f.size ∧
      ∀ k, f'.pageAt k = ws.foldl (fun d w => if physicalPage w.1 = k then w.2 else d)
        (f.pageAt k) := by
  induction ws generalizing f with
  | nil =>
      exact ⟨f, rfl, hf, rfl, fun _ => rfl⟩
  | cons w ws ih =>
      have hw : ValidId w.1 := hws w (List.mem_cons_self ..)
      have hq := mapPageId_toInt hw
      have hwrite : f.writePage w.1 w.2 =
          .ok (f.writePhysicalPage (DiskManager.mapPageId w.1) w.2) := by
        simp [writePage, hw.1]
      rcases ih (writePhysicalPage_sound hf hq w.2) fun v hv => hws v (List.mem_cons_of_mem _ hv)
        with ⟨f', hall, hsound, hsize, hpages⟩
      refine ⟨f', ?_, hsound, ?_, fun k => ?_⟩
      · rw [writeAll, List.foldlM_cons, hwrite]
        exact hall
      · rw [hsize, writePhysicalPage_good hf hq, List.foldl_cons]
      · rw [hpages, pageAt_writePhysicalPage hf hq, List.foldl_cons]
        simp only [eq_comm]

/-- After any sequence of `WritePage` calls on a new file, `ReadPage(p)` returns the data of the
last `WritePage(p)` exactly when `ReadsBack` holds. -/
theorem readPage_after_writes_iff {ws : List (PageId × PageData)} (hws : ∀ w ∈ ws, ValidId w.1)
    {p : PageId} (hp : ValidId p) :
    ∃ f d f', fresh.writeAll ws = .ok f ∧ f.readPage p = .ok (d, f') ∧
      (d = lastWrite ws p ↔ ReadsBack ws p) := by
  rcases writeAll_spec fresh_sound hws with ⟨f, hall, hsound, hsize, hpages⟩
  have hread : f.readPage p = .ok (f.readPhysicalPage (DiskManager.mapPageId p)) := by
    simp [readPage, hp.1]
  refine ⟨f, (f.readPhysicalPage (DiskManager.mapPageId p)).1,
    (f.readPhysicalPage (DiskManager.mapPageId p)).2, hall, hread, ?_⟩
  have hstored : ∀ k, f.pageAt k = storedAt ws k := hpages
  rw [readPhysicalPage_eq hsound (mapPageId_toInt hp), hsize, hstored]
  show (if Finds (fileSize ws) (physicalPage p) then storedAt ws (physicalPage p % 2 ^ 20)
    else Buf.zero PAGE_SIZE) = lastWrite ws p ↔ _
  unfold ReadsBack
  by_cases hfinds : Finds (fileSize ws) (physicalPage p)
  · simp only [hfinds, if_true]
    refine ⟨Or.inr, ?_⟩
    rintro (hsmall | hsame)
    · rw [Nat.mod_eq_of_lt (lt_trans hsmall (by decide)), storedAt_physicalPage hws hp]
    · exact hsame
  · simp only [hfinds, if_false]
    exact eq_comm

/-- A page of ones. -/
def onesPage : PageData :=
  fun _ => 1

theorem onesPage_ne_zero : onesPage ≠ Buf.zero PAGE_SIZE := by
  intro h
  have := congrFun h ⟨0, by decide⟩
  exact absurd this (by decide)

theorem lastWrite_single (p : PageId) (d : PageData) : lastWrite [(p, d)] p = d := by
  simp [lastWrite]

/-- Logical page 524270 is physical page `2 ^ 19`: what is written there is read as zeros. -/
theorem read_misses_page_at_2GiB :
    ¬∀ (ws : List (PageId × PageData)) (p : PageId), (∀ w ∈ ws, ValidId w.1) → ValidId p →
      ∃ f f', fresh.writeAll ws = .ok f ∧ f.readPage p = .ok (lastWrite ws p, f') := by
  intro hall
  have hp : ValidId 524270 := by decide
  have hws : ∀ w ∈ [((524270 : PageId), onesPage)], ValidId w.1 := by
    intro w hw
    rw [List.mem_singleton.mp hw]
    exact hp
  rcases hall _ _ hws hp with ⟨f, f', hwrite, hread⟩
  rcases writeAll_spec fresh_sound hws with ⟨f₁, hwrite₁, hsound, hsize, _⟩
  rw [hwrite] at hwrite₁
  obtain rfl := Except.ok.inj hwrite₁
  have hmiss : ¬Finds f.size (physicalPage 524270) := by
    rintro ⟨hpos, _⟩
    exact absurd hpos (by decide)
  have hzero := readPhysicalPage_eq hsound (mapPageId_toInt hp)
  rw [if_neg hmiss] at hzero
  have hread₁ : f.readPage 524270 = .ok (f.readPhysicalPage (DiskManager.mapPageId 524270)) := by
    simp [readPage]
  rw [hread₁, Except.ok.injEq] at hread
  rw [hread, lastWrite_single] at hzero
  exact onesPage_ne_zero hzero

/-- The first page of a new file is read back. -/
theorem readPage_after_writes_iff_first :
    ∃ f f', fresh.writeAll [(0, onesPage)] = .ok f ∧ f.readPage 0 = .ok (onesPage, f') := by
  have hp : ValidId 0 := by decide
  have hws : ∀ w ∈ [((0 : PageId), onesPage)], ValidId w.1 := by
    intro w hw
    rw [List.mem_singleton.mp hw]
    exact hp
  rcases readPage_after_writes_iff hws hp with ⟨f, d, f', hwrite, hread, hiff⟩
  have hback : ReadsBack [(0, onesPage)] 0 := by
    have hfinds : Finds (fileSize [(0, onesPage)]) (physicalPage 0) := by decide
    simp only [ReadsBack, hfinds, if_true]
    exact Or.inl (by decide)
  refine ⟨f, f', hwrite, ?_⟩
  rw [hread, hiff.mpr hback, lastWrite_single]

end PhysicalFile
end MiniSQL
