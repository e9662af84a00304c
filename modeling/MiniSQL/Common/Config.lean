import MiniSQL.Lib.Mem
import MiniSQL.Lib.Run

/-!
# Config — constants, identifiers and faults

`common/config.h`, `common/rowid.h` and `common/macros.h`.  Where the program would trip an
`ASSERT`, follow a null pointer, index past an array, throw or free memory twice, the model returns
a `Fault`.
-/

namespace MiniSQL

open Lib

/-- Size of a data page in bytes. -/
abbrev PAGE_SIZE : Nat := 4096

/-- Max length of a varchar: `PAGE_SIZE / 2`. -/
abbrev VARCHAR_MAX_LEN : Nat := 2048

/-- `page_id_t`. -/
abbrev PageId := Int32

abbrev INVALID_PAGE_ID : PageId := -1

/-- Physical page of the disk file meta info. -/
abbrev META_PAGE_ID : PageId := 0

/-- Logical page of the catalog meta data. -/
abbrev CATALOG_META_PAGE_ID : PageId := 0

/-- Logical page of the index roots. -/
abbrev INDEX_ROOTS_PAGE_ID : PageId := 1

/-- The bytes of one page. -/
abbrev PageData := Buf PAGE_SIZE

/-- How a call of the program can fail to return. -/
inductive Fault
  | assertion (message : String)
  | nullPointer
  | outOfBounds
  | outOfRange
  | doubleFree
  deriving DecidableEq, Repr

/-- A call either returns or faults. -/
abbrev Result := Except Fault

/-- `ASSERT(expr, message)`. -/
def assert (cond : Bool) (message : String) : Result Unit :=
  if cond then .ok () else .error (.assertion message)

@[simp] theorem assert_eq_ok {cond : Bool} {message : String} {u : Unit} :
    assert cond message = .ok u ↔ cond = true := by
  cases cond <;> simp [assert]

@[simp] theorem assert_true (message : String) : assert true message = .ok () :=
  rfl

theorem assert_false (message : String) : assert false message = .error (.assertion message) :=
  rfl

/-- `RowId`: the page and the slot of a record. -/
structure RowId where
  pageId : PageId
  slotNum : UInt32
  deriving DecidableEq, Repr

/-- `INVALID_ROWID`, also the value of a default-constructed `RowId`. -/
def INVALID_ROWID : RowId :=
  { pageId := INVALID_PAGE_ID, slotNum := 0 }

/-- A page id is read back from its word. -/
theorem pageId_word (p : PageId) : (UInt32.ofNat p.toUInt32.toNat).toInt32 = p := by
  rw [UInt32.ofNat_toNat, Int32.toInt32_toUInt32]

/-- A `page_id_t` converted to `size_t`. -/
def sizeT (p : PageId) : Nat :=
  (p.toInt % 2 ^ 64).toNat

/-- On a page id that is not negative the conversion changes nothing. -/
theorem sizeT_of_nonneg {p : PageId} (h : 0 ≤ p.toInt) : (sizeT p : Int) = p.toInt := by
  have hlt := p.toInt_lt
  unfold sizeT
  omega

theorem sizeT_lt {p : PageId} (h : 0 ≤ p.toInt) : sizeT p < 2 ^ 31 := by
  have hlt := p.toInt_lt
  have := sizeT_of_nonneg h
  omega

theorem sizeT_inj {p q : PageId} (hp : 0 ≤ p.toInt) (hq : 0 ≤ q.toInt) (h : sizeT p = sizeT q) :
    p = q := by
  apply Int32.toInt_inj.mp
  rw [← sizeT_of_nonneg hp, ← sizeT_of_nonneg hq, h]

theorem ofNat_toInt {n : Nat} (h : n < 2 ^ 31) : (Int32.ofNat n).toInt = n :=
  Int32.toInt_ofNat_of_lt h

theorem sizeT_ofNat {n : Nat} (h : n < 2 ^ 31) : sizeT (Int32.ofNat n) = n := by
  have h1 := ofNat_toInt h
  have h2 := sizeT_of_nonneg (p := Int32.ofNat n) (by omega)
  omega

/-- Conversion to `page_id_t` is injective on 32-bit numbers. -/
theorem ofNat_inj_of_lt {a b : Nat} (ha : a < 2 ^ 32) (hb : b < 2 ^ 32)
    (h : Int32.ofNat a = Int32.ofNat b) : a = b := by
  have hbits : BitVec.ofNat 32 a = BitVec.ofNat 32 b := congrArg Int32.toBitVec h
  have hnat := congrArg BitVec.toNat hbits
  simp only [BitVec.toNat_ofNat] at hnat
  omega

end MiniSQL
