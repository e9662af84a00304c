import Mathlib.Data.List.Basic
import Mathlib.Data.Nat.Bitwise
import Mathlib.Tactic

/-!
# Mem — flat byte memory, little-endian words and fixed-size buffers

A C program sees an array of `char` through a pointer.  `Mem` is the memory such a pointer
ranges over: a total map from addresses to bytes, so that pointer arithmetic is addition and
a write outside an array is visible as a write.  `Buf n` is an array `char buf[n]`.

* `Mem.store`, `Mem.memmove`, `Mem.setU32`: the writes (`memcpy`, `memmove`, a 32-bit store);
* `Mem.load`, `Mem.u32`: the reads;
* `Mem.Holds m a bs`: the bytes `bs` stand at address `a`.

Proofs about layouts go through `Holds`: it splits along `++`, survives every write whose range
is disjoint from it, and moves along with `memmove`.
-/

namespace MiniSQL
namespace Lib

/-! ## Bits of a byte -/

theorem bit_toNat {k : Nat} (hk : k < 8) : (UInt8.ofNat (1 <<< k)).toNat = 2 ^ k := by
  have hlt : 2 ^ k < 2 ^ 8 := Nat.pow_lt_pow_right (by decide) hk
  rw [UInt8.toNat_ofNat', Nat.one_shiftLeft, Nat.mod_eq_of_lt hlt]

/-- Setting a bit by `|= 1 << k`. -/
theorem testBit_or_bit (b : UInt8) {k : Nat} (hk : k < 8) (j : Nat) :
    (b ||| UInt8.ofNat (1 <<< k)).toNat.testBit j = (b.toNat.testBit j || decide (k = j)) := by
  rw [UInt8.toNat_or, bit_toNat hk, Nat.testBit_or, Nat.testBit_two_pow]

theorem bit_toBitVec {k : Nat} (hk : k < 8) :
    (UInt8.ofNat (1 <<< k)).toBitVec = BitVec.twoPow 8 k := by
  apply BitVec.eq_of_toNat_eq
  rw [UInt8.toNat_toBitVec, bit_toNat hk, BitVec.toNat_twoPow_of_lt hk]

/-- Subtracting a bit that is set does not borrow: the bit is taken out. -/
theorem sub_twoPow {w k : Nat} (x : BitVec w) (hset : x.getLsbD k = true) :
    x - BitVec.twoPow w k = x &&& ~~~BitVec.twoPow w k := by
  have hdisj : (x &&& ~~~BitVec.twoPow w k) &&& BitVec.twoPow w k = 0#w := by
    ext i hi
    simp
  -- Without the bit there is nothing to carry, so adding it back is a disjunction.
  have hsum : (x &&& ~~~BitVec.twoPow w k) + BitVec.twoPow w k = x := by
    rw [BitVec.add_eq_or_of_and_eq_zero _ _ hdisj]
    ext i hi
    by_cases hik : i = k
    · subst hik
      simpa [BitVec.getLsbD_eq_getElem hi] using hset.symm
    · simp [hik]
  calc x - BitVec.twoPow w k
      = (x &&& ~~~BitVec.twoPow w k) + BitVec.twoPow w k - BitVec.twoPow w k := by rw [hsum]
    _ = x &&& ~~~BitVec.twoPow w k := BitVec.add_sub_cancel _ _

/-- Clearing a set bit by `-= 1 << k`. -/
theorem testBit_sub_bit (b : UInt8) {k j : Nat} (hk : k < 8) (hj : j < 8)
    (hset : b.toNat.testBit k = true) :
    (b - UInt8.ofNat (1 <<< k)).toNat.testBit j = (b.toNat.testBit j && !decide (k = j)) := by
  have hsub : (b - UInt8.ofNat (1 <<< k)).toBitVec = b.toBitVec &&& ~~~BitVec.twoPow 8 k := by
    rw [UInt8.toBitVec_sub, bit_toBitVec hk, sub_twoPow _ hset]
  calc (b - UInt8.ofNat (1 <<< k)).toNat.testBit j
      = (b.toBitVec &&& ~~~BitVec.twoPow 8 k).getLsbD j := by
        rw [← hsub]
        rfl
    _ = (b.toBitVec.getLsbD j && !decide (k = j)) := by
        simp [hj, eq_comm]
    _ = (b.toNat.testBit j && !decide (k = j)) := rfl

/-- Testing a bit by `& (1 << k)`. -/
theorem and_bit_ne_zero (b : UInt8) (k : Nat) :
    (b.toNat &&& (1 <<< k) != 0) = b.toNat.testBit k := by
  rw [Nat.one_shiftLeft, Nat.and_two_pow]
  cases b.toNat.testBit k <;> simp

/-- Byte memory, addressed from the pointer under consideration. -/
abbrev Mem := Nat → UInt8

namespace Mem

/-! ## Writes -/

/-- `memcpy` of the bytes `bs` to address `a`. -/
def store (m : Mem) (a : Nat) (bs : List UInt8) : Mem :=
  fun i => if a ≤ i then (bs[i - a]?).getD (m i) else m i

/-- `memmove`: the source is read as a whole before the destination is written. -/
def memmove (m : Mem) (dst src len : Nat) : Mem :=
  fun i => if dst ≤ i ∧ i < dst + len then m (src + (i - dst)) else m i

theorem store_apply_of_lt {m : Mem} {a i : Nat} {bs : List UInt8} (h : i < a) :
    m.store a bs i = m i := by
  simp [store, Nat.not_le.mpr h]

theorem store_apply_of_ge {m : Mem} {a i : Nat} {bs : List UInt8} (h : a + bs.length ≤ i) :
    m.store a bs i = m i := by
  have hnone : bs[i - a]? = none := List.getElem?_eq_none (by omega)
  simp [store, hnone]

/-- A byte outside the written range keeps its value. -/
theorem store_apply_outside {m : Mem} {a i : Nat} {bs : List UInt8}
    (h : i < a ∨ a + bs.length ≤ i) : m.store a bs i = m i := by
  rcases h with h | h
  · exact store_apply_of_lt h
  · exact store_apply_of_ge h

theorem store_apply_add {m : Mem} {a k : Nat} {bs : List UInt8} (h : k < bs.length) :
    m.store a bs (a + k) = bs[k] := by
  simp [store, h]

/-- Two writes that follow each other are one write of the concatenation. -/
theorem store_append (m : Mem) (a : Nat) (xs ys : List UInt8) :
    (m.store a xs).store (a + xs.length) ys = m.store a (xs ++ ys) := by
  funext i
  -- Below both blocks, in the first, in the second, or above them.
  by_cases hi : i < a
  · rw [store_apply_of_lt (by omega), store_apply_of_lt hi, store_apply_of_lt hi]
  · by_cases hx : i < a + xs.length
    · -- The second write starts after `i`, so the byte is the one of the first.
      have hex : ∃ k, i = a + k := ⟨i - a, by omega⟩
      rcases hex with ⟨k, rfl⟩
      have hk : k < xs.length := by omega
      rw [store_apply_of_lt hx, store_apply_add hk,
        store_apply_add (by simp only [List.length_append]; omega)]
      exact (List.getElem_append_left hk).symm
    · have hex : ∃ k, i = a + (xs.length + k) := ⟨i - a - xs.length, by omega⟩
      rcases hex with ⟨k, rfl⟩
      by_cases hy : k < ys.length
      · have hL : (m.store a xs).store (a + xs.length) ys (a + (xs.length + k)) = ys[k] := by
          simpa [Nat.add_assoc] using store_apply_add (m := m.store a xs) (a := a + xs.length) hy
        rw [hL, store_apply_add (by simp only [List.length_append]; omega)]
        simp
      · rw [store_apply_of_ge (by omega), store_apply_of_ge (by omega),
          store_apply_of_ge (by simp only [List.length_append]; omega)]

/-- A write: where to, and which bytes. -/
abbrev Write := Nat × List UInt8

/-- Writes made one after the other. -/
def storeAll (m : Mem) (ws : List Write) : Mem :=
  ws.foldl (fun m w => m.store w.1 w.2) m

/-! ## Reads -/

/-- `len` bytes from address `a` on. -/
def load (m : Mem) (a len : Nat) : List UInt8 :=
  (List.range len).map fun k => m (a + k)

@[simp] theorem load_length (m : Mem) (a len : Nat) : (m.load a len).length = len := by
  simp [load]

/-- Storing what was loaded is a `memmove`. -/
theorem store_load (m : Mem) (dst src len : Nat) :
    m.store dst (m.load src len) = m.memmove dst src len := by
  funext i
  by_cases h : dst ≤ i ∧ i < dst + len
  · obtain ⟨k, rfl⟩ := Nat.exists_eq_add_of_le h.1
    have hk : k < (m.load src len).length := by
      rw [load_length]
      omega
    rw [store_apply_add hk, memmove, if_pos h, Nat.add_sub_cancel_left]
    simp [load]
  · rw [memmove, if_neg h]
    exact store_apply_outside (by rw [load_length]; omega)

/-- A 32-bit word in little-endian order. -/
def u32 (m : Mem) (a : Nat) : Nat :=
  (m a).toNat + 256 * (m (a + 1)).toNat + 65536 * (m (a + 2)).toNat
    + 16777216 * (m (a + 3)).toNat

theorem u32_lt (m : Mem) (a : Nat) : m.u32 a < 2 ^ 32 := by
  have h0 := (m a).toNat_lt
  have h1 := (m (a + 1)).toNat_lt
  have h2 := (m (a + 2)).toNat_lt
  have h3 := (m (a + 3)).toNat_lt
  rw [u32]
  omega

theorem u32_congr {m m' : Mem} {a : Nat} (h : ∀ i, a ≤ i → i < a + 4 → m i = m' i) :
    m.u32 a = m'.u32 a := by
  unfold u32
  rw [h a (by omega) (by omega), h (a + 1) (by omega) (by omega),
    h (a + 2) (by omega) (by omega), h (a + 3) (by omega) (by omega)]

/-- A word that stands at two places, possibly of two memories. -/
theorem u32_transfer {m m' : Mem} {a b : Nat} (h : ∀ k, k < 4 → m' (a + k) = m (b + k)) :
    m'.u32 a = m.u32 b := by
  have h0 : m' a = m b := h 0 (by omega)
  rw [u32, u32, h0, h 1 (by omega), h 2 (by omega), h 3 (by omega)]

/-- The four bytes of a 32-bit word, the number taken modulo `2 ^ 32`. -/
def le32 (v : Nat) : List UInt8 :=
  [UInt8.ofNat v, UInt8.ofNat (v / 256), UInt8.ofNat (v / 65536), UInt8.ofNat (v / 16777216)]

@[simp] theorem le32_length (v : Nat) : (le32 v).length = 4 := rfl

/-- A 32-bit store. -/
def setU32 (m : Mem) (a v : Nat) : Mem :=
  m.store a (le32 v)

/-- Writing a word and reading it back truncates to 32 bits. -/
theorem u32_setU32 (m : Mem) (a v : Nat) : (m.setU32 a v).u32 a = v % 2 ^ 32 := by
  have hbyte : ∀ k (h : k < (le32 v).length), m.store a (le32 v) (a + k) = (le32 v)[k] := by
    intro k h
    exact store_apply_add h
  have h0 : m.store a (le32 v) a = UInt8.ofNat v := by
    simpa [le32] using hbyte 0 (by simp)
  have h1 : m.store a (le32 v) (a + 1) = UInt8.ofNat (v / 256) := by
    simpa [le32] using hbyte 1 (by simp)
  have h2 : m.store a (le32 v) (a + 2) = UInt8.ofNat (v / 65536) := by
    simpa [le32] using hbyte 2 (by simp)
  have h3 : m.store a (le32 v) (a + 3) = UInt8.ofNat (v / 16777216) := by
    simpa [le32] using hbyte 3 (by simp)
  -- Four base-256 digits determine the number modulo `2 ^ 32`.
  simp only [setU32, u32, h0, h1, h2, h3, UInt8.toNat_ofNat']
  omega

theorem u32_setU32_of_lt {m : Mem} {a v : Nat} (h : v < 2 ^ 32) : (m.setU32 a v).u32 a = v := by
  rw [u32_setU32, Nat.mod_eq_of_lt h]

/-- A write elsewhere does not change a word. -/
theorem u32_store_outside {m : Mem} {a c : Nat} {bs : List UInt8}
    (h : a + 4 ≤ c ∨ c + bs.length ≤ a) : (m.store c bs).u32 a = m.u32 a := by
  refine u32_congr fun i h1 h2 => store_apply_outside ?_
  omega

theorem u32_setU32_ne {m : Mem} {a c v : Nat} (h : a + 4 ≤ c ∨ c + 4 ≤ a) :
    (m.setU32 c v).u32 a = m.u32 a :=
  u32_store_outside (by simpa using h)

theorem setU32_apply_outside {m : Mem} {a i v : Nat} (h : i < a ∨ a + 4 ≤ i) :
    m.setU32 a v i = m i :=
  store_apply_outside (by simpa using h)

/-- The bytes of a word are those of its number. -/
theorem le32_u32 (m : Mem) (a : Nat) :
    le32 (m.u32 a) = [m a, m (a + 1), m (a + 2), m (a + 3)] := by
  have h0 := (m a).toNat_lt
  have h1 := (m (a + 1)).toNat_lt
  have h2 := (m (a + 2)).toNat_lt
  have h3 := (m (a + 3)).toNat_lt
  simp only [le32, u32, List.cons.injEq, ← UInt8.toNat_inj, UInt8.toNat_ofNat', and_true]
  omega

/-- Writing a word over itself changes nothing. -/
theorem setU32_u32 (m : Mem) (a : Nat) : m.setU32 a (m.u32 a) = m := by
  funext i
  by_cases h : i < a ∨ a + 4 ≤ i
  · exact setU32_apply_outside h
  · obtain ⟨k, rfl⟩ : ∃ k, i = a + k := ⟨i - a, by omega⟩
    have hk : k < (le32 (m.u32 a)).length := by
      rw [le32_length]
      omega
    rw [setU32, store_apply_add hk]
    simp only [le32_u32]
    rw [le32_length] at hk
    interval_cases k <;> rfl

/-! ## Points-to -/

/-- The bytes `bs` stand at address `a`. -/
def Holds (m : Mem) (a : Nat) (bs : List UInt8) : Prop :=
  ∀ k (h : k < bs.length), m (a + k) = bs[k]

@[simp] theorem holds_nil (m : Mem) (a : Nat) : Holds m a [] := by
  intro k h
  simp at h

theorem holds_append {m : Mem} {a : Nat} {xs ys : List UInt8} :
    Holds m a (xs ++ ys) ↔ Holds m a xs ∧ Holds m (a + xs.length) ys := by
  constructor
  · intro h
    refine ⟨fun k hk => ?_, fun k hk => ?_⟩
    · have := h k (by simp only [List.length_append]; omega)
      rw [this, List.getElem_append_left hk]
    · have := h (xs.length + k) (by simp only [List.length_append]; omega)
      rw [Nat.add_assoc, this]
      simp
  · rintro ⟨hx, hy⟩ k hk
    simp only [List.length_append] at hk
    by_cases hlt : k < xs.length
    · rw [hx k hlt, List.getElem_append_left hlt]
    · have hex : ∃ j, k = xs.length + j := ⟨k - xs.length, by omega⟩
      rcases hex with ⟨j, rfl⟩
      have := hy j (by omega)
      rw [← Nat.add_assoc, this]
      simp

theorem holds_congr {m m' : Mem} {a : Nat} {bs : List UInt8} (hm : Holds m a bs)
    (h : ∀ i, a ≤ i → i < a + bs.length → m' i = m i) : Holds m' a bs := by
  intro k hk
  rw [h (a + k) (by omega) (by omega), hm k hk]

theorem holds_transfer {m m' : Mem} {a b : Nat} {bs : List UInt8} (hm : Holds m b bs)
    (h : ∀ k, k < bs.length → m' (a + k) = m (b + k)) : Holds m' a bs := by
  intro k hk
  rw [h k hk, hm k hk]

theorem holds_store (m : Mem) (a : Nat) (bs : List UInt8) : Holds (m.store a bs) a bs :=
  fun _ hk => store_apply_add hk

theorem holds_store_outside {m : Mem} {a c : Nat} {bs cs : List UInt8} (hm : Holds m a bs)
    (h : a + bs.length ≤ c ∨ c + cs.length ≤ a) : Holds (m.store c cs) a bs := by
  refine holds_congr hm fun i h1 h2 => store_apply_outside ?_
  omega

theorem holds_setU32_outside {m : Mem} {a c v : Nat} {bs : List UInt8} (hm : Holds m a bs)
    (h : a + bs.length ≤ c ∨ c + 4 ≤ a) : Holds (m.setU32 c v) a bs :=
  holds_store_outside hm (by simpa using h)

/-- Bytes inside the moved range stand at the moved address. -/
theorem holds_memmove {m : Mem} {a dst src len : Nat} {bs : List UInt8} (hm : Holds m a bs)
    (hlo : src ≤ a) (hhi : a + bs.length ≤ src + len) :
    Holds (m.memmove dst src len) (dst + (a - src)) bs := by
  intro k hk
  -- The byte read is `a - src` into the moved range, wherever the range went.
  have hin : dst ≤ dst + (a - src) + k ∧ dst + (a - src) + k < dst + len := by omega
  have haddr : src + (dst + (a - src) + k - dst) = a + k := by omega
  simp only [memmove, hin, and_self, if_true, haddr]
  exact hm k hk

theorem memmove_apply_outside {m : Mem} {dst src len i : Nat} (h : i < dst ∨ dst + len ≤ i) :
    m.memmove dst src len i = m i := by
  have hout : ¬(dst ≤ i ∧ i < dst + len) := by omega
  simp only [memmove, hout, if_false]

/-- A word is read off the bytes that stand there. -/
theorem u32_of_holds {m : Mem} {a v : Nat} (h : Holds m a (le32 v)) : m.u32 a = v % 2 ^ 32 := by
  -- Storing the word once more would change none of its four bytes.
  rw [← u32_setU32 m a v]
  refine u32_congr fun i h1 h2 => ?_
  have hex : ∃ k, i = a + k := ⟨i - a, by omega⟩
  rcases hex with ⟨k, rfl⟩
  have hk : k < (le32 v).length := by rw [le32_length]; omega
  rw [h k hk, setU32, store_apply_add hk]

theorem load_of_holds {m : Mem} {a : Nat} {bs : List UInt8} (h : Holds m a bs) :
    m.load a bs.length = bs := by
  apply List.ext_getElem
  · simp
  · intro k h1 h2
    simpa [load] using h k h2

end Mem

/-! ## Fixed-size buffers -/

/-- An array `char buf[n]`. -/
def Buf (n : Nat) : Type :=
  Fin n → UInt8

namespace Buf

variable {n : Nat}

instance : DecidableEq (Buf n) :=
  inferInstanceAs (DecidableEq (Fin n → UInt8))

/-- `memset(buf, 0, n)`. -/
def zero (n : Nat) : Buf n :=
  fun _ => 0

/-- The memory a pointer to the buffer sees; nothing is known past its end. -/
def mem (b : Buf n) : Mem :=
  fun i => if h : i < n then b ⟨i, h⟩ else 0

/-- The first `n` bytes of a memory, as a buffer. -/
def ofMem (n : Nat) (m : Mem) : Buf n :=
  fun i => m i

theorem mem_ofMem_of_lt {m : Mem} {i : Nat} (h : i < n) : (ofMem n m).mem i = m i := by
  simp [mem, ofMem, h]

/-- Bytes stored at the start of a buffer that has room for them. -/
theorem holds_ofMem_store {bs : List UInt8} (m : Mem) (h : bs.length ≤ n) :
    Mem.Holds (ofMem n (m.store 0 bs)).mem 0 bs :=
  Mem.holds_congr (Mem.holds_store m 0 bs) fun _ _ hj => mem_ofMem_of_lt (by omega)

@[simp] theorem ofMem_mem (b : Buf n) : ofMem n b.mem = b := by
  funext i
  simp [ofMem, mem]

@[simp] theorem mem_zero (i : Nat) : (zero n).mem i = 0 := by
  simp [mem, zero]

/-- A word inside the buffer is the word of the memory it was cut from. -/
theorem u32_ofMem {m : Mem} {a : Nat} (h : a + 4 ≤ n) : (ofMem n m).mem.u32 a = m.u32 a :=
  Mem.u32_congr fun _ _ h2 => mem_ofMem_of_lt (by omega)

/-- A 32-bit store into the buffer. -/
def setU32 (b : Buf n) (a v : Nat) : Buf n :=
  ofMem n (b.mem.setU32 a v)

theorem u32_setU32 {b : Buf n} {a v : Nat} (h : a + 4 ≤ n) :
    (b.setU32 a v).mem.u32 a = v % 2 ^ 32 := by
  rw [setU32, u32_ofMem h, Mem.u32_setU32]

theorem u32_setU32_ne {b : Buf n} {a c v : Nat} (hc : c + 4 ≤ n) (h : c + 4 ≤ a ∨ a + 4 ≤ c) :
    (b.setU32 a v).mem.u32 c = b.mem.u32 c := by
  rw [setU32, u32_ofMem hc, Mem.u32_setU32_ne h]

@[simp] theorem u32_zero (a : Nat) : (zero n).mem.u32 a = 0 := by
  simp [Mem.u32]

end Buf

end Lib
end MiniSQL
