import MiniSQL.Lib.Mem
import MiniSQL.Lib.Run

/-!
# Codec — writing and reading records through a moving pointer

Encoders and decoders of C programs move an offset through a buffer: `ofs += write(buf + ofs, …)`.
A `Writer` takes the memory and an address and returns the number of bytes it advances and the
memory after; a `Decoder` returns a value and the number of bytes it consumes, or fails.

* `Writes w bs`: wherever it is called, `w` stores exactly `bs` and advances by their number;
* `Reads r bs v`: wherever `bs` stand, `r` returns `v` and consumes exactly `bs`, whatever the
  rest of the memory is.

Both compose along `++`, and over the elements of a list.
-/

namespace MiniSQL
namespace Lib

open Mem

/-- A string whose length fits in a 32-bit word. -/
abbrev Str := { bs : List UInt8 // bs.length < 2 ^ 32 }

/-! ## Writers -/

/-- Memory and address to the bytes advanced and the memory after. -/
abbrev Writer := Mem → Nat → Nat × Mem

namespace Writer

/-- Store a block of bytes and advance over it. -/
def bytes (bs : List UInt8) : Writer :=
  fun m a => (bs.length, m.store a bs)

/-- Store a 32-bit word. -/
def word (v : Nat) : Writer :=
  bytes (le32 v)

/-- Store a `bool`. -/
def bool (b : Bool) : Writer :=
  bytes [if b then 1 else 0]

/-- The first writer, then the second where the first stopped. -/
def seq (w₁ w₂ : Writer) : Writer :=
  fun m a =>
    let (n₁, m₁) := w₁ m a
    let (n₂, m₂) := w₂ m₁ (a + n₁)
    (n₁ + n₂, m₂)

/-- One writer after the other. -/
def all : List Writer → Writer
  | [] => bytes []
  | w :: ws => w.seq (all ws)

/-- A writer for every element of a list, in order. -/
def each {α : Type*} (w : α → Writer) (xs : List α) : Writer :=
  all (xs.map w)

/-- The writer stores exactly these bytes. -/
def Writes (w : Writer) (bs : List UInt8) : Prop :=
  ∀ m a, w m a = (bs.length, Mem.store m a bs)

variable {w w₁ w₂ : Writer} {bs cs : List UInt8}

theorem writes_bytes (bs : List UInt8) : Writes (bytes bs) bs :=
  fun _ _ => rfl

theorem writes_word (v : Nat) : Writes (word v) (le32 v) :=
  fun _ _ => rfl

theorem writes_bool (b : Bool) : Writes (bool b) [if b then 1 else 0] :=
  fun _ _ => rfl

theorem Writes.seq (h₁ : Writes w₁ bs) (h₂ : Writes w₂ cs) : Writes (w₁.seq w₂) (bs ++ cs) := by
  intro m a
  simp only [Writer.seq, h₁ m a, h₂ _ _, Mem.store_append, List.length_append]

theorem writes_all_nil : Writes (all []) [] :=
  writes_bytes []

theorem Writes.all_cons {ws : List Writer} (h : Writes w bs) (hs : Writes (all ws) cs) :
    Writes (all (w :: ws)) (bs ++ cs) :=
  h.seq hs

theorem writes_each {α : Type*} {w : α → Writer} {enc : α → List UInt8} {xs : List α}
    (h : ∀ x ∈ xs, Writes (w x) (enc x)) : Writes (each w xs) (xs.flatMap enc) := by
  induction xs with
  | nil =>
      exact writes_all_nil
  | cons x xs ih =>
      rw [List.flatMap_cons]
      exact (h x (List.mem_cons_self ..)).seq (ih fun y hy => h y (List.mem_cons_of_mem _ hy))

end Writer

/-! ## Decoders -/

universe u

/-- Memory and address to a value and the bytes consumed. -/
def Decoder (ε : Type) (α : Type u) : Type u :=
  Mem → Nat → Except ε (α × Nat)

namespace Decoder

variable {ε : Type} {α β : Type u}

instance : Monad (Decoder ε) where
  pure v := fun _ _ => .ok (v, 0)
  bind r f := fun m a =>
    match r m a with
    | .error e => .error e
    | .ok (v, n) =>
      match f v m (a + n) with
      | .error e => .error e
      | .ok (w, k) => .ok (w, n + k)

/-- Fail, or go on without reading. -/
def lift (x : Except ε α) : Decoder ε α :=
  fun _ _ => x.map fun v => (v, 0)

/-- Load a block of bytes and advance over it. -/
def bytes (len : Nat) : Decoder ε (List UInt8) :=
  fun m a => .ok (m.load a len, len)

/-- Load a 32-bit word. -/
def word : Decoder ε UInt32 :=
  fun m a => .ok (UInt32.ofNat (m.u32 a), 4)

/-- Load a `bool`: any byte but 0 is true. -/
def bool : Decoder ε Bool :=
  fun m a => .ok (m a != 0, 1)

/-- Load a string whose length was read before. -/
def str (len : UInt32) : Decoder ε Str :=
  fun m a => .ok (⟨m.load a len.toNat, by rw [load_length]; exact len.toNat_lt⟩, len.toNat)

/-- Read one value for every element of a list, in order. -/
def each {ι : Type} (r : ι → Decoder ε α) : List ι → Decoder ε (List α)
  | [] => pure []
  | i :: is => do
    let v ← r i
    let vs ← each r is
    pure (v :: vs)

/-- Read `n` values with the same decoder. -/
def times (r : Decoder ε α) : (n : Nat) → Decoder ε { xs : List α // xs.length = n }
  | 0 => pure ⟨[], rfl⟩
  | n + 1 => do
    let v ← r
    let vs ← times r n
    pure ⟨v :: vs.val, by rw [List.length_cons, vs.property]⟩

/-- Wherever the bytes stand, the reader returns the value and consumes them. -/
def Reads (r : Decoder ε α) (bs : List UInt8) (v : α) : Prop :=
  ∀ m a, Mem.Holds m a bs → r m a = .ok (v, bs.length)

variable {r : Decoder ε α} {f : α → Decoder ε β} {bs cs : List UInt8} {v : α} {w : β}

theorem reads_pure (v : α) : Reads (pure v : Decoder ε α) [] v :=
  fun _ _ _ => rfl

theorem reads_lift (v : α) : Reads (lift (.ok v) : Decoder ε α) [] v :=
  fun _ _ _ => rfl

theorem reads_bytes (bs : List UInt8) : Reads (bytes bs.length : Decoder ε (List UInt8)) bs bs := by
  intro m a h
  simp only [bytes, load_of_holds h]

/-- A word is read back up to its low 32 bits. -/
theorem reads_word (v : Nat) : Reads (word : Decoder ε UInt32) (le32 v) (UInt32.ofNat v) := by
  intro m a h
  have hv : UInt32.ofNat (v % 2 ^ 32) = UInt32.ofNat v := by
    apply UInt32.toNat_inj.mp
    simp
  simp only [word, u32_of_holds h, hv, le32_length]

/-- A word written from a `uint32_t` is read back whole. -/
theorem reads_u32 (k : UInt32) : Reads (word : Decoder ε UInt32) (le32 k.toNat) k := by
  have h := reads_word (ε := ε) k.toNat
  rwa [UInt32.ofNat_toNat] at h

theorem reads_str (s : Str) : Reads (str (UInt32.ofNat s.val.length) : Decoder ε Str) s.val s := by
  intro m a h
  have hlen : (UInt32.ofNat s.val.length).toNat = s.val.length :=
    UInt32.toNat_ofNat_of_lt' s.property
  simp only [str, hlen, load_of_holds h]

theorem reads_bool (b : Bool) : Reads (bool : Decoder ε Bool) [if b then 1 else 0] b := by
  intro m a h
  have hbyte : m a = if b then 1 else 0 := h 0 (by simp)
  cases b <;> simp [bool, hbyte]

theorem Reads.bind (hr : Reads r bs v) (hf : Reads (f v) cs w) :
    Reads (r >>= f) (bs ++ cs) w := by
  intro m a h
  rcases holds_append.mp h with ⟨h₁, h₂⟩
  -- The second decoder starts behind the bytes of the first, where `cs` stand.
  show (match r m a with
    | .error e => Except.error e
    | .ok (v, n) =>
      match f v m (a + n) with
      | .error e => Except.error e
      | .ok (w, k) => .ok (w, n + k)) = _
  rw [hr m a h₁]
  simp only [hf m _ h₂, List.length_append]

/-- A step that reads nothing. -/
theorem Reads.bind_nil (hr : Reads r [] v) (hf : Reads (f v) cs w) : Reads (r >>= f) cs w :=
  hr.bind hf

theorem Reads.map_pure {g : α → β} (hr : Reads r bs v) :
    Reads (r >>= fun x => pure (g x)) bs (g v) := by
  have h : Reads (r >>= fun x => pure (g x)) (bs ++ []) (g v) := hr.bind (reads_pure (g v))
  rwa [List.append_nil] at h

theorem reads_each {ι : Type} {r : ι → Decoder ε α} {enc : ι → List UInt8} {val : ι → α}
    {is : List ι} (h : ∀ i ∈ is, Reads (r i) (enc i) (val i)) :
    Reads (each r is) (is.flatMap enc) (is.map val) := by
  induction is with
  | nil =>
      exact reads_pure []
  | cons i is ih =>
      rw [List.flatMap_cons, List.map_cons]
      have hrest := ih fun j hj => h j (List.mem_cons_of_mem _ hj)
      exact (h i (List.mem_cons_self ..)).bind hrest.map_pure

theorem reads_times {enc : α → List UInt8} {xs : List α} (h : ∀ x ∈ xs, Reads r (enc x) x)
    {n : Nat} (hn : xs.length = n) : Reads (times r n) (xs.flatMap enc) ⟨xs, hn⟩ := by
  subst hn
  induction xs with
  | nil =>
      exact reads_pure _
  | cons x xs ih =>
      rw [List.flatMap_cons]
      have hrest := ih fun y hy => h y (List.mem_cons_of_mem _ hy)
      exact (h x (List.mem_cons_self ..)).bind hrest.map_pure

end Decoder

/-! ## Round trips -/

end Lib
end MiniSQL
