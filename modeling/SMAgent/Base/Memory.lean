import Mathlib.Logic.Function.Basic
import Mathlib.Data.List.Basic

/-!
# Byte slices over a memory

Buffers have addresses, and a slice is a range of one buffer. Slices of one buffer may overlap;
a write through one of them is seen through the others and through no slice of another buffer.
-/

namespace SMAgent.Base

/-- The content of every buffer. -/
abbrev Memory := Nat → List UInt8

/-- A `[]byte` value: `len` bytes of the buffer `buf` from `off` on. -/
structure Slice where
  buf : Nat
  off : Nat
  len : Nat
  deriving DecidableEq, Repr

/-- The slice expression `s[n:]`. -/
def Slice.after (s : Slice) (n : Nat) : Slice := { s with off := s.off + n, len := s.len - n }

/-- The slice lies in its buffer. -/
def Slice.InBounds (m : Memory) (s : Slice) : Prop := s.off + s.len ≤ (m s.buf).length

namespace Memory

/-- The bytes of a slice. -/
def bytes (m : Memory) (s : Slice) : List UInt8 := ((m s.buf).drop s.off).take s.len

/-- Write `data` at the start of a slice. -/
def store (m : Memory) (s : Slice) (data : List UInt8) : Memory :=
  Function.update m s.buf
    ((m s.buf).take s.off ++ data ++ (m s.buf).drop (s.off + data.length))

variable {m : Memory} {s t : Slice} {data more : List UInt8}

@[simp] private theorem after_buf (s : Slice) (n : Nat) : (s.after n).buf = s.buf := rfl

/-- The length of the rest of a slice. -/
@[simp] theorem after_len (s : Slice) (n : Nat) : (s.after n).len = s.len - n := rfl

/-- A slice in bounds has as many bytes as its length says. -/
theorem length_bytes (h : s.InBounds m) : (m.bytes s).length = s.len := by
  unfold Slice.InBounds at h
  simp only [bytes, List.length_take, List.length_drop]
  omega

/-- The bytes of the rest of a slice. -/
theorem bytes_after (m : Memory) (s : Slice) (n : Nat) :
    m.bytes (s.after n) = (m.bytes s).drop n := by
  simp [bytes, Slice.after, List.drop_take, List.drop_drop]

/-- The rest of a slice is in bounds. -/
theorem inBounds_after (h : s.InBounds m) {n : Nat} (hn : n ≤ s.len) :
    (s.after n).InBounds m := by
  unfold Slice.InBounds Slice.after at *
  dsimp only
  omega

/-- A store leaves other buffers alone. -/
theorem store_of_ne {buf : Nat} (h : buf ≠ s.buf) (data : List UInt8) :
    m.store s data buf = m buf := Function.update_of_ne h _ _

/-- A store leaves slices of other buffers alone. -/
theorem bytes_store_of_ne (h : t.buf ≠ s.buf) (data : List UInt8) :
    (m.store s data).bytes t = m.bytes t := by
  rw [bytes, store_of_ne h, bytes]

/-- Slices of other buffers stay in bounds. -/
theorem inBounds_store_of_ne (h : t.buf ≠ s.buf) (data : List UInt8) (ht : t.InBounds m) :
    t.InBounds (m.store s data) := by
  rwa [Slice.InBounds, store_of_ne h]

private theorem store_self (m : Memory) (s : Slice) (data : List UInt8) : m.store s data s.buf =
    (m s.buf).take s.off ++ data ++ (m s.buf).drop (s.off + data.length) :=
  Function.update_self _ _ _

/-- The slice that is written stays in bounds. -/
theorem inBounds_store (h : s.InBounds m) (hdata : data.length ≤ s.len) :
    s.InBounds (m.store s data) := by
  unfold Slice.InBounds at *
  rw [store_self]
  simp only [List.length_append, List.length_take, List.length_drop]
  omega

/-- Writing nothing. -/
theorem store_nil (m : Memory) (s : Slice) : m.store s [] = m := by
  simp [store]

/-- Two writes, one after the other in the same slice, are one. -/
theorem store_store (h : s.InBounds m) (hdata : data.length + more.length ≤ s.len) :
    (m.store s data).store (s.after data.length) more = m.store s (data ++ more) := by
  unfold Slice.InBounds at h
  have hoff : ((m s.buf).take s.off).length = s.off := by
    rw [List.length_take]
    omega
  have hfront : ((m s.buf).take s.off ++ data).length = s.off + data.length := by
    rw [List.length_append, hoff]
  have hrest : ((m s.buf).take s.off ++ data ++ (m s.buf).drop (s.off + data.length)).drop
      (s.off + data.length + more.length) = (m s.buf).drop (s.off + (data ++ more).length) := by
    rw [← List.drop_drop, List.drop_left' hfront, List.drop_drop, List.length_append,
      Nat.add_assoc]
  rw [store, after_buf, store_self, store, store, Function.update_idem, Slice.after]
  dsimp only
  rw [List.take_left' hfront, hrest, List.append_assoc ((m s.buf).take s.off)]

/-- What was written is read back. -/
theorem take_bytes_store (h : s.InBounds m) (hdata : data.length ≤ s.len) :
    ((m.store s data).bytes s).take data.length = data := by
  unfold Slice.InBounds at h
  have hoff : ((m s.buf).take s.off).length = s.off := by
    rw [List.length_take]
    omega
  rw [bytes, store_self, List.append_assoc, List.drop_left' hoff, List.take_take,
    Nat.min_eq_left hdata, List.take_left' rfl]

end Memory

end SMAgent.Base
