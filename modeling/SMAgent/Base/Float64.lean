import Mathlib.Algebra.Ring.Int.Defs
import Mathlib.Algebra.Ring.Nat
import SMAgent.Base.GoString

/-!
# IEEE 754 doubles

`float64` values by their bit pattern, with what the code does to them: comparisons,
`int64(x * 1000000000)`, the time at `x` seconds, and the conversion of a counter. A product
or a counter is rounded to the nearest 53-bit significand, ties to even, and the conversion
to an integer truncates. A result outside `int64`, which the language leaves to the
implementation, is the smallest `int64` as on amd64.
-/

namespace SMAgent.Base

/-- A Go `float64`. -/
structure Float64 where
  bits : UInt64
  deriving DecidableEq, Repr

namespace Float64

/-- Positive zero, the zero value of the type. -/
def zero : Float64 := ⟨0⟩

/-- The sign bit. -/
def negative (x : Float64) : Bool := decide (2 ^ 63 ≤ x.bits.toNat)

/-- The biased exponent. -/
def exponent (x : Float64) : Nat := x.bits.toNat / 2 ^ 52 % 2 ^ 11

/-- The stored part of the significand. -/
def fraction (x : Float64) : Nat := x.bits.toNat % 2 ^ 52

/-- Not a number. -/
def isNaN (x : Float64) : Bool := x.exponent == 2047 && x.fraction != 0

/-- Either zero. -/
def isZero (x : Float64) : Bool := x.exponent == 0 && x.fraction == 0

/-- Go's `x == y`. -/
def eq (x y : Float64) : Bool :=
  !x.isNaN && !y.isNaN && (x == y || x.isZero && y.isZero)

/-- A finite value is `significand * 2 ^ (scale - 1075)`. -/
def significand (x : Float64) : Nat :=
  if x.exponent = 0 then x.fraction else 2 ^ 52 + x.fraction

/-- The exponent of `significand`, shifted by 1075. -/
def scale (x : Float64) : Nat := max x.exponent 1

/-- Round to 53 significant bits, ties to even: significand and number of bits dropped. -/
def round53 (m : Nat) : Nat × Nat :=
  let k := m.log2 - 52
  let q := m / 2 ^ k
  let r := 2 * (m % 2 ^ k)
  (if r > 2 ^ k || r == 2 ^ k && q % 2 == 1 then q + 1 else q, k)

/-- `int64(x * 1000000000)`. -/
def toInt64Nanos (x : Float64) : Int :=
  let (q, k) := round53 (x.significand * 1000000000)
  let magnitude := if k + x.scale < 1075 then q / 2 ^ (1075 - (k + x.scale))
    else q * 2 ^ (k + x.scale - 1075)
  let value := if x.negative then - (magnitude : Int) else magnitude
  if x.exponent = 2047 ∨ value < - 2 ^ 63 ∨ 2 ^ 63 ≤ value then - 2 ^ 63 else value

/-- The bits without the sign, signed: ordered as the numbers are, with one zero. -/
def rank (x : Float64) : Int :=
  if x.negative then - (x.bits.toNat % 2 ^ 63 : Nat) else x.bits.toNat

/-- Go's `x >= y`. -/
def ge (x y : Float64) : Bool := !x.isNaN && !y.isNaN && decide (y.rank ≤ x.rank)

/-- Go's `x < y`. -/
def lt (x y : Float64) : Bool := !x.isNaN && !y.isNaN && decide (x.rank < y.rank)

/-- Go's `x > 0`. -/
def positive (x : Float64) : Bool := !x.isNaN && !x.negative && !x.isZero

/-- `time.Unix(int64(seconds), int64(fraction*1e9))` for the parts that `math.Modf` splits a
positive `x` into, in nanoseconds since the epoch; for times that `time.Time` can hold. -/
def toUnixTime (x : Float64) : Int :=
  let seconds : Int := if x.scale < 1075 then x.significand / 2 ^ (1075 - x.scale)
    else x.significand * 2 ^ (x.scale - 1075)
  let (q, k) := round53 (x.significand % 2 ^ (1075 - x.scale) * 1000000000)
  let nanoseconds : Int := q * 2 ^ k / 2 ^ (1075 - x.scale)
  if x.exponent = 2047 ∨ 2 ^ 63 ≤ seconds then - 2 ^ 63 * 1000000000
  else seconds * 1000000000 + nanoseconds

/-- `float64(n)` for a `uint64`. -/
def ofUInt64 (n : UInt64) : Float64 :=
  if n = 0 then zero
  else
    let (q, k) := round53 n.toNat
    let v := q * 2 ^ k
    ⟨UInt64.ofNat ((v.log2 + 1023) * 2 ^ 52 + (v * 2 ^ 52 / 2 ^ v.log2 - 2 ^ 52))⟩

/-- Positive infinity. -/
def inf : Float64 := ⟨0x7ff0000000000000⟩

end Float64

/-- `strconv.FormatInt(n, 10)`. -/
def GoString.formatInt (n : Int) : GoString :=
  let digits := (Nat.toDigits 10 n.natAbs).map byte
  if n < 0 then byte '-' :: digits else digits

namespace GoString

/-- A decimal number consists of a sign and digits. -/
theorem mem_formatInt {n : Int} {b : UInt8} (h : b ∈ formatInt n) :
    b = byte '-' ∨ 48 ≤ b.toNat ∧ b.toNat ≤ 57 := by
  have hdigit (c : Char) (hc : c ∈ Nat.toDigits 10 n.natAbs) :
      48 ≤ (byte c).toNat ∧ (byte c).toNat ≤ 57 := by
    obtain ⟨hlow, hhigh⟩ := Char.isDigit_iff_toNat.mp
      (Nat.isDigit_of_mem_toDigits (by decide) (by decide) hc)
    have hbyte : (byte c).toNat = c.toNat % 256 := rfl
    have hlow' : 48 ≤ c.toNat := hlow
    have hhigh' : c.toNat ≤ 57 := hhigh
    omega
  unfold formatInt at h
  dsimp only at h
  split at h
  · rcases List.mem_cons.mp h with rfl | h
    · exact .inl rfl
    · obtain ⟨c, hc, rfl⟩ := List.mem_map.mp h
      exact .inr (hdigit c hc)
  · obtain ⟨c, hc, rfl⟩ := List.mem_map.mp h
    exact .inr (hdigit c hc)

private theorem map_byte_inj {l m : List Char} (hl : ∀ c ∈ l, c.toNat < 128)
    (hm : ∀ c ∈ m, c.toNat < 128) (h : l.map byte = m.map byte) : l = m := by
  induction l generalizing m with
  | nil =>
    rw [List.map_nil, eq_comm, List.map_eq_nil_iff] at h
    exact h.symm
  | cons c l ih =>
    cases m with
    | nil => cases h
    | cons d m =>
      rw [List.map_cons, List.map_cons, List.cons.injEq] at h
      have hc := hl c List.mem_cons_self
      have hd := hm d List.mem_cons_self
      have hnat : c.toNat % 256 = d.toNat % 256 := congrArg UInt8.toNat h.1
      have hcd : c = d := Char.toNat_inj.mp (by omega)
      rw [hcd, ih (List.forall_mem_cons.mp hl).2
        (List.forall_mem_cons.mp hm).2 h.2]

private theorem toDigits_small (n : Nat) : ∀ c ∈ Nat.toDigits 10 n, c.toNat < 128 := by
  intro c hc
  have hhigh : c.toNat ≤ 57 := (Char.isDigit_iff_toNat.mp
    (Nat.isDigit_of_mem_toDigits (by decide) (by decide) hc)).2
  omega

private theorem digits_inj {n m : Nat}
    (h : (Nat.toDigits 10 n).map byte = (Nat.toDigits 10 m).map byte) : n = m := by
  have hdigits := map_byte_inj (toDigits_small n) (toDigits_small m) h
  rw [← Nat.ofDigitChars_toDigits (b := 10) (n := n) (by decide) (by decide), hdigits,
    Nat.ofDigitChars_toDigits (by decide) (by decide)]

/-- A number can be read off its decimal form. -/
theorem formatInt_injective {n m : Int} (h : formatInt n = formatInt m) : n = m := by
  have hsign (k : Nat) (l : List UInt8) :
      byte '-' :: l ≠ (Nat.toDigits 10 k).map byte := by
    intro heq
    have hmem : byte '-' ∈ (Nat.toDigits 10 k).map byte := heq ▸ List.mem_cons_self
    obtain ⟨c, hc, hbyte⟩ := List.mem_map.mp hmem
    have hlow : 48 ≤ c.toNat := (Char.isDigit_iff_toNat.mp
      (Nat.isDigit_of_mem_toDigits (by decide) (by decide) hc)).1
    have hhigh := toDigits_small k c hc
    have hnat : c.toNat % 256 = 45 := congrArg UInt8.toNat hbyte
    omega
  unfold formatInt at h
  dsimp only at h
  split at h
  · split at h
    · rw [List.cons.injEq] at h
      have := digits_inj h.2
      omega
    · exact absurd h (hsign _ _)
  · split at h
    · exact absurd h.symm (hsign _ _)
    · have := digits_inj h
      omega

end GoString

end SMAgent.Base
