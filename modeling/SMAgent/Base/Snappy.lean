import Mathlib.Algebra.Ring.Nat
import Mathlib.Data.List.Forall2
import Mathlib.Tactic.Common

/-!
# Base-128 numbers and the Snappy block format

A block is the length of the data as a base-128 number, and then elements. A literal brings its
own bytes; a copy repeats bytes of the output so far. A copy never reaches behind the start of
its block's output, so the elements of several blocks, one after the other, decode to what the
blocks decode to.
-/

namespace SMAgent.Base

/-! ### Base-128 numbers -/

/-- `binary.MaxVarintLen64`. -/
def maxVarintLen64 : Nat := 10

/-- The loop of `binary.Uvarint` at byte `i`, with the value `x` of the bytes before it and the
shift `s` of this one. The groups of bits do not overlap, so a sum is their union. -/
def uvarintLoop : Nat → Nat → Nat → List UInt8 → Nat × Int
  | _, _, _, [] => (0, 0)
  | i, x, s, b :: rest =>
    if i = maxVarintLen64 then (0, -(i + 1))
    else if b.toNat < 128 then
      if i = maxVarintLen64 - 1 ∧ 1 < b.toNat then (0, -(i + 1))
      else (x + b.toNat * 2 ^ s, i + 1)
    else uvarintLoop (i + 1) (x + b.toNat % 128 * 2 ^ s) (s + 7) rest

/-- `binary.Uvarint`: the number at the start of `buf` and how many bytes it has; zero or less
if it is cut off or too large. -/
def uvarint (buf : List UInt8) : Nat × Int := uvarintLoop 0 0 0 buf

/-- The loop of `binary.PutUvarint`, with room for `k` bytes before the last one. -/
def putUvarintLoop : Nat → Nat → List UInt8
  | 0, x => [x.toUInt8]
  | k + 1, x =>
    if x < 128 then [x.toUInt8] else (x % 128 + 128).toUInt8 :: putUvarintLoop k (x / 128)

/-- `binary.PutUvarint`: the bytes it writes for a `uint64`, which are at most ten. -/
def putUvarint (x : Nat) : List UInt8 := putUvarintLoop (maxVarintLen64 - 1) x

private theorem toNat_toUInt8_of_lt {n : Nat} (h : n < 256) : n.toUInt8.toNat = n := by
  simp [Nat.mod_eq_of_lt h]

/-- A number is written with at least one byte. -/
theorem putUvarint_ne_nil (x : Nat) : putUvarint x ≠ [] := by
  rw [putUvarint, show maxVarintLen64 - 1 = 8 + 1 by rfl, putUvarintLoop]
  split <;> simp

private theorem length_putUvarintLoop_le (k : Nat) {x n : Nat} (hn : 0 < n) (hx : x < 2 ^ (7 * n)) :
    (putUvarintLoop k x).length ≤ n := by
  induction k generalizing x n with
  | zero => exact hn
  | succ k ih =>
    rw [putUvarintLoop]
    split
    · exact hn
    next hbig =>
      have hn' : 0 < n - 1 := by
        by_contra hle
        have hone : n = 1 := by omega
        subst hone
        omega
      have hx' : x / 128 < 2 ^ (7 * (n - 1)) := by
        rw [Nat.div_lt_iff_lt_mul (by omega), show 128 = 2 ^ 7 by rfl, ← Nat.pow_add]
        rwa [show 7 * (n - 1) + 7 = 7 * n by omega]
      have := ih hn' hx'
      rw [List.length_cons]
      omega

private theorem length_putUvarintLoop_le_succ (k x : Nat) :
    (putUvarintLoop k x).length ≤ k + 1 := by
  induction k generalizing x with
  | zero => simp [putUvarintLoop]
  | succ k ih =>
    rw [putUvarintLoop]
    split
    · simp
    · rw [List.length_cons]
      have := ih (x / 128)
      omega

/-- What is written has room in ten bytes, or in as many as the number has groups of bits. -/
theorem length_putUvarint_le {x n : Nat} (hn : 0 < n)
    (h : maxVarintLen64 ≤ n ∨ x < 2 ^ (7 * n)) : (putUvarint x).length ≤ n := by
  rcases h with h | h
  · exact Nat.le_trans (length_putUvarintLoop_le_succ _ x) h
  · exact length_putUvarintLoop_le _ hn h

private theorem lt_length_putUvarintLoop {k x n : Nat} (hn : n ≤ k) (hx : 2 ^ (7 * n) ≤ x) :
    n < (putUvarintLoop k x).length := by
  induction k generalizing x n with
  | zero =>
    rw [Nat.le_zero.mp hn]
    exact Nat.one_pos
  | succ k ih =>
    rw [putUvarintLoop]
    split
    next hsmall =>
      have hzero : n = 0 := by
        by_contra hne
        have hle : 2 ^ (7 * 1) ≤ 2 ^ (7 * n) := Nat.pow_le_pow_right (by decide) (by omega)
        omega
      rw [hzero]
      exact Nat.one_pos
    next hbig =>
      rw [List.length_cons]
      cases n with
      | zero => omega
      | succ n =>
        have hx' : 2 ^ (7 * n) ≤ x / 128 := by
          rw [Nat.le_div_iff_mul_le (by omega), show 128 = 2 ^ 7 by rfl, ← Nat.pow_add]
          exact hx
        have := ih (Nat.le_of_succ_le_succ hn) hx'
        omega

/-- The room that a number takes. -/
theorem length_putUvarint_le_iff {x n : Nat} : (putUvarint x).length ≤ n ↔
    0 < n ∧ ¬ (n < maxVarintLen64 ∧ 2 ^ (7 * n) ≤ x) := by
  constructor
  · intro h
    refine ⟨Nat.lt_of_lt_of_le (List.length_pos_of_ne_nil (putUvarint_ne_nil x)) h, ?_⟩
    rintro ⟨hn, hx⟩
    exact absurd (lt_length_putUvarintLoop (Nat.le_of_lt_succ hn) hx) (Nat.not_lt.mpr h)
  · rintro ⟨hpos, h⟩
    exact length_putUvarint_le hpos (by omega)

private theorem uvarintLoop_put (k : Nat) {i x : Nat} (acc s : Nat) (rest : List UInt8)
    (hi : i + k = 9) (hx : x < 2 ^ (1 + 7 * k)) :
    uvarintLoop i acc s (putUvarintLoop k x ++ rest) =
      (acc + x * 2 ^ s, (i : Int) + (putUvarintLoop k x).length) := by
  induction k generalizing i x acc s with
  | zero =>
    have hbyte : x.toUInt8.toNat = x := toNat_toUInt8_of_lt (by omega)
    simp only [putUvarintLoop, List.singleton_append, uvarintLoop, maxVarintLen64, hbyte]
    rw [if_neg (by omega), if_pos (by omega), if_neg (by omega)]
    simp
  | succ k ih =>
    rw [putUvarintLoop]
    split
    next hsmall =>
      have hbyte : x.toUInt8.toNat = x := toNat_toUInt8_of_lt (by omega)
      simp only [List.singleton_append, uvarintLoop, maxVarintLen64, hbyte]
      rw [if_neg (by omega), if_pos hsmall, if_neg (by omega)]
      simp
    next hbig =>
      have hbyte : (x % 128 + 128).toUInt8.toNat = x % 128 + 128 :=
        toNat_toUInt8_of_lt (by omega)
      have hx' : x / 128 < 2 ^ (1 + 7 * k) := by
        rw [Nat.div_lt_iff_lt_mul (by omega), show 128 = 2 ^ 7 by rfl, ← Nat.pow_add]
        rwa [show 1 + 7 * k + 7 = 1 + 7 * (k + 1) by omega]
      simp only [List.cons_append, uvarintLoop, maxVarintLen64, hbyte]
      rw [if_neg (by omega), if_neg (by omega), ih _ _ (by omega) hx']
      have hsum : x % 128 * 2 ^ s + x / 128 * 2 ^ (s + 7) = x * 2 ^ s := by
        rw [Nat.pow_add, ← Nat.mul_assoc, Nat.mul_right_comm, ← Nat.add_mul]
        congr 1
        omega
      simp only [List.length_cons, Prod.mk.injEq]
      constructor
      · rw [← hsum, Nat.add_mod_right, Nat.mod_mod]
        omega
      · push_cast
        omega

/-- A number is read back, whatever follows it. -/
theorem uvarint_putUvarint {x : Nat} (hx : x < 2 ^ 64) (rest : List UInt8) :
    uvarint (putUvarint x ++ rest) = (x, ((putUvarint x).length : Int)) := by
  have h := uvarintLoop_put 9 0 0 rest (i := 0) rfl hx
  simpa [uvarint, putUvarint, maxVarintLen64] using h

private theorem uvarintLoop_le (i x s : Nat) (buf : List UInt8) :
    (uvarintLoop i x s buf).2 ≤ 0 ∨ (uvarintLoop i x s buf).2 ≤ i + buf.length := by
  induction buf generalizing i x s with
  | nil => exact .inl (Int.le_refl 0)
  | cons b rest ih =>
    have hrest := ih (i + 1) (x + b.toNat % 128 * 2 ^ s) (s + 7)
    simp only [uvarintLoop, List.length_cons] at hrest ⊢
    split
    · exact .inl (by omega)
    · split
      · split
        · exact .inl (by omega)
        · exact .inr (by push_cast; omega)
      · push_cast at hrest ⊢
        omega

/-- A number is not longer than what it is read from. -/
theorem uvarint_le (buf : List UInt8) : (uvarint buf).2 ≤ buf.length := by
  have h := uvarintLoop_le 0 0 0 buf
  rw [← uvarint] at h
  omega

namespace Snappy

/-! ### The format -/

/-- An element of a block. -/
inductive Element where
  | literal (bytes : List UInt8)
  | copy (offset length : Nat)
  deriving DecidableEq, Repr

/-- A little-endian number. -/
def littleEndian : List UInt8 → Nat
  | [] => 0
  | b :: rest => b.toNat + 256 * littleEndian rest

/-- The first `n` bytes, if there are as many, and the others. -/
def takeBytes (n : Nat) (src : List UInt8) : Option (List UInt8 × List UInt8) :=
  if n ≤ src.length then some (src.take n, src.drop n) else none

/-- The length of a literal, less one: up to 59 it is in the tag, otherwise the tag says how
many bytes it has. -/
def literalLength (x : Nat) (src : List UInt8) : Option (Nat × List UInt8) :=
  if x < 60 then some (x, src)
  else (takeBytes (x - 59) src).map fun (length, src) ↦ (littleEndian length, src)

/-- An element made of the next `n` bytes. -/
def elementOf (n : Nat) (f : List UInt8 → Element) (src : List UInt8) :
    Option (Element × List UInt8) :=
  (takeBytes n src).map fun (bytes, src) ↦ (f bytes, src)

/-- The element at the start of `src`; the low two bits of its tag are its kind. -/
def parseElement : List UInt8 → Option (Element × List UInt8)
  | [] => none
  | tag :: src =>
    let x := tag.toNat / 4
    match tag.toNat % 4 with
    | 0 => (literalLength x src).bind fun (length, src) ↦ elementOf (length + 1) .literal src
    | 1 => elementOf 1 (fun low ↦ .copy (tag.toNat / 32 * 256 + littleEndian low) (x % 8 + 4)) src
    | 2 => elementOf 2 (fun offset ↦ .copy (littleEndian offset) (x + 1)) src
    | _ => elementOf 4 (fun offset ↦ .copy (littleEndian offset) (x + 1)) src

/-- Append `length` bytes, each the one `offset` before it; these may be new ones. -/
def copyBytes (offset : Nat) : Nat → List UInt8 → List UInt8
  | 0, out => out
  | length + 1, out =>
    copyBytes offset length (out ++ (out.drop (out.length - offset)).take 1)

/-- The output after an element. -/
def Element.exec (out : List UInt8) : Element → Option (List UInt8)
  | .literal bytes => some (out ++ bytes)
  | .copy offset length =>
    if 0 < offset ∧ offset ≤ out.length then some (copyBytes offset length out) else none

/-- The output after the elements of `src`, at most `fuel` of them. -/
def decodeElements : Nat → List UInt8 → List UInt8 → Option (List UInt8)
  | _, [], out => some out
  | 0, _ :: _, _ => none
  | fuel + 1, b :: src, out => do
    let (element, src) ← parseElement (b :: src)
    let out ← element.exec out
    decodeElements fuel src out

/-- The elements of a block: what follows the length. -/
def body (src : List UInt8) : List UInt8 := src.drop (uvarint src).2.toNat

/-- What the elements `src` decode to. An element has at least one byte, so there are not more
elements than bytes. -/
def decodeBody (src : List UInt8) : Option (List UInt8) := decodeElements src.length src []

/-- `src` is a block for `data`: its length, and elements that decode to it. -/
structure IsBlock (src data : List UInt8) : Prop where
  length : (uvarint src).1 = data.length
  complete : 0 < (uvarint src).2
  small : data.length < 2 ^ 32
  elements : decodeBody (body src) = some data

instance (src data : List UInt8) : Decidable (IsBlock src data) :=
  decidable_of_iff ((uvarint src).1 = data.length ∧ 0 < (uvarint src).2 ∧
      data.length < 2 ^ 32 ∧ decodeBody (body src) = some data)
    ⟨fun ⟨h₁, h₂, h₃, h₄⟩ ↦ ⟨h₁, h₂, h₃, h₄⟩, fun ⟨h₁, h₂, h₃, h₄⟩ ↦ ⟨h₁, h₂, h₃, h₄⟩⟩

/-! ### What follows an element does not matter -/

variable {a a' : List UInt8}

private theorem takeBytes_append {n : Nat} {bytes : List UInt8}
    (h : takeBytes n a = some (bytes, a'))
    (b : List UInt8) : takeBytes n (a ++ b) = some (bytes, a' ++ b) := by
  unfold takeBytes at h ⊢
  split at h
  next hle =>
    cases h
    rw [if_pos (by rw [List.length_append]; omega), List.take_append_of_le_length hle,
      List.drop_append_of_le_length hle]
  next => cases h

private theorem length_takeBytes {n : Nat} {bytes : List UInt8}
    (h : takeBytes n a = some (bytes, a')) : a'.length ≤ a.length := by
  unfold takeBytes at h
  split at h
  · cases h
    simp
  · cases h

private theorem literalLength_append {x n : Nat} (h : literalLength x a = some (n, a'))
    (b : List UInt8) : literalLength x (a ++ b) = some (n, a' ++ b) := by
  unfold literalLength at h ⊢
  split at h
  next hsmall =>
    cases h
    rw [if_pos hsmall]
  next hlarge =>
    rw [if_neg hlarge]
    obtain ⟨⟨bytes, src⟩, hbytes, heq⟩ := Option.map_eq_some_iff.mp h
    cases heq
    rw [takeBytes_append hbytes]
    rfl

private theorem length_literalLength {x n : Nat} (h : literalLength x a = some (n, a')) :
    a'.length ≤ a.length := by
  unfold literalLength at h
  split at h
  · cases h
    exact Nat.le_refl _
  · obtain ⟨⟨bytes, src⟩, hbytes, heq⟩ := Option.map_eq_some_iff.mp h
    cases heq
    exact length_takeBytes hbytes

private theorem elementOf_append {n : Nat} {f : List UInt8 → Element} {e : Element}
    (h : elementOf n f a = some (e, a')) (b : List UInt8) :
    elementOf n f (a ++ b) = some (e, a' ++ b) ∧ a'.length ≤ a.length := by
  unfold elementOf at h ⊢
  obtain ⟨⟨bytes, src⟩, hbytes, heq⟩ := Option.map_eq_some_iff.mp h
  cases heq
  rw [takeBytes_append hbytes]
  exact ⟨rfl, length_takeBytes hbytes⟩

/-- An element is read in the same way whatever follows it, and takes at least one byte. -/
theorem parseElement_append {e : Element} (h : parseElement a = some (e, a')) (b : List UInt8) :
    parseElement (a ++ b) = some (e, a' ++ b) ∧ a'.length < a.length := by
  cases a with
  | nil => cases h
  | cons tag src =>
    simp only [List.cons_append, parseElement, List.length_cons] at h ⊢
    split at h
    · obtain ⟨⟨length, src'⟩, hlength, helement⟩ := Option.bind_eq_some_iff.mp h
      have hle := length_literalLength hlength
      obtain ⟨happend, hle'⟩ := elementOf_append helement b
      rw [literalLength_append hlength]
      exact ⟨happend, Nat.lt_succ_of_le (Nat.le_trans hle' hle)⟩
    all_goals
      obtain ⟨happend, hle⟩ := elementOf_append h b
      exact ⟨happend, by omega⟩

/-! ### What precedes an element does not matter -/

private theorem copyBytes_append (pre : List UInt8) {offset : Nat} (length : Nat) {out : List UInt8}
    (hle : offset ≤ out.length) :
    copyBytes offset length (pre ++ out) = pre ++ copyBytes offset length out := by
  induction length generalizing out with
  | zero => rfl
  | succ length ih =>
    have hdrop : (pre ++ out).drop ((pre ++ out).length - offset) =
        out.drop (out.length - offset) := by
      rw [List.length_append, Nat.add_sub_assoc hle, List.drop_append]
      simp
    rw [copyBytes, copyBytes, hdrop, List.append_assoc]
    apply ih
    rw [List.length_append]
    omega

private theorem exec_append (pre : List UInt8) {out out' : List UInt8} {e : Element}
    (h : e.exec out = some out') : e.exec (pre ++ out) = some (pre ++ out') := by
  cases e with
  | literal bytes =>
    cases h
    simp [Element.exec]
  | copy offset length =>
    unfold Element.exec at h ⊢
    dsimp only at h ⊢
    split at h
    next hoffset =>
      cases h
      rw [if_pos (by rw [List.length_append]; omega), copyBytes_append pre length hoffset.2]
    next => cases h

/-! ### Elements after elements -/

private theorem decodeElements_succ {fuel : Nat} {src out data : List UInt8}
    (h : decodeElements (fuel + 1) src out = some data) : (src = [] ∧ out = data) ∨
      ∃ e src' out', parseElement src = some (e, src') ∧ e.exec out = some out' ∧
        decodeElements fuel src' out' = some data := by
  cases src with
  | nil => exact .inl ⟨rfl, Option.some.inj h⟩
  | cons b src =>
    right
    unfold decodeElements at h
    cases hparse : parseElement (b :: src) with
    | none =>
      rw [hparse] at h
      cases h
    | some r =>
      obtain ⟨e, src'⟩ := r
      rw [hparse] at h
      cases hexec : e.exec out with
      | none =>
        dsimp only [Option.bind_eq_bind, Option.bind_some] at h
        rw [hexec] at h
        cases h
      | some out' =>
        dsimp only [Option.bind_eq_bind, Option.bind_some] at h
        rw [hexec] at h
        exact ⟨e, src', out', rfl, hexec, h⟩

private theorem decodeElements_of_parse {fuel : Nat} {src src' out out' : List UInt8} {e : Element}
    (hparse : parseElement src = some (e, src')) (hexec : e.exec out = some out') :
    decodeElements (fuel + 1) src out = decodeElements fuel src' out' := by
  cases src with
  | nil => cases hparse
  | cons b src =>
    rw [decodeElements, hparse]
    simp [hexec]

private theorem decodeElements_mono {fuel more : Nat} (hle : fuel ≤ more)
    {src out data : List UInt8} (h : decodeElements fuel src out = some data) :
    decodeElements more src out = some data := by
  induction fuel generalizing more src out with
  | zero =>
    cases src with
    | nil =>
      cases h
      cases more <;> rfl
    | cons b src => cases h
  | succ fuel ih =>
    obtain ⟨more, rfl⟩ : ∃ k, more = k + 1 := ⟨more - 1, by omega⟩
    rcases decodeElements_succ h with ⟨rfl, rfl⟩ | ⟨e, src', out', hparse, hexec, hrest⟩
    · rfl
    · rw [decodeElements_of_parse hparse hexec]
      exact ih (by omega) hrest

private theorem decodeElements_append {fuel fuel' : Nat} {src src' pre out data result : List UInt8}
    (h : decodeElements fuel src out = some data)
    (h' : decodeElements fuel' src' (pre ++ data) = some result) :
    decodeElements (fuel + fuel') (src ++ src') (pre ++ out) = some result := by
  induction fuel generalizing src out with
  | zero =>
    cases src with
    | nil =>
      cases h
      exact decodeElements_mono (by omega) h'
    | cons b src => cases h
  | succ fuel ih =>
    rcases decodeElements_succ h with ⟨rfl, rfl⟩ | ⟨e, rest, out', hparse, hexec, hrest⟩
    · exact decodeElements_mono (by omega) h'
    · rw [show fuel + 1 + fuel' = fuel + fuel' + 1 by omega,
        decodeElements_of_parse (parseElement_append hparse src').1 (exec_append pre hexec)]
      exact ih hrest

/-! ### Blocks after blocks -/

private theorem decodeElements_bodies {blocks payloads : List (List UInt8)}
    (h : List.Forall₂ IsBlock blocks payloads) (pre : List UInt8) :
    decodeElements (blocks.map body).flatten.length (blocks.map body).flatten pre =
      some (pre ++ payloads.flatten) := by
  induction h generalizing pre with
  | nil => simp [decodeElements]
  | @cons block payload blocks payloads hblock _ ih =>
    have hrest := ih (pre ++ payload)
    simp only [List.map_cons, List.flatten_cons, List.length_append]
    rw [← List.append_assoc]
    simpa using decodeElements_append hblock.elements hrest

/-- Several blocks in one: the sum of the lengths, and the elements one after the other. -/
theorem isBlock_concat {blocks payloads : List (List UInt8)}
    (h : List.Forall₂ IsBlock blocks payloads) (hsmall : payloads.flatten.length < 2 ^ 32) :
    IsBlock (putUvarint payloads.flatten.length ++ (blocks.map body).flatten)
      payloads.flatten := by
  have hread := uvarint_putUvarint (show payloads.flatten.length < 2 ^ 64 by omega)
    (blocks.map body).flatten
  refine ⟨?_, ?_, hsmall, ?_⟩
  · rw [hread]
  · rw [hread]
    apply Int.natCast_pos.mpr
    exact List.length_pos_of_ne_nil (putUvarint_ne_nil _)
  · rw [body, hread, Int.toNat_natCast, List.drop_left]
    exact decodeElements_bodies h []

end Snappy

end SMAgent.Base
