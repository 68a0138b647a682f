import Mathlib.Algebra.Ring.Nat
import SMAgent.Base.GoString

/-!
# Runes of a Go string

`for _, r := range s` and `[]rune(s)` decode UTF-8 as the `unicode/utf8` package does: a
byte that starts no valid encoding becomes the replacement rune and is one byte wide.
-/

namespace SMAgent.Base

/-- A Go `rune`. -/
abbrev Rune := Nat

namespace Rune

/-- `utf8.RuneError`. -/
def replacement : Rune := 0xfffd

/-- The rune of an ASCII character literal. -/
def ofChar (c : Char) : Rune := c.toNat

/-- `lo <= r && r <= hi` for character literals `lo` and `hi`. -/
def within (r : Rune) (lo hi : Char) : Bool := decide (lo.toNat ≤ r ∧ r ≤ hi.toNat)

end Rune

namespace GoString

/-- For a lead byte: the number of continuation bytes and the range of the first of them. -/
def leadInfo (b : UInt8) : Option (Nat × UInt8 × UInt8) :=
  if b < 0xc2 then none
  else if b < 0xe0 then some (1, 0x80, 0xbf)
  else if b = 0xe0 then some (2, 0xa0, 0xbf)
  else if b = 0xed then some (2, 0x80, 0x9f)
  else if b < 0xf0 then some (2, 0x80, 0xbf)
  else if b = 0xf0 then some (3, 0x90, 0xbf)
  else if b < 0xf4 then some (3, 0x80, 0xbf)
  else if b = 0xf4 then some (3, 0x80, 0x8f)
  else none

/-- The bytes after a lead byte complete its encoding. -/
def continues (n : Nat) (lo hi : UInt8) (tail : GoString) : Bool :=
  tail.length == n && tail.all (fun b ↦ decide (0x80 ≤ b ∧ b ≤ 0xbf)) &&
    tail.head?.all (fun b ↦ decide (lo ≤ b ∧ b ≤ hi))

/-- `utf8.DecodeRune`: the first rune and its width in bytes. -/
def decodeRune : GoString → Rune × Nat
  | [] => (Rune.replacement, 0)
  | b :: rest =>
    if b < 0x80 then (b.toNat, 1)
    else match leadInfo b with
    | none => (Rune.replacement, 1)
    | some (n, lo, hi) =>
      if continues n lo hi (rest.take n) then
        ((rest.take n).foldl (fun r c ↦ r * 64 + c.toNat % 64) (b.toNat % 2 ^ (6 - n)), n + 1)
      else (Rune.replacement, 1)

-- A rune is at least one byte wide, so the length of the input is enough fuel.
private def decodeRunes : Nat → GoString → List Rune
  | 0, _ => []
  | _, [] => []
  | fuel + 1, b :: rest =>
    let (r, width) := decodeRune (b :: rest)
    r :: decodeRunes fuel ((b :: rest).drop width)

/-- `[]rune(s)`, also the runes that `for _, r := range s` visits. -/
def runes (s : GoString) : List Rune := decodeRunes s.length s

private theorem le_foldl_continuation (tail : GoString) (r : Rune) :
    r * 64 ^ tail.length ≤ tail.foldl (fun r c ↦ r * 64 + c.toNat % 64) r := by
  induction tail generalizing r with
  | nil => simp
  | cons c tail ih =>
    refine le_trans ?_ (ih (r * 64 + c.toNat % 64))
    rw [List.length_cons, Nat.pow_succ', ← Nat.mul_assoc]
    exact Nat.mul_le_mul_right _ (Nat.le_add_right _ _)

private theorem leadInfo_cases (b : UInt8) (n : Nat) (lo hi : UInt8)
    (h : leadInfo b = some (n, lo, hi)) :
    (n = 1 ∧ 2 ≤ b.toNat % 32) ∨
      (n = 2 ∧ (1 ≤ b.toNat % 16 ∨ (lo.toNat = 0xa0 ∧ hi.toNat = 0xbf))) ∨
      (n = 3 ∧ (1 ≤ b.toNat % 8 ∨ (lo.toNat = 0x90 ∧ hi.toNat = 0xbf))) := by
  have hlt := b.toNat_lt
  simp only [leadInfo, UInt8.lt_iff_toNat_lt, ← UInt8.toNat_inj] at h
  repeat' split at h
  all_goals cases h
  all_goals simp [UInt8.toNat_ofNat] at *
  all_goals omega

private theorem le_of_continues (b : UInt8) (n : Nat) (lo hi : UInt8) (tail : GoString)
    (hb : leadInfo b = some (n, lo, hi)) (h : continues n lo hi tail = true) :
    0x80 ≤ tail.foldl (fun r c ↦ r * 64 + c.toNat % 64) (b.toNat % 2 ^ (6 - n)) := by
  simp only [continues, Bool.and_eq_true, beq_iff_eq] at h
  obtain ⟨⟨hlen, -⟩, hhead⟩ := h
  cases tail with
  | nil =>
    obtain rfl : n = 0 := hlen.symm
    rcases leadInfo_cases b 0 lo hi hb with ⟨h0, -⟩ | ⟨h0, -⟩ | ⟨h0, -⟩
    all_goals cases h0
  | cons c tail =>
    have hc : lo.toNat ≤ c.toNat ∧ c.toNat ≤ hi.toNat := by
      simpa [UInt8.le_iff_toNat_le] using hhead
    refine le_trans ?_ (le_foldl_continuation tail (b.toNat % 2 ^ (6 - n) * 64 + c.toNat % 64))
    have hlen' : tail.length + 1 = n := hlen
    rcases leadInfo_cases b n lo hi hb with ⟨rfl, hlead⟩ | ⟨rfl, hlead⟩ | ⟨rfl, hlead⟩
    · rw [show tail.length = 0 by omega]
      omega
    · rw [show tail.length = 1 by omega]
      omega
    · rw [show tail.length = 2 by omega]
      omega

private theorem le_decodeRune (b : UInt8) (rest : GoString) (hb : ¬ b < 0x80) :
    0x80 ≤ (decodeRune (b :: rest)).1 := by
  have hrep : 0x80 ≤ Rune.replacement := by decide
  simp only [decodeRune, if_neg hb]
  split
  · exact hrep
  · next n lo hi hlead =>
    split
    · next hc => exact le_of_continues b n lo hi _ hlead hc
    · exact hrep

private theorem foldl_continuation_lt (tail : GoString) (r : Rune) :
    tail.foldl (fun r c ↦ r * 64 + c.toNat % 64) r < (r + 1) * 64 ^ tail.length := by
  induction tail generalizing r with
  | nil => simp
  | cons c tail ih =>
    refine Nat.lt_of_lt_of_le (ih (r * 64 + c.toNat % 64)) ?_
    rw [List.length_cons, Nat.pow_succ', ← Nat.mul_assoc]
    apply Nat.mul_le_mul_right
    have : c.toNat % 64 < 64 := Nat.mod_lt _ (by decide)
    omega

/-- A byte outside ASCII is replaced, or it is part of a rune of several bytes. -/
theorem decodeRune_of_not_ascii {b : UInt8} (hb : ¬ b < 0x80) (rest : GoString) :
    decodeRune (b :: rest) = (Rune.replacement, 1) ∨
      2 ≤ (decodeRune (b :: rest)).2 ∧
        (4 ≤ (decodeRune (b :: rest)).2 ∨ (decodeRune (b :: rest)).1 < 0x10000) := by
  simp only [decodeRune, if_neg hb]
  split
  · exact .inl rfl
  · next n lo hi hlead =>
    split
    · next hc =>
      right
      simp only [continues, Bool.and_eq_true, beq_iff_eq] at hc
      have hlt := foldl_continuation_lt (rest.take n) (b.toNat % 2 ^ (6 - n))
      rw [hc.1.1] at hlt
      rcases leadInfo_cases b n lo hi hlead with ⟨rfl, -⟩ | ⟨rfl, -⟩ | ⟨rfl, -⟩
      · exact ⟨Nat.le_refl 2, .inr (Nat.lt_of_lt_of_le hlt (by omega))⟩
      · exact ⟨Nat.le_succ 2, .inr (Nat.lt_of_lt_of_le hlt (by omega))⟩
      · exact ⟨by omega, .inl (Nat.le_refl 4)⟩
    · exact .inl rfl

private theorem forall_mem_of_decodeRunes {p : Rune → Bool} (hp : ∀ r, 0x80 ≤ r → p r = false)
    (fuel : Nat) (s : GoString) (hs : s.length ≤ fuel) (h : (decodeRunes fuel s).all p = true) :
    ∀ b ∈ s, b < 0x80 ∧ p b.toNat = true := by
  induction fuel generalizing s with
  | zero =>
    obtain rfl := List.length_eq_zero_iff.mp (Nat.le_zero.mp hs)
    exact fun b hb ↦ absurd hb List.not_mem_nil
  | succ fuel ih =>
    cases s with
    | nil => exact fun b hb ↦ absurd hb List.not_mem_nil
    | cons b rest =>
      have hall : p (decodeRune (b :: rest)).1 = true ∧
          (decodeRunes fuel ((b :: rest).drop (decodeRune (b :: rest)).2)).all p = true := by
        simpa [decodeRunes] using h
      have hb : b < 0x80 := by
        by_contra hb
        rw [hp _ (le_decodeRune b rest hb)] at hall
        exact Bool.noConfusion hall.1
      have hdec : decodeRune (b :: rest) = (b.toNat, 1) := by rw [decodeRune, if_pos hb]
      rw [hdec] at hall
      intro c hc
      rcases List.mem_cons.mp hc with rfl | hc
      · exact ⟨hb, hall.1⟩
      · exact ih rest (Nat.le_of_succ_le_succ hs) hall.2 c hc

/-! ### Runes one after the other -/

/-- A rune is at least one byte wide, and no wider than the string. -/
theorem decodeRune_width (b : UInt8) (rest : GoString) :
    1 ≤ (decodeRune (b :: rest)).2 ∧ (decodeRune (b :: rest)).2 ≤ (b :: rest).length := by
  rw [decodeRune]
  split
  · exact ⟨Nat.le_refl _, by simp⟩
  split
  · exact ⟨Nat.le_refl _, by simp⟩
  split
  · next n lo hi _ hc =>
    simp only [continues, Bool.and_eq_true, beq_iff_eq, List.length_take] at hc
    have hlen := hc.1.1
    simp only [List.length_cons]
    omega
  · exact ⟨Nat.le_refl _, by simp⟩

private theorem decodeRunes_of_le {fuel : Nat} {s : GoString} (h : s.length ≤ fuel) :
    decodeRunes fuel s = runes s := by
  induction fuel using Nat.strongRecOn generalizing s with
  | ind fuel ih =>
    cases s with
    | nil => cases fuel <;> rfl
    | cons b rest =>
      cases fuel with
      | zero => cases h
      | succ fuel =>
        have hwidth := (decodeRune_width b rest).1
        have hlen : rest.length ≤ fuel := Nat.le_of_succ_le_succ h
        have hdrop : ((b :: rest).drop (decodeRune (b :: rest)).2).length ≤ rest.length := by
          rw [List.length_drop, List.length_cons]
          omega
        rw [runes, List.length_cons, decodeRunes, decodeRunes]
        simp only
        rw [ih fuel (Nat.lt_succ_self _) (hdrop.trans hlen),
          ih rest.length (Nat.lt_succ_of_le hlen) hdrop]

@[simp] private theorem runes_nil : runes [] = [] := rfl

/-- The first rune and the others. -/
theorem runes_cons (b : UInt8) (rest : GoString) :
    runes (b :: rest) = (decodeRune (b :: rest)).1 ::
      runes ((b :: rest).drop (decodeRune (b :: rest)).2) := by
  have hwidth := (decodeRune_width b rest).1
  rw [runes, List.length_cons, decodeRunes]
  simp only
  rw [decodeRunes_of_le]
  rw [List.length_drop, List.length_cons]
  omega

/-- An ASCII byte is a rune. -/
theorem runes_cons_ascii {b : UInt8} (hb : b < 0x80) (rest : GoString) :
    runes (b :: rest) = b.toNat :: runes rest := by
  rw [runes_cons, decodeRune, if_pos hb]
  rfl

/-- An ASCII string has a rune for each byte. -/
theorem runes_of_ascii {s : GoString} (h : ∀ b ∈ s, b < 0x80) : s.runes = s.map UInt8.toNat := by
  induction s with
  | nil => rfl
  | cons b s ih =>
    rw [runes_cons_ascii (h b List.mem_cons_self), List.map_cons,
      ih fun c hc ↦ h c (List.mem_cons_of_mem b hc)]

private theorem decodeRune_append {b : UInt8} (hb : b < 0x80) (c : UInt8) (u t : GoString) :
    decodeRune (c :: (u ++ b :: t)) = decodeRune (c :: u) := by
  rw [decodeRune, decodeRune]
  split
  · rfl
  split
  · rfl
  · next n lo hi _ =>
    by_cases hn : n ≤ u.length
    · rw [List.take_append_of_le_length hn]
    · -- `b` is among the bytes that would have to continue the encoding
      have hshort : continues n lo hi (u.take n) = false := by
        rw [continues, List.take_of_length_le (by omega),
          show (u.length == n) = false from beq_false_of_ne (by omega)]
        rfl
      have hlong : continues n lo hi ((u ++ b :: t).take n) = false := by
        have hmem : b ∈ (u ++ b :: t).take n := by
          rw [List.take_append, List.take_of_length_le (by omega)]
          apply List.mem_append_right
          obtain ⟨k, hk⟩ := Nat.exists_eq_add_of_lt (Nat.lt_of_not_le hn)
          rw [show n - u.length = k + 1 by omega]
          exact List.mem_cons_self
        have hall : ((u ++ b :: t).take n).all (fun b ↦ decide (0x80 ≤ b ∧ b ≤ 0xbf)) = false := by
          rw [List.all_eq_false]
          exact ⟨b, hmem, by simpa using fun h ↦ absurd hb (UInt8.not_lt.mpr h)⟩
        rw [continues, hall, Bool.and_false, Bool.false_and]
      rw [hshort, hlong, if_neg Bool.false_ne_true, if_neg Bool.false_ne_true]

/-- Runes do not reach over an ASCII byte. -/
theorem runes_append_ascii (u : GoString) {b : UInt8} (hb : b < 0x80) (t : GoString) :
    runes (u ++ b :: t) = runes u ++ runes (b :: t) := by
  induction hlen : u.length using Nat.strong_induction_on generalizing u with
  | _ l ih =>
    cases u with
    | nil => rfl
    | cons c u =>
      have ⟨hpos, hle⟩ := decodeRune_width c u
      rw [List.cons_append, runes_cons, runes_cons c u, decodeRune_append hb, ← List.cons_append,
        List.drop_append_of_le_length hle, ih _ _ _ rfl, List.cons_append]
      rw [← hlen, List.length_drop]
      omega

/-- An ASCII rune is an ASCII byte, between the bytes of the runes around it. -/
theorem exists_of_runes_eq {s : GoString} {x y : List Rune} {r : Rune} (hr : r < 0x80)
    (h : runes s = x ++ r :: y) :
    ∃ u b t, s = u ++ b :: t ∧ b < 0x80 ∧ b.toNat = r ∧ runes u = x ∧ runes t = y := by
  induction hlen : s.length using Nat.strong_induction_on generalizing s x with
  | _ l ih =>
    cases s with
    | nil =>
      rw [runes_nil] at h
      exact absurd h.symm (by simp)
    | cons c rest =>
      have ⟨hpos, hle⟩ := decodeRune_width c rest
      cases x with
      | nil =>
        rw [runes_cons, List.nil_append, List.cons.injEq] at h
        have hc : c < 0x80 := by
          by_contra hc
          have hle := le_decodeRune c rest hc
          rw [h.1] at hle
          exact absurd hr (Nat.not_lt.mpr hle)
        have hdec : decodeRune (c :: rest) = (c.toNat, 1) := by rw [decodeRune, if_pos hc]
        rw [hdec] at h
        exact ⟨[], c, rest, rfl, hc, h.1, rfl, h.2⟩
      | cons r' x =>
        rw [runes_cons, List.cons_append, List.cons.injEq] at h
        have hsplit := List.take_append_drop (decodeRune (c :: rest)).2 (c :: rest)
        have hshort : ((c :: rest).drop (decodeRune (c :: rest)).2).length < l := by
          rw [← hlen, List.length_drop]
          omega
        obtain ⟨u, b, t, hs, hb, hbr, -, ht⟩ := ih _ hshort h.2 rfl
        refine ⟨(c :: rest).take (decodeRune (c :: rest)).2 ++ u, b, t, ?_, hb, hbr, ?_, ht⟩
        · rw [List.append_assoc, ← hs, hsplit]
        · -- what follows the byte is the same on both sides
          have hwhole : c :: rest = (c :: rest).take (decodeRune (c :: rest)).2 ++ u ++ b :: t := by
            rw [List.append_assoc, ← hs, hsplit]
          have hrunes : runes (c :: rest) = r' :: x ++ r :: y := by
            rw [runes_cons, h.1, h.2, List.cons_append]
          rw [hwhole, runes_append_ascii _ hb, runes_cons_ascii hb, hbr, ht] at hrunes
          exact List.append_cancel_right hrunes

/-! ### Valid encodings -/

/-- The bytes of the first rune and what follows them, if a valid encoding comes first. -/
def splitRune : GoString → Option (GoString × GoString)
  | [] => none
  | b :: rest =>
    if b < 0x80 then some ([b], rest)
    else match leadInfo b with
    | none => none
    | some (n, lo, hi) =>
      if continues n lo hi (rest.take n) then some (b :: rest.take n, rest.drop n) else none

-- A rune is at least one byte wide, so the length of the input is enough fuel.
private def validRunes : Nat → GoString → Bool
  | _, [] => true
  | 0, _ :: _ => false
  | fuel + 1, b :: rest =>
    match splitRune (b :: rest) with
    | some (_, tail) => validRunes fuel tail
    | none => false

/-- `utf8.ValidString`. -/
def validString (s : GoString) : Bool := validRunes s.length s

variable {s bytes rest : GoString}

/-- The first rune is one ASCII byte, or has no ASCII byte. -/
theorem splitRune_eq_some (h : splitRune s = some (bytes, rest)) :
    s = bytes ++ rest ∧ ((∃ b, b < 0x80 ∧ bytes = [b]) ∨
      (bytes ≠ [] ∧ ∀ b ∈ bytes, ¬ b < 0x80)) := by
  cases s with
  | nil => cases h
  | cons b tail =>
    rw [splitRune] at h
    split at h
    · next hb =>
      cases h
      exact ⟨rfl, .inl ⟨b, hb, rfl⟩⟩
    · next hb =>
      split at h
      · cases h
      · next n lo hi hlead =>
        split at h
        · next hc =>
          cases h
          refine ⟨by rw [List.cons_append, List.take_append_drop], .inr ⟨nofun, ?_⟩⟩
          simp only [continues, Bool.and_eq_true, List.all_eq_true, decide_eq_true_eq] at hc
          intro c hmem
          rcases List.mem_cons.mp hmem with rfl | hmem
          · exact hb
          · exact UInt8.not_lt.mpr (hc.1.2 c hmem).1
        · cases h

/-- A rune takes at least one byte. -/
theorem length_of_splitRune (h : splitRune s = some (bytes, rest)) :
    s.length = bytes.length + rest.length ∧ rest.length < s.length := by
  obtain ⟨rfl, hbytes⟩ := splitRune_eq_some h
  have hpos : 0 < bytes.length := by
    rcases hbytes with ⟨b, -, rfl⟩ | ⟨hne, -⟩
    · exact Nat.one_pos
    · exact List.length_pos_iff.mpr hne
  rw [List.length_append]
  omega

/-- The first rune does not depend on what follows its bytes. -/
theorem splitRune_append (h : splitRune s = some (bytes, rest)) (t : GoString) :
    splitRune (bytes ++ t) = some (bytes, t) := by
  cases s with
  | nil => cases h
  | cons b tail =>
    rw [splitRune] at h
    split at h
    · next hb =>
      cases h
      rw [List.singleton_append, splitRune, if_pos hb]
    · next hb =>
      split at h
      · cases h
      · next n lo hi hlead =>
        split at h
        · next hc =>
          cases h
          have hlen : (tail.take n).length = n := by
            simp only [continues, Bool.and_eq_true, beq_iff_eq] at hc
            exact hc.1.1
          rw [List.cons_append, splitRune, if_neg hb, hlead]
          simp only [List.take_left' hlen, List.drop_left' hlen, hc]
          rfl
        · cases h

private theorem validRunes_of_le (fuel : Nat) (s : GoString) (h : s.length ≤ fuel) :
    validRunes fuel s = validString s := by
  induction fuel using Nat.strongRecOn generalizing s with
  | ind fuel ih =>
    cases s with
    | nil => cases fuel <;> rfl
    | cons b rest =>
      cases fuel with
      | zero => exact absurd h (by simp)
      | succ fuel =>
        rw [validString, List.length_cons, validRunes, validRunes]
        cases hs : splitRune (b :: rest) with
        | none => rfl
        | some parts =>
          have hlt := (length_of_splitRune hs).2
          rw [List.length_cons] at hlt h
          change validRunes fuel parts.2 = validRunes rest.length parts.2
          rw [ih fuel (by omega) parts.2 (by omega), ih rest.length (by omega) parts.2 (by omega)]

/-- A string is valid when its first rune is and the rest is. -/
theorem validString_of_splitRune (h : splitRune s = some (bytes, rest)) :
    validString s = validString rest := by
  have hlt := (length_of_splitRune h).2
  cases s with
  | nil => cases h
  | cons b tail =>
    rw [validString, List.length_cons, validRunes, h]
    exact validRunes_of_le _ _ (by rw [List.length_cons] at hlt; omega)

/-- A non-empty valid string starts with a rune. -/
theorem exists_splitRune {s : GoString} (h : validString s = true) (hne : s ≠ []) :
    ∃ bytes rest, splitRune s = some (bytes, rest) := by
  cases s with
  | nil => exact absurd rfl hne
  | cons b tail =>
    rw [validString, List.length_cons, validRunes] at h
    cases hs : splitRune (b :: tail) with
    | none =>
      rw [hs] at h
      cases h
    | some parts => exact ⟨parts.1, parts.2, rfl⟩

/-- A valid text in front does not matter. -/
theorem validString_append {s : GoString} (hs : validString s = true) (t : GoString) :
    validString (s ++ t) = validString t := by
  induction hn : s.length using Nat.strongRecOn generalizing s with
  | ind n ih =>
    by_cases hne : s = []
    · rw [hne, List.nil_append]
    · obtain ⟨bytes, rest, hsplit⟩ := exists_splitRune hs hne
      have hlt := (length_of_splitRune hsplit).2
      rw [validString_of_splitRune hsplit] at hs
      obtain ⟨rfl, -⟩ := splitRune_eq_some hsplit
      rw [List.append_assoc, validString_of_splitRune (splitRune_append hsplit (rest ++ t))]
      exact ih _ (hn ▸ hlt) hs rfl

/-- An ASCII byte ends a rune that is valid. -/
theorem validString_of_append_ascii {s t : GoString} {b : UInt8} (hb : b < 0x80)
    (h : validString (s ++ b :: t) = true) : validString s = true := by
  induction hn : s.length using Nat.strongRecOn generalizing s with
  | ind n ih =>
    by_cases hne : s = []
    · rw [hne]
      rfl
    · obtain ⟨bytes, rest, hsplit⟩ := exists_splitRune h (by simp [hne])
      obtain ⟨heq, hbytes⟩ := splitRune_eq_some hsplit
      -- The first rune does not reach over `b`.
      obtain ⟨s', rfl, rfl⟩ : ∃ s', s = bytes ++ s' ∧ rest = s' ++ b :: t := by
        rcases List.append_eq_append_iff.mp heq with ⟨u, rfl, hu⟩ | ⟨u, rfl, rfl⟩
        · cases u with
          | nil => exact ⟨[], by rw [List.append_nil, List.append_nil], hu.symm⟩
          | cons c u =>
            obtain ⟨rfl, -⟩ := List.cons.inj hu
            rcases hbytes with ⟨c, -, hc⟩ | ⟨-, hc⟩
            · have hlength := congrArg List.length hc
              have hpos := List.length_pos_iff.mpr hne
              simp only [List.length_append, List.length_cons, List.length_nil] at hlength
              omega
            · exact absurd hb (hc _ (by simp))
        · exact ⟨u, rfl, rfl⟩
      have hs : splitRune (bytes ++ s') = some (bytes, s') := splitRune_append hsplit s'
      have hlt := (length_of_splitRune hs).2
      rw [validString_of_splitRune hsplit] at h
      rw [validString_of_splitRune hs]
      exact ih _ (hn ▸ hlt) h rfl

/-- `utf8.RuneStart`. -/
def runeStart (b : UInt8) : Bool := !decide (0x80 ≤ b ∧ b ≤ 0xbf)

private theorem splitRune_starts (h : splitRune s = some (bytes, rest)) :
    ∃ b tail, bytes = b :: tail ∧ runeStart b = true ∧ (∀ c ∈ tail, runeStart c = false) ∧
      ∀ k, k < tail.length → splitRune (b :: tail.take k) = none := by
  cases s with
  | nil => cases h
  | cons b tail =>
    rw [splitRune] at h
    split at h
    · next hb =>
      cases h
      refine ⟨b, [], rfl, ?_, fun c hc ↦ absurd hc List.not_mem_nil, fun k hk ↦ ?_⟩
      · simp [runeStart, hb]
      · exact absurd hk (Nat.not_lt_zero k)
    · next hb =>
      split at h
      · cases h
      · next n lo hi hlead =>
        split at h
        · next hc =>
          cases h
          simp only [continues, Bool.and_eq_true, beq_iff_eq, List.all_eq_true,
            decide_eq_true_eq] at hc
          have hstart : ¬ b ≤ 0xbf := by
            intro hle
            rw [leadInfo, if_pos (UInt8.lt_of_le_of_lt hle (by decide))] at hlead
            cases hlead
          refine ⟨b, tail.take n, rfl, ?_, fun c hmem ↦ ?_, fun k hk ↦ ?_⟩
          · simp [runeStart, hstart]
          · simp [runeStart, hc.1.2 c hmem]
          · have hshort : continues n lo hi (((tail.take n).take k).take n) = false := by
              have hlength : ¬ (((tail.take n).take k).take n).length = n := by
                simp only [List.length_take]
                omega
              rw [continues, beq_false_of_ne hlength]
              rfl
            rw [splitRune, if_neg hb, hlead]
            simp only [hshort]
            rfl
        · cases h

/-- A part of a valid string is valid exactly if it ends where a rune starts. -/
theorem validString_take {s : GoString} (hs : validString s = true) (k : Nat) :
    validString (s.take k) = (s.drop k).head?.all runeStart := by
  induction hn : s.length using Nat.strongRecOn generalizing s k with
  | ind n ih =>
    by_cases hne : s = []
    · rw [hne, List.take_nil, List.drop_nil]
      rfl
    · obtain ⟨bytes, rest, hsplit⟩ := exists_splitRune hs hne
      have hlt := (length_of_splitRune hsplit).2
      obtain ⟨b, tail, rfl, hb, htail, hnone⟩ := splitRune_starts hsplit
      rw [validString_of_splitRune hsplit] at hs
      obtain ⟨rfl, -⟩ := splitRune_eq_some hsplit
      cases k with
      | zero => exact hb.symm
      | succ k =>
        by_cases hk : k < tail.length
        · -- The cut is inside the first rune.
          have hleft : validString (((b :: tail) ++ rest).take (k + 1)) = false := by
            rw [List.cons_append, List.take_succ_cons, List.take_append_of_le_length hk.le,
              validString, List.length_cons, validRunes, hnone k hk]
          rw [hleft, List.cons_append, List.drop_succ_cons, List.head?_drop,
            List.getElem?_append_left hk, List.getElem?_eq_getElem hk]
          exact (htail _ (List.getElem_mem hk)).symm
        · have hcut : ((b :: tail) ++ rest).take (k + 1) =
              (b :: tail) ++ rest.take (k - tail.length) := by
            rw [List.cons_append, List.take_succ_cons, List.take_append,
              List.take_of_length_le (by omega), List.cons_append]
          have hrest : ((b :: tail) ++ rest).drop (k + 1) = rest.drop (k - tail.length) := by
            rw [List.cons_append, List.drop_succ_cons, List.drop_append,
              List.drop_of_length_le (by omega), List.nil_append]
          rw [hcut, hrest, validString_of_splitRune (splitRune_append hsplit _)]
          exact ih _ (hn ▸ hlt) hs _ rfl

/-- A string whose runes are all in a set of ASCII runes is made of their bytes. -/
theorem forall_mem_of_runes_all {p : Rune → Bool} (hp : ∀ r, 0x80 ≤ r → p r = false)
    (s : GoString) (h : s.runes.all p = true) : ∀ b ∈ s, b < 0x80 ∧ p b.toNat = true :=
  forall_mem_of_decodeRunes hp s.length s le_rfl h

end GoString
end SMAgent.Base
