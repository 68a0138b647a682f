import Mathlib.Data.List.Sort
import Mathlib.Data.List.Infix

/-!
# Go strings and run-time panics

A Go string is an immutable byte sequence; nothing forces it to be valid UTF-8.
The operations below are those of the `strings` package that the modelled code calls,
at the one-byte separators it uses. Splitting and joining are the list functions
`List.splitOn` and `List.intercalate`.
A call that can panic returns `Except Panic α`; no modelled goroutine recovers, so a
panic ends the run.
-/

namespace SMAgent.Base

/-- A Go `string` or `[]byte` value. -/
abbrev GoString := List UInt8

-- named, so that membership in a list of strings is decided in one way everywhere
instance instLawfulBEqGoString : LawfulBEq GoString := inferInstance

/-- Why a call panicked. -/
inductive Panic where
  | indexOutOfRange
  | nilDereference
  | explicit (msg : GoString)
  deriving DecidableEq, Repr

namespace GoString

/-- A source literal, encoded as UTF-8 as the Go compiler does. -/
def lit (s : String) : GoString := s.toUTF8.data.toList

/-- The byte of an ASCII rune literal. -/
def byte (c : Char) : UInt8 := c.toNat.toUInt8

/-- `strings.Split(s, sep)` at a one-byte separator. -/
def split (s : GoString) (sep : UInt8) : List GoString := s.splitOn sep

/-- `strings.SplitN(s, sep, 2)` at a one-byte separator. -/
def splitN2 (s : GoString) (sep : UInt8) : List GoString :=
  match s.dropWhile (· != sep) with
  | [] => [s]
  | _ :: rest => [s.takeWhile (· != sep), rest]

/-- A string that has the separator is cut at its first one. -/
theorem splitN2_append (front rest : GoString) {sep : UInt8} (h : sep ∉ front) :
    splitN2 (front ++ sep :: rest) sep = [front, rest] := by
  have hfront : ∀ b ∈ front, (b != sep) = true := by
    intro b hb
    exact bne_iff_ne.mpr fun heq ↦ h (heq ▸ hb)
  simp only [splitN2, List.dropWhile_append_of_pos hfront, List.takeWhile_append_of_pos hfront,
    List.dropWhile_cons, List.takeWhile_cons, bne_self_eq_false, Bool.false_eq_true, if_false,
    List.append_nil]

/-- `strings.TrimLeft(s, cutset)` with a cutset of one ASCII byte. -/
def trimLeft (s : GoString) (cut : UInt8) : GoString := s.dropWhile (· == cut)

/-- Nothing is trimmed exactly when the first byte is another one. -/
theorem trimLeft_eq_self (s : GoString) (cut : UInt8) :
    s.trimLeft cut = s ↔ s.head? ≠ some cut := by
  cases s with
  | nil => simp [trimLeft]
  | cons b s =>
    rw [trimLeft, List.dropWhile_cons]
    split
    · next hb =>
      have hlen := (List.dropWhile_suffix (l := s) (· == cut)).length_le
      simp only [List.head?_cons, ne_eq, eq_of_beq hb, not_true, iff_false]
      intro heq
      have := congrArg List.length heq
      rw [List.length_cons] at this
      omega
    · next hb =>
      simp only [List.head?_cons, ne_eq, Option.some.injEq, true_iff]
      exact fun heq ↦ hb (beq_iff_eq.mpr heq)

/-- `strings.Join(parts, sep)` with a one-byte separator. -/
def join (parts : List GoString) (sep : UInt8) : GoString := [sep].intercalate parts

/-- `strings.Contains(s, substr)`. -/
def contains (s substr : GoString) : Bool := decide (substr <:+: s)

/-- The slice expression `s[lo:hi]`. -/
def slice (s : GoString) (lo hi : Nat) : Except Panic GoString :=
  if lo ≤ hi ∧ hi ≤ s.length then .ok ((s.take hi).drop lo) else .error .indexOutOfRange

-- Each round takes a byte, so the length of the text is enough fuel.
private def replaceFrom (old new : GoString) : Nat → GoString → GoString
  | 0, s => s
  | _ + 1, [] => []
  | fuel + 1, b :: rest =>
    if old.isPrefixOf (b :: rest) then
      new ++ replaceFrom old new fuel ((b :: rest).drop old.length)
    else b :: replaceFrom old new fuel rest

/-- `strings.ReplaceAll(s, old, new)`, for an `old` that is not empty. -/
def replaceAll (s old new : GoString) : GoString := replaceFrom old new s.length s

private theorem replaceFrom_of_le {old new : GoString} (hold : old ≠ []) {fuel : Nat}
    {s : GoString} (h : s.length ≤ fuel) : replaceFrom old new fuel s = replaceAll s old new := by
  induction fuel using Nat.strongRecOn generalizing s with
  | ind fuel ih =>
    cases s with
    | nil => cases fuel <;> rfl
    | cons b rest =>
      cases fuel with
      | zero => cases h
      | succ fuel =>
        have hlen : rest.length ≤ fuel := Nat.le_of_succ_le_succ h
        rw [replaceAll, List.length_cons, replaceFrom, replaceFrom]
        split
        · -- a round that replaces takes a byte as well
          have hdrop : ((b :: rest).drop old.length).length ≤ rest.length := by
            have := List.length_pos_iff.mpr hold
            rw [List.length_drop, List.length_cons]
            omega
          rw [ih fuel (Nat.lt_succ_self _) (hdrop.trans hlen),
            ih rest.length (Nat.lt_succ_of_le hlen) hdrop]
        · rw [ih fuel (Nat.lt_succ_self _) hlen,
            ih rest.length (Nat.lt_succ_of_le hlen) (Nat.le_refl _)]

/-- An occurrence at the start is replaced. -/
theorem replaceAll_append {old : GoString} (hold : old ≠ []) (new s : GoString) :
    replaceAll (old ++ s) old new = new ++ replaceAll s old new := by
  obtain ⟨b, rest, rfl⟩ := List.exists_cons_of_ne_nil hold
  have hpre : (b :: rest).isPrefixOf (b :: (rest ++ s)) = true :=
    List.isPrefixOf_iff_prefix.mpr ⟨s, rfl⟩
  have hdrop : (b :: (rest ++ s)).drop (b :: rest).length = s := List.drop_left
  rw [List.cons_append, replaceAll, List.length_cons, replaceFrom, if_pos hpre, hdrop,
    replaceFrom_of_le hold]
  simp

/-- A byte at which no occurrence starts is kept. -/
theorem replaceAll_cons {old s : GoString} {b : UInt8} (h : ¬ old <+: b :: s) (new : GoString) :
    replaceAll (b :: s) old new = b :: replaceAll s old new := by
  rw [replaceAll, List.length_cons, replaceFrom, if_neg, replaceAll]
  exact fun hpre ↦ h (List.isPrefixOf_iff_prefix.mp hpre)

/-- The UTF-8 encodings of the runes for which `unicode.IsSpace` holds. -/
def spaces : List GoString :=
  [[0x09], [0x0a], [0x0b], [0x0c], [0x0d], [0x20], [0xc2, 0x85], [0xc2, 0xa0], [0xe1, 0x9a, 0x80],
    [0xe2, 0x80, 0x80], [0xe2, 0x80, 0x81], [0xe2, 0x80, 0x82], [0xe2, 0x80, 0x83],
    [0xe2, 0x80, 0x84], [0xe2, 0x80, 0x85], [0xe2, 0x80, 0x86], [0xe2, 0x80, 0x87],
    [0xe2, 0x80, 0x88], [0xe2, 0x80, 0x89], [0xe2, 0x80, 0x8a], [0xe2, 0x80, 0xa8],
    [0xe2, 0x80, 0xa9], [0xe2, 0x80, 0xaf], [0xe2, 0x81, 0x9f], [0xe3, 0x80, 0x80]]

-- Each round removes one encoded rune, so the length of the input is enough fuel.
private def trimFront (runes : List GoString) : Nat → GoString → GoString
  | 0, s => s
  | fuel + 1, s =>
    match runes.find? (fun r ↦ r.isPrefixOf s) with
    | some r => trimFront runes fuel (s.drop r.length)
    | none => s

/-- `strings.TrimSpace(s)`: strip leading, then trailing, encoded white space runes. -/
def trimSpace (s : GoString) : GoString :=
  let front := trimFront spaces s.length s
  (trimFront (spaces.map List.reverse) front.length front.reverse).reverse

/-! ### Trimmed strings -/

private theorem trimFront_suffix (runes : List GoString) (fuel : Nat) (s : GoString) :
    trimFront runes fuel s <:+ s := by
  induction fuel generalizing s with
  | zero => exact List.suffix_refl s
  | succ fuel ih =>
    rw [trimFront]
    split
    · next r _ => exact (ih _).trans (List.drop_suffix _ _)
    · exact List.suffix_refl s

private theorem trimFront_eq_self {runes : List GoString} {s : GoString}
    (h : ∀ r ∈ runes, ¬ r <+: s) (fuel : Nat) : trimFront runes fuel s = s := by
  cases fuel with
  | zero => rfl
  | succ fuel =>
    have hnone : runes.find? (fun r ↦ r.isPrefixOf s) = none := by
      rw [List.find?_eq_none]
      intro r hr hpre
      exact h r hr (List.isPrefixOf_iff_prefix.mp hpre)
    rw [trimFront, hnone]

private theorem not_isPrefix_trimFront {runes : List GoString} (hne : ∀ r ∈ runes, r ≠ [])
    {fuel : Nat} {s : GoString} (h : s.length ≤ fuel) :
    ∀ r ∈ runes, ¬ r <+: trimFront runes fuel s := by
  induction fuel generalizing s with
  | zero =>
    intro r hr hpre
    rw [trimFront, List.length_eq_zero_iff.mp (Nat.le_zero.mp h), List.prefix_nil] at hpre
    exact hne r hr hpre
  | succ fuel ih =>
    rw [trimFront]
    split
    · next r hfind =>
      have hpos := List.length_pos_iff.mpr (hne r (List.mem_of_find?_eq_some hfind))
      apply ih
      rw [List.length_drop]
      omega
    · next hfind =>
      intro r hr hpre
      have hr' := List.find?_eq_none.mp hfind r hr
      exact hr' (List.isPrefixOf_iff_prefix.mpr hpre)

/-- The bytes that are left are bytes of the string. -/
theorem mem_of_mem_trimSpace {s : GoString} {b : UInt8} (h : b ∈ trimSpace s) : b ∈ s := by
  rw [trimSpace, List.mem_reverse] at h
  have hfront := (trimFront_suffix _ _ _).subset h
  rw [List.mem_reverse] at hfront
  exact (trimFront_suffix _ _ _).subset hfront

/-- A trimmed string stays as it is. -/
theorem trimSpace_trimSpace (s : GoString) : trimSpace (trimSpace s) = trimSpace s := by
  have hne : ∀ r ∈ spaces, r ≠ [] := by decide
  have hneReverse : ∀ r ∈ spaces.map List.reverse, r ≠ [] := by decide
  have hfront : ∀ r ∈ spaces, ¬ r <+: trimSpace s := by
    intro r hr hpre
    refine not_isPrefix_trimFront hne (Nat.le_refl s.length) r hr (hpre.trans ?_)
    rw [trimSpace, ← List.reverse_suffix, List.reverse_reverse]
    exact trimFront_suffix _ _ _
  have hback : ∀ r ∈ spaces.map List.reverse, ¬ r <+: (trimSpace s).reverse := by
    rw [trimSpace, List.reverse_reverse]
    exact not_isPrefix_trimFront hneReverse (Nat.le_of_eq List.length_reverse)
  rw [trimSpace.eq_def (trimSpace s)]
  simp only [trimFront_eq_self hfront, trimFront_eq_self hback, List.reverse_reverse]

/-- A part is read by the indices at which it begins and ends. -/
theorem slice_append (front part rest : GoString) :
    slice (front ++ (part ++ rest)) front.length (front.length + part.length) = .ok part := by
  have hlen : (front ++ part).length = front.length + part.length := List.length_append
  rw [slice, if_pos, ← List.append_assoc, ← hlen, List.take_left, List.drop_left]
  simp only [List.length_append]
  omega

/-- Splitting undoes joining when the separator occurs in no part. -/
theorem split_join (parts : List GoString) (sep : UInt8) (hn : parts ≠ [])
    (h : ∀ p ∈ parts, sep ∉ p) : split (join parts sep) sep = parts :=
  List.splitOn_intercalate sep h hn

private theorem splitOnP_pieces (p : UInt8 → Bool) (s : GoString) :
    ∀ piece ∈ s.splitOnP p, ∀ b ∈ piece, b ∈ s ∧ p b = false := by
  induction s with
  | nil => simp
  | cons x xs ih =>
    intro piece hp b hb
    rw [List.splitOnP_cons_eq_if_modifyHead] at hp
    split at hp
    · rcases List.mem_cons.mp hp with rfl | hp
      · cases hb
      · exact ⟨List.mem_cons_of_mem _ (ih piece hp b hb).1, (ih piece hp b hb).2⟩
    · next hx =>
      cases hs : xs.splitOnP p with
      | nil => simp [hs] at hp
      | cons first rest =>
        rw [hs, List.modifyHead_cons] at hp
        rcases List.mem_cons.mp hp with rfl | hp
        · rcases List.mem_cons.mp hb with rfl | hb
          · exact ⟨List.mem_cons_self, by simpa using hx⟩
          · have hf := ih first (by rw [hs]; exact List.mem_cons_self) b hb
            exact ⟨List.mem_cons_of_mem _ hf.1, hf.2⟩
        · have hr := ih piece (by rw [hs]; exact List.mem_cons_of_mem _ hp) b hb
          exact ⟨List.mem_cons_of_mem _ hr.1, hr.2⟩

/-- A piece of a split contains no separator. -/
theorem notMem_of_mem_split (s : GoString) (sep : UInt8) (piece : GoString)
    (h : piece ∈ split s sep) : sep ∉ piece := by
  intro hs
  have hf := (splitOnP_pieces _ s piece h sep hs).2
  simp at hf

/-- The bytes of a piece are bytes of the string. -/
theorem mem_of_mem_split (s : GoString) (sep : UInt8) (piece : GoString)
    (h : piece ∈ split s sep) (b : UInt8) (hb : b ∈ piece) : b ∈ s :=
  (splitOnP_pieces _ s piece h b hb).1

end GoString
end SMAgent.Base
