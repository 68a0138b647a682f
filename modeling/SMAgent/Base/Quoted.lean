import SMAgent.Base.Runes

/-!
# Interpreted string literals

Go's double-quoted strings as a reader sees them: valid UTF-8 on one line, where a backslash
starts an escape. An escape is longer than what it stands for, so a text between quotes is as
long as its value only if it has no escape, and then it is its value.
-/

namespace SMAgent.Base.Quoted
open GoString

/-- `utf8.EncodeRune`. -/
def encodeRune (r : Rune) : GoString :=
  if r < 0x80 then [UInt8.ofNat r]
  else if r < 0x800 then [UInt8.ofNat (0xc0 + r / 64), UInt8.ofNat (0x80 + r % 64)]
  else if r < 0x10000 then
    [UInt8.ofNat (0xe0 + r / 4096), UInt8.ofNat (0x80 + r / 64 % 64), UInt8.ofNat (0x80 + r % 64)]
  else
    [UInt8.ofNat (0xf0 + r / 262144), UInt8.ofNat (0x80 + r / 4096 % 64),
      UInt8.ofNat (0x80 + r / 64 % 64), UInt8.ofNat (0x80 + r % 64)]

/-- `utf8.ValidRune`: a code point that is not half of a surrogate pair. -/
def validRune (r : Rune) : Bool := decide (r < 0xd800 ∨ (0xdfff < r ∧ r ≤ 0x10ffff))

/-- The value of a digit in a base up to sixteen. -/
def digit (base : Nat) (b : UInt8) : Option Nat :=
  let value :=
    if byte '0' ≤ b ∧ b ≤ byte '9' then some (b.toNat - 48)
    else if byte 'a' ≤ b ∧ b ≤ byte 'f' then some (b.toNat - 87)
    else if byte 'A' ≤ b ∧ b ≤ byte 'F' then some (b.toNat - 55)
    else none
  value.filter (· < base)

/-- A number of so many digits, and what follows it. -/
def readNumber (base : Nat) : Nat → Nat → GoString → Option (Nat × GoString)
  | 0, acc, s => some (acc, s)
  | _ + 1, _, [] => none
  | n + 1, acc, b :: rest => (digit base b).bind fun d ↦ readNumber base n (acc * base + d) rest

/-- The escapes of one letter. -/
def simpleEscapes : List (Char × UInt8) :=
  [('a', 7), ('b', 8), ('f', 12), ('n', 10), ('r', 13), ('t', 9), ('v', 11), ('\\', 92), ('"', 34)]

/-- What the escape after a backslash stands for, and what follows it. -/
def unescape : GoString → Option (GoString × GoString)
  | [] => none
  | c :: rest =>
    match simpleEscapes.find? fun e ↦ byte e.1 == c with
    | some e => some ([e.2], rest)
    | none =>
      if c = byte 'x' then (readNumber 16 2 0 rest).map fun r ↦ ([UInt8.ofNat r.1], r.2)
      else if c = byte 'u' then point (readNumber 16 4 0 rest)
      else if c = byte 'U' then point (readNumber 16 8 0 rest)
      else (readNumber 8 3 0 (c :: rest)).bind fun r ↦
        if r.1 < 256 then some ([UInt8.ofNat r.1], r.2) else none
where
  /-- The encoding of a code point. -/
  point (r : Option (Nat × GoString)) : Option (GoString × GoString) :=
    r.bind fun r ↦ if validRune r.1 then some (encodeRune r.1, r.2) else none

/-- The value of the text up to the closing quote, and what follows the quote. -/
def readString : Nat → GoString → Option (GoString × GoString)
  | 0, _ => none
  | _, [] => none
  | fuel + 1, b :: rest =>
    if b = byte '"' then some ([], rest)
    else if b = byte '\n' then none
    else
      (if b = byte '\\' then unescape rest else splitRune (b :: rest)).bind fun part ↦
        (readString fuel part.2).map fun r ↦ (part.1 ++ r.1, r.2)

/-- The text stands for itself between quotes. -/
def Plain (s : GoString) : Prop :=
  validString s = true ∧ ∀ b ∈ s, b ≠ byte '"' ∧ b ≠ byte '\\' ∧ b ≠ byte '\n'

instance (s : GoString) : Decidable (Plain s) :=
  inferInstanceAs (Decidable (_ ∧ ∀ b ∈ s, _))

/-! ### Escapes are longer than their values -/

private theorem length_encodeRune (r : Rune) : (encodeRune r).length ≤ 4 := by
  unfold encodeRune
  split_ifs
  all_goals simp

private theorem length_readNumber {base n acc v : Nat} {s rest : GoString}
    (h : readNumber base n acc s = some (v, rest)) : s.length = n + rest.length := by
  induction n generalizing acc s with
  | zero =>
    cases h
    exact (Nat.zero_add _).symm
  | succ n ih =>
    cases s with
    | nil => cases h
    | cons b s =>
      rw [readNumber] at h
      obtain ⟨d, -, hd⟩ := Option.bind_eq_some_iff.mp h
      rw [List.length_cons, ih hd]
      omega

private theorem length_point {n : Nat} {s bytes rest : GoString} (hn : 4 ≤ n)
    (h : unescape.point (readNumber 16 n 0 s) = some (bytes, rest)) :
    bytes.length + rest.length ≤ s.length := by
  obtain ⟨⟨r, tail⟩, hr, hif⟩ := Option.bind_eq_some_iff.mp h
  dsimp only at hif
  split at hif
  · cases hif
    have hlen := length_readNumber hr
    have henc := length_encodeRune r
    omega
  · cases hif

private theorem length_unescape {s bytes rest : GoString} (h : unescape s = some (bytes, rest)) :
    bytes.length + rest.length ≤ s.length := by
  cases s with
  | nil => cases h
  | cons c tail =>
    rw [unescape] at h
    split at h
    · cases h
      rw [List.length_cons, List.length_cons, List.length_nil]
      omega
    · split_ifs at h
      · obtain ⟨⟨r, rest'⟩, hr, heq⟩ := Option.map_eq_some_iff.mp h
        cases heq
        have hlen := length_readNumber hr
        simp only [List.length_cons, List.length_nil]
        omega
      · have hlen := length_point (by decide) h
        rw [List.length_cons]
        omega
      · have hlen := length_point (by decide) h
        rw [List.length_cons]
        omega
      · obtain ⟨⟨r, rest'⟩, hr, hif⟩ := Option.bind_eq_some_iff.mp h
        dsimp only at hif
        split at hif
        · cases hif
          have hlen := length_readNumber hr
          rw [List.length_cons, List.length_nil]
          omega
        · cases hif

/-! ### Reading -/

private theorem plain_nil : Plain [] := ⟨rfl, nofun⟩

private theorem plain_append {s bytes rest : GoString} (h : splitRune s = some (bytes, rest))
    (hs : ∀ b ∈ s.head?, b ≠ byte '"' ∧ b ≠ byte '\\' ∧ b ≠ byte '\n') (hrest : Plain rest) :
    Plain s := by
  refine ⟨by rw [validString_of_splitRune h]; exact hrest.1, ?_⟩
  obtain ⟨rfl, hbytes⟩ := splitRune_eq_some h
  intro b hb
  rcases List.mem_append.mp hb with hb | hb
  · rcases hbytes with ⟨c, -, rfl⟩ | ⟨-, hhigh⟩
    · rw [List.mem_singleton.mp hb]
      exact hs c rfl
    · refine ⟨?_, ?_, ?_⟩
      all_goals
        rintro rfl
        exact hhigh _ hb (by decide)
  · exact hrest.2 b hb

private theorem readString_cons {fuel : Nat} {b : UInt8} {rest : GoString}
    (hq : b ≠ byte '"') (hn : b ≠ byte '\n') :
    readString (fuel + 1) (b :: rest) =
      (if b = byte '\\' then unescape rest else splitRune (b :: rest)).bind fun part ↦
        (readString fuel part.2).map fun r ↦ (part.1 ++ r.1, r.2) := by
  rw [readString, if_neg hq, if_neg hn]

/-- A text is at least as long as its value and the closing quote, and longer unless it is
plain. -/
theorem length_readString {fuel : Nat} {s value rest : GoString}
    (h : readString fuel s = some (value, rest)) :
    value.length + 1 + rest.length ≤ s.length ∧
      (s.length = value.length + 1 + rest.length → Plain value) := by
  induction fuel generalizing s value with
  | zero => cases h
  | succ fuel ih =>
    cases s with
    | nil => cases h
    | cons b tail =>
      by_cases hq : b = byte '"'
      · rw [readString, if_pos hq] at h
        cases h
        rw [List.length_nil, List.length_cons]
        exact ⟨by omega, fun _ ↦ plain_nil⟩
      · by_cases hn : b = byte '\n'
        · rw [readString, if_neg hq, if_pos hn] at h
          cases h
        · rw [readString_cons hq hn] at h
          obtain ⟨⟨bytes, tail'⟩, hpart, hmap⟩ := Option.bind_eq_some_iff.mp h
          obtain ⟨⟨value', rest'⟩, hread, heq⟩ := Option.map_eq_some_iff.mp hmap
          cases heq
          obtain ⟨hle, hplain⟩ := ih hread
          simp only [List.length_append, List.length_cons] at hle hplain ⊢
          split at hpart
          · have hlen := length_unescape hpart
            exact ⟨by omega, fun heq ↦ by omega⟩
          · next hb =>
            obtain ⟨hlen, -⟩ := length_of_splitRune hpart
            rw [List.length_cons] at hlen
            refine ⟨by omega, fun heq ↦ ?_⟩
            refine plain_append (splitRune_append hpart value') ?_ (hplain (by omega))
            obtain ⟨hsplit, hbytes⟩ := splitRune_eq_some hpart
            have hhead : (bytes ++ value').head? = some b := by
              rcases hbytes with ⟨c, -, rfl⟩ | ⟨hne, -⟩
              · exact congrArg some (List.cons.inj hsplit).1.symm
              · obtain ⟨c, cs, rfl⟩ := List.exists_cons_of_ne_nil hne
                exact congrArg some (List.cons.inj hsplit).1.symm
            rw [hhead]
            rintro c ⟨⟩
            exact ⟨hq, hb, hn⟩

/-- A plain text is read back as it is. -/
theorem readString_plain {fuel : Nat} {value : GoString} (h : Plain value)
    (hfuel : value.length < fuel) (rest : GoString) :
    readString fuel (value ++ byte '"' :: rest) = some (value, rest) := by
  induction fuel generalizing value with
  | zero => exact absurd hfuel (Nat.not_lt_zero _)
  | succ fuel ih =>
    cases value with
    | nil => rw [List.nil_append, readString, if_pos rfl]
    | cons b tail =>
      obtain ⟨bytes, tail', hsplit⟩ := exists_splitRune h.1 nofun
      obtain ⟨heq, hbytes⟩ := splitRune_eq_some hsplit
      obtain ⟨hq, hb, hn⟩ := h.2 b List.mem_cons_self
      have htail : Plain tail' := by
        refine ⟨by rw [← validString_of_splitRune hsplit]; exact h.1, fun c hc ↦ h.2 c ?_⟩
        rw [heq]
        exact List.mem_append_right _ hc
      have hlen := (length_of_splitRune hsplit).2
      have hread := ih htail (by omega)
      have hpart : splitRune (b :: (tail ++ byte '"' :: rest)) =
          some (bytes, tail' ++ byte '"' :: rest) := by
        rw [← List.cons_append, heq, List.append_assoc]
        exact splitRune_append hsplit _
      rw [List.cons_append, readString_cons hq hn, if_neg hb, hpart, Option.bind_some, hread,
        Option.map_some, heq]

end SMAgent.Base.Quoted
