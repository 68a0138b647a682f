import SMAgent.Base.JavaScript
import SMAgent.Base.Utf16

/-!
# Lexemes and string literals of JavaScript

The reader of `JavaScript` with what it passes over: the lexeme of a string literal has the text
between its quotes. The value of a literal is what its escapes and characters denote, in UTF-16.
-/

namespace SMAgent.Base.JavaScript
open GoString

/-! ### Lexemes -/

/-- A token with its text. -/
inductive Lexeme where
  | word (text : GoString)
  | punctuator (text : GoString)
  /-- a string literal, without its quotes -/
  | string (raw : GoString)
  | template (text : GoString)
  deriving DecidableEq, Repr

/-- The lexeme of a token, where `raw` is what was read of a string literal. -/
def Lexeme.ofToken (raw : GoString) : Token → Lexeme
  | .word text => .word text
  | .punctuator text => .punctuator text
  | .string _ => .string raw
  | .template text => .template text

/-- Inside a string literal. -/
def Mode.isString : Mode → Bool
  | .string _ _ => true
  | _ => false

/-- The reader, and what it has read of the literal it is in. -/
structure Lexer where
  reader : Reader := {}
  raw : GoString := []
  deriving DecidableEq, Repr

/-- One byte. -/
def lexStep (l : Lexer) (b : UInt8) : Lexer × List Lexeme :=
  let r := step l.reader b
  (⟨r.1, if l.reader.mode.isString && r.1.mode.isString then l.raw ++ [b] else []⟩,
    r.2.map (Lexeme.ofToken l.raw))

/-- A text: where the reader is after it, and the lexemes that are over. -/
def lex (l : Lexer) : GoString → Lexer × List Lexeme
  | [] => (l, [])
  | b :: rest => ((lex (lexStep l b).1 rest).1, (lexStep l b).2 ++ (lex (lexStep l b).1 rest).2)

/-- The lexemes of a text; `none` if it cannot be read, or ends inside a literal or a comment. -/
def lexemes (text : GoString) : Option (List Lexeme) :=
  match lex {} text with
  | (⟨⟨.code pending, []⟩, _⟩, ls) => some (ls ++ (flush pending).map (Lexeme.ofToken []))
  | (⟨⟨.slash, []⟩, _⟩, ls) => some (ls ++ [.punctuator (lit "/")])
  | (⟨⟨.lineComment, []⟩, _⟩, ls) => some ls
  | _ => none

/-- A text is cut piece by piece. -/
theorem lex_append (l : Lexer) (a b : GoString) :
    lex l (a ++ b) = ((lex (lex l a).1 b).1, (lex l a).2 ++ (lex (lex l a).1 b).2) := by
  induction a generalizing l with
  | nil => rfl
  | cons c a ih =>
    rw [List.cons_append, lex, ih]
    simp only [lex, List.append_assoc]

/-- The content of a literal is kept until the literal is over. -/
theorem lex_literal {quote : UInt8} {e e' : Escape} {braces : List Nat} {raw s : GoString}
    (h : literal quote e s = some e') :
    lex ⟨⟨.string quote e, braces⟩, raw⟩ s = (⟨⟨.string quote e', braces⟩, raw ++ s⟩, []) := by
  induction s generalizing e raw with
  | nil =>
    cases h
    rw [lex, List.append_nil]
  | cons b s ih =>
    rw [literal] at h
    obtain ⟨e₁, h₁, h₂⟩ := Option.bind_eq_some_iff.mp h
    have hstep : lexStep ⟨⟨.string quote e, braces⟩, raw⟩ b
        = (⟨⟨.string quote e₁, braces⟩, raw ++ [b]⟩, []) := by
      simp only [lexStep, step, h₁, Mode.isString, Bool.and_self, if_true, List.map_nil]
    rw [lex, hstep, ih h₂, List.append_assoc]
    rfl

/-! ### Values of string literals -/

/-- Where the decoder is inside a string literal. -/
inductive Decoding where
  | normal
  /-- after a backslash -/
  | backslash
  /-- after a backslash and a carriage return, which a line feed may complete -/
  | cr
  /-- after a backslash and a zero, which no digit may follow -/
  | zero
  /-- before so many more hexadecimal digits of a code unit -/
  | hex (digits : Nat) (value : Nat)
  /-- after a backslash and `u` -/
  | unicode
  /-- between the braces of a code point -/
  | codePoint (value : Option Nat)
  deriving DecidableEq, Repr

/-- The value of a hexadecimal digit. -/
def runeHexValue (r : Rune) : Option Nat := if r < 0x80 then hexValue r.toUInt8 else none

/-- The letters that stand for control characters after a backslash. -/
def controlEscapes : List (Rune × Rune) :=
  [(Rune.ofChar 'b', 8), (Rune.ofChar 't', 9), (Rune.ofChar 'n', 10), (Rune.ofChar 'v', 11),
    (Rune.ofChar 'f', 12), (Rune.ofChar 'r', 13)]

/-- A rune that is not part of an escape. -/
def plainRune (r : Rune) : Decoding × JSString :=
  if r = Rune.ofChar '\\' then (.backslash, []) else (.normal, r.units)

/-- The rune after a backslash; `none` for a digit that is not allowed there. -/
def escapedRune (r : Rune) : Option (Decoding × JSString) :=
  if r = Rune.ofChar 'x' then some (.hex 2 0, [])
  else if r = Rune.ofChar 'u' then some (.unicode, [])
  else if r = Rune.ofChar '\r' then some (.cr, [])
  else if r = Rune.ofChar '\n' ∨ r = 0x2028 ∨ r = 0x2029 then some (.normal, [])
  else if r = Rune.ofChar '0' then some (.zero, [0])
  else if r.within '1' '9' then none
  else match controlEscapes.lookup r with
    | some c => some (.normal, c.units)
    | none => some (.normal, r.units)

/-- One rune between the quotes: the code units that it completes. -/
def decodeStep (d : Decoding) (r : Rune) : Option (Decoding × JSString) :=
  match d with
  | .normal => some (plainRune r)
  | .backslash => escapedRune r
  | .cr => some (if r = Rune.ofChar '\n' then (.normal, []) else plainRune r)
  | .zero => if r.within '0' '9' then none else some (plainRune r)
  | .hex digits value => (runeHexValue r).map fun v ↦
      if digits ≤ 1 then (.normal, [(value * 16 + v).toUInt16])
      else (.hex (digits - 1) (value * 16 + v), [])
  | .unicode =>
    if r = Rune.ofChar '{' then some (.codePoint none, [])
    else (runeHexValue r).map fun v ↦ (.hex 3 v, [])
  | .codePoint value =>
    if r = Rune.ofChar '}' then value.map fun v ↦ (.normal, Rune.units v)
    else (runeHexValue r).map fun v ↦ (.codePoint (some (value.getD 0 * 16 + v)), [])

/-- The code units of these runes; `none` if they end inside an escape. -/
def decode : Decoding → List Rune → Option JSString
  | .normal, [] | .cr, [] | .zero, [] => some []
  | _, [] => none
  | d, r :: rest => (decodeStep d r).bind fun (d', units) ↦ (decode d' rest).map (units ++ ·)

/-- The value of a string literal with this text between its quotes. -/
def literalValue (raw : GoString) : Option JSString := decode .normal raw.runes

/-- ASCII text without backslashes stands for itself. -/
theorem literalValue_plain {raw : GoString} (h : ∀ b ∈ raw, b < 0x80 ∧ b ≠ byte '\\') :
    literalValue raw = some raw.utf16 := by
  rw [literalValue]
  induction raw with
  | nil => rfl
  | cons b raw ih =>
    have ⟨hb, hne⟩ := h b List.mem_cons_self
    have hrune : b.toNat ≠ Rune.ofChar '\\' := by
      intro heq
      exact hne (UInt8.toNat_inj.mp heq)
    have hunits : Rune.units b.toNat = [b.toUInt16] := by
      have := utf16_cons_ascii hb []
      rw [utf16, runes_cons_ascii hb] at this
      simpa using this
    rw [runes_cons_ascii hb, utf16_cons_ascii hb]
    simp only [decode, decodeStep, plainRune, if_neg hrune, Option.bind_some,
      ih fun b' hb' ↦ h b' (List.mem_cons_of_mem _ hb'), Option.map_some, hunits]
    rfl

/-! ### Escapes one after the other -/

/-- Where the decoder is after these runes, and the code units that they complete. -/
def decodeRun (d : Decoding) : List Rune → Option (Decoding × JSString)
  | [] => some (d, [])
  | r :: rest => (decodeStep d r).bind fun after ↦
      (decodeRun after.1 rest).map fun last ↦ (last.1, after.2 ++ last.2)

private theorem decode_append {d d' : Decoding} {rs : List Rune} {units : JSString}
    (h : decodeRun d rs = some (d', units)) (rest : List Rune) :
    decode d (rs ++ rest) = (decode d' rest).map (units ++ ·) := by
  induction rs generalizing d units with
  | nil =>
    cases h
    exact Option.map_id'.symm
  | cons r rs ih =>
    rw [decodeRun] at h
    obtain ⟨⟨d₁, first⟩, hstep, h⟩ := Option.bind_eq_some_iff.mp h
    obtain ⟨⟨d₂, more⟩, hrun, h⟩ := Option.map_eq_some_iff.mp h
    cases h
    have hrest : decode d₁ (rs ++ rest) = (decode d₂ rest).map (more ++ ·) := ih hrun
    rw [List.cons_append, decode, hstep]
    simp only [Option.bind_some, hrest, Option.map_map, Function.comp_def, List.append_assoc]

section Escapes
variable {f : UInt8 → GoString}

/-- Bytes that are each written safely make a safe content. -/
theorem literal_flatMap {quote : UInt8} (h : ∀ b, literal quote .normal (f b) = some .normal)
    (s : GoString) : literal quote .normal (s.flatMap f) = some .normal := by
  induction s with
  | nil => rfl
  | cons b s ih =>
    rw [List.flatMap_cons, literal_append, h b]
    exact ih

/-- Escapes that are read on their own. -/
theorem literalValue_flatMap {g : UInt8 → JSString} (hascii : ∀ b, ∀ c ∈ f b, c < 0x80)
    (h : ∀ b, decodeRun .normal ((f b).map UInt8.toNat) = some (.normal, g b)) (s : GoString) :
    literalValue (s.flatMap f) = some (s.flatMap g) := by
  rw [literalValue]
  induction s with
  | nil => rfl
  | cons b s ih =>
    have hall : ∀ c ∈ f b ++ s.flatMap f, c < 0x80 := by
      intro c hc
      rcases List.mem_append.mp hc with hc | hc
      · exact hascii b c hc
      · obtain ⟨b', -, hc⟩ := List.mem_flatMap.mp hc
        exact hascii b' c hc
    rw [List.flatMap_cons, runes_of_ascii hall, List.map_append, decode_append (h b),
      ← runes_of_ascii fun c hc ↦ hall c (List.mem_append_right _ hc), ih]
    rfl

end Escapes

/-! ### Any string as a literal -/

/-- A hexadecimal digit. -/
def unitDigit (n : Nat) : UInt8 := (lit "0123456789abcdef").getD (n % 16) 0x30

private theorem unitDigit_spec (n : Nat) :
    unitDigit n < 0x80 ∧ unitDigit n ≠ byte '\x7b' ∧ hexValue (unitDigit n) = some (n % 16) := by
  have h : ∀ m < 16, (lit "0123456789abcdef").getD m 0x30 < 0x80 ∧
      (lit "0123456789abcdef").getD m 0x30 ≠ byte '\x7b' ∧
      hexValue ((lit "0123456789abcdef").getD m 0x30) = some m := by decide
  exact h (n % 16) (Nat.mod_lt n (by decide))

/-- A code unit as an escape. -/
def unitEscape (u : UInt16) : GoString :=
  [byte '\\', byte 'u', unitDigit (u.toNat / 4096), unitDigit (u.toNat / 256),
    unitDigit (u.toNat / 16), unitDigit u.toNat]

/-- Escaped code units make a safe content. -/
theorem literal_unitEscapes {quote : UInt8} (hquote : quote = byte '"' ∨ quote = byte '\'')
    (s : JSString) : literal quote .normal (s.flatMap unitEscape) = some .normal := by
  induction s with
  | nil => rfl
  | cons u s ih =>
    have hopen : literal quote .normal [byte '\\', byte 'u'] = some .unicode := by
      rcases hquote with rfl | rfl <;> rfl
    have hunit : literal quote .normal (unitEscape u) = some .normal := by
      show literal quote .normal ([byte '\\', byte 'u'] ++ _) = _
      rw [literal_append, hopen, Option.bind_some]
      simp [literal, literalStep, (unitDigit_spec _).2.1, (unitDigit_spec _).2.2]
    rw [List.flatMap_cons, literal_append, hunit, Option.bind_some]
    exact ih

/-- The escapes of the code units of a string are a literal for it. -/
theorem literalValue_unitEscapes (s : JSString) :
    literalValue (s.flatMap unitEscape) = some s := by
  rw [literalValue]
  induction s with
  | nil => rfl
  | cons u s ih =>
    have hrunes (n : Nat) (t : GoString) :
        runes (unitDigit n :: t) = (unitDigit n).toNat :: runes t :=
      runes_cons_ascii (unitDigit_spec n).1 t
    have hhex (n : Nat) : runeHexValue (unitDigit n).toNat = some (n % 16) := by
      have hlt : (unitDigit n).toNat < 0x80 := UInt8.lt_iff_toNat_lt.mp (unitDigit_spec n).1
      rw [runeHexValue, if_pos hlt]
      exact (congrArg hexValue (UInt8.ofNat_toNat)).trans (unitDigit_spec n).2.2
    have hbrace (n : Nat) : (unitDigit n).toNat ≠ Rune.ofChar '\x7b' := fun heq ↦
      (unitDigit_spec n).2.1 (UInt8.toNat_inj.mp heq)
    have hopen (t : GoString) : runes (byte '\\' :: byte 'u' :: t) =
        (byte '\\').toNat :: (byte 'u').toNat :: runes t := by
      rw [runes_cons_ascii (by decide), runes_cons_ascii (by decide)]
    have hunit : (((u.toNat / 4096 % 16 * 16 + u.toNat / 256 % 16) * 16 + u.toNat / 16 % 16) * 16 +
        u.toNat % 16).toUInt16 = u := by
      have hlt := u.toNat_lt
      rw [show ((u.toNat / 4096 % 16 * 16 + u.toNat / 256 % 16) * 16 + u.toNat / 16 % 16) * 16 +
        u.toNat % 16 = u.toNat by omega]
      exact UInt16.ofNat_toNat
    -- a backslash, `u` and four digits are one code unit
    have hstart (l : List Rune) : decode .normal ((byte '\\').toNat :: (byte 'u').toNat :: l)
        = decode .unicode l := by
      have h1 : decodeStep .normal (byte '\\').toNat = some (.backslash, []) := by decide
      have h2 : decodeStep .backslash (byte 'u').toNat = some (.unicode, []) := by decide
      simp only [decode, h1, h2, Option.bind_some, List.nil_append, Option.map_id']
    rw [List.flatMap_cons]
    show decode .normal (runes (byte '\\' :: byte 'u' :: _)) = _
    rw [hopen, hstart]
    show decode .unicode (runes (unitDigit _ :: unitDigit _ :: unitDigit _ :: unitDigit _ :: _)) = _
    simp only [hrunes, decode, decodeStep, if_neg (hbrace _), hhex, Option.map_some,
      Option.bind_some, Nat.reduceLeDiff, Nat.reduceSub, Nat.le_refl, if_false, if_true, hunit,
      List.nil_append, Option.map_id']
    exact congrArg (Option.map (u :: ·)) ih

end SMAgent.Base.JavaScript
