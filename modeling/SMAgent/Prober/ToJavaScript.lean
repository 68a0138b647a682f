import SMAgent.Multihttp.Expansion
import SMAgent.Prober.Variables

/-!
# Texts with variables in JavaScript

`ToJavaScript` of `internal/prober/interpolation` writes a text with variables as a JavaScript
expression. `escapeJavaScript` goes through the text byte by byte and writes a byte that is not
printable ASCII as `\xNN`, which in a JavaScript literal is the code unit NN. A character outside
ASCII has several bytes, so its literal is another string.
-/

namespace SMAgent.Prober
open SMAgent.Base SMAgent.Base.JavaScript SMAgent.Base.Placeholders SMAgent.Multihttp
open GoString (byte)

/-! ### The source -/

/-- One round of the loop of `escapeJavaScript`; the digits are those of `%02x`. -/
def escapeByte (b : UInt8) : GoString :=
  if b = byte '\'' then .lit "\\'"
  else if b = byte '"' then .lit "\\\""
  else if b = byte '\\' then .lit "\\\\"
  else if b = byte '\n' then .lit "\\n"
  else if b = byte '\r' then .lit "\\r"
  else if b = byte '\t' then .lit "\\t"
  else if b < 32 ∨ 126 < b then .lit "\\x" ++ [unitDigit (b.toNat / 16), unitDigit b.toNat]
  else [b]

/-- `escapeJavaScript`, `interpolation.go:229-253`: what is written. -/
def escapeJavaScript (buf : GoString) : GoString := buf.flatMap escapeByte

/-- `VariableRegex.FindAllSubmatchIndex(buf, -1)`: each match with the text before it, and the
text after the last. -/
def variableLocs (value : GoString) : List (GoString × GoString) × GoString :=
  Marks.search variableAt value.length [] value

/-- `ToJavaScript`, `interpolation.go:177-226`. A match has the four indices that the loop asks
for, since the expression has a group. -/
def toJavaScript (value : GoString) : GoString :=
  writeTemplate escapeJavaScript value (variableLocs value)

/-! ### What a literal denotes -/

private theorem escapeByte_spec (b : UInt8) : (∀ c ∈ escapeByte b, c < 0x80) ∧
    literal (byte '\'') .normal (escapeByte b) = some .normal ∧
    decodeRun .normal ((escapeByte b).map UInt8.toNat) = some (.normal, [b.toUInt16]) := by
  have h : ∀ n < 256, (escapeByte n.toUInt8).all (· < 0x80) = true ∧
      literal (byte '\'') .normal (escapeByte n.toUInt8) = some .normal ∧
      decodeRun .normal ((escapeByte n.toUInt8).map UInt8.toNat) =
        some (.normal, [n.toUInt8.toUInt16]) := by
    decide +kernel
  have hb := h b.toNat b.toNat_lt
  rw [show b.toNat.toUInt8 = b from UInt8.ofNat_toNat] at hb
  simpa using hb

/-- The literals of `ToJavaScript` have the bytes of the text as their code units. -/
def byteQuoting : Quoting where
  escape := escapeJavaScript
  denotes t := t.map UInt8.toUInt16
  content := literal_flatMap fun b ↦ (escapeByte_spec b).2.1
  value t := by
    rw [escapeJavaScript, literalValue_flatMap (fun b ↦ (escapeByte_spec b).1)
      fun b ↦ (escapeByte_spec b).2.2, List.map_eq_flatMap]
  denotes_nil := rfl

/-! ### The placeholders -/

private theorem ascii_variableMarks : variableMarks.Ascii where
  mark := by decide
  opening := by decide
  closing := by decide
  letter b h := by
    rcases Bool.or_eq_true_iff.mp h with h | h
    · exact ascii_of_isNameByte h
    · rw [beq_iff_eq.mp h]
      decide

private theorem plainText_of_variable {n : GoString} (hn : variableMarks.IsName n) :
    PlainText n := by
  intro b hb
  refine ⟨ascii_variableMarks.name hn b hb, ?_⟩
  rcases Bool.or_eq_true_iff.mp (hn.2 b hb) with h | h
  · exact isNameByte_plain b h
  · rw [beq_iff_eq.mp h]
    decide

private theorem cut_variableLocs (s : GoString) :
    variableMarks.Cut s (variableLocs s).1 (variableLocs s).2 := by
  rw [variableLocs, funext variableAt_eq]
  exact variableMarks.cut_search s

/-! ### Texts whose literals are right -/

section
variable (E : Engine) (σ : JSString → JSString)

/-- The bindings that the expression of a text uses. -/
def variablesScope (s : GoString) : Env E.Num :=
  [(.lit "vars", .object ((variableMarks.units.names s.utf16).map fun n ↦ (n, .string (σ n))))]

/-- The expression of a text has the text with its placeholders replaced as its value. -/
def Denotes (s : GoString) : Prop :=
  ∃ e, parseExpression (toJavaScript s) = some e ∧
    Yields E (variablesScope E σ s) e (.ok (.string (variableMarks.units.subst σ s.utf16)))

variable {E}

private theorem exists_value (s : GoString) :
    ∃ e, parseExpression (toJavaScript s) = some e ∧
      Yields E (variablesScope E σ s) e (.ok (.string
        ((variableLocs s).1.flatMap (fun p ↦ p.1.map UInt8.toUInt16 ++ σ p.2.utf16) ++
          (variableLocs s).2.map UInt8.toUInt16))) := by
  have hcut := cut_variableLocs s
  apply exists_concat byteQuoting σ hcut rfl
  intro p hp
  rw [ascii_variableMarks.names_utf16 hcut]
  exact ⟨plainText_of_variable (hcut.isName p hp), List.mem_map_of_mem hp⟩

private theorem length_pieces_le (pieces : List (GoString × GoString)) (tail : GoString) :
    (pieces.flatMap (fun p ↦ p.1.utf16 ++ σ p.2.utf16) ++ tail.utf16).length ≤
      (pieces.flatMap (fun p ↦ p.1.map UInt8.toUInt16 ++ σ p.2.utf16) ++
        tail.map UInt8.toUInt16).length := by
  induction pieces with
  | nil =>
    rw [List.flatMap_nil, List.flatMap_nil, List.nil_append, List.nil_append, List.length_map]
    exact GoString.length_utf16_le tail
  | cons p pieces ih =>
    have hp := GoString.length_utf16_le p.1
    simp only [List.flatMap_cons, List.length_append, List.length_map] at ih ⊢
    omega

private theorem pieces_eq_iff {s : GoString} {pieces : List (GoString × GoString)}
    {tail : GoString} (h : variableMarks.Cut s pieces tail) :
    pieces.flatMap (fun p ↦ p.1.map UInt8.toUInt16 ++ σ p.2.utf16) ++ tail.map UInt8.toUInt16 =
        pieces.flatMap (fun p ↦ p.1.utf16 ++ σ p.2.utf16) ++ tail.utf16 ↔
      ∀ b ∈ s, b < 0x80 := by
  induction h with
  | done _ => exact eq_comm.trans (GoString.utf16_eq_map_iff _)
  | @next before name rest tail pieces _ hname _ ih =>
    have hascii : (∀ b ∈ before ++ (variableMarks.wrap name ++ rest), b < 0x80) ↔
        (∀ b ∈ before, b < 0x80) ∧ ∀ b ∈ rest, b < 0x80 := by
      rw [List.forall_mem_append, List.forall_mem_append]
      exact and_congr_right' (and_iff_right (ascii_variableMarks.wrap hname))
    rw [hascii, ← GoString.utf16_eq_map_iff before, ← ih, List.flatMap_cons, List.flatMap_cons]
    simp only [List.append_assoc]
    constructor
    · intro heq
      have hrest := length_pieces_le σ pieces tail
      have hbefore := GoString.length_utf16_le before
      have hlen := congrArg List.length heq
      simp only [List.length_append, List.length_map] at hlen hrest
      have hsplit := List.append_inj heq (by rw [List.length_map]; omega)
      exact ⟨hsplit.1.symm, List.append_cancel_left hsplit.2⟩
    · rintro ⟨hbefore, hrest⟩
      rw [hbefore, hrest]

end

/-- For all strings as values: the expression has the text with its placeholders replaced as its
value exactly if the text is ASCII. -/
theorem toJavaScript_denotes_iff_ascii (E : Engine) (σ : JSString → JSString) (s : GoString) :
    Denotes E σ s ↔ ∀ b ∈ s, b < 0x80 := by
  obtain ⟨e, hparse, hyields⟩ := exists_value (E := E) σ s
  rw [← pieces_eq_iff σ (cut_variableLocs s)]
  rw [Denotes, ascii_variableMarks.subst_utf16 (cut_variableLocs s)]
  constructor
  · rintro ⟨e', hparse', hyields'⟩
    obtain rfl := Option.some.inj (hparse.symm.trans hparse')
    exact Value.string.inj (Except.ok.inj (hyields.unique hyields'))
  · intro h
    exact ⟨e, hparse, h ▸ hyields⟩

/-- The text `é`. -/
def accent : GoString := [0xc3, 0xa9]

/-- The literal of `é` is a string of two code units. -/
theorem toJavaScript_accent :
    GoString.validString accent = true ∧
      toJavaScript accent = .lit "'\\xc3\\xa9'" ∧
      parseExpression (toJavaScript accent) = some (.string (.lit "\\xc3\\xa9")) ∧
      Yields natEngine (variablesScope natEngine id accent) (.string (.lit "\\xc3\\xa9"))
        (.ok (.string [0xc3, 0xa9])) ∧
      variableMarks.units.subst id accent.utf16 = [0xe9] ∧ ¬ Denotes natEngine id accent := by
  have hparse : parseExpression (toJavaScript accent) = some (.string (.lit "\\xc3\\xa9")) := rfl
  have hyields : Yields natEngine (variablesScope natEngine id accent)
      (.string (.lit "\\xc3\\xa9")) (.ok (.string [0xc3, 0xa9])) := .string rfl
  have hsubst : variableMarks.units.subst id accent.utf16 = [0xe9] := by decide
  refine ⟨by decide, by decide, hparse, hyields, hsubst, ?_⟩
  rintro ⟨e, he, hv⟩
  obtain rfl := Option.some.inj (hparse.symm.trans he)
  rw [hsubst] at hv
  have hne : ([0xc3, 0xa9] : JSString) ≠ [0xe9] := by decide
  exact hne (Value.string.inj (Except.ok.inj (hyields.unique hv)))

end SMAgent.Prober
