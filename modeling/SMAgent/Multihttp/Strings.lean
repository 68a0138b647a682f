import SMAgent.Base.JSRules
import SMAgent.Base.UnitMarks
import SMAgent.Multihttp.Confinement

/-!
# Texts of the settings as JavaScript strings

The builders write texts of the settings into string literals. `userVariables`, `script.go:20`,
finds placeholders in the bytes of a text; the script handles the text as a JavaScript string.
The placeholders are ASCII, so they are the same on both sides.
-/

namespace SMAgent.Multihttp
open SMAgent.Base SMAgent.Base.JavaScript SMAgent.Base.Placeholders
open GoString (byte)

/-! ### Escapes -/

/-- An escape with which every text has itself as the value of the literal. -/
structure CorrectEscape extends JSEscape where
  value : ∀ s, literalValue (escape s) = some s.utf16

/-- The escape that writes every code unit in hexadecimal. -/
def CorrectEscape.units : CorrectEscape where
  escape s := s.utf16.flatMap unitEscape
  content s _ hquote := literal_unitEscapes hquote s.utf16
  value s := literalValue_unitEscapes s.utf16

/-! ### Placeholders -/

private theorem dollar_ne_brace : byte '$' ≠ byte '{' ∧
    byte '$' ≠ byte '}' := by decide

/-- The placeholders of `userVariables` in bytes. -/
def byteMarks : Marks UInt8 where
  mark := byte '$'
  opening := byte '{'
  closing := byte '}'
  isStart := isNameStart
  isLetter := isNameByte
  isLetter_of_isStart b h := by rw [isNameByte, h]; rfl
  isLetter_mark := by decide
  isLetter_closing := by decide
  mark_ne_opening := dollar_ne_brace.1
  mark_ne_closing := dollar_ne_brace.2

/-- The placeholders of `userVariables` in code units. -/
abbrev unitMarks : Marks UInt16 := byteMarks.units

/-- The bytes of names are ASCII. -/
theorem ascii_of_isNameByte {b : UInt8} (h : isNameByte b = true) : b < 0x80 := by
  simp only [isNameByte, isNameStart, Bool.or_eq_true, Bool.and_eq_true, decide_eq_true_eq,
    beq_iff_eq, UInt8.le_iff_toNat_le] at h
  rw [UInt8.lt_iff_toNat_lt]
  rcases h with ((⟨-, h⟩ | ⟨-, h⟩) | rfl) | ⟨-, h⟩
  · exact Nat.lt_of_le_of_lt h (by decide)
  · exact Nat.lt_of_le_of_lt h (by decide)
  · decide
  · exact Nat.lt_of_le_of_lt h (by decide)

/-- The marks of a placeholder are ASCII. -/
theorem ascii_byteMarks : byteMarks.Ascii where
  mark := by decide
  opening := by decide
  closing := by decide
  letter _ h := ascii_of_isNameByte h

/-! ### The matches -/

private theorem matchVariable_eq (s : GoString) : matchVariable s = byteMarks.matchAt s := by
  match s with
  | [] | [_] => rfl
  | a :: b :: rest =>
    have hletter : isNameByte = byteMarks.isLetter := rfl
    simp only [matchVariable, Marks.matchAt, hletter]
    cases rest.takeWhile byteMarks.isLetter with
    | nil => rfl
    | cons first name =>
      cases rest.dropWhile byteMarks.isLetter with
      | nil => rfl
      | cons close after => rfl

private theorem findVariables_eq (fuel : Nat) (before s : GoString) :
    findVariables fuel before s = Marks.search byteMarks.matchAt fuel before s := by
  induction fuel generalizing before s with
  | zero => rfl
  | succ fuel ih =>
    rw [findVariables.eq_def, Marks.search.eq_def]
    simp only [matchVariable_eq]
    cases byteMarks.matchAt s with
    | some found => simp only [ih]
    | none =>
      cases s with
      | nil => rfl
      | cons b s => exact ih _ _

/-- `userVariables` cuts the text at its placeholders. -/
theorem cut_userVariables (s : GoString) :
    byteMarks.Cut s (userVariables s).1 (userVariables s).2 := by
  rw [userVariables, findVariables_eq]
  exact byteMarks.cut_search s

/-! ### Variables in the script -/

/-- ASCII text that stands for itself between single quotes. -/
def PlainText (n : GoString) : Prop :=
  ∀ b ∈ n, b < 0x80 ∧ b ≠ byte '\'' ∧ b ≠ byte '\n' ∧ b ≠ byte '\r' ∧
    b ≠ byte '\\'

/-- Names need no escapes. -/
theorem plainText_of_isName {n : GoString} (hn : byteMarks.IsName n) : PlainText n :=
  fun b hb ↦ ⟨ascii_of_isNameByte (hn.2 b hb), isNameByte_plain b (hn.2 b hb)⟩

/-- The object `vars` of the script, with the variables that a text names. -/
def varsObject {Num : Type} (σ : JSString → Value Num) (s : GoString) : Value Num :=
  .object ((unitMarks.names s.utf16).map fun n ↦ (n, σ n))

private theorem lookup_graph {Num : Type} (σ : JSString → Value Num) {l : List JSString}
    {n : JSString} (h : n ∈ l) : (l.map fun n ↦ (n, σ n)).lookup n = some (σ n) := by
  induction l with
  | nil => exact absurd h List.not_mem_nil
  | cons k l ih =>
    rw [List.map_cons, List.lookup_cons]
    by_cases hk : n = k
    · rw [hk, beq_self_eq_true]
    · rw [beq_false_of_ne hk]
      exact ih ((List.mem_cons.mp h).resolve_left hk)

/-- The text with which the script reads a variable. -/
def readVariable (n : GoString) : GoString := .lit "vars['" ++ n ++ .lit "']"

/-- The tokens of `readVariable`. -/
def variableToks (n : GoString) : List Tok :=
  [.name "vars", .key .leftBracket, .string n, .key .rightBracket]

/-- The expression of `readVariable`. -/
def variableExpr (n : GoString) : Expr := .index (.var "vars") (.string n)

/-- The tokens that read a variable. -/
theorem scan_readVariable (ts : List Tok) {p n : GoString} (hn : PlainText n)
    (hp : scan p (.lit "vars[") = some (ts ++ [.name "vars", .key .leftBracket], [])) :
    scan p (readVariable n) = some (ts ++ variableToks n, []) := by
  have hname := scan_literal (.inr rfl) (literal_of_forall fun b hb ↦ (hn b hb).2)
  have hclose : scan [] (.lit "]") = some ([.key .rightBracket], []) := by decide
  have htext : readVariable n =
      .lit "vars[" ++ (byte '\'' :: (n ++ [byte '\''])) ++ .lit "]" := by
    simp only [readVariable, List.append_assoc, List.cons_append]
    rfl
  rw [htext, scan_append (scan_append hp hname) hclose, List.append_assoc, List.append_assoc]
  rfl

/-- The value of a variable. -/
theorem yields_variableExpr {E : Engine} {env : Env E.Num} {σ : JSString → Value E.Num}
    {names : List JSString} {n : GoString}
    (henv : env.lookup (.lit "vars") = some (.object (names.map fun n ↦ (n, σ n))))
    (hn : PlainText n) (hmem : n.utf16 ∈ names) :
    Yields E env (variableExpr n) (.ok (σ n.utf16)) := by
  have hvalue : literalValue n = some n.utf16 :=
    literalValue_plain fun b hb ↦ ⟨(hn b hb).1, (hn b hb).2.2.2.2⟩
  have h := Yields.index (Yields.ident henv) (Yields.string hvalue)
  have hget : getIndex E (.object (names.map fun n ↦ (n, σ n))) (.string n.utf16) =
      .ok (σ n.utf16) := by
    rw [getIndex, lookup_graph σ hmem]
    rfl
  rwa [hget] at h

end SMAgent.Multihttp
