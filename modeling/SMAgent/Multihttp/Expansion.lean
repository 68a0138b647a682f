import SMAgent.Multihttp.Template

/-!
# Variables in URLs, headers and query fields

`performVariableExpansion`, `script.go:22-71`, writes a sum of string literals and variables.
The sum is the text with the values in the place of the placeholders, as long as the first of its
operands that JavaScript concatenates comes early enough: values before the first string are
added as numbers if there are several of them, which takes a text that begins with two
placeholders.
-/

namespace SMAgent.Multihttp
open SMAgent.Base SMAgent.Base.JavaScript SMAgent.Base.Placeholders

section
variable (E : Engine) (js : CorrectEscape) (σ : JSString → Scalar E.Num)

/-- The bindings that the expression of a text uses. -/
def expansionScope (s : GoString) : Env E.Num :=
  [(.lit "vars", varsObject (fun n ↦ (σ n).value) s)]

/-- The expression of a text has the text with its placeholders replaced as its value. -/
def Expands (s : GoString) : Prop :=
  ∃ e v, parseExpression (text (performVariableExpansion js.toJSEscape s)) = some e ∧
    Yields E (expansionScope E σ s) e (.ok v) ∧
    toText E v = .ok (unitMarks.subst (fun n ↦ (σ n).text E) s.utf16)

/-! ### The text of the sum -/

/-- The literals of the script. -/
def CorrectEscape.quoting : Quoting where
  escape := js.escape
  denotes := GoString.utf16
  content s := js.content s _ (.inr rfl)
  value := js.value
  denotes_nil := rfl

variable {E}

private theorem text_plus (acc : List Piece) : text (plus acc) = plusText (text acc) := by
  rw [plus, plusText]
  split <;> rfl

private theorem text_quoted (t : GoString) :
    text (quoted js.toJSEscape t) = quotedText js.escape t := by
  simp only [quoted, text, List.flatMap_cons, List.flatMap_nil, List.append_nil]
  rfl

private theorem text_expandVariable (acc : List Piece) (loc : GoString × GoString) :
    text (expandVariable js.toJSEscape acc loc) = writeVariable js.escape (text acc) loc := by
  have hvariable : text [source "vars['", .data loc.2, source "']"] = readVariable loc.2 := by
    simp only [text, List.flatMap_cons, List.flatMap_nil, List.append_nil, readVariable,
      List.append_assoc]
    rfl
  rw [expandVariable, writeVariable, text_append, text_append, text_append, text_plus, hvariable]
  congr 2
  split
  · rw [text_append, text_quoted]
    rfl
  · rfl

private theorem text_foldl (acc : List Piece) (locs : List (GoString × GoString)) :
    text (locs.foldl (expandVariable js.toJSEscape) acc) =
      locs.foldl (writeVariable js.escape) (text acc) := by
  induction locs generalizing acc with
  | nil => rfl
  | cons loc locs ih => rw [List.foldl_cons, List.foldl_cons, ih, text_expandVariable]

private theorem text_performVariableExpansion (s : GoString) :
    text (performVariableExpansion js.toJSEscape s) =
      writeTemplate js.quoting.escape s (userVariables s) := by
  have hfold := text_foldl js [] (userVariables s).1
  unfold performVariableExpansion writeTemplate
  split
  · rfl
  · show text (if (userVariables s).2.length > 0 then _ else _) = if _ then _ else _
    split
    · rw [text_append, text_append, text_plus, text_quoted, hfold]
      rfl
    · exact hfold

/-- The operands of the expression of a text. -/
def expansionOperands (s : GoString) : List (Operand E.Num) :=
  templateOperands E js.quoting σ s (userVariables s)

/-! ### The values of the sum -/

/-- What an operand of a part would be: letters are strings. -/
def partValue (σ : JSString → Scalar E.Num) : Placeholders.Part UInt16 → Scalar E.Num
  | .letter u => .string [u]
  | .name n => σ n

/-- The values of the placeholders that the text begins with, up to the first that is a string;
they are added as numbers. -/
def leadingNumbers (σ : JSString → Scalar E.Num) (s : GoString) : List (Scalar E.Num) :=
  ((unitMarks.parts s.utf16).map (partValue σ)).takeWhile fun v ↦ (v.numeric E).isSome

private theorem concat_expansionOperands (s : GoString) :
    Scalar.concat E ((expansionOperands js σ s).map Operand.value) =
      unitMarks.subst (fun n ↦ (σ n).text E) s.utf16 := by
  rw [expansionOperands, concat_templateOperands js.quoting σ (cut_userVariables s),
    ascii_byteMarks.subst_utf16 (cut_userVariables s)]
  rfl

private theorem takeWhile_optionalText (t : GoString) (vs ws : List (Scalar E.Num))
    (h : vs.takeWhile (fun v ↦ (v.numeric E).isSome) = ws.takeWhile fun v ↦ (v.numeric E).isSome) :
    ((optionalText E js.quoting t).map Operand.value ++ vs).takeWhile
        (fun v ↦ (v.numeric E).isSome) =
      ((t.utf16.map Part.letter).map (partValue σ) ++ ws).takeWhile
        fun v ↦ (v.numeric E).isSome := by
  unfold optionalText
  split
  · next ht =>
    cases hunits : t.utf16 with
    | nil =>
      rw [GoString.utf16_eq_nil hunits] at ht
      cases ht
    | cons u units => rfl
  · next ht =>
    rw [List.eq_nil_of_length_eq_zero (Nat.eq_zero_of_not_pos ht)]
    exact h

private theorem takeWhile_expansionOperands (s : GoString) :
    ((expansionOperands js σ s).map Operand.value).takeWhile (fun v ↦ (v.numeric E).isSome) =
      leadingNumbers σ s := by
  unfold expansionOperands templateOperands leadingNumbers
  split
  · next hs =>
    rw [List.eq_nil_of_length_eq_zero hs]
    rfl
  · rw [ascii_byteMarks.parts_utf16 (cut_userVariables s)]
    induction (userVariables s).1 with
    | nil =>
      have h := takeWhile_optionalText js σ (userVariables s).2 [] [] rfl
      rw [List.append_nil, List.append_nil] at h
      exact h
    | cons p pieces ih =>
      rw [List.flatMap_cons, List.flatMap_cons, pieceOperands]
      simp only [List.map_append, List.append_assoc] at ih ⊢
      apply takeWhile_optionalText
      -- the name itself: both go on after a number, and both stop at a string
      simp only [List.map_cons, List.map_nil, List.cons_append, List.nil_append,
        List.takeWhile_cons, ih]
      rfl

/-- The value of the expression is the sum of the values of its operands. -/
theorem expands_iff (s : GoString) :
    Expands E js σ s ↔
      Scalar.sumText E (leadingNumbers σ s) = Scalar.concat E (leadingNumbers σ s) := by
  rw [← takeWhile_expansionOperands js, ← Scalar.sumText_eq_concat_iff, concat_expansionOperands,
    Expands, text_performVariableExpansion]
  have hcut := cut_userVariables s
  have hlocs : ∀ p ∈ (userVariables s).1,
      PlainText p.2 ∧ p.2.utf16 ∈ unitMarks.names s.utf16 := by
    intro p hp
    rw [ascii_byteMarks.names_utf16 hcut]
    exact ⟨plainText_of_isName (hcut.isName p hp), List.mem_map_of_mem hp⟩
  have henv : (expansionScope E σ s).lookup (.lit "vars") =
      some (.object ((unitMarks.names s.utf16).map fun n ↦ (n, (σ n).value))) := rfl
  obtain ⟨e, o, os, hos, hparse, hyields⟩ := exists_sum js.quoting σ hcut henv hlocs
  rw [expansionOperands, hos]
  constructor
  · rintro ⟨e', v, he, hv, htext⟩
    obtain rfl := Option.some.inj (hparse.symm.trans he)
    obtain rfl := Except.ok.inj (hyields.unique hv)
    rw [Scalar.toText_value] at htext
    exact Except.ok.inj htext
  · intro h
    refine ⟨e, _, hparse, hyields, ?_⟩
    rw [Scalar.toText_value]
    exact congrArg Except.ok h

variable {js σ}

/-! ### Texts that begin with two placeholders -/

/-- Two placeholders at the start with nothing between them. -/
def BeginsWithTwo (s : GoString) : Prop :=
  ∃ a b t, byteMarks.IsName a ∧ byteMarks.IsName b ∧
    s = byteMarks.wrap a ++ (byteMarks.wrap b ++ t)

private theorem exists_of_parts_name {s : GoString} {n : JSString}
    {ps : List (Placeholders.Part UInt16)} (h : unitMarks.parts s.utf16 = .name n :: ps) :
    ∃ k t, byteMarks.IsName k ∧ s = byteMarks.wrap k ++ t ∧
      unitMarks.parts (GoString.utf16 t) = ps := by
  have hcut := cut_userVariables s
  generalize (userVariables s).1 = pieces, (userVariables s).2 = tail at hcut
  cases hcut with
  | done hletters =>
    rw [ascii_byteMarks.parts_utf16_letters hletters] at h
    obtain ⟨u, _, _, hu, _⟩ := List.map_eq_cons_iff.mp h
    cases hu
  | @next before k rest tail pieces hletters hname hrest =>
    rw [ascii_byteMarks.utf16_append_wrap _ hname,
      unitMarks.parts_append_wrap _ (ascii_byteMarks.isName_utf16 hname),
      ascii_byteMarks.parts_utf16_letters hletters] at h
    cases hbefore : GoString.utf16 before with
    | nil =>
      rw [hbefore] at h
      rw [GoString.utf16_eq_nil hbefore]
      exact ⟨k, rest, hname, rfl, (List.cons.inj h).2⟩
    | cons u units =>
      rw [hbefore] at h
      cases (List.cons.inj h).1

private theorem exists_name_of_numeric {p : Placeholders.Part UInt16}
    (hp : ((partValue σ p).numeric E).isSome) : ∃ n, p = .name n := by
  cases p with
  | letter u => cases hp
  | name n => exact ⟨n, rfl⟩

private theorem numeric_of_mem_leadingNumbers {s : GoString} {v : Scalar E.Num}
    (hv : v ∈ leadingNumbers σ s) : (v.numeric E).isSome :=
  List.mem_takeWhile_imp (p := fun v : Scalar E.Num ↦ (v.numeric E).isSome) hv

private theorem beginsWithTwo_of_two_le {s : GoString} (h : 2 ≤ (leadingNumbers σ s).length) :
    BeginsWithTwo s := by
  obtain ⟨v, w, rest, hleading⟩ : ∃ v w rest, leadingNumbers σ s = v :: w :: rest := by
    match hl : leadingNumbers σ s with
    | [] | [_] =>
      rw [hl] at h
      simp at h
    | v :: w :: rest => exact ⟨v, w, rest, rfl⟩
  have hnumeric : ∀ u ∈ leadingNumbers σ s, (u.numeric E).isSome :=
    fun u hu ↦ numeric_of_mem_leadingNumbers hu
  have hle : leadingNumbers σ s <+: (unitMarks.parts s.utf16).map (partValue σ) :=
    List.takeWhile_prefix _
  rw [hleading] at hnumeric hle
  obtain ⟨after, hparts⟩ := hle
  obtain ⟨p, ps, hp, rfl, hps⟩ := List.map_eq_cons_iff.mp hparts.symm
  obtain ⟨q, qs, rfl, rfl, -⟩ := List.map_eq_cons_iff.mp hps
  obtain ⟨a, rfl⟩ := exists_name_of_numeric (hnumeric (partValue σ p) (by simp))
  obtain ⟨b, rfl⟩ := exists_name_of_numeric (hnumeric (partValue σ q) (by simp))
  obtain ⟨k, t, hk, rfl, ht⟩ := exists_of_parts_name hp
  obtain ⟨l, t, hl, rfl, -⟩ := exists_of_parts_name ht
  exact ⟨k, l, t, hk, hl, rfl⟩

private theorem sumText_zeros_ne {zs : List (Scalar E.Num)}
    (hzs : ∀ v ∈ zs, v = .number (E.ofNat 0)) (hlen : 2 ≤ zs.length) :
    Scalar.sumText E zs ≠ Scalar.concat E zs := by
  have htext : Scalar.text E (.number (E.ofNat 0)) = GoString.utf16 (.lit "0") := E.text_zero
  have hadd : Scalar.add E (.number (E.ofNat 0)) (.number (E.ofNat 0)) = .number (E.ofNat 0) :=
    congrArg Scalar.number E.add_zero
  rw [List.eq_replicate_of_mem hzs]
  obtain ⟨k, hk⟩ := Nat.exists_eq_add_of_le hlen
  have hsum (n : Nat) : (List.replicate n (.number (E.ofNat 0))).foldl (Scalar.add E)
      (.number (E.ofNat 0)) = .number (E.ofNat 0) := by
    induction n with
    | zero => rfl
    | succ n ih => rw [List.replicate_succ, List.foldl_cons, hadd, ih]
  rw [hk, Nat.add_comm, List.replicate_succ, Scalar.sumText, hsum, htext, List.replicate_succ]
  intro heq
  have := congrArg List.length heq
  simp only [Scalar.concat, List.flatMap_cons, List.length_append, htext] at this
  rw [show (GoString.utf16 (.lit "0")).length = 1 from rfl] at this
  omega

private theorem sumText_leadingNumbers_ne {s : GoString} (h : BeginsWithTwo s) :
    Scalar.sumText E (leadingNumbers (fun _ ↦ .number (E.ofNat 0)) s) ≠
      Scalar.concat E (leadingNumbers (fun _ ↦ .number (E.ofNat 0)) s) := by
  obtain ⟨a, b, t, ha, hb, rfl⟩ := h
  apply sumText_zeros_ne
  · intro v hv
    have hnumeric := numeric_of_mem_leadingNumbers hv
    obtain ⟨p, -, rfl⟩ := List.mem_map.mp ((List.takeWhile_prefix _).mem hv)
    obtain ⟨n, rfl⟩ := exists_name_of_numeric hnumeric
    rfl
  · rw [leadingNumbers, ascii_byteMarks.utf16_wrap_append ha, ascii_byteMarks.utf16_wrap_append hb,
      unitMarks.parts_wrap (ascii_byteMarks.isName_utf16 ha),
      unitMarks.parts_wrap (ascii_byteMarks.isName_utf16 hb)]
    exact Nat.le_add_left 2 _

end

/-- The expression of a text is right for given values exactly if adding the leading ones as
numbers gives their texts one after the other, and for all values exactly if the text does not
begin with two placeholders. -/
theorem expands_iff_not_beginsWithTwo (E : Engine) (js : CorrectEscape) (s : GoString) :
    (∀ σ, Expands E js σ s ↔
      Scalar.sumText E (leadingNumbers σ s) = Scalar.concat E (leadingNumbers σ s)) ∧
    ((∀ σ, Expands E js σ s) ↔ ¬ BeginsWithTwo s) := by
  refine ⟨fun σ ↦ expands_iff js σ s, fun h htwo ↦ ?_, fun h σ ↦ ?_⟩
  · exact sumText_leadingNumbers_ne htwo ((expands_iff js _ s).mp (h _))
  · rw [expands_iff]
    match hl : leadingNumbers σ s with
    | [] => rfl
    | [v] => exact (List.append_nil _).symm
    | v :: w :: rest =>
      exfalso
      apply h
      apply beginsWithTwo_of_two_le (σ := σ)
      rw [hl]
      exact Nat.le_add_left 2 _

/-- Two numbers, one after the other. -/
def adjacentText : GoString := .lit "$\x7ba\x7d$\x7bb\x7d"

/-- The numbers 1 and 2. -/
def oneAndTwo (n : JSString) : Scalar Nat :=
  .number (if n = GoString.utf16 (.lit "a") then 1 else 2)

/-- An engine with natural numbers and no functions of a host. -/
def natEngine : Engine where
  toNumbers := .nat
  lower s := s
  native _ _ := .error .unsupported

/-- The values 1 and 2 of two adjacent placeholders become 3. -/
theorem expansion_adds_numbers :
    ∃ e, parseExpression (text (performVariableExpansion CorrectEscape.units.toJSEscape
        adjacentText)) = some e ∧
      Yields natEngine (expansionScope natEngine oneAndTwo adjacentText) e
        (.ok (.number (3 : Nat))) ∧
      toText natEngine (.number (3 : Nat)) = .ok (GoString.utf16 (.lit "3")) ∧
      unitMarks.subst (fun n ↦ (oneAndTwo n).text natEngine) adjacentText.utf16 =
        GoString.utf16 (.lit "12") ∧
      ¬ Expands natEngine .units oneAndTwo adjacentText := by
  have hparse : parseExpression (text (performVariableExpansion CorrectEscape.units.toJSEscape
      adjacentText)) = some (.add (variableExpr (.lit "a")) (variableExpr (.lit "b"))) := rfl
  have hvar (n : GoString) (hn : byteMarks.IsName n)
      (hmem : n.utf16 ∈ unitMarks.names adjacentText.utf16) :
      Yields natEngine (expansionScope natEngine oneAndTwo adjacentText) (variableExpr n)
        (.ok (oneAndTwo n.utf16).value) :=
    yields_variableExpr (E := natEngine) (σ := fun n ↦ (oneAndTwo n).value) rfl
      (plainText_of_isName hn) hmem
  have hyields : Yields natEngine (expansionScope natEngine oneAndTwo adjacentText)
      (.add (variableExpr (.lit "a")) (variableExpr (.lit "b"))) (.ok (.number (3 : Nat))) :=
    (hvar (.lit "a") (by decide) (by decide)).add (hvar (.lit "b") (by decide) (by decide))
  have hsubst : unitMarks.subst (fun n ↦ (oneAndTwo n).text natEngine) adjacentText.utf16 =
      GoString.utf16 (.lit "12") := by decide
  refine ⟨_, hparse, hyields, by decide, hsubst, ?_⟩
  rintro ⟨e, v, he, hv, htext⟩
  obtain rfl := Option.some.inj (hparse.symm.trans he)
  obtain rfl := Except.ok.inj (hyields.unique hv)
  rw [hsubst] at htext
  revert htext
  decide

end SMAgent.Multihttp
