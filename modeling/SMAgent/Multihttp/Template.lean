import SMAgent.Base.JSSum
import SMAgent.Multihttp.Strings

/-!
# Texts with variables as sums

`performVariableExpansion`, `script.go:22-71`, and `ToJavaScript`, `interpolation.go:177-226`,
write the same kind of expression: a sum with a string literal for each text between placeholders
and `vars['name']` for each placeholder. They differ in the expression that finds the placeholders
and in how a text is escaped.
-/

namespace SMAgent.Multihttp
open SMAgent.Base SMAgent.Base.JavaScript SMAgent.Base.Placeholders

/-! ### The text of the sum -/

section Writing
variable (escape : GoString → GoString)

/-- A text between single quotes. -/
def quotedText (t : GoString) : GoString :=
  GoString.byte '\'' :: (escape t ++ [GoString.byte '\''])

/-- `if s.Len() > 0`, with the `+` that follows. -/
def plusText (s : GoString) : GoString := if s.length > 0 then .lit "+" else []

/-- One round of the loop, `interpolation.go:189-214`. -/
def writeVariable (s : GoString) (loc : GoString × GoString) : GoString :=
  s ++ plusText s ++
    (if loc.1.length > 0 then quotedText escape loc.1 ++ .lit "+" else []) ++ readVariable loc.2

/-- The expression of a text with these matches, and with this text after the last. -/
def writeTemplate (value : GoString) (locs : List (GoString × GoString) × GoString) : GoString :=
  if value.length = 0 then .lit "''"
  else
    let written := locs.1.foldl (writeVariable escape) []
    if locs.2.length > 0 then written ++ plusText written ++ quotedText escape locs.2 else written

end Writing

/-! ### The operands of the sum -/

/-- An escape, with what its literals denote. -/
structure Quoting where
  escape : GoString → GoString
  denotes : GoString → JSString
  content : ∀ s, literal (GoString.byte '\'') .normal (escape s) = some .normal
  value : ∀ s, literalValue (escape s) = some (denotes s)
  denotes_nil : denotes [] = []

section
variable (E : Engine) (q : Quoting) (σ : JSString → Scalar E.Num)

/-- The operand of a text. -/
def textOperand (t : GoString) : Operand E.Num where
  source := quotedText q.escape t
  toks := [.string (q.escape t)]
  expr := .string (q.escape t)
  value := .string (q.denotes t)

/-- The operand of a name. -/
def variableOperand (n : GoString) : Operand E.Num where
  source := readVariable n
  toks := variableToks n
  expr := variableExpr n
  value := σ n.utf16

/-- The expression of the empty text. -/
def emptyOperand : Operand E.Num where
  source := .lit "''"
  toks := [.string []]
  expr := .string []
  value := .string []

/-- The operand of a text, unless it is empty. -/
def optionalText (t : GoString) : List (Operand E.Num) :=
  if t.length > 0 then [textOperand E q t] else []

/-- The operands of a match. -/
def pieceOperands (loc : GoString × GoString) : List (Operand E.Num) :=
  optionalText E q loc.1 ++ [variableOperand E σ loc.2]

/-- The operands of a text with these matches. -/
def templateOperands (value : GoString) (locs : List (GoString × GoString) × GoString) :
    List (Operand E.Num) :=
  if value.length = 0 then [emptyOperand E]
  else locs.1.flatMap (pieceOperands E q σ) ++ optionalText E q locs.2

variable {E q σ} {env : Env E.Num} {names : List JSString}

private theorem means_textOperand (env : Env E.Num) (t : GoString) :
    (textOperand E q t).Means E env where
  scans := scan_literal (.inr rfl) (q.content t)
  scansAfterPlus := scan_string (.inr rfl) (p := .lit "+") rfl (q.content t)
  parses n rest hrest := by rcases hrest with rfl | ⟨ts, rfl⟩ <;> rfl
  head rest x ts _ h := by cases h
  yields := .string (q.value t)

private theorem means_emptyOperand (env : Env E.Num) : (emptyOperand E).Means E env where
  scans := by
    show scan [] (.lit "''") = some ([.string []], [])
    decide
  scansAfterPlus := by
    show scan (.lit "+") (.lit "''") = some ([.key .plus, .string []], [])
    decide
  parses n rest hrest := by rcases hrest with rfl | ⟨ts, rfl⟩ <;> rfl
  head rest x ts _ h := by cases h
  yields := .string rfl

section Env
variable (henv : env.lookup (.lit "vars") = some (.object (names.map fun n ↦ (n, (σ n).value))))
include henv

private theorem means_variableOperand {n : GoString} (hn : PlainText n) (hmem : n.utf16 ∈ names) :
    (variableOperand E σ n).Means E env where
  scans := scan_readVariable [] hn (by decide)
  scansAfterPlus := scan_readVariable [.key .plus] hn (by decide)
  parses n rest hrest := by rcases hrest with rfl | ⟨ts, rfl⟩ <;> rfl
  head rest x ts _ h := by cases h
  yields := yields_variableExpr (σ := fun n ↦ (σ n).value) henv hn hmem

private theorem means_templateOperands (value : GoString)
    {locs : List (GoString × GoString) × GoString}
    (hlocs : ∀ p ∈ locs.1, PlainText p.2 ∧ p.2.utf16 ∈ names) :
    ∀ o ∈ templateOperands E q σ value locs, o.Means E env := by
  have htext (t : GoString) : ∀ o ∈ optionalText E q t, o.Means E env := by
    intro o ho
    unfold optionalText at ho
    split at ho
    · rw [List.mem_singleton.mp ho]
      exact means_textOperand _ t
    · exact absurd ho List.not_mem_nil
  unfold templateOperands
  split
  · exact List.forall_mem_singleton.mpr (means_emptyOperand _)
  · intro o ho
    rcases List.mem_append.mp ho with ho | ho
    · obtain ⟨p, hp, ho⟩ := List.mem_flatMap.mp ho
      rcases List.mem_append.mp ho with ho | ho
      · exact htext p.1 o ho
      · rw [List.mem_singleton.mp ho]
        exact means_variableOperand henv (hlocs p hp).1 (hlocs p hp).2
    · exact htext locs.2 o ho

end Env

/-! ### The text is the sum of the operands -/

variable {os : List (Operand E.Num)}

private theorem joined_next {acc : GoString} (hacc : acc = Operand.joined os)
    (hos : ∀ o ∈ os, o.source ≠ []) (o : Operand E.Num) (ps : List (Operand E.Num)) :
    acc ++ plusText acc ++ Operand.joined (o :: ps) = Operand.joined (os ++ o :: ps) := by
  subst hacc
  cases os with
  | nil => rfl
  | cons o' os =>
    have hne : Operand.joined (o' :: os) ≠ [] := by
      rw [Operand.joined]
      exact List.append_ne_nil_of_left_ne_nil (hos o' List.mem_cons_self) _
    rw [plusText, if_pos (List.length_pos_of_ne_nil hne),
      Operand.joined_append (List.cons_ne_nil o' os), List.append_assoc]
    rfl

private theorem source_ne_nil {loc : GoString × GoString} (hos : ∀ o ∈ os, o.source ≠ []) :
    ∀ o ∈ os ++ pieceOperands E q σ loc, o.source ≠ [] := by
  intro o ho
  rcases List.mem_append.mp ho with ho | ho
  · exact hos o ho
  · rw [pieceOperands, optionalText] at ho
    split at ho
    · rcases List.mem_cons.mp ho with rfl | ho
      · exact List.cons_ne_nil _ _
      · rw [List.mem_singleton.mp ho]
        exact List.cons_ne_nil _ _
    · rw [List.nil_append] at ho
      rw [List.mem_singleton.mp ho]
      exact List.cons_ne_nil _ _

private theorem joined_singleton (o : Operand E.Num) : Operand.joined [o] = o.source :=
  List.append_nil _

private theorem writeVariable_eq {acc : GoString} (hacc : acc = Operand.joined os)
    (hos : ∀ o ∈ os, o.source ≠ []) (loc : GoString × GoString) :
    writeVariable q.escape acc loc = Operand.joined (os ++ pieceOperands E q σ loc) := by
  rw [writeVariable, pieceOperands, optionalText]
  split
  · rw [List.singleton_append, ← joined_next hacc hos, ← List.singleton_append,
      Operand.joined_append (List.cons_ne_nil _ _), joined_singleton, joined_singleton]
    simp only [List.append_assoc]
    rfl
  · rw [List.nil_append, ← joined_next hacc hos, joined_singleton, List.append_nil]
    rfl

private theorem foldl_writeVariable {acc : GoString} (hacc : acc = Operand.joined os)
    (hos : ∀ o ∈ os, o.source ≠ []) (locs : List (GoString × GoString)) :
    locs.foldl (writeVariable q.escape) acc =
      Operand.joined (os ++ locs.flatMap (pieceOperands E q σ)) ∧
    ∀ o ∈ os ++ locs.flatMap (pieceOperands E q σ), o.source ≠ [] := by
  induction locs generalizing acc os with
  | nil =>
    rw [List.flatMap_nil, List.append_nil]
    exact ⟨hacc, hos⟩
  | cons loc locs ih =>
    rw [List.flatMap_cons, ← List.append_assoc]
    exact ih (writeVariable_eq hacc hos loc) (source_ne_nil hos)

variable (q σ)

private theorem writeTemplate_eq (value : GoString) (locs : List (GoString × GoString) × GoString) :
    writeTemplate q.escape value locs = Operand.joined (templateOperands E q σ value locs) := by
  have hfold : locs.1.foldl (writeVariable q.escape) [] =
        Operand.joined (locs.1.flatMap (pieceOperands E q σ)) ∧
      ∀ o ∈ locs.1.flatMap (pieceOperands E q σ), o.source ≠ [] :=
    foldl_writeVariable rfl (fun _ h ↦ absurd h List.not_mem_nil) locs.1
  unfold writeTemplate templateOperands
  split
  · rfl
  · show (if locs.2.length > 0 then _ else _) = _
    rw [optionalText]
    split
    · rw [← joined_next hfold.1 hfold.2, joined_singleton]
      rfl
    · rw [List.append_nil]
      exact hfold.1

/-! ### The value of the sum -/

private theorem concat_append (vs ws : List (Scalar E.Num)) :
    Scalar.concat E (vs ++ ws) = Scalar.concat E vs ++ Scalar.concat E ws := List.flatMap_append

private theorem concat_optionalText (t : GoString) :
    Scalar.concat E ((optionalText E q t).map Operand.value) = q.denotes t := by
  unfold optionalText
  split
  · exact List.append_nil _
  · next ht =>
    rw [List.eq_nil_of_length_eq_zero (Nat.eq_zero_of_not_pos ht), q.denotes_nil]
    rfl

section Cut
variable {m : Marks UInt8} {value : GoString} {locs : List (GoString × GoString) × GoString}
  (hcut : m.Cut value locs.1 locs.2)
include hcut

private theorem templateOperands_ne_nil : templateOperands E q σ value locs ≠ [] := by
  unfold templateOperands
  split
  · exact List.cons_ne_nil _ _
  · next hvalue =>
    generalize locs.1 = pieces, locs.2 = tail at hcut
    cases hcut with
    | done _ =>
      rw [List.flatMap_nil, List.nil_append, optionalText, if_pos (Nat.pos_of_ne_zero hvalue)]
      exact List.cons_ne_nil _ _
    | next _ _ _ => simp [pieceOperands]

/-- The text is a sum that begins with its first operand. -/
theorem exists_sum
    (henv : env.lookup (.lit "vars") = some (.object (names.map fun n ↦ (n, (σ n).value))))
    (hlocs : ∀ p ∈ locs.1, PlainText p.2 ∧ p.2.utf16 ∈ names) :
    ∃ e o os, templateOperands E q σ value locs = o :: os ∧
      parseExpression (writeTemplate q.escape value locs) = some e ∧
      Yields E env e (.ok ((os.map Operand.value).foldl (Scalar.add E) o.value).value) := by
  have hmeans := means_templateOperands (q := q) henv value hlocs
  obtain ⟨o, os, hos⟩ := List.exists_cons_of_ne_nil (templateOperands_ne_nil q σ hcut)
  rw [writeTemplate_eq q σ, hos]
  rw [hos] at hmeans
  exact ⟨_, o, os, rfl, Operand.parseExpression_joined hmeans,
    Operand.yields_sumExpr (hmeans o List.mem_cons_self).yields
      fun o' ho' ↦ hmeans o' (List.mem_cons_of_mem _ ho')⟩

/-- The texts of the operands one after the other. -/
theorem concat_templateOperands :
    Scalar.concat E ((templateOperands E q σ value locs).map Operand.value) =
      locs.1.flatMap (fun p ↦ q.denotes p.1 ++ (σ p.2.utf16).text E) ++ q.denotes locs.2 := by
  unfold templateOperands
  split
  · next hvalue =>
    obtain ⟨hpieces, htail⟩ := hcut.eq_nil (List.eq_nil_of_length_eq_zero hvalue)
    rw [hpieces, htail, q.denotes_nil]
    rfl
  · rw [List.map_append, concat_append, concat_optionalText]
    congr 1
    induction locs.1 with
    | nil => rfl
    | cons p pieces ih =>
      rw [List.flatMap_cons, List.flatMap_cons, List.map_append, concat_append, ih, pieceOperands,
        List.map_append, concat_append, concat_optionalText]
      congr 2
      exact List.append_nil _

end Cut
end

/-- With strings as values, the value is their concatenation with the texts. -/
theorem exists_concat {E : Engine} {env : Env E.Num} {names : List JSString} (q : Quoting)
    (σ : JSString → JSString) {m : Marks UInt8} {value : GoString}
    {locs : List (GoString × GoString) × GoString} (hcut : m.Cut value locs.1 locs.2)
    (henv : env.lookup (.lit "vars") = some (.object (names.map fun n ↦ (n, .string (σ n)))))
    (hlocs : ∀ p ∈ locs.1, PlainText p.2 ∧ p.2.utf16 ∈ names) :
    ∃ e, parseExpression (writeTemplate q.escape value locs) = some e ∧
      Yields E env e (.ok (.string
        (locs.1.flatMap (fun p ↦ q.denotes p.1 ++ σ p.2.utf16) ++ q.denotes locs.2))) := by
  let strings (n : JSString) : Scalar E.Num := .string (σ n)
  have hvars : env.lookup (.lit "vars") =
      some (.object (names.map fun n ↦ (n, (strings n).value))) := henv
  obtain ⟨e, o, os, hos, hparse, hyields⟩ := exists_sum q strings hcut hvars hlocs
  have hconcat := concat_templateOperands q strings hcut
  obtain ⟨s, hs⟩ : ∃ s, o.value = .string s := by
    have hmem : o ∈ templateOperands E q strings value locs := hos ▸ List.mem_cons_self
    unfold templateOperands at hmem
    split at hmem
    · exact ⟨[], congrArg Operand.value (List.mem_singleton.mp hmem)⟩
    · simp only [List.mem_append, List.mem_flatMap, pieceOperands, optionalText,
        List.mem_ite_nil_right, List.mem_singleton] at hmem
      rcases hmem with ⟨p, -, ⟨-, rfl⟩ | rfl⟩ | ⟨-, rfl⟩
      · exact ⟨_, rfl⟩
      · exact ⟨_, rfl⟩
      · exact ⟨_, rfl⟩
  rw [hs, Scalar.foldl_add_string] at hyields
  rw [hos, List.map_cons, hs] at hconcat
  refine ⟨e, hparse, ?_⟩
  exact hconcat ▸ hyields

end SMAgent.Multihttp
