import SMAgent.Base.Replacements
import SMAgent.Prober.Interpolation

/-!
# Variables are replaced one after the other

`processVariables` finds the placeholders of a text once and then replaces the names in the
order of their placeholders, each in what the replacements before have left. A value that
brings in a placeholder, alone or together with the text around it, is scanned again by a later
round. This module says what a replacement of all placeholders at once would give, and when the
rounds give the same.
-/

namespace SMAgent.Prober
open SMAgent.Base SMAgent.Base.Placeholders
open GoString (lit byte)

private theorem dollar_ne_opening : byte '$' ≠ byte '{' := by decide

private theorem dollar_ne_closing : byte '$' ≠ byte '}' := by decide

/-- The placeholders of `VariableRegex`. -/
def variableMarks : Marks UInt8 where
  mark := byte '$'
  opening := byte '{'
  closing := byte '}'
  isStart := Multihttp.isNameStart
  isLetter b := Multihttp.isNameByte b || b == byte '-'
  isLetter_of_isStart b h := by rw [Multihttp.isNameByte, h]; rfl
  isLetter_mark := by decide
  isLetter_closing := by decide
  mark_ne_opening := dollar_ne_opening
  mark_ne_closing := dollar_ne_closing

/-! ### The model of the source in these terms -/

/-- The expression finds what the marks delimit. -/
theorem variableAt_eq (s : GoString) : variableAt s = variableMarks.matchAt s := by
  match s with
  | [] | [_] => rfl
  | a :: b :: rest =>
    have hletter : (fun b ↦ Multihttp.isNameByte b || b == byte '-')
        = variableMarks.isLetter := rfl
    simp only [variableAt, Marks.matchAt, hletter]
    cases rest.takeWhile variableMarks.isLetter with
    | nil => rfl
    | cons first name =>
      cases rest.dropWhile variableMarks.isLetter with
      | nil => rfl
      | cons close after => rfl

private theorem variableMatches_eq {fuel : Nat} {s : GoString} (h : s.length ≤ fuel) :
    variableMatches fuel s = variableMarks.names s := by
  induction s using variableMarks.induction_parts generalizing fuel with
  | nil =>
    cases fuel with
    | zero => rfl
    | succ fuel => rfl
  | name n s hn ih =>
    cases fuel with
    | zero => cases h
    | succ fuel =>
      have hlen : s.length ≤ fuel := by
        simp only [Marks.wrap, List.cons_append, List.length_cons, List.length_append] at h
        omega
      rw [variableMatches.eq_def, Marks.names, variableMarks.parts_wrap hn]
      simp only [variableAt_eq, variableMarks.matchAt_wrap hn, ih hlen]
      rfl
  | letter a s ha ih =>
    cases fuel with
    | zero => cases h
    | succ fuel =>
      rw [variableMatches, variableAt_eq, ha, Marks.names, variableMarks.parts_cons ha]
      simp only [ih (Nat.le_of_succ_le_succ h)]
      rfl

private theorem replaceAll_placeholder {n : GoString} (hn : variableMarks.IsName n)
    (v s : GoString) :
    s.replaceAll (.lit "$\x7b" ++ n ++ .lit "\x7d") v = variableMarks.replace n v s := by
  have hwrap : lit "$\x7b" ++ n ++ lit "\x7d" = variableMarks.wrap n := rfl
  rw [hwrap]
  refine variableMarks.eq_replace hn (f := fun s ↦ GoString.replaceAll s (variableMarks.wrap n) v)
    rfl ?_ ?_ s
  · exact GoString.replaceAll_append (by simp [Marks.wrap]) v
  · exact fun b s h ↦ GoString.replaceAll_cons h v

section Provider
variable (getVariable : GoString → Except GoString GoString)

/-- The value of a variable, if it has one. -/
def definedValue (name : GoString) : Option GoString := (getVariable name).toOption

/-- One round of the loop, `interpolation.go:137-155`. -/
def variableRound (result varName : GoString) : GoString :=
  match getVariable varName with
  | .error _ => result
  | .ok varValue => result.replaceAll (.lit "$\x7b" ++ varName ++ .lit "\x7d") varValue

private theorem processVariables_eq (r : Resolver) (value : GoString)
    (h : r.variableProvider = some getVariable) :
    r.processVariables value =
      (variableMarks.names value).foldl (variableRound getVariable) value := by
  rw [Resolver.processVariables, h]
  simp only [variableMatches_eq (Nat.le_refl _)]
  rfl

private theorem foldl_variableRound {names : List GoString}
    (h : ∀ n ∈ names, variableMarks.IsName n)
    (value : GoString) : names.foldl (variableRound getVariable) value =
      variableMarks.replaceEach (definedValue getVariable) names value := by
  apply List.foldl_ext
  intro result name hname
  rw [variableRound, Marks.replaceOne, definedValue]
  cases getVariable name with
  | error e => rfl
  | ok v => exact replaceAll_placeholder (h name hname) v result

/-! ### All at once -/

/-- The text with every placeholder replaced at once: one with a value by the value, one without
stays. -/
def substituteVariables (value : GoString) : GoString :=
  variableMarks.subst (variableMarks.valueOf (definedValue getVariable)) value

/-- The text with the placeholders of these names replaced at once. -/
def substituteSome (done : List GoString) (value : GoString) : GoString :=
  variableMarks.subst (variableMarks.filled (definedValue getVariable) done) value

/-- In the text that the round for `n` gets, after rounds for `done`, the placeholders of `n` are
the original ones that still stand; or the value of `n` is its own placeholder. -/
def RoundClear (value : GoString) (done : List GoString) (n : GoString) : Prop :=
  ∀ v, getVariable n = .ok v → v = variableMarks.wrap n ∨
    (variableMarks.names (done.foldl (variableRound getVariable) value)).count n =
      if n ∈ done then 0 else (variableMarks.names value).count n

end Provider

private theorem isName_of_mem_names {value n : GoString} (h : n ∈ variableMarks.names value) :
    variableMarks.IsName n :=
  variableMarks.isName_of_mem_parts (variableMarks.mem_names.mp h)

private theorem roundClear_iff (getVariable : GoString → Except GoString GoString)
    (value : GoString) {done : List GoString} {n : GoString}
    (h : done ++ [n] <+: variableMarks.names value) :
    RoundClear getVariable value done n ↔
      variableMarks.Clear (definedValue getVariable) value done n := by
  have hdone : ∀ k ∈ done, variableMarks.IsName k := fun k hk ↦
    isName_of_mem_names (h.subset (List.mem_append_left _ hk))
  have hdefined (v : GoString) : definedValue getVariable n = some v ↔ getVariable n = .ok v := by
    rw [definedValue]
    cases getVariable n <;> simp [Except.toOption]
  simp only [RoundClear, Marks.Clear, foldl_variableRound getVariable hdone, Marks.count_names,
    hdefined]

/-- For every text: the rounds give what a replacement at once gives, whatever the values are,
exactly when the text has at most one placeholder. For given values the rounds so far give the
replacement of their names at every point exactly when every round is clear; then the result of
`processVariables` is the replacement of all placeholders at once. -/
theorem processVariables_singlePass (r : Resolver) (value : GoString) :
    ((∀ getVariable, Resolver.processVariables { r with variableProvider := some getVariable } value
        = substituteVariables getVariable value) ↔ (variableMarks.names value).length ≤ 1) ∧
    ∀ getVariable,
      ((∀ done, done <+: variableMarks.names value →
          done.foldl (variableRound getVariable) value = substituteSome getVariable done value) ↔
        ∀ done n, done ++ [n] <+: variableMarks.names value →
          RoundClear getVariable value done n) ∧
      ((∀ done n, done ++ [n] <+: variableMarks.names value →
          RoundClear getVariable value done n) →
        Resolver.processVariables { r with variableProvider := some getVariable } value
          = substituteVariables getVariable value) := by
  have hnames : ∀ n ∈ variableMarks.names value, variableMarks.IsName n :=
    fun n hn ↦ isName_of_mem_names hn
  have hiff (getVariable : GoString → Except GoString GoString) :
      (∀ done, done <+: variableMarks.names value →
          done.foldl (variableRound getVariable) value = substituteSome getVariable done value) ↔
        ∀ done n, done ++ [n] <+: variableMarks.names value →
          RoundClear getVariable value done n := by
    have hlib := variableMarks.replaceEach_iff (definedValue getVariable) hnames value
    constructor
    · intro h done n hpre
      refine (roundClear_iff getVariable value hpre).mpr (hlib.mp (fun done hpre ↦ ?_) done n hpre)
      rw [← foldl_variableRound getVariable fun k hk ↦ hnames k (hpre.subset hk)]
      exact h done hpre
    · intro h done hpre
      rw [foldl_variableRound getVariable fun k hk ↦ hnames k (hpre.subset hk)]
      exact hlib.mpr (fun done n hpre ↦ (roundClear_iff getVariable value hpre).mp (h done n hpre))
        done hpre
  have hlast (getVariable : GoString → Except GoString GoString)
      (h : ∀ done n, done ++ [n] <+: variableMarks.names value →
        RoundClear getVariable value done n) :
      Resolver.processVariables { r with variableProvider := some getVariable } value
        = substituteVariables getVariable value := by
    rw [processVariables_eq getVariable _ value rfl,
      (hiff getVariable).mpr h _ (List.prefix_refl _)]
    exact variableMarks.subst_filled_names _ fun n hn ↦ hn
  refine ⟨⟨fun h ↦ ?_, fun h getVariable ↦ ?_⟩,
    fun getVariable ↦ ⟨hiff getVariable, hlast getVariable⟩⟩
  · -- two placeholders: the library has values that go wrong
    by_contra hlong
    obtain ⟨n₁, n₂, ns, heq⟩ : ∃ n₁ n₂ ns, variableMarks.names value = n₁ :: n₂ :: ns := by
      match hn : variableMarks.names value with
      | [] | [_] => simp [hn] at hlong
      | n₁ :: n₂ :: ns => exact ⟨n₁, n₂, ns, rfl⟩
    obtain ⟨get, hget⟩ := Marks.exists_replaceEach_ne (m := variableMarks) (b := byte ' ')
      ⟨by decide, by decide, by decide⟩ (by decide) heq
    let getVariable (n : GoString) : Except GoString GoString :=
      match get n with
      | none => .error []
      | some v => .ok v
    have hdefined : definedValue getVariable = get := by
      funext n
      simp only [definedValue, getVariable]
      cases get n <;> rfl
    have hright := h getVariable
    rw [processVariables_eq getVariable _ value rfl, foldl_variableRound getVariable hnames,
      substituteVariables, hdefined] at hright
    exact hget hright
  · -- one placeholder: its round gets the text as it is
    apply hlast
    intro done n hpre v hv
    have hdone : done = [] := by
      have := hpre.length_le
      rw [List.length_append, List.length_singleton] at this
      exact List.length_eq_zero_iff.mp (by omega)
    subst hdone
    exact .inr rfl

/-- A provider with two variables, one of which has the placeholder of the other as its value. -/
def nestedVariables (name : GoString) : Except GoString GoString :=
  if name = .lit "a" then .ok (.lit "$\x7bb\x7d")
  else if name = .lit "b" then .ok (.lit "x")
  else .error (.lit "variable not found")

/-- The value of `a` is scanned again by the round for `b`. -/
theorem processVariables_nested :
    Resolver.processVariables ⟨some nestedVariables, fun _ _ _ ↦ .error [], 1, false⟩
        (.lit "$\x7ba\x7d$\x7bb\x7d") = .lit "xx" ∧
      substituteVariables nestedVariables (.lit "$\x7ba\x7d$\x7bb\x7d") = .lit "$\x7bb\x7dx" := by
  decide

/-- A provider whose values have no placeholders. -/
def plainVariables (name : GoString) : Except GoString GoString :=
  if name = .lit "a" then .ok (.lit "x") else .ok (.lit "y")

/-- Two placeholders whose values have none. -/
theorem processVariables_plain :
    Resolver.processVariables ⟨some plainVariables, fun _ _ _ ↦ .error [], 1, false⟩
        (.lit "$\x7ba\x7d$\x7bb\x7d") =
      substituteVariables plainVariables (.lit "$\x7ba\x7d$\x7bb\x7d") := by
  apply ((processVariables_singlePass ⟨some plainVariables, fun _ _ _ ↦ .error [], 1, false⟩
    (.lit "$\x7ba\x7d$\x7bb\x7d")).2 plainVariables).2
  intro done n hpre v _
  right
  have hnames : variableMarks.names (lit "$\x7ba\x7d$\x7bb\x7d") =
      [lit "a", .lit "b"] := by decide
  have hround : (done, n) = ([], .lit "a") ∨ (done, n) = ([.lit "a"], .lit "b") := by
    rw [hnames] at hpre
    rcases done with _ | ⟨d, _ | ⟨e, done⟩⟩
    · exact .inl (by simpa using hpre)
    · exact .inr (by simpa using hpre)
    · simpa using hpre.length_le
  rcases hround with h | h
  · cases h
    decide
  · cases h
    decide

/-- Values for which two wrong rounds undo each other. -/
def crossedVariables (name : GoString) : Except GoString GoString :=
  if name = .lit "a" then .ok (.lit "$\x7bb\x7d")
  else if name = .lit "b" then .ok (.lit "c")
  else .ok (.lit "$\x7b$\x7bb\x7d\x7d")

-- the result alone does not tell whether the rounds were clear
example :
    let value := lit "$\x7b$\x7ba\x7d\x7d$\x7bb\x7d$\x7bc\x7d"
    Resolver.processVariables ⟨some crossedVariables, fun _ _ _ ↦ .error [], 1, false⟩ value =
        substituteVariables crossedVariables value ∧
      [lit "a", .lit "b"].foldl (variableRound crossedVariables) value ≠
        substituteSome crossedVariables [.lit "a", .lit "b"] value := by
  decide

end SMAgent.Prober
