import SMAgent.Multihttp.AssertHeader
import SMAgent.Multihttp.Predicates

/-!
# What assertions decide

The predicate of an assertion compares texts of the response with the value and is true if one of
them satisfies the condition. A named header is the exception: its comparison is about a variable
`value` that the function around it does not bind, so the predicate fails as soon as the response
has such a header. A negated condition is negated for each text, not for all of them.
-/

namespace SMAgent.Multihttp
open SMAgent.Base SMAgent.Base.JavaScript SMAgent.Pb

/-! ### Comparisons -/

/-- Whether a text satisfies a condition. -/
def satisfies (c : AssertionCondition) (value text : JSString) : Bool :=
  match c with
  | .contains | .defaultCondition => decide (value <:+: text)
  | .notContains => !decide (value <:+: text)
  | .equals => text == value
  | .startsWith => value.isPrefixOf text
  | .endsWith => value.isSuffixOf text
  | .typeOf | .unrecognized _ => false

section Comparison
variable {E : Engine} {env : Env E.Num} {u : Subject} {raw : GoString} {value s : JSString}

private theorem yields_condition {c : AssertionCondition} (hc : rendered c = true)
    (hu : Yields E env u.expr (.ok (.string s))) (hraw : literalValue raw = some value) :
    Yields E env (conditionExpr c u raw) (.ok (.bool (satisfies c value s))) := by
  have hargs : Args E env [.string raw] [.string value] := .cons (.string hraw) .nil
  have hmethod (m : GoString) : Yields E env (.call (.member u.expr m) [.string raw])
      (stringMethod E s m [.string value]) := .method hu hargs (.string _ _)
  cases c with
  | equals => exact hu.equal (.string hraw)
  | notContains => exact (hmethod (.lit "includes")).not
  | contains => exact hmethod (.lit "includes")
  | defaultCondition => exact hmethod (.lit "includes")
  | startsWith => exact hmethod (.lit "startsWith")
  | endsWith => exact hmethod (.lit "endsWith")
  | typeOf => cases hc
  | unrecognized v => cases hc

private theorem yields_condition_error {c : AssertionCondition} (hc : rendered c = true)
    {err : Error} (hu : Yields E env u.expr (.error err)) :
    Yields E env (conditionExpr c u raw) (.error err) := by
  cases c with
  | equals => exact hu.equal_error
  | notContains => exact hu.method_error.not
  | contains => exact hu.method_error
  | defaultCondition => exact hu.method_error
  | startsWith => exact hu.method_error
  | endsWith => exact hu.method_error
  | typeOf => cases hc
  | unrecognized v => cases hc

end Comparison

/-! ### Responses -/

/-- The parts of a response that predicates read. -/
structure Response (Num : Type) where
  body : JSString
  status : Num
  headers : List (JSString × JSString)

section
variable (H : ScriptHost)

/-- The response as the argument of a predicate. -/
def Response.value (r : Response H.Num) : Value H.Num :=
  .object [(GoString.utf16 (.lit "body"), .string r.body),
    (GoString.utf16 (.lit "status"), .number r.status),
    (GoString.utf16 (.lit "headers"), headerObject H r.headers),
    (GoString.utf16 (.lit "json"), .native (.lit "response.json"))]

/-- The JSON path selects these texts from the body. -/
def Selects (path : JSString) (selected : List JSString) : Prop :=
  ∃ document, H.native (.lit "response.json") [] = .ok document ∧
    H.native (.lit "jsonpath.query") [document, .string path] =
      .ok (.array (selected.map .string))

/-- The line of a header: its name in lower case, and its value. -/
def headerLine (h : JSString × JSString) : JSString :=
  H.lower h.1 ++ GoString.utf16 (.lit ": ") ++ h.2

/-- The texts that a predicate of this form is about. -/
def Form.texts (r : Response H.Num) (selected : List JSString) : Form → List JSString
  | .body => [r.body]
  | .status => [H.text r.status]
  | .lines => r.headers.map (headerLine H)
  | .header name => namedHeaders H r.headers name.utf16
  | .jsonPath _ => selected

/-- The result of the predicate of an assertion: the text that `buildChecks` writes is read as a
program, and the predicate in it is called in the scope of the template's declarations. -/
def PredicateReturns (js : JSEscape) (m : HttpMethod) (a : MultiHttpEntryAssertion)
    (r : Response H.Num) (result : Except Error (Value H.Num)) : Prop :=
  ∃ declarations env program predicate f,
    parseProgram assertHeaderSource = some declarations ∧
    Executes H.toEngine (globals H) declarations (.ok (env, none)) ∧
    parseProgram (text (buildChecks js "url" (methodString m) a)) = some program ∧
    checkPredicate program = some predicate ∧
    Yields H.toEngine env predicate (.ok f) ∧
    Returns H.toEngine f [Response.value H r] result

/-- The bindings of the script that a predicate is made in. -/
def scriptScope : Env H.Num := (.lit "assertHeader", assertHeaderValue H) :: globals H

variable {H}

private theorem predicateReturns_iff {js : JSEscape} {m : HttpMethod} {a : MultiHttpEntryAssertion}
    {f : Form} (hf : formOf a = some f) (hc : rendered a.condition = true) {r : Response H.Num}
    {result : Except Error (Value H.Num)} :
    PredicateReturns H js m a r result ↔
      Returns H.toEngine (.closure (scriptScope H) [.lit "response"]
        (f.program (f.raw js) (conditionExpr a.condition f.subject (js.escape a.value))))
        [Response.value H r] result := by
  have hexec : Executes H.toEngine (globals H) [assertHeaderDecl] (.ok (scriptScope H, none)) :=
    .function .nil
  have hparse := parseProgram_buildChecks js hf hc m
  constructor
  · rintro ⟨declarations, env, program, predicate, g, hdecl, henv, hprogram, hpredicate, hg, h⟩
    obtain rfl := Option.some.inj (parseProgram_assertHeaderSource.symm.trans hdecl)
    obtain ⟨rfl, -⟩ := Prod.mk.inj (Except.ok.inj (hexec.unique henv))
    obtain rfl := Option.some.inj (hparse.symm.trans hprogram)
    obtain rfl := Option.some.inj hpredicate
    obtain rfl := Except.ok.inj (Settles.unique (Yields.arrow _ _) hg)
    exact h
  · intro h
    exact ⟨_, _, _, _, _, parseProgram_assertHeaderSource, hexec, hparse, rfl, .arrow _ _, h⟩

private theorem PredicateReturns.unique {js : JSEscape} {m : HttpMethod}
    {a : MultiHttpEntryAssertion}
    {f : Form} (hf : formOf a = some f) (hc : rendered a.condition = true) {r : Response H.Num}
    {result result' : Except Error (Value H.Num)} (h : PredicateReturns H js m a r result)
    (h' : PredicateReturns H js m a r result') : result = result' := by
  rw [predicateReturns_iff hf hc] at h h'
  exact Settles.unique h h'

/-! ### Calls of the predicates -/

section Calls
variable {c : AssertionCondition} {raw literal : GoString} {value : JSString} {r : Response H.Num}

/-- The bindings in the body of a predicate. -/
def predicateScope (r : Response H.Num) : Env H.Num :=
  (.lit "response", Response.value H r) :: scriptScope H

private theorem yields_response {env : Env H.Num} {x : GoString} {v : Value H.Num}
    (henv : env.lookup (.lit "response") = some (Response.value H r))
    (hv : getMember H.toEngine (Response.value H r) x = .ok v) :
    Yields H.toEngine env (.member (.var "response") x) (.ok v) := by
  rw [← hv]
  exact .member (.ident henv)

private theorem returns_comparison {env : Env H.Num} {x : GoString} {u : Subject}
    (hu : u.expr = .ident x) (hc : rendered c = true) (hraw : literalValue raw = some value)
    (s : JSString) :
    Returns H.toEngine (.closure env [x] [.ret (conditionExpr c u raw)]) [.string s]
      (.ok (.bool (satisfies c value s))) := by
  have hlookup : List.lookup x ((x, Value.string s) :: env) = some (.string s) := by
    rw [List.lookup_cons_self]
  apply Returns.arrow (yields_condition hc _ hraw)
  rw [hu]
  exact .ident hlookup

private theorem yields_lines :
    Yields H.toEngine (predicateScope r)
      (.call (.member (.call (.member (.var "Object") (.lit "entries"))
        [.member (.var "response") (.lit "headers")]) (.lit "map"))
        [.arrow (.lit "header") [.ret lineExpr]])
      (.ok (.array ((r.headers.map (headerLine H)).map .string))) := by
  have hentries : Yields H.toEngine (predicateScope r)
      (.call (.member (.var "Object") (.lit "entries"))
        [.member (.var "response") (.lit "headers")])
      (.ok (.array (r.headers.map (headerEntry H)))) :=
    .method (.ident rfl) (.cons (yields_response rfl rfl) .nil)
      (.object rfl (returns_entries r.headers))
  have hline (h : JSString × JSString) :
      Returns H.toEngine (.closure (predicateScope r) [.lit "header"] [.ret lineExpr])
        [headerEntry H h] (.ok (.string (headerLine H h))) := by
    have hlookup : List.lookup (GoString.lit "header")
        ((.lit "header", headerEntry H h) :: predicateScope r) = some (headerEntry H h) := rfl
    have hentry := yields_entry hlookup
    have hlower : Yields H.toEngine ((.lit "header", headerEntry H h) :: predicateScope r)
        (.call (.member (.index (.var "header") (.number 0)) (.lit "toLowerCase")) [])
        (.ok (.string (H.lower h.1))) := .method hentry.1 .nil (.string _ _)
    have hcolon : literalValue (.lit ": ") = some (GoString.utf16 (.lit ": ")) := by decide
    have hfirst : Yields H.toEngine ((.lit "header", headerEntry H h) :: predicateScope r)
        (.add (.call (.member (.index (.var "header") (.number 0)) (.lit "toLowerCase"))
          []) (.string (.lit ": "))) (.ok (.string (H.lower h.1 ++ GoString.utf16 (.lit ": ")))) :=
      hlower.add (.string hcolon)
    exact .arrow (hfirst.add hentry.2)
  rw [List.map_map]
  exact hentries.method (.cons (.arrow _ _) .nil) (.map fun h _ ↦ hline h)

private theorem truthy_find (p : JSString → Bool) :
    truthy H.toEngine ((((r.headers.map (headerLine H)).find? p).map Value.string).getD
      .undefined) = (r.headers.map (headerLine H)).any p := by
  cases hfound : (r.headers.map (headerLine H)).find? p with
  | none =>
    exact (List.any_eq_false.mpr (List.find?_eq_none.mp hfound)).symm
  | some line =>
    obtain ⟨h, -, rfl⟩ := List.mem_map.mp (List.mem_of_find?_eq_some hfound)
    rw [List.any_eq_true.mpr ⟨_, List.mem_of_find?_eq_some hfound, List.find?_some hfound⟩]
    have hcolon : GoString.utf16 (.lit ": ") ≠ [] := by decide
    have hne : headerLine H h ≠ [] := by
      simp [headerLine, hcolon]
    show (!(headerLine H h).isEmpty) = true
    rw [Bool.not_eq_true', List.isEmpty_eq_false_iff]
    exact hne

private theorem returns_program (hc : rendered c = true) (hraw : literalValue raw = some value)
    {f : Form} (hf : ∀ name, f ≠ .header name) {selected : List JSString}
    (hselected : ∀ path, f = .jsonPath path →
      ∃ s, literalValue literal = some s ∧ Selects H s selected) :
    Returns H.toEngine (.closure (scriptScope H) [.lit "response"]
      (f.program literal (conditionExpr c f.subject raw))) [Response.value H r]
      (.ok (.bool ((f.texts H r selected).any (satisfies c value)))) := by
  cases f with
  | body =>
    have hbody : Yields H.toEngine (predicateScope r) Subject.body.expr (.ok (.string r.body)) :=
      yields_response rfl rfl
    rw [Form.texts, List.any_cons, List.any_nil, Bool.or_false]
    exact .arrow (yields_condition hc hbody hraw)
  | status =>
    have hstatus : Yields H.toEngine (predicateScope r) Subject.status.expr
        (.ok (.string (H.text r.status))) :=
      .method (yields_response rfl rfl) .nil (.toString _)
    rw [Form.texts, List.any_cons, List.any_nil, Bool.or_false]
    exact .arrow (yields_condition hc hstatus hraw)
  | lines =>
    have hfind : Yields H.toEngine ((.lit "values", .array ((r.headers.map (headerLine H)).map
          .string)) :: predicateScope r)
        (.call (.member (.var "values") (.lit "find"))
          [.arrow (.lit "value") [.ret (conditionExpr c .value raw)]]) _ :=
      .method (.ident rfl) (.cons (.arrow _ _) .nil)
        (.find fun s _ ↦ returns_comparison (u := .value) rfl hc hraw s)
    have hresult : Yields H.toEngine ((.lit "values", .array ((r.headers.map (headerLine H)).map
          .string)) :: predicateScope r)
        (.not (.not (.call (.member (.var "values") (.lit "find"))
          [.arrow (.lit "value") [.ret (conditionExpr c .value raw)]])))
        (.ok (.bool ((r.headers.map (headerLine H)).any (satisfies c value)))) := by
      rw [← truthy_find, ← Bool.not_not (truthy _ _)]
      exact hfind.not.not
    have hbody : Executes H.toEngine
        (bindParams H.toEngine [.lit "response"] [Response.value H r] ++ scriptScope H)
        (Form.lines.program literal (conditionExpr c .value raw)) (.ok (_, some _)) :=
      .const yields_lines (.ret hresult)
    exact .closure hbody
  | header name => exact absurd rfl (hf name)
  | jsonPath path =>
    obtain ⟨s, hs, document, hjson, hquery⟩ := hselected path rfl
    have hdocument : Yields H.toEngine (predicateScope r)
        (.call (.member (.var "response") (.lit "json")) []) (.ok document) := by
      rw [← hjson]
      exact .method (.ident rfl) .nil (.object rfl (.native (by decide) _))
    have hvalues : Yields H.toEngine (predicateScope r)
        (.call (.member (.var "jsonpath") (.lit "query"))
          [.call (.member (.var "response") (.lit "json")) [], .string literal])
        (.ok (.array (selected.map .string))) := by
      rw [← hquery]
      exact .method (.ident rfl) (.cons hdocument (.cons (.string hs) .nil))
        (.object rfl (.native (by decide) _))
    exact .arrow (hvalues.method (.cons (.arrow _ _) .nil)
      (.any fun s _ ↦ returns_comparison (u := .values) rfl hc hraw s))

private theorem returns_header (hc : rendered c = true) {name : GoString} {s : JSString}
    (hliteral : literalValue literal = some s) {v : JSString} {vs : List JSString}
    (hnamed : namedHeaders H r.headers s = v :: vs) :
    Returns H.toEngine (.closure (scriptScope H) [.lit "response"]
      ((Form.header name).program literal (conditionExpr c .value raw))) [Response.value H r]
      (.error (.reference (.lit "value"))) := by
  have hvalue : Yields H.toEngine ((.lit "v", .string v) :: predicateScope r) Subject.value.expr
      (.error (.reference (.lit "value"))) := .unbound H.value_unbound
  have hmatcher : Returns H.toEngine
      (.closure (predicateScope r) [.lit "v"] [.ret (conditionExpr c .value raw)]) [.string v]
      (.error (.reference (.lit "value"))) := .arrow (yields_condition_error hc hvalue)
  exact .arrow (.call (f := .lit "assertHeader") rfl
    (.cons (yields_response rfl rfl) (.cons (.string hliteral) (.cons (.arrow _ _) .nil)))
    (returns_assertHeader_error hnamed hmatcher))

private theorem returns_header_absent {name : GoString} {s : JSString}
    (hliteral : literalValue literal = some s) (hnamed : namedHeaders H r.headers s = []) :
    Returns H.toEngine (.closure (scriptScope H) [.lit "response"]
      ((Form.header name).program literal (conditionExpr c .value raw))) [Response.value H r]
      (.ok (.bool false)) := by
  have hhelper : Returns H.toEngine (assertHeaderValue H) [headerObject H r.headers, .string s,
      .closure (predicateScope r) [.lit "v"] [.ret (conditionExpr c .value raw)]]
      (.ok (.bool ((namedHeaders H r.headers s).any fun _ ↦ false))) :=
    returns_assertHeader fun v hv ↦ absurd (hnamed ▸ hv) List.not_mem_nil
  rw [hnamed] at hhelper
  exact .arrow (.call (f := .lit "assertHeader") rfl
    (.cons (yields_response rfl rfl) (.cons (.string hliteral) (.cons (.arrow _ _) .nil))) hhelper)

end Calls

/-! ### Assertions -/

/-- The texts of the response that an assertion is about. -/
def assertedTexts (H : ScriptHost) (a : MultiHttpEntryAssertion) (r : Response H.Num)
    (selected : List JSString) : List JSString :=
  match formOf a with
  | some f => f.texts H r selected
  | none => []

/-- The conditions without a negation. -/
def positive (c : AssertionCondition) : Bool :=
  match c with
  | .contains | .defaultCondition | .equals | .startsWith | .endsWith => true
  | .notContains | .typeOf | .unrecognized _ => false

private theorem rendered_of_positive {c : AssertionCondition} (h : positive c = true) :
    rendered c = true := by
  cases c <;> first | rfl | cases h

section Forms
variable {a : MultiHttpEntryAssertion}

private theorem exists_formOf (hvalid : a.validate = none)
    (htype : a.type = .text ∨ a.type = .jsonPathValue) : ∃ f, formOf a = some f := by
  have hrecognized : a.recognized = true := by
    rw [← Bool.not_eq_false]
    intro h
    rw [MultiHttpEntryAssertion.validate, if_pos h] at hvalid
    cases hvalid
  rcases htype with htype | htype
  · cases hsubject : a.subject with
    | unrecognized v => simp [MultiHttpEntryAssertion.recognized, htype, hsubject] at hrecognized
    | _ => simp [formOf, htype, hsubject]
  · simp [formOf, htype]

private theorem formOf_eq_header {name : GoString} (h : formOf a = some (.header name)) :
    a.type = .text ∧ a.subject = .responseHeaders ∧ a.expression ≠ [] ∧ name = a.expression := by
  unfold formOf at h
  split at h
  · next htype =>
    split at h
    · cases h
    · cases h
    · next hsubject =>
      split at h
      · cases h
      · next hexpression =>
        cases h
        exact ⟨htype, hsubject, fun hnil ↦ hexpression (by rw [hnil]; rfl), rfl⟩
    · cases h
    · cases h
  · cases h
  · cases h
  · cases h
  · cases h

private theorem formOf_of_header (htype : a.type = .text) (hsubject : a.subject = .responseHeaders)
    (hexpression : a.expression ≠ []) : formOf a = some (.header a.expression) := by
  have hlength : ¬ a.expression.length = 0 := fun h ↦ hexpression (List.length_eq_zero_iff.mp h)
  simp only [formOf, htype, hsubject, if_neg hlength]

private theorem formOf_eq_jsonPath {path : GoString} (h : formOf a = some (.jsonPath path)) :
    a.type = .jsonPathValue ∧ path = a.expression := by
  unfold formOf at h
  split at h
  · split at h
    · cases h
    · cases h
    · split at h
      · cases h
      · cases h
    · cases h
    · cases h
  · next htype =>
    cases h
    exact ⟨htype, rfl⟩
  · cases h
  · cases h
  · cases h

end Forms

section Assertion
variable (js : CorrectEscape) (m : HttpMethod) {a : MultiHttpEntryAssertion} {r : Response H.Num}
  (selected : List JSString)

private theorem predicateReturns_texts {f : Form} (hf : formOf a = some f)
    (hc : rendered a.condition = true)
    (hselected : a.type = .jsonPathValue → Selects H a.expression.utf16 selected)
    (hnamed : ∀ name, f = .header name → namedHeaders H r.headers name.utf16 = []) :
    PredicateReturns H js.toJSEscape m a r (.ok (.bool ((assertedTexts H a r selected).any
      (satisfies a.condition a.value.utf16)))) := by
  have htexts : assertedTexts H a r selected = f.texts H r selected := by
    rw [assertedTexts, hf]
  rw [predicateReturns_iff hf hc, htexts]
  by_cases hheader : ∃ name, f = .header name
  · obtain ⟨name, rfl⟩ := hheader
    rw [Form.texts, hnamed name rfl]
    exact returns_header_absent (js.value name) (hnamed name rfl)
  · apply returns_program hc (js.value a.value) (fun name h ↦ hheader ⟨name, h⟩)
    rintro path rfl
    obtain ⟨htype, rfl⟩ := formOf_eq_jsonPath hf
    exact ⟨_, js.value a.expression, hselected htype⟩

private theorem predicateReturns_header (hc : rendered a.condition = true)
    (htype : a.type = .text) (hsubject : a.subject = .responseHeaders)
    (hexpression : a.expression ≠ [])
    (hnamed : namedHeaders H r.headers a.expression.utf16 ≠ []) :
    PredicateReturns H js.toJSEscape m a r (.error (.reference (.lit "value"))) := by
  rw [predicateReturns_iff (formOf_of_header htype hsubject hexpression) hc]
  obtain ⟨v, vs, hvs⟩ := List.exists_cons_of_ne_nil hnamed
  exact returns_header hc (js.value a.expression) hvs

/-- `script.go:228-322`. The predicate of a condition without a negation is true exactly if a text
that the assertion is about satisfies the condition, unless it finds a header by its name: with
such a header in the response there is no result. -/
theorem assertion_holds_iff_no_named_header (hvalid : a.validate = none)
    (htype : a.type = .text ∨ a.type = .jsonPathValue) (hc : positive a.condition = true)
    (hselected : a.type = .jsonPathValue → Selects H a.expression.utf16 selected) :
    PredicateReturns H js.toJSEscape m a r (.ok (.bool ((assertedTexts H a r selected).any
        (satisfies a.condition a.value.utf16)))) ↔
      ¬ (a.type = .text ∧ a.subject = .responseHeaders ∧ a.expression ≠ [] ∧
        namedHeaders H r.headers a.expression.utf16 ≠ []) := by
  have hrendered := rendered_of_positive hc
  obtain ⟨f, hf⟩ := exists_formOf hvalid htype
  constructor
  · rintro h ⟨htext, hsubject, hexpression, hnamed⟩
    have herror := predicateReturns_header js m hrendered htext hsubject hexpression hnamed
    cases h.unique hf hrendered herror
  · intro h
    apply predicateReturns_texts js m selected hf hrendered hselected
    rintro name rfl
    obtain ⟨htext, hsubject, hexpression, rfl⟩ := formOf_eq_header hf
    by_contra hnamed
    exact h ⟨htext, hsubject, hexpression, hnamed⟩

end Assertion
end

/-- A host with numbers that are natural, the ASCII letters, and a JSON path library that selects
the texts `x` and `y` from every document. -/
def natHost : ScriptHost where
  toNumbers := .nat
  lower s := s.map fun u ↦ if 65 ≤ u ∧ u ≤ 90 then u + 32 else u
  native f _ :=
    if f = .lit "jsonpath.query" then
      .ok (.array [.string (GoString.utf16 (.lit "x")), .string (GoString.utf16 (.lit "y"))])
    else .ok .undefined
  bindings := []
  value_unbound := rfl
  warn _ := rfl

/-- A response with two headers. -/
def sampleResponse : Response natHost.Num where
  body := GoString.utf16 (.lit "xylophone")
  status := (200 : Nat)
  headers := [(GoString.utf16 (.lit "Server"), GoString.utf16 (.lit "nginx")),
    (GoString.utf16 (.lit "Via"), GoString.utf16 (.lit "proxy"))]

/-- The assertion that a header line starts with `server`. -/
def serverLine : MultiHttpEntryAssertion where
  subject := .responseHeaders
  condition := .startsWith
  value := .lit "server"

/-- A header line starts with the text, up to case. -/
theorem serverLine_holds :
    PredicateReturns natHost CorrectEscape.units.toJSEscape .get serverLine sampleResponse
      (.ok (.bool true)) := by
  have hheader : ¬ (serverLine.type = .text ∧ serverLine.subject = .responseHeaders ∧
      serverLine.expression ≠ [] ∧
      namedHeaders natHost sampleResponse.headers serverLine.expression.utf16 ≠ []) := by decide
  exact (assertion_holds_iff_no_named_header .units .get [] (a := serverLine) rfl (.inl rfl) rfl
    (fun h ↦ by cases h)).mpr hheader

/-- The assertion that the header `server` contains `nginx`. -/
def serverHeader : MultiHttpEntryAssertion where
  subject := .responseHeaders
  condition := .contains
  expression := .lit "server"
  value := .lit "nginx"

/-- The response has the header with that value, and the predicate has no result. -/
theorem serverHeader_fails :
    serverHeader.validate = none ∧
      (assertedTexts natHost serverHeader sampleResponse []).any
        (satisfies serverHeader.condition serverHeader.value.utf16) = true ∧
      PredicateReturns natHost CorrectEscape.units.toJSEscape .get serverHeader sampleResponse
        (.error (.reference (.lit "value"))) ∧
      ¬ PredicateReturns natHost CorrectEscape.units.toJSEscape .get serverHeader sampleResponse
        (.ok (.bool true)) := by
  have herror : PredicateReturns natHost CorrectEscape.units.toJSEscape .get serverHeader
      sampleResponse (.error (.reference (.lit "value"))) :=
    predicateReturns_header .units .get rfl rfl rfl (by decide) (by decide)
  refine ⟨rfl, by decide, herror, fun h ↦ ?_⟩
  cases h.unique (f := .header (.lit "server")) rfl rfl herror

/-! ### Negation -/

private theorem any_not_eq_not_any_iff {α : Type} (l : List α) (p : α → Bool) :
    l.any (fun x ↦ !p x) = !l.any p ↔ l ≠ [] ∧ ∃ b, ∀ x ∈ l, p x = b := by
  constructor
  · intro h
    refine ⟨?_, l.any p, fun x hx ↦ ?_⟩
    · rintro rfl
      cases h
    · cases hany : l.any p with
      | true =>
        rw [hany] at h
        simpa using List.any_eq_false.mp h x hx
      | false => simpa using List.any_eq_false.mp hany x hx
  · rintro ⟨hne, b, hb⟩
    obtain ⟨x, hx⟩ := List.exists_mem_of_ne_nil l hne
    cases b with
    | true =>
      have hall : l.any p = true := List.any_eq_true.mpr ⟨x, hx, hb x hx⟩
      rw [hall, Bool.not_true, List.any_eq_false]
      intro y hy
      simp [hb y hy]
    | false =>
      have hnone : l.any p = false := by
        rw [List.any_eq_false]
        intro y hy
        simp [hb y hy]
      rw [hnone, Bool.not_false, List.any_eq_true]
      exact ⟨x, hx, by simp [hb x hx]⟩

section Negation
variable {H : ScriptHost} (js : CorrectEscape) (m : HttpMethod) {a : MultiHttpEntryAssertion}
  {r : Response H.Num} (selected : List JSString)

private theorem predicateReturns_condition (hvalid : a.validate = none)
    (htype : a.type = .text ∧ (a.subject ≠ .responseHeaders ∨ a.expression = []) ∨
      a.type = .jsonPathValue)
    (hselected : a.type = .jsonPathValue → Selects H a.expression.utf16 selected)
    {c : AssertionCondition} (hc : rendered c = true)
    {result : Except Error (Value H.Num)} :
    PredicateReturns H js.toJSEscape m { a with condition := c } r result ↔
      result = .ok (.bool ((assertedTexts H a r selected).any (satisfies c a.value.utf16))) := by
  obtain ⟨f, hf⟩ := exists_formOf hvalid (htype.imp And.left id)
  have hreturns : PredicateReturns H js.toJSEscape m { a with condition := c } r
      (.ok (.bool ((assertedTexts H a r selected).any (satisfies c a.value.utf16)))) := by
    apply predicateReturns_texts js m selected (a := { a with condition := c }) hf hc hselected
    rintro name rfl
    obtain ⟨htext, hsubject, hexpression, -⟩ := formOf_eq_header hf
    rcases htype with ⟨-, hother | hnil⟩ | hjson
    · exact absurd hsubject hother
    · exact absurd hnil hexpression
    · rw [htext] at hjson
      cases hjson
  constructor
  · intro h
    exact h.unique (a := { a with condition := c }) hf hc hreturns
  · rintro rfl
    exact hreturns

/-- `script.go:228-258`. The negation is written inside the comparison of one text, and the
predicate asks for one text that satisfies it: the two predicates are opposite exactly if there is
a text and all of them agree. -/
theorem notContains_negates_iff (hvalid : a.validate = none)
    (htype : a.type = .text ∧ (a.subject ≠ .responseHeaders ∨ a.expression = []) ∨
      a.type = .jsonPathValue)
    (hselected : a.type = .jsonPathValue → Selects H a.expression.utf16 selected) :
    (∃ b, PredicateReturns H js.toJSEscape m { a with condition := .contains } r
          (.ok (.bool b)) ∧
        PredicateReturns H js.toJSEscape m { a with condition := .notContains } r
          (.ok (.bool !b))) ↔
      assertedTexts H a r selected ≠ [] ∧
        ∃ b, ∀ text ∈ assertedTexts H a r selected, decide (a.value.utf16 <:+: text) = b := by
  rw [← any_not_eq_not_any_iff]
  simp only [predicateReturns_condition js m selected hvalid htype hselected (c := .contains) rfl,
    predicateReturns_condition js m selected hvalid htype hselected (c := .notContains) rfl]
  constructor
  · rintro ⟨b, hcontains, hnot⟩
    simp only [Except.ok.injEq, Value.bool.injEq] at hcontains hnot
    rw [hcontains] at hnot
    exact hnot.symm
  · intro h
    exact ⟨_, rfl, congrArg (fun b ↦ Except.ok (Value.bool b)) h.symm⟩

end Negation

/-- The assertion that a header line contains a text. -/
def linesContain (value : GoString) : MultiHttpEntryAssertion where
  subject := .responseHeaders
  condition := .contains
  value

/-- Both header lines contain `x`. -/
theorem linesContain_negated :
    (assertedTexts natHost (linesContain (.lit "x")) sampleResponse []).length = 2 ∧
    ∃ b, PredicateReturns natHost CorrectEscape.units.toJSEscape .get
        { linesContain (.lit "x") with condition := .contains } sampleResponse (.ok (.bool b)) ∧
      PredicateReturns natHost CorrectEscape.units.toJSEscape .get
        { linesContain (.lit "x") with condition := .notContains } sampleResponse
        (.ok (.bool !b)) :=
  ⟨by decide, (notContains_negates_iff .units .get [] (a := linesContain (.lit "x")) rfl
    (.inl ⟨rfl, .inr rfl⟩) (fun h ↦ by cases h)).mpr ⟨by decide, true, by decide⟩⟩

/-- One header line contains `nginx` and another does not: both predicates are true. -/
theorem linesContain_not_negated :
    (linesContain (.lit "nginx")).validate = none ∧ sampleResponse.headers ≠ [] ∧
      PredicateReturns natHost CorrectEscape.units.toJSEscape .get
        { linesContain (.lit "nginx") with condition := .contains } sampleResponse
        (.ok (.bool true)) ∧
      PredicateReturns natHost CorrectEscape.units.toJSEscape .get
        { linesContain (.lit "nginx") with condition := .notContains } sampleResponse
        (.ok (.bool true)) := by
  have hresult {c : AssertionCondition} (hc : rendered c = true) {b : Bool}
      (hb : (assertedTexts natHost (linesContain (.lit "nginx")) sampleResponse []).any
        (satisfies c (linesContain (.lit "nginx")).value.utf16) = b) :
      PredicateReturns natHost CorrectEscape.units.toJSEscape .get
        { linesContain (.lit "nginx") with condition := c } sampleResponse (.ok (.bool b)) := by
    rw [predicateReturns_condition .units .get [] (a := linesContain (.lit "nginx")) rfl
      (.inl ⟨rfl, .inr rfl⟩) (fun h ↦ by cases h) hc, hb]
  exact ⟨rfl, by decide, hresult rfl (by decide), hresult rfl (by decide)⟩

end SMAgent.Multihttp
