import SMAgent.Multihttp.Confinement

/-!
# Scripts of the same shape

Settings have a shape: how many of everything there is, of which kind, which strings are empty
and where the variables of the strings are. The script without its data depends on the shape, on
which strings end in a variable, and on how many different variables each body has: there is one
statement for each of them, however often it occurs. So scripts of settings of the same shape and
the same ends, whose data is confined, have the same tokens exactly if these numbers are the same.
-/

namespace SMAgent.Multihttp
open SMAgent.Base SMAgent.Base.JavaScript SMAgent.Pb

/-! ### Shapes -/

/-- A text: whether it is empty, and for each variable whether it follows the one before it, or the
beginning, at once. Where the variables begin and end says more. -/
structure TextShape where
  empty : Bool
  gaps : List Bool
  deriving DecidableEq, Repr

/-- The shape of a text. -/
def textShape (s : GoString) : TextShape :=
  ⟨s.isEmpty, (userVariables s).1.map fun loc ↦ loc.1.isEmpty⟩

/-- A body: which fields are empty, and where the variables of the payload are. -/
structure BodyShape where
  contentType : Bool
  contentEncoding : Bool
  payload : TextShape
  deriving DecidableEq, Repr

/-- The shape of a body. -/
def bodyShape (b : HttpRequestBody) : BodyShape :=
  ⟨b.contentType.isEmpty, b.contentEncoding.isEmpty, textShape b.payload⟩

/-- A request. -/
structure RequestShape where
  method : HttpMethod
  url : TextShape
  headers : List TextShape
  queryFields : List (TextShape × TextShape)
  body : Option BodyShape
  deriving DecidableEq, Repr

/-- The shape of a request. -/
def requestShape (r : MultiHttpEntryRequest) : RequestShape :=
  ⟨r.method, textShape r.url, r.headers.map fun h ↦ textShape h.value,
    r.queryFields.map fun f ↦ (textShape f.name, textShape f.value), r.body.map bodyShape⟩

/-- The shape of an assertion: its kind, and whether it has an expression. -/
def assertionShape (a : MultiHttpEntryAssertion) :
    AssertionType × AssertionSubject × AssertionCondition × Bool :=
  (a.type, a.subject, a.condition, a.expression.isEmpty)

/-- The shape of a variable: its kind, and whether it has an attribute. -/
def variableShape (v : MultiHttpEntryVariable) : VariableType × Bool := (v.type, v.attr.isEmpty)

/-- An entry. -/
structure EntryShape where
  request : Option RequestShape
  assertions : List (AssertionType × AssertionSubject × AssertionCondition × Bool)
  vars : List (VariableType × Bool)
  deriving DecidableEq, Repr

/-- The shape of an entry. -/
def entryShape (e : MultiHttpEntry) : EntryShape :=
  ⟨e.request.map requestShape, e.assertions.map assertionShape, e.vars.map variableShape⟩

/-- The shape of settings. -/
def shape (s : MultiHttpSettings) : List EntryShape := s.entries.map entryShape

/-! ### What the shape leaves open -/

/-- No text follows the last variable. -/
def endsInVariable (s : GoString) : Bool := (userVariables s).2.isEmpty

/-- Which of the expanded texts of a request end in a variable: its URL, the values of its headers,
and the names and values of its query fields. -/
def requestEnds (r : MultiHttpEntryRequest) : Bool × List Bool × List (Bool × Bool) :=
  (endsInVariable r.url, r.headers.map fun h ↦ endsInVariable h.value,
    r.queryFields.map fun f ↦ (endsInVariable f.name, endsInVariable f.value))

/-- The ends of the texts of all entries. -/
def ends (s : MultiHttpSettings) : List (Option (Bool × List Bool × List (Bool × Bool))) :=
  s.entries.map fun e ↦ e.request.map requestEnds

/-- For each entry, how many different variables its body has. -/
def bodyVariableCounts (s : MultiHttpSettings) : List Nat :=
  s.entries.map fun e ↦ (e.request.bind MultiHttpEntryRequest.body).elim 0 fun b ↦
    (bodyVariables b.payload).length

/-! ### The script without its data -/

private theorem length_pos_iff_of_isEmpty_eq {s t : GoString} (h : s.isEmpty = t.isEmpty) :
    s.length > 0 ↔ t.length > 0 := by
  cases s <;> cases t <;> simp_all

private theorem length_eq_zero_iff_of_isEmpty_eq {s t : GoString} (h : s.isEmpty = t.isEmpty) :
    s.length = 0 ↔ t.length = 0 := by
  cases s <;> cases t <;> simp_all

private theorem map_pair_eq {α β γ : Type} {f : α → β} {g : α → γ} {l l' : List α}
    (hf : l.map f = l'.map f) (hg : l.map g = l'.map g) :
    l.map (fun a ↦ (f a, g a)) = l'.map fun a ↦ (f a, g a) := by
  induction l generalizing l' with
  | nil => cases l' <;> simp_all
  | cons a l ih =>
    cases l' with
    | nil => cases hf
    | cons a' l' =>
      simp only [List.map_cons, List.cons.injEq] at hf hg ⊢
      exact ⟨Prod.ext hf.1 hg.1, ih hf.2 hg.2⟩

section
variable (js : JSEscape)

/-- What has been written so far agrees but for the data, and in whether a `+` follows. -/
def Agree (ps qs : List Piece) : Prop :=
  blank ps = blank qs ∧ ((text ps).length > 0 ↔ (text qs).length > 0)

private theorem blank_plus {ps qs : List Piece} (h : Agree ps qs) :
    blank (plus ps) = blank (plus qs) := by
  unfold plus
  by_cases hp : (text ps).length > 0
  · rw [if_pos hp, if_pos (h.2.mp hp)]
  · rw [if_neg hp, if_neg (h.2.not.mp hp)]

private theorem text_source_pos {s : String} (hs : (GoString.lit s).length > 0) (ps : List Piece) :
    (text (source s :: ps)).length > 0 := by
  rw [text, List.flatMap_cons, List.length_append]
  exact Nat.add_pos_left hs _

private theorem text_expandVariable_pos (ps : List Piece) (loc : GoString × GoString) :
    (text (expandVariable js ps loc)).length > 0 := by
  have hvars : (text [source "vars['", .data loc.2, source "']"]).length > 0 :=
    text_source_pos (by decide) _
  unfold expandVariable
  rw [text_append, List.length_append]
  omega

private theorem agree_expandVariable {ps qs : List Piece} {loc loc' : GoString × GoString}
    (h : Agree ps qs) (hloc : loc.1.isEmpty = loc'.1.isEmpty) :
    Agree (expandVariable js ps loc) (expandVariable js qs loc') := by
  refine ⟨?_, iff_of_true (text_expandVariable_pos js _ _) (text_expandVariable_pos js _ _)⟩
  unfold expandVariable
  simp only [blank_append, h.1, blank_plus h, length_pos_iff_of_isEmpty_eq hloc]
  split <;> rfl

private theorem agree_foldl {locs locs' : List (GoString × GoString)} {ps qs : List Piece}
    (h : Agree ps qs)
    (hlocs : locs.map (fun loc ↦ loc.1.isEmpty) = locs'.map fun loc ↦ loc.1.isEmpty) :
    Agree (locs.foldl (expandVariable js) ps) (locs'.foldl (expandVariable js) qs) := by
  induction locs generalizing locs' ps qs with
  | nil =>
    cases locs' with
    | nil => exact h
    | cons _ _ => cases hlocs
  | cons loc locs ih =>
    cases locs' with
    | nil => cases hlocs
    | cons loc' locs' =>
      rw [List.map_cons, List.map_cons, List.cons.injEq] at hlocs
      rw [List.foldl_cons, List.foldl_cons]
      exact ih (agree_expandVariable js h hlocs.1) hlocs.2

private theorem blank_performVariableExpansion {s t : GoString} (h : textShape s = textShape t)
    (htail : endsInVariable s = endsInVariable t) :
    blank (performVariableExpansion js s) = blank (performVariableExpansion js t) := by
  obtain ⟨hempty, hgaps⟩ := TextShape.mk.inj h
  have hlocs := agree_foldl js (⟨rfl, Iff.rfl⟩ : Agree [] []) hgaps
  unfold performVariableExpansion
  simp only [length_eq_zero_iff_of_isEmpty_eq hempty, length_pos_iff_of_isEmpty_eq htail]
  split
  · rfl
  · split
    · rw [blank_append, blank_append, blank_append, blank_append, hlocs.1, blank_plus hlocs]
      rfl
    · exact hlocs.1

private theorem blank_buildQueryParams {r r' : MultiHttpEntryRequest}
    (h : r.queryFields.map (fun f ↦ (textShape f.name, textShape f.value)) =
      r'.queryFields.map fun f ↦ (textShape f.name, textShape f.value))
    (hends : r.queryFields.map (fun f ↦ (endsInVariable f.name, endsInVariable f.value)) =
      r'.queryFields.map fun f ↦ (endsInVariable f.name, endsInVariable f.value)) :
    blank ((buildQueryParams js "url" r).flatMap (· ++ [source ";\n\t"])) =
      blank ((buildQueryParams js "url" r').flatMap (· ++ [source ";\n\t"])) := by
  unfold buildQueryParams
  rw [List.flatMap_map, List.flatMap_map]
  refine blank_flatMap_eq (fun f f' hf ↦ ?_) (map_pair_eq h hends)
  obtain ⟨hshapes, htails⟩ := Prod.mk.inj hf
  obtain ⟨hname, hvalue⟩ := Prod.mk.inj hshapes
  obtain ⟨hname', hvalue'⟩ := Prod.mk.inj htails
  simp only [blank_append, blank_performVariableExpansion js hname hname',
    blank_performVariableExpansion js hvalue hvalue']

private theorem blank_buildBody {b b' : Option HttpRequestBody}
    (h : b.map bodyShape = b'.map bodyShape) : blank (buildBody b) = blank (buildBody b') := by
  cases b <;> cases b' <;> try cases h
  · rfl
  · next b b' =>
    obtain ⟨-, -, hpayload⟩ := BodyShape.mk.inj (Option.some.inj h)
    simp only [buildBody, length_eq_zero_iff_of_isEmpty_eq (TextShape.mk.inj hpayload).1]
    split <;> rfl

private theorem blank_buildBodyHeaders {b b' : Option HttpRequestBody}
    (h : b.map bodyShape = b'.map bodyShape) :
    blank (buildBodyHeaders js b).1 = blank (buildBodyHeaders js b').1 ∧
      (buildBodyHeaders js b).2 = (buildBodyHeaders js b').2 := by
  cases b <;> cases b' <;> try cases h
  · exact ⟨rfl, rfl⟩
  · next b b' =>
    obtain ⟨htype, hencoding, -⟩ := BodyShape.mk.inj (Option.some.inj h)
    simp only [buildBodyHeaders, length_pos_iff_of_isEmpty_eq htype,
      length_pos_iff_of_isEmpty_eq hencoding]
    split <;> split <;> exact ⟨rfl, rfl⟩

private theorem blank_buildHeader {header header' : HttpHeader} (comma : List Piece)
    (h : (textShape header.value, endsInVariable header.value) =
      (textShape header'.value, endsInVariable header'.value)) :
    blank (buildHeader js header comma) = blank (buildHeader js header' comma) := by
  unfold buildHeader
  rw [blank_append, blank_append, blank_append, blank_append,
    blank_performVariableExpansion js (Prod.mk.inj h).1 (Prod.mk.inj h).2]
  rfl

private theorem no_headers_iff {r r' : MultiHttpEntryRequest}
    (h : requestShape r = requestShape r') :
    r.headers.length = 0 ∧ r.body = none ↔ r'.headers.length = 0 ∧ r'.body = none := by
  obtain ⟨-, -, hheaders, -, hbody⟩ := RequestShape.mk.inj h
  have hlength : r.headers.length = r'.headers.length := by
    simpa only [List.length_map] using congrArg List.length hheaders
  rw [hlength, ← Option.map_eq_none_iff (f := bodyShape), hbody, Option.map_eq_none_iff]

private theorem blank_buildHeaders {r r' : MultiHttpEntryRequest}
    (h : requestShape r = requestShape r') (hends : requestEnds r = requestEnds r') :
    blank (buildHeaders js r.headers r.body) = blank (buildHeaders js r'.headers r'.body) := by
  obtain ⟨-, -, hshapes, -, hbody⟩ := RequestShape.mk.inj h
  obtain ⟨-, htails, -⟩ := (Prod.mk.inj hends).imp_right Prod.mk.inj
  have hheaders := map_pair_eq hshapes htails
  obtain ⟨hfrom, hcomma⟩ := blank_buildBodyHeaders js hbody
  unfold buildHeaders
  simp only [no_headers_iff h]
  split
  · rfl
  · rw [blank_append, blank_append, blank_append, blank_append, blank_append, blank_append, hfrom]
    congr 2
    cases hl : r.headers with
    | nil =>
      cases hl' : r'.headers with
      | nil => rfl
      | cons _ _ =>
        rw [hl, hl'] at hheaders
        cases hheaders
    | cons first others =>
      cases hl' : r'.headers with
      | nil =>
        rw [hl, hl'] at hheaders
        cases hheaders
      | cons first' others' =>
        rw [hl, hl', List.map_cons, List.map_cons, List.cons.injEq] at hheaders
        dsimp only
        rw [blank_append, blank_append, hcomma, blank_buildHeader js _ hheaders.1,
          blank_flatMap_eq (fun _ _ ↦ blank_buildHeader js _) hheaders.2]

private theorem text_buildHeaders_pos (headers : List HttpHeader) (body : Option HttpRequestBody) :
    (text (buildHeaders js headers body)).length > 0 ↔ ¬ (headers.length = 0 ∧ body = none) := by
  unfold buildHeaders
  split
  · next h => exact iff_of_false (by simp [text]) (not_not.mpr h)
  · next h =>
    exact iff_of_true (text_source_pos (by decide) _) h

private theorem blank_conditionRender (c : AssertionCondition) (subject : String)
    (v v' : GoString) :
    blank (conditionRender js c subject v) = blank (conditionRender js c subject v') := by
  cases c <;> rfl

private theorem blank_buildCheck {a a' : MultiHttpEntryAssertion}
    (h : assertionShape a = assertionShape a') :
    blank (buildCheck js a).1 = blank (buildCheck js a').1 := by
  obtain ⟨type, subject, condition, expression, value⟩ := a
  obtain ⟨type', subject', condition', expression', value'⟩ := a'
  simp only [assertionShape, Prod.mk.injEq] at h
  obtain ⟨rfl, rfl, rfl, hexpr⟩ := h
  have hrender (subject : String) := blank_conditionRender js condition subject value value'
  cases type with
  | text =>
    cases subject with
    | responseHeaders =>
      simp only [buildCheck, textCheck, blank_append, hrender,
        length_eq_zero_iff_of_isEmpty_eq hexpr]
      split <;> rfl
    | unrecognized _ => rfl
    | _ =>
      simp only [buildCheck, textCheck, blank_append, hrender]
      rfl
  | jsonPathValue =>
    simp only [buildCheck, blank_append, hrender]
    rfl
  | jsonPathAssertion => rfl
  | regexAssertion => cases subject <;> rfl
  | unrecognized _ => rfl

private theorem blank_buildChecks {a a' : MultiHttpEntryAssertion} (m : GoString)
    (h : assertionShape a = assertionShape a') :
    blank (buildChecks js "url" m a) = blank (buildChecks js "url" m a') := by
  unfold buildChecks
  dsimp only
  rw [blank_append, blank_append, blank_append, blank_append, blank_buildCheck js h]
  rfl

private theorem blank_buildVars {v v' : MultiHttpEntryVariable}
    (h : variableShape v = variableShape v') :
    blank (buildVars js v) = blank (buildVars js v') := by
  obtain ⟨type, name, expression, attr⟩ := v
  obtain ⟨type', name', expression', attr'⟩ := v'
  simp only [variableShape, Prod.mk.injEq] at h
  obtain ⟨rfl, hattr⟩ := h
  have hnil : attr = [] ↔ attr' = [] := by
    rw [← List.isEmpty_iff, ← List.isEmpty_iff, hattr]
  cases type with
  | cssSelector =>
    simp only [buildVars, hnil]
    split <;> rfl
  | _ => rfl

private theorem blank_beforeBody {r r' : MultiHttpEntryRequest}
    (hr : requestShape r = requestShape r') (hends : requestEnds r = requestEnds r') :
    blank (beforeBody js r) = blank (beforeBody js r') := by
  obtain ⟨-, hurl, -, hquery, hbody⟩ := RequestShape.mk.inj hr
  obtain ⟨hurl', -, hquery'⟩ := (Prod.mk.inj hends).imp_right Prod.mk.inj
  unfold beforeBody
  simp only [blank_append, blank_performVariableExpansion js hurl hurl',
    blank_buildQueryParams js hquery hquery', blank_buildBody hbody]
  rfl

private theorem blank_afterBody (idx : Nat) {e e' : MultiHttpEntry} {r r' : MultiHttpEntryRequest}
    (hr : requestShape r = requestShape r') (hends : requestEnds r = requestEnds r')
    (ha : e.assertions.map assertionShape = e'.assertions.map assertionShape)
    (hv : e.vars.map variableShape = e'.vars.map variableShape) :
    blank (afterBody js idx e r) = blank (afterBody js idx e' r') := by
  have hmethod := (RequestShape.mk.inj hr).1
  have hpos : (text (buildHeaders js r.headers r.body)).length > 0 ↔
      (text (buildHeaders js r'.headers r'.body)).length > 0 := by
    rw [text_buildHeaders_pos, text_buildHeaders_pos, no_headers_iff hr]
  have hassertions := blank_flatMap_eq
    (f := fun a ↦ buildChecks js "url" (methodString r'.method) a ++ [source "\n\t"])
    (fun a a' h ↦ by rw [blank_append, blank_append, blank_buildChecks js _ h]) ha
  have hvars := blank_flatMap_eq (f := fun v ↦ buildVars js v ++ [source "\n\t"])
    (fun v v' h ↦ by rw [blank_append, blank_append, blank_buildVars js h]) hv
  unfold afterBody
  simp only [blank_append, hmethod, hassertions, hvars, hpos]
  split
  · rw [blank_append, blank_append, blank_buildHeaders js hr hends]
    rfl
  · rfl

variable {js} in
private theorem entryScripts_cons {idx : Nat} {e : MultiHttpEntry} {es : List MultiHttpEntry}
    {ps : List Piece} (h : entryScripts js idx (e :: es) = some ps) :
    ∃ r, e.request = some r ∧ ∃ rest, entryScripts js (idx + 1) es = some rest ∧
      ps = entryScript js idx e r ++ rest := by
  obtain ⟨r, hr, h⟩ := Option.bind_eq_some_iff.mp h
  obtain ⟨rest, hrest, h⟩ := Option.bind_eq_some_iff.mp h
  exact ⟨r, hr, rest, hrest, (Option.some.inj h).symm⟩

variable {js} in
private theorem settingsToScript_eq {s : MultiHttpSettings} {ps : List Piece}
    (h : settingsToScript js s = some ps) : ∃ es, entryScripts js 0 s.entries = some es ∧
      ps = preamble.map .code ++ [source (if s.logResponses then "true" else "false"),
        source "\n\tconst vars = \x7b\x7d;\n\n "] ++ es ++ [source "\n\x7d\n"] := by
  obtain ⟨es, hes, h⟩ := Option.bind_eq_some_iff.mp h
  exact ⟨es, hes, (Option.some.inj h).symm⟩

/-! ### Whole scripts -/

/-- Every URL of the settings is harmless. -/
def HarmlessUrls (s : MultiHttpSettings) : Prop :=
  ∀ e ∈ s.entries, ∀ r ∈ e.request, Harmless r.url

instance (s : MultiHttpSettings) : Decidable (HarmlessUrls s) :=
  inferInstanceAs (Decidable (∀ e ∈ s.entries, ∀ r ∈ e.request, Harmless r.url))

/-- What validation says about an entry. -/
def WellFormed (e : MultiHttpEntry) : Prop :=
  (∃ r, e.request = some r) ∧ ∀ a ∈ e.assertions, a.recognized = true

private theorem wellFormed_of_validate {lib : Stdlib} {s : MultiHttpSettings}
    (h : s.validate lib = none) : ∀ e ∈ s.entries, WellFormed e := by
  intro e he
  have hentry := s.validate_entry lib h e he
  unfold MultiHttpEntry.validate at hentry
  split at hentry
  · cases hentry
  · next r hr =>
    rw [firstError_eq_none] at hentry
    have hassertions : e.assertions.findSome? MultiHttpEntryAssertion.validate = none :=
      hentry _ (by simp)
    refine ⟨⟨r, hr⟩, fun a ha ↦ ?_⟩
    have hvalid := List.findSome?_eq_none_iff.mp hassertions a ha
    unfold MultiHttpEntryAssertion.validate at hvalid
    split at hvalid
    · cases hvalid
    · next hrec => exact Bool.not_eq_false _ |>.mp hrec

private theorem readsIf_entryScripts (idx : Nat) {es : List MultiHttpEntry}
    (h : ∀ e ∈ es, WellFormed e) : ∃ ps, entryScripts js idx es = some ps ∧
      ReadsIf (∀ e ∈ es, ∀ r ∈ e.request, Harmless r.url) {} ps {} := by
  induction es generalizing idx with
  | nil => exact ⟨[], rfl, ReadsIf.nil.congr (by simp)⟩
  | cons e es ih =>
    obtain ⟨⟨r, hr⟩, hrec⟩ := h e List.mem_cons_self
    obtain ⟨ps, hps, hreads⟩ := ih (idx + 1) fun e' he' ↦ h e' (List.mem_cons_of_mem _ he')
    refine ⟨entryScript js idx e r ++ ps, by simp [entryScripts, hr, hps],
      ((readsIf_entryScript js idx r hrec).append hreads).congr ?_⟩
    simp [hr]

private theorem read_preamble : ∀ line ∈ preamble, (read {} line).1 = {} := by
  decide +kernel

private theorem reads_front (logResponses : Bool) : Reads {} (preamble.map .code ++
    [source (if logResponses then "true" else "false"),
      source "\n\tconst vars = \x7b\x7d;\n\n "]) {} := by
  have hlines : Reads {} (preamble.map .code) {} := by
    rw [List.map_eq_flatMap]
    exact .flatMap fun line hline ↦ .code (read_preamble line hline) .nil
  refine hlines.prepend ?_
  cases logResponses with
  | true => exact .code rfl (toCode rfl .nil)
  | false => exact .code rfl (toCode rfl .nil)

/-- The data of the script of accepted settings is confined exactly if the URLs are harmless. -/
theorem readsIf_settingsToScript {lib : Stdlib} {s : MultiHttpSettings}
    (h : s.validate lib = none) :
    ∃ ps, settingsToScript js s = some ps ∧ ReadsIf (HarmlessUrls s) {} ps {} := by
  obtain ⟨es, hes, hreads⟩ := readsIf_entryScripts js 0 (wellFormed_of_validate h)
  refine ⟨_, by simp only [settingsToScript, hes, Option.bind_eq_bind, Option.bind_some]; rfl, ?_⟩
  have hend : Reads {} [source "\n\x7d\n"] {} := toCode rfl .nil
  exact (((reads_front s.logResponses).prepend hreads).append hend).congr (and_iff_left trivial)

/-! ### Tokens of an entry -/

-- `body=body.replaceAll('', vars['']);`
private def bodyStatementTokens : List Token :=
  [.punctuator (.lit "="), .word (.lit "body"), .punctuator (.lit "."), .word (.lit "replaceAll"),
    .punctuator (.lit "("), .string (GoString.byte '\''), .punctuator (.lit ","),
    .word (.lit "vars"), .punctuator (.lit "["), .string (GoString.byte '\''),
    .punctuator (.lit "]"), .punctuator (.lit ")"), .punctuator (.lit ";")]

private theorem read_bodyStatements (r : MultiHttpEntryRequest) :
    (read {} (text (bodyStatements r))).2 =
      (List.replicate (r.body.elim 0 fun b ↦ (bodyVariables b.payload).length)
        (.word (.lit "body") :: bodyStatementTokens)).flatten := by
  have hnone : (bodyVariables []).length = 0 := rfl
  unfold bodyStatements interpolateBodyVariables
  cases r.body with
  | none => rfl
  | some b =>
    dsimp only [Option.elim_some]
    split
    · next hempty =>
      rw [List.length_eq_zero_iff.mp hempty, hnone]
      rfl
    · rw [List.flatMap_map]
      have hnames : ∀ name ∈ bodyVariables b.payload, ∀ c ∈ name, isNameByte c = true :=
        fun name hname ↦ bodyVariables_name hname
      -- one statement for each name, each read from code to code
      generalize bodyVariables b.payload = names at hnames ⊢
      induction names with
      | nil => rfl
      | cons name names ih =>
        obtain ⟨hname, hnames⟩ := List.forall_mem_cons.mp hnames
        have hreads := reads_bodyStatement hname
        rw [List.flatMap_cons, hreads.read_append trivial, ih hnames, List.length_cons,
          List.replicate_succ, List.flatten_cons]
        congr 1
        have hempty : ∀ c ∈ ([] : GoString), isNameByte c = true := by simp
        have hblank := hreads.read_eq_of_blank_eq trivial (reads_bodyStatement hempty) trivial rfl
        rw [hblank]
        decide +kernel

private theorem exists_read_afterBody (idx : Nat) (e : MultiHttpEntry) (r : MultiHttpEntryRequest) :
    ∃ ts, (read {} (text (afterBody js idx e r))).2 = .word (.lit "response") :: ts := by
  have hopen : (read {} (.lit "\n\tresponse = http.request('")).2 =
      .word (.lit "response") :: [.punctuator (.lit "="), .word (.lit "http"),
        .punctuator (.lit "."), .word (.lit "request"), .punctuator (.lit "(")] := by
    decide +kernel
  obtain ⟨rest, hrest⟩ : ∃ rest, afterBody js idx e r =
      source "\n\tresponse = http.request('" :: rest := by
    unfold afterBody
    simp only [List.cons_append]
    exact ⟨_, rfl⟩
  have htext : text (source "\n\tresponse = http.request('" :: rest) =
      .lit "\n\tresponse = http.request('" ++ text rest := rfl
  rw [hrest, htext, read_append, hopen]
  exact ⟨_, rfl⟩

-- The first token of what follows tells how often a phrase was repeated.
private theorem replicate_append_inj {α : Type} {x y : α} (hne : x ≠ y) {xs ys ys' : List α}
    {k k' : Nat} :
    (List.replicate k (x :: xs)).flatten ++ y :: ys =
      (List.replicate k' (x :: xs)).flatten ++ y :: ys' ↔ k = k' ∧ ys = ys' := by
  induction k generalizing k' with
  | zero =>
    cases k' with
    | zero => simp
    | succ k' => simp [List.replicate_succ, hne.symm]
  | succ k ih =>
    cases k' with
    | zero => simp [List.replicate_succ, hne]
    | succ k' => simp [List.replicate_succ, List.append_assoc, ih]

private theorem read_entryScripts_iff {idx : Nat} {es es' : List MultiHttpEntry}
    {ps ps' tail : List Piece} (hshape : es.map entryShape = es'.map entryShape)
    (hends : ends ⟨es, false⟩ = ends ⟨es', false⟩)
    (hwf : ∀ e ∈ es, WellFormed e) (hwf' : ∀ e ∈ es', WellFormed e)
    (hurls : ∀ e ∈ es, ∀ r ∈ e.request, Harmless r.url)
    (hurls' : ∀ e ∈ es', ∀ r ∈ e.request, Harmless r.url)
    (hps : entryScripts js idx es = some ps) (hps' : entryScripts js idx es' = some ps') :
    (read {} (text (ps ++ tail))).2 = (read {} (text (ps' ++ tail))).2 ↔
      bodyVariableCounts ⟨es, false⟩ = bodyVariableCounts ⟨es', false⟩ := by
  induction es generalizing idx es' ps ps' with
  | nil =>
    cases es' with
    | nil =>
      cases hps
      cases hps'
      exact iff_of_true rfl rfl
    | cons _ _ => cases hshape
  | cons e es ih =>
    cases es' with
    | nil => cases hshape
    | cons e' es' =>
      rw [List.map_cons, List.map_cons, List.cons.injEq] at hshape
      obtain ⟨hrequest, hassertions, hvars⟩ := EntryShape.mk.inj hshape.1
      obtain ⟨r, hr, rest, hrest, rfl⟩ := entryScripts_cons hps
      obtain ⟨r', hr', rest', hrest', rfl⟩ := entryScripts_cons hps'
      rw [hr, hr', Option.map_some, Option.map_some, Option.some.injEq] at hrequest
      simp only [ends, List.map_cons, List.cons.injEq, hr, hr', Option.map_some,
        Option.some.injEq] at hends
      obtain ⟨⟨-, hrec⟩, hwf⟩ := List.forall_mem_cons.mp hwf
      obtain ⟨⟨-, hrec'⟩, hwf'⟩ := List.forall_mem_cons.mp hwf'
      obtain ⟨hurl, hurls⟩ := List.forall_mem_cons.mp hurls
      obtain ⟨hurl', hurls'⟩ := List.forall_mem_cons.mp hurls'
      obtain ⟨hdouble, hsingle⟩ := hurl r hr
      obtain ⟨hdouble', hsingle'⟩ := hurl' r' hr'
      have hbefore := readsIf_beforeBody js r
      have hbefore' := readsIf_beforeBody js r'
      have hafter := readsIf_afterBody js idx r hrec
      have hafter' := readsIf_afterBody js idx r' hrec'
      have hfront := hbefore.read_eq_of_blank_eq ⟨hdouble, hdouble, trivial⟩ hbefore'
        ⟨hdouble', hdouble', trivial⟩ (blank_beforeBody js hrequest hends.1)
      have hback := hafter.read_eq_of_blank_eq ⟨hsingle, hdouble, hdouble, trivial⟩ hafter'
        ⟨hsingle', hdouble', hdouble', trivial⟩
        (blank_afterBody js idx hrequest hends.1 hassertions hvars)
      obtain ⟨ts, hts⟩ := exists_read_afterBody js idx e' r'
      have hword : Token.word (.lit "body") ≠ .word (.lit "response") := by decide
      rw [entryScript, entryScript]
      simp only [List.append_assoc]
      rw [hbefore.read_append ⟨hdouble, hdouble, trivial⟩,
        hbefore'.read_append ⟨hdouble', hdouble', trivial⟩, hfront, List.append_right_inj,
        (reads_bodyStatements r).read_append trivial, (reads_bodyStatements r').read_append trivial,
        read_bodyStatements, read_bodyStatements,
        hafter.read_append ⟨hsingle, hdouble, hdouble, trivial⟩,
        hafter'.read_append ⟨hsingle', hdouble', hdouble', trivial⟩, hback, hts,
        List.cons_append, List.cons_append, replicate_append_inj hword, List.append_right_inj,
        ih hshape.2 hends.2 hwf hwf' hurls hurls' hrest hrest']
      simp only [bodyVariableCounts, List.map_cons, hr, hr', Option.bind_some, List.cons.injEq]

/-- User data of two settings cannot escape: all of it is inside string literals, and the scripts
have the same tokens. -/
def Unescapable (s s' : MultiHttpSettings) : Prop :=
  ∃ ps ps', settingsToScript js s = some ps ∧ settingsToScript js s' = some ps' ∧
    Confined {} [] ps ∧ Confined {} [] ps' ∧ tokens (text ps) = tokens (text ps')

end

/-! ### An escape -/

/-- A hexadecimal digit. -/
def hexDigit (n : Nat) : UInt8 := (GoString.lit "0123456789ABCDEF").getD n 0x30

/-- A byte as an escape. -/
def hexByte (b : UInt8) : GoString :=
  .lit "\\x" ++ [hexDigit (b.toNat / 16), hexDigit (b.toNat % 16)]

private theorem literal_hexByte {quote : UInt8}
    (hquote : quote = GoString.byte '"' ∨ quote = GoString.byte '\'') (b : UInt8) :
    literal quote .normal (hexByte b) = some .normal := by
  have hopen : literal quote .normal (.lit "\\x") = some (.hex 2) := by
    rcases hquote with rfl | rfl <;> rfl
  have hdigit : ∀ n < 16, (hexValue (hexDigit n)).isSome = true := by decide
  have hlt := b.toNat_lt
  obtain ⟨high, hhigh⟩ := Option.isSome_iff_exists.mp (hdigit (b.toNat / 16) (by omega))
  obtain ⟨low, hlow⟩ := Option.isSome_iff_exists.mp (hdigit (b.toNat % 16) (by omega))
  rw [hexByte, literal_append, hopen, Option.bind_some]
  simp [literal, literalStep, hhigh, hlow]

/-- The escape that writes every byte in hexadecimal. -/
def hexEscape : JSEscape where
  escape s := s.flatMap hexByte
  content s quote hquote := by
    induction s with
    | nil => rfl
    | cons b s ih =>
      rw [List.flatMap_cons, literal_append, literal_hexByte hquote, Option.bind_some]
      exact ih

/-- Settings with one request and nothing but its URL. -/
def onlyUrl (url : GoString) : MultiHttpSettings := { entries := [{ request := some { url } }] }

/-- The front of the script, the same for all settings that do not log responses. -/
def front : List Piece := preamble.map .code ++
  [source "false", source "\n\tconst vars = \x7b\x7d;\n\n "]

/-- The first statement of an entry, and the code up to the URL's own expression. -/
def opening (url : GoString) : List Piece :=
  [source "\n\tconsole.log(\"Starting request to ", .data url,
    source "...\");\n\ttry \x7b\n\t\turl = new URL("]

private theorem settingsToScript_onlyUrl (js : JSEscape) (url : GoString) :
    ∃ rest, settingsToScript js (onlyUrl url) = some (front ++ (opening url ++ rest)) := by
  obtain ⟨rest, hrest⟩ : ∃ rest, entryScript js 0 { request := some { url } } { url } =
      opening url ++ rest := by
    unfold entryScript beforeBody
    simp only [List.append_assoc]
    exact ⟨_, rfl⟩
  refine ⟨rest ++ [source "\n\x7d\n"], ?_⟩
  rw [← List.append_assoc (opening url), ← hrest, ← List.append_assoc front]
  simp only [settingsToScript, entryScripts, onlyUrl, Option.bind_eq_bind, Option.bind_some,
    Option.pure_def, List.append_nil]
  rfl

private theorem opening_prefix_tokens {url : GoString} {rest : List Piece} {ts : List Token}
    (h : tokens (text (front ++ (opening url ++ rest))) = some ts) :
    (read {} (text front)).2 ++ (read {} (text (opening url))).2 <+: ts := by
  have hfront : (read {} (text front)).1 = {} := (reads_front false).read_eq trivial
  have hprefix := read_prefix_tokens h
  rw [text_append, text_append, read_append, read_append, hfront] at hprefix
  exact ((List.prefix_append_right_inj _).mpr (List.prefix_append _ _)).trans hprefix

/-- A URL that ends the literal and the call, calls `fail` and comments out what is left. -/
def escapingUrl : GoString := .lit "$\x7bu\x7d\");fail();//"

/-- A URL of the same shape. -/
def harmlessUrl : GoString := .lit "$\x7bu\x7dx"

/-- Settings with one request, its URL and a body. -/
def urlAndBody (url payload : GoString) : MultiHttpSettings :=
  { entries := [{ request := some { url, body := some { contentType := .lit "a/b", payload } } }] }

private theorem opening_tokens_ne :
    (read {} (text (opening escapingUrl))).2.take 8 ≠
      (read {} (text (opening harmlessUrl))).2.take 8 := by
  decide +kernel

end SMAgent.Multihttp
