import Mathlib.Data.List.TakeWhile
import SMAgent.Multihttp.Script
import SMAgent.Pb.Validate

/-!
# User data in the script of a multi-HTTP check

The builders of `script.go` put what they take from the settings between quotes, escaped or
encoded, so it never leaves its string literal. The template itself does not: it writes
`.Request.Url` as it is, four times between double quotes and once between single quotes, and
a URL that has `${` in it is not even parsed by `Validate`. The script keeps its tokens exactly
if every URL happens to be the content of a literal of either kind.
-/

namespace SMAgent.Multihttp
open SMAgent.Base SMAgent.Base.JavaScript SMAgent.Pb
open GoString (byte)

/-! ### Reading what the builders write -/

/-- Inside a literal in single quotes. -/
abbrev inSingle : Reader := ⟨.string (byte '\'') .normal, []⟩

/-- Inside a literal in double quotes. -/
abbrev inDouble : Reader := ⟨.string (byte '"') .normal, []⟩

section
variable {P : Prop} {r r' : Reader} {ps : List Piece} {s : String}

/-- Source that ends in code. -/
theorem toCode (hc : (read r (.lit s)).1 = {}) (h : ReadsIf P {} ps r') :
    ReadsIf P r (source s :: ps) r' := .code hc h

private theorem toSingle (hc : (read r (.lit s)).1 = inSingle) (h : ReadsIf P inSingle ps r') :
    ReadsIf P r (source s :: ps) r' := .code hc h

private theorem toDouble (hc : (read r (.lit s)).1 = inDouble) (h : ReadsIf P inDouble ps r') :
    ReadsIf P r (source s :: ps) r' := .code hc h

variable (js : JSEscape)

private theorem escapedSingle {x : GoString} (h : ReadsIf P inSingle ps r') :
    ReadsIf P inSingle (.data (js.escape x) :: ps) r' := .data (js.content x _ (.inr rfl)) h

private theorem escapedDouble {x : GoString} (h : ReadsIf P inDouble ps r') :
    ReadsIf P inDouble (.data (js.escape x) :: ps) r' := .data (js.content x _ (.inl rfl)) h

private theorem codeInside {quote : UInt8} {c : GoString}
    (hc : literal quote .normal c = some .normal)
    (h : ReadsIf P ⟨.string quote .normal, []⟩ ps r') :
    ReadsIf P ⟨.string quote .normal, []⟩ (.code c :: ps) r' :=
  .code (by rw [read_literal hc]) h

end

/-! ### Variables -/

/-- Bytes of a name stand for themselves in a literal. -/
theorem isNameByte_plain : ∀ b, isNameByte b = true → b ≠ byte '\'' ∧
    b ≠ byte '\n' ∧ b ≠ byte '\r' ∧ b ≠ byte '\\' := by
  intro b h
  refine ⟨?_, ?_, ?_, ?_⟩ <;>
  · rintro rfl
    exact absurd h (by decide)

private theorem literal_name {name : GoString} (h : ∀ b ∈ name, isNameByte b = true) :
    literal (byte '\'') .normal name = some .normal :=
  literal_of_forall fun b hb ↦ isNameByte_plain b (h b hb)

private theorem matchVariable_name {s name after : GoString}
    (h : matchVariable s = some (name, after)) : ∀ b ∈ name, isNameByte b = true := by
  unfold matchVariable at h
  split at h
  · split at h
    · split at h
      · next first tail close rest hname _ =>
        split at h
        · cases h
          intro b hb
          rw [← hname] at hb
          exact List.mem_takeWhile_imp hb
        · cases h
      · cases h
    · cases h
  · cases h

private theorem findVariables_name (fuel : Nat) (before s : GoString) :
    ∀ loc ∈ (findVariables fuel before s).1, ∀ b ∈ loc.2, isNameByte b = true := by
  induction fuel generalizing before s with
  | zero => exact fun _ h ↦ absurd h List.not_mem_nil
  | succ fuel ih =>
    intro loc hloc
    unfold findVariables at hloc
    split at hloc
    · next name after hmatch =>
      rcases List.mem_cons.mp hloc with rfl | hloc
      · exact matchVariable_name hmatch
      · exact ih _ _ loc hloc
    · split at hloc
      · exact absurd hloc List.not_mem_nil
      · exact ih _ _ loc hloc

section
variable (js : JSEscape)

/-- After a `+` that may go on. -/
abbrev afterPlus : Reader := ⟨.code (.lit "+"), []⟩

private theorem reads_quoted {r : Reader} (hr : r = {} ∨ r = afterPlus) (s : GoString) :
    Reads r (quoted js s) {} := by
  have hopen : (read r (.lit "'")).1 = inSingle := by
    rcases hr with rfl | rfl <;> rfl
  exact toSingle hopen (escapedSingle js (toCode rfl .nil))

private theorem reads_plus (s : List Piece) : ∃ r, (r = {} ∨ r = afterPlus) ∧ Reads {}
    (plus s) r := by
  unfold plus
  split
  · exact ⟨afterPlus, .inr rfl, .code rfl .nil⟩
  · exact ⟨{}, .inl rfl, .nil⟩

private theorem reads_expandVariable {s : List Piece} {loc : GoString × GoString}
    (hs : Reads {} s {}) (hname : ∀ b ∈ loc.2, isNameByte b = true) :
    Reads {} (expandVariable js s loc) {} := by
  have hvars {r : Reader} (hr : r = {} ∨ r = afterPlus) :
      Reads r [source "vars['", .data loc.2, source "']"] {} := by
    have hopen : (read r (.lit "vars['")).1 = inSingle := by
      rcases hr with rfl | rfl <;> rfl
    exact toSingle hopen (.data (literal_name hname) (toCode rfl .nil))
  obtain ⟨r, hr, hplus⟩ := reads_plus s
  unfold expandVariable
  split
  · have hpre : Reads r (quoted js loc.1 ++ [source "+"]) afterPlus :=
      (reads_quoted js hr loc.1).prepend (.code rfl .nil)
    exact ((hs.prepend hplus).prepend hpre).prepend (hvars (.inr rfl))
  · exact ((hs.prepend hplus).prepend .nil).prepend (hvars hr)

private theorem reads_foldl {locs : List (GoString × GoString)} {s : List Piece}
    (hs : Reads {} s {}) (hnames : ∀ loc ∈ locs, ∀ b ∈ loc.2, isNameByte b = true) :
    Reads {} (locs.foldl (expandVariable js) s) {} := by
  induction locs generalizing s with
  | nil => exact hs
  | cons loc locs ih =>
    exact ih (reads_expandVariable js hs (hnames loc List.mem_cons_self))
      (List.forall_mem_cons.mp hnames).2

private theorem reads_performVariableExpansion (s : GoString) :
    Reads {} (performVariableExpansion js s) {} := by
  unfold performVariableExpansion
  split
  · exact toCode rfl .nil
  · have hlocs := reads_foldl js .nil (findVariables_name s.length [] s)
    dsimp only
    split
    · obtain ⟨r, hr, hplus⟩ := reads_plus ((userVariables s).1.foldl (expandVariable js) [])
      exact (hlocs.prepend hplus).prepend (reads_quoted js hr _)
    · exact hlocs

private theorem reads_buildQueryParams (request : MultiHttpEntryRequest) :
    Reads {} ((buildQueryParams js "url" request).flatMap (· ++ [source ";\n\t"])) {} := by
  refine .flatMap fun q hq ↦ ?_
  obtain ⟨field, -, rfl⟩ := List.mem_map.mp hq
  have hopen : Reads {} [source "url", source ".searchParams.append("] {} :=
    .code rfl (toCode rfl .nil)
  have hname := hopen.prepend (reads_performVariableExpansion js field.name)
  have hcomma := hname.prepend (toCode (s := ", ") rfl .nil)
  have hvalue := hcomma.prepend (reads_performVariableExpansion js field.value)
  exact (hvalue.prepend (toCode rfl .nil)).prepend
    (toCode rfl .nil)

/-! ### Bodies and headers -/

/-- A digit of base64 is harmless in a literal. -/
theorem base64Digit_plain (n : Nat) : base64Digit n ≠ byte '"' ∧
    base64Digit n ≠ byte '\n' ∧ base64Digit n ≠ byte '\r' ∧
    base64Digit n ≠ byte '\\' := by
  have hall : ∀ i < 64, base64Alphabet.getD i 0x41 ≠ byte '"' ∧
      base64Alphabet.getD i 0x41 ≠ byte '\n' ∧
      base64Alphabet.getD i 0x41 ≠ byte '\r' ∧
      base64Alphabet.getD i 0x41 ≠ byte '\\' := by
    decide +kernel
  exact hall (n % 64) (Nat.mod_lt n (by decide))

/-- Base64 has only its digits. -/
theorem mem_base64Encode {s : GoString} {b : UInt8} (h : b ∈ base64Encode s) :
    ∃ n, b = base64Digit n := by
  fun_induction base64Encode s with
  | case1 x y z rest n ih =>
    simp only [List.mem_cons] at h
    rcases h with h | h | h | h | h
    exacts [⟨_, h⟩, ⟨_, h⟩, ⟨_, h⟩, ⟨_, h⟩, ih h]
  | case2 x y n =>
    simp only [List.mem_cons, List.not_mem_nil, or_false] at h
    rcases h with h | h | h
    exacts [⟨_, h⟩, ⟨_, h⟩, ⟨_, h⟩]
  | case3 x =>
    simp only [List.mem_cons, List.not_mem_nil, or_false] at h
    rcases h with h | h
    exacts [⟨_, h⟩, ⟨_, h⟩]
  | case4 => exact absurd h List.not_mem_nil

/-- Base64 is a safe content. -/
theorem literal_base64Encode (s : GoString) :
    literal (byte '"') .normal (base64Encode s) = some .normal :=
  literal_of_forall fun b hb ↦ by
    obtain ⟨n, rfl⟩ := mem_base64Encode hb
    exact base64Digit_plain n

private theorem reads_buildBody (body : Option HttpRequestBody) :
    Reads {} (buildBody body ++ [source ";"]) {} := by
  unfold buildBody
  split
  · exact .code rfl (toCode rfl .nil)
  · split
    · exact toCode rfl (toCode rfl .nil)
    · exact toDouble rfl (.data (literal_base64Encode _)
        (toCode rfl (toCode rfl .nil)))

/-- The variables of a body have names. -/
theorem bodyVariables_name {payload name : GoString} (h : name ∈ bodyVariables payload) :
    ∀ b ∈ name, isNameByte b = true := by
  rw [bodyVariables, List.mem_eraseDups] at h
  obtain ⟨loc, hloc, rfl⟩ := List.mem_map.mp h
  exact findVariables_name _ _ _ loc hloc

/-- A placeholder is a safe content. -/
theorem literal_placeholder {name : GoString} (h : ∀ b ∈ name, isNameByte b = true) :
    literal (byte '\'') .normal (.lit "$\x7b" ++ name ++ .lit "\x7d") =
      some .normal := by
  have hopen : literal (byte '\'') .normal (.lit "$\x7b") = some .normal := rfl
  have hclose : literal (byte '\'') .normal (.lit "\x7d") = some .normal := rfl
  rw [literal_append, literal_append, hopen, Option.bind_some, literal_name h, Option.bind_some,
    hclose]

/-- The statement for a variable of a body. -/
theorem reads_bodyStatement {name : GoString} (h : ∀ b ∈ name, isNameByte b = true) :
    Reads {} (replaceVariable "body" name ++ [source ";\n\t"]) {} :=
  .code rfl (.code rfl (.code rfl (toSingle rfl (.data (literal_placeholder h) (toSingle rfl
    (.data (literal_name h) (toCode rfl (toCode rfl .nil))))))))

/-- The variable `comma`. -/
def IsComma (comma : List Piece) : Prop := comma = [] ∨ comma = [source ","]

private theorem reads_comma {comma : List Piece} (h : IsComma comma) : Reads {} comma {} := by
  rcases h with rfl | rfl
  · exact .nil
  · exact toCode rfl .nil

private theorem reads_contentHeader {k : String} {comma : List Piece} (value : GoString)
    (hkey : (read {} (.lit k)).1 = inDouble) (hcomma : IsComma comma) :
    Reads {} (contentHeader js k value comma) {} :=
  (reads_comma hcomma).prepend
    (toDouble hkey (escapedDouble js (toCode rfl .nil)))

private theorem reads_buildBodyHeaders (body : Option HttpRequestBody) :
    Reads {} (buildBodyHeaders js body).1 {} ∧ IsComma (buildBodyHeaders js body).2 := by
  have htype (value : GoString) :=
    reads_contentHeader js (k := "'Content-Type':\"") value rfl (.inl rfl)
  have hencoding (value : GoString) {comma : List Piece} (hcomma : IsComma comma) :=
    reads_contentHeader js (k := "'Content-Encoding':\"") value rfl hcomma
  unfold buildBodyHeaders
  cases body with
  | none => exact ⟨.nil, .inl rfl⟩
  | some body =>
    dsimp only
    split <;> split
    · exact ⟨(htype _).prepend (hencoding _ (.inr rfl)), .inr rfl⟩
    · exact ⟨ReadsIf.nil.prepend (hencoding _ (.inl rfl)), .inr rfl⟩
    · exact ⟨htype _, .inr rfl⟩
    · exact ⟨.nil, .inl rfl⟩

private theorem reads_buildHeader {comma : List Piece} (header : HttpHeader)
    (hcomma : IsComma comma) : Reads {} (buildHeader js header comma) {} :=
  ((reads_comma hcomma).prepend (toDouble rfl
    (escapedDouble js (toCode rfl .nil)))).prepend
    (reads_performVariableExpansion js header.value)

private theorem reads_buildHeaders (headers : List HttpHeader) (body : Option HttpRequestBody) :
    Reads {} (buildHeaders js headers body) {} := by
  obtain ⟨hbody, hcomma⟩ := reads_buildBodyHeaders js body
  have hopen : Reads {} [source "\x7b"] {} := toCode rfl .nil
  have hclose : Reads {} [source "\x7d"] {} := toCode rfl .nil
  unfold buildHeaders
  split
  · exact .nil
  · cases headers with
    | nil => exact ((hopen.prepend hbody).prepend .nil).prepend hclose
    | cons first others =>
      have hothers := ReadsIf.flatMap (l := others) fun h _ ↦
        reads_buildHeader js h (.inr rfl)
      exact ((hopen.prepend hbody).prepend
        ((reads_buildHeader js first hcomma).prepend hothers)).prepend hclose

/-! ### Assertions -/

/-- The expressions that conditions are about. -/
def subjects : List String := ["response.body", "value", "values", "response.status.toString()"]

/-- What comes between a subject and the quoted value. -/
def comparisons : List String := [".includes(\"", ".startsWith(\"", ".endsWith(\"", " === \""]

/-- After a `!` that may go on. -/
abbrev afterNot : Reader := ⟨.code (.lit "!"), []⟩

private theorem read_comparison : ∀ subject ∈ subjects, ∀ m ∈ comparisons, ∀ r ∈ [{}, afterNot],
    (read (read r (.lit subject)).1 (.lit m)).1 = inDouble := by
  decide +kernel

private theorem reads_conditionName (c : AssertionCondition) (subject value : GoString) :
    Reads inDouble (conditionName js c subject value) inDouble := by
  have hverb : (read inDouble (.lit (conditionVerb c))).1 = inDouble := by
    cases c <;> rfl
  exact escapedDouble js (toDouble rfl (toDouble hverb
    (toDouble rfl (escapedDouble js (toDouble rfl .nil)))))

private theorem reads_callMethod {subject m : String} {r : Reader} (value : GoString)
    (hs : subject ∈ subjects) (hm : m ∈ comparisons) (hr : r ∈ [{}, afterNot]) :
    Reads r (callMethod js subject m value) {} :=
  .code rfl (toDouble (read_comparison subject hs m hm r hr)
    (escapedDouble js (toCode rfl .nil)))

private theorem reads_conditionRender {subject : String} (c : AssertionCondition) (value : GoString)
    (hs : subject ∈ subjects) : Reads {} (conditionRender js c subject value) {} := by
  have hcall {m : String} (hm : m ∈ comparisons) :=
    reads_callMethod js value hs hm List.mem_cons_self
  cases c with
  | notContains =>
    exact .code rfl
      (reads_callMethod js value hs (by decide) (List.mem_cons_of_mem _ List.mem_cons_self))
  | contains => exact hcall (by decide)
  | defaultCondition => exact hcall (by decide)
  | equals =>
    exact .code rfl (toDouble (read_comparison subject hs _ (by decide) _ List.mem_cons_self)
      (escapedDouble js (toCode rfl .nil)))
  | startsWith => exact hcall (by decide)
  | endsWith => exact hcall (by decide)
  | typeOf => exact .nil
  | unrecognized _ => exact .nil

private theorem read_headerLines : (read {} headerLines.bytes).1 = {} := by
  decide +kernel

private theorem reads_textCheck {a : MultiHttpEntryAssertion}
    (h : ∀ v, a.subject ≠ .unrecognized v) : Reads inDouble (textCheck js a).1 {} := by
  have harrow : Reads inDouble [source "\": response => "] {} := toCode rfl .nil
  have hplain {subject : String} (hs : subject ∈ subjects) (name : GoString) :=
    ((reads_conditionName js a.condition name a.value).prepend harrow).prepend
      (reads_conditionRender js a.condition a.value hs)
  unfold textCheck
  split
  · exact hplain (by decide) _
  · exact hplain (by decide) _
  · have hname := (reads_conditionName js a.condition (.lit "header") a.value).prepend
      (toCode (s := "\": response => \x7b ") rfl .nil)
    have hfind : Reads {} (if a.expression.length = 0 then
        [headerLines, source "return !!values.find(value => "]
      else [source "return assertHeader(response.headers, \"", .data (js.escape a.expression),
        source "\", ", source "v => "]) {} := by
      split
      · exact toCode read_headerLines (toCode rfl .nil)
      · exact toDouble rfl (escapedDouble js
          (toCode rfl (toCode rfl .nil)))
    exact ((hname.prepend hfind).prepend
      (reads_conditionRender js a.condition a.value (by decide))).prepend
        (toCode rfl (toCode rfl .nil))
  · exact hplain (by decide) _
  · next v hv => exact absurd hv (h v)

private theorem reads_regexCheck {name descriptor : String} {test : List Piece}
    (expression : GoString)
    (hname : (read inDouble (.lit name)).1 = inDouble) (htest : Reads {} test {}) :
    Reads inDouble (regexCheck js name descriptor test expression).1 {} :=
  (toDouble hname (escapedDouble js (toDouble rfl (escapedDouble js
    (toCode rfl .nil))))).prepend htest

private theorem ne_unrecognized {a : MultiHttpEntryAssertion} (h : a.recognized = true)
    (v : Int32) : a.type ≠ .unrecognized v ∧ a.subject ≠ .unrecognized v := by
  constructor <;>
  · intro hv
    unfold MultiHttpEntryAssertion.recognized at h
    rw [hv] at h
    split at h <;> simp_all

private theorem reads_buildCheck {a : MultiHttpEntryAssertion} (h : a.recognized = true) :
    Reads inDouble ((buildCheck js a).1 ++ [source " \x7d"]) {} := by
  have hbrace : Reads {} [source " \x7d"] {} := toCode rfl .nil
  unfold buildCheck
  split
  · exact (reads_textCheck js fun v ↦ (ne_unrecognized h v).2).prepend hbrace
  · have hquery := (reads_conditionName js a.condition a.expression a.value).prepend
      (toDouble (s := "\": response => jsonpath.query(response.json(), \"") (by decide +kernel)
        (escapedDouble js (x := a.expression)
          (toCode (s := "\").some(values => ") rfl .nil)))
    exact ((hquery.prepend (reads_conditionRender js a.condition a.value (by decide))).prepend
      (toCode rfl .nil)).prepend hbrace
  · exact escapedDouble js (toDouble (by decide +kernel) (escapedDouble js
      (.code rfl (toCode rfl .nil))))
  · split
    · exact (reads_regexCheck js _ rfl
        (toCode rfl .nil)).prepend hbrace
    · exact (reads_regexCheck js _ rfl
        (toCode rfl .nil)).prepend hbrace
    · exact (reads_regexCheck js _ rfl
        (toCode read_headerLines (toCode (by decide +kernel) .nil))).prepend hbrace
    · exact (reads_regexCheck js _ rfl
        (toCode rfl .nil)).prepend hbrace
    · next v hv => exact absurd hv (ne_unrecognized h v).2
  · next v hv => exact absurd hv (ne_unrecognized h v).1

private theorem literal_formatInt {quote : UInt8} (hquote : quote = byte '"' ∨
    quote = byte '\'') (n : Int) :
    literal quote .normal (.formatInt n) = some .normal := by
  have hplain {b : UInt8} (hb : 45 ≤ b.toNat ∧ b.toNat ≤ 57) : b ≠ quote ∧
      b ≠ byte '\n' ∧ b ≠ byte '\r' ∧ b ≠ byte '\\' := by
    have hne {d : UInt8} (hd : d.toNat < 45 ∨ 57 < d.toNat) : b ≠ d := by
      intro heq
      rw [heq] at hb
      omega
    refine ⟨?_, hne (by decide), hne (by decide), hne (by decide)⟩
    rcases hquote with rfl | rfl
    · exact hne (by decide)
    · exact hne (by decide)
  refine literal_of_forall fun b hb ↦ hplain ?_
  rcases GoString.mem_formatInt hb with rfl | ⟨hlow, hhigh⟩
  · decide
  · omega

/-- The name of a method is a safe content. -/
theorem literal_methodString {quote : UInt8} (hquote : quote = byte '"' ∨
    quote = byte '\'') (m : HttpMethod) :
    literal quote .normal (methodString m) = some .normal := by
  cases m with
  | unrecognized v => exact literal_formatInt hquote v.toInt
  | _ => rcases hquote with rfl | rfl <;> rfl

private theorem reads_buildChecks {a : MultiHttpEntryAssertion} (m : HttpMethod)
    (h : a.recognized = true) : Reads {} (buildChecks js "url" (methodString m) a) {} := by
  unfold buildChecks
  simp only [List.cons_append, List.nil_append]
  refine toDouble rfl (.prepend_snoc (reads_buildCheck js h) ?_)
  refine toCode rfl (toCode rfl (toCode rfl
    (.code rfl (toCode rfl (toDouble rfl ?_)))))
  refine codeInside (literal_methodString (.inl rfl) m) (toCode rfl
    (toCode rfl (toCode rfl (toCode rfl ?_))))
  refine toCode rfl (toCode rfl (toDouble rfl
    (escapedDouble js (toCode rfl ?_))))
  exact toCode rfl (toCode rfl (toCode rfl
    (toCode rfl (toCode rfl .nil))))

private theorem reads_buildVars (v : MultiHttpEntryVariable) : Reads {} (buildVars js v) {} := by
  have hname : Reads {} [source "vars['", .data (js.escape v.name), source "'] = "] {} :=
    toSingle rfl (escapedSingle js (toCode rfl .nil))
  have hend : Reads {} [source ";"] {} := toCode rfl .nil
  unfold buildVars
  cases v.type with
  | jsonPath =>
    have hquery : Reads {} [source "jsonpath.query(response.json(), '",
        .data (js.escape v.expression), source "')[0]"] {} :=
      toSingle rfl (escapedSingle js (toCode rfl .nil))
    exact ((ReadsIf.nil.prepend hname).prepend hquery).prepend hend
  | regex =>
    have hmatch : Reads {} [source "match = new RegExp('", .data (js.escape v.expression),
        source "').exec(response.body); "] {} :=
      toSingle rfl (escapedSingle js (toCode rfl .nil))
    have hvalue : Reads {} ([source "match ? match[1] || match[0] : null"] ++ [source ";"]) {} :=
      .code rfl (toCode rfl .nil)
    rw [List.append_assoc]
    exact (hmatch.prepend hname).prepend hvalue
  | cssSelector =>
    have hhtml : Reads {} [source "response.html('", .data (js.escape v.expression),
        source "')"] {} :=
      toSingle rfl (escapedSingle js (toCode rfl .nil))
    have hattr : Reads {} (if v.attr = [] then [source ".html()"]
        else [source ".first().attr('", .data (js.escape v.attr), source "')"]) {} := by
      split
      · exact toCode rfl .nil
      · exact toSingle rfl (escapedSingle js (toCode rfl .nil))
    exact ((ReadsIf.nil.prepend hname).prepend (hhtml.prepend hattr)).prepend hend
  | unrecognized _ => exact ((ReadsIf.nil.prepend hname).prepend .nil).prepend hend

/-! ### Entries -/

/-- A URL that leaves the literals of either kind that it is written into as they are. -/
def Harmless (url : GoString) : Prop :=
  Ends (byte '"') url ∧ Ends (byte '\'') url

instance (url : GoString) : Decidable (Harmless url) := inferInstanceAs (Decidable (_ ∧ _))

/-- After the number of redirects, which what follows ends. -/
abbrev afterZero : Reader := ⟨.code (.lit "0"), []⟩

private theorem toZero {P : Prop} {r r' : Reader} {ps : List Piece} {s : String}
    (hc : (read r (.lit s)).1 = afterZero) (h : ReadsIf P afterZero ps r') :
    ReadsIf P r (source s :: ps) r' := .code hc h

private theorem reads_optionalHeaders (headers : List HttpHeader) (body : Option HttpRequestBody) :
    Reads afterZero ((if (text (buildHeaders js headers body)).length > 0 then
      [source ",\n\t\theaders: "] ++ buildHeaders js headers body else []) ++
      [source "\n\t\x7d);\n\tconsole.log(\"Response received from "]) inDouble := by
  split
  · have hheaders := (toCode (r := afterZero) (s := ",\n\t\theaders: ") rfl
      .nil).prepend (reads_buildHeaders js headers body)
    exact hheaders.prepend (toDouble rfl .nil)
  · exact toDouble rfl .nil

/-- The statements for the body are read from code to code. -/
theorem reads_bodyStatements (request : MultiHttpEntryRequest) :
    Reads {} (bodyStatements request) {} := by
  refine .flatMap fun v hv ↦ ?_
  unfold interpolateBodyVariables at hv
  split at hv
  · exact absurd hv List.not_mem_nil
  · split at hv
    · exact absurd hv List.not_mem_nil
    · obtain ⟨name, hname, rfl⟩ := List.mem_map.mp hv
      exact reads_bodyStatement (bodyVariables_name hname)

/-- The first part has the URL in it twice, between double quotes. -/
theorem readsIf_beforeBody (request : MultiHttpEntryRequest) :
    ReadsIf (Ends (byte '"') request.url ∧ Ends (byte '"') request.url ∧ True)
      {} (beforeBody js request) {} := by
  unfold beforeBody
  simp only [List.append_assoc, List.cons_append, List.nil_append]
  refine toDouble rfl (.data_code rfl
    (toCode rfl (.prepend (reads_performVariableExpansion js _) ?_)))
  refine toDouble rfl (.data_code rfl
    (toCode rfl (toCode rfl
    (.prepend (reads_buildQueryParams js request) ?_))))
  exact toCode rfl (.prepend_snoc (reads_buildBody _) (toCode rfl .nil))

/-- The last part has it in it three times, once between single quotes. -/
theorem readsIf_afterBody (idx : Nat) {entry : MultiHttpEntry} (request : MultiHttpEntryRequest)
    (h : ∀ a ∈ entry.assertions, a.recognized = true) :
    ReadsIf (Ends (byte '\'') request.url ∧ Ends (byte '"') request.url ∧
      Ends (byte '"') request.url ∧ True) {} (afterBody js idx entry request) {} := by
  have hassertions : Reads {} (entry.assertions.flatMap fun a ↦
      buildChecks js "url" (methodString request.method) a ++ [source "\n\t"]) {} :=
    .flatMap fun a ha ↦ (reads_buildChecks js request.method (h a ha)).prepend
      (toCode rfl .nil)
  have hvars : Reads {} (entry.vars.flatMap fun v ↦ buildVars js v ++ [source "\n\t"]) {} :=
    .flatMap fun v _ ↦ (reads_buildVars js v).prepend (toCode rfl .nil)
  unfold afterBody
  simp only [List.append_assoc, List.cons_append, List.nil_append]
  refine toSingle rfl (codeInside (literal_methodString (.inr rfl) _)
    (toSingle (by decide +kernel) (codeInside (literal_formatInt (.inr rfl) _)
    (toSingle (by decide +kernel) (.data_code rfl ?_)))))
  refine toZero rfl (.prepend_snoc (reads_optionalHeaders js _ _)
    (.data_code (by decide +kernel) ?_))
  refine toDouble (by decide +kernel) (.data_code (by decide +kernel)
    (toCode (by decide +kernel) ?_))
  exact hassertions.prepend hvars

/-- The data of an entry is confined exactly if its URL is harmless. -/
theorem readsIf_entryScript (idx : Nat) {entry : MultiHttpEntry} (request : MultiHttpEntryRequest)
    (h : ∀ a ∈ entry.assertions, a.recognized = true) :
    ReadsIf (Harmless request.url) {} (entryScript js idx entry request) {} := by
  unfold entryScript
  refine ((readsIf_beforeBody js request).append
    (.prepend (reads_bodyStatements request) (readsIf_afterBody js idx request h))).congr ?_
  unfold Harmless
  tauto

end
end SMAgent.Multihttp
