import SMAgent.Multihttp.Strings

/-!
# The predicates of assertions

`buildChecks`, `script.go:264-395`, writes a call of `check` with one predicate, a function of the
response. Text assertions and assertions on the values of a JSON path compare texts with a value;
what is compared and how depends on the subject, the comparison on the condition. Here the text
of the call is read back as a program.
-/

namespace SMAgent.Multihttp
open SMAgent.Base SMAgent.Base.JavaScript SMAgent.Pb
open GoString (byte)

/-! ### Conditions -/

/-- The conditions for which `Render` writes a comparison. -/
def rendered : AssertionCondition → Bool
  | .notContains | .contains | .defaultCondition | .equals | .startsWith | .endsWith => true
  | .typeOf | .unrecognized _ => false

/-- The method of a condition that calls one. -/
def conditionMethod : AssertionCondition → String
  | .startsWith => "startsWith"
  | .endsWith => "endsWith"
  | _ => "includes"

/-- What a comparison is about. -/
inductive Subject where
  | body | status | value | values
  deriving DecidableEq, Repr

namespace Subject

/-- The argument of `Render`. -/
def text : Subject → String
  | .body => "response.body"
  | .status => "response.status.toString()"
  | .value => "value"
  | .values => "values"

def toks : Subject → List Tok
  | .body => [.name "response", .key .dot, .name "body"]
  | .status => [.name "response", .key .dot, .name "status", .key .dot, .name "toString",
      .key .leftParen, .key .rightParen]
  | .value => [.name "value"]
  | .values => [.name "values"]

def expr : Subject → Expr
  | .body => .member (.var "response") (.lit "body")
  | .status => .call (.member (.member (.var "response") (.lit "status"))
      (.lit "toString")) []
  | .value => .var "value"
  | .values => .var "values"

end Subject

/-- What is written before the literal of a comparison. -/
def conditionOpen (c : AssertionCondition) (u : Subject) : GoString :=
  match c with
  | .equals => .lit u.text ++ .lit " === "
  | .notContains => .lit "!" ++ .lit u.text ++ .lit ".includes("
  | .startsWith => .lit u.text ++ .lit ".startsWith("
  | .endsWith => .lit u.text ++ .lit ".endsWith("
  | _ => .lit u.text ++ .lit ".includes("

/-- The tokens before the literal. -/
def conditionFront (c : AssertionCondition) (u : Subject) : List Tok :=
  match c with
  | .equals => u.toks ++ [.key .equal]
  | .notContains =>
    .key .bang :: u.toks ++ [.key .dot, .ident (.lit (conditionMethod c)), .key .leftParen]
  | _ => u.toks ++ [.key .dot, .ident (.lit (conditionMethod c)), .key .leftParen]

/-- What is written after the literal. -/
def conditionClose : AssertionCondition → GoString
  | .equals => []
  | _ => .lit ")"

/-- The tokens after the literal. -/
def conditionBack : AssertionCondition → List Tok
  | .equals => []
  | _ => [.key .rightParen]

/-- The tokens of a comparison with a literal. -/
def conditionToks (c : AssertionCondition) (u : Subject) (raw : GoString) : List Tok :=
  conditionFront c u ++ [.string raw] ++ conditionBack c

/-- The comparison with a literal. -/
def conditionExpr (c : AssertionCondition) (u : Subject) (raw : GoString) : Expr :=
  match c with
  | .equals => .equal u.expr (.string raw)
  | .notContains => .not (.call (.member u.expr (.lit (conditionMethod c))) [.string raw])
  | _ => .call (.member u.expr (.lit (conditionMethod c))) [.string raw]

private theorem parseExpr_condition (c : AssertionCondition) (u : Subject) (raw : GoString)
    (n : Nat) {rest : List Tok} (hrest : EndsExpr rest) :
    parseExpr (n + 16) (conditionToks c u raw ++ rest) = some (conditionExpr c u raw, rest) := by
  obtain ⟨k, ts, rfl, hk⟩ := hrest
  rcases hk with rfl | rfl | rfl | rfl <;> cases u <;> cases c <;> rfl

private theorem conditionToks_ne (c : AssertionCondition) (u : Subject) (raw : GoString)
    (rest us : List Tok) : conditionToks c u raw ++ rest ≠ .key .leftBrace :: us := by
  intro h
  cases u <;> cases c <;> cases h

section
variable (js : JSEscape)

private theorem text_conditionRender {c : AssertionCondition} (hc : rendered c = true)
    (u : Subject) (value : GoString) :
    text (conditionRender js c u.text value) = conditionOpen c u ++
      byte '"' :: (js.escape value ++ [byte '"']) ++ conditionClose c := by
  cases c with
  | typeOf => cases hc
  | unrecognized v => cases hc
  | _ =>
    simp only [conditionRender, callMethod, text, source, Piece.bytes, List.flatMap_cons,
      List.flatMap_nil, List.append_nil, conditionOpen, conditionClose, List.append_assoc,
      List.cons_append, List.nil_append]
    rfl

private theorem scan_conditionRender {c : AssertionCondition} (hc : rendered c = true) (u : Subject)
    (value : GoString) :
    scan [] (text (conditionRender js c u.text value)) =
      some (conditionToks c u (js.escape value), []) := by
  have hopen : scan [] (conditionOpen c u) = some (conditionFront c u, []) := by
    cases u <;> cases c <;> rfl
  have hclose : scan [] (conditionClose c) = some (conditionBack c, []) := by
    cases c <;> rfl
  have hliteral := scan_literal (.inl rfl) (js.content value (byte '"') (.inl rfl))
  rw [text_conditionRender js hc]
  exact scan_append (scan_append hopen hliteral) hclose

end

/-! ### Predicates -/

/-- What a predicate compares. -/
inductive Form where
  | body
  | status
  /-- the lines of all headers -/
  | lines
  /-- the values of the headers of this name -/
  | header (name : GoString)
  /-- the values that a JSON path selects -/
  | jsonPath (path : GoString)
  deriving DecidableEq, Repr

/-- The form of an assertion; the other types have no comparison. -/
def formOf (a : MultiHttpEntryAssertion) : Option Form :=
  match a.type with
  | .text =>
    match a.subject with
    | .responseBody | .defaultSubject => some .body
    | .responseHeaders => some (if a.expression.length = 0 then .lines else .header a.expression)
    | .httpStatusCode => some .status
    | .unrecognized _ => none
  | .jsonPathValue => some (.jsonPath a.expression)
  | .jsonPathAssertion | .regexAssertion | .unrecognized _ => none

/-- The tokens of `headerLines`. -/
def linesToks : List Tok :=
  [.key .kwConst, .name "values", .key .assign, .name "Object", .key .dot, .name "entries",
    .key .leftParen, .name "response", .key .dot, .name "headers", .key .rightParen, .key .dot,
    .name "map", .key .leftParen, .name "header", .key .arrow, .name "header", .key .leftBracket,
    .number 0, .key .rightBracket, .key .dot, .name "toLowerCase", .key .leftParen,
    .key .rightParen, .key .plus, .string (.lit ": "), .key .plus, .name "header",
    .key .leftBracket, .number 1, .key .rightBracket, .key .rightParen, .key .semicolon]

/-- The line of a header. -/
def lineExpr : Expr :=
  .add (.add (.call (.member (.index (.var "header") (.number 0)) (.lit "toLowerCase")) [])
    (.string (.lit ": "))) (.index (.var "header") (.number 1))

/-- The statement of `headerLines`. -/
def linesStmt : Stmt :=
  .const (.lit "values") (.call (.member (.call (.member (.var "Object") (.lit "entries"))
    [.member (.var "response") (.lit "headers")]) (.lit "map"))
      [.arrow (.lit "header") [.ret lineExpr]])

namespace Form

/-- What the comparison is about. -/
def subject : Form → Subject
  | .body => .body
  | .status => .status
  | .lines | .header _ => .value
  | .jsonPath _ => .values

/-- The tokens before the comparison, with the literal of a name or a path. -/
def front (raw : GoString) : Form → List Tok
  | .body | .status => [.name "response", .key .arrow]
  | .lines => [.name "response", .key .arrow, .key .leftBrace] ++ linesToks ++
      [.key .kwReturn, .key .bang, .key .bang, .name "values", .key .dot, .name "find",
        .key .leftParen, .name "value", .key .arrow]
  | .header _ => [.name "response", .key .arrow, .key .leftBrace, .key .kwReturn,
      .name "assertHeader", .key .leftParen, .name "response", .key .dot, .name "headers",
      .key .comma, .string raw, .key .comma, .name "v", .key .arrow]
  | .jsonPath _ => [.name "response", .key .arrow, .name "jsonpath", .key .dot, .name "query",
      .key .leftParen, .name "response", .key .dot, .name "json", .key .leftParen,
      .key .rightParen, .key .comma, .string raw, .key .rightParen, .key .dot, .name "some",
      .key .leftParen, .name "values", .key .arrow]

/-- The tokens after the comparison. -/
def back : Form → List Tok
  | .body | .status => []
  | .lines | .header _ => [.key .rightParen, .key .semicolon, .key .rightBrace]
  | .jsonPath _ => [.key .rightParen]

/-- The body of the predicate. -/
def program (raw : GoString) (comparison : Expr) : Form → List Stmt
  | .body | .status => [.ret comparison]
  | .lines => [linesStmt, .ret (.not (.not (.call (.member (.var "values") (.lit "find"))
      [.arrow (.lit "value") [.ret comparison]])))]
  | .header _ => [.ret (.call (.var "assertHeader")
      [.member (.var "response") (.lit "headers"), .string raw,
        .arrow (.lit "v") [.ret comparison]])]
  | .jsonPath _ => [.ret (.call (.member (.call (.member (.var "jsonpath") (.lit "query"))
      [.call (.member (.var "response") (.lit "json")) [], .string raw]) (.lit "some"))
        [.arrow (.lit "values") [.ret comparison]])]

/-- The predicate. -/
def expr (raw : GoString) (comparison : Expr) (f : Form) : Expr :=
  .arrow (.lit "response") (f.program raw comparison)

end Form

section
variable (c : AssertionCondition) (raw value : GoString)

private theorem parseArgs_comparison (x : GoString) (u : Subject) (n : Nat) (rest : List Tok) :
    parseArgs (n + 18) (.ident x :: .key .arrow ::
      (conditionToks c u value ++ .key .rightParen :: rest)) =
        some ([.arrow x [.ret (conditionExpr c u value)]], rest) :=
  parseArgs_last (parseExpr_arrow (conditionToks_ne c u value _)
    (parseExpr_condition c u value n ⟨_, _, rfl, .inl rfl⟩))

private theorem parseExpr_predicate (f : Form) (n : Nat) {rest : List Tok} (hrest : EndsExpr rest) :
    parseExpr (n + 40) (f.front raw ++ conditionToks c f.subject value ++ f.back ++ rest) =
      some (f.expr raw (conditionExpr c f.subject value), rest) := by
  have hsemicolon (us : List Tok) : EndsExpr (.key .semicolon :: us) :=
    ⟨_, _, rfl, .inr (.inr (.inr rfl))⟩
  simp only [List.append_assoc]
  cases f with
  | body =>
    exact parseExpr_arrow (conditionToks_ne _ _ _ _) (parseExpr_condition c _ value (n + 23) hrest)
  | status =>
    exact parseExpr_arrow (conditionToks_ne _ _ _ _) (parseExpr_condition c _ value (n + 23) hrest)
  | lines =>
    have hfind : parseUnary (n + 32) (.name "values" :: .key .dot :: .name "find" ::
        .key .leftParen :: _) = some (_, .key .semicolon :: .key .rightBrace :: rest) :=
      parsePostfix_call (fun _ h ↦ by cases h)
        (parseArgs_comparison c value (.lit "value") .value (n + 11) _) (hsemicolon _)
    have hreturn := parseStmt_ret (parseExpr_of_parseUnary (fun _ _ h ↦ by cases h) (hsemicolon _)
      (parseUnary_not (parseUnary_not hfind)))
    have hblock : parseBlock (n + 38) (.key .kwReturn :: .key .bang :: .key .bang :: _) =
        some ([.ret _], rest) :=
      parseBlock_cons (fun _ h ↦ by cases h) (fun _ h ↦ by cases h) hreturn rfl
    exact parseExpr_arrow_block (parseBlock_cons (fun _ h ↦ by cases h) (fun _ h ↦ by cases h)
      (show parseStmt (n + 38) (linesToks ++ _) = some (linesStmt, _) from rfl) hblock)
  | header name =>
    have hargs : parseArgs (n + 33) (.name "response" :: .key .dot :: .name "headers" ::
        .key .comma :: .string raw :: .key .comma :: _) =
        some (_, .key .semicolon :: .key .rightBrace :: rest) :=
      parseArgs_cons rfl (parseArgs_cons rfl
        (parseArgs_comparison c value (.lit "v") .value (n + 13) _))
    have hcall : parseUnary (n + 35) (.name "assertHeader" :: .key .leftParen :: _) =
        some (_, .key .semicolon :: .key .rightBrace :: rest) :=
      parsePostfix_call (fun _ h ↦ by cases h) hargs (hsemicolon _)
    have hreturn := parseStmt_ret
      (parseExpr_of_parseUnary (fun _ _ h ↦ by cases h) (hsemicolon _) hcall)
    exact parseExpr_arrow_block
      (parseBlock_cons (fun _ h ↦ by cases h) (fun _ h ↦ by cases h) hreturn rfl)
  | jsonPath path =>
    have hsome : parseUnary (n + 37) (.name "jsonpath" :: .key .dot :: .name "query" ::
        .key .leftParen :: .name "response" :: .key .dot :: .name "json" :: .key .leftParen ::
        .key .rightParen :: .key .comma :: .string raw :: .key .rightParen :: .key .dot ::
        .name "some" :: .key .leftParen :: .name "values" :: .key .arrow ::
        (conditionToks c .values value ++ .key .rightParen :: rest)) =
        some (.call (.member (.call (.member (.var "jsonpath") (.lit "query"))
          [.call (.member (.var "response") (.lit "json")) [], .string raw]) (.lit "some")) _,
          rest) :=
      parsePostfix_call (fun _ h ↦ by cases h) (parseArgs_comparison c value _ _ (n + 14) _) hrest
    exact parseExpr_arrow (fun _ h ↦ by cases h)
      (parseExpr_of_parseUnary (fun _ _ h ↦ by cases h) hrest hsome)

end

/-! ### The text of a predicate -/

section
variable (js : JSEscape)

/-- The literal of a form. -/
def Form.raw : Form → GoString
  | .body | .status | .lines => []
  | .header name => js.escape name
  | .jsonPath path => js.escape path

/-- What is written before the comparison. -/
def Form.openText : Form → GoString
  | .body | .status => .lit "response => "
  | .lines => .lit "response => \x7b " ++ headerLines.bytes ++ .lit "return !!values.find(value => "
  | .header name => .lit "response => \x7b return assertHeader(response.headers, " ++
      byte '"' :: (js.escape name ++ [byte '"']) ++ .lit ", v => "
  | .jsonPath path => .lit "response => jsonpath.query(response.json(), " ++
      byte '"' :: (js.escape path ++ [byte '"']) ++ .lit ").some(values => "

/-- What is written after the comparison. -/
def Form.closeText : Form → GoString
  | .body | .status => []
  | .lines | .header _ => .lit "); \x7d"
  | .jsonPath _ => .lit ")"

/-- What `Name` says the comparison is about. -/
def Form.label : Form → GoString
  | .body => .lit "body"
  | .status => .lit "status code"
  | .lines | .header _ => .lit "header"
  | .jsonPath path => path

private theorem scan_openText (f : Form) :
    scan [] (f.openText js) = some (f.front (f.raw js), []) := by
  have hliteral (s : GoString) :=
    scan_literal (.inl rfl) (js.content s (byte '"') (.inl rfl))
  cases f with
  | body => rfl
  | status => rfl
  | lines =>
    show scan [] (.lit "response => \x7b " ++ headerLines.bytes ++
      .lit "return !!values.find(value => ") = some (Form.front [] .lines, [])
    decide +kernel
  | header name =>
    have hopen : scan [] (.lit "response => \x7b return assertHeader(response.headers, ") =
        some ((Form.front [] (.header [])).take 10, []) := by decide +kernel
    have hclose : scan [] (.lit ", v => ") = some ((Form.front [] (.header [])).drop 11, []) := by
      decide
    exact scan_append (scan_append hopen (hliteral name)) hclose
  | jsonPath path =>
    have hopen : scan [] (.lit "response => jsonpath.query(response.json(), ") =
        some ((Form.front [] (.jsonPath [])).take 12, []) := by decide +kernel
    have hclose : scan [] (.lit ").some(values => ") =
        some ((Form.front [] (.jsonPath [])).drop 13, []) := by decide
    exact scan_append (scan_append hopen (hliteral path)) hclose

private theorem text_buildCheck {a : MultiHttpEntryAssertion} {f : Form} (h : formOf a = some f) :
    text (buildCheck js a).1 = text (conditionName js a.condition f.label a.value) ++
      (.lit "\": " ++ (f.openText js ++
        (text (conditionRender js a.condition f.subject.text a.value) ++ f.closeText))) := by
  unfold formOf at h
  split at h
  · next htype =>
    rw [buildCheck, htype]
    split at h
    · next hsubject =>
      cases h
      rw [textCheck, hsubject]
      simp only [text_append, List.append_assoc, Form.closeText, List.append_nil]
      rfl
    · next hsubject =>
      cases h
      rw [textCheck, hsubject]
      simp only [text_append, List.append_assoc, Form.closeText, List.append_nil]
      rfl
    · next hsubject =>
      rw [textCheck, hsubject]
      split at h
      · next hempty =>
        cases h
        simp only [if_pos hempty, text_append, List.append_assoc, Form.openText, Form.closeText]
        rfl
      · next hexpression =>
        cases h
        simp only [if_neg hexpression, text_append, List.append_assoc]
        congr 1
        simp only [text, source, Piece.bytes, List.flatMap_cons, List.flatMap_nil, List.append_nil,
          List.append_assoc, List.cons_append, List.nil_append, Form.openText, Form.closeText]
        rfl
    · next hsubject =>
      cases h
      rw [textCheck, hsubject]
      simp only [text_append, List.append_assoc, Form.closeText, List.append_nil]
      rfl
    · cases h
  · next htype =>
    cases h
    rw [buildCheck, htype]
    simp only [text_append, List.append_assoc]
    congr 1
    simp only [text, source, Piece.bytes, List.flatMap_cons, List.flatMap_nil, List.append_nil,
      List.append_assoc, List.cons_append, List.nil_append, Form.openText, Form.closeText]
    rfl
  · cases h
  · cases h
  · cases h

/-! ### The call of `check` -/

private theorem literal_conditionName (c : AssertionCondition) (subject value : GoString) :
    literal (byte '"') .normal (text (conditionName js c subject value)) =
      some .normal := by
  have hverb : literal (byte '"') .normal (.lit (conditionVerb c)) = some .normal := by
    cases c <;> rfl
  have hescape (s : GoString) := js.content s (byte '"') (.inl rfl)
  have hblank : literal (byte '"') .normal (.lit " ") = some .normal := rfl
  have hquote : literal (byte '"') .normal (.lit " \\\"") = some .normal := rfl
  have hend : literal (byte '"') .normal (.lit "\\\"") = some .normal := rfl
  simp only [conditionName, text, source, Piece.bytes, List.flatMap_cons, List.flatMap_nil,
    List.append_nil, literal_append, hescape, hverb, hblank, hquote, hend, Option.bind_some]

/-- The tokens before the predicate. -/
def checkFront (name : GoString) : List Tok :=
  [.name "currentCheck", .key .assign, .name "check", .key .leftParen, .name "response",
    .key .comma, .key .leftBrace, .string name, .key .colon]

/-- The tokens after the predicate, with the literals of the method and the message. -/
def checkBack (method message : GoString) : List Tok :=
  [.key .rightBrace, .key .comma, .key .leftBrace, .string (.lit "url"), .key .colon, .name "url",
    .key .dot, .name "toString", .key .leftParen, .key .rightParen, .key .comma,
    .string (.lit "method"), .key .colon, .string method, .key .rightBrace, .key .rightParen,
    .key .semicolon, .key .kwIf, .key .leftParen, .key .bang, .name "currentCheck",
    .key .rightParen, .key .leftBrace, .name "console", .key .dot, .name "error", .key .leftParen,
    .string (.lit "Assertion failed:"), .key .comma, .string message, .key .rightParen,
    .key .semicolon, .name "fail", .key .leftParen, .key .rightParen, .key .rightBrace,
    .key .semicolon]

/-- The statement after the call of `check`. -/
def failStmt (message : GoString) : Stmt :=
  .cond (.not (.var "currentCheck"))
    [.expr (.call (.member (.var "console") (.lit "error"))
      [.string (.lit "Assertion failed:"), .string message]),
      .expr (.call (.var "fail") [])] []

/-- The program of an assertion. -/
def checkProgram (name : GoString) (predicate : Expr) (method message : GoString) : List Stmt :=
  [.assign (.lit "currentCheck") (.call (.var "check") [.var "response",
    .object [(name, predicate)],
    .object [(.lit "url", .call (.member (.var "url") (.lit "toString")) []),
      (.lit "method", .string method)]]), failStmt message]

/-- The predicate of a program that is a call of `check`. -/
def checkPredicate : List Stmt → Option Expr
  | .assign _ (.call _ [_, .object [(_, predicate)], _]) :: _ => some predicate
  | _ => none

private theorem scan_checkBack {method message : GoString}
    (hmethod : literal (byte '"') .normal method = some .normal)
    (hmessage : literal (byte '"') .normal message = some .normal) :
    scan [] (.lit " \x7d, \x7b\"url\": url.toString(), \"method\": " ++
      byte '"' :: (method ++ [byte '"']) ++
      .lit "\x7d);\n\tif(!currentCheck) \x7b\n\t\tconsole.error(\"Assertion failed:\", " ++
      byte '"' :: (message ++ [byte '"']) ++
      .lit ");\n\t\tfail()\n\t\x7d;\n") = some (checkBack method message, []) := by
  have hopen : scan [] (.lit " \x7d, \x7b\"url\": url.toString(), \"method\": ") =
      some ((checkBack [] []).take 13, []) := by decide +kernel
  have hmiddle : scan []
      (.lit "\x7d);\n\tif(!currentCheck) \x7b\n\t\tconsole.error(\"Assertion failed:\", ") =
      some (((checkBack [] []).drop 14).take 15, []) := by decide +kernel
  have hclose : scan [] (.lit ");\n\t\tfail()\n\t\x7d;\n") =
      some ((checkBack [] []).drop 30, []) := by decide +kernel
  exact scan_append (scan_append (scan_append (scan_append hopen (scan_literal (.inl rfl) hmethod))
    hmiddle) (scan_literal (.inl rfl) hmessage)) hclose

variable {a : MultiHttpEntryAssertion} {f : Form}

private theorem toks_buildChecks (hf : formOf a = some f) (hc : rendered a.condition = true)
    (m : HttpMethod) :
    toks (text (buildChecks js "url" (methodString m) a)) =
      some (checkFront (text (conditionName js a.condition f.label a.value)) ++
        (f.front (f.raw js) ++ conditionToks a.condition f.subject (js.escape a.value) ++ f.back) ++
        checkBack (methodString m) (js.escape (text (buildCheck js a).2))) := by
  have hopen : scan [] (.lit "currentCheck = check(response, \x7b ") =
      some ((checkFront []).take 7, []) := by decide +kernel
  have hname := scan_literal (.inl rfl) (literal_conditionName js a.condition f.label a.value)
  have hcolon : scan [] (.lit ": ") = some ([.key .colon], []) := by decide
  have hclose : scan [] f.closeText = some (f.back, []) := by
    cases f <;> rfl
  have hpredicate := scan_append (scan_append (scan_openText js f)
    (scan_conditionRender js hc f.subject a.value)) hclose
  have hback := scan_checkBack (literal_methodString (.inl rfl) m)
    (js.content (text (buildCheck js a).2) _ (.inl rfl))
  have hscan := scan_append (scan_append (scan_append (scan_append hopen hname) hcolon) hpredicate)
    hback
  apply toks_of_scan
  have htext : text (buildChecks js "url" (methodString m) a) =
      .lit "currentCheck = check(response, \x7b " ++ byte '"' ::
        (text (conditionName js a.condition f.label a.value) ++ [byte '"']) ++ .lit ": " ++
        (f.openText js ++ text (conditionRender js a.condition f.subject.text a.value) ++
          f.closeText) ++
        (.lit " \x7d, \x7b\"url\": url.toString(), \"method\": " ++
          byte '"' :: (methodString m ++ [byte '"']) ++
          .lit "\x7d);\n\tif(!currentCheck) \x7b\n\t\tconsole.error(\"Assertion failed:\", " ++
          byte '"' :: (js.escape (text (buildCheck js a).2) ++ [byte '"']) ++
          .lit ");\n\t\tfail()\n\t\x7d;\n") := by
    rw [buildChecks]
    simp only [text_append, text_buildCheck js hf]
    generalize text (buildCheck js a).2 = message
    generalize text (conditionName js a.condition f.label a.value) = name
    generalize text (conditionRender js a.condition f.subject.text a.value) = comparison
    simp only [text, source, Piece.bytes, List.flatMap_cons, List.flatMap_nil, List.append_nil,
      List.append_assoc, List.cons_append, List.nil_append]
    rfl
  rw [htext, hscan]
  rfl

/-- The source of a check is parsed. -/
theorem parseProgram_buildChecks (hf : formOf a = some f) (hc : rendered a.condition = true)
    (m : HttpMethod) :
    parseProgram (text (buildChecks js "url" (methodString m) a)) =
      some (checkProgram (text (conditionName js a.condition f.label a.value))
        (f.expr (f.raw js) (conditionExpr a.condition f.subject (js.escape a.value)))
        (methodString m) (js.escape (text (buildCheck js a).2))) := by
  rw [parseProgram, toks_buildChecks js hf hc m, Option.bind_some]
  generalize text (conditionName js a.condition f.label a.value) = name
  generalize js.escape (text (buildCheck js a).2) = message
  generalize hts : f.front (f.raw js) ++ conditionToks a.condition f.subject (js.escape a.value) ++
    f.back = ts
  have hpredicate (n : Nat) (rest : List Tok) : parseExpr (n + 40) (ts ++ .key .rightBrace :: rest)
      = some (f.expr (f.raw js) (conditionExpr a.condition f.subject (js.escape a.value)),
        .key .rightBrace :: rest) := by
    rw [← hts]
    exact parseExpr_predicate _ _ _ f n ⟨_, _, rfl, .inr (.inl rfl)⟩
  have hcomma (us : List Tok) : EndsExpr (.key .comma :: us) :=
    ⟨_, _, rfl, .inr (.inr (.inl rfl))⟩
  obtain ⟨n, hn⟩ : ∃ n,
      fuelFor (checkFront name ++ ts ++ checkBack (methodString m) message) = n + 60 := by
    refine ⟨8 * ts.length + 316, ?_⟩
    simp only [fuelFor, checkFront, checkBack, List.length_append, List.length_cons,
      List.length_nil]
    omega
  rw [hn, List.append_assoc]
  -- the tags of the check and the statement after it have fixed tokens
  have htags : parseArgs (n + 52) ((checkBack (methodString m) message).drop 2) =
      some ([.object [(.lit "url", .call (.member (.var "url") (.lit "toString")) []),
        (.lit "method", .string (methodString m))]],
        (checkBack (methodString m) message).drop 16) := parseArgs_last rfl
  have hargs : parseArgs (n + 54) (.name "response" :: .key .comma :: .key .leftBrace ::
      .string name :: .key .colon :: (ts ++ checkBack (methodString m) message)) = some (_, _) :=
    parseArgs_cons rfl (parseArgs_cons
      (parseExpr_object (hcomma _) (parseProps_last (hpredicate (n + 7) _))) htags)
  have hsemicolon : EndsExpr ((checkBack (methodString m) message).drop 16) :=
    ⟨_, _, rfl, .inr (.inr (.inr rfl))⟩
  have hcall : parseUnary (n + 56) (.name "check" :: .key .leftParen :: _) = some (_, _) :=
    parsePostfix_call (fun _ h ↦ by cases h) hargs hsemicolon
  have hassign := parseStmt_assign (x := .lit "currentCheck")
    (parseExpr_of_parseUnary (fun _ _ h ↦ by cases h) hsemicolon hcall)
  exact (parseStmts_cons hassign).trans rfl

end
end SMAgent.Multihttp
