import SMAgent.Base.JavaScript
import SMAgent.Pb.Check

/-!
# The script of a multi-HTTP check

`internal/prober/multihttp/script.go` and `script.tmpl`: the settings of a check are written
into a k6 script. Every builder returns the parts it writes, so that what it takes from the
settings can be told from the program's own text; the string that the source builds is their
concatenation. A nil request is an error of the template.
-/

namespace SMAgent.Multihttp
open SMAgent.Base SMAgent.Base.JavaScript SMAgent.Pb
open GoString (byte)

/-- `template.JSEscapeString` of the standard library. Between quotes its result is the content
of a string literal. -/
structure JSEscape where
  escape : GoString → GoString
  content : ∀ s quote, quote = byte '"' ∨ quote = byte '\'' →
    literal quote .normal (escape s) = some .normal

/-- A constant that is written. -/
def source (s : String) : Piece := .code (.lit s)

/-! ### Variables -/

/-- `[a-zA-Z_]`. -/
def isNameStart (b : UInt8) : Bool :=
  (byte 'a' ≤ b && b ≤ byte 'z') ||
    (byte 'A' ≤ b && b ≤ byte 'Z') || b == byte '_'

/-- `[a-zA-Z0-9_]`. -/
def isNameByte (b : UInt8) : Bool :=
  isNameStart b || (byte '0' ≤ b && b ≤ byte '9')

/-- `userVariables` at the start of a text: the name, and the text after the match. The closing
brace is no byte of a name, so the expression has one way to match. -/
def matchVariable : GoString → Option (GoString × GoString)
  | dollar :: brace :: rest =>
    if dollar = byte '$' ∧ brace = byte '{' then
      match rest.takeWhile isNameByte, rest.dropWhile isNameByte with
      | first :: name, close :: after =>
        if isNameStart first ∧ close = byte '}' then some (first :: name, after) else none
      | _, _ => none
    else none
  | _ => none

/-- The search from left to right: each match is a name with the text before it, up to the match
before. Every round takes a byte, so the length of the text is enough fuel. -/
def findVariables : Nat → GoString → GoString → List (GoString × GoString) × GoString
  | 0, before, s => ([], before ++ s)
  | fuel + 1, before, s =>
    match matchVariable s with
    | some (name, after) =>
      let found := findVariables fuel [] after
      ((before, name) :: found.1, found.2)
    | none =>
      match s with
      | [] => ([], before)
      | b :: rest => findVariables fuel (before ++ [b]) rest

/-- `userVariables.FindAllSubmatchIndex(buf, -1)`, and the text after the last match. -/
def userVariables (s : GoString) : List (GoString × GoString) × GoString :=
  findVariables s.length [] s

section
variable (js : JSEscape)

/-- Text between single quotes, `script.go:44-46` and `script.go:65-67`. -/
def quoted (s : GoString) : List Piece := [source "'", .data (js.escape s), source "'"]

/-- `if s.Len() > 0`, with the `+` that follows. -/
def plus (s : List Piece) : List Piece := if (text s).length > 0 then [source "+"] else []

/-- One round of the loop of `performVariableExpansion`, `script.go:34-58`. -/
def expandVariable (s : List Piece) (loc : GoString × GoString) : List Piece :=
  s ++ plus s ++ (if loc.1.length > 0 then quoted js loc.1 ++ [source "+"] else []) ++
    [source "vars['", .data loc.2, source "']"]

/-- `performVariableExpansion`, `script.go:22-71`; in the template `buildUrl`. -/
def performVariableExpansion (s : GoString) : List Piece :=
  if s.length = 0 then [source "''"]
  else
    let locs := userVariables s
    let expanded := locs.1.foldl (expandVariable js) []
    if locs.2.length > 0 then expanded ++ plus expanded ++ quoted js locs.2 else expanded

/-- `buildQueryParams`, `script.go:75-91`. -/
def buildQueryParams (urlVarName : String) (req : MultiHttpEntryRequest) : List (List Piece) :=
  req.queryFields.map fun field ↦
    [source urlVarName, source ".searchParams.append("] ++ performVariableExpansion js field.name ++
      [source ", "] ++ performVariableExpansion js field.value ++ [source ")"]

/-- The alphabet of `base64.RawStdEncoding`. -/
def base64Alphabet : GoString :=
  .lit "ABCDEFGHIJKLMNOPQRSTUVWXYZabcdefghijklmnopqrstuvwxyz0123456789+/"

/-- One digit. -/
def base64Digit (n : Nat) : UInt8 := base64Alphabet.getD (n % 64) 0x41

/-- `base64.RawStdEncoding.EncodeToString`. -/
def base64Encode : GoString → GoString
  | a :: b :: c :: rest =>
    let n := (a.toNat * 256 + b.toNat) * 256 + c.toNat
    base64Digit (n / 262144) :: base64Digit (n / 4096) :: base64Digit (n / 64) :: base64Digit n ::
      base64Encode rest
  | [a, b] =>
    let n := a.toNat * 256 + b.toNat
    [base64Digit (n / 1024), base64Digit (n / 16), base64Digit (n * 4)]
  | [a] => [base64Digit (a.toNat / 4), base64Digit (a.toNat * 16)]
  | [] => []

/-- `buildBody`, `script.go:93-110`. -/
def buildBody : Option HttpRequestBody → List Piece
  | none => [source "null"]
  | some body =>
    if body.payload.length = 0 then [source "\"\""]
    else
      [source "encoding.b64decode(\"", .data (base64Encode body.payload),
        source "\", 'rawstd', \"s\")"]

/-- The distinct variables of a payload, in the order of their first occurrence. -/
def bodyVariables (payload : GoString) : List GoString :=
  ((userVariables payload).1.map Prod.snd).eraseDups

/-- A round of the loop, `script.go:131-146`; a match is its name between `${` and `}`. -/
def replaceVariable (bodyVarName : String) (name : GoString) : List Piece :=
  [source bodyVarName, source "=", source bodyVarName, source ".replaceAll('",
    .data (.lit "$\x7b" ++ name ++ .lit "\x7d"), source "', vars['", .data name, source "'])"]

/-- `interpolateBodyVariables`, `script.go:112-151`. -/
def interpolateBodyVariables (bodyVarName : String) : Option HttpRequestBody → List (List Piece)
  | none => []
  | some body =>
    if body.payload.length = 0 then []
    else (bodyVariables body.payload).map (replaceVariable bodyVarName)

/-- A field of the body that is a header, `script.go:165-181`. -/
def contentHeader (key : String) (value : GoString) (comma : List Piece) : List Piece :=
  comma ++ [source key, .data (js.escape value), source "\""]

/-- The headers of the body, and the `comma` that is set by then. -/
def buildBodyHeaders : Option HttpRequestBody → List Piece × List Piece
  | none => ([], [])
  | some body =>
    let type :=
      if body.contentType.length > 0 then
        (contentHeader js "'Content-Type':\"" body.contentType [], [source ","])
      else ([], [])
    if body.contentEncoding.length > 0 then
      (type.1 ++ contentHeader js "'Content-Encoding':\"" body.contentEncoding type.2, [source ","])
    else type

/-- One header of the request, `script.go:184-193`. -/
def buildHeader (header : HttpHeader) (comma : List Piece) : List Piece :=
  comma ++ [source "\"", .data (js.escape header.name), source "\":"] ++
    performVariableExpansion js header.value

/-- `buildHeaders`, `script.go:153-198`; only the first header may have no comma before it. -/
def buildHeaders (headers : List HttpHeader) (body : Option HttpRequestBody) : List Piece :=
  if headers.length = 0 ∧ body = none then []
  else
    let fromBody := buildBodyHeaders js body
    [source "\x7b"] ++ fromBody.1 ++
      (match headers with
      | [] => []
      | first :: others =>
        buildHeader js first fromBody.2 ++ others.flatMap fun h ↦ buildHeader js h [source ","]) ++
      [source "\x7d"]

/-! ### Assertions -/

/-- The verb of `assertionCondition.Name`, `script.go:206-221`. -/
def conditionVerb : AssertionCondition → String
  | .notContains => "does not contain"
  | .contains | .defaultCondition => "contains"
  | .equals => "equals"
  | .startsWith => "starts with"
  | .endsWith => "ends with"
  | .typeOf | .unrecognized _ => ""

/-- `assertionCondition.Name`, `script.go:202-226`. -/
def conditionName (c : AssertionCondition) (subject value : GoString) : List Piece :=
  [.data (js.escape subject), source " ", source (conditionVerb c), source " \\\"",
    .data (js.escape value), source "\\\""]

/-- A call of a method on the subject with the value, `script.go:234-256`. -/
def callMethod (subject method : String) (value : GoString) : List Piece :=
  [source subject, source method, .data (js.escape value), source "\")"]

/-- `assertionCondition.Render`, `script.go:228-258`. -/
def conditionRender (c : AssertionCondition) (subject : String) (value : GoString) : List Piece :=
  match c with
  | .notContains => source "!" :: callMethod js subject ".includes(\"" value
  | .contains | .defaultCondition => callMethod js subject ".includes(\"" value
  | .equals =>
    [source subject, source " === \"", .data (js.escape value), source "\""]
  | .startsWith => callMethod js subject ".startsWith(\"" value
  | .endsWith => callMethod js subject ".endsWith(\"" value
  | .typeOf | .unrecognized _ => []

/-- The lines of all headers, `script.go:289` and `script.go:350`. -/
def headerLines : Piece :=
  source ("const values = Object.entries(response.headers).map(header => " ++
      "header[0].toLowerCase() + ': ' + header[1]); ")

/-- The check of a text assertion with its name, and its descriptor, `script.go:276-312`. -/
def textCheck (a : MultiHttpEntryAssertion) : List Piece × List Piece :=
  match a.subject with
  | .responseBody | .defaultSubject =>
    (conditionName js a.condition (.lit "body") a.value ++ [source "\": response => "] ++
      conditionRender js a.condition "response.body" a.value,
      conditionRender js a.condition "response.body" a.value)
  | .responseHeaders =>
    (conditionName js a.condition (.lit "header") a.value ++ [source "\": response => \x7b "] ++
      (if a.expression.length = 0 then
        [headerLines, source "return !!values.find(value => "]
      else
        [source "return assertHeader(response.headers, \"", .data (js.escape a.expression),
          source "\", ", source "v => "]) ++
      conditionRender js a.condition "value" a.value ++ [source ");", source " \x7d"],
      conditionRender js a.condition "value" a.value)
  | .httpStatusCode =>
    (conditionName js a.condition (.lit "status code") a.value ++ [source "\": response => "] ++
      conditionRender js a.condition "response.status.toString()" a.value,
      conditionRender js a.condition "response.status.toString()" a.value)
  | .unrecognized _ => ([], [])

/-- The check of an expression that the subject has to match, `script.go:333-364`. -/
def regexCheck (name descriptor : String) (test : List Piece) (expression : GoString) :
    List Piece × List Piece :=
  ([source name, .data (js.escape expression),
    source "/\": response => \x7b const expr = new RegExp(\"", .data (js.escape expression),
    source "\"); "] ++ test, [source descriptor, .data expression])

/-- The switch of `buildChecks`, `script.go:272-365`. -/
def buildCheck (a : MultiHttpEntryAssertion) : List Piece × List Piece :=
  match a.type with
  | .text => textCheck js a
  | .jsonPathValue =>
    (conditionName js a.condition a.expression a.value ++
      [source "\": response => jsonpath.query(response.json(), \"", .data (js.escape a.expression),
        source "\").some(values => "] ++
      conditionRender js a.condition "values" a.value ++ [source ")"],
      conditionRender js a.condition "values" a.value)
  | .jsonPathAssertion =>
    ([.data (js.escape a.expression),
      source " exists\": response => jsonpath.query(response.json(), \"",
      .data (js.escape a.expression), source "\").length > 0"],
      [source "JsonPath expression ", .data a.expression])
  | .regexAssertion =>
    match a.subject with
    | .responseBody | .defaultSubject =>
      regexCheck js "body matches /" "Body matches"
        [source "return expr.test(response.body); \x7d"] a.expression
    | .responseHeaders =>
      regexCheck js "headers matches /" "Headers match"
        [headerLines, source "return !!values.find(value => expr.test(value)); \x7d"] a.expression
    | .httpStatusCode =>
      regexCheck js "status matches /" "Status matches"
        [source "return expr.test(response.status.toString()); \x7d"] a.expression
    | .unrecognized _ => ([], [])
  | .unrecognized _ => ([], [])

/-- `HttpMethod.String`. -/
def methodString : HttpMethod → GoString
  | .get => .lit "GET"
  | .connect => .lit "CONNECT"
  | .delete => .lit "DELETE"
  | .head => .lit "HEAD"
  | .options => .lit "OPTIONS"
  | .post => .lit "POST"
  | .put => .lit "PUT"
  | .trace => .lit "TRACE"
  | .patch => .lit "PATCH"
  | .unrecognized v => .formatInt v.toInt

/-- `buildChecks`, `script.go:264-395`. -/
def buildChecks (urlVarName : String) (method : GoString) (a : MultiHttpEntryAssertion) :
    List Piece :=
  let check := buildCheck js a
  [source "currentCheck = check(response, \x7b \""] ++ check.1 ++
    [source " \x7d", source ", ", source "\x7b", source "\"url\": ", source urlVarName,
      source ".toString(), ", source "\"method\": \"", .code method, source "\"", source "\x7d",
      source ");", source "\n\t", source "if(!currentCheck) \x7b", source "\n\t\t",
      source "console.error(\"Assertion failed:\", \"", .data (js.escape (text check.2)),
      source "\");", source "\n\t\t", source "fail()", source "\n\t", source "\x7d;",
      source "\n"]

/-- `buildVars`, `script.go:397-436`. -/
def buildVars (v : MultiHttpEntryVariable) : List Piece :=
  (match v.type with
    | .regex =>
      [source "match = new RegExp('", .data (js.escape v.expression),
        source "').exec(response.body); "]
    | _ => []) ++
    [source "vars['", .data (js.escape v.name), source "'] = "] ++
    (match v.type with
    | .jsonPath =>
      [source "jsonpath.query(response.json(), '", .data (js.escape v.expression), source "')[0]"]
    | .regex => [source "match ? match[1] || match[0] : null"]
    | .cssSelector =>
      [source "response.html('", .data (js.escape v.expression), source "')"] ++
        (if v.attr = [] then [source ".html()"]
        else [source ".first().attr('", .data (js.escape v.attr), source "')"])
    | .unrecognized _ => []) ++
    [source ";"]

/-! ### The template -/

/-- `script.tmpl:1-74`, line by line. -/
def preamble : List GoString :=
  [
    "import http from 'k6/http';\n",
    "import \x7b check, fail \x7d from 'k6';\n",
    "import \x7b test \x7d from 'k6/execution';\n",
    "// TODO(mem): conditionally import these modules\n",
    "// - import encoding if base64 decoding is required\n",
    "// - import jsonpath if there are json assertions\n",
    "import encoding from 'k6/encoding';\n",
    "import jsonpath from 'https://jslib.k6.io/jsonpath/1.0.2/index.js';\n",
    "import \x7b URL \x7d from 'https://jslib.k6.io/url/1.0.0/index.js';\n",
    "\n",
    "export const options = \x7b\n",
    "\tscenarios: \x7b\n",
    "\t\tdefault: \x7b\n",
    "\t\t\texecutor: 'shared-iterations',\n",
    "\t\t\ttags: \x7b\n",
    "\t\t\t\t// TODO(mem): build tags out of options for the check?\n",
    "\t\t\t\tenvironment: 'production',\n",
    "\t\t\t\x7d,\n",
    "\t\t\t// exec: 'runner',\n",
    "\t\t\tmaxDuration: '10s', // TODO(mem): this would be the timeout for the check\n",
    "\t\t\tgracefulStop: '1s',\n",
    "\t\t\x7d,\n",
    "\t\x7d,\n",
    "\n",
    "\tdns: \x7b\n",
    "\t\tttl: '2m', // TODO(mem): this doesn't need to be much higher than the maxDuration\n",
    "\t\tselect: 'first',\n",
    "\t\t// TODO(mem): we can build this maps to IP option in checks, more or less\n",
    "\t\tpolicy: 'preferIPv4', // preferIPv6, onlyIPv4, onlyIPv6, any\n",
    "\t\x7d,\n",
    "\n",
    "\t// TODO(mem): we can build this out of check options\n",
    "\tinsecureSkipTLSVerify: false,\n",
    "\ttlsVersion: \x7b\n",
    "\t\t// TODO(mem): we can build this out of check options\n",
    "\t\tmin: 'tls1.2',\n",
    "\t\tmax: 'tls1.3',\n",
    "\t\x7d,\n",
    "\t// TODO(mem): we can build this out of agent version\n",
    ("\tuserAgent: 'synthetic-monitoring-agent/v0.14.3 (linux amd64; g64b8bab; " ++
      "+https://github.com/grafana/synthetic-monitoring-agent)',\n"),
    "\n",
    "\tmaxRedirects: 10,\n",
    "\n",
    "\t// k6 options\n",
    "\tvus: 1,\n",
    "\t// linger: false,\n",
    "\tsummaryTimeUnit: 's',\n",
    "\tdiscardResponseBodies: false, // enable only if there are checks?\n",
    "\x7d;\n",
    "\n",
    "function assertHeader(headers, name, matcher) \x7b\n",
    "\tconst lcName = name.toLowerCase();\n",
    "\tconst values = Object.entries(headers).\n",
    "\t\tfilter(h => h[0].toLowerCase() === lcName).\n",
    "\t\tmap(h => h[1]);\n",
    "\n",
    "\tif (values.find(v => matcher(v)) !== undefined) \x7b\n",
    "\t\treturn true;\n",
    "\t\x7d else if (values.length === 0) \x7b\n",
    "\t\tconsole.warn(`'$\x7bname\x7d' not present in response`);\n",
    "\t\x7d else \x7b\n",
    "\t\tvalues.forEach(v => console.warn(`'$\x7bname\x7d' has the value '$\x7bv\x7d'`));\n",
    "\t\x7d\n",
    "\n",
    "\treturn false;\n",
    "\x7d\n",
    "\n",
    "export default function() \x7b\n",
    "\tlet response;\n",
    "\tlet body;\n",
    "\tlet url;\n",
    "\tlet currentCheck;\n",
    "\tlet match;\n",
    "\tconst logResponse = "].map .lit

/-- `script.tmpl:78-91`: an entry up to the variables of its body. -/
def beforeBody (request : MultiHttpEntryRequest) : List Piece :=
  [source "\n\tconsole.log(\"Starting request to ", .data request.url,
    source "...\");\n\ttry \x7b\n\t\turl = new URL("] ++
  performVariableExpansion js request.url ++
  [source ");\n\t\x7d catch(e) \x7b\n\t\tconsole.error(\"Invalid URL: ", .data request.url,
    source "\");\n\t\tfail()\n\t\x7d", source "\n\t"] ++
  (buildQueryParams js "url" request).flatMap (· ++ [source ";\n\t"]) ++
  [source "\n\n\tbody = "] ++ buildBody request.body ++ [source ";", source "\n\t"]

/-- `script.tmpl:91`: the statements that replace the variables of the body. -/
def bodyStatements (request : MultiHttpEntryRequest) : List Piece :=
  (interpolateBodyVariables "body" request.body).flatMap (· ++ [source ";\n\t"])

/-- `script.tmpl:92-117`: the rest of an entry. -/
def afterBody (idx : Nat) (entry : MultiHttpEntry) (request : MultiHttpEntryRequest) :
    List Piece :=
  let method := methodString request.method
  let headers := buildHeaders js request.headers request.body
  [source "\n\tresponse = http.request('", .code method,
    source ("', url.toString(), body, \x7b\n" ++
      "\t\t// TODO(mem): build params out of options for the check\n" ++
      "\t\ttags: \x7b\n\t\t  name: '"),
    .code (.formatInt idx),
    source "', // TODO(mem): give the user some control over this?\n\t\t  __raw_url__: '",
    .data request.url, source "',\n\t\t\x7d,\n\t\tredirects: 0"] ++
  (if (text headers).length > 0 then [source ",\n\t\theaders: "] ++ headers else []) ++
  [source "\n\t\x7d);\n\tconsole.log(\"Response received from ", .data request.url,
    source (", status\", response.status);\n\tif(logResponse) \x7b\n" ++
      "\t\tconst body = response.body || ''\n\t\tconsole.log(\"Response body received from "),
    .data request.url,
    source (":\", body.slice(0, 1000));\n\t\x7d\n\tif(response.error) \x7b\n" ++
      "\t\tconsole.error(\"Request error:\" + url.toString() + \": \" + response.error)\n" ++
      "\t\x7d\n\t")] ++
  entry.assertions.flatMap (fun a ↦ buildChecks js "url" method a ++ [source "\n\t"]) ++
  entry.vars.flatMap (fun v ↦ buildVars js v ++ [source "\n\t"])

/-- The body of `range .Entries`, `script.tmpl:77-117`, with white space trimmed where the
actions ask for it. The URL stands in it five times as it is. -/
def entryScript (idx : Nat) (entry : MultiHttpEntry) (request : MultiHttpEntryRequest) :
    List Piece :=
  beforeBody js request ++ (bodyStatements request ++ afterBody js idx entry request)

/-- The rounds of `range .Entries`; `none` is the error of the template for a nil request. -/
def entryScripts (idx : Nat) : List MultiHttpEntry → Option (List Piece)
  | [] => some []
  | entry :: entries => do
    let request ← entry.request
    let rest ← entryScripts (idx + 1) entries
    return entryScript js idx entry request ++ rest

/-- `settingsToScript`, `script.go:438-465`. -/
def settingsToScript (settings : MultiHttpSettings) : Option (List Piece) := do
  let entries ← entryScripts js 0 settings.entries
  return preamble.map .code ++
    [source (if settings.logResponses then "true" else "false"),
      source "\n\tconst vars = \x7b\x7d;\n\n "] ++ entries ++ [source "\n\x7d\n"]

end
end SMAgent.Multihttp
