import SMAgent.Base.Float64

/-!
# Checks and their settings

The messages of `pkg/pb/synthetic_monitoring/checks.proto` as gogo-protobuf generates them,
with the fields that the modelled functions read. Field defaults are Go's zero values, a
nil pointer is `none`, and `int64` fields are integers: none of the arithmetic done on them
leaves the range. Enumerations are open in proto3, so each keeps the values without a name.
-/

namespace SMAgent.Pb
open SMAgent.Base

/-- `Label`, `checks.proto:279-282`. -/
structure Label where
  name : GoString := []
  value : GoString := []
  deriving DecidableEq, Repr

/-- `PingSettings`. -/
structure PingSettings where
  payloadSize : Int := 0
  packetCount : Int := 0
  deriving DecidableEq, Repr

/-- `HeaderMatch`; only the expression is validated. -/
structure HeaderMatch where
  regexp : GoString := []
  deriving DecidableEq, Repr

/-- `HttpSettings`. -/
structure HttpSettings where
  headers : List GoString := []
  proxyURL : GoString := []
  proxyConnectHeaders : List GoString := []
  failIfBodyMatchesRegexp : List GoString := []
  failIfBodyNotMatchesRegexp : List GoString := []
  failIfHeaderMatchesRegexp : List HeaderMatch := []
  failIfHeaderNotMatchesRegexp : List HeaderMatch := []
  deriving DecidableEq, Repr

/-- `DnsSettings`. -/
structure DnsSettings where
  server : GoString := []
  port : Int := 0
  deriving DecidableEq, Repr

/-- `TcpSettings`; nothing of it is validated. -/
structure TcpSettings where
  deriving DecidableEq, Repr

/-- `TracerouteSettings`; nothing of it is validated. -/
structure TracerouteSettings where
  deriving DecidableEq, Repr

/-- `GrpcSettings`; nothing of it is validated. -/
structure GrpcSettings where
  deriving DecidableEq, Repr

/-- `ScriptedSettings`. -/
structure ScriptedSettings where
  script : GoString := []
  deriving DecidableEq, Repr

/-- `BrowserSettings`. -/
structure BrowserSettings where
  script : GoString := []
  deriving DecidableEq, Repr

/-- `HttpMethod`, `checks.pb.go:170-180`. -/
inductive HttpMethod where
  | get | connect | delete | head | options | post | put | trace | patch
  | unrecognized (v : Int32)
  deriving DecidableEq, Repr

/-- `HttpHeader`. -/
structure HttpHeader where
  name : GoString := []
  value : GoString := []
  deriving DecidableEq, Repr

/-- `QueryField`. -/
structure QueryField where
  name : GoString := []
  value : GoString := []
  deriving DecidableEq, Repr

/-- `HttpRequestBody`. -/
structure HttpRequestBody where
  contentType : GoString := []
  contentEncoding : GoString := []
  payload : GoString := []
  deriving DecidableEq, Repr

/-- `MultiHttpEntryRequest`. -/
structure MultiHttpEntryRequest where
  method : HttpMethod := .get
  url : GoString := []
  headers : List HttpHeader := []
  queryFields : List QueryField := []
  body : Option HttpRequestBody := none
  deriving DecidableEq, Repr

/-- `MultiHttpEntryAssertionType`, `checks.pb.go:354-359`. -/
inductive AssertionType where
  | text | jsonPathValue | jsonPathAssertion | regexAssertion
  | unrecognized (v : Int32)
  deriving DecidableEq, Repr

/-- `MultiHttpEntryAssertionSubjectVariant`, `checks.pb.go:382-387`. -/
inductive AssertionSubject where
  | defaultSubject | responseHeaders | httpStatusCode | responseBody
  | unrecognized (v : Int32)
  deriving DecidableEq, Repr

/-- `MultiHttpEntryAssertionConditionVariant`, `checks.pb.go:413-421`. -/
inductive AssertionCondition where
  | defaultCondition | notContains | equals | startsWith | endsWith | typeOf | contains
  | unrecognized (v : Int32)
  deriving DecidableEq, Repr

/-- `MultiHttpEntryAssertion`. -/
structure MultiHttpEntryAssertion where
  type : AssertionType := .text
  subject : AssertionSubject := .defaultSubject
  condition : AssertionCondition := .defaultCondition
  expression : GoString := []
  value : GoString := []
  deriving DecidableEq, Repr

/-- `MultiHttpEntryVariableType`, `checks.pb.go:446-450`. -/
inductive VariableType where
  | jsonPath | regex | cssSelector
  | unrecognized (v : Int32)
  deriving DecidableEq, Repr

/-- `MultiHttpEntryVariable`. -/
structure MultiHttpEntryVariable where
  type : VariableType := .jsonPath
  name : GoString := []
  expression : GoString := []
  attr : GoString := []
  deriving DecidableEq, Repr

/-- `MultiHttpEntry`; the pointers of the two lists are never nil in a decoded message. -/
structure MultiHttpEntry where
  request : Option MultiHttpEntryRequest := none
  assertions : List MultiHttpEntryAssertion := []
  vars : List MultiHttpEntryVariable := []
  deriving DecidableEq, Repr

/-- `MultiHttpSettings`. -/
structure MultiHttpSettings where
  entries : List MultiHttpEntry := []
  logResponses : Bool := false
  deriving DecidableEq, Repr

/-- `CheckSettings`: nine pointers, of which a well-formed check sets one. -/
structure CheckSettings where
  ping : Option PingSettings := none
  http : Option HttpSettings := none
  dns : Option DnsSettings := none
  tcp : Option TcpSettings := none
  traceroute : Option TracerouteSettings := none
  scripted : Option ScriptedSettings := none
  multihttp : Option MultiHttpSettings := none
  grpc : Option GrpcSettings := none
  browser : Option BrowserSettings := none
  deriving DecidableEq, Repr

/-- `Check`, `checks.pb.go:1324-1341`. -/
structure Check where
  id : Int := 0
  tenantId : Int := 0
  frequency : Int := 0
  offset : Int := 0
  timeout : Int := 0
  enabled : Bool := false
  labels : List Label := []
  settings : CheckSettings := {}
  probes : List Int := []
  target : GoString := []
  job : GoString := []
  alertSensitivity : GoString := []
  modified : Float64 := Float64.zero
  deriving DecidableEq, Repr

/-- `AdHocCheck`, `checks.pb.go:1376-1384`. -/
structure AdHocCheck where
  id : GoString := []
  tenantId : Int := 0
  timeout : Int := 0
  settings : CheckSettings := {}
  probes : List Int := []
  target : GoString := []
  deriving DecidableEq, Repr

/-- `CheckType`, `checks_extra.go:303-315`. -/
inductive CheckType where
  | dns | http | ping | tcp | traceroute | scripted | multiHttp | grpc | browser
  deriving DecidableEq, Repr

/-- The cases of the type switch in source order: whether the settings are present, and the
type they give, `checks_extra.go:326-357`. -/
def CheckSettings.cases (s : CheckSettings) : List (Bool × CheckType) :=
  [(s.dns.isSome, .dns), (s.http.isSome, .http), (s.ping.isSome, .ping), (s.tcp.isSome, .tcp),
    (s.traceroute.isSome, .traceroute), (s.scripted.isSome, .scripted),
    (s.multihttp.isSome, .multiHttp), (s.grpc.isSome, .grpc), (s.browser.isSome, .browser)]

/-- The type switch that `Check` and `AdHocCheck` share: the first settings present decide,
and a message without settings panics. -/
def CheckSettings.type (s : CheckSettings) : Except Panic CheckType :=
  match s.cases.find? Prod.fst with
  | some (_, type) => .ok type
  | none => .error (.explicit (GoString.lit "unhandled check type"))

/-- `Check.Type`. -/
def Check.type (c : Check) : Except Panic CheckType := c.settings.type

/-- `AdHocCheck.Type`, `checks_extra.go:519-551`. -/
def AdHocCheck.type (c : AdHocCheck) : Except Panic CheckType := c.settings.type

/-- `Check.ConfigVersion`, `checks_extra.go:515-517`. -/
def Check.configVersion (c : Check) : GoString := GoString.formatInt c.modified.toInt64Nanos

end SMAgent.Pb
