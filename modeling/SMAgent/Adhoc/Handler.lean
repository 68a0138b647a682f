import SMAgent.Checks.Session
import SMAgent.Scraper.Series

/-!
# Ad-hoc checks

`internal/adhoc/adhoc.go`. The handler registers the probe, receives requests and starts a runner
for each of them, which runs the check once and publishes the result. If a request comes with its
tenant, the handler passes the tenant on, and receives nothing until it has been taken. An error in
a request is logged, one of the connection is slept over, but the end of the stream ends the
handler.

The steps are those of the handler, of its runners, and of whoever takes the tenants. A request is
not validated, so one without settings ends the process, and so does a prober that panics.
-/

namespace SMAgent.Adhoc
open SMAgent.Base SMAgent.Pb SMAgent.Model
open SMAgent.Checks (Code ContextError RegisterStatus)
open SMAgent.Scraper (MetricFamily checkTypeString)

/-- `Error`, `adhoc.go:50-61`. -/
inductive Error where
  | notAuthorized
  | transportClosing
  | probeUnregistered
  | incompatibleApi
  | invalidAdHocRequest
  | idleTimeout
  deriving DecidableEq, Repr

/-- `Error.Error`. -/
def Error.error : Error → GoString
  | .notAuthorized => .lit "probe not authorized"
  | .transportClosing => .lit "transport closing"
  | .probeUnregistered => .lit "probe no longer registered"
  | .incompatibleApi => .lit "API does not support required features"
  | .invalidAdHocRequest => .lit "invalid ad-hoc request"
  | .idleTimeout => .lit "connection idle timeout"

/-- An error of a call: a status, the error of a context, or any other. -/
inductive CallError where
  | status (code : Code) (message : GoString)
  | context (err : ContextError)
  | other (text : GoString)
  deriving DecidableEq, Repr

/-- The errors that `loop` returns. -/
inductive LoopError where
  | known (err : Error)
  | context (err : ContextError)
  /-- cannot create adhoc checks client -/
  | creatingClient (text : GoString)
  | call (action : GoString) (err : CallError)
  | status (code : Code) (message : GoString)
  /-- registering ad-hoc probe with synthetic-monitoring-api, response -/
  | response (message : GoString)
  | receiving (err : CallError)
  deriving DecidableEq, Repr

/-- `errors.Is(err, context.Canceled)`. -/
def LoopError.isCanceled : LoopError → Bool
  | .context .canceled => true
  | .call _ (.context .canceled) => true
  | .receiving (.context .canceled) => true
  | _ => false

/-- `grpcErrorHandler`, `adhoc.go:281-314`. -/
def grpcErrorHandler (action : GoString) : CallError → LoopError
  | .status code message =>
    if code = .canceled then .context .canceled
    else if message = .lit "transport is closing" then .known .transportClosing
    else if code = .unavailable then .known .idleTimeout
    else if code = .permissionDenied then .known .notAuthorized
    else if code = .unimplemented then .known .incompatibleApi
    else .status code message
  | err => .call action err

/-! ### Requests and results -/

/-- `AdHocRequest`, `checks.pb.go:1202-1205`. -/
structure AdHocRequest where
  adHocCheck : AdHocCheck
  tenant : Option Tenant := none

/-- What the handler is set up with: whether there is a k6 runner, the error or the panic of a
prober's `NewProber`, and the verb `%q`. -/
structure Env where
  k6Runner : Bool
  newProber : CheckType → Model.Check → Except Panic (Option GoString)
  quote : GoString → GoString

/-- The types whose checks are run by k6, `prober.go:94-122`. -/
def needsK6 : CheckType → Bool
  | .scripted | .browser | .multiHttp => true
  | _ => false

/-- `proberFactory.New`, `prober.go:60-132`: the name of the prober and its target. -/
def Env.newProberFor (env : Env) (type : CheckType) (check : Model.Check) :
    Except Panic (Except GoString (GoString × GoString)) :=
  if needsK6 type && !env.k6Runner then .ok (.error (.lit "k6 checks are not enabled"))
  else match env.newProber type check with
    | .error panic => .error panic
    | .ok (some err) => .ok (.error err)
    | .ok none => .ok (.ok (checkTypeString type,
        if type = .dns then (check.settings.dns.map DnsSettings.server).getD [] else check.target))

/-- The fields of `runner`, with the name of its prober. -/
structure Runner where
  id : GoString
  target : GoString
  probe : GoString
  checkName : GoString
  timeout : Int
  deriving DecidableEq, Repr

/-- The check of a request, `adhoc.go:431-452`. -/
def AdHocRequest.check (req : AdHocRequest) : Model.Check :=
  { tenantId := req.adHocCheck.tenantId
    target := req.adHocCheck.target
    timeout := req.adHocCheck.timeout
    settings := req.adHocCheck.settings
    enabled := true }

/-- `k6AdhocGraceTime`, in nanoseconds. -/
def k6AdhocGraceTime : Int := 20 * 1000000000

/-- `defaultRunnerFactory`, `adhoc.go:424-476`, for a check of this type. -/
def runnerFactory (env : Env) (probe : GoString) (type : CheckType) (req : AdHocRequest) :
    Except Panic (Except GoString Runner) :=
  if req.adHocCheck.tenantId = 0 then .ok (.error Error.invalidAdHocRequest.error)
  else (env.newProberFor type req.check).map fun made ↦ made.map fun (checkName, target) ↦
    { id := req.adHocCheck.id
      target, probe, checkName
      timeout := (req.check.timeout * 1000000 +
        if needsK6 type then k6AdhocGraceTime else 0).bmod (2 ^ 64) }

/-- `jsonLogger.Log`, `adhoc.go:505-521`: the entry of a call, unless it has an odd number of
arguments. -/
def jsonEntry (keyvals : List GoString) : Option (GoMap GoString GoString) :=
  if keyvals.length % 2 ≠ 0 then none
  else some (go keyvals ∅)
where
  go : List GoString → GoMap GoString GoString → GoMap GoString GoString
    | k :: v :: rest, m => go rest (m.insert k v)
    | _, m => m

/-- What a run of the prober gives: its result, the calls of the logger, and what `Gather` makes of
the registry, in which the two gauges of the runner are. -/
structure Outcome where
  success : Bool
  duration : Float64
  logs : List (List GoString)
  gather : Float64 → Float64 → List MetricFamily × Option GoString
  start : Int
  /-- the time since the start, in seconds -/
  elapsed : Float64
  executionID : GoString

/-- The line of a result, which is encoded as JSON. -/
structure Line where
  error : Option GoString
  id : GoString
  target : GoString
  probe : GoString
  checkName : GoString
  logs : List (GoMap GoString GoString)
  timeseries : List MetricFamily

/-- `adhocData`: its one stream has one entry. -/
structure AdhocData where
  tenantId : GlobalID
  labels : GoString
  timestamp : Int
  line : Line
  executionID : GoString

/-- The labels of the stream, `adhoc.go:595`. -/
def streamLabels (quote : GoString → GoString) (probe : GoString) : GoString :=
  .lit "\x7bprobe=" ++ quote probe ++ .lit ",source=\"synthetic-monitoring\",type=\"adhoc\"\x7d"

/-- `runner.Run`, `adhoc.go:525-615`: what is published. -/
def Runner.run (env : Env) (r : Runner) (tenantId : GlobalID) (outcome : Outcome) : AdhocData :=
  let success : Float64 := if outcome.success then .ofUInt64 1 else .zero
  let duration := if !outcome.duration.eq .zero then outcome.duration else outcome.elapsed
  let (timeseries, error) := outcome.gather success duration
  { tenantId
    labels := streamLabels env.quote r.probe
    timestamp := outcome.start
    line :=
      { error
        id := r.id
        target := r.target
        probe := r.probe
        checkName := r.checkName
        logs := outcome.logs.filterMap jsonEntry
        timeseries }
    executionID := outcome.executionID }

/-! ### The handler -/

/-- How long the handler sleeps: the answer of `Duration` to so many calls since `Reset`, or a
minute. -/
inductive Wait where
  | backoff (calls : Nat)
  | minute
  deriving DecidableEq, Repr

/-- Where the handler is. -/
inductive Phase where
  /-- before a call of `loop` -/
  | connecting
  | receiving
  /-- in the send of a tenant -/
  | forwarding (tenant : Tenant)
  /-- in `sleepCtx`, after which the back-off is reset or not -/
  | sleeping (reset : Bool)
  | returned (err : Option LoopError)

/-- A request that was received, and the name of the probe at that time. -/
structure Received where
  probe : GoString
  request : AdHocRequest

/-- A goroutine that runs a check, and how it has ended: with what it published, or with a panic, as
of the prober. -/
structure Spawned where
  runner : Runner
  tenantId : GlobalID
  ended : Option (Except Panic AdhocData) := none

/-- What a runner has published. -/
def Spawned.result (x : Spawned) : Option AdhocData := x.ended.bind Except.toOption

/-- The handler, its runners, what was published, the tenants that were taken, and the panic that
has ended the process. -/
structure State where
  phase : Phase := .connecting
  probe : GoString := []
  backoff : Nat := 0
  waits : List Wait := []
  /-- `ops_total` -/
  ops : List CheckType := []
  received : List Received := []
  runners : List Spawned := []
  published : List AdhocData := []
  forwarded : List Tenant := []
  panic : Option Panic := none

/-- `sleepCtx(ctx, h.backoff.Duration())`. -/
def State.sleepBackoff (s : State) : State :=
  { s with
    phase := .sleeping false
    backoff := s.backoff + 1
    waits := s.waits ++ [.backoff s.backoff] }

/-- The cases of `Run`, `adhoc.go:182-269`. -/
def State.handleError (s : State) : Option LoopError → State
  | none => { s with phase := .returned none }
  | some err =>
    if err = .known .notAuthorized ∨ err = .known .incompatibleApi then
      { s with phase := .returned (some err) }
    else if err = .known .transportClosing then { s with phase := .connecting, backoff := 0 }
    else if err = .known .idleTimeout then { s with backoff := 0 }.sleepBackoff
    else if err.isCanceled then { s with phase := .returned none }
    else if err = .known .probeUnregistered then
      { s with phase := .sleeping true, waits := s.waits ++ [.minute] }
    else s.sleepBackoff

/-- The answer to `RegisterProbe`, with the name of the probe. -/
structure RegisterProbeResult where
  status : RegisterStatus
  message : GoString := []
  probe : GoString
  deriving DecidableEq, Repr

/-- `loop`, `adhoc.go:273-355`, up to the first request: the error of the client's factory, and the
answers to the two calls. -/
def State.connect (s : State) (client : Option GoString)
    (register : Except CallError RegisterProbeResult) (getAdHocChecks : Option CallError) : State :=
  match client with
  | some err => s.handleError (some (.creatingClient err))
  | none =>
  match register with
  | .error err =>
    s.handleError (some
      (grpcErrorHandler (.lit "registering ad-hoc probe with synthetic-monitoring-api") err))
  | .ok result =>
  match result.status with
  | .notAuthorized => s.handleError (some (.known .notAuthorized))
  | .other => s.handleError (some (.response result.message))
  | .ok =>
    let s := { s with probe := result.probe }
    match getAdHocChecks with
    | some err =>
      s.handleError (some
        (grpcErrorHandler (.lit "requesting ad-hoc checks from synthetic-monitoring-api") err))
    | none => { s with phase := .receiving }

/-- `handleAdHocCheck`, `adhoc.go:390-413`. -/
def State.handleAdHocCheck (env : Env) (s : State) (req : AdHocRequest) : State :=
  let s : State := { s with received := s.received ++ [⟨s.probe, req⟩] }
  match req.adHocCheck.type with
  | .error p => { s with panic := some p }
  | .ok type =>
    let s := { s with ops := s.ops ++ [type] }
    match runnerFactory env s.probe type req with
    | .error p => { s with panic := some p }
    | .ok (.error _) => s
    | .ok (.ok runner) =>
      { s with
        runners := s.runners ++ [⟨runner, req.adHocCheck.tenantId, none⟩]
        phase := req.tenant.elim s.phase .forwarding }

/-- The end of the runner at this place: it publishes its result, or its panic ends the process. -/
def State.finish (env : Env) (s : State) (i : Nat) (outcome : Except Panic Outcome) :
    Option State :=
  match s.runners[i]?, outcome with
  | some ⟨runner, tenantId, none⟩, .ok outcome =>
    let data := runner.run env tenantId outcome
    some
      { s with
        runners := s.runners.set i ⟨runner, tenantId, some (.ok data)⟩
        published := s.published ++ [data] }
  | some ⟨runner, tenantId, none⟩, .error p =>
    some
      { s with
        runners := s.runners.set i ⟨runner, tenantId, some (.error p)⟩
        panic := some p }
  | _, _ => none

/-- What happens next. -/
inductive Action where
  | connect (client : Option GoString) (register : Except CallError RegisterProbeResult)
    (getAdHocChecks : Option CallError)
  /-- the context of the stream is done -/
  | streamDone
  | ctxDone (err : ContextError)
  | recv (req : AdHocRequest)
  | eof
  | recvError (err : CallError)
  /-- the tenant is taken from the channel -/
  | taken
  /-- `sleepCtx` returns -/
  | wake (err : Option ContextError)
  /-- a runner ends or panics -/
  | finish (i : Nat) (outcome : Except Panic Outcome)

/-- A step of a process that runs, if it is possible in this state. -/
def State.act (env : Env) (s : State) : Action → Option State
  | .connect client register getAdHocChecks =>
    match s.phase with
    | .connecting => some (s.connect client register getAdHocChecks)
    | _ => none
  | .streamDone =>
    match s.phase with
    | .receiving => some (s.handleError none)
    | _ => none
  | .ctxDone err =>
    match s.phase with
    | .receiving => some (s.handleError (some (.context err)))
    | _ => none
  | .recv req =>
    match s.phase with
    | .receiving => some (s.handleAdHocCheck env req)
    | _ => none
  | .eof =>
    match s.phase with
    | .receiving => some (s.handleError none)
    | _ => none
  | .recvError err =>
    match s.phase with
    | .receiving => some (s.handleError (some (.receiving err)))
    | _ => none
  | .taken =>
    match s.phase with
    | .forwarding tenant =>
      some { s with phase := .receiving, forwarded := s.forwarded ++ [tenant] }
    | _ => none
  | .wake err =>
    match s.phase with
    | .sleeping reset =>
      match err with
      | some err => some { s with phase := .returned (some (.context err)) }
      | none => some { s with phase := .connecting, backoff := if reset then 0 else s.backoff }
    | _ => none
  | .finish i outcome => s.finish env i outcome

/-- A step, unless the process is gone. -/
def step (env : Env) (s : State) (a : Action) : Option State :=
  match s.panic with
  | some _ => none
  | none => s.act env a

/-- The steps as a relation. -/
def Step (env : Env) (s : State) (a : Action) (s' : State) : Prop := step env s a = some s'

end SMAgent.Adhoc
