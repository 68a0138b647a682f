import SMAgent.TestApi.ChecksServer

/-!
# The updater's connections

`internal/checks/checks.go:276-672`. The updater registers the probe, asks for the changes, and
handles them until the connection ends; then it waits and tries again, or gives up. What other
parts of the agent see of this is a sequence of effects: the connection gauge, the readiness
callback, the channel that hands out the probe, the requests, and the waits. The effects of every
run follow a simple protocol, and the attempts alone determine the requests, the waits and the end.
-/

namespace SMAgent.Checks
open SMAgent.Base SMAgent.Pb SMAgent.Model SMAgent.TestApi
open GoString (lit)

/-- The status codes of `google.golang.org/grpc/codes` that are told apart. -/
inductive Code where
  | canceled | unavailable | permissionDenied | unimplemented
  | other (code : Nat)
  deriving DecidableEq, Repr

/-- What the `Err` method of a context returns. -/
inductive ContextError where
  | canceled | deadlineExceeded
  deriving DecidableEq, Repr

/-- An error of a call: a status, or any other error, which `ping` may have wrapped. -/
inductive CallError where
  | status (code : Code) (message : GoString)
  | context (err : ContextError)
  | other (text : GoString)
  | pingContext (err : ContextError)
  | pingOther (text : GoString)
  deriving DecidableEq, Repr

/-- The errors that `loop` and `Run` return. -/
inductive LoopError where
  | context (err : ContextError)
  | transient (text : GoString)
  | fatal (text : GoString)
  | status (code : Code) (message : GoString)
  | wrapped (action : GoString) (err : CallError)
  | plain (text : GoString)
  deriving DecidableEq, Repr

/-- `checks.go:49`. -/
def errCapabilityK6Missing : LoopError :=
  .fatal (lit "k6 is required for scripted check support - " ++
    lit "configure k6 or edit probe capabilities in the SM app")

/-- `checks.go:50`. -/
def errIncompatibleApi : LoopError :=
  .fatal (lit "API does not support required features")

/-- `checks.go:51`. -/
def errNotAuthorized : LoopError := .fatal (lit "probe not authorized")

/-- `checks.go:52`. -/
def errProbeUnregistered : LoopError := .transient (lit "probe no longer registered")

/-- `checks.go:53`. -/
def errTransportClosing : LoopError := .transient (lit "transport closing")

/-- `Probe.Capabilities`. -/
structure Capabilities where
  disableScriptedChecks : Bool
  disableBrowserChecks : Bool
  deriving DecidableEq, Repr

/-- The status of the answer to `RegisterProbe`. -/
inductive RegisterStatus where
  | ok | notAuthorized | other
  deriving DecidableEq, Repr

/-- `sm.RegisterProbeResult`, with what the updater reads of the probe. -/
structure RegisterProbeResult where
  status : RegisterStatus
  message : GoString := []
  probeId : Int
  capabilities : Option Capabilities
  deriving DecidableEq, Repr

/-- What one round of `Run` meets: the answers to the calls, the messages and how the stream ends
(`none` is `io.EOF`), the answer to the first ping, the number of later pings and the error that
ends them, which of the two goroutines returns first, whether the signal fired, and how the wait
ends. -/
structure Attempt where
  register : Except CallError RegisterProbeResult
  getChanges : Option CallError := none
  messages : List Changes := []
  streamEnd : Option CallError := none
  firstPing : Option CallError := none
  laterPings : Nat := 0
  laterPing : CallError := .context .canceled
  pingFirst : Bool := true
  signalFired : Bool := false
  sleep : Option ContextError := none

/-- What others see of the updater. -/
inductive Effect where
  | registerProbe
  | probe (id : Int)
  | closeProbeCh
  | connectionStatus (up : Bool)
  | isConnected (up : Bool)
  | getChanges (known : ProbeState)
  | ping (sequence : Nat)
  | wait (attempt : Nat)
  | reset
  deriving DecidableEq, Repr

/-- How the updater was set up: whether there is a k6 runner, and a channel for the probe. -/
structure Config where
  k6Runner : Bool
  probeCh : Bool

/-- The updater between its calls: its scrapers, `probeTenantOnce`, the number of calls of
`backoff.Duration` since the last `Reset`, and the effects so far. -/
structure Session where
  updater : Updater := {}
  probeTenantOnce : Bool := false
  backoff : Nat := 0
  log : List Effect := []

namespace Session

/-- One more effect. -/
def emit (s : Session) (e : Effect) : Session := { s with log := s.log ++ [e] }

/-- `notifyProbeTenant`, `checks.go:548-556`. -/
def notifyProbeTenant (cfg : Config) (s : Session) (probeId : Int) : Session :=
  if s.probeTenantOnce then s
  else
    let s := { s with probeTenantOnce := true }
    if cfg.probeCh then (s.emit (.probe probeId)).emit .closeProbeCh else s

/-- The two deferred calls of `loop`, `checks.go:426,432`. -/
def disconnect (s : Session) : Session :=
  (s.emit (.isConnected false)).emit (.connectionStatus false)

end Session

/-- `grpcErrorHandler`, `checks.go:361-388`. -/
def grpcErrorHandler (action : GoString) : CallError → LoopError
  | .status code message =>
    if code = .canceled then .context .canceled
    else if message = lit "transport is closing" then errTransportClosing
    else if code = .unavailable then .transient (action ++ lit ": " ++ message)
    else if code = .permissionDenied then errNotAuthorized
    else if code = .unimplemented then errIncompatibleApi
    else .status code message
  | err => .wrapped action err

/-- `errorHandler`, `checks.go:459-470`. -/
def errorHandler (err : Option CallError) (action : GoString) (signalFired : Bool) :
    Option LoopError :=
  match err with
  | none => none
  | some err => some (if signalFired then errProbeUnregistered else grpcErrorHandler action err)

/-- `validateProbeCapabilities`, `checks.go:532-544`. -/
def validateProbeCapabilities (cfg : Config) (capabilities : Option Capabilities) :
    Option LoopError :=
  let requireK6 := capabilities.all fun c ↦ !c.disableScriptedChecks || !c.disableBrowserChecks
  if requireK6 && !cfg.k6Runner then some errCapabilityK6Missing else none

/-- `ping`, `checks.go:561-607`: the number of its calls, and its error. -/
def ping (first : Option CallError) (laterPings : Nat) (later : CallError) :
    Nat × Option CallError :=
  match first with
  | none => (1 + laterPings, some later)
  | some (.status code message) =>
    (1, if code = .unimplemented then none else some (.status code message))
  | some (.context err) => (1, some (.pingContext err))
  | some (.other text) => (1, some (.pingOther text))
  | some err => (1, some err)

/-- The goroutine of `checks.go:492-497`. -/
def Attempt.ping (a : Attempt) : Nat × Option CallError :=
  Checks.ping a.firstPing a.laterPings a.laterPing

/-- `g.Wait()`: the first error of the two goroutines, when both have returned. -/
def Attempt.wait (a : Attempt) : Option CallError :=
  if a.pingFirst then a.ping.2.or a.streamEnd else a.streamEnd.or a.ping.2

/-- The pings, with the sequence numbers of their requests. -/
def Attempt.pings (a : Attempt) : List Effect := (List.range a.ping.1).map .ping

/-- `loop`, `checks.go:354-530`: the session, whether it was connected, and the error. -/
def loop (env : Env) (cfg : Config) (s : Session) (a : Attempt) :
    Outcome (Session × Bool × Option LoopError) :=
  let s := s.emit .registerProbe
  match a.register with
  | .error err =>
    .ok (s, false, some (grpcErrorHandler
      (lit "registering probe with synthetic-monitoring-api") err))
  | .ok result =>
    match result.status with
    | .notAuthorized => .ok (s, false, some errNotAuthorized)
    | .other => .ok (s, false, some (.plain (lit
        "registering probe with synthetic-monitoring-api, response: " ++ result.message)))
    | .ok =>
      match validateProbeCapabilities cfg result.capabilities with
      | some err => .ok (s, false, some err)
      | none =>
        let s := (((s.notifyProbeTenant cfg result.probeId).emit (.connectionStatus true)).emit
          (.isConnected true)).emit (.getChanges (probeState s.updater))
        match a.getChanges with
        | some err => .ok (s.disconnect, true, errorHandler (some err)
            (lit "requesting changes from synthetic-monitoring-api") a.signalFired)
        | none => (processChanges env s.updater a.messages).map fun updater ↦
            ({ s with updater, log := s.log ++ a.pings }.disconnect, true, errorHandler a.wait
              (lit "getting changes from synthetic-monitoring-api") a.signalFired)

/-- `errors.Is(err, context.Canceled)`. -/
def LoopError.isCanceled : LoopError → Bool
  | .context .canceled => true
  | .wrapped _ (.context .canceled) => true
  | .wrapped _ (.pingContext .canceled) => true
  | _ => false

/-- `sleepCtx(ctx, backoff.Duration())`. -/
def Session.sleep (s : Session) : Session :=
  { s with backoff := s.backoff + 1 }.emit (.wait s.backoff)

/-- `backoff.Reset()`. -/
def Session.reset (s : Session) : Session := { s with backoff := 0 }.emit .reset

/-- `handleError`, `checks.go:301-351`: the session, and what `Run` returns if it is done. -/
def handleError (s : Session) (wasConnected : Bool) (err : Option LoopError)
    (sleep : Option ContextError) : Session × Option (Option LoopError) :=
  match err with
  | none => (s, some none)
  | some (.transient _) =>
    match sleep with
    | some e => (s.sleep, some (some (.context e)))
    | none => (if wasConnected then s.sleep.reset else s.sleep, none)
  | some (.fatal text) => (s, some (some (.fatal text)))
  | some err =>
    if err.isCanceled then (s, some none)
    else match sleep with
      | some e => (s.sleep, some (some (.context e)))
      | none => (s.sleep, none)

/-- The loop of `Run`, `checks.go:279-292`: the session and what `Run` returns, if it does. -/
def run (env : Env) (cfg : Config) : Session → List Attempt →
    Outcome (Session × Option (Option LoopError))
  | s, [] => .ok (s, none)
  | s, a :: rest => do
    let (s, wasConnected, err) ← loop env cfg s a
    match handleError s wasConnected err a.sleep with
    | (s, none) => run env cfg s rest
    | (s, some result) => .ok (s, some result)

/-- `Run`, `checks.go:276-292`. -/
def Run (env : Env) (cfg : Config) (attempts : List Attempt) :
    Outcome (Session × Option (Option LoopError)) :=
  run env cfg (({} : Session).reset) attempts

/-! ### The protocol -/

/-- Where a connection is. -/
inductive Phase where
  | out | raised | connected | requested | lowered
  deriving DecidableEq, Repr

/-- What may happen next: the phase, whether the probe was handed out and its channel closed, the
pings of this connection, the waits since the last reset, and whether the last attempt was
connected. -/
structure Protocol where
  phase : Phase := .out
  told : Bool := false
  shut : Bool := false
  pings : Nat := 0
  waits : Nat := 0
  reached : Bool := false
  deriving DecidableEq, Repr

/-- The effects that may follow. A connection raises the gauge and the flag, asks once for the
changes, sends pings that are numbered, and lowers both again. The probe is handed out once, and
the channel closed after it. The waits are numbered from the last reset, which comes after a
connected attempt. -/
def Protocol.next (p : Protocol) : Effect → Option Protocol
  | .registerProbe => if p.phase = .out then some { p with reached := false } else none
  | .probe _ =>
    if p.phase = .out ∧ p.told = false ∧ p.shut = false then some { p with told := true } else none
  | .closeProbeCh => if p.told = true ∧ p.shut = false then some { p with shut := true } else none
  | .connectionStatus true => if p.phase = .out then some { p with phase := .raised } else none
  | .isConnected true =>
    if p.phase = .raised then some { p with phase := .connected, reached := true } else none
  | .getChanges _ =>
    if p.phase = .connected then some { p with phase := .requested, pings := 0 } else none
  | .ping sequence =>
    if p.phase = .requested ∧ sequence = p.pings then some { p with pings := p.pings + 1 } else none
  | .isConnected false => if p.phase = .requested then some { p with phase := .lowered } else none
  | .connectionStatus false => if p.phase = .lowered then some { p with phase := .out } else none
  | .wait attempt =>
    if p.phase = .out ∧ attempt = p.waits then some { p with waits := p.waits + 1 } else none
  | .reset =>
    if p.phase = .out ∧ (p.reached = true ∨ p.waits = 0) then some { p with waits := 0 } else none

/-- The effects lead the protocol from its start to `p`. -/
def Follows (log : List Effect) (p : Protocol) : Prop := log.foldlM Protocol.next {} = some p

/-- Between two calls the session is at `p`. -/
structure At (s : Session) (p : Protocol) : Prop where
  follows : Follows s.log p
  phase : p.phase = .out
  waits : p.waits = s.backoff
  told : p.told = p.shut
  once : s.probeTenantOnce = false → p.told = false

variable {env : Env} {cfg : Config} {s s' : Session} {p p' : Protocol}

private theorem Follows.concat {log : List Effect} {e : Effect} (h : Follows log p)
    (he : p.next e = some p') : Follows (log ++ [e]) p' := by
  unfold Follows at h ⊢
  rw [List.foldlM_append, h]
  exact (bind_pure _).trans he

private theorem Follows.pings {log : List Effect} (h : Follows log p)
    (hphase : p.phase = .requested) (hpings : p.pings = 0) (n : Nat) :
    Follows (log ++ (List.range n).map Effect.ping) { p with pings := n } := by
  induction n with
  | zero =>
    rw [List.range_zero, List.map_nil, List.append_nil, ← hpings]
    exact h
  | succ n ih =>
    rw [List.range_succ, List.map_append, List.map_singleton, ← List.append_assoc]
    refine ih.concat ?_
    rw [Protocol.next, if_pos ⟨hphase, rfl⟩]

-- The effects of one connection with `n` pings, after those of the registration.
private def connectionLog (log : List Effect) (known : ProbeState) (n : Nat) : List Effect :=
  log ++ [.connectionStatus true] ++ [.isConnected true] ++ [.getChanges known] ++
    (List.range n).map .ping ++ [.isConnected false] ++ [.connectionStatus false]

-- From a session with a registered probe to the end of its connection.
private structure Connects (s : Session) (known : ProbeState) (n : Nat) (s' : Session) : Prop where
  log : s'.log = connectionLog s.log known n
  backoff : s'.backoff = s.backoff
  once : s'.probeTenantOnce = s.probeTenantOnce

private theorem At.connects (h : At s p) {known : ProbeState} {n : Nat}
    (hc : Connects s known n s') : At s' { p with reached := true, pings := n } := by
  refine ⟨?_, h.phase, h.waits.trans hc.backoff.symm, h.told, by rw [hc.once]; exact h.once⟩
  rw [hc.log]
  refine Follows.concat (p := { p with phase := .lowered, reached := true, pings := n }) ?_ ?_
  · refine Follows.concat (p := { p with phase := .requested, reached := true, pings := n }) ?_ rfl
    refine Follows.pings (p := { p with phase := .requested, reached := true, pings := 0 })
      ?_ rfl rfl n
    refine Follows.concat (p := { p with phase := .connected, reached := true }) ?_ rfl
    refine Follows.concat (p := { p with phase := .raised }) ?_ rfl
    refine h.follows.concat ?_
    rw [Protocol.next, if_pos h.phase]
  · rw [Protocol.next, if_pos rfl, h.phase]

private theorem log_disconnect (s : Session) (known : ProbeState) :
    (((s.emit (.connectionStatus true)).emit (.isConnected true)).emit
      (.getChanges known)).disconnect.log = connectionLog s.log known 0 := by
  simp [Session.emit, Session.disconnect, connectionLog]

private theorem At.registerProbe (h : At s p) :
    At (s.emit .registerProbe) { p with reached := false } := by
  refine ⟨h.follows.concat ?_, h.phase, h.waits, h.told, h.once⟩
  rw [Protocol.next, if_pos h.phase]

private theorem At.notifyProbeTenant (h : At s p) (cfg : Config) (probeId : Int) :
    ∃ p', At (s.notifyProbeTenant cfg probeId) p' := by
  unfold Session.notifyProbeTenant
  split
  · exact ⟨p, h⟩
  · next honce =>
    have htold := h.once (by simpa using honce)
    have hshut : p.shut = false := by rw [← h.told, htold]
    dsimp only
    split
    · refine ⟨{ p with told := true, shut := true }, ?_, h.phase, h.waits, rfl, nofun⟩
      refine Follows.concat (p := { p with told := true }) ?_ ?_
      · refine h.follows.concat ?_
        rw [Protocol.next, if_pos ⟨h.phase, htold, hshut⟩]
      · rw [Protocol.next, if_pos ⟨rfl, hshut⟩]
    · exact ⟨p, h.follows, h.phase, h.waits, h.told, nofun⟩

private theorem At.sleep (h : At s p) : At s.sleep { p with waits := p.waits + 1 } := by
  refine ⟨h.follows.concat ?_, h.phase, ?_, h.told, h.once⟩
  · rw [Protocol.next, if_pos ⟨h.phase, h.waits.symm⟩]
  · show p.waits + 1 = s.backoff + 1
    rw [h.waits]

private theorem At.reset (h : At s p) (hreached : p.reached = true ∨ p.waits = 0) :
    At s.reset { p with waits := 0 } := by
  refine ⟨h.follows.concat ?_, h.phase, rfl, h.told, h.once⟩
  rw [Protocol.next, if_pos ⟨h.phase, hreached⟩]

/-! ### How a run goes on and ends -/

/-- The error tells that the updater was canceled. -/
def CallError.cancels : CallError → Bool
  | .status .canceled _ => true
  | .context .canceled => true
  | .pingContext .canceled => true
  | _ => false

/-- After this error of a call the updater does not try again, and returns `result`. -/
def CallError.Settles (err : CallError) (result : Option LoopError) : Prop :=
  err.cancels = true ∧ result = none ∨
    ∃ message, message ≠ lit "transport is closing" ∧
      (err = .status .permissionDenied message ∧ result = some errNotAuthorized ∨
        err = .status .unimplemented message ∧ result = some errIncompatibleApi)

/-- The probe was registered, and the updater can run its checks. -/
def Attempt.accepted (cfg : Config) (a : Attempt) : Bool :=
  match a.register with
  | .error _ => false
  | .ok result =>
    result.status = .ok && (validateProbeCapabilities cfg result.capabilities).isNone

/-- The attempt fails with this error of a call, and not because of a signal. -/
def Attempt.Fails (cfg : Config) (a : Attempt) (err : CallError) : Prop :=
  a.register = .error err ∨
    a.accepted cfg = true ∧ a.signalFired = false ∧ a.getChanges.or a.wait = some err

/-- The server ended the stream, and does not know pings. -/
def Attempt.Unattended (a : Attempt) : Prop :=
  a.streamEnd = none ∧ ∃ message, a.firstPing = some (.status .unimplemented message)

/-- After the attempt the updater returns `result` at once: the probe was not authorized, k6 is
missing, a call failed for good or was canceled, or a server that does not know pings ended the
stream. -/
inductive Attempt.Final (cfg : Config) (a : Attempt) : Option LoopError → Prop where
  | refused {result : RegisterProbeResult} : a.register = .ok result →
      result.status = .notAuthorized → Final cfg a (some errNotAuthorized)
  | k6Missing {result : RegisterProbeResult} : a.register = .ok result → result.status = .ok →
      validateProbeCapabilities cfg result.capabilities ≠ none →
      Final cfg a (some errCapabilityK6Missing)
  | failed {err : CallError} {result : Option LoopError} : a.Fails cfg err → err.Settles result →
      Final cfg a result
  | unattended : a.accepted cfg = true → a.getChanges = none → a.Unattended → Final cfg a none

/-- The requests and the waits. -/
inductive Call where
  | registerProbe
  | getChanges
  | ping (sequence : Nat)
  | wait
  deriving DecidableEq, Repr

/-- What is left of the effects. -/
def Effect.call? : Effect → Option Call
  | .registerProbe => some .registerProbe
  | .getChanges _ => some .getChanges
  | .ping sequence => some (.ping sequence)
  | .wait _ => some .wait
  | _ => none

/-- The requests of an attempt. -/
def Attempt.calls (cfg : Config) (a : Attempt) : List Call :=
  .registerProbe :: if a.accepted cfg then
    .getChanges :: if a.getChanges = none then (List.range a.ping.1).map .ping else []
  else []

/-- The calls and the result of a run over some attempts: it returns after an attempt that is final,
waits after each other one, and returns also if the wait is interrupted. -/
inductive Ending (cfg : Config) :
    List Attempt → List Call → Option (Option LoopError) → Prop where
  | pending : Ending cfg [] [] none
  | final {a : Attempt} {rest : List Attempt} {result : Option LoopError} : a.Final cfg result →
      Ending cfg (a :: rest) (a.calls cfg) (some result)
  | interrupted {a : Attempt} {rest : List Attempt} {err : ContextError} :
      (∀ result, ¬ a.Final cfg result) → a.sleep = some err →
      Ending cfg (a :: rest) (a.calls cfg ++ [.wait]) (some (some (.context err)))
  | retried {a : Attempt} {rest : List Attempt} {calls : List Call}
      {result : Option (Option LoopError)} : (∀ result, ¬ a.Final cfg result) → a.sleep = none →
      Ending cfg rest calls result →
      Ending cfg (a :: rest) (a.calls cfg ++ .wait :: calls) result

variable {a : Attempt} {connected : Bool} {action : GoString} {result : Option LoopError}

-- What `handleError` makes of an error, if it does not wait.
private def verdict : Option LoopError → Option (Option LoopError)
  | none => some none
  | some (.transient _) => none
  | some (.fatal text) => some (some (.fatal text))
  | some err => if err.isCanceled then some none else none

private theorem verdict_grpcErrorHandler {err : CallError} :
    verdict (some (grpcErrorHandler action err)) = some result ↔ err.Settles result := by
  cases err with
  | status code message =>
    by_cases hclosing : message = lit "transport is closing"
    · cases code <;>
        simp [grpcErrorHandler, hclosing, verdict, errTransportClosing, CallError.Settles,
          CallError.cancels, LoopError.isCanceled, eq_comm]
    · cases code <;>
        simp [grpcErrorHandler, hclosing, verdict, errNotAuthorized, errIncompatibleApi,
          CallError.Settles, CallError.cancels, LoopError.isCanceled, eq_comm]
  | context err => cases err <;> simp [grpcErrorHandler, verdict, CallError.Settles,
      CallError.cancels, LoopError.isCanceled, eq_comm]
  | pingContext err => cases err <;> simp [grpcErrorHandler, verdict, CallError.Settles,
      CallError.cancels, LoopError.isCanceled, eq_comm]
  | other text => simp [grpcErrorHandler, verdict, CallError.Settles, CallError.cancels,
      LoopError.isCanceled]
  | pingOther text => simp [grpcErrorHandler, verdict, CallError.Settles, CallError.cancels,
      LoopError.isCanceled]

private theorem wait_eq_none_iff : a.wait = none ↔ a.Unattended := by
  have hboth : a.wait = none ↔ a.streamEnd = none ∧ a.ping.2 = none := by
    unfold Attempt.wait
    split
    · rw [Option.or_eq_none_iff, and_comm]
    · rw [Option.or_eq_none_iff]
  rw [hboth, Attempt.Unattended, Attempt.ping]
  refine and_congr_right fun _ ↦ ?_
  cases a.firstPing with
  | none => simp [ping]
  | some err => cases err <;> simp [ping]

-- The error of `loop`, which does not depend on the session.
private def loopError (cfg : Config) (a : Attempt) : Option LoopError :=
  match a.register with
  | .error err =>
    some (grpcErrorHandler (lit "registering probe with synthetic-monitoring-api") err)
  | .ok result =>
    match result.status with
    | .notAuthorized => some errNotAuthorized
    | .other => some (.plain (lit
        "registering probe with synthetic-monitoring-api, response: " ++ result.message))
    | .ok =>
      match validateProbeCapabilities cfg result.capabilities with
      | some err => some err
      | none =>
        match a.getChanges with
        | some err => errorHandler (some err)
            (lit "requesting changes from synthetic-monitoring-api") a.signalFired
        | none => errorHandler a.wait
            (lit "getting changes from synthetic-monitoring-api") a.signalFired

private theorem accepted_iff : a.accepted cfg = true ↔ ∃ r, a.register = .ok r ∧ r.status = .ok ∧
    validateProbeCapabilities cfg r.capabilities = none := by
  unfold Attempt.accepted
  cases a.register with
  | error err => simp
  | ok r => simp

private theorem filterMap_notifyProbeTenant (s : Session) (cfg : Config) (probeId : Int) :
    (s.notifyProbeTenant cfg probeId).log.filterMap Effect.call? =
      s.log.filterMap Effect.call? := by
  unfold Session.notifyProbeTenant
  split
  · rfl
  · dsimp only
    split
    · simp [Session.emit, Effect.call?]
    · rfl

private theorem filterMap_connectionLog (log : List Effect) (known : ProbeState) (n : Nat) :
    (connectionLog log known n).filterMap Effect.call? =
      log.filterMap Effect.call? ++ .getChanges :: (List.range n).map .ping := by
  have hpings : ((List.range n).map Effect.ping).filterMap Effect.call? =
      (List.range n).map Call.ping := by
    rw [List.filterMap_map, ← List.filterMap_eq_map]
    rfl
  simp only [connectionLog, List.filterMap_append, hpings, List.append_assoc]
  exact congrArg (log.filterMap Effect.call? ++ .getChanges :: ·) (List.append_nil _)

private theorem loop_cases {err : Option LoopError}
    (h : loop env cfg s a = .ok (s', connected, err)) : err = loopError cfg a ∧
    (a.accepted cfg = false ∧ connected = false ∧ s' = s.emit .registerProbe ∨
      a.accepted cfg = true ∧ ∃ probeId known,
        Connects ((s.emit .registerProbe).notifyProbeTenant cfg probeId) known
          (if a.getChanges = none then a.ping.1 else 0) s') := by
  simp only [loop] at h
  split at h
  · next hreg =>
    cases h
    exact ⟨by simp [loopError, hreg], .inl ⟨by simp [Attempt.accepted, hreg], rfl, rfl⟩⟩
  · next r hreg =>
    split at h
    · next hstatus =>
      cases h
      exact ⟨by simp [loopError, hreg, hstatus],
        .inl ⟨by simp [Attempt.accepted, hreg, hstatus], rfl, rfl⟩⟩
    · next hstatus =>
      cases h
      exact ⟨by simp [loopError, hreg, hstatus],
        .inl ⟨by simp [Attempt.accepted, hreg, hstatus], rfl, rfl⟩⟩
    · next hstatus =>
      split at h
      · next hvalid =>
        cases h
        exact ⟨by simp [loopError, hreg, hstatus, hvalid],
          .inl ⟨by simp [Attempt.accepted, hreg, hvalid], rfl, rfl⟩⟩
      · next hvalid =>
        have haccepted := accepted_iff.mpr ⟨r, hreg, hstatus, hvalid⟩
        split at h
        · next hchanges =>
          cases h
          refine ⟨by simp [loopError, hreg, hstatus, hvalid, hchanges], .inr ⟨haccepted, ?_⟩⟩
          rw [hchanges]
          exact ⟨_, _, log_disconnect _ _, rfl, rfl⟩
        · next hchanges =>
          obtain ⟨updater, -, heq⟩ := except_map_eq_ok.mp h
          cases heq
          refine ⟨by simp [loopError, hreg, hstatus, hvalid, hchanges], .inr ⟨haccepted, ?_⟩⟩
          rw [hchanges]
          exact ⟨_, _, rfl, rfl, rfl⟩

private theorem At.loop {err : Option LoopError} (h : At s p)
    (hloop : loop env cfg s a = .ok (s', connected, err)) :
    ∃ p', At s' p' ∧ (connected = true → p'.reached = true) := by
  rcases (loop_cases hloop).2 with ⟨-, rfl, rfl⟩ | ⟨-, probeId, known, hconnects⟩
  · exact ⟨_, h.registerProbe, nofun⟩
  · obtain ⟨p₁, hp₁⟩ := h.registerProbe.notifyProbeTenant cfg probeId
    exact ⟨_, hp₁.connects hconnects, fun _ ↦ rfl⟩

private theorem calls_loop {err : Option LoopError}
    (h : loop env cfg s a = .ok (s', connected, err)) :
    s'.log.filterMap Effect.call? = s.log.filterMap Effect.call? ++ a.calls cfg := by
  have hregister : (s.emit .registerProbe).log.filterMap Effect.call? =
      s.log.filterMap Effect.call? ++ [.registerProbe] := by simp [Session.emit, Effect.call?]
  rw [Attempt.calls]
  rcases (loop_cases h).2 with ⟨hnot, -, rfl⟩ | ⟨haccepted, probeId, known, hconnects⟩
  · rw [hnot, hregister]
    rfl
  · rw [if_pos haccepted, hconnects.log, filterMap_connectionLog, filterMap_notifyProbeTenant,
      hregister, List.append_assoc]
    split
    · rfl
    · rfl

private theorem verdict_errorHandler {call : Option CallError} {signal : Bool} :
    verdict (errorHandler call action signal) = some result ↔
      call = none ∧ result = none ∨ ∃ err, call = some err ∧ signal = false ∧
        err.Settles result := by
  cases call with
  | none => simp [errorHandler, verdict, eq_comm]
  | some err =>
    cases signal with
    | true => simp [errorHandler, verdict, errProbeUnregistered]
    | false => simp [errorHandler, verdict_grpcErrorHandler]

private theorem loopError_of_accepted (h : a.accepted cfg = true) : ∃ action,
    loopError cfg a = errorHandler (a.getChanges.or a.wait) action a.signalFired := by
  obtain ⟨r, hreg, hstatus, hvalid⟩ := accepted_iff.mp h
  cases hchanges : a.getChanges with
  | none => exact ⟨_, by simp only [loopError, hreg, hstatus, hvalid, hchanges]; rfl⟩
  | some err => exact ⟨_, by simp only [loopError, hreg, hstatus, hvalid, hchanges]; rfl⟩

private theorem validateProbeCapabilities_eq_some {capabilities : Option Capabilities}
    {err : LoopError} (h : validateProbeCapabilities cfg capabilities = some err) :
    err = errCapabilityK6Missing := by
  unfold validateProbeCapabilities at h
  dsimp only at h
  split at h
  · exact (Option.some.inj h).symm
  · cases h

-- What is done about the error of an attempt is what the attempt says itself.
private theorem verdict_loopError :
    verdict (loopError cfg a) = some result ↔ a.Final cfg result := by
  constructor
  · intro h
    by_cases haccepted : a.accepted cfg = true
    · obtain ⟨action, herror⟩ := loopError_of_accepted haccepted
      rw [herror, verdict_errorHandler] at h
      rcases h with ⟨hnone, rfl⟩ | ⟨err, herr, hsignal, hsettles⟩
      · obtain ⟨hchanges, hwait⟩ := Option.or_eq_none_iff.mp hnone
        exact .unattended haccepted hchanges (wait_eq_none_iff.mp hwait)
      · exact .failed (.inr ⟨haccepted, hsignal, herr⟩) hsettles
    · unfold loopError at h
      split at h
      · next hreg => exact .failed (.inl hreg) (verdict_grpcErrorHandler.mp h)
      · next r hreg =>
        split at h
        · next hstatus =>
          cases h
          exact .refused hreg hstatus
        · cases h
        · next hstatus =>
          split at h
          · next hvalid =>
            rw [validateProbeCapabilities_eq_some hvalid] at h
            cases h
            exact .k6Missing hreg hstatus (by rw [hvalid]; exact Option.some_ne_none _)
          · next hvalid => exact absurd (accepted_iff.mpr ⟨r, hreg, hstatus, hvalid⟩) haccepted
  · intro h
    cases h with
    | refused hreg hstatus => simp only [loopError, hreg, hstatus]; rfl
    | k6Missing hreg hstatus hvalid =>
      obtain ⟨err, herr⟩ := Option.ne_none_iff_exists'.mp hvalid
      rw [validateProbeCapabilities_eq_some herr] at herr
      simp only [loopError, hreg, hstatus, herr]
      rfl
    | failed hfails hsettles =>
      rcases hfails with hreg | ⟨haccepted, hsignal, herr⟩
      · simp only [loopError, hreg]
        exact verdict_grpcErrorHandler.mpr hsettles
      · obtain ⟨action, herror⟩ := loopError_of_accepted haccepted
        rw [herror, verdict_errorHandler]
        exact .inr ⟨_, herr, hsignal, hsettles⟩
    | unattended haccepted hchanges hun =>
      obtain ⟨action, herror⟩ := loopError_of_accepted haccepted
      rw [herror, verdict_errorHandler]
      exact .inl ⟨Option.or_eq_none_iff.mpr ⟨hchanges, wait_eq_none_iff.mpr hun⟩, rfl⟩

-- `handleError` returns at once, or waits, and then returns if the wait is interrupted.
private theorem handleError_cases (s : Session) (connected : Bool) (err : Option LoopError)
    (sleep : Option ContextError) :
    (∃ r, verdict err = some r ∧ handleError s connected err sleep = (s, some r)) ∨
    verdict err = none ∧ ∃ s', (s' = s.sleep ∨ connected = true ∧ s' = s.sleep.reset) ∧
      handleError s connected err sleep = (s', sleep.map fun e ↦ some (.context e)) := by
  unfold handleError
  split
  · exact .inl ⟨none, rfl, rfl⟩
  · refine .inr ⟨rfl, ?_⟩
    cases sleep with
    | some e => exact ⟨_, .inl rfl, rfl⟩
    | none =>
      cases connected with
      | true => exact ⟨_, .inr ⟨rfl, rfl⟩, rfl⟩
      | false => exact ⟨_, .inl rfl, rfl⟩
  · exact .inl ⟨_, rfl, rfl⟩
  · next err htransient hfatal =>
    have hverdict : verdict (some err) = if err.isCanceled then some none else none := by
      cases err with
      | transient text => exact absurd rfl (htransient text)
      | fatal text => exact absurd rfl (hfatal text)
      | _ => rfl
    rw [hverdict]
    cases err.isCanceled with
    | true => exact .inl ⟨none, rfl, rfl⟩
    | false =>
      refine .inr ⟨rfl, s.sleep, .inl rfl, ?_⟩
      cases sleep <;> rfl

private theorem At.run {attempts : List Attempt} {result : Option (Option LoopError)} (h : At s p)
    (hrun : run env cfg s attempts = .ok (s', result)) :
    (∃ p', At s' p') ∧ ∃ calls, Ending cfg attempts calls result ∧
      s'.log.filterMap Effect.call? = s.log.filterMap Effect.call? ++ calls := by
  induction attempts generalizing s p with
  | nil =>
    cases hrun
    exact ⟨⟨p, h⟩, [], .pending, (List.append_nil _).symm⟩
  | cons a rest ih =>
    rw [Checks.run] at hrun
    obtain ⟨⟨s₁, connected, err⟩, hloop, hrun⟩ := except_bind_eq_ok.mp hrun
    dsimp only at hrun
    obtain ⟨p₁, hp₁, hreached⟩ := h.loop hloop
    have hcalls := calls_loop hloop
    obtain rfl := (loop_cases hloop).1
    rcases handleError_cases s₁ connected (loopError cfg a) a.sleep with
      ⟨r, hverdict, hhandle⟩ | ⟨hverdict, s₂, hs₂, hhandle⟩
    · rw [hhandle] at hrun
      cases hrun
      exact ⟨⟨p₁, hp₁⟩, _, .final (verdict_loopError.mp hverdict), hcalls⟩
    · have hnot : ∀ result, ¬ a.Final cfg result := by
        intro result hfinal
        rw [verdict_loopError.mpr hfinal] at hverdict
        cases hverdict
      obtain ⟨p₂, hp₂⟩ : ∃ p₂, At s₂ p₂ := by
        rcases hs₂ with rfl | ⟨hconnected, rfl⟩
        · exact ⟨_, hp₁.sleep⟩
        · exact ⟨_, hp₁.sleep.reset (.inl (hreached hconnected))⟩
      have hwait : s₂.log.filterMap Effect.call? =
          s.log.filterMap Effect.call? ++ (a.calls cfg ++ [.wait]) := by
        rw [← List.append_assoc, ← hcalls]
        rcases hs₂ with rfl | ⟨-, rfl⟩ <;>
          simp [Session.reset, Session.sleep, Session.emit, Effect.call?]
      rw [hhandle] at hrun
      cases hsleep : a.sleep with
      | some e =>
        rw [hsleep] at hrun
        cases hrun
        exact ⟨⟨p₂, hp₂⟩, _, .interrupted hnot hsleep, hwait⟩
      | none =>
        rw [hsleep] at hrun
        obtain ⟨hat, calls, hending, hrest⟩ := ih hp₂ hrun
        refine ⟨hat, _, .retried hnot hsleep hending, ?_⟩
        rw [hrest, hwait, List.append_assoc, List.append_assoc]
        rfl

/-- The effects of every run follow the protocol and leave no connection open, and its requests, its
waits and its result are those that the attempts lead to. -/
theorem protocol_of_run (env : Env) (cfg : Config) (attempts : List Attempt) (s : Session)
    (result : Option (Option LoopError)) (h : Run env cfg attempts = .ok (s, result)) :
    (∃ p, Follows s.log p ∧ p.phase = .out ∧ p.told = p.shut) ∧
      Ending cfg attempts (s.log.filterMap Effect.call?) result := by
  have hinit : At ({} : Session).reset {} := ⟨rfl, rfl, rfl, rfl, fun _ ↦ rfl⟩
  obtain ⟨⟨p, hp⟩, calls, hending, hcalls⟩ := hinit.run h
  refine ⟨⟨p, hp.follows, hp.phase, hp.told⟩, ?_⟩
  rw [hcalls]
  exact hending

/-- The server is not ready, then a connection is lost after two pings, and then the probe was
removed. -/
def lostAndRemoved : List Attempt :=
  [{ register := .error (.status .unavailable (lit "connection refused")) },
    { register := .ok { status := .ok, probeId := 1, capabilities := none }
      messages := [{ checks := [⟨.add, pingCheck ⟨0x3ff0000000000000⟩ 60000⟩] }]
      streamEnd := some (.status .unavailable (lit "connection reset"))
      laterPings := 1
      pingFirst := false },
    { register := .error (.status .permissionDenied (lit "no such probe")) }]

/-- The updater waits twice, with a reset after the connection that was lost, and gives up. -/
theorem protocol_lostAndRemoved : ∃ s,
    Run permissiveEnv ⟨true, true⟩ lostAndRemoved = .ok (s, some (some errNotAuthorized)) ∧
    s.log = [.reset, .registerProbe, .wait 0, .registerProbe, .probe 1, .closeProbeCh,
      .connectionStatus true, .isConnected true, .getChanges [], .ping 0, .ping 1,
      .isConnected false, .connectionStatus false, .wait 1, .reset, .registerProbe] ∧
    running s.updater = {7} ∧
    (∃ p, Follows s.log p ∧ p.phase = .out ∧ p.told = p.shut) ∧
    Ending ⟨true, true⟩ lostAndRemoved
      [.registerProbe, .wait, .registerProbe, .getChanges, .ping 0, .ping 1, .wait, .registerProbe]
      (some (some errNotAuthorized)) := by
  refine ⟨_, rfl, rfl, rfl, ?_⟩
  exact protocol_of_run permissiveEnv ⟨true, true⟩ lostAndRemoved _ _ rfl

end SMAgent.Checks
