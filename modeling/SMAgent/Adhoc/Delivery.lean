import SMAgent.Adhoc.Handler

/-!
# Every ad-hoc check that is accepted is answered once

However the handler, its runners and the receiver of the tenants interleave, and through any number
of connections: there is one runner for each request that the factory accepted, in their order, each
publishes at most one result, which is about its request and goes to the tenant of the request, and
the tenants are passed on in the order of their requests. Nothing recovers from a panic: one request
without settings, or one prober that panics, ends the process.
-/

namespace SMAgent.Adhoc
open SMAgent.Base SMAgent.Pb SMAgent.Model
open SMAgent.Checks (Code ContextError RegisterStatus)

/-- What is made of a request: a runner, an error, or a panic, as without settings. -/
def Received.made (env : Env) (r : Received) : Except Panic (Except GoString Runner) :=
  r.request.adHocCheck.type.bind fun type ↦ runnerFactory env r.probe type r.request

/-- The runner of a request, if the factory accepts it. -/
def Received.runner (env : Env) (r : Received) : Option Runner :=
  (r.made env).toOption.bind Except.toOption

/-- The tenant that is passed on for a request. -/
def Received.tenant (env : Env) (r : Received) : Option Tenant :=
  (r.runner env).bind fun _ ↦ r.request.tenant

/-- The tenant that is about to be passed on. -/
def Phase.pending : Phase → List Tenant
  | .forwarding tenant => [tenant]
  | _ => []

/-- An error that `Run` gives up with. -/
def LoopError.Final (err : LoopError) : Prop :=
  err = .known .notAuthorized ∨ err = .known .incompatibleApi ∨ ∃ e, err = .context e

/-- What every step keeps. -/
structure Inv (env : Env) (s : State) : Prop where
  ops : s.ops = s.received.filterMap fun r ↦ r.request.adHocCheck.type.toOption
  runners : s.runners.map (fun x ↦ (x.runner, x.tenantId)) =
    s.received.filterMap fun r ↦ (r.runner env).map (·, r.request.adHocCheck.tenantId)
  results : ∀ x ∈ s.runners, ∀ data, x.result = some data →
    ∃ outcome, data = x.runner.run env x.tenantId outcome
  published : s.published.Perm (s.runners.filterMap Spawned.result)
  forwarded : s.forwarded ++ s.phase.pending = s.received.filterMap (Received.tenant env)
  panicked : s.panic.isSome = true ↔ (∃ r ∈ s.received, ∃ p, r.made env = .error p) ∨
    ∃ x ∈ s.runners, ∃ p, x.ended = some (.error p)
  returned : ∀ err, s.phase = .returned (some err) → err.Final

section
variable {env : Env} {s s' : State}

private theorem inv_initial (env : Env) : Inv env {} where
  ops := rfl
  runners := rfl
  results _ h := absurd h List.not_mem_nil
  published := .nil
  forwarded := rfl
  panicked := by simp
  returned _ h := by cases h

private theorem Inv.move (h : Inv env s) {phase : Phase} (hpending : s.phase.pending = [])
    (hpending' : phase.pending = []) (hreturned : ∀ err, phase = .returned (some err) → err.Final)
    (probe : GoString) (backoff : Nat) (waits : List Wait) :
    Inv env { s with phase, probe, backoff, waits } :=
  { h with
    forwarded := by
      show s.forwarded ++ phase.pending = _
      rw [hpending', ← hpending, h.forwarded]
    returned := hreturned }

private theorem handleError_eq (s : State) (err : Option LoopError) :
    ∃ phase backoff waits, s.handleError err = { s with phase, backoff, waits } ∧
      phase.pending = [] ∧ ∀ e, phase = .returned (some e) → e.Final := by
  unfold State.handleError State.sleepBackoff
  split
  · exact ⟨.returned none, _, _, rfl, rfl, by simp⟩
  · next e =>
    split
    · next hfatal =>
      refine ⟨.returned (some e), _, _, rfl, rfl, ?_⟩
      intro e' he'
      cases he'
      rcases hfatal with rfl | rfl
      · exact .inl rfl
      · exact .inr (.inl rfl)
    split
    · exact ⟨.connecting, _, _, rfl, rfl, by simp⟩
    split
    · exact ⟨.sleeping false, _, _, rfl, rfl, by simp⟩
    split
    · exact ⟨.returned none, _, _, rfl, rfl, by simp⟩
    split
    · exact ⟨.sleeping true, _, _, rfl, rfl, by simp⟩
    · exact ⟨.sleeping false, _, _, rfl, rfl, by simp⟩

private theorem Inv.handleError (h : Inv env s) (hpending : s.phase.pending = [])
    (err : Option LoopError) : Inv env (s.handleError err) := by
  obtain ⟨phase, backoff, waits, heq, hpending', hreturned⟩ := handleError_eq s err
  rw [heq]
  exact h.move hpending hpending' hreturned s.probe backoff waits

private theorem Inv.connect (h : Inv env s) (hphase : s.phase = .connecting)
    (client : Option GoString) (register : Except CallError RegisterProbeResult)
    (getAdHocChecks : Option CallError) :
    Inv env (s.connect client register getAdHocChecks) := by
  have hpending : s.phase.pending = [] := by rw [hphase]; rfl
  unfold State.connect
  split
  · exact h.handleError hpending _
  split
  · exact h.handleError hpending _
  · next result =>
    split
    · exact h.handleError hpending _
    · exact h.handleError hpending _
    · have hprobe : Inv env { s with probe := result.probe } :=
        h.move hpending hpending h.returned result.probe s.backoff s.waits
      split
      · exact hprobe.handleError hpending _
      · exact hprobe.move hpending rfl (by simp) _ _ _

-- A request that gets no runner: it is refused, or the process ends.
private theorem Inv.unaccepted (h : Inv env s) (halive : s.panic = none) (req : AdHocRequest)
    (hrunner : (Received.mk s.probe req).runner env = none) (panic : Option Panic)
    (hpanic : panic.isSome = true ↔ ∃ p, (Received.mk s.probe req).made env = .error p) :
    Inv env
      { s with
        ops := s.ops ++ req.adHocCheck.type.toOption.toList
        received := s.received ++ [⟨s.probe, req⟩]
        panic } where
  ops := by
    rw [h.ops, List.filterMap_append, List.filterMap_cons, List.filterMap_nil]
    cases req.adHocCheck.type.toOption <;> rfl
  runners := by simp [h.runners, hrunner]
  results := h.results
  published := h.published
  forwarded := by simp [h.forwarded, Received.tenant, hrunner]
  panicked := by
    have hsane := h.panicked
    rw [halive] at hsane
    simp only [Option.isSome_none, Bool.false_eq_true, false_iff, not_or] at hsane
    simp only [List.mem_append, List.mem_singleton, or_and_right, exists_or, exists_eq_left,
      hsane.1, hsane.2, false_or, or_false]
    exact hpanic
  returned := h.returned

private theorem Inv.handleAdHocCheck (h : Inv env s) (halive : s.panic = none)
    (hphase : s.phase = .receiving) (req : AdHocRequest) :
    Inv env (s.handleAdHocCheck env req) := by
  unfold State.handleAdHocCheck
  cases htype : req.adHocCheck.type with
  | error p =>
    have hmade : (Received.mk s.probe req).made env = .error p := by
      simp [Received.made, htype, Except.bind]
    have hun := h.unaccepted halive req (by simp [Received.runner, hmade, Except.toOption])
      (some p) (iff_of_true rfl ⟨p, hmade⟩)
    simpa [htype, Except.toOption] using hun
  | ok type =>
    have hmade : (Received.mk s.probe req).made env = runnerFactory env s.probe type req := by
      simp [Received.made, htype, Except.bind]
    dsimp only
    cases hfactory : runnerFactory env s.probe type req with
    | error p =>
      rw [hfactory] at hmade
      have hun := h.unaccepted halive req (by simp [Received.runner, hmade, Except.toOption])
        (some p) (iff_of_true rfl ⟨p, hmade⟩)
      simpa [htype, Except.toOption] using hun
    | ok made =>
      rw [hfactory] at hmade
      cases made with
      | error err =>
        have hun := h.unaccepted halive req (by simp [Received.runner, hmade, Except.toOption])
          none (iff_of_false nofun (by simp [hmade]))
        simpa [htype, Except.toOption, halive] using hun
      | ok runner =>
        have hrunner : (Received.mk s.probe req).runner env = some runner := by
          simp [Received.runner, hmade, Except.toOption]
        have hforwarded : s.forwarded = s.received.filterMap (Received.tenant env) := by
          rw [← h.forwarded, hphase]
          exact (List.append_nil _).symm
        refine ⟨?_, ?_, ?_, ?_, ?_, ?_, ?_⟩
        · simp [h.ops, htype, Except.toOption]
        · simp [h.runners, hrunner]
        · intro x hx data hdata
          rcases List.mem_append.mp hx with hx | hx
          · exact h.results x hx data hdata
          · cases List.mem_singleton.mp hx
            cases hdata
        · rw [List.filterMap_append]
          exact h.published.trans (.of_eq (List.append_nil _).symm)
        · cases htenant : req.tenant <;>
            simp [hforwarded, Received.tenant, hrunner, htenant, hphase, Phase.pending]
        · simp only [List.mem_append, List.mem_singleton, or_and_right, exists_or, exists_eq_left,
            hmade, reduceCtorEq, exists_false, or_false]
          exact h.panicked
        · cases req.tenant <;> simp [hphase]

-- One element that counts for nothing is replaced.
private theorem perm_filterMap_set {α β : Type} {f : α → Option β} {l : List α} {i : Nat}
    {x y : α} (hx : l[i]? = some x) (hnone : f x = none) :
    (l.filterMap f ++ (f y).toList).Perm ((l.set i y).filterMap f) := by
  induction l generalizing i with
  | nil => cases hx
  | cons a l ih =>
    cases i with
    | zero =>
      cases hx
      simp only [List.set_cons_zero, List.filterMap_cons, hnone]
      cases f y with
      | none => exact .of_eq (List.append_nil _)
      | some b => exact List.perm_append_singleton b _
    | succ i =>
      simp only [List.set_cons_succ, List.filterMap_cons]
      cases f a with
      | none => exact ih hx
      | some c => exact (ih hx).cons c

private theorem Inv.finish (h : Inv env s) (halive : s.panic = none) {i : Nat} {runner : Runner}
    {tenantId : GlobalID} (hi : s.runners[i]? = some ⟨runner, tenantId, none⟩)
    (ended : Except Panic AdhocData) (panic : Option Panic)
    (hended : ∀ data, ended = .ok data → ∃ outcome, data = runner.run env tenantId outcome)
    (hpanic : panic.isSome = true ↔ ∃ p, ended = .error p) :
    Inv env
      { s with
        runners := s.runners.set i ⟨runner, tenantId, some ended⟩
        published := s.published ++ ended.toOption.toList
        panic } where
  ops := h.ops
  runners := by
    rw [← h.runners]
    apply List.ext_getElem?
    intro j
    rw [List.map_set, List.getElem?_set]
    split
    · next hij =>
      subst hij
      rw [List.length_map, if_pos (List.getElem?_eq_some_iff.mp hi).1, List.getElem?_map, hi]
      rfl
    · rfl
  results := by
    intro x hx data hdata
    rcases List.mem_or_eq_of_mem_set hx with hx | rfl
    · exact h.results x hx data hdata
    · cases ended with
      | ok data' => exact hended data (congrArg Except.ok (Option.some.inj hdata))
      | error p => cases hdata
  published := (h.published.append_right _).trans
    (perm_filterMap_set (f := Spawned.result) (y := ⟨runner, tenantId, some ended⟩) hi rfl)
  forwarded := h.forwarded
  panicked := by
    have hsane := h.panicked
    rw [halive] at hsane
    simp only [Option.isSome_none, Bool.false_eq_true, false_iff, not_or] at hsane
    rw [hpanic, or_iff_right hsane.1]
    constructor
    · rintro ⟨p, rfl⟩
      exact ⟨_, List.mem_set (List.getElem?_eq_some_iff.mp hi).1 _, p, rfl⟩
    · rintro ⟨x, hx, p, hp⟩
      rcases List.mem_or_eq_of_mem_set hx with hx | rfl
      · exact absurd ⟨x, hx, p, hp⟩ hsane.2
      · exact ⟨p, Option.some.inj hp⟩
  returned := h.returned

private theorem Inv.taken (h : Inv env s) {tenant : Tenant}
    (hphase : s.phase = .forwarding tenant) :
    Inv env { s with phase := .receiving, forwarded := s.forwarded ++ [tenant] } :=
  { h with
    forwarded := by
      rw [← h.forwarded, hphase]
      exact List.append_nil _
    returned := by simp }

private theorem inv_act (h : Inv env s) (halive : s.panic = none) {a : Action}
    (hact : s.act env a = some s') : Inv env s' := by
  have hreceiving : s.phase = .receiving → ∀ err, Inv env (s.handleError err) := by
    intro hphase err
    exact h.handleError (by rw [hphase]; rfl) err
  cases a with
  | connect client register getAdHocChecks =>
    rw [State.act] at hact
    split at hact
    · next hphase =>
      cases hact
      exact h.connect hphase client register getAdHocChecks
    · cases hact
  | streamDone | eof | ctxDone err | recvError err =>
    rw [State.act] at hact
    split at hact
    · next hphase =>
      cases hact
      exact hreceiving hphase _
    · cases hact
  | recv req =>
    rw [State.act] at hact
    split at hact
    · next hphase =>
      cases hact
      exact h.handleAdHocCheck halive hphase req
    · cases hact
  | taken =>
    rw [State.act] at hact
    split at hact
    · next tenant hphase =>
      cases hact
      exact h.taken hphase
    · cases hact
  | wake err =>
    rw [State.act] at hact
    split at hact
    · next reset hphase =>
      have hpending : s.phase.pending = [] := by rw [hphase]; rfl
      split at hact
      · next e =>
        cases hact
        refine h.move hpending rfl ?_ _ _ _
        intro e' he'
        cases he'
        exact .inr (.inr ⟨e, rfl⟩)
      · cases hact
        exact h.move hpending rfl (by simp) _ _ _
    · cases hact
  | finish i outcome =>
    rw [State.act, State.finish.eq_def] at hact
    split at hact
    · next runner tenantId outcome hi =>
      cases hact
      have hfin := h.finish halive hi (.ok (runner.run env tenantId outcome)) none
        (fun data hdata ↦ ⟨outcome, (Except.ok.inj hdata).symm⟩) (iff_of_false nofun nofun)
      rwa [← halive] at hfin
    · next runner tenantId p hi =>
      cases hact
      have hfin := h.finish halive hi (.error p) (some p) nofun (iff_of_true rfl ⟨p, rfl⟩)
      simpa [Except.toOption] using hfin
    · cases hact

private theorem inv_step (h : Inv env s) {a : Action} (hstep : Step env s a s') : Inv env s' := by
  unfold Step step at hstep
  split at hstep
  · cases hstep
  · next halive => exact inv_act h halive hstep

/-- A result and the request that it is about. -/
structure About (env : Env) (data : AdhocData) (r : Received) : Prop where
  accepted : (r.runner env).isSome
  tenantId : data.tenantId = r.request.adHocCheck.tenantId
  /-- The secrets that the prober may read are those of the same tenant. -/
  secrets : r.request.check.globalTenantID = data.tenantId
  id : data.line.id = r.request.adHocCheck.id
  probe : data.line.probe = r.probe
  labels : data.labels = streamLabels env.quote r.probe

private theorem about_run {r : Received} {runner : Runner} (h : r.runner env = some runner)
    (outcome : Outcome) :
    About env (runner.run env r.request.adHocCheck.tenantId outcome) r := by
  have hmade : r.made env = .ok (.ok runner) := by
    unfold Received.runner at h
    cases hr : r.made env with
    | error p => rw [hr] at h; cases h
    | ok made => rw [hr] at h; cases made <;> cases h; rfl
  obtain ⟨type, -, hfactory⟩ := except_bind_eq_ok.mp hmade
  have hrunner : runner.id = r.request.adHocCheck.id ∧ runner.probe = r.probe := by
    unfold runnerFactory at hfactory
    split at hfactory
    · cases hfactory
    · obtain ⟨prober, -, hprober⟩ := except_map_eq_ok.mp hfactory
      obtain ⟨made, -, rfl⟩ := except_map_eq_ok.mp hprober
      exact ⟨rfl, rfl⟩
  refine ⟨by rw [h]; rfl, rfl, globalIDOf_zero _, hrunner.1, hrunner.2, ?_⟩
  rw [← hrunner.2]
  rfl

/-- What became of the requests. -/
structure Delivered (env : Env) (s : State) : Prop where
  /-- Every request is counted. -/
  ops : s.ops = s.received.filterMap fun r ↦ r.request.adHocCheck.type.toOption
  /-- Each accepted request has one runner, in the order of the requests. -/
  runners : s.runners.length = (s.received.filter fun r ↦ (r.runner env).isSome).length
  /-- Results are about the request of their runner, and are published once. -/
  results : ∀ (i : Nat) x data, s.runners[i]? = some x → x.result = some data →
    ∃ r, (s.received.filter fun r ↦ (r.runner env).isSome)[i]? = some r ∧ About env data r
  published : s.published.Perm (s.runners.filterMap Spawned.result)
  /-- Tenants are passed on in the order of the requests, none twice. -/
  forwarded : s.forwarded ++ s.phase.pending = s.received.filterMap (Received.tenant env)
  /-- The process is lost exactly to a request without settings, to a prober that panics when it is
  made, and to a runner that panics. -/
  panicked : s.panic.isSome = true ↔ (∃ r ∈ s.received, ∃ p, r.made env = .error p) ∨
    ∃ x ∈ s.runners, ∃ p, x.ended = some (.error p)
  /-- The handler gives up on three errors only. -/
  returned : ∀ err, s.phase = .returned (some err) → err.Final

private theorem map_filter_isSome {α β : Type} (f : α → Option β) (l : List α) :
    (l.filter fun a ↦ (f a).isSome).map f = (l.filterMap f).map some := by
  induction l with
  | nil => rfl
  | cons a l ih => cases h : f a <;> simp [h, ih]

private theorem Inv.delivered (h : Inv env s) : Delivered env s := by
  have hmap := map_filter_isSome
    (fun r : Received ↦ (r.runner env).map (·, r.request.adHocCheck.tenantId)) s.received
  simp only [Option.isSome_map, ← h.runners, List.map_map] at hmap
  refine ⟨h.ops, ?_, ?_, h.published, h.forwarded, h.panicked, h.returned⟩
  · have hlength := congrArg List.length hmap
    rwa [List.length_map, List.length_map, eq_comm] at hlength
  · intro i x data hx hdata
    have hi := congrArg (fun l ↦ l[i]?) hmap
    simp only [List.getElem?_map, hx, Option.map_some] at hi
    obtain ⟨r, hr, hrunner⟩ := Option.map_eq_some_iff.mp hi
    obtain ⟨runner, hmade, hpair⟩ := Option.map_eq_some_iff.mp hrunner
    obtain ⟨rfl, htenant⟩ := Prod.mk.inj hpair
    obtain ⟨outcome, rfl⟩ := h.results x (List.mem_of_getElem? hx) data hdata
    refine ⟨r, hr, ?_⟩
    rw [← htenant]
    exact about_run hmade outcome

/-- `internal/adhoc/adhoc.go`. In every run of the handler, its runners and the receiver of the
tenants. -/
theorem adhoc_delivered_of_runs {as : List Action} (h : Runs (Step env) {} as s) :
    Delivered env s :=
  (h.invariant (fun _ _ _ hinv hstep ↦ inv_step hinv hstep) (inv_initial env)).delivered

end

/-- A handler without k6. -/
def withoutK6 : Env := ⟨false, fun _ _ ↦ .ok none, id⟩

/-- A request of the tenant with id 5. -/
def sampleRequest (id : GoString) (settings : CheckSettings) (tenant : Option Tenant) :
    AdHocRequest :=
  ⟨{ id, tenantId := 5, timeout := 1000, settings, target := .lit "example.org" }, tenant⟩

/-- A run of the prober without logs. -/
def sampleOutcome (success : Bool) : Outcome :=
  ⟨success, .ofUInt64 1, [], fun _ _ ↦ ([], none), 0, .ofUInt64 1, .lit "run"⟩

/-- A request with its tenant, one that needs k6, and two more; the runners of the first and of the
third end in the other order, and that of the fourth panics. -/
def fourRequests : List Action :=
  [.connect none (.ok ⟨.ok, [], .lit "paris"⟩) none,
    .recv (sampleRequest (.lit "a") { ping := some {} } (some { id := 5 })), .taken,
    .recv (sampleRequest (.lit "b") { scripted := some {} } none),
    .recv (sampleRequest (.lit "c") { ping := some {} } none),
    .recv (sampleRequest (.lit "d") { http := some {} } none),
    .finish 1 (.ok (sampleOutcome true)), .finish 0 (.ok (sampleOutcome false)),
    .finish 2 (.error .nilDereference)]

/-- The second request gets no runner, and the last runner ends the process. -/
theorem delivered_fourRequests :
    ∃ s, Runs (Step withoutK6) {} fourRequests s ∧
      s.published.map (fun data ↦ data.line.id) = [.lit "c", .lit "a"] ∧
      s.ops = [.ping, .scripted, .ping, .http] ∧ s.panic = some .nilDereference ∧
      Delivered withoutK6 s := by
  have hruns : Runs (Step withoutK6) {} fourRequests _ :=
    .cons rfl (.cons rfl (.cons rfl (.cons rfl (.cons rfl (.cons rfl (.cons rfl
      (.cons rfl (.cons rfl (.nil _)))))))))
  exact ⟨_, hruns, rfl, rfl, rfl, adhoc_delivered_of_runs hruns⟩

end SMAgent.Adhoc
