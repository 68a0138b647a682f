import Mathlib.Logic.Function.Basic
import SMAgent.Base.Run
import SMAgent.Pusher.Errors
import SMAgent.Pusher.Queue

/-!
# The publisher of one tenant

`internal/pusher/v2/publisher.go:49-143` and `tenant_pusher.go:47-252`, for one tenant: the
tenant's slot in the handler map, the `Publish` calls in progress and the `runHandler`
goroutines. Each step is one critical section or one queue operation of one goroutine, and
any goroutine may take the next step. Handlers are pointers, so two handlers are equal
exactly when they were created by the same allocation.
-/

namespace SMAgent.Pusher
open SMAgent.Base

/-- The two queues of a `tenantPusher`. -/
inductive Kind where
  | metrics
  | logs
  deriving DecidableEq, Repr

/-- A pointer to a handler. A `delayPusher` is only created with a `tenantPusher` as its
`next`, `tenant_pusher.go:69-83`. -/
inductive Handler where
  | tenant (id : Nat)
  | delay (id next : Nat)
  | discard (id : Nat)
  deriving DecidableEq, Repr

/-- The `tenantPusher` whose queues receive what is published to the handler. -/
def Handler.target : Handler → Option Nat
  | .tenant id => some id
  | .delay _ next => some next
  | .discard _ => none

/-- An encoded request, on its way to one of the queues. -/
structure Record where
  kind : Kind
  data : GoString
  deriving DecidableEq, Repr

/-- The requests of a payload in the order they are inserted, `tenant_pusher.go:184-194`;
`none` is a payload without series or without streams. -/
def records (metrics streams : Option GoString) : List Record :=
  (metrics.map (Record.mk .metrics)).toList ++ (streams.map (Record.mk .logs)).toList

/-- Where a call of `Publish` is, with the records it still has to hand over. -/
inductive Call where
  /-- before `getHandler` -/
  | started (records : List Record)
  /-- `getHandler` found no handler -/
  | missed (records : List Record)
  /-- inside or after `handler.publish` -/
  | holding (handler : Handler) (records : List Record)
  deriving DecidableEq, Repr

/-- Where a `runHandler` goroutine is. -/
inductive Runner where
  /-- inside `h.run` -/
  | running (handler : Handler)
  /-- `h.run` returned `next`, before `replaceHandler` -/
  | swapping (handler : Handler) (next : Option Handler)
  deriving DecidableEq, Repr

/-- The handler that a goroutine runs or is replacing. -/
def Runner.handler : Runner → Handler
  | .running h => h
  | .swapping h _ => h

/-- The state of the publisher for one tenant. `inflight` are the batches taken by the push
loops, `enqueued` and `settled` record what was inserted and what was pushed or counted in
`FailedCounter` or `ErrorCounter`; `discarded` is `DroppedCounter` of `discardPusher`. -/
structure State where
  nextId : Nat := 0
  slot : Option Handler := none
  calls : Nat → Option Call := fun _ ↦ none
  runners : Nat → Option Runner := fun _ ↦ none
  queues : Nat → Kind → Queue := fun _ _ ↦ {}
  inflight : Nat → Kind → List QueueEntry := fun _ _ ↦ []
  enqueued : Nat → Kind → List QueueEntry := fun _ _ ↦ []
  settled : Nat → Kind → List QueueEntry := fun _ _ ↦ []
  discarded : Nat := 0

/-- Why a handler's `run` returned. -/
inductive RunError where
  /-- nil, or the delay of a `delayPusher` elapsed -/
  | nil
  | canceled
  | idle
  | push (kind : ErrKind)
  | other
  deriving DecidableEq, Repr

/-- The handler that `run` returns, given a fresh pointer, `tenant_pusher.go:47-95`,
`tenant_pusher.go:216-224` and `tenant_pusher.go:237-242`. -/
def runResult (h : Handler) (fresh : Nat) (err : RunError) : Option Handler :=
  match h, err with
  | .tenant id, .push .wait => some (.delay fresh id)
  | .tenant id, .push .tenant => some (.delay fresh id)
  | .tenant _, .push .fatal => some (.discard fresh)
  | .tenant _, _ => none
  | .delay _ next, .nil => some (.tenant next)
  | .delay _ _, _ => none
  | .discard _, _ => none

/-- `replaceHandler`, `publisher.go:91-134`, for the slot `current`: the new slot, and the
handler in effect with whether it was changed. -/
def replaceHandler (current old new : Option Handler) : Option Handler × Option Handler × Bool :=
  if current ≠ old then (current, current, false) else (new, new, true)

namespace State

/-- Move a call on. -/
def setCall (s : State) (call : Nat) (c : Call) : State :=
  { s with calls := Function.update s.calls call (some c) }

/-- Replace one queue of a `tenantPusher`. -/
def setQueue (s : State) (id : Nat) (k : Kind) (q : Queue) : State :=
  { s with queues := Function.update s.queues id (Function.update (s.queues id) k q) }

/-- Replace the batch that a push loop holds. -/
def setInflight (s : State) (id : Nat) (k : Kind) (batch : List QueueEntry) : State :=
  { s with inflight := Function.update s.inflight id (Function.update (s.inflight id) k batch) }

/-- `getHandler` in `Publish`, `publisher.go:52`. -/
def getHandler (s : State) (call : Nat) (rs : List Record) : State :=
  s.setCall call (match s.slot with
    | some h => .holding h rs
    | none => .missed rs)

/-- The branch of `Publish` that adds a handler, `publisher.go:54-62`. -/
def addHandler (s : State) (call : Nat) (rs : List Record) : State :=
  let new := Handler.tenant s.nextId
  match replaceHandler s.slot none (some new) with
  | (slot, some h, true) =>
    { s with
      nextId := s.nextId + 1
      slot
      runners := Function.update s.runners s.nextId (some (.running h))
      calls := Function.update s.calls call (some (.holding h rs)) }
  | (slot, some h, false) =>
    { s with
      nextId := s.nextId + 1
      slot
      calls := Function.update s.calls call (some (.holding h rs)) }
  | (_, none, _) => s

/-- `handler.publish` for one record. -/
def deliver (s : State) (options : QueueOptions) (h : Handler) (r : Record) (ts now : Int) :
    State :=
  match h.target with
  | some id =>
    { s.setQueue id r.kind ((s.queues id r.kind).insert options r.data ts now) with
      enqueued := Function.update s.enqueued id
        (Function.update (s.enqueued id) r.kind (s.enqueued id r.kind ++ [⟨r.data, ts⟩])) }
  | none => { s with discarded := s.discarded + 1 }

/-- `q.get()` in a push loop. -/
def take (s : State) (options : QueueOptions) (id : Nat) (k : Kind) : State :=
  let (q, batch) := (s.queues id k).get options
  (s.setQueue id k q).setInflight id k batch

/-- `q.requeue(records)` in a push loop. -/
def putBack (s : State) (options : QueueOptions) (id : Nat) (k : Kind) (now : Int) : State :=
  (s.setQueue id k ((s.queues id k).requeue options (s.inflight id k) now)).setInflight id k []

/-- A push loop is done with its batch: it was pushed, or given up and counted. -/
def dispose (s : State) (id : Nat) (k : Kind) : State :=
  { s.setInflight id k [] with
    settled := Function.update s.settled id
      (Function.update (s.settled id) k (s.settled id k ++ s.inflight id k)) }

/-- `next := h.run(p.ctx)` returns, `publisher.go:75`. -/
def finish (s : State) (runner : Nat) (h : Handler) (err : RunError) : State :=
  { s with
    nextId := s.nextId + 1
    runners := Function.update s.runners runner (some (.swapping h (runResult h s.nextId err))) }

/-- `h, ok = p.replaceHandler(tenantID, h, next)` and the loop condition, `publisher.go:74-81`. -/
def swap (s : State) (runner : Nat) (h : Handler) (next : Option Handler) : State :=
  match replaceHandler s.slot (some h) next with
  | (slot, some h', true) =>
    { s with slot, runners := Function.update s.runners runner (some (.running h')) }
  | (slot, _, _) => { s with slot, runners := Function.update s.runners runner none }

end State

/-- One step of one goroutine. -/
inductive Action where
  | publish (call : Nat) (metrics streams : Option GoString)
  | getHandler (call : Nat)
  | addHandler (call : Nat)
  | enqueue (call : Nat) (ts now : Int)
  | take (runner : Nat) (k : Kind)
  | putBack (runner : Nat) (k : Kind) (now : Int)
  | dispose (runner : Nat) (k : Kind)
  | finish (runner : Nat) (err : RunError)
  | swap (runner : Nat)
  deriving DecidableEq, Repr

/-- When a step can be taken, and where it leads. The push loops belong to the running
`tenantPusher`, and its `run` waits for both before it returns. -/
inductive Step (options : QueueOptions) : State → Action → State → Prop where
  | publish {s : State} {call : Nat} {metrics streams : Option GoString} :
    s.calls call = none →
    Step options s (.publish call metrics streams)
      (s.setCall call (.started (records metrics streams)))
  | getHandler {s : State} {call : Nat} {rs : List Record} :
    s.calls call = some (.started rs) →
    Step options s (.getHandler call) (s.getHandler call rs)
  | addHandler {s : State} {call : Nat} {rs : List Record} :
    s.calls call = some (.missed rs) →
    Step options s (.addHandler call) (s.addHandler call rs)
  | enqueue {s : State} {call : Nat} {h : Handler} {r : Record} {rs : List Record} {ts now : Int} :
    s.calls call = some (.holding h (r :: rs)) →
    Step options s (.enqueue call ts now)
      ((s.deliver options h r ts now).setCall call (.holding h rs))
  | take {s : State} {runner id : Nat} {k : Kind} :
    s.runners runner = some (.running (.tenant id)) → s.inflight id k = [] →
    Step options s (.take runner k) (s.take options id k)
  | putBack {s : State} {runner id : Nat} {k : Kind} {now : Int} :
    s.runners runner = some (.running (.tenant id)) →
    Step options s (.putBack runner k now) (s.putBack options id k now)
  | dispose {s : State} {runner id : Nat} {k : Kind} :
    s.runners runner = some (.running (.tenant id)) →
    Step options s (.dispose runner k) (s.dispose id k)
  | finish {s : State} {runner : Nat} {h : Handler} {err : RunError} :
    s.runners runner = some (.running h) → (∀ id k, h = .tenant id → s.inflight id k = []) →
    Step options s (.finish runner err) (s.finish runner h err)
  | swap {s : State} {runner : Nat} {h : Handler} {next : Option Handler} :
    s.runners runner = some (.swapping h next) →
    Step options s (.swap runner) (s.swap runner h next)

/-! ### Steps that change the slot -/

namespace State
variable {s : State}

/-- Adding to an empty slot installs the new handler and starts its goroutine. -/
theorem addHandler_of_none (h : s.slot = none) (call : Nat) (rs : List Record) :
    s.addHandler call rs =
      { s with
        nextId := s.nextId + 1
        slot := some (.tenant s.nextId)
        runners := Function.update s.runners s.nextId (some (.running (.tenant s.nextId)))
        calls := Function.update s.calls call (some (.holding (.tenant s.nextId) rs)) } := by
  simp [addHandler, replaceHandler, h]

/-- Adding to a slot that was filled in the meantime uses the handler found there. -/
theorem addHandler_of_some {h : Handler} (hs : s.slot = some h) (call : Nat)
    (rs : List Record) :
    s.addHandler call rs =
      { s with
        nextId := s.nextId + 1
        calls := Function.update s.calls call (some (.holding h rs)) } := by
  simp [addHandler, replaceHandler, hs]

/-- The goroutine of the installed handler installs what `run` returned. -/
theorem swap_of_slot {h : Handler} (hs : s.slot = some h) (runner : Nat)
    (next : Option Handler) :
    s.swap runner h next =
      { s with
        slot := next
        runners := Function.update s.runners runner (next.map .running) } := by
  cases next with
  | none => simp [swap, replaceHandler, hs]
  | some h' => simp [swap, replaceHandler, hs]

end State

end SMAgent.Pusher
