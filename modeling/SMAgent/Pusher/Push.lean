import Mathlib.Logic.Function.Basic
import SMAgent.Base.Run
import SMAgent.Pusher.Buffers
import SMAgent.Pusher.Errors

/-!
# The push loop

`queue.push`, `internal/pusher/v2/queue.go:31-151`, with the retry counter and the back-off of
`options.go:151-196`, among the goroutines that insert into the queue and those that use the
pool for other queues. A step is one operation of one of them. `http.NewRequest` does not fail
on the address of a client, which was parsed when the client was made; every other outcome of
`StoreStream` may follow any other, and the context may end at any time.

Beside the variables of the source the state has a history: what every batch started with and
how it ended.
-/

namespace SMAgent.Pusher.Push
open SMAgent.Base SMAgent.Prom

/-- The fields of `pusherOptions` that the loop reads. -/
structure Options extends QueueOptions where
  maxRetries : Int := 0
  minBackoff : Int := 0
  maxBackoff : Int := 0
  deriving DecidableEq, Repr

/-- The counters of `pusher.Metrics` that the loop adds to, with their labels. -/
inductive Metric where
  | push
  | bytesOut
  | retries
  | response (statusCode : Nat)
  | error (statusCode : Nat)
  /-- `FailedCounter` with the reason `LabelValueRetryExhausted` -/
  | retryExhausted
  /-- `FailedCounter` with the reason `LabelValueClient` -/
  | client
  deriving DecidableEq, Repr

/-- Where the loop is, with its local variable `records`. -/
inductive Pc where
  /-- not called, or returned -/
  | stopped
  /-- at the `select` -/
  | selecting
  /-- the `select` received from `WaitC` -/
  | woken
  /-- inside `StoreStream` -/
  | sending (records : List BufEntry)
  /-- before `q.requeue(records)` -/
  | requeueing (records : List BufEntry)
  /-- inside `backoff.wait` -/
  | waiting
  deriving DecidableEq, Repr

/-- The records that the loop has in hand. -/
def Pc.records : Pc → Option (List BufEntry)
  | .sending records => some records
  | .requeueing records => some records
  | _ => none

/-- What there was when `get` returned a batch: the batch, the buffers that had ever been
returned to the pool, and the counters. -/
structure Start where
  batch : List BufEntry := []
  puts : List Nat := []
  counters : Metric → Nat := fun _ ↦ 0

/-- How a batch ended, with what there was by then. -/
inductive Fate where
  /-- `handed` is given to `requeue` -/
  | requeued (start : Start) (handed : List BufEntry) (puts : List Nat)
  /-- the batch is pushed or given up, after `outcome` -/
  | dropped (start : Start) (outcome : Outcome) (puts : List Nat) (counters : Metric → Nat)

/-- What the batch started with. -/
def Fate.start : Fate → Start
  | .requeued start _ _ => start
  | .dropped start _ _ _ => start

/-- The queue, the buffers in the hands of other goroutines, and the loop; `start`, `taken` and
`fates` are its history. -/
structure State where
  queue : BufQueue := {}
  held : List Nat := []
  pc : Pc := .stopped
  retriesLeft : Int := 0
  retrying : Bool := false
  backoffLast : Int := 0
  counters : Metric → Nat := fun _ ↦ 0
  start : Start := {}
  taken : List (List BufEntry) := []
  fates : List Fate := []

namespace State

/-- `Add(n)` on a counter. -/
def count (s : State) (m : Metric) (n : Nat) : State :=
  { s with counters := Function.update s.counters m (s.counters m + n) }

/-- The size that `returnAll` reports. -/
def size (records : List BufEntry) : Nat := (records.map fun r ↦ r.entry.size).sum

/-- `push` up to its loop, `queue.go:32-52`; a client that cannot be made is counted, a bad
address is not. -/
def enter (s : State) (options : Options) (remoteOk clientOk : Bool) : State :=
  if !remoteOk then s
  else if !clientOk then s.count .client 1
  else
    { s with
      pc := .selecting, retriesLeft := options.maxRetries, retrying := false, backoffLast := 0 }

/-- `records := q.get()` up to `StoreStream`, `queue.go:60-74`. -/
def take (s : State) (options : Options) : State :=
  match s.queue.get options.toQueueOptions with
  | (queue, []) => { s with queue, pc := .selecting }
  | (queue, records) =>
    { s with
      queue
      pc := .sending records
      retriesLeft := if s.retrying then s.retriesLeft else options.maxRetries
      backoffLast := if s.retrying then s.backoffLast else 0
      retrying := false
      start := { batch := records, puts := queue.pool.puts, counters := s.counters }
      taken := s.taken ++ [records] }

/-- The batch ends here. -/
def drop (s : State) (outcome : Outcome) : State :=
  { s with fates := s.fates ++ [.dropped s.start outcome s.queue.pool.puts s.counters] }

/-- From `returnAll` on, `queue.go:112-148`. -/
def settle (s : State) (records : List BufEntry) (statusCode : Nat) (kind : ErrKind) : State :=
  let s := { s with queue := { s.queue with pool := s.queue.pool.returnAll records } }
  match kind with
  | .noError =>
    { (s.count .push records.length).count .bytesOut (size records) with pc := .selecting }
  | .network => { s.count .retryExhausted records.length with pc := .selecting }
  | .payload => { s.count (.error statusCode) records.length with pc := .selecting }
  | .limit => { s.count (.error statusCode) records.length with pc := .selecting }
  | .tenant => { s.count (.error statusCode) records.length with pc := .stopped }
  | .fatal => { s.count (.error statusCode) records.length with pc := .stopped }
  | .wait => { s.count (.error statusCode) records.length with pc := .stopped }
  | .terminated => { s with pc := .stopped }

/-- What follows `StoreStream`, `queue.go:75-148`; `retries.retry()` is in the middle. -/
def respond (s : State) (records : List BufEntry) (outcome : Outcome) : State :=
  let (statusCode, pushErr) := parsePublishError (storeStream outcome)
  let s := s.count (.response statusCode) 1
  if pushErr.kind = .network then
    let s := s.count (.error statusCode) records.length
    if 0 < s.retriesLeft then
      { s.count .retries records.length with
        retriesLeft := s.retriesLeft - 1, retrying := true, pc := .requeueing records }
    else (s.settle records statusCode pushErr.kind).drop outcome
  else (s.settle records statusCode pushErr.kind).drop outcome

/-- `q.requeue(records)`, and the start of `backoff.wait`. -/
def requeue (s : State) (options : Options) (records : List BufEntry) (now : Int) : State :=
  { s with
    fates := s.fates ++ [.requeued s.start records s.queue.pool.puts]
    queue := s.queue.requeue options.toQueueOptions records now
    pc := .waiting
    backoffLast := if s.backoffLast < options.minBackoff then options.minBackoff
      else min (2 * s.backoffLast) options.maxBackoff }

end State

/-- A step of the loop or of another goroutine. -/
inductive Action where
  /-- `push` is called -/
  | enter (remoteOk clientOk : Bool)
  /-- `ctx.Done()` at the `select` or in `backoff.wait` -/
  | cancel
  /-- the `select` receives from `WaitC` -/
  | wake
  | take
  | respond (outcome : Outcome)
  | requeue (now : Int)
  /-- the back-off elapsed -/
  | resume
  /-- `pool.get` takes a buffer out of the pool -/
  | acquire (buf : Nat)
  /-- `pool.get` or `snappy.Encode` allocates a buffer -/
  | allocate (buf : Nat)
  | insert (e : BufEntry) (now : Int)
  /-- another queue returns a buffer to the pool -/
  | release (buf : Nat)
  /-- the pool, or whoever holds the buffer, lets go of it -/
  | collect (buf : Nat)
  deriving DecidableEq, Repr

/-- The buffers that anyone can still reach. -/
def State.buffers (s : State) : List Nat :=
  bufs s.queue.data ++ (bufs (s.pc.records.getD []) ++ (s.queue.pool.free ++ s.held))

/-- When a step can be taken, and where it leads. -/
inductive Step (options : Options) : State → Action → State → Prop where
  | enter {s : State} {remoteOk clientOk : Bool} :
    s.pc = .stopped →
    Step options s (.enter remoteOk clientOk) (s.enter options remoteOk clientOk)
  | cancel {s : State} :
    s.pc = .selecting ∨ s.pc = .waiting → Step options s .cancel { s with pc := .stopped }
  | wake {s : State} :
    s.pc = .selecting → s.queue.pending = true →
    Step options s .wake { s with pc := .woken, queue := { s.queue with pending := false } }
  | take {s : State} : s.pc = .woken → Step options s .take (s.take options)
  | respond {s : State} {records : List BufEntry} {outcome : Outcome} :
    s.pc = .sending records → (∀ err, outcome ≠ .badRequest err) →
    Step options s (.respond outcome) (s.respond records outcome)
  | requeue {s : State} {records : List BufEntry} {now : Int} :
    s.pc = .requeueing records →
    Step options s (.requeue now) (s.requeue options records now)
  | resume {s : State} : s.pc = .waiting → Step options s .resume { s with pc := .selecting }
  | acquire {s : State} {buf : Nat} :
    buf ∈ s.queue.pool.free →
    Step options s (.acquire buf)
      { s with
        queue := { s.queue with pool := { s.queue.pool with free := s.queue.pool.free.erase buf } }
        held := buf :: s.held }
  | allocate {s : State} {buf : Nat} :
    buf ∉ s.buffers → Step options s (.allocate buf) { s with held := buf :: s.held }
  | insert {s : State} {e : BufEntry} {now : Int} :
    e.buf ∈ s.held →
    Step options s (.insert e now)
      { s with
        queue := s.queue.insert options.toQueueOptions e now
        held := s.held.erase e.buf }
  | release {s : State} {buf : Nat} :
    buf ∈ s.held →
    Step options s (.release buf)
      { s with
        queue := { s.queue with
          pool := { free := s.queue.pool.free ++ [buf], puts := s.queue.pool.puts ++ [buf] } }
        held := s.held.erase buf }
  | collect {s : State} {buf : Nat} :
    Step options s (.collect buf)
      { s with
        queue := { s.queue with pool := { s.queue.pool with free := s.queue.pool.free.erase buf } }
        held := s.held.erase buf }

end SMAgent.Pusher.Push
