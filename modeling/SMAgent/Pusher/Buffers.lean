import SMAgent.Pusher.Queue

/-!
# The buffers of a queue

`internal/pusher/v2/queue.go:153-265` and `options.go:121-149` once more, with the identity of
the buffer that an entry points to: the limits return the buffers of what they drop to the
pool, which may hand them out again. Without the identities a queue is the one of
`SMAgent.Pusher.Queue`, operation by operation. A queue and the pool own their buffers
together: an operation moves buffers between the two and loses none.
-/

namespace SMAgent.Pusher
open SMAgent.Base

/-- `queueEntry` with the pointer `data` and what is behind it. -/
structure BufEntry where
  buf : Nat
  entry : QueueEntry
  deriving DecidableEq, Repr

/-- The buffers of some entries. -/
def bufs (records : List BufEntry) : List Nat := records.map BufEntry.buf

/-- The buffers of two lists of records. -/
@[simp] theorem bufs_append (a b : List BufEntry) : bufs (a ++ b) = bufs a ++ bufs b :=
  List.map_append

/-- `bufferPool`: the buffers it holds, and all that were ever put into it. -/
structure Pool where
  free : List Nat := []
  puts : List Nat := []
  deriving DecidableEq, Repr

/-- `bufferPool.returnAll`, `options.go:141-149`. -/
def Pool.returnAll (p : Pool) (records : List BufEntry) : Pool :=
  { free := p.free ++ bufs records, puts := p.puts ++ bufs records }

/-- `queue`, with the pool of its options. -/
structure BufQueue where
  data : List BufEntry := []
  pending : Bool := false
  dropped : Nat := 0
  pool : Pool := {}
  deriving DecidableEq, Repr

namespace BufQueue

/-- Return the first `n` entries to the pool. -/
def remove (q : BufQueue) (n : Nat) : BufQueue :=
  { q with data := q.data.drop n, pool := q.pool.returnAll (q.data.take n) }

/-- The entries without their pointers. -/
def entries (q : BufQueue) : List QueueEntry := q.data.map BufEntry.entry

/-- `queue.go:172-189`. -/
def limitBytes (q : BufQueue) (max : Nat) : BufQueue × Nat :=
  if max = 0 then (q, 0)
  else (q.remove (limitBytesLoop max q.entries.reverse 0), limitBytesLoop max q.entries.reverse 0)

/-- `queue.go:191-213`. -/
def limitAge (q : BufQueue) (maxAge now : Int) : BufQueue × Nat :=
  if q.entries.length = 0 ∨ maxAge ≤ 0 then (q, 0)
  else if q.entries.head?.any (QueueEntry.before (now - maxAge)) = false then (q, 0)
  else
    let n := q.entries.length
    let idx := sortSearch n fun i ↦ !(q.entries[i]?.any (QueueEntry.before (now - maxAge)))
    (if idx < n then q.remove idx else q, n - idx)

/-- `queue.go:165-170`. -/
def applyLimits (q : BufQueue) (options : QueueOptions) (now : Int) : BufQueue :=
  let bytes := q.limitBytes options.maxQueuedBytes
  let age := bytes.1.limitAge options.maxQueuedTime now
  { age.1 with dropped := age.1.dropped + (bytes.2 + age.2) }

/-- `q.pending.Signal()`. -/
def signal (q : BufQueue) : BufQueue := { q with pending := true }

/-- `queue.go:153-163`. -/
def insert (q : BufQueue) (options : QueueOptions) (e : BufEntry) (now : Int) : BufQueue :=
  (applyLimits { q with data := q.data ++ [e] } options now).signal

/-- `queue.go:219-251`. -/
def get (q : BufQueue) (options : QueueOptions) : BufQueue × List BufEntry :=
  match q.data with
  | [] => (q, [])
  | e :: rest =>
    let limit := getLoop options.maxPushBytes e.entry.size (rest.map BufEntry.entry) + 1
    let q' := { q with data := q.data.drop limit }
    (if limit < q.data.length then q'.signal else q', q.data.take limit)

/-- `queue.go:253-265`. -/
def requeue (q : BufQueue) (options : QueueOptions) (data : List BufEntry) (now : Int) :
    BufQueue :=
  if data = [] then q
  else (applyLimits { q with data := data ++ q.data } options now).signal

/-! ### The queue without the pointers -/

/-- The queue that remains if the pointers are forgotten, after some were removed. -/
def toQueue (q : BufQueue) (removed : List QueueEntry) : Queue :=
  { data := q.entries, pending := q.pending, dropped := q.dropped, removed }

section

variable (q : BufQueue) (removed : List QueueEntry)

private theorem toQueue_remove (n : Nat) :
    (q.remove n).toQueue (removed ++ q.entries.take n) = (q.toQueue removed).remove n := by
  simp only [toQueue, Queue.remove, remove, entries, List.map_drop]

private theorem toQueue_limitBytes (max : Nat) : ∃ removed', (q.toQueue removed).limitBytes max =
      ((q.limitBytes max).1.toQueue removed', (q.limitBytes max).2) := by
  unfold limitBytes Queue.limitBytes
  split
  · exact ⟨removed, rfl⟩
  · exact ⟨_, Prod.ext (toQueue_remove q removed _).symm rfl⟩

private theorem toQueue_limitAge (maxAge now : Int) :
    ∃ removed', (q.toQueue removed).limitAge maxAge now =
      ((q.limitAge maxAge now).1.toQueue removed', (q.limitAge maxAge now).2) := by
  unfold limitAge Queue.limitAge
  have hdata : (q.toQueue removed).data = q.entries := rfl
  simp only [hdata]
  split
  · exact ⟨removed, rfl⟩
  · split
    · exact ⟨removed, rfl⟩
    · split
      · exact ⟨_, Prod.ext (toQueue_remove q removed _).symm rfl⟩
      · exact ⟨removed, rfl⟩

private theorem toQueue_applyLimits (options : QueueOptions) (now : Int) :
    ∃ removed', (q.toQueue removed).applyLimits options now =
      (q.applyLimits options now).toQueue removed' := by
  obtain ⟨r₁, hbytes⟩ := toQueue_limitBytes q removed options.maxQueuedBytes
  obtain ⟨r₂, hage⟩ := toQueue_limitAge (q.limitBytes options.maxQueuedBytes).1 r₁
    options.maxQueuedTime now
  refine ⟨r₂, ?_⟩
  simp only [Queue.applyLimits, hbytes, hage]
  rfl

/-- `insert` does to the entries what it does without the pointers. -/
theorem toQueue_insert (options : QueueOptions) (e : BufEntry) (now : Int) :
    ∃ removed', (q.toQueue removed).insert options e.entry.data e.entry.ts now =
      (q.insert options e now).toQueue removed' := by
  obtain ⟨removed', h⟩ :=
    toQueue_applyLimits { q with data := q.data ++ [e] } removed options now
  refine ⟨removed', ?_⟩
  have hdata : ({ q with data := q.data ++ [e] } : BufQueue).toQueue removed =
      { q.toQueue removed with data := (q.toQueue removed).data ++ [e.entry] } := by
    simp only [toQueue, entries, List.map_append, List.map_cons, List.map_nil]
  rw [hdata] at h
  exact congrArg Queue.signal h

/-- `get` takes the same entries. -/
theorem toQueue_get (options : QueueOptions) : (q.toQueue removed).get options =
      ((q.get options).1.toQueue removed, (q.get options).2.map BufEntry.entry) := by
  rcases q with ⟨_ | ⟨e, rest⟩, pending, dropped, pool⟩
  · rfl
  · simp only [Queue.get, get, toQueue, entries, List.map_cons, List.length_cons, List.length_map]
    split <;> simp [signal, Queue.signal, List.map_drop, List.map_take]

/-- `requeue` does to the entries what it does without the pointers. -/
theorem toQueue_requeue (options : QueueOptions) (batch : List BufEntry) (now : Int) :
    ∃ removed', (q.toQueue removed).requeue options (batch.map BufEntry.entry) now =
      (q.requeue options batch now).toQueue removed' := by
  unfold requeue Queue.requeue
  by_cases hb : batch = []
  · rw [if_pos hb, if_pos (by rw [hb, List.map_nil])]
    exact ⟨removed, rfl⟩
  · rw [if_neg hb, if_neg (by rwa [List.map_eq_nil_iff])]
    obtain ⟨removed', h⟩ :=
      toQueue_applyLimits { q with data := batch ++ q.data } removed options now
    refine ⟨removed', ?_⟩
    have hdata : ({ q with data := batch ++ q.data } : BufQueue).toQueue removed =
        { q.toQueue removed with
          data := batch.map BufEntry.entry ++ (q.toQueue removed).data } := by
      simp only [toQueue, entries, List.map_append]
    rw [hdata] at h
    exact congrArg Queue.signal h

end

/-! ### Where the buffers go -/

private theorem returnAll_nil (p : Pool) : p.returnAll [] = p := by
  simp only [Pool.returnAll, bufs, List.map_nil, List.append_nil]

private theorem returnAll_append (p : Pool) (a b : List BufEntry) :
    (p.returnAll a).returnAll b = p.returnAll (a ++ b) := by
  simp only [Pool.returnAll, bufs_append, List.append_assoc]

private theorem remove_zero (q : BufQueue) : q.remove 0 = q := by
  rw [remove, List.drop_zero, List.take_zero, returnAll_nil]

private theorem limitBytes_removes (q : BufQueue) (max : Nat) :
    ∃ n, (q.limitBytes max).1 = q.remove n := by
  unfold limitBytes
  split
  · exact ⟨0, (remove_zero q).symm⟩
  · exact ⟨_, rfl⟩

private theorem limitAge_removes (q : BufQueue) (maxAge now : Int) :
    ∃ n, (q.limitAge maxAge now).1 = q.remove n := by
  unfold limitAge
  split
  · exact ⟨0, (remove_zero q).symm⟩
  · split
    · exact ⟨0, (remove_zero q).symm⟩
    · dsimp only
      split
      · exact ⟨_, rfl⟩
      · exact ⟨0, (remove_zero q).symm⟩

private theorem remove_remove (q : BufQueue) (b e : Nat) :
    (q.remove b).remove e = q.remove (b + e) := by
  simp only [remove, List.drop_drop, returnAll_append, List.take_add]

private theorem applyLimits_returns (q : BufQueue) (options : QueueOptions) (now : Int) :
    ∃ n, (q.applyLimits options now).data = q.data.drop n ∧
      (q.applyLimits options now).pool = q.pool.returnAll (q.data.take n) := by
  obtain ⟨b, hb⟩ := limitBytes_removes q options.maxQueuedBytes
  obtain ⟨e, he⟩ := limitAge_removes (q.limitBytes options.maxQueuedBytes).1
    options.maxQueuedTime now
  have hage : ((q.limitBytes options.maxQueuedBytes).1.limitAge options.maxQueuedTime now).1 =
      q.remove (b + e) := by
    rw [he, hb, remove_remove]
  refine ⟨b + e, ?_, ?_⟩
  · unfold applyLimits
    exact congrArg BufQueue.data hage
  · unfold applyLimits
    exact congrArg BufQueue.pool hage

/-- `insert` appends its entry and returns a prefix. -/
theorem insert_returns (q : BufQueue) (options : QueueOptions) (e : BufEntry) (now : Int) :
    ∃ n, (q.insert options e now).data = (q.data ++ [e]).drop n ∧
      (q.insert options e now).pool = q.pool.returnAll ((q.data ++ [e]).take n) :=
  applyLimits_returns { q with data := q.data ++ [e] } options now

/-- `requeue` puts its batch in front and returns a prefix. -/
theorem requeue_returns (q : BufQueue) (options : QueueOptions) (batch : List BufEntry)
    (now : Int) : ∃ n, (q.requeue options batch now).data = (batch ++ q.data).drop n ∧
      (q.requeue options batch now).pool = q.pool.returnAll ((batch ++ q.data).take n) := by
  unfold requeue
  split
  next h => exact ⟨0, by rw [h]; rfl, by rw [List.take_zero, returnAll_nil]⟩
  next => exact applyLimits_returns { q with data := batch ++ q.data } options now

/-- `get` splits the queue and does not use the pool. -/
theorem get_splits (q : BufQueue) (options : QueueOptions) :
    (q.get options).2 ++ (q.get options).1.data = q.data ∧ (q.get options).1.pool = q.pool := by
  unfold get
  split
  next h => exact ⟨rfl, rfl⟩
  next e rest h =>
    dsimp only
    split
    · exact ⟨List.take_append_drop _ _, rfl⟩
    · exact ⟨List.take_append_drop _ _, rfl⟩

end BufQueue
end SMAgent.Pusher
