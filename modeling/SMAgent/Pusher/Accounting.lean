import SMAgent.Pusher.Queue

/-!
# Where the records of a queue are

Over a whole run every inserted record is waiting, or in a batch that was taken and not put
back, or was removed by a limit. `DroppedCounter` counts the removed records exactly as long
as the age limit never splits the queue into unequal halves: it reports the number of entries
it keeps.
-/

namespace SMAgent.Pusher
open SMAgent.Base

/-! ### One application of the limits -/

/-- The entries that the byte limit keeps are not split unequally by the age limit. -/
def Balanced (options : QueueOptions) (data : List QueueEntry) (now : Int) : Prop :=
  ∀ kept, WithinBytes options.maxQueuedBytes data kept →
    options.maxQueuedTime ≤ 0 ∨
      numExpired (now - options.maxQueuedTime) kept = 0 ∨
      numExpired (now - options.maxQueuedTime) kept = kept.length ∨
      2 * numExpired (now - options.maxQueuedTime) kept = kept.length

/-- What applying the limits to the entries `data` did: a prefix is gone, and it is counted
exactly in the balanced case. -/
def Limited (options : QueueOptions) (data : List QueueEntry) (now : Int) (q q' : Queue) : Prop :=
  ∃ n counted, q'.data = data.drop n ∧ q'.removed = q.removed ++ data.take n ∧
    q'.dropped = q.dropped + counted ∧ n ≤ data.length ∧
      (counted = n ↔ Balanced options data now)

private theorem applyLimits_limited (q : Queue) (options : QueueOptions) (now : Int)
    (h : Chronological q.data) : Limited options q.data now q (q.applyLimits options now) := by
  obtain ⟨b, hbytes, hb, hwithin⟩ := limitBytes_spec q options.maxQueuedBytes
  have hchron : Chronological (q.remove b).data := h.sublist (List.drop_sublist b q.data)
  have hage := limitAge_spec (q.remove b) options.maxQueuedTime now hchron
  have hdata : (q.remove b).data = q.data.drop b := rfl
  have hlen : (q.data.drop b).length = q.data.length - b := List.length_drop
  rw [hdata] at hage
  have hbalanced : Balanced options q.data now ↔ _ :=
    ⟨fun h ↦ h _ hwithin, fun h _ hkept ↦ by rwa [hkept.unique hwithin]⟩
  unfold Limited Queue.applyLimits
  rw [hbalanced]
  simp only [hbytes, hage]
  generalize he : numExpired (now - options.maxQueuedTime) (q.data.drop b) = e
  have hle : e ≤ (q.data.drop b).length := he ▸ List.countP_le_length
  split
  · next hpos =>
    split
    · next hlt =>
      rw [remove_remove]
      exact ⟨b + e, b + ((q.data.drop b).length - e), rfl, rfl, rfl, by omega, by omega⟩
    · next hall => exact ⟨b, b + ((q.data.drop b).length - e), rfl, rfl, rfl, hb, by omega⟩
  · next hnone => exact ⟨b, b + 0, rfl, rfl, rfl, hb, by omega⟩

private theorem insert_limited (q : Queue) (options : QueueOptions) (data : GoString) (ts now : Int)
    (h : Chronological (q.data ++ [⟨data, ts⟩])) :
    Limited options (q.data ++ [⟨data, ts⟩]) now q (q.insert options data ts now) :=
  applyLimits_limited { q with data := q.data ++ [⟨data, ts⟩] } options now h

private theorem requeue_limited (q : Queue) (options : QueueOptions) (batch : List QueueEntry)
    (now : Int) (hne : batch ≠ []) (h : Chronological (batch ++ q.data)) :
    Limited options (batch ++ q.data) now q (q.requeue options batch now) := by
  rw [Queue.requeue, if_neg hne]
  exact applyLimits_limited { q with data := batch ++ q.data } options now h

/-! ### Runs -/

/-- A call on the queue with the clock readings it makes. -/
inductive QueueCall where
  | insert (data : GoString) (ts now : Int)
  | get
  | requeue (now : Int)
  deriving DecidableEq, Repr

/-- A queue together with the records that went through it: those inserted, the batch of the
last `get` unless it was put back, and the batches of earlier calls that were not. -/
structure History where
  queue : Queue := {}
  inserted : List QueueEntry := []
  last : List QueueEntry := []
  earlier : List QueueEntry := []
  deriving DecidableEq, Repr

/-- Make one call; `requeue` is given the batch of the last `get`, which it uses up. -/
def exec (options : QueueOptions) (h : History) : QueueCall → History
  | .insert data ts now =>
    { h with
      queue := h.queue.insert options data ts now
      inserted := h.inserted ++ [⟨data, ts⟩] }
  | .get =>
    let (queue, batch) := h.queue.get options
    { h with queue, last := batch, earlier := h.earlier ++ h.last }
  | .requeue now => { h with queue := h.queue.requeue options h.last now, last := [] }

/-- Make some calls on a new queue. -/
def run (options : QueueOptions) (calls : List QueueCall) : History :=
  calls.foldl (exec options) {}

/-- The clock readings of a call. -/
def QueueCall.readings : QueueCall → List Int
  | .insert _ ts now => [ts, now]
  | .get => []
  | .requeue now => [now]

/-- The clock never goes back. -/
def Clocked (calls : List QueueCall) : Prop := (calls.flatMap QueueCall.readings).Pairwise (· ≤ ·)

instance (calls : List QueueCall) : Decidable (Clocked calls) :=
  inferInstanceAs (Decidable (List.Pairwise _ _))

/-- Every inserted record is in exactly one place. -/
def Conserved (h : History) : Prop :=
  h.inserted.Perm (h.queue.data ++ (h.earlier ++ h.last) ++ h.queue.removed)

/-- The counter tells how many records the limits removed. -/
def Accounted (h : History) : Prop := h.queue.dropped = h.queue.removed.length

instance (h : History) : Decidable (Accounted h) := inferInstanceAs (Decidable (_ = _))

/-- The condition on a call under which its limits are counted exactly. -/
def BalancedCall (options : QueueOptions) (h : History) : QueueCall → Prop
  | .insert data ts now => Balanced options (h.queue.data ++ [⟨data, ts⟩]) now
  | .get => True
  | .requeue now => h.last = [] ∨ Balanced options (h.last ++ h.queue.data) now

/-- Entries of the last batch and of the queue are in order, and were stamped by a reading. -/
structure Ordered (calls : List QueueCall) (h : History) : Prop where
  chronological : Chronological (h.last ++ h.queue.data)
  stamped : ∀ e ∈ h.last ++ h.queue.data, e.ts ∈ calls.flatMap QueueCall.readings

private theorem chronological_append_singleton {entries : List QueueEntry} {e : QueueEntry}
    (h : Chronological entries) (he : ∀ a ∈ entries, a.ts ≤ e.ts) :
    Chronological (entries ++ [e]) := by
  apply List.pairwise_append.mpr
  refine ⟨h, List.pairwise_singleton _ _, fun a ha b hb ↦ ?_⟩
  rw [List.mem_singleton.mp hb]
  exact he a ha

private theorem readings_append (pre : List QueueCall) (call : QueueCall) :
    (pre ++ [call]).flatMap QueueCall.readings =
      pre.flatMap QueueCall.readings ++ call.readings := by
  rw [List.flatMap_append, List.flatMap_singleton]

private theorem Ordered.insert_chronological {pre : List QueueCall} {h : History}
    {data : GoString} {ts now : Int} (ho : Ordered pre h)
    (hc : Clocked (pre ++ [.insert data ts now])) :
    Chronological (h.last ++ (h.queue.data ++ [⟨data, ts⟩])) := by
  rw [← List.append_assoc]
  apply chronological_append_singleton ho.chronological
  intro a ha
  rw [Clocked, readings_append] at hc
  exact (List.pairwise_append.mp hc).2.2 a.ts (ho.stamped a ha) ts List.mem_cons_self

private theorem Ordered.of_sublist {pre : List QueueCall} {call : QueueCall} {h' : History}
    {entries : List QueueEntry} (hc : Chronological entries)
    (hs : ∀ e ∈ entries, e.ts ∈ (pre ++ [call]).flatMap QueueCall.readings)
    (hsub : (h'.last ++ h'.queue.data).Sublist entries) : Ordered (pre ++ [call]) h' where
  chronological := hc.sublist hsub
  stamped e he := hs e (hsub.subset he)

private theorem requeue_data (options : QueueOptions) (h : History) (now : Int)
    (hc : Chronological (h.last ++ h.queue.data)) :
    ∃ n, (h.queue.requeue options h.last now).data = (h.last ++ h.queue.data).drop n := by
  by_cases hlast : h.last = []
  · refine ⟨0, ?_⟩
    rw [hlast, Queue.requeue, if_pos rfl]
    rfl
  · obtain ⟨n, -, hdata, -⟩ := requeue_limited h.queue options h.last now hlast hc
    exact ⟨n, hdata⟩

private theorem ordered_exec (options : QueueOptions) (pre : List QueueCall) (call : QueueCall)
    (h : History) (ho : Ordered pre h) (hc : Clocked (pre ++ [call])) :
    Ordered (pre ++ [call]) (exec options h call) := by
  have hold : ∀ e ∈ h.last ++ h.queue.data,
      e.ts ∈ (pre ++ [call]).flatMap QueueCall.readings := by
    intro e he
    rw [readings_append]
    exact List.mem_append_left _ (ho.stamped e he)
  cases call with
  | insert data ts now =>
    have hchron := ho.insert_chronological hc
    obtain ⟨n, -, hdata, -⟩ := insert_limited h.queue options data ts now
      (hchron.sublist (List.sublist_append_right _ _))
    apply Ordered.of_sublist hchron
    · intro e he
      rw [← List.append_assoc] at he
      rcases List.mem_append.mp he with he | he
      · exact hold e he
      · rw [List.mem_singleton.mp he, readings_append]
        exact List.mem_append_right _ List.mem_cons_self
    · apply List.Sublist.append_left
      rw [show (exec options h (.insert data ts now)).queue =
        h.queue.insert options data ts now from rfl, hdata]
      exact List.drop_sublist _ _
  | get =>
    apply Ordered.of_sublist ho.chronological hold
    have hget := (get_spec h.queue options).1
    exact hget ▸ List.sublist_append_right _ _
  | requeue now =>
    apply Ordered.of_sublist ho.chronological hold
    obtain ⟨n, hdata⟩ := requeue_data options h now ho.chronological
    exact hdata ▸ List.drop_sublist n _

private theorem conserved_exec (options : QueueOptions) (call : QueueCall) (h : History)
    (hcons : Conserved h) : Conserved (exec options h call) := by
  unfold Conserved at hcons ⊢
  rw [List.perm_iff_count] at hcons ⊢
  intro a
  have ha := hcons a
  simp only [List.count_append] at ha
  cases call with
  | insert data ts now =>
    have hp := (insert_perm h.queue options data ts now).count_eq a
    simp only [exec, List.count_append] at hp ⊢
    omega
  | get =>
    obtain ⟨hsplit, hremoved, -⟩ := get_spec h.queue options
    have hcount := congrArg (List.count a) hsplit
    simp only [exec, hremoved, List.count_append] at hcount ⊢
    omega
  | requeue now =>
    have hp := (requeue_perm h.queue options h.last now).count_eq a
    simp only [exec, List.count_append, List.count_nil] at hp ⊢
    omega

private theorem Limited.accounted_iff {options : QueueOptions} {data : List QueueEntry}
    {now : Int} {q q' : Queue} (h : Limited options data now q q')
    (ha : q.dropped = q.removed.length) :
    q'.dropped = q'.removed.length ↔ Balanced options data now := by
  obtain ⟨n, counted, -, hremoved, hdropped, hn, hb⟩ := h
  rw [← hb, hremoved, hdropped, List.length_append, List.length_take, Nat.min_eq_left hn, ha]
  omega

private theorem accounted_exec_iff (options : QueueOptions) (pre : List QueueCall)
    (call : QueueCall) (h : History) (ho : Ordered pre h) (hc : Clocked (pre ++ [call]))
    (ha : Accounted h) : Accounted (exec options h call) ↔ BalancedCall options h call := by
  cases call with
  | insert data ts now =>
    apply Limited.accounted_iff (insert_limited h.queue options data ts now _) ha
    exact (ho.insert_chronological hc).sublist (List.sublist_append_right _ _)
  | get =>
    obtain ⟨-, hremoved, hdropped⟩ := get_spec h.queue options
    refine iff_of_true ?_ trivial
    simp only [Accounted, exec, hremoved, hdropped]
    exact ha
  | requeue now =>
    by_cases hlast : h.last = []
    · refine iff_of_true ?_ (.inl hlast)
      simp only [Accounted, exec, hlast, Queue.requeue, if_true]
      exact ha
    · rw [BalancedCall, or_iff_right hlast]
      exact Limited.accounted_iff
        (requeue_limited h.queue options h.last now hlast ho.chronological) ha

private theorem run_append (options : QueueOptions) (pre : List QueueCall) (call : QueueCall) :
    run options (pre ++ [call]) = exec options (run options pre) call := by
  rw [run, List.foldl_append]
  rfl

private theorem Clocked.of_prefix {pre calls : List QueueCall} (hc : Clocked calls)
    (hp : pre <+: calls) : Clocked pre := by
  obtain ⟨post, rfl⟩ := hp
  rw [Clocked, List.flatMap_append] at hc
  exact (List.pairwise_append.mp hc).1

private theorem ordered_run (options : QueueOptions) (calls : List QueueCall)
    (hc : Clocked calls) : Ordered calls (run options calls) := by
  induction calls using List.reverseRecOn with
  | nil => exact ⟨List.Pairwise.nil, nofun⟩
  | append_singleton pre call ih =>
    rw [run_append]
    exact ordered_exec options pre call _ (ih (hc.of_prefix (List.prefix_append _ _))) hc

/-- No record is lost or duplicated, whatever the limits and the clock do. -/
theorem conserved_run (options : QueueOptions) (calls : List QueueCall) :
    Conserved (run options calls) := by
  induction calls using List.reverseRecOn with
  | nil => exact List.Perm.refl _
  | append_singleton pre call ih =>
    rw [run_append]
    exact conserved_exec options call _ ih

private theorem accounted_run (options : QueueOptions) (calls : List QueueCall)
    (hc : Clocked calls)
    (hb : ∀ pre call, pre ++ [call] <+: calls → BalancedCall options (run options pre) call) :
    Accounted (run options calls) := by
  induction calls using List.reverseRecOn with
  | nil => rfl
  | append_singleton pre call ih =>
    have hprefix := List.prefix_append pre [call]
    have hpre := hc.of_prefix hprefix
    rw [run_append, accounted_exec_iff options pre call _ (ordered_run options pre hpre) hc
      (ih hpre fun pre' call' h' ↦ hb pre' call' (h'.trans hprefix))]
    exact hb pre call (List.prefix_refl _)

/-- In every state of a run all records are in one place and the dropped ones are counted,
exactly when every call of the run is balanced in the state it is made. -/
theorem conserved_accounted_iff_balanced (options : QueueOptions) (calls : List QueueCall)
    (hc : Clocked calls) :
    (∀ pre, pre <+: calls → Conserved (run options pre) ∧ Accounted (run options pre)) ↔
      ∀ pre call, pre ++ [call] <+: calls → BalancedCall options (run options pre) call := by
  constructor
  · intro h pre call hp
    have hpre : pre <+: calls := (List.prefix_append pre [call]).trans hp
    rw [← accounted_exec_iff options pre call _ (ordered_run options pre (hc.of_prefix hpre))
      (hc.of_prefix hp) (h pre hpre).2, ← run_append]
    exact (h _ hp).2
  · intro hb pre hp
    refine ⟨conserved_run options pre, ?_⟩
    exact accounted_run options pre (hc.of_prefix hp)
      fun pre' call' h' ↦ hb pre' call' (h'.trans hp)

/-- Without an age limit a batch that is put back is accounted for. -/
theorem conserved_accounted_without_age_limit :
    Clocked [.insert [1, 2] 0 0, .insert [3] 1 1, .get, .insert [4] 2 2, .requeue 3] ∧
      ∀ pre, pre <+: [.insert [1, 2] 0 0, .insert [3] 1 1, .get, .insert [4] 2 2, .requeue 3] →
        Conserved (run { maxPushBytes := 3, maxQueuedBytes := 3 } pre) ∧
          Accounted (run { maxPushBytes := 3, maxQueuedBytes := 3 } pre) := by
  refine ⟨by decide, (conserved_accounted_iff_balanced _ _ (by decide)).mpr ?_⟩
  intro pre call _
  cases call with
  | insert data ts now => exact fun kept _ ↦ .inl (Int.le_refl 0)
  | get => trivial
  | requeue now => exact .inr fun kept _ ↦ .inl (Int.le_refl 0)

/-- Two records expire when a third is inserted; both are removed and one is counted. -/
theorem conserved_accounted_two_of_three_expired :
    Clocked [.insert [1] 0 0, .insert [2] 1 1, .insert [3] 150 150] ∧
      ¬ ∀ pre, pre <+: [.insert [1] 0 0, .insert [2] 1 1, .insert [3] 150 150] →
        Conserved (run { maxQueuedTime := 100 } pre) ∧
          Accounted (run { maxQueuedTime := 100 } pre) := by
  refine ⟨by decide, fun h ↦ ?_⟩
  have ha := (h _ (List.prefix_refl _)).2
  revert ha
  decide

end SMAgent.Pusher
