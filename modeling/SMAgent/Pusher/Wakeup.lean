import SMAgent.Pusher.Disposition

/-!
# Wake-ups of the push loop

`internal/pusher/v2/condition.go` is a channel with one slot. Signals to a full channel are
lost, so the channel does not count records; it only has to hold a token whenever records
wait. Every operation on the queue runs under its mutex, with its signal, so it is one step;
the receive from the channel is outside the mutex and a step of its own.
-/

namespace SMAgent.Pusher.Push
open SMAgent.Base SMAgent.Prom

/-- Records that wait are announced, unless the loop has taken the token and is about to call
`get`. -/
def Announced (s : State) : Prop :=
  s.queue.data ≠ [] → s.pc ≠ .woken → s.queue.pending = true

/-- A loop at its `select` with records in the queue can receive, and then has a batch. -/
def CanProceed (options : Options) (s : State) : Prop :=
  s.pc = .selecting → s.queue.data ≠ [] →
    ∃ s₁ s₂ records, Step options s .wake s₁ ∧ Step options s₁ .take s₂ ∧
      s₂.pc = .sending records ∧ records ≠ []

/-! ### One step -/

variable {s s' : State} {options : Options}

private theorem Announced.frame (h : Announced s) (hdata : s'.queue.data = s.queue.data)
    (hpending : s'.queue.pending = s.queue.pending) (hpc : s.pc = .woken → s'.pc = .woken) :
    Announced s' := by
  intro hne hwoken
  rw [hpending]
  apply h
  · rwa [← hdata]
  · exact fun hs ↦ hwoken (hpc hs)

private theorem pending_get (q : BufQueue) (options : QueueOptions)
    (h : (q.get options).1.data ≠ []) : (q.get options).1.pending = true := by
  unfold BufQueue.get at h ⊢
  split at h
  next hnil => exact absurd hnil h
  next e rest hdata =>
    dsimp only at h ⊢
    split
    next => rfl
    next hall =>
      -- all records were taken
      rw [if_neg hall] at h
      exact absurd (List.drop_eq_nil_of_le (by omega)) h

private theorem announced_take (s : State) (options : Options) : Announced (s.take options) := by
  intro hne _
  have hget := pending_get s.queue options.toQueueOptions
  unfold State.take at hne ⊢
  split at hne
  next queue hq =>
    rw [hq] at hget
    exact hget hne
  next queue records _ hq =>
    rw [hq] at hget
    exact hget hne

private theorem announced_requeue (h : Announced s) (records : List BufEntry) (now : Int)
    (hpc : s.pc = .requeueing records) : Announced (s.requeue options records now) := by
  by_cases hr : records = []
  · apply h.frame
    · simp [State.requeue, BufQueue.requeue, hr]
    · simp [State.requeue, BufQueue.requeue, hr]
    · simp [hpc]
  · intro _ _
    simp [State.requeue, BufQueue.requeue, hr, BufQueue.signal]

private theorem announced_respond (h : Announced s) {records : List BufEntry} {outcome : Outcome}
    (hpc : s.pc = .sending records) (hsent : ∀ err, outcome ≠ .badRequest err) :
    Announced (s.respond records outcome) := by
  have hnot : s.pc = .woken → (s.respond records outcome).pc = .woken := by simp [hpc]
  rcases respond_cases s records hsent with ⟨-, counters, retriesLeft, heq⟩ | hend
  · apply h.frame _ _ hnot
    · rw [heq]
    · rw [heq]
  · apply h.frame _ _ hnot
    · rw [hend.queue]
    · rw [hend.queue]

private theorem announced_step {a : Action} (h : Announced s) (hstep : Step options s a s') :
    Announced s' := by
  cases hstep with
  | enter hpc =>
    unfold State.enter
    split
    · exact h
    · split
      · exact h
      · exact h.frame rfl rfl (by simp [hpc])
  | cancel hpc =>
    refine h.frame rfl rfl ?_
    rcases hpc with hpc | hpc <;> simp [hpc]
  | wake hpc _ => exact fun _ hne ↦ absurd rfl hne
  | take hpc => exact announced_take s options
  | respond hpc hsent => exact announced_respond h hpc hsent
  | requeue hpc => exact announced_requeue h _ _ hpc
  | resume hpc => exact h.frame rfl rfl (by simp [hpc])
  | insert _ => exact fun _ _ ↦ rfl
  | acquire _ | allocate _ | release _ | collect => exact h.frame rfl rfl id

private theorem get_ne_nil (q : BufQueue) (options : QueueOptions) (h : q.data ≠ []) :
    (q.get options).2 ≠ [] := by
  unfold BufQueue.get
  split
  next hnil => exact absurd hnil h
  next e rest hdata =>
    dsimp only
    rw [hdata, List.take_succ_cons]
    exact List.cons_ne_nil _ _

private theorem Announced.canProceed (h : Announced s) (options : Options) :
    CanProceed options s := by
  intro hpc hne
  have hpending : s.queue.pending = true := h hne (by simp [hpc])
  have hget : (({ s.queue with pending := false } : BufQueue).get options.toQueueOptions).2 ≠ [] :=
    get_ne_nil _ _ hne
  refine ⟨_, _, _, .wake hpc hpending, .take rfl, ?_, hget⟩
  unfold State.take
  split
  next queue hq =>
    dsimp only at hq
    rw [hq] at hget
    exact absurd rfl hget
  next queue records _ hq =>
    dsimp only at hq
    rw [hq]

/-! ### Every run -/

/-- No wake-up is lost: in every state of every run the records that wait are announced, and a
loop that waits for them can go on. -/
theorem no_lost_wakeup {options : Options} {acts : List Action} {s : State}
    (h : Runs (Step options) {} acts s) : Announced s ∧ CanProceed options s := by
  have hinit : Announced {} := fun hne _ ↦ absurd rfl hne
  have hs : Announced s :=
    h.invariant (fun _ _ _ (ht : Announced _) hstep ↦ announced_step ht hstep) hinit
  exact ⟨hs, hs.canProceed options⟩

/-- Two records arrive, the loop takes the first and the context ends in its back-off; a new
loop finds the records that are left. -/
def restartLater : List Action :=
  [.allocate 0, .insert ⟨0, ⟨[7], 5⟩⟩ 5, .allocate 1, .insert ⟨1, ⟨[8], 6⟩⟩ 6, .enter true true,
    .wake, .take, .respond (.response 503 (.lit "503 Service Unavailable") []), .requeue 7,
    .cancel, .enter true true]

/-- A loop that starts later finds the records that are left. -/
theorem no_lost_wakeup_restartLater :
    ∃ s, Runs (Step { maxRetries := 1 }) {} restartLater s ∧ s.queue.data.length = 2 ∧
      Announced s ∧ CanProceed { maxRetries := 1 } s := by
  obtain ⟨s, hrun, hlength⟩ : ∃ s, Runs (Step { maxRetries := 1 }) {} restartLater s ∧
      s.queue.data.length = 2 :=
    ⟨_, .cons (.allocate (by decide)) (.cons (.insert (by decide)) (.cons (.allocate (by decide))
      (.cons (.insert (by decide)) (.cons (.enter rfl) (.cons (.wake rfl rfl) (.cons (.take rfl)
      (.cons (.respond rfl nofun) (.cons (.requeue rfl) (.cons (.cancel (.inr rfl))
      (.cons (.enter rfl) (.nil _))))))))))), rfl⟩
  exact ⟨s, hrun, hlength, no_lost_wakeup hrun⟩

end SMAgent.Pusher.Push
