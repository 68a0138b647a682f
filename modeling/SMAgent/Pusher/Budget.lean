import Mathlib.Algebra.Ring.Int.Defs
import SMAgent.Pusher.Retries

/-!
# Budget and back-off

What the options `maxRetries`, `minBackoff` and `maxBackoff` promise for one call of `push`,
`docs/architecture/publisher.md:176-189`. The budget is reset when the loop takes a batch and is
not retrying, and the flag outlives the batch that it was set for. So every record keeps to the
budget, and the waits double; but a batch without any record of the one before, which is a new
batch, still has the old budget if the limits dropped all of what was requeued.
-/

namespace SMAgent.Pusher.Push
open SMAgent.Base SMAgent.Prom

/-- The wait after `j` others. -/
def Options.wait (options : Options) (j : Nat) : Int :=
  min (options.minBackoff * 2 ^ j) options.maxBackoff

/-- A request with no record of the one before it starts with the whole budget and without
back-off. -/
def Fresh (options : Options) (requests : List Request) : Prop :=
  ∀ before r after, requests = before ++ r :: after →
    (∀ prev ∈ before.getLast?, prev.records.Disjoint r.records) →
    r.retriesLeft = options.maxRetries ∧ r.backoffLast = 0

/-- What the options promise: no record is in more than `maxRetries + 1` requests, a batch with
no record of the one before it has the whole budget and no back-off, and the waits double up to
the maximum. -/
structure Budget (options : Options) (log : Log) : Prop where
  bounded : ∀ i, (sent log.requests i : Int) ≤ options.maxRetries + 1
  fresh : Fresh options log.requests
  waits : ∀ j w, log.waits[j]? = some w → w = options.wait j

/-- If the loop takes a batch for a retry, a record of the batch that failed is still there. -/
def Retried (x : Call) : Prop :=
  x.state.retrying = true → x.numbering.queued ≠ [] →
    ∃ i ∈ x.numbering.queued, i ∈ lastRecords x.log.requests

variable {options : Options} {s s' : State} {n : Numbering} {log : Log} {x x' : Call} {a : Action}

/-! ### The back-off -/

/-- The last of `n` waits. -/
def Options.lastWait (options : Options) : Nat → Int
  | 0 => 0
  | j + 1 => options.wait j

/-- The last wait, and those since the reset. -/
structure Backed (options : Options) (s : State) (log : Log) : Prop where
  last : s.backoffLast = options.lastWait log.waits.length
  waits : ∀ j w, log.waits[j]? = some w → w = options.wait j

private theorem wait_zero (hle : options.minBackoff ≤ options.maxBackoff) :
    options.wait 0 = options.minBackoff := by
  rw [Options.wait, pow_zero, mul_one, min_eq_left hle]

section

variable (hmin : 0 < options.minBackoff) (hle : options.minBackoff ≤ options.maxBackoff)
include hmin hle

private theorem minBackoff_le_wait (j : Nat) : options.minBackoff ≤ options.wait j := by
  have hpow : options.minBackoff ≤ options.minBackoff * 2 ^ j := by
    induction j with
    | zero => rw [pow_zero, mul_one]
    | succ j ih =>
      rw [pow_succ, ← mul_assoc]
      omega
  exact le_min hpow hle

private theorem wait_succ (j : Nat) :
    options.wait (j + 1) = min (2 * options.wait j) options.maxBackoff := by
  simp only [Options.wait, pow_succ, ← mul_assoc]
  omega

private theorem Backed.wait (h : Backed options s log) (records : List BufEntry) (now : Int) :
    Backed options (s.requeue options records now)
      { log with waits := log.waits ++ [(s.requeue options records now).backoffLast] } := by
  have hnext : (s.requeue options records now).backoffLast = options.wait log.waits.length := by
    have hlast := h.last
    show (if s.backoffLast < options.minBackoff then options.minBackoff
      else min (2 * s.backoffLast) options.maxBackoff) = _
    cases hlen : log.waits.length with
    | zero =>
      rw [hlen, Options.lastWait] at hlast
      rw [hlast, if_pos hmin, wait_zero hle]
    | succ j =>
      rw [hlen, Options.lastWait] at hlast
      have hge := minBackoff_le_wait hmin hle j
      rw [hlast, if_neg (by omega), wait_succ hmin hle]
  constructor
  · simp only [List.length_append, List.length_cons, List.length_nil]
    exact hnext
  · intro j w hw
    rcases Nat.lt_trichotomy j log.waits.length with hlt | rfl | hgt
    · rw [List.getElem?_append_left hlt] at hw
      exact h.waits j w hw
    · rw [List.getElem?_concat_length] at hw
      rw [← Option.some.inj hw, hnext]
    · rw [List.getElem?_eq_none (by simp; omega)] at hw
      cases hw

private theorem backed_step (h : Backed options x.state x.log) (hstep : CallStep options x a x') :
    Backed options x'.state x'.log := by
  obtain ⟨s, n, log⟩ := x
  obtain ⟨s', n', log'⟩ := x'
  obtain ⟨hinside, hs, hn, hlog⟩ := hstep
  dsimp only at h hs hn hlog ⊢
  subst hlog
  cases hs with
  | enter _ => exact absurd rfl (hinside _ _)
  | take _ =>
    rcases (retries_take s options).2 with ⟨-, heq⟩ | ⟨-, hpc', -, -, hback⟩
    · rw [heq, Log.step, if_neg (by simp [Pc.records])]
      exact ⟨h.last, h.waits⟩
    · rw [Log.step, if_pos (by rw [hpc']; rfl)]
      cases hretrying : s.retrying with
      | true =>
        rw [hretrying, if_pos rfl] at hback
        exact ⟨hback.trans h.last, h.waits⟩
      | false =>
        rw [hretrying] at hback
        exact ⟨hback, fun j w hw ↦ by simp at hw⟩
  | @respond records outcome _ _ =>
    have hback := (retries_respond s records outcome).2.1
    exact ⟨hback.trans h.last, h.waits⟩
  | requeue _ => exact h.wait hmin hle _ _
  | cancel _ | wake _ _ | resume _ | insert _ | acquire _ | allocate _ | release _ | collect =>
    exact ⟨h.last, h.waits⟩

end

private theorem Backed.double_lt (hmax : options.maxBackoff < 2 ^ 62) (h : Backed options s log) :
    2 * s.backoffLast < 2 ^ 63 := by
  have hlast := h.last
  cases hlen : log.waits.length with
  | zero =>
    rw [hlen, Options.lastWait] at hlast
    omega
  | succ j =>
    rw [hlen, Options.lastWait] at hlast
    have hwait : options.wait j ≤ options.maxBackoff := min_le_right _ _
    omega

/-! ### New batches -/

private theorem fresh_concat (requests : List Request) (r : Request) :
    Fresh options (requests ++ [r]) ↔ Fresh options requests ∧
      ((∀ prev ∈ requests.getLast?, prev.records.Disjoint r.records) →
        r.retriesLeft = options.maxRetries ∧ r.backoffLast = 0) := by
  constructor
  · intro h
    refine ⟨fun before r' after heq ↦ ?_, h requests r [] rfl⟩
    exact h before r' (after ++ [r]) (by rw [heq, List.append_assoc, List.cons_append])
  · rintro ⟨hold, hnew⟩ before r' after heq
    rcases List.eq_nil_or_concat' after with rfl | ⟨after, last, rfl⟩
    · obtain ⟨rfl, hlast⟩ := List.append_inj' heq rfl
      obtain rfl := (List.cons.inj hlast).1
      exact hnew
    · have heq' : requests ++ [r] = before ++ r' :: after ++ [last] := by simpa using heq
      exact hold before r' after (List.append_inj' heq' rfl).1

private theorem sent_pos {requests : List Request} {i : Nat} (h : i ∈ lastRecords requests) :
    0 < sent requests i := by
  unfold lastRecords at h
  cases hlast : requests.getLast? with
  | none =>
    rw [hlast] at h
    cases h
  | some r =>
    rw [hlast] at h
    apply List.countP_pos_iff.mpr
    exact ⟨r, List.mem_of_getLast? hlast, by simpa using h⟩

private theorem CallInv.shares_iff {requests : List Request} (h : CallInv options s n requests) :
    (∃ i ∈ lastRecords requests,
      i ∈ n.queued.take (s.queue.get options.toQueueOptions).2.length) ↔
      ∃ i ∈ n.queued, i ∈ lastRecords requests := by
  constructor
  · rintro ⟨i, hlast, hbatch⟩
    exact ⟨i, List.mem_of_mem_take hbatch, hlast⟩
  · rintro ⟨i, hqueued, hlast⟩
    obtain ⟨k, hk, hfront, -⟩ := h.front
    have hkb := hfront.le_length s.queue (h.numbered.queued.length_eq ▸ hk)
    have hpos := sent_pos hlast
    refine ⟨i, hlast, ?_⟩
    rw [← List.take_append_drop k n.queued] at hqueued
    rcases List.mem_append.mp hqueued with hfirst | hlater
    · exact (List.take_subset_take_left _ hkb) hfirst
    · rw [hfront.unsent i hlater] at hpos
      omega

private theorem fresh_take (h : CallInv options s n log.requests) (hne : s.queue.data ≠ []) :
    ((∀ prev ∈ log.requests.getLast?, prev.records.Disjoint
        (n.queued.take (s.queue.get options.toQueueOptions).2.length)) →
      (s.take options).retriesLeft = options.maxRetries ∧ (s.take options).backoffLast = 0) ↔
      Retried ⟨s, n, log⟩ := by
  obtain ⟨-, -, -, hleft, hback⟩ :=
    (retries_take s options).2.resolve_left fun hempty ↦ hne hempty.1
  have hqueued : n.queued ≠ [] := by
    intro hnil
    have hlen := h.numbered.queued.length_eq
    rw [hnil, List.length_nil] at hlen
    exact hne (List.eq_nil_of_length_eq_zero hlen.symm)
  cases hretrying : s.retrying with
  | false =>
    rw [hretrying] at hleft hback
    constructor
    · intro _ htrue
      cases hretrying.symm.trans htrue
    · intro _ _
      exact ⟨hleft, hback⟩
  | true =>
    obtain ⟨hspent, hsome, -⟩ := h.retrying hretrying
    rw [hretrying, if_pos rfl] at hleft
    have hnot : ¬ ((s.take options).retriesLeft = options.maxRetries ∧
        (s.take options).backoffLast = 0) := by
      rintro ⟨hfull, -⟩
      omega
    obtain ⟨prev, hprev⟩ : ∃ prev, log.requests.getLast? = some prev :=
      ⟨_, List.getLast?_eq_some_getLast hsome⟩
    have hrecords : lastRecords log.requests = prev.records := by
      simp [lastRecords, hprev]
    have hshares := h.shares_iff
    rw [hrecords] at hshares
    constructor
    · intro hdisjoint _ _
      show ∃ i ∈ n.queued, i ∈ lastRecords log.requests
      rw [hrecords, ← hshares]
      by_contra hnone
      apply hnot (hdisjoint _)
      intro r hr i hi hi'
      rw [hprev] at hr
      obtain rfl := Option.some.inj hr
      exact hnone ⟨i, hi, hi'⟩
    · intro hretried hdisjoint
      have hleft := hretried hretrying hqueued
      rw [show lastRecords (Call.log ⟨s, n, log⟩).requests = prev.records from hrecords] at hleft
      obtain ⟨i, hi, hi'⟩ := hshares.mpr hleft
      exact absurd hi' (hdisjoint prev hprev hi)

private theorem fresh_step (h : CallInv options x.state x.numbering x.log.requests)
    (hstep : CallStep options x a x') :
    Fresh options x'.log.requests ↔
      Fresh options x.log.requests ∧ (a = .take → Retried x) := by
  obtain ⟨s, n, log⟩ := x
  obtain ⟨s', n', log'⟩ := x'
  obtain ⟨hinside, hs, hn, hlog⟩ := hstep
  dsimp only at h hs hn hlog ⊢
  subst hn hlog
  cases hs with
  | take hpc =>
    rcases (retries_take s options).2 with ⟨hnil, heq⟩ | ⟨hne, hpc', -⟩
    · rw [heq, Log.step, if_neg (by simp [Pc.records])]
      have hretried : Retried ⟨s, n, log⟩ := by
        intro _ hqueued
        have hlen := h.numbered.queued.length_eq
        rw [hnil, List.length_nil] at hlen
        exact absurd (List.eq_nil_of_length_eq_zero hlen) hqueued
      simp [hretried]
    · rw [Log.step, if_pos (by rw [hpc']; rfl)]
      have htaken : s.queue.data.length - (s.take options).queue.data.length =
          (s.queue.get options.toQueueOptions).2.length := by
        rw [(retries_take s options).1, ← (nextBatch options.toQueueOptions s.queue).split,
          List.length_append]
        omega
      simp only [fresh_concat, Numbering.step, htaken, fresh_take h hne, forall_const]
  | enter _ | cancel _ | wake _ _ | respond _ _ | requeue _ | resume _ | insert _ | acquire _
  | allocate _ | release _ | collect => simp [Log.step]

private theorem step_unique {s₁ s₂ : State} (h₁ : Step options s a s₁) (h₂ : Step options s a s₂) :
    s₁ = s₂ := by
  cases h₁ with
  | respond hpc _ =>
    cases h₂ with
    | respond hpc' _ =>
      cases hpc.symm.trans hpc'
      rfl
  | requeue hpc =>
    cases h₂ with
    | requeue hpc' =>
      cases hpc.symm.trans hpc'
      rfl
  | enter _ | cancel _ | wake _ _ | take _ | resume _ | insert _ | acquire _ | allocate _
  | release _ | collect =>
    cases h₂
    rfl

private theorem callStep_unique {x₁ x₂ : Call} (h₁ : CallStep options x a x₁)
    (h₂ : CallStep options x a x₂) : x₁ = x₂ := by
  obtain ⟨s₁, n₁, log₁⟩ := x₁
  obtain ⟨s₂, n₂, log₂⟩ := x₂
  obtain rfl := step_unique h₁.step h₂.step
  obtain rfl := h₁.numbering.trans h₂.numbering.symm
  obtain rfl := h₁.log.trans h₂.log.symm
  rfl

/-! ### Every call -/

private theorem callInv_enter (hretries : 0 ≤ options.maxRetries) {before : List Action}
    (hbefore : Runs (NumberedStep options) ({}, {}) before (s, n)) (hstopped : s.pc = .stopped) :
    CallInv options (s.enter options true true) n [] := by
  obtain ⟨hinv, hnumbered⟩ := numbered_of_runs hbefore
  have henter : Step options s (.enter true true) (s.enter options true true) := .enter hstopped
  constructor
  · exact inv_step hinv henter
  · exact numbered_step hnumbered hinv henter
  · exact ⟨hretries, Int.le_refl _⟩
  · intro i
    show (0 : Int) ≤ options.maxRetries + 1
    omega
  · intro i _
    rfl
  · exact ⟨0, Nat.zero_le _, ⟨List.nil_suffix, .inr (Nat.zero_le _), fun _ _ ↦ rfl⟩, fun _ ↦ rfl⟩
  · intro records hrecords
    cases hrecords
  · intro records heq
    cases heq
  · intro records heq
    cases heq
  · intro hretrying
    cases hretrying

/-- One call of `push` keeps to the budget exactly if every batch that it takes for a retry has
a record of the batch that failed. -/
theorem budget_iff (hretries : 0 ≤ options.maxRetries) (hmin : 0 < options.minBackoff)
    (hle : options.minBackoff ≤ options.maxBackoff) (hmax : options.maxBackoff < 2 ^ 62)
    {before actions : List Action} {x : Call}
    (hbefore : Runs (NumberedStep options) ({}, {}) before (s, n)) (hstopped : s.pc = .stopped)
    (hcall : Runs (CallStep options) ⟨s.enter options true true, n, {}⟩ actions x) :
    (Budget options x.log ↔ ∀ pre post t, actions = pre ++ .take :: post →
      Runs (CallStep options) ⟨s.enter options true true, n, {}⟩ pre t → Retried t) ∧
    2 * x.state.backoffLast < 2 ^ 63 := by
  have hinv₀ := callInv_enter hretries hbefore hstopped
  have hbacked₀ : Backed options (s.enter options true true) {} := ⟨rfl, fun j w hw ↦ by cases hw⟩
  have hinv : CallInv options x.state x.numbering x.log.requests :=
    hcall.invariant (fun _ _ _ hx hstep ↦ callInv_step hx hstep) hinv₀
  have hbacked : Backed options x.state x.log :=
    hcall.invariant (fun _ _ _ hx hstep ↦ backed_step hmin hle hx hstep) hbacked₀
  have hfresh := hcall.iff_forall (P := fun x ↦ Fresh options x.log.requests)
    (fun _ _ _ _ h₁ h₂ ↦ callStep_unique h₁ h₂)
    (fun x _ _ (hx : CallInv options x.state x.numbering x.log.requests) hstep ↦
      ⟨callInv_step hx hstep, fresh_step hx hstep⟩) hinv₀
  have hfresh₀ : Fresh options [] := fun before r after heq ↦ by simp at heq
  refine ⟨?_, hbacked.double_lt hmax⟩
  constructor
  · intro hbudget pre post t heq hrun
    exact (hfresh.mp hbudget.fresh).2 pre .take post t heq hrun rfl
  · intro hretried
    refine ⟨hinv.bounded, hfresh.mpr ⟨hfresh₀, ?_⟩, hbacked.waits⟩
    rintro pre a post t heq hrun rfl
    exact hretried pre post t heq hrun

/-! ### Two calls -/

/-- One retry, and room for ten bytes in the queue. -/
def oneRetry : Options :=
  { maxPushBytes := 100, maxQueuedBytes := 10, maxRetries := 1, minBackoff := 1, maxBackoff := 4 }

/-- A record of six bytes waits before the call. -/
def oneWaiting : List Action := [.allocate 0, .insert ⟨0, ⟨[1, 2, 3, 4, 5, 6], 5⟩⟩ 5]

/-- The record is sent, the server fails, and the record is sent once more. -/
def failOnce : List Action :=
  [.wake, .take, .respond (.response 503 (.lit "503") []), .requeue 7, .resume, .wake, .take]

/-- Another record comes in while the first is under way, and the first is dropped when it is
requeued. -/
def overtaken : List Action :=
  [.wake, .take, .allocate 1, .insert ⟨1, ⟨[1, 2, 3, 4, 5, 6], 6⟩⟩ 6,
    .respond (.response 503 (.lit "503") []), .requeue 7, .resume, .wake, .take]

private theorem numberedStep {x : State × Numbering} (h : Step options x.1 a s') :
    NumberedStep options x a (s', x.2.step x.1 a s') := ⟨h, rfl⟩

private theorem callStep (h : Step options x.state a s')
    (hinside : ∀ remoteOk clientOk, a ≠ .enter remoteOk clientOk) :
    CallStep options x a ⟨s', x.numbering.step x.state a s',
      x.log.step x.state a s' (x.numbering.step x.state a s').hand⟩ := ⟨hinside, h, rfl, rfl⟩

private theorem oneWaiting_runs : ∃ s n, Runs (NumberedStep oneRetry) ({}, {}) oneWaiting (s, n) ∧
    s.pc = .stopped ∧
    (∃ x, Runs (CallStep oneRetry) ⟨s.enter oneRetry true true, n, {}⟩ failOnce x ∧
      x.log = ⟨[⟨[0], 1, 0⟩, ⟨[0], 0, 1⟩], [1]⟩) ∧
    (∃ t, Runs (CallStep oneRetry) ⟨s.enter oneRetry true true, n, {}⟩ (failOnce.take 1) t ∧
      t.state.retrying = false) ∧
    (∃ t, Runs (CallStep oneRetry) ⟨s.enter oneRetry true true, n, {}⟩ (failOnce.take 6) t ∧
      t.numbering.queued = [0] ∧ lastRecords t.log.requests = [0]) ∧
    ∃ x, Runs (CallStep oneRetry) ⟨s.enter oneRetry true true, n, {}⟩ overtaken x ∧
      x.log = ⟨[⟨[0], 1, 0⟩, ⟨[1], 0, 1⟩], [1]⟩ :=
  ⟨_, _, .cons (numberedStep (.allocate (by decide))) <|
      .cons (numberedStep (.insert (by decide))) <| .nil _, rfl,
    ⟨_, .cons (callStep (.wake rfl rfl) nofun) <| .cons (callStep (.take rfl) nofun) <|
      .cons (callStep (.respond rfl nofun) nofun) <| .cons (callStep (.requeue rfl) nofun) <|
      .cons (callStep (.resume rfl) nofun) <| .cons (callStep (.wake rfl rfl) nofun) <|
      .cons (callStep (.take rfl) nofun) <| .nil _, rfl⟩,
    ⟨_, .cons (callStep (.wake rfl rfl) nofun) <| .nil _, rfl⟩,
    ⟨_, .cons (callStep (.wake rfl rfl) nofun) <| .cons (callStep (.take rfl) nofun) <|
      .cons (callStep (.respond rfl nofun) nofun) <| .cons (callStep (.requeue rfl) nofun) <|
      .cons (callStep (.resume rfl) nofun) <| .cons (callStep (.wake rfl rfl) nofun) <|
      .nil _, rfl, rfl⟩,
    ⟨_, .cons (callStep (.wake rfl rfl) nofun) <| .cons (callStep (.take rfl) nofun) <|
      .cons (callStep (.allocate (by decide)) nofun) <|
      .cons (callStep (.insert (by decide)) nofun) <|
      .cons (callStep (.respond rfl nofun) nofun) <| .cons (callStep (.requeue rfl) nofun) <|
      .cons (callStep (.resume rfl) nofun) <| .cons (callStep (.wake rfl rfl) nofun) <|
      .cons (callStep (.take rfl) nofun) <| .nil _, rfl⟩⟩

private theorem before_take_failOnce {pre post : List Action}
    (h : failOnce = pre ++ .take :: post) :
    pre = failOnce.take 1 ∨ pre = failOnce.take 6 := by
  have hpre : pre = failOnce.take pre.length := by rw [h, List.take_left]
  have hget : failOnce[pre.length]? = some .take := by rw [h]; simp
  generalize pre.length = k at hpre hget
  rcases k with _ | _ | _ | _ | _ | _ | _ | k
  · cases hget
  · exact .inl hpre
  · cases hget
  · cases hget
  · cases hget
  · cases hget
  · exact .inr hpre
  · cases hget

/-- The record is in two requests, the second for a retry and after one wait. -/
theorem budget_failOnce : ∃ s n x, Runs (NumberedStep oneRetry) ({}, {}) oneWaiting (s, n) ∧
    Runs (CallStep oneRetry) ⟨s.enter oneRetry true true, n, {}⟩ failOnce x ∧
    x.log = ⟨[⟨[0], 1, 0⟩, ⟨[0], 0, 1⟩], [1]⟩ ∧ Budget oneRetry x.log := by
  obtain ⟨s, n, hbefore, hstopped, ⟨x, hcall, hlog⟩, ⟨t₁, hrun₁, hfirst⟩,
    ⟨t₂, hrun₂, hqueued, hlast⟩, -⟩ := oneWaiting_runs
  refine ⟨s, n, x, hbefore, hcall, hlog, ?_⟩
  apply (budget_iff (by decide) (by decide) (by decide) (by decide) hbefore hstopped hcall).1.mpr
  intro pre post t heq hrun
  have hunique (x : Call) (a : Action) (x₁ x₂ : Call) (h₁ : CallStep oneRetry x a x₁)
      (h₂ : CallStep oneRetry x a x₂) : x₁ = x₂ := callStep_unique h₁ h₂
  rcases before_take_failOnce heq with rfl | rfl
  · obtain rfl := hrun.unique hunique hrun₁
    intro hretrying
    cases hfirst.symm.trans hretrying
  · obtain rfl := hrun.unique hunique hrun₂
    intro _ _
    rw [hqueued, hlast]
    exact ⟨0, by simp⟩

/-- The second record was never sent before, and has neither the whole budget nor a new
back-off. -/
theorem not_budget_overtaken : ∃ s n x, Runs (NumberedStep oneRetry) ({}, {}) oneWaiting (s, n) ∧
    s.pc = .stopped ∧ Runs (CallStep oneRetry) ⟨s.enter oneRetry true true, n, {}⟩ overtaken x ∧
    ¬ Budget oneRetry x.log := by
  obtain ⟨s, n, hbefore, hstopped, -, -, -, x, hcall, hlog⟩ := oneWaiting_runs
  refine ⟨s, n, x, hbefore, hstopped, hcall, fun hbudget ↦ ?_⟩
  have hfresh := hbudget.fresh
  rw [hlog] at hfresh
  have hfull := hfresh [⟨[0], 1, 0⟩] ⟨[1], 0, 1⟩ [] rfl (by simp)
  cases hfull.2

end SMAgent.Pusher.Push
