import Mathlib.Data.List.Basic
import SMAgent.Base.Run
import SMAgent.Scraper.Tick

/-!
# The `select` statements of the tick loop

`internal/scraper/scraper.go:427-526` once more, as a machine: other goroutines may cancel the
context and close `stop` at any time, and a `select` takes any of the events that are ready.
The first `select` has a default and takes it only if neither signal is there. Times and
durations are integers; the ticks of one process are not centuries apart, so `Sub` does not
saturate. What a run calls is what `tickWithOffset` calls on the events it received.
-/

namespace SMAgent.Scraper.Select
open SMAgent.Base

/-- A callback and its time. -/
inductive Call where
  | work (t : Int)
  | idle (t : Int)
  | cleanup (t : Int)
  deriving DecidableEq, Repr

/-- Where the function is. -/
inductive Phase where
  /-- at the first `select` -/
  | polling
  /-- at the second `select` -/
  | waiting
  /-- at the `select` of the loop -/
  | looping (lastTick : Int)
  /-- returned, after a `select` received the signal -/
  | returned (signal : Signal)
  deriving DecidableEq, Repr

/-- The two channels that end the loop, which are closed or not, and the function. -/
structure State where
  done : Bool := false
  stop : Bool := false
  phase : Phase := .polling
  calls : List Call := []
  deriving DecidableEq, Repr

/-- A `select` can receive the signal. -/
def State.ready (s : State) : Signal → Bool
  | .done => s.done
  | .stop => s.stop

/-- The branch of the signal, in any of the three `select` statements. -/
def State.receive (s : State) (signal : Signal) : State :=
  match s.phase, signal with
  | .looping lastTick, .stop =>
    { s with
      phase := .returned .stop
      calls := s.calls ++ if lastTick = zeroTime then [] else [.cleanup lastTick] }
  | _, signal => { s with phase := .returned signal }

/-- What another goroutine does, or what a `select` receives. -/
inductive Action where
  | cancel
  | close
  /-- the default of the first `select` -/
  | pass
  | receive (signal : Signal)
  | offset (t : Int)
  | inactivity (t : Int)
  | tick (t : Int)
  deriving DecidableEq, Repr

/-- When an action is possible, and where it leads. -/
inductive Step (c : TickConfig) : State → Action → State → Prop where
  | cancel {s : State} : Step c s .cancel { s with done := true }
  | close {s : State} : Step c s .close { s with stop := true }
  | pass {s : State} : s.phase = .polling → s.done = false → s.stop = false →
    Step c s .pass { s with phase := .waiting }
  | receive {s : State} {signal : Signal} : s.ready signal = true →
    (∀ signal', s.phase ≠ .returned signal') → Step c s (.receive signal) (s.receive signal)
  | offset {s : State} {t : Int} : s.phase = .waiting →
    Step c s (.offset t) { s with phase := .looping t, calls := s.calls ++ [.work t] }
  -- the ticker is only there if the period is longer than `maxIdle`
  | inactivity {s : State} {lastTick t : Int} : s.phase = .looping lastTick →
    c.maxIdle < c.period →
    Step c s (.inactivity t)
      { s with
        calls := s.calls ++
          if c.minGap ≤ t - lastTick ∧ c.minGap ≤ lastTick + c.period - t then [.idle t]
          else [] }
  | tick {s : State} {lastTick t : Int} : s.phase = .looping lastTick →
    Step c s (.tick t) { s with phase := .looping t, calls := s.calls ++ [.work t] }

/-! ### The schedule -/

/-- The time of the last work call. -/
def lastWork (calls : List Call) : Option Int :=
  calls.foldl (fun
    | _, .work t => some t
    | last, _ => last) none

/-- Idle calls are only made when the period is long, and keep the gap to the work call before
and to the next one. -/
def Gaps (c : TickConfig) (calls : List Call) : Prop :=
  ∀ pre t post, calls = pre ++ .idle t :: post → c.maxIdle < c.period ∧
    ∃ w, lastWork pre = some w ∧ c.minGap ≤ t - w ∧ c.minGap ≤ w + c.period - t

/-- What the calls look like: a work call, work and idle calls, and at most one cleanup, after
`stop` and with the time of the last work call. -/
structure Scheduled (c : TickConfig) (s : State) : Prop where
  shape : s.calls = [] ∨ ∃ t body tail, s.calls = .work t :: (body ++ tail) ∧
    (∀ w, Call.cleanup w ∉ body) ∧
    (tail = [] ∨ ∃ w, tail = [.cleanup w] ∧ s.phase = .returned .stop ∧
      lastWork (.work t :: body) = some w)
  context : s.phase = .returned .done → ∀ w, Call.cleanup w ∉ s.calls
  gaps : Gaps c s.calls

private theorem gaps_nil (c : TickConfig) : Gaps c [] := by
  intro pre t post heq
  simp at heq

private theorem Gaps.concat {c : TickConfig} {calls : List Call} (h : Gaps c calls) {call : Call}
    (hcall : ∀ t, call = .idle t → c.maxIdle < c.period ∧
      ∃ w, lastWork calls = some w ∧ c.minGap ≤ t - w ∧ c.minGap ≤ w + c.period - t) :
    Gaps c (calls ++ [call]) := by
  intro pre t post heq
  rcases List.eq_nil_or_concat' post with rfl | ⟨post, last, rfl⟩
  · obtain ⟨rfl, hlast⟩ := List.append_inj' heq rfl
    exact hcall t (List.cons.inj hlast).1
  · have heq' : calls ++ [call] = pre ++ .idle t :: post ++ [last] := by simpa using heq
    exact h pre t post (List.append_inj' heq' rfl).1

/-- Calls after the first tick and before the end; `w` is the time of the last work call. -/
inductive Worked (c : TickConfig) : List Call → Int → Prop where
  | first (t : Int) : Worked c [.work t] t
  | work {calls : List Call} {w : Int} (t : Int) : Worked c calls w →
    Worked c (calls ++ [.work t]) t
  | idle {calls : List Call} {w t : Int} : Worked c calls w → c.maxIdle < c.period →
    c.minGap ≤ t - w → c.minGap ≤ w + c.period - t → Worked c (calls ++ [.idle t]) w

namespace Worked

variable {c : TickConfig} {calls : List Call} {w : Int}

private theorem head (h : Worked c calls w) :
    ∃ t body, calls = .work t :: body ∧ ∀ w, Call.cleanup w ∉ body := by
  induction h with
  | first t => exact ⟨t, [], rfl, fun w hw ↦ by cases hw⟩
  | work t _ ih =>
    obtain ⟨t₀, body, rfl, hbody⟩ := ih
    exact ⟨t₀, body ++ [.work t], rfl, by simpa using hbody⟩
  | @idle _ _ t _ _ _ _ ih =>
    obtain ⟨t₀, body, rfl, hbody⟩ := ih
    exact ⟨t₀, body ++ [.idle t], rfl, by simpa using hbody⟩

private theorem lastWork_eq (h : Worked c calls w) : lastWork calls = some w := by
  induction h with
  | first t => rfl
  | work t _ _ => simp [lastWork]
  | idle _ _ _ _ ih =>
    rw [lastWork, List.foldl_append]
    exact ih

private theorem gaps (h : Worked c calls w) : Gaps c calls := by
  induction h with
  | first t =>
    show Gaps c ([] ++ [.work t])
    exact (gaps_nil c).concat fun t ht ↦ by cases ht
  | work t _ ih => exact ih.concat fun t ht ↦ by cases ht
  | idle hworked hperiod hlast hnext ih =>
    apply ih.concat
    intro t ht
    cases ht
    exact ⟨hperiod, _, hworked.lastWork_eq, hlast, hnext⟩

end Worked

/-! ### Runs -/

variable {c : TickConfig} {s s' : State}

/-- What has been called in each phase. -/
def Inv (c : TickConfig) (s : State) : Prop :=
  match s.phase with
  | .polling => s.calls = []
  | .waiting => s.calls = []
  | .looping lastTick => Worked c s.calls lastTick
  | .returned signal => s.calls = [] ∨ ∃ w, Worked c s.calls w ∨
      (signal = .stop ∧ ∃ calls, Worked c calls w ∧ s.calls = calls ++ [.cleanup w])

private theorem inv_receive (h : Inv c s) (signal : Signal)
    (hphase : ∀ signal', s.phase ≠ .returned signal') : Inv c (s.receive signal) := by
  obtain ⟨done, stop, phase, calls⟩ := s
  cases phase with
  | polling => exact .inl h
  | waiting => exact .inl h
  | looping lastTick =>
    have hworked : Worked c calls lastTick := h
    cases signal with
    | done => exact .inr ⟨lastTick, .inl hworked⟩
    | stop =>
      right
      refine ⟨lastTick, ?_⟩
      simp only [State.receive]
      split
      · left
        rwa [List.append_nil]
      · exact .inr ⟨trivial, calls, hworked, rfl⟩
  | returned signal' => exact absurd rfl (hphase signal')

private theorem inv_step {a : Action} (h : Inv c s) (hstep : Step c s a s') : Inv c s' := by
  cases hstep with
  | cancel => exact h
  | close => exact h
  | pass hphase _ _ =>
    rw [Inv, hphase] at h
    exact h
  | receive _ hphase => exact inv_receive h _ hphase
  | offset hphase =>
    rw [Inv, hphase] at h
    rw [Inv, h]
    exact .first _
  | inactivity hphase hperiod =>
    rw [Inv, hphase] at h
    simp only [Inv, hphase]
    split
    · next hgap => exact h.idle hperiod hgap.1 hgap.2
    · rwa [List.append_nil]
  | tick hphase =>
    rw [Inv, hphase] at h
    exact h.work _

private theorem scheduled_of_nil (h : s.calls = []) : Scheduled c s where
  shape := .inl h
  context _ w := by rw [h]; exact List.not_mem_nil
  gaps := by rw [h]; exact gaps_nil c

private theorem scheduled_of_worked {w : Int} (h : Worked c s.calls w) : Scheduled c s := by
  obtain ⟨t, body, heq, hbody⟩ := h.head
  refine ⟨.inr ⟨t, body, [], by rw [heq, List.append_nil], hbody, .inl rfl⟩, fun _ w ↦ ?_, h.gaps⟩
  rw [heq]
  simpa using hbody w

private theorem scheduled_of_inv (h : Inv c s) : Scheduled c s := by
  unfold Inv at h
  split at h
  · exact scheduled_of_nil h
  · exact scheduled_of_nil h
  · exact scheduled_of_worked h
  · next signal hphase =>
    rcases h with hnil | ⟨w, hworked | ⟨rfl, calls, hworked, heq⟩⟩
    · exact scheduled_of_nil hnil
    · exact scheduled_of_worked hworked
    · obtain ⟨t, body, hcalls, hbody⟩ := hworked.head
      refine ⟨.inr ⟨t, body, [.cleanup w], ?_, hbody, .inr ⟨w, rfl, hphase, ?_⟩⟩, ?_, ?_⟩
      · rw [heq, hcalls, List.cons_append]
      · rw [← hcalls]
        exact hworked.lastWork_eq
      · intro hdone
        cases hphase.symm.trans hdone
      · rw [heq]
        exact hworked.gaps.concat fun t ht ↦ by cases ht

/-- A signal that was there on entry lets nothing through. -/
def Barred (s : State) : Prop :=
  s.calls = [] ∧
    ((s.phase = .polling ∧ (s.done = true ∨ s.stop = true)) ∨ ∃ signal, s.phase = .returned signal)

private theorem Barred.not_waiting (h : Barred s) : s.phase ≠ .waiting := by
  rcases h.2 with ⟨hpolling, -⟩ | ⟨signal, hreturned⟩
  · simp [hpolling]
  · simp [hreturned]

private theorem Barred.not_looping (h : Barred s) (lastTick : Int) :
    s.phase ≠ .looping lastTick := by
  rcases h.2 with ⟨hpolling, -⟩ | ⟨signal, hreturned⟩
  · simp [hpolling]
  · simp [hreturned]

private theorem barred_step {a : Action} (h : Barred s) (hstep : Step c s a s') : Barred s' := by
  cases hstep with
  | cancel => exact ⟨h.1, h.2.imp_left fun hp ↦ ⟨hp.1, .inl rfl⟩⟩
  | close => exact ⟨h.1, h.2.imp_left fun hp ↦ ⟨hp.1, .inr rfl⟩⟩
  | pass hpolling hdone hstop =>
    rcases h.2 with ⟨-, hsignal⟩ | ⟨signal, hreturned⟩
    · simp [hdone, hstop] at hsignal
    · cases hpolling.symm.trans hreturned
  | @receive signal _ hnot =>
    rcases h.2 with ⟨hpolling, -⟩ | ⟨signal', hreturned⟩
    · refine ⟨?_, .inr ⟨signal, ?_⟩⟩
      · simp only [State.receive, hpolling, h.1]
      · simp only [State.receive, hpolling]
    · exact absurd hreturned (hnot signal')
  | offset hwaiting => exact absurd hwaiting h.not_waiting
  | inactivity hlooping _ => exact absurd hlooping (h.not_looping _)
  | tick hlooping => exact absurd hlooping (h.not_looping _)

/-- Whatever the order of events, the calls follow the schedule, and there are none if a signal
was there on entry. -/
theorem scheduled_of_runs {done stop : Bool} {actions : List Action}
    (h : Runs (Step c) { done, stop } actions s) :
    Scheduled c s ∧ (done = true ∨ stop = true → s.calls = []) := by
  constructor
  · apply scheduled_of_inv
    apply h.invariant (fun _ _ _ hs hstep ↦ inv_step hs hstep)
    show [] = []
    rfl
  · intro hsignal
    have hbarred : Barred { done, stop } := ⟨rfl, .inl ⟨rfl, hsignal⟩⟩
    exact (h.invariant (fun _ _ _ hs hstep ↦ barred_step hs hstep) hbarred).1

/-- A run with every kind of call. -/
def workday : List Action :=
  [.pass, .offset 5, .inactivity 15, .inactivity 25, .tick 105, .close, .tick 205, .receive .stop]

/-- A period of a hundred, with an idle call at most every ten. -/
def longPeriod : TickConfig := ⟨100, 10, 20, by decide, by decide⟩

private theorem workday_runs : ∃ s, Runs (Step longPeriod) {} workday s ∧
    s.calls = [.work 5, .idle 25, .work 105, .work 205, .cleanup 205] :=
  ⟨_, .cons (.pass rfl rfl rfl) <| .cons (.offset rfl) <| .cons (.inactivity rfl (by decide)) <|
    .cons (.inactivity rfl (by decide)) <| .cons (.tick rfl) <| .cons .close <| .cons (.tick rfl) <|
    .cons (.receive rfl fun signal h ↦ by cases h) <| .nil _, rfl⟩

/-- A day of work is scheduled. -/
theorem scheduled_workday : ∃ s, Runs (Step longPeriod) {} workday s ∧ s.calls ≠ [] ∧
    Scheduled longPeriod s := by
  obtain ⟨s, hruns, hcalls⟩ := workday_runs
  refine ⟨s, hruns, ?_, (scheduled_of_runs hruns).1⟩
  rw [hcalls]
  exact List.cons_ne_nil _ _

/-! ### The function of the events received -/

/-- The callbacks that record their calls. -/
def recorder : Callbacks (List Call) where
  work t calls := calls ++ [.work t]
  idle t calls := calls ++ [.idle t]
  cleanup t calls := calls ++ [.cleanup t]

/-- The calls so far are those of the function: in the loop it can go on from the last tick. -/
def Refines (c : TickConfig) (s : State) : Prop :=
  match s.phase with
  | .polling => s.calls = []
  | .waiting => s.calls = []
  | .looping lastTick => ∃ t events, ∀ more,
      tickLoop c recorder t (events ++ more) [.work t] = tickLoop c recorder lastTick more s.calls
  | .returned _ => ∃ r, tickWithOffset c recorder r [] = s.calls

private theorem refines_receive (h : Refines c s) (signal : Signal)
    (hphase : ∀ signal', s.phase ≠ .returned signal') : Refines c (s.receive signal) := by
  obtain ⟨done, stop, phase, calls⟩ := s
  cases phase with
  | polling => exact ⟨⟨some signal, .signal signal, []⟩, Eq.symm h⟩
  | waiting => exact ⟨⟨none, .signal signal, []⟩, Eq.symm h⟩
  | looping lastTick =>
    obtain ⟨t, events, htrace⟩ := h
    cases signal with
    | done =>
      exact ⟨⟨none, .offset t, events ++ [Event.signal .done]⟩, htrace [Event.signal .done]⟩
    | stop =>
      refine ⟨⟨none, .offset t, events ++ [Event.signal .stop]⟩, ?_⟩
      show tickLoop c recorder t (events ++ [Event.signal .stop]) [.work t] = _
      rw [htrace]
      simp only [tickLoop, State.receive]
      split
      · rw [List.append_nil]
      · rfl
  | returned signal' => exact absurd rfl (hphase signal')

private theorem refines_step {a : Action} (h : Refines c s) (hstep : Step c s a s') :
    Refines c s' := by
  cases hstep with
  | cancel => exact h
  | close => exact h
  | pass hphase _ _ =>
    rw [Refines, hphase] at h
    exact h
  | receive _ hphase => exact refines_receive h _ hphase
  | @offset t hphase =>
    rw [Refines, hphase] at h
    rw [Refines, h]
    exact ⟨t, [], fun more ↦ rfl⟩
  | @inactivity lastTick t hphase hperiod =>
    rw [Refines, hphase] at h
    simp only [Refines, hphase]
    obtain ⟨t₀, events, htrace⟩ := h
    refine ⟨t₀, events ++ [.inactivity t], fun more ↦ ?_⟩
    rw [List.append_assoc, htrace]
    simp only [List.singleton_append, tickLoop, TickConfig.idleDue, hperiod, decide_true,
      Bool.true_and, Bool.and_eq_true, decide_eq_true_eq]
    split
    · rfl
    · rw [List.append_nil]
  | @tick lastTick t hphase =>
    rw [Refines, hphase] at h
    obtain ⟨t₀, events, htrace⟩ := h
    refine ⟨t₀, events ++ [.work t], fun more ↦ ?_⟩
    rw [List.append_assoc, htrace]
    rfl

/-- A call that has returned made the calls of `tickWithOffset` on what it received. -/
theorem calls_eq_tickWithOffset {done stop : Bool} {actions : List Action} {signal : Signal}
    (h : Runs (Step c) { done, stop } actions s) (hreturned : s.phase = .returned signal) :
    ∃ r, tickWithOffset c recorder r [] = s.calls := by
  have hrefines : Refines c s := by
    apply h.invariant (fun _ _ _ hs hstep ↦ refines_step hs hstep)
    show [] = []
    rfl
  rwa [Refines, hreturned] at hrefines

end SMAgent.Scraper.Select
