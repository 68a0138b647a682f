import Mathlib.Tactic.Common

/-!
# The tick loop

`internal/scraper/scraper.go:427-526`. `tickWithOffset` waits for its offset, works once, and
then works at every tick of the period; when the period is long, idle calls fill the time
between. Its inputs are what its `select` statements receive, in order, and the callbacks
change a state of any type. The offset only decides when its timer fires, which the time
received from it shows.
-/

namespace SMAgent.Scraper

universe u

variable {σ : Type u}

/-- The durations, in nanoseconds. `time.NewTicker` panics unless its argument is positive;
the frequency of a valid check and the constant `maxPublishInterval` are. -/
structure TickConfig where
  period : Int
  maxIdle : Int
  minGap : Int
  period_pos : 0 < period
  maxIdle_pos : 0 < maxIdle

/-- The three functions that are called with a time. -/
structure Callbacks (σ : Type u) where
  work : Int → σ → σ
  idle : Int → σ → σ
  cleanup : Int → σ → σ

/-- What ends the loop: `ctx.Done()` or `stop`. -/
inductive Signal where
  | done
  | stop
  deriving DecidableEq, Repr

/-- What the second `select` receives. -/
inductive Wait where
  | signal (signal : Signal)
  | offset (t : Int)
  deriving DecidableEq, Repr

/-- What the `select` of the loop receives. -/
inductive Event where
  | signal (signal : Signal)
  | inactivity (t : Int)
  | work (t : Int)
  deriving DecidableEq, Repr

/-- Everything a call receives. The first `select` does not wait: `poll` is `none` when
neither signal is there on entry. -/
structure Received where
  poll : Option Signal := none
  wait : Wait
  events : List Event
  deriving DecidableEq, Repr

/-- `time.Time{}`, the first of January of the year 1. -/
def zeroTime : Int := -62135596800 * 1000000000

/-- Whether an inactivity tick at `t` calls `idle`, `scraper.go:480-482` and
`scraper.go:517`: the ticker runs, and `t` is far enough from both work ticks. -/
def TickConfig.idleDue (c : TickConfig) (lastTick t : Int) : Bool :=
  decide (c.maxIdle < c.period) && decide (c.minGap ≤ t - lastTick) &&
    decide (c.minGap ≤ lastTick + c.period - t)

/-- The `for` loop, `scraper.go:486-525`, after a work tick at `lastTick`. The list ends
while the loop waits, and events after a signal are not received. -/
def tickLoop (c : TickConfig) (cb : Callbacks σ) : Int → List Event → σ → σ
  | _, [], x => x
  | _, .signal .done :: _, x => x
  | lastTick, .signal .stop :: _, x => if lastTick = zeroTime then x else cb.cleanup lastTick x
  | lastTick, .inactivity t :: events, x =>
    tickLoop c cb lastTick events (if c.idleDue lastTick t then cb.idle t x else x)
  | _, .work t :: events, x => tickLoop c cb t events (cb.work t x)

/-- What every callback keeps, the loop keeps. -/
theorem tickLoop_invariant (c : TickConfig) {cb : Callbacks σ} {P : σ → Prop}
    (hwork : ∀ t x, P x → P (cb.work t x)) (hidle : ∀ t x, P x → P (cb.idle t x))
    (hcleanup : ∀ t x, P x → P (cb.cleanup t x)) (events : List Event) (lastTick : Int) {x : σ}
    (h : P x) : P (tickLoop c cb lastTick events x) := by
  induction events generalizing lastTick x with
  | nil => exact h
  | cons e events ih =>
    cases e with
    | signal sig =>
      cases sig with
      | done => exact h
      | stop =>
        rw [tickLoop]
        split
        · exact h
        · exact hcleanup _ _ h
    | inactivity t =>
      rw [tickLoop]
      split
      · exact ih _ (hidle t x h)
      · exact ih _ h
    | work t => exact ih t (hwork t x h)

/-- `tickWithOffset`. -/
def tickWithOffset (c : TickConfig) (cb : Callbacks σ) (r : Received) (x : σ) : σ :=
  match r.poll with
  | some _ => x
  | none =>
    match r.wait with
    | .signal _ => x
    | .offset t => tickLoop c cb t r.events (cb.work t x)

/-- The time of the first work tick, if the loop is reached. -/
def Received.start (r : Received) : Option Int :=
  match r.poll, r.wait with
  | none, .offset t => some t
  | _, _ => none

/-- Without a first work tick nothing is called. -/
theorem tickWithOffset_of_none (c : TickConfig) (cb : Callbacks σ) {r : Received}
    (h : r.start = none) (x : σ) : tickWithOffset c cb r x = x := by
  obtain ⟨poll, wait, events⟩ := r
  cases poll with
  | some _ => rfl
  | none =>
    cases wait with
    | signal _ => rfl
    | offset t => cases h

/-- With a first work tick the loop follows it. -/
theorem tickWithOffset_of_some (c : TickConfig) (cb : Callbacks σ) {r : Received} {t : Int}
    (h : r.start = some t) (x : σ) :
    tickWithOffset c cb r x = tickLoop c cb t r.events (cb.work t x) := by
  obtain ⟨poll, wait, events⟩ := r
  cases poll with
  | some _ => cases h
  | none =>
    cases wait with
    | signal _ => cases h
    | offset t => cases h; rfl

end SMAgent.Scraper
