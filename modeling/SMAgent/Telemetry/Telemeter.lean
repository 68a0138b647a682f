import SMAgent.Base.Run
import SMAgent.Telemetry.RegionPusher

/-!
# The telemeter under concurrent calls

`internal/telemetry/telemeter.go:76-124` and `region_pusher.go:126-162`, for any number of
concurrent calls of `AddExecution`. The map of the region pushers is read under the read lock and
extended under the write lock, which looks again before it makes a new pusher. Each pusher runs a
goroutine that makes a report at every tick, and a last one when the agent stops. A step is one of
these critical sections; the counters of one pusher have a lock of their own. The runs are those
in which no call panics.
-/

namespace SMAgent.Telemetry
open SMAgent.Base

namespace Telemeter

/-- Where a call of `Telemeter.AddExecution` is; a pusher is known by its number. -/
inductive Goroutine where
  /-- before `RLock` -/
  | started (e : Execution)
  /-- with the read lock, a pusher was found -/
  | reading (e : Execution) (p : Nat)
  /-- between `RUnlock` and `Lock` -/
  | missed (e : Execution)
  /-- with the write lock, a pusher was found after all -/
  | found (e : Execution) (p : Nat)
  /-- with the write lock, the pusher is new and not yet in the map -/
  | created (e : Execution) (p : Nat)
  /-- returned -/
  | finished (e : Execution)

/-- A report, with the pusher that made it and the number of executions counted before it. -/
structure Report where
  pusher : Nat
  time : Nat
  message : RegionTelemetry

/-- The telemeter: the pusher of every region, the pushers that were made and whether their
goroutines have stopped, the calls, and what happened so far: the calls in the order in which they
were counted, and the reports. -/
structure State where
  pushers : GoMap Int32 Nat := ∅
  heap : Nat → RegionPusher := fun _ ↦ .new [] 0
  allocated : Nat := 0
  stopped : Nat → Bool := fun _ ↦ false
  goroutines : Nat → Option Goroutine := fun _ ↦ none
  counted : List (Nat × Execution) := []
  reports : List Report := []

/-- The call holds the write lock. -/
def Writes : Option Goroutine → Prop
  | some (.found _ _) => True
  | some (.created _ _) => True
  | _ => False

/-- The call holds the read lock. -/
def Reads : Option Goroutine → Prop
  | some (.reading _ _) => True
  | _ => False

namespace State

/-- Move a call on. -/
def set (s : State) (g : Nat) (p : Goroutine) : State :=
  { s with goroutines := Function.update s.goroutines g (some p) }

/-- The section under the read lock, up to the look-up, `telemeter.go:77-79`. -/
def look (s : State) (g : Nat) (e : Execution) : State :=
  match s.pushers.lookup e.regionID with
  | some p => s.set g (.reading e p)
  | none => s.set g (.missed e)

/-- The section under the write lock, up to the new pusher, `telemeter.go:93-120`. -/
def lock (inst : GoString) (s : State) (g : Nat) (e : Execution) : State :=
  match s.pushers.lookup e.regionID with
  | some p => s.set g (.found e p)
  | none =>
    { s with
      heap := Function.update s.heap s.allocated (.new inst e.regionID)
      allocated := s.allocated + 1 }.set g (.created e s.allocated)

/-- `p.AddExecution(e)` with its result, after which the call unlocks and returns. -/
def count (s : State) (g : Nat) (e : Execution) (p : Nat) (q : RegionPusher) : State :=
  { s with
    heap := Function.update s.heap p q
    counted := s.counted ++ [(g, e)] }.set g (.finished e)

/-- `t.pushers[e.RegionID] = p`. -/
def store (s : State) (e : Execution) (p : Nat) : State :=
  { s with pushers := s.pushers.insert e.regionID p }

/-- `p.next()`, handed over to `push`. -/
def report (s : State) (p : Nat) : State :=
  { s with reports := s.reports ++ [⟨p, s.counted.length, (s.heap p).next⟩] }

end State

/-- A step of a call, or of the goroutine of a pusher. -/
inductive Action where
  | call (g : Nat) (e : Execution)
  | look (g : Nat)
  | lock (g : Nat)
  | add (g : Nat)
  | tick (p : Nat)
  | stop (p : Nat)

/-- When a step can be taken, and where it leads. -/
inductive Step (inst : GoString) : State → Action → State → Prop where
  | call {s : State} {g : Nat} {e : Execution} :
    s.goroutines g = none → Step inst s (.call g e) (s.set g (.started e))
  | look {s : State} {g : Nat} {e : Execution} :
    s.goroutines g = some (.started e) → (∀ g', ¬ Writes (s.goroutines g')) →
    Step inst s (.look g) (s.look g e)
  | lock {s : State} {g : Nat} {e : Execution} :
    s.goroutines g = some (.missed e) →
    (∀ g', ¬ Writes (s.goroutines g') ∧ ¬ Reads (s.goroutines g')) →
    Step inst s (.lock g) (s.lock inst g e)
  | addReading {s : State} {g p : Nat} {e : Execution} {q : RegionPusher} :
    s.goroutines g = some (.reading e p) → (s.heap p).addExecution e = .ok q →
    Step inst s (.add g) (s.count g e p q)
  | addFound {s : State} {g p : Nat} {e : Execution} {q : RegionPusher} :
    s.goroutines g = some (.found e p) → (s.heap p).addExecution e = .ok q →
    Step inst s (.add g) (s.count g e p q)
  | addCreated {s : State} {g p : Nat} {e : Execution} {q : RegionPusher} :
    s.goroutines g = some (.created e p) → (s.heap p).addExecution e = .ok q →
    Step inst s (.add g) ((s.count g e p q).store e p)
  | tick {s : State} {p : Nat} :
    p < s.allocated → s.stopped p = false → Step inst s (.tick p) (s.report p)
  | stop {s : State} {p : Nat} :
    p < s.allocated → s.stopped p = false →
    Step inst s (.stop p) { s.report p with stopped := Function.update s.stopped p true }

/-! ### What the calls add up to -/

/-- The executions of a region, in the order of the calls. -/
def ofRegion (r : Int32) (calls : List (Nat × Execution)) : List Execution :=
  (calls.map Prod.snd).filter fun e ↦ e.regionID = r

/-- What a pusher is after some executions, one after the other. -/
def Sequential (inst : GoString) (r : Int32) (es : List Execution) (p : RegionPusher) : Prop :=
  es.foldlM RegionPusher.addExecution (.new inst r) = .ok p

/-- The pusher that a call works on, once it has one. -/
def target : Option Goroutine → Option (Execution × Nat)
  | some (.reading e p) => some (e, p)
  | some (.found e p) => some (e, p)
  | some (.created e p) => some (e, p)
  | _ => none

/-- What holds in every state. -/
structure Inv (inst : GoString) (s : State) : Prop where
  sequential : ∀ p < s.allocated,
    Sequential inst (s.heap p).regionID (ofRegion (s.heap p).regionID s.counted) (s.heap p)
  unique : ∀ p < s.allocated, ∀ q < s.allocated, (s.heap p).regionID = (s.heap q).regionID → p = q
  stored : ∀ {r p}, s.pushers.lookup r = some p → p < s.allocated ∧ (s.heap p).regionID = r
  owned : ∀ p < s.allocated, s.pushers.lookup (s.heap p).regionID = some p ∨
    ∃ g e, s.goroutines g = some (.created e p)
  target : ∀ {g e p}, target (s.goroutines g) = some (e, p) →
    p < s.allocated ∧ (s.heap p).regionID = e.regionID
  covered : ∀ {g e}, (g, e) ∈ s.counted → ∃ p < s.allocated, (s.heap p).regionID = e.regionID
  once : (s.counted.map Prod.fst).Nodup
  finished : ∀ {g e}, (g, e) ∈ s.counted ↔ s.goroutines g = some (.finished e)
  reports : ∀ r ∈ s.reports, r.pusher < s.allocated ∧ r.time ≤ s.counted.length ∧
    ∃ q, Sequential inst (s.heap r.pusher).regionID
        (ofRegion (s.heap r.pusher).regionID (s.counted.take r.time)) q ∧ r.message = q.next
  ordered : s.reports.Pairwise fun r r' ↦ r.time ≤ r'.time

variable {inst : GoString} {s : State} {g p : Nat} {e : Execution} {q : RegionPusher}

private theorem regionID_addExecution {p q : RegionPusher} (h : p.addExecution e = .ok q) :
    q.regionID = p.regionID := by
  unfold RegionPusher.addExecution at h
  dsimp only at h
  split at h
  · cases h
    rfl
  · split at h
    · cases h
      rfl
    · cases h

private theorem ofRegion_concat (r : Int32) (calls : List (Nat × Execution)) (g : Nat)
    (e : Execution) : ofRegion r (calls ++ [(g, e)]) =
      if e.regionID = r then ofRegion r calls ++ [e] else ofRegion r calls := by
  rw [ofRegion, List.map_append, List.filter_append]
  split
  · next h => simp [ofRegion, h]
  · next h => simp [ofRegion, h]

@[simp] private theorem State.goroutines_set (s : State) (g g' : Nat) (p : Goroutine) :
    (s.set g p).goroutines g' = if g' = g then some p else s.goroutines g' := by
  simp [State.set, Function.update_apply]

private theorem inv_init : Inv inst {} where
  sequential := fun p hp ↦ absurd hp (Nat.not_lt_zero p)
  unique := fun p hp ↦ absurd hp (Nat.not_lt_zero p)
  stored := nofun
  owned := fun p hp ↦ absurd hp (Nat.not_lt_zero p)
  target := nofun
  covered := fun h ↦ absurd h List.not_mem_nil
  once := List.nodup_nil
  finished := ⟨fun h ↦ absurd h List.not_mem_nil, nofun⟩
  reports := fun _ hr ↦ absurd hr List.not_mem_nil
  ordered := List.Pairwise.nil

namespace Inv

private theorem set (h : Inv inst s) {old new : Option Goroutine} {next : Goroutine}
    (hg : s.goroutines g = old) (hnew : new = some next)
    (hold : ∀ e, old ≠ some (.finished e)) (hcreated : ∀ e p, old ≠ some (.created e p))
    (hnext : ∀ e, new ≠ some (.finished e))
    (htarget : ∀ e p, Telemeter.target new = some (e, p) →
      p < s.allocated ∧ (s.heap p).regionID = e.regionID) : Inv inst (s.set g next) := by
  subst hg
  refine ⟨h.sequential, h.unique, h.stored, ?_, ?_, h.covered, h.once, ?_, h.reports, h.ordered⟩
  · intro p hp
    refine (h.owned p hp).imp_right ?_
    rintro ⟨g', e, hg'⟩
    refine ⟨g', e, ?_⟩
    rw [State.goroutines_set, if_neg]
    · exact hg'
    · rintro rfl
      exact hcreated e p hg'
  · intro g' e p hg'
    rw [State.goroutines_set] at hg'
    split at hg'
    · rw [← hnew] at hg'
      exact htarget e p hg'
    · exact h.target hg'
  · intro g' e
    rw [State.goroutines_set]
    split
    · next heq =>
      subst heq
      exact iff_of_false (fun hmem ↦ hold e (h.finished.mp hmem))
        (by rw [← hnew]; exact hnext e)
    · exact h.finished

private theorem look (h : Inv inst s) (hg : s.goroutines g = some (.started e)) :
    Inv inst (s.look g e) := by
  unfold State.look
  split
  · next p hp =>
    refine h.set hg rfl nofun nofun nofun ?_
    intro e' p' heq
    cases heq
    exact h.stored hp
  · exact h.set hg rfl nofun nofun nofun nofun

private theorem not_region (h : Inv inst s) (hfree : ∀ g, ¬ Writes (s.goroutines g)) {r : Int32}
    (hr : s.pushers.lookup r = none) : ∀ p < s.allocated, (s.heap p).regionID ≠ r := by
  intro p hp heq
  rcases h.owned p hp with hstored | ⟨g, e, hg⟩
  · rw [heq, hr] at hstored
    cases hstored
  · apply hfree g
    rw [hg]
    trivial

private theorem ofRegion_eq_nil (h : Inv inst s) {r : Int32}
    (hr : ∀ p < s.allocated, (s.heap p).regionID ≠ r) : ofRegion r s.counted = [] := by
  rw [ofRegion, List.filter_eq_nil_iff]
  intro e he heq
  obtain ⟨⟨g, e'⟩, hmem, rfl⟩ := List.mem_map.mp he
  obtain ⟨p, hp, hregion⟩ := h.covered hmem
  exact hr p hp (hregion.trans (of_decide_eq_true heq))

private theorem create (h : Inv inst s) (hg : s.goroutines g = some (.missed e))
    (hr : ∀ p < s.allocated, (s.heap p).regionID ≠ e.regionID) :
    Inv inst ({ s with
      heap := Function.update s.heap s.allocated (.new inst e.regionID)
      allocated := s.allocated + 1 }.set g (.created e s.allocated)) := by
  have hheap {p : Nat} (hp : p < s.allocated) :
      Function.update s.heap s.allocated (RegionPusher.new inst e.regionID) p = s.heap p :=
    Function.update_of_ne (Nat.ne_of_lt hp) _ _
  have hself : Function.update s.heap s.allocated (RegionPusher.new inst e.regionID) s.allocated =
      .new inst e.regionID := Function.update_self _ _ _
  have hcases {p : Nat} (hp : p < s.allocated + 1) : p < s.allocated ∨ p = s.allocated := by omega
  refine ⟨?_, ?_, ?_, ?_, ?_, ?_, h.once, ?_, ?_, h.ordered⟩
  · intro p hp
    rcases hcases hp with hp | rfl
    · simp only [State.set, hheap hp]
      exact h.sequential p hp
    · simp only [State.set, hself]
      show Sequential inst e.regionID (ofRegion e.regionID s.counted) _
      rw [h.ofRegion_eq_nil hr]
      rfl
  · intro p hp p' hp' heq
    simp only [State.set] at heq
    rcases hcases hp with hp | rfl <;> rcases hcases hp' with hp' | rfl
    · rw [hheap hp, hheap hp'] at heq
      exact h.unique p hp p' hp' heq
    · rw [hheap hp, hself] at heq
      exact absurd heq (hr p hp)
    · rw [hheap hp', hself] at heq
      exact absurd heq.symm (hr p' hp')
    · rfl
  · intro r p hp
    obtain ⟨hlt, hregion⟩ := h.stored hp
    refine ⟨Nat.lt_succ_of_lt hlt, ?_⟩
    simp only [State.set, hheap hlt]
    exact hregion
  · intro p hp
    rcases hcases hp with hp | rfl
    · show s.pushers.lookup (Function.update s.heap s.allocated _ p).regionID = _ ∨ _
      rw [hheap hp]
      refine (h.owned p hp).imp_right ?_
      rintro ⟨g', e', hg'⟩
      refine ⟨g', e', ?_⟩
      show Function.update s.goroutines g _ g' = _
      rw [Function.update_of_ne, hg']
      rintro rfl
      rw [hg] at hg'
      cases hg'
    · exact .inr ⟨g, e, Function.update_self _ _ _⟩
  · intro g' e' p hg'
    rw [State.goroutines_set] at hg'
    split at hg'
    · cases hg'
      refine ⟨Nat.lt_succ_self _, ?_⟩
      simp only [State.set, hself]
      rfl
    · obtain ⟨hlt, hregion⟩ := h.target hg'
      refine ⟨Nat.lt_succ_of_lt hlt, ?_⟩
      simp only [State.set, hheap hlt]
      exact hregion
  · intro g' e' hmem
    obtain ⟨p, hp, hregion⟩ := h.covered hmem
    refine ⟨p, Nat.lt_succ_of_lt hp, ?_⟩
    simp only [State.set, hheap hp]
    exact hregion
  · intro g' e'
    rw [State.goroutines_set]
    split
    · next heq =>
      subst heq
      refine iff_of_false (fun hmem ↦ ?_) nofun
      rw [h.finished.mp hmem] at hg
      cases hg
    · exact h.finished
  · intro r hrep
    obtain ⟨hlt, htime, q, hq, hmessage⟩ := h.reports r hrep
    refine ⟨Nat.lt_succ_of_lt hlt, htime, q, ?_, hmessage⟩
    simp only [State.set, hheap hlt]
    exact hq

private theorem lock (h : Inv inst s) (hg : s.goroutines g = some (.missed e))
    (hfree : ∀ g, ¬ Writes (s.goroutines g)) : Inv inst (s.lock inst g e) := by
  unfold State.lock
  split
  · next p hp =>
    refine h.set hg rfl nofun nofun nofun ?_
    intro e' p' heq
    cases heq
    exact h.stored hp
  · next hr => exact h.create hg (h.not_region hfree hr)

private theorem regionID_count (hq : (s.heap p).addExecution e = .ok q) (p' : Nat) :
    ((s.count g e p q).heap p').regionID = (s.heap p').regionID := by
  show (Function.update s.heap p q p').regionID = _
  by_cases hp : p' = p
  · subst hp
    rw [Function.update_self, regionID_addExecution hq]
  · rw [Function.update_of_ne hp]

private theorem count (h : Inv inst s) (hg : Telemeter.target (s.goroutines g) = some (e, p))
    (hq : (s.heap p).addExecution e = .ok q) {pushers : GoMap Int32 Nat}
    (hstored : ∀ {r p'}, pushers.lookup r = some p' →
      p' < s.allocated ∧ (s.heap p').regionID = r)
    (howned : ∀ p' < s.allocated, pushers.lookup (s.heap p').regionID = some p' ∨
      ∃ g' e', g' ≠ g ∧ s.goroutines g' = some (.created e' p')) :
    Inv inst { s.count g e p q with pushers } := by
  obtain ⟨hp, hregion⟩ := h.target hg
  have hreg := regionID_count (g := g) hq
  have hnotfinished (e' : Execution) : s.goroutines g ≠ some (.finished e') := by
    intro hfin
    rw [hfin] at hg
    cases hg
  refine ⟨?_, ?_, ?_, ?_, ?_, ?_, ?_, ?_, ?_, h.ordered⟩
  · intro p' hp'
    simp only [hreg]
    show Sequential inst _ (ofRegion _ (s.counted ++ [(g, e)])) (Function.update s.heap p q p')
    rw [ofRegion_concat]
    by_cases heq : p' = p
    · subst heq
      rw [if_pos hregion.symm, Function.update_self]
      exact (Runs.foldlM_concat (h.sequential p' hp') e).trans hq
    · rw [if_neg, Function.update_of_ne heq]
      · exact h.sequential p' hp'
      · intro hsame
        exact heq (h.unique p' hp' p hp (hsame.symm.trans hregion.symm))
  · intro p₁ hp₁ p₂ hp₂ heq
    simp only [hreg] at heq
    exact h.unique p₁ hp₁ p₂ hp₂ heq
  · intro r p' hp'
    simp only [hreg]
    exact hstored hp'
  · intro p' hp'
    rw [hreg]
    refine (howned p' hp').imp_right ?_
    rintro ⟨g', e', hne, hg'⟩
    exact ⟨g', e', (Function.update_of_ne hne _ _).trans hg'⟩
  · intro g' e' p' hg'
    simp only [hreg]
    have hg'' : Telemeter.target ((s.count g e p q).goroutines g') = some (e', p') := hg'
    rw [State.count, State.goroutines_set] at hg''
    split at hg''
    · cases hg''
    · exact h.target hg''
  · intro g' e' hmem
    simp only [hreg]
    rcases List.mem_append.mp hmem with hmem | hmem
    · exact h.covered hmem
    · cases List.mem_singleton.mp hmem
      exact ⟨p, hp, hregion⟩
  · show ((s.counted ++ [(g, e)]).map Prod.fst).Nodup
    rw [List.map_append, List.nodup_append']
    refine ⟨h.once, List.nodup_singleton _, ?_⟩
    intro g' hmem hg'
    obtain ⟨⟨g'', e'⟩, hcounted, rfl⟩ := List.mem_map.mp hmem
    have hgg : g'' = g := by simpa using hg'
    subst hgg
    exact hnotfinished e' (h.finished.mp hcounted)
  · intro g' e'
    show (g', e') ∈ s.counted ++ [(g, e)] ↔ (s.count g e p q).goroutines g' = _
    rw [State.count, State.goroutines_set, List.mem_append, List.mem_singleton, h.finished]
    split
    · next heq =>
      subst heq
      constructor
      · rintro (hfin | heq)
        · exact absurd hfin (hnotfinished e')
        · cases heq
          rfl
      · intro heq
        cases heq
        exact .inr rfl
    · next hne =>
      refine or_iff_left ?_
      intro heq
      cases heq
      exact hne rfl
  · intro r hr
    obtain ⟨hlt, htime, q', hq', hmessage⟩ := h.reports r hr
    simp only [hreg]
    refine ⟨hlt, ?_, q', ?_, hmessage⟩
    · show r.time ≤ (s.counted ++ [(g, e)]).length
      rw [List.length_append]
      omega
    · show Sequential inst _ (ofRegion _ ((s.counted ++ [(g, e)]).take r.time)) q'
      rw [List.take_append_of_le_length htime]
      exact hq'

private theorem addShared (h : Inv inst s) (hg : Telemeter.target (s.goroutines g) = some (e, p))
    (hshared : ∀ e p, s.goroutines g ≠ some (.created e p))
    (hq : (s.heap p).addExecution e = .ok q) : Inv inst (s.count g e p q) := by
  apply h.count hg hq h.stored
  intro p' hp'
  refine (h.owned p' hp').imp_right ?_
  rintro ⟨g', e', hg'⟩
  refine ⟨g', e', ?_, hg'⟩
  rintro rfl
  exact hshared e' p' hg'

private theorem addCreated (h : Inv inst s) (hg : s.goroutines g = some (.created e p))
    (hq : (s.heap p).addExecution e = .ok q) : Inv inst ((s.count g e p q).store e p) := by
  have htarget : Telemeter.target (s.goroutines g) = some (e, p) := by
    rw [hg]
    rfl
  obtain ⟨hp, hregion⟩ := h.target htarget
  apply h.count htarget hq
  · intro r p' hp'
    rw [State.count, State.set, GoMap.lookup_insert_eq] at hp'
    split at hp'
    · next heq =>
      cases hp'
      exact ⟨hp, hregion.trans heq.symm⟩
    · exact h.stored hp'
  · intro p' hp'
    rw [State.count, State.set, GoMap.lookup_insert_eq]
    split
    · next heq =>
      left
      rw [h.unique p' hp' p hp (heq.trans hregion.symm)]
    · next hne =>
      refine (h.owned p' hp').imp_right ?_
      rintro ⟨g', e', hg'⟩
      refine ⟨g', e', ?_, hg'⟩
      rintro rfl
      rw [hg] at hg'
      cases hg'
      exact hne hregion

private theorem report (h : Inv inst s) (hp : p < s.allocated) : Inv inst (s.report p) := by
  refine ⟨h.sequential, h.unique, h.stored, h.owned, h.target, h.covered, h.once, h.finished,
    ?_, ?_⟩
  · intro r hr
    rcases List.mem_append.mp hr with hr | hr
    · exact h.reports r hr
    · rw [List.mem_singleton.mp hr]
      refine ⟨hp, Nat.le_refl _, s.heap p, ?_, rfl⟩
      show Sequential inst _ (ofRegion _ (s.counted.take s.counted.length)) _
      rw [List.take_length]
      exact h.sequential p hp
  · show (s.reports ++ [_]).Pairwise _
    rw [List.pairwise_append]
    refine ⟨h.ordered, List.pairwise_singleton _ _, ?_⟩
    intro r hr r' hr'
    rw [List.mem_singleton.mp hr']
    exact (h.reports r hr).2.1

end Inv

/-- Every step keeps the invariant. -/
theorem inv_step {a : Action} {s' : State} (h : Inv inst s) (hstep : Step inst s a s') :
    Inv inst s' := by
  cases hstep with
  | call hg => exact h.set hg rfl nofun nofun nofun nofun
  | look hg => exact h.look hg
  | lock hg hfree => exact h.lock hg fun g ↦ (hfree g).1
  | addReading hg hq =>
    apply h.addShared _ _ hq
    · rw [hg]
      rfl
    · rw [hg]
      nofun
  | addFound hg hq =>
    apply h.addShared _ _ hq
    · rw [hg]
      rfl
    · rw [hg]
      nofun
  | addCreated hg hq => exact h.addCreated hg hq
  | tick hp => exact h.report hp
  | stop hp =>
    have hr := h.report hp
    exact ⟨hr.sequential, hr.unique, hr.stored, hr.owned, hr.target, hr.covered, hr.once,
      hr.finished, hr.reports, hr.ordered⟩

private theorem Sequential.tracks {r : Int32} {es : List Execution} {p : RegionPusher}
    (h : Sequential inst r es p) : Tracks es p := by
  induction es using List.reverseRecOn generalizing p with
  | nil =>
    cases h
    exact tracks_new inst r
  | append_singleton es e ih =>
    rw [Sequential, List.foldlM_append] at h
    obtain ⟨q, hq, hp⟩ := except_bind_eq_ok.mp h
    rw [List.foldlM_cons] at hp
    obtain ⟨p', hp', hnil⟩ := except_bind_eq_ok.mp hp
    cases hnil
    exact tracks_addExecution es q _ e (ih hq) hp'

/-- The calls took effect one after the other, in the order in which they were counted. -/
structure Linearized (inst : GoString) (s : State) : Prop where
  /-- a call that has returned was counted, once, and no other -/
  once : (s.counted.map Prod.fst).Nodup
  finished : ∀ g e, (g, e) ∈ s.counted ↔ s.goroutines g = some (.finished e)
  /-- a region has one pusher, whoever asked for it first -/
  unique : ∀ p < s.allocated, ∀ p' < s.allocated,
    (s.heap p).regionID = (s.heap p').regionID → p = p'
  /-- the pusher of a region holds the calls of the region, and no others -/
  pusher : ∀ g e, (g, e) ∈ s.counted → ∃ p < s.allocated, (s.heap p).regionID = e.regionID ∧
    Sequential inst e.regionID (ofRegion e.regionID s.counted) (s.heap p) ∧
    Tracks (ofRegion e.regionID s.counted) (s.heap p)
  /-- a report says what the calls of its region amount to that were counted before it -/
  report : ∀ r ∈ s.reports, r.pusher < s.allocated ∧
    ∃ q, r.message = q.next ∧
      Sequential inst (s.heap r.pusher).regionID
        (ofRegion (s.heap r.pusher).regionID (s.counted.take r.time)) q ∧
      Tracks (ofRegion (s.heap r.pusher).regionID (s.counted.take r.time)) q
  /-- a later report leaves nothing of an earlier one out -/
  ordered : s.reports.Pairwise fun r r' ↦ r.time ≤ r'.time

/-- However the calls and the reports interleave, a call is counted exactly once, in the one pusher
of its region, and every report is that of a sequential run of the calls counted before it. -/
theorem linearized_of_runs {as : List Action} (h : Runs (Step inst) {} as s) :
    Linearized inst s := by
  have hinv : Inv inst s := h.invariant (fun _ _ _ hs ha ↦ inv_step hs ha) inv_init
  refine ⟨hinv.once, fun _ _ ↦ hinv.finished, hinv.unique, ?_, ?_, hinv.ordered⟩
  · intro g e hmem
    obtain ⟨p, hp, hregion⟩ := hinv.covered hmem
    have hseq := hinv.sequential p hp
    rw [hregion] at hseq
    exact ⟨p, hp, hregion, hseq, hseq.tracks⟩
  · intro r hr
    obtain ⟨hp, _, q, hseq, hmessage⟩ := hinv.reports r hr
    exact ⟨hp, q, hmessage, hseq, hseq.tracks⟩

/-- An execution of a protocol check in region 4. -/
private def probed : Execution := ⟨7, 4, .protocol, 0, []⟩

/-- Two calls for a new region that both miss its pusher: the second one finds what the first one
made, and the last report has both. -/
theorem linearized_bothMissed :
    ∃ s, Runs (Step []) {} [.call 0 probed, .call 1 probed, .look 0, .look 1, .lock 0, .add 0,
      .lock 1, .tick 0, .add 1, .stop 0] s ∧ Linearized [] s ∧ s.allocated = 1 ∧
      s.counted = [(0, probed), (1, probed)] ∧ s.reports.map Report.time = [1, 2] := by
  have hok (p : RegionPusher) : ∃ q, p.addExecution probed = .ok q :=
    p.addExecution_ok probed (fun _ h ↦ absurd h List.not_mem_nil)
  obtain ⟨q, hq⟩ := hok (.new [] 4)
  obtain ⟨q', hq'⟩ := hok q
  have hruns : ∃ s, Runs (Step []) {} [.call 0 probed, .call 1 probed, .look 0, .look 1, .lock 0,
      .add 0, .lock 1, .tick 0, .add 1, .stop 0] s ∧ s.allocated = 1 ∧
      s.counted = [(0, probed), (1, probed)] ∧ s.reports.map Report.time = [1, 2] := by
    refine ⟨_, .cons (.call rfl) (.cons (.call rfl) (.cons (.look (e := probed) rfl ?_)
      (.cons (.look (e := probed) rfl ?_) (.cons (.lock (e := probed) rfl ?_)
      (.cons (.addCreated (e := probed) rfl hq) (.cons (.lock (e := probed) rfl ?_)
      (.cons (.tick ?_ rfl) (.cons (.addFound (e := probed) rfl hq') (.cons (.stop ?_ rfl)
      (.nil _)))))))))), ?_, ?_, ?_⟩
    · rintro (_ | _ | g) <;> exact id
    · rintro (_ | _ | g) <;> exact id
    · rintro (_ | _ | g) <;> exact ⟨id, id⟩
    · rintro (_ | _ | g) <;> exact ⟨id, id⟩
    all_goals first | exact Nat.zero_lt_one | rfl
  obtain ⟨s, hrun, hrest⟩ := hruns
  exact ⟨s, hrun, linearized_of_runs hrun, hrest⟩

end Telemeter

end SMAgent.Telemetry
