import SMAgent.Checks.Effects
import SMAgent.Checks.Panics

/-!
# The life of a scraper

A scraper is started once, when it is put into the map, and stopped at most once, when it is
taken out; a second `Stop` would close its channel again and panic. The gauge counts the
entries of the map by type. All of this holds between any two changes, of any batches.
-/

namespace SMAgent.Checks
open SMAgent.Base SMAgent.Pb SMAgent.Model

/-- How many running checks have a type. -/
def entriesOf (u : Updater) (type : CheckType) : Nat := u.scrapers.count fun s ↦ s.type = type

/-- What the updater knows about its scrapers agrees with the calls it made. -/
structure Lifecycle (log : List Event) (u : Updater) : Prop where
  /-- The map has exactly the scrapers that were started and not stopped. -/
  stored : ∀ handle, (∃ id s, u.scrapers.lookup id = some s ∧ s.handle = handle) ↔
    .started handle ∈ log ∧ .stopped handle ∉ log
  keyed : ∀ id s, u.scrapers.lookup id = some s → s.check.globalID = id
  startedOnce : ∀ handle, log.count (.started handle) ≤ 1
  stoppedOnce : ∀ handle, log.count (.stopped handle) ≤ 1
  stoppedStarted : ∀ handle, .stopped handle ∈ log → .started handle ∈ log
  stops : ∀ handle, u.stopped.count handle = log.count (.stopped handle)
  gauge : ∀ type, u.runningScrapers type = entriesOf u type

/-- The invariant: no two entries of the map are one scraper, and handles are new. -/
structure LifeInv (log : List Event) (u : Updater) : Prop extends Lifecycle log u where
  distinct : ∀ id id' s s', u.scrapers.lookup id = some s → u.scrapers.lookup id' = some s' →
    s.handle = s'.handle → id = id'
  fresh : ∀ handle, .started handle ∈ log → handle < u.factoryCalls

/-! ### One call -/

variable {log : List Event} {u u' : Updater} {P : Model.Check → Prop}

/-- The gauge and the map move together. -/
theorem gauge_calls {log : List Event} (h : Calls P u log u') (type : CheckType) :
    u'.runningScrapers type - entriesOf u' type = u.runningScrapers type - entriesOf u type := by
  induction h with
  | keep hscrapers _ hgauge =>
    rw [hgauge, entriesOf, hscrapers, entriesOf]
  | @start u check type' h _ hnone =>
    have hcount : entriesOf (u.start check type' h) type =
        entriesOf u type + if type = type' then 1 else 0 := by
      rw [entriesOf, Updater.start, GoMap.count_insert _ hnone, entriesOf]
      simp [eq_comm]
    rw [hcount, runningScrapers_start]
    split
    · push_cast
      omega
    · simp
  | @stop u id s hs =>
    have hcount : entriesOf (u.stop id s) type + (if type = s.type then 1 else 0) =
        entriesOf u type := by
      rw [entriesOf, Updater.stop, entriesOf, ← GoMap.count_erase _ hs]
      simp [eq_comm]
    rw [← hcount, runningScrapers_stop]
    split
    · push_cast
      omega
    · simp
  | trans _ _ ih ih' => rw [ih', ih]

private theorem LifeInv.keep (h : LifeInv log u) (hscrapers : u'.scrapers = u.scrapers)
    (hstopped : u'.stopped = u.stopped) (hgauge : u'.runningScrapers = u.runningScrapers)
    (hcalls : u.factoryCalls ≤ u'.factoryCalls) : LifeInv log u' where
  stored := by rw [hscrapers]; exact h.stored
  keyed := by rw [hscrapers]; exact h.keyed
  startedOnce := h.startedOnce
  stoppedOnce := h.stoppedOnce
  stoppedStarted := h.stoppedStarted
  stops := by rw [hstopped]; exact h.stops
  gauge := by unfold entriesOf; rw [hgauge, hscrapers]; exact h.gauge
  distinct := by rw [hscrapers]; exact h.distinct
  fresh := fun handle hs ↦ Nat.lt_of_lt_of_le (h.fresh handle hs) hcalls

private theorem count_concat_le_one {e e' : Event} (h : log.count e ≤ 1) (hnew : e' ∉ log) :
    (log ++ [e']).count e ≤ 1 := by
  rw [List.count_append, List.count_singleton]
  split
  · next heq =>
    rw [beq_iff_eq] at heq
    rw [← heq, List.count_eq_zero.mpr hnew]
  · exact h

private theorem LifeInv.start (h : LifeInv log u) {check : Model.Check} {type : CheckType}
    (htype : check.type = .ok type) (hnone : u.scrapers.lookup check.globalID = none) :
    LifeInv (log ++ [.started u.factoryCalls]) (u.start check type htype) := by
  -- the handle is new, and so was never started or stopped
  have hnew : .started u.factoryCalls ∉ log := fun hs ↦ Nat.lt_irrefl _ (h.fresh _ hs)
  have hnew' : .stopped u.factoryCalls ∉ log := fun hs ↦ hnew (h.stoppedStarted _ hs)
  have hold {id : GlobalID} {s : Scraper} (hs : u.scrapers.lookup id = some s) :
      (u.start check type htype).scrapers.lookup id = some s ∧ s.handle ≠ u.factoryCalls := by
    constructor
    · rw [lookup_start, if_neg, hs]
      rintro rfl
      cases hnone.symm.trans hs
    · intro heq
      exact hnew ((h.stored _).mp ⟨id, s, hs, heq⟩).1
  have hcases {id : GlobalID} {s : Scraper}
      (hs : (u.start check type htype).scrapers.lookup id = some s) :
      (id = check.globalID ∧ s = ⟨u.factoryCalls, check, type, htype⟩) ∨
        u.scrapers.lookup id = some s := by
    rw [lookup_start] at hs
    split at hs
    · next hid => exact .inl ⟨hid, (Option.some.inj hs).symm⟩
    · exact .inr hs
  refine ⟨⟨?_, ?_, ?_, ?_, ?_, ?_, ?_⟩, ?_, ?_⟩
  · intro handle
    constructor
    · rintro ⟨id, s, hs, rfl⟩
      rcases hcases hs with ⟨-, rfl⟩ | hs
      · simp [hnew']
      · have hstored := (h.stored s.handle).mp ⟨id, s, hs, rfl⟩
        simp [hstored.1, hstored.2]
    · simp only [List.mem_append, List.mem_singleton, Event.started.injEq, reduceCtorEq, or_false]
      rintro ⟨hstarted | rfl, hstopped⟩
      · obtain ⟨id, s, hs, rfl⟩ := (h.stored handle).mpr ⟨hstarted, hstopped⟩
        exact ⟨id, s, (hold hs).1, rfl⟩
      · exact ⟨check.globalID, _, by rw [lookup_start, if_pos rfl], rfl⟩
  · intro id s hs
    rcases hcases hs with ⟨rfl, rfl⟩ | hs
    · rfl
    · exact h.keyed id s hs
  · intro handle
    exact count_concat_le_one (h.startedOnce handle) hnew
  · intro handle
    exact count_concat_le_one (h.stoppedOnce handle) hnew
  · intro handle hs
    have hs' : .stopped handle ∈ log := by simpa using hs
    exact List.mem_append_left _ (h.stoppedStarted handle hs')
  · intro handle
    rw [List.count_append, List.count_singleton]
    simpa using h.stops handle
  · intro t
    have hgauge := gauge_calls (P := fun _ ↦ True) (.start htype trivial hnone) t
    have := h.gauge t
    omega
  · intro id id' s s' hs hs' heq
    rcases hcases hs with ⟨rfl, rfl⟩ | hs
    · rcases hcases hs' with ⟨rfl, rfl⟩ | hs'
      · rfl
      · exact absurd heq.symm (hold hs').2
    · rcases hcases hs' with ⟨rfl, rfl⟩ | hs'
      · exact absurd heq (hold hs).2
      · exact h.distinct id id' s s' hs hs' heq
  · intro handle hs
    rw [factoryCalls_start]
    simp only [List.mem_append, List.mem_singleton, Event.started.injEq] at hs
    rcases hs with hs | rfl
    · have := h.fresh handle hs
      omega
    · omega

private theorem LifeInv.stop (h : LifeInv log u) {id : GlobalID} {s : Scraper}
    (hs : u.scrapers.lookup id = some s) :
    LifeInv (log ++ [.stopped s.handle]) (u.stop id s) := by
  have hstored := (h.stored s.handle).mp ⟨id, s, hs, rfl⟩
  have hold {id' : GlobalID} {s' : Scraper}
      (hs' : (u.stop id s).scrapers.lookup id' = some s') :
      u.scrapers.lookup id' = some s' ∧ s'.handle ≠ s.handle := by
    rw [lookup_stop] at hs'
    split at hs'
    · cases hs'
    · next hne => exact ⟨hs', fun heq ↦ hne (h.distinct id' id s' s hs' hs heq)⟩
  refine ⟨⟨?_, ?_, ?_, ?_, ?_, ?_, ?_⟩, ?_, ?_⟩
  · intro handle
    constructor
    · rintro ⟨id', s', hs', rfl⟩
      obtain ⟨hs', hne⟩ := hold hs'
      have hstored' := (h.stored s'.handle).mp ⟨id', s', hs', rfl⟩
      simp [hstored'.1, hstored'.2, hne]
    · simp only [List.mem_append, List.mem_singleton, Event.stopped.injEq, reduceCtorEq, or_false,
        not_or]
      rintro ⟨hstarted, hstopped, hne⟩
      obtain ⟨id', s', hs', rfl⟩ := (h.stored handle).mpr ⟨hstarted, hstopped⟩
      refine ⟨id', s', ?_, rfl⟩
      rw [lookup_stop, if_neg, hs']
      rintro rfl
      exact hne (by rw [Option.some.inj (hs'.symm.trans hs)])
  · intro id' s' hs'
    exact h.keyed id' s' (hold hs').1
  · intro handle
    exact count_concat_le_one (h.startedOnce handle) hstored.2
  · intro handle
    exact count_concat_le_one (h.stoppedOnce handle) hstored.2
  · intro handle hmem
    apply List.mem_append_left
    simp only [List.mem_append, List.mem_singleton, Event.stopped.injEq] at hmem
    rcases hmem with hmem | rfl
    · exact h.stoppedStarted handle hmem
    · exact hstored.1
  · intro handle
    have hstops := h.stops handle
    rw [List.count_append, List.count_singleton]
    rw [stopped_stop, List.count_append, List.count_singleton, hstops]
    simp
  · intro t
    have hgauge := gauge_calls (P := fun _ ↦ True) (.stop hs) t
    have := h.gauge t
    omega
  · intro id₁ id₂ s₁ s₂ h₁ h₂ heq
    exact h.distinct id₁ id₂ s₁ s₂ (hold h₁).1 (hold h₂).1 heq
  · intro handle hmem
    have hmem' : .started handle ∈ log := by simpa using hmem
    exact h.fresh handle hmem'

/-! ### All calls -/

/-- The calls of a change keep the invariant. -/
theorem LifeInv.calls {log' : List Event} (h : LifeInv log u) (hcalls : Calls P u log' u') :
    LifeInv (log ++ log') u' := by
  induction hcalls generalizing log with
  | keep hscrapers hstopped hgauge hcalls =>
    rw [List.append_nil]
    exact h.keep hscrapers hstopped hgauge hcalls
  | start htype _ hnone => exact h.start htype hnone
  | stop hs => exact h.stop hs
  | trans _ _ ih ih' =>
    rw [← List.append_assoc]
    exact ih' (ih h)

/-! ### Between changes -/

/-- Every check that the batch adds or updates has settings. -/
def Changes.HasSettings (changes : Changes) : Prop := ∀ change ∈ changes.checks, change.HasSettings

/-- The updater in the middle of a batch, after the changes `done` of it. -/
def During (env : Env) (u : Updater) (changes : Changes) (firstBatch : Bool)
    (done : List CheckChange) (u' : Updater) : Prop :=
  if firstBatch && !changes.isDeltaFirstBatch then
    ∃ newChecks, done.foldlM (firstBatchChange env) (u, []) = .ok (u', newChecks)
  else done.foldlM (deltaChange env) { u with tenantCh := u.tenantCh ++ changes.tenants } = .ok u'

/-- Any check may be started. -/
abbrev AnyCheck : Model.Check → Prop := fun _ ↦ True

variable {env : Env}

private theorem reaches_deltaChanges {changes : List CheckChange}
    (h : changes.foldlM (deltaChange env) u = .ok u') : Reaches AnyCheck u u' := by
  apply ((Runs.foldlM_eq_ok _ _ _ _).mp h).invariant _ (Reaches.refl u)
  intro t _ t' ht hstep
  exact ht.trans (reaches_deltaChange (fun _ ↦ trivial) hstep)

private theorem reaches_firstBatchChanges {changes : List CheckChange}
    {s s' : Updater × List GlobalID}
    (h : changes.foldlM (firstBatchChange env) s = .ok s') : Reaches AnyCheck s.1 s'.1 := by
  apply ((Runs.foldlM_eq_ok _ _ _ _).mp h).invariant _ (Reaches.refl s.1)
  intro t _ t' ht hstep
  exact ht.trans (reaches_firstBatchChange (fun _ ↦ trivial) (fun _ _ _ _ ↦ trivial) hstep)

private theorem reaches_of_during {changes : Changes} {firstBatch : Bool} {done : List CheckChange}
    (h : During env u changes firstBatch done u') : Reaches AnyCheck u u' := by
  unfold During at h
  split at h
  · obtain ⟨newChecks, h⟩ := h
    exact reaches_firstBatchChanges h
  · refine Reaches.trans ?_ (reaches_deltaChanges h)
    exact .counters

/-- A batch only starts and stops scrapers. -/
theorem reaches_handleChangeBatch {changes : Changes} {firstBatch : Bool}
    (h : handleChangeBatch env u changes firstBatch = .ok u') : Reaches AnyCheck u u' := by
  unfold handleChangeBatch at h
  split at h
  · obtain ⟨s, hfold, rfl⟩ := except_map_eq_ok.mp h
    exact (reaches_firstBatchChanges hfold).trans (reaches_removeUnlisted _ _ _)
  · refine Reaches.trans ?_ (reaches_deltaChanges h)
    exact .counters

private theorem exists_during (env : Env) (u : Updater) {changes : Changes} (firstBatch : Bool)
    (h : changes.HasSettings) {done rest : List CheckChange} (heq : changes.checks = done ++ rest) :
    ∃ u', During env u changes firstBatch done u' := by
  have hdone (change : CheckChange) (hm : change ∈ done) : change.HasSettings :=
    h change (heq ▸ List.mem_append_left _ hm)
  unfold During
  split
  · cases hfold : done.foldlM (firstBatchChange env) (u, []) with
    | ok s => exact ⟨s.1, s.2, rfl⟩
    | error e =>
      obtain ⟨change, hm, t, ht⟩ := Runs.exists_of_foldlM_eq_error _ _ _ _ hfold
      obtain ⟨t', ht'⟩ := firstBatchChange_returns env t (hdone change hm)
      cases ht.symm.trans ht'
  · cases hfold : done.foldlM (deltaChange env)
        { u with tenantCh := u.tenantCh ++ changes.tenants } with
    | ok u' => exact ⟨u', rfl⟩
    | error e =>
      obtain ⟨change, hm, t, ht⟩ := Runs.exists_of_foldlM_eq_error _ _ _ _ hfold
      obtain ⟨t', ht'⟩ := deltaChange_returns env t (hdone change hm)
      cases ht.symm.trans ht'

private theorem handleChangeBatch_returns (u : Updater) {changes : Changes} (firstBatch : Bool)
    (h : changes.HasSettings) : ∃ u', handleChangeBatch env u changes firstBatch = .ok u' := by
  obtain ⟨u', hduring⟩ :=
    exists_during env u firstBatch h (List.append_nil changes.checks).symm
  unfold During at hduring
  unfold handleChangeBatch
  split at hduring
  · next hfirst =>
    obtain ⟨newChecks, hfold⟩ := hduring
    rw [if_pos hfirst, handleFirstBatch, hfold]
    exact ⟨_, rfl⟩
  · next hfirst =>
    rw [if_neg hfirst]
    exact ⟨u', hduring⟩

/-- A batch with settings, and what it leads to. -/
def BatchStep (env : Env) (u : Updater) (batch : Changes × Bool) (u' : Updater) : Prop :=
  batch.1.HasSettings ∧ handleChangeBatch env u batch.1 batch.2 = .ok u'

/-- Run lemma: the invariant holds after any batches. -/
theorem LifeInv.of_runs {batches : List (Changes × Bool)}
    (h : Runs (BatchStep env) {} batches u) :
    ∃ log, Calls AnyCheck {} log u ∧ LifeInv log u := by
  have hinit : LifeInv [] {} :=
    ⟨⟨by simp, by simp, by simp, by simp, by simp, by simp, fun _ ↦ rfl⟩, by simp, by simp⟩
  apply h.invariant _ ⟨[], .keep rfl rfl rfl (Nat.le_refl _), hinit⟩
  rintro t batch t' ⟨log, hlog, hinv⟩ hstep
  obtain ⟨log', hlog'⟩ := reaches_handleChangeBatch hstep.2
  exact ⟨log ++ log', hlog.trans hlog', hinv.calls hlog'⟩

/-- After any batches, and after any part of the next one, which is handled, the scrapers agree
with the calls that were made. -/
theorem lifecycle_of_runs {batches : List (Changes × Bool)}
    (h : Runs (BatchStep env) {} batches u) :
    ∃ log, Calls AnyCheck {} log u ∧ Lifecycle log u ∧
      ∀ changes firstBatch, changes.HasSettings →
        (∃ u', handleChangeBatch env u changes firstBatch = .ok u') ∧
        ∀ done rest, changes.checks = done ++ rest →
          ∃ u' log', During env u changes firstBatch done u' ∧ Calls AnyCheck u log' u' ∧
            Lifecycle (log ++ log') u' := by
  obtain ⟨log, hlog, hinv⟩ := LifeInv.of_runs h
  refine ⟨log, hlog, hinv.toLifecycle, ?_⟩
  intro changes firstBatch hsettings
  refine ⟨handleChangeBatch_returns u firstBatch hsettings, ?_⟩
  intro done rest heq
  obtain ⟨u', hduring⟩ := exists_during env u firstBatch hsettings heq
  obtain ⟨log', hlog'⟩ := reaches_of_during hduring
  exact ⟨u', log', hduring, hlog', (hinv.calls hlog').toLifecycle⟩

/-- A full first batch adds a check twice, and the next batch updates and deletes it. -/
def shortLife : List (Changes × Bool) :=
  [({ checks := [⟨.add, pingCheck ⟨0x3ff0000000000000⟩ 60000⟩,
      ⟨.add, pingCheck ⟨0x4000000000000000⟩ 120000⟩] }, true),
    ({ checks := [⟨.update, pingCheck ⟨0x4000000000000000⟩ 60000⟩,
      ⟨.delete, pingCheck ⟨0x4000000000000000⟩ 60000⟩] }, false)]

/-- Three scrapers are started and stopped. -/
theorem lifecycle_shortLife : ∃ u, Runs (BatchStep permissiveEnv) {} shortLife u ∧
    u.stopped = [0, 1, 2] ∧ ∃ log, Calls AnyCheck {} log u ∧ Lifecycle log u := by
  have hsettings (changes : Changes × Bool) (hm : changes ∈ shortLife) :
      changes.1.HasSettings := by
    intro change hc _
    simp only [shortLife, List.mem_cons, List.not_mem_nil, or_false] at hm
    rcases hm with rfl | rfl <;>
      (simp only [List.mem_cons, List.not_mem_nil, or_false] at hc; rcases hc with rfl | rfl) <;>
      exact Nat.one_ne_zero
  have hrun : ∃ u, Runs (BatchStep permissiveEnv) {} shortLife u ∧ u.stopped = [0, 1, 2] :=
    ⟨_, .cons ⟨hsettings _ List.mem_cons_self, rfl⟩
      (.cons ⟨hsettings _ (List.mem_cons_of_mem _ List.mem_cons_self), rfl⟩ (.nil _)), rfl⟩
  obtain ⟨u, hu, hstopped⟩ := hrun
  obtain ⟨log, hlog, hlife, -⟩ := lifecycle_of_runs hu
  exact ⟨u, hu, hstopped, log, hlog, hlife⟩

end SMAgent.Checks
