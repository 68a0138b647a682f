import SMAgent.Checks.Updater

/-!
# What the handlers do to the scrapers

Every handler of a change starts and stops scrapers, and does nothing else to them: it starts
a scraper only for a check that does not run, and stops only a scraper that it finds in the
map. What all of these calls keep, every batch keeps.
-/

namespace SMAgent.Checks
open SMAgent.Base SMAgent.Pb SMAgent.Model

/-- A call of the updater on a scraper. -/
inductive Event where
  | started (handle : Nat)
  | stopped (handle : Nat)
  deriving DecidableEq, Repr

/-- `Calls P u log u'`: the updater gets from `u` to `u'` by the calls in `log`, and starts
scrapers only for checks in `P`. Calls of the factory that fail, counters and tenants do not
matter. -/
inductive Calls (P : Model.Check → Prop) : Updater → List Event → Updater → Prop where
  | keep {u u' : Updater} (hscrapers : u'.scrapers = u.scrapers) (hstopped : u'.stopped = u.stopped)
      (hgauge : u'.runningScrapers = u.runningScrapers)
      (hcalls : u.factoryCalls ≤ u'.factoryCalls) : Calls P u [] u'
  | start {u : Updater} {check : Model.Check} {type : CheckType} (h : check.type = .ok type)
      (hP : P check) (hnone : u.scrapers.lookup check.globalID = none) :
      Calls P u [.started u.factoryCalls] (u.start check type h)
  | stop {u : Updater} {id : GlobalID} {s : Scraper} (hs : u.scrapers.lookup id = some s) :
      Calls P u [.stopped s.handle] (u.stop id s)
  | trans {u u' u'' : Updater} {log log' : List Event} :
      Calls P u log u' → Calls P u' log' u'' → Calls P u (log ++ log') u''

/-- Some calls lead from `u` to `u'`. -/
def Reaches (P : Model.Check → Prop) (u u' : Updater) : Prop := ∃ log, Calls P u log u'

variable {env : Env} {P : Model.Check → Prop} {u u' u'' : Updater} {check : Model.Check}
  {r : Updater × Option ChangeError}

namespace Reaches

/-- Nothing happens. -/
theorem refl (u : Updater) : Reaches P u u := ⟨[], .keep rfl rfl rfl (Nat.le_refl _)⟩

/-- One change after another. -/
theorem trans (h : Reaches P u u') (h' : Reaches P u' u'') : Reaches P u u'' := by
  obtain ⟨log, hlog⟩ := h
  obtain ⟨log', hlog'⟩ := h'
  exact ⟨log ++ log', hlog.trans hlog'⟩

/-- Only counters and tenants differ. -/
theorem counters {c e : OpCounter} {tenants : List Tenant} : Reaches P u
    { u with changesCounter := c, changeErrorsCounter := e, tenantCh := tenants } :=
  ⟨[], .keep rfl rfl rfl (Nat.le_refl _)⟩

private theorem stop {id : GlobalID} {s : Scraper} (hs : u.scrapers.lookup id = some s) :
    Reaches P u (u.stop id s) := ⟨_, .stop hs⟩

end Reaches

/-! ### Starting and stopping -/

section Fields

variable (u : Updater) (check : Model.Check) (type : CheckType) (h : check.type = .ok type)
  (id id' : GlobalID) (s : Scraper)

/-- The scrapers after a start. -/
theorem lookup_start : (u.start check type h).scrapers.lookup id =
    if id = check.globalID then some ⟨u.factoryCalls, check, type, h⟩
    else u.scrapers.lookup id := GoMap.lookup_insert_eq _ _ _ _

/-- The scrapers after a stop. -/
theorem lookup_stop : (u.stop id s).scrapers.lookup id' =
    if id' = id then none else u.scrapers.lookup id' := GoMap.lookup_erase_eq _ _ _

/-- The gauge after a start. -/
theorem runningScrapers_start (t : CheckType) : (u.start check type h).runningScrapers t =
    u.runningScrapers t + if t = type then 1 else 0 := by
  simp only [Updater.start, Function.update_apply]
  split
  · next ht => rw [ht]
  · simp

/-- The gauge after a stop. -/
theorem runningScrapers_stop (t : CheckType) : (u.stop id s).runningScrapers t =
    u.runningScrapers t - if t = s.type then 1 else 0 := by
  simp only [Updater.stop, Function.update_apply]
  split
  · next ht => rw [ht]
  · simp

/-- A start stops nothing. -/
@[simp] theorem stopped_start : (u.start check type h).stopped = u.stopped := rfl

/-- A stop is recorded. -/
@[simp] theorem stopped_stop : (u.stop id s).stopped = u.stopped ++ [s.handle] := rfl

/-- A start uses the factory. -/
@[simp] theorem factoryCalls_start :
    (u.start check type h).factoryCalls = u.factoryCalls + 1 := rfl

end Fields

/-! ### Handlers -/

private theorem reaches_addAndStart (h : addAndStartScraperWithLock env u check = .ok r)
    (hnone : u.scrapers.lookup check.globalID = none) (hP : P check) : Reaches P u r.1 := by
  unfold addAndStartScraperWithLock at h
  split at h
  · cases h
  · next type htype =>
    split at h
    · cases h
      exact .refl u
    · split at h
      · cases h
        exact ⟨_, .start htype hP hnone⟩
      · cases h
        exact ⟨[], .keep rfl rfl rfl (Nat.le_succ _)⟩

private theorem reaches_updateWithLock (hP : P check)
    (h : handleCheckUpdateWithLock env u check = .ok r) : Reaches P u r.1 := by
  unfold handleCheckUpdateWithLock at h
  split at h
  · next hnone => exact reaches_addAndStart h hnone hP
  · next s hs =>
    refine (Reaches.stop hs).trans (reaches_addAndStart h ?_ hP)
    exact AList.lookup_erase _ _

private theorem reaches_add (hP : validate env check = .ok none → P check)
    (h : handleCheckAdd env u check = .ok r) : Reaches P u r.1 := by
  simp only [handleCheckAdd] at h
  split at h
  · cases h
  · cases h
    exact .counters
  · next hv =>
    split at h
    · cases h
      exact .counters
    · next hnone =>
      refine Reaches.trans ?_ (reaches_addAndStart h hnone (hP hv))
      exact .counters

private theorem reaches_update (hP : validate env check = .ok none → P check)
    (h : handleCheckUpdate env u check = .ok r) : Reaches P u r.1 := by
  simp only [handleCheckUpdate] at h
  split at h
  · cases h
  · cases h
    exact .counters
  · next hv =>
    refine Reaches.trans ?_ (reaches_updateWithLock (hP hv) h)
    exact .counters

private theorem reaches_delete (u : Updater) (check : Model.Check) :
    Reaches P u (handleCheckDelete u check).1 := by
  simp only [handleCheckDelete]
  split
  · exact .counters
  · next s hs =>
    refine Reaches.trans ?_ (.stop hs)
    exact .counters

private theorem reaches_initialAdd (hP : validate env check = .ok none → P check)
    (hresent : ∀ running, u.scrapers.lookup check.globalID = some running →
      running.configVersion ≠ check.configVersion → P check)
    (h : handleInitialChangeAddWithLock env u check = .ok r) : Reaches P u r.1 := by
  unfold handleInitialChangeAddWithLock at h
  split at h
  · next running hrunning =>
    split at h
    · cases h
      exact .refl u
    · next hne => exact reaches_updateWithLock (hresent running hrunning hne) h
  · next hnone =>
    dsimp only at h
    split at h
    · cases h
    · cases h
      exact .counters
    · next hv =>
      have hadd {r' : Updater × Option ChangeError} (hr : addAndStartScraperWithLock env
          { u with changesCounter.add := u.changesCounter.add + 1 } check = .ok r') :
          Reaches P u r'.1 := by
        refine Reaches.trans ?_ (reaches_addAndStart hr hnone (hP hv))
        exact .counters
      split at h
      · next hr =>
        cases h
        exact (hadd hr).trans (.counters)
      · exact hadd h

/-! ### Changes -/

-- The handler's result, with its error counted.
private theorem reaches_map {x : Outcome (Updater × Option ChangeError)}
    {f : Updater × Option ChangeError → Updater} (h : x.map f = .ok u')
    (hx : ∀ r, x = .ok r → Reaches P u r.1) (hf : ∀ r, Reaches P r.1 (f r)) :
    Reaches P u u' := by
  cases x with
  | error e => cases h
  | ok r =>
    obtain rfl := Except.ok.inj h
    exact (hx r rfl).trans (hf r)

/-- One change of a delta batch. -/
theorem reaches_deltaChange {change : CheckChange}
    (hP : validate env (Check.fromSM change.check) = .ok none → P (Check.fromSM change.check))
    (h : deltaChange env u change = .ok u') : Reaches P u u' := by
  unfold deltaChange at h
  split at h
  · apply reaches_map h
    · intro r hr
      exact reaches_add hP hr
    · rintro ⟨u, _ | _⟩ <;> exact .counters
  · apply reaches_map h
    · intro r hr
      exact reaches_update hP hr
    · rintro ⟨u, _ | _⟩ <;> exact .counters
  · obtain rfl := Except.ok.inj h
    refine (reaches_delete u (Check.fromSM change.check)).trans ?_
    split
    · next heq =>
      rw [heq]
      exact .refl _
    · next heq =>
      rw [heq]
      exact .counters
  · cases h
    exact .refl u

/-- One change of a full first batch. -/
theorem reaches_firstBatchChange {s s' : Updater × List GlobalID} {change : CheckChange}
    (hP : validate env (Check.fromSM change.check) = .ok none → P (Check.fromSM change.check))
    (hresent : change.operation = .add → ∀ running,
      s.1.scrapers.lookup (Check.fromSM change.check).globalID = some running →
      running.configVersion ≠ (Check.fromSM change.check).configVersion →
      P (Check.fromSM change.check))
    (h : firstBatchChange env s change = .ok s') : Reaches P s.1 s'.1 := by
  unfold firstBatchChange at h
  split at h
  · next hop =>
    dsimp only at h
    split at h
    · cases h
    · next hr =>
      cases h
      exact (reaches_initialAdd hP (hresent hop) hr).trans (.counters)
    · next hr =>
      cases h
      exact reaches_initialAdd hP (hresent hop) hr
  · cases h
    exact .refl _

/-- The end of a full first batch. -/
theorem reaches_removeUnlisted (newChecks ids : List GlobalID) (u : Updater) :
    Reaches P u (ids.foldl (removeUnlisted newChecks) u) := by
  induction ids generalizing u with
  | nil => exact .refl u
  | cons id ids ih =>
    rw [List.foldl_cons]
    refine Reaches.trans ?_ (ih _)
    unfold removeUnlisted
    split
    · exact .refl u
    · split
      · exact .refl u
      · next s hs => exact .stop hs

end SMAgent.Checks
