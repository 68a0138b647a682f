import SMAgent.Checks.Updater

/-!
# The counter of failed changes

`internal/checks/checks.go:771-911`. A change whose handler returns an error is counted by the
loop over the batch. In a full first batch `handleInitialChangeAddWithLock` counts the failure
to start a scraper too, before it returns the error to the loop.
-/

namespace SMAgent.Checks
open SMAgent.Base SMAgent.Pb SMAgent.Model

/-- All labels of the vector together. -/
def OpCounter.total (c : OpCounter) : Nat := c.add + c.update + c.delete

/-- The error that a handler returned, if it returned. -/
def returned : Outcome (Updater × Option ChangeError) → Option ChangeError
  | .ok (_, err) => err
  | .error _ => none

/-- The error that the handler of a change of a delta batch returns in `u`. -/
def deltaError (env : Env) (u : Updater) (change : CheckChange) : Option ChangeError :=
  match change.operation with
  | .add => returned (handleCheckAdd env u (Check.fromSM change.check))
  | .update => returned (handleCheckUpdate env u (Check.fromSM change.check))
  | .delete => (handleCheckDelete u (Check.fromSM change.check)).2
  | .unrecognized _ => none

/-- The error that the handler of a change of a full first batch returns in `u`; only additions
are handled. -/
def firstBatchError (env : Env) (u : Updater) (change : CheckChange) : Option ChangeError :=
  match change.operation with
  | .add => returned (handleInitialChangeAddWithLock env u (Check.fromSM change.check))
  | _ => none

/-- The number of changes of a batch whose handler returns an error. -/
def failedChanges (env : Env) (u : Updater) (changes : Changes) (firstBatch : Bool) : Nat :=
  if firstBatch && !changes.isDeltaFirstBatch then
    countAlong (firstBatchChange env) (fun s change ↦ (firstBatchError env s.1 change).isSome)
      (u, []) changes.checks
  else
    countAlong (deltaChange env) (fun u change ↦ (deltaError env u change).isSome)
      { u with tenantCh := u.tenantCh ++ changes.tenants } changes.checks

/-- A valid check that does not run is to be started, and the factory fails. -/
structure StartFails (env : Env) (u : Updater) (check : Model.Check) : Prop where
  absent : u.scrapers.lookup check.globalID = none
  valid : validate env check = .ok none
  enabled : env.k6 = true ∨ (check.type ≠ .ok .scripted ∧ check.type ≠ .ok .multiHttp)
  fails : env.factory u.factoryCalls check = false

/-! ### Handlers -/

variable {env : Env} {u u' : Updater} {check : Model.Check} {err : Option ChangeError}

private theorem counter_addAndStart (h : addAndStartScraperWithLock env u check = .ok (u', err)) :
    u'.changeErrorsCounter = u.changeErrorsCounter := by
  unfold addAndStartScraperWithLock at h
  split at h
  · cases h
  · split at h
    · cases h
      rfl
    · split at h
      · cases h
        rfl
      · cases h
        rfl

private theorem counter_updateWithLock (h : handleCheckUpdateWithLock env u check = .ok (u', err)) :
    u'.changeErrorsCounter = u.changeErrorsCounter := by
  unfold handleCheckUpdateWithLock at h
  split at h
  · exact counter_addAndStart h
  · rw [counter_addAndStart h]
    rfl

private theorem counter_add (h : handleCheckAdd env u check = .ok (u', err)) :
    u'.changeErrorsCounter = u.changeErrorsCounter := by
  simp only [handleCheckAdd] at h
  split at h
  · cases h
  · cases h
    rfl
  · split at h
    · cases h
      rfl
    · rw [counter_addAndStart h]

private theorem counter_update (h : handleCheckUpdate env u check = .ok (u', err)) :
    u'.changeErrorsCounter = u.changeErrorsCounter := by
  simp only [handleCheckUpdate] at h
  split at h
  · cases h
  · cases h
    rfl
  · rw [counter_updateWithLock h]

private theorem counter_delete (u : Updater) (check : Model.Check) :
    (handleCheckDelete u check).1.changeErrorsCounter = u.changeErrorsCounter := by
  simp only [handleCheckDelete]
  split
  · rfl
  · rfl

private theorem addAndStart_error_iff (hnone : u.scrapers.lookup check.globalID = none)
    (hv : validate env check = .ok none) (calls : OpCounter) :
    (∃ u' e, addAndStartScraperWithLock env { u with changesCounter := calls } check =
      .ok (u', some e)) ↔ StartFails env u check := by
  obtain ⟨type, htype⟩ := type_of_validate hv
  constructor
  · rintro ⟨u', e, h⟩
    unfold addAndStartScraperWithLock at h
    split at h
    · cases h
    · next type' htype' =>
      split at h
      · cases h
      · next hgate =>
        split at h
        · cases h
        · next hfactory =>
          refine ⟨hnone, hv, ?_, Bool.not_eq_true _ ▸ hfactory⟩
          rw [htype']
          cases hk : env.k6 with
          | true => exact .inl rfl
          | false =>
            right
            constructor
            · intro heq
              exact hgate ⟨.inl (Except.ok.inj heq), hk⟩
            · intro heq
              exact hgate ⟨.inr (Except.ok.inj heq), hk⟩
  · intro h
    unfold addAndStartScraperWithLock
    split
    · next hp => cases htype.symm.trans hp
    · next type' htype' =>
      rw [if_neg, if_neg (by rw [h.fails]; exact Bool.false_ne_true)]
      · exact ⟨_, _, rfl⟩
      · rintro ⟨htypes, hk⟩
        rcases h.enabled with henabled | ⟨hscripted, hmulti⟩
        · cases hk.symm.trans henabled
        · rcases htypes with rfl | rfl
          · exact hscripted htype'
          · exact hmulti htype'

private theorem counter_initialAdd [Decidable (StartFails env u check)]
    (h : handleInitialChangeAddWithLock env u check = .ok (u', err)) :
    u'.changeErrorsCounter.total =
      u.changeErrorsCounter.total + (decide (StartFails env u check)).toNat := by
  unfold handleInitialChangeAddWithLock at h
  split at h
  · next running hrunning =>
    have hnot : ¬ StartFails env u check := fun hs ↦ by cases hrunning.symm.trans hs.absent
    rw [decide_eq_false hnot]
    split at h
    · cases h
      rfl
    · rw [counter_updateWithLock h]
      rfl
  · next hnone =>
    dsimp only at h
    split at h
    · cases h
    · next hv =>
      have hnot : ¬ StartFails env u check := fun hs ↦ by cases hv.symm.trans hs.valid
      cases h
      rw [decide_eq_false hnot]
      rfl
    · next hv =>
      split at h
      · next u₁ e hadd =>
        have hs : StartFails env u check := (addAndStart_error_iff hnone hv _).mp ⟨_, _, hadd⟩
        cases h
        simp only [OpCounter.total, counter_addAndStart hadd, decide_eq_true hs, Bool.toNat_true]
        omega
      · next hother =>
        have hnot : ¬ StartFails env u check := by
          intro hs
          obtain ⟨u₁, e, hadd⟩ := (addAndStart_error_iff hnone hv _).mpr hs
          exact hother u₁ e hadd
        rw [counter_addAndStart h, decide_eq_false hnot]
        rfl

/-! ### Changes -/

-- What the loop does with a handler's result: it counts an error and goes on.
private theorem counter_map {x : Outcome (Updater × Option ChangeError)}
    {f : Updater × Option ChangeError → Updater} (h : x.map f = .ok u')
    (hx : ∀ u₁ err, x = .ok (u₁, err) → u₁.changeErrorsCounter = u.changeErrorsCounter)
    (hf : ∀ r, (f r).changeErrorsCounter.total =
      r.1.changeErrorsCounter.total + r.2.isSome.toNat) :
    u'.changeErrorsCounter.total =
      u.changeErrorsCounter.total + (returned x).isSome.toNat := by
  cases x with
  | error e => cases h
  | ok r =>
    obtain rfl := Except.ok.inj h
    rw [hf r, hx r.1 r.2 rfl]
    rfl

private theorem counter_deltaChange {change : CheckChange} (h : deltaChange env u change = .ok u') :
    u'.changeErrorsCounter.total =
      u.changeErrorsCounter.total + (deltaError env u change).isSome.toNat := by
  obtain ⟨op, c⟩ := change
  cases op with
  | add =>
    apply counter_map h
    · intro u₁ err hadd
      exact counter_add hadd
    · rintro ⟨u₁, _ | e⟩
      · rfl
      · simp only [OpCounter.total, Option.isSome_some, Bool.toNat_true]
        omega
  | update =>
    apply counter_map h
    · intro u₁ err hupdate
      exact counter_update hupdate
    · rintro ⟨u₁, _ | e⟩
      · rfl
      · simp only [OpCounter.total, Option.isSome_some, Bool.toNat_true]
        omega
  | delete =>
    have hcounter := counter_delete u (Check.fromSM c)
    simp only [deltaChange] at h
    simp only [deltaError]
    cases hdelete : handleCheckDelete u (Check.fromSM c) with
    | mk u₁ err =>
      rw [hdelete] at h hcounter
      rw [← hcounter]
      cases err with
      | none =>
        cases h
        rfl
      | some e =>
        cases h
        rfl
  | unrecognized v =>
    cases h
    rfl

private theorem counter_firstBatchChange {s s' : Updater × List GlobalID} {change : CheckChange}
    [Decidable (change.operation = .add ∧ StartFails env s.1 (Check.fromSM change.check))]
    (h : firstBatchChange env s change = .ok s') :
    s'.1.changeErrorsCounter.total = s.1.changeErrorsCounter.total +
      (firstBatchError env s.1 change).isSome.toNat + (decide (change.operation = .add ∧
        StartFails env s.1 (Check.fromSM change.check))).toNat := by
  classical
  obtain ⟨op, c⟩ := change
  cases op with
  | add =>
    simp only [firstBatchChange] at h
    simp only [firstBatchError, true_and]
    cases hadd : handleInitialChangeAddWithLock env s.1 (Check.fromSM c) with
    | error e =>
      rw [hadd] at h
      cases h
    | ok r =>
      obtain ⟨u₁, err⟩ := r
      have hcount := counter_initialAdd hadd
      rw [hadd] at h
      cases err with
      | none =>
        cases h
        simpa [returned] using hcount
      | some e =>
        cases h
        simp only [OpCounter.total, returned, Option.isSome_some, Bool.toNat_true] at hcount ⊢
        omega
  | update =>
    cases h
    simp [firstBatchError]
  | delete =>
    cases h
    simp [firstBatchError]
  | unrecognized v =>
    cases h
    simp [firstBatchError]

private theorem counter_removeUnlisted (newChecks ids : List GlobalID) (u : Updater) :
    (ids.foldl (removeUnlisted newChecks) u).changeErrorsCounter = u.changeErrorsCounter := by
  induction ids generalizing u with
  | nil => rfl
  | cons id ids ih =>
    rw [List.foldl_cons, ih]
    unfold removeUnlisted
    split
    · rfl
    · split
      · rfl
      · rfl

/-! ### Batches -/

variable {changes : Changes}

/-- A delta batch counts every failed change once. -/
theorem counter_delta {changes : List CheckChange}
    (h : changes.foldlM (deltaChange env) u = .ok u') :
    u'.changeErrorsCounter.total = u.changeErrorsCounter.total +
      countAlong (deltaChange env) (fun u change ↦ (deltaError env u change).isSome) u
        changes := by
  have hcount := measure_foldlM (m := fun u : Updater ↦ u.changeErrorsCounter.total)
    (p := fun u change ↦ (deltaError env u change).isSome) (q := fun _ _ ↦ false)
    (fun u change u' hstep ↦ counter_deltaChange hstep) h
  have hnone := (countAlong_eq_zero_iff (deltaChange env) (fun _ _ ↦ false) u changes).mpr
    fun _ _ _ _ _ _ ↦ rfl
  rwa [hnone] at hcount

open Classical in
/-- A full first batch counts every failed change, and those that fail to start once more. -/
theorem counter_firstBatch {changes : List CheckChange} {s s' : Updater × List GlobalID}
    (h : changes.foldlM (firstBatchChange env) s = .ok s') :
    s'.1.changeErrorsCounter.total = s.1.changeErrorsCounter.total +
      countAlong (firstBatchChange env)
        (fun s change ↦ (firstBatchError env s.1 change).isSome) s changes +
      countAlong (firstBatchChange env) (fun s change ↦ decide (change.operation = .add ∧
        StartFails env s.1 (Check.fromSM change.check))) s changes :=
  measure_foldlM (m := fun s : Updater × List GlobalID ↦ s.1.changeErrorsCounter.total)
    (fun _ _ _ hstep ↦ counter_firstBatchChange hstep) h

/-- The counter grows by the number of changes whose handler returned an error exactly if the
batch is applied change by change or starts every scraper that it tries to add. -/
theorem failures_counted_once_iff {firstBatch : Bool}
    (h : handleChangeBatch env u changes firstBatch = .ok u') :
    u'.changeErrorsCounter.total =
        u.changeErrorsCounter.total + failedChanges env u changes firstBatch ↔
      (firstBatch = true → changes.isDeltaFirstBatch = false → ∀ done change rest s,
        changes.checks = done ++ change :: rest →
        done.foldlM (firstBatchChange env) (u, []) = .ok s →
        change.operation = .add → ¬ StartFails env s.1 (Check.fromSM change.check)) := by
  classical
  unfold handleChangeBatch at h
  unfold failedChanges
  split at h
  · next hfull =>
    obtain ⟨hfirst, hdelta⟩ := Bool.and_eq_true_iff.mp hfull
    rw [if_pos hfull]
    obtain ⟨s, hfold, rfl⟩ := except_map_eq_ok.mp h
    have hcount := counter_firstBatch hfold
    have hzero := countAlong_eq_zero_iff (firstBatchChange env)
      (fun s change ↦ decide (change.operation = .add ∧
        StartFails env s.1 (Check.fromSM change.check))) (u, []) changes.checks
    simp only [decide_eq_false_iff_not, not_and] at hzero
    rw [counter_removeUnlisted, hcount, Nat.add_eq_left, hzero]
    constructor
    · intro hnone _ _
      exact hnone
    · intro hcond
      exact hcond hfirst (by simpa using hdelta)
  · next hnot =>
    rw [if_neg hnot]
    constructor
    · intro _ hfirst hdelta
      simp [hfirst, hdelta] at hnot
    · intro _
      exact counter_delta h

/-- A factory that never succeeds. -/
def barrenEnv : Env := ⟨Stdlib.permissive, true, fun _ _ ↦ false⟩

/-- A batch that adds one ping check. -/
def addPing : Changes := { checks := [⟨.add, pingCheck ⟨0x3ff0000000000000⟩ 60000⟩] }

/-- A batch with a valid check and one without a timeout. -/
def addInvalid : Changes where
  checks := [⟨.add, pingCheck ⟨0x3ff0000000000000⟩ 60000⟩,
    ⟨.add, { pingCheck ⟨0x3ff0000000000000⟩ 60000 with id := 8, timeout := 0 }⟩]

/-- The first check starts, and the second is rejected before anything is started. -/
theorem failures_counted_once_addInvalid : ∃ u',
    handleChangeBatch permissiveEnv {} addInvalid true = .ok u' ∧
      failedChanges permissiveEnv {} addInvalid true = 1 ∧
      u'.changeErrorsCounter.total = failedChanges permissiveEnv {} addInvalid true := by
  cases h : handleChangeBatch permissiveEnv {} addInvalid true with
  | error e => cases h
  | ok u' =>
    refine ⟨u', rfl, rfl, ?_⟩
    rw [(failures_counted_once_iff h).mpr fun _ _ _ _ _ _ _ _ _ hs ↦ by cases hs.fails]
    rfl

/-- One change fails, and the counter says two. -/
theorem start_failure_counted_twice : ∃ u', handleChangeBatch barrenEnv {} addPing true = .ok u' ∧
    failedChanges barrenEnv {} addPing true = 1 ∧ u'.changeErrorsCounter.total = 2 :=
  ⟨_, rfl, rfl, rfl⟩

end SMAgent.Checks
