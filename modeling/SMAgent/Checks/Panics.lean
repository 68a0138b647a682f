import SMAgent.Checks.Updater

/-!
# Panics while a batch is validated

A delta batch validates every check it adds or updates before anything else is done with
it, and a first batch validates every check that is not running. Such a call panics exactly
on a check without settings that no earlier rule refuses.
-/

namespace SMAgent.Checks
open SMAgent.Base SMAgent.Pb SMAgent.Model

variable {env : Env} {u : Updater} {check : Model.Check} {change : CheckChange} {e : Site × Panic}

/-- Validation returns on checks with settings and on checks refused before their type is
read. -/
def ValidateReturns (check : Pb.Check) : Prop :=
  check.settings.count ≠ 0 ∨ check.RejectedEarly

private theorem validate_ok_iff (env : Env) {check : Pb.Check} :
    (∃ err, validate env (Check.fromSM check) = .ok err) ↔ ValidateReturns check := by
  rw [ValidateReturns, ← Check.rejectedEarly_fromSM]
  exact (exists_congr fun _ ↦ validate_eq_ok).trans
    ((Check.fromSM check).toCheck.validate_returns_iff env.lib)

private theorem validate_error {check : Pb.Check}
    (h : validate env (Check.fromSM check) = .error e) :
    e.1 = .validation ∧ ¬ ValidateReturns check := by
  constructor
  · unfold validate at h
    cases hv : (Check.fromSM check).toCheck.validate env.lib with
    | ok err =>
      rw [hv] at h
      cases h
    | error p =>
      rw [hv] at h
      obtain rfl := Except.error.inj h
      rfl
  · rw [← validate_ok_iff env]
    rintro ⟨err, he⟩
    cases h.symm.trans he

private theorem addAndStart_error (h : addAndStartScraperWithLock env u check = .error e) :
    e.1 = .dispatch ∧ ∃ p, check.type = .error p := by
  unfold addAndStartScraperWithLock at h
  split at h
  · next p hp =>
    obtain rfl := Except.error.inj h
    exact ⟨rfl, p, hp⟩
  · split_ifs at h

private theorem update_error (h : handleCheckUpdateWithLock env u check = .error e) :
    e.1 = .dispatch ∧ ∃ p, check.type = .error p := by
  unfold handleCheckUpdateWithLock at h
  split at h
  · exact addAndStart_error h
  · exact addAndStart_error h

-- What follows a successful validation does not reach the dispatch panic.
private theorem no_dispatch (hv : validate env check = .ok none)
    (h : e.1 = .dispatch ∧ ∃ p, check.type = .error p) : False := by
  obtain ⟨type, ht⟩ := type_of_validate hv
  obtain ⟨-, p, hp⟩ := h
  cases ht.symm.trans hp

private theorem handleCheckAdd_error_iff :
    handleCheckAdd env u check = .error e ↔ validate env check = .error e := by
  simp only [handleCheckAdd]
  split
  · next hv => simp [hv]
  · next hv =>
    rw [hv]
    exact ⟨nofun, nofun⟩
  · next hv =>
    rw [hv]
    refine ⟨?_, nofun⟩
    split
    · exact nofun
    · exact fun h ↦ (no_dispatch hv (addAndStart_error h)).elim

private theorem handleCheckUpdate_error_iff :
    handleCheckUpdate env u check = .error e ↔ validate env check = .error e := by
  simp only [handleCheckUpdate]
  split
  · next hv => simp [hv]
  · next hv =>
    rw [hv]
    exact ⟨nofun, nofun⟩
  · next hv =>
    rw [hv]
    exact ⟨fun h ↦ (no_dispatch hv (update_error h)).elim, nofun⟩

private theorem map_eq_error_iff {α β : Type} {x : Outcome α} {f : α → β} :
    x.map f = .error e ↔ x = .error e := by
  cases x with
  | ok a => exact ⟨nofun, nofun⟩
  | error e' => simp [Except.map]

-- A change of a delta batch panics exactly in the validation of its check.
private theorem deltaChange_error_iff : deltaChange env u change = .error e ↔
    (change.operation = .add ∨ change.operation = .update) ∧
      validate env (Check.fromSM change.check) = .error e := by
  unfold deltaChange
  split
  · next hop => simp [hop, map_eq_error_iff, handleCheckAdd_error_iff]
  · next hop => simp [hop, map_eq_error_iff, handleCheckUpdate_error_iff]
  · next hop => simp [hop]
  · next hop => simp [hop]

private theorem initialAdd_error (h : handleInitialChangeAddWithLock env u check = .error e) :
    validate env check = .error e ∨ e.1 = .dispatch ∧ ∃ p, check.type = .error p := by
  unfold handleInitialChangeAddWithLock at h
  split at h
  · split at h
    · cases h
    · exact .inr (update_error h)
  · dsimp only at h
    split at h
    · next hv => exact .inl (by rw [hv, Except.error.inj h])
    · cases h
    · split at h
      · cases h
      · exact .inr (addAndStart_error h)

private theorem firstBatchChange_error {s : Updater × List GlobalID}
    (h : firstBatchChange env s change = .error e) :
    change.operation = .add ∧ (e.1 = .validation ∧ ¬ ValidateReturns change.check ∨
      e.1 = .dispatch ∧ ∃ p, change.check.type = .error p) := by
  unfold firstBatchChange at h
  split at h
  · next hop =>
    dsimp only at h
    split at h
    · next he =>
      rw [Except.error.inj h] at he
      exact ⟨hop, (initialAdd_error he).imp_left validate_error⟩
    · cases h
    · cases h
  · cases h

/-! ### Checks with settings -/

/-- Every check that a change adds or updates has settings. -/
def CheckChange.HasSettings (change : CheckChange) : Prop :=
  change.operation = .add ∨ change.operation = .update → change.check.settings.count ≠ 0

/-- Such a change of a delta batch is handled. -/
theorem deltaChange_returns (env : Env) (u : Updater) (h : change.HasSettings) :
    ∃ u', deltaChange env u change = .ok u' := by
  cases hr : deltaChange env u change with
  | ok u' => exact ⟨u', rfl⟩
  | error e =>
    obtain ⟨hop, hv⟩ := deltaChange_error_iff.mp hr
    exact absurd (.inl (h hop)) (validate_error hv).2

/-- Such a change of a full first batch is handled. -/
theorem firstBatchChange_returns (env : Env) (s : Updater × List GlobalID)
    (h : change.HasSettings) : ∃ s', firstBatchChange env s change = .ok s' := by
  cases hr : firstBatchChange env s change with
  | ok s' => exact ⟨s', rfl⟩
  | error e =>
    obtain ⟨hop, ⟨-, hreturns⟩ | ⟨-, p, hp⟩⟩ := firstBatchChange_error hr
    · exact absurd (.inl (h (.inl hop))) hreturns
    · rcases change.check.settings.type_cases with ⟨-, type, htype⟩ | ⟨hzero, -⟩
      · cases htype.symm.trans hp
      · exact absurd hzero (h (.inl hop))

private theorem handleChangeBatch_error {changes : Changes} {firstBatch : Bool} {p : Panic}
    (h : handleChangeBatch env u changes firstBatch = .error (.validation, p)) :
    ∃ change ∈ changes.checks, (change.operation = .add ∨ change.operation = .update) ∧
      ¬ ValidateReturns change.check := by
  unfold handleChangeBatch at h
  split at h
  · obtain ⟨change, hm, s, hs⟩ := Runs.exists_of_foldlM_eq_error _ _ _ _ (map_eq_error_iff.mp h)
    obtain ⟨hop, ⟨-, hreturns⟩ | ⟨hsite, -⟩⟩ := firstBatchChange_error hs
    · exact ⟨change, hm, .inl hop, hreturns⟩
    · cases hsite
  · obtain ⟨change, hm, s, hs⟩ := Runs.exists_of_foldlM_eq_error _ _ _ _ h
    obtain ⟨hop, hv⟩ := deltaChange_error_iff.mp hs
    exact ⟨change, hm, hop, (validate_error hv).2⟩

private theorem handleChangeBatch_delta_ok (changes : Changes)
    (h : ∀ p, handleChangeBatch env u changes false ≠ .error (.validation, p)) :
    ∀ change ∈ changes.checks, change.operation = .add ∨ change.operation = .update →
      ValidateReturns change.check := by
  intro change hm hop
  cases hr : handleChangeBatch env u changes false with
  | ok u' =>
    obtain ⟨t, t', hs⟩ := ((Runs.foldlM_eq_ok _ _ _ _).mp hr).exists_step change hm
    rw [← validate_ok_iff env]
    cases hv : validate env (Check.fromSM change.check) with
    | ok err => exact ⟨err, rfl⟩
    | error e => cases hs.symm.trans (deltaChange_error_iff.mpr ⟨hop, hv⟩)
  | error e =>
    obtain ⟨change', -, t, ht⟩ := Runs.exists_of_foldlM_eq_error _ _ _ _ hr
    obtain ⟨-, hv⟩ := deltaChange_error_iff.mp ht
    have hsite : e = (.validation, e.2) := Prod.ext (validate_error hv).1 rfl
    rw [hsite] at hr
    exact absurd hr (h e.2)

/-- Validation is robust exactly on messages with settings or refused before their type is
read, and a batch is handled without a panic in validation, whatever the updater's state,
exactly when all checks it adds or updates are of this kind. -/
theorem validation_robust_iff (lib : Stdlib) :
    (∀ c : Pb.Check, Robust c.settings (c.validate lib) ↔
      c.settings.count ≠ 0 ∨ c.RejectedEarly) ∧
    (∀ c : AdHocCheck, Robust c.settings (c.validate lib) ↔
      c.settings.count ≠ 0 ∨ c.RejectedEarly) ∧
    ∀ changes : List CheckChange,
      (∀ k6 factory u tenants isDelta firstBatch p,
        handleChangeBatch ⟨lib, k6, factory⟩ u ⟨changes, tenants, isDelta⟩ firstBatch ≠
          .error (.validation, p)) ↔
      ∀ change ∈ changes, change.operation = .add ∨ change.operation = .update →
        change.check.settings.count ≠ 0 ∨ change.check.RejectedEarly := by
  refine ⟨fun c ↦ c.robust_validate_iff lib, fun c ↦ c.robust_validate_iff lib, ?_⟩
  intro changes
  constructor
  · intro h
    exact handleChangeBatch_delta_ok ⟨changes, [], false⟩
      fun p ↦ h true (fun _ _ ↦ true) {} [] false false p
  · intro h k6 factory u tenants isDelta firstBatch p he
    obtain ⟨change, hm, hop, hn⟩ := handleChangeBatch_error he
    exact hn (h change hm hop)

/-- A check without settings that the rules before the type dispatch accept. -/
def settingsFreeCheck : Pb.Check where
  id := 7
  tenantId := 1
  probes := [1]
  target := GoString.lit "www.example.org"
  job := GoString.lit "job"

/-- Its validation panics, on its own and inside a batch. -/
theorem validation_panics_without_settings :
    ¬ Robust settingsFreeCheck.settings (settingsFreeCheck.validate Stdlib.permissive) ∧
      handleChangeBatch ⟨Stdlib.permissive, true, fun _ _ ↦ true⟩ {}
        { checks := [⟨.add, settingsFreeCheck⟩] } true =
          .error (.validation, .explicit (GoString.lit "unhandled check type")) := by
  refine ⟨?_, rfl⟩
  rintro ⟨err, h, -⟩
  cases h

end SMAgent.Checks
