import SMAgent.Checks.Effects

/-!
# Only valid checks run

A scraper is started on four paths: by an ADD or an UPDATE of a delta batch, by an ADD of a
full first batch, and by an ADD of a full first batch for a check that already runs with
another version, which is turned into an update. The first three validate the check.
-/

namespace SMAgent.Checks
open SMAgent.Base SMAgent.Pb SMAgent.Model

variable {env : Env} {u u' : Updater} {P Q : Model.Check → Prop}

/-- `Check.Validate` returns nil. -/
def Valid (env : Env) (check : Model.Check) : Prop := check.validate env.lib = .ok none

/-- Every running scraper was created from a valid check. -/
def AllValid (env : Env) (u : Updater) : Prop :=
  ∀ id s, u.scrapers.lookup id = some s → Valid env s.check

/-- The check runs with another version. -/
def Resends (u : Updater) (check : Model.Check) : Prop :=
  ∃ running, u.scrapers.lookup check.globalID = some running ∧
    running.configVersion ≠ check.configVersion

/-- The condition on a batch: when an ADD of a full first batch is handled and its check runs
with another version, the check is valid. -/
def ResendsValid (env : Env) (u : Updater) (changes : Changes) (firstBatch : Bool) : Prop :=
  firstBatch = true → changes.isDeltaFirstBatch = false →
    ∀ pre change post, changes.checks = pre ++ change :: post →
      ∀ s, pre.foldlM (firstBatchChange env) (u, []) = .ok s →
        change.operation = .add → Resends s.1 (Check.fromSM change.check) →
          Valid env (Check.fromSM change.check)

/-! ### Where scrapers come from -/

/-- Every scraper of `u'` was running in `u` or was created from a check in `P`. -/
def Sourced (P : Model.Check → Prop) (u u' : Updater) : Prop :=
  ∀ id s, u'.scrapers.lookup id = some s → u.scrapers.lookup id = some s ∨ P s.check

private theorem Sourced.of_calls {log : List Event} (h : Calls P u log u') : Sourced P u u' := by
  induction h with
  | keep hscrapers =>
    intro id s hs
    rw [hscrapers] at hs
    exact .inl hs
  | start h hP _ =>
    intro id s hs
    rw [Updater.start, GoMap.lookup_insert_eq] at hs
    split at hs
    · obtain rfl := Option.some.inj hs
      exact .inr hP
    · exact .inl hs
  | stop _ =>
    intro id s hs
    rw [Updater.stop, GoMap.lookup_erase_eq] at hs
    split at hs
    · cases hs
    · exact .inl hs
  | trans _ _ ih ih' =>
    intro id s hs
    rcases ih' id s hs with hs | hs
    · exact ih id s hs
    · exact .inr hs

private theorem AllValid.of_reaches (hu : AllValid env u) (h : Reaches (Valid env) u u') :
    AllValid env u' := by
  obtain ⟨log, hlog⟩ := h
  intro id s hs
  rcases Sourced.of_calls hlog id s hs with hs | hs
  · exact hu id s hs
  · exact hs

/-! ### Batches -/

private theorem valid_of_validate (check : Model.Check) (h : validate env check = .ok none) :
    Valid env check := validate_eq_ok.mp h

private theorem allValid_firstBatch {changes : Changes} (hu : AllValid env u)
    (h : handleFirstBatch env u changes = .ok u')
    (hresent : ∀ pre change post, changes.checks = pre ++ change :: post →
      ∀ s, pre.foldlM (firstBatchChange env) (u, []) = .ok s → change.operation = .add →
        Resends s.1 (Check.fromSM change.check) → Valid env (Check.fromSM change.check)) :
    AllValid env u' := by
  obtain ⟨s, hfold, rfl⟩ := except_map_eq_ok.mp h
  have hrun := ((Runs.foldlM_eq_ok _ _ _ _).mp hfold).restrict
    (fun pre change post t heq hr ↦ hresent pre change post heq t
      ((Runs.foldlM_eq_ok _ _ _ _).mpr hr))
  have hs : AllValid env s.1 := by
    apply hrun.invariant _ hu
    intro s a s' hs hstep
    refine hs.of_reaches (reaches_firstBatchChange (valid_of_validate _) ?_ hstep.1)
    intro hop running hrunning hne
    exact hstep.2 hop ⟨running, hrunning, hne⟩
  exact hs.of_reaches (reaches_removeUnlisted _ _ _)

private theorem allValid_deltaBatch {changes : List CheckChange} (hu : AllValid env u)
    (h : changes.foldlM (deltaChange env) u = .ok u') : AllValid env u' := by
  apply ((Runs.foldlM_eq_ok _ _ _ _).mp h).invariant _ hu
  intro u change u' hu hstep
  exact hu.of_reaches (reaches_deltaChange (valid_of_validate _) hstep)

private theorem allValid_batch {changes : Changes} {firstBatch : Bool} (hu : AllValid env u)
    (h : handleChangeBatch env u changes firstBatch = .ok u')
    (hresent : ResendsValid env u changes firstBatch) : AllValid env u' := by
  unfold handleChangeBatch at h
  split at h
  · next hfirst =>
    rw [Bool.and_eq_true, Bool.not_eq_true'] at hfirst
    exact allValid_firstBatch hu h (hresent hfirst.1 hfirst.2)
  · exact allValid_deltaBatch (u := { u with tenantCh := u.tenantCh ++ changes.tenants }) hu h

/-- In every sequence of batches that re-sends running checks only with valid settings, all
running checks are valid. -/
theorem allValid_of_resendsValid (env : Env) (batches : List (Changes × Bool)) (u : Updater)
    (h : Runs (fun u batch u' ↦ handleChangeBatch env u batch.1 batch.2 = .ok u' ∧
      ResendsValid env u batch.1 batch.2) {} batches u) : AllValid env u := by
  apply h.invariant
  · intro u batch u' hu hstep
    exact allValid_batch hu hstep.1 hstep.2
  · intro id s hs
    cases hs

/-- A full first batch that adds one check. -/
def addBatch (check : Pb.Check) : Changes × Bool := ({ checks := [⟨.add, check⟩] }, true)

private theorem resendsValid_addBatch (u : Updater) (check : Pb.Check)
    (h : Valid permissiveEnv (Check.fromSM check)) :
    ResendsValid permissiveEnv u (addBatch check).1 (addBatch check).2 := by
  intro _ _ pre change post heq s _ _ _
  have hm : change ∈ pre ++ change :: post := List.mem_append_right _ List.mem_cons_self
  rw [← heq] at hm
  rw [List.mem_singleton.mp hm]
  exact h

private theorem resent_runs : ∃ u,
    Runs (fun u batch u' ↦ handleChangeBatch permissiveEnv u batch.1 batch.2 = .ok u' ∧
      ResendsValid permissiveEnv u batch.1 batch.2) {}
      [addBatch (pingCheck ⟨0x3ff0000000000000⟩ 60000),
        addBatch (pingCheck ⟨0x4000000000000000⟩ 120000)] u ∧
    (u.scrapers.lookup 7).isSome :=
  ⟨_, .cons ⟨rfl, resendsValid_addBatch _ _ rfl⟩
    (.cons ⟨rfl, resendsValid_addBatch _ _ rfl⟩ (.nil _)), rfl⟩

/-- A reconnection re-sends a running check with a new, valid configuration. -/
theorem allValid_resent_valid : ∃ u,
    Runs (fun u batch u' ↦ handleChangeBatch permissiveEnv u batch.1 batch.2 = .ok u' ∧
      ResendsValid permissiveEnv u batch.1 batch.2) {}
      [addBatch (pingCheck ⟨0x3ff0000000000000⟩ 60000),
        addBatch (pingCheck ⟨0x4000000000000000⟩ 120000)] u ∧
    (u.scrapers.lookup 7).isSome ∧ AllValid permissiveEnv u := by
  obtain ⟨u, hrun, hs⟩ := resent_runs
  exact ⟨u, hrun, hs, allValid_of_resendsValid permissiveEnv _ u hrun⟩

/-- A reconnection re-sends a running check with a frequency of zero, and it runs. -/
theorem not_allValid_resent_invalid : ∃ u,
    Runs (fun u batch u' ↦ handleChangeBatch permissiveEnv u batch.1 batch.2 = .ok u') {}
      [addBatch (pingCheck ⟨0x3ff0000000000000⟩ 60000),
        addBatch (pingCheck ⟨0x4000000000000000⟩ 0)] u ∧
    ¬ AllValid permissiveEnv u := by
  refine ⟨_, .cons rfl (.cons rfl (.nil _)), ?_⟩
  intro h
  have hv := h 7 _ rfl
  cases hv

end SMAgent.Checks
