import SMAgent.Checks.Lifecycle
import SMAgent.Checks.Running

/-!
# Full and delta batches

The agent can be brought to a list of checks in two ways: by a full first batch, which adds
every check of the list and then stops what was not listed, or by a delta, which deletes,
updates and adds what differs, in any order. Both end with the same checks, and neither
touches a scraper whose check has not changed.
-/

namespace SMAgent.Checks
open SMAgent.Base SMAgent.Pb SMAgent.Model

variable {env : Env} {u u' : Updater} {target : List Pb.Check}

/-- The check runs with another version. -/
def Outdated (u : Updater) (check : Pb.Check) : Bool :=
  (u.scrapers.lookup check.id).any fun s ↦
    s.configVersion ≠ (Check.fromSM check).configVersion

/-- The check does not run. -/
def Missing (u : Updater) (check : Pb.Check) : Bool := (u.scrapers.lookup check.id).isNone

/-- The changes from what runs to the `target`, in some order: delete what is not listed, update
what has another version, add what does not run. A DELETE is known by its id. -/
def IsDelta (u : Updater) (target : List Pb.Check) (changes : List CheckChange) : Prop :=
  ∃ removed : List Pb.Check,
    (removed.map Pb.Check.id).Perm (u.scrapers.keys.filter (· ∉ target.map Pb.Check.id)) ∧
    changes.Perm (removed.map (CheckChange.mk .delete) ++
      (target.filter (Outdated u)).map (CheckChange.mk .update) ++
      (target.filter (Missing u)).map (CheckChange.mk .add))

/-- `u'` runs exactly the checks of the target, and those whose version has not changed by the
scraper they had in `u`. -/
structure Reconciled (u : Updater) (target : List Pb.Check) (u' : Updater) : Prop where
  listed : ∀ c ∈ target,
    (u'.scrapers.lookup c.id).map Scraper.check = some (Check.fromSM c)
  unlisted : ∀ id, id ∉ target.map Pb.Check.id → u'.scrapers.lookup id = none
  kept : ∀ c ∈ target, ∀ s, u.scrapers.lookup c.id = some s →
    s.configVersion = (Check.fromSM c).configVersion → u'.scrapers.lookup c.id = some s

/-! ### Batches -/

/-- A list of checks is what runs. -/
theorem map_check_of_listed
    (hlisted : ∀ c ∈ target, (u.scrapers.lookup c.id).map Scraper.check = some (Check.fromSM c))
    (hunlisted : ∀ id, id ∉ target.map Pb.Check.id → u.scrapers.lookup id = none)
    (id : GlobalID) : (u.scrapers.lookup id).map Scraper.check =
      (target.find? fun c ↦ c.id = id).map Check.fromSM := by
  cases hfind : target.find? fun c ↦ c.id = id with
  | none =>
    have hnot : id ∉ target.map Pb.Check.id := by
      intro hm
      obtain ⟨c, hc, rfl⟩ := List.mem_map.mp hm
      simpa using List.find?_eq_none.mp hfind c hc
    rw [hunlisted id hnot]
    rfl
  | some c =>
    have hid : c.id = id := by simpa using List.find?_some hfind
    rw [← hid, hlisted c (List.mem_of_find?_eq_some hfind)]
    rfl

/-- Both ways end in the same map. -/
theorem Reconciled.map_check (h : Reconciled u target u') (id : GlobalID) :
    (u'.scrapers.lookup id).map Scraper.check =
      (target.find? fun c ↦ c.id = id).map Check.fromSM :=
  map_check_of_listed h.listed h.unlisted id

private theorem entriesOf_eq (u : Updater) (type : CheckType) : entriesOf u type =
    u.scrapers.count fun s ↦ decide (s.check.type = .ok type) := by
  unfold entriesOf
  congr 1
  funext s
  rw [s.typed]
  simp

private theorem gauge_eq_of_map_check {u₁ u₂ : Updater} (h₁ : Reaches AnyCheck u u₁)
    (h₂ : Reaches AnyCheck u u₂)
    (h : ∀ id, (u₁.scrapers.lookup id).map Scraper.check =
      (u₂.scrapers.lookup id).map Scraper.check) (type : CheckType) :
    u₁.runningScrapers type = u₂.runningScrapers type := by
  obtain ⟨log₁, hlog₁⟩ := h₁
  obtain ⟨log₂, hlog₂⟩ := h₂
  have hcount : entriesOf u₁ type = entriesOf u₂ type := by
    rw [entriesOf_eq, entriesOf_eq]
    exact GoMap.count_congr Scraper.check h fun c ↦ decide (c.type = .ok type)
  have hgauge₁ := gauge_calls hlog₁ type
  have hgauge₂ := gauge_calls hlog₂ type
  omega

private theorem not_mem_stopped {log : List Event} (hu : LifeInv log u) (h : Reaches AnyCheck u u')
    {id : GlobalID} {s : Scraper} (hs : u'.scrapers.lookup id = some s) :
    s.handle ∉ u'.stopped := by
  obtain ⟨log', hlog'⟩ := h
  have hlife := (hu.calls hlog').toLifecycle
  have hnot := ((hlife.stored s.handle).mp ⟨id, s, hs, rfl⟩).2
  rw [← List.count_eq_zero, hlife.stops, List.count_eq_zero]
  exact hnot

/-- The changes delete what runs and is not listed, update what is outdated, and add what does not
run. -/
structure Brings (u : Updater) (target : List Pb.Check) (outdated : Pb.Check → Prop)
    (changes : List CheckChange) : Prop where
  nodup : (changes.map CheckChange.id).Nodup
  mem : ∀ change ∈ changes,
    change.operation = .delete ∧ change.id ∉ target.map Pb.Check.id ∨
    change.check ∈ target ∧ (change.operation = .update ∧ outdated change.check ∨
      change.operation = .add ∧ u.scrapers.lookup change.id = none)
  update : ∀ c ∈ target, outdated c → ⟨.update, c⟩ ∈ changes
  add : ∀ c ∈ target, u.scrapers.lookup c.id = none → ⟨.add, c⟩ ∈ changes
  delete : ∀ id ∈ u.scrapers, id ∉ target.map Pb.Check.id → id ∈ changes.map CheckChange.id

/-- Such changes bring the updater to the target, and keep what is not outdated. -/
theorem Brings.foldlM {outdated : Pb.Check → Prop} {changes : List CheckChange}
    (h : Brings u target outdated changes) (henv : env.Grants)
    (hids : (target.map Pb.Check.id).Nodup)
    (hvalid : ∀ c ∈ target, validate env (Check.fromSM c) = .ok none)
    (hcurrent : ∀ c ∈ target, ∀ s, u.scrapers.lookup c.id = some s → ¬ outdated c →
      s.check = Check.fromSM c) {v : Updater} (hv : v.scrapers = u.scrapers) :
    ∃ u', changes.foldlM (deltaChange env) v = .ok u' ∧
      (∀ c ∈ target, (u'.scrapers.lookup c.id).map Scraper.check = some (Check.fromSM c)) ∧
      (∀ id, id ∉ target.map Pb.Check.id → u'.scrapers.lookup id = none) ∧
      ∀ c ∈ target, ∀ s, u.scrapers.lookup c.id = some s → ¬ outdated c →
        u'.scrapers.lookup c.id = some s := by
  obtain ⟨u', hfold, hoff, hat⟩ := Runs.foldlM_pointwise (f := deltaChange env) CheckChange.id
    (fun s id ↦ s.scrapers.lookup id) DeltaEffect h.nodup
    (by
      intro s change hchange
      apply deltaEffect_deltaChange henv s
      rcases h.mem change hchange with ⟨hop, -⟩ | ⟨hc, ⟨hop, -⟩ | ⟨hop, -⟩⟩
      · exact .inl hop
      · exact .inr ⟨.inr hop, hvalid _ hc⟩
      · exact .inr ⟨.inl hop, hvalid _ hc⟩) v
  rw [hv] at hoff hat
  -- a check of the target that is up to date is in no change
  have hkept (c : Pb.Check) (hc : c ∈ target) (s : Scraper)
      (hs : u.scrapers.lookup c.id = some s) (hout : ¬ outdated c) :
      u'.scrapers.lookup c.id = some s := by
    rw [hoff, hs]
    intro hid
    obtain ⟨change, hchange, heq⟩ := List.mem_map.mp hid
    rcases h.mem change hchange with ⟨-, hnot⟩ | ⟨hc', hop⟩
    · rw [heq] at hnot
      exact hnot (List.mem_map_of_mem hc)
    · rw [List.inj_on_of_nodup_map hids hc' hc heq, heq, hs] at hop
      rcases hop with ⟨-, hout'⟩ | ⟨-, hnone⟩
      · exact hout hout'
      · cases hnone
  refine ⟨u', hfold, ?_, ?_, hkept⟩
  · intro c hc
    by_cases hout : outdated c
    · exact (hat _ (h.update c hc hout)).updated rfl
    · cases hs : u.scrapers.lookup c.id with
      | none => exact (hat _ (h.add c hc hs)).added rfl hs
      | some s => rw [hkept c hc s hs hout, Option.map_some, hcurrent c hc s hs hout]
  · intro id hid
    by_cases hchanged : id ∈ changes.map CheckChange.id
    · obtain ⟨change, hchange, rfl⟩ := List.mem_map.mp hchanged
      rcases h.mem change hchange with ⟨hop, -⟩ | ⟨hc, -⟩
      · exact (hat change hchange).deleted hop
      · exact absurd (List.mem_map_of_mem hc) hid
    · rw [hoff id hchanged, AList.lookup_eq_none]
      exact fun hkey ↦ hchanged (h.delete id hkey hid)

private theorem IsDelta.brings (hids : (target.map Pb.Check.id).Nodup) {changes : List CheckChange}
    (h : IsDelta u target changes) : Brings u target (Outdated u · = true) changes := by
  obtain ⟨removed, hremoved, hperm⟩ := h
  have hnot (id : Int) (hid : id ∈ removed.map Pb.Check.id) : id ∉ target.map Pb.Check.id :=
    of_decide_eq_true (List.mem_filter.mp (hremoved.mem_iff.mp hid)).2
  have hsub (p : Pb.Check → Bool) :
      ((target.filter p).map Pb.Check.id).Sublist (target.map Pb.Check.id) :=
    List.filter_sublist.map _
  refine ⟨?_, ?_, ?_, ?_, ?_⟩
  · rw [(hperm.map CheckChange.id).nodup_iff]
    simp only [List.map_append, List.map_map]
    rw [List.nodup_append', List.nodup_append']
    refine ⟨⟨?_, (hsub _).nodup hids, ?_⟩, (hsub _).nodup hids, ?_⟩
    · exact hremoved.nodup_iff.mpr (u.scrapers.nodupKeys.filter _)
    · exact fun id hid hmem ↦ hnot id hid ((hsub _).subset hmem)
    · intro id hid hmem
      rcases List.mem_append.mp hid with hid | hid
      · exact hnot id hid ((hsub _).subset hmem)
      · -- a check cannot run and not run
        obtain ⟨c, hc, rfl⟩ := List.mem_map.mp hid
        obtain ⟨c', hc', hcc : c'.id = c.id⟩ := List.mem_map.mp hmem
        have hout := (List.mem_filter.mp hc).2
        have hmissing := (List.mem_filter.mp hc').2
        rw [Missing, hcc, Option.isNone_iff_eq_none] at hmissing
        rw [Outdated, hmissing] at hout
        cases hout
  · intro change hchange
    rw [hperm.mem_iff] at hchange
    simp only [List.mem_append, List.mem_map, List.mem_filter] at hchange
    rcases hchange with (⟨c, hc, rfl⟩ | ⟨c, ⟨hc, hout⟩, rfl⟩) | ⟨c, ⟨hc, hmissing⟩, rfl⟩
    · exact .inl ⟨rfl, hnot c.id (List.mem_map_of_mem hc)⟩
    · exact .inr ⟨hc, .inl ⟨rfl, hout⟩⟩
    · exact .inr ⟨hc, .inr ⟨rfl, Option.isNone_iff_eq_none.mp hmissing⟩⟩
  · intro c hc hout
    simp [hperm.mem_iff, hc, hout]
  · intro c hc hnone
    simp [hperm.mem_iff, hc, Missing, hnone]
  · intro id hkey hid
    have hin := hremoved.mem_iff.mpr (List.mem_filter.mpr ⟨hkey, decide_eq_true hid⟩)
    obtain ⟨c, hc, rfl⟩ := List.mem_map.mp hin
    exact List.mem_map.mpr ⟨⟨.delete, c⟩, by simp [hperm.mem_iff, hc], rfl⟩

section Batches

variable (henv : env.Grants) (hids : (target.map Pb.Check.id).Nodup)
  (hvalid : ∀ c ∈ target, validate env (Check.fromSM c) = .ok none)
  (hversion : ∀ c ∈ target, ∀ s, u.scrapers.lookup c.id = some s →
    s.configVersion = (Check.fromSM c).configVersion → s.check = Check.fromSM c)

include henv hids hvalid hversion

/-- A full first batch brings the updater to the target. -/
theorem reconciled_full (changes : Changes)
    (hchecks : changes.checks = target.map (CheckChange.mk .add)) :
    ∃ u', handleFirstBatch env u changes = .ok u' ∧ Reconciled u target u' := by
  -- an entry, and whether its check was listed
  obtain ⟨⟨v, newChecks⟩, hfold, hoff, hat⟩ := Runs.foldlM_pointwise
    (f := firstBatchChange env) CheckChange.id
    (fun s id ↦ (s.1.scrapers.lookup id, decide (id ∈ s.2)))
    (fun change e e' ↦ FullEffect change.check e.1 e'.1 ∧ e'.2 = true)
    (show (changes.checks.map CheckChange.id).Nodup by rw [hchecks, List.map_map]; exact hids)
    (by
      intro s change hm
      rw [hchecks] at hm
      obtain ⟨c, hc, rfl⟩ := List.mem_map.mp hm
      obtain ⟨u', hadd, hoff, heffect⟩ := fullEffect_initialAdd henv s.1 (hvalid c hc)
      refine ⟨(u', c.id :: s.2), ?_, ?_, heffect, ?_⟩
      · simp only [firstBatchChange, hadd, Check.globalID_fromSM]
      · intro id hid
        have hid' : id ≠ c.id := hid
        simp [hoff id hid', hid']
      · simp [CheckChange.id])
    (u, [])
  have hkeys : changes.checks.map CheckChange.id = target.map Pb.Check.id := by
    rw [hchecks, List.map_map]
    rfl
  rw [hkeys] at hoff
  have heffect (c : Pb.Check) (hc : c ∈ target) :
      FullEffect c (u.scrapers.lookup c.id) (v.scrapers.lookup c.id) ∧ c.id ∈ newChecks := by
    have h := hat ⟨.add, c⟩ (by rw [hchecks]; exact List.mem_map_of_mem hc)
    exact ⟨h.1, of_decide_eq_true h.2⟩
  refine ⟨v.scrapers.keys.foldl (removeUnlisted newChecks) v, ?_, ?_, ?_, ?_⟩
  · rw [handleFirstBatch, hfold]
    rfl
  · intro c hc
    obtain ⟨heffect, hlisted⟩ := heffect c hc
    rw [lookup_removeUnlisted, if_neg fun h ↦ h.2 hlisted]
    rcases heffect with ⟨s, hs, heq, hs'⟩ | ⟨-, hs'⟩
    · rw [hs', Option.map_some, hversion c hc s hs heq]
    · exact hs'
  · intro id hid
    have hnot : id ∉ newChecks := by simpa using congrArg Prod.snd (hoff id hid)
    rw [lookup_removeUnlisted]
    split
    · rfl
    · next hkey =>
      rw [AList.lookup_eq_none]
      exact fun hmem ↦ hkey ⟨hmem, hnot⟩
  · intro c hc s hs heq
    obtain ⟨heffect, hlisted⟩ := heffect c hc
    rw [lookup_removeUnlisted, if_neg fun h ↦ h.2 hlisted]
    rcases heffect with ⟨s', hs', -, hkept⟩ | ⟨hne, -⟩
    · rw [hkept, ← hs', hs]
    · exact absurd heq (hne s hs)

private theorem reconciled_delta {changes : List CheckChange} (hdelta : IsDelta u target changes)
    {v : Updater} (hv : v.scrapers = u.scrapers) :
    ∃ u', changes.foldlM (deltaChange env) v = .ok u' ∧ Reconciled u target u' := by
  have huptodate {c : Pb.Check} {s : Scraper} (hs : u.scrapers.lookup c.id = some s) :
      ¬ Outdated u c = true ↔ s.configVersion = (Check.fromSM c).configVersion := by
    simp [Outdated, hs]
  obtain ⟨u', hfold, hlisted, hunlisted, hkept⟩ := (hdelta.brings hids).foldlM henv hids hvalid
    (fun c hc s hs hout ↦ hversion c hc s hs ((huptodate hs).mp hout)) hv
  exact ⟨u', hfold, hlisted, hunlisted, fun c hc s hs h ↦ hkept c hc s hs ((huptodate hs).mpr h)⟩

end Batches

/-- A full first batch and a delta bring the agent to the same checks, with the same gauge, and
both leave a scraper whose version has not changed alone. -/
theorem full_and_delta_agree (henv : env.Grants) {log : List Event} (hu : LifeInv log u)
    (hids : (target.map Pb.Check.id).Nodup)
    (hvalid : ∀ c ∈ target, validate env (Check.fromSM c) = .ok none)
    (hversion : ∀ c ∈ target, ∀ s, u.scrapers.lookup c.id = some s →
      s.configVersion = (Check.fromSM c).configVersion → s.check = Check.fromSM c)
    {full delta : Changes} {firstBatch : Bool}
    (hfull : full.checks = target.map (CheckChange.mk .add))
    (hflag : full.isDeltaFirstBatch = false) (hdelta : IsDelta u target delta.checks)
    (hflag' : firstBatch = false ∨ delta.isDeltaFirstBatch = true) :
    ∃ u₁ u₂, handleChangeBatch env u full true = .ok u₁ ∧
      handleChangeBatch env u delta firstBatch = .ok u₂ ∧
      (∀ id, (u₁.scrapers.lookup id).map Scraper.check =
        (target.find? fun c ↦ c.id = id).map Check.fromSM) ∧
      (∀ id, (u₂.scrapers.lookup id).map Scraper.check =
        (target.find? fun c ↦ c.id = id).map Check.fromSM) ∧
      (∀ type, u₁.runningScrapers type = u₂.runningScrapers type) ∧
      ∀ c ∈ target, ∀ s, u.scrapers.lookup c.id = some s →
        s.configVersion = (Check.fromSM c).configVersion →
        u₁.scrapers.lookup c.id = some s ∧ s.handle ∉ u₁.stopped ∧
          u₂.scrapers.lookup c.id = some s ∧ s.handle ∉ u₂.stopped := by
  obtain ⟨u₁, hfirst, hreconciled₁⟩ := reconciled_full henv hids hvalid hversion full hfull
  obtain ⟨u₂, hfold, hreconciled₂⟩ := reconciled_delta henv hids hvalid hversion hdelta
    (v := { u with tenantCh := u.tenantCh ++ delta.tenants }) rfl
  have hrun₁ : handleChangeBatch env u full true = .ok u₁ := by
    rw [handleChangeBatch, hflag]
    exact hfirst
  have hrun₂ : handleChangeBatch env u delta firstBatch = .ok u₂ := by
    rw [handleChangeBatch, if_neg]
    · exact hfold
    · rcases hflag' with h | h <;> simp [h]
  have hreaches₁ := reaches_handleChangeBatch hrun₁
  have hreaches₂ := reaches_handleChangeBatch hrun₂
  refine ⟨u₁, u₂, hrun₁, hrun₂, hreconciled₁.map_check, hreconciled₂.map_check, ?_, ?_⟩
  · apply gauge_eq_of_map_check hreaches₁ hreaches₂
    intro id
    rw [hreconciled₁.map_check, hreconciled₂.map_check]
  · intro c hc s hs heq
    have hs₁ := hreconciled₁.kept c hc s hs heq
    have hs₂ := hreconciled₂.kept c hc s hs heq
    exact ⟨hs₁, not_mem_stopped hu hreaches₁ hs₁, hs₂, not_mem_stopped hu hreaches₂ hs₂⟩

/-- A ping check with the given id. -/
def pingCheckOf (id : Int) : Pb.Check := { pingCheck ⟨0x3ff0000000000000⟩ 60000 with id }

/-- The updater after a full first batch with the checks 7 and 8. -/
def runningTwo : Updater :=
  { (({} : Updater).start (Check.fromSM (pingCheckOf 7)) .ping rfl).start
      (Check.fromSM (pingCheckOf 8)) .ping rfl with
    changesCounter := { add := 2 } }

/-- From the checks 7 and 8 to the checks 7 and 9. -/
theorem full_and_delta_agree_runningTwo : ∃ u₁ u₂,
    handleChangeBatch permissiveEnv runningTwo
      { checks := [⟨.add, pingCheckOf 7⟩, ⟨.add, pingCheckOf 9⟩] } true = .ok u₁ ∧
    handleChangeBatch permissiveEnv runningTwo
      { checks := [⟨.add, pingCheckOf 9⟩, ⟨.delete, pingCheckOf 8⟩] } false = .ok u₂ ∧
    ∀ type, u₁.runningScrapers type = u₂.runningScrapers type := by
  have hstart : Runs (BatchStep permissiveEnv) {}
      [({ checks := [⟨.add, pingCheckOf 7⟩, ⟨.add, pingCheckOf 8⟩] }, true)] runningTwo := by
    refine .cons ⟨?_, rfl⟩ (.nil _)
    intro change hm _
    simp only [List.mem_cons, List.not_mem_nil, or_false] at hm
    rcases hm with rfl | rfl <;> exact Nat.one_ne_zero
  obtain ⟨log, -, hlife⟩ := LifeInv.of_runs hstart
  have hdelta : IsDelta runningTwo [pingCheckOf 7, pingCheckOf 9]
      [⟨.add, pingCheckOf 9⟩, ⟨.delete, pingCheckOf 8⟩] :=
    ⟨[pingCheckOf 8], .of_eq rfl, .swap _ _ _⟩
  have hvalid : ∀ c ∈ [pingCheckOf 7, pingCheckOf 9],
      validate permissiveEnv (Check.fromSM c) = .ok none := by
    intro c hc
    simp only [List.mem_cons, List.not_mem_nil, or_false] at hc
    rcases hc with rfl | rfl <;> rfl
  have hversion : ∀ c ∈ [pingCheckOf 7, pingCheckOf 9], ∀ s,
      runningTwo.scrapers.lookup c.id = some s →
      s.configVersion = (Check.fromSM c).configVersion → s.check = Check.fromSM c := by
    intro c hc s hs _
    simp only [List.mem_cons, List.not_mem_nil, or_false] at hc
    rcases hc with rfl | rfl
    · cases hs
      rfl
    · cases hs
  obtain ⟨u₁, u₂, h₁, h₂, -, -, hgauge, -⟩ := @full_and_delta_agree permissiveEnv runningTwo
    [pingCheckOf 7, pingCheckOf 9] ⟨rfl, fun _ _ ↦ rfl⟩ log hlife (by decide) hvalid hversion
    { checks := [⟨.add, pingCheckOf 7⟩, ⟨.add, pingCheckOf 9⟩] }
    { checks := [⟨.add, pingCheckOf 9⟩, ⟨.delete, pingCheckOf 8⟩] } false rfl rfl hdelta (.inl rfl)
  exact ⟨u₁, u₂, h₁, h₂, hgauge⟩

end SMAgent.Checks
