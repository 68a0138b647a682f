import SMAgent.Base.Writes
import SMAgent.Checks.Effects

/-!
# The set of running checks

What the agent does with a batch when every check it is told to run can be run. A change has
its effect on the entry of its own check. Seen through the ids of the running checks, a full
first batch replaces the set, and any other batch is a log of writes to it.
-/

namespace SMAgent.Checks
open SMAgent.Base SMAgent.Pb SMAgent.Model

variable {env : Env} {u : Updater}

/-- The ids of the running checks. -/
def running (u : Updater) : Finset GlobalID := u.scrapers.keys.toFinset

/-- No feature flag filters a check, and the scraper factory succeeds. -/
structure Env.Grants (env : Env) : Prop where
  k6 : env.k6 = true
  factory : ∀ n check, env.factory n check = true

/-- The change removes a check, or brings a valid one. -/
def Runnable (env : Env) (change : CheckChange) : Prop :=
  change.operation = .delete ∨
    (change.operation = .add ∨ change.operation = .update) ∧
      validate env (Check.fromSM change.check) = .ok none

/-- The id that a change is about. -/
def CheckChange.id (change : CheckChange) : Int := change.check.id

/-- The change leaves its check running. -/
def CheckChange.starts (change : CheckChange) : Bool := change.operation ≠ .delete

/-- The effect of a change on the running set. -/
def applyChange : Finset GlobalID → CheckChange → Finset GlobalID :=
  write CheckChange.id CheckChange.starts

/-- The checks that a full first batch adds. -/
def added (changes : List CheckChange) : Finset GlobalID :=
  ((changes.filter fun c ↦ c.operation = .add).map CheckChange.id).toFinset

/-- The effect of a batch on the running set. -/
def applyBatch (s : Finset GlobalID) (changes : Changes) (firstBatch : Bool) : Finset GlobalID :=
  if firstBatch && !changes.isDeltaFirstBatch then added changes.checks
  else changes.checks.foldl applyChange s

/-- The effect of the messages of one connection. -/
def applyMessages (s : Finset GlobalID) : List Changes → Finset GlobalID
  | [] => s
  | first :: rest =>
    rest.foldl (fun s changes ↦ applyBatch s changes false) (applyBatch s first true)

/-- A message after the first is a log of writes. -/
theorem applyMessages_concat {sent : List Changes} (h : sent ≠ []) (s : Finset GlobalID)
    (message : Changes) : applyMessages s (sent ++ [message]) =
      message.checks.foldl applyChange (applyMessages s sent) := by
  cases sent with
  | nil => exact absurd rfl h
  | cons first rest =>
    rw [List.cons_append, applyMessages, List.foldl_concat]
    rfl

/-! ### One change -/

variable {check : Model.Check} {change : CheckChange}

/-- The entry of one check changes, and no other. -/
def Puts (u : Updater) (check : Model.Check) (u' : Updater) : Prop :=
  (∀ id, id ≠ check.globalID → u'.scrapers.lookup id = u.scrapers.lookup id) ∧
    (u'.scrapers.lookup check.globalID).map Scraper.check = some check

private theorem puts_start (u : Updater) (check : Model.Check) {type : CheckType}
    (h : check.type = .ok type) : Puts u check (u.start check type h) := by
  constructor
  · intro id hid
    rw [lookup_start, if_neg hid]
  · rw [lookup_start, if_pos rfl]
    rfl

private theorem puts_addAndStart (henv : env.Grants) (u : Updater)
    (hv : validate env check = .ok none) :
    ∃ u', addAndStartScraperWithLock env u check = .ok (u', none) ∧ Puts u check u' := by
  obtain ⟨type, htype⟩ := type_of_validate hv
  unfold addAndStartScraperWithLock
  split
  · next p hp => cases hp.symm.trans htype
  · next type' htype' =>
    rw [if_neg fun h ↦ Bool.false_ne_true (h.2.symm.trans henv.k6), if_pos (henv.factory _ _)]
    exact ⟨_, rfl, puts_start u check htype'⟩

private theorem puts_updateWithLock (henv : env.Grants) (u : Updater)
    (hv : validate env check = .ok none) :
    ∃ u', handleCheckUpdateWithLock env u check = .ok (u', none) ∧ Puts u check u' := by
  unfold handleCheckUpdateWithLock
  split
  · exact puts_addAndStart henv u hv
  · next s _ =>
    obtain ⟨u', hadd, hoff, hat⟩ := puts_addAndStart henv (u.stop check.globalID s) hv
    refine ⟨u', hadd, ?_, hat⟩
    intro id hid
    rw [hoff id hid, lookup_stop, if_neg hid]

/-- What becomes of an entry under a change of a delta batch. -/
structure DeltaEffect (change : CheckChange) (entry entry' : Option Scraper) : Prop where
  deleted : change.operation = .delete → entry' = none
  updated : change.operation = .update →
    entry'.map Scraper.check = some (Check.fromSM change.check)
  added : change.operation = .add → entry = none →
    entry'.map Scraper.check = some (Check.fromSM change.check)
  refused : change.operation = .add → entry ≠ none → entry' = entry

private theorem deltaEffect_delete (env : Env) (u : Updater) (c : Pb.Check) :
    ∃ u', deltaChange env u ⟨.delete, c⟩ = .ok u' ∧
      (∀ id, id ≠ c.id → u'.scrapers.lookup id = u.scrapers.lookup id) ∧
      u'.scrapers.lookup c.id = none := by
  rw [← Check.globalID_fromSM c]
  refine ⟨_, rfl, ?_⟩
  cases hs : u.scrapers.lookup (Check.fromSM c).globalID with
  | none =>
    simp only [handleCheckDelete, hs]
    exact ⟨fun _ _ ↦ trivial, trivial⟩
  | some s =>
    simp only [handleCheckDelete, hs]
    constructor
    · intro id hne
      exact AList.lookup_erase_ne hne
    · exact AList.lookup_erase _ _

private theorem deltaEffect_update (henv : env.Grants) (u : Updater) (c : Pb.Check)
    (hv : validate env (Check.fromSM c) = .ok none) :
    ∃ u', deltaChange env u ⟨.update, c⟩ = .ok u' ∧ Puts u (Check.fromSM c) u' := by
  obtain ⟨u', hupdate, hputs⟩ := puts_updateWithLock henv
    { u with changesCounter.update := u.changesCounter.update + 1 } hv
  refine ⟨u', ?_, hputs⟩
  simp only [deltaChange, handleCheckUpdate, hv, hupdate]
  rfl

private theorem deltaEffect_add (henv : env.Grants) (u : Updater) (c : Pb.Check)
    (hv : validate env (Check.fromSM c) = .ok none) :
    ∃ u', deltaChange env u ⟨.add, c⟩ = .ok u' ∧
      ((u.scrapers.lookup c.id = none ∧ Puts u (Check.fromSM c) u') ∨
        (u.scrapers.lookup c.id ≠ none ∧ u'.scrapers = u.scrapers)) := by
  rw [← Check.globalID_fromSM c]
  cases hs : u.scrapers.lookup (Check.fromSM c).globalID with
  | none =>
    obtain ⟨u', hadd, hputs⟩ := puts_addAndStart henv
      { u with changesCounter.add := u.changesCounter.add + 1 } hv
    refine ⟨u', ?_, .inl ⟨rfl, hputs⟩⟩
    simp only [deltaChange, handleCheckAdd, hv, hs, hadd]
    rfl
  | some s =>
    simp only [deltaChange, handleCheckAdd, hv, hs]
    exact ⟨_, rfl, .inr ⟨Option.some_ne_none s, rfl⟩⟩

/-- A runnable change of a delta has its effect on its own check only. -/
theorem deltaEffect_deltaChange (henv : env.Grants) (u : Updater) (hc : Runnable env change) :
    ∃ u', deltaChange env u change = .ok u' ∧
      (∀ id, id ≠ change.id → u'.scrapers.lookup id = u.scrapers.lookup id) ∧
      DeltaEffect change (u.scrapers.lookup change.id) (u'.scrapers.lookup change.id) := by
  obtain ⟨op, c⟩ := change
  have hid := Check.globalID_fromSM c
  rcases hc with rfl | ⟨rfl | rfl, hv⟩
  · obtain ⟨u', h, hoff, hat⟩ := deltaEffect_delete env u c
    exact ⟨u', h, hoff, fun _ ↦ hat, nofun, nofun, nofun⟩
  · obtain ⟨u', h, ⟨hnone, hputs⟩ | ⟨hsome, hsame⟩⟩ := deltaEffect_add henv u c hv
    · rw [Puts, hid] at hputs
      exact ⟨u', h, hputs.1, nofun, nofun, fun _ _ ↦ hputs.2, fun _ hne ↦ absurd hnone hne⟩
    · refine ⟨u', h, ?_⟩
      rw [hsame]
      exact ⟨fun _ _ ↦ rfl, nofun, nofun, fun _ hnone ↦ absurd hnone hsome, fun _ _ ↦ rfl⟩
  · obtain ⟨u', h, hputs⟩ := deltaEffect_update henv u c hv
    rw [Puts, hid] at hputs
    exact ⟨u', h, hputs.1, nofun, fun _ ↦ hputs.2, nofun, nofun⟩

/-- What becomes of an entry under an ADD of a full first batch. -/
def FullEffect (c : Pb.Check) (entry entry' : Option Scraper) : Prop :=
  (∃ s, entry = some s ∧ s.configVersion = (Check.fromSM c).configVersion ∧
      entry' = some s) ∨
    (∀ s, entry = some s → s.configVersion ≠ (Check.fromSM c).configVersion) ∧
      entry'.map Scraper.check = some (Check.fromSM c)

/-- An ADD of a full first batch has its effect on its own check only. -/
theorem fullEffect_initialAdd (henv : env.Grants) (u : Updater) {c : Pb.Check}
    (hv : validate env (Check.fromSM c) = .ok none) :
    ∃ u', handleInitialChangeAddWithLock env u (Check.fromSM c) = .ok (u', none) ∧
      (∀ id, id ≠ c.id → u'.scrapers.lookup id = u.scrapers.lookup id) ∧
      FullEffect c (u.scrapers.lookup c.id) (u'.scrapers.lookup c.id) := by
  unfold handleInitialChangeAddWithLock
  rw [Check.globalID_fromSM]
  cases hs : u.scrapers.lookup c.id with
  | none =>
    obtain ⟨u', hadd, hputs⟩ := puts_addAndStart henv
      { u with changesCounter.add := u.changesCounter.add + 1 } hv
    rw [Puts, Check.globalID_fromSM] at hputs
    refine ⟨u', ?_, hputs.1, .inr ⟨(fun s h ↦ by cases h), hputs.2⟩⟩
    simp only [hv, hadd]
  | some s =>
    dsimp only
    split
    · next heq => exact ⟨u, rfl, fun _ _ ↦ rfl, .inl ⟨s, rfl, heq, hs⟩⟩
    · next hne =>
      obtain ⟨u', hupdate, hputs⟩ := puts_updateWithLock henv u hv
      rw [Puts, Check.globalID_fromSM] at hputs
      refine ⟨u', hupdate, hputs.1, .inr ⟨?_, hputs.2⟩⟩
      intro s' h
      cases h
      exact hne

/-- The end of a full first batch removes what is not listed. -/
theorem lookup_removeUnlisted (newChecks ids : List GlobalID) (u : Updater)
    (id : GlobalID) : (ids.foldl (removeUnlisted newChecks) u).scrapers.lookup id =
      if id ∈ ids ∧ id ∉ newChecks then none else u.scrapers.lookup id := by
  induction ids generalizing u with
  | nil => simp
  | cons id' ids ih =>
    have hone : (removeUnlisted newChecks u id').scrapers.lookup id =
        if id = id' ∧ id ∉ newChecks then none else u.scrapers.lookup id := by
      unfold removeUnlisted
      by_cases hmem : id' ∈ newChecks
      · rw [if_pos hmem, if_neg]
        rintro ⟨rfl, hnot⟩
        exact hnot hmem
      · rw [if_neg hmem]
        by_cases hid : id = id'
        · subst hid
          rw [if_pos ⟨rfl, hmem⟩]
          split
          · next hnone => exact hnone
          · rw [lookup_stop, if_pos rfl]
        · rw [if_neg fun h ↦ hid h.1]
          split
          · rfl
          · rw [lookup_stop, if_neg hid]
    rw [List.foldl_cons, ih, hone]
    by_cases hid : id = id'
    · subst hid
      by_cases hmem : id ∈ newChecks
      · simp [hmem]
      · simp [hmem]
    · simp [hid]

/-! ### The running set -/

/-- A check runs if there is a scraper for it. -/
theorem mem_running {id : GlobalID} : id ∈ running u ↔ (u.scrapers.lookup id).isSome := by
  rw [running, List.mem_toFinset, AList.lookup_isSome]
  rfl

private theorem isSome_of_map {entry : Option Scraper} (h : entry.map Scraper.check = some check) :
    entry.isSome = true := by
  rw [← Option.isSome_map, h]
  rfl

private theorem DeltaEffect.isSome {entry entry' : Option Scraper}
    (h : DeltaEffect change entry entry') (hc : Runnable env change) :
    entry'.isSome = change.starts := by
  rcases hc with hop | ⟨hop | hop, -⟩ <;> simp only [CheckChange.starts, hop]
  · rw [h.deleted hop]
    rfl
  · cases entry with
    | none => exact isSome_of_map (h.added hop rfl)
    | some s =>
      rw [h.refused hop nofun]
      rfl
  · exact isSome_of_map (h.updated hop)

private theorem running_deltaChange (henv : env.Grants) (u : Updater) (hc : Runnable env change) :
    ∃ u', deltaChange env u change = .ok u' ∧ running u' = applyChange (running u) change := by
  obtain ⟨u', h, hoff, heffect⟩ := deltaEffect_deltaChange henv u hc
  refine ⟨u', h, ?_⟩
  ext id
  rw [applyChange, mem_write, mem_running, mem_running]
  split
  · next hid => rw [← hid, heffect.isSome hc]
  · next hid => rw [hoff id (Ne.symm hid)]

private theorem added_append (changes changes' : List CheckChange) :
    added (changes ++ changes') = added changes ∪ added changes' := by
  rw [added, List.filter_append, List.map_append, List.toFinset_append]
  rfl

-- All checks seen so far are running, and no others are in `newChecks`.
private theorem running_firstBatchChange (henv : env.Grants) {s : Updater × List GlobalID}
    (hc : Runnable env change) (hs : s.2.toFinset ⊆ running s.1) :
    ∃ s', firstBatchChange env s change = .ok s' ∧ s'.2.toFinset ⊆ running s'.1 ∧
      s'.2.toFinset = s.2.toFinset ∪ added [change] := by
  by_cases hop : change.operation = .add
  · have hv : validate env (Check.fromSM change.check) = .ok none := by
      rcases hc with hop' | ⟨-, hv⟩
      · cases hop.symm.trans hop'
      · exact hv
    obtain ⟨u', hadd, hoff, heffect⟩ := fullEffect_initialAdd henv s.1 hv
    refine ⟨(u', change.check.id :: s.2), ?_, ?_, ?_⟩
    · simp only [firstBatchChange, hop, hadd, Check.globalID_fromSM]
    · intro id hid
      rw [mem_running]
      by_cases heq : id = change.check.id
      · rw [heq]
        rcases heffect with ⟨s, -, -, hkept⟩ | ⟨-, hput⟩
        · rw [hkept]
          rfl
        · exact isSome_of_map hput
      · rw [hoff id heq, ← mem_running]
        exact hs (by simpa [heq] using hid)
    · ext id
      simp [added, hop, CheckChange.id]
  · refine ⟨s, ?_, hs, ?_⟩
    · unfold firstBatchChange
      split
      · next h => exact absurd h hop
      · rfl
    · simp [added, hop]

private theorem running_firstBatchLoop (henv : env.Grants) (changes : List CheckChange)
    (s : Updater × List GlobalID) (hc : ∀ change ∈ changes, Runnable env change)
    (hs : s.2.toFinset ⊆ running s.1) :
    ∃ s', changes.foldlM (firstBatchChange env) s = .ok s' ∧ s'.2.toFinset ⊆ running s'.1 ∧
      s'.2.toFinset = s.2.toFinset ∪ added changes := by
  induction changes generalizing s with
  | nil => exact ⟨s, rfl, hs, by simp [added]⟩
  | cons change changes ih =>
    obtain ⟨t, hstep, ht, htadd⟩ := running_firstBatchChange henv (hc change List.mem_cons_self) hs
    obtain ⟨s', hfold, hsub, heq⟩ := ih t (List.forall_mem_cons.mp hc).2 ht
    refine ⟨s', ?_, hsub, ?_⟩
    · rw [List.foldlM_cons, hstep]
      exact hfold
    · rw [heq, htadd, Finset.union_assoc, ← added_append]
      rfl

private theorem running_firstBatch (henv : env.Grants) (u : Updater) (changes : Changes)
    (hc : ∀ change ∈ changes.checks, Runnable env change) :
    ∃ u', handleFirstBatch env u changes = .ok u' ∧ running u' = added changes.checks := by
  obtain ⟨s, hfold, hsub, heq⟩ := running_firstBatchLoop henv changes.checks (u, []) hc
    (Finset.empty_subset _)
  refine ⟨s.1.scrapers.keys.foldl (removeUnlisted s.2) s.1, ?_, ?_⟩
  · rw [handleFirstBatch, hfold]
    rfl
  · have hadded : s.2.toFinset = added changes.checks := heq.trans (Finset.empty_union _)
    rw [← hadded]
    ext id
    rw [mem_running, lookup_removeUnlisted, List.mem_toFinset]
    split
    · next h => simp [h.2]
    · next h =>
      rw [← mem_running]
      constructor
      · intro hid
        by_contra hnot
        exact h ⟨List.mem_toFinset.mp hid, hnot⟩
      · intro hid
        exact hsub (List.mem_toFinset.mpr hid)

/-- A batch of runnable changes is handled, and has its effect on the running set. -/
theorem running_handleChangeBatch (henv : env.Grants) (u : Updater) (changes : Changes)
    (firstBatch : Bool) (hc : ∀ change ∈ changes.checks, Runnable env change) :
    ∃ u', handleChangeBatch env u changes firstBatch = .ok u' ∧
      running u' = applyBatch (running u) changes firstBatch := by
  unfold handleChangeBatch applyBatch
  split
  · exact running_firstBatch henv u changes hc
  · refine Runs.foldlM_simulates (R := fun u s ↦ running u = s) ?_ rfl
    rintro u _ change hm rfl
    exact running_deltaChange henv u (hc change hm)

private theorem running_laterBatches (henv : env.Grants) (rest : List Changes) (u : Updater)
    (hc : ∀ changes ∈ rest, ∀ change ∈ changes.checks, Runnable env change) :
    ∃ u', rest.foldlM (fun u changes ↦ handleChangeBatch env u changes false) u = .ok u' ∧
      running u' = rest.foldl (fun s changes ↦ applyBatch s changes false) (running u) := by
  apply Runs.foldlM_simulates (R := fun u s ↦ running u = s)
  · rintro u _ changes hm rfl
    exact running_handleChangeBatch henv u changes false (hc changes hm)
  · rfl

/-- The messages of a connection are handled one after the other. -/
theorem running_processChanges (henv : env.Grants) (u : Updater) (messages : List Changes)
    (hc : ∀ changes ∈ messages, ∀ change ∈ changes.checks, Runnable env change) :
    ∃ u', processChanges env u messages = .ok u' ∧
      running u' = applyMessages (running u) messages := by
  cases messages with
  | nil => exact ⟨u, rfl, rfl⟩
  | cons first rest =>
    obtain ⟨u', hfirst, hu'⟩ := running_handleChangeBatch henv u first true
      (hc first List.mem_cons_self)
    obtain ⟨u'', hrest, hu''⟩ := running_laterBatches henv rest u'
      (List.forall_mem_cons.mp hc).2
    refine ⟨u'', ?_, ?_⟩
    · rw [processChanges, hfirst]
      exact hrest
    · rw [hu'', hu']
      rfl

end SMAgent.Checks
