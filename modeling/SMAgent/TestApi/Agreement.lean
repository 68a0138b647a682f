import SMAgent.TestApi.ChecksServer

/-!
# Server and agent agree on what runs

The server's set and the agent's running checks follow the same log of writes: the server
decides about each change whether the probe should run the check afterwards, and sends the
writes that make it so. The exception is the first message. The agent reads it as the whole set
unless it is marked as a delta, and when both sides start empty that message is an update.
-/

namespace SMAgent.TestApi
open SMAgent.Base SMAgent.Pb SMAgent.Checks SMAgent.Model

variable {env : Env} {probeID : Int} {checks : List Pb.Check} {u : Updater}

/-- After the updates and the messages they caused, both sides have the same ids. -/
def Agrees (env : Env) (probeID : Int) (checks : List Pb.Check) (u : Updater)
    (updates : List Changes) : Prop :=
  ∃ sent existing u', getChanges probeID checks (probeState u) updates = .ok (sent, existing) ∧
    processChanges env u sent = .ok u' ∧ existing = running u'

/-- Both sides agree after the initial exchange and after each update. -/
def AlwaysAgrees (env : Env) (probeID : Int) (checks : List Pb.Check) (u : Updater)
    (updates : List Changes) : Prop :=
  ∀ pre, pre <+: updates → Agrees env probeID checks u pre

/-- The probe should run the check after the change. -/
def wants (probeID : Int) (change : CheckChange) : Bool :=
  change.starts && change.check.enabled && decide (probeID ∈ change.check.probes)

/-- The update has something for a probe that runs nothing. -/
def concerns (probeID : Int) (update : Changes) : Bool :=
  update.tenants ≠ [] || update.checks.any (wants probeID)

/-- No check is wanted by one change of the update and not by the last one about it, unless the
update is marked as a delta. -/
def Settles (probeID : Int) (update : Changes) : Prop :=
  update.isDeltaFirstBatch = true ∨ ∀ change ∈ update.checks, wants probeID change →
    (lastWrite CheckChange.id change.id update.checks).any (wants probeID)

/-- If neither side starts with a check, the first update that is sent settles. -/
def Settled (probeID : Int) (checks : List Pb.Check) (u : Updater) (updates : List Changes) :
    Prop :=
  checks = [] → running u = ∅ → ∀ update, updates.find? (concerns probeID) = some update →
    Settles probeID update

/-! ### One change -/

/-- The ids of the wanted checks. -/
def wantedIds (probeID : Int) (changes : List CheckChange) : ChecksSet :=
  ((changes.filter (wants probeID)).map CheckChange.id).toFinset

/-- The effect of a change on the server's set. -/
def serverWrite (probeID : Int) : ChecksSet → CheckChange → ChecksSet :=
  write CheckChange.id (wants probeID)

/-- What is passed on of a change, for a server with the set `s`. -/
structure Passes (env : Env) (probeID : Int) (s : ChecksSet) (up change : CheckChange) : Prop where
  record : recordChange s change = serverWrite probeID s up
  replay : applyChange s change = serverWrite probeID s up
  runnable : Runnable env change
  same : change.id = up.id
  wanted : change.operation = .add → wants probeID up
  fresh : up.id ∉ s → change.operation = .add

variable {up : CheckChange}

private theorem serverWrite_of_wants (h : wants probeID up = true) (s : ChecksSet) :
    serverWrite probeID s up = insert up.check.id s :=
  if_pos h

private theorem serverWrite_of_not_wants (h : wants probeID up = false) (s : ChecksSet) :
    serverWrite probeID s up = s.erase up.check.id :=
  if_neg (by rw [h]; exact Bool.false_ne_true)

-- A deletion of a check that the probe runs.
private theorem passes_deletion {s : ChecksSet} (hw : wants probeID up = false)
    (hs : up.check.id ∈ s) : Passes env probeID s up (deletion up.check.id) where
  record := (serverWrite_of_not_wants hw s).symm
  replay := (serverWrite_of_not_wants hw s).symm
  runnable := .inl rfl
  same := rfl
  wanted := nofun
  fresh := fun h ↦ absurd hs h

-- A change of a check that the probe runs, passed on as it is.
private theorem passes_self {s : ChecksSet} (hup : Runnable env up)
    (hw : wants probeID up = up.starts) (hs : up.check.id ∈ s) : Passes env probeID s up up where
  record := by
    rcases hup with hop | ⟨hop | hop, -⟩
    · rw [serverWrite_of_not_wants (by simp [hw, CheckChange.starts, hop])]
      simp [recordChange, hop]
    · rw [serverWrite_of_wants (by simp [hw, CheckChange.starts, hop])]
      simp [recordChange, hop]
    · rw [serverWrite_of_wants (by simp [hw, CheckChange.starts, hop])]
      simp [recordChange, hop, Finset.insert_eq_of_mem hs]
  replay := by
    simp only [applyChange, serverWrite, write, hw]
  runnable := hup
  same := rfl
  wanted hop := by simp [hw, CheckChange.starts, hop]
  fresh h := absurd hs h

-- A check that the probe should run is added, whether it was added or updated.
private theorem passes_add {s : ChecksSet} (hw : wants probeID up = true)
    (hv : validate env (Check.fromSM up.check) = .ok none) :
    Passes env probeID s up ⟨.add, up.check⟩ where
  record := (serverWrite_of_wants hw s).symm
  replay := (serverWrite_of_wants hw s).symm
  runnable := .inr ⟨.inl rfl, hv⟩
  same := rfl
  wanted _ := hw
  fresh _ := rfl

private theorem filterUpdate_of_mem {s : ChecksSet} (hup : Runnable env up) (hs : up.check.id ∈ s) :
    ∃ change, filterUpdate probeID up s = .ok (some change) ∧ Passes env probeID s up change := by
  unfold filterUpdate
  split
  · next hlisted =>
    split
    · next henabled =>
      exact ⟨up, rfl, passes_self hup (by simp [wants, hlisted, henabled]) hs⟩
    · next hdisabled => exact ⟨_, rfl, passes_deletion (by simp [wants, hdisabled]) hs⟩
  · next hlisted =>
    have hw : wants probeID up = false := by simp [wants, hlisted]
    rcases hup with hop | ⟨hop | hop, hv⟩
    · rw [hop]
      refine ⟨up, rfl, passes_self (.inl hop) ?_ hs⟩
      simp [hw, CheckChange.starts, hop]
    · rw [hop]
      exact ⟨_, rfl, passes_deletion hw hs⟩
    · rw [hop]
      exact ⟨_, rfl, passes_deletion hw hs⟩

private theorem filterUpdate_of_notMem {s : ChecksSet} (hup : Runnable env up)
    (hs : up.check.id ∉ s) : (filterUpdate probeID up s = .ok none ∧ wants probeID up = false) ∨
    ∃ change, filterUpdate probeID up s = .ok (some change) ∧ Passes env probeID s up change := by
  unfold filterUpdate
  split
  · next hlisted =>
    split
    · next hdisabled => exact .inl ⟨rfl, by simp [wants, hdisabled]⟩
    · next henabled =>
      rw [Bool.not_eq_false] at henabled
      have hw : wants probeID up = up.starts := by simp [wants, hlisted, henabled]
      rcases hup with hop | ⟨hop | hop, hv⟩
      · rw [hop]
        exact .inl ⟨rfl, by simp [hw, CheckChange.starts, hop]⟩
      · rw [hop]
        have hadd : up = ⟨.add, up.check⟩ := by rw [← hop]
        refine .inr ⟨up, rfl, ?_⟩
        nth_rewrite 2 [hadd]
        exact passes_add (by simp [hw, CheckChange.starts, hop]) hv
      · rw [hop]
        exact .inr ⟨_, rfl, passes_add (by simp [hw, CheckChange.starts, hop]) hv⟩
  · next hlisted => exact .inl ⟨rfl, by simp [wants, hlisted]⟩

/-- A runnable change is skipped when it does not change the set, and passed on otherwise. -/
theorem filterUpdate_spec (s : ChecksSet) (hup : Runnable env up) :
    (filterUpdate probeID up s = .ok none ∧ wants probeID up = false ∧
      serverWrite probeID s up = s) ∨
    ∃ change, filterUpdate probeID up s = .ok (some change) ∧ Passes env probeID s up change := by
  by_cases hs : up.check.id ∈ s
  · exact .inr (filterUpdate_of_mem hup hs)
  · rcases filterUpdate_of_notMem hup hs with ⟨hf, hw⟩ | hpass
    · refine .inl ⟨hf, hw, ?_⟩
      rw [serverWrite_of_not_wants hw, Finset.erase_eq_of_notMem hs]
    · exact .inr hpass

/-! ### One update -/

/-- What the server makes of an update: the changes it passes on, `s.1`, and the set it has
then, `s.2`, from the set `start`. -/
structure Rewrites (env : Env) (probeID : Int) (start : ChecksSet) (ups : List CheckChange)
    (s : List CheckChange × ChecksSet) : Prop where
  existing : s.2 = ups.foldl (serverWrite probeID) start
  replay : s.1.foldl applyChange start = s.2
  runnable : ∀ change ∈ s.1, Runnable env change
  wanted : added s.1 ⊆ wantedIds probeID ups
  covered : wantedIds probeID ups ⊆ added s.1 ∪ start
  known : s.2 ⊆ added s.1 ∪ start
  first : start = ∅ → s.1 ≠ [] → (added s.1).Nonempty

private theorem mem_added_concat {changes : List CheckChange} {change : CheckChange} {id : Int} :
    id ∈ added (changes ++ [change]) ↔
      id ∈ added changes ∨ change.operation = .add ∧ id = change.id := by
  rw [added, mem_keys_filter_concat, decide_eq_true_eq]
  rfl

variable {ups : List CheckChange}

private theorem mem_wantedIds_concat {id : Int} : id ∈ wantedIds probeID (ups ++ [up]) ↔
      id ∈ wantedIds probeID ups ∨ wants probeID up = true ∧ id = up.id :=
  mem_keys_filter_concat CheckChange.id

private theorem rewrites_nil (start : ChecksSet) : Rewrites env probeID start [] ([], start) where
  existing := rfl
  replay := rfl
  runnable _ h := absurd h List.not_mem_nil
  wanted := by simp [added]
  covered := by simp [wantedIds]
  known _ h := Finset.mem_union_right _ h
  first _ h := absurd rfl h

variable {s : List CheckChange × ChecksSet} {start : ChecksSet}

private theorem rewrites_skip (h : Rewrites env probeID start ups s)
    (hw : wants probeID up = false) (hsame : serverWrite probeID s.2 up = s.2) :
    Rewrites env probeID start (ups ++ [up]) s := by
  have hids : wantedIds probeID (ups ++ [up]) = wantedIds probeID ups := by
    ext id
    simp [mem_wantedIds_concat, hw]
  refine ⟨?_, h.replay, h.runnable, ?_, ?_, h.known, h.first⟩
  · rw [List.foldl_concat, ← h.existing, hsame]
  · rw [hids]
    exact h.wanted
  · rw [hids]
    exact h.covered

-- A check that is passed on is added now, or the server knew it and it was added before.
private theorem Rewrites.mem_of_passes (h : Rewrites env probeID start ups s)
    {up change : CheckChange} (hp : Passes env probeID s.2 up change) :
    up.id ∈ added (s.1 ++ [change]) ∪ start := by
  rw [Finset.mem_union, mem_added_concat]
  by_cases hadd : change.operation = .add
  · exact .inl (.inr ⟨hadd, hp.same.symm⟩)
  · have hs : up.id ∈ s.2 := by
      by_contra hs
      exact hadd (hp.fresh hs)
    rcases Finset.mem_union.mp (h.known hs) with hs | hs
    · exact .inl (.inl hs)
    · exact .inr hs

-- From the empty set, the first change that is passed on is an addition.
private theorem Rewrites.nonempty_of_passes (h : Rewrites env probeID ∅ ups s)
    {up change : CheckChange} (hp : Passes env probeID s.2 up change) :
    (added (s.1 ++ [change])).Nonempty := by
  by_cases hs : s.1 = []
  · have hempty : s.2 = ∅ := by
      rw [← h.replay, hs]
      rfl
    have hadd := hp.fresh (by rw [hempty]; exact Finset.notMem_empty _)
    exact ⟨change.id, mem_added_concat.mpr (.inr ⟨hadd, rfl⟩)⟩
  · obtain ⟨id, hid⟩ := h.first rfl hs
    exact ⟨id, mem_added_concat.mpr (.inl hid)⟩

private theorem rewrites_pass (h : Rewrites env probeID start ups s) {up change : CheckChange}
    (hp : Passes env probeID s.2 up change) :
    Rewrites env probeID start (ups ++ [up]) (s.1 ++ [change], recordChange s.2 change) := by
  have hold : added s.1 ∪ start ⊆ added (s.1 ++ [change]) ∪ start := by
    apply Finset.union_subset_union_left
    intro id hid
    exact mem_added_concat.mpr (.inl hid)
  refine ⟨?_, ?_, ?_, ?_, ?_, ?_, ?_⟩
  · rw [List.foldl_concat, ← h.existing, hp.record]
  · rw [List.foldl_concat, h.replay, hp.replay, hp.record]
  · intro c hc
    rcases List.mem_append.mp hc with hc | hc
    · exact h.runnable c hc
    · rw [List.mem_singleton.mp hc]
      exact hp.runnable
  · intro id hid
    rw [mem_wantedIds_concat]
    rcases mem_added_concat.mp hid with hid | ⟨hadd, hid⟩
    · exact .inl (h.wanted hid)
    · exact .inr ⟨hp.wanted hadd, hid.trans hp.same⟩
  · intro id hid
    rcases mem_wantedIds_concat.mp hid with hid | ⟨-, rfl⟩
    · exact hold (h.covered hid)
    · exact h.mem_of_passes hp
  · intro id hid
    rw [hp.record, serverWrite, mem_write] at hid
    split at hid
    · next heq =>
      rw [← heq]
      exact h.mem_of_passes hp
    · exact hold (h.known hid)
  · rintro rfl _
    exact h.nonempty_of_passes hp

private theorem rewrites_updateChange (h : Rewrites env probeID start ups s)
    (hup : Runnable env up) : ∃ s', updateChange probeID s up = .ok s' ∧
      Rewrites env probeID start (ups ++ [up]) s' := by
  rcases filterUpdate_spec s.2 hup with ⟨hf, hw, hsame⟩ | ⟨change, hf, hp⟩
  · exact ⟨s, by rw [updateChange, hf]; rfl, rewrites_skip h hw hsame⟩
  · exact ⟨_, by rw [updateChange, hf]; rfl, rewrites_pass h hp⟩

private theorem rewrites_update (start : ChecksSet) (ups : List CheckChange)
    (hups : ∀ up ∈ ups, Runnable env up) :
    ∃ s, ups.foldlM (updateChange probeID) ([], start) = .ok s ∧
      Rewrites env probeID start ups s := by
  induction ups using List.reverseRecOn with
  | nil => exact ⟨_, rfl, rewrites_nil start⟩
  | append_singleton ups up ih =>
    obtain ⟨s, hs, hr⟩ := ih fun c hc ↦ hups c (List.mem_append_left _ hc)
    obtain ⟨s', hs', hr'⟩ := rewrites_updateChange hr
      (hups up (List.mem_concat_self))
    exact ⟨s', (Runs.foldlM_concat hs up).trans hs', hr'⟩

private theorem Rewrites.added_eq (h : Rewrites env probeID ∅ ups s) :
    added s.1 = wantedIds probeID ups := by
  apply Finset.Subset.antisymm h.wanted
  exact h.covered.trans (Finset.union_empty _).subset

private theorem Rewrites.eq_nil_iff (h : Rewrites env probeID ∅ ups s) :
    s.1 = [] ↔ ups.any (wants probeID) = false := by
  have hids : wantedIds probeID ups = ∅ ↔ ups.any (wants probeID) = false := by
    simp [wantedIds, List.filter_eq_nil_iff]
  rw [← hids, ← h.added_eq]
  constructor
  · intro hs
    rw [hs]
    rfl
  · intro hs
    by_contra hne
    exact (h.first rfl hne).ne_empty hs

private theorem Rewrites.eq_added_iff (h : Rewrites env probeID ∅ ups s) : s.2 = added s.1 ↔
      ∀ change ∈ ups, wants probeID change →
        (lastWrite CheckChange.id change.id ups).any (wants probeID) := by
  have hmem : ∀ id, id ∈ s.2 ↔ (lastWrite CheckChange.id id ups).any (wants probeID) := by
    intro id
    rw [h.existing]
    exact mem_foldl_write_empty _ _ ups id
  rw [h.added_eq]
  constructor
  · intro heq change hc hw
    rw [← hmem, heq]
    exact List.mem_toFinset.mpr (List.mem_map_of_mem (List.mem_filter.mpr ⟨hc, hw⟩))
  · intro hlast
    ext id
    constructor
    · intro hid
      obtain ⟨b, hb, hw⟩ := (Option.any_eq_true _ _).mp ((hmem id).mp hid)
      obtain ⟨hm, rfl⟩ := mem_of_lastWrite _ hb
      exact List.mem_toFinset.mpr (List.mem_map_of_mem (List.mem_filter.mpr ⟨hm, hw⟩))
    · intro hid
      obtain ⟨change, hc, rfl⟩ := List.mem_map.mp (List.mem_toFinset.mp hid)
      obtain ⟨hc, hw⟩ := List.mem_filter.mp hc
      exact (hmem _).mpr (hlast change hc hw)

variable {update : Changes}

section
variable (hup : ∀ up ∈ update.checks, Runnable env up)
include hup

private theorem processUpdate_spec (probeID : Int) (start : ChecksSet) :
    ∃ s, Rewrites env probeID start update.checks s ∧
      processUpdate probeID start update =
        .ok (if s.1 = [] ∧ update.tenants = [] then none else some { update with checks := s.1 },
          s.2) := by
  obtain ⟨s, hs, hr⟩ := rewrites_update start update.checks hup
  refine ⟨s, hr, ?_⟩
  rw [processUpdate, hs]
  rfl

private theorem serveUpdate_of_not_concerns (hc : concerns probeID update = false) :
    serveUpdate probeID ([], ∅) update = .ok ([], ∅) := by
  obtain ⟨s, hr, hs⟩ := processUpdate_spec hup probeID ∅
  rw [concerns, Bool.or_eq_false_iff] at hc
  have hnil := hr.eq_nil_iff.mpr hc.2
  have htenants : update.tenants = [] := by simpa using hc.1
  have hempty : s.2 = ∅ := by rw [← hr.replay, hnil]; rfl
  rw [serveUpdate, hs, if_pos ⟨hnil, htenants⟩, hempty]
  rfl

/-- The first update that is sent to an empty probe leaves both sides with the same checks
exactly if it settles. -/
theorem serveUpdate_first (hc : concerns probeID update = true) :
    ∃ message existing, serveUpdate probeID ([], ∅) update = .ok ([message], existing) ∧
      (∀ change ∈ message.checks, Runnable env change) ∧
      (existing = applyBatch ∅ message true ↔ Settles probeID update) := by
  obtain ⟨s, hr, hs⟩ := processUpdate_spec hup probeID ∅
  have hsent : ¬ (s.1 = [] ∧ update.tenants = []) := by
    rintro ⟨hnil, htenants⟩
    rw [concerns, hr.eq_nil_iff.mp hnil, htenants] at hc
    cases hc
  refine ⟨{ update with checks := s.1 }, s.2, ?_, hr.runnable, ?_⟩
  · rw [serveUpdate, hs, if_neg hsent]
    rfl
  · unfold applyBatch Settles
    cases update.isDeltaFirstBatch with
    | true => exact iff_of_true hr.replay.symm (.inl rfl)
    | false =>
      refine hr.eq_added_iff.trans ?_
      simp

/-- Every later update keeps the two sides in agreement. -/
theorem serveUpdate_later {sent : List Changes} {existing start : ChecksSet} (hsent : sent ≠ [])
    (hagree : existing = applyMessages start sent) :
    ∃ messages existing', serveUpdate probeID (sent, existing) update =
        .ok (sent ++ messages, existing') ∧
      (∀ message ∈ messages, ∀ change ∈ message.checks, Runnable env change) ∧
      existing' = applyMessages start (sent ++ messages) := by
  obtain ⟨s, hr, hs⟩ := processUpdate_spec hup probeID existing
  by_cases hnone : s.1 = [] ∧ update.tenants = []
  · refine ⟨[], s.2, ?_, nofun, ?_⟩
    · rw [serveUpdate, hs, if_pos hnone]
      rfl
    · rw [List.append_nil, ← hagree, ← hr.replay, hnone.1]
      rfl
  · refine ⟨[{ update with checks := s.1 }], s.2, ?_, ?_, ?_⟩
    · rw [serveUpdate, hs, if_neg hnone]
      rfl
    · exact List.forall_mem_singleton.mpr hr.runnable
    · rw [applyMessages_concat hsent, ← hagree]
      exact hr.replay.symm

end

/-! ### The initial exchange -/

private theorem isSome_knownChecks (st : ProbeState) (m : GoMap Int Float64) (id : Int) :
    ((st.foldl (fun m e ↦ m.insert e.id e.lastModified) m).lookup id).isSome ↔
      (m.lookup id).isSome ∨ ∃ e ∈ st, e.id = id := by
  induction st generalizing m with
  | nil => simp
  | cons e st ih =>
    rw [List.foldl_cons, ih, GoMap.lookup_insert_eq]
    split
    · next h => simp [h]
    · next h => simp [Ne.symm h]

private theorem mem_probeState (u : Updater) (id : Int) :
    (∃ e ∈ probeState u, e.id = id) ↔ id ∈ running u := by
  rw [mem_running, Option.isSome_iff_exists]
  constructor
  · rintro ⟨e, he, rfl⟩
    obtain ⟨⟨id, s⟩, hs, rfl⟩ := List.mem_map.mp he
    exact ⟨s, (GoMap.mem_range _ _ _).mp hs⟩
  · rintro ⟨s, hs⟩
    exact ⟨_, List.mem_map_of_mem ((GoMap.mem_range _ _ _).mpr hs), rfl⟩

private theorem known_iff (u : Updater) (id : Int) :
    ((knownChecks (probeState u)).lookup id).isSome ↔ id ∈ running u := by
  rw [knownChecks, isSome_knownChecks, ← mem_probeState]
  simp

/-- The agent reports no check exactly if it runs none. -/
theorem probeState_eq_nil (u : Updater) : probeState u = [] ↔ running u = ∅ := by
  rw [Finset.eq_empty_iff_forall_notMem, List.eq_nil_iff_forall_not_mem]
  constructor
  · intro h id hid
    obtain ⟨e, he, -⟩ := (mem_probeState u id).mpr hid
    exact h e he
  · intro h e he
    exact h e.id ((mem_probeState u e.id).mp ⟨e, he, rfl⟩)

/-- The changes for the checks of the database. -/
def initialAdds (checks : List Pb.Check) (u : Updater) : List CheckChange :=
  checks.filterMap (initialChange (knownChecks (probeState u)))

/-- The changes for the checks that should not run. -/
def initialDeletes (checks : List Pb.Check) (u : Updater) : List CheckChange :=
  ((knownChecks (probeState u)).keys.filter fun id ↦ id ∉ enabledChecks checks).map deletion

/-- The enabled checks. -/
theorem mem_enabledChecks {id : Int} :
    id ∈ enabledChecks checks ↔ ∃ check ∈ checks, check.enabled = true ∧ check.id = id := by
  simp [enabledChecks, and_assoc]

private theorem initialAdds_cases {change : CheckChange} (h : change ∈ initialAdds checks u) :
    change.check ∈ checks ∧ change.check.enabled = true ∧
      (change.operation = .add ∨ change.operation = .update ∧ change.id ∈ running u) := by
  obtain ⟨check, hcheck, hc⟩ := List.mem_filterMap.mp h
  unfold initialChange at hc
  split at hc
  · next henabled =>
    split at hc
    · cases hc
      exact ⟨hcheck, henabled, .inl rfl⟩
    · next modTime hknown =>
      split at hc
      · cases hc
      · cases hc
        refine ⟨hcheck, henabled, .inr ⟨rfl, ?_⟩⟩
        rw [← known_iff, CheckChange.id, hknown]
        rfl
  · cases hc

private theorem initialAdds_covers {id : Int} (h : id ∈ enabledChecks checks) :
    id ∈ running u ∨ ∃ change ∈ initialAdds checks u, change.id = id := by
  obtain ⟨check, hcheck, henabled, rfl⟩ := mem_enabledChecks.mp h
  cases hknown : (knownChecks (probeState u)).lookup check.id with
  | some modTime =>
    refine .inl ((known_iff u check.id).mp ?_)
    rw [hknown]
    rfl
  | none =>
    refine .inr ⟨⟨.add, check⟩, List.mem_filterMap.mpr ⟨check, hcheck, ?_⟩, rfl⟩
    simp [initialChange, henabled, hknown]

private theorem mem_initialDeletes {id : Int} :
    id ∈ ((initialDeletes checks u).map CheckChange.id).toFinset ↔
      id ∈ running u ∧ id ∉ enabledChecks checks := by
  rw [List.mem_toFinset, ← known_iff, AList.lookup_isSome, AList.mem_keys]
  constructor
  · intro h
    obtain ⟨change, hc, rfl⟩ := List.mem_map.mp h
    obtain ⟨id, hid, rfl⟩ := List.mem_map.mp hc
    obtain ⟨hknown, hn⟩ := List.mem_filter.mp hid
    exact ⟨hknown, of_decide_eq_true hn⟩
  · rintro ⟨hknown, hn⟩
    exact List.mem_map.mpr ⟨deletion id, List.mem_map_of_mem
      (List.mem_filter.mpr ⟨hknown, decide_eq_true hn⟩), rfl⟩

variable (hchecks : ∀ check ∈ checks, check.enabled = true →
  validate env (Check.fromSM check) = .ok none)

include hchecks in
/-- The first message has runnable changes only. -/
theorem runnable_initial :
    ∀ change ∈ initialAdds checks u ++ initialDeletes checks u, Runnable env change := by
  intro change hc
  rcases List.mem_append.mp hc with hc | hc
  · obtain ⟨hcheck, henabled, hop⟩ := initialAdds_cases hc
    exact .inr ⟨hop.imp_right And.left, hchecks _ hcheck henabled⟩
  · obtain ⟨id, -, rfl⟩ := List.mem_map.mp hc
    exact .inl rfl

private theorem initial_delta (checks : List Pb.Check) (u : Updater) :
    (initialAdds checks u ++ initialDeletes checks u).foldl applyChange (running u) =
      enabledChecks checks := by
  have hlive : ∀ change ∈ initialAdds checks u, change.starts = true := by
    intro change hc
    rcases (initialAdds_cases hc).2.2 with hop | ⟨hop, -⟩
    · simp [CheckChange.starts, hop]
    · simp [CheckChange.starts, hop]
  have hdead : ∀ change ∈ initialDeletes checks u, change.starts = false := by
    intro change hc
    obtain ⟨id, -, rfl⟩ := List.mem_map.mp hc
    rfl
  rw [List.foldl_append, applyChange, foldl_write_of_live _ _ _ _ hlive,
    foldl_write_of_dead _ _ _ _ hdead]
  ext id
  rw [Finset.mem_sdiff, mem_initialDeletes, Finset.mem_union, List.mem_toFinset, List.mem_map]
  constructor
  · rintro ⟨hid | ⟨change, hc, rfl⟩, hn⟩
    · by_contra hnot
      exact hn ⟨hid, hnot⟩
    · obtain ⟨hcheck, henabled, -⟩ := initialAdds_cases hc
      exact mem_enabledChecks.mpr ⟨_, hcheck, henabled, rfl⟩
  · intro hid
    exact ⟨initialAdds_covers hid, fun h ↦ h.2 hid⟩

private theorem initial_full (h : running u = ∅) :
    added (initialAdds checks u ++ initialDeletes checks u) = enabledChecks checks := by
  ext id
  rw [added, List.mem_toFinset, List.mem_map]
  constructor
  · rintro ⟨change, hc, rfl⟩
    obtain ⟨hc, hop⟩ := List.mem_filter.mp hc
    rcases List.mem_append.mp hc with hc | hc
    · obtain ⟨hcheck, henabled, -⟩ := initialAdds_cases hc
      exact mem_enabledChecks.mpr ⟨_, hcheck, henabled, rfl⟩
    · obtain ⟨id, -, rfl⟩ := List.mem_map.mp hc
      cases hop
  · intro hid
    rcases initialAdds_covers (u := u) hid with hid | ⟨change, hc, rfl⟩
    · rw [h] at hid
      cases hid
    · have hop : change.operation = .add := by
        rcases (initialAdds_cases hc).2.2 with hop | ⟨-, hid⟩
        · exact hop
        · rw [h] at hid
          cases hid
      exact ⟨change, List.mem_filter.mpr ⟨List.mem_append_left _ hc, decide_eq_true hop⟩, rfl⟩

include hchecks in
/-- The initial message brings the agent to the server's set; without one both are empty. -/
theorem sendInitialChanges_spec :
    checks = [] ∧ running u = ∅ ∧ sendInitialChanges checks (probeState u) = (none, ∅) ∨
    ∃ message, sendInitialChanges checks (probeState u) = (some message, enabledChecks checks) ∧
      (∀ change ∈ message.checks, Runnable env change) ∧
      enabledChecks checks = applyBatch (running u) message true := by
  unfold sendInitialChanges
  split
  · next h => exact .inl ⟨h.1, (probeState_eq_nil u).mp h.2, rfl⟩
  · refine .inr ⟨_, rfl, runnable_initial hchecks, ?_⟩
    unfold applyBatch
    by_cases hu : running u = ∅
    · rw [if_pos (by simp [(probeState_eq_nil u).mpr hu])]
      exact (initial_full hu).symm
    · rw [if_neg (by simp [probeState_eq_nil, hu])]
      exact (initial_delta checks u).symm

/-! ### Runs -/

/-- The server after some updates, as long as the first sent update settled. -/
structure Served (env : Env) (probeID : Int) (checks : List Pb.Check) (u : Updater)
    (updates : List Changes) (s : List Changes × ChecksSet) : Prop where
  runnable : ∀ message ∈ s.1, ∀ change ∈ message.checks, Runnable env change
  agreed : s.2 = applyMessages (running u) s.1
  quiet : s.1 = [] → checks = [] ∧ running u = ∅ ∧ updates.find? (concerns probeID) = none

include hchecks in
private theorem served_initial :
    ∃ s, getChanges probeID checks (probeState u) [] = .ok s ∧
      Served env probeID checks u [] s := by
  refine ⟨_, rfl, ?_⟩
  rcases sendInitialChanges_spec hchecks with ⟨hc, hu, h⟩ | ⟨message, h, hr, hagree⟩
  · rw [h]
    exact ⟨nofun, hu.symm, fun _ ↦ ⟨hc, hu, rfl⟩⟩
  · rw [h]
    exact ⟨List.forall_mem_singleton.mpr hr, hagree, nofun⟩

private theorem Settled.of_append {updates rest : List Changes}
    (h : Settled probeID checks u (updates ++ rest)) : Settled probeID checks u updates := by
  intro hc hu update hfind
  apply h hc hu update
  rw [List.find?_append, hfind]
  rfl

variable {updates : List Changes}

private theorem served_first (hc : checks = []) (hu : running u = ∅)
    (hquiet : updates.find? (concerns probeID) = none)
    (hup : ∀ up ∈ update.checks, Runnable env up)
    (hset : Settled probeID checks u (updates ++ [update])) :
    ∃ s', serveUpdate probeID ([], ∅) update = .ok s' ∧
      Served env probeID checks u (updates ++ [update]) s' := by
  have hfind : (updates ++ [update]).find? (concerns probeID) =
      [update].find? (concerns probeID) := by
    rw [List.find?_append, hquiet]
    rfl
  cases hconcerns : concerns probeID update with
  | false =>
    refine ⟨_, serveUpdate_of_not_concerns hup hconcerns, nofun, hu.symm, fun _ ↦ ⟨hc, hu, ?_⟩⟩
    rw [hfind, List.find?_cons, hconcerns]
    rfl
  | true =>
    obtain ⟨message, existing, hs, hr, hiff⟩ := serveUpdate_first hup hconcerns
    have hsettles : Settles probeID update := by
      apply hset hc hu update
      rw [hfind, List.find?_cons, hconcerns]
    refine ⟨_, hs, List.forall_mem_singleton.mpr hr, ?_, nofun⟩
    rw [hu]
    exact hiff.mpr hsettles

private theorem served_step {s : List Changes × ChecksSet}
    (h : Served env probeID checks u updates s) (hup : ∀ up ∈ update.checks, Runnable env up)
    (hset : Settled probeID checks u (updates ++ [update])) :
    ∃ s', serveUpdate probeID s update = .ok s' ∧
      Served env probeID checks u (updates ++ [update]) s' := by
  obtain ⟨sent, existing⟩ := s
  by_cases hsent : sent = []
  · obtain ⟨hc, hu, hquiet⟩ := h.quiet hsent
    have hempty : existing = ∅ := by
      refine h.agreed.trans ?_
      rw [hsent]
      exact hu
    rw [hsent, hempty]
    exact served_first hc hu hquiet hup hset
  · obtain ⟨messages, existing', hs, hr, hagree⟩ := serveUpdate_later hup hsent h.agreed
    refine ⟨_, hs, ?_, hagree, ?_⟩
    · intro m hm
      rcases List.mem_append.mp hm with hm | hm
      · exact h.runnable m hm
      · exact hr m hm
    · intro hnil
      exact absurd (List.append_eq_nil_iff.mp hnil).1 hsent

include hchecks in
private theorem served_run (updates : List Changes)
    (hupdates : ∀ update ∈ updates, ∀ up ∈ update.checks, Runnable env up)
    (hset : Settled probeID checks u updates) :
    ∃ s, getChanges probeID checks (probeState u) updates = .ok s ∧
      Served env probeID checks u updates s := by
  induction updates using List.reverseRecOn with
  | nil => exact served_initial hchecks
  | append_singleton updates update ih =>
    obtain ⟨s, hs, hserved⟩ := ih (fun m hm ↦ hupdates m (List.mem_append_left _ hm))
      hset.of_append
    obtain ⟨s', hs', hserved'⟩ := served_step hserved
      (hupdates update (List.mem_concat_self)) hset
    exact ⟨s', (Runs.foldlM_concat hs update).trans hs', hserved'⟩

private theorem quiet_run (probeID : Int) (updates : List Changes) (hc : checks = [])
    (hu : running u = ∅)
    (hupdates : ∀ update ∈ updates, ∀ up ∈ update.checks, Runnable env up)
    (hquiet : ∀ update ∈ updates, concerns probeID update = false) :
    getChanges probeID checks (probeState u) updates = .ok ([], ∅) := by
  induction updates using List.reverseRecOn with
  | nil =>
    rw [getChanges, sendInitialChanges, if_pos ⟨hc, (probeState_eq_nil u).mpr hu⟩]
    rfl
  | append_singleton updates update ih =>
    have hlast : update ∈ updates ++ [update] := List.mem_concat_self
    have hs := ih (fun m hm ↦ hupdates m (List.mem_append_left _ hm))
      (fun m hm ↦ hquiet m (List.mem_append_left _ hm))
    exact (Runs.foldlM_concat hs update).trans
      (serveUpdate_of_not_concerns (hupdates update hlast) (hquiet update hlast))

private theorem agrees_iff (henv : env.Grants) {s : List Changes × ChecksSet}
    (hs : getChanges probeID checks (probeState u) updates = .ok s)
    (hr : ∀ message ∈ s.1, ∀ change ∈ message.checks, Runnable env change) :
    Agrees env probeID checks u updates ↔ s.2 = applyMessages (running u) s.1 := by
  obtain ⟨u', hu', hrunning⟩ := running_processChanges henv u s.1 hr
  constructor
  · rintro ⟨sent, existing, u'', hs', hu'', hagree⟩
    obtain rfl := Except.ok.inj (hs.symm.trans hs')
    obtain rfl := Except.ok.inj (hu'.symm.trans hu'')
    exact hagree.trans hrunning
  · intro hagree
    exact ⟨s.1, s.2, u', hs, hu', hagree.trans hrunning.symm⟩

/-- The two sides agree throughout exactly if the first update sent to a probe that started
empty settles. -/
theorem alwaysAgrees_iff_settled (env : Env) (probeID : Int) (checks : List Pb.Check)
    (u : Updater) (updates : List Changes) (henv : env.Grants)
    (hchecks : ∀ check ∈ checks, check.enabled = true →
      validate env (Check.fromSM check) = .ok none)
    (hupdates : ∀ update ∈ updates, ∀ up ∈ update.checks, Runnable env up) :
    AlwaysAgrees env probeID checks u updates ↔ Settled probeID checks u updates := by
  constructor
  · intro hall hc hu update hfind
    obtain ⟨hconcerns, quiet, rest, rfl, hquiet⟩ := List.find?_eq_some_iff_append.mp hfind
    have hs := quiet_run probeID quiet hc hu
      (fun m hm ↦ hupdates m (List.mem_append_left _ hm))
      (fun m hm ↦ by simpa using hquiet m hm)
    obtain ⟨message, existing, hfirst, hr, hiff⟩ := serveUpdate_first
      (hupdates update (List.mem_append_right _ List.mem_cons_self)) hconcerns
    have hagree := hall (quiet ++ [update]) ⟨rest, by simp⟩
    rw [agrees_iff henv ((Runs.foldlM_concat hs update).trans hfirst)
      (List.forall_mem_singleton.mpr hr), hu] at hagree
    exact hiff.mp hagree
  · rintro hset pre ⟨rest, rfl⟩
    obtain ⟨s, hs, hserved⟩ := served_run hchecks pre
      (fun m hm ↦ hupdates m (List.mem_append_left _ hm)) hset.of_append
    exact (agrees_iff henv hs hserved.runnable).mpr hserved.agreed

private theorem permissiveEnv_grants : permissiveEnv.Grants := ⟨rfl, fun _ _ ↦ rfl⟩

/-- A check is added to an empty probe. -/
def addition : CheckChange := ⟨.add, pingCheck ⟨0x3ff0000000000000⟩ 60000⟩

private theorem runnable_addition : Runnable permissiveEnv addition := .inr ⟨.inl rfl, rfl⟩

private theorem runnable_deletion (id : Int) : Runnable env (deletion id) := .inl rfl

/-- A check that is added in one update and deleted in the next. -/
def addedThenDeleted : List Changes :=
  [{ checks := [addition] }, { checks := [deletion 7] }]

/-- The two sides agree when the addition and the deletion come in two updates. -/
theorem alwaysAgrees_addedThenDeleted :
    (∀ update ∈ addedThenDeleted, ∀ up ∈ update.checks, Runnable permissiveEnv up) ∧
      Settled 1 [] {} addedThenDeleted ∧ AlwaysAgrees permissiveEnv 1 [] {} addedThenDeleted := by
  have hr : ∀ update ∈ addedThenDeleted, ∀ up ∈ update.checks, Runnable permissiveEnv up := by
    simp [addedThenDeleted, runnable_addition, runnable_deletion]
  have hset : Settled 1 [] {} addedThenDeleted := by
    intro _ _ update hfind
    cases hfind
    exact .inr (by decide)
  exact ⟨hr, hset, (alwaysAgrees_iff_settled permissiveEnv 1 [] {} addedThenDeleted
    permissiveEnv_grants (fun _ h ↦ absurd h List.not_mem_nil) hr).mpr hset⟩

/-- A check that is added and deleted in one update. -/
def addedAndDeleted : List Changes := [{ checks := [addition, deletion 7] }]

/-- The agent drops the deletion from its first message and goes on running the check. -/
theorem not_alwaysAgrees_addedAndDeleted :
    permissiveEnv.Grants ∧
      (∀ update ∈ addedAndDeleted, ∀ up ∈ update.checks, Runnable permissiveEnv up) ∧
      ¬ AlwaysAgrees permissiveEnv 1 [] {} addedAndDeleted := by
  refine ⟨permissiveEnv_grants, ?_, ?_⟩
  · simp [addedAndDeleted, runnable_addition, runnable_deletion]
  · intro h
    obtain ⟨sent, existing, u', hs, hu', hagree⟩ := h addedAndDeleted (List.prefix_refl _)
    cases hs
    cases hu'
    revert hagree
    decide

end SMAgent.TestApi
