import SMAgent.Checks.Reconcile
import SMAgent.TestApi.Agreement

/-!
# The agent after a reconnection

The agent reports the checks that it runs, each with the time it was last modified, and the
server answers with the difference to the database. The agent may have missed any part of
what happened since: a connection can be lost after any message, and the database can change
while there is none. The first message of the next connection makes up for all of it, as long as
a check is never changed without its modification time.
-/

namespace SMAgent.TestApi
open SMAgent.Base SMAgent.Pb SMAgent.Checks SMAgent.Model

/-- The server's checks of the probe, and the agent. -/
structure World where
  checks : List Pb.Check := []
  agent : Updater := {}

/-- The checks of the probe change in the database, or the agent connects, some updates
arrive at the server, and the connection is lost after some of the messages. -/
inductive Turn where
  | store (checks : List Pb.Check)
  | connect (updates : List Changes) (delivered : Nat)

/-- One turn. -/
inductive Turn.Step (env : Env) (probeID : Int) : World → Turn → World → Prop where
  | store (w : World) (checks : List Pb.Check) :
    Step env probeID w (.store checks) { w with checks }
  | connect {w : World} {updates : List Changes} {delivered : Nat} {sent : List Changes}
      {existing : ChecksSet} {agent : Updater}
      (hsent : getChanges probeID w.checks (probeState w.agent) updates = .ok (sent, existing))
      (hagent : processChanges env w.agent (sent.take delivered) = .ok agent) :
      Step env probeID w (.connect updates delivered) { w with agent }

/-- The checks that come up in a turn. -/
def Turn.checks : Turn → List Pb.Check
  | .store checks => checks
  | .connect updates _ => updates.flatMap fun update ↦ update.checks.map CheckChange.check

/-- The check may run. -/
def Checkable (env : Env) (check : Pb.Check) : Prop :=
  validate env (Check.fromSM check) = .ok none

/-- No two stored checks have the same id, those that are enabled are valid, and the updates
bring valid checks. -/
def Turn.WellFormed (env : Env) : Turn → Prop
  | .store checks => (checks.map Pb.Check.id).Nodup ∧
      ∀ check ∈ checks, check.enabled = true → Checkable env check
  | .connect updates _ => ∀ update ∈ updates, ∀ up ∈ update.checks, Runnable env up

/-- A check is not changed without its modification time. -/
def Versioned (env : Env) (seen : List Pb.Check) : Prop :=
  ∀ c ∈ seen, ∀ c' ∈ seen, Checkable env c → Checkable env c' → c.id = c'.id →
    c.modified.eq c'.modified = true → c = c'

/-- The checks of the database that should run. -/
def enabled (checks : List Pb.Check) : List Pb.Check := checks.filter fun check ↦ check.enabled

/-- `u'` runs exactly the enabled checks, and those whose modification time has not changed by
the scraper they had in `u`. -/
structure Resynced (checks : List Pb.Check) (u u' : Updater) : Prop where
  mirrors : ∀ id, (u'.scrapers.lookup id).map Scraper.check =
    ((enabled checks).find? fun c ↦ c.id = id).map Check.fromSM
  kept : ∀ c ∈ enabled checks, ∀ s, u.scrapers.lookup c.id = some s →
    s.check.modified.eq c.modified = true → u'.scrapers.lookup c.id = some s

variable {env : Env} {probeID : Int} {seen checks : List Pb.Check} {u u' : Updater}

/-! ### What runs was once sent -/

/-- The check came up before. -/
def FromSeen (env : Env) (seen : List Pb.Check) (check : Model.Check) : Prop :=
  ∃ c ∈ seen, Checkable env c ∧ check = Check.fromSM c

/-- Every running check came up before, and runs under its id. -/
def Knows (env : Env) (seen : List Pb.Check) (u : Updater) : Prop :=
  ∀ id s, u.scrapers.lookup id = some s → FromSeen env seen s.check ∧ s.check.globalID = id

/-- A change to a check that came up, or a deletion. -/
def KnownChange (seen : List Pb.Check) (change : CheckChange) : Prop :=
  change.check ∈ seen ∨ change = deletion change.id

/-- A change that may be sent. -/
def Sendable (env : Env) (seen : List Pb.Check) (change : CheckChange) : Prop :=
  Runnable env change ∧ KnownChange seen change

private theorem Knows.of_calls {log : List Event} (h : Calls (FromSeen env seen) u log u')
    (hu : Knows env seen u) : Knows env seen u' := by
  induction h with
  | keep hscrapers =>
    intro id s hs
    rw [hscrapers] at hs
    exact hu id s hs
  | start h hP _ =>
    intro id s hs
    rw [lookup_start] at hs
    split at hs
    · next hid =>
      obtain rfl := Option.some.inj hs
      exact ⟨hP, hid.symm⟩
    · exact hu id s hs
  | stop _ =>
    intro id s hs
    rw [lookup_stop] at hs
    split at hs
    · cases hs
    · exact hu id s hs
  | trans _ _ ih ih' => exact ih' (ih hu)

private theorem Knows.of_reaches (h : Reaches (FromSeen env seen) u u') (hu : Knows env seen u) :
    Knows env seen u' := by
  obtain ⟨log, hlog⟩ := h
  exact hu.of_calls hlog

private theorem not_checkable_deletion (id : Int) : ¬ Checkable env (deletion id).check := by
  intro h
  obtain ⟨type, htype⟩ := type_of_validate h
  cases htype

private theorem KnownChange.fromSeen {change : CheckChange} (hc : KnownChange seen change)
    (hv : Checkable env change.check) : FromSeen env seen (Check.fromSM change.check) := by
  rcases hc with hc | hc
  · exact ⟨_, hc, hv, rfl⟩
  · rw [hc] at hv
    exact absurd hv (not_checkable_deletion _)

private theorem Knows.handleChangeBatch {changes : Changes} {firstBatch : Bool}
    (hchanges : ∀ change ∈ changes.checks, Sendable env seen change)
    (h : Checks.handleChangeBatch env u changes firstBatch = .ok u') (hu : Knows env seen u) :
    Knows env seen u' := by
  unfold Checks.handleChangeBatch at h
  split at h
  · obtain ⟨s, hfold, rfl⟩ := except_map_eq_ok.mp h
    have hs : Knows env seen s.1 := by
      apply Runs.foldlM_invariant hfold _ hu
      intro s change hmem s' hs hstep
      obtain ⟨hrunnable, hknown⟩ := hchanges change hmem
      refine hs.of_reaches (reaches_firstBatchChange hknown.fromSeen ?_ hstep)
      intro hop _ _ _
      rcases hrunnable with hdelete | ⟨-, hv⟩
      · rw [hop] at hdelete
        cases hdelete
      · exact hknown.fromSeen hv
    exact hs.of_reaches (reaches_removeUnlisted _ _ _)
  · apply Runs.foldlM_invariant h _ hu
    intro u change hmem u' hu hstep
    exact hu.of_reaches (reaches_deltaChange (hchanges change hmem).2.fromSeen hstep)

private theorem Knows.processChanges {messages : List Changes}
    (hmessages : ∀ message ∈ messages, ∀ change ∈ message.checks, Sendable env seen change)
    (h : Checks.processChanges env u messages = .ok u') (hu : Knows env seen u) :
    Knows env seen u' := by
  cases messages with
  | nil =>
    obtain rfl := Except.ok.inj h
    exact hu
  | cons first rest =>
    obtain ⟨v, hfirst, hrest⟩ := except_bind_eq_ok.mp h
    have hv := hu.handleChangeBatch (hmessages first List.mem_cons_self) hfirst
    apply Runs.foldlM_invariant hrest _ hv
    intro u message hmem u' hu hstep
    exact hu.handleChangeBatch (hmessages message (List.mem_cons_of_mem _ hmem)) hstep

/-! ### What the server sends -/

private theorem knownChange_filterUpdate {up change : CheckChange} {s : ChecksSet}
    (h : filterUpdate probeID up s = .ok (some change)) :
    change.check = up.check ∨ change = deletion change.id := by
  unfold filterUpdate at h
  repeat' split at h
  all_goals first
    | cases h; exact .inl rfl
    | cases h; exact .inr rfl
    | cases h

private theorem sendable_filterUpdate {up change : CheckChange} {s : ChecksSet}
    (hup : Runnable env up) (hseen : up.check ∈ seen)
    (h : filterUpdate probeID up s = .ok (some change)) : Sendable env seen change := by
  constructor
  · rcases filterUpdate_spec s hup with ⟨hnone, -⟩ | ⟨change', hsome, hpasses⟩
    · cases h.symm.trans hnone
    · cases h.symm.trans hsome
      exact hpasses.runnable
  · apply (knownChange_filterUpdate h).imp_left
    intro heq
    rw [heq]
    exact hseen

private theorem sendable_updateChange {up : CheckChange} {s s' : List CheckChange × ChecksSet}
    (hup : Runnable env up) (hseen : up.check ∈ seen)
    (hs : ∀ change ∈ s.1, Sendable env seen change) (h : updateChange probeID s up = .ok s') :
    ∀ change ∈ s'.1, Sendable env seen change := by
  obtain ⟨r, hfilter, rfl⟩ := except_map_eq_ok.mp h
  cases r with
  | none => exact hs
  | some change =>
    have hnew := sendable_filterUpdate hup hseen hfilter
    exact List.forall_mem_append.mpr ⟨hs, List.forall_mem_singleton.mpr hnew⟩

private theorem sendable_processUpdate {update message : Changes} {s s' : ChecksSet}
    (hups : ∀ up ∈ update.checks, Runnable env up ∧ up.check ∈ seen)
    (h : processUpdate probeID s update = .ok (some message, s')) :
    ∀ change ∈ message.checks, Sendable env seen change := by
  obtain ⟨t, hfold, hmessage⟩ := except_map_eq_ok.mp h
  have ht : ∀ change ∈ t.1, Sendable env seen change := by
    apply Runs.foldlM_invariant hfold
    · intro t up hmem t' ht hstep
      exact sendable_updateChange (hups up hmem).1 (hups up hmem).2 ht hstep
    · exact fun _ h ↦ absurd h List.not_mem_nil
  replace hmessage := congrArg Prod.fst hmessage
  dsimp only at hmessage
  split at hmessage
  · cases hmessage
  · cases hmessage
    exact ht

private theorem sendable_initial (hchecks : checks ⊆ seen)
    (hvalid : ∀ c ∈ checks, c.enabled = true → Checkable env c) :
    ∀ message ∈ (sendInitialChanges checks (probeState u)).1.toList,
      ∀ change ∈ message.checks, Sendable env seen change := by
  intro message hm change hc
  unfold sendInitialChanges at hm
  split at hm
  · cases hm
  · rw [Option.mem_toList] at hm
    cases hm
    refine ⟨runnable_initial hvalid change hc, ?_⟩
    rcases List.mem_append.mp hc with hc | hc
    · obtain ⟨check, hcheck, heq⟩ := List.mem_filterMap.mp hc
      unfold initialChange at heq
      repeat' split at heq
      all_goals first
        | cases heq; exact .inl (hchecks hcheck)
        | cases heq
    · obtain ⟨id, -, rfl⟩ := List.mem_map.mp hc
      exact .inr rfl

private theorem sendable_getChanges {updates : List Changes} {s : List Changes × ChecksSet}
    (hchecks : checks ⊆ seen) (hvalid : ∀ c ∈ checks, c.enabled = true → Checkable env c)
    (hupdates : ∀ update ∈ updates, ∀ up ∈ update.checks, Runnable env up ∧ up.check ∈ seen)
    (h : getChanges probeID checks (probeState u) updates = .ok s) :
    ∀ message ∈ s.1, ∀ change ∈ message.checks, Sendable env seen change := by
  apply Runs.foldlM_invariant h _ (sendable_initial hchecks hvalid)
  intro s update hmem s' hs hstep message hm
  obtain ⟨⟨sent, existing⟩, hprocess, rfl⟩ := except_map_eq_ok.mp hstep
  rcases List.mem_append.mp hm with hm | hm
  · exact hs message hm
  · rw [Option.mem_toList] at hm
    cases hm
    exact sendable_processUpdate (hupdates update hmem) hprocess

/-! ### The first message -/

private theorem lookup_knownChecks (u : Updater) (id : GlobalID) :
    (knownChecks (probeState u)).lookup id =
      (u.scrapers.lookup id).map fun s ↦ s.check.modified := by
  have hkeys : ((probeState u).map EntityRef.id).Nodup := by
    rw [probeState, List.map_map]
    exact u.scrapers.nodup_keys_range
  rw [knownChecks, GoMap.lookup_foldl_insert_of_nodup EntityRef.id EntityRef.lastModified hkeys]
  cases hs : u.scrapers.lookup id with
  | none =>
    have hnone : ((probeState u).find? fun e ↦ e.id = id) = none := by
      rw [List.find?_eq_none]
      intro e he heq
      obtain ⟨⟨k, s⟩, hmem, rfl⟩ := List.mem_map.mp he
      rw [GoMap.mem_range] at hmem
      rw [← of_decide_eq_true heq, hmem] at hs
      cases hs
    rw [hnone]
    rfl
  | some s =>
    have hmem : (⟨id, s.check.modified⟩ : EntityRef) ∈ probeState u :=
      List.mem_map_of_mem ((GoMap.mem_range _ _ _).mpr hs)
    cases hfind : (probeState u).find? fun e ↦ e.id = id with
    | none =>
      rw [List.find?_eq_none] at hfind
      exact absurd (decide_eq_true rfl) (hfind _ hmem)
    | some e =>
      have hid : e.id = id := by simpa using List.find?_some hfind
      have heq := List.inj_on_of_nodup_map hkeys (List.mem_of_find?_eq_some hfind) hmem hid
      rw [heq]
      rfl

private theorem mem_enabled {c : Pb.Check} :
    c ∈ enabled checks ↔ c ∈ checks ∧ c.enabled = true := by
  rw [enabled, List.mem_filter]

private theorem mem_initialAdds {change : CheckChange} : change ∈ initialAdds checks u ↔
    change.check ∈ enabled checks ∧
      match u.scrapers.lookup change.id with
      | none => change.operation = .add
      | some s => change.operation = .update ∧
          s.check.modified.eq change.check.modified = false := by
  rw [initialAdds, List.mem_filterMap, mem_enabled]
  obtain ⟨op, c⟩ := change
  constructor
  · rintro ⟨c', hc, h⟩
    unfold initialChange at h
    rw [lookup_knownChecks] at h
    split at h
    · next henabled =>
      cases hs : u.scrapers.lookup c'.id with
      | none =>
        rw [hs] at h
        cases h
        refine ⟨⟨hc, henabled⟩, ?_⟩
        simp only [CheckChange.id, hs]
      | some s =>
        rw [hs] at h
        simp only [Option.map_some] at h
        split at h
        · cases h
        · next hne =>
          cases h
          refine ⟨⟨hc, henabled⟩, ?_⟩
          simp only [CheckChange.id, hs]
          simpa using hne
    · cases h
  · rintro ⟨⟨hc, henabled⟩, h⟩
    refine ⟨c, hc, ?_⟩
    simp only [CheckChange.id] at h
    unfold initialChange
    rw [lookup_knownChecks, if_pos henabled]
    cases hs : u.scrapers.lookup c.id with
    | none =>
      rw [hs] at h
      simp only at h
      rw [h]
      rfl
    | some s =>
      rw [hs] at h
      simp only at h
      simp [h.1, h.2]

private theorem mem_initialDeletes_iff {change : CheckChange} : change ∈ initialDeletes checks u ↔
    change = deletion change.id ∧ (u.scrapers.lookup change.id).isSome ∧
      change.id ∉ (enabled checks).map Pb.Check.id := by
  have hmem (id : Int) : id ∈ (knownChecks (probeState u)).keys ↔
      (u.scrapers.lookup id).isSome := by
    rw [← AList.mem_keys, ← AList.lookup_isSome, lookup_knownChecks, Option.isSome_map]
  have henabled (id : Int) : id ∈ enabledChecks checks ↔ id ∈ (enabled checks).map Pb.Check.id := by
    rw [enabledChecks, List.mem_toFinset]
    rfl
  rw [initialDeletes, List.mem_map]
  constructor
  · rintro ⟨id, hid, rfl⟩
    rw [List.mem_filter, hmem, decide_eq_true_eq, henabled] at hid
    exact ⟨rfl, hid⟩
  · rintro ⟨heq, hid⟩
    refine ⟨change.id, ?_, heq.symm⟩
    rw [List.mem_filter, hmem, decide_eq_true_eq, henabled]
    exact hid

private theorem initialChange_eq_some {known : GoMap Int Float64} {c : Pb.Check}
    {change : CheckChange} (h : initialChange known c = some change) :
    change.id = c.id ∧ c.enabled = true := by
  unfold initialChange at h
  split at h
  · next henabled =>
    refine ⟨?_, henabled⟩
    split at h
    · cases h
      rfl
    · split at h
      · cases h
      · cases h
        rfl
  · cases h

private theorem ids_initialAdds (checks : List Pb.Check) (u : Updater) :
    ((initialAdds checks u).map CheckChange.id).Sublist ((enabled checks).map Pb.Check.id) := by
  induction checks with
  | nil => exact List.Sublist.refl _
  | cons c checks ih =>
    cases hc : initialChange (knownChecks (probeState u)) c with
    | none =>
      rw [initialAdds, List.filterMap_cons_none hc, enabled, List.filter_cons]
      split
      · exact ih.cons _
      · exact ih
    | some change =>
      obtain ⟨hid, henabled⟩ := initialChange_eq_some hc
      rw [initialAdds, List.filterMap_cons_some hc, enabled, List.filter_cons_of_pos henabled,
        List.map_cons, List.map_cons, hid]
      exact ih.cons_cons _

private theorem nodup_initial (hids : (checks.map Pb.Check.id).Nodup) (u : Updater) :
    ((initialAdds checks u ++ initialDeletes checks u).map CheckChange.id).Nodup := by
  have hadds := ids_initialAdds checks u
  have henabled : ((enabled checks).map Pb.Check.id).Nodup :=
    (List.filter_sublist.map _).nodup hids
  rw [List.map_append, List.nodup_append']
  refine ⟨hadds.nodup henabled, ?_, ?_⟩
  · rw [initialDeletes, List.map_map, show CheckChange.id ∘ deletion = id from rfl, List.map_id]
    exact (AList.keys_nodup _).filter _
  · intro id hadd hdelete
    obtain ⟨change, hchange, rfl⟩ := List.mem_map.mp hdelete
    exact (mem_initialDeletes_iff.mp hchange).2.2 (hadds.subset hadd)

/-- The first message of a connection. -/
def firstMessage (checks : List Pb.Check) (u : Updater) : Changes where
  checks := initialAdds checks u ++ initialDeletes checks u
  isDeltaFirstBatch := probeState u ≠ []

private theorem sendInitialChanges_eq (checks : List Pb.Check) (u : Updater) :
    (sendInitialChanges checks (probeState u)).1 =
      if checks = [] ∧ probeState u = [] then none else some (firstMessage checks u) := by
  unfold sendInitialChanges
  split
  · rfl
  · rfl

private theorem processChanges_singleton (env : Env) (u : Updater) (message : Changes) :
    processChanges env u [message] = handleChangeBatch env u message true := by
  rw [processChanges]
  exact bind_pure _

section Exchange

variable (henv : env.Grants) (hids : (checks.map Pb.Check.id).Nodup)
  (hvalid : ∀ c ∈ checks, c.enabled = true → Checkable env c) (hsub : checks ⊆ seen)
  (hversion : Versioned env seen) (hu : Knows env seen u)

include henv hids hvalid hsub hversion hu

-- A running check whose modification time is that of the database is the one of the database.
omit henv hids in
private theorem check_of_eq {c : Pb.Check} (hc : c ∈ enabled checks) {s : Scraper}
    (hs : u.scrapers.lookup c.id = some s) (heq : s.check.modified.eq c.modified = true) :
    s.check = Check.fromSM c := by
  obtain ⟨hmem, henabled⟩ := mem_enabled.mp hc
  obtain ⟨⟨c', hc', hvalid', hcheck⟩, hid⟩ := hu c.id s hs
  rw [hcheck, Check.globalID_fromSM] at hid
  rw [hcheck] at heq
  rw [hcheck, hversion c' hc' c (hsub hmem) hvalid' (hvalid c hmem henabled) hid heq]

private theorem resynced_delta {v : Updater} (hv : v.scrapers = u.scrapers) :
    ∃ u', (initialAdds checks u ++ initialDeletes checks u).foldlM (deltaChange env) v = .ok u' ∧
      Resynced checks u u' := by
  have hbrings : Brings u (enabled checks) (fun c ↦ ∃ s, u.scrapers.lookup c.id = some s ∧
      s.check.modified.eq c.modified = false) (initialAdds checks u ++ initialDeletes checks u) :=
    { nodup := nodup_initial hids u
      mem := by
        intro change hchange
        rcases List.mem_append.mp hchange with hadd | hdelete
        · obtain ⟨hcheck, hop⟩ := mem_initialAdds.mp hadd
          refine .inr ⟨hcheck, ?_⟩
          split at hop
          · next hs => exact .inr ⟨hop, hs⟩
          · next s hs => exact .inl ⟨hop.1, s, hs, hop.2⟩
        · obtain ⟨heq, -, hnot⟩ := mem_initialDeletes_iff.mp hdelete
          exact .inl ⟨by rw [heq]; rfl, hnot⟩
      update := by
        rintro c hc ⟨s, hs, hout⟩
        refine List.mem_append_left _ (mem_initialAdds.mpr ⟨hc, ?_⟩)
        simp [CheckChange.id, hs, hout]
      add := by
        intro c hc hnone
        refine List.mem_append_left _ (mem_initialAdds.mpr ⟨hc, ?_⟩)
        simp [CheckChange.id, hnone]
      delete := by
        intro id hkey hid
        refine List.mem_map.mpr ⟨deletion id, List.mem_append_right _ ?_, rfl⟩
        exact mem_initialDeletes_iff.mpr ⟨rfl, AList.lookup_isSome.mpr hkey, hid⟩ }
  obtain ⟨u', hfold, hlisted, hunlisted, hkept⟩ := hbrings.foldlM henv
    ((List.filter_sublist.map _).nodup hids)
    (fun c hc ↦ hvalid c (mem_enabled.mp hc).1 (mem_enabled.mp hc).2)
    (fun c hc s hs hout ↦ check_of_eq hvalid hsub hversion hu hc hs (by simpa [hs] using hout)) hv
  exact ⟨u', hfold, map_check_of_listed hlisted hunlisted,
    fun c hc s hs heq ↦ hkept c hc s hs (by simp [hs, heq])⟩

omit hvalid hsub hversion hu hids henv in
private theorem initial_of_empty (hempty : ∀ id, u.scrapers.lookup id = none) :
    initialAdds checks u ++ initialDeletes checks u =
      (enabled checks).map (CheckChange.mk .add) := by
  have hdeletes : initialDeletes checks u = [] := by
    rw [List.eq_nil_iff_forall_not_mem]
    intro change hchange
    have hrunning := (mem_initialDeletes_iff.mp hchange).2.1
    rw [hempty] at hrunning
    cases hrunning
  rw [hdeletes, List.append_nil, initialAdds, enabled, ← List.filterMap_eq_map,
    List.filterMap_filter]
  apply List.filterMap_congr
  intro c _
  unfold initialChange
  rw [lookup_knownChecks, hempty]
  rfl

/-- The first message of a connection brings the agent to the database. -/
theorem resynced_initial :
    ∃ u', processChanges env u (sendInitialChanges checks (probeState u)).1.toList = .ok u' ∧
      Resynced checks u u' := by
  have hprobe : probeState u = [] ↔ ∀ id, u.scrapers.lookup id = none := by
    rw [probeState_eq_nil, Finset.eq_empty_iff_forall_notMem]
    simp only [mem_running, Option.not_isSome_iff_eq_none]
  rw [sendInitialChanges_eq]
  split
  · next hquiet =>
    refine ⟨u, rfl, ?_, fun c hc ↦ ?_⟩
    · intro id
      rw [hprobe.mp hquiet.2, hquiet.1]
      rfl
    · rw [hquiet.1] at hc
      cases hc
  · rw [Option.toList_some, processChanges_singleton, handleChangeBatch]
    by_cases hempty : probeState u = []
    · have hnone := hprobe.mp hempty
      obtain ⟨u', hfirst, hreconciled⟩ := reconciled_full (u := u) henv
        ((List.filter_sublist.map _).nodup hids : ((enabled checks).map Pb.Check.id).Nodup)
        (fun c hc ↦ hvalid c (mem_enabled.mp hc).1 (mem_enabled.mp hc).2)
        (fun c _ s hs ↦ by rw [hnone] at hs; cases hs)
        (firstMessage checks u) (initial_of_empty hnone)
      rw [if_pos (by simp [firstMessage, hempty])]
      refine ⟨u', hfirst, hreconciled.map_check, fun c _ s hs ↦ ?_⟩
      rw [hnone] at hs
      cases hs
    · rw [if_neg (by simp [firstMessage, hempty])]
      exact resynced_delta henv hids hvalid hsub hversion hu rfl

end Exchange

/-! ### Runs -/

/-- What holds of the server and the agent between two turns. -/
structure Coherent (env : Env) (seen : List Pb.Check) (w : World) : Prop where
  nodup : (w.checks.map Pb.Check.id).Nodup
  valid : ∀ c ∈ w.checks, c.enabled = true → Checkable env c
  stored : w.checks ⊆ seen
  knows : Knows env seen w.agent

private theorem Coherent.step {w w' : World} {turn : Turn} (hwell : turn.WellFormed env)
    (hseen : turn.checks ⊆ seen) (h : Turn.Step env probeID w turn w') (hw : Coherent env seen w) :
    Coherent env seen w' := by
  cases h with
  | store checks => exact ⟨hwell.1, hwell.2, hseen, hw.knows⟩
  | connect hsent hagent =>
    refine ⟨hw.nodup, hw.valid, hw.stored, Knows.processChanges ?_ hagent hw.knows⟩
    intro message hm
    refine sendable_getChanges hw.stored hw.valid ?_ hsent message (List.mem_of_mem_take hm)
    intro update hupdate up hup
    refine ⟨hwell update hupdate up hup, hseen ?_⟩
    exact List.mem_flatMap.mpr ⟨update, hupdate, List.mem_map_of_mem hup⟩

private theorem Coherent.of_runs {turns : List Turn} {w : World}
    (h : Runs (Turn.Step env probeID) {} turns w) (hwell : ∀ turn ∈ turns, turn.WellFormed env) :
    Coherent env (turns.flatMap Turn.checks) w := by
  apply h.invariant_of_mem
  · intro w turn hmem w' hw hstep
    refine hw.step (hwell turn hmem) ?_ hstep
    intro c hc
    exact List.mem_flatMap.mpr ⟨turn, hmem, hc⟩
  · refine ⟨List.nodup_nil, ?_, List.nil_subset _, ?_⟩
    · exact fun c hc ↦ absurd hc List.not_mem_nil
    · intro id s hs
      cases hs

/-- Whatever the agent has missed in earlier connections, the first message of the next one
makes it run exactly the enabled checks of the database, in their current configuration, and
leaves the scrapers of unmodified checks alone. -/
theorem resynced_of_runs (henv : env.Grants) {turns : List Turn} {w : World}
    (h : Runs (Turn.Step env probeID) {} turns w) (hwell : ∀ turn ∈ turns, turn.WellFormed env)
    (hversion : Versioned env (turns.flatMap Turn.checks)) :
    ∃ sent existing agent,
      getChanges probeID w.checks (probeState w.agent) [] = .ok (sent, existing) ∧
      processChanges env w.agent sent = .ok agent ∧ existing = running agent ∧
      Resynced w.checks w.agent agent := by
  have hw := Coherent.of_runs h hwell
  obtain ⟨agent, hagent, hresynced⟩ :=
    resynced_initial henv hw.nodup hw.valid hw.stored hversion hw.knows
  refine ⟨_, _, agent, rfl, hagent, ?_, hresynced⟩
  have hset : (sendInitialChanges w.checks (probeState w.agent)).2 = enabledChecks w.checks := by
    unfold sendInitialChanges
    split
    · next hquiet =>
      rw [hquiet.1]
      rfl
    · rfl
  rw [hset]
  ext id
  rw [mem_running, ← Option.isSome_map, hresynced.mirrors, Option.isSome_map, List.find?_isSome,
    mem_enabledChecks]
  simp [enabled, and_assoc]

/-- A check runs, and is edited while the agent is not connected. -/
def editedOffline : List Turn :=
  [.store [pingCheck ⟨0x3ff0000000000000⟩ 60000], .connect [] 1,
    .store [pingCheck ⟨0x4000000000000000⟩ 120000], .connect [] 0]

/-- The agent gets the new configuration with the connection after the one that was lost. -/
theorem resynced_editedOffline : ∃ w,
    Runs (Turn.Step permissiveEnv 1) {} editedOffline w ∧
    (w.agent.scrapers.lookup 7).map Scraper.check =
      some (Check.fromSM (pingCheck ⟨0x3ff0000000000000⟩ 60000)) ∧
    ∃ sent existing agent,
      getChanges 1 w.checks (probeState w.agent) [] = .ok (sent, existing) ∧
      processChanges permissiveEnv w.agent sent = .ok agent ∧ existing = running agent ∧
      Resynced w.checks w.agent agent := by
  have hrun : ∃ w, Runs (Turn.Step permissiveEnv 1) {} editedOffline w ∧
      (w.agent.scrapers.lookup 7).map Scraper.check =
        some (Check.fromSM (pingCheck ⟨0x3ff0000000000000⟩ 60000)) :=
    ⟨_, .cons (.store _ _) (.cons (.connect rfl rfl) (.cons (.store _ _)
      (.cons (.connect rfl rfl) (.nil _)))), rfl⟩
  obtain ⟨w, hrun, hold⟩ := hrun
  refine ⟨w, hrun, hold, resynced_of_runs ⟨rfl, fun _ _ ↦ rfl⟩ hrun ?_ ?_⟩
  · intro turn hturn
    simp only [editedOffline, List.mem_cons, List.not_mem_nil, or_false] at hturn
    rcases hturn with rfl | rfl | rfl | rfl
    · exact ⟨List.nodup_singleton _, fun c hc _ ↦ by rw [List.mem_singleton.mp hc]; rfl⟩
    · exact fun update hm ↦ absurd hm List.not_mem_nil
    · exact ⟨List.nodup_singleton _, fun c hc _ ↦ by rw [List.mem_singleton.mp hc]; rfl⟩
    · exact fun update hm ↦ absurd hm List.not_mem_nil
  · intro c hc c' hc' _ _ _ heq
    simp only [editedOffline, List.flatMap_cons, List.flatMap_nil, Turn.checks,
      List.append_nil, List.mem_append, List.mem_singleton, List.not_mem_nil, false_or] at hc hc'
    rcases hc with rfl | rfl <;> rcases hc' with rfl | rfl
    · rfl
    · exact absurd heq (by decide)
    · exact absurd heq (by decide)
    · rfl

end SMAgent.TestApi
