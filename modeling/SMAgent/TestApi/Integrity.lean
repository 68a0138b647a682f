import SMAgent.Base.Run
import SMAgent.TestApi.Db

/-!
# Ids, index and references of the database

The ids of new entities are taken from the sizes of the maps, and `checksByProbe` is written by
`AddCheck` only. So an id may be in use after a deletion, and the index is wrong once a check was
deleted or got other probes. As long as that does not happen, the index has the checks of each
probe, and checks refer to what is stored.
-/

namespace SMAgent.TestApi
open SMAgent.Base SMAgent.Pb

/-! ### What the database should keep -/

namespace Db

/-- The stored checks of a probe. -/
def storedChecks (db : Db) (p : Int) : List DbCheck :=
  (db.checks.range.map Prod.snd).filter fun c ↦ decide (p ∈ c.probes)

/-- `ListChecksForProbe` returns the stored checks of the probe, each once. -/
def Listed (db : Db) : Prop := ∀ p, (db.listChecksForProbe p).Perm (db.storedChecks p)

/-- Stored checks refer to stored tenants and probes. -/
def Referenced (db : Db) : Prop :=
  ∀ k c, db.checks.lookup k = some c → c.tenantId ∈ db.tenants ∧ ∀ p ∈ c.probes, p ∈ db.probes

/-- A call that adds an entity gives it an id that no entity of its kind has. -/
def GivesFreshId (lib : Stdlib) (db : Db) : Call → Prop
  | .addTenant now tenant => ∀ r, db.addTenant now tenant = .ok r → r.2.id ∉ db.tenants
  | .addProbe now probe token => ∀ r, db.addProbe now probe token = .ok r → r.2.id ∉ db.probes
  | .addCheck now check => ∀ r, db.addCheck lib now check = .ok r → r.2.id ∉ db.checks
  | _ => True

/-- When the call does no harm: the number after the size of the map is free, the check keeps its
probes, no check is deleted. -/
def Harmless (db : Db) : Call → Prop
  | .addTenant _ _ => nextId db.tenants ∉ db.tenants
  | .addProbe _ _ _ => nextId db.probes ∉ db.probes
  | .addCheck _ _ => nextId db.checks ∉ db.checks
  | .updateCheck _ check => ∀ old ∈ db.checks.lookup check.id, check.probes.Perm old.probes
  | .deleteCheck _ => False
  | .deleteTenant _ | .updateProbe _ _ | .deleteProbe _ => True

instance (db : Db) (c : Call) : Decidable (db.Harmless c) := by
  cases c <;> unfold Harmless <;> infer_instance

/-- The call fails, or it is harmless. -/
def Keeps (lib : Stdlib) (db : Db) (c : Call) : Prop := (db.call lib c).isOk = true → db.Harmless c

instance (lib : Stdlib) (db : Db) (c : Call) : Decidable (db.Keeps lib c) :=
  inferInstanceAs (Decidable (_ → _))

end Db

/-- The ids that calls give are not in use, and after each call the index lists the stored checks
and the references are to stored entities. -/
structure Integrity (lib : Stdlib) (calls : List Call) : Prop where
  fresh : ∀ pre c, pre ++ [c] <+: calls → (Db.run lib pre).GivesFreshId lib c
  listed : ∀ pre, pre <+: calls → (Db.run lib pre).Listed
  referenced : ∀ pre, pre <+: calls → (Db.run lib pre).Referenced

/-! ### The index in terms of ids -/

namespace Db
variable {db : Db} {lib : Stdlib}

/-- The ids that the index has for a probe. -/
def indexed (db : Db) (p : Int) : List Int := (db.checksByProbe.lookup p).getD []

/-- The index has the ids of the stored checks of each probe, each once. -/
def Indexed (db : Db) : Prop :=
  ∀ p, (db.indexed p).Nodup ∧
    ∀ k, k ∈ db.indexed p ↔ ∃ c, db.checks.lookup k = some c ∧ p ∈ c.probes

/-- What holds of the stored checks after any calls. -/
structure StoredCheck (k : Int) (c : DbCheck) : Prop where
  id_eq : c.id = k
  pos : 0 < k
  probes_ne_nil : c.probes ≠ []
  nodup_probes : c.probes.Nodup

/-- The invariant of all runs. -/
def WellFormed (db : Db) : Prop := ∀ k c, db.checks.lookup k = some c → StoredCheck k c

private theorem mem_storedChecks {p : Int} {c : DbCheck} :
    c ∈ db.storedChecks p ↔ (∃ k, db.checks.lookup k = some c) ∧ p ∈ c.probes := by
  simp only [storedChecks, List.mem_filter, List.mem_map, Prod.exists, exists_eq_right,
    GoMap.mem_range, decide_eq_true_eq]

private theorem nodup_storedChecks (hwf : db.WellFormed) (p : Int) : (db.storedChecks p).Nodup := by
  apply List.Nodup.filter
  have hids : (db.checks.range.map Prod.snd).map (fun c ↦ c.id) = db.checks.range.map Prod.fst := by
    rw [List.map_map]
    apply List.map_congr_left
    rintro ⟨k, c⟩ hkc
    exact (hwf k c ((GoMap.mem_range _ _ _).mp hkc)).id_eq
  apply List.Nodup.of_map fun c : DbCheck ↦ c.id
  rw [hids]
  exact GoMap.nodup_keys_range _

private theorem lookup_of_listed (hwf : db.WellFormed) {k k' : Int} {c : DbCheck}
    (h : (db.checks.lookup k).getD {} = c) (hc : db.checks.lookup k' = some c) :
    db.checks.lookup k = some c := by
  cases hk : db.checks.lookup k with
  | some c' =>
    rw [hk] at h
    exact congrArg some h
  | none =>
    -- the zero check has the id zero, which no stored check has
    rw [hk] at h
    have hstored := hwf k' c hc
    have hzero : c.id = 0 := congrArg (fun c : DbCheck ↦ c.id) h.symm
    exact absurd (hstored.id_eq.symm.trans hzero) (Int.ne_of_gt hstored.pos)

private theorem listed_iff_indexed (hwf : db.WellFormed) : db.Listed ↔ db.Indexed := by
  apply forall_congr'
  intro p
  have hlist : db.listChecksForProbe p =
      (db.indexed p).map fun k ↦ (db.checks.lookup k).getD {} := rfl
  constructor
  · intro hperm
    have hnodup := hperm.nodup_iff.mpr (nodup_storedChecks hwf p)
    rw [hlist] at hperm hnodup
    refine ⟨hnodup.of_map _, fun k ↦ ⟨fun hk ↦ ?_, ?_⟩⟩
    · obtain ⟨⟨k', hk'⟩, hp⟩ := mem_storedChecks.mp (hperm.subset (List.mem_map_of_mem hk))
      exact ⟨_, lookup_of_listed hwf rfl hk', hp⟩
    · rintro ⟨c, hc, hp⟩
      obtain ⟨k', hk', hlisted⟩ :=
        List.mem_map.mp (hperm.symm.subset (mem_storedChecks.mpr ⟨⟨k, hc⟩, hp⟩))
      have hk := (hwf k' c (lookup_of_listed hwf hlisted hc)).id_eq
      rwa [← (hwf k c hc).id_eq, hk]
  · rintro ⟨hnodup, hmem⟩
    have hstored : ∀ k ∈ db.indexed p, ∃ c, db.checks.lookup k = some c ∧ p ∈ c.probes :=
      fun k hk ↦ (hmem k).mp hk
    rw [hlist, List.perm_ext_iff_of_nodup _ (nodup_storedChecks hwf p)]
    · intro c
      rw [mem_storedChecks, List.mem_map]
      constructor
      · rintro ⟨k, hk, rfl⟩
        obtain ⟨c, hc, hp⟩ := hstored k hk
        rw [hc]
        exact ⟨⟨k, hc⟩, hp⟩
      · rintro ⟨⟨k, hc⟩, hp⟩
        exact ⟨k, (hmem k).mpr ⟨c, hc, hp⟩, by rw [hc]; rfl⟩
    · apply hnodup.map_on
      intro k hk k' hk' heq
      obtain ⟨c, hc, -⟩ := hstored k hk
      obtain ⟨c', hc', -⟩ := hstored k' hk'
      rw [hc, hc'] at heq
      obtain rfl : c = c' := heq
      exact (hwf k c hc).id_eq.symm.trans (hwf k' c hc').id_eq

/-! ### The loop of `AddCheck` -/

private theorem indexed_foldl (k : Int) (probes : List Int) (hnodup : probes.Nodup)
    (index : GoMap Int (List Int)) (p : Int) :
    ((probes.foldl (indexProbe k) index).lookup p).getD [] =
      (index.lookup p).getD [] ++ if p ∈ probes then [k] else [] := by
  induction probes generalizing index with
  | nil => simp
  | cons q probes ih =>
    obtain ⟨hq, hnodup⟩ := List.nodup_cons.mp hnodup
    rw [List.foldl_cons, ih hnodup, indexProbe, GoMap.lookup_insert_eq]
    by_cases hpq : p = q
    · subst hpq
      simp [hq]
    · simp [hpq]

/-! ### What a call does -/

private theorem after_of_ok {c : Call} {db' : Db} (h : db.call lib c = .ok db') :
    db.after lib c = db' := by
  rw [after, h]
  rfl

private theorem after_of_error {c : Call} {e : DbError} (h : db.call lib c = .error e) :
    db.after lib c = db := by
  rw [after, h]
  rfl

private theorem keeps_of_ok {c : Call} {db' : Db} (h : db.call lib c = .ok db') :
    db.Keeps lib c ↔ db.Harmless c := by
  rw [Keeps, h]
  exact imp_iff_right rfl

private theorem keeps_of_error {c : Call} {e : DbError} (h : db.call lib c = .error e) :
    db.Keeps lib c := by
  rw [Keeps, h]
  exact nofun

private theorem WellFormed.call (hwf : db.WellFormed) {c : Call} (hnodup : c.probes.Nodup)
    {db' : Db} (h : db.call lib c = .ok db') : db'.WellFormed := by
  cases c with
  | addTenant now tenant =>
    obtain ⟨⟨db₁, t⟩, hr, rfl⟩ := except_map_eq_ok.mp h
    obtain ⟨-, rfl⟩ := addTenant_eq_ok hr
    exact hwf
  | deleteTenant id =>
    obtain ⟨-, rfl⟩ := deleteTenant_eq_ok h
    exact hwf
  | addProbe now probe token =>
    obtain ⟨⟨db₁, p⟩, hr, rfl⟩ := except_map_eq_ok.mp h
    obtain ⟨-, rfl⟩ := addProbe_eq_ok hr
    exact hwf
  | updateProbe now probe =>
    obtain ⟨⟨db₁, p⟩, hr, rfl⟩ := except_map_eq_ok.mp h
    rw [updateProbe_eq_ok hr]
    exact hwf
  | deleteProbe id =>
    obtain ⟨-, tokens, rfl⟩ := deleteProbe_eq_ok h
    exact hwf
  | addCheck now check =>
    obtain ⟨⟨db₁, c⟩, hr, rfl⟩ := except_map_eq_ok.mp h
    obtain ⟨hvalid, -, -, rfl, rfl⟩ := addCheck_eq_ok hr
    intro k c hc
    rw [GoMap.lookup_insert_eq] at hc
    split at hc
    · next hk =>
      cases hc
      have hpos : 0 < nextId db.checks := Int.lt_add_one_of_le (Int.natCast_nonneg _)
      exact ⟨hk.symm, hk ▸ hpos, check.toCheck.probes_ne_nil_of_validate lib hvalid, hnodup⟩
    · exact hwf k c hc
  | updateCheck now check =>
    obtain ⟨⟨db₁, old⟩, hr, rfl⟩ := except_map_eq_ok.mp h
    obtain ⟨hold, -, hvalid, rfl⟩ := updateCheck_eq_ok hr
    intro k c hc
    rw [GoMap.lookup_insert_eq] at hc
    split at hc
    · next hk =>
      cases hc
      exact ⟨hk.symm, hk ▸ (hwf _ old hold).pos,
        check.toCheck.probes_ne_nil_of_validate lib hvalid, hnodup⟩
    · exact hwf k c hc
  | deleteCheck id =>
    obtain ⟨-, rfl⟩ := deleteCheck_eq_ok h
    intro k c hc
    rw [GoMap.lookup_erase_eq] at hc
    split at hc
    · cases hc
    · exact hwf k c hc

private theorem WellFormed.after (hwf : db.WellFormed) {c : Call} (hnodup : c.probes.Nodup) :
    (db.after lib c).WellFormed := by
  cases h : db.call lib c with
  | error e =>
    rw [after_of_error h]
    exact hwf
  | ok db' =>
    rw [after_of_ok h]
    exact hwf.call hnodup h

/-! ### When a call does no harm -/

private theorem Referenced.mono (h : db.Referenced) {db' : Db} (hchecks : db'.checks = db.checks)
    (hkeep : ∀ k c, db.checks.lookup k = some c →
      (c.tenantId ∈ db.tenants → c.tenantId ∈ db'.tenants) ∧
        ∀ p ∈ c.probes, p ∈ db.probes → p ∈ db'.probes) : db'.Referenced := by
  intro k c hc
  rw [hchecks] at hc
  obtain ⟨htenant, hprobes⟩ := h k c hc
  exact ⟨(hkeep k c hc).1 htenant, fun p hp ↦ (hkeep k c hc).2 p hp (hprobes p hp)⟩

private theorem Referenced.insertCheck (h : db.Referenced) {check : DbCheck}
    (htenant : check.tenantId ∈ db.tenants) (hprobes : ∀ p ∈ check.probes, p ∈ db.probes) (k : Int)
    (index : GoMap Int (List Int)) :
    Referenced { db with checks := db.checks.insert k check, checksByProbe := index } := by
  intro k' c hc
  rw [GoMap.lookup_insert_eq] at hc
  split at hc
  · cases hc
    exact ⟨htenant, hprobes⟩
  · exact h k' c hc

private theorem Indexed.addCheck (h : db.Indexed) {c : DbCheck} (hnodup : c.probes.Nodup)
    (hfree : c.id ∉ db.checks) :
    Indexed { db with
      checks := db.checks.insert c.id c
      checksByProbe := c.probes.foldl (indexProbe c.id) db.checksByProbe } := by
  intro p
  obtain ⟨hids, hmem⟩ := h p
  have hnone : db.checks.lookup c.id = none := AList.lookup_eq_none.mpr hfree
  have hnew : c.id ∉ db.indexed p := by
    rw [hmem, hnone]
    rintro ⟨c', hc', -⟩
    cases hc'
  have hindexed : indexed { db with
      checks := db.checks.insert c.id c
      checksByProbe := c.probes.foldl (indexProbe c.id) db.checksByProbe } p =
        db.indexed p ++ if p ∈ c.probes then [c.id] else [] :=
    indexed_foldl c.id c.probes hnodup db.checksByProbe p
  rw [hindexed]
  constructor
  · split
    · exact List.nodup_append.mpr ⟨hids, List.nodup_singleton _, fun a ha b hb heq ↦
        hnew (List.mem_singleton.mp hb ▸ heq ▸ ha)⟩
    · rwa [List.append_nil]
  · intro k
    rw [List.mem_append, GoMap.lookup_insert_eq]
    by_cases hk : k = c.id
    · subst hk
      simp [hnew]
    · have hother : k ∉ if p ∈ c.probes then [c.id] else [] := by
        split
        · exact fun hmem ↦ hk (List.mem_singleton.mp hmem)
        · exact List.not_mem_nil
      rw [if_neg hk, or_iff_left hother]
      exact hmem k

private theorem Indexed.updateCheck_iff (h : db.Indexed) {old check : DbCheck} {k : Int}
    (hold : db.checks.lookup k = some old) (holdNodup : old.probes.Nodup)
    (hnodup : check.probes.Nodup) :
    Indexed { db with checks := db.checks.insert k check } ↔ check.probes.Perm old.probes := by
  rw [List.perm_ext_iff_of_nodup hnodup holdNodup]
  have hmem (p : Int) : k ∈ db.indexed p ↔ p ∈ old.probes := by
    rw [(h p).2 k, hold]
    simp
  constructor
  · intro hafter p
    have hmem' := (hafter p).2 k
    rw [GoMap.lookup_insert_eq, if_pos rfl] at hmem'
    rw [← hmem p]
    exact ((hmem'.trans (by simp)).symm)
  · intro hprobes p
    refine ⟨(h p).1, fun k' ↦ ?_⟩
    rw [GoMap.lookup_insert_eq]
    split
    · next hk =>
      rw [hk]
      refine (hmem p).trans ((hprobes p).symm.trans ?_)
      simp
    · exact (h p).2 k'

private theorem Indexed.not_eraseCheck (h : db.Indexed) {id : Int} {c : DbCheck}
    (hc : db.checks.lookup id = some c) (hprobes : c.probes ≠ []) :
    ¬ Indexed { db with checks := db.checks.erase id } := by
  intro hafter
  obtain ⟨p, hp⟩ := List.exists_mem_of_ne_nil _ hprobes
  obtain ⟨c', hc', -⟩ := ((hafter p).2 id).mp (((h p).2 id).mpr ⟨c, hc, hp⟩)
  rw [GoMap.lookup_erase_eq, if_pos rfl] at hc'
  cases hc'

private theorem givesFreshId_of_error {c : Call} {e : DbError} (h : db.call lib c = .error e) :
    db.GivesFreshId lib c := by
  cases c with
  | addTenant now tenant | addProbe now probe token | addCheck now check =>
    intro r hr
    rw [call, hr] at h
    cases h
  | deleteTenant _ | updateProbe _ _ | deleteProbe _ | updateCheck _ _ | deleteCheck _ => trivial

/-- In a state that is right: the call leaves it right and gives a free id exactly if it fails or
is harmless. -/
theorem sound_after_iff (hwf : db.WellFormed) (hidx : db.Indexed) (href : db.Referenced)
    {c : Call} (hnodup : c.probes.Nodup) :
    ((db.after lib c).Indexed ∧ (db.after lib c).Referenced) ∧ db.GivesFreshId lib c ↔
      db.Keeps lib c := by
  cases hcall : db.call lib c with
  | error e =>
    rw [after_of_error hcall]
    exact iff_of_true ⟨⟨hidx, href⟩, givesFreshId_of_error hcall⟩ (keeps_of_error hcall)
  | ok db' =>
    rw [after_of_ok hcall, keeps_of_ok hcall]
    cases c with
    | addTenant now tenant =>
      obtain ⟨⟨db₁, t⟩, hr, rfl⟩ := except_map_eq_ok.mp hcall
      obtain ⟨hid, rfl⟩ := addTenant_eq_ok hr
      show _ ↔ nextId db.tenants ∉ db.tenants
      rw [← hid]
      refine ⟨fun h ↦ h.2 _ hr, fun hfree ↦ ⟨⟨hidx, ?_⟩, fun r hr' ↦ ?_⟩⟩
      · exact href.mono rfl fun k c _ ↦
          ⟨fun hmem ↦ (AList.mem_insert _).mpr (.inr hmem), fun p _ hp ↦ hp⟩
      · cases hr.symm.trans hr'
        exact hfree
    | deleteTenant id =>
      obtain ⟨hchecks, rfl⟩ := deleteTenant_eq_ok hcall
      refine iff_of_true ⟨⟨hidx, ?_⟩, trivial⟩ trivial
      exact href.mono rfl fun k c hc ↦
        ⟨fun hmem ↦ AList.mem_erase.mpr ⟨hchecks k c hc, hmem⟩, fun p _ hp ↦ hp⟩
    | addProbe now probe token =>
      obtain ⟨⟨db₁, p⟩, hr, rfl⟩ := except_map_eq_ok.mp hcall
      obtain ⟨hid, rfl⟩ := addProbe_eq_ok hr
      show _ ↔ nextId db.probes ∉ db.probes
      rw [← hid]
      refine ⟨fun h ↦ h.2 _ hr, fun hfree ↦ ⟨⟨hidx, ?_⟩, fun r hr' ↦ ?_⟩⟩
      · exact href.mono rfl fun k c _ ↦
          ⟨fun hmem ↦ hmem, fun p _ hp ↦ (AList.mem_insert _).mpr (.inr hp)⟩
      · cases hr.symm.trans hr'
        exact hfree
    | updateProbe now probe =>
      obtain ⟨⟨db₁, p⟩, hr, rfl⟩ := except_map_eq_ok.mp hcall
      rw [updateProbe_eq_ok hr]
      refine iff_of_true ⟨⟨hidx, ?_⟩, trivial⟩ trivial
      exact href.mono rfl fun k c _ ↦
        ⟨fun hmem ↦ hmem, fun p _ hp ↦ (AList.mem_insert _).mpr (.inr hp)⟩
    | deleteProbe id =>
      obtain ⟨hchecks, tokens, rfl⟩ := deleteProbe_eq_ok hcall
      refine iff_of_true ⟨⟨hidx, ?_⟩, trivial⟩ trivial
      exact href.mono rfl fun k c hc ↦ ⟨fun hmem ↦ hmem, fun p hp hmem ↦
        AList.mem_erase.mpr ⟨fun heq ↦ hchecks k c hc (heq ▸ hp), hmem⟩⟩
    | addCheck now check =>
      obtain ⟨⟨db₁, c⟩, hr, rfl⟩ := except_map_eq_ok.mp hcall
      obtain ⟨-, htenant, hprobes, rfl, rfl⟩ := addCheck_eq_ok hr
      refine ⟨fun h ↦ h.2 _ hr, fun hfree ↦ ⟨⟨hidx.addCheck hnodup hfree, ?_⟩, fun r hr' ↦ ?_⟩⟩
      · apply href.insertCheck
        · exact htenant
        · exact hprobes
      · cases hr.symm.trans hr'
        exact hfree
    | updateCheck now check =>
      obtain ⟨⟨db₁, old⟩, hr, rfl⟩ := except_map_eq_ok.mp hcall
      obtain ⟨hold, htenant, -, rfl⟩ := updateCheck_eq_ok hr
      have hindex : Indexed { db with
          checks := db.checks.insert check.id { check with modified := now } } ↔
            check.probes.Perm old.probes :=
        hidx.updateCheck_iff hold (hwf _ old hold).nodup_probes hnodup
      have hharmless : db.Harmless (.updateCheck now check) ↔ check.probes.Perm old.probes := by
        rw [Harmless, hold]
        simp
      rw [hharmless]
      refine ⟨fun h ↦ hindex.mp h.1.1, fun hperm ↦ ⟨⟨hindex.mpr hperm, ?_⟩, trivial⟩⟩
      obtain ⟨ht, hp⟩ := href _ old hold
      apply href.insertCheck
      · exact htenant ▸ ht
      · exact fun p hmem ↦ hp p (hperm.subset hmem)
    | deleteCheck id =>
      obtain ⟨hfound, rfl⟩ := deleteCheck_eq_ok hcall
      obtain ⟨c, hc⟩ := Option.isSome_iff_exists.mp (AList.lookup_isSome.mpr hfound)
      have hstale := hidx.not_eraseCheck hc (hwf id c hc).probes_ne_nil
      exact iff_of_false (fun h ↦ hstale h.1.1) fun hfalse ↦ hfalse

end Db

/-- Calls keep ids, index and references right, from the first to the last, exactly if each of
them fails or is harmless in the state that it finds. -/
theorem integrity_iff_keeps (lib : Stdlib) (calls : List Call)
    (hnodup : ∀ c ∈ calls, c.probes.Nodup) :
    Integrity lib calls ↔
      ∀ pre c, pre ++ [c] <+: calls → (Db.run lib pre).Keeps lib c := by
  have hwf : Db.WellFormed {} := fun k c hc ↦ nomatch hc
  have hidx : Db.Indexed {} := fun p ↦ ⟨List.nodup_nil, fun k ↦ by
    refine iff_of_false List.not_mem_nil ?_
    rintro ⟨c, hc, -⟩
    cases hc⟩
  have href : Db.Referenced {} := fun k c hc ↦ nomatch hc
  have hstates : Integrity lib calls ↔
      (∀ pre, pre <+: calls → (Db.run lib pre).Listed ∧ (Db.run lib pre).Referenced) ∧
        ∀ pre c, pre ++ [c] <+: calls → (Db.run lib pre).GivesFreshId lib c :=
    ⟨fun h ↦ ⟨fun pre hpre ↦ ⟨h.listed pre hpre, h.referenced pre hpre⟩, h.fresh⟩,
      fun h ↦ ⟨h.2, fun pre hpre ↦ (h.1 pre hpre).1, fun pre hpre ↦ (h.1 pre hpre).2⟩⟩
  rw [hstates]
  refine (forall_states_iff_along (P := fun db : Db ↦ db.Listed ∧ db.Referenced)
    ⟨(Db.listed_iff_indexed hwf).mpr hidx, href⟩).trans (Iff.trans ?_ along_iff_forall)
  -- the states so far are right, so the step lemma applies
  apply along_congr (I := fun db : Db ↦ db.WellFormed ∧ db.Indexed ∧ db.Referenced)
    ⟨hwf, hidx, href⟩
  rintro db c hc ⟨hwf, hidx, href⟩
  have hafter : (db.after lib c).WellFormed := hwf.after (hnodup c hc)
  rw [Db.listed_iff_indexed hafter]
  exact ⟨Db.sound_after_iff hwf hidx href (hnodup c hc), fun h ↦ ⟨hafter, h.1⟩⟩

/-- A check of tenant 1. -/
def exampleCheck (probes : List Int) : DbCheck :=
  { id := 1, tenantId := 1, probes, target := .lit "target", job := .lit "job", frequency := 60000
    timeout := 1000, settings := { scripted := some { script := .lit "script" } } }

/-- A tenant with two probes and a check. -/
def exampleCalls : List Call :=
  [.addTenant .zero { stackId := 1 },
    .addProbe .zero { tenantId := 1, name := .lit "a" } (.lit "a"),
    .addProbe .zero { tenantId := 1, name := .lit "b" } (.lit "b"),
    .addCheck .zero (exampleCheck [1, 2])]

/-- Updates of the check that keep its probes, and calls that are refused. -/
theorem integrity_exampleCalls :
    Integrity .permissive (exampleCalls ++ [.updateCheck .zero (exampleCheck [2, 1]),
      .deleteProbe 2, .deleteTenant 1, .addTenant .zero { stackId := 2 }]) := by
  apply (integrity_iff_keeps .permissive _ (by decide)).mpr
  refine along_iff_forall.mp ?_
  decide +kernel

/-- The first of two tenants is deleted. -/
def firstTenantDeleted : List Call :=
  [.addTenant .zero { stackId := 1 }, .addTenant .zero { stackId := 2 }, .deleteTenant 1]

/-- The check is deleted. -/
def checkDeleted : List Call := exampleCalls ++ [.deleteCheck 1]

/-- The check gets a probe that does not exist. -/
def checkMoved : List Call := exampleCalls ++ [.updateCheck .zero (exampleCheck [7])]

/-- The next tenant gets the id of the second one; the index keeps the deleted check and lists the
zero check for it; the updated check refers to a probe that is not stored. -/
theorem integrity_fails :
    (∃ r, (Db.run .permissive firstTenantDeleted).addTenant .zero { stackId := 3 } = .ok r ∧
      r.2.id = 2 ∧ 2 ∈ (Db.run .permissive firstTenantDeleted).tenants) ∧
    (Db.run .permissive checkDeleted).listChecksForProbe 1 = [{}] ∧
    (Db.run .permissive checkDeleted).storedChecks 1 = [] ∧
    (∃ c, (Db.run .permissive checkMoved).checks.lookup 1 = some c ∧ c.probes = [7] ∧
      7 ∉ (Db.run .permissive checkMoved).probes) ∧
    ¬ Integrity .permissive (firstTenantDeleted ++ [.addTenant .zero { stackId := 3 }]) ∧
    ¬ Integrity .permissive checkDeleted ∧ ¬ Integrity .permissive checkMoved := by
  have hreused : ∃ r,
      (Db.run .permissive firstTenantDeleted).addTenant .zero { stackId := 3 } = .ok r ∧
      r.2.id = 2 ∧ 2 ∈ (Db.run .permissive firstTenantDeleted).tenants :=
    ⟨_, rfl, rfl, by decide +kernel⟩
  have hlisted : (Db.run .permissive checkDeleted).listChecksForProbe 1 = [{}] := by
    decide +kernel
  have hstored : (Db.run .permissive checkDeleted).storedChecks 1 = [] := by
    decide +kernel
  have hmoved : ∃ c, (Db.run .permissive checkMoved).checks.lookup 1 = some c ∧ c.probes = [7] ∧
      7 ∉ (Db.run .permissive checkMoved).probes :=
    ⟨_, rfl, rfl, by decide +kernel⟩
  refine ⟨hreused, hlisted, hstored, hmoved, fun h ↦ ?_, fun h ↦ ?_, fun h ↦ ?_⟩
  · obtain ⟨r, hr, hid, hmem⟩ := hreused
    have hfresh := h.fresh firstTenantDeleted _ (List.prefix_refl _) r hr
    rw [hid] at hfresh
    exact hfresh hmem
  · have hperm := h.listed _ (List.prefix_refl _) 1
    rw [hlisted, hstored] at hperm
    exact absurd hperm.length_eq (by decide)
  · obtain ⟨c, hc, hprobes, hnot⟩ := hmoved
    exact hnot ((h.referenced _ (List.prefix_refl _) 1 c hc).2 7 (hprobes ▸ List.mem_cons_self))

end SMAgent.TestApi
