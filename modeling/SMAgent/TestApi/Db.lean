import SMAgent.Base.GoMap
import SMAgent.Pb.Probe
import SMAgent.Pb.Tenant

/-!
# The database of the test API

`cmd/test-api/internal/db/db.go`: tenants, probes and checks in maps, with an index of the checks
of each probe. Every method holds the mutex from its first line to its return, so calls follow one
another. A call that returns an error, or in which `Validate` panics, has not written anything.
-/

namespace SMAgent.TestApi
open SMAgent.Base SMAgent.Pb

/-- `sm.Probe` with the fields that the database reads and writes. -/
structure DbProbe extends Pb.Probe where
  id : Int := 0
  isPublic : Bool := false
  created : Float64 := Float64.zero
  modified : Float64 := Float64.zero
  deriving DecidableEq, Repr

/-- `sm.Check` with the time of its creation. -/
structure DbCheck extends Pb.Check where
  created : Float64 := Float64.zero
  deriving DecidableEq, Repr

/-- How a call fails. -/
inductive DbError where
  /-- `errors.New` -/
  | new (text : GoString)
  | validation (err : ValidationError)
  | panic (p : Panic)
  deriving DecidableEq, Repr

/-- `Db`, `db.go:13-20`. -/
structure Db where
  tenants : GoMap Int Tenant := ∅
  probes : GoMap Int DbProbe := ∅
  probeTokens : GoMap GoString Int := ∅
  checks : GoMap Int DbCheck := ∅
  checksByProbe : GoMap Int (List Int) := ∅

/-- `if c { return errors.New(text) }`. -/
def refuse (c : Prop) [Decidable c] (text : String) : Except DbError Unit :=
  if c then .error (.new (.lit text)) else .ok ()

/-- `if err := Validate(); err != nil { return err }`. -/
def validated : Except Panic (Option ValidationError) → Except DbError Unit
  | .ok none => .ok ()
  | .ok (some err) => .error (.validation err)
  | .error p => .error (.panic p)

/-- `int64(len(m) + 1)`. -/
def nextId {ν : Type} (m : GoMap Int ν) : Int := m.entries.length + 1

namespace Db
variable (db : Db)

/-- `ListChecksForProbe`, `db.go:54-65`. A missing key reads as the zero check. -/
def listChecksForProbe (id : Int) : List DbCheck :=
  ((db.checksByProbe.lookup id).getD []).map fun checkId ↦ (db.checks.lookup checkId).getD {}

/-- `AddTenant`, `db.go:67-111`: the new state, and `*tenant` after the call. -/
def addTenant (now : Float64) (tenant : Tenant) : Except DbError (Db × Tenant) := do
  refuse (db.tenants.range.any fun t ↦ decide (t.2.stackId = tenant.stackId))
    "tenant already exists"
  let newTenant : Tenant := {
    id := nextId db.tenants, orgId := tenant.orgId, stackId := tenant.stackId, status := .active
    reason := [], created := now, modified := now, metricsRemote := tenant.metricsRemote
    eventsRemote := tenant.eventsRemote }
  .ok ({ db with tenants := db.tenants.insert newTenant.id newTenant }, newTenant)

/-- `DeleteTenant`, `db.go:151-174`. -/
def deleteTenant (id : Int) : Except DbError Db := do
  refuse (id ∉ db.tenants) "tenant not found"
  refuse (db.probes.range.any fun p ↦ decide (p.2.tenantId = id))
    "tenant is still referenced by probe"
  refuse (db.checks.range.any fun c ↦ decide (c.2.tenantId = id))
    "tenant is still referenced by check"
  .ok { db with tenants := db.tenants.erase id }

/-- `AddProbe`, `db.go:176-209`. -/
def addProbe (now : Float64) (probe : DbProbe) (token : GoString) :
    Except DbError (Db × DbProbe) := do
  validated (.ok probe.validate)
  refuse (probe.tenantId ∉ db.tenants) "invalid tenant"
  refuse (db.probes.range.any fun p ↦
    (probe.isPublic || decide (p.2.tenantId = probe.tenantId) || p.2.isPublic) &&
      decide (p.2.name = probe.name)) "probe already exists"
  refuse (token ∈ db.probeTokens) "invalid probe token"
  let probe := { probe with id := nextId db.probes, created := now, modified := now }
  .ok ({ db with
    probes := db.probes.insert probe.id probe
    probeTokens := db.probeTokens.insert token probe.id }, probe)

/-- `UpdateProbe`, `db.go:235-274`: the new state and the updated probe. -/
def updateProbe (now : Float64) (probe : DbProbe) : Except DbError (Db × DbProbe) :=
  match db.probes.lookup probe.id with
  | none => .error (.new (.lit "probe not found"))
  | some oldProbe => do
    refuse (oldProbe.name ≠ probe.name) "cannot rename probes"
    refuse (oldProbe.tenantId ≠ probe.tenantId) "cannot move probes between tenants"
    validated (.ok probe.validate)
    refuse (db.probes.range.any fun p ↦
      decide (p.2.id ≠ probe.id) && probe.isPublic && decide (p.2.name = probe.name))
      "invalid probe name"
    let updatedProbe := { probe with modified := now }
    .ok ({ db with probes := db.probes.insert probe.id updatedProbe }, updatedProbe)

/-- `DeleteProbe`, `db.go:276-299`. -/
def deleteProbe (id : Int) : Except DbError Db := do
  refuse (id ∉ db.probes) "probe not found"
  refuse (db.checks.range.any fun c ↦ decide (id ∈ c.2.probes))
    "probe is still referenced by check"
  .ok { db with
    probeTokens := db.probeTokens.range.foldl (fun tokens t ↦
      if t.2 = id then tokens.erase t.1 else tokens) db.probeTokens
    probes := db.probes.erase id }

/-- One round of the first loop of `AddCheck`, `db.go:319-328`. -/
def admitProbe (tenantId pId : Int) : Except DbError Unit :=
  match db.probes.lookup pId with
  | none => .error (.new (.lit "probe not found"))
  | some probe => refuse (probe.tenantId ≠ tenantId ∧ probe.isPublic = false) "invalid probe"

/-- One round of the second loop of `AddCheck`, `db.go:337-339`. -/
def indexProbe (checkId : Int) (index : GoMap Int (List Int)) (pId : Int) :
    GoMap Int (List Int) :=
  index.insert pId ((index.lookup pId).getD [] ++ [checkId])

/-- `AddCheck`, `db.go:301-342`. -/
def addCheck (lib : Stdlib) (now : Float64) (check : DbCheck) :
    Except DbError (Db × DbCheck) := do
  validated (check.toCheck.validate lib)
  refuse (check.tenantId ∉ db.tenants) "invalid tenant"
  refuse (db.checks.range.any fun c ↦
    decide (c.2.target = check.target) && decide (c.2.job = check.job)) "check already exists"
  check.probes.forM (db.admitProbe check.tenantId)
  let check := { check with id := nextId db.checks, created := now, modified := now }
  .ok ({ db with
    checks := db.checks.insert check.id check
    checksByProbe := check.probes.foldl (indexProbe check.id) db.checksByProbe }, check)

/-- `UpdateCheck`, `db.go:368-398`: the new state and the check as it was. -/
def updateCheck (lib : Stdlib) (now : Float64) (check : DbCheck) :
    Except DbError (Db × DbCheck) :=
  match db.checks.lookup check.id with
  | none => .error (.new (.lit "check not found"))
  | some oldCheck => do
    refuse (oldCheck.job ≠ check.job) "cannot change job"
    refuse (oldCheck.target ≠ check.target) "cannot change target"
    refuse (oldCheck.tenantId ≠ check.tenantId) "cannot move checks between tenants"
    validated (check.toCheck.validate lib)
    .ok ({ db with checks := db.checks.insert check.id { check with modified := now } }, oldCheck)

/-- `DeleteCheck`, `db.go:400-411`. -/
def deleteCheck (id : Int) : Except DbError Db := do
  refuse (id ∉ db.checks) "check not found"
  .ok { db with checks := db.checks.erase id }

end Db

/-! ### Calls -/

/-- A call, with the time that it reads from the clock. -/
inductive Call where
  | addTenant (now : Float64) (tenant : Tenant)
  | deleteTenant (id : Int)
  | addProbe (now : Float64) (probe : DbProbe) (token : GoString)
  | updateProbe (now : Float64) (probe : DbProbe)
  | deleteProbe (id : Int)
  | addCheck (now : Float64) (check : DbCheck)
  | updateCheck (now : Float64) (check : DbCheck)
  | deleteCheck (id : Int)

/-- The probes of the check that is passed. -/
def Call.probes : Call → List Int
  | .addCheck _ check | .updateCheck _ check => check.probes
  | _ => []

namespace Db

/-- The state after a call that succeeds. -/
def call (lib : Stdlib) (db : Db) : Call → Except DbError Db
  | .addTenant now tenant => (db.addTenant now tenant).map Prod.fst
  | .deleteTenant id => db.deleteTenant id
  | .addProbe now probe token => (db.addProbe now probe token).map Prod.fst
  | .updateProbe now probe => (db.updateProbe now probe).map Prod.fst
  | .deleteProbe id => db.deleteProbe id
  | .addCheck now check => (db.addCheck lib now check).map Prod.fst
  | .updateCheck now check => (db.updateCheck lib now check).map Prod.fst
  | .deleteCheck id => db.deleteCheck id

/-- The state after a call. -/
def after (lib : Stdlib) (db : Db) (c : Call) : Db := (db.call lib c).toOption.getD db

/-- The state after these calls on the result of `New`, `db.go:22-30`. -/
def run (lib : Stdlib) (calls : List Call) : Db := calls.foldl (after lib) {}

/-! ### What a call that succeeds has written -/

section Outcomes
variable {db db' : Db} {α : Type} {x : α} {lib : Stdlib}

variable {f : Unit → Except DbError α}

private theorem refuse_bind {c : Prop} [Decidable c] {text : String} :
    (refuse c text >>= f) = .ok x ↔ ¬ c ∧ f () = .ok x := by
  unfold refuse
  split
  · next h => exact iff_of_false nofun fun hc ↦ hc.1 h
  · next h => exact (and_iff_right h).symm

private theorem validated_bind {v : Except Panic (Option ValidationError)} :
    (validated v >>= f) = .ok x ↔ v = .ok none ∧ f () = .ok x := by
  match v with
  | .ok none => exact (and_iff_right rfl).symm
  | .ok (some err) => exact iff_of_false nofun fun h ↦ nomatch h.1
  | .error p => exact iff_of_false nofun fun h ↦ nomatch h.1

private theorem forM_bind {β : Type} {l : List β} {g : β → Except DbError Unit} :
    (l.forM g >>= f) = .ok x ↔ (∀ b ∈ l, g b = .ok ()) ∧ f () = .ok x := by
  induction l with
  | nil => exact (and_iff_right (fun _ h ↦ absurd h List.not_mem_nil)).symm
  | cons b l ih =>
    show (g b >>= fun _ ↦ l.forM g) >>= f = .ok x ↔ _
    rw [List.forall_mem_cons]
    cases g b with
    | error e => exact iff_of_false nofun fun h ↦ nomatch h.1.1
    | ok _ => exact ih.trans (by simp)

variable {now : Float64}

/-- What a successful `AddTenant` does. -/
theorem addTenant_eq_ok {tenant t : Tenant} (h : db.addTenant now tenant = .ok (db', t)) :
    t.id = nextId db.tenants ∧ db' = { db with tenants := db.tenants.insert t.id t } := by
  obtain ⟨-, h⟩ := refuse_bind.mp h
  cases h
  exact ⟨rfl, rfl⟩

/-- What a successful `DeleteTenant` does. -/
theorem deleteTenant_eq_ok {id : Int} (h : db.deleteTenant id = .ok db') :
    (∀ k c, db.checks.lookup k = some c → c.tenantId ≠ id) ∧
      db' = { db with tenants := db.tenants.erase id } := by
  obtain ⟨-, h⟩ := refuse_bind.mp h
  obtain ⟨-, h⟩ := refuse_bind.mp h
  obtain ⟨hchecks, h⟩ := refuse_bind.mp h
  cases h
  refine ⟨fun k c hc htenant ↦ hchecks ?_, rfl⟩
  exact List.any_eq_true.mpr ⟨(k, c), (GoMap.mem_range _ _ _).mpr hc, decide_eq_true htenant⟩

/-- What a successful `AddProbe` does. -/
theorem addProbe_eq_ok {probe p : DbProbe} {token : GoString}
    (h : db.addProbe now probe token = .ok (db', p)) : p.id = nextId db.probes ∧ db' = { db with
      probes := db.probes.insert p.id p
      probeTokens := db.probeTokens.insert token p.id } := by
  obtain ⟨-, h⟩ := validated_bind.mp h
  obtain ⟨-, h⟩ := refuse_bind.mp h
  obtain ⟨-, h⟩ := refuse_bind.mp h
  obtain ⟨-, h⟩ := refuse_bind.mp h
  cases h
  exact ⟨rfl, rfl⟩

/-- What a successful `UpdateProbe` does. -/
theorem updateProbe_eq_ok {probe p : DbProbe} (h : db.updateProbe now probe = .ok (db', p)) :
    db' = { db with probes := db.probes.insert probe.id p } := by
  unfold updateProbe at h
  split at h
  · cases h
  · obtain ⟨-, h⟩ := refuse_bind.mp h
    obtain ⟨-, h⟩ := refuse_bind.mp h
    obtain ⟨-, h⟩ := validated_bind.mp h
    obtain ⟨-, h⟩ := refuse_bind.mp h
    cases h
    rfl

/-- What a successful `DeleteProbe` does. -/
theorem deleteProbe_eq_ok {id : Int} (h : db.deleteProbe id = .ok db') :
    (∀ k c, db.checks.lookup k = some c → id ∉ c.probes) ∧
      ∃ tokens, db' = { db with probeTokens := tokens, probes := db.probes.erase id } := by
  obtain ⟨-, h⟩ := refuse_bind.mp h
  obtain ⟨hchecks, h⟩ := refuse_bind.mp h
  cases h
  refine ⟨fun k c hc hmem ↦ hchecks ?_, _, rfl⟩
  exact List.any_eq_true.mpr ⟨(k, c), (GoMap.mem_range _ _ _).mpr hc, decide_eq_true hmem⟩

private theorem mem_of_admitProbe {tenantId pId : Int} (h : db.admitProbe tenantId pId = .ok ()) :
    pId ∈ db.probes := by
  unfold admitProbe at h
  split at h
  · cases h
  · next probe hprobe => exact AList.lookup_isSome.mp (Option.isSome_iff_exists.mpr ⟨probe, hprobe⟩)

/-- What a successful `AddCheck` does. -/
theorem addCheck_eq_ok {check c : DbCheck} (h : db.addCheck lib now check = .ok (db', c)) :
    check.toCheck.validate lib = .ok none ∧ check.tenantId ∈ db.tenants ∧
      (∀ p ∈ check.probes, p ∈ db.probes) ∧
      c = { check with id := nextId db.checks, created := now, modified := now } ∧
      db' = { db with
        checks := db.checks.insert c.id c
        checksByProbe := c.probes.foldl (indexProbe c.id) db.checksByProbe } := by
  obtain ⟨hvalid, h⟩ := validated_bind.mp h
  obtain ⟨htenant, h⟩ := refuse_bind.mp h
  obtain ⟨-, h⟩ := refuse_bind.mp h
  obtain ⟨hprobes, h⟩ := forM_bind.mp h
  cases h
  exact ⟨hvalid, not_not.mp htenant, fun p hp ↦ mem_of_admitProbe (hprobes p hp), rfl, rfl⟩

/-- What a successful `UpdateCheck` does. -/
theorem updateCheck_eq_ok {now : Float64} {check old : DbCheck}
    (h : db.updateCheck lib now check = .ok (db', old)) :
    db.checks.lookup check.id = some old ∧ old.tenantId = check.tenantId ∧
      check.toCheck.validate lib = .ok none ∧
      db' = { db with checks := db.checks.insert check.id { check with modified := now } } := by
  unfold updateCheck at h
  split at h
  · cases h
  · next old' hold =>
    obtain ⟨-, h⟩ := refuse_bind.mp h
    obtain ⟨-, h⟩ := refuse_bind.mp h
    obtain ⟨htenant, h⟩ := refuse_bind.mp h
    obtain ⟨hvalid, h⟩ := validated_bind.mp h
    cases h
    exact ⟨hold, not_not.mp htenant, hvalid, rfl⟩

/-- What a successful `DeleteCheck` does. -/
theorem deleteCheck_eq_ok {id : Int} (h : db.deleteCheck id = .ok db') :
    id ∈ db.checks ∧ db' = { db with checks := db.checks.erase id } := by
  obtain ⟨hfound, h⟩ := refuse_bind.mp h
  cases h
  exact ⟨not_not.mp hfound, rfl⟩

end Outcomes
end Db

end SMAgent.TestApi
