import SMAgent.Base.GoMap
import SMAgent.Base.Run
import SMAgent.Model.Check

/-!
# The check updater

`internal/checks/checks.go:643-987`. The updater keeps one scraper for each running check
and applies batches of changes to that set. The first batch of a connection, unless it is
marked as a delta, replaces the set; every other batch is applied change by change.
Creating a scraper is the one fallible outside call: `Env.factory` says how each of them
ends. The metric look-ups of `addAndStartScraperWithLock` fail only on a label mismatch and
are left out. Panics are told apart by where they are raised.
-/

namespace SMAgent.Checks
open SMAgent.Base SMAgent.Pb SMAgent.Model

/-- `sm.CheckOperation`, `checks.pb.go:135-139`. -/
inductive CheckOperation where
  | add | update | delete
  | unrecognized (v : Int32)
  deriving DecidableEq, Repr

/-- `sm.CheckChange`. -/
structure CheckChange where
  operation : CheckOperation
  check : Pb.Check
  deriving DecidableEq, Repr

/-- `sm.Tenant`; the updater only passes it on. -/
structure Tenant where
  id : Int
  deriving DecidableEq, Repr

/-- `sm.Changes`. -/
structure Changes where
  checks : List CheckChange := []
  tenants : List Tenant := []
  isDeltaFirstBatch : Bool := false
  deriving DecidableEq, Repr

/-- A running scraper. The type of its check was read when it was started, so it exists. -/
structure Scraper where
  handle : Nat
  check : Model.Check
  type : CheckType
  typed : check.type = .ok type

/-- `Scraper.ConfigVersion`, `scraper.go:419-421`. -/
def Scraper.configVersion (s : Scraper) : GoString := s.check.configVersion

/-- What the updater depends on: the library parsers, the feature flag `K6`, and whether the
`n`-th call of the scraper factory succeeds. -/
structure Env where
  lib : Stdlib
  k6 : Bool
  factory : Nat → Model.Check → Bool

/-- A counter vector with the labels `add`, `update` and `delete`. -/
structure OpCounter where
  add : Nat := 0
  update : Nat := 0
  delete : Nat := 0
  deriving DecidableEq, Repr

/-- The state of `Updater`, with the effects of its calls: the handles of the scrapers it
stopped and the tenants it sent. -/
structure Updater where
  scrapers : GoMap GlobalID Scraper := ∅
  factoryCalls : Nat := 0
  stopped : List Nat := []
  runningScrapers : CheckType → Int := fun _ ↦ 0
  changesCounter : OpCounter := {}
  changeErrorsCounter : OpCounter := {}
  tenantCh : List Tenant := []

/-- The errors that the handlers of a change return. -/
inductive ChangeError where
  | invalidCheck (err : ValidationError)
  | alreadyExists (id : GlobalID) (version : GoString)
  | checkNotFound
  | cannotCreateScraper
  deriving DecidableEq, Repr

/-- Where a panic is raised: in `Check.Validate`, or in the type dispatch of
`addAndStartScraperWithLock`. -/
inductive Site where
  | validation
  | dispatch
  deriving DecidableEq, Repr

/-- A call that may panic. -/
abbrev Outcome (α : Type) := Except (Site × Panic) α

/-- `check.Validate()`. -/
def validate (env : Env) (check : Model.Check) : Outcome (Option ValidationError) :=
  (check.validate env.lib).mapError fun p ↦ (.validation, p)

/-- What `Validate` returns is passed on. -/
theorem validate_eq_ok {env : Env} {check : Model.Check} {err : Option ValidationError} :
    validate env check = .ok err ↔ check.validate env.lib = .ok err := by
  unfold validate
  cases check.toCheck.validate env.lib with
  | error p => exact ⟨nofun, nofun⟩
  | ok err' => exact ⟨fun h ↦ by rw [Except.ok.inj h], fun h ↦ by rw [Except.ok.inj h]; rfl⟩

/-- A check that passes has a type. -/
theorem type_of_validate {env : Env} {check : Model.Check} (h : validate env check = .ok none) :
    ∃ type, check.type = .ok type :=
  check.toCheck.type_of_validate env.lib (validate_eq_ok.mp h)

/-- Stop a running scraper and forget it, as in `checks.go:717-724`. -/
def Updater.stop (u : Updater) (id : GlobalID) (s : Scraper) : Updater :=
  { u with
    scrapers := u.scrapers.erase id
    stopped := u.stopped ++ [s.handle]
    runningScrapers := Function.update u.runningScrapers s.type (u.runningScrapers s.type - 1) }

/-- The end of `addAndStartScraperWithLock`: the factory returned a scraper. -/
def Updater.start (u : Updater) (check : Model.Check) (type : CheckType)
    (h : check.type = .ok type) : Updater :=
  { u with
    scrapers := u.scrapers.insert check.globalID ⟨u.factoryCalls, check, type, h⟩
    factoryCalls := u.factoryCalls + 1
    runningScrapers := Function.update u.runningScrapers type (u.runningScrapers type + 1) }

/-- `checks.go:917-987`; without the feature flag scripted and multi-HTTP checks are
accepted and not run. -/
def addAndStartScraperWithLock (env : Env) (u : Updater) (check : Model.Check) :
    Outcome (Updater × Option ChangeError) :=
  match h : check.type with
  | .error p => .error (.dispatch, p)
  | .ok type =>
    if (type = .scripted ∨ type = .multiHttp) ∧ env.k6 = false then .ok (u, none)
    else if env.factory u.factoryCalls check then .ok (u.start check type h, none)
    else .ok ({ u with factoryCalls := u.factoryCalls + 1 }, some .cannotCreateScraper)

/-- `checks.go:710-730`. -/
def handleCheckUpdateWithLock (env : Env) (u : Updater) (check : Model.Check) :
    Outcome (Updater × Option ChangeError) :=
  match u.scrapers.lookup check.globalID with
  | none => addAndStartScraperWithLock env u check
  | some scraper => addAndStartScraperWithLock env (u.stop check.globalID scraper) check

/-- `checks.go:674-693`. -/
def handleCheckAdd (env : Env) (u : Updater) (check : Model.Check) :
    Outcome (Updater × Option ChangeError) :=
  let u := { u with changesCounter.add := u.changesCounter.add + 1 }
  match validate env check with
  | .error p => .error p
  | .ok (some err) => .ok (u, some (.invalidCheck err))
  | .ok none =>
    match u.scrapers.lookup check.globalID with
    | some running => .ok (u, some (.alreadyExists check.globalID running.configVersion))
    | none => addAndStartScraperWithLock env u check

/-- `checks.go:695-703`. -/
def handleCheckUpdate (env : Env) (u : Updater) (check : Model.Check) :
    Outcome (Updater × Option ChangeError) :=
  let u := { u with changesCounter.update := u.changesCounter.update + 1 }
  match validate env check with
  | .error p => .error p
  | .ok (some err) => .ok (u, some (.invalidCheck err))
  | .ok none => handleCheckUpdateWithLock env u check

/-- `checks.go:732-755`. -/
def handleCheckDelete (u : Updater) (check : Model.Check) : Updater × Option ChangeError :=
  let u := { u with changesCounter.delete := u.changesCounter.delete + 1 }
  match u.scrapers.lookup check.globalID with
  | none => (u, some .checkNotFound)
  | some scraper => (u.stop check.globalID scraper, none)

/-- `checks.go:840-870`; a running check with another version is updated without validation. -/
def handleInitialChangeAddWithLock (env : Env) (u : Updater) (check : Model.Check) :
    Outcome (Updater × Option ChangeError) :=
  match u.scrapers.lookup check.globalID with
  | some running =>
    if running.configVersion = check.configVersion then .ok (u, none)
    else handleCheckUpdateWithLock env u check
  | none =>
    let u := { u with changesCounter.add := u.changesCounter.add + 1 }
    match validate env check with
    | .error p => .error p
    | .ok (some err) => .ok (u, some (.invalidCheck err))
    | .ok none =>
      match addAndStartScraperWithLock env u check with
      | .ok (u, some err) =>
        .ok ({ u with changeErrorsCounter.add := u.changeErrorsCounter.add + 1 }, some err)
      | r => r

/-- One round of the loop over the changes of a full first batch, `checks.go:778-810`. The
state carries the set `newChecks`. -/
def firstBatchChange (env : Env) (s : Updater × List GlobalID) (change : CheckChange) :
    Outcome (Updater × List GlobalID) :=
  match change.operation with
  | .add =>
    let check := Check.fromSM change.check
    match handleInitialChangeAddWithLock env s.1 check with
    | .error p => .error p
    | .ok (u, some _) =>
      .ok ({ u with changeErrorsCounter.add := u.changeErrorsCounter.add + 1 }, s.2)
    | .ok (u, none) => .ok (u, check.globalID :: s.2)
  | _ => .ok s

/-- One round of the loop over the running scrapers, `checks.go:813-830`. -/
def removeUnlisted (newChecks : List GlobalID) (u : Updater) (id : GlobalID) : Updater :=
  if id ∈ newChecks then u
  else match u.scrapers.lookup id with
  | none => u
  | some scraper => u.stop id scraper

/-- `checks.go:771-831`. -/
def handleFirstBatch (env : Env) (u : Updater) (changes : Changes) : Outcome Updater :=
  (changes.checks.foldlM (firstBatchChange env) (u, [])).map fun (u, newChecks) ↦
    u.scrapers.keys.foldl (removeUnlisted newChecks) u

/-- One round of the loop over the changes of a delta batch, `checks.go:882-910`. -/
def deltaChange (env : Env) (u : Updater) (change : CheckChange) : Outcome Updater :=
  let check := Check.fromSM change.check
  match change.operation with
  | .add => (handleCheckAdd env u check).map fun
    | (u, none) => u
    | (u, some _) => { u with changeErrorsCounter.add := u.changeErrorsCounter.add + 1 }
  | .update => (handleCheckUpdate env u check).map fun
    | (u, none) => u
    | (u, some _) => { u with changeErrorsCounter.update := u.changeErrorsCounter.update + 1 }
  | .delete => .ok (match handleCheckDelete u check with
    | (u, none) => u
    | (u, some _) => { u with changeErrorsCounter.delete := u.changeErrorsCounter.delete + 1 })
  | .unrecognized _ => .ok u

/-- `checks.go:872-911`. -/
def handleChangeBatch (env : Env) (u : Updater) (changes : Changes) (firstBatch : Bool) :
    Outcome Updater :=
  if firstBatch && !changes.isDeltaFirstBatch then handleFirstBatch env u changes
  else changes.checks.foldlM (deltaChange env) { u with tenantCh := u.tenantCh ++ changes.tenants }

/-- The messages of one connection, `checks.go:643-672`. -/
def processChanges (env : Env) (u : Updater) : List Changes → Outcome Updater
  | [] => .ok u
  | first :: rest => do
    let u ← handleChangeBatch env u first true
    rest.foldlM (fun u changes ↦ handleChangeBatch env u changes false) u

/-! ### Sample values -/

/-- A ping check with id 7. -/
def pingCheck (modified : Float64) (frequency : Int) : Pb.Check where
  id := 7
  tenantId := 1
  frequency
  timeout := 1000
  enabled := true
  settings := { ping := some {} }
  probes := [1]
  target := GoString.lit "www.example.org"
  job := GoString.lit "job"
  modified

/-- Everything the updater asks for is granted. -/
def permissiveEnv : Env := ⟨Stdlib.permissive, true, fun _ _ ↦ true⟩

end SMAgent.Checks
