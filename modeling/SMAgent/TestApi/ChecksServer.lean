import SMAgent.Checks.Running

/-!
# The checks server

`cmd/test-api/internal/grpc/checks.go:259-485`, for one probe. The server keeps the ids of the
checks that the probe should be running. It tells the probe about every change to that set,
rewriting the operations of an update according to what the probe already runs.
-/

namespace SMAgent.TestApi
open SMAgent.Base SMAgent.Pb SMAgent.Checks

/-- `checksSet`. -/
abbrev ChecksSet := Finset Int

/-- `sm.EntityRef`. -/
structure EntityRef where
  id : Int
  lastModified : Float64
  deriving DecidableEq, Repr

/-- `sm.ProbeState`: the checks that the agent reports as running. -/
abbrev ProbeState := List EntityRef

/-- `sm.CheckChange{Operation: CHECK_DELETE, Check: sm.Check{Id: id}}`. -/
def deletion (id : Int) : CheckChange := ⟨.delete, { id }⟩

/-- `panic("unhandled operation")`. -/
def unhandledOperation : Panic := .explicit (GoString.lit "unhandled operation")

/-- `filterUpdate`, `checks.go:298-416`. The loop over the probes returns at the first that is
this one. -/
def filterUpdate (probeID : Int) (up : CheckChange) (existingChecks : ChecksSet) :
    Except Panic (Option CheckChange) :=
  if probeID ∈ up.check.probes then
    if up.check.id ∈ existingChecks then
      if up.check.enabled then .ok (some up) else .ok (some (deletion up.check.id))
    else if up.check.enabled = false then .ok none
    else match up.operation with
      | .delete => .ok none
      | .add => .ok (some up)
      | .update => .ok (some ⟨.add, up.check⟩)
      | .unrecognized _ => .error unhandledOperation
  else if up.check.id ∉ existingChecks then .ok none
  else match up.operation with
    | .add => .ok (some (deletion up.check.id))
    | .delete => .ok (some up)
    | .update => .ok (some (deletion up.check.id))
    | .unrecognized _ => .error unhandledOperation

/-- The bookkeeping for a change that is passed on, `checks.go:270-281`. -/
def recordChange (existingChecks : ChecksSet) (change : CheckChange) : ChecksSet :=
  match change.operation with
  | .add => insert change.check.id existingChecks
  | .delete => existingChecks.erase change.check.id
  | _ => existingChecks

/-- One round of the loop of `processUpdate`, `checks.go:262-282`. -/
def updateChange (probeID : Int) (s : List CheckChange × ChecksSet) (up : CheckChange) :
    Except Panic (List CheckChange × ChecksSet) :=
  (filterUpdate probeID up s.2).map fun
    | none => s
    | some change => (s.1 ++ [change], recordChange s.2 change)

/-- `processUpdate`, `checks.go:259-296`: the message that is sent, if any, and the new set. -/
def processUpdate (probeID : Int) (existingChecks : ChecksSet) (update : Changes) :
    Except Panic (Option Changes × ChecksSet) :=
  (update.checks.foldlM (updateChange probeID) ([], existingChecks)).map fun (checks, existing) ↦
    (if checks = [] ∧ update.tenants = [] then none else some { update with checks }, existing)

/-- `knownChecks`, `checks.go:433-436`. -/
def knownChecks (currentState : ProbeState) : GoMap Int Float64 :=
  currentState.foldl (fun m e ↦ m.insert e.id e.lastModified) ∅

/-- The change for an enabled check of the database, `checks.go:441-462`. -/
def initialChange (known : GoMap Int Float64) (check : Pb.Check) : Option CheckChange :=
  if check.enabled then
    match known.lookup check.id with
    | none => some ⟨.add, check⟩
    | some modTime => if modTime.eq check.modified then none else some ⟨.update, check⟩
  else none

/-- The set `m` after the loop of `checks.go:440-463`. -/
def enabledChecks (checks : List Pb.Check) : ChecksSet :=
  ((checks.filter fun check ↦ check.enabled).map Pb.Check.id).toFinset

/-- `sendInitialChanges`, `checks.go:421-485`: the message that is sent, if any, and the set.
`checks` is the answer of `ListChecksForProbe`. -/
def sendInitialChanges (checks : List Pb.Check) (currentState : ProbeState) :
    Option Changes × ChecksSet :=
  if checks = [] ∧ currentState = [] then (none, ∅)
  else
    (some {
      checks := checks.filterMap (initialChange (knownChecks currentState)) ++
        ((knownChecks currentState).keys.filter fun id ↦ id ∉ enabledChecks checks).map deletion
      isDeltaFirstBatch := currentState ≠ [] }, enabledChecks checks)

/-- One update in the loop of `GetChanges`, `checks.go:124-138`, with the messages sent so
far. -/
def serveUpdate (probeID : Int) (s : List Changes × ChecksSet) (update : Changes) :
    Except Panic (List Changes × ChecksSet) :=
  (processUpdate probeID s.2 update).map fun (message, existing) ↦
    (s.1 ++ message.toList, existing)

/-- `GetChanges`, `checks.go:104-151`: the messages sent and the set after the updates. -/
def getChanges (probeID : Int) (checks : List Pb.Check) (currentState : ProbeState)
    (updates : List Changes) : Except Panic (List Changes × ChecksSet) :=
  updates.foldlM (serveUpdate probeID)
    ((sendInitialChanges checks currentState).1.toList, (sendInitialChanges checks currentState).2)

/-- The state that the agent reports, `internal/checks/checks.go:473-482`. -/
def probeState (u : Updater) : ProbeState :=
  u.scrapers.range.map fun (id, scraper) ↦ ⟨id, scraper.check.modified⟩

end SMAgent.TestApi
