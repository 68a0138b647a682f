import SMAgent.Pb.Ids
import SMAgent.Pb.Validate

/-!
# The agent's view of a check

`internal/model/model.go`. A check received with a global id is held with its local id and
its region; a local id is held as it is, with region 0. `FromSM` copies the message by
encoding and decoding it, which loses nothing.
-/

namespace SMAgent.Model
open SMAgent.Base SMAgent.Pb

/-- `model.GlobalID`. -/
abbrev GlobalID := Int

/-- `model.Check`, `model.go:11-14`. -/
structure Check extends Pb.Check where
  regionId : Int := 0
  deriving DecidableEq, Repr

/-- `GetLocalAndRegionIDs`, `model.go:62-70`. -/
def getLocalAndRegionIDs (id : GlobalID) : Int × Int :=
  match globalIDToLocalID id with
  | .ok ids => ids
  | .error _ => (id, 0)

/-- `Check.FromSM`, `model.go:16-38`. -/
def Check.fromSM (check : Pb.Check) : Check :=
  let (id, regionId) := getLocalAndRegionIDs check.id
  let tenantId := if check.tenantId = 0 then 0 else (getLocalAndRegionIDs check.tenantId).1
  { check with id, tenantId, regionId }

/-- The two methods of `model.go:40-56`: an id that has no global form stands for itself. -/
def globalIDOf (id regionId : Int) : GlobalID :=
  match localIDToGlobalID id regionId with
  | .ok globalID => globalID
  | .error _ => id

/-- `Check.GlobalID`, `model.go:40-47`. -/
def Check.globalID (c : Check) : GlobalID := globalIDOf c.id c.regionId

/-- `Check.GlobalTenantID`, `model.go:49-56`. -/
def Check.globalTenantID (c : Check) : GlobalID := globalIDOf c.tenantId c.regionId

/-- In region 0 local and global ids are the same. -/
theorem globalIDOf_zero (id : Int) : globalIDOf id 0 = id := by
  have hregion : ¬ IsRegionIDValid 0 := by decide
  unfold globalIDOf localIDToGlobalID
  rw [if_pos hregion]
  split
  · next h => split at h <;> cases h
  · rfl

/-- Splitting an id and taking its global form is the identity, on every id. -/
theorem globalIDOf_getLocalAndRegionIDs (id : GlobalID) :
    globalIDOf (getLocalAndRegionIDs id).1 (getLocalAndRegionIDs id).2 = id := by
  unfold getLocalAndRegionIDs
  cases h : globalIDToLocalID id with
  | ok ids => simp only [globalIDOf, localIDToGlobalID_of_globalIDToLocalID id ids.1 ids.2 h]
  | error err => exact globalIDOf_zero id

/-- A received check keeps its id. -/
@[simp]
theorem Check.globalID_fromSM (check : Pb.Check) : (Check.fromSM check).globalID = check.id :=
  globalIDOf_getLocalAndRegionIDs check.id

private theorem getLocalAndRegionIDs_ne_zero (id : GlobalID) (h : id ≠ 0) :
    (getLocalAndRegionIDs id).1 ≠ 0 := by
  intro h0
  have hid := globalIDOf_getLocalAndRegionIDs id
  rw [h0] at hid
  exact h hid.symm

/-- A received check has no tenant exactly when the message has none. -/
theorem Check.tenantId_fromSM_eq_zero (check : Pb.Check) :
    (Check.fromSM check).tenantId = 0 ↔ check.tenantId = 0 := by
  have hdef : (Check.fromSM check).tenantId =
      if check.tenantId = 0 then 0 else (getLocalAndRegionIDs check.tenantId).1 := rfl
  rw [hdef]
  split
  · next h => exact ⟨fun _ ↦ h, fun _ ↦ rfl⟩
  · next h => exact ⟨fun h0 ↦ absurd h0 (getLocalAndRegionIDs_ne_zero _ h), fun h0 ↦ absurd h0 h⟩

/-- A received check is refused early exactly when the message is. -/
theorem Check.rejectedEarly_fromSM (check : Pb.Check) :
    (Check.fromSM check).RejectedEarly ↔ check.RejectedEarly :=
  or_congr_left (Check.tenantId_fromSM_eq_zero check)

end SMAgent.Model
