import Mathlib.Tactic.Common

/-!
# Local and global ids

`pkg/pb/synthetic_monitoring/ids.go`. A local id is positive; a global id is the negated
decimal juxtaposition of a local id and a region id. The range checks come before the
arithmetic, so no `int64` operation overflows and ids are integers here.
-/

namespace SMAgent.Pb

/-- The errors of `ids.go:126-162`. -/
inductive IdError where
  | badRegionID (id : Int)
  | badLocalID (id : Int)
  | badGlobalID (id : Int)
  deriving DecidableEq, Repr

/-- `IsRegionIDValid`, `ids.go:87-89`. -/
def IsRegionIDValid (id : Int) : Prop := 1 ≤ id ∧ id ≤ 999

/-- `IsLocalIDValid`, `ids.go:91-93`. -/
def IsLocalIDValid (id : Int) : Prop := 1 ≤ id ∧ id ≤ 9223372036854774

/-- `IsGlobalIDValid`, `ids.go:82-84`. -/
def IsGlobalIDValid (id : Int) : Prop := -9223372036854774999 ≤ id ∧ id ≤ -1001

instance (id : Int) : Decidable (IsRegionIDValid id) := inferInstanceAs (Decidable (_ ∧ _))
instance (id : Int) : Decidable (IsLocalIDValid id) := inferInstanceAs (Decidable (_ ∧ _))
instance (id : Int) : Decidable (IsGlobalIDValid id) := inferInstanceAs (Decidable (_ ∧ _))

/-- `ids.go:97-107`. -/
def localIDToGlobalID (localID regionID : Int) : Except IdError Int :=
  if ¬ IsLocalIDValid localID then .error (.badLocalID localID)
  else if ¬ IsRegionIDValid regionID then .error (.badRegionID regionID)
  else .ok (-(localID * 1000 + regionID))

/-- `ids.go:110-123`; Go's division and remainder truncate towards zero. -/
def globalIDToLocalID (globalID : Int) : Except IdError (Int × Int) :=
  if ¬ IsGlobalIDValid globalID then .error (.badGlobalID globalID)
  else if ¬ IsRegionIDValid ((-globalID).tmod 1000) then .error (.badGlobalID globalID)
  else .ok ((-globalID).tdiv 1000, (-globalID).tmod 1000)

/-- Splitting a global id and joining the parts gives the id back. -/
theorem localIDToGlobalID_of_globalIDToLocalID (id localID regionID : Int)
    (h : globalIDToLocalID id = .ok (localID, regionID)) :
    localIDToGlobalID localID regionID = .ok id := by
  unfold globalIDToLocalID at h
  split at h
  · cases h
  · next hg =>
    split at h
    · cases h
    · next hr =>
      obtain ⟨rfl, rfl⟩ := Prod.mk.inj (Except.ok.inj h)
      obtain ⟨hlo, hhi⟩ := not_not.mp hg
      have hdiv : (-id).tdiv 1000 = -id / 1000 := Int.tdiv_eq_ediv_of_nonneg (by omega)
      have hmod : (-id).tmod 1000 = -id % 1000 := Int.tmod_eq_emod_of_nonneg (by omega)
      rw [localIDToGlobalID, if_neg, if_neg hr, hdiv, hmod]
      · congr 1
        omega
      · rw [hdiv, not_not]
        exact ⟨by omega, by omega⟩

/-- Joining succeeds exactly on valid parts. -/
theorem localIDToGlobalID_eq_ok {localID regionID id : Int} :
    localIDToGlobalID localID regionID = .ok id ↔ IsLocalIDValid localID ∧
      IsRegionIDValid regionID ∧ id = -(localID * 1000 + regionID) := by
  unfold localIDToGlobalID
  constructor
  · intro h
    split at h
    · cases h
    · next hl =>
      split at h
      · cases h
      · next hr => exact ⟨not_not.mp hl, not_not.mp hr, (Except.ok.inj h).symm⟩
  · rintro ⟨hl, hr, rfl⟩
    rw [if_neg (not_not.mpr hl), if_neg (not_not.mpr hr)]

/-- Splitting and joining are inverse to each other, with the same domain and image. -/
theorem globalIDToLocalID_eq_ok {localID regionID id : Int} :
    globalIDToLocalID id = .ok (localID, regionID) ↔
      localIDToGlobalID localID regionID = .ok id := by
  constructor
  · exact localIDToGlobalID_of_globalIDToLocalID id localID regionID
  · intro h
    obtain ⟨⟨hl, hl'⟩, ⟨hr, hr'⟩, rfl⟩ := localIDToGlobalID_eq_ok.mp h
    have hneg : -(-(localID * 1000 + regionID)) = localID * 1000 + regionID := by omega
    have hdiv : (localID * 1000 + regionID).tdiv 1000 = localID := by
      rw [Int.tdiv_eq_ediv_of_nonneg (by omega)]
      omega
    have hmod : (localID * 1000 + regionID).tmod 1000 = regionID := by
      rw [Int.tmod_eq_emod_of_nonneg (by omega)]
      omega
    have hglobal : IsGlobalIDValid (-(localID * 1000 + regionID)) := ⟨by omega, by omega⟩
    unfold globalIDToLocalID
    rw [hneg, hdiv, hmod, if_neg (not_not.mpr hglobal), if_neg (not_not.mpr ⟨hr, hr'⟩)]

end SMAgent.Pb
