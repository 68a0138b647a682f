import SMAgent.Model.Check

/-!
# Global ids in machine integers, and in checks

The conversions of `pkg/pb/synthetic_monitoring/ids.go` once more, now on the 64-bit integers
of the source, whose operations wrap around. Under the range checks nothing wraps, so they
compute what the conversions on integers compute, and both are bijections between the valid
pairs and the ids that have a region. A check keeps its id, and its tenant id unless the two
disagree about the region.
-/

namespace SMAgent.Pb

/-! ### The conversions on 64-bit integers -/

/-- `LocalIDToGlobalID`, `ids.go:95-107`, with the arithmetic of the machine. -/
def localIDToGlobalID64 (localID regionID : Int64) : Except IdError Int64 :=
  if ¬ (1 ≤ localID ∧ localID ≤ 9223372036854774) then .error (.badLocalID localID.toInt)
  else if ¬ (1 ≤ regionID ∧ regionID ≤ 999) then .error (.badRegionID regionID.toInt)
  else .ok (-(localID * 1000 + regionID))

/-- `GlobalIDToLocalID`, `ids.go:109-123`, with the arithmetic of the machine. -/
def globalIDToLocalID64 (globalID : Int64) : Except IdError (Int64 × Int64) :=
  if ¬ (-9223372036854774999 ≤ globalID ∧ globalID ≤ -1001) then
    .error (.badGlobalID globalID.toInt)
  else
    let localID := -globalID / 1000
    let regionID := -globalID % 1000
    if ¬ (1 ≤ regionID ∧ regionID ≤ 999) then .error (.badGlobalID globalID.toInt)
    else .ok (localID, regionID)

private theorem bmod_of_fits {n : Int} (hlow : -2 ^ 63 ≤ n) (hhigh : n < 2 ^ 63) :
    n.bmod (2 ^ 64) = n := by
  apply Int.bmod_eq_of_le
  · omega
  · omega

private theorem valid_local_iff (localID : Int64) :
    (1 ≤ localID ∧ localID ≤ 9223372036854774) ↔ IsLocalIDValid localID.toInt := by
  rw [Int64.le_iff_toInt_le, Int64.le_iff_toInt_le]
  rfl

private theorem valid_region_iff (regionID : Int64) :
    (1 ≤ regionID ∧ regionID ≤ 999) ↔ IsRegionIDValid regionID.toInt := by
  rw [Int64.le_iff_toInt_le, Int64.le_iff_toInt_le]
  rfl

private theorem valid_global_iff (globalID : Int64) :
    (-9223372036854774999 ≤ globalID ∧ globalID ≤ -1001) ↔ IsGlobalIDValid globalID.toInt := by
  rw [Int64.le_iff_toInt_le, Int64.le_iff_toInt_le]
  rfl

/-- No operation of a successful join wraps around. -/
theorem join_exact {localID regionID : Int64} (hl : IsLocalIDValid localID.toInt)
    (hr : IsRegionIDValid regionID.toInt) :
    (localID * 1000).toInt = localID.toInt * 1000 ∧
    (localID * 1000 + regionID).toInt = localID.toInt * 1000 + regionID.toInt ∧
    (-(localID * 1000 + regionID)).toInt = -(localID.toInt * 1000 + regionID.toInt) := by
  obtain ⟨hl, hl'⟩ := hl
  obtain ⟨hr, hr'⟩ := hr
  have hthousand : (1000 : Int64).toInt = 1000 := rfl
  have hmul : (localID * 1000).toInt = localID.toInt * 1000 := by
    rw [Int64.toInt_mul, hthousand, bmod_of_fits]
    · omega
    · omega
  have hadd : (localID * 1000 + regionID).toInt = localID.toInt * 1000 + regionID.toInt := by
    rw [Int64.toInt_add, hmul, bmod_of_fits]
    · omega
    · omega
  refine ⟨hmul, hadd, ?_⟩
  rw [Int64.toInt_neg, hadd, bmod_of_fits]
  · omega
  · omega

/-- No operation of a split wraps around. -/
theorem split_exact {globalID : Int64} (hg : IsGlobalIDValid globalID.toInt) :
    (-globalID).toInt = -globalID.toInt ∧
    (-globalID / 1000).toInt = (-globalID.toInt).tdiv 1000 ∧
    (-globalID % 1000).toInt = (-globalID.toInt).tmod 1000 := by
  obtain ⟨hlow, hhigh⟩ := hg
  have hthousand : (1000 : Int64).toInt = 1000 := rfl
  have hneg : (-globalID).toInt = -globalID.toInt := by
    rw [Int64.toInt_neg, bmod_of_fits]
    · omega
    · omega
  have hdiv : (-globalID.toInt).tdiv 1000 = -globalID.toInt / 1000 :=
    Int.tdiv_eq_ediv_of_nonneg (by omega)
  refine ⟨hneg, ?_, ?_⟩
  · rw [Int64.toInt_div, hneg, hthousand, hdiv, bmod_of_fits]
    · omega
    · omega
  · rw [Int64.toInt_mod, hneg, hthousand]

private theorem localIDToGlobalID64_eq_ok {localID regionID id : Int64} :
    localIDToGlobalID64 localID regionID = .ok id ↔
      localIDToGlobalID localID.toInt regionID.toInt = .ok id.toInt := by
  rw [localIDToGlobalID_eq_ok, ← valid_local_iff, ← valid_region_iff]
  unfold localIDToGlobalID64
  constructor
  · intro h
    split at h
    · cases h
    · next hl =>
      split at h
      · cases h
      · next hr =>
        have hl := not_not.mp hl
        have hr := not_not.mp hr
        rw [← Except.ok.inj h]
        exact ⟨hl, hr, (join_exact ((valid_local_iff _).mp hl) ((valid_region_iff _).mp hr)).2.2⟩
  · rintro ⟨hl, hr, hid⟩
    rw [if_neg (not_not.mpr hl), if_neg (not_not.mpr hr)]
    congr 1
    apply Int64.toInt_inj.mp
    rw [hid, (join_exact ((valid_local_iff _).mp hl) ((valid_region_iff _).mp hr)).2.2]

private theorem globalIDToLocalID64_eq_ok {localID regionID id : Int64} :
    globalIDToLocalID64 id = .ok (localID, regionID) ↔
      globalIDToLocalID id.toInt = .ok (localID.toInt, regionID.toInt) := by
  unfold globalIDToLocalID64 globalIDToLocalID
  by_cases hg : IsGlobalIDValid id.toInt
  · obtain ⟨-, hdiv, hmod⟩ := split_exact hg
    rw [if_neg (not_not.mpr ((valid_global_iff id).mpr hg)), if_neg (not_not.mpr hg)]
    dsimp only
    have hregion : (1 ≤ -id % 1000 ∧ -id % 1000 ≤ 999) ↔
        IsRegionIDValid ((-id.toInt).tmod 1000) := hmod ▸ valid_region_iff (-id % 1000)
    by_cases hr : IsRegionIDValid ((-id.toInt).tmod 1000)
    · rw [if_neg (not_not.mpr (hregion.mpr hr)), if_neg (not_not.mpr hr), Except.ok.injEq,
        Except.ok.injEq, Prod.mk.injEq, Prod.mk.injEq, ← hdiv, ← hmod, Int64.toInt_inj,
        Int64.toInt_inj]
    · have hr' : ¬ (1 ≤ -id % 1000 ∧ -id % 1000 ≤ 999) := fun h ↦ hr (hregion.mp h)
      simp only [if_pos hr, if_pos hr', reduceCtorEq]
  · have hg' : ¬ (-9223372036854774999 ≤ id ∧ id ≤ -1001) := fun h ↦ hg ((valid_global_iff id).mp h)
    simp only [if_pos hg, if_pos hg', reduceCtorEq]

end SMAgent.Pb

namespace SMAgent.Model
open SMAgent.Pb

/-! ### Ids in checks -/

/-- A global id: the join of a local id and a region. -/
def IsGlobalID (id : Int) : Prop := ∃ localID regionID, localIDToGlobalID localID regionID = .ok id

private theorem getLocalAndRegionIDs_of_not {id : GlobalID} (h : ¬ IsGlobalID id) :
    getLocalAndRegionIDs id = (id, 0) := by
  unfold getLocalAndRegionIDs
  cases hid : globalIDToLocalID id with
  | error err => rfl
  | ok ids => exact absurd ⟨ids.1, ids.2, globalIDToLocalID_eq_ok.mp hid⟩ h

private theorem getLocalAndRegionIDs_of_ok {id : GlobalID} {localID regionID : Int}
    (h : localIDToGlobalID localID regionID = .ok id) :
    getLocalAndRegionIDs id = (localID, regionID) := by
  unfold getLocalAndRegionIDs
  rw [globalIDToLocalID_eq_ok.mpr h]

private theorem region_of_remainder {id id' : GlobalID} (h : IsGlobalIDValid id)
    (h' : IsGlobalIDValid id') (hmod : (-id).tmod 1000 = (-id').tmod 1000) :
    (getLocalAndRegionIDs id).2 = (getLocalAndRegionIDs id').2 := by
  unfold getLocalAndRegionIDs globalIDToLocalID
  rw [if_neg (not_not.mpr h), if_neg (not_not.mpr h'), hmod]
  by_cases hr : IsRegionIDValid ((-id').tmod 1000)
  · rw [if_neg (not_not.mpr hr), if_neg (not_not.mpr hr)]
  · rw [if_pos hr, if_pos hr]

private theorem IsGlobalID.valid {id : Int} (h : IsGlobalID id) : IsGlobalIDValid id := by
  obtain ⟨localID, regionID, hid⟩ := h
  obtain ⟨⟨hl, hl'⟩, ⟨hr, hr'⟩, rfl⟩ := localIDToGlobalID_eq_ok.mp hid
  exact ⟨by omega, by omega⟩

private theorem globalTenantID_of_region (check : Pb.Check)
    (h : (getLocalAndRegionIDs check.tenantId).2 = (getLocalAndRegionIDs check.id).2) :
    (Check.fromSM check).globalTenantID = check.tenantId := by
  have hdef : (Check.fromSM check).globalTenantID =
      globalIDOf (if check.tenantId = 0 then 0 else (getLocalAndRegionIDs check.tenantId).1)
        (getLocalAndRegionIDs check.id).2 := rfl
  rw [hdef, ← h]
  split
  · next h0 =>
    rw [h0]
    rfl
  · exact globalIDOf_getLocalAndRegionIDs check.tenantId

private theorem globalTenantID_of_zero (check : Pb.Check) (h : check.tenantId = 0) :
    (Check.fromSM check).globalTenantID = 0 := by
  have hzero : (Check.fromSM check).tenantId = 0 := (Check.tenantId_fromSM_eq_zero check).mpr h
  rw [Check.globalTenantID, hzero]
  rfl

/-- The tenant id and the id of a check agree about the region: there is no tenant id, both are
global ids of one region, or neither is a global id. A global id may be understood as the join
of two valid parts or, as `IsGlobalIDValid` does, by its range alone. -/
def RegionsAgree (check : Pb.Check) : Prop :=
  check.tenantId = 0 ∨
  (∃ tenantID localID regionID, localIDToGlobalID tenantID regionID = .ok check.tenantId ∧
    localIDToGlobalID localID regionID = .ok check.id) ∨
  (¬ IsGlobalID check.tenantId ∧ ¬ IsGlobalID check.id) ∨
  (IsGlobalIDValid check.tenantId ∧ IsGlobalIDValid check.id ∧
    (-check.tenantId).tmod 1000 = (-check.id).tmod 1000) ∨
  (¬ IsGlobalIDValid check.tenantId ∧ ¬ IsGlobalIDValid check.id)

private theorem globalTenantID_of_regionsAgree {check : Pb.Check} (h : RegionsAgree check) :
    (Check.fromSM check).globalTenantID = check.tenantId := by
  rcases h with h | ⟨_, _, _, ht, hid⟩ | ⟨ht, hid⟩ | ⟨ht, hid, hmod⟩ | ⟨ht, hid⟩
  · rw [globalTenantID_of_zero check h, h]
  · apply globalTenantID_of_region
    rw [getLocalAndRegionIDs_of_ok ht, getLocalAndRegionIDs_of_ok hid]
  · apply globalTenantID_of_region
    rw [getLocalAndRegionIDs_of_not ht, getLocalAndRegionIDs_of_not hid]
  · exact globalTenantID_of_region check (region_of_remainder ht hid hmod)
  · apply globalTenantID_of_region
    rw [getLocalAndRegionIDs_of_not fun h ↦ ht h.valid,
      getLocalAndRegionIDs_of_not fun h ↦ hid h.valid]

/-- On all 64-bit integers, joining a local id and a region succeeds exactly in their ranges,
wraps around nowhere and is injective, and splitting is its inverse; a check gives back its id,
and its tenant id if the two agree about the region. -/
theorem globalIDs_bijective :
    (∀ localID regionID : Int64,
      ((∃ id, localIDToGlobalID64 localID regionID = .ok id) ↔
        (1 ≤ localID.toInt ∧ localID.toInt ≤ 9223372036854774) ∧
          1 ≤ regionID.toInt ∧ regionID.toInt ≤ 999) ∧
      ∀ id, localIDToGlobalID64 localID regionID = .ok id →
        (localID * 1000).toInt = localID.toInt * 1000 ∧
        (localID * 1000 + regionID).toInt = localID.toInt * 1000 + regionID.toInt ∧
        id.toInt = -(localID.toInt * 1000 + regionID.toInt)) ∧
    (∀ localID regionID localID' regionID' id : Int64,
      localIDToGlobalID64 localID regionID = .ok id →
      localIDToGlobalID64 localID' regionID' = .ok id →
      localID = localID' ∧ regionID = regionID') ∧
    (∀ localID regionID id : Int64, globalIDToLocalID64 id = .ok (localID, regionID) ↔
      localIDToGlobalID64 localID regionID = .ok id) ∧
    ∀ check : Pb.Check, (Check.fromSM check).globalID = check.id ∧
      (RegionsAgree check → (Check.fromSM check).globalTenantID = check.tenantId) := by
  have hinverse (localID regionID id : Int64) : globalIDToLocalID64 id = .ok (localID, regionID) ↔
      localIDToGlobalID64 localID regionID = .ok id := by
    rw [globalIDToLocalID64_eq_ok, localIDToGlobalID64_eq_ok, globalIDToLocalID_eq_ok]
  refine ⟨fun localID regionID ↦ ⟨?_, ?_⟩, ?_, hinverse, fun check ↦ ⟨?_, ?_⟩⟩
  · constructor
    · rintro ⟨id, hid⟩
      obtain ⟨hl, hr, -⟩ := localIDToGlobalID_eq_ok.mp (localIDToGlobalID64_eq_ok.mp hid)
      exact ⟨hl, hr⟩
    · rintro ⟨hl, hr⟩
      refine ⟨-(localID * 1000 + regionID), localIDToGlobalID64_eq_ok.mpr ?_⟩
      exact localIDToGlobalID_eq_ok.mpr ⟨hl, hr, (join_exact hl hr).2.2⟩
  · intro id hid
    obtain ⟨hl, hr, hvalue⟩ := localIDToGlobalID_eq_ok.mp (localIDToGlobalID64_eq_ok.mp hid)
    obtain ⟨hmul, hadd, -⟩ := join_exact hl hr
    exact ⟨hmul, hadd, hvalue⟩
  · intro localID regionID localID' regionID' id h h'
    have hsame := ((hinverse _ _ _).mpr h).symm.trans ((hinverse _ _ _).mpr h')
    exact Prod.mk.inj (Except.ok.inj hsame)
  · exact Check.globalID_fromSM check
  · exact globalTenantID_of_regionsAgree

/-- Check 1234 of tenant 5, both in region 3. -/
theorem globalIDs_bijective_regionThree :
    localIDToGlobalID64 1234 3 = .ok (-1234003) ∧ (1234 : Int64) * 1000 = 1234000 ∧
    (Check.fromSM { id := -1234003, tenantId := -5003 }).globalTenantID = -5003 := by
  have hagree : RegionsAgree { id := -1234003, tenantId := -5003 } :=
    .inr (.inl ⟨5, 1234, 3, rfl, rfl⟩)
  have hjoin : localIDToGlobalID64 1234 3 = .ok (-1234003) :=
    (globalIDs_bijective.2.2.1 1234 3 (-1234003)).mp rfl
  refine ⟨hjoin, ?_, (globalIDs_bijective.2.2.2 _).2 hagree⟩
  exact Int64.toInt_inj.mp ((globalIDs_bijective.1 1234 3).2 _ hjoin).1

end SMAgent.Model
