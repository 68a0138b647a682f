import SMAgent.Base.Slices
import SMAgent.Scraper.Labels

/-!
# The labels of the log stream and the overflow

`internal/scraper/scraper.go:677-698`. The merged log labels are cut at the tenant's limit: the
front becomes labels of the stream, beside `probe_success`, and the rest structured metadata of
every entry. The front shares its array with the rest, and `append` writes `probe_success` over
the first label of it, which has been copied by then.
-/

namespace SMAgent.Scraper
open SMAgent.Base SMAgent.Pb

/-- `TenantLimits.LogLabels`, `limits/tenant.go:56-71`, for a tenant that was found;
`sm.MaxLogLabels` without limits. -/
def tenantLogLabels (tenant : Tenant) : Int64 :=
  match tenant.limits with
  | none => 15
  | some limits => Int64.ofInt limits.maxLogLabels

/-- The label that tells the log lines of failures. -/
def probeSuccessLabel (success : Bool) : LabelPair :=
  ⟨.lit "probe_success", .lit (if success then "1" else "0")⟩

/-- The last item of the structured metadata. -/
def executionIdLabel (executionID : GoString) : LabelPair := ⟨.lit "execution_id", executionID⟩

/-- What `extractLogs` gets. -/
structure LogSplit where
  streamLogLabels : List LabelPair
  structuredMetadata : List LabelPair
  deriving DecidableEq, Repr

/-- `scraper.go:684-692`: the slice for the stream, and the metadata that is copied out of the
rest. The subtraction is that of `int`. -/
def cutLogLabels (h : Heap LabelPair) (logLabels : GoSlice) (maxLogLabels : Int64) :
    Except Panic (GoSlice × List LabelPair) :=
  let maxUserLogLabels := (maxLogLabels - 1).toInt
  if maxUserLogLabels < logLabels.len then
    match logLabels.slice 0 maxUserLogLabels with
    | .error p => .error p
    | .ok streamLogLabels =>
      match logLabels.slice maxUserLogLabels logLabels.len with
      | .error p => .error p
      | .ok rest => .ok (streamLogLabels, h.elems rest)
  else .ok (logLabels, [])

/-- `scraper.go:677-698`; `spare` is what a new array has behind the labels. -/
def splitLabels (h : Heap LabelPair) (logLabels : GoSlice) (maxLogLabels : Int64)
    (success : Bool) (executionID : GoString) (spare : List LabelPair) : Except Panic LogSplit :=
  (cutLogLabels h logLabels maxLogLabels).map fun (streamLogLabels, overflowMetadata) ↦
    let appended := h.append streamLogLabels (probeSuccessLabel success) spare
    { streamLogLabels := appended.1.elems appended.2
      structuredMetadata := overflowMetadata ++ [executionIdLabel executionID] }

/-- What the split is for: the labels before `probe_success` and those of the metadata are the
merged list, and the stream keeps to the limit. -/
structure Respects (labels : List LabelPair) (limit : Int64) (success : Bool)
    (executionID : GoString) (r : LogSplit) : Prop where
  length_le : (r.streamLogLabels.length : Int) ≤ max limit.toInt 1
  parts : ∃ kept overflow, kept ++ overflow = labels ∧
    r.streamLogLabels = kept ++ [probeSuccessLabel success] ∧
    r.structuredMetadata = overflow ++ [executionIdLabel executionID]

variable {h : Heap LabelPair} {logLabels : GoSlice}

private theorem cutLogLabels_eq (hin : h.InBounds logLabels) (maxLogLabels : Int64) :
    if (maxLogLabels - 1).toInt < 0 then
      cutLogLabels h logLabels maxLogLabels = .error .indexOutOfRange
    else ∃ s, h.InBounds s ∧
      h.elems s = (h.elems logLabels).take (maxLogLabels - 1).toInt.toNat ∧
      cutLogLabels h logLabels maxLogLabels =
        .ok (s, (h.elems logLabels).drop (maxLogLabels - 1).toInt.toNat) := by
  have hlen := Heap.length_elems hin
  have hcap := logLabels.len_le
  unfold cutLogLabels
  generalize (maxLogLabels - 1).toInt = n
  split
  · next hneg =>
    simp only
    rw [if_pos (by omega), GoSlice.slice, dif_neg (by omega)]
  · next hpos =>
    simp only
    split
    · next hlong =>
      cases hfront : logLabels.slice 0 n with
      | error p =>
        rw [GoSlice.slice, dif_pos (by omega)] at hfront
        cases hfront
      | ok front =>
        cases hrest : logLabels.slice n logLabels.len with
        | error p =>
          rw [GoSlice.slice, dif_pos (by omega)] at hrest
          cases hrest
        | ok rest =>
          refine ⟨front, Heap.inBounds_slice hin hfront, ?_, ?_⟩
          · rw [Heap.elems_slice hfront (by omega)]
            simp
          · have hall : (h.elems logLabels).length - n.toNat ≤ (logLabels.len - n).toNat := by
              omega
            simp only
            rw [Heap.elems_slice hrest (Int.le_refl _), List.take_of_length_le]
            rwa [List.length_drop]
    · next hshort =>
      have hall : (h.elems logLabels).length ≤ n.toNat := by omega
      refine ⟨logLabels, hin, (List.take_of_length_le hall).symm, ?_⟩
      rw [List.drop_of_length_le hall]

private theorem splitLabels_eq (hin : h.InBounds logLabels) (maxLogLabels : Int64) (success : Bool)
    (executionID : GoString) (spare : List LabelPair) :
    splitLabels h logLabels maxLogLabels success executionID spare =
      if (maxLogLabels - 1).toInt < 0 then .error .indexOutOfRange
      else .ok
        { streamLogLabels := (h.elems logLabels).take (maxLogLabels - 1).toInt.toNat ++
            [probeSuccessLabel success]
          structuredMetadata := (h.elems logLabels).drop (maxLogLabels - 1).toInt.toNat ++
            [executionIdLabel executionID] } := by
  have hcut := cutLogLabels_eq hin maxLogLabels
  unfold splitLabels
  split at hcut
  · next hneg => rw [hcut, if_pos hneg, Except.map]
  · next hpos =>
    obtain ⟨s, hs, helems, hok⟩ := hcut
    rw [hok, if_neg hpos, Except.map]
    simp only [Heap.elems_append hs, helems]

private theorem toInt_sub_one {n : Int64} (hn : n ≠ Int64.minValue) :
    (n - 1).toInt = n.toInt - 1 := by
  have hlow := Int64.le_toInt n
  have hhigh := Int64.toInt_lt n
  have hne : n.toInt ≠ -2 ^ 63 := fun heq ↦ hn (Int64.toInt_inj.mp heq)
  rw [Int64.toInt_sub]
  apply Int.bmod_eq_of_le
  · show _ ≤ n.toInt - 1
    omega
  · show n.toInt - 1 < _
    omega

/-- The stream is the one of the list model. -/
theorem streamLogLabels_splitLabels (hin : h.InBounds logLabels) {limit : Int64}
    (hlimit : limit ≠ Int64.minValue) (success : Bool) (executionID : GoString)
    (spare : List LabelPair) :
    (splitLabels h logLabels limit success executionID spare).map LogSplit.streamLogLabels =
      streamLabels (h.elems logLabels) limit.toInt success := by
  rw [splitLabels_eq hin, toInt_sub_one hlimit]
  show _ = (splitLogLabels (h.elems logLabels) limit.toInt).map fun parts ↦
    parts.1 ++ [probeSuccessLabel success]
  rw [splitLogLabels]
  by_cases hneg : limit.toInt - 1 < 0
  · rw [if_pos hneg, if_pos (by omega), if_pos hneg]
    rfl
  · rw [if_neg hneg]
    split
    · rfl
    · next hshort =>
      have hall : (h.elems logLabels).length ≤ (limit.toInt - 1).toNat := by omega
      simp only [Except.map, List.take_of_length_le hall]

/-- The split is right exactly for a limit of at least one. The subtraction wraps around at the
smallest integer, which an empty list does not notice. -/
theorem split_respects_iff (hin : h.InBounds logLabels) (tenant : Tenant) (success : Bool)
    (executionID : GoString) (spare : List LabelPair) :
    (∃ r, splitLabels h logLabels (tenantLogLabels tenant) success executionID spare = .ok r ∧
        Respects (h.elems logLabels) (tenantLogLabels tenant) success executionID r) ↔
      1 ≤ tenantLogLabels tenant ∨
        (tenantLogLabels tenant = Int64.minValue ∧ h.elems logLabels = []) := by
  rw [splitLabels_eq hin]
  generalize tenantLogLabels tenant = limit
  generalize h.elems logLabels = labels
  have hone : 1 ≤ limit ↔ 1 ≤ limit.toInt := Int64.le_iff_toInt_le
  by_cases hmin : limit = Int64.minValue
  · subst hmin
    have hwrap : (Int64.minValue - 1).toInt = 2 ^ 63 - 1 := rfl
    have hlow : Int64.minValue.toInt = -2 ^ 63 := rfl
    rw [hone, hwrap, hlow, if_neg (by omega)]
    constructor
    · rintro ⟨r, hr, hrespects⟩
      obtain rfl := Except.ok.inj hr
      right
      have hlen := hrespects.length_le
      simp only [List.length_append, List.length_take, List.length_cons, List.length_nil] at hlen
      refine ⟨rfl, List.eq_nil_of_length_eq_zero ?_⟩
      rw [hlow] at hlen
      omega
    · rintro (hpos | ⟨-, rfl⟩)
      · omega
      · exact ⟨_, rfl, by simp, [], [], rfl, rfl, rfl⟩
  · rw [toInt_sub_one hmin, hone]
    constructor
    · rintro ⟨r, hr, -⟩
      left
      by_contra hneg
      rw [if_pos (by omega)] at hr
      cases hr
    · rintro (hpos | ⟨hfalse, -⟩)
      · rw [if_neg (by omega)]
        refine ⟨_, rfl, ?_, _, _, List.take_append_drop _ _, rfl, rfl⟩
        simp only [List.length_append, List.length_take, List.length_cons, List.length_nil]
        omega
      · exact absurd hfalse hmin

/-- Three labels, in an array with room for four. -/
def threeLabels : Heap LabelPair :=
  [[⟨.lit "probe", .lit "p"⟩, ⟨.lit "job", .lit "j"⟩, ⟨.lit "team", .lit "t"⟩, ⟨[], []⟩]]

/-- The first three elements of the array. -/
def threeLabelsSlice : GoSlice := ⟨0, 0, 3, 4, by decide⟩

private theorem inBounds_threeLabels : threeLabels.InBounds threeLabelsSlice := Nat.le_refl 4

/-- With the limit of two one label stays beside `probe_success`. -/
theorem split_respects_two : ∃ r,
    splitLabels threeLabels threeLabelsSlice 2 true (.lit "id") [] = .ok r ∧
      Respects (threeLabels.elems threeLabelsSlice) 2 true (.lit "id") r :=
  (split_respects_iff inBounds_threeLabels { limits := some { maxLogLabels := 2 } } true (.lit "id")
    []).mpr (.inl (by decide))

/-- A message that sets the other limit only: this one means zero, and the slice expression
panics. -/
theorem split_panics_unset :
    splitLabels threeLabels threeLabelsSlice
      (tenantLogLabels { limits := some { maxMetricLabels := 20 } }) true (.lit "id") [] =
        .error .indexOutOfRange := rfl

end SMAgent.Scraper
