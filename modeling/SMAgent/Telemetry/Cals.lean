import SMAgent.Base.GoString

/-!
# Cost attribution label keys

`internal/telemetry/region_pusher.go:239-275`. The labels of an execution are joined into
one map key, and the key is parsed back to rebuild them. Neither side escapes the two
separators, so the round trip holds exactly on labels free of them.
-/

namespace SMAgent.Telemetry
open SMAgent.Base
open GoString (lit byte)

/-- `sm.CostAttributionLabel`, `pkg/pb/synthetic_monitoring/checks.proto:326-329`. -/
structure CostAttributionLabel where
  name : GoString
  value : GoString
  deriving DecidableEq, Repr

/-- Key of the empty label list, `region_pusher.go:17`. -/
def calNilStringTerminator : GoString := lit "__MISSING__"

/-- `slices.SortFunc` by label name. The sort is not stable; names are distinct. -/
def sortCals (cals : List CostAttributionLabel) : List CostAttributionLabel :=
  cals.insertionSort (fun a b ↦ a.name ≤ b.name)

/-- `fmt.Sprintf("%s=%s", label.Name, label.Value)`. -/
def calPart (label : CostAttributionLabel) : GoString :=
  label.name ++ byte '=' :: label.value

/-- `region_pusher.go:239-257`. -/
def serializeCALs (cals : List CostAttributionLabel) : GoString :=
  if cals = [] then calNilStringTerminator
  else GoString.join ((sortCals cals).map calPart) (byte ',')

/-- One round of the loop in `deserializeCals`: `c[0]` always exists, `c[1]` need not. -/
def parseCal (cal : GoString) : Except Panic CostAttributionLabel :=
  match GoString.split cal (byte '=') with
  | name :: value :: _ => .ok ⟨name, value⟩
  | _ => .error .indexOutOfRange

/-- `region_pusher.go:259-275`. -/
def deserializeCals (calKey : GoString) : Except Panic (List CostAttributionLabel) :=
  if calKey = calNilStringTerminator then .ok []
  else (GoString.split calKey (byte ',')).mapM parseCal

/-- Neither the name nor the value holds a separator of the key format. -/
def CostAttributionLabel.Plain (label : CostAttributionLabel) : Prop :=
  (byte ',' ∉ label.name ∧ byte '=' ∉ label.name) ∧
    byte ',' ∉ label.value ∧ byte '=' ∉ label.value

instance (label : CostAttributionLabel) : Decidable label.Plain :=
  inferInstanceAs (Decidable (_ ∧ _))

/-- Sorting only permutes. -/
theorem sortCals_perm (cals : List CostAttributionLabel) : (sortCals cals).Perm cals :=
  List.perm_insertionSort _ cals

/-- The sorted list is in name order. -/
theorem sortCals_sorted (cals : List CostAttributionLabel) :
    (sortCals cals).Pairwise (fun a b ↦ a.name ≤ b.name) := by
  have : Std.Total (fun a b : CostAttributionLabel ↦ a.name ≤ b.name) :=
    ⟨fun a b ↦ List.le_total a.name b.name⟩
  have : IsTrans CostAttributionLabel (fun a b ↦ a.name ≤ b.name) :=
    ⟨fun _ _ _ ↦ List.le_trans⟩
  exact List.pairwise_insertionSort _ cals

private theorem notMem_calPart (label : CostAttributionLabel) (h : label.Plain) :
    byte ',' ∉ calPart label := by
  intro hm
  rcases List.mem_append.mp hm with hm | hm
  · exact h.1.1 hm
  · rcases List.mem_cons.mp hm with hm | hm
    · revert hm; decide
    · exact h.2.1 hm

private theorem parseCal_calPart (label : CostAttributionLabel) (h : label.Plain) :
    parseCal (calPart label) = .ok label := by
  have hj : calPart label = GoString.join [label.name, label.value] (byte '=') := by
    simp [calPart, GoString.join, List.intercalate]
  have hs := GoString.split_join [label.name, label.value] (byte '=') (by simp) (by
    intro p hp
    rcases List.mem_cons.mp hp with rfl | hp
    · exact h.1.2
    · rw [List.mem_singleton.mp hp]
      exact h.2.2)
  rw [parseCal, hj, hs]

private theorem mapM_parseCal (labels : List CostAttributionLabel) (h : ∀ l ∈ labels, l.Plain) :
    (labels.map calPart).mapM parseCal = .ok labels := by
  induction labels with
  | nil => rfl
  | cons label rest ih =>
    rw [List.map_cons, List.mapM_cons, parseCal_calPart label (h label (by simp)),
      ih (fun l hl ↦ h l (by simp [hl]))]
    rfl

private theorem equals_mem_join (part : GoString) (rest : List GoString)
    (h : byte '=' ∈ part) :
    byte '=' ∈ GoString.join (part :: rest) (byte ',') := by
  cases rest with
  | nil => simpa [GoString.join, List.intercalate] using h
  | cons q rest => simp [GoString.join, List.intercalate, h]

/-- A key built from labels holds an equals sign, so it is never the nil terminator. -/
theorem serializeCALs_ne_terminator (cals : List CostAttributionLabel) (hn : cals ≠ []) :
    serializeCALs cals ≠ calNilStringTerminator := by
  intro he
  rw [serializeCALs, if_neg hn] at he
  cases hs : sortCals cals with
  | nil => exact hn (List.perm_nil.mp (hs ▸ (sortCals_perm cals).symm))
  | cons label rest =>
    rw [hs, List.map_cons] at he
    have hm := equals_mem_join (calPart label) (rest.map calPart) (by simp [calPart])
    rw [he] at hm
    revert hm
    decide

/-- Parsing a key rebuilds the sorted labels when no label holds a separator. -/
theorem deserializeCals_serializeCALs (cals : List CostAttributionLabel)
    (h : ∀ l ∈ cals, l.Plain) : deserializeCals (serializeCALs cals) = .ok (sortCals cals) := by
  by_cases hn : cals = []
  · subst hn
    rfl
  · have hp : ∀ l ∈ sortCals cals, l.Plain := fun l hl ↦ h l ((sortCals_perm cals).mem_iff.mp hl)
    have hne : (sortCals cals).map calPart ≠ [] := by
      rw [Ne, List.map_eq_nil_iff]
      exact fun he ↦ hn (List.perm_nil.mp (he ▸ (sortCals_perm cals).symm))
    rw [deserializeCals, if_neg (serializeCALs_ne_terminator cals hn), serializeCALs,
      if_neg hn, GoString.split_join _ _ hne, mapM_parseCal _ hp]
    intro p hm
    obtain ⟨l, hl, rfl⟩ := List.mem_map.mp hm
    exact notMem_calPart l (hp l hl)

private theorem parseCal_plain (cal : GoString) (label : CostAttributionLabel)
    (hc : byte ',' ∉ cal) (h : parseCal cal = .ok label) : label.Plain := by
  unfold parseCal at h
  split at h
  · next name value rest hs =>
    have hname : name ∈ GoString.split cal (byte '=') := by simp [hs]
    have hvalue : value ∈ GoString.split cal (byte '=') := by simp [hs]
    cases h
    exact ⟨⟨fun hm ↦ hc (GoString.mem_of_mem_split _ _ _ hname _ hm),
      GoString.notMem_of_mem_split _ _ _ hname⟩,
      fun hm ↦ hc (GoString.mem_of_mem_split _ _ _ hvalue _ hm),
      GoString.notMem_of_mem_split _ _ _ hvalue⟩
  · cases h

private theorem mapM_parseCal_plain (parts : List GoString) (labels : List CostAttributionLabel)
    (hc : ∀ p ∈ parts, byte ',' ∉ p) (h : parts.mapM parseCal = .ok labels) :
    ∀ l ∈ labels, l.Plain := by
  induction parts generalizing labels with
  | nil =>
    cases h
    simp
  | cons part rest ih =>
    rw [List.mapM_cons] at h
    cases hp : parseCal part with
    | error p => rw [hp] at h; cases h
    | ok label =>
      cases hr : rest.mapM parseCal with
      | error p => rw [hp, hr] at h; cases h
      | ok tail =>
        rw [hp, hr] at h
        cases h
        intro l hl
        rcases List.mem_cons.mp hl with rfl | hl
        · exact parseCal_plain part l (hc part (by simp)) hp
        · exact ih tail (fun p hm ↦ hc p (by simp [hm])) hr l hl

/-- Whatever a key is parsed into, the resulting labels hold no separator. -/
theorem deserializeCals_plain (key : GoString) (labels : List CostAttributionLabel)
    (h : deserializeCals key = .ok labels) : ∀ l ∈ labels, l.Plain := by
  unfold deserializeCals at h
  split at h
  · cases h
    simp
  · exact mapM_parseCal_plain _ labels
      (fun p hp ↦ GoString.notMem_of_mem_split _ _ p hp) h

/-- The key determines the sorted labels when no label holds a separator. -/
theorem sortCals_eq_of_serializeCALs_eq (a b : List CostAttributionLabel)
    (ha : ∀ l ∈ a, l.Plain) (hb : ∀ l ∈ b, l.Plain) (h : serializeCALs a = serializeCALs b) :
    sortCals a = sortCals b := by
  have hd := congrArg deserializeCals h
  rw [deserializeCals_serializeCALs a ha, deserializeCals_serializeCALs b hb] at hd
  exact Except.ok.inj hd

end SMAgent.Telemetry
