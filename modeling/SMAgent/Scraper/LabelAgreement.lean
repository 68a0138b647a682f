import SMAgent.Scraper.Labels

/-!
# Agreement of the outputs on user labels

`sm_check_info` and the execution series keep the first user label of a name, the logs the
last. The names repeat in two ways: a probe may repeat a label name (only a check may not), and
the prefixed form of one label may be the name of another. The outputs agree exactly when the
labels in question have one value.
-/

namespace SMAgent.Scraper
open SMAgent.Base SMAgent.Pb

/-- A user label named `k` is emitted under the name `n`. -/
def Produces (mode : LabelMode) (k n : GoString) : Prop :=
  (mode ≠ .unprefixed ∧ n = prefixedName k) ∨
    (mode ≠ .prefixed ∧ isSystemLabel k = false ∧ n = k)

/-- The value of the first label with the name. -/
def firstValue (labels : List Pb.Label) (k : GoString) : Option GoString :=
  (Keyed.first Pb.Label.name k labels).map Pb.Label.value

/-- The value of the last label with the name. -/
def lastValue (labels : List Pb.Label) (k : GoString) : Option GoString :=
  (Keyed.last Pb.Label.name k labels).map Pb.Label.value

namespace ScraperConfig

variable (s : ScraperConfig)

/-- The values by name on `sm_check_info`, on the execution series and in the log labels. -/
def outputs (geohash : GoString) (mode : LabelMode) : List (GoString → Option GoString) :=
  [fun n ↦ (s.buildCheckInfoLabels geohash mode).lookup n,
    valueOf (s.executionMetricLabels mode), valueOf (s.logLabels mode)]

/-- The probe or the check has a label with the name. -/
def IsUser (k : GoString) : Prop := ∃ l ∈ s.probe.labels ++ s.check.labels, l.name = k

/-- The check has a label with the name. -/
def IsChecks (k : GoString) : Prop := ∃ l ∈ s.check.labels, l.name = k

/-- The value a user label has: the check's, or the last one of the probe. -/
def effective (k : GoString) : Option GoString :=
  (lastValue s.check.labels k).or (lastValue s.probe.labels k)

/-- The probe has several labels with the name. -/
def Repeated (k : GoString) : Prop := 2 ≤ Keyed.count Pb.Label.name k s.probe.labels

instance (k : GoString) : Decidable (s.Repeated k) := Nat.decLe _ _

/-- The value that comes first: a repeated name keeps the first one of the probe, because the
check's takes the place of the last. -/
def leading (k : GoString) : Option GoString :=
  if s.Repeated k then firstValue s.probe.labels k else s.effective k

/-- Every output shows a repeated name. Otherwise it is reserved, so only its prefixed form is
emitted, and that is the name of a label too, whose value the logs show. -/
def Exposed (mode : LabelMode) (k : GoString) : Prop :=
  match mode with
  | .prefixed | .unrecognized _ => True
  | .unprefixed => isSystemLabel k = false
  | .dualWrite => isSystemLabel k = false ∨ ¬ s.IsUser (prefixedName k) ∨ s.IsChecks k

end ScraperConfig

/-- The outputs agree on the names made of user labels, with the check's value before the
probe's, and no output has a name twice. -/
structure ValuesAgree (s : ScraperConfig) (geohash : GoString) (mode : LabelMode) : Prop where
  same : ∀ k n, s.IsUser k → Produces mode k n →
    ∀ o ∈ s.outputs geohash mode, ∀ o' ∈ s.outputs geohash mode, ∀ v w,
      o n = some v → o' n = some w → v = w
  check : ∀ l ∈ s.check.labels, ∀ n, Produces mode l.name n →
    ∀ o ∈ s.outputs geohash mode, ∀ v, o n = some v → v = l.value
  probe : ∀ n, (∃ l ∈ s.probe.labels, Produces mode l.name n) →
    (∀ l ∈ s.check.labels, ¬ Produces mode l.name n) →
    ∀ o ∈ s.outputs geohash mode, ∀ v, o n = some v →
      ∃ l ∈ s.probe.labels, Produces mode l.name n ∧ l.value = v
  distinct : ((s.buildCheckInfoLabels geohash mode).range.map Prod.fst).Nodup ∧
    (names (s.executionMetricLabels mode)).Nodup ∧ (names (s.logLabels mode)).Nodup

/-- The labels that meet under one name have one value: those that the probe repeats, a label
and one named by its prefixed form, and, in a mode without a name, where only the execution
series show it, a label named like the one for the alert sensitivity. -/
structure Consistent (s : ScraperConfig) (mode : LabelMode) : Prop where
  repeated : ∀ k, s.Repeated k → s.Exposed mode k →
    firstValue s.probe.labels k = s.effective k
  collision : mode ≠ .prefixed → mode ≠ .unprefixed → ∀ k, s.IsUser k →
    s.IsUser (prefixedName k) → s.leading k = s.effective (prefixedName k)
  sensitivity : ∀ v, mode = .unrecognized v → s.check.alertSensitivity ≠ [] →
    s.check.alertSensitivity ≠ .lit "none" → s.IsUser (.lit "alert_sensitivity") →
    s.effective (.lit "alert_sensitivity") = some s.check.alertSensitivity

/-! ### The merged user labels by name -/

private theorem prefixedName_injective :
    prefixedName.Injective := fun _ _ h ↦ List.append_cancel_left h

/-- No reserved name has the prefix. -/
theorem isSystemLabel_prefixedName (k : GoString) : isSystemLabel (prefixedName k) = false := by
  have hall : ∀ n ∈ systemLabels, ¬ GoString.lit "label_" <+: n := by decide
  exact decide_eq_false fun h ↦ hall _ h (List.prefix_append _ _)

section Merged

variable (s : ScraperConfig)

/-- The user labels before the mode is applied. -/
abbrev merged : List LabelPair := mergeUserLabels s.probe.labels s.check.labels

private theorem mem_names_merged {s : ScraperConfig} {k : GoString} :
    k ∈ names (merged s) ↔ s.IsUser k := mem_names_mergeUserLabels

private theorem valueOf_map_toPair (labels : List Pb.Label) (k : GoString) :
    valueOf (labels.map toPair) k = firstValue labels k := by
  have hmap : Keyed.first Label.name (id k) (labels.map toPair) =
      (Keyed.first Pb.Label.name k labels).map toPair :=
    Keyed.first_map Function.injective_id (fun _ ↦ by rfl) k labels
  exact (congrArg (Option.map Label.value) hmap).trans (Option.map_map ..)

private theorem lastValueOf_map_toPair (labels : List Pb.Label) (k : GoString) :
    lastValueOf (labels.map toPair) k = lastValue labels k := by
  rw [lastValueOf, Keyed.last, ← List.map_reverse]
  exact valueOf_map_toPair labels.reverse k

private theorem merged_eq : merged s =
    (s.check.labels.map toPair).foldl (Keyed.put Label.name) (s.probe.labels.map toPair) :=
  mergeLabels_eq _ _

private theorem lastValueOf_merged (k : GoString) : lastValueOf (merged s) k = s.effective k := by
  rw [lastValueOf, merged_eq, Keyed.last_foldl_put, Option.map_or]
  exact congrArg₂ Option.or (lastValueOf_map_toPair _ k) (lastValueOf_map_toPair _ k)

/-- The value of a user label is the leading one. -/
theorem valueOf_merged (k : GoString) : valueOf (merged s) k = s.leading k := by
  have hcount : Keyed.count Label.name (id k) (s.probe.labels.map toPair) =
      Keyed.count Pb.Label.name k s.probe.labels :=
    Keyed.count_map Function.injective_id (fun _ ↦ by rfl) k s.probe.labels
  unfold ScraperConfig.leading
  split
  · next h =>
    rw [valueOf, merged_eq, Keyed.first_foldl_put_of_repeated]
    · exact valueOf_map_toPair _ k
    · exact hcount.symm ▸ h
  · next h =>
    rw [← lastValueOf_merged, valueOf, lastValueOf, merged_eq, Keyed.first_foldl_put_of_count_le]
    exact hcount.symm ▸ Nat.le_of_lt_succ (Nat.lt_of_not_le h)

private theorem valueOf_map_prefixed (labels : List LabelPair) (k : GoString) :
    valueOf (labels.map prefixed) (prefixedName k) = valueOf labels k := by
  have hmap : Keyed.first Label.name (prefixedName k) (labels.map prefixed) =
      (Keyed.first Label.name k labels).map prefixed :=
    Keyed.first_map prefixedName_injective (fun _ ↦ by rfl) k labels
  exact (congrArg (Option.map Label.value) hmap).trans (Option.map_map ..)

private theorem lastValueOf_map_prefixed (labels : List LabelPair) (k : GoString) :
    lastValueOf (labels.map prefixed) (prefixedName k) = lastValueOf labels k := by
  rw [lastValueOf, Keyed.last, ← List.map_reverse]
  exact valueOf_map_prefixed labels.reverse k

/-- Dropping the system labels keeps the values of the others. -/
theorem valueOf_dropSystemLabels (labels : List LabelPair) {n : GoString}
    (h : isSystemLabel n = false) : valueOf (dropSystemLabels labels) n = valueOf labels n := by
  rw [valueOf, dropSystemLabels, Keyed.first_filter fun n ↦ !isSystemLabel n, h]
  rfl

private theorem lastValueOf_dropSystemLabels (labels : List LabelPair) {n : GoString}
    (h : isSystemLabel n = false) :
    lastValueOf (dropSystemLabels labels) n = lastValueOf labels n := by
  rw [lastValueOf, Keyed.last, dropSystemLabels, ← List.filter_reverse]
  exact valueOf_dropSystemLabels labels.reverse h

end Merged

/-! ### The outputs by name -/

section Outputs

variable {s : ScraperConfig} {mode : LabelMode} {geohash k n : GoString}

/-- User labels are those with a leading value. -/
theorem leading_isSome : (s.leading k).isSome ↔ s.IsUser k := by
  rw [← valueOf_merged, Option.isSome_iff_ne_none, ne_eq, valueOf_eq_none, not_not,
    mem_names_merged]

private theorem effective_isSome : (s.effective k).isSome ↔ s.IsUser k := by
  rw [← lastValueOf_merged, Option.isSome_iff_ne_none, ne_eq, lastValueOf_eq_none, not_not,
    mem_names_merged]

private theorem or_of_isSome {a b : Option GoString} (h : a.isSome) : a.or b = a := by
  obtain ⟨x, rfl⟩ := Option.isSome_iff_exists.mp h
  rfl

/-- A prefixed name begins with an `l`. -/
theorem ne_prefixedName {text : GoString} (h : text.head? ≠ some (GoString.byte 'l'))
    (k : GoString) : prefixedName k ≠ text := by
  rintro rfl
  exact h rfl

private theorem prefixedName_notMem_systemLogLabels (k : GoString) :
    prefixedName k ∉ names (s.systemLogLabels mode) := by
  intro h
  rcases s.mem_names_systemLogLabels h with hsys | hregion
  · rw [isSystemLabel_prefixedName] at hsys
    cases hsys
  · rcases name_regionLabelForMode mode s.probe.region with hr | hr
    all_goals
      rw [hr] at hregion
      exact ne_prefixedName (by decide) k hregion

private theorem notMem_systemLogLabels (hmode : mode ≠ .prefixed) (hn : isSystemLabel n = false) :
    n ∉ names (s.systemLogLabels mode) := by
  have hregion : isSystemLabel (.lit "sm_region") = true := by decide
  intro h
  rcases s.mem_names_systemLogLabels h with hsys | rfl
  · rw [hsys] at hn
    cases hn
  · rw [name_regionLabelForMode_of_ne hmode, hregion] at hn
    cases hn

/-- The value of the alert sensitivity. -/
theorem valueOf_sensitivity
    (h : s.check.alertSensitivity ≠ [] ∧ s.check.alertSensitivity ≠ .lit "none") :
    valueOf (s.baseLabels geohash mode) (.lit "alert_sensitivity") =
      some s.check.alertSensitivity := by
  have hmem : ⟨.lit "alert_sensitivity", s.check.alertSensitivity⟩ ∈ s.baseLabels geohash mode := by
    rw [ScraperConfig.baseLabels, if_pos h]
    exact List.mem_append_right _ (List.mem_singleton.mpr rfl)
  exact valueOf_of_mem (s.nodup_names_baseLabels geohash mode) hmem

private theorem valueOf_baseLabels (hmode : mode ≠ .prefixed) (hn : isSystemLabel n = false)
    {v : GoString} (hv : valueOf (s.baseLabels geohash mode) n = some v) :
    n = .lit "alert_sensitivity" ∧ s.check.alertSensitivity ≠ [] ∧
      s.check.alertSensitivity ≠ .lit "none" ∧ v = s.check.alertSensitivity := by
  have hregion : isSystemLabel (.lit "sm_region") = true := by decide
  have hmem : n ∈ names (s.baseLabels geohash mode) := by
    by_contra h
    rw [valueOf_eq_none.mpr h] at hv
    cases hv
  rcases s.mem_names_baseLabels hmem with hsys | rfl | ⟨rfl, hset⟩
  · rw [hsys] at hn
    cases hn
  · rw [name_regionLabelForMode_of_ne hmode, hregion] at hn
    cases hn
  · rw [valueOf_sensitivity hset] at hv
    exact ⟨rfl, hset.1, hset.2, (Option.some.inj hv).symm⟩

private theorem checkInfo_prefixedName (hmode : mode ≠ .unprefixed) (hk : s.IsUser k) :
    (s.buildCheckInfoLabels geohash mode).lookup (prefixedName k) = s.leading k := by
  have hsome := leading_isSome.mpr hk
  have huser : valueOf (s.userLabels mode) (prefixedName k) = s.leading k := by
    cases mode with
    | unprefixed => exact absurd rfl hmode
    | dualWrite =>
      refine (valueOf_append _ _ _).trans ?_
      rw [valueOf_map_prefixed, valueOf_merged, or_of_isSome hsome]
    | prefixed => exact (valueOf_map_prefixed _ k).trans (valueOf_merged s k)
    | unrecognized v => exact (valueOf_map_prefixed _ k).trans (valueOf_merged s k)
  rw [s.lookup_buildCheckInfoLabels, valueOf_append, huser, or_of_isSome hsome]

/-- The execution series have the labels that are not reserved under their own names. -/
theorem execution_of_not_system (hmode : mode ≠ .prefixed) (hn : isSystemLabel n = false) :
    valueOf (s.executionMetricLabels mode) n = s.leading n := by
  have hsys : valueOf s.sysMetricLabels n = none := by
    apply valueOf_eq_none.mpr
    intro h
    rw [s.isSystemLabel_sysMetricLabels n h] at hn
    cases hn
  have hcustom : customMetricLabels s.probe.labels s.check.labels mode =
      dropSystemLabels (merged s) := if_neg hmode
  rw [s.valueOf_executionMetricLabels, valueOf_append, hcustom, valueOf_dropSystemLabels _ hn,
    valueOf_merged, hsys, Option.or_none]

private theorem execution_prefixed (k : GoString) :
    valueOf (s.executionMetricLabels .prefixed) (prefixedName k) = none := by
  rw [s.valueOf_executionMetricLabels]
  apply valueOf_eq_none.mpr
  intro h
  have hsys := s.isSystemLabel_sysMetricLabels _ h
  rw [isSystemLabel_prefixedName] at hsys
  cases hsys

private theorem logLabels_prefixedName :
    valueOf (s.logLabels mode) (prefixedName k) =
      lastValueOf (s.userLabels mode) (prefixedName k) := by
  rw [s.valueOf_logLabels, valueOf_eq_none.mpr (prefixedName_notMem_systemLogLabels k),
    Option.or_none]

private theorem logLabels_of_not_system (hmode : mode ≠ .prefixed)
    (hn : isSystemLabel n = false) :
    valueOf (s.logLabels mode) n = lastValueOf (s.userLabels mode) n := by
  rw [s.valueOf_logLabels, valueOf_eq_none.mpr (notMem_systemLogLabels hmode hn), Option.or_none]

private theorem lastValueOf_dualWrite (hn : isSystemLabel n = false) :
    lastValueOf (s.userLabels .dualWrite) n =
      (s.effective n).or (lastValueOf ((merged s).map prefixed) n) := by
  refine (lastValueOf_append _ _ _).trans ?_
  rw [lastValueOf_dropSystemLabels _ hn, lastValueOf_merged]

/-- The value of a label that is written twice. -/
theorem valueOf_dualWrite (hn : isSystemLabel n = false) :
    valueOf (s.userLabels .dualWrite) n =
      (valueOf ((merged s).map prefixed) n).or (s.leading n) := by
  refine (valueOf_append _ _ _).trans ?_
  rw [valueOf_dropSystemLabels _ hn, valueOf_merged]

private theorem map_prefixed_cases (s : ScraperConfig) (n : GoString) :
    (∃ j, s.IsUser j ∧ n = prefixedName j) ∨ n ∉ names ((merged s).map prefixed) := by
  by_cases h : n ∈ names ((merged s).map prefixed)
  · obtain ⟨j, hj, rfl⟩ := mem_names_map_prefixed.mp h
    exact .inl ⟨j, mem_names_merged.mp hj, rfl⟩
  · exact .inr h

end Outputs

/-! ### Consistent labels agree -/

section Agree

variable {s : ScraperConfig} {mode : LabelMode} {geohash k n v : GoString}

private theorem exposed_of_not_system (hk : isSystemLabel k = false) : s.Exposed mode k := by
  cases mode with
  | prefixed => trivial
  | dualWrite => exact .inl hk
  | unprefixed => exact hk
  | unrecognized _ => trivial

section

variable (h : Consistent s mode)
include h

private theorem Consistent.leading_eq (hk : s.Exposed mode k) : s.leading k = s.effective k := by
  unfold ScraperConfig.leading
  split
  · next hr => exact h.repeated k hr hk
  · rfl

private theorem Consistent.leading_prefixedName (hmode : mode ≠ .prefixed)
    (hmode' : mode ≠ .unprefixed) (hk : s.IsUser k) (hp : s.IsUser (prefixedName k)) :
    s.leading (prefixedName k) = s.leading k ∧ s.effective (prefixedName k) = s.leading k := by
  have heq := h.collision hmode hmode' k hk hp
  exact ⟨(h.leading_eq (exposed_of_not_system (isSystemLabel_prefixedName k))).trans heq.symm,
    heq.symm⟩

private theorem Consistent.execution (hk : s.IsUser k) (hp : Produces mode k n)
    (hv : valueOf (s.executionMetricLabels mode) n = some v) : s.leading k = some v := by
  rcases hp with ⟨hmode, rfl⟩ | ⟨hmode, hsys, rfl⟩
  · by_cases hmode' : mode = .prefixed
    · rw [hmode', execution_prefixed] at hv
      cases hv
    · rw [execution_of_not_system hmode' (isSystemLabel_prefixedName k)] at hv
      have hp : s.IsUser (prefixedName k) := leading_isSome.mp (by rw [hv]; rfl)
      rw [← (h.leading_prefixedName hmode' hmode hk hp).1, hv]
  · rwa [execution_of_not_system hmode hsys] at hv

private theorem Consistent.checkInfo (hk : s.IsUser k) (hp : Produces mode k n)
    (hv : (s.buildCheckInfoLabels geohash mode).lookup n = some v) : s.leading k = some v := by
  rcases hp with ⟨hmode, rfl⟩ | ⟨hmode, hsys, rfl⟩
  · rwa [checkInfo_prefixedName hmode hk] at hv
  · rcases map_prefixed_cases s n with ⟨j, hj, rfl⟩ | hnone
    · by_cases hmode' : mode = .unprefixed
      · subst hmode'
        rw [s.lookup_buildCheckInfoLabels, valueOf_append] at hv
        have huser : valueOf (s.userLabels .unprefixed) (prefixedName j) =
            s.leading (prefixedName j) :=
          (valueOf_dropSystemLabels _ hsys).trans (valueOf_merged s _)
        rwa [huser, or_of_isSome (leading_isSome.mpr hk)] at hv
      · rw [checkInfo_prefixedName hmode' hj] at hv
        rw [(h.leading_prefixedName hmode hmode' hj hk).1, hv]
    · rw [s.lookup_buildCheckInfoLabels, valueOf_append] at hv
      have hsome := leading_isSome.mpr hk
      cases mode with
      | prefixed => exact absurd rfl hmode
      | unprefixed =>
        have huser : valueOf (s.userLabels .unprefixed) n = s.leading n :=
          (valueOf_dropSystemLabels _ hsys).trans (valueOf_merged s n)
        rwa [huser, or_of_isSome hsome] at hv
      | dualWrite =>
        rwa [valueOf_dualWrite hsys, valueOf_eq_none.mpr hnone, Option.none_or,
          or_of_isSome hsome] at hv
      | unrecognized m =>
        -- Only a base label can have the name, and only one of them is not reserved.
        have huser : valueOf (s.userLabels (.unrecognized m)) n = none :=
          valueOf_eq_none.mpr hnone
        rw [huser, Option.none_or] at hv
        obtain ⟨rfl, hset, hset', rfl⟩ := valueOf_baseLabels hmode hsys hv
        rw [h.leading_eq (exposed_of_not_system hsys), h.sensitivity m rfl hset hset' hk]

private theorem Consistent.logs (hk : s.IsUser k) (hp : Produces mode k n)
    (hv : valueOf (s.logLabels mode) n = some v) : s.leading k = some v := by
  rcases hp with ⟨hmode, rfl⟩ | ⟨hmode, hsys, rfl⟩
  · rw [logLabels_prefixedName] at hv
    have hprefixed : lastValueOf ((merged s).map prefixed) (prefixedName k) = s.effective k :=
      (lastValueOf_map_prefixed _ k).trans (lastValueOf_merged s k)
    cases mode with
    | unprefixed => exact absurd rfl hmode
    | prefixed =>
      rw [h.leading_eq trivial, ← hprefixed]
      exact hv
    | unrecognized m =>
      rw [h.leading_eq trivial, ← hprefixed]
      exact hv
    | dualWrite =>
      rw [lastValueOf_dualWrite (isSystemLabel_prefixedName k), hprefixed] at hv
      by_cases hp : s.IsUser (prefixedName k)
      · rw [or_of_isSome (effective_isSome.mpr hp)] at hv
        rw [← (h.leading_prefixedName nofun nofun hk hp).2, hv]
      · have hnone : s.effective (prefixedName k) = none :=
          Option.not_isSome_iff_eq_none.mp (mt effective_isSome.mp hp)
        rw [hnone, Option.none_or] at hv
        rw [h.leading_eq (.inr (.inl hp)), hv]
  · rw [logLabels_of_not_system hmode hsys] at hv
    have hleading := h.leading_eq (exposed_of_not_system hsys)
    cases mode with
    | prefixed => exact absurd rfl hmode
    | unprefixed =>
      rw [hleading, ← lastValueOf_merged, ← lastValueOf_dropSystemLabels _ hsys]
      exact hv
    | dualWrite =>
      rwa [lastValueOf_dualWrite hsys, or_of_isSome (effective_isSome.mpr hk), ← hleading] at hv
    | unrecognized m =>
      rcases map_prefixed_cases s n with ⟨j, hj, rfl⟩ | hnone
      · have huser : lastValueOf (s.userLabels (.unrecognized m)) (prefixedName j) =
            s.effective j := (lastValueOf_map_prefixed _ j).trans (lastValueOf_merged s j)
        rw [(h.leading_prefixedName nofun nofun hj hk).1, h.leading_eq trivial, ← huser, hv]
      · have huser : lastValueOf (s.userLabels (.unrecognized m)) n = none :=
          lastValueOf_eq_none.mpr hnone
        rw [huser] at hv
        cases hv

private theorem Consistent.leading_of_output (hk : s.IsUser k) (hp : Produces mode k n)
    {o : GoString → Option GoString} (ho : o ∈ s.outputs geohash mode) (hv : o n = some v) :
    s.leading k = some v := by
  simp only [ScraperConfig.outputs, List.mem_cons, List.not_mem_nil, or_false] at ho
  rcases ho with rfl | rfl | rfl
  · exact h.checkInfo hk hp hv
  · exact h.execution hk hp hv
  · exact h.logs hk hp hv

end

private theorem isUser_of_check {l : Pb.Label} (hl : l ∈ s.check.labels) : s.IsUser l.name :=
  ⟨l, List.mem_append_right _ hl, rfl⟩

private theorem isUser_of_probe {l : Pb.Label} (hl : l ∈ s.probe.labels) : s.IsUser l.name :=
  ⟨l, List.mem_append_left _ hl, rfl⟩

private theorem effective_of_check (hnodup : (s.check.labels.map Pb.Label.name).Nodup)
    {l : Pb.Label} (hl : l ∈ s.check.labels) : s.effective l.name = some l.value := by
  have hlast : lastValue s.check.labels l.name = some l.value := by
    rw [lastValue, ← Keyed.first_eq_last_of_nodup hnodup, Keyed.first_of_mem hnodup hl]
    rfl
  rw [ScraperConfig.effective, hlast]
  rfl

private theorem exists_of_leading (hk : ¬ s.IsChecks k) (hv : s.leading k = some v) :
    ∃ l ∈ s.probe.labels, l.name = k ∧ l.value = v := by
  have hcheck : lastValue s.check.labels k = none := by
    rw [lastValue, Option.map_eq_none_iff, Keyed.last_eq_none]
    intro h
    obtain ⟨l, hl, hname⟩ := List.mem_map.mp h
    exact hk ⟨l, hl, hname⟩
  unfold ScraperConfig.leading at hv
  split at hv
  · obtain ⟨l, hl, hval⟩ := Option.map_eq_some_iff.mp hv
    obtain ⟨hmem, hname⟩ := Keyed.mem_of_first hl
    exact ⟨l, hmem, hname, hval⟩
  · rw [ScraperConfig.effective, hcheck, Option.none_or] at hv
    obtain ⟨l, hl, hval⟩ := Option.map_eq_some_iff.mp hv
    obtain ⟨hmem, hname⟩ := Keyed.mem_of_last hl
    exact ⟨l, hmem, hname, hval⟩

private theorem Consistent.valuesAgree (h : Consistent s mode)
    (hnodup : (s.check.labels.map Pb.Label.name).Nodup) (geohash : GoString) :
    ValuesAgree s geohash mode := by
  constructor
  · intro k n hk hp o ho o' ho' v w hv hw
    have hleading := h.leading_of_output hk hp ho hv
    rw [h.leading_of_output hk hp ho' hw] at hleading
    exact (Option.some.inj hleading).symm
  · intro l hl n hp o ho v hv
    have hexposed : s.Exposed mode l.name := by
      cases mode with
      | prefixed => trivial
      | dualWrite => exact .inr (.inr ⟨l, hl, rfl⟩)
      | unprefixed =>
        rcases hp with ⟨hmode, -⟩ | ⟨-, hsys, -⟩
        · exact absurd rfl hmode
        · exact hsys
      | unrecognized m => trivial
    have hleading := h.leading_of_output (isUser_of_check hl) hp ho hv
    rw [h.leading_eq hexposed, effective_of_check hnodup hl] at hleading
    exact (Option.some.inj hleading).symm
  · rintro n ⟨l, hl, hp⟩ hcheck o ho v hv
    have hnot : ¬ s.IsChecks l.name := by
      rintro ⟨l', hl', hname⟩
      exact hcheck l' hl' (hname ▸ hp)
    obtain ⟨l', hl', hname, hval⟩ :=
      exists_of_leading hnot (h.leading_of_output (isUser_of_probe hl) hp ho hv)
    exact ⟨l', hl', hname ▸ hp, hval⟩
  · exact ⟨GoMap.nodup_keys_range _, s.nodup_names_executionMetricLabels mode,
      s.nodup_names_logLabels mode⟩

/-! ### Labels that agree are consistent -/

private theorem ValuesAgree.eq_of_outputs (h : ValuesAgree s geohash mode) (hk : s.IsUser k)
    (hp : Produces mode k n) {o o' : GoString → Option GoString}
    (ho : o ∈ s.outputs geohash mode) (ho' : o' ∈ s.outputs geohash mode)
    (hsome : (o n).isSome) (hsome' : (o' n).isSome) : o n = o' n := by
  obtain ⟨v, hv⟩ := Option.isSome_iff_exists.mp hsome
  obtain ⟨w, hw⟩ := Option.isSome_iff_exists.mp hsome'
  rw [hv, hw, h.same k n hk hp o ho o' ho' v w hv hw]

private theorem checkInfo_mem : (fun n ↦ (s.buildCheckInfoLabels geohash mode).lookup n) ∈
    s.outputs geohash mode := List.mem_cons_self

private theorem execution_mem : valueOf (s.executionMetricLabels mode) ∈ s.outputs geohash mode :=
  List.mem_cons_of_mem _ List.mem_cons_self

private theorem logs_mem : valueOf (s.logLabels mode) ∈ s.outputs geohash mode :=
  List.mem_cons_of_mem _ (List.mem_cons_of_mem _ List.mem_cons_self)

private theorem ValuesAgree.leading_of_prefixed (h : ValuesAgree s geohash mode)
    (hmode : mode ≠ .unprefixed) (hk : s.IsUser k)
    (hlog : lastValueOf (s.userLabels mode) (prefixedName k) = s.effective k) :
    s.leading k = s.effective k := by
  have heq := h.eq_of_outputs hk (.inl ⟨hmode, rfl⟩) checkInfo_mem logs_mem
    (by rw [checkInfo_prefixedName hmode hk]; exact leading_isSome.mpr hk)
    (by rw [logLabels_prefixedName, hlog]; exact effective_isSome.mpr hk)
  rwa [checkInfo_prefixedName hmode hk, logLabels_prefixedName, hlog] at heq

private theorem ValuesAgree.leading_of_plain (h : ValuesAgree s geohash mode)
    (hmode : mode ≠ .prefixed) (hsys : isSystemLabel k = false) (hk : s.IsUser k)
    (hlog : lastValueOf (s.userLabels mode) k = s.effective k) :
    s.leading k = s.effective k := by
  have heq := h.eq_of_outputs hk (.inr ⟨hmode, hsys, rfl⟩) execution_mem logs_mem
    (by rw [execution_of_not_system hmode hsys]; exact leading_isSome.mpr hk)
    (by rw [logLabels_of_not_system hmode hsys, hlog]; exact effective_isSome.mpr hk)
  rwa [execution_of_not_system hmode hsys, logLabels_of_not_system hmode hsys, hlog] at heq

private theorem ValuesAgree.leading_eq (h : ValuesAgree s geohash mode)
    (hnodup : (s.check.labels.map Pb.Label.name).Nodup) (hk : s.IsUser k)
    (hexposed : s.Exposed mode k) : s.leading k = s.effective k := by
  have hprefixed : lastValueOf ((merged s).map prefixed) (prefixedName k) = s.effective k :=
    (lastValueOf_map_prefixed _ k).trans (lastValueOf_merged s k)
  cases mode with
  | prefixed => exact h.leading_of_prefixed nofun hk hprefixed
  | unrecognized m => exact h.leading_of_prefixed nofun hk hprefixed
  | unprefixed =>
    exact h.leading_of_plain nofun hexposed hk
      ((lastValueOf_dropSystemLabels _ hexposed).trans (lastValueOf_merged s k))
  | dualWrite =>
    rcases hexposed with hsys | hp | ⟨l, hl, rfl⟩
    · refine h.leading_of_plain nofun hsys hk ?_
      rw [lastValueOf_dualWrite hsys, or_of_isSome (effective_isSome.mpr hk)]
    · refine h.leading_of_prefixed nofun hk ?_
      have hnone : s.effective (prefixedName k) = none :=
        Option.not_isSome_iff_eq_none.mp (mt effective_isSome.mp hp)
      rw [lastValueOf_dualWrite (isSystemLabel_prefixedName k), hnone, Option.none_or, hprefixed]
    · obtain ⟨v, hv⟩ := Option.isSome_iff_exists.mp (leading_isSome.mpr hk)
      have hmode : LabelMode.dualWrite ≠ .unprefixed := nofun
      have hinfo : (s.buildCheckInfoLabels geohash .dualWrite).lookup (prefixedName l.name) =
          some v := by rw [checkInfo_prefixedName hmode hk, hv]
      have hvalue := h.check l hl (prefixedName l.name) (.inl ⟨hmode, rfl⟩) _ checkInfo_mem v hinfo
      rw [hv, effective_of_check hnodup hl, hvalue]

private theorem isUser_of_repeated (h : s.Repeated k) : s.IsUser k := by
  have hmem : k ∈ s.probe.labels.map Pb.Label.name := by
    by_contra hk
    have hcount := Keyed.count_eq_zero.mpr hk
    rw [ScraperConfig.Repeated, hcount] at h
    cases h
  obtain ⟨l, hl, rfl⟩ := List.mem_map.mp hmem
  exact isUser_of_probe hl

private theorem ValuesAgree.consistent (h : ValuesAgree s geohash mode)
    (hnodup : (s.check.labels.map Pb.Label.name).Nodup) : Consistent s mode := by
  constructor
  · intro k hr hexposed
    have hleading := h.leading_eq hnodup (isUser_of_repeated hr) hexposed
    rwa [ScraperConfig.leading, if_pos hr] at hleading
  · intro hmode hmode' k hk hp
    have hsys := isSystemLabel_prefixedName k
    have heq := h.eq_of_outputs hk (.inl ⟨hmode', rfl⟩) checkInfo_mem execution_mem
      (by rw [checkInfo_prefixedName hmode' hk]; exact leading_isSome.mpr hk)
      (by rw [execution_of_not_system hmode hsys]; exact leading_isSome.mpr hp)
    rw [checkInfo_prefixedName hmode' hk, execution_of_not_system hmode hsys] at heq
    rw [heq, h.leading_eq hnodup hp (exposed_of_not_system hsys)]
  · rintro m rfl hset hset' hk
    have hsys : isSystemLabel (.lit "alert_sensitivity") = false := by decide
    have huser : valueOf (s.userLabels (.unrecognized m)) (.lit "alert_sensitivity") = none := by
      apply valueOf_eq_none.mpr
      intro hmem
      obtain ⟨j, -, hj⟩ := mem_names_map_prefixed.mp hmem
      exact ne_prefixedName (by decide) j hj
    have hinfo : (s.buildCheckInfoLabels geohash (.unrecognized m)).lookup
        (.lit "alert_sensitivity") = some s.check.alertSensitivity := by
      rw [s.lookup_buildCheckInfoLabels, valueOf_append, huser, Option.none_or,
        valueOf_sensitivity ⟨hset, hset'⟩]
    have hexec : valueOf (s.executionMetricLabels (.unrecognized m)) (.lit "alert_sensitivity") =
        s.leading (.lit "alert_sensitivity") := execution_of_not_system nofun hsys
    have heq := h.eq_of_outputs hk (.inr ⟨nofun, hsys, rfl⟩) execution_mem checkInfo_mem
      (by rw [hexec]; exact leading_isSome.mpr hk) (by rw [hinfo]; rfl)
    rw [← h.leading_eq hnodup hk (exposed_of_not_system hsys), ← hexec, heq, hinfo]

end Agree

/-- The outputs agree on the user labels of an accepted check and probe exactly when the labels
that meet under one name have one value. -/
theorem valuesAgree_iff_consistent (lib : Stdlib) (s : ScraperConfig)
    (hcheck : s.check.validate lib = .ok none) (geohash : GoString) (mode : LabelMode) :
    ValuesAgree s geohash mode ↔ Consistent s mode := by
  have hnodup := Check.nodup_label_names hcheck
  exact ⟨fun h ↦ h.consistent hnodup, fun h ↦ h.valuesAgree hnodup geohash⟩

private theorem consistent_override :
    Consistent (labelledScript [⟨.lit "env", .lit "a"⟩] [⟨.lit "env", .lit "b"⟩]) .dualWrite := by
  constructor
  · intro k hr
    have hnodup : ([⟨.lit "env", .lit "a"⟩].map Pb.Label.name).Nodup := by decide
    exact absurd (Nat.le_trans hr (Keyed.count_le_one_of_nodup hnodup k)) (by decide)
  · rintro - - k - ⟨l, hl, hname⟩
    have hall : ∀ l ∈ [(⟨.lit "env", .lit "a"⟩ : Pb.Label), ⟨.lit "env", .lit "b"⟩],
        l.name.head? ≠ some (GoString.byte 'l') := by decide
    exact absurd hname.symm (ne_prefixedName (hall l hl) k)
  · intro m hm
    cases hm

/-- A check overrides a label of its probe, in every output. -/
theorem valuesAgree_override :
    let s := labelledScript [⟨.lit "env", .lit "a"⟩] [⟨.lit "env", .lit "b"⟩]
    s.check.validate Stdlib.permissive = .ok none ∧ s.probe.validate = none ∧
      ValuesAgree s [] .dualWrite :=
  ⟨rfl, rfl, (valuesAgree_iff_consistent Stdlib.permissive
    (labelledScript [⟨.lit "env", .lit "a"⟩] [⟨.lit "env", .lit "b"⟩]) rfl [] .dualWrite).mpr
    consistent_override⟩

/-- In `DUAL_WRITE` mode the labels `x` and `label_x` meet under `label_x`: `sm_check_info` has
the value of the first, the logs have that of the second. -/
theorem not_valuesAgree_collision :
    let s := labelledScript [] [⟨.lit "x", .lit "1"⟩, ⟨.lit "label_x", .lit "2"⟩]
    s.check.validate Stdlib.permissive = .ok none ∧ s.probe.validate = none ∧
      (s.buildCheckInfoLabels [] .dualWrite).lookup (.lit "label_x") = some (.lit "1") ∧
      valueOf (s.logLabels .dualWrite) (.lit "label_x") = some (.lit "2") ∧
      ¬ ValuesAgree s [] .dualWrite := by
  refine ⟨rfl, rfl, by decide, by decide, fun h ↦ ?_⟩
  have hsame := h.same (.lit "x") (.lit "label_x")
    ⟨⟨.lit "x", .lit "1"⟩, List.mem_cons_self, rfl⟩ (.inl ⟨nofun, rfl⟩)
    _ checkInfo_mem _ logs_mem (.lit "1") (.lit "2") (by decide) (by decide)
  exact absurd hsame (by decide)

end SMAgent.Scraper
