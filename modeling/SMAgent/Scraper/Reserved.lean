import SMAgent.Scraper.LabelAgreement
import SMAgent.Scraper.Series

/-!
# Reserved label names

A user label is emitted without a prefix unless its name is reserved (`checks_extra.go:135-213`),
and then wins over a label of the agent with the same name. The list of reserved names misses two
that the agent sets: `quantile` on summaries and `alert_sensitivity` on `sm_check_info`. For the
others it does its work.
-/

namespace SMAgent.Scraper
open SMAgent.Base SMAgent.Pb

/-- The two label sets are the same. -/
def SameLabels (a b : TimeSeries) : Prop := ∀ l, l ∈ a.labels ↔ l ∈ b.labels

/-- The two numbers are printed differently. -/
def Distinguished (x y : Float64) : Prop := x ≠ y ∧ ¬ (x.isNaN ∧ y.isNaN)

/-- What the client library lets a metric have as labels of its own. -/
def Metric.OwnLabels (m : Metric) : Prop :=
  ∀ l ∈ m.label, l.name ≠ metricNameLabel ∧ l.name ≠ .lit "le" ∧ l.name ≠ .lit "quantile"

/-- The values of a label on the series of a histogram or summary after `_sum` and `_count`. -/
def partValues (series : List TimeSeries) (name : GoString) : List (Option GoString) :=
  (series.drop 2).map fun s ↦ valueOf s.labels name

/-- No user label changes or removes a label of the agent: a base label of `sm_check_info`, a
label of the log stream, `le` or `quantile`; and the series of one metric are told apart. -/
structure AgentLabelsKept (float : FloatFormat) (s : ScraperConfig) (geohash : GoString)
    (mode : LabelMode) : Prop where
  checkInfo : ∀ l ∈ s.baseLabels geohash mode,
    (s.buildCheckInfoLabels geohash mode).lookup l.name = some l.value
  logs : ∀ l ∈ s.systemLogLabels mode, valueOf (s.logLabels mode) l.name = some l.value
  stream : ∀ maxLogLabels success own labels,
    streamLabels (s.systemLogLabels mode) maxLogLabels success = .ok own →
    streamLabels (s.logLabels mode) maxLogLabels success = .ok labels →
    ∀ l ∈ own, valueOf labels l.name = some l.value
  buckets : ∀ t mName m h b, m.OwnLabels → m.histogram = some h → h.bucket = some b →
    partValues (appendDtoToTimeseries float [] t mName
        (sharedLabels mName (s.executionMetricLabels mode)) .histogram m) (.lit "le") =
      b.map (fun v ↦ some (float.format v.upperBound)) ++ [some (.lit "+Inf")]
  quantiles : ∀ t mName m q, m.OwnLabels → m.summary = some q →
    partValues (appendDtoToTimeseries float [] t mName
        (sharedLabels mName (s.executionMetricLabels mode)) .summary m) (.lit "quantile") =
      q.quantile.map (fun v ↦ some (float.format v.quantile))
  histogram : ∀ t mName m h b, m.OwnLabels → m.histogram = some h → h.bucket = some b →
    b.Pairwise (fun v w ↦ Distinguished v.upperBound w.upperBound) →
    (∀ v ∈ b, v.upperBound ≠ .inf) →
    (appendDtoToTimeseries float [] t mName (sharedLabels mName (s.executionMetricLabels mode))
      .histogram m).Pairwise fun a b ↦ ¬ SameLabels a b
  summary : ∀ t mName m q, m.OwnLabels → m.summary = some q →
    q.quantile.Pairwise (fun v w ↦ Distinguished v.quantile w.quantile) →
    (appendDtoToTimeseries float [] t mName (sharedLabels mName (s.executionMetricLabels mode))
      .summary m).Pairwise fun a b ↦ ¬ SameLabels a b

/-- No user label has one of the two names that the list misses, or it says what the agent
does. -/
structure NoMissedName (s : ScraperConfig) : Prop where
  quantile : ¬ s.IsUser (.lit "quantile")
  sensitivity : s.check.alertSensitivity ≠ [] → s.check.alertSensitivity ≠ .lit "none" →
    s.IsUser (.lit "alert_sensitivity") →
    s.leading (.lit "alert_sensitivity") = some s.check.alertSensitivity

/-! ### Reserved names and the user labels -/

section Names

variable {s : ScraperConfig} {mode : LabelMode} {geohash n : GoString}

private theorem notMem_userLabels (hn : isSystemLabel n = true) :
    n ∉ names (s.userLabels mode) := by
  intro h
  rcases mem_names_buildUserLabels.mp h with ⟨-, l, -, rfl⟩ | ⟨-, hsys, -⟩
  · rw [isSystemLabel_prefixedName] at hn
    cases hn
  · rw [hsys] at hn
    cases hn

private theorem isSystemLabel_systemLogLabels (hmode : mode ≠ .prefixed) :
    ∀ n ∈ names (s.systemLogLabels mode), isSystemLabel n = true := by
  have hregion : isSystemLabel (.lit "sm_region") = true := by decide
  intro n hn
  rcases s.mem_names_systemLogLabels hn with hsys | rfl
  · exact hsys
  · rw [name_regionLabelForMode_of_ne hmode, hregion]

private theorem logLabels_eq (hmode : mode ≠ .prefixed) :
    ∃ user, s.logLabels mode = s.systemLogLabels mode ++ user := by
  refine ⟨(s.userLabels mode).foldl (Keyed.put Label.name) [], ?_⟩
  rw [ScraperConfig.logLabels, mergeLogLabels, mergeLabels_eq]
  have hnew : ∀ l ∈ s.userLabels mode, l.name ∉ names (s.systemLogLabels mode) := by
    intro l hl hmem
    exact notMem_userLabels (isSystemLabel_systemLogLabels hmode _ hmem) (List.mem_map_of_mem hl)
  have happend := Keyed.foldl_put_append hnew []
  rwa [List.append_nil] at happend

private theorem mem_logLabels (hmode : mode ≠ .prefixed) {l : LabelPair}
    (hl : l ∈ s.systemLogLabels mode) : l ∈ s.logLabels mode := by
  obtain ⟨user, heq⟩ := logLabels_eq (s := s) hmode
  rw [heq]
  exact List.mem_append_left _ hl

private theorem probeSuccess_notMem_logLabels :
    .lit "probe_success" ∉ names (s.logLabels mode) := by
  have hsys : isSystemLabel (.lit "probe_success") = true := by decide
  intro h
  rcases s.mem_names_logLabels.mp h with h | h
  · exact notMem_userLabels hsys h
  · simp only [ScraperConfig.systemLogLabels, List.map_cons, List.map_nil] at h
    rcases name_regionLabelForMode mode s.probe.region with hr | hr
    all_goals
      rw [hr] at h
      exact absurd h (by decide)

private theorem valueOf_userLabels (hmode : Unprefixes mode) (hn : isSystemLabel n = false)
    (hnot : ∀ k, prefixedName k ≠ n) : valueOf (s.userLabels mode) n = s.leading n := by
  rcases hmode with rfl | rfl
  · have hnone : valueOf ((merged s).map prefixed) n = none := by
      apply valueOf_eq_none.mpr
      intro h
      obtain ⟨k, -, hk⟩ := mem_names_map_prefixed.mp h
      exact hnot k hk
    rw [valueOf_dualWrite hn, hnone, Option.none_or]
  · exact (valueOf_dropSystemLabels _ hn).trans (valueOf_merged s n)

private theorem ne_prefixed (hmode : Unprefixes mode) : mode ≠ .prefixed := by
  rcases hmode with rfl | rfl
  all_goals nofun

/-! ### The labels that are kept -/

private theorem checkInfo_kept (hmode : Unprefixes mode) (h : NoMissedName s) :
    ∀ l ∈ s.baseLabels geohash mode,
      (s.buildCheckInfoLabels geohash mode).lookup l.name = some l.value := by
  intro l hl
  have hbase := valueOf_of_mem (s.nodup_names_baseLabels geohash mode) hl
  have hreserved : isSystemLabel l.name = true →
      (s.buildCheckInfoLabels geohash mode).lookup l.name = some l.value := by
    intro hsys
    rw [s.lookup_buildCheckInfoLabels, valueOf_append,
      valueOf_eq_none.mpr (notMem_userLabels hsys), Option.none_or, hbase]
  rcases s.mem_names_baseLabels (List.mem_map_of_mem hl) with hsys | hregion | ⟨halert, hset⟩
  · exact hreserved hsys
  · apply hreserved
    rw [hregion, name_regionLabelForMode_of_ne (ne_prefixed hmode)]
    decide
  · rw [halert, valueOf_sensitivity hset] at hbase
    rw [s.lookup_buildCheckInfoLabels, valueOf_append, halert,
      valueOf_userLabels hmode (by decide) (ne_prefixedName (by decide)),
      valueOf_sensitivity hset, ← hbase]
    by_cases huser : s.IsUser (.lit "alert_sensitivity")
    · rw [h.sensitivity hset.1 hset.2 huser]
      rfl
    · rw [Option.not_isSome_iff_eq_none.mp (mt leading_isSome.mp huser), Option.none_or]

private theorem logs_kept (hmode : mode ≠ .prefixed) :
    ∀ l ∈ s.systemLogLabels mode, valueOf (s.logLabels mode) l.name = some l.value :=
  fun _ hl ↦ valueOf_of_mem (s.nodup_names_logLabels mode) (mem_logLabels hmode hl)

private theorem stream_kept (hmode : mode ≠ .prefixed) {maxLogLabels : Int} {success : Bool}
    {own labels : List LabelPair}
    (hown : streamLabels (s.systemLogLabels mode) maxLogLabels success = .ok own)
    (hlabels : streamLabels (s.logLabels mode) maxLogLabels success = .ok labels) :
    ∀ l ∈ own, valueOf labels l.name = some l.value := by
  obtain ⟨user, heq⟩ := logLabels_eq (s := s) hmode
  have hnodup : (names labels).Nodup := by
    rw [streamLabels_eq_ok hlabels, names, List.map_append]
    have htake := (s.nodup_names_logLabels mode).sublist
      ((List.take_sublist (maxLogLabels - 1).toNat _).map Label.name)
    refine htake.append (List.nodup_singleton _) (List.disjoint_singleton.mpr fun h ↦ ?_)
    exact probeSuccess_notMem_logLabels (((List.take_sublist _ _).map Label.name).subset h)
  intro l hl
  apply valueOf_of_mem hnodup
  rw [streamLabels_eq_ok hown] at hl
  rw [streamLabels_eq_ok hlabels, heq, List.take_append, List.append_assoc]
  rcases List.mem_append.mp hl with hl | hl
  · exact List.mem_append_left _ hl
  · exact List.mem_append_right _ (List.mem_append_right _ hl)

end Names

/-! ### The series of one metric -/

section Series

variable {float : FloatFormat} {t : Int} {mName : GoString} {shared : List Label} {m : Metric}

private theorem valueOf_le (hown : m.OwnLabels) (hshared : .lit "le" ∉ names shared)
    (v : GoString) : valueOf (namedLabels mName shared m "_bucket" ++ [⟨.lit "le", v⟩])
      (.lit "le") = some v :=
  valueOf_namedLabels "_bucket" (by decide) hshared fun l hl ↦ (hown l hl).2.1

private theorem valueOf_quantile (hown : m.OwnLabels) (hshared : .lit "quantile" ∉ names shared)
    (v : GoString) : valueOf (namedLabels mName shared m "" ++ [⟨.lit "quantile", v⟩])
      (.lit "quantile") = some v :=
  valueOf_namedLabels "" (by decide) hshared fun l hl ↦ (hown l hl).2.2

private theorem partValues_buckets {h : Histogram} {b : List Bucket} (hown : m.OwnLabels)
    (hm : m.histogram = some h) (hb : h.bucket = some b) (hshared : .lit "le" ∉ names shared) :
    partValues (appendDtoToTimeseries float [] t mName shared .histogram m) (.lit "le") =
      b.map (fun v ↦ some (float.format v.upperBound)) ++ [some (.lit "+Inf")] := by
  rw [appendDtoToTimeseries_histogram float t hm hb, partValues, List.drop_succ_cons,
    List.drop_succ_cons, List.drop_zero, bucketSeries, List.map_append, List.map_map]
  simp [valueOf_le hown hshared, Function.comp_def]

private theorem partValues_quantiles {q : Summary} (hown : m.OwnLabels) (hm : m.summary = some q)
    (hshared : .lit "quantile" ∉ names shared) :
    partValues (appendDtoToTimeseries float [] t mName shared .summary m) (.lit "quantile") =
      q.quantile.map fun v ↦ some (float.format v.quantile) := by
  rw [appendDtoToTimeseries_summary float t hm, partValues, List.drop_succ_cons,
    List.drop_succ_cons, List.drop_zero, quantileSeries, List.map_map]
  simp [valueOf_quantile hown hshared, Function.comp_def]

private theorem valueOf_of_same {a b : TimeSeries} (h : SameLabels a b)
    (ha : (names a.labels).Nodup) (hb : (names b.labels).Nodup) (n : GoString) :
    valueOf a.labels n = valueOf b.labels n := by
  cases hv : valueOf a.labels n with
  | some v =>
    obtain ⟨l, hl, rfl⟩ := Option.map_eq_some_iff.mp hv
    obtain ⟨hmem, rfl⟩ := Keyed.mem_of_first hl
    rw [valueOf_of_mem hb ((h l).mp hmem)]
  | none =>
    symm
    apply valueOf_eq_none.mpr
    intro hmem
    obtain ⟨l, hl, rfl⟩ := List.mem_map.mp hmem
    rw [valueOf_of_mem ha ((h l).mpr hl)] at hv
    cases hv

private theorem not_sameLabels {v w : Float64} {a b : List Label} {n : GoString}
    (h : valueOf a n ≠ valueOf b n) :
    ¬ SameLabels (makeTimeseries t v a) (makeTimeseries t w b) := by
  intro hsame
  have heq := valueOf_of_same hsame (nodup_names_makeTimeseries t v a)
    (nodup_names_makeTimeseries t w b) n
  rw [valueOf_makeTimeseries, valueOf_makeTimeseries] at heq
  exact h heq

private theorem ne_of_suffix {suffix suffix' : String} (extra extra' : List Label)
    (h : GoString.lit suffix ≠ .lit suffix') :
    valueOf (namedLabels mName shared m suffix ++ extra) metricNameLabel ≠
      valueOf (namedLabels mName shared m suffix' ++ extra') metricNameLabel := by
  rw [valueOf_metricNameLabel, valueOf_metricNameLabel]
  intro heq
  exact h (List.append_cancel_left (Option.some.inj heq))

private theorem pairwise_totals {sum count : Float64} {parts : List TimeSeries} (suffix : String)
    (hsum : GoString.lit "_sum" ≠ .lit suffix) (hcount : GoString.lit "_count" ≠ .lit suffix)
    (hparts : ∀ p ∈ parts, ∃ v extra,
      p = makeTimeseries t v (namedLabels mName shared m suffix ++ extra))
    (h : parts.Pairwise fun a b ↦ ¬ SameLabels a b) :
    (makeTimeseries t sum (namedLabels mName shared m "_sum") ::
      makeTimeseries t count (namedLabels mName shared m "_count") :: parts).Pairwise
        fun a b ↦ ¬ SameLabels a b := by
  have hnil : ∀ suffix, namedLabels mName shared m suffix =
      namedLabels mName shared m suffix ++ [] := fun _ ↦ (List.append_nil _).symm
  rw [List.pairwise_cons, List.pairwise_cons]
  refine ⟨fun p hp ↦ ?_, fun p hp ↦ ?_, h⟩
  · rcases List.mem_cons.mp hp with rfl | hp
    · rw [hnil "_sum", hnil "_count"]
      exact not_sameLabels (ne_of_suffix [] [] (by decide))
    · obtain ⟨v, extra, rfl⟩ := hparts p hp
      rw [hnil "_sum"]
      exact not_sameLabels (ne_of_suffix [] extra hsum)
  · obtain ⟨v, extra, rfl⟩ := hparts p hp
    rw [hnil "_count"]
    exact not_sameLabels (ne_of_suffix [] extra hcount)

private theorem format_ne {x y : Float64} (h : Distinguished x y) :
    float.format x ≠ float.format y := by
  intro heq
  rcases float.format_inj x y heq with hxy | hnan
  · exact h.1 hxy
  · exact h.2 hnan

private theorem pairwise_summary {q : Summary} (hown : m.OwnLabels) (hm : m.summary = some q)
    (hshared : .lit "quantile" ∉ names shared)
    (hq : q.quantile.Pairwise fun v w ↦ Distinguished v.quantile w.quantile) :
    (appendDtoToTimeseries float [] t mName shared .summary m).Pairwise
      fun a b ↦ ¬ SameLabels a b := by
  rw [appendDtoToTimeseries_summary float t hm]
  apply pairwise_totals "" (by decide) (by decide)
  · intro p hp
    obtain ⟨v, -, rfl⟩ := List.mem_map.mp hp
    exact ⟨_, _, rfl⟩
  · refine List.pairwise_map.mpr (hq.imp fun hne ↦ not_sameLabels (n := .lit "quantile") ?_)
    rw [valueOf_quantile hown hshared, valueOf_quantile hown hshared]
    exact fun heq ↦ format_ne hne (Option.some.inj heq)

private theorem pairwise_histogram {h : Histogram} {b : List Bucket} (hown : m.OwnLabels)
    (hm : m.histogram = some h) (hb : h.bucket = some b) (hshared : .lit "le" ∉ names shared)
    (hne : b.Pairwise fun v w ↦ Distinguished v.upperBound w.upperBound)
    (hinf : ∀ v ∈ b, v.upperBound ≠ .inf) :
    (appendDtoToTimeseries float [] t mName shared .histogram m).Pairwise
      fun a b ↦ ¬ SameLabels a b := by
  have hdiffer : ∀ {v w : Float64} {x y : GoString}, x ≠ y →
      ¬ SameLabels (makeTimeseries t v (namedLabels mName shared m "_bucket" ++ [⟨.lit "le", x⟩]))
        (makeTimeseries t w (namedLabels mName shared m "_bucket" ++ [⟨.lit "le", y⟩])) := by
    intro v w x y hxy
    apply not_sameLabels (n := .lit "le")
    rw [valueOf_le hown hshared, valueOf_le hown hshared]
    exact fun heq ↦ hxy (Option.some.inj heq)
  rw [appendDtoToTimeseries_histogram float t hm hb]
  apply pairwise_totals "_bucket" (by decide) (by decide)
  · intro p hp
    rcases List.mem_append.mp hp with hp | hp
    · obtain ⟨v, -, rfl⟩ := List.mem_map.mp hp
      exact ⟨_, _, rfl⟩
    · rw [List.mem_singleton.mp hp]
      exact ⟨_, _, rfl⟩
  · refine List.pairwise_append.mpr ⟨?_, List.pairwise_singleton _ _, ?_⟩
    · exact List.pairwise_map.mpr (hne.imp fun hd ↦ hdiffer (format_ne hd))
    · intro a ha c hc
      obtain ⟨v, hv, rfl⟩ := List.mem_map.mp ha
      rw [List.mem_singleton.mp hc]
      exact hdiffer fun heq ↦ hinf v hv ((float.format_eq_inf _).mp heq)

end Series

/-! ### The two missed names -/

section Missed

variable {float : FloatFormat} {s : ScraperConfig} {mode : LabelMode} {geohash : GoString}

private theorem agentLabelsKept_of_noMissedName (hmode : Unprefixes mode) (h : NoMissedName s) :
    AgentLabelsKept float s geohash mode where
  checkInfo := checkInfo_kept hmode h
  logs := logs_kept (ne_prefixed hmode)
  stream _ _ _ _ hown hlabels := stream_kept (ne_prefixed hmode) hown hlabels
  buckets _ _ _ _ _ hown hm hb := partValues_buckets hown hm hb fun hmem ↦
    s.notMem_executionMetricLabels (.inl rfl) (by decide) (mem_names_sharedLabels hmem)
  quantiles _ _ _ _ hown hm := partValues_quantiles hown hm fun hmem ↦
    s.notMem_executionMetricLabels (.inr h.quantile) (by decide) (mem_names_sharedLabels hmem)
  histogram _ _ _ _ _ hown hm hb := pairwise_histogram hown hm hb fun hmem ↦
    s.notMem_executionMetricLabels (.inl rfl) (by decide) (mem_names_sharedLabels hmem)
  summary _ _ _ _ hown hm := pairwise_summary hown hm fun hmem ↦
    s.notMem_executionMetricLabels (.inr h.quantile) (by decide) (mem_names_sharedLabels hmem)

private theorem quantile_overridden (float : FloatFormat) (hmode : mode ≠ .prefixed)
    (huser : s.IsUser (.lit "quantile")) :
    ∃ v, ∀ x : Float64,
      partValues (appendDtoToTimeseries float [] 0 (.lit "m")
        (sharedLabels (.lit "m") (s.executionMetricLabels mode)) .summary
        { summary := some { quantile := [⟨x, .zero⟩] } }) (.lit "quantile") = [some v] := by
  obtain ⟨v, hv⟩ := Option.isSome_iff_exists.mp (leading_isSome.mpr huser)
  have hexec : valueOf (s.executionMetricLabels mode) (.lit "quantile") = some v := by
    rw [execution_of_not_system hmode (by decide), hv]
  have hshared : valueOf (sharedLabels (.lit "m") (s.executionMetricLabels mode))
      (.lit "quantile") = some (truncateLabelValue v) := by
    have hname : GoString.lit "m" ≠ checkInfoMetricName := by decide
    have hmap : Keyed.first Label.name (id (.lit "quantile"))
        ((s.executionMetricLabels mode).map truncated) =
        (Keyed.first Label.name (.lit "quantile") (s.executionMetricLabels mode)).map truncated :=
      Keyed.first_map Function.injective_id (fun _ ↦ by rfl) _ _
    obtain ⟨l, hl, rfl⟩ := Option.map_eq_some_iff.mp hexec
    rw [hl] at hmap
    rw [sharedLabels, if_neg hname]
    exact congrArg (Option.map Label.value) hmap
  refine ⟨truncateLabelValue v, fun x ↦ ?_⟩
  rw [appendDtoToTimeseries_summary float 0 rfl, partValues, List.drop_succ_cons,
    List.drop_succ_cons, List.drop_zero]
  simp only [quantileSeries, List.map_cons, List.map_nil, valueOf_makeTimeseries]
  rw [valueOf_append, namedLabels, valueOf, Keyed.first_cons, if_neg (by decide), ← valueOf,
    valueOf_append, hshared]
  rfl

private theorem AgentLabelsKept.noMissedName (hmode : Unprefixes mode)
    (h : AgentLabelsKept float s geohash mode) : NoMissedName s := by
  constructor
  · intro huser
    obtain ⟨v, hv⟩ := quantile_overridden float (ne_prefixed hmode) huser
    have hformat : ∀ x, float.format x = v := by
      intro x
      have hkept := h.quantiles 0 (.lit "m") { summary := some { quantile := [⟨x, .zero⟩] } } _
        (fun l hl ↦ absurd hl List.not_mem_nil) rfl
      rw [hv x] at hkept
      exact (Option.some.inj (List.cons.inj hkept).1).symm
    have hne : Distinguished .zero .inf := by
      unfold Distinguished
      decide
    exact format_ne hne ((hformat .zero).trans (hformat .inf).symm)
  · intro hset hset' huser
    have hmem : ⟨.lit "alert_sensitivity", s.check.alertSensitivity⟩ ∈
        s.baseLabels geohash mode := by
      rw [ScraperConfig.baseLabels, if_pos ⟨hset, hset'⟩]
      exact List.mem_append_right _ (List.mem_singleton.mpr rfl)
    have hkept : (s.buildCheckInfoLabels geohash mode).lookup (.lit "alert_sensitivity") =
        some s.check.alertSensitivity := h.checkInfo _ hmem
    obtain ⟨v, hv⟩ := Option.isSome_iff_exists.mp (leading_isSome.mpr huser)
    rw [s.lookup_buildCheckInfoLabels, valueOf_append,
      valueOf_userLabels hmode (by decide) (ne_prefixedName (by decide)), hv] at hkept
    rw [hv]
    exact hkept

end Missed

/-- Where user labels are emitted without a prefix, the agent's labels are kept exactly when no
user label has one of the two missed names. -/
theorem agentLabelsKept_iff_noMissedName (float : FloatFormat) (s : ScraperConfig)
    (geohash : GoString) (mode : LabelMode) (hmode : Unprefixes mode) :
    AgentLabelsKept float s geohash mode ↔ NoMissedName s :=
  ⟨AgentLabelsKept.noMissedName hmode, agentLabelsKept_of_noMissedName hmode⟩

/-- A label `team` is emitted beside the agent's labels. -/
theorem agentLabelsKept_team :
    let s := labelledScript [] [⟨.lit "team", .lit "a"⟩]
    s.check.validate Stdlib.permissive = .ok none ∧ s.probe.validate = none ∧
      AgentLabelsKept .unary s [] .unprefixed := by
  refine ⟨rfl, rfl, (agentLabelsKept_iff_noMissedName .unary
    (labelledScript [] [⟨.lit "team", .lit "a"⟩]) [] .unprefixed (.inr rfl)).mpr ⟨?_, ?_⟩⟩
  · rintro ⟨l, hl, hname⟩
    rw [List.mem_singleton.mp hl] at hname
    exact absurd hname (by decide)
  · intro hset
    exact absurd rfl hset

/-- A label `quantile` is on every series of a summary instead of the agent's, so the series of
two quantiles have the same labels. -/
theorem not_agentLabelsKept_quantile :
    let s := labelledScript [] [⟨.lit "quantile", .lit "a"⟩]
    let m : Metric := { summary := some { quantile := [⟨.zero, .zero⟩, ⟨⟨1⟩, .zero⟩] } }
    let series := appendDtoToTimeseries .unary [] 0 (.lit "m")
      (sharedLabels (.lit "m") (s.executionMetricLabels .unprefixed)) .summary m
    s.check.validate Stdlib.permissive = .ok none ∧ s.probe.validate = none ∧
      partValues series (.lit "quantile") = [some (.lit "a"), some (.lit "a")] ∧
      (series.map TimeSeries.labels)[2]? = (series.map TimeSeries.labels)[3]? ∧
      ¬ AgentLabelsKept .unary s [] .unprefixed := by
  refine ⟨rfl, rfl, by decide, rfl, fun h ↦ ?_⟩
  have hkept := h.quantiles 0 (.lit "m") { summary := some { quantile := [⟨.zero, .zero⟩] } } _
    (fun l hl ↦ absurd hl List.not_mem_nil) rfl
  exact absurd hkept (by decide)

end SMAgent.Scraper
