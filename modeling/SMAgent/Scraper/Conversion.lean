import SMAgent.Scraper.SharedSlices

/-!
# What the conversion emits

Every metric of every family becomes a block of series, in the order of the metrics. This module
says what is in a block: how many series, with which values, and that each of them has one name,
labels that a remote write accepts, and the labels of the execution.
-/

namespace SMAgent.Scraper
open SMAgent.Base SMAgent.Pb

/-- A number has a sign, seventeen digits and a point, and an exponent of five bytes at most. -/
structure ShortFloatFormat extends FloatFormat where
  length_format_le : ∀ x, (format x).length ≤ 24

private theorem formatInt_ne {text : GoString}
    (h : text.any (fun b ↦ b != GoString.byte '-' && !(48 ≤ b.toNat && b.toNat ≤ 57)))
    (n : Int) : GoString.formatInt n ≠ text := by
  rintro rfl
  obtain ⟨b, hb, hother⟩ := List.any_eq_true.mp h
  rcases GoString.mem_formatInt hb with rfl | hdigit
  · simp at hother
  · simp [hdigit] at hother

/-- The bit pattern in decimal, for sample runs. -/
def ShortFloatFormat.decimal : ShortFloatFormat where
  toFloatFormat := .ofNumerals (fun x ↦ GoString.formatInt x.bits.toNat)
    (fun x y h ↦ congrArg Float64.mk
      (UInt64.toNat_inj.mp (Int.ofNat_inj.mp (GoString.formatInt_injective h))))
    (fun _ ↦ formatInt_ne (by decide) _) (fun _ ↦ formatInt_ne (by decide) _)
  length_format_le x := by
    have hbits : x.bits.toNat < 10 ^ 20 := Nat.lt_trans x.bits.toNat_lt (by decide)
    have hdigits := (Nat.length_toDigits_le_iff (by decide) (by decide)).mpr hbits
    unfold FloatFormat.ofNumerals
    dsimp only
    split
    · decide
    · split
      · decide
      · have hpos : ¬ (x.bits.toNat : Int) < 0 := Int.not_lt.mpr (Int.natCast_nonneg _)
        rw [GoString.formatInt, if_neg hpos, List.length_map]
        exact Nat.le_trans hdigits (by decide)

/-- A series of the family `mName`, at `t`. -/
structure WellFormedSeries (t : Int) (mName : GoString) (series : TimeSeries) : Prop where
  distinct : (names series.labels).Nodup
  named : ∃ suffix ∈ nameSuffixes, ∃ others,
    series.labels = ⟨metricNameLabel, mName ++ .lit suffix⟩ :: others ∧
      ∀ l ∈ others, l.name ≠ metricNameLabel ∧ l.value.length ≤ maxLabelValueLength
  sampled : ∃ value, series.samples = [⟨unixNanoMilli t, value⟩]

/-- The value of a metric that has one. -/
def Metric.singleValue (m : Metric) : MetricType → Option Float64
  | .counter => m.counter
  | .gauge => m.gauge
  | .untyped => m.untyped
  | .summary | .histogram | .gaugeHistogram => none

/-- A block of series is what the metric `m` of the family `mf` stands for. -/
structure Converted (t : Int) (executionLabels : List LabelPair) (mf : MetricFamily) (m : Metric)
    (block : List TimeSeries) : Prop where
  wellFormed : ∀ series ∈ block, WellFormedSeries t mf.name series
  single : ∀ value, m.singleValue mf.type = some value →
    ∃ labels, block = [⟨labels, [⟨unixNanoMilli t, value⟩]⟩]
  summary : mf.type = .summary → ∀ q, m.summary = some q → block.length = 2 + q.quantile.length
  /-- the last bucket is the one that the conversion adds -/
  histogram : mf.type = .histogram → ∀ h b, m.histogram = some h → h.bucket = some b →
    block.length = 3 + b.length ∧ ∃ front labels,
      block = front ++ [⟨labels, [⟨unixNanoMilli t, .ofUInt64 h.sampleCount⟩]⟩] ∧
        valueOf labels (.lit "le") = some (.lit "+Inf")
  execution : mf.name ≠ checkInfoMetricName → ∀ l ∈ executionLabels, l.name ≠ metricNameLabel →
    ∀ series ∈ block, valueOf series.labels l.name = some (truncateLabelValue l.value)

/-! ### One series -/

private theorem wellFormedSeries_makeTimeseries {t : Int} {mName : GoString} {suffix : String}
    (hsuffix : suffix ∈ nameSuffixes) (value : Float64) {others : List Label}
    (hlen : ∀ l ∈ others, l.value.length ≤ maxLabelValueLength) :
    WellFormedSeries t mName
      (makeTimeseries t value (⟨metricNameLabel, mName ++ .lit suffix⟩ :: others)) where
  distinct := nodup_names_makeTimeseries t value _
  named := by
    have hnodup := nodup_names_makeTimeseries t value
      (⟨metricNameLabel, mName ++ .lit suffix⟩ :: others)
    rw [labels_makeTimeseries] at hnodup ⊢
    have hfront : [⟨metricNameLabel, mName ++ .lit suffix⟩] <+:
        (⟨metricNameLabel, mName ++ .lit suffix⟩ :: others).foldl (Keyed.addNew Label.name) [] :=
      Keyed.prefix_foldl_addNew others _
    obtain ⟨kept, hkept⟩ := hfront
    rw [List.singleton_append] at hkept
    rw [← hkept] at hnodup
    have hfresh := (List.nodup_cons.mp hnodup).1
    refine ⟨suffix, hsuffix, kept, hkept.symm, fun l hl ↦ ?_⟩
    have hname : l.name ≠ metricNameLabel := fun h ↦ hfresh (List.mem_map.mpr ⟨l, hl, h⟩)
    have hmem := List.mem_cons_of_mem ⟨metricNameLabel, mName ++ .lit suffix⟩ hl
    rw [hkept] at hmem
    rcases List.mem_cons.mp (Keyed.mem_of_mem_foldl_addNew hmem) with rfl | hmem
    · exact absurd rfl hname
    · exact ⟨hname, hlen l hmem⟩
  sampled := ⟨value, rfl⟩

private theorem length_sharedLabels_le {mName : GoString} {executionLabels : List LabelPair} :
    ∀ l ∈ sharedLabels mName executionLabels, l.value.length ≤ maxLabelValueLength := by
  intro l hl
  unfold sharedLabels at hl
  split at hl
  · cases hl
  · obtain ⟨x, -, rfl⟩ := List.mem_map.mp hl
    exact length_truncateLabelValue_le x.value

private theorem valueOf_shared {shared : List Label} (hnodup : (names shared).Nodup) {l : Label}
    (hl : l ∈ shared) (hname : l.name ≠ metricNameLabel) (mName : GoString) (m : Metric)
    (suffix : String) (extra : List Label) :
    valueOf (namedLabels mName shared m suffix ++ extra) l.name = some l.value := by
  have hfound : valueOf (shared ++ m.label.map truncated ++ extra) l.name = some l.value := by
    rw [valueOf_append, valueOf_append, valueOf_of_mem hnodup hl]
    rfl
  rw [namedLabels, List.cons_append, valueOf, Keyed.first_cons, if_neg (Ne.symm hname)]
  exact hfound

/-! ### One metric -/

/-- A metric with one value gives one series. -/
theorem appendDtoToTimeseries_single (float : FloatFormat) (t : Int) {mType : MetricType}
    {m : Metric} {value : Float64} (h : m.singleValue mType = some value) (mName : GoString)
    (shared : List Label) :
    appendDtoToTimeseries float [] t mName shared mType m =
      [makeTimeseries t value (namedLabels mName shared m "")] := by
  cases mType with
  | counter | gauge | untyped =>
    unfold Metric.singleValue at h
    simp [appendDtoToTimeseries, h]
  | summary | histogram | gaugeHistogram => cases h

private theorem converted_appendDtoToTimeseries (float : ShortFloatFormat) (t : Int)
    {executionLabels : List LabelPair} (hnodup : (names executionLabels).Nodup)
    (hle : .lit "le" ∉ names executionLabels) (mf : MetricFamily) {m : Metric}
    (hown : ∀ l ∈ m.label, l.name ≠ .lit "le") :
    Converted t executionLabels mf m (appendDtoToTimeseries float.toFloatFormat [] t mf.name
      (sharedLabels mf.name executionLabels) mf.type m) where
  wellFormed series hseries := by
    obtain ⟨value, suffix, hsuffix, extra, rfl, hextra⟩ := mem_appendDtoToTimeseries _ t hseries
    apply wellFormedSeries_makeTimeseries hsuffix
    intro l hl
    rcases List.mem_append.mp hl with hl | hl
    · rcases List.mem_append.mp hl with hl | hl
      · exact length_sharedLabels_le l hl
      · obtain ⟨x, -, rfl⟩ := List.mem_map.mp hl
        exact length_truncateLabelValue_le x.value
    · obtain ⟨x, hx⟩ := (hextra l hl).2
      rw [hx]
      exact Nat.le_trans (float.length_format_le x) (by decide)
  single value hvalue := by
    rw [appendDtoToTimeseries_single _ t hvalue]
    exact ⟨_, rfl⟩
  summary htype q hq := by
    rw [htype, appendDtoToTimeseries_summary _ t hq]
    simp [quantileSeries]
    omega
  histogram htype h b hh hb := by
    rw [htype, appendDtoToTimeseries_histogram _ t hh hb]
    constructor
    · simp [bucketSeries]
      omega
    · have hlast := valueOf_makeTimeseries t (.ofUInt64 h.sampleCount)
        (namedLabels mf.name (sharedLabels mf.name executionLabels) m "_bucket" ++
          [⟨.lit "le", .lit "+Inf"⟩]) (.lit "le")
      rw [valueOf_namedLabels "_bucket" (by decide) (fun h ↦ hle (mem_names_sharedLabels h))
        hown] at hlast
      exact ⟨_ :: _ :: b.map _, _, rfl, hlast⟩
  execution hname l hl hlname series hseries := by
    obtain ⟨value, suffix, -, extra, rfl, -⟩ := mem_appendDtoToTimeseries _ t hseries
    have hshared : sharedLabels mf.name executionLabels = executionLabels.map truncated :=
      if_neg hname
    rw [valueOf_makeTimeseries, hshared]
    have hmem : truncated l ∈ executionLabels.map truncated := List.mem_map_of_mem hl
    exact valueOf_shared (by rwa [names, names_map_truncated]) hmem hlname _ _ _ _

/-! ### All metrics -/

/-- The conversion of the gathered metrics, none of which has a label `le` of its own, with the
labels of an execution in any label mode: what is read from the slices at the end is a
well-formed block for each metric. -/
theorem extractTimeseries_converted (float : ShortFloatFormat) (s : ScraperConfig)
    (mode : LabelMode) (t : Int) (metrics : List MetricFamily)
    (hown : ∀ mf ∈ metrics, ∀ m ∈ mf.metric, ∀ l ∈ m.label, l.name ≠ .lit "le") :
    ∃ (st : OnHeap.State) (block : MetricFamily → Metric → List TimeSeries),
      OnHeap.extractTimeseries float.toFloatFormat t metrics (s.executionMetricLabels mode) =
        .ok st ∧
      st.ts.map (OnHeap.SliceSeries.read st.heap) =
        metrics.flatMap (fun mf ↦ mf.metric.flatMap (block mf)) ∧
      ∀ mf ∈ metrics, ∀ m ∈ mf.metric,
        Converted t (s.executionMetricLabels mode) mf m (block mf m) := by
  obtain ⟨st, hok, hreads⟩ := OnHeap.extractTimeseries_reads float.toFloatFormat t metrics
    (s.executionMetricLabels mode)
  refine ⟨st, fun mf m ↦ appendDtoToTimeseries float.toFloatFormat [] t mf.name
    (sharedLabels mf.name (s.executionMetricLabels mode)) mf.type m, hok, ?_, ?_⟩
  · rw [hreads.reads, extractTimeseries_eq]
  · intro mf hmf m hm
    exact converted_appendDtoToTimeseries float t (s.nodup_names_executionMetricLabels mode)
      (s.notMem_executionMetricLabels (.inl rfl) (by decide)) mf (hown mf hmf m hm)

/-- A gauge, a summary and a histogram, for sample runs. -/
def gatheredSample : List MetricFamily :=
  [⟨.lit "probe_success", .gauge, [{ gauge := some (.ofUInt64 1) }]⟩,
    ⟨.lit "probe_all_success", .summary,
      [{ label := [⟨.lit "phase", .lit "tls"⟩],
         summary := some { sampleCount := 3, quantile := [⟨.zero, .zero⟩] } }]⟩,
    ⟨.lit "probe_duration", .histogram,
      [{ histogram := some { sampleCount := 3, bucket := some [⟨1, .zero⟩, ⟨2, .ofUInt64 1⟩] } }]⟩]

/-- Every metric of the sample is converted. -/
theorem extractTimeseries_gatheredSample :
    let s := labelledScript [⟨.lit "quantile", .lit "a"⟩] [⟨.lit "__name__", .lit "b"⟩]
    (∀ mf ∈ gatheredSample, ∀ m ∈ mf.metric, ∀ l ∈ m.label, l.name ≠ .lit "le") ∧
    ∃ (st : OnHeap.State) (block : MetricFamily → Metric → List TimeSeries),
      OnHeap.extractTimeseries ShortFloatFormat.decimal.toFloatFormat 0 gatheredSample
        (s.executionMetricLabels .unprefixed) = .ok st ∧
      st.ts.map (OnHeap.SliceSeries.read st.heap) =
        gatheredSample.flatMap (fun mf ↦ mf.metric.flatMap (block mf)) ∧
      ∀ mf ∈ gatheredSample, ∀ m ∈ mf.metric,
        Converted 0 (s.executionMetricLabels .unprefixed) mf m (block mf m) := by
  have hown : ∀ mf ∈ gatheredSample, ∀ m ∈ mf.metric, ∀ l ∈ m.label, l.name ≠ .lit "le" := by
    decide
  exact ⟨hown, extractTimeseries_converted .decimal _ .unprefixed 0 gatheredSample hown⟩

end SMAgent.Scraper
