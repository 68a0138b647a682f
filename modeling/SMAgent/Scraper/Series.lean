import SMAgent.Scraper.Labels

/-!
# Time series

`internal/scraper/scraper.go:1023-1062`, `1299-1384` and `1518-1529`: the gathered metrics as
remote-write series. A series is named by its first label, then come the labels that all
series of the execution share, then the metric's own, then `le` or `quantile`; of two labels
with one name the first is kept.
-/

namespace SMAgent.Scraper
open SMAgent.Base SMAgent.Pb
open GoString (lit byte)

/-- `dto.MetricType`. -/
inductive MetricType where
  | counter | gauge | summary | untyped | histogram | gaugeHistogram
  deriving DecidableEq, Repr

/-- `dto.Quantile`. -/
structure Quantile where
  quantile : Float64
  value : Float64
  deriving DecidableEq, Repr

/-- `dto.Summary`. -/
structure Summary where
  sampleCount : UInt64 := 0
  sampleSum : Float64 := .zero
  quantile : List Quantile := []
  deriving DecidableEq, Repr

/-- `dto.Bucket`. -/
structure Bucket where
  cumulativeCount : UInt64
  upperBound : Float64
  deriving DecidableEq, Repr

/-- `dto.Histogram`; `bucket` is `none` where the slice is nil. -/
structure Histogram where
  sampleCount : UInt64 := 0
  sampleSum : Float64 := .zero
  bucket : Option (List Bucket) := none
  deriving DecidableEq, Repr

/-- `dto.Metric`; a value is `none` where the message or its value is nil. -/
structure Metric where
  label : List Label := []
  counter : Option Float64 := none
  gauge : Option Float64 := none
  untyped : Option Float64 := none
  summary : Option Summary := none
  histogram : Option Histogram := none
  deriving DecidableEq, Repr

/-- `dto.MetricFamily`. -/
structure MetricFamily where
  name : GoString
  type : MetricType
  metric : List Metric
  deriving DecidableEq, Repr

/-- `strconv.FormatFloat(x, 'G', -1, 64)`: as many digits as it takes to tell `x` from every
other number. -/
structure FloatFormat where
  format : Float64 → GoString
  format_inj : ∀ x y, format x = format y → x = y ∨ x.isNaN ∧ y.isNaN
  format_eq_inf : ∀ x, format x = .lit "+Inf" ↔ x = .inf

/-- The format that writes the numbers with `f`, and infinity and what is not a number by name. -/
def FloatFormat.ofNumerals (f : Float64 → GoString) (hinj : ∀ x y, f x = f y → x = y)
    (hinf : ∀ x, f x ≠ .lit "+Inf") (hnan : ∀ x, f x ≠ .lit "NaN") : FloatFormat where
  format x := if x = .inf then .lit "+Inf" else if x.isNaN then .lit "NaN" else f x
  format_inj x y h := by
    by_cases hx : x = .inf
    · by_cases hy : y = .inf
      · exact .inl (hx.trans hy.symm)
      · rw [if_pos hx, if_neg hy] at h
        split at h
        · exact absurd h (by decide)
        · exact absurd h.symm (hinf y)
    · rw [if_neg hx] at h
      by_cases hy : y = .inf
      · rw [if_pos hy] at h
        split at h
        · exact absurd h (by decide)
        · exact absurd h (hinf x)
      · rw [if_neg hy] at h
        split at h
        · next hxn =>
          split at h
          · next hyn => exact .inr ⟨hxn, hyn⟩
          · exact absurd h.symm (hnan y)
        · split at h
          · exact absurd h (hnan x)
          · exact .inl (hinj x y h)
  format_eq_inf x := by
    by_cases hx : x = .inf
    · simp [hx]
    · rw [if_neg hx]
      refine iff_of_false ?_ hx
      split
      · decide
      · exact hinf x

private theorem replicate_ne (n : Nat) {text : GoString} (h : text.any (· != byte '1')) :
    List.replicate n (byte '1') ≠ text := by
  rintro rfl
  obtain ⟨b, hb, hne⟩ := List.any_eq_true.mp h
  exact absurd (List.eq_of_mem_replicate hb) (bne_iff_ne.mp hne)

private theorem replicate_bits_inj (x y : Float64)
    (h : List.replicate x.bits.toNat (byte '1') =
      List.replicate y.bits.toNat (byte '1')) : x = y := by
  have hlen := congrArg List.length h
  rw [List.length_replicate, List.length_replicate] at hlen
  exact congrArg Float64.mk (UInt64.toNat_inj.mp hlen)

/-- The bit pattern in unary, for sample runs. -/
def FloatFormat.unary : FloatFormat where
  format x :=
    if x = .inf then .lit "+Inf"
    else if x.isNaN then .lit "NaN"
    else List.replicate x.bits.toNat (byte '1')
  format_inj := (ofNumerals _ replicate_bits_inj (fun _ ↦ replicate_ne _ (by decide))
    (fun _ ↦ replicate_ne _ (by decide))).format_inj
  format_eq_inf := (ofNumerals _ replicate_bits_inj (fun _ ↦ replicate_ne _ (by decide))
    (fun _ ↦ replicate_ne _ (by decide))).format_eq_inf

/-- `prom.MetricNameLabel`. -/
def metricNameLabel : GoString := .lit "__name__"

/-- `maxLabelValueLength`, `scraper.go:41`. -/
def maxLabelValueLength : Nat := 2048

/-- `truncateLabelValue`, `scraper.go:1518-1529`. -/
def truncateLabelValue (str : GoString) : GoString :=
  if str.length > maxLabelValueLength then str.take (maxLabelValueLength - 3) ++ .lit "..."
  else str

/-- A label with its value cut. -/
def truncated (l : LabelPair) : Label := ⟨l.name, truncateLabelValue l.value⟩

/-- `labels` with the metric's name and a suffix in front, `scraper.go:1300-1308`. -/
def namedLabels (mName : GoString) (sharedLabels : List Label) (metric : Metric)
    (suffix : String) : List Label :=
  ⟨metricNameLabel, mName ++ .lit suffix⟩ :: (sharedLabels ++ metric.label.map truncated)

/-- The series of the quantiles, `scraper.go:1338-1347`. -/
def quantileSeries (float : FloatFormat) (t : Int) (labels : List Label)
    (quantiles : List Quantile) : List TimeSeries :=
  quantiles.map fun v ↦
    makeTimeseries t v.value (labels ++ [⟨.lit "quantile", float.format v.quantile⟩])

/-- The series of the buckets, with the one for `+Inf`, `scraper.go:1362-1380`. -/
def bucketSeries (float : FloatFormat) (t : Int) (labels : List Label) (buckets : List Bucket)
    (sampleCount : UInt64) : List TimeSeries :=
  (buckets.map fun v ↦
    makeTimeseries t (.ofUInt64 v.cumulativeCount)
      (labels ++ [⟨.lit "le", float.format v.upperBound⟩])) ++
  [makeTimeseries t (.ofUInt64 sampleCount) (labels ++ [⟨.lit "le", .lit "+Inf"⟩])]

/-- `appendDtoToTimeseries`, `scraper.go:1299-1384`. -/
def appendDtoToTimeseries (float : FloatFormat) (ts : List TimeSeries) (t : Int)
    (mName : GoString) (sharedLabels : List Label) (mType : MetricType) (metric : Metric) :
    List TimeSeries :=
  let labels := namedLabels mName sharedLabels metric
  let single (v : Option Float64) := (v.map fun v ↦ makeTimeseries t v (labels "")).toList
  let totals (sampleSum : Float64) (sampleCount : UInt64) :=
    [makeTimeseries t sampleSum (labels "_sum"),
      makeTimeseries t (.ofUInt64 sampleCount) (labels "_count")]
  ts ++ match mType with
    | .counter => single metric.counter
    | .gauge => single metric.gauge
    | .untyped => single metric.untyped
    | .summary =>
      match metric.summary with
      | some s => totals s.sampleSum s.sampleCount ++ quantileSeries float t (labels "") s.quantile
      | none => []
    | .histogram =>
      match metric.histogram with
      | some h =>
        match h.bucket with
        | some b =>
          totals h.sampleSum h.sampleCount ++
            bucketSeries float t (labels "_bucket") b h.sampleCount
        | none => []
      | none => []
    | .gaugeHistogram => []

/-- `CheckInfoMetricName`, `scraper.go:39`. -/
def checkInfoMetricName : GoString := .lit "sm_check_info"

/-- The labels that the series of a family share, `scraper.go:1049-1054`: `sm_check_info` was
registered with the ones it has. -/
def sharedLabels (mName : GoString) (executionLabels : List LabelPair) : List Label :=
  if mName = checkInfoMetricName then [] else executionLabels.map truncated

/-- `extractTimeseries`, `scraper.go:1031-1062`. -/
def extractTimeseries (float : FloatFormat) (t : Int) (metrics : List MetricFamily)
    (executionLabels : List LabelPair) : List TimeSeries :=
  metrics.foldl (fun ts mf ↦
    mf.metric.foldl (fun ts m ↦
      appendDtoToTimeseries float ts t mf.name (sharedLabels mf.name executionLabels) mf.type m)
      ts) []

/-! ### Cut values -/

section Truncate

/-- The loop of `truncateLabelValue`, `scraper.go:1521-1523`. -/
def overwriteEnd (b : GoString) : GoString :=
  (List.range' (maxLabelValueLength - 3) 3).foldl (fun b i ↦ b.set i (byte '.')) b

private theorem overwrite_append (p : GoString) (x y z : UInt8) :
    (List.range' p.length 3).foldl (fun b i ↦ b.set i (byte '.')) (p ++ [x, y, z]) =
      p ++ .lit "..." := by
  simp [List.range', Nat.add_assoc]
  rfl

/-- What the loop over the copied bytes comes to. -/
theorem truncateLabelValue_eq_loop (str : GoString) :
    truncateLabelValue str =
      if str.length > maxLabelValueLength then overwriteEnd (str.take maxLabelValueLength)
      else str := by
  unfold truncateLabelValue
  split
  · next hlong =>
    obtain ⟨x, y, z, hend⟩ : ∃ x y z, (str.drop (maxLabelValueLength - 3)).take 3 = [x, y, z] := by
      apply List.length_eq_three.mp
      rw [List.length_take, List.length_drop]
      unfold maxLabelValueLength at *
      omega
    have hlength : (str.take (maxLabelValueLength - 3)).length = maxLabelValueLength - 3 := by
      rw [List.length_take]
      omega
    have hcopied : str.take maxLabelValueLength = str.take (maxLabelValueLength - 3) ++ [x, y, z] :=
      calc str.take maxLabelValueLength = str.take (maxLabelValueLength - 3 + 3) := rfl
        _ = str.take (maxLabelValueLength - 3) ++ (str.drop (maxLabelValueLength - 3)).take 3 :=
          List.take_add
        _ = _ := by rw [hend]
    rw [hcopied, overwriteEnd, ← overwrite_append _ x y z, hlength]
  · rfl

/-- A value is cut to the limit. -/
theorem length_truncateLabelValue_le (s : GoString) :
    (truncateLabelValue s).length ≤ maxLabelValueLength := by
  unfold truncateLabelValue
  split
  · next hlong =>
    have hdots : (lit "...").length = 3 := rfl
    rw [List.length_append, List.length_take, hdots]
    unfold maxLabelValueLength at *
    omega
  · next hshort => exact Nat.not_lt.mp hshort

private theorem truncateLabelValue_of_le {s : GoString} (h : s.length ≤ maxLabelValueLength) :
    truncateLabelValue s = s := by
  rw [truncateLabelValue, if_neg (Nat.not_lt.mpr h)]

private theorem truncateLabelValue_of_lt {s : GoString} (h : maxLabelValueLength < s.length) :
    truncateLabelValue s = s.take (maxLabelValueLength - 3) ++ .lit "..." := by
  rw [truncateLabelValue, if_pos h]

private theorem validString_dots (p : GoString) :
    (p ++ .lit "...").validString = p.validString := by
  rw [Bool.eq_iff_iff]
  constructor
  · exact GoString.validString_of_append_ascii (by decide)
  · intro hp
    rw [GoString.validString_append hp]
    rfl

/-- A value that is cut stays text exactly if the cut is between two characters. -/
theorem truncateLabelValue_valid_iff {s : GoString} (hs : s.validString = true) :
    ((truncateLabelValue s).validString = true ∧
        (truncateLabelValue s).length ≤ maxLabelValueLength ∧
        (s.length ≤ maxLabelValueLength → truncateLabelValue s = s) ∧
        (maxLabelValueLength < s.length → ∃ p, p <+: s ∧ truncateLabelValue s = p ++ .lit "...")) ↔
      s.length ≤ maxLabelValueLength ∨
        (s.drop (maxLabelValueLength - 3)).head?.all GoString.runeStart = true := by
  constructor
  · rintro ⟨hvalid, -⟩
    by_cases hle : s.length ≤ maxLabelValueLength
    · exact .inl hle
    · rw [truncateLabelValue_of_lt (Nat.not_le.mp hle), validString_dots,
        GoString.validString_take hs] at hvalid
      exact .inr hvalid
  · intro h
    refine ⟨?_, length_truncateLabelValue_le s, truncateLabelValue_of_le, fun hlt ↦ ?_⟩
    · by_cases hle : s.length ≤ maxLabelValueLength
      · rw [truncateLabelValue_of_le hle]
        exact hs
      · rw [truncateLabelValue_of_lt (Nat.not_le.mp hle), validString_dots,
          GoString.validString_take hs]
        exact h.resolve_left hle
    · exact ⟨_, List.take_prefix _ _, truncateLabelValue_of_lt hlt⟩

/-- A text with a character of two bytes after so many letters. -/
def accentAfter (n : Nat) : GoString :=
  List.replicate n (byte 'a') ++ ([0xc3, 0xa9] ++ lit "bbbb")

/-- The text is cut right after its character of two bytes. -/
theorem truncateLabelValue_valid_cut :
    maxLabelValueLength < (accentAfter 2043).length ∧
      (truncateLabelValue (accentAfter 2043)).validString = true :=
  ⟨by decide +kernel, ((truncateLabelValue_valid_iff (s := accentAfter 2043)
    (by decide +kernel)).mpr (.inr (by decide +kernel))).1⟩

/-- The text is cut in its character of two bytes, the first of which is left. -/
theorem truncateLabelValue_splits_accent :
    (accentAfter 2044).validString = true ∧
      (truncateLabelValue (accentAfter 2044)).validString = false := by
  decide +kernel

end Truncate

/-! ### The labels of a series -/

section Labels

variable (t : Int) (value : Float64) (labels : List Label)

/-- Cutting values keeps the names. -/
@[simp]
theorem names_map_truncated : List.map Label.name (labels.map truncated) = names labels :=
  List.map_map

/-- A series has the first label of each name. -/
theorem labels_makeTimeseries :
    (makeTimeseries t value labels).labels = labels.foldl (Keyed.addNew Label.name) [] := by
  rw [makeTimeseries, addLabel_eq]

/-- No label of a series is there twice. -/
theorem nodup_names_makeTimeseries : (names (makeTimeseries t value labels).labels).Nodup := by
  rw [labels_makeTimeseries]
  exact Keyed.nodup_foldl_addNew _ [] List.nodup_nil

/-- A series has the names that it was given. -/
theorem mem_names_makeTimeseries {n : GoString} :
    n ∈ names (makeTimeseries t value labels).labels ↔ n ∈ names labels := by
  rw [labels_makeTimeseries, names, Keyed.mem_keys_foldl_addNew]

/-- A series has the first value of each name. -/
@[simp]
theorem valueOf_makeTimeseries (n : GoString) :
    valueOf (makeTimeseries t value labels).labels n = valueOf labels n := by
  rw [valueOf, labels_makeTimeseries, Keyed.first_foldl_addNew]
  rfl

end Labels

section Append

variable (float : FloatFormat) (t : Int)

private theorem foldl_append_eq_flatMap {α β : Type} (f : List β → α → List β) (g : α → List β)
    (h : ∀ acc x, f acc x = acc ++ g x) (l : List α) (acc : List β) :
    l.foldl f acc = acc ++ l.flatMap g := by
  induction l generalizing acc with
  | nil => exact (List.append_nil acc).symm
  | cons x l ih => rw [List.foldl_cons, ih, h, List.flatMap_cons, List.append_assoc]

/-- The series are those of each metric of each family. -/
theorem extractTimeseries_eq (metrics : List MetricFamily) (executionLabels : List LabelPair) :
    extractTimeseries float t metrics executionLabels =
      metrics.flatMap fun mf ↦ mf.metric.flatMap
        (appendDtoToTimeseries float [] t mf.name (sharedLabels mf.name executionLabels) mf.type) :=
  foldl_append_eq_flatMap _ _
    (fun acc mf ↦ foldl_append_eq_flatMap _ _ (fun _ _ ↦ rfl) mf.metric acc) metrics []

/-- What the name of a series has after the name of its family. -/
def nameSuffixes : List String := ["", "_sum", "_count", "_bucket"]

/-- A series of a metric has the metric's name with a suffix, the shared labels and the metric's
own, and at most one label more, which has a number. -/
def IsSeries (mName : GoString) (shared : List Label) (m : Metric) (series : TimeSeries) : Prop :=
  ∃ value, ∃ suffix ∈ nameSuffixes, ∃ extra, series =
      makeTimeseries t value (namedLabels mName shared m suffix ++ extra) ∧
    ∀ l ∈ extra, (l.name = .lit "quantile" ∨ l.name = .lit "le") ∧ ∃ x, l.value = float.format x

private theorem isSeries_plain {mName : GoString} {shared : List Label} {m : Metric}
    (value : Float64) {suffix : String} (h : suffix ∈ nameSuffixes) :
    IsSeries float t mName shared m (makeTimeseries t value (namedLabels mName shared m suffix)) :=
  ⟨value, suffix, h, [], by rw [List.append_nil], List.forall_mem_nil _⟩

/-- What a metric is converted to are its series. -/
theorem mem_appendDtoToTimeseries {mName : GoString} {shared : List Label} {mType : MetricType}
    {m : Metric} {series : TimeSeries}
    (h : series ∈ appendDtoToTimeseries float [] t mName shared mType m) :
    IsSeries float t mName shared m series := by
  have hsingle (v : Option Float64) (h : series ∈
      (v.map fun v ↦ makeTimeseries t v (namedLabels mName shared m "")).toList) :
      IsSeries float t mName shared m series := by
    obtain ⟨x, -, rfl⟩ := Option.map_eq_some_iff.mp (Option.mem_toList.mp h)
    exact isSeries_plain float t x (by decide)
  have htotals (sum count : Float64) (h : series ∈
      [makeTimeseries t sum (namedLabels mName shared m "_sum"),
        makeTimeseries t count (namedLabels mName shared m "_count")]) :
      IsSeries float t mName shared m series := by
    rcases List.mem_pair.mp h with rfl | rfl
    · exact isSeries_plain float t sum (by decide)
    · exact isSeries_plain float t count (by decide)
  unfold appendDtoToTimeseries at h
  rw [List.nil_append] at h
  split at h
  · exact hsingle _ h
  · exact hsingle _ h
  · exact hsingle _ h
  · split at h
    · rcases List.mem_append.mp h with h | h
      · exact htotals _ _ h
      · obtain ⟨v, -, rfl⟩ := List.mem_map.mp h
        exact ⟨_, "", by decide, _, rfl, List.forall_mem_singleton.mpr ⟨.inl rfl, _, rfl⟩⟩
    · cases h
  · split at h
    · split at h
      · rcases List.mem_append.mp h with h | h
        · exact htotals _ _ h
        · rcases List.mem_append.mp h with h | h
          · obtain ⟨v, -, rfl⟩ := List.mem_map.mp h
            exact ⟨_, "_bucket", by decide, _, rfl,
              List.forall_mem_singleton.mpr ⟨.inr rfl, _, rfl⟩⟩
          · rw [List.mem_singleton.mp h]
            exact ⟨_, "_bucket", by decide, _, rfl, List.forall_mem_singleton.mpr
              ⟨.inr rfl, _, ((float.format_eq_inf _).mpr rfl).symm⟩⟩
      · cases h
    · cases h
  · cases h

/-- The series of a summary. -/
theorem appendDtoToTimeseries_summary {m : Metric} {q : Summary} (h : m.summary = some q)
    (mName : GoString) (shared : List Label) :
    appendDtoToTimeseries float [] t mName shared .summary m =
      makeTimeseries t q.sampleSum (namedLabels mName shared m "_sum") ::
      makeTimeseries t (.ofUInt64 q.sampleCount) (namedLabels mName shared m "_count") ::
      quantileSeries float t (namedLabels mName shared m "") q.quantile := by
  simp [appendDtoToTimeseries, h]

/-- The series of a histogram. -/
theorem appendDtoToTimeseries_histogram {m : Metric} {h : Histogram} {b : List Bucket}
    (hm : m.histogram = some h) (hb : h.bucket = some b) (mName : GoString)
    (shared : List Label) :
    appendDtoToTimeseries float [] t mName shared .histogram m =
      makeTimeseries t h.sampleSum (namedLabels mName shared m "_sum") ::
      makeTimeseries t (.ofUInt64 h.sampleCount) (namedLabels mName shared m "_count") ::
      bucketSeries float t (namedLabels mName shared m "_bucket") b h.sampleCount := by
  simp [appendDtoToTimeseries, hm, hb]

end Append

/-- A series has its metric's name, whatever labels follow. -/
theorem valueOf_metricNameLabel (mName : GoString) (shared : List Label) (m : Metric)
    (suffix : String) (extra : List Label) :
    valueOf (namedLabels mName shared m suffix ++ extra) metricNameLabel =
      some (mName ++ .lit suffix) := by
  rw [namedLabels, List.cons_append, valueOf, Keyed.first_cons, if_pos rfl]
  rfl

/-- A label at the end is seen where no label before it has its name. -/
theorem valueOf_namedLabels {mName n v : GoString} {shared : List Label} {m : Metric}
    (suffix : String) (hname : n ≠ metricNameLabel) (hshared : n ∉ names shared)
    (hown : ∀ l ∈ m.label, l.name ≠ n) :
    valueOf (namedLabels mName shared m suffix ++ [⟨n, v⟩]) n = some v := by
  have hnone : valueOf (namedLabels mName shared m suffix) n = none := by
    apply valueOf_eq_none.mpr
    rw [namedLabels, names, List.map_cons, List.map_append, names_map_truncated, List.mem_cons,
      List.mem_append]
    rintro (h | h | h)
    · exact hname h
    · exact hshared h
    · obtain ⟨l, hl, heq⟩ := List.mem_map.mp h
      exact hown l hl heq
  rw [valueOf_append, hnone, Option.none_or, valueOf, Keyed.first_cons, if_pos rfl]
  rfl

/-- The shared labels are among those of the execution. -/
theorem mem_names_sharedLabels {mName n : GoString} {executionLabels : List LabelPair}
    (h : n ∈ names (sharedLabels mName executionLabels)) : n ∈ names executionLabels := by
  unfold sharedLabels at h
  split at h
  · cases h
  · rwa [names, names_map_truncated] at h

end SMAgent.Scraper
