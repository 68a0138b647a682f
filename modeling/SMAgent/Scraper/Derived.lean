import SMAgent.Scraper.Series

/-!
# Derived metrics

`internal/scraper/scraper.go:777-813`, `891-934` and `1419-1516`: the summaries and histograms that
a scraper keeps over all its scrapes. Each gauge of a scrape that tells a success or a duration is
observed by the accumulator of its series, which is found by the fingerprint of the series, and the
accumulators that were used are gathered from a fresh registry.

The Prometheus client is a parameter. A summary or a histogram is known by how it was made and by
the values that it was told; whether it can be made, registered and gathered, and what is gathered,
is for the client to say. The labels of a gathered metric are sorted by name, so a label map is a
list here.
-/

namespace SMAgent.Scraper
open SMAgent.Base

/-- `dto.MetricFamily` with its help text. -/
structure Family extends MetricFamily where
  help : GoString
  deriving DecidableEq, Repr

/-! ### Summaries and histograms -/

/-- What is derived from a gauge. -/
inductive Derivation where
  | summary
  | histogram
  deriving DecidableEq, Repr

namespace Derivation

/-- What is appended to the help text, `scraper.go:1439` and `1475`. -/
def helpSuffix : Derivation → GoString
  | .summary => .lit " (summary)"
  | .histogram => .lit " (histogram)"

/-- The type of a derived family. -/
def type : Derivation → MetricType
  | .summary => .summary
  | .histogram => .histogram

end Derivation

/-- A `prometheus.Desc` with constant labels only. -/
structure Desc where
  name : GoString
  help : GoString
  labels : List Label
  deriving DecidableEq, Repr

/-- A `prometheus.Summary` without objectives or a `prometheus.Histogram` with the default buckets:
what it was made with, and the values it has observed. -/
structure Accumulator where
  kind : Derivation
  desc : Desc
  values : List Float64
  deriving DecidableEq, Repr

/-- `Observe`. -/
def Accumulator.observe (acc : Accumulator) (value : Float64) : Accumulator :=
  { acc with values := acc.values ++ [value] }

/-! ### The client -/

/-- What the Prometheus client answers. -/
structure Client where
  /-- `LabelSet.Fingerprint` -/
  fingerprint : List Label → UInt64
  /-- `DefBuckets` -/
  defBuckets : List Float64
  /-- the names and label values of a descriptor are valid -/
  Legal : Desc → Prop
  /-- `NewSummary` and `NewHistogram` -/
  new : Derivation → Desc → Except Panic Unit
  /-- `Register`, when these are registered already -/
  register : List Accumulator → Accumulator → Except GoString Unit
  /-- `Gather`, when these are registered -/
  gather : List Accumulator → Except GoString (List Family)

/-- `hashMetricNameAndLabels`, `scraper.go:1492-1502`. -/
def hashMetricNameAndLabels (client : Client) (name : GoString) (labels : List Label) : UInt64 :=
  client.fingerprint (⟨metricNameLabel, name⟩ :: labels)

/-! ### What a scraper keeps -/

/-- Where an accumulator is kept; in a registry it stands for the accumulator. -/
structure Collector where
  kind : Derivation
  hash : UInt64
  deriving DecidableEq, Repr

/-- The maps `summaries` and `histograms` of a scraper. -/
structure Accumulators where
  summaries : GoMap UInt64 Accumulator := ∅
  histograms : GoMap UInt64 Accumulator := ∅

namespace Accumulators

/-- Look up in the map of the kind. -/
def find (accs : Accumulators) (c : Collector) : Option Accumulator :=
  match c.kind with
  | .summary => accs.summaries.lookup c.hash
  | .histogram => accs.histograms.lookup c.hash

/-- Store in the map of the kind. -/
def store (accs : Accumulators) (c : Collector) (acc : Accumulator) : Accumulators :=
  match c.kind with
  | .summary => { accs with summaries := accs.summaries.insert c.hash acc }
  | .histogram => { accs with histograms := accs.histograms.insert c.hash acc }

/-- The accumulators of a registry. -/
def registered (accs : Accumulators) (registry : List Collector) : List Accumulator :=
  registry.filterMap accs.find

end Accumulators

/-! ### One scrape -/

/-- Why no derived metrics are returned. -/
inductive Stop where
  /-- `errUnsupportedMetric` -/
  | unsupportedMetric
  | register (err : GoString)
  /-- extracting derived metrics -/
  | gather (err : GoString)
  | panic (panic : Panic)
  deriving DecidableEq, Repr

/-- A value that is to be observed. -/
structure Observation where
  kind : Derivation
  name : GoString
  help : GoString
  labels : List Label
  value : Option Float64
  deriving DecidableEq, Repr

/-- The accumulators, the registry of this scrape, and all that was observed so far. -/
structure Deriving where
  accumulators : Accumulators := {}
  registry : List Collector := []
  observed : List Observation := []

/-- The descriptor that an accumulator is made with, `scraper.go:1437-1441` and `1473-1478`. -/
def Observation.desc (o : Observation) : Desc := ⟨o.name, o.help ++ o.kind.helpSuffix, o.labels⟩

section
variable (client : Client)

/-- Where the accumulator of an observation is kept. -/
def Observation.collector (o : Observation) : Collector :=
  ⟨o.kind, hashMetricNameAndLabels client o.name o.labels⟩

/-- The accumulator that is there, or a new one, which is stored. -/
def Accumulators.obtain (accs : Accumulators) (o : Observation) :
    Except Panic (Accumulators × Accumulator) :=
  match accs.find (o.collector client) with
  | some acc => .ok (accs, acc)
  | none =>
    match client.new o.kind o.desc with
    | .error panic => .error panic
    | .ok () => .ok (accs.store (o.collector client) ⟨o.kind, o.desc, []⟩, ⟨o.kind, o.desc, []⟩)

/-- What both functions of `scraper.go:1419-1490` do, with what they have done so far. -/
def updateFromMetric (x : Deriving) (o : Observation) : Except (Deriving × Stop) Deriving :=
  match o.value with
  | none => .error (x, .unsupportedMetric)
  | some value =>
    match x.accumulators.obtain client o with
    | .error panic => .error (x, .panic panic)
    | .ok (accs, acc) =>
      match client.register (accs.registered x.registry) acc with
      | .error err => .error ({ x with accumulators := accs }, .register err)
      | .ok () => .ok
          { accumulators := accs.store (o.collector client) (acc.observe value)
            registry := x.registry ++ [o.collector client]
            observed := x.observed ++ [o] }

/-- `updateSummaryFromMetric`, `scraper.go:1419-1453`. -/
def updateSummaryFromMetric (mName help : GoString) (m : Metric) (x : Deriving) :
    Except (Deriving × Stop) Deriving :=
  updateFromMetric client x ⟨.summary, mName, help, m.label, m.counter <|> m.gauge⟩

/-- `updateHistogramFromMetric`, `scraper.go:1455-1490`. -/
def updateHistogramFromMetric (mName help : GoString) (m : Metric) (x : Deriving) :
    Except (Deriving × Stop) Deriving :=
  updateFromMetric client x ⟨.histogram, mName, help, m.label, m.counter <|> m.gauge⟩

/-- `ProbeSuccessMetricName`, `scraper.go:38`. -/
def probeSuccessMetricName : GoString := .lit "probe_success"

/-- The loop over the suffixes, `scraper.go:914-929`: the name with `_all` before its suffix. -/
def allName (metricName : GoString) : Option GoString :=
  [GoString.lit "_duration_seconds", .lit "_time_seconds"].findSome? fun suffix ↦
    if suffix <:+ metricName then
      some (metricName.take (metricName.length - suffix.length) ++ .lit "_all" ++ suffix)
    else none

/-- One round of the loop of `getDerivedMetrics`, `scraper.go:893-930`. -/
def deriveFamily (basicMetricsOnly : Bool) (x : Deriving) (mf : Family) :
    Except (Deriving × Stop) Deriving :=
  if mf.type = .gauge ∧ mf.name = probeSuccessMetricName then
    mf.metric.foldlM
      (fun x m ↦ updateSummaryFromMetric client (.lit "probe_all_success") mf.help m x) x
  else if mf.type = .gauge then
    if mf.name ≠ .lit "probe_duration_seconds" ∧ basicMetricsOnly then .ok x
    else match allName mf.name with
      | none => .ok x
      | some derivedMetricName =>
        mf.metric.foldlM
          (fun x m ↦ updateHistogramFromMetric client derivedMetricName mf.help m x) x
  else .ok x

/-- `getDerivedMetrics`, `scraper.go:891-934`. -/
def getDerivedMetrics (basicMetricsOnly : Bool) (mfs : List Family) (x : Deriving) :
    Except (Deriving × Stop) Deriving :=
  mfs.foldlM (deriveFamily client basicMetricsOnly) x

/-- The second half of `getProbeMetrics`, `scraper.go:799-812`, on the families `mfs` of the prober:
what is kept for the next scrape, and the families or the error. -/
def getProbeMetrics (basicMetricsOnly : Bool) (mfs : List Family) (x : Deriving) :
    Deriving × Except Stop (List Family) :=
  match getDerivedMetrics client basicMetricsOnly mfs { x with registry := [] } with
  | .error (x, stop) => (x, .error stop)
  | .ok x =>
    match client.gather (x.accumulators.registered x.registry) with
    | .error err => (x, .error (.gather err))
    | .ok dmfs => (x, .ok (mfs ++ dmfs))

end

end SMAgent.Scraper
