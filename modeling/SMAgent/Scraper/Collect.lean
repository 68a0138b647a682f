import SMAgent.Scraper.Aggregates
import SMAgent.Scraper.LogSplit
import SMAgent.Scraper.Logs

/-!
# One collection

`internal/scraper/scraper.go:541-889` and `internal/scraper/scrape_clock.go`. A collection asks for
the tenant three times, for its label mode and its two limits, runs the prober, gathers and derives
the metrics, puts the duration of a script in the place of the measured one, and turns metrics and
logs into a payload. The prober is an input, as are the clock, the answers of the tenant cache and
what the Prometheus client answers.
-/

namespace SMAgent.Scraper
open SMAgent.Base SMAgent.Pb

/-! ### Surroundings -/

/-- `scrapeClock`: `wallClock` and `logicalClock`. -/
inductive ScrapeClock where
  | wall (scheduledAt : Int)
  | logical (eventTime : Int)
  deriving DecidableEq, Repr

/-- What is printed: times, label values and numbers in log lines. -/
structure Formats where
  time : TimeFormat
  float : FloatFormat
  logFloat : Float64 → GoString
  /-- `timeout.Seconds()` in a log line -/
  seconds : Int → GoString

/-- The value of the wrapper's `ts`, at a reading of the wall clock. -/
def ScrapeClock.ts (clock : ScrapeClock) (now : Int) : Int :=
  match clock with
  | .wall _ => now
  | .logical eventTime => eventTime

/-- `endLogFields`. -/
def ScrapeClock.endLogFields (time : TimeFormat) (clock : ScrapeClock) (duration : Float64) :
    List KeyVal :=
  match clock with
  | .wall _ => []
  | .logical eventTime => [⟨.lit "time", time.format (eventTime + duration.toInt64Nanos)⟩]

/-- `fallbackDuration`, at readings of the wall clock. -/
def ScrapeClock.fallbackDuration (clock : ScrapeClock) (wallStart now : Int) : Int :=
  match clock with
  | .wall scheduledAt => now - scheduledAt
  | .logical _ => now - wallStart

/-- The gauge of the measured duration. -/
def durationName : GoString := .lit "probe_duration_seconds"

/-- The gauge by which a script tells its duration. -/
def scriptDurationName : GoString := .lit "probe_script_duration_seconds"

/-- The names of the gauges that `runProber` registers. -/
def ownNames : List GoString := [probeSuccessMetricName, durationName, checkInfoMetricName]

/-- A run of the prober: its result, its log calls, the seconds that it took, readings of the wall
clock, and what the registry, into which it has put its metrics, then makes of more gauges. -/
structure ProbeRun where
  success : Bool
  duration : Float64
  /-- `MustRegister`, for one gauge after the other -/
  mustRegister : List Family → Except Panic Unit
  /-- `Gather`, when these gauges are registered too -/
  gather : List Family → Except GoString (List Family)
  calls : List LogCall
  wallDuration : Float64
  wallStart : Int
  begun : Int
  ended : Int
  finished : Int

/-- What a collection meets. -/
structure ScrapeInput where
  labelMode : Except GoString Tenant
  metricLabels : Except GoString Tenant
  logLabels : Except GoString Tenant
  geohash : GoString
  executionID : GoString
  run : ProbeRun

/-- `LabelMode.ForTenant`, `labelmode.go:37-44`. -/
def labelModeForTenant : Except GoString Tenant → LabelMode
  | .ok tenant => tenant.labelMode
  | .error _ => .unprefixed

/-- `TenantLimits.MetricLabels`, `limits/tenant.go:40-54`, for a tenant that was found;
`sm.MaxMetricLabels` without limits. -/
def tenantMetricLabels (tenant : Tenant) : Int :=
  match tenant.limits with
  | none => 22
  | some limits => limits.maxMetricLabels

/-- Why there is no payload. -/
inductive CollectFailure where
  /-- retrieving tenant metric labels limit -/
  | metricLabels (e : GoString)
  /-- retrieving tenant log labels limit -/
  | logLabels (e : GoString)
  /-- `errTooManyLabels` -/
  | tooManyLabels (n : Nat)
  /-- extracting data from blackbox-exporter -/
  | gathering (e : GoString)
  /-- getting or extracting derived metrics -/
  | derivedMetrics (stop : Stop)
  | panic (p : Panic)
  deriving DecidableEq, Repr

/-- `probeData` with its logs, the duration, and whether the error is `errCheckFailed`. -/
structure Collected where
  tenantId : Model.GlobalID
  ts : List TimeSeries
  stream : LogStream
  duration : Int64
  failed : Bool

/-! ### Running the prober -/

section
variable (formats : Formats) (s : ScraperConfig) (clock : ScrapeClock)

/-- `timeout`, `scraper.go:624-635`, in nanoseconds. -/
def ScraperConfig.timeout : Int :=
  match s.type with
  | .multiHttp | .scripted | .browser => s.check.frequency * 1000000
  | _ => s.check.timeout * 1000000

/-- The first line of a check, `scraper.go:831`. -/
def beginCall (now : Int) : LogCall where
  level := some (.lit "info")
  keyvals := [⟨.lit "msg", .lit "Beginning check"⟩, ⟨.lit "type", s.checkName⟩,
    ⟨.lit "timeout_seconds", formats.seconds s.timeout⟩]
  ts := clock.ts now

/-- The last line of a check, `scraper.go:863-884`. -/
def endCall (success : Bool) (duration wallDuration : Float64) (now : Int) : LogCall where
  level := some (.lit (if success then "info" else "error"))
  keyvals := [⟨.lit "msg", .lit (if success then "Check succeeded" else "Check failed")⟩,
    ⟨.lit "duration_seconds", formats.logFloat duration⟩,
    ⟨.lit "walltime_seconds", formats.logFloat wallDuration⟩] ++
    clock.endLogFields formats.time duration
  ts := clock.ts now

/-- The duration that is reported, `scraper.go:838-842`. -/
def ProbeRun.reported (run : ProbeRun) : Float64 :=
  if run.duration.eq .zero then run.wallDuration else run.duration

/-- All calls of the logger. -/
def ProbeRun.logCalls (run : ProbeRun) : List LogCall :=
  beginCall formats s clock run.begun ::
    (run.calls.map fun call ↦ { call with ts := clock.ts call.ts }) ++
    [endCall formats clock run.success run.reported run.wallDuration run.ended]

/-- A gauge with one metric. -/
def gaugeFamily (name help : GoString) (labels : List Label) (value : Float64) : Family :=
  { name, help, type := .gauge, metric := [{ label := labels, gauge := some value }] }

/-- `probe_success`, as `runProber` sets it. -/
def successFamily (success : Bool) : Family :=
  gaugeFamily probeSuccessMetricName (.lit "Displays whether or not the probe was a success") []
    (if success then .ofUInt64 1 else .zero)

/-- `probe_duration_seconds`, as `runProber` sets it. -/
def durationFamily (duration : Float64) : Family :=
  gaugeFamily durationName (.lit "Returns how long the probe took to complete in seconds") []
    duration

/-- `sm_check_info`, as `runProber` sets it. -/
def checkInfoFamily (checkInfoLabels : GoMap GoString GoString) : Family :=
  gaugeFamily checkInfoMetricName (.lit "Provides information about a single check configuration")
    ((checkInfoLabels.entries.map fun e ↦ ⟨e.1, e.2⟩).insertionSort fun a b ↦ a.name ≤ b.name)
    (.ofUInt64 1)

/-- The gauges that `runProber` registers, `scraper.go:844-861`, and what it sets them to. -/
def ProbeRun.gauges (run : ProbeRun) (checkInfoLabels : GoMap GoString GoString) : List Family :=
  [successFamily run.success, checkInfoFamily checkInfoLabels, durationFamily run.reported]

end

/-! ### The duration -/

/-- `getGauge`, `scraper.go:745-753`. -/
def Family.getGauge (mf : Family) : Option Float64 := mf.metric.findSome? Metric.gauge

/-- The first gauge gets a value. -/
def setGauge (value : Float64) : List Metric → List Metric
  | [] => []
  | m :: ms =>
    if m.gauge.isSome then { m with gauge := some value } :: ms else m :: setGauge value ms

/-- The loop of `patchDuration`, `scraper.go:755-768`: the place and the value of the gauge
`duration`, and the value of `scriptDuration`. -/
def findDurations : List Family → Nat → Option (Nat × Float64) → Option Float64 →
    Option (Nat × Float64) × Option Float64
  | [], _, duration, scriptDuration => (duration, scriptDuration)
  | mf :: mfs, i, duration, scriptDuration =>
    let duration := if mf.name = durationName then mf.getGauge.map (i, ·) else duration
    let scriptDuration := if mf.name = scriptDurationName then mf.getGauge else scriptDuration
    if duration.isSome && scriptDuration.isSome then (duration, scriptDuration)
    else findDurations mfs (i + 1) duration scriptDuration

/-- `patchDuration`, `scraper.go:742-775`: the families, and the duration in nanoseconds. -/
def patchDuration (mfs : List Family) : List Family × Option Int :=
  match findDurations mfs 0 none none with
  | (some (i, _), some value) =>
    (mfs.modify i fun mf ↦ { mf with metric := setGauge value mf.metric },
      some value.toInt64Nanos)
  | (some (_, value), none) => (mfs, some value.toInt64Nanos)
  | (none, _) => (mfs, none)

/-! ### The collection -/

section
variable (formats : Formats) (client : Client) (basicMetricsOnly : Bool) (s : ScraperConfig)

/-- `scraper.go:655-703`, after the metrics were gathered. -/
def ScraperConfig.assemble (clock : ScrapeClock) (t : Int) (input : ScrapeInput) (mode : LabelMode)
    (maxLogLabels : Int) (mfs : List Family) : Except Panic Collected :=
  let (mfs, duration) := patchDuration mfs
  let logLabels := s.logLabels mode
  match splitLogLabels logLabels maxLogLabels with
  | .error p => .error p
  | .ok (streamLogLabels, overflowMetadata) =>
    .ok
      { tenantId := s.check.globalTenantID
        ts := extractTimeseries formats.float t (mfs.map Family.toMetricFamily)
          (s.executionMetricLabels mode)
        stream := extractLogs formats.time
          ((input.run.logCalls formats s clock).map (logRecord formats.time s.target logLabels))
          (streamLogLabels ++ [probeSuccessLabel input.run.success])
          (overflowMetadata ++ [executionIdLabel input.executionID])
        duration := Int64.ofInt
          (duration.getD (clock.fallbackDuration input.run.wallStart input.run.finished))
        failed := !input.run.success }

/-- `collectDataWith`, `scraper.go:545-704`, with the accumulators of the scraper. -/
def ScraperConfig.collectDataWith (clock : ScrapeClock) (t : Int) (input : ScrapeInput)
    (x : Deriving) : Deriving × Except CollectFailure Collected :=
  let mode := labelModeForTenant input.labelMode
  match input.metricLabels with
  | .error e => (x, .error (.metricLabels e))
  | .ok metricTenant =>
  match input.logLabels with
  | .error e => (x, .error (.logLabels e))
  | .ok logTenant =>
  if s.TooManyLabels input.geohash mode (tenantMetricLabels metricTenant) then
    (x, .error (.tooManyLabels (s.buildCheckInfoLabels input.geohash mode).entries.length))
  else
  let gauges := input.run.gauges (s.buildCheckInfoLabels input.geohash mode)
  match input.run.mustRegister gauges with
  | .error p => (x, .error (.panic p))
  | .ok () =>
  match input.run.gather gauges with
  | .error e => (x, .error (.gathering e))
  | .ok mfs =>
  match getProbeMetrics client basicMetricsOnly mfs x with
  | (x, .error stop) => (x, .error (.derivedMetrics stop))
  | (x, .ok mfs) =>
    (x, (s.assemble formats clock t input mode (tenantLogLabels logTenant).toInt mfs).mapError
      .panic)

end

end SMAgent.Scraper
