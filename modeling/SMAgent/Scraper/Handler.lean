import SMAgent.Model.Check
import SMAgent.Telemetry.RegionPusher

/-!
# The scrape handler

`internal/scraper/scraper.go:229-400`. A scraper holds the payload of its last collection and
publishes it when it is collected, again while the check is idle, and once more with stale
markers when the check is stopped. The collection itself is an input: what the prober, the
limits and the tenant cache answered. The publisher encodes a payload before it returns, so
`published` holds payloads by value although the handler goes on to overwrite them. Times
are nanoseconds since the epoch, as `int64` holds them until 2262. Log lines are left out.
-/

namespace SMAgent.Scraper
open SMAgent.Base SMAgent.Telemetry

/-- `prompb.Label`. -/
structure Label where
  name : GoString
  value : GoString
  deriving DecidableEq, Repr

/-- `prompb.Sample`; the timestamp is in milliseconds. -/
structure Sample where
  timestamp : Int
  value : Float64
  deriving DecidableEq, Repr

/-- `prompb.TimeSeries`. -/
structure TimeSeries where
  labels : List Label
  samples : List Sample
  deriving DecidableEq, Repr

/-- `logproto.Stream`; the handler only drops them. -/
structure Stream where
  labels : GoString
  deriving DecidableEq, Repr

/-- `probeData`, `scraper.go:125-129`. -/
structure ProbeData where
  tenantId : Model.GlobalID
  ts : List TimeSeries
  streams : List Stream
  deriving DecidableEq, Repr

/-- `staleMarker`, `scraper.go:60-63`. -/
def staleMarker : Float64 := ⟨0x7ff0000000000002⟩

/-- `t.UnixMilli()`. -/
def unixMilli (t : Int) : Int := t / 1000000

/-- `t.UnixNano() / 1e6`, which truncates. -/
def unixNanoMilli (t : Int) : Int := t.tdiv 1000000

/-- The two agree from the epoch on. -/
theorem unixNanoMilli_eq_unixMilli {t : Int} (h : 0 ≤ t) : unixNanoMilli t = unixMilli t :=
  Int.tdiv_eq_ediv_of_nonneg h

/-! ### Collecting -/

/-- One round of the loop in `makeTimeseries`: the first label of a name is kept. -/
def addLabel (labels : List Label) (l : Label) : List Label :=
  if labels.any fun x ↦ x.name == l.name then labels else labels ++ [l]

/-- `makeTimeseries`, `scraper.go:1184-1214`. -/
def makeTimeseries (t : Int) (value : Float64) (labels : List Label) : TimeSeries where
  labels := labels.foldl addLabel []
  samples := [⟨unixNanoMilli t, value⟩]

/-- How a collection ended: with an error before the probe's result was known, or with the
gathered values, each with the labels given to `makeTimeseries`. -/
inductive Collection where
  | error
  | probed (success : Bool) (metrics : List (Float64 × List Label)) (streams : List Stream)
      (duration : Int64)
  deriving DecidableEq

/-- Whether there is a payload. -/
def Collection.hasData : Collection → Bool
  | .error => false
  | .probed .. => true

/-- The label sets of the payload's series. -/
def Collection.series : Collection → List (List Label)
  | .error => []
  | .probed _ metrics _ _ => metrics.map fun m ↦ m.2.foldl addLabel []

/-- The error of `collectData`: `errCheckFailed`, or any other. -/
inductive CollectError where
  | checkFailed
  | other
  deriving DecidableEq, Repr

/-- `Scraper.check`. The type of the check was read when the scraper was started, so it
exists. -/
structure TypedCheck where
  check : Model.Check
  type : Pb.CheckType
  typed : check.type = .ok type

/-- `collectData`, `scraper.go:541-704`. -/
def collectData (s : TypedCheck) (c : Collection) (t : Int) :
    Option ProbeData × Int64 × Option CollectError :=
  match c with
  | .error => (none, 0, some .other)
  | .probed success metrics streams duration =>
    (some {
      tenantId := s.check.globalTenantID
      ts := metrics.map fun m ↦ makeTimeseries t m.1 m.2
      streams }, duration, if success then none else some .checkFailed)

/-! ### Telemetry -/

/-- `CheckType.Class`, `checks_extra.go:364-378`. -/
def checkClass : Pb.CheckType → CheckClass
  | .dns | .http | .ping | .tcp | .traceroute | .grpc => .protocol
  | .scripted | .multiHttp => .scripted
  | .browser => .browser

/-- `getCostAttributionLabels`, `scraper.go:709-734`; `none` is a failed look-up. -/
def getCostAttributionLabels (labels : List Pb.Label) (cals : Option (List GoString)) :
    List CostAttributionLabel :=
  (cals.getD []).map fun cal ↦
    ⟨cal, ((labels.find? fun l ↦ l.name == cal).map (·.value)).getD calNilStringTerminator⟩

/-- The argument of `AddExecution` in `scrape`. -/
def TypedCheck.execution (s : TypedCheck) (cals : Option (List GoString)) (duration : Int64) :
    Execution where
  localTenantID := Int64.ofInt s.check.tenantId
  regionID := Int32.ofInt s.check.regionId
  checkClass := checkClass s.type
  costAttributionLabels := getCostAttributionLabels s.check.labels cals
  duration

/-! ### The handler -/

/-- `checkStateMachine`, `scraper.go:229-263`. -/
structure CheckStateMachine where
  passes : Int := 0
  failures : Int := 0
  threshold : Int := 0
  deriving DecidableEq, Repr

/-- `fail`, without the log line it may write. -/
def CheckStateMachine.fail (m : CheckStateMachine) : CheckStateMachine :=
  { m with passes := 0, failures := m.failures + 1 }

/-- `pass`, without the log line it may write. -/
def CheckStateMachine.pass (m : CheckStateMachine) : CheckStateMachine :=
  { m with passes := m.passes + 1, failures := 0 }

/-- `scrapeHandler`, with the effects of its calls: the three counters of `Metrics`, the
executions reported to telemetry and the published payloads, oldest first. -/
structure ScrapeHandler where
  payload : Option ProbeData := none
  sm : CheckStateMachine := {}
  scrapes : Nat := 0
  checkErrors : Nat := 0
  collectorErrors : Nat := 0
  executions : List Execution := []
  published : List ProbeData := []

/-- What the surroundings answer to one scrape. -/
structure Answers where
  collection : Collection
  cals : Option (List GoString) := none
  deriving DecidableEq

/-- The same samples at a new time, `scraper.go:363-373`. -/
def ProbeData.restamp (p : ProbeData) (t : Int) : ProbeData :=
  { p with
    streams := []
    ts := p.ts.map fun s ↦
      { s with samples := s.samples.map fun x ↦ { x with timestamp := unixMilli t } } }

/-- Stale markers in place of the samples, `scraper.go:383-395`. -/
def ProbeData.stale (p : ProbeData) (t : Int) : ProbeData :=
  { p with
    streams := []
    ts := p.ts.map fun s ↦
      { s with samples := s.samples.map fun _ ↦ ⟨unixNanoMilli t + 1, staleMarker⟩ } }

namespace ScrapeHandler

/-- `h.scraper.publisher.Publish(h.payload)`, unless the payload is nil. -/
def publish (h : ScrapeHandler) : ScrapeHandler :=
  { h with published := h.published ++ h.payload.toList }

/-- The end of `scrape`, `scraper.go:330-355`. -/
def report (h : ScrapeHandler) (e : Execution) : ScrapeHandler :=
  { h with executions := h.executions ++ [e] }.publish

/-- `scrape`, `scraper.go:301-356`. The payload is replaced before the error is looked at. -/
def scrape (s : TypedCheck) (a : Answers) (t : Int) (h : ScrapeHandler) : ScrapeHandler :=
  match collectData s a.collection t with
  | (payload, duration, some .checkFailed) =>
    { h with
      payload
      sm := h.sm.fail
      scrapes := h.scrapes + 1
      checkErrors := h.checkErrors + 1 }.report (s.execution a.cals duration)
  | (payload, _, some .other) =>
    { h with
      payload
      scrapes := h.scrapes + 1
      collectorErrors := h.collectorErrors + 1 }
  | (payload, duration, none) =>
    { h with
      payload
      sm := h.sm.pass
      scrapes := h.scrapes + 1 }.report (s.execution a.cals duration)

/-- `republish`, `scraper.go:358-376`. -/
def republish (t : Int) (h : ScrapeHandler) : ScrapeHandler :=
  match h.payload with
  | none => h
  | some p => { h with payload := some (p.restamp t) }.publish

/-- `cleanup`, `scraper.go:378-400`. -/
def cleanup (t : Int) (h : ScrapeHandler) : ScrapeHandler :=
  match h.payload with
  | none => h
  | some p => { { h with payload := some (p.stale t) }.publish with payload := none }

variable (s : TypedCheck) (a : Answers) (t : Int) (h : ScrapeHandler)

/-- A scrape keeps the payload of its collection, or forgets the one it had. -/
@[simp]
theorem payload_scrape : (h.scrape s a t).payload = (collectData s a.collection t).1 := by
  unfold scrape
  split
  · next heq => rw [heq]; rfl
  · next heq => rw [heq]
  · next heq => rw [heq]; rfl

/-- A scrape publishes the payload of its collection. -/
@[simp]
theorem published_scrape : (h.scrape s a t).published =
    h.published ++ (collectData s a.collection t).1.toList := by
  unfold scrape collectData
  cases a.collection with
  | error => exact (List.append_nil _).symm
  | probed success metrics streams duration => cases success <;> rfl

/-- A scrape is counted, however it ends. -/
@[simp]
theorem scrapes_scrape : (h.scrape s a t).scrapes = h.scrapes + 1 := by
  unfold scrape
  split <;> rfl

/-- Without a payload nothing is republished. -/
theorem republish_of_none (hp : h.payload = none) : h.republish t = h := by
  rw [republish, hp]

/-- With a payload it is published under the new time and kept. -/
theorem republish_of_some {p : ProbeData} (hp : h.payload = some p) :
    h.republish t =
      { h with payload := some (p.restamp t), published := h.published ++ [p.restamp t] } := by
  rw [republish, hp]
  rfl

/-- Without a payload there is nothing to mark. -/
theorem cleanup_of_none (hp : h.payload = none) : h.cleanup t = h := by
  rw [cleanup, hp]

/-- With a payload its markers are published and it is forgotten. -/
theorem cleanup_of_some {p : ProbeData} (hp : h.payload = some p) :
    h.cleanup t = { h with payload := none, published := h.published ++ [p.stale t] } := by
  rw [cleanup, hp]
  rfl

end ScrapeHandler

/-! ### Payloads with one sample for each series -/

/-- Every series has one sample, at the given time. -/
def ProbeData.At (p : ProbeData) (m : Int) : Prop :=
  ∀ s ∈ p.ts, ∃ v, s.samples = [⟨m, v⟩]

/-- The label sets of the series. -/
def ProbeData.series (p : ProbeData) : List (List Label) := p.ts.map TimeSeries.labels

/-- A collection gives one sample for each series, at the time of the scrape. -/
theorem at_collectData {s : TypedCheck} {c : Collection} {t : Int} {p : ProbeData}
    (h : (collectData s c t).1 = some p) : p.At (unixNanoMilli t) := by
  cases c with
  | error => cases h
  | probed success metrics streams duration =>
    cases h
    intro series hs
    obtain ⟨m, -, rfl⟩ := List.mem_map.mp hs
    exact ⟨m.1, rfl⟩

/-- The series of a payload are those of its collection. -/
theorem series_collectData {s : TypedCheck} {c : Collection} {t : Int} {p : ProbeData}
    (h : (collectData s c t).1 = some p) : p.series = c.series := by
  cases c with
  | error => cases h
  | probed success metrics streams duration =>
    cases h
    exact List.map_map

/-- There is a payload exactly when the collection has data. -/
theorem isSome_collectData (s : TypedCheck) (c : Collection) (t : Int) :
    (collectData s c t).1.isSome = c.hasData := by
  cases c <;> rfl

/-- Restamping keeps one sample for each series and moves it. -/
theorem ProbeData.At.restamp {p : ProbeData} {m : Int} (h : p.At m) (t : Int) :
    (p.restamp t).At (unixMilli t) := by
  intro series hm
  obtain ⟨s, hs, rfl⟩ := List.mem_map.mp hm
  obtain ⟨v, hv⟩ := h s hs
  exact ⟨v, by rw [hv]; rfl⟩

/-- Restamping keeps the series. -/
@[simp]
theorem ProbeData.series_restamp (p : ProbeData) (t : Int) : (p.restamp t).series = p.series :=
  List.map_map

/-- Marking keeps the series. -/
@[simp]
theorem ProbeData.series_stale (p : ProbeData) (t : Int) : (p.stale t).series = p.series :=
  List.map_map

/-- Marking leaves one sample for each series, after the time given. -/
theorem ProbeData.At.stale {p : ProbeData} {m : Int} (h : p.At m) (t : Int) :
    (p.stale t).At (unixNanoMilli t + 1) := by
  intro series hm
  obtain ⟨s, hs, rfl⟩ := List.mem_map.mp hm
  obtain ⟨v, hv⟩ := h s hs
  exact ⟨staleMarker, by rw [hv]; rfl⟩

/-- That sample is a stale marker. -/
theorem ProbeData.At.ts_stale {p : ProbeData} {m : Int} (h : p.At m) (t : Int) :
    (p.stale t).ts =
      p.ts.map fun s ↦ { s with samples := [⟨unixNanoMilli t + 1, staleMarker⟩] } := by
  apply List.map_congr_left
  intro s hs
  obtain ⟨v, hv⟩ := h s hs
  rw [hv]
  rfl

/-! ### Sample values -/

/-- A ping check, as the subject of sample runs. -/
def pingCheck : TypedCheck where
  check := { settings := { ping := some {} } }
  type := .ping
  typed := rfl

/-- One series and no logs. -/
def upOnce : Collection := .probed true [(⟨0x3ff0000000000000⟩, [⟨GoString.lit "job", []⟩])] [] 0

end SMAgent.Scraper
