import SMAgent.Base.Run
import SMAgent.K6.Local

/-!
# The verdict on a run of k6

`internal/k6runner/k6runner.go:171-441` and `internal/prober/scripted/scripted.go:80-101`. The
processor passes the logs of a run on to the logger of the check, registers its metrics and takes
the success from the error code of the response. With a local k6 the response is consistent and
its code is one of four, so the errors about the runner itself are for remote ones.
-/

namespace SMAgent.K6
open SMAgent.Base SMAgent.Scraper

/-! ### Logs -/

/-- The pairs of a record that could not be read to its end. -/
def Ending.begun : Ending → Option (List KeyVal)
  | .record keyvals _ => some keyvals
  | _ => none

/-- `Decoder.Err`. -/
def Ending.err : Ending → Option GoString
  | .eof => none
  | .line e => some e
  | .record _ e => some e

/-- What k6 logs for its own debugging, `k6runner.go:433-435`. -/
def isOwnDebug (record : List KeyVal) : Bool :=
  decide (value record (.lit "level") = .lit "debug" ∧ value record (.lit "source") = [])

/-- `k6LogsToLogger`, `k6runner.go:402-441`: the calls of the logger, and the error. The pairs
that were read before an error are logged. -/
def k6LogsToLogger (logs : Decoded) : List (List KeyVal) × Option GoString :=
  ((logs.records ++ logs.ending.begun.toList).filter fun record ↦ !isOwnDebug record,
    logs.ending.err)

/-! ### Metrics -/

/-- `model.Sample`: the name, if the metric has one, its other labels, and the value. -/
structure Sample where
  name : Option GoString
  labels : List LabelPair
  value : Float64
  deriving DecidableEq, Repr

/-- A decoded metric family, with what `expfmt.ExtractSamples` makes of it. -/
structure SampleFamily where
  help : GoString
  samples : Except GoString (List Sample)

/-- The families that the decoder of `expfmt` reads, and the error it stops at; `none` is
`io.EOF`. -/
structure DecodedMetrics where
  families : List SampleFamily
  failure : Option GoString

/-- What `prometheus.NewConstMetric` is given. -/
structure ConstMetric where
  name : GoString
  help : GoString
  labels : List LabelPair
  value : Float64
  deriving DecidableEq, Repr

/-- Why the metrics of a run are not registered. -/
inductive MetricsError where
  | extractingSamples (e : GoString)
  | missingMetricName
  | creatingMetric (e : GoString)
  | decodingMetrics (e : GoString)
  deriving DecidableEq, Repr

/-- `sampleCollector`, `checkResultCollector` and `probeDurationCollector`. -/
structure Collectors where
  metrics : List ConstMetric := []
  failure : Bool := false
  duration : Int := 0
  deriving DecidableEq, Repr

section Processor

/-- The decoder of metrics, and the error of a metric that `NewConstMetric` finds invalid. -/
structure MetricsLib where
  decode : GoString → DecodedMetrics
  invalid : ConstMetric → Option GoString

variable (decode : GoString → Decoded) (lib : MetricsLib)

/-- `sampleCollector.process`, `k6runner.go:289-314`. -/
def sampleProcess (help : GoString) (sample : Sample) (metrics : List ConstMetric) :
    Except MetricsError (List ConstMetric) :=
  match sample.name with
  | none => .error .missingMetricName
  | some name =>
    let m := ⟨name, help, sample.labels, sample.value⟩
    match lib.invalid m with
    | some e => .error (.creatingMetric e)
    | none => .ok (metrics ++ [m])

/-- `checkResultCollector.process`, `k6runner.go:320-334`. -/
def resultProcess (sample : Sample) (failure : Bool) : Bool :=
  if sample.name ≠ some (.lit "probe_checks_total") then failure
  else if (sample.labels.find? (·.name = .lit "result")).map (·.value) ≠ some (.lit "fail") then
    failure
  else failure || !sample.value.eq .zero

/-- `probeDurationCollector.process`, `k6runner.go:340-348`. -/
def durationProcess (sample : Sample) (duration : Int) : Int :=
  if sample.name ≠ some (.lit "probe_script_duration_seconds") then duration
  else sample.value.toInt64Nanos

/-- The processors on one sample. -/
def Collectors.process (help : GoString) (c : Collectors) (sample : Sample) :
    Except MetricsError Collectors :=
  (sampleProcess lib help sample c.metrics).map fun metrics ↦
    ⟨metrics, resultProcess sample c.failure, durationProcess sample c.duration⟩

/-- The loop over the samples of a family. -/
def Collectors.processFamily (c : Collectors) (family : SampleFamily) :
    Except MetricsError Collectors :=
  match family.samples with
  | .error e => .error (.extractingSamples e)
  | .ok samples => samples.foldlM (Collectors.process lib family.help) c

/-- `extractMetricSamples`, `k6runner.go:350-384`. -/
def extractMetricSamples (metrics : DecodedMetrics) : Except MetricsError Collectors :=
  match metrics.families.foldlM (Collectors.processFamily lib) {} with
  | .error e => .error e
  | .ok c =>
    match metrics.failure with
    | some e => .error (.decodingMetrics e)
    | none => .ok c

/-! ### The processor -/

/-- Why `Processor.Run` gives an error. -/
inductive ProcessorError (ε : Type) where
  | running (e : ε)
  /-- `ErrBuggyRunner` -/
  | buggyRunner (error errorCode : GoString)
  | logs (e : GoString)
  | metrics (e : MetricsError)
  /-- `ErrFromRunner` -/
  | fromRunner (errorCode error : GoString)
  deriving DecidableEq, Repr

/-- What `Processor.Run` returns, the calls of the logger, and what it registers. -/
structure Verdict (ε : Type) where
  success : Bool := false
  duration : Int := 0
  err : Option (ProcessorError ε) := none
  lines : List (List KeyVal) := []
  metrics : List ConstMetric := []
  deriving DecidableEq, Repr

/-- The diagnostic line, `k6runner.go:203-217`. -/
def diagnostic (result : RunResponse) : List KeyVal :=
  [⟨.lit "level", .lit "error"⟩, ⟨.lit "msg", .lit "script did not execute successfully"⟩,
    ⟨.lit "error", result.error⟩, ⟨.lit "errorCode", result.errorCode⟩]

/-- The codes of user errors, `k6runner.go:256`. -/
def userErrorCodes : List GoString :=
  [.lit "timeout", .lit "killed", .lit "user", .lit "failed", .lit "aborted"]

/-- `k6runner.go:219-262`, without the deferred line. A collector without descriptions is always
registered. -/
def judge {ε : Type} (result : RunResponse) : Verdict ε :=
  let (lines, err) := k6LogsToLogger (decode result.logs)
  match err with
  | some e => { err := some (.logs e), lines }
  | none =>
  match extractMetricSamples lib (lib.decode result.metrics) with
  | .error e => { err := some (.metrics e), lines }
  | .ok collectors =>
    { success := decide (result.errorCode = [])
      duration := collectors.duration
      err := if result.errorCode = [] ∨ result.errorCode ∈ userErrorCodes then none
        else some (.fromRunner result.errorCode result.error)
      lines
      metrics := collectors.metrics }

/-- `Processor.Run`, `k6runner.go:176-263`. -/
def processorRun {ε : Type} : Except ε RunResponse → Verdict ε
  | .error e => { err := some (.running e) }
  | .ok result =>
    if (result.error = [] ∧ result.errorCode ≠ []) ∨
        (result.error ≠ [] ∧ result.errorCode = []) then
      { err := some (.buggyRunner result.error result.errorCode) }
    else if result.errorCode ≠ [] then
      let verdict := judge decode lib result
      { verdict with lines := verdict.lines ++ [diagnostic result] }
    else judge decode lib result

/-- `scripted.go:94-100`. -/
def Verdict.outcome {ε : Type} (verdict : Verdict ε) : Bool × Int :=
  if verdict.err.isSome then (false, 0) else (verdict.success, verdict.duration)

/-- `Prober.Probe`, `scripted.go:80-101`; the duration is in nanoseconds. -/
def probe {ε : Type} (secretStore : Except GoString SecretStore)
    (run : SecretStore → Except ε RunResponse) : Bool × Int :=
  match secretStore with
  | .error _ => (false, 0)
  | .ok secretStore => (processorRun decode lib (run secretStore)).outcome

end Processor

/-! ### What the metrics amount to -/

section Metrics
variable (lib : MetricsLib)

/-- The metric of a sample. -/
def Sample.metric (help : GoString) (sample : Sample) : Option ConstMetric :=
  sample.name.map fun name ↦ ⟨name, help, sample.labels, sample.value⟩

/-- A sample that is collected. -/
def Sample.Valid (help : GoString) (sample : Sample) : Prop :=
  ∃ m, sample.metric help = some m ∧ lib.invalid m = none

/-- The collectors after a valid sample. -/
def Collectors.add (help : GoString) (c : Collectors) (sample : Sample) : Collectors :=
  ⟨c.metrics ++ (sample.metric help).toList, resultProcess sample c.failure,
    durationProcess sample c.duration⟩

/-- The collectors after a family whose samples can be extracted. -/
def Collectors.addFamily (c : Collectors) (family : SampleFamily) : Collectors :=
  (family.samples.toOption.getD []).foldl (Collectors.add family.help) c

/-- The metrics of a family. -/
def SampleFamily.metrics (family : SampleFamily) : List ConstMetric :=
  (family.samples.toOption.getD []).filterMap (Sample.metric family.help)

private theorem metrics_foldl_add (help : GoString) (samples : List Sample) (c : Collectors) :
    (samples.foldl (Collectors.add help) c).metrics =
      c.metrics ++ samples.filterMap (Sample.metric help) := by
  induction samples generalizing c with
  | nil => simp
  | cons sample samples ih =>
    rw [List.foldl_cons, ih, List.filterMap_cons, Collectors.add]
    cases sample.metric help <;> simp

private theorem metrics_foldl_addFamily (families : List SampleFamily) (c : Collectors) :
    (families.foldl Collectors.addFamily c).metrics =
      c.metrics ++ families.flatMap SampleFamily.metrics := by
  induction families generalizing c with
  | nil => simp
  | cons family families ih =>
    rw [List.foldl_cons, ih, Collectors.addFamily, metrics_foldl_add, List.flatMap_cons,
      List.append_assoc]
    rfl

/-- All metrics can be decoded and extracted, and every sample can be collected. -/
structure DecodedMetrics.Sound (metrics : DecodedMetrics) : Prop where
  complete : metrics.failure = none
  valid : ∀ family ∈ metrics.families, ∃ samples, family.samples = .ok samples ∧
    ∀ sample ∈ samples, sample.Valid lib family.help

private theorem process_eq_ok_iff (help : GoString) (c : Collectors) (sample : Sample)
    (c' : Collectors) :
    c.process lib help sample = .ok c' ↔ sample.Valid lib help ∧ c' = c.add help sample := by
  unfold Collectors.process sampleProcess Sample.Valid Collectors.add Sample.metric
  cases sample.name with
  | none => simp [Except.map]
  | some name =>
    cases hinvalid : lib.invalid ⟨name, help, sample.labels, sample.value⟩ with
    | some e => simp [Except.map, hinvalid]
    | none => simp [Except.map, hinvalid, eq_comm]

private theorem processFamily_eq_ok_iff (c : Collectors) (family : SampleFamily) (c' : Collectors) :
    c.processFamily lib family = .ok c' ↔
      (∃ samples, family.samples = .ok samples ∧
        ∀ sample ∈ samples, sample.Valid lib family.help) ∧ c' = c.addFamily family := by
  unfold Collectors.processFamily Collectors.addFamily
  cases family.samples with
  | error e => simp
  | ok samples =>
    rw [Runs.foldlM_eq_ok_iff_foldl (process_eq_ok_iff lib family.help)]
    simp [Except.toOption]

private theorem extractMetricSamples_eq_ok_iff (metrics : DecodedMetrics) (c : Collectors) :
    extractMetricSamples lib metrics = .ok c ↔
      metrics.Sound lib ∧ c = metrics.families.foldl Collectors.addFamily {} := by
  have hfold := Runs.foldlM_eq_ok_iff_foldl (processFamily_eq_ok_iff lib) metrics.families {}
  unfold extractMetricSamples
  split
  · next e he =>
    refine iff_of_false (by simp) fun ⟨hsound, hc⟩ ↦ ?_
    rw [(hfold c).mpr ⟨hsound.valid, hc⟩] at he
    cases he
  · next c' hc' =>
    obtain ⟨hvalid, rfl⟩ := (hfold c').mp hc'
    split
    · next e he =>
      refine iff_of_false (by simp) fun ⟨hsound, _⟩ ↦ ?_
      rw [hsound.complete] at he
      cases he
    · next hcomplete =>
      rw [and_iff_right ⟨hcomplete, hvalid⟩, Except.ok.injEq, eq_comm]

end Metrics

/-! ### The responses of a local k6 -/

section Local
variable {err : Err}

private theorem exitError_eq_some (h : isUserError err = true)
    (hdeadline : .deadlineExceeded ∉ err.causes) :
    ∃ state, err.exitError = some state ∧ state.exitCode < 127 := by
  rw [isUserError, if_neg hdeadline, Option.any_eq_true] at h
  obtain ⟨state, hstate, hcode⟩ := h
  exact ⟨state, hstate, of_decide_eq_true hcode⟩

/-- An error that is answered with a response, with what the logs add to it. -/
def Err.Answered (err : Err) : Prop := err.causes = [] ∨ isUserError err = true

private theorem errorType_of_deadline (h : .deadlineExceeded ∈ err.causes) :
    errorType err = .lit "timeout" := by
  have hne : err ≠ {} := by
    rintro rfl
    cases h
  rw [errorType, if_neg hne, if_pos h]

private theorem errorType_of_stacktrace (h : .deadlineExceeded ∉ err.causes)
    (hlog : err.log = some .stacktrace) : errorType err = .lit "aborted" := by
  have hne : err ≠ {} := by
    rintro rfl
    cases hlog
  rw [errorType, if_neg hne, if_neg h, if_pos hlog]

private theorem errorType_of_thrown (h : .deadlineExceeded ∉ err.causes)
    (hlog : err.log = some .thrown) : errorType err = .lit "failed" := by
  have hne : err ≠ {} := by
    rintro rfl
    cases hlog
  rw [errorType, if_neg hne, if_neg h, if_neg (by rw [hlog]; decide), if_pos hlog]

private theorem errorType_of_exit (h : .deadlineExceeded ∉ err.causes) (hlog : err.log = none)
    (huser : isUserError err = true) : errorType err = .lit "aborted" := by
  obtain ⟨state, hstate, hcode⟩ := exitError_eq_some huser h
  have hne : err ≠ {} := by
    rintro rfl
    cases hstate
  have hkilled : ¬ 128 ≤ state.exitCode := by omega
  rw [errorType, if_neg hne, if_neg h, if_neg (by rw [hlog]; decide), if_neg (by rw [hlog]; decide),
    hstate]
  exact if_neg hkilled

/-- The codes of the responses of a local k6. -/
inductive Coded (err : Err) : GoString → Prop where
  | clean : err.causes = [] → err.log = none → Coded err []
  | timeout : .deadlineExceeded ∈ err.causes → Coded err (.lit "timeout")
  | aborted : .deadlineExceeded ∉ err.causes → err.log = some .stacktrace →
    Coded err (.lit "aborted")
  | failed : .deadlineExceeded ∉ err.causes → err.log = some .thrown → Coded err (.lit "failed")
  | exited : .deadlineExceeded ∉ err.causes → err.log = none → err.causes ≠ [] →
    Coded err (.lit "aborted")

private theorem coded_errorType (h : err.Answered) : Coded err (errorType err) := by
  by_cases hdeadline : .deadlineExceeded ∈ err.causes
  · rw [errorType_of_deadline hdeadline]
    exact .timeout hdeadline
  · cases hlog : err.log with
    | some e =>
      cases e with
      | stacktrace =>
        rw [errorType_of_stacktrace hdeadline hlog]
        exact .aborted hdeadline hlog
      | thrown =>
        rw [errorType_of_thrown hdeadline hlog]
        exact .failed hdeadline hlog
    | none =>
      by_cases hcauses : err.causes = []
      · have hnil : err = {} := by
          cases err
          cases hcauses
          cases hlog
          rfl
        rw [hnil]
        exact .clean rfl rfl
      · rw [errorType_of_exit hdeadline hlog (h.resolve_left hcauses)]
        exact .exited hdeadline hlog hcauses

private theorem join_ne_nil {parts : List GoString} {part : GoString} (hpart : part ∈ parts)
    (hne : part ≠ []) (sep : UInt8) : GoString.join parts sep ≠ [] := by
  match parts with
  | [] => cases hpart
  | [p] =>
    cases List.mem_singleton.mp hpart
    simpa [GoString.join, List.intercalate] using hne
  | p :: q :: rest => simp [GoString.join, List.intercalate]

private theorem error_ne_nil_of_mem {cause : Cause} (h : cause ∈ err.causes)
    (hne : cause.error ≠ []) : err.error ≠ [] :=
  join_ne_nil (List.mem_append_left _ (List.mem_map_of_mem h)) hne newline

private theorem error_ne_nil_of_log {e : LogError} (h : err.log = some e) : err.error ≠ [] := by
  have hmem : e.error ∈ err.log.toList.map LogError.error := by simp [h]
  apply join_ne_nil (List.mem_append_right _ hmem)
  cases e <;> decide

private theorem ProcessState.string_ne_nil (state : ProcessState) : state.string ≠ [] := by
  cases state with
  | exited code => exact List.append_ne_nil_of_left_ne_nil (by decide) _
  | signaled signal coreDump =>
    apply List.append_ne_nil_of_left_ne_nil
    exact List.append_ne_nil_of_left_ne_nil (by decide) _

private theorem error_ne_nil_of_exitError {state : ProcessState} (h : err.exitError = some state) :
    err.error ≠ [] := by
  obtain ⟨cause, hcause, hstate⟩ := List.exists_of_findSome?_eq_some h
  cases cause <;> cases hstate
  exact error_ne_nil_of_mem hcause state.string_ne_nil

private theorem error_eq_nil_iff (h : err.Answered) : err.error = [] ↔ errorType err = [] := by
  have hcoded := coded_errorType h
  generalize errorType err = code at hcoded ⊢
  cases hcoded with
  | clean hcauses hlog =>
    rw [Err.error, hcauses, hlog]
    simp [GoString.join, List.intercalate]
  | timeout hdeadline =>
    exact iff_of_false (error_ne_nil_of_mem hdeadline (by decide)) (by decide)
  | aborted _ hlog => exact iff_of_false (error_ne_nil_of_log hlog) (by decide)
  | failed _ hlog => exact iff_of_false (error_ne_nil_of_log hlog) (by decide)
  | exited hdeadline _ hcauses =>
    obtain ⟨state, hstate, -⟩ := exitError_eq_some (h.resolve_left hcauses) hdeadline
    exact iff_of_false (error_ne_nil_of_exitError hstate) (by decide)

end Local

section Judged
variable {env : Env} {lib : MetricsLib} {blacklistedIP : GoString} {script : Script}
  {executionID version path : GoString}

/-- The verdict on a run of k6 that was answered with a response. -/
structure Judged (env : Env) (lib : MetricsLib) (causes : List Cause) (resp : RunResponse)
    (verdict : Verdict RunError) : Prop where
  coded : Coded ⟨causes, errorFromLogs (env.decode resp.logs)⟩ resp.errorCode
  text : resp.error = [] ↔ resp.errorCode = []
  /-- The check succeeds exactly if k6 does, no record of its logs tells of an error, and logs
  and metrics can be read to the end. -/
  success : verdict.success = true ↔ causes = [] ∧
    (∀ record ∈ (env.decode resp.logs).records, recordError record = none) ∧
    (env.decode resp.logs).ending = .eof ∧ (lib.decode resp.metrics).Sound lib
  /-- A run that did not succeed leaves a last line about it, whatever can be read. -/
  lines : verdict.lines = (k6LogsToLogger (env.decode resp.logs)).1 ++
    (if resp.errorCode = [] then [] else [diagnostic resp])
  /-- The runner itself is not blamed. -/
  err : verdict.err = none ∨ (∃ e, verdict.err = some (.logs e)) ∨
    ∃ e, verdict.err = some (.metrics e)
  /-- Without an error all metrics are registered. -/
  metrics : verdict.err = none →
    verdict.metrics = (lib.decode resp.metrics).families.flatMap SampleFamily.metrics

private theorem errorFromLogs_eq_none {logs : Decoded} :
    errorFromLogs logs = none ↔ ∀ record ∈ logs.records, recordError record = none :=
  List.findSome?_eq_none_iff

private theorem Coded.eq_nil_iff {err : Err} {code : GoString} (h : Coded err code) :
    code = [] ↔ err.causes = [] ∧ err.log = none := by
  cases h with
  | clean hcauses hlog => exact iff_of_true rfl ⟨hcauses, hlog⟩
  | timeout hdeadline =>
    refine iff_of_false (by decide) fun h ↦ ?_
    rw [h.1] at hdeadline
    cases hdeadline
  | aborted _ hlog => exact iff_of_false (by decide) fun h ↦ by simp [h.2] at hlog
  | failed _ hlog => exact iff_of_false (by decide) fun h ↦ by simp [h.2] at hlog
  | exited _ _ hcauses => exact iff_of_false (by decide) fun h ↦ hcauses h.1

private theorem Coded.user {err : Err} {code : GoString} (h : Coded err code) :
    code = [] ∨ code ∈ userErrorCodes := by
  cases h with
  | clean => exact .inl rfl
  | timeout | aborted | failed | exited => exact .inr (by decide)

private theorem err_eq_none_iff (ending : Ending) : ending.err = none ↔ ending = .eof := by
  cases ending <;> simp [Ending.err]

/-- The verdict, with the line that the deferred call adds. -/
theorem judged_judge {causes : List Cause} {resp : RunResponse}
    (hcoded : Coded ⟨causes, errorFromLogs (env.decode resp.logs)⟩ resp.errorCode)
    (htext : resp.error = [] ↔ resp.errorCode = []) :
    Judged env lib causes resp
      { judge env.decode lib resp with
        lines := (judge env.decode lib resp : Verdict RunError).lines ++
          if resp.errorCode = [] then [] else [diagnostic resp] } := by
  have hcode := hcoded.eq_nil_iff
  rw [errorFromLogs_eq_none] at hcode
  have hsound := extractMetricSamples_eq_ok_iff lib (lib.decode resp.metrics)
  unfold judge
  cases hending : (env.decode resp.logs).ending.err with
  | some e =>
    have hne : (env.decode resp.logs).ending ≠ .eof := by
      intro heof
      rw [heof] at hending
      cases hending
    simp only [k6LogsToLogger, hending]
    refine ⟨hcoded, htext, iff_of_false (by simp) fun h ↦ hne h.2.2.1, rfl,
      .inr (.inl ⟨e, rfl⟩), ?_⟩
    intro herr
    cases herr
  | none =>
    have heof := (err_eq_none_iff _).mp hending
    simp only [k6LogsToLogger, hending]
    cases hextract : extractMetricSamples lib (lib.decode resp.metrics) with
    | error e =>
      have hunsound : ¬ (lib.decode resp.metrics).Sound lib := by
        intro h
        rw [(hsound _).mpr ⟨h, rfl⟩] at hextract
        cases hextract
      refine ⟨hcoded, htext, iff_of_false (by simp) fun h ↦ hunsound h.2.2.2, rfl,
        .inr (.inr ⟨e, rfl⟩), ?_⟩
      intro herr
      cases herr
    | ok c =>
      obtain ⟨hs, rfl⟩ := (hsound c).mp hextract
      refine ⟨hcoded, htext, ?_, rfl, .inl (if_pos hcoded.user), fun _ ↦ ?_⟩
      · show decide (resp.errorCode = []) = true ↔ _
        rw [decide_eq_true_iff, hcode]
        simp [heof, hs]
      · exact metrics_foldl_addFamily _ _

private theorem err_judge_of_success {ε : Type} {decode : GoString → Decoded} {resp : RunResponse}
    (h : (judge decode lib resp : Verdict ε).success = true) :
    (judge decode lib resp : Verdict ε).err = none := by
  revert h
  unfold judge
  dsimp only
  split
  · intro h
    cases h
  · split
    · intro h
      cases h
    · exact fun h ↦ if_pos (.inl (of_decide_eq_true h))

private theorem err_eq_none_of_success {ε : Type} {decode : GoString → Decoded}
    {result : Except ε RunResponse} (h : (processorRun decode lib result).success = true) :
    (processorRun decode lib result).err = none := by
  cases result with
  | error e => cases h
  | ok resp =>
    revert h
    rw [processorRun]
    split
    · intro h
      cases h
    · split
      · exact err_judge_of_success
      · exact err_judge_of_success

private theorem processorRun_of_sane {ε : Type} {decode : GoString → Decoded} {resp : RunResponse}
    (h : resp.error = [] ↔ resp.errorCode = []) :
    (processorRun decode lib (.ok resp) : Verdict ε) =
      { judge decode lib resp with
        lines := (judge decode lib resp : Verdict ε).lines ++
          if resp.errorCode = [] then [] else [diagnostic resp] } := by
  have hsane : ¬ ((resp.error = [] ∧ resp.errorCode ≠ []) ∨
      (resp.error ≠ [] ∧ resp.errorCode = [])) := by
    rintro (⟨herror, hcode⟩ | ⟨herror, hcode⟩)
    · exact hcode (h.mp herror)
    · exact herror (h.mpr hcode)
  rw [processorRun, if_neg hsane]
  by_cases hcode : resp.errorCode = []
  · rw [if_neg (not_not.mpr hcode), if_pos hcode, List.append_nil]
  · rw [if_pos hcode, if_neg hcode]

/-! ### Which runs are answered -/

/-- How a run of k6 that ended with `ended` is reported. -/
structure Reported (env : Env) (lib : MetricsLib) (ended : Fs × Option Cause × Option Cause)
    (names : Names) (logsBuf : GoString) (result : Except RunError RunResponse)
    (verdict : Verdict RunError) : Prop where
  /-- There is a response exactly if k6 did not fail, or by a fault of the script, and its files can
  be opened. -/
  answered : result.isOk = true ↔ (joined ended).Answered ∧
    (ended.1 names.logsFn).isSome = true ∧ (ended.1 names.metricsFn).isSome = true
  /-- It has what k6 left in its files. -/
  output : ∀ resp, result = .ok resp →
    readOutput ended.1 names.logsFn names.metricsFn logsBuf = .ok resp.toOutput
  judged : ∀ resp, result = .ok resp → Judged env lib (joined ended).causes resp verdict

private theorem readOutput_isOk (fs : Fs) (logsFn metricsFn logsBuf : GoString) :
    (readOutput fs logsFn metricsFn logsBuf).isOk = true ↔
      (fs logsFn).isSome = true ∧ (fs metricsFn).isSome = true := by
  have hopen {name : GoString} (hname : fs name = none) (limit : Nat) (existing : GoString) :
      readFileLimit fs name limit existing = .error .opening := by rw [readFileLimit, hname]
  unfold readOutput
  cases hlogs : fs logsFn with
  | none =>
    rw [hopen hlogs]
    exact iff_of_false Bool.false_ne_true fun h ↦ Bool.false_ne_true h.1
  | some logs =>
    obtain ⟨out, hout⟩ := exists_readFileLimit hlogs maxLogsSizeBytes logsBuf
    rw [hout]
    cases hmetrics : fs metricsFn with
    | none =>
      simp only [hopen hmetrics]
      exact iff_of_false Bool.false_ne_true fun h ↦ Bool.false_ne_true h.2
    | some metrics =>
      obtain ⟨out', hout'⟩ := exists_readFileLimit hmetrics maxMetricsSizeBytes []
      simp only [hout']
      exact iff_of_true rfl ⟨rfl, rfl⟩

private theorem answered_iff (ended : Fs × Option Cause × Option Cause) :
    ¬ (joined ended ≠ {} ∧ (!isUserError (joined ended)) = true) ↔ (joined ended).Answered := by
  have hnil : joined ended = {} ↔ (joined ended).causes = [] :=
    ⟨fun h ↦ by rw [h], fun h ↦ congrArg (fun causes ↦ ({ causes } : Err)) h⟩
  rw [not_and_or, not_not, hnil, Err.Answered, Bool.not_eq_true', Bool.not_eq_false]

-- What `execute` makes of the end of k6.
private theorem reported_of_ended {ended : Fs × Option Cause × Option Cause} {names : Names}
    {logsBuf : GoString} {result : Except RunError RunResponse}
    (hresult : result = if joined ended ≠ {} ∧ !isUserError (joined ended) then
        .error (.executing (joined ended))
      else respond env ended.1 names logsBuf (joined ended)) :
    Reported env lib ended names logsBuf result (processorRun env.decode lib result) := by
  by_cases hanswered : (joined ended).Answered
  · rw [if_neg ((answered_iff ended).mpr hanswered), respond] at hresult
    have hopen := readOutput_isOk ended.1 names.logsFn names.metricsFn logsBuf
    cases hread : readOutput ended.1 names.logsFn names.metricsFn logsBuf with
    | error e =>
      rw [hread] at hresult hopen
      rw [hresult]
      exact ⟨iff_of_false nofun fun h ↦ (nomatch hopen.mpr h.2), nofun, nofun⟩
    | ok output =>
      rw [hread] at hresult hopen
      dsimp only at hresult
      rw [hresult]
      refine ⟨iff_of_true rfl ⟨hanswered, hopen.mp rfl⟩, ?_, ?_⟩
      · rintro resp ⟨⟩
        exact hread
      · rintro resp ⟨⟩
        have hlogged : Err.Answered { joined ended with
          log := errorFromLogs (env.decode output.logs) } := hanswered
        rw [processorRun_of_sane (error_eq_nil_iff hlogged)]
        exact judged_judge (coded_errorType hlogged) (error_eq_nil_iff hlogged)
  · rw [if_pos (not_not.mp fun h ↦ hanswered ((answered_iff ended).mp h))] at hresult
    rw [hresult]
    exact ⟨iff_of_false nofun fun h ↦ hanswered h.1, nofun, nofun⟩

private theorem createSecretConfigFile_isOk (fs : Fs) (tmp : GoString) (store : SecretStore)
    (temp : SecretTemp) :
    (createSecretConfigFile fs tmp store temp).2.isOk = true ↔ temp.Succeeds store := by
  unfold createSecretConfigFile
  constructor
  · intro h
    split at h
    · cases h
    · next hrandom =>
      dsimp only at h
      split at h
      · cases h
      · next hchmod =>
        split at h
        · cases h
        · next hmarshal =>
          split at h
          · cases h
          · next hwrite =>
            split at h
            · cases h
            · next hclose => exact ⟨⟨_, hrandom⟩, hchmod, ⟨_, hmarshal⟩, hwrite, hclose⟩
  · rintro ⟨⟨random, hrandom⟩, hchmod, ⟨configData, hmarshal⟩, hwrite, hclose⟩
    simp only [hrandom, hchmod, hmarshal, hwrite, hclose]
    rfl

private theorem reported_withSecretStore (lib : MetricsLib) (names : Names) (store : SecretStore)
    (fs : Fs) :
    let run := withSecretStore env blacklistedIP script store executionID version path names fs
    ¬ (store.isConfigured = true → env.secret.Succeeds store) ∧ run.command = none ∧
      (∃ e, run.result = .error e) ∨
    (store.isConfigured = true → env.secret.Succeeds store) ∧ ∃ command fs',
      run.command = some command ∧ run.started = some (names, fs') ∧
      Reported env lib (env.k6 command fs') names
        (versionLine env.quote env.start script.k6ChannelManifest version path) run.result
        (processorRun env.decode lib run.result) := by
  have hcreates := createSecretConfigFile_isOk fs env.tmp store env.secret
  unfold withSecretStore
  by_cases hconfigured : store.isConfigured = true
  · rw [if_pos hconfigured]
    cases hcreate : createSecretConfigFile fs env.tmp store env.secret with
    | mk fs' result =>
      rw [hcreate] at hcreates
      cases result with
      | error e => exact .inl ⟨fun h ↦ (nomatch hcreates.mpr (h hconfigured)), rfl, _, rfl⟩
      | ok configFile =>
        exact .inr ⟨fun _ ↦ hcreates.mp rfl, _, fs', rfl, rfl, reported_of_ended rfl⟩
  · rw [if_neg hconfigured]
    exact .inr ⟨fun h ↦ absurd h hconfigured, _, fs, rfl, rfl, reported_of_ended rfl⟩

private theorem reported_localRun (lib : MetricsLib) (store : SecretStore) (fs : Fs) :
    let run := localRun env blacklistedIP script store executionID fs
    (¬ env.Prepared script store → run.command = none ∧ ∃ e, run.result = .error e) ∧
    (env.Prepared script store → ∃ version path command names fs',
      env.resolve script.withManifest.k6ChannelManifest = .ok (version, path) ∧
      run.command = some command ∧ run.started = some (names, fs') ∧
      Reported env lib (env.k6 command fs') names (versionLine env.quote env.start
        script.withManifest.k6ChannelManifest version path) run.result
        (processorRun env.decode lib run.result)) := by
  rcases localRun_eq env blacklistedIP script executionID fs with
    ⟨hnot, e, hrun⟩ | ⟨version, path, random, hresolve, htimeout, hrandom, hrun⟩
  · rw [hrun]
    exact ⟨fun _ ↦ ⟨rfl, e, rfl⟩, fun h ↦ absurd h (hnot store)⟩
  rw [hrun]
  rcases inWorkdir_eq (workdirName env.tmp random) (fs.write (workdirName env.tmp random) []) with
    ⟨hnot, fs', e, -, hin⟩ | ⟨⟨hmetrics, hlogs, hscript, hwrite⟩, names, fs', -, -, hin⟩
  · rw [hin]
    exact ⟨fun _ ↦ ⟨rfl, e, rfl⟩,
      fun h ↦ absurd ⟨h.metrics, h.logs, h.script, h.writeFile⟩ hnot⟩
  rw [hin]
  rcases reported_withSecretStore lib names store fs' with
    ⟨hnot, hcommand, hresult⟩ | ⟨hsecret, command, fs'', hcommand, hstarted, hreported⟩
  · exact ⟨fun _ ↦ ⟨hcommand, hresult⟩, fun h ↦ absurd h.secret hnot⟩
  · have hprepared : env.Prepared script store :=
      ⟨⟨_, hresolve⟩, htimeout, ⟨_, hrandom⟩, hmetrics, hlogs, hscript, hwrite, hsecret⟩
    exact ⟨fun hnot ↦ absurd hprepared hnot,
      fun _ ↦ ⟨version, path, command, names, fs'', hresolve, hcommand, hstarted, hreported⟩⟩

end Judged

end SMAgent.K6
