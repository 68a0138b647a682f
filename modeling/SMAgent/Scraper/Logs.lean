import SMAgent.Scraper.LabelAgreement
import SMAgent.Scraper.Selector

/-!
# Logs

`internal/scraper/scraper.go:600-622` and `939-1021`: the prober logs through a logger that puts
a timestamp `ts`, the target and the log labels into every record, and `extractLogs` reads the
records back, taking the timestamp from `ts` or from a field `time` of the record. A user label
`time` that is not prefixed is such a field.

The encoding of records by `logfmt` gives back the keys and values in order, so a log is the
list of its records. Times are nanoseconds since the zero time, 1 January of year 1, which
`IsZero` takes as not set.
-/

namespace SMAgent.Scraper
open SMAgent.Base SMAgent.Pb
open GoString (lit byte)

/-- The end of the year 9999, the last that RFC 3339 can write. -/
def endOfTime : Int := 315537897600 * 1000000000

/-- `time.Parse(time.RFC3339Nano, s)`, `none` where it fails, and `t.Format(time.RFC3339Nano)`. -/
structure TimeFormat where
  parse : GoString → Option Int
  format : Int → GoString
  parse_format : ∀ t, 0 ≤ t → t < endOfTime → parse (format t) = some t

/-- Times in unary, for sample runs. -/
def TimeFormat.unary : TimeFormat where
  parse s := if s.all (· == byte '1') then some s.length else none
  format t := List.replicate t.toNat (byte '1')
  parse_format t h _ := by
    have hall : (List.replicate t.toNat (byte '1')).all (· == byte '1') = true :=
      List.all_eq_true.mpr fun b hb ↦ beq_iff_eq.mpr (List.eq_of_mem_replicate hb)
    rw [if_pos hall, List.length_replicate, Int.toNat_of_nonneg h]

/-- A key and a value of a log record. -/
structure KeyVal where
  key : GoString
  value : GoString
  deriving DecidableEq, Repr

/-- One call of `Log` on the scraper's logger: the level that `level.Info(logger)` and the like
put in front, the arguments, and the time that the wrapper's `ts` gives. -/
structure LogCall where
  level : Option GoString := none
  keyvals : List KeyVal
  ts : Int
  deriving DecidableEq, Repr

/-- `logproto.Entry`; the line is the encoding of what is left of the record. -/
structure LogEntry where
  timestamp : Int
  line : List KeyVal
  structuredMetadata : List LabelPair
  deriving DecidableEq, Repr

/-- `logproto.Stream`, with its entries. -/
structure LogStream extends Stream where
  entries : List LogEntry
  deriving DecidableEq, Repr

/-- The level that a call puts in front of its record. -/
def LogCall.levelKeyvals (call : LogCall) : List KeyVal :=
  (call.level.map (KeyVal.mk (.lit "level"))).toList

/-- The target and the labels of every record. -/
def contextKeyvals (target : GoString) (logLabels : List LabelPair) : List KeyVal :=
  ⟨.lit "target", target⟩ :: logLabels.map fun l ↦ ⟨l.name, l.value⟩

section Logger

variable (time : TimeFormat)

/-- `loggerLabels`, `scraper.go:614-620`, with the value of the wrapper's `ts`. -/
def loggerLabels (target : GoString) (logLabels : List LabelPair) (ts : Int) : List KeyVal :=
  ⟨.lit "ts", time.format ts⟩ :: contextKeyvals target logLabels

/-- The record that a call writes. -/
def logRecord (target : GoString) (logLabels : List LabelPair) (call : LogCall) : List KeyVal :=
  call.levelKeyvals ++ (loggerLabels time target logLabels call.ts ++ call.keyvals)

/-- One round of the loop over a record, `scraper.go:960-1000`: the timestamp and the line so
far. `none` drops the record. -/
def scanKeyval (st : Int × List KeyVal) (kv : KeyVal) : Option (Int × List KeyVal) :=
  if kv.key = .lit "ts" then
    if st.1 ≠ 0 then some st else (time.parse kv.value).map fun t ↦ (t, st.2)
  else if kv.key = .lit "time" then (time.parse kv.value).map fun t ↦ (t, st.2)
  else some (st.1, st.2 ++ [kv])

/-- The entry of a record. -/
def extractEntry (structuredMetadata : List LabelPair) (record : List KeyVal) : Option LogEntry :=
  (record.foldlM (scanKeyval time) (0, [])).map fun st ↦ ⟨st.1, st.2, structuredMetadata⟩

/-- `extractLogs`, `scraper.go:942-1021`; the labels are set when a record is read. -/
def extractLogs (logs : List (List KeyVal)) (sharedLabels structuredMetadata : List LabelPair) :
    LogStream where
  labels := fmtLabels (if logs = [] then [] else sharedLabels)
  entries := logs.filterMap (extractEntry time structuredMetadata)

/-! ### Records that survive -/

/-- A key that `extractLogs` takes for a timestamp. -/
def isTimeKey (kv : KeyVal) : Bool := decide (kv.key = .lit "ts" ∨ kv.key = .lit "time")

/-- The time of the last `time` field. -/
def ownTime (keyvals : List KeyVal) : Option Int :=
  (keyvals.filter fun kv ↦ kv.key = .lit "time").getLast?.bind fun kv ↦ time.parse kv.value

/-- The wrapper's time can be written, the call's own ones can be read, and none is the zero
time. -/
structure LogCall.Valid (call : LogCall) : Prop where
  ts_pos : 0 < call.ts
  ts_lt : call.ts < endOfTime
  own : ∀ kv ∈ call.keyvals, kv.key = .lit "time" → ∃ t, time.parse kv.value = some t ∧ t ≠ 0

/-- The entry that a call should give. -/
def LogCall.entry (target : GoString) (logLabels structuredMetadata : List LabelPair)
    (call : LogCall) : LogEntry where
  timestamp := (ownTime time call.keyvals).getD call.ts
  line := (logRecord time target logLabels call).filter fun kv ↦ !isTimeKey kv
  structuredMetadata

/-- Every log of the scraper's logger gives one entry for each call, in order, at the call's own
time or at that of the wrapper. -/
def LogsSurvive (s : ScraperConfig) (mode : LabelMode) : Prop :=
  ∀ calls : List LogCall, (∀ call ∈ calls, call.Valid time) →
    ∀ sharedLabels structuredMetadata,
      (extractLogs time (calls.map (logRecord time s.target (s.logLabels mode))) sharedLabels
        structuredMetadata).entries =
        calls.map (LogCall.entry time s.target (s.logLabels mode) structuredMetadata)

end Logger

section Scan

variable {time : TimeFormat}

variable {kvs : List KeyVal}

private theorem scan_plain (h : ∀ kv ∈ kvs, isTimeKey kv = false) (t : Int) (line : List KeyVal) :
    kvs.foldlM (scanKeyval time) (t, line) = some (t, line ++ kvs) := by
  induction kvs generalizing line with
  | nil => rw [List.append_nil]; rfl
  | cons kv kvs ih =>
    obtain ⟨hts, htime⟩ := not_or.mp (of_decide_eq_false (h kv List.mem_cons_self))
    rw [List.foldlM_cons, scanKeyval, if_neg hts, if_neg htime]
    exact (ih (List.forall_mem_cons.mp h).2 _).trans (by rw [List.append_assoc]; rfl)

private theorem ownTime_cons_of_ne {kv : KeyVal} (h : kv.key ≠ .lit "time") (kvs : List KeyVal) :
    ownTime time (kv :: kvs) = ownTime time kvs := by
  rw [ownTime, List.filter_cons_of_neg (by simpa using h), ownTime]

private theorem ownTime_cons {kv : KeyVal}
    (h : ∀ x ∈ kv :: kvs, x.key = .lit "time" → ∃ t, time.parse x.value = some t ∧ t ≠ 0)
    (hkv : kv.key = .lit "time") {u : Int} (hu : time.parse kv.value = some u) (t : Int) :
    (ownTime time (kv :: kvs)).getD t = (ownTime time kvs).getD u := by
  rw [ownTime, List.filter_cons_of_pos (by simpa using hkv), List.getLast?_cons, ownTime]
  cases hlast : (kvs.filter fun kv ↦ kv.key = .lit "time").getLast? with
  | none => rw [Option.getD_none, Option.bind_some, hu]; rfl
  | some x =>
    have hx := List.mem_filter.mp (List.mem_of_getLast? hlast)
    obtain ⟨w, hw, -⟩ := h x (List.mem_cons_of_mem _ hx.1) (of_decide_eq_true hx.2)
    rw [Option.getD_some, Option.bind_some, hw]
    rfl

private theorem scan_timed
    (h : ∀ kv ∈ kvs, kv.key = .lit "time" → ∃ t, time.parse kv.value = some t ∧ t ≠ 0) {t : Int}
    (ht : t ≠ 0) (line : List KeyVal) : kvs.foldlM (scanKeyval time) (t, line) =
      some ((ownTime time kvs).getD t, line ++ kvs.filter fun kv ↦ !isTimeKey kv) := by
  induction kvs generalizing t line with
  | nil => exact congrArg some (Prod.ext rfl (List.append_nil line).symm)
  | cons kv kvs ih =>
    have hrest := fun x hx ↦ h x (List.mem_cons_of_mem kv hx)
    rw [List.foldlM_cons, scanKeyval]
    by_cases hts : kv.key = .lit "ts"
    · have hkey : kv.key ≠ .lit "time" := by rw [hts]; decide
      have hdrop : isTimeKey kv = true := decide_eq_true (.inl hts)
      rw [if_pos hts, if_pos ht, ownTime_cons_of_ne hkey,
        List.filter_cons_of_neg (by simp [hdrop])]
      exact ih hrest ht line
    · rw [if_neg hts]
      by_cases htime : kv.key = .lit "time"
      · obtain ⟨u, hu, hne⟩ := h kv List.mem_cons_self htime
        have hdrop : isTimeKey kv = true := decide_eq_true (.inr htime)
        rw [if_pos htime, hu, ownTime_cons h htime hu, List.filter_cons_of_neg (by simp [hdrop])]
        exact ih hrest hne line
      · have hkeep : isTimeKey kv = false := decide_eq_false (not_or.mpr ⟨hts, htime⟩)
        rw [if_neg htime, ownTime_cons_of_ne htime, List.filter_cons_of_pos (by simp [hkeep])]
        refine (ih hrest ht _).trans ?_
        rw [List.append_assoc]
        rfl

private theorem scan_overridden (h : ∃ kv ∈ kvs, kv.key = .lit "time") {t u : Int} (ht : t ≠ 0)
    (hu : u ≠ 0) (line : List KeyVal) :
    kvs.foldlM (scanKeyval time) (t, line) = kvs.foldlM (scanKeyval time) (u, line) := by
  induction kvs generalizing line with
  | nil =>
    obtain ⟨kv, hkv, -⟩ := h
    cases hkv
  | cons kv kvs ih =>
    have hrest : kv.key ≠ .lit "time" → ∃ kv ∈ kvs, kv.key = .lit "time" := by
      intro hne
      obtain ⟨x, hx, hkey⟩ := h
      rcases List.mem_cons.mp hx with rfl | hx
      · exact absurd hkey hne
      · exact ⟨x, hx, hkey⟩
    rw [List.foldlM_cons, List.foldlM_cons, scanKeyval, scanKeyval]
    by_cases hts : kv.key = .lit "ts"
    · rw [if_pos hts, if_pos hts, if_pos ht, if_pos hu]
      exact ih (hrest (by rw [hts]; decide)) line
    · rw [if_neg hts, if_neg hts]
      by_cases htime : kv.key = .lit "time"
      · rw [if_pos htime, if_pos htime]
      · rw [if_neg htime, if_neg htime]
        exact ih (hrest htime) _

private theorem isTimeKey_levelKeyvals (call : LogCall) :
    ∀ kv ∈ call.levelKeyvals, isTimeKey kv = false := by
  intro kv hkv
  obtain ⟨v, -, rfl⟩ := Option.map_eq_some_iff.mp (Option.mem_toList.mp hkv)
  have hkey : ¬ (lit "level" = .lit "ts" ∨ lit "level" = .lit "time") := by decide
  exact decide_eq_false hkey

variable {logLabels : List LabelPair}

private theorem scan_logRecord {target : GoString} {call : LogCall} (hpos : 0 < call.ts)
    (hlt : call.ts < endOfTime) :
    (logRecord time target logLabels call).foldlM (scanKeyval time) (0, []) =
      (contextKeyvals target logLabels ++ call.keyvals).foldlM (scanKeyval time)
        (call.ts, call.levelKeyvals) := by
  rw [logRecord, List.foldlM_append, scan_plain (isTimeKey_levelKeyvals call), List.nil_append,
    loggerLabels, List.cons_append, Option.bind_eq_bind, Option.bind_some, List.foldlM_cons,
    scanKeyval, if_pos rfl, if_neg (not_not.mpr rfl),
    time.parse_format _ (Int.le_of_lt hpos) hlt]
  rfl

private theorem key_contextKeyvals (target : GoString) (hlabels : .lit "time" ∉ names logLabels) :
    ∀ kv ∈ contextKeyvals target logLabels, kv.key ≠ .lit "time" := by
  have htarget : lit "target" ≠ .lit "time" := by decide
  intro kv hkv hkey
  rcases List.mem_cons.mp hkv with rfl | hkv
  · exact htarget hkey
  · obtain ⟨l, hl, rfl⟩ := List.mem_map.mp hkv
    exact hlabels (hkey ▸ List.mem_map_of_mem hl)

private theorem extractEntry_logRecord {target : GoString} {logLabels : List LabelPair}
    {call : LogCall} (hcall : call.Valid time) (hlabels : .lit "time" ∉ names logLabels)
    (metadata : List LabelPair) :
    extractEntry time metadata (logRecord time target logLabels call) =
      some (call.entry time target logLabels metadata) := by
  have hkeys := key_contextKeyvals target hlabels
  have hown : ownTime time (contextKeyvals target logLabels ++ call.keyvals) =
      ownTime time call.keyvals := by
    have hnone : (contextKeyvals target logLabels).filter (fun kv ↦ kv.key = .lit "time") = [] :=
      List.filter_eq_nil_iff.mpr fun kv hkv ↦ by simpa using hkeys kv hkv
    rw [ownTime, List.filter_append, hnone, List.nil_append, ownTime]
  have htimes : ∀ kv ∈ contextKeyvals target logLabels ++ call.keyvals, kv.key = .lit "time" →
      ∃ t, time.parse kv.value = some t ∧ t ≠ 0 := by
    intro kv hkv hkey
    rcases List.mem_append.mp hkv with hkv | hkv
    · exact absurd hkey (hkeys kv hkv)
    · exact hcall.own kv hkv hkey
  have hline : (logRecord time target logLabels call).filter (fun kv ↦ !isTimeKey kv) =
      call.levelKeyvals ++ (contextKeyvals target logLabels ++ call.keyvals).filter
        fun kv ↦ !isTimeKey kv := by
    have hlevel : call.levelKeyvals.filter (fun kv ↦ !isTimeKey kv) = call.levelKeyvals :=
      List.filter_eq_self.mpr fun kv hkv ↦ by rw [isTimeKey_levelKeyvals call kv hkv]; rfl
    rw [logRecord, List.filter_append, hlevel, loggerLabels, List.cons_append,
      List.filter_cons_of_neg (by simp [isTimeKey])]
  rw [extractEntry, scan_logRecord hcall.ts_pos hcall.ts_lt,
    scan_timed htimes (Int.ne_of_gt hcall.ts_pos), hown, Option.map_some, ← hline]
  rfl

private theorem extractEntry_overridden (time : TimeFormat) (target : GoString)
    (metadata : List LabelPair) (hlabels : .lit "time" ∈ names logLabels) :
    extractEntry time metadata (logRecord time target logLabels ⟨none, [], 1⟩) =
      extractEntry time metadata (logRecord time target logLabels ⟨none, [], 2⟩) := by
  have hkey : ∃ kv ∈ contextKeyvals target logLabels ++ [], kv.key = .lit "time" := by
    obtain ⟨l, hl, hname⟩ := List.mem_map.mp hlabels
    refine ⟨⟨l.name, l.value⟩, ?_, hname⟩
    rw [List.append_nil]
    exact List.mem_cons_of_mem _ (List.mem_map_of_mem hl)
  rw [extractEntry, extractEntry, scan_logRecord (by decide) (by decide),
    scan_logRecord (by decide) (by decide)]
  exact congrArg (Option.map _) (scan_overridden hkey (by decide) (by decide) _)

end Scan

private theorem time_mem_logLabels {s : ScraperConfig} {mode : LabelMode} :
    .lit "time" ∈ names (s.logLabels mode) ↔ Unprefixes mode ∧ s.IsUser (.lit "time") := by
  have hsys : isSystemLabel (.lit "time") = false := by decide
  have hagent : .lit "time" ∉ names (s.systemLogLabels mode) := by
    simp only [ScraperConfig.systemLogLabels, List.map_cons, List.map_nil]
    rcases name_regionLabelForMode mode s.probe.region with h | h
    all_goals
      rw [h]
      decide
  rw [s.mem_names_logLabels, or_iff_left hagent]
  constructor
  · intro h
    rcases mem_names_buildUserLabels.mp h with ⟨-, l, -, hname⟩ | ⟨hmode, -, huser⟩
    · exact absurd hname (ne_prefixedName (by decide) _)
    · exact ⟨hmode, huser⟩
  · rintro ⟨hmode, huser⟩
    exact mem_names_buildUserLabels.mpr (.inr ⟨hmode, hsys, huser⟩)

/-- The logs survive exactly when no user label `time` goes into the records unprefixed. -/
theorem logsSurvive_iff (time : TimeFormat) (s : ScraperConfig) (mode : LabelMode) :
    LogsSurvive time s mode ↔ ¬ (Unprefixes mode ∧ s.IsUser (.lit "time")) := by
  rw [← time_mem_logLabels]
  constructor
  · intro h hmem
    have hvalid : ∀ ts, 0 < ts → ts < endOfTime → LogCall.Valid time ⟨none, [], ts⟩ :=
      fun ts hpos hlt ↦ ⟨hpos, hlt, nofun⟩
    have hentry : ∀ ts, 0 < ts → ts < endOfTime →
        extractEntry time [] (logRecord time s.target (s.logLabels mode) ⟨none, [], ts⟩) =
          some (LogCall.entry time s.target (s.logLabels mode) [] ⟨none, [], ts⟩) := by
      intro ts hpos hlt
      have hone : [logRecord time s.target (s.logLabels mode) ⟨none, [], ts⟩].filterMap
          (extractEntry time []) =
            [LogCall.entry time s.target (s.logLabels mode) [] ⟨none, [], ts⟩] :=
        h [⟨none, [], ts⟩] (fun call hc ↦ List.mem_singleton.mp hc ▸ hvalid ts hpos hlt) [] []
      cases he : extractEntry time [] (logRecord time s.target (s.logLabels mode)
          ⟨none, [], ts⟩) with
      | none =>
        rw [List.filterMap_cons_none he] at hone
        cases hone
      | some e =>
        rw [List.filterMap_cons_some he] at hone
        rw [(List.cons.inj hone).1]
    have hsame := extractEntry_overridden time s.target [] hmem
    rw [hentry 1 (by decide) (by decide), hentry 2 (by decide) (by decide)] at hsame
    have hts : (1 : Int) = 2 := congrArg LogEntry.timestamp (Option.some.inj hsame)
    exact absurd hts (by decide)
  · intro hmem calls hcalls sharedLabels metadata
    change (calls.map _).filterMap _ = _
    rw [List.filterMap_map, ← List.filterMap_eq_map]
    apply List.filterMap_congr
    intro call hc
    exact extractEntry_logRecord (hcalls call hc) hmem metadata

/-- With a label `time` that is not a time, no record survives. -/
theorem not_logsSurvive_time :
    let s := labelledScript [] [⟨.lit "time", .lit "soon"⟩]
    let call : LogCall := ⟨none, [⟨.lit "msg", .lit "Beginning check"⟩], 1⟩
    s.check.validate Stdlib.permissive = .ok none ∧ s.probe.validate = none ∧
      call.Valid .unary ∧
      (extractLogs .unary
        [logRecord .unary s.target (s.logLabels .unprefixed) call] [] []).entries =
        [] ∧
      ¬ LogsSurvive .unary s .unprefixed := by
  have hdropped : (extractLogs .unary [logRecord .unary (.lit "t")
      ((labelledScript [] [⟨.lit "time", .lit "soon"⟩]).logLabels .unprefixed)
      ⟨none, [⟨.lit "msg", .lit "Beginning check"⟩], 1⟩] [] []).entries = [] := by decide
  have hvalid : LogCall.Valid .unary ⟨none, [⟨.lit "msg", .lit "Beginning check"⟩], 1⟩ := by
    refine ⟨by decide, by decide, fun kv hkv hkey ↦ ?_⟩
    rw [List.mem_singleton.mp hkv] at hkey
    exact absurd hkey (by decide)
  refine ⟨rfl, rfl, hvalid, hdropped, fun h ↦ ?_⟩
  have hentries := h [⟨none, [⟨.lit "msg", .lit "Beginning check"⟩], 1⟩]
    (fun call hc ↦ List.mem_singleton.mp hc ▸ hvalid) [] []
  cases hdropped.symm.trans hentries

end SMAgent.Scraper
