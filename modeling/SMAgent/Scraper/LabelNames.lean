import SMAgent.Scraper.Series

/-!
# Legal label names

`Label.Validate` lets a name start with a digit or with `__`, "because these names are going to
be prefixed" (`checks_extra.go:1151-1157`), and the label modes after `PREFIXED` emit the name
as it is. So the names that reach `sm_check_info`, the series and the log stream are legal
exactly where the mode prefixes them or the probe and the check have no such label.
-/

namespace SMAgent.Scraper
open SMAgent.Base SMAgent.Pb
open GoString (lit byte)

/-- `[a-zA-Z_][a-zA-Z0-9_]*`. -/
def isLegalName : GoString → Bool
  | [] => false
  | b :: rest => isLabelNameByte b && !GoString.isDigit b && rest.all isLabelNameByte

/-- A legal name that is not one of the reserved ones. -/
def isEmittable (name : GoString) : Bool :=
  isLegalName name && !(lit "__").isPrefixOf name

/-- `registry.MustRegister(smCheckInfo)`, `scraper.go:850-857`, for the constant labels of the
gauge, with what is assumed of the client library: it panics at a name that is not legal, and not
if all names are legal and all values are valid UTF-8. -/
structure Registry where
  mustRegister : GoMap GoString GoString → Except Panic Unit
  rejects : ∀ labels n v, labels.lookup n = some v → isEmittable n = false →
    ∃ p, mustRegister labels = .error p
  accepts : ∀ labels,
    (∀ n v, labels.lookup n = some v → isEmittable n = true ∧ v.validString = true) →
      mustRegister labels = .ok ()

/-- The values of the labels of `sm_check_info` are valid UTF-8. -/
def Utf8Values (s : ScraperConfig) (geohash : GoString) (mode : LabelMode) : Prop :=
  ∀ n v, (s.buildCheckInfoLabels geohash mode).lookup n = some v → v.validString = true

/-- The name starts with a digit or with `__`. -/
def needsPrefix (name : GoString) : Bool :=
  (lit "__").isPrefixOf name || name.head?.any GoString.isDigit

/-- The names that one collection emits are legal, on `sm_check_info`, on the series made of the
gathered metrics, whose own labels the client library has checked, and on the log stream. -/
structure NamesLegal (reg : Registry) (float : FloatFormat) (s : ScraperConfig)
    (geohash : GoString) (mode : LabelMode) : Prop where
  registers : reg.mustRegister (s.buildCheckInfoLabels geohash mode) = .ok ()
  checkInfo : ∀ n v, (s.buildCheckInfoLabels geohash mode).lookup n = some v →
    isEmittable n = true
  execution : ∀ t metrics,
    (∀ mf ∈ metrics, ∀ m ∈ mf.metric, ∀ l ∈ m.label, isEmittable l.name = true) →
    ∀ series ∈ extractTimeseries float t metrics (s.executionMetricLabels mode),
      ∀ l ∈ series.labels, l.name = metricNameLabel ∨ isEmittable l.name = true
  stream : ∀ maxLogLabels success labels,
    streamLabels (s.logLabels mode) maxLogLabels success = .ok labels →
      ∀ l ∈ labels, isEmittable l.name = true

/-- No name is emitted that needs its prefix. A mode without a name prefixes all but the labels
of the execution series, where `__name__` gives way to the metric's name. -/
def PrefixedWhereNeeded (s : ScraperConfig) : LabelMode → Prop
  | .prefixed => True
  | .dualWrite | .unprefixed =>
    ∀ l ∈ s.probe.labels ++ s.check.labels, needsPrefix l.name = false
  | .unrecognized _ =>
    ∀ l ∈ s.probe.labels ++ s.check.labels,
      l.name ≠ metricNameLabel → needsPrefix l.name = false

/-! ### User labels -/

private theorem isEmittable_of_valid {l : Pb.Label} (h : l.Valid) :
    isEmittable l.name = !needsPrefix l.name := by
  obtain ⟨b, rest, hname⟩ := List.exists_cons_of_ne_nil h.name_ne_nil
  have hbytes := h.name_bytes
  rw [hname] at hbytes
  have hb : isLabelNameByte b = true := hbytes b List.mem_cons_self
  have hrest : rest.all isLabelNameByte = true :=
    List.all_eq_true.mpr (List.forall_mem_cons.mp hbytes).2
  simp only [isEmittable, needsPrefix, isLegalName, hname, hb, hrest, List.head?_cons,
    Option.any_some, Bool.true_and, Bool.and_true, Bool.not_or]
  exact Bool.and_comm _ _

private theorem isEmittable_prefixedName {l : Pb.Label} (h : l.Valid) :
    isEmittable (prefixedName l.name) = true := by
  have hname : l.name.all isLabelNameByte = true := List.all_eq_true.mpr h.name_bytes
  have hlit : prefixedName l.name = byte 'l' :: (lit "abel_" ++ l.name) := rfl
  have hfront : (lit "abel_").all isLabelNameByte = true := by decide
  have hhead : isLabelNameByte (byte 'l') = true ∧
      GoString.isDigit (byte 'l') = false := by decide
  have hplain : (lit "__").isPrefixOf (prefixedName l.name) = false := by
    rw [hlit]
    rfl
  rw [isEmittable, hplain, hlit, isLegalName, hhead.1, hhead.2, List.all_append, hfront, hname]
  rfl

private theorem isEmittable_of_isSystemLabel {n : GoString} (h : isSystemLabel n = true) :
    isEmittable n = true := by
  have hall : ∀ n ∈ systemLabels, isEmittable n = true := by decide
  exact hall n (of_decide_eq_true h)

section Emitted

variable {s : ScraperConfig} {mode : LabelMode}

private theorem isEmittable_userLabels
    (hvalid : ∀ l ∈ s.probe.labels ++ s.check.labels, l.Valid)
    (h : PrefixedWhereNeeded s mode) {n : GoString} (hn : n ∈ names (s.userLabels mode)) :
    isEmittable n = true := by
  rcases mem_names_buildUserLabels.mp hn with ⟨-, l, hl, rfl⟩ | ⟨hmode, -, l, hl, rfl⟩
  · exact isEmittable_prefixedName (hvalid l hl)
  · have hneeds : needsPrefix l.name = false := by
      rcases hmode with rfl | rfl
      · exact h l hl
      · exact h l hl
    rw [isEmittable_of_valid (hvalid l hl), hneeds]
    rfl

private theorem isEmittable_customMetricLabels
    (hvalid : ∀ l ∈ s.probe.labels ++ s.check.labels, l.Valid)
    (h : PrefixedWhereNeeded s mode) {n : GoString}
    (hn : n ∈ names (customMetricLabels s.probe.labels s.check.labels mode)) :
    n = metricNameLabel ∨ isEmittable n = true := by
  obtain ⟨hmode, -, l, hl, rfl⟩ := mem_names_customMetricLabels.mp hn
  rw [isEmittable_of_valid (hvalid l hl)]
  cases mode with
  | prefixed => exact absurd rfl hmode
  | dualWrite => exact .inr (by rw [h l hl]; rfl)
  | unprefixed => exact .inr (by rw [h l hl]; rfl)
  | unrecognized v =>
    by_cases hname : l.name = metricNameLabel
    · exact .inl hname
    · exact .inr (by rw [h l hl hname]; rfl)

/-! ### The agent's labels -/

private theorem isEmittable_regionLabelForMode (region : GoString) :
    isEmittable (regionLabelForMode mode region).name = true := by
  rcases name_regionLabelForMode mode region with h | h
  all_goals
    rw [h]
    decide

private theorem isEmittable_baseLabels (geohash : GoString) :
    ∀ n ∈ names (s.baseLabels geohash mode), isEmittable n = true := by
  have halert : isEmittable (.lit "alert_sensitivity") = true := by decide
  intro n hn
  rcases s.mem_names_baseLabels hn with hsys | rfl | ⟨rfl, -⟩
  · exact isEmittable_of_isSystemLabel hsys
  · exact isEmittable_regionLabelForMode _
  · exact halert

private theorem isEmittable_systemLogLabels :
    ∀ n ∈ names (s.systemLogLabels mode), isEmittable n = true := by
  intro n hn
  rcases s.mem_names_systemLogLabels hn with hsys | rfl
  · exact isEmittable_of_isSystemLabel hsys
  · exact isEmittable_regionLabelForMode _

/-! ### The outputs -/

private theorem isEmittable_series {float : FloatFormat} {t : Int} {metrics : List MetricFamily}
    {executionLabels : List LabelPair}
    (hown : ∀ mf ∈ metrics, ∀ m ∈ mf.metric, ∀ l ∈ m.label, isEmittable l.name = true)
    (hshared : ∀ n ∈ names executionLabels, n = metricNameLabel ∨ isEmittable n = true) :
    ∀ series ∈ extractTimeseries float t metrics executionLabels,
      ∀ l ∈ series.labels, l.name = metricNameLabel ∨ isEmittable l.name = true := by
  have hextra : isEmittable (.lit "quantile") = true ∧ isEmittable (.lit "le") = true := by decide
  intro series hseries l hl
  rw [extractTimeseries_eq] at hseries
  obtain ⟨mf, hmf, hseries⟩ := List.mem_flatMap.mp hseries
  obtain ⟨m, hm, hseries⟩ := List.mem_flatMap.mp hseries
  obtain ⟨value, suffix, -, extra, rfl, hadded⟩ := mem_appendDtoToTimeseries float t hseries
  have hl := (mem_names_makeTimeseries _ _ _).mp (List.mem_map_of_mem hl)
  rw [names, List.map_append, namedLabels, List.map_cons, List.map_append, List.mem_append,
    List.mem_cons, List.mem_append, names_map_truncated] at hl
  rcases hl with (hl | hl | hl) | hl
  · exact .inl hl
  · exact hshared _ (mem_names_sharedLabels hl)
  · obtain ⟨x, hx, hname⟩ := List.mem_map.mp hl
    exact .inr (hname ▸ hown mf hmf m hm x hx)
  · obtain ⟨x, hx, hname⟩ := List.mem_map.mp hl
    rcases (hadded x hx).1 with h | h
    · exact .inr (hname ▸ h ▸ hextra.1)
    · exact .inr (hname ▸ h ▸ hextra.2)

private theorem isEmittable_streamLabels {logLabels labels : List LabelPair} {maxLogLabels : Int}
    {success : Bool} (hlog : ∀ n ∈ names logLabels, isEmittable n = true)
    (h : streamLabels logLabels maxLogLabels success = .ok labels) :
    ∀ l ∈ labels, isEmittable l.name = true := by
  have hsuccess : isEmittable (.lit "probe_success") = true := by decide
  rw [streamLabels_eq_ok h]
  intro l hl
  rcases List.mem_append.mp hl with hl | hl
  · exact hlog _ (List.mem_map_of_mem (List.mem_of_mem_take hl))
  · rw [List.mem_singleton.mp hl]
    exact hsuccess

private theorem namesLegal_of_prefixedWhereNeeded (reg : Registry) (float : FloatFormat)
    (geohash : GoString) (hvalid : ∀ l ∈ s.probe.labels ++ s.check.labels, l.Valid)
    (hutf8 : Utf8Values s geohash mode) (h : PrefixedWhereNeeded s mode) :
    NamesLegal reg float s geohash mode := by
  have hinfo : ∀ n v, (s.buildCheckInfoLabels geohash mode).lookup n = some v →
      isEmittable n = true := by
    intro n v hn
    rcases s.mem_keys_buildCheckInfoLabels.mp ⟨v, hn⟩ with hn | hn
    · exact isEmittable_userLabels hvalid h hn
    · exact isEmittable_baseLabels geohash n hn
  constructor
  · exact reg.accepts _ fun n v hn ↦ ⟨hinfo n v hn, hutf8 n v hn⟩
  · exact hinfo
  · intro t metrics hown
    apply isEmittable_series hown
    intro n hn
    rcases s.mem_names_executionMetricLabels.mp hn with hn | hn
    · exact isEmittable_customMetricLabels hvalid h hn
    · exact .inr (isEmittable_of_isSystemLabel (s.isSystemLabel_sysMetricLabels n hn))
  · intro maxLogLabels success labels hlabels
    refine isEmittable_streamLabels (fun n hn ↦ ?_) hlabels
    rcases s.mem_names_logLabels.mp hn with hn | hn
    · exact isEmittable_userLabels hvalid h hn
    · exact isEmittable_systemLogLabels n hn

private theorem NamesLegal.of_executionMetricLabels {reg : Registry} {float : FloatFormat}
    {geohash : GoString} (h : NamesLegal reg float s geohash mode) {n : GoString}
    (hn : n ∈ names (s.executionMetricLabels mode)) :
    n = metricNameLabel ∨ isEmittable n = true := by
  have hname : lit "probe_success" ≠ checkInfoMetricName := by decide
  let series := makeTimeseries 0 .zero
    (namedLabels (.lit "probe_success") ((s.executionMetricLabels mode).map truncated) {} "")
  have hmem : series ∈ extractTimeseries float 0
      [⟨.lit "probe_success", .gauge, [{ gauge := some .zero }]⟩]
      (s.executionMetricLabels mode) := by
    rw [extractTimeseries_eq]
    simp [appendDtoToTimeseries, sharedLabels, hname, series]
    rfl
  have hlabel : n ∈ names series.labels := by
    rw [mem_names_makeTimeseries]
    simp only [namedLabels, List.map_cons, List.map_append, List.map_map, List.mem_cons,
      List.mem_append]
    exact .inr (.inl hn)
  obtain ⟨l, hl, rfl⟩ := List.mem_map.mp hlabel
  exact h.execution 0 _ (by simp) series hmem l hl

private theorem NamesLegal.prefixedWhereNeeded {reg : Registry} {float : FloatFormat}
    {geohash : GoString} (hvalid : ∀ l ∈ s.probe.labels ++ s.check.labels, l.Valid)
    (h : NamesLegal reg float s geohash mode) : PrefixedWhereNeeded s mode := by
  have hneeds : ∀ l ∈ s.probe.labels ++ s.check.labels, isEmittable l.name = true →
      needsPrefix l.name = false := by
    intro l hl he
    rwa [isEmittable_of_valid (hvalid l hl), Bool.not_eq_true'] at he
  -- A reserved name is legal, and every other one is emitted as it is.
  have hinfo : Unprefixes mode → ∀ l ∈ s.probe.labels ++ s.check.labels,
      isEmittable l.name = true := by
    intro hmode l hl
    cases hsys : isSystemLabel l.name with
    | true => exact isEmittable_of_isSystemLabel hsys
    | false =>
      have huser : l.name ∈ names (s.userLabels mode) :=
        mem_names_buildUserLabels.mpr (.inr ⟨hmode, hsys, l, hl, rfl⟩)
      obtain ⟨v, hv⟩ := s.mem_keys_buildCheckInfoLabels.mpr (.inl huser)
      exact h.checkInfo _ v hv
  cases mode with
  | prefixed => trivial
  | dualWrite => exact fun l hl ↦ hneeds l hl (hinfo (.inl rfl) l hl)
  | unprefixed => exact fun l hl ↦ hneeds l hl (hinfo (.inr rfl) l hl)
  | unrecognized v =>
    intro l hl hname
    apply hneeds l hl
    cases hsys : isSystemLabel l.name with
    | true => exact isEmittable_of_isSystemLabel hsys
    | false =>
      have hcustom : l.name ∈ names (s.executionMetricLabels (.unrecognized v)) :=
        s.mem_names_executionMetricLabels.mpr
          (.inl (mem_names_customMetricLabels.mpr ⟨nofun, hsys, l, hl, rfl⟩))
      exact (h.of_executionMetricLabels hcustom).resolve_left hname

end Emitted

/-- A collection that gets past the label limit, with values that are valid UTF-8, emits legal names
exactly when no label that needs its prefix goes without it. -/
theorem namesLegal_iff (lib : Stdlib) (reg : Registry) (float : FloatFormat) (s : ScraperConfig)
    (hcheck : s.check.validate lib = .ok none) (hprobe : s.probe.validate = none)
    (geohash : GoString) (mode : LabelMode) (maxMetricLabels : Int)
    (hutf8 : Utf8Values s geohash mode) :
    (¬ s.TooManyLabels geohash mode maxMetricLabels → NamesLegal reg float s geohash mode) ↔
      (¬ s.TooManyLabels geohash mode maxMetricLabels → PrefixedWhereNeeded s mode) := by
  have hvalid : ∀ l ∈ s.probe.labels ++ s.check.labels, l.Valid := by
    intro l hl
    rcases List.mem_append.mp hl with hl | hl
    · exact Probe.labels_valid hprobe l hl
    · exact Check.labels_valid hcheck l hl
  apply imp_congr_right
  intro _
  exact ⟨NamesLegal.prefixedWhereNeeded hvalid,
    namesLegal_of_prefixedWhereNeeded reg float geohash hvalid hutf8⟩

/-- A registry that panics at nothing else. -/
def Registry.strict : Registry where
  mustRegister labels :=
    if labels.range.all fun l ↦ isEmittable l.1 && l.2.validString then .ok ()
    else .error (.explicit (.lit "descriptor is invalid"))
  rejects labels n v hn hname := by
    refine ⟨_, if_neg fun hall ↦ ?_⟩
    have hboth := List.all_eq_true.mp hall (n, v) ((GoMap.mem_range _ _ _).mpr hn)
    rw [hname] at hboth
    cases hboth
  accepts labels h := by
    refine if_pos (List.all_eq_true.mpr fun l hl ↦ ?_)
    obtain ⟨hname, hvalue⟩ := h l.1 l.2 ((GoMap.mem_range _ _ _).mp hl)
    rw [hname, hvalue]
    rfl

private theorem utf8Values_of_range {s : ScraperConfig} {geohash : GoString} {mode : LabelMode}
    (h : ((s.buildCheckInfoLabels geohash mode).range.all fun l ↦ l.2.validString) = true) :
    Utf8Values s geohash mode :=
  fun n v hn ↦ List.all_eq_true.mp h (n, v) ((GoMap.mem_range _ _ _).mpr hn)

/-- A label `1x` is emitted as `label_1x` in `PREFIXED` mode. -/
theorem namesLegal_prefixed_digit :
    let s := labelledScript [] [⟨.lit "1x", .lit "v"⟩]
    s.check.validate Stdlib.permissive = .ok none ∧ s.probe.validate = none ∧
      ¬ s.TooManyLabels [] .prefixed 20 ∧ Utf8Values s [] .prefixed ∧
      NamesLegal .strict .unary s [] .prefixed := by
  have hutf8 : Utf8Values (labelledScript [] [⟨.lit "1x", .lit "v"⟩]) [] .prefixed :=
    utf8Values_of_range (by decide +kernel)
  refine ⟨rfl, rfl, by decide, hutf8, ?_⟩
  exact (namesLegal_iff Stdlib.permissive .strict .unary
    (labelledScript [] [⟨.lit "1x", .lit "v"⟩]) rfl rfl [] .prefixed 20 hutf8).mpr
      (fun _ ↦ trivial) (by decide)

/-- In `UNPREFIXED` mode the same label makes the registration of `sm_check_info` panic, whatever
else the client library does. -/
theorem not_namesLegal_unprefixed_digit :
    let s := labelledScript [] [⟨.lit "1x", .lit "v"⟩]
    s.check.validate Stdlib.permissive = .ok none ∧ s.probe.validate = none ∧
      ¬ s.TooManyLabels [] .unprefixed 20 ∧ Utf8Values s [] .unprefixed ∧
      ∀ reg : Registry, (∃ p, reg.mustRegister (s.buildCheckInfoLabels [] .unprefixed) = .error p) ∧
        ¬ NamesLegal reg .unary s [] .unprefixed := by
  refine ⟨rfl, rfl, by decide, utf8Values_of_range (by decide +kernel), fun reg ↦ ?_⟩
  obtain ⟨p, hpanic⟩ := reg.rejects _ (.lit "1x") (.lit "v")
    (show ((labelledScript [] [⟨.lit "1x", .lit "v"⟩]).buildCheckInfoLabels []
      .unprefixed).lookup (.lit "1x") = _ by decide) (by decide)
  refine ⟨⟨p, hpanic⟩, fun h ↦ ?_⟩
  have hok := h.registers
  rw [hpanic] at hok
  cases hok

end SMAgent.Scraper
