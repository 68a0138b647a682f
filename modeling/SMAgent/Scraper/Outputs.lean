import Mathlib.Data.Set.List
import SMAgent.Scraper.Collect
import SMAgent.Scraper.Conversion

/-!
# The outputs of a collection agree

A collection tells its result several times: in `probe_success`, in the label of the log stream and
in the error that it returns, and its duration in `probe_duration_seconds` and in what it returns.
The names of the derived metrics contain `_all_`, so that no derived series is taken for one of
these, however many collections a scraper has made.
-/

namespace SMAgent.Scraper
open SMAgent.Base SMAgent.Pb

/-! ### Derived names -/

/-- A name that only a derived metric has. -/
def IsDerived (name : GoString) : Prop := GoString.lit "_all_" <:+: name

instance (name : GoString) : Decidable (IsDerived name) := inferInstanceAs (Decidable (_ <:+: _))

private theorem isDerived_of_mem_derive {basicMetricsOnly : Bool} {mf : Family} {o : Observation}
    (h : o ∈ derive basicMetricsOnly mf) : IsDerived o.name := by
  have hsuffixes : ∀ suffix ∈ allSuffixes, IsDerived suffix := by decide
  rcases named_of_mem_derive h with ⟨-, hname⟩ | ⟨-, suffix, hsuffix, hends⟩
  · rw [hname]
    decide
  · exact (hsuffixes suffix hsuffix).trans hends.isInfix

/-- Everything that a scraper keeps has a derived name. -/
def DerivedOnly (accs : Accumulators) : Prop :=
  ∀ c acc, accs.find c = some acc → IsDerived acc.desc.name

private theorem derivedOnly_init : DerivedOnly {} := by
  rintro ⟨kind, hash⟩ acc h
  cases kind <;> simp [Accumulators.find] at h

section Update
variable (client : Client) {accs accs' : Accumulators} {x : Deriving} {o : Observation}

/-- The state that an update leaves, successful or not. -/
def leaves : Except (Deriving × Stop) Deriving → Deriving
  | .ok x => x
  | .error (x, _) => x

private theorem DerivedOnly.store (h : DerivedOnly accs) (c : Collector) (acc : Accumulator)
    (hacc : IsDerived acc.desc.name) : DerivedOnly (accs.store c acc) := by
  intro c' acc' hfind
  rw [find_store] at hfind
  split at hfind
  · cases hfind
    exact hacc
  · exact h c' acc' hfind

variable {client} in
private theorem DerivedOnly.obtain (h : DerivedOnly accs) (ho : IsDerived o.name)
    {acc : Accumulator} (hobtain : accs.obtain client o = .ok (accs', acc)) :
    DerivedOnly accs' := by
  obtain ⟨-, -, rfl | ⟨-, rfl, rfl⟩⟩ := obtain_eq_ok hobtain
  · exact h
  · exact h.store _ _ ho

private theorem DerivedOnly.update (h : DerivedOnly x.accumulators) (ho : IsDerived o.name) :
    DerivedOnly (leaves (updateFromMetric client x o)).accumulators := by
  unfold updateFromMetric
  split
  · exact h
  · split
    · exact h
    · next accs acc hobtain =>
      have haccs := h.obtain ho hobtain
      split
      · exact haccs
      · exact haccs.store _ (acc.observe _) (haccs _ acc (obtain_eq_ok hobtain).1)

private theorem DerivedOnly.foldlM (h : DerivedOnly x.accumulators) {os : List Observation}
    (hos : ∀ o ∈ os, IsDerived o.name) :
    DerivedOnly (leaves (os.foldlM (updateFromMetric client) x)).accumulators := by
  induction os generalizing x with
  | nil => exact h
  | cons o os ih =>
    obtain ⟨ho, hos⟩ := List.forall_mem_cons.mp hos
    have hupdate := h.update client ho
    rw [List.foldlM_cons]
    cases hx : updateFromMetric client x o with
    | error e =>
      rw [hx] at hupdate
      exact hupdate
    | ok y =>
      rw [hx] at hupdate
      exact ih hupdate hos

variable (basicMetricsOnly : Bool) (mfs : List Family)

/-- One scrape keeps the names derived, whatever the client answers. -/
theorem DerivedOnly.getProbeMetrics (h : DerivedOnly x.accumulators) :
    DerivedOnly (getProbeMetrics client basicMetricsOnly mfs x).1.accumulators := by
  have hderived : ∀ o ∈ mfs.flatMap (derive basicMetricsOnly), IsDerived o.name := by
    intro o ho
    obtain ⟨mf, -, ho⟩ := List.mem_flatMap.mp ho
    exact isDerived_of_mem_derive ho
  have hfold : DerivedOnly (leaves ((mfs.flatMap (derive basicMetricsOnly)).foldlM
      (updateFromMetric client) { x with registry := [] })).accumulators :=
    DerivedOnly.foldlM client (x := { x with registry := [] }) h hderived
  rw [← getDerivedMetrics_eq] at hfold
  unfold Scraper.getProbeMetrics
  split
  · next heq =>
    rw [heq] at hfold
    exact hfold
  · next heq =>
    rw [heq] at hfold
    split <;> exact hfold

variable {client basicMetricsOnly mfs} in
private theorem derived_getProbeMetrics {add : Float64 → Float64 → Float64}
    (hclient : client.Lawful add) (h : DerivedOnly x.accumulators) {out : List Family}
    (hout : (getProbeMetrics client basicMetricsOnly mfs x).2 = .ok out) :
    ∃ derived, out = mfs ++ derived ∧ ∀ mf ∈ derived, IsDerived mf.name := by
  have hkept := h.getProbeMetrics client basicMetricsOnly mfs
  obtain ⟨y, dmfs, hy, hgather, rfl⟩ : ∃ y dmfs,
      (getProbeMetrics client basicMetricsOnly mfs x).1 = y ∧
      client.gather (y.accumulators.registered y.registry) = .ok dmfs ∧ out = mfs ++ dmfs := by
    unfold getProbeMetrics at hout ⊢
    split at hout
    · cases hout
    · next y hfold =>
      split at hout
      · cases hout
      · next dmfs hgather =>
        cases hout
        exact ⟨y, dmfs, rfl, hgather, rfl⟩
  rw [hy] at hkept
  refine ⟨dmfs, rfl, ?_⟩
  intro mf hmf
  obtain ⟨r, hr, hname⟩ := hclient.named hgather mf hmf
  obtain ⟨c, -, hfind⟩ := List.mem_filterMap.mp hr
  rw [← hname]
  exact hkept c r hfind

end Update

/-! ### Families by name -/

/-- The families of a name. -/
def named (name : GoString) (mfs : List Family) : List Family := mfs.filter fun mf ↦ mf.name = name

section Named
variable {name : GoString} {mf : Family} {mfs : List Family}

private theorem named_append (l l' : List Family) :
    named name (l ++ l') = named name l ++ named name l' :=
  List.filter_append l l'

private theorem named_eq_nil : named name mfs = [] ↔ ∀ mf ∈ mfs, mf.name ≠ name := by
  simp [named, List.filter_eq_nil_iff]

private theorem named_cons_of_eq (h : mf.name = name) :
    named name (mf :: mfs) = mf :: named name mfs :=
  List.filter_cons_of_pos (decide_eq_true h)

private theorem named_cons_of_ne (h : mf.name ≠ name) : named name (mf :: mfs) = named name mfs :=
  List.filter_cons_of_neg fun h' ↦ h (of_decide_eq_true h')

private theorem named_derived (h : ∀ mf ∈ mfs, IsDerived mf.name) (hname : ¬ IsDerived name) :
    named name mfs = [] := by
  rw [named_eq_nil]
  rintro mf hmf rfl
  exact hname (h mf hmf)

end Named

/-! ### The duration -/

/-- The value of `probe_script_duration_seconds`, if there is one. -/
def scriptDuration (mfs : List Family) : Option Float64 :=
  (named scriptDurationName mfs).findSome? Family.getGauge

section Patch
variable {before after : List Family} (hbefore : named durationName before = [])
  (hscript : named scriptDurationName before = []) (hafter : named durationName after = [])

include hbefore hscript in
private theorem findDurations_append (rest : List Family) (i : Nat) :
    findDurations (before ++ rest) i none none =
      findDurations rest (i + before.length) none none := by
  rw [named_eq_nil] at hbefore hscript
  induction before generalizing i with
  | nil => rfl
  | cons mf before ih =>
    obtain ⟨hmf, hbefore⟩ := List.forall_mem_cons.mp hbefore
    obtain ⟨hmf', hscript⟩ := List.forall_mem_cons.mp hscript
    rw [List.cons_append, findDurations, if_neg hmf, if_neg hmf']
    show findDurations (before ++ rest) (i + 1) none none = _
    rw [ih hbefore hscript, List.length_cons, Nat.add_assoc, Nat.add_comm 1]

include hafter in
private theorem findDurations_after (i : Nat) (found : Nat × Float64) :
    findDurations after i (some found) none = (some found, scriptDuration after) := by
  rw [named_eq_nil] at hafter
  induction after generalizing i with
  | nil => rfl
  | cons mf after ih =>
    obtain ⟨hmf, hafter⟩ := List.forall_mem_cons.mp hafter
    rw [findDurations, if_neg hmf, scriptDuration]
    by_cases hscript : mf.name = scriptDurationName
    · rw [if_pos hscript, named_cons_of_eq hscript, List.findSome?_cons]
      cases mf.getGauge with
      | none => exact ih hafter (i + 1)
      | some value => rfl
    · rw [if_neg hscript, named_cons_of_ne hscript]
      exact ih hafter (i + 1)

include hbefore hscript hafter in
private theorem patchDuration_eq (measured : Float64) :
    patchDuration (before ++ durationFamily measured :: after) =
      (before ++ durationFamily ((scriptDuration after).getD measured) :: after,
        some ((scriptDuration after).getD measured).toInt64Nanos) := by
  have hfind : findDurations (before ++ durationFamily measured :: after) 0 none none =
      (some (before.length, measured), scriptDuration after) := by
    rw [findDurations_append hbefore hscript, Nat.zero_add, findDurations]
    exact findDurations_after hafter _ _
  unfold patchDuration
  rw [hfind]
  cases scriptDuration after with
  | none => rfl
  | some value =>
    show ((before ++ _).modify before.length _, _) = _
    rw [List.modify_eq_take_cons_drop (by simp)]
    simp [durationFamily, gaugeFamily, setGauge]

end Patch

/-! ### Series by name -/

/-- The first label is the name. -/
def TimeSeries.isNamed (name : GoString) (series : TimeSeries) : Bool :=
  decide (series.labels.head? = some ⟨metricNameLabel, name⟩)

/-- There is one series of that name, and its sample has that value. -/
def OneSample (ts : List TimeSeries) (name : GoString) (t : Int) (value : Float64) : Prop :=
  ∃ labels, ts.filter (TimeSeries.isNamed name) = [⟨labels, [⟨unixNanoMilli t, value⟩]⟩]

private theorem isNamed_makeTimeseries (t : Int) (value : Float64) (name name' : GoString)
    (others : List Label) :
    (makeTimeseries t value (⟨metricNameLabel, name'⟩ :: others)).isNamed name =
      decide (name' = name) := by
  have hfront : [⟨metricNameLabel, name'⟩] <+:
      others.foldl (Keyed.addNew Label.name) [⟨metricNameLabel, name'⟩] :=
    Keyed.prefix_foldl_addNew others _
  obtain ⟨kept, hkept⟩ := hfront
  have hlabels : (makeTimeseries t value (⟨metricNameLabel, name'⟩ :: others)).labels =
      ⟨metricNameLabel, name'⟩ :: kept := by
    rw [labels_makeTimeseries]
    exact hkept.symm
  simp [TimeSeries.isNamed, hlabels]

private theorem suffix_eq_empty {name : GoString} {suffix : String}
    (hsuffix : suffix ∈ nameSuffixes) (h : name ++ .lit suffix ∈ ownNames) : suffix = "" := by
  have hends : ∀ own ∈ ownNames, ∀ suffix ∈ nameSuffixes, GoString.lit suffix <:+ own →
      suffix = "" := by decide
  exact hends _ h suffix hsuffix (List.suffix_append _ _)

section Extract
variable (float : FloatFormat) (t : Int) (executionLabels : List LabelPair)

/-- The series of a family. -/
def familySeries (mf : Family) : List TimeSeries :=
  mf.metric.flatMap
    (appendDtoToTimeseries float [] t mf.name (sharedLabels mf.name executionLabels) mf.type)

private theorem isNamed_familySeries {mf : Family} {name : GoString} {series : TimeSeries}
    (hown : name ∈ ownNames) (hseries : series ∈ familySeries float t executionLabels mf)
    (hnamed : series.isNamed name = true) : mf.name = name := by
  obtain ⟨m, -, hseries⟩ := List.mem_flatMap.mp hseries
  obtain ⟨value, suffix, hsuffix, extra, rfl, -⟩ := mem_appendDtoToTimeseries float t hseries
  rw [namedLabels, List.cons_append, isNamed_makeTimeseries, decide_eq_true_eq] at hnamed
  rw [← hnamed] at hown ⊢
  rw [suffix_eq_empty hsuffix hown]
  exact (List.append_nil _).symm

private theorem filter_isNamed {name : GoString} (hown : name ∈ ownNames) (mfs : List Family) :
    (mfs.flatMap (familySeries float t executionLabels)).filter (TimeSeries.isNamed name) =
      ((named name mfs).flatMap (familySeries float t executionLabels)).filter
        (TimeSeries.isNamed name) := by
  induction mfs with
  | nil => rfl
  | cons mf mfs ih =>
    rw [List.flatMap_cons, List.filter_append, ih]
    by_cases hname : mf.name = name
    · rw [named_cons_of_eq hname, List.flatMap_cons, List.filter_append]
    · have hnone : (familySeries float t executionLabels mf).filter (TimeSeries.isNamed name) =
          [] := by
        apply List.filter_eq_nil_iff.mpr
        intro series hseries hnamed
        exact hname (isNamed_familySeries float t executionLabels hown hseries hnamed)
      rw [named_cons_of_ne hname, hnone, List.nil_append]

private theorem oneSample_gaugeFamily {mfs : List Family} {name help : GoString}
    {labels : List Label} {value : Float64} (hown : name ∈ ownNames)
    (h : named name mfs = [gaugeFamily name help labels value]) :
    OneSample (extractTimeseries float t (mfs.map Family.toMetricFamily) executionLabels) name t
      value := by
  have hsingle : familySeries float t executionLabels (gaugeFamily name help labels value) =
      [makeTimeseries t value (namedLabels name (sharedLabels name executionLabels)
        { label := labels, gauge := some value } "")] := by
    rw [familySeries, gaugeFamily, List.flatMap_singleton]
    exact appendDtoToTimeseries_single float t rfl _ _
  rw [OneSample, extractTimeseries_eq, List.flatMap_map]
  show ∃ _, (mfs.flatMap (familySeries float t executionLabels)).filter _ = _
  rw [filter_isNamed float t executionLabels hown, h, List.flatMap_singleton, hsingle,
    List.filter_cons_of_pos]
  · exact ⟨_, rfl⟩
  · rw [namedLabels, isNamed_makeTimeseries, decide_eq_true_eq]
    exact List.append_nil _

private theorem extractTimeseries_eq_map (metrics : List MetricFamily) :
    ∃ samples : List (Float64 × List Label),
      extractTimeseries float t metrics executionLabels =
        samples.map fun m ↦ makeTimeseries t m.1 m.2 := by
  suffices h : extractTimeseries float t metrics executionLabels ∈
      Set.range (List.map fun m : Float64 × List Label ↦ makeTimeseries t m.1 m.2) by
    obtain ⟨samples, hsamples⟩ := h
    exact ⟨samples, hsamples.symm⟩
  rw [Set.range_list_map]
  intro series hseries
  rw [extractTimeseries_eq] at hseries
  obtain ⟨mf, -, hseries⟩ := List.mem_flatMap.mp hseries
  obtain ⟨m, -, hseries⟩ := List.mem_flatMap.mp hseries
  obtain ⟨value, suffix, -, extra, heq, -⟩ := mem_appendDtoToTimeseries float t hseries
  exact ⟨(value, _), heq.symm⟩

end Extract

/-! ### What is gathered -/

section Gathered
variable {mfs derived : List Family} {measured : Float64}
  (hsorted : mfs.Pairwise fun mf mf' ↦ mf.name ≤ mf'.name)
  (hnamed : named durationName mfs = [durationFamily measured])

include hsorted hnamed in
private theorem sorted_split : ∃ before after,
    mfs = before ++ durationFamily measured :: after ∧ named durationName before = [] ∧
      named scriptDurationName before = [] ∧ named durationName after = [] := by
  obtain ⟨before, after, heq, hbefore, -, hafter⟩ := List.filter_eq_cons_iff.mp hnamed
  rw [heq, List.pairwise_append] at hsorted
  refine ⟨before, after, heq, List.filter_eq_nil_iff.mpr hbefore, ?_, hafter⟩
  rw [named_eq_nil]
  intro mf hmf hscript
  have hle : mf.name ≤ durationName := hsorted.2.2 mf hmf _ List.mem_cons_self
  rw [hscript] at hle
  exact absurd hle (by decide)

include hsorted hnamed in
private theorem patchDuration_gathered (hderived : ∀ mf ∈ derived, IsDerived mf.name) :
    ∃ patched, patchDuration (mfs ++ derived) =
      (patched, some ((scriptDuration mfs).getD measured).toInt64Nanos) ∧
    named durationName patched = [durationFamily ((scriptDuration mfs).getD measured)] ∧
    ∀ name, name ≠ durationName → ¬ IsDerived name → named name patched = named name mfs := by
  obtain ⟨before, after, heq, hbefore, hscript, hafter⟩ := sorted_split hsorted hnamed
  have hskip {name : GoString} (hname : name ≠ durationName) (value : Float64)
      (rest : List Family) : named name (durationFamily value :: rest) = named name rest :=
    named_cons_of_ne hname.symm
  have hrest : named durationName (after ++ derived) = [] := by
    rw [named_append, hafter, named_derived hderived (by decide), List.nil_append]
  have htold : scriptDuration (after ++ derived) = scriptDuration mfs := by
    rw [scriptDuration, scriptDuration, named_append, named_derived hderived (by decide),
      List.append_nil, heq, named_append, hscript, List.nil_append, hskip (by decide)]
  refine ⟨before ++ durationFamily ((scriptDuration mfs).getD measured) :: (after ++ derived),
    ?_, ?_, ?_⟩
  · conv_lhs => rw [heq]
    rw [List.append_assoc, List.cons_append, patchDuration_eq hbefore hscript hrest, htold]
  · have hname (value : Float64) : (durationFamily value).name = durationName := rfl
    rw [named_append, hbefore, named_cons_of_eq (hname _), hrest, List.nil_append]
  · intro name hname hplain
    rw [heq, named_append, named_append, hskip hname, hskip hname, named_append,
      named_derived hderived hplain, List.append_nil]

end Gathered

/-! ### All collections of a scraper -/

/-- When and under which clock a collection runs, and what it meets. -/
structure Occasion where
  clock : ScrapeClock
  t : Int
  input : ScrapeInput

section Collections
variable (formats : Formats) (client : Client) (basicMetricsOnly : Bool) (s : ScraperConfig)

/-- The gauges that the scraper registers. -/
def Occasion.gauges (a : Occasion) : List Family :=
  a.input.run.gauges (s.buildCheckInfoLabels a.input.geohash (labelModeForTenant a.input.labelMode))

/-- The families of the prober and of the scraper, if they can be gathered. -/
def Occasion.families (a : Occasion) : List Family :=
  (a.input.run.gather (a.gauges s)).toOption.getD []

/-- What is assumed of the first `Gather`: the families are sorted by name, and under the names of
the scraper's gauges there is nothing else. A metric of the prober under such a name would be. -/
structure Occasion.Owns (a : Occasion) : Prop where
  sorted : (a.families s).Pairwise fun mf mf' ↦ mf.name ≤ mf'.name
  own : ∀ gauge ∈ a.gauges s, named gauge.name (a.families s) = [gauge]

/-- The duration that a collection should tell: that of the script where the prober tells one. -/
def Occasion.told (a : Occasion) : Float64 :=
  (scriptDuration (a.families s)).getD a.input.run.reported

/-- A collection on an occasion. -/
def ScraperConfig.collectOn (x : Deriving) (a : Occasion) :
    Deriving × Except CollectFailure Collected :=
  s.collectDataWith formats client basicMetricsOnly a.clock a.t a.input x

/-- The state from one collection to the next. -/
def CollectStep (x : Deriving) (a : Occasion) (x' : Deriving) : Prop :=
  x' = (s.collectOn formats client basicMetricsOnly x a).1

/-- What is collected tells one result and one duration. -/
structure Coherent (a : Occasion) (c : Collected) : Prop where
  success : OneSample c.ts probeSuccessMetricName a.t
    (if a.input.run.success then .ofUInt64 1 else .zero)
  duration : OneSample c.ts durationName a.t (a.told s)
  info : OneSample c.ts checkInfoMetricName a.t (.ofUInt64 1)
  /-- the duration of the telemetry is that of the series -/
  told : c.duration = Int64.ofInt (a.told s).toInt64Nanos
  /-- the log labels within the limit are in the stream, the others in every entry -/
  stream : ∃ tenant kept overflow, a.input.logLabels = .ok tenant ∧
    kept ++ overflow = s.logLabels (labelModeForTenant a.input.labelMode) ∧
    (kept.length : Int) + 1 ≤ (tenantLogLabels tenant).toInt ∧
    c.stream.labels = fmtLabels (kept ++ [probeSuccessLabel a.input.run.success]) ∧
    ∀ entry ∈ c.stream.entries,
      entry.structuredMetadata = overflow ++ [executionIdLabel a.input.executionID]
  /-- it is a collection as the handler sees it -/
  refines : ∃ metrics, collectData s.toTypedCheck
      (.probed a.input.run.success metrics [c.stream.toStream] c.duration) a.t =
    (some ⟨c.tenantId, c.ts, [c.stream.toStream]⟩, c.duration,
      if c.failed then some .checkFailed else none)

variable {formats client basicMetricsOnly s} {x : Deriving} {a : Occasion} {c : Collected}

private theorem collectOn_eq_ok
    (h : (s.collectOn formats client basicMetricsOnly x a).2 = .ok c) :
    ∃ tenant mfs, a.input.logLabels = .ok tenant ∧
      (getProbeMetrics client basicMetricsOnly (a.families s) x).2 = .ok mfs ∧
      s.assemble formats a.clock a.t a.input (labelModeForTenant a.input.labelMode)
        (tenantLogLabels tenant).toInt mfs = .ok c := by
  unfold ScraperConfig.collectOn ScraperConfig.collectDataWith at h
  dsimp only at h
  split at h
  · cases h
  · split at h
    · cases h
    · next tenant htenant =>
      split at h
      · cases h
      · split at h
        · cases h
        · split at h
          · cases h
          · next mfs hgather =>
            have hfamilies : a.families s = mfs := by
              rw [Occasion.families, Occasion.gauges, hgather]
              rfl
            split at h
            · cases h
            · next out hout =>
              rw [hfamilies, hout]
              cases hassemble : s.assemble formats a.clock a.t a.input
                  (labelModeForTenant a.input.labelMode) (tenantLogLabels tenant).toInt out with
              | error p =>
                rw [hassemble] at h
                cases h
              | ok c' =>
                rw [hassemble] at h
                cases h
                exact ⟨tenant, out, htenant, rfl, hassemble⟩

private theorem DerivedOnly.collectOn (h : DerivedOnly x.accumulators) :
    DerivedOnly (s.collectOn formats client basicMetricsOnly x a).1.accumulators := by
  unfold ScraperConfig.collectOn ScraperConfig.collectDataWith
  dsimp only
  split
  · exact h
  · split
    · exact h
    · split
      · exact h
      · split
        · exact h
        · split
          · exact h
          · next mfs _ =>
            have hkept := h.getProbeMetrics client basicMetricsOnly mfs
            split
            · next heq =>
              rw [heq] at hkept
              exact hkept
            · next heq =>
              rw [heq] at hkept
              exact hkept

private theorem derivedOnly_of_runs {as : List Occasion}
    (h : Runs (CollectStep formats client basicMetricsOnly s) {} as x) :
    DerivedOnly x.accumulators := by
  suffices hinv : (fun y : Deriving ↦ DerivedOnly y.accumulators) x from hinv
  apply h.invariant _ derivedOnly_init
  rintro x a x' hx rfl
  exact DerivedOnly.collectOn hx

private theorem splitLogLabels_parts {logLabels kept overflow : List LabelPair} {maxLogLabels : Int}
    (h : splitLogLabels logLabels maxLogLabels = .ok (kept, overflow)) :
    kept ++ overflow = logLabels ∧ (kept.length : Int) + 1 ≤ maxLogLabels := by
  unfold splitLogLabels at h
  dsimp only at h
  split at h
  · split at h
    · cases h
    · cases h
      refine ⟨List.take_append_drop _ _, ?_⟩
      rw [List.length_take]
      omega
  · cases h
    refine ⟨List.append_nil _, ?_⟩
    omega

/-- What every payload is, after any collections of a scraper: failed ones, and ones under another
clock, label mode or limit included. -/
theorem coherent_of_runs {add : Float64 → Float64 → Float64} {as : List Occasion}
    (hclient : client.Lawful add)
    (h : Runs (CollectStep formats client basicMetricsOnly s) {} as x) (howns : a.Owns s)
    (hc : (s.collectOn formats client basicMetricsOnly x a).2 = .ok c) : Coherent s a c := by
  obtain ⟨tenant, mfs, htenant, hmfs, hassemble⟩ := collectOn_eq_ok hc
  obtain ⟨derived, rfl, hderived⟩ := derived_getProbeMetrics hclient (derivedOnly_of_runs h) hmfs
  obtain ⟨hown, hothers⟩ := List.forall_mem_cons.mp howns.own
  obtain ⟨hinfo, hothers⟩ := List.forall_mem_cons.mp hothers
  have hmeasured := List.forall_mem_singleton.mp hothers
  obtain ⟨patched, hpatch, hduration, hothers⟩ :=
    patchDuration_gathered howns.sorted hmeasured hderived
  rw [ScraperConfig.assemble, hpatch] at hassemble
  dsimp only at hassemble
  split at hassemble
  · cases hassemble
  · next kept overflow hsplit =>
    cases hassemble
    obtain ⟨hparts, hlimit⟩ := splitLogLabels_parts hsplit
    obtain ⟨metrics, hmetrics⟩ := extractTimeseries_eq_map formats.float a.t
      (s.executionMetricLabels (labelModeForTenant a.input.labelMode))
      (patched.map Family.toMetricFamily)
    exact
      { success := oneSample_gaugeFamily _ _ _ (by decide)
          ((hothers _ (by decide) (by decide)).trans hown)
        duration := oneSample_gaugeFamily _ _ _ (by decide) hduration
        info := oneSample_gaugeFamily _ _ _ (by decide)
          ((hothers _ (by decide) (by decide)).trans hinfo)
        told := rfl
        stream := by
          refine ⟨tenant, kept, overflow, htenant, hparts, hlimit, rfl, fun entry h ↦ ?_⟩
          obtain ⟨record, -, hentry⟩ := List.mem_filterMap.mp h
          obtain ⟨st, -, rfl⟩ := Option.map_eq_some_iff.mp hentry
          rfl
        refines := by
          refine ⟨metrics, ?_⟩
          rw [collectData, ← hmetrics]
          cases a.input.run.success <;> rfl }

end Collections

/-- Formats for sample runs. -/
private def sampleFormats : Formats := ⟨.unary, .unary, fun _ ↦ [], fun _ ↦ []⟩

/-- An occasion on which the script of a check tells that it took two seconds. -/
private def scriptOccasion (success : Bool) : Occasion where
  clock := .wall 0
  t := 5000000
  input :=
    { labelMode := .ok {}, metricLabels := .ok {}, logLabels := .ok {}, geohash := []
      executionID := .lit "e"
      run :=
        { success, duration := .zero
          mustRegister := fun _ ↦ .ok ()
          gather := fun gauges ↦
            .ok ((gaugeFamily scriptDurationName [] [] (.ofUInt64 2) :: gauges).insertionSort
              fun mf mf' ↦ mf.name ≤ mf'.name)
          calls := [], wallDuration := .ofUInt64 3
          wallStart := 1, begun := 2, ended := 3, finished := 4 } }

/-- A failure and then a success of a script. -/
theorem coherent_afterFailure :
    ∃ s x c, Runs (CollectStep sampleFormats (.sample addWhole) true s) {} [scriptOccasion false]
        x ∧ (s.collectOn sampleFormats (.sample addWhole) true x (scriptOccasion true)).2 = .ok c ∧
      (scriptOccasion true).told s = .ofUInt64 2 ∧ Coherent s (scriptOccasion true) c := by
  let s := labelledScript [] []
  let x := (s.collectOn sampleFormats (.sample addWhole) true {} (scriptOccasion false)).1
  have hruns : Runs (CollectStep sampleFormats (.sample addWhole) true s) {}
      [scriptOccasion false] x :=
    .cons rfl (.nil _)
  have howns : (scriptOccasion true).Owns s := by
    constructor <;> decide +kernel
  have hok : (s.collectOn sampleFormats (.sample addWhole) true x
      (scriptOccasion true)).2.isOk = true := by
    decide +kernel
  cases hc : (s.collectOn sampleFormats (.sample addWhole) true x (scriptOccasion true)).2 with
  | error e =>
    rw [hc] at hok
    cases hok
  | ok c =>
    exact ⟨s, x, c, hruns, hc, by decide +kernel,
      coherent_of_runs (lawful_sample addWhole) hruns howns hc⟩

end SMAgent.Scraper
