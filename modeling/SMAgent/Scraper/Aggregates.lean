import SMAgent.Base.Run
import SMAgent.Scraper.Derived

/-!
# What the derived metrics say

The accumulators of a scraper refine the history of its observations: after any number of scrapes,
also of failed ones, a derived metric that is gathered counts and sums all values of its series that
were ever observed. The fingerprints of the series at hand must be distinct, and the client must
tell of an accumulator what it has observed. `add` is the addition of `float64`.
-/

namespace SMAgent.Scraper
open SMAgent.Base
open GoString (lit byte)

/-! ### What is assumed of the client -/

/-- What a derived metric is to say about the values of its series. -/
def aggregate (bounds : List Float64) (add : Float64 → Float64 → Float64) (kind : Derivation)
    (labels : List Label) (values : List Float64) : Metric :=
  match kind with
  | .summary =>
    { label := labels
      summary := some ⟨UInt64.ofNat values.length, values.foldl add .zero, []⟩ }
  | .histogram =>
    { label := labels
      histogram := some ⟨UInt64.ofNat values.length, values.foldl add .zero,
        some (bounds.map fun b ↦ ⟨UInt64.ofNat (values.countP fun v ↦ b.ge v), b⟩)⟩ }

/-- The metrics of some families, each with the name and the type of its family. -/
def metricsOf (mfs : List Family) : List (GoString × MetricType × Metric) :=
  mfs.flatMap fun mf ↦ mf.metric.map fun m ↦ (mf.name, mf.type, m)

/-- The label that a summary or a histogram has of its own. -/
def Derivation.reserved : Derivation → GoString
  | .summary => .lit "quantile"
  | .histogram => .lit "le"

/-- The label names and the help text agree. -/
def Desc.SameDim (d d' : Desc) : Prop :=
  d.labels.map Label.name = d'.labels.map Label.name ∧ d.help = d'.help

instance (d d' : Desc) : Decidable (d.SameDim d') := inferInstanceAs (Decidable (_ ∧ _))

/-- Two descriptors that can be registered together. -/
def Desc.Apart (d d' : Desc) : Prop :=
  d.name = d'.name → d.SameDim d' ∧ d.labels ≠ d'.labels

instance (d d' : Desc) : Decidable (d.Apart d') := inferInstanceAs (Decidable (_ → _))

/-- Two accumulators that can be gathered together: a name has one type, and none of the names is
that of a part of the other. -/
def Accumulator.Compatible (r r' : Accumulator) : Prop :=
  (r.desc.name = r'.desc.name → r.kind = r'.kind) ∧
    ∀ suffix ∈ [lit "_count", .lit "_sum", .lit "_bucket"],
      r.desc.name ≠ r'.desc.name ++ suffix ∧ r'.desc.name ≠ r.desc.name ++ suffix

/-- The client does not register a series twice, and tells of every accumulator what it has
observed. It makes a summary or a histogram without a reserved label, registers what is valid and
apart from what is registered, and gathers what is valid and fits together. -/
structure Client.Lawful (client : Client) (add : Float64 → Float64 → Float64) : Prop where
  registered : ∀ {rs r}, client.register rs r = .ok () →
    ∀ r' ∈ rs, r'.desc.name = r.desc.name → r'.desc.labels ≠ r.desc.labels
  gathered : ∀ {rs mfs}, client.gather rs = .ok mfs → (metricsOf mfs).Perm (rs.map fun r ↦
    (r.desc.name, r.kind.type, aggregate client.defBuckets add r.kind r.desc.labels r.values))
  named : ∀ {rs mfs}, client.gather rs = .ok mfs → ∀ mf ∈ mfs, ∃ r ∈ rs, r.desc.name = mf.name
  makes : ∀ {kind desc}, (∀ l ∈ desc.labels, l.name ≠ kind.reserved) →
    client.new kind desc = .ok ()
  registers : ∀ {rs r}, client.Legal r.desc → (∀ r' ∈ rs, r'.desc.Apart r.desc) →
    client.register rs r = .ok ()
  gathers : ∀ {rs}, (∀ r ∈ rs, client.Legal r.desc) →
    (rs.Pairwise fun r r' ↦ r.desc.Apart r'.desc) → rs.Pairwise Accumulator.Compatible →
    ∃ mfs, client.gather rs = .ok mfs

variable {client : Client} {add : Float64 → Float64 → Float64}

/-! ### What a scrape observes -/

/-- The values that a family gives, in the order in which they are observed. -/
def derive (basicMetricsOnly : Bool) (mf : Family) : List Observation :=
  let observations (kind : Derivation) (name : GoString) :=
    mf.metric.map fun m ↦ ⟨kind, name, mf.help, m.label, m.counter <|> m.gauge⟩
  if mf.type = .gauge ∧ mf.name = probeSuccessMetricName then
    observations .summary (.lit "probe_all_success")
  else if mf.type = .gauge then
    if mf.name ≠ .lit "probe_duration_seconds" ∧ basicMetricsOnly then []
    else match allName mf.name with
      | none => []
      | some derivedMetricName => observations .histogram derivedMetricName
  else []

private theorem deriveFamily_eq (basicMetricsOnly : Bool) (x : Deriving) (mf : Family) :
    deriveFamily client basicMetricsOnly x mf =
      (derive basicMetricsOnly mf).foldlM (updateFromMetric client) x := by
  unfold deriveFamily derive
  dsimp only
  split
  · rw [List.foldlM_map]
    rfl
  · split
    · split
      · rfl
      · cases allName mf.name with
        | none => rfl
        | some derivedMetricName =>
          dsimp only
          rw [List.foldlM_map]
          rfl
    · rfl

/-- The nested loops are one loop over the values. -/
theorem getDerivedMetrics_eq (basicMetricsOnly : Bool) (mfs : List Family) (x : Deriving) :
    getDerivedMetrics client basicMetricsOnly mfs x =
      (mfs.flatMap (derive basicMetricsOnly)).foldlM (updateFromMetric client) x := by
  induction mfs generalizing x with
  | nil => rfl
  | cons mf mfs ih =>
    rw [List.flatMap_cons, List.foldlM_append, getDerivedMetrics, List.foldlM_cons,
      deriveFamily_eq]
    congr 1
    funext y
    exact ih y

/-- What the names of the derived histograms end in. -/
def allSuffixes : List GoString := [.lit "_all_duration_seconds", .lit "_all_time_seconds"]

/-- The names of the derived metrics. -/
def Observation.Named (o : Observation) : Prop :=
  o.kind = .summary ∧ o.name = .lit "probe_all_success" ∨
    o.kind = .histogram ∧ ∃ suffix ∈ allSuffixes, suffix <:+ o.name

private theorem allName_suffix {name derived : GoString} (h : allName name = some derived) :
    ∃ suffix ∈ allSuffixes, suffix <:+ derived := by
  obtain ⟨suffix, hsuffix, hsome⟩ := List.exists_of_findSome?_eq_some h
  have hall : ∀ suffix ∈ [lit "_duration_seconds", .lit "_time_seconds"],
      lit "_all" ++ suffix ∈ allSuffixes := by decide
  split at hsome
  · cases hsome
    rw [List.append_assoc]
    exact ⟨_, hall suffix hsuffix, List.suffix_append _ _⟩
  · cases hsome

/-- Every value is observed under a derived name. -/
theorem named_of_mem_derive {basicMetricsOnly : Bool} {mf : Family} {o : Observation}
    (h : o ∈ derive basicMetricsOnly mf) : o.Named := by
  unfold derive at h
  dsimp only at h
  split at h
  · obtain ⟨m, -, rfl⟩ := List.mem_map.mp h
    exact .inl ⟨rfl, rfl⟩
  · split at h
    · split at h
      · cases h
      · split at h
        · cases h
        · next derived hderived =>
          obtain ⟨m, -, rfl⟩ := List.mem_map.mp h
          exact .inr ⟨rfl, allName_suffix hderived⟩
    · cases h

private theorem Observation.Named.kind_eq {o o' : Observation} (h : o.Named) (h' : o'.Named)
    (hname : o.name = o'.name) : o.kind = o'.kind := by
  have hne : ∀ suffix ∈ allSuffixes, ¬ suffix <:+ lit "probe_all_success" := by decide
  rcases h with ⟨hkind, hsummary⟩ | ⟨hkind, suffix, hsuffix, hends⟩ <;>
    rcases h' with ⟨hkind', hsummary'⟩ | ⟨hkind', suffix', hsuffix', hends'⟩
  · rw [hkind, hkind']
  · rw [← hname, hsummary] at hends'
    exact absurd hends' (hne suffix' hsuffix')
  · rw [hname, hsummary'] at hends
    exact absurd hends (hne suffix hsuffix)
  · rw [hkind, hkind']

-- Every derived name ends in an `s`, and no name of a part of a metric does.
private theorem Observation.Named.ne_append {o : Observation} (h : o.Named) (name : GoString) :
    ∀ part ∈ [lit "_count", .lit "_sum", .lit "_bucket"], o.name ≠ name ++ part := by
  have hsuffixes : ∀ suffix ∈ allSuffixes, suffix.getLast? = some (byte 's') := by decide
  have hparts : ∀ part ∈ [lit "_count", .lit "_sum", .lit "_bucket"],
      part.getLast?.isSome ∧ part.getLast? ≠ some (byte 's') := by decide
  have hlast : o.name.getLast? = some (byte 's') := by
    rcases h with ⟨-, hname⟩ | ⟨-, suffix, hsuffix, front, hname⟩
    · rw [hname]
      decide
    · rw [← hname, List.getLast?_append, hsuffixes suffix hsuffix]
      rfl
  intro part hpart hname
  obtain ⟨hsome, hne⟩ := hparts part hpart
  rw [hname, List.getLast?_append, Option.or_of_isSome hsome] at hlast
  exact hne hlast

/-! ### The history of a series -/

/-- Two observations of one series. -/
def Observation.Same (o o' : Observation) : Prop :=
  o.kind = o'.kind ∧ o.name = o'.name ∧ o.labels = o'.labels

instance (o o' : Observation) : Decidable (o.Same o') := inferInstanceAs (Decidable (_ ∧ _))

private theorem Observation.Same.symm {o o' : Observation} (h : o.Same o') : o'.Same o :=
  ⟨h.1.symm, h.2.1.symm, h.2.2.symm⟩

private theorem Observation.Same.trans {o o' o'' : Observation} (h : o.Same o')
    (h' : o'.Same o'') : o.Same o'' :=
  ⟨h.1.trans h'.1, h.2.1.trans h'.2.1, h.2.2.trans h'.2.2⟩

private theorem Observation.Same.collector {o o' : Observation} (h : o.Same o') :
    o.collector client = o'.collector client := by
  rw [Observation.collector, Observation.collector, h.1, h.2.1, h.2.2]

/-- The fingerprints tell the series apart. -/
def Distinct (client : Client) (os : List Observation) : Prop :=
  ∀ o ∈ os, ∀ o' ∈ os, o.collector client = o'.collector client → o.Same o'

/-- The values of the series of an observation. -/
def values (history : List Observation) (o : Observation) : List Float64 :=
  (history.filter fun o' ↦ o'.Same o).filterMap Observation.value

private theorem values_concat (history : List Observation) (o o' : Observation) :
    values (history ++ [o']) o = values history o ++ if o'.Same o then o'.value.toList else [] := by
  rw [values, List.filter_append, List.filterMap_append]
  congr 1
  split
  · next h => cases hv : o'.value <;> simp [h, hv]
  · next h => simp [h]

private theorem values_congr {o o' : Observation} (h : o.Same o') (history : List Observation) :
    values history o = values history o' := by
  unfold values
  congr 2
  funext o''
  exact decide_eq_decide.mpr ⟨fun h' ↦ h'.trans h, fun h' ↦ h'.trans h.symm⟩

/-- The accumulators hold the history of the series at hand, and each was made for its series. -/
structure Accumulates (client : Client) (os : List Observation) (x : Deriving) : Prop where
  distinct : Distinct client os
  absent : ∀ o ∈ os, x.accumulators.find (o.collector client) = none → values x.observed o = []
  present : ∀ o ∈ os, ∀ acc, x.accumulators.find (o.collector client) = some acc →
    ∃ o' ∈ os, o'.Same o ∧ acc = ⟨o.kind, o'.desc, values x.observed o⟩

/-- A look-up after a store. -/
theorem find_store (accs : Accumulators) (c c' : Collector) (acc : Accumulator) :
    (accs.store c acc).find c' = if c' = c then some acc else accs.find c' := by
  obtain ⟨kind, hash⟩ := c
  obtain ⟨kind', hash'⟩ := c'
  cases kind <;> cases kind' <;>
    simp [Accumulators.store, Accumulators.find, GoMap.lookup_insert_eq]

variable {os : List Observation} {x : Deriving} {o : Observation}

/-- What is obtained for an observation is found then, and what was found still is. It was there, or
it is new. -/
theorem obtain_eq_ok {accs accs' : Accumulators} {acc : Accumulator}
    (h : accs.obtain client o = .ok (accs', acc)) :
    accs'.find (o.collector client) = some acc ∧
      (∀ c r, accs.find c = some r → accs'.find c = some r) ∧
      (accs' = accs ∨ accs.find (o.collector client) = none ∧ acc = ⟨o.kind, o.desc, []⟩ ∧
        accs' = accs.store (o.collector client) acc) := by
  unfold Accumulators.obtain at h
  split at h
  · next hfound =>
    cases h
    exact ⟨hfound, fun _ _ hr ↦ hr, .inl rfl⟩
  · next hnone =>
    split at h
    · cases h
    · cases h
      refine ⟨by rw [find_store, if_pos rfl], ?_, .inr ⟨hnone, rfl, rfl⟩⟩
      intro c r hr
      rw [find_store, if_neg, hr]
      rintro rfl
      cases hnone.symm.trans hr

private theorem Accumulates.obtain (h : Accumulates client os x) (ho : o ∈ os)
    {accs : Accumulators} {acc : Accumulator}
    (hacc : x.accumulators.obtain client o = .ok (accs, acc)) :
    Accumulates client os { x with accumulators := accs } := by
  obtain ⟨-, -, rfl | ⟨hnone, rfl, rfl⟩⟩ := obtain_eq_ok hacc
  · exact { h with }
  · refine ⟨h.distinct, ?_, ?_⟩
    · intro o' ho' hlookup
      rw [find_store] at hlookup
      split at hlookup
      · cases hlookup
      · exact h.absent o' ho' hlookup
    · intro o' ho' acc hlookup
      rw [find_store] at hlookup
      split at hlookup
      · next hsame =>
        cases hlookup
        have hsame' := h.distinct o' ho' o ho hsame
        refine ⟨o, ho, hsame'.symm, ?_⟩
        rw [hsame'.1]
        show _ = Accumulator.mk _ _ (values x.observed o')
        rw [values_congr hsame', h.absent o ho hnone]
      · exact h.present o' ho' acc hlookup

private theorem Accumulates.observe (h : Accumulates client os x) (ho : o ∈ os) {value : Float64}
    (hvalue : o.value = some value) {acc : Accumulator}
    (hacc : x.accumulators.find (o.collector client) = some acc) (registry : List Collector) :
    Accumulates client os
      { accumulators := x.accumulators.store (o.collector client) (acc.observe value)
        registry
        observed := x.observed ++ [o] } where
  distinct := h.distinct
  absent := by
    intro p hp hlookup
    rw [find_store] at hlookup
    split at hlookup
    · cases hlookup
    · next hne =>
      rw [values_concat, if_neg, List.append_nil]
      · exact h.absent p hp hlookup
      · intro hop
        exact hne hop.collector.symm
  present := by
    intro p hp acc' hlookup
    rw [find_store] at hlookup
    split at hlookup
    · next heq =>
      cases hlookup
      have hpo := h.distinct p hp o ho heq
      obtain ⟨o', ho', hsame, rfl⟩ := h.present o ho acc hacc
      refine ⟨o', ho', hsame.trans hpo.symm, ?_⟩
      rw [values_concat, if_pos hpo.symm, hvalue, Option.toList_some, Accumulator.observe,
        values_congr hpo, hpo.1]
    · next hne =>
      obtain ⟨o', ho', hsame, hacc'⟩ := h.present p hp acc' hlookup
      refine ⟨o', ho', hsame, ?_⟩
      rw [values_concat, if_neg, List.append_nil]
      · exact hacc'
      · intro hop
        exact hne hop.collector.symm

/-! ### One scrape -/

/-- No series is there twice. -/
def Once (ps : List Observation) : Prop :=
  ps.Pairwise fun o o' ↦ o.name = o'.name → o.labels ≠ o'.labels

/-- After the observations `ps` of a scrape that began with the history `history`. -/
structure Scraping (client : Client) (os history ps : List Observation) (x : Deriving) : Prop where
  accumulates : Accumulates client os x
  mem : ∀ o ∈ ps, o ∈ os
  observed : x.observed = history ++ ps
  registry : x.registry = ps.map (Observation.collector client)
  kept : ∀ o ∈ ps, ∃ acc, x.accumulators.find (o.collector client) = some acc
  once : Once ps

variable {history ps : List Observation}

private theorem updateFromMetric_eq_ok {x' : Deriving} (h : updateFromMetric client x o = .ok x') :
    ∃ value accs acc, o.value = some value ∧ x.accumulators.obtain client o = .ok (accs, acc) ∧
      client.register (accs.registered x.registry) acc = .ok () ∧
      x' = { accumulators := accs.store (o.collector client) (acc.observe value)
             registry := x.registry ++ [o.collector client]
             observed := x.observed ++ [o] } := by
  unfold updateFromMetric at h
  split at h
  · cases h
  · next value hvalue =>
    split at h
    · cases h
    · next accs acc hobtain =>
      split at h
      · cases h
      · next hregister =>
        cases h
        exact ⟨value, accs, acc, hvalue, hobtain, hregister, rfl⟩

private theorem Scraping.mem_registered (h : Scraping client os history ps x) {accs : Accumulators}
    (haccs : ∀ c r, x.accumulators.find c = some r → accs.find c = some r) {r : Accumulator} :
    r ∈ accs.registered x.registry ↔ ∃ o ∈ ps, accs.find (o.collector client) = some r ∧
      ∃ o' ∈ os, o'.Same o ∧ r = ⟨o.kind, o'.desc, values x.observed o⟩ := by
  rw [Accumulators.registered, h.registry, List.mem_filterMap]
  constructor
  · rintro ⟨c, hc, hr⟩
    obtain ⟨o, ho, rfl⟩ := List.mem_map.mp hc
    obtain ⟨acc, hacc⟩ := h.kept o ho
    obtain rfl := Option.some.inj ((haccs _ _ hacc).symm.trans hr)
    exact ⟨o, ho, hr, h.accumulates.present o (h.mem o ho) acc hacc⟩
  · rintro ⟨o, ho, hr, -⟩
    exact ⟨_, List.mem_map_of_mem ho, hr⟩

private theorem Scraping.update (hclient : client.Lawful add)
    (h : Scraping client os history ps x) (ho : o ∈ os) {x' : Deriving}
    (hx' : updateFromMetric client x o = .ok x') :
    Scraping client os history (ps ++ [o]) x' := by
  obtain ⟨value, accs, acc, hvalue, hobtain, hregister, rfl⟩ := updateFromMetric_eq_ok hx'
  obtain ⟨hfind, hkept, -⟩ := obtain_eq_ok hobtain
  have haccumulates := h.accumulates.obtain ho hobtain
  refine ⟨haccumulates.observe ho hvalue hfind _, ?_, ?_, ?_, ?_, ?_⟩
  · exact List.forall_mem_append.mpr ⟨h.mem, List.forall_mem_singleton.mpr ho⟩
  · show x.observed ++ [o] = _
    rw [h.observed, List.append_assoc]
  · show x.registry ++ [o.collector client] = _
    rw [h.registry, List.map_append, List.map_singleton]
  · intro p hp
    show ∃ _, (accs.store _ _).find _ = _
    rw [find_store]
    split
    · exact ⟨_, rfl⟩
    · next hne =>
      rcases List.mem_append.mp hp with hp | hp
      · obtain ⟨r, hr⟩ := h.kept p hp
        exact ⟨r, hkept _ _ hr⟩
      · rw [List.mem_singleton.mp hp] at hne
        exact absurd rfl hne
  · refine List.pairwise_append.mpr ⟨h.once, List.pairwise_singleton _ _, ?_⟩
    intro p hp q hq hname hlabels
    rw [List.mem_singleton.mp hq] at hname hlabels
    -- the registry has the accumulator of `p`, and has taken that of `o` beside it
    obtain ⟨r, hr⟩ := h.kept p hp
    obtain ⟨p', hp', hsame, rfl⟩ := h.accumulates.present p (h.mem p hp) r hr
    obtain ⟨o', ho', hsame', rfl⟩ := haccumulates.present o ho acc hfind
    have hmem := (h.mem_registered hkept).mpr ⟨p, hp, hkept _ _ hr, p', hp', hsame, rfl⟩
    refine hclient.registered hregister _ hmem ?_ ?_
    · exact hsame.2.1.trans (hname.trans hsame'.2.1.symm)
    · exact hsame.2.2.trans (hlabels.trans hsame'.2.2.symm)

private theorem Accumulates.update_error (h : Accumulates client os x) (ho : o ∈ os)
    {x' : Deriving} {stop : Stop} (hx' : updateFromMetric client x o = .error (x', stop)) :
    Accumulates client os x' ∧ x'.observed = x.observed := by
  unfold updateFromMetric at hx'
  split at hx'
  · cases hx'
    exact ⟨h, rfl⟩
  · split at hx'
    · cases hx'
      exact ⟨h, rfl⟩
    · next accs acc hobtain =>
      split at hx'
      · cases hx'
        exact ⟨h.obtain ho hobtain, rfl⟩
      · cases hx'

private theorem Scraping.foldlM (hclient : client.Lawful add) (h : Scraping client os history ps x)
    {qs : List Observation} (hqs : ∀ o ∈ qs, o ∈ os) :
    (∀ x', qs.foldlM (updateFromMetric client) x = .ok x' →
      Scraping client os history (ps ++ qs) x') ∧
    (∀ x' stop, qs.foldlM (updateFromMetric client) x = .error (x', stop) →
      Accumulates client os x' ∧ ∃ done, done <+: qs ∧ x'.observed = history ++ (ps ++ done)) := by
  induction qs generalizing x ps with
  | nil =>
    refine ⟨?_, nofun⟩
    intro x' hx'
    cases hx'
    rw [List.append_nil]
    exact h
  | cons o qs ih =>
    obtain ⟨ho, hqs⟩ := List.forall_mem_cons.mp hqs
    rw [List.foldlM_cons]
    cases hupdate : updateFromMetric client x o with
    | error e =>
      refine ⟨nofun, ?_⟩
      intro x' stop heq
      cases heq
      obtain ⟨haccumulates, hobserved⟩ := h.accumulates.update_error ho hupdate
      refine ⟨haccumulates, [], List.nil_prefix, ?_⟩
      rw [hobserved, h.observed, List.append_nil]
    | ok y =>
      obtain ⟨hok, herror⟩ := ih (h.update hclient ho hupdate) hqs
      have hassoc (rs : List Observation) : ps ++ [o] ++ rs = ps ++ o :: rs := by
        rw [List.append_assoc]
        rfl
      constructor
      · intro x' hx'
        rw [← hassoc]
        exact hok x' hx'
      · intro x' stop hx'
        obtain ⟨haccumulates, done, hdone, hobserved⟩ := herror x' stop hx'
        refine ⟨haccumulates, o :: done, List.cons_prefix_cons.mpr ⟨rfl, hdone⟩, ?_⟩
        rw [hobserved, hassoc]

/-! ### What is gathered -/

/-- The derived families of a scrape that observed `ps`, given all that was observed so far: no
series is there twice, and the metrics are one for each series, which tells all of its values. -/
structure Aggregated (client : Client) (add : Float64 → Float64 → Float64)
    (observed ps : List Observation) (out : List Family) : Prop where
  once : Once ps
  metrics : (metricsOf out).Perm (ps.map fun o ↦
    (o.name, o.kind.type, aggregate client.defBuckets add o.kind o.labels (values observed o)))

private theorem Scraping.aggregated (hclient : client.Lawful add)
    (h : Scraping client os history ps x) {out : List Family}
    (hout : client.gather (x.accumulators.registered x.registry) = .ok out) :
    Aggregated client add x.observed ps out where
  once := h.once
  metrics := by
    refine (hclient.gathered hout).trans (.of_eq ?_)
    rw [Accumulators.registered, h.registry, List.filterMap_map, List.map_filterMap]
    rw [← List.filterMap_eq_map]
    refine List.filterMap_congr fun o ho ↦ ?_
    obtain ⟨acc, hacc⟩ := h.kept o ho
    obtain ⟨o', -, hsame, rfl⟩ := h.accumulates.present o (h.mem o ho) acc hacc
    show (x.accumulators.find (o.collector client)).map _ = _
    rw [hacc, Option.map_some]
    show some (o'.name, o.kind.type, aggregate client.defBuckets add o.kind o'.labels _) = _
    rw [hsame.2.1, hsame.2.2]
    rfl

/-! ### When a scrape succeeds -/

/-- The observations of a scrape fit together: they are gauges without reserved labels, no series is
there twice, names and labels are valid, and a name stands for one help text and one list of label
names, now and in all scrapes before, whose observations `os` has as well. -/
structure Regular (client : Client) (os ps : List Observation) : Prop where
  value : ∀ o ∈ ps, o.value.isSome
  labels : ∀ o ∈ ps, ∀ l ∈ o.labels, l.name ≠ o.kind.reserved
  once : Once ps
  legal : ∀ o ∈ os, client.Legal o.desc
  dims : ∀ o ∈ os, ∀ o' ∈ os, o.name = o'.name → o.desc.SameDim o'.desc

-- Accumulators of different series of regular observations are apart.
private theorem Regular.apart (hreg : Regular client os ps) {o o' p p' : Observation}
    (hne : p.name = o.name → p.labels ≠ o.labels) (hp' : p' ∈ os) (hsame : p'.Same p)
    (ho' : o' ∈ os) (hsame' : o'.Same o) : p'.desc.Apart o'.desc := by
  intro hname
  have hpo : p.name = o.name := hsame.2.1.symm.trans (Eq.trans hname hsame'.2.1)
  refine ⟨hreg.dims p' hp' o' ho' hname, ?_⟩
  intro hlabels
  exact hne hpo (hsame.2.2.symm.trans (Eq.trans hlabels hsame'.2.2))

private theorem Scraping.update_ok (hclient : client.Lawful add)
    (h : Scraping client os history ps x) (ho : o ∈ os) (hreg : Regular client os (ps ++ [o])) :
    ∃ x', updateFromMetric client x o = .ok x' := by
  have hmem : o ∈ ps ++ [o] := List.mem_append_right _ List.mem_cons_self
  obtain ⟨value, hvalue⟩ := Option.isSome_iff_exists.mp (hreg.value o hmem)
  have hobtain : ∃ accs acc, x.accumulators.obtain client o = .ok (accs, acc) := by
    unfold Accumulators.obtain
    split
    · exact ⟨_, _, rfl⟩
    · rw [hclient.makes (hreg.labels o hmem)]
      exact ⟨_, _, rfl⟩
  obtain ⟨accs, acc, hobtain⟩ := hobtain
  obtain ⟨hfind, hkept, -⟩ := obtain_eq_ok hobtain
  obtain ⟨o', ho', hsame, rfl⟩ := (h.accumulates.obtain ho hobtain).present o ho acc hfind
  have hapart : ∀ r ∈ accs.registered x.registry, r.desc.Apart o'.desc := by
    intro r hr
    obtain ⟨p, hp, -, p', hp', hsame', rfl⟩ := (h.mem_registered hkept).mp hr
    have hne := (List.pairwise_append.mp hreg.once).2.2 p hp o List.mem_cons_self
    exact hreg.apart hne hp' hsame' ho' hsame
  have hregister : client.register (accs.registered x.registry)
      ⟨o.kind, o'.desc, values x.observed o⟩ = .ok () :=
    hclient.registers (hreg.legal o' ho') hapart
  unfold updateFromMetric
  rw [hvalue, hobtain]
  dsimp only
  rw [hregister]
  exact ⟨_, rfl⟩

private theorem Scraping.foldlM_ok (hclient : client.Lawful add)
    (h : Scraping client os history [] x) (hps : ∀ o ∈ ps, o ∈ os)
    (hreg : Regular client os ps) : ∃ x', ps.foldlM (updateFromMetric client) x = .ok x' := by
  induction ps using List.reverseRecOn with
  | nil => exact ⟨x, rfl⟩
  | append_singleton ps o ih =>
    obtain ⟨hps', ho⟩ := List.forall_mem_append.mp hps
    have hreg' : Regular client os ps :=
      { hreg with
        value := fun p hp ↦ hreg.value p (List.mem_append_left _ hp)
        labels := fun p hp ↦ hreg.labels p (List.mem_append_left _ hp)
        once := (List.pairwise_append.mp hreg.once).1 }
    obtain ⟨y, hy⟩ := ih hps' hreg'
    have hscraping := (h.foldlM hclient hps').1 y hy
    obtain ⟨x', hx'⟩ := hscraping.update_ok hclient (ho o List.mem_cons_self) hreg
    exact ⟨x', (Runs.foldlM_concat hy o).trans hx'⟩

private theorem Scraping.gather_ok (hclient : client.Lawful add)
    (h : Scraping client os history ps x) (hnamed : ∀ o ∈ os, o.Named)
    (hreg : Regular client os ps) :
    ∃ mfs, client.gather (x.accumulators.registered x.registry) = .ok mfs := by
  have hpairs {R : Accumulator → Accumulator → Prop} (hR : ∀ p ∈ ps, ∀ o ∈ ps,
      (p.name = o.name → p.labels ≠ o.labels) → ∀ p' ∈ os, p'.Same p → ∀ o' ∈ os, o'.Same o →
        R ⟨p.kind, p'.desc, values x.observed p⟩ ⟨o.kind, o'.desc, values x.observed o⟩) :
      (x.accumulators.registered x.registry).Pairwise R := by
    rw [Accumulators.registered, h.registry, List.filterMap_map, List.pairwise_filterMap]
    refine h.once.imp_of_mem fun {p o} hp ho hne r hr r' hr' ↦ ?_
    obtain ⟨p', hp', hsame, rfl⟩ := h.accumulates.present p (h.mem p hp) r hr
    obtain ⟨o', ho', hsame', rfl⟩ := h.accumulates.present o (h.mem o ho) r' hr'
    exact hR p hp o ho hne p' hp' hsame o' ho' hsame'
  refine hclient.gathers ?_ (hpairs ?_) (hpairs ?_)
  · intro r hr
    obtain ⟨o, -, -, o', ho', -, rfl⟩ := (h.mem_registered fun _ _ hr ↦ hr).mp hr
    exact hreg.legal o' ho'
  · intro p _ o _ hne p' hp' hsame o' ho' hsame'
    exact hreg.apart hne hp' hsame ho' hsame'
  · intro p hp o ho _ p' hp' hsame o' ho' hsame'
    refine ⟨?_, ?_⟩
    · intro hname
      exact hsame.1.symm.trans (((hnamed p' hp').kind_eq (hnamed o' ho') hname).trans hsame'.1)
    · intro suffix hsuffix
      exact ⟨(hnamed p' hp').ne_append _ suffix hsuffix, (hnamed o' ho').ne_append _ suffix hsuffix⟩

/-! ### All scrapes of a scraper -/

/-- A scrape: the families of the prober, and what `getProbeMetrics` returned. -/
structure Scrape where
  families : List Family
  result : Except Stop (List Family)

/-- The values that are to be observed. -/
def Scrape.observations (basicMetricsOnly : Bool) (a : Scrape) : List Observation :=
  a.families.flatMap (derive basicMetricsOnly)

private theorem Scrape.named {basicMetricsOnly : Bool} {a : Scrape} {o : Observation}
    (h : o ∈ a.observations basicMetricsOnly) : o.Named := by
  obtain ⟨mf, -, hmf⟩ := List.mem_flatMap.mp h
  exact named_of_mem_derive hmf

/-- What a scrape does to the state that a scraper keeps. -/
def ScrapeStep (client : Client) (basicMetricsOnly : Bool) (x : Deriving) (a : Scrape)
    (x' : Deriving) : Prop :=
  getProbeMetrics client basicMetricsOnly a.families x = (x', a.result)

variable {basicMetricsOnly : Bool} {a : Scrape} {x' : Deriving}

private theorem scrapeStep_cases (hstep : ScrapeStep client basicMetricsOnly x a x') :
    (∃ stop, (a.observations basicMetricsOnly).foldlM (updateFromMetric client)
        { x with registry := [] } = .error (x', stop) ∧ a.result = .error stop) ∨
    (a.observations basicMetricsOnly).foldlM (updateFromMetric client)
        { x with registry := [] } = .ok x' ∧
      ((∃ err, client.gather (x'.accumulators.registered x'.registry) = .error err ∧
        a.result = .error (.gather err)) ∨
      ∃ out, client.gather (x'.accumulators.registered x'.registry) = .ok out ∧
        a.result = .ok (a.families ++ out)) := by
  unfold ScrapeStep getProbeMetrics at hstep
  rw [getDerivedMetrics_eq] at hstep
  split at hstep
  · next stop hfold =>
    obtain ⟨rfl, hresult⟩ := Prod.mk.inj hstep
    exact .inl ⟨stop, hfold, hresult.symm⟩
  · next hfold =>
    split at hstep
    · next err hgather =>
      obtain ⟨rfl, hresult⟩ := Prod.mk.inj hstep
      exact .inr ⟨hfold, .inl ⟨err, hgather, hresult.symm⟩⟩
    · next out hgather =>
      obtain ⟨rfl, hresult⟩ := Prod.mk.inj hstep
      exact .inr ⟨hfold, .inr ⟨out, hgather, hresult.symm⟩⟩

private theorem scraped (hclient : client.Lawful add) (h : Accumulates client os x)
    (hnamed : ∀ o ∈ os, o.Named) (ha : ∀ o ∈ a.observations basicMetricsOnly, o ∈ os)
    (hstep : ScrapeStep client basicMetricsOnly x a x') :
    Accumulates client os x' ∧
    (∃ done, done <+: a.observations basicMetricsOnly ∧ x'.observed = x.observed ++ done ∧
      (a.result.isOk = true → done = a.observations basicMetricsOnly)) ∧
    (∀ mfs, a.result = .ok mfs → ∃ out, mfs = a.families ++ out ∧
      Aggregated client add x'.observed (a.observations basicMetricsOnly) out) ∧
    (Regular client os (a.observations basicMetricsOnly) → a.result.isOk = true) := by
  have hstart : Scraping client os x.observed [] { x with registry := [] } :=
    ⟨{ h with }, nofun, (List.append_nil _).symm, rfl, nofun, List.Pairwise.nil⟩
  obtain ⟨hok, herror⟩ := hstart.foldlM hclient ha
  have hregular := hstart.foldlM_ok hclient ha
  rcases scrapeStep_cases hstep with ⟨stop, hfold, hresult⟩ | ⟨hfold, hgather⟩
  · obtain ⟨haccumulates, done, hdone, hobserved⟩ := herror x' stop hfold
    rw [hresult]
    refine ⟨haccumulates, ⟨done, hdone, hobserved, nofun⟩, nofun, ?_⟩
    intro hreg
    obtain ⟨z, hz⟩ := hregular hreg
    cases hfold.symm.trans hz
  · have hend := hok x' hfold
    refine ⟨hend.accumulates, ⟨_, List.prefix_rfl, hend.observed, fun _ ↦ rfl⟩, ?_⟩
    rcases hgather with ⟨err, hgather, hresult⟩ | ⟨out, hgather, hresult⟩
    · rw [hresult]
      refine ⟨nofun, ?_⟩
      intro hreg
      obtain ⟨mfs, hmfs⟩ := hend.gather_ok hclient hnamed hreg
      cases hgather.symm.trans hmfs
    · rw [hresult]
      refine ⟨?_, fun _ ↦ rfl⟩
      intro mfs hmfs
      cases hmfs
      exact ⟨out, rfl, hend.aggregated hclient hgather⟩

private theorem observed_foldlM {qs : List Observation}
    (h : qs.foldlM (updateFromMetric client) x = .ok x') : x'.observed = x.observed ++ qs := by
  induction qs generalizing x with
  | nil =>
    cases h
    exact (List.append_nil _).symm
  | cons o qs ih =>
    rw [List.foldlM_cons] at h
    obtain ⟨y, hy, h⟩ := except_bind_eq_ok.mp h
    obtain ⟨value, accs, acc, _, _, _, rfl⟩ := updateFromMetric_eq_ok hy
    rw [ih h, List.append_assoc]
    rfl

private theorem observed_of_runs {as : List Scrape}
    (h : Runs (ScrapeStep client basicMetricsOnly) x as x')
    (hok : ∀ a ∈ as, a.result.isOk = true) :
    x'.observed = x.observed ++ as.flatMap (Scrape.observations basicMetricsOnly) := by
  induction h with
  | nil x => exact (List.append_nil _).symm
  | @cons x y x' a as hstep _ ih =>
    obtain ⟨ha, has⟩ := List.forall_mem_cons.mp hok
    rw [ih has, List.flatMap_cons, ← List.append_assoc]
    rcases scrapeStep_cases hstep with ⟨stop, -, hresult⟩ | ⟨hfold, -⟩
    · rw [hresult] at ha
      cases ha
    · rw [observed_foldlM hfold]

/-- After any number of scrapes, failed ones among them, a scrape that succeeds returns for each of
its gauges that tell a success or a duration exactly one metric, with the count, the sum and the
buckets of all values of this series that were ever observed. A failed scrape has observed some
first part of its values, so without failures each value of each scrape counts once. A scrape whose
metrics fit together does not fail. -/
theorem aggregated_of_runs {as : List Scrape} (hclient : client.Lawful add)
    (h : Runs (ScrapeStep client basicMetricsOnly) {} as x)
    (hstep : ScrapeStep client basicMetricsOnly x a x')
    (hd : Distinct client ((as ++ [a]).flatMap (Scrape.observations basicMetricsOnly))) :
    (∃ done, done <+: a.observations basicMetricsOnly ∧ x'.observed = x.observed ++ done ∧
      (a.result.isOk = true → done = a.observations basicMetricsOnly)) ∧
    ((∀ b ∈ as, b.result.isOk = true) →
      x.observed = as.flatMap (Scrape.observations basicMetricsOnly)) ∧
    (∀ mfs, a.result = .ok mfs → ∃ out, mfs = a.families ++ out ∧
      Aggregated client add x'.observed (a.observations basicMetricsOnly) out) ∧
    (Regular client ((as ++ [a]).flatMap (Scrape.observations basicMetricsOnly))
      (a.observations basicMetricsOnly) → a.result.isOk = true) := by
  generalize hos : (as ++ [a]).flatMap (Scrape.observations basicMetricsOnly) = os at hd
  have hsub : ∀ b ∈ as ++ [a], ∀ o ∈ b.observations basicMetricsOnly, o ∈ os := by
    intro b hb o ho
    rw [← hos]
    exact List.mem_flatMap.mpr ⟨b, hb, ho⟩
  have hnamed : ∀ o ∈ os, o.Named := by
    intro o ho
    rw [← hos] at ho
    obtain ⟨b, -, hb⟩ := List.mem_flatMap.mp ho
    exact Scrape.named hb
  have hempty : Accumulates client os {} := by
    refine ⟨hd, fun _ _ _ ↦ rfl, ?_⟩
    intro o _ acc hacc
    cases hkind : o.kind <;> simp [Accumulators.find, Observation.collector, hkind] at hacc
  have haccumulates : Accumulates client os x := by
    refine h.invariant_of_mem ?_ hempty
    intro y b hb y' hy hb'
    exact (scraped hclient hy hnamed (hsub b (List.mem_append_left _ hb)) hb').1
  obtain ⟨_, hdone, hout, hregular⟩ :=
    scraped hclient haccumulates hnamed (hsub a (List.mem_append_right _ List.mem_cons_self)) hstep
  exact ⟨hdone, observed_of_runs h, hout, hregular⟩

/-! ### A client -/

/-- A client that refuses what it must, with a fingerprint and buckets of its own. -/
def Client.sample (add : Float64 → Float64 → Float64) : Client where
  fingerprint labels := labels.foldl
    (fun h l ↦ (l.name ++ l.value).foldl (fun h b ↦ h * 31 + b.toUInt64) h) 0
  defBuckets := [.ofUInt64 1, .ofUInt64 10]
  Legal _ := True
  new kind desc :=
    if ∀ l ∈ desc.labels, l.name ≠ kind.reserved then .ok ()
    else .error (.explicit (.lit "not allowed as label name"))
  register rs r :=
    if ∀ r' ∈ rs, r'.desc.Apart r.desc then .ok () else .error (.lit "already registered")
  gather rs := .ok (rs.map fun r ↦
    { name := r.desc.name, help := r.desc.help, type := r.kind.type
      metric := [aggregate [.ofUInt64 1, .ofUInt64 10] add r.kind r.desc.labels r.values] })

/-- It is as assumed. -/
theorem lawful_sample (add : Float64 → Float64 → Float64) : (Client.sample add).Lawful add where
  registered := by
    intro rs r h r' hr' hname
    simp only [Client.sample] at h
    split at h
    · next hapart => exact (hapart r' hr' hname).2
    · cases h
  gathered := by
    intro rs mfs h
    cases h
    rw [metricsOf, List.flatMap_map]
    exact .of_eq List.map_eq_flatMap.symm
  named := by
    intro rs mfs h mf hmf
    cases h
    obtain ⟨r, hr, rfl⟩ := List.mem_map.mp hmf
    exact ⟨r, hr, rfl⟩
  makes h := if_pos h
  registers _ h := if_pos h
  gathers _ _ _ := ⟨_, rfl⟩

/-- The addition of `float64` on small whole numbers, where it is exact. -/
def addWhole (a b : Float64) : Float64 :=
  let whole (x : Float64) : Nat := x.significand * 2 ^ x.scale / 2 ^ 1075
  .ofUInt64 (UInt64.ofNat (whole a + whole b))

/-- The families of a prober that only tells whether it succeeded. -/
private def success (value : Float64) : List Family :=
  [⟨⟨probeSuccessMetricName, .gauge, [{ gauge := some value }]⟩, []⟩]

/-- A scrape of that prober. -/
private def scrapeSuccess (x : Deriving) (value : Float64) : Scrape :=
  ⟨success value, (getProbeMetrics (.sample addWhole) false (success value) x).2⟩

private theorem observations_scrapeSuccess (x : Deriving) (value : Float64) :
    (scrapeSuccess x value).observations false =
      [⟨.summary, .lit "probe_all_success", [], [], some value⟩] := by
  simp [Scrape.observations, scrapeSuccess, success, derive]

/-- A success and a failure: the second scrape reports two values, whose sum is one. -/
theorem aggregated_upThenDown :
    ∃ x x' a b, Runs (ScrapeStep (.sample addWhole) false) {} [a] x ∧
      ScrapeStep (.sample addWhole) false x b x' ∧ a.families = success (.ofUInt64 1) ∧
      b.families = success .zero ∧ ∃ out, b.result = .ok (success .zero ++ out) ∧
        Aggregated (.sample addWhole) addWhole x'.observed (b.observations false) out ∧
        metricsOf out = [(.lit "probe_all_success", .summary,
          { summary := some ⟨2, .ofUInt64 1, []⟩ })] := by
  let x := (getProbeMetrics (.sample addWhole) false (success (.ofUInt64 1)) {}).1
  let x' := (getProbeMetrics (.sample addWhole) false (success .zero) x).1
  have hrun : Runs (ScrapeStep (.sample addWhole) false) {} [scrapeSuccess {} (.ofUInt64 1)] x :=
    .cons rfl (.nil _)
  have hstep : ScrapeStep (.sample addWhole) false x (scrapeSuccess x .zero) x' := rfl
  have hos : ([scrapeSuccess {} (.ofUInt64 1)] ++ [scrapeSuccess x .zero]).flatMap
      (Scrape.observations false) =
        [⟨.summary, .lit "probe_all_success", [], [], some (.ofUInt64 1)⟩,
          ⟨.summary, .lit "probe_all_success", [], [], some .zero⟩] := by
    simp [observations_scrapeSuccess]
  have hd : Distinct (.sample addWhole) (([scrapeSuccess {} (.ofUInt64 1)] ++
      [scrapeSuccess x .zero]).flatMap (Scrape.observations false)) := by
    rw [hos]
    simp [Distinct, Observation.Same]
  have hreg : Regular (.sample addWhole) (([scrapeSuccess {} (.ofUInt64 1)] ++
      [scrapeSuccess x .zero]).flatMap (Scrape.observations false))
      ((scrapeSuccess x .zero).observations false) := by
    rw [hos, observations_scrapeSuccess]
    exact ⟨by simp, by simp, List.pairwise_singleton _ _, fun _ _ ↦ trivial,
      by simp [Observation.desc, Desc.SameDim]⟩
  obtain ⟨_, _, hout, hregular⟩ := aggregated_of_runs (lawful_sample addWhole) hrun hstep hd
  have hok := hregular hreg
  cases hresult : (scrapeSuccess x .zero).result with
  | error stop =>
    rw [hresult] at hok
    cases hok
  | ok mfs =>
    obtain ⟨out, rfl, hagg⟩ := hout mfs hresult
    refine ⟨x, x', _, _, hrun, hstep, rfl, rfl, out, hresult, hagg, ?_⟩
    have hmetrics := hagg.metrics
    rw [observations_scrapeSuccess, List.map_singleton, List.perm_singleton] at hmetrics
    rw [hmetrics]
    have hvalues : aggregate (Client.sample addWhole).defBuckets addWhole .summary []
        (values x'.observed ⟨.summary, .lit "probe_all_success", [], [], some .zero⟩) =
        { summary := some ⟨2, .ofUInt64 1, []⟩ } := by
      decide +kernel
    rw [hvalues]
    rfl

end SMAgent.Scraper
