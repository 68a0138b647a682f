import SMAgent.Base.Keyed
import SMAgent.Base.Run
import SMAgent.Pb.Probe
import SMAgent.Pb.Tenant
import SMAgent.Scraper.Handler

/-!
# Labels

`internal/scraper/scraper.go:545-668` and `1064-1297`: the labels of `sm_check_info`, of the
execution series and of the log stream, built from the labels of the probe and of the check
as the tenant's label mode says. The three outputs resolve a repeated name differently: the
first label wins in the metrics, the last one in the logs.
-/

namespace SMAgent.Scraper
open SMAgent.Base SMAgent.Pb

/-- `labelPair`, with the two fields of `prompb.Label`. -/
abbrev LabelPair := Label

/-- The labels of a message as pairs. -/
def toPair (l : Pb.Label) : LabelPair := ⟨l.name, l.value⟩

/-- The part of `Scraper` that labels read. -/
structure ScraperConfig extends TypedCheck where
  probe : Probe
  /-- the target as the prober resolved it -/
  target : GoString

/-- `CheckType.String`, `string.go:10-21`. -/
def checkTypeString : CheckType → GoString
  | .dns => .lit "dns"
  | .http => .lit "http"
  | .ping => .lit "ping"
  | .tcp => .lit "tcp"
  | .traceroute => .lit "traceroute"
  | .scripted => .lit "scripted"
  | .multiHttp => .lit "multihttp"
  | .grpc => .lit "grpc"
  | .browser => .lit "browser"

/-- `Scraper.checkName`. -/
def ScraperConfig.checkName (s : ScraperConfig) : GoString := checkTypeString s.type

/-! ### Merging -/

/-- `appendUniqueLabels`, `scraper.go:1272-1297`; `seen` holds the names of `result`. -/
def appendUniqueLabels (slice1 slice2 : List LabelPair) : List LabelPair :=
  slice2.foldl addLabel (slice1.foldl addLabel [])

/-- The two local variables of the merging loops. -/
structure Merge where
  labels : List LabelPair := []
  idx : GoMap GoString Nat := ∅

/-- `idx[l.name] = len(labels); labels = append(labels, l)`. -/
def Merge.append (m : Merge) (l : LabelPair) : Merge :=
  ⟨m.labels ++ [l], m.idx.insert l.name m.labels.length⟩

/-- One round of the overwriting loop: the label's value at the indexed place, or the label
at the end. -/
def Merge.put (m : Merge) (l : LabelPair) : Merge :=
  match m.idx.lookup l.name with
  | some i => { m with labels := m.labels.modify i fun x ↦ { x with value := l.value } }
  | none => m.append l

/-- What `mergeUserLabels` and `mergeLogLabels` share. -/
def mergeLabels (base labels : List LabelPair) : List LabelPair :=
  (labels.foldl Merge.put (base.foldl Merge.append {})).labels

/-- `mergeUserLabels`, `scraper.go:1221-1241`. -/
def mergeUserLabels (probeLabels checkLabels : List Pb.Label) : List LabelPair :=
  mergeLabels (probeLabels.map toPair) (checkLabels.map toPair)

/-- `mergeLogLabels`, `scraper.go:1251-1267`. -/
def mergeLogLabels (systemLabels userLabels : List LabelPair) : List LabelPair :=
  mergeLabels systemLabels userLabels

/-! ### User labels -/

/-- The name of a user label behind its prefix. -/
def prefixedName (name : GoString) : GoString := .lit "label_" ++ name

/-- The label under its prefixed name. -/
def prefixed (l : LabelPair) : LabelPair := ⟨prefixedName l.name, l.value⟩

/-- The labels whose names are not reserved. -/
def dropSystemLabels (labels : List LabelPair) : List LabelPair :=
  labels.filter fun l ↦ !isSystemLabel l.name

/-- `buildUserLabels`, `scraper.go:1102-1145`. -/
def buildUserLabels (probeLabels checkLabels : List Pb.Label) (mode : LabelMode) :
    List LabelPair :=
  let userLabels := mergeUserLabels probeLabels checkLabels
  match mode with
  | .dualWrite => userLabels.map prefixed ++ dropSystemLabels userLabels
  | .unprefixed => dropSystemLabels userLabels
  | _ => userLabels.map prefixed

/-- `customMetricLabels`, `scraper.go:1152-1158`. -/
def customMetricLabels (probeLabels checkLabels : List Pb.Label) (mode : LabelMode) :
    List LabelPair :=
  if mode = .prefixed then [] else buildUserLabels probeLabels checkLabels .unprefixed

/-- `regionLabelForMode`, `scraper.go:1172-1182`. -/
def regionLabelForMode (mode : LabelMode) (probeRegion : GoString) : LabelPair :=
  if mode = .prefixed then ⟨.lit "region", probeRegion⟩
  else ⟨.lit "sm_region", if probeRegion = [] then .lit "unset" else probeRegion⟩

namespace ScraperConfig

variable (s : ScraperConfig)

/-- The user labels of the scraper's probe and check. -/
def userLabels (mode : LabelMode) : List LabelPair :=
  buildUserLabels s.probe.labels s.check.labels mode

/-- `sysMetricLabels`, `scraper.go:559-565`. -/
def sysMetricLabels : List LabelPair :=
  [⟨.lit "probe", s.probe.name⟩, ⟨.lit "config_version", s.check.configVersion⟩,
    ⟨.lit "instance", s.check.target⟩, ⟨.lit "job", s.check.job⟩]

/-- `baseLabels` of `buildCheckInfoLabels`, `scraper.go:1065-1075`, with the encoding of the
probe's coordinates. -/
def baseLabels (geohash : GoString) (mode : LabelMode) : List LabelPair :=
  [⟨.lit "check_name", s.checkName⟩, regionLabelForMode mode s.probe.region,
    ⟨.lit "frequency", GoString.formatInt s.check.frequency⟩, ⟨.lit "geohash", geohash⟩] ++
  s.sysMetricLabels ++
  if s.check.alertSensitivity ≠ [] ∧ s.check.alertSensitivity ≠ .lit "none" then
    [⟨.lit "alert_sensitivity", s.check.alertSensitivity⟩]
  else []

/-- The list that `buildCheckInfoLabels` turns into a map. -/
def checkInfoPairs (geohash : GoString) (mode : LabelMode) : List LabelPair :=
  appendUniqueLabels (s.userLabels mode) (s.baseLabels geohash mode)

/-- `buildCheckInfoLabels`, `scraper.go:1064-1085`. -/
def buildCheckInfoLabels (geohash : GoString) (mode : LabelMode) : GoMap GoString GoString :=
  (s.checkInfoPairs geohash mode).foldl (fun m l ↦ m.insert l.name l.value) ∅

/-- `executionMetricLabels`, `scraper.go:665`. -/
def executionMetricLabels (mode : LabelMode) : List LabelPair :=
  appendUniqueLabels (customMetricLabels s.probe.labels s.check.labels mode) s.sysMetricLabels

/-- `logLabels` before the user's are merged into them, `scraper.go:600-607`. -/
def systemLogLabels (mode : LabelMode) : List LabelPair :=
  [⟨.lit "probe", s.probe.name⟩, regionLabelForMode mode s.probe.region,
    ⟨.lit "instance", s.check.target⟩, ⟨.lit "job", s.check.job⟩,
    ⟨.lit "check_name", s.checkName⟩, ⟨.lit "source", .lit "synthetic-monitoring-agent"⟩]

/-- `logLabels`, `scraper.go:600-608`. -/
def logLabels (mode : LabelMode) : List LabelPair :=
  mergeLogLabels (s.systemLogLabels mode) (s.userLabels mode)

/-- `checkInfoLimit`, `scraper.go:587-590`. -/
def checkInfoLimit (mode : LabelMode) (maxMetricLabels : Int) : Int :=
  if mode = .dualWrite then min (maxMetricLabels * 2) 40 else maxMetricLabels

/-- The labels are too many: the collection ends with `errTooManyLabels`, `scraper.go:592-595`. -/
def TooManyLabels (geohash : GoString) (mode : LabelMode) (maxMetricLabels : Int) : Prop :=
  checkInfoLimit mode maxMetricLabels < (s.buildCheckInfoLabels geohash mode).entries.length

instance (geohash : GoString) (mode : LabelMode) (maxMetricLabels : Int) :
    Decidable (s.TooManyLabels geohash mode maxMetricLabels) := Int.decLt _ _

end ScraperConfig

/-- `streamLogLabels` and `overflowMetadata`, `scraper.go:678-694`; the slice expression panics
on a negative bound. -/
def splitLogLabels (logLabels : List LabelPair) (maxLogLabels : Int) :
    Except Panic (List LabelPair × List LabelPair) :=
  let maxUserLogLabels := maxLogLabels - 1
  if maxUserLogLabels < logLabels.length then
    if maxUserLogLabels < 0 then .error .indexOutOfRange
    else .ok (logLabels.take maxUserLogLabels.toNat, logLabels.drop maxUserLogLabels.toNat)
  else .ok (logLabels, [])

/-- The labels of the log stream, `scraper.go:678-696`. -/
def streamLabels (logLabels : List LabelPair) (maxLogLabels : Int) (success : Bool) :
    Except Panic (List LabelPair) :=
  (splitLogLabels logLabels maxLogLabels).map fun split ↦
    split.1 ++ [⟨.lit "probe_success", .lit (if success then "1" else "0")⟩]

private theorem splitLogLabels_eq_ok {logLabels : List LabelPair} {maxLogLabels : Int}
    {parts : List LabelPair × List LabelPair}
    (h : splitLogLabels logLabels maxLogLabels = .ok parts) :
    parts.1 = logLabels.take (maxLogLabels - 1).toNat := by
  simp only [splitLogLabels] at h
  split at h
  · split at h
    · cases h
    · cases h
      rfl
  · next hle =>
    cases h
    have hlength : logLabels.length ≤ (maxLogLabels - 1).toNat := by omega
    exact (List.take_of_length_le hlength).symm

/-- The stream has as many of the log labels as the limit leaves room for beside
`probe_success`. -/
theorem streamLabels_eq_ok {logLabels labels : List LabelPair} {maxLogLabels : Int} {success : Bool}
    (h : streamLabels logLabels maxLogLabels success = .ok labels) :
    labels = logLabels.take (maxLogLabels - 1).toNat ++
      [⟨.lit "probe_success", .lit (if success then "1" else "0")⟩] := by
  obtain ⟨parts, hsplit, rfl⟩ := except_map_eq_ok.mp h
  rw [← splitLogLabels_eq_ok hsplit]

/-! ### Merged lists by name -/

/-- The value under a name, of the first label that has it. -/
def valueOf (labels : List LabelPair) (name : GoString) : Option GoString :=
  (Keyed.first Label.name name labels).map Label.value

/-- The value under a name, of the last label that has it. -/
def lastValueOf (labels : List LabelPair) (name : GoString) : Option GoString :=
  (Keyed.last Label.name name labels).map Label.value

/-- The names of a list. -/
abbrev names (labels : List LabelPair) : List GoString := labels.map Label.name

/-- The first value in two lists. -/
theorem valueOf_append (l m : List LabelPair) (n : GoString) :
    valueOf (l ++ m) n = (valueOf l n).or (valueOf m n) := by
  rw [valueOf, Keyed.first_append, Option.map_or]
  rfl

/-- The last value in two lists. -/
theorem lastValueOf_append (l m : List LabelPair) (n : GoString) :
    lastValueOf (l ++ m) n = (lastValueOf m n).or (lastValueOf l n) := by
  rw [lastValueOf, Keyed.last_append, Option.map_or]
  rfl

variable {labels : List LabelPair} {n : GoString}

/-- Only the names of labels have a value. -/
theorem valueOf_eq_none : valueOf labels n = none ↔ n ∉ names labels := by
  rw [valueOf, Option.map_eq_none_iff, Keyed.first_eq_none]

/-- Only the names of labels have a last value. -/
theorem lastValueOf_eq_none : lastValueOf labels n = none ↔ n ∉ names labels := by
  rw [lastValueOf, Option.map_eq_none_iff, Keyed.last_eq_none]

/-- Where no name repeats, a label is found by its name. -/
theorem valueOf_of_mem (h : (names labels).Nodup) {l : LabelPair} (hl : l ∈ labels) :
    valueOf labels l.name = some l.value := by
  rw [valueOf, Keyed.first_of_mem h hl]
  rfl

/-- The rounds of `makeTimeseries` and of `appendUniqueLabels` keep the first of each name. -/
theorem addLabel_eq : addLabel = Keyed.addNew Label.name := by
  funext labels l
  unfold addLabel Keyed.addNew
  congr 3
  funext x
  rw [Bool.eq_iff_iff, beq_iff_eq, decide_eq_true_iff]

private theorem appendUniqueLabels_eq (slice1 slice2 : List LabelPair) :
    appendUniqueLabels slice1 slice2 = (slice1 ++ slice2).foldl (Keyed.addNew Label.name) [] := by
  rw [appendUniqueLabels, addLabel_eq, List.foldl_append]

/-- `idx` holds the last place of each name. -/
private structure Merge.Indexed (m : Merge) : Prop where
  found : ∀ n i, m.idx.lookup n = some i →
    ∃ pre post, names m.labels = pre ++ n :: post ∧ pre.length = i ∧ n ∉ post
  missing : ∀ n, m.idx.lookup n = none → n ∉ names m.labels

private theorem Merge.Indexed.append {m : Merge} (h : m.Indexed) (l : LabelPair) :
    (m.append l).Indexed where
  found n i hn := by
    rw [Merge.append, GoMap.lookup_insert_eq] at hn
    have hnames : names (m.append l).labels = names m.labels ++ [l.name] := List.map_append
    rw [hnames]
    split at hn
    · next heq =>
      obtain rfl := Option.some.inj hn
      exact ⟨names m.labels, [], by rw [heq], List.length_map .., List.not_mem_nil⟩
    · next hne =>
      obtain ⟨pre, post, heq, hlen, hpost⟩ := h.found n i hn
      refine ⟨pre, post ++ [l.name], by rw [heq]; simp, hlen, ?_⟩
      rw [List.mem_append, List.mem_singleton, not_or]
      exact ⟨hpost, hne⟩
  missing n hn := by
    rw [Merge.append, GoMap.lookup_insert_eq] at hn
    have hnames : names (m.append l).labels = names m.labels ++ [l.name] := List.map_append
    rw [hnames, List.mem_append, List.mem_singleton, not_or]
    split at hn
    · cases hn
    · next hne => exact ⟨h.missing n hn, hne⟩

private theorem modify_append_cons (pre post : List LabelPair) (x : LabelPair)
    (f : LabelPair → LabelPair) : (pre ++ x :: post).modify pre.length f = pre ++ f x :: post := by
  induction pre with
  | nil => rfl
  | cons y pre ih => simpa using ih

private theorem Merge.Indexed.put {m : Merge} (h : m.Indexed) (l : LabelPair) :
    (m.put l).Indexed ∧ (m.put l).labels = Keyed.put Label.name m.labels l := by
  cases hl : m.idx.lookup l.name with
  | none =>
    have hput : m.put l = m.append l := by rw [Merge.put, hl]
    rw [hput]
    exact ⟨h.append l, (Keyed.put_of_notMem (h.missing _ hl)).symm⟩
  | some i =>
    have hput : m.put l =
        { m with labels := m.labels.modify i fun x ↦ { x with value := l.value } } := by
      rw [Merge.put, hl]
    obtain ⟨npre, npost, hnames, hlen, hpost⟩ := h.found _ i hl
    obtain ⟨pre, rest, hlabels, rfl, hrest⟩ := List.map_eq_append_iff.mp hnames
    obtain ⟨x, post, rfl, hx, rfl⟩ := List.map_eq_cons_iff.mp hrest
    rw [List.length_map] at hlen
    have hmod : (m.put l).labels = pre ++ l :: post := by
      rw [hput, hlabels, ← hlen, modify_append_cons, hx]
    have hkeep : names (m.put l).labels = names m.labels := by
      rw [hmod, hlabels]
      simp [hx]
    constructor
    · constructor
      · intro n j hn
        rw [hkeep]
        exact h.found n j (by rw [← hn, hput])
      · intro n hn
        rw [hkeep]
        exact h.missing n (by rw [← hn, hput])
    · rw [hmod, hlabels, Keyed.put_append_cons hx hpost]

private theorem Merge.indexed_init : ({} : Merge).Indexed where
  found _ _ h := nomatch h
  missing _ _ := List.not_mem_nil

private theorem Merge.indexed_foldl_append (labels : List LabelPair) (m : Merge) (h : m.Indexed) :
    (labels.foldl Merge.append m).Indexed ∧
      (labels.foldl Merge.append m).labels = m.labels ++ labels := by
  induction labels generalizing m with
  | nil => exact ⟨h, (List.append_nil _).symm⟩
  | cons l labels ih =>
    obtain ⟨hi, heq⟩ := ih (m.append l) (h.append l)
    exact ⟨hi, heq.trans (List.append_assoc m.labels [l] labels)⟩

private theorem Merge.labels_foldl_put (labels : List LabelPair) (m : Merge) (h : m.Indexed) :
    (labels.foldl Merge.put m).labels = labels.foldl (Keyed.put Label.name) m.labels := by
  induction labels generalizing m with
  | nil => rfl
  | cons l labels ih => rw [List.foldl_cons, ih _ (h.put l).1, (h.put l).2, List.foldl_cons]

/-- Merging puts each label in the last place of its name in the base, or at the end. -/
theorem mergeLabels_eq (base labels : List LabelPair) :
    mergeLabels base labels = labels.foldl (Keyed.put Label.name) base := by
  obtain ⟨hi, heq⟩ := Merge.indexed_foldl_append base {} Merge.indexed_init
  rw [mergeLabels, Merge.labels_foldl_put labels _ hi, heq]
  rfl

/-! ### The outputs by name -/

variable {probeLabels checkLabels : List Pb.Label}

/-- The user labels have the names of the probe's and of the check's. -/
theorem mem_names_mergeUserLabels : n ∈ names (mergeUserLabels probeLabels checkLabels) ↔
      ∃ l ∈ probeLabels ++ checkLabels, l.name = n := by
  have hpairs : ∀ labels : List Pb.Label, names (labels.map toPair) = labels.map Pb.Label.name :=
    fun _ ↦ List.map_map
  rw [mergeUserLabels, mergeLabels_eq, names, Keyed.mem_keys_foldl_put]
  simp only [hpairs, List.mem_map, List.mem_append, or_and_right, exists_or]
  exact or_comm

/-- The names of prefixed labels. -/
theorem mem_names_map_prefixed :
    n ∈ names (labels.map prefixed) ↔ ∃ m ∈ names labels, prefixedName m = n := by
  have hmap : names (labels.map prefixed) = (names labels).map prefixedName := by
    rw [names, names, List.map_map, List.map_map]
    rfl
  rw [hmap, List.mem_map]

private theorem mem_names_dropSystemLabels :
    n ∈ names (dropSystemLabels labels) ↔ isSystemLabel n = false ∧ n ∈ names labels := by
  simp only [dropSystemLabels, List.mem_map, List.mem_filter, Bool.not_eq_true']
  constructor
  · rintro ⟨l, ⟨hl, hs⟩, rfl⟩
    exact ⟨hs, l, hl, rfl⟩
  · rintro ⟨hs, l, hl, rfl⟩
    exact ⟨l, ⟨hl, hs⟩, rfl⟩

/-- The mode emits user labels under their own names, on `sm_check_info` and in the logs. -/
def Unprefixes (mode : LabelMode) : Prop := mode = .dualWrite ∨ mode = .unprefixed

/-- The names that a mode makes of the user labels. -/
theorem mem_names_buildUserLabels {mode : LabelMode} :
    n ∈ names (buildUserLabels probeLabels checkLabels mode) ↔
      (mode ≠ .unprefixed ∧ ∃ l ∈ probeLabels ++ checkLabels, prefixedName l.name = n) ∨
        (Unprefixes mode ∧ isSystemLabel n = false ∧
          ∃ l ∈ probeLabels ++ checkLabels, l.name = n) := by
  have hprefixed : n ∈ names ((mergeUserLabels probeLabels checkLabels).map prefixed) ↔
      ∃ l ∈ probeLabels ++ checkLabels, prefixedName l.name = n := by
    rw [mem_names_map_prefixed]
    constructor
    · rintro ⟨m, hm, rfl⟩
      obtain ⟨l, hl, rfl⟩ := mem_names_mergeUserLabels.mp hm
      exact ⟨l, hl, rfl⟩
    · rintro ⟨l, hl, rfl⟩
      exact ⟨l.name, mem_names_mergeUserLabels.mpr ⟨l, hl, rfl⟩, rfl⟩
  have hplain : n ∈ names (dropSystemLabels (mergeUserLabels probeLabels checkLabels)) ↔
      isSystemLabel n = false ∧ ∃ l ∈ probeLabels ++ checkLabels, l.name = n := by
    rw [mem_names_dropSystemLabels, mem_names_mergeUserLabels]
  cases mode with
  | prefixed =>
    refine hprefixed.trans ?_
    simp [Unprefixes]
  | dualWrite =>
    rw [buildUserLabels, names, List.map_append, List.mem_append, hprefixed, hplain]
    simp [Unprefixes]
  | unprefixed =>
    refine hplain.trans ?_
    simp [Unprefixes]
  | unrecognized v =>
    refine hprefixed.trans ?_
    simp [Unprefixes]

/-- Outside `PREFIXED` the series of the execution carry the names that are not reserved. -/
theorem mem_names_customMetricLabels {mode : LabelMode} :
    n ∈ names (customMetricLabels probeLabels checkLabels mode) ↔
      mode ≠ .prefixed ∧ isSystemLabel n = false ∧
        ∃ l ∈ probeLabels ++ checkLabels, l.name = n := by
  unfold customMetricLabels
  split
  · next h => simp [h]
  · next h =>
    rw [mem_names_buildUserLabels]
    simp [h, Unprefixes]

/-- The two names of the region. -/
theorem name_regionLabelForMode (mode : LabelMode) (region : GoString) :
    (regionLabelForMode mode region).name = .lit "region" ∨
      (regionLabelForMode mode region).name = .lit "sm_region" := by
  unfold regionLabelForMode
  split
  · exact .inl rfl
  · exact .inr rfl

/-- The name of the region in the other modes. -/
theorem name_regionLabelForMode_of_ne {mode : LabelMode} (h : mode ≠ .prefixed)
    (region : GoString) : (regionLabelForMode mode region).name = .lit "sm_region" := by
  rw [regionLabelForMode, if_neg h]

private theorem lookup_foldl_insert (labels : List LabelPair) (m : GoMap GoString GoString)
    (n : GoString) :
    (labels.foldl (fun m l ↦ m.insert l.name l.value) m).lookup n =
      (lastValueOf labels n).or (m.lookup n) := by
  induction labels generalizing m with
  | nil => rfl
  | cons l labels ih =>
    rw [List.foldl_cons, ih, GoMap.lookup_insert_eq, lastValueOf, lastValueOf, Keyed.last_cons]
    by_cases h : l.name = n
    · rw [if_pos h, if_pos h.symm]
      cases Keyed.last Label.name n labels <;> rfl
    · rw [if_neg h, if_neg (Ne.symm h), Option.or_none]

namespace ScraperConfig

variable (s : ScraperConfig)

/-- The system labels are reserved. -/
theorem isSystemLabel_sysMetricLabels :
    ∀ n ∈ names s.sysMetricLabels, isSystemLabel n = true := by
  have hall : ∀ n ∈ [GoString.lit "probe", .lit "config_version", .lit "instance", .lit "job"],
      isSystemLabel n = true := by decide
  exact hall

variable {mode : LabelMode}

/-- The names of the base labels. -/
theorem mem_names_baseLabels {geohash : GoString} {n : GoString}
    (h : n ∈ names (s.baseLabels geohash mode)) :
    isSystemLabel n = true ∨ n = (regionLabelForMode mode s.probe.region).name ∨
      n = .lit "alert_sensitivity" ∧ s.check.alertSensitivity ≠ [] ∧
        s.check.alertSensitivity ≠ .lit "none" := by
  have hown : ∀ n ∈ [GoString.lit "check_name", .lit "frequency", .lit "geohash"],
      isSystemLabel n = true := by decide
  simp only [baseLabels, List.map_append, List.map_cons, List.map_nil, List.mem_append,
    List.mem_cons, List.not_mem_nil, or_false] at h
  rcases h with ((rfl | rfl | rfl | rfl) | h) | h
  · exact .inl (hown _ (by simp))
  · exact .inr (.inl rfl)
  · exact .inl (hown _ (by simp))
  · exact .inl (hown _ (by simp))
  · exact .inl (s.isSystemLabel_sysMetricLabels n h)
  · split at h
    · next hset => exact .inr (.inr ⟨List.mem_singleton.mp h, hset⟩)
    · cases h

/-- No base label is there twice. -/
theorem nodup_names_baseLabels (geohash : GoString) (mode : LabelMode) :
    (names (s.baseLabels geohash mode)).Nodup := by
  have hnames : names (s.baseLabels geohash mode) =
      [.lit "check_name", (regionLabelForMode mode s.probe.region).name, .lit "frequency",
        .lit "geohash", .lit "probe", .lit "config_version", .lit "instance", .lit "job"] ++
      if s.check.alertSensitivity ≠ [] ∧ s.check.alertSensitivity ≠ .lit "none" then
        [.lit "alert_sensitivity"]
      else [] := by
    unfold baseLabels
    split
    · rfl
    · rfl
  rw [hnames]
  rcases name_regionLabelForMode mode s.probe.region with h | h
  all_goals
    rw [h]
    split <;> decide

/-- The names of the labels of the logs. -/
theorem mem_names_systemLogLabels {n : GoString} (h : n ∈ names (s.systemLogLabels mode)) :
    isSystemLabel n = true ∨ n = (regionLabelForMode mode s.probe.region).name := by
  have hown : ∀ n ∈ [GoString.lit "probe", .lit "instance", .lit "job", .lit "check_name",
      .lit "source"], isSystemLabel n = true := by decide
  simp only [systemLogLabels, List.map_cons, List.map_nil, List.mem_cons, List.not_mem_nil,
    or_false] at h
  rcases h with rfl | rfl | h
  · exact .inl (hown _ (by simp))
  · exact .inr rfl
  · exact .inl (hown n (by simp only [List.mem_cons]; tauto))

/-- In `sm_check_info` the first label of a name wins, and the user's come first. -/
theorem lookup_buildCheckInfoLabels (geohash : GoString) (mode : LabelMode) (n : GoString) :
    (s.buildCheckInfoLabels geohash mode).lookup n =
      valueOf (s.userLabels mode ++ s.baseLabels geohash mode) n := by
  have hnodup : (names (s.checkInfoPairs geohash mode)).Nodup := by
    rw [checkInfoPairs, appendUniqueLabels_eq]
    exact Keyed.nodup_foldl_addNew _ [] List.nodup_nil
  rw [buildCheckInfoLabels, lookup_foldl_insert, lastValueOf, ← Keyed.first_eq_last_of_nodup hnodup,
    checkInfoPairs, appendUniqueLabels_eq, Keyed.first_foldl_addNew]
  exact Option.or_none

/-- The names of the labels of the check info. -/
theorem mem_keys_buildCheckInfoLabels {geohash : GoString} {n : GoString} :
    (∃ v, (s.buildCheckInfoLabels geohash mode).lookup n = some v) ↔
      n ∈ names (s.userLabels mode) ∨ n ∈ names (s.baseLabels geohash mode) := by
  rw [← Option.ne_none_iff_exists', lookup_buildCheckInfoLabels, ne_eq, valueOf_eq_none, not_not,
    names, List.map_append, List.mem_append]

/-- On the execution series the first label of a name wins, and the user's come first. -/
theorem valueOf_executionMetricLabels (mode : LabelMode) (n : GoString) :
    valueOf (s.executionMetricLabels mode) n =
      valueOf (customMetricLabels s.probe.labels s.check.labels mode ++ s.sysMetricLabels) n := by
  rw [valueOf, executionMetricLabels, appendUniqueLabels_eq, Keyed.first_foldl_addNew]
  rfl

/-- No label of the metrics is there twice. -/
theorem nodup_names_executionMetricLabels (mode : LabelMode) :
    (names (s.executionMetricLabels mode)).Nodup := by
  rw [executionMetricLabels, appendUniqueLabels_eq]
  exact Keyed.nodup_foldl_addNew _ [] List.nodup_nil

/-- The names of the labels of the metrics. -/
theorem mem_names_executionMetricLabels {n : GoString} : n ∈ names (s.executionMetricLabels mode) ↔
      n ∈ names (customMetricLabels s.probe.labels s.check.labels mode) ∨
        n ∈ names s.sysMetricLabels := by
  rw [executionMetricLabels, appendUniqueLabels_eq, names, Keyed.mem_keys_foldl_addNew,
    List.map_append, List.mem_append]

/-- A name that is reserved or no user label's, and none of the system labels. -/
theorem notMem_executionMetricLabels {n : GoString}
    (h : isSystemLabel n = true ∨ ¬ ∃ l ∈ s.probe.labels ++ s.check.labels, l.name = n)
    (hsys : n ∉ [GoString.lit "probe", .lit "config_version", .lit "instance", .lit "job"]) :
    n ∉ names (s.executionMetricLabels mode) := by
  intro hmem
  rcases s.mem_names_executionMetricLabels.mp hmem with hmem | hmem
  · obtain ⟨-, hfree, huser⟩ := mem_names_customMetricLabels.mp hmem
    rcases h with h | h
    · cases h.symm.trans hfree
    · exact h huser
  · exact hsys hmem

private theorem nodup_names_systemLogLabels (mode : LabelMode) :
    (names (s.systemLogLabels mode)).Nodup := by
  simp only [names, systemLogLabels, List.map_cons, List.map_nil]
  rcases name_regionLabelForMode mode s.probe.region with h | h
  all_goals
    rw [h]
    decide

/-- No label of the logs is there twice. -/
theorem nodup_names_logLabels (mode : LabelMode) : (names (s.logLabels mode)).Nodup := by
  rw [logLabels, mergeLogLabels, mergeLabels_eq]
  exact Keyed.nodup_foldl_put _ _ (s.nodup_names_systemLogLabels mode)

/-- The names of all labels of the logs. -/
theorem mem_names_logLabels {n : GoString} : n ∈ names (s.logLabels mode) ↔
      n ∈ names (s.userLabels mode) ∨ n ∈ names (s.systemLogLabels mode) := by
  rw [logLabels, mergeLogLabels, mergeLabels_eq, names, Keyed.mem_keys_foldl_put]

/-- In the log labels the last user label of a name wins, and then the agent's. -/
theorem valueOf_logLabels (mode : LabelMode) (n : GoString) :
    valueOf (s.logLabels mode) n =
      (lastValueOf (s.userLabels mode) n).or (valueOf (s.systemLogLabels mode) n) := by
  rw [valueOf, Keyed.first_eq_last_of_nodup (s.nodup_names_logLabels mode), logLabels,
    mergeLogLabels, mergeLabels_eq, Keyed.last_foldl_put,
    ← Keyed.first_eq_last_of_nodup (s.nodup_names_systemLogLabels mode)]
  exact Option.map_or

end ScraperConfig

/-- A scripted check with the given labels on a probe with the given ones, for sample runs. -/
def labelledScript (probeLabels checkLabels : List Pb.Label) : ScraperConfig where
  check := {
    tenantId := 1
    frequency := 60000
    timeout := 1000
    labels := checkLabels
    settings := { scripted := some { script := .lit "s" } }
    probes := [1]
    target := .lit "t"
    job := .lit "j" }
  type := .scripted
  typed := rfl
  probe := { name := .lit "p", labels := probeLabels }
  target := .lit "t"

end SMAgent.Scraper
