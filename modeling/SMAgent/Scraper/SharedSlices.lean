import SMAgent.Base.Run
import SMAgent.Base.Slices
import SMAgent.Scraper.Series

/-!
# Label slices that are written again

`appendDtoToTimeseries` puts the labels of a metric's series into one slice and writes its first
and its last element over and over; the execution labels are in one slice for all metrics. This
module has the conversion with its slices on a heap. What is in the slices of the series when all
metrics are converted is what `Series` says by value.
-/

namespace SMAgent.Scraper.OnHeap
open SMAgent.Base SMAgent.Pb
open GoString (lit)

/-- `prompb.TimeSeries`, with its labels in a slice. -/
structure SliceSeries where
  labels : GoSlice
  samples : List Sample

/-- The series with what is in its slice. -/
def SliceSeries.read (h : Heap Label) (series : SliceSeries) : TimeSeries :=
  ⟨h.elems series.labels, series.samples⟩

/-- The arrays, and the series so far. -/
structure State where
  heap : Heap Label := []
  ts : List SliceSeries := []

/-- The zero value of an element. -/
def zeroLabel : Label := ⟨[], []⟩

/-- The slice `nil`, which has no element. -/
def nilSlice : GoSlice := ⟨0, 0, 0, 0, Nat.le_refl 0⟩

/-- One round of the loop in `makeTimeseries`, `scraper.go:1194-1207`. -/
def addLabel (r : Heap Label × GoSlice) (l : Label) : Heap Label × GoSlice :=
  if (r.1.elems r.2).any fun x ↦ x.name == l.name then r else r.1.append r.2 l []

/-- `makeTimeseries`, `scraper.go:1184-1214`. -/
def makeTimeseries (h : Heap Label) (t : Int) (value : Float64) (labels : GoSlice) :
    Heap Label × SliceSeries :=
  let r := Heap.rangeLoop Prod.fst labels addLabel
    (h.make zeroLabel 0 labels.len (Nat.zero_le _))
  (r.1, ⟨r.2, [⟨unixNanoMilli t, value⟩]⟩)

/-- `ts = append(ts, makeTimeseries(t, value, labels...))`. -/
def State.emit (st : State) (t : Int) (value : Float64) (labels : GoSlice) : State :=
  let r := makeTimeseries st.heap t value labels
  ⟨r.1, st.ts ++ [r.2]⟩

/-- `labels[i] = l`, and then a series of the labels. -/
def State.emitWith (st : State) (t : Int) (labels : GoSlice) (i : Nat) (l : Label)
    (value : Float64) : Except Panic State := do
  let h ← st.heap.write labels i l
  .ok ({ st with heap := h }.emit t value labels)

/-- `make([]prompb.Label, len(labels)+extra)` with `labels` copied to it. -/
def copyOf (h : Heap Label) (labels : GoSlice) (extra : Nat) : Heap Label × GoSlice :=
  let r := h.make zeroLabel (labels.len + extra) (labels.len + extra) (Nat.le_refl _)
  (r.1.copy r.2 (r.1.elems labels), r.2)

/-- `labels`, `scraper.go:1300-1308`. -/
def metricLabels (h : Heap Label) (mName : GoString) (sharedLabels : GoSlice) (metric : Metric) :
    Heap Label × GoSlice :=
  let r := h.make zeroLabel 0 (1 + sharedLabels.len + metric.label.length) (Nat.zero_le _)
  let r := r.1.append r.2 ⟨metricNameLabel, mName⟩ []
  let r := r.1.appendAll r.2 (r.1.elems sharedLabels)
  r.1.appendAll r.2 (metric.label.map truncated)

/-- The first two series of a summary or a histogram, `scraper.go:1328-1335` and
`scraper.go:1352-1359`. -/
def State.emitTotals (st : State) (t : Int) (mName : GoString) (labels : GoSlice)
    (sampleSum : Float64) (sampleCount : UInt64) : Except Panic State := do
  let r := copyOf st.heap labels 0
  let st ← { st with heap := r.1 }.emitWith t r.2 0
    ⟨metricNameLabel, mName ++ lit "_sum"⟩ sampleSum
  st.emitWith t r.2 0 ⟨metricNameLabel, mName ++ lit "_count"⟩ (.ofUInt64 sampleCount)

/-- `appendDtoToTimeseries`, `scraper.go:1299-1384`. -/
def appendDtoToTimeseries (float : FloatFormat) (st : State) (t : Int) (mName : GoString)
    (sharedLabels : GoSlice) (mType : MetricType) (metric : Metric) : Except Panic State :=
  let r := metricLabels st.heap mName sharedLabels metric
  let labels := r.2
  let st := { st with heap := r.1 }
  let single (v : Option Float64) := v.elim st fun v ↦ st.emit t v labels
  match mType with
  | .counter => .ok (single metric.counter)
  | .gauge => .ok (single metric.gauge)
  | .untyped => .ok (single metric.untyped)
  | .summary =>
    match metric.summary with
    | none => .ok st
    | some s => do
      let st ← st.emitTotals t mName labels s.sampleSum s.sampleCount
      let r := copyOf st.heap labels 1
      s.quantile.foldlM (fun st v ↦ st.emitWith t r.2 (r.2.len - 1)
        ⟨.lit "quantile", float.format v.quantile⟩ v.value) { st with heap := r.1 }
  | .histogram =>
    match metric.histogram with
    | none => .ok st
    | some h =>
      match h.bucket with
      | none => .ok st
      | some b => do
        let st ← st.emitTotals t mName labels h.sampleSum h.sampleCount
        let r := copyOf st.heap labels 1
        let heap ← r.1.write r.2 0 ⟨metricNameLabel, mName ++ .lit "_bucket"⟩
        let st ← b.foldlM (fun (st : State) (v : Bucket) ↦ st.emitWith t r.2 (r.2.len - 1)
          ⟨.lit "le", float.format v.upperBound⟩ (.ofUInt64 v.cumulativeCount)) { st with heap }
        st.emitWith t r.2 (r.2.len - 1) ⟨.lit "le", .lit "+Inf"⟩ (.ofUInt64 h.sampleCount)
  | .gaugeHistogram => .ok st

/-- `toPrompb`, `scraper.go:1032-1039`. -/
def toPrompb (h : Heap Label) (pairs : List LabelPair) : Heap Label × GoSlice :=
  let out := h.make zeroLabel 0 pairs.length (Nat.zero_le _)
  out.1.appendAll out.2 (pairs.map truncated)

/-- `extractTimeseries`, `scraper.go:1031-1062`. -/
def extractTimeseries (float : FloatFormat) (t : Int) (metrics : List MetricFamily)
    (executionLabels : List LabelPair) : Except Panic State :=
  let executionPrompb := toPrompb [] executionLabels
  metrics.foldlM (fun st mf ↦
    let shared := if mf.name = checkInfoMetricName then nilSlice else executionPrompb.2
    mf.metric.foldlM (fun st m ↦
      appendDtoToTimeseries float st t mf.name shared mf.type m) st) ⟨executionPrompb.1, []⟩

/-! ### One series -/

/-- While the labels are added: the new slice has those so far without repetitions, and room for
the rest. -/
structure Adding (h : Heap Label) (labels : GoSlice) (done : List Label)
    (r : Heap Label × GoSlice) : Prop where
  owns : Heap.Owns h r.1 r.2
  elems : r.1.elems r.2 = done.foldl Scraper.addLabel []
  cap : r.2.cap = labels.len
  len_le : r.2.len ≤ done.length

private theorem Adding.step {h : Heap Label} {labels : GoSlice} {done : List Label}
    {r : Heap Label × GoSlice} (hr : Adding h labels done r) (hroom : done.length < labels.len)
    (l : Label) : Adding h labels (done ++ [l]) (addLabel r l) := by
  have hfold : (done ++ [l]).foldl Scraper.addLabel [] =
      Scraper.addLabel (done.foldl Scraper.addLabel []) l := by
    rw [List.foldl_append]
    rfl
  have hlen : (done ++ [l]).length = done.length + 1 := List.length_append
  rw [← hr.elems] at hfold
  unfold addLabel
  unfold Scraper.addLabel at hfold
  split
  · next hdup =>
    rw [if_pos hdup] at hfold
    exact ⟨hr.owns, hfold.symm, hr.cap, Nat.le_trans hr.len_le (by omega)⟩
  · next hnew =>
    rw [if_neg hnew] at hfold
    have hle := hr.len_le
    have hcap := hr.cap
    obtain ⟨howns, hlen', hcap'⟩ := hr.owns.append (by omega) l []
    exact ⟨howns, (Heap.elems_append hr.owns.inBounds l []).trans hfold.symm, hcap'.trans hcap,
      by omega⟩

private theorem makeTimeseries_spec {h : Heap Label} {labels : GoSlice} (hlabels : h.Holds labels)
    (t : Int) (value : Float64) :
    Heap.Owns h (makeTimeseries h t value labels).1 (makeTimeseries h t value labels).2.labels ∧
      (makeTimeseries h t value labels).2.read (makeTimeseries h t value labels).1 =
        Scraper.makeTimeseries t value (h.elems labels) := by
  have hlen := Heap.length_elems hlabels.inBounds
  have hloop : Adding h labels (h.elems labels) (Heap.rangeLoop Prod.fst labels addLabel
      (h.make zeroLabel 0 labels.len (Nat.zero_le _))) := by
    apply Heap.rangeLoop_induction (I := Adding h labels) hlen
    · intro done r hr
      exact hlabels.elems_mono hr.owns.kept
    · intro done l rest r hsplit hr
      apply hr.step
      rw [← hlen, hsplit, List.length_append, List.length_cons]
      omega
    · exact ⟨Heap.owns_make _ _ _ _ _, Heap.elems_make _ _ _ _ _, rfl, Nat.le_refl 0⟩
  refine ⟨hloop.owns, ?_⟩
  rw [SliceSeries.read, Scraper.makeTimeseries, ← hloop.elems]
  rfl

/-! ### Series and the slice that is written -/

/-- The series so far, as they are read. -/
structure Reads (st : State) (series : List TimeSeries) : Prop where
  holds : ∀ x ∈ st.ts, st.heap.Holds x.labels
  reads : st.ts.map (SliceSeries.read st.heap) = series

private theorem Reads.mono {st : State} {series : List TimeSeries} (hst : Reads st series)
    {h : Heap Label} (hp : st.heap <+: h) : Reads { st with heap := h } series where
  holds x hx := (hst.holds x hx).mono hp
  reads := by
    rw [← hst.reads]
    apply List.map_congr_left
    intro x hx
    rw [SliceSeries.read, SliceSeries.read, (hst.holds x hx).elems_mono hp]

/-- The slice `labels` has these elements and belongs to none of the series; the arrays of `h₀` are
as they were. -/
structure Overwriting (h₀ : Heap Label) (labels : GoSlice) (ls : List Label) (st : State)
    (series : List TimeSeries) : Prop extends Reads st series where
  owns : Heap.Owns h₀ st.heap labels
  elems : st.heap.elems labels = ls
  apart : ∀ x ∈ st.ts, x.labels.arr ≠ labels.arr

private theorem Reads.overwriting {st : State} {series : List TimeSeries} (hst : Reads st series)
    {h₀ h : Heap Label} (hp : h₀ <+: st.heap) {labels : GoSlice}
    (howns : Heap.Owns st.heap h labels) {ls : List Label} (helems : h.elems labels = ls) :
    Overwriting h₀ labels ls { st with heap := h } series where
  toReads := hst.mono howns.kept
  owns := ⟨howns.toHolds, hp.trans howns.kept, Nat.le_trans hp.length_le howns.made⟩
  elems := helems
  apart x hx := Nat.ne_of_lt (Nat.lt_of_lt_of_le (hst.holds x hx).lt howns.made)

section Steps
variable {h₀ : Heap Label} {labels : GoSlice} {ls : List Label} {st : State}
  {series : List TimeSeries} (hst : Overwriting h₀ labels ls st series)
include hst

private theorem Overwriting.emit (t : Int) (value : Float64) :
    Overwriting h₀ labels ls (st.emit t value labels)
      (series ++ [Scraper.makeTimeseries t value ls]) := by
  obtain ⟨hnew, hread⟩ := makeTimeseries_spec hst.owns.toHolds t value
  have hold := hst.toReads.mono hnew.kept
  refine ⟨⟨?_, ?_⟩, ⟨hst.owns.toHolds.mono hnew.kept, hst.owns.kept.trans hnew.kept,
    hst.owns.made⟩, ?_, ?_⟩
  · intro x hx
    rcases List.mem_append.mp hx with hx | hx
    · exact hold.holds x hx
    · rw [List.mem_singleton.mp hx]
      exact hnew.toHolds
  · rw [State.emit, List.map_append, hold.reads, List.map_singleton, hread, hst.elems]
  · rw [← hst.elems]
    exact hst.owns.toHolds.elems_mono hnew.kept
  · intro x hx
    rcases List.mem_append.mp hx with hx | hx
    · exact hst.apart x hx
    · rw [List.mem_singleton.mp hx]
      exact Nat.ne_of_gt (Nat.lt_of_lt_of_le hst.owns.lt hnew.made)

private theorem Overwriting.set {xs : List Label}
    (hxs : xs.length = (st.heap.array labels.arr).length)
    {ls' : List Label} (helems : Heap.elems (st.heap.set labels.arr xs) labels = ls') :
    Overwriting h₀ labels ls' { st with heap := st.heap.set labels.arr xs } series where
  holds x hx := (hst.holds x hx).set hxs
  reads := by
    rw [← hst.reads]
    apply List.map_congr_left
    intro x hx
    rw [SliceSeries.read, SliceSeries.read, Heap.elems_set_of_ne (hst.apart x hx)]
  owns := hst.owns.set hxs
  elems := helems
  apart := hst.apart

private theorem Overwriting.write {i : Nat} (hi : i < ls.length) (l : Label) :
    ∃ h, st.heap.write labels i l = .ok h ∧
      Overwriting h₀ labels (ls.set i l) { st with heap := h } series := by
  have hlen := Heap.length_elems hst.owns.inBounds
  rw [hst.elems] at hlen
  obtain ⟨xs, hxs, hwrite, helems⟩ := Heap.write_eq_ok hst.owns.toHolds (hlen ▸ hi) l
  rw [hst.elems] at helems
  exact ⟨_, hwrite, hst.set hxs helems⟩

private theorem Overwriting.emitWith {i : Nat} (hi : i < ls.length) (t : Int) (l : Label)
    (value : Float64) :
    ∃ st', st.emitWith t labels i l value = .ok st' ∧
      Overwriting h₀ labels (ls.set i l) st'
        (series ++ [Scraper.makeTimeseries t value (ls.set i l)]) := by
  obtain ⟨h, hwrite, hwritten⟩ := hst.write hi l
  rw [State.emitWith, hwrite]
  exact ⟨_, rfl, hwritten.emit t value⟩

end Steps

private theorem set_last (ls : List Label) (x y : Label) :
    (ls ++ [x]).set ls.length y = ls ++ [y] := by
  rw [List.set_append_right _ _ (Nat.le_refl _), Nat.sub_self]
  rfl

private theorem Overwriting.emitEach {h₀ : Heap Label} {labels : GoSlice} {ls : List Label}
    {β : Type} {st : State} {series : List TimeSeries} {last : Label}
    (hst : Overwriting h₀ labels (ls ++ [last]) st series) (t : Int) (label : β → Label)
    (value : β → Float64) (xs : List β) :
    ∃ st' last', xs.foldlM (fun st x ↦ st.emitWith t labels ls.length (label x) (value x)) st
        = .ok st' ∧
      Overwriting h₀ labels (ls ++ [last']) st'
        (series ++ xs.map fun x ↦ Scraper.makeTimeseries t (value x) (ls ++ [label x])) := by
  induction xs generalizing st series last with
  | nil =>
    rw [List.map_nil, List.append_nil]
    exact ⟨st, last, rfl, hst⟩
  | cons x xs ih =>
    have hlast : ls.length < (ls ++ [last]).length := by simp
    obtain ⟨st₁, hemit, hst₁⟩ := hst.emitWith hlast t (label x) (value x)
    rw [set_last] at hst₁
    obtain ⟨st', last', hrest, hst'⟩ := ih hst₁
    rw [List.append_assoc, List.singleton_append] at hst'
    refine ⟨st', last', ?_, hst'⟩
    rw [List.foldlM_cons, hemit]
    exact hrest

/-! ### The labels of a metric -/

private theorem metricLabels_spec {h : Heap Label} {shared : GoSlice} (hshared : h.Holds shared)
    (mName : GoString) (m : Metric) :
    Heap.Owns h (metricLabels h mName shared m).1 (metricLabels h mName shared m).2 ∧
      (metricLabels h mName shared m).1.elems (metricLabels h mName shared m).2 =
        namedLabels mName (h.elems shared) m "" := by
  have hmade := Heap.owns_make h zeroLabel 0 (1 + shared.len + m.label.length) (Nat.zero_le _)
  have hempty := Heap.elems_make h zeroLabel 0 (1 + shared.len + m.label.length) (Nat.zero_le _)
  have hcap : (h.make zeroLabel 0 (1 + shared.len + m.label.length) (Nat.zero_le _)).2.cap =
      1 + shared.len + m.label.length := rfl
  have hlen : (h.make zeroLabel 0 (1 + shared.len + m.label.length) (Nat.zero_le _)).2.len = 0 :=
    rfl
  unfold metricLabels
  generalize h.make zeroLabel 0 (1 + shared.len + m.label.length) (Nat.zero_le _) = r
    at hmade hempty hcap hlen
  have hnamed := Heap.elems_append hmade.inBounds ⟨metricNameLabel, mName⟩ []
  obtain ⟨hown, hlen₁, hcap₁⟩ := hmade.append (by omega) ⟨metricNameLabel, mName⟩ []
  dsimp only
  generalize r.1.append r.2 ⟨metricNameLabel, mName⟩ [] = r₁ at hnamed hown hlen₁ hcap₁
  -- the shared labels are read from the array that they were in at the start
  have hread := hshared.elems_mono hown.kept
  have hsharedLen := Heap.length_elems hshared.inBounds
  obtain ⟨hown₂, helems₂, hlen₂, hcap₂⟩ :=
    hown.appendAll (r₁.1.elems shared) (by rw [hread]; omega)
  rw [hread] at helems₂ hlen₂ hcap₂ hown₂ ⊢
  obtain ⟨hown₃, helems₃, -, -⟩ :=
    hown₂.appendAll (m.label.map truncated) (by rw [List.length_map]; omega)
  refine ⟨hown₃, helems₃.trans ?_⟩
  have hplain : mName ++ lit "" = mName := List.append_nil mName
  rw [helems₂, hnamed, hempty, namedLabels, hplain, List.append_assoc]
  rfl

private theorem Reads.metricLabels {st : State} {series : List TimeSeries} (hst : Reads st series)
    {shared : GoSlice} (hshared : st.heap.Holds shared) (mName : GoString) (m : Metric) :
    Overwriting st.heap (metricLabels st.heap mName shared m).2
      (namedLabels mName (st.heap.elems shared) m "")
      { st with heap := (metricLabels st.heap mName shared m).1 } series := by
  obtain ⟨howns, helems⟩ := metricLabels_spec hshared mName m
  exact hst.overwriting List.prefix_rfl howns helems

private theorem Reads.copyOf {st : State} {series : List TimeSeries} (hst : Reads st series)
    {h₀ : Heap Label} (hp : h₀ <+: st.heap) {labels : GoSlice} (hlabels : h₀.Holds labels)
    (extra : Nat) :
    Overwriting h₀ (copyOf st.heap labels extra).2
      (h₀.elems labels ++ List.replicate extra zeroLabel)
      { st with heap := (copyOf st.heap labels extra).1 } series := by
  have hmade := Heap.owns_make st.heap zeroLabel (labels.len + extra) (labels.len + extra)
    (Nat.le_refl _)
  have hempty := Heap.elems_make st.heap zeroLabel (labels.len + extra) (labels.len + extra)
    (Nat.le_refl _)
  have hlen : (st.heap.make zeroLabel (labels.len + extra) (labels.len + extra)
      (Nat.le_refl _)).2.len = labels.len + extra := rfl
  unfold OnHeap.copyOf
  generalize st.heap.make zeroLabel (labels.len + extra) (labels.len + extra) (Nat.le_refl _) = r
    at hmade hempty hlen
  have hread : r.1.elems labels = h₀.elems labels := hlabels.elems_mono (hp.trans hmade.kept)
  have hlabelsLen := Heap.length_elems hlabels.inBounds
  have hnew := hst.overwriting hp hmade hempty
  obtain ⟨xs, hxs, hcopy, helems⟩ := Heap.copy_eq hmade.toHolds (h₀.elems labels) (by omega)
  rw [hempty, hlabelsLen, List.drop_replicate, Nat.add_sub_cancel_left] at helems
  dsimp only
  rw [hread, hcopy]
  exact hnew.set hxs helems

private theorem Overwriting.emitTotals {h₀ : Heap Label} {labels : GoSlice} {mName : GoString}
    {shared : List Label} {m : Metric} {st : State} {series : List TimeSeries}
    (hst : Overwriting h₀ labels (namedLabels mName shared m "") st series) (t : Int)
    (sampleSum : Float64) (sampleCount : UInt64) :
    ∃ st', st.emitTotals t mName labels sampleSum sampleCount = .ok st' ∧
      st.heap <+: st'.heap ∧ Reads st' (series ++
        [Scraper.makeTimeseries t sampleSum (namedLabels mName shared m "_sum"),
          Scraper.makeTimeseries t (.ofUInt64 sampleCount)
            (namedLabels mName shared m "_count")]) := by
  have hcopy := hst.toReads.copyOf (List.prefix_refl _) hst.owns.toHolds 0
  rw [hst.elems, List.replicate_zero, List.append_nil] at hcopy
  obtain ⟨st₁, hsum, hst₁⟩ := hcopy.emitWith (Nat.zero_lt_succ _) t
    ⟨metricNameLabel, mName ++ lit "_sum"⟩ sampleSum
  obtain ⟨st₂, hcount, hst₂⟩ := hst₁.emitWith (Nat.zero_lt_succ _) t
    ⟨metricNameLabel, mName ++ lit "_count"⟩ (.ofUInt64 sampleCount)
  refine ⟨st₂, ?_, hst₂.owns.kept, ?_⟩
  · rw [State.emitTotals, hsum]
    exact hcount
  · have hreads := hst₂.toReads
    rw [List.append_assoc] at hreads
    exact hreads

/-! ### The series of a metric -/

section Metric
variable {h₀ : Heap Label} {labels : GoSlice} {mName : GoString} {shared : List Label} {m : Metric}
  {st : State} {series : List TimeSeries}
  (hst : Overwriting h₀ labels (namedLabels mName shared m "") st series)
include hst

private theorem Overwriting.lastIndex (h : Heap Label) :
    (OnHeap.copyOf h labels 1).2.len - 1 = (namedLabels mName shared m "").length := by
  rw [← hst.elems, Heap.length_elems hst.owns.inBounds]
  rfl

private theorem Overwriting.totalsAndCopy (t : Int) (sampleSum : Float64) (sampleCount : UInt64) :
    ∃ st', st.emitTotals t mName labels sampleSum sampleCount = .ok st' ∧
      Overwriting st.heap (OnHeap.copyOf st'.heap labels 1).2
        (namedLabels mName shared m "" ++ [zeroLabel])
        { st' with heap := (OnHeap.copyOf st'.heap labels 1).1 } (series ++
          [Scraper.makeTimeseries t sampleSum (namedLabels mName shared m "_sum"),
            Scraper.makeTimeseries t (.ofUInt64 sampleCount)
              (namedLabels mName shared m "_count")]) := by
  obtain ⟨st', htotals, hp, hreads⟩ := hst.emitTotals t sampleSum sampleCount
  have hcopy := hreads.copyOf hp hst.owns.toHolds 1
  rw [hst.elems] at hcopy
  exact ⟨st', htotals, hcopy⟩

private theorem Overwriting.summary (float : FloatFormat) (t : Int) (q : Summary) :
    ∃ st', (do
        let st ← st.emitTotals t mName labels q.sampleSum q.sampleCount
        let r := OnHeap.copyOf st.heap labels 1
        q.quantile.foldlM (fun (st : State) (v : Quantile) ↦ st.emitWith t r.2 (r.2.len - 1)
          ⟨.lit "quantile", float.format v.quantile⟩ v.value) { st with heap := r.1 }) = .ok st' ∧
      st.heap <+: st'.heap ∧ Reads st' (series ++
        (Scraper.makeTimeseries t q.sampleSum (namedLabels mName shared m "_sum") ::
        Scraper.makeTimeseries t (.ofUInt64 q.sampleCount) (namedLabels mName shared m "_count") ::
        quantileSeries float t (namedLabels mName shared m "") q.quantile)) := by
  obtain ⟨st₁, htotals, hcopy⟩ := hst.totalsAndCopy t q.sampleSum q.sampleCount
  obtain ⟨st₂, last, hloop, hst₂⟩ := hcopy.emitEach t
    (fun v : Quantile ↦ ⟨.lit "quantile", float.format v.quantile⟩) Quantile.value q.quantile
  refine ⟨st₂, ?_, hst₂.owns.kept, ?_⟩
  · rw [htotals]
    rw [← hst.lastIndex st₁.heap] at hloop
    exact hloop
  · have hall := hst₂.toReads
    rw [List.append_assoc] at hall
    exact hall

private theorem Overwriting.histogram (float : FloatFormat) (t : Int) (h : Histogram)
    (b : List Bucket) : ∃ st', (do
        let st ← st.emitTotals t mName labels h.sampleSum h.sampleCount
        let r := OnHeap.copyOf st.heap labels 1
        let heap ← r.1.write r.2 0 ⟨metricNameLabel, mName ++ lit "_bucket"⟩
        let st ← b.foldlM (fun (st : State) (v : Bucket) ↦ st.emitWith t r.2 (r.2.len - 1)
          ⟨.lit "le", float.format v.upperBound⟩ (.ofUInt64 v.cumulativeCount)) { st with heap }
        st.emitWith t r.2 (r.2.len - 1) ⟨.lit "le", .lit "+Inf"⟩ (.ofUInt64 h.sampleCount)) =
          .ok st' ∧
      st.heap <+: st'.heap ∧ Reads st' (series ++
        (Scraper.makeTimeseries t h.sampleSum (namedLabels mName shared m "_sum") ::
        Scraper.makeTimeseries t (.ofUInt64 h.sampleCount) (namedLabels mName shared m "_count") ::
        bucketSeries float t (namedLabels mName shared m "_bucket") b h.sampleCount)) := by
  obtain ⟨st₁, htotals, hcopy⟩ := hst.totalsAndCopy t h.sampleSum h.sampleCount
  obtain ⟨heap, hwrite, hnamed⟩ := hcopy.write (Nat.zero_lt_succ _)
    ⟨metricNameLabel, mName ++ lit "_bucket"⟩
  replace hnamed : Overwriting st.heap (OnHeap.copyOf st₁.heap labels 1).2
    (namedLabels mName shared m "_bucket" ++ [zeroLabel]) ⟨heap, st₁.ts⟩ _ := hnamed
  obtain ⟨st₂, last, hloop, hst₂⟩ := hnamed.emitEach t
    (fun v : Bucket ↦ ⟨.lit "le", float.format v.upperBound⟩)
    (fun v ↦ .ofUInt64 v.cumulativeCount) b
  have hlast : (namedLabels mName shared m "_bucket").length <
      (namedLabels mName shared m "_bucket" ++ [last]).length := by simp
  obtain ⟨st₃, hinf, hst₃⟩ := hst₂.emitWith hlast t ⟨.lit "le", .lit "+Inf"⟩
    (.ofUInt64 h.sampleCount)
  rw [set_last] at hst₃
  have hindex : (namedLabels mName shared m "_bucket").length =
      (OnHeap.copyOf st₁.heap labels 1).2.len - 1 := (hst.lastIndex st₁.heap).symm
  rw [hindex] at hloop hinf
  refine ⟨st₃, ?_, hst₃.owns.kept, ?_⟩
  · rw [htotals]
    simp only [bind, Except.bind, hwrite, hloop]
    exact hinf
  · have hall := hst₃.toReads
    rw [List.append_assoc, List.append_assoc] at hall
    exact hall

end Metric

/-- A metric is converted as it is by value, and the arrays that were there stay as they were. -/
theorem appendDtoToTimeseries_reads {st : State} {series : List TimeSeries} (hst : Reads st series)
    {shared : GoSlice} (hshared : st.heap.Holds shared) (float : FloatFormat) (t : Int)
    (mName : GoString) (mType : MetricType) (m : Metric) :
    ∃ st', appendDtoToTimeseries float st t mName shared mType m = .ok st' ∧
      st.heap <+: st'.heap ∧ Reads st' (Scraper.appendDtoToTimeseries float series t mName
        (st.heap.elems shared) mType m) := by
  have hlabels := hst.metricLabels hshared mName m
  have hp := hlabels.owns.kept
  unfold appendDtoToTimeseries Scraper.appendDtoToTimeseries
  have hnone : Reads { st with heap := (metricLabels st.heap mName shared m).1 }
      (series ++ []) := by
    rw [List.append_nil]
    exact hlabels.toReads
  have hsingle (v : Option Float64) : ∃ st', v.elim
      { st with heap := (metricLabels st.heap mName shared m).1 } (fun v ↦
        State.emit { st with heap := (metricLabels st.heap mName shared m).1 } t v
          (metricLabels st.heap mName shared m).2) = st' ∧
      st.heap <+: st'.heap ∧ Reads st' (series ++ (v.map fun v ↦ Scraper.makeTimeseries t v
        (namedLabels mName (st.heap.elems shared) m "")).toList) := by
    cases v with
    | none => exact ⟨_, rfl, hp, hnone⟩
    | some v =>
      have hemit := hlabels.emit t v
      exact ⟨_, rfl, hemit.owns.kept, hemit.toReads⟩
  dsimp only
  cases mType with
  | counter =>
    obtain ⟨st', rfl, h⟩ := hsingle m.counter
    exact ⟨_, rfl, h⟩
  | gauge =>
    obtain ⟨st', rfl, h⟩ := hsingle m.gauge
    exact ⟨_, rfl, h⟩
  | untyped =>
    obtain ⟨st', rfl, h⟩ := hsingle m.untyped
    exact ⟨_, rfl, h⟩
  | summary =>
    cases hq : m.summary with
    | none => exact ⟨_, rfl, hp, hnone⟩
    | some q =>
      obtain ⟨st', hok, hp', hreads⟩ := hlabels.summary float t q
      exact ⟨st', hok, hp.trans hp', hreads⟩
  | histogram =>
    cases hh : m.histogram with
    | none => exact ⟨_, rfl, hp, hnone⟩
    | some h =>
      cases hb : h.bucket with
      | none =>
        refine ⟨_, ?_, hp, ?_⟩
        · simp only [hb]
        · simp only [hb]
          exact hnone
      | some b =>
        obtain ⟨st', hok, hp', hreads⟩ := hlabels.histogram float t h b
        refine ⟨st', ?_, hp.trans hp', ?_⟩
        · simp only [hb]
          exact hok
        · simp only [hb]
          exact hreads
  | gaugeHistogram => exact ⟨_, rfl, hp, hnone⟩

/-! ### All metrics -/

/-- The series so far have these labels, and the arrays of `h₀` are as they were. -/
structure ReadsOver (h₀ : Heap Label) (st : State) (series : List TimeSeries) : Prop
    extends Reads st series where
  kept : h₀ <+: st.heap

private theorem ReadsOver.family {h₀ : Heap Label} {st : State} {series : List TimeSeries}
    (hst : ReadsOver h₀ st series) {shared : GoSlice} (hshared : h₀.Holds shared)
    (float : FloatFormat) (t : Int) (mf : MetricFamily) :
    ∃ st', mf.metric.foldlM (fun st m ↦
        appendDtoToTimeseries float st t mf.name shared mf.type m) st = .ok st' ∧
      ReadsOver h₀ st' (mf.metric.foldl (fun ts m ↦
        Scraper.appendDtoToTimeseries float ts t mf.name (h₀.elems shared) mf.type m) series) := by
  apply Runs.foldlM_simulates _ hst
  intro st series m _ hst
  obtain ⟨st', hok, hp, hreads⟩ := appendDtoToTimeseries_reads hst.toReads
    (hshared.mono hst.kept) float t mf.name mf.type m
  rw [hshared.elems_mono hst.kept] at hreads
  exact ⟨st', hok, hreads, hst.kept.trans hp⟩

private theorem toPrompb_spec (pairs : List LabelPair) :
    Heap.Owns [] (toPrompb [] pairs).1 (toPrompb [] pairs).2 ∧
      (toPrompb [] pairs).1.elems (toPrompb [] pairs).2 = pairs.map truncated := by
  have hmade := Heap.owns_make ([] : Heap Label) zeroLabel 0 pairs.length (Nat.zero_le _)
  have hroom : 0 + (pairs.map truncated).length ≤ pairs.length := by simp
  obtain ⟨howns, helems, -, -⟩ := hmade.appendAll (pairs.map truncated) hroom
  rw [Heap.elems_make, List.replicate_zero, List.nil_append] at helems
  exact ⟨howns, helems⟩

/-- The conversion does not panic, and the series have the labels that the conversion by value
gives them: no series is changed by a later use of the array its labels are in. -/
theorem extractTimeseries_reads (float : FloatFormat) (t : Int) (metrics : List MetricFamily)
    (executionLabels : List LabelPair) :
    ∃ st, extractTimeseries float t metrics executionLabels = .ok st ∧
      Reads st (Scraper.extractTimeseries float t metrics executionLabels) := by
  obtain ⟨howns, helems⟩ := toPrompb_spec executionLabels
  have hstart : ReadsOver (toPrompb [] executionLabels).1
      ⟨(toPrompb [] executionLabels).1, []⟩ [] :=
    ⟨⟨List.forall_mem_nil _, rfl⟩, List.prefix_rfl⟩
  suffices h : ∃ st, extractTimeseries float t metrics executionLabels = .ok st ∧
      ReadsOver (toPrompb [] executionLabels).1 st
        (Scraper.extractTimeseries float t metrics executionLabels) by
    obtain ⟨st, hok, hst⟩ := h
    exact ⟨st, hok, hst.toReads⟩
  apply Runs.foldlM_simulates _ hstart
  intro st series mf _ hst
  by_cases hinfo : mf.name = checkInfoMetricName
  · have hnil : (toPrompb [] executionLabels).1.Holds nilSlice :=
      ⟨Nat.zero_lt_of_lt howns.lt, Nat.zero_le _⟩
    obtain ⟨st', hok, hst'⟩ := hst.family hnil float t mf
    refine ⟨st', ?_, ?_⟩
    · simp only [hinfo, if_true]
      rw [hinfo] at hok
      exact hok
    · simp only [sharedLabels, if_pos hinfo]
      exact hst'
  · obtain ⟨st', hok, hst'⟩ := hst.family howns.toHolds float t mf
    refine ⟨st', ?_, ?_⟩
    · simp only [if_neg hinfo]
      exact hok
    · simp only [sharedLabels, if_neg hinfo]
      rw [← helems]
      exact hst'

end SMAgent.Scraper.OnHeap
