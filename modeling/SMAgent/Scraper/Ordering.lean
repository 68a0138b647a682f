import SMAgent.Scraper.Handler
import SMAgent.Scraper.Tick

/-!
# The order of the samples

The scraper's loop publishes at work ticks and, restamped, at idle ticks; the times of both
only increase. The stale marker of `cleanup` is stamped one millisecond after the last work
tick, "so the marker is strictly after the last real point",
`docs/architecture/scraper.md:189-192`. It is, unless the payload was republished since. A label of
the user that stands before one of the metric's own can make two metrics one series, which then has
two samples of one time.
-/

namespace SMAgent.Scraper
open SMAgent.Base

/-- The callbacks of `Scraper.Run`, `scraper.go:280-288`; `answers n` are the answers to the
`n`-th scrape. -/
def callbacks (s : TypedCheck) (answers : Nat → Answers) : Callbacks ScrapeHandler where
  work t h := h.scrape s (answers h.scrapes) t
  idle t h := h.republish t
  cleanup t h := h.cleanup t

/-- The handler after a run of the loop. -/
def runScraper (s : TypedCheck) (answers : Nat → Answers) (c : TickConfig) (r : Received) :
    ScrapeHandler :=
  tickWithOffset c (callbacks s answers) r {}

/-- The timestamps of the samples of one series, in the order they are published. -/
def timestamps (published : List ProbeData) (labels : List Label) : List Int :=
  published.flatMap fun p ↦
    ((p.ts.filter fun s ↦ s.labels = labels).flatMap TimeSeries.samples).map Sample.timestamp

/-- The samples of every series are in strict order of time, and a stale marker published
last comes after all of them. -/
structure Ordered (published : List ProbeData) : Prop where
  increasing : ∀ labels, (timestamps published labels).Pairwise (· < ·)
  marker : ∀ pre p, published = pre ++ [p] → ∀ s ∈ p.ts, ∀ x ∈ s.samples,
    x.value = staleMarker → ∀ y ∈ timestamps pre s.labels, y < x.timestamp

/-- The collection has data. -/
def Collection.Full (c : Collection) : Prop := c.series ≠ []

/-- No two metrics of the collection are one series. -/
def Collection.Distinct (c : Collection) : Prop := c.series.Nodup

/-! ### The clock -/

/-- The times received after a work tick at `lastTick` and an inactivity tick at `lastIdle`:
each ticker's times increase in milliseconds, and work ticks are a period apart. -/
def TimedFrom (c : TickConfig) : Int → Option Int → List Event → Prop
  | _, _, [] => True
  | _, _, .signal _ :: _ => True
  | lastTick, lastIdle, .inactivity t :: events =>
    (∀ i ∈ lastIdle, unixMilli i < unixMilli t) ∧ TimedFrom c lastTick (some t) events
  | lastTick, lastIdle, .work t :: events =>
    unixMilli lastTick < unixMilli t ∧ lastTick + c.period ≤ t ∧ TimedFrom c t lastIdle events

/-- The times received are after the epoch and come from working tickers. -/
def Timed (c : TickConfig) (r : Received) : Prop :=
  ∀ t, r.start = some t → 0 ≤ t ∧ TimedFrom c t none r.events

/-- The stop, if it comes, finds that `idle` was not called since the last work tick;
`republished` says whether it was called before the events. -/
def FreshFrom (c : TickConfig) : Int → Bool → List Event → Prop
  | _, _, [] => True
  | _, _, .signal .done :: _ => True
  | _, republished, .signal .stop :: _ => republished = false
  | lastTick, republished, .inactivity t :: events =>
    FreshFrom c lastTick (republished || c.idleDue lastTick t) events
  | _, _, .work t :: events => FreshFrom c t false events

/-- The run is not stopped between an idle call and the next work tick. -/
def Fresh (c : TickConfig) (r : Received) : Prop :=
  ∀ t, r.start = some t → FreshFrom c t false r.events

/-! ### Publishing in order -/

/-- The samples of every series are in order, up to the time `m`. -/
def Upto (published : List ProbeData) (m : Int) : Prop :=
  ∀ labels, (timestamps published labels).Pairwise (· < ·) ∧
    ∀ y ∈ timestamps published labels, y ≤ m

private theorem timestamps_concat (published : List ProbeData) (p : ProbeData)
    (labels : List Label) :
    timestamps (published ++ [p]) labels = timestamps published labels ++ timestamps [p] labels :=
  List.flatMap_append

private def stamps (ts : List TimeSeries) (labels : List Label) : List Int :=
  ((ts.filter fun s ↦ s.labels = labels).flatMap TimeSeries.samples).map Sample.timestamp

private theorem stamps_cons {series : TimeSeries} {m : Int} {v : Float64}
    (hv : series.samples = [⟨m, v⟩]) (ts : List TimeSeries) (labels : List Label) :
    stamps (series :: ts) labels =
      (if series.labels = labels then [m] else []) ++ stamps ts labels := by
  unfold stamps
  by_cases hl : series.labels = labels <;> simp [hl, hv]

private theorem stamps_eq (ts : List TimeSeries) (m : Int)
    (hm : ∀ s ∈ ts, ∃ v, s.samples = [⟨m, v⟩]) (hd : (ts.map TimeSeries.labels).Nodup)
    (labels : List Label) :
    stamps ts labels = if labels ∈ ts.map TimeSeries.labels then [m] else [] := by
  induction ts with
  | nil => rfl
  | cons series ts ih =>
    obtain ⟨v, hv⟩ := hm series List.mem_cons_self
    rw [List.map_cons, List.nodup_cons] at hd
    have hrest := ih (List.forall_mem_cons.mp hm).2 hd.2
    rw [stamps_cons hv, hrest]
    by_cases hl : series.labels = labels
    · subst hl
      rw [if_neg hd.1]
      simp
    · simp [hl, Ne.symm hl]

private theorem timestamps_singleton {p : ProbeData} {m : Int} (hp : p.At m)
    (hd : p.series.Nodup) (labels : List Label) :
    timestamps [p] labels = if labels ∈ p.series then [m] else [] :=
  (List.flatMap_singleton _ _).trans (stamps_eq p.ts m hp hd labels)

private theorem nodup_of_stamps (ts : List TimeSeries) (m : Int)
    (hm : ∀ s ∈ ts, ∃ v, s.samples = [⟨m, v⟩])
    (h : ∀ labels, (stamps ts labels).Pairwise (· < ·)) : (ts.map TimeSeries.labels).Nodup := by
  induction ts with
  | nil => exact List.nodup_nil
  | cons series ts ih =>
    obtain ⟨v, hv⟩ := hm series List.mem_cons_self
    have hrest : ∀ s ∈ ts, ∃ v, s.samples = [⟨m, v⟩] := (List.forall_mem_cons.mp hm).2
    simp only [stamps_cons hv, List.pairwise_append] at h
    have hnodup := ih hrest fun labels ↦ (h labels).2.1
    rw [List.map_cons, List.nodup_cons]
    refine ⟨fun hmem ↦ ?_, hnodup⟩
    -- a second sample of these labels would have the same time
    have hlt := (h series.labels).2.2
    rw [if_pos rfl, stamps_eq ts m hrest hnodup, if_pos hmem] at hlt
    exact lt_irrefl m (hlt m (List.mem_singleton_self m) m (List.mem_singleton_self m))

variable {published : List ProbeData}

private theorem nodup_of_increasing {p : ProbeData} {m : Int} (hp : p.At m)
    (h : ∀ labels, (timestamps (published ++ [p]) labels).Pairwise (· < ·)) : p.series.Nodup := by
  refine nodup_of_stamps p.ts m hp fun labels ↦ ?_
  have hlast := h labels
  rw [timestamps_concat, List.pairwise_append] at hlast
  have hp : timestamps [p] labels = stamps p.ts labels := List.flatMap_singleton _ _
  rw [← hp]
  exact hlast.2.1

private theorem upto_concat {m m' : Int} (h : Upto published m) (hm : m < m') {p : ProbeData}
    (hp : p.At m') (hd : p.series.Nodup) : Upto (published ++ [p]) m' := by
  intro labels
  obtain ⟨hinc, hle⟩ := h labels
  rw [timestamps_concat, timestamps_singleton hp hd]
  split
  · refine ⟨List.pairwise_append.mpr ⟨hinc, List.pairwise_singleton _ _, ?_⟩, ?_⟩
    · intro y hy z hz
      rw [List.mem_singleton.mp hz]
      exact lt_of_le_of_lt (hle y hy) hm
    · intro y hy
      rcases List.mem_append.mp hy with hy | hy
      · exact (lt_of_le_of_lt (hle y hy) hm).le
      · exact (List.mem_singleton.mp hy).le
  · rw [List.append_nil]
    exact ⟨hinc, fun y hy ↦ (lt_of_le_of_lt (hle y hy) hm).le⟩

private theorem ordered_of_increasing
    (h : ∀ labels, (timestamps published labels).Pairwise (· < ·)) : Ordered published where
  increasing := h
  marker := by
    rintro pre p rfl s hs x hx _ y hy
    have hp := h s.labels
    rw [timestamps_concat, List.pairwise_append] at hp
    apply hp.2.2 y hy
    simp only [timestamps, List.flatMap_singleton, List.mem_map, List.mem_flatMap, List.mem_filter]
    exact ⟨x, ⟨s, ⟨hs, decide_eq_true rfl⟩, hx⟩, rfl⟩

/-- The handler between two calls: its payload is the one it published last, at time `m`. -/
structure Live (h : ScrapeHandler) (m : Int) : Prop where
  upto : Upto h.published m
  kept : ∃ p, h.payload = some p ∧ (∃ pre, h.published = pre ++ [p]) ∧ p.At m ∧
    p.series.Nodup ∧ p.series ≠ []

variable {h : ScrapeHandler}

private theorem live_scrape {m t : Int} (hu : Upto h.published m) (hm : m < unixMilli t)
    (ht : 0 ≤ t) (s : TypedCheck) {a : Answers} (ha : a.collection.Full)
    (hdistinct : a.collection.Distinct) : Live (h.scrape s a t) (unixMilli t) := by
  obtain ⟨p, hp⟩ : ∃ p, (collectData s a.collection t).1 = some p := by
    apply Option.isSome_iff_exists.mp
    rw [isSome_collectData]
    cases hc : a.collection with
    | error => exact absurd (congrArg Collection.series hc) ha
    | probed success metrics streams duration => rfl
  have hat := at_collectData hp
  have hseries := series_collectData hp
  rw [unixNanoMilli_eq_unixMilli ht] at hat
  have hd : p.series.Nodup := by
    rw [hseries]
    exact hdistinct
  have hpub : (h.scrape s a t).published = h.published ++ [p] := by
    rw [h.published_scrape, hp]
    rfl
  refine ⟨?_, p, ?_, ⟨h.published, hpub⟩, hat, hd, ?_⟩
  · rw [hpub]
    exact upto_concat hu hm hat hd
  · rw [h.payload_scrape, hp]
  · rw [hseries]
    exact ha

private theorem live_republish {m t : Int} (hl : Live h m) (hm : m < unixMilli t) :
    Live (h.republish t) (unixMilli t) := by
  obtain ⟨hu, p, hp, -, hat, hd, hne⟩ := hl
  rw [h.republish_of_some t hp]
  have hd' : (p.restamp t).series.Nodup := by
    rw [p.series_restamp]
    exact hd
  refine ⟨upto_concat hu hm (hat.restamp t) hd', p.restamp t, rfl, ⟨h.published, rfl⟩,
    hat.restamp t, hd', ?_⟩
  rw [p.series_restamp]
  exact hne

private theorem ordered_of_live {m : Int} (hl : Live h m) : Ordered h.published :=
  ordered_of_increasing fun labels ↦ (hl.upto labels).1

-- The markers are in order exactly when they are later than the kept payload.
private theorem ordered_cleanup_iff {m t : Int} (hl : Live h m) :
    Ordered (h.cleanup t).published ↔ m < unixNanoMilli t + 1 := by
  obtain ⟨hu, p, hp, ⟨pre, hpre⟩, hat, hd, hne⟩ := hl
  rw [h.cleanup_of_some t hp]
  have hd' : (p.stale t).series.Nodup := by
    rw [p.series_stale]
    exact hd
  constructor
  · intro ho
    obtain ⟨labels, hlabels⟩ := List.exists_mem_of_ne_nil _ hne
    have hinc := ho.increasing labels
    rw [timestamps_concat, timestamps_singleton (hat.stale t) hd', p.series_stale,
      if_pos hlabels, hpre, timestamps_concat, timestamps_singleton hat hd, if_pos hlabels] at hinc
    exact (List.pairwise_append.mp hinc).2.2 m
      (List.mem_append_right _ (List.mem_singleton_self m)) _ (List.mem_singleton_self _)
  · intro hm
    exact ordered_of_increasing fun labels ↦ (upto_concat hu hm (hat.stale t) hd' labels).1

-- What is published stays so, and scrapes are counted.
private def Extends (h h' : ScrapeHandler) : Prop :=
  h.published <+: h'.published ∧ h.scrapes ≤ h'.scrapes

private theorem Extends.scrape {h₀ h : ScrapeHandler} (hext : Extends h₀ h) (s : TypedCheck)
    (a : Answers) (t : Int) : Extends h₀ (h.scrape s a t) := by
  rw [Extends, h.published_scrape, h.scrapes_scrape]
  exact ⟨hext.1.trans (List.prefix_append _ _), hext.2.trans (Nat.le_succ _)⟩

private theorem Extends.republish {h₀ h : ScrapeHandler} (hext : Extends h₀ h) (t : Int) :
    Extends h₀ (h.republish t) := by
  cases hp : h.payload with
  | none => rwa [h.republish_of_none t hp]
  | some p =>
    rw [h.republish_of_some t hp]
    exact ⟨hext.1.trans (List.prefix_append _ _), hext.2⟩

private theorem Extends.cleanup {h₀ h : ScrapeHandler} (hext : Extends h₀ h) (t : Int) :
    Extends h₀ (h.cleanup t) := by
  cases hp : h.payload with
  | none => rwa [h.cleanup_of_none t hp]
  | some p =>
    rw [h.cleanup_of_some t hp]
    exact ⟨hext.1.trans (List.prefix_append _ _), hext.2⟩

private theorem extends_tickLoop (s : TypedCheck) (answers : Nat → Answers) (c : TickConfig)
    (events : List Event) (lastTick : Int) (h : ScrapeHandler) :
    Extends h (tickLoop c (callbacks s answers) lastTick events h) :=
  tickLoop_invariant c (fun t _ hext ↦ hext.scrape s _ t) (fun t _ hext ↦ hext.republish t)
    (fun t _ hext ↦ hext.cleanup t) events lastTick ⟨List.prefix_rfl, le_rfl⟩

private theorem ordered_of_prefix {published published' : List ProbeData}
    (hpre : published <+: published') (h : Ordered published') :
    ∀ labels, (timestamps published labels).Pairwise (· < ·) := by
  intro labels
  obtain ⟨rest, rfl⟩ := hpre
  have hinc := h.increasing labels
  rw [timestamps, List.flatMap_append, List.pairwise_append] at hinc
  exact hinc.1

-- A scrape whose metrics are not distinct series is out of order, whatever follows.
private theorem ordered_scrape_iff {answers : Nat → Answers} {h final : ScrapeHandler} {m t : Int}
    {s : TypedCheck} {fresh : Prop} (hu : Upto h.published m) (hm : m < unixMilli t) (ht : 0 ≤ t)
    (hfull : (answers h.scrapes).collection.Full)
    (hext : Extends (h.scrape s (answers h.scrapes) t) final)
    (hlive : Live (h.scrape s (answers h.scrapes) t) (unixMilli t) →
      (Ordered final.published ↔ fresh ∧ ∀ n, h.scrapes + 1 ≤ n → n < final.scrapes →
        (answers n).collection.Distinct)) :
    Ordered final.published ↔ fresh ∧ ∀ n, h.scrapes ≤ n → n < final.scrapes →
      (answers n).collection.Distinct := by
  by_cases hd : (answers h.scrapes).collection.Distinct
  · rw [hlive (live_scrape hu hm ht s hfull hd)]
    refine and_congr_right fun _ ↦ ⟨fun hall n hle ↦ ?_, fun hall n hle ↦ hall n (by omega)⟩
    rcases Nat.lt_or_eq_of_le hle with hlt | rfl
    · exact hall n hlt
    · exact fun _ ↦ hd
  · have hlt : h.scrapes < final.scrapes := by
      have hle := hext.2
      rw [h.scrapes_scrape] at hle
      exact hle
    refine iff_of_false (fun ho ↦ hd ?_) fun hall ↦ hd (hall.2 _ le_rfl hlt)
    have hinc := ordered_of_prefix hext.1 ho
    rw [h.published_scrape] at hinc
    cases hp : (collectData s (answers h.scrapes).collection t).1 with
    | none =>
      have hdata := isSome_collectData s (answers h.scrapes).collection t
      rw [hp] at hdata
      cases hc : (answers h.scrapes).collection with
      | error => exact absurd (congrArg Collection.series hc) hfull
      | probed success metrics streams duration =>
        rw [hc] at hdata
        cases hdata
    | some p =>
      rw [hp] at hinc
      rw [Collection.Distinct, ← series_collectData hp]
      exact nodup_of_increasing (at_collectData hp) hinc

/-! ### The loop -/

/-- The time `m` of the last publication, relative to the last ticks: it was the work tick,
or an idle call between it and the next. -/
def Placed (c : TickConfig) (lastTick : Int) (lastIdle : Option Int) (republished : Bool)
    (m : Int) : Prop :=
  if republished then
    ∃ i, m = unixMilli i ∧ c.minGap ≤ i - lastTick ∧ c.minGap ≤ lastTick + c.period - i ∧
      ∃ j ∈ lastIdle, unixMilli i ≤ unixMilli j
  else m = unixMilli lastTick

private theorem unixMilli_lt {a b : Int} (h : a + 1000000 ≤ b) : unixMilli a < unixMilli b := by
  unfold unixMilli
  omega

private theorem idleDue_iff (c : TickConfig) (lastTick t : Int) : c.idleDue lastTick t = true ↔
    c.maxIdle < c.period ∧ c.minGap ≤ t - lastTick ∧ c.minGap ≤ lastTick + c.period - t := by
  simp [TickConfig.idleDue, and_assoc]

variable {lastIdle : Option Int} {c : TickConfig} {republished : Bool}

private theorem Placed.lt_of_work (hgap : 1000000 ≤ c.minGap) {lastTick m t : Int}
    (h : Placed c lastTick lastIdle republished m) (hlt : unixMilli lastTick < unixMilli t)
    (hperiod : lastTick + c.period ≤ t) : m < unixMilli t := by
  unfold Placed at h
  split at h
  · obtain ⟨i, rfl, -, hnext, -⟩ := h
    exact unixMilli_lt (by omega)
  · rw [h]
    exact hlt

private theorem Placed.lt_of_idle (hgap : 1000000 ≤ c.minGap) {lastTick m t : Int}
    (h : Placed c lastTick lastIdle republished m)
    (hlt : ∀ i ∈ lastIdle, unixMilli i < unixMilli t) (hdue : c.idleDue lastTick t) :
    m < unixMilli t := by
  obtain ⟨-, hlast, -⟩ := (idleDue_iff c lastTick t).mp hdue
  unfold Placed at h
  split at h
  · obtain ⟨i, rfl, -, -, j, hj, hij⟩ := h
    exact lt_of_le_of_lt hij (hlt j hj)
  · rw [h]
    exact unixMilli_lt (by omega)

private theorem Placed.of_idle {lastTick t : Int} (hdue : c.idleDue lastTick t) :
    Placed c lastTick (some t) true (unixMilli t) := by
  obtain ⟨-, hlast, hnext⟩ := (idleDue_iff c lastTick t).mp hdue
  exact ⟨t, rfl, hlast, hnext, t, rfl, le_refl _⟩

private theorem Placed.of_skipped {lastTick m t : Int}
    (h : Placed c lastTick lastIdle republished m)
    (hlt : ∀ i ∈ lastIdle, unixMilli i < unixMilli t) :
    Placed c lastTick (some t) republished m := by
  unfold Placed at h ⊢
  split
  · next hr =>
    rw [if_pos hr] at h
    obtain ⟨i, hm, hlast, hnext, j, hj, hij⟩ := h
    exact ⟨i, hm, hlast, hnext, t, rfl, hij.trans (hlt j hj).le⟩
  · next hr =>
    rw [if_neg hr] at h
    exact h

private theorem Placed.lt_marker_iff (hgap : 1000000 ≤ c.minGap) {lastTick m : Int}
    (h0 : 0 ≤ lastTick) (h : Placed c lastTick lastIdle republished m) :
    m < unixNanoMilli lastTick + 1 ↔ republished = false := by
  rw [unixNanoMilli_eq_unixMilli h0]
  cases republished with
  | false =>
    have hm : m = unixMilli lastTick := h
    rw [hm]
    exact ⟨fun _ ↦ rfl, fun _ ↦ Int.lt_succ _⟩
  | true =>
    obtain ⟨i, rfl, hlast, -⟩ := h
    have hlt := unixMilli_lt (a := lastTick) (b := i) (by omega)
    constructor
    · intro h
      omega
    · nofun

private theorem scrapes_republish (h : ScrapeHandler) (t : Int) :
    (h.republish t).scrapes = h.scrapes := by
  cases hp : h.payload with
  | none => rw [h.republish_of_none t hp]
  | some p => rw [h.republish_of_some t hp]

private theorem scrapes_cleanup (h : ScrapeHandler) (t : Int) :
    (h.cleanup t).scrapes = h.scrapes := by
  cases hp : h.payload with
  | none => rw [h.cleanup_of_none t hp]
  | some p => rw [h.cleanup_of_some t hp]

private theorem ordered_tickLoop_iff (s : TypedCheck) (answers : Nat → Answers) (c : TickConfig)
    (hanswers : ∀ n, (answers n).collection.Full) (hgap : 1000000 ≤ c.minGap)
    (events : List Event) (lastTick m : Int) (lastIdle : Option Int) (republished : Bool)
    (h : ScrapeHandler) (hl : Live h m) (h0 : 0 ≤ lastTick)
    (hp : Placed c lastTick lastIdle republished m) (ht : TimedFrom c lastTick lastIdle events) :
    let final := tickLoop c (callbacks s answers) lastTick events h
    Ordered final.published ↔ FreshFrom c lastTick republished events ∧
      ∀ n, h.scrapes ≤ n → n < final.scrapes → (answers n).collection.Distinct := by
  -- The events are received one by one; `m` is the time of the last publication so far.
  induction events generalizing lastTick m lastIdle republished h with
  | nil => exact iff_of_true (ordered_of_live hl) ⟨trivial, fun n hle hlt ↦ absurd hlt hle.not_gt⟩
  | cons e events ih =>
    cases e with
    | signal sig =>
      cases sig with
      | done =>
        exact iff_of_true (ordered_of_live hl) ⟨trivial, fun n hle hlt ↦ absurd hlt hle.not_gt⟩
      | stop =>
        have hz : lastTick ≠ zeroTime := by
          unfold zeroTime
          omega
        dsimp only
        rw [tickLoop, if_neg hz]
        refine ((ordered_cleanup_iff hl).trans (hp.lt_marker_iff hgap h0)).trans
          (and_iff_left fun n hle hlt ↦ ?_).symm
        rw [show (callbacks s answers).cleanup lastTick h = h.cleanup lastTick from rfl,
          scrapes_cleanup] at hlt
        exact absurd hlt hle.not_gt
    | inactivity t =>
      obtain ⟨hlt, hrest⟩ := ht
      dsimp only
      rw [tickLoop, FreshFrom]
      by_cases hdue : c.idleDue lastTick t
      · rw [if_pos hdue, hdue, Bool.or_true]
        have hloop := ih lastTick (unixMilli t) (some t) true _
          (live_republish hl (hp.lt_of_idle hgap hlt hdue)) h0 (.of_idle hdue) hrest
        rwa [scrapes_republish] at hloop
      · rw [if_neg hdue, Bool.eq_false_iff.mpr hdue, Bool.or_false]
        exact ih lastTick m (some t) republished h hl h0 (hp.of_skipped hlt) hrest
    | work t =>
      obtain ⟨hlt, hperiod, hrest⟩ := ht
      have ht0 : 0 ≤ t := by
        have := c.period_pos
        omega
      refine ordered_scrape_iff hl.upto (hp.lt_of_work hgap hlt hperiod) ht0 (hanswers _)
        (extends_tickLoop s answers c events t _) fun hlive ↦ ?_
      have hloop := ih t (unixMilli t) lastIdle false _ hlive ht0 rfl hrest
      rwa [h.scrapes_scrape] at hloop

/-- The samples and the markers of a run are in order exactly if it is not stopped between a
republication and the next scrape, and no scrape has two metrics that are one series. -/
theorem ordered_iff_fresh (s : TypedCheck) (answers : Nat → Answers) (c : TickConfig)
    (r : Received) (hanswers : ∀ n, (answers n).collection.Full) (hgap : 1000000 ≤ c.minGap)
    (ht : Timed c r) :
    Ordered (runScraper s answers c r).published ↔
      Fresh c r ∧ ∀ n < (runScraper s answers c r).scrapes, (answers n).collection.Distinct := by
  unfold runScraper
  cases hr : r.start with
  | none =>
    rw [tickWithOffset_of_none c _ hr]
    refine iff_of_true (ordered_of_increasing fun _ ↦ List.Pairwise.nil) ⟨?_, nofun⟩
    intro t h
    cases hr.symm.trans h
  | some t =>
    obtain ⟨ht0, hevents⟩ := ht t hr
    rw [tickWithOffset_of_some c _ hr]
    have hfirst : Upto (ScrapeHandler.published {}) (unixMilli t - 1) :=
      fun _ ↦ ⟨List.Pairwise.nil, nofun⟩
    have hfresh : Fresh c r ↔ FreshFrom c t false r.events := by
      refine ⟨fun h ↦ h t hr, fun h u hu ↦ ?_⟩
      cases hr.symm.trans hu
      exact h
    have hext := extends_tickLoop s answers c r.events t
      (({} : ScrapeHandler).scrape s (answers 0) t)
    have hscrape := ordered_scrape_iff (s := s) hfirst (Int.sub_one_lt_of_le le_rfl) ht0
      (hanswers 0) hext fun hlive ↦ by
        have hloop := ordered_tickLoop_iff s answers c hanswers hgap r.events t (unixMilli t) none
          false _ hlive ht0 rfl hevents
        rwa [ScrapeHandler.scrapes_scrape] at hloop
    rw [hfresh]
    refine hscrape.trans (and_congr_right fun _ ↦ ?_)
    exact ⟨fun hall n ↦ hall n (Nat.zero_le n), fun hall n _ ↦ hall n⟩

/-- A check every ten minutes, republished every two. -/
def tenMinutes : TickConfig where
  period := 600000000000
  maxIdle := 120000000000
  minGap := 10000000000
  period_pos := by decide
  maxIdle_pos := by decide

private theorem full_upOnce : upOnce.Full := List.cons_ne_nil _ _

private theorem distinct_upOnce : upOnce.Distinct := List.nodup_singleton _

/-- The run is stopped after a scrape that followed the republication. -/
def stoppedFresh : Received where
  wait := .offset 0
  events := [.inactivity 120000000000, .work 600000000000, .signal .stop]

/-- Stopped right after a scrape, the samples and the markers are in order. -/
theorem ordered_stoppedFresh :
    upOnce.Full ∧ upOnce.Distinct ∧ Timed tenMinutes stoppedFresh ∧ Fresh tenMinutes stoppedFresh ∧
      Ordered
        (runScraper pingCheck (fun _ ↦ ⟨upOnce, none⟩) tenMinutes stoppedFresh).published := by
  have ht : Timed tenMinutes stoppedFresh := by
    intro t h
    cases h
    exact ⟨by decide, nofun, by decide, by decide, trivial⟩
  have hf : Fresh tenMinutes stoppedFresh := by
    intro t h
    cases h
    rfl
  refine ⟨full_upOnce, distinct_upOnce, ht, hf, ?_⟩
  exact (ordered_iff_fresh _ _ _ _ (fun _ ↦ full_upOnce) (by decide) ht).mpr
    ⟨hf, fun _ _ ↦ distinct_upOnce⟩

/-- The run is stopped between the republication and the next scrape. -/
def stoppedRepublished : Received where
  wait := .offset 0
  events := [.inactivity 120000000000, .signal .stop]

/-- Stopped after a republication, the markers are published for a time before it. -/
theorem not_ordered_stoppedRepublished :
    upOnce.Full ∧ upOnce.Distinct ∧ 1000000 ≤ tenMinutes.minGap ∧
      Timed tenMinutes stoppedRepublished ∧
      ¬ Ordered (runScraper pingCheck (fun _ ↦ ⟨upOnce, none⟩) tenMinutes
        stoppedRepublished).published := by
  refine ⟨full_upOnce, distinct_upOnce, by decide, ?_, ?_⟩
  · intro t h
    cases h
    exact ⟨by decide, nofun, trivial⟩
  · intro h
    have hinc := h.increasing [⟨GoString.lit "job", []⟩]
    revert hinc
    decide

end SMAgent.Scraper
