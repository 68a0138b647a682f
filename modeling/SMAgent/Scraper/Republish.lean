import SMAgent.Scraper.Handler

/-!
# What is sent again

The payload that the handler keeps is meant to be the one it published last,
`scraper.go:295-299`: `republish` repeats it and `cleanup` ends its series. A collection that
fails publishes nothing but still replaces the kept payload, so the two agree exactly as long
as the last collection had data.
-/

namespace SMAgent.Scraper
open SMAgent.Base

/-- A call that the ticker makes before the stop. -/
inductive Call where
  | scrape (answers : Answers) (t : Int)
  | republish (t : Int)
  deriving DecidableEq

/-- The effect of a call. -/
def ScrapeHandler.call (s : TypedCheck) (h : ScrapeHandler) : Call → ScrapeHandler
  | .scrape a t => h.scrape s a t
  | .republish t => h.republish t

/-- The handler after the calls. -/
def run (s : TypedCheck) (calls : List Call) : ScrapeHandler :=
  calls.foldl (ScrapeHandler.call s) {}

/-- From `h` to `h'` one payload was published, and its series are those of the most recently
published payload, each changed by `f`. -/
def Sends (f : TimeSeries → TimeSeries) (h h' : ScrapeHandler) : Prop :=
  ∀ last, h.published.getLast? = some last →
    ∃ p, h'.published = h.published ++ [p] ∧ p.ts = last.ts.map f

/-- The series with its samples at the time `t`. -/
def repeated (t : Int) (series : TimeSeries) : TimeSeries :=
  { series with samples := series.samples.map fun x ↦ ⟨unixMilli t, x.value⟩ }

/-- The series with one stale marker, after the time `t`. -/
def ended (t : Int) (series : TimeSeries) : TimeSeries :=
  { series with samples := [⟨unixNanoMilli t + 1, staleMarker⟩] }

/-- In the run of `calls` that a `cleanup` at `t` ends, every `republish` sends the series of
the most recently published payload again, and the `cleanup` ends each of them once. -/
def Mirrored (s : TypedCheck) (calls : List Call) (t : Int) : Prop :=
  (∀ pre u post, calls = pre ++ .republish u :: post →
    Sends (repeated u) (run s pre) ((run s pre).republish u)) ∧
  Sends (ended t) (run s calls) ((run s calls).cleanup t)

/-- The collections of the scrapes. -/
def collections (calls : List Call) : List Collection :=
  calls.filterMap fun
    | .scrape a _ => some a.collection
    | .republish _ => none

/-- Once a collection had data, the last one had. -/
def Current (calls : List Call) : Prop :=
  (∃ c ∈ collections calls, c.hasData) → (collections calls).getLast?.any Collection.hasData

/-- Every `republish` and the end of the run follow a collection with data, if any. -/
def AllCurrent (calls : List Call) : Prop :=
  (∀ pre u post, calls = pre ++ .republish u :: post → Current pre) ∧ Current calls

/-! ### What the handler keeps -/

/-- The kept payload and the published ones, in terms of the collections. -/
structure Tracks (calls : List Call) (h : ScrapeHandler) : Prop where
  kept : h.payload.isSome = (collections calls).getLast?.any Collection.hasData
  published : h.published ≠ [] ↔ ∃ c ∈ collections calls, c.hasData
  last : ∀ p, h.payload = some p → h.published.getLast? = some p ∧ ∃ m, p.At m

private theorem collections_scrape (calls : List Call) (a : Answers) (t : Int) :
    collections (calls ++ [.scrape a t]) = collections calls ++ [a.collection] := by
  simp [collections]

private theorem collections_republish (calls : List Call) (t : Int) :
    collections (calls ++ [.republish t]) = collections calls := by
  simp [collections]

private theorem tracks_scrape {calls : List Call} {h : ScrapeHandler} (hh : Tracks calls h)
    (s : TypedCheck) (a : Answers) (t : Int) :
    Tracks (calls ++ [.scrape a t]) (h.scrape s a t) := by
  have hdata := isSome_collectData s a.collection t
  refine ⟨?_, ?_, ?_⟩
  · rw [h.payload_scrape, collections_scrape, List.getLast?_concat, hdata]
    rfl
  · rw [h.published_scrape, collections_scrape]
    cases hp : (collectData s a.collection t).1 with
    | none =>
      rw [hp] at hdata
      simp [← hdata, hh.published]
    | some p =>
      rw [hp] at hdata
      simp [← hdata]
  · intro p hp
    rw [h.payload_scrape] at hp
    rw [h.published_scrape, hp]
    exact ⟨List.getLast?_concat, _, at_collectData hp⟩

private theorem tracks_republish {calls : List Call} {h : ScrapeHandler} (hh : Tracks calls h)
    (t : Int) : Tracks (calls ++ [.republish t]) (h.republish t) := by
  cases hp : h.payload with
  | none =>
    rw [h.republish_of_none t hp]
    refine ⟨?_, ?_, hh.last⟩
    · rw [collections_republish]
      exact hh.kept
    · rw [collections_republish]
      exact hh.published
  | some p =>
    obtain ⟨hlast, m, hm⟩ := hh.last p hp
    have hsome : h.published ≠ [] := by
      intro h0
      rw [h0] at hlast
      cases hlast
    rw [h.republish_of_some t hp]
    refine ⟨?_, ?_, ?_⟩
    · rw [collections_republish, ← hh.kept, hp]
      rfl
    · rw [collections_republish, ← hh.published]
      exact ⟨fun _ ↦ hsome, fun _ ↦ List.append_ne_nil_of_right_ne_nil _ (List.cons_ne_nil _ _)⟩
    · intro p' hp'
      cases hp'
      exact ⟨List.getLast?_concat, _, hm.restamp t⟩

private theorem tracks_run (s : TypedCheck) (calls : List Call) : Tracks calls (run s calls) := by
  -- From the last call on: each call extends the run before it.
  induction calls using List.reverseRecOn with
  | nil => exact ⟨rfl, by simp [run, collections], nofun⟩
  | append_singleton calls c ih =>
    rw [run, List.foldl_concat]
    cases c with
    | scrape a t => exact tracks_scrape ih s a t
    | republish t => exact tracks_republish ih t

-- A call that sends the kept payload, changed by `f`, and nothing without one.
private theorem sends_iff_current {calls : List Call} {h h' : ScrapeHandler}
    (hh : Tracks calls h) (f : TimeSeries → TimeSeries)
    (hnone : h.payload = none → h'.published = h.published)
    (hsome : ∀ p, h.payload = some p →
      ∃ q, h'.published = h.published ++ [q] ∧ q.ts = p.ts.map f) :
    Sends f h h' ↔ Current calls := by
  constructor
  · intro hs hany
    rw [← hh.kept]
    cases hp : h.payload with
    | some p => rfl
    | none =>
      obtain ⟨last, hlast⟩ := Option.isSome_iff_exists.mp
        (List.getLast?_isSome.mpr (hh.published.mpr hany))
      obtain ⟨q, hq, -⟩ := hs last hlast
      rw [hnone hp] at hq
      cases List.self_eq_append_right.mp hq
  · intro hc last hlast
    have hany := hh.published.mp (List.ne_nil_of_mem (List.mem_of_getLast? hlast))
    have hkept := hh.kept.trans (hc hany)
    obtain ⟨p, hp⟩ := Option.isSome_iff_exists.mp hkept
    rw [(hh.last p hp).1] at hlast
    obtain rfl := Option.some.inj hlast
    exact hsome p hp

private theorem sends_republish_iff (s : TypedCheck) (calls : List Call) (t : Int) :
    Sends (repeated t) (run s calls) ((run s calls).republish t) ↔ Current calls := by
  apply sends_iff_current (tracks_run s calls)
  · intro hp
    rw [(run s calls).republish_of_none t hp]
  · intro p hp
    exact ⟨p.restamp t, by rw [(run s calls).republish_of_some t hp], rfl⟩

private theorem sends_cleanup_iff (s : TypedCheck) (calls : List Call) (t : Int) :
    Sends (ended t) (run s calls) ((run s calls).cleanup t) ↔ Current calls := by
  have hh := tracks_run s calls
  apply sends_iff_current hh
  · intro hp
    rw [(run s calls).cleanup_of_none t hp]
  · intro p hp
    obtain ⟨-, m, hm⟩ := hh.last p hp
    exact ⟨p.stale t, by rw [(run s calls).cleanup_of_some t hp], hm.ts_stale t⟩

/-- Everything sent after the scrapes mirrors the last published payload exactly in the runs
whose republications and stop follow a collection with data, if any. -/
theorem mirrored_iff_allCurrent (s : TypedCheck) (calls : List Call) (t : Int) :
    Mirrored s calls t ↔ AllCurrent calls := by
  apply and_congr
  · exact forall₄_congr fun pre u post _ ↦ sends_republish_iff s pre u
  · exact sends_cleanup_iff s calls t

/-- A collection fails between a successful one and the stop: no marker is sent. -/
theorem not_mirrored_failed_collection :
    ¬ Mirrored pingCheck [.scrape ⟨upOnce, none⟩ 0, .scrape ⟨.error, none⟩ 60000000000]
      60000000000 := by
  intro h
  obtain ⟨p, hp, -⟩ := h.2 _ rfl
  cases List.self_eq_append_right.mp hp

end SMAgent.Scraper
