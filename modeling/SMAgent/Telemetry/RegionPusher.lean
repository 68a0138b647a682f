import Mathlib.Algebra.Order.Floor.Ring
import Mathlib.Data.Finset.Dedup
import Mathlib.Data.Rat.Floor
import SMAgent.Base.GoMap
import SMAgent.Telemetry.Cals

/-!
# Region telemetry aggregation

`internal/telemetry/region_pusher.go:164-237`. Executions are accumulated in three nested
maps: tenant, check class, serialized labels. `next` copies the maps into a report.
Counters are `int32` and durations `int64` nanoseconds, both wrapping.
-/

namespace SMAgent.Telemetry
open SMAgent.Base

/-- `sm.CheckClass`, `pkg/pb/synthetic_monitoring/checks.proto:697-701`. -/
inductive CheckClass where
  | protocol
  | scripted
  | browser
  deriving DecidableEq, Repr

/-- `telemetry.Execution`, `internal/telemetry/telemeter.go:46-52`. -/
structure Execution where
  localTenantID : Int64
  regionID : Int32
  checkClass : CheckClass
  duration : Int64
  costAttributionLabels : List CostAttributionLabel

/-- `sm.CheckClassTelemetry`, `checks.proto:719-728`. -/
structure CheckClassTelemetry where
  checkClass : CheckClass
  executions : Int32
  duration : Float32
  sampledExecutions : Int32
  costAttributionLabels : List CostAttributionLabel

/-- `sm.TenantTelemetry`, `checks.proto:713-716`. -/
structure TenantTelemetry where
  tenantId : Int64
  telemetry : List CheckClassTelemetry

/-- `sm.RegionTelemetry`, `checks.proto:706-710`. -/
structure RegionTelemetry where
  inst : GoString
  regionId : Int32
  telemetry : List TenantTelemetry

/-- The state of `RegionPusher` that `AddExecution` and `next` read and write. -/
structure RegionPusher where
  inst : GoString
  regionID : Int32
  telemetry : GoMap Int64 (GoMap CheckClass (GoMap GoString CheckClassTelemetry))

/-- `time.Minute` in nanoseconds. -/
def minute : Int64 := 60000000000

/-- `int32((d + time.Minute - 1) / time.Minute)`, in wrapping arithmetic. -/
def sampledExecutionsOf (d : Int64) : Int32 := ((d + minute - 1) / minute).toInt32

/-- `time.Duration.Seconds`. -/
def seconds (d : Int64) : Float :=
  (d / 1000000000).toFloat + (d % 1000000000).toFloat / 1e9

namespace CheckClassTelemetry

/-- A freshly allocated counter with the labels parsed from its key. -/
def new (checkClass : CheckClass) (cals : List CostAttributionLabel) : CheckClassTelemetry :=
  ⟨checkClass, 0, 0, 0, cals⟩

/-- The three accumulations of `AddExecution`. -/
def bump (calTele : CheckClassTelemetry) (e : Execution) : CheckClassTelemetry :=
  { calTele with
    executions := calTele.executions + 1
    duration := calTele.duration + (seconds e.duration).toFloat32
    sampledExecutions := calTele.sampledExecutions + sampledExecutionsOf e.duration }

end CheckClassTelemetry

namespace RegionPusher

/-- `NewRegionPusher`, `region_pusher.go:64-91`. -/
def new (inst : GoString) (regionID : Int32) : RegionPusher := ⟨inst, regionID, ∅⟩

/-- `region_pusher.go:164-205`. The only failure is the parse of a key that is new. -/
def addExecution (p : RegionPusher) (e : Execution) : Except Panic RegionPusher :=
  let tenantTele := (p.telemetry.lookup e.localTenantID).getD ∅
  let clTele := (tenantTele.lookup e.checkClass).getD ∅
  let calsKey := serializeCALs e.costAttributionLabels
  let store := fun (calTele : CheckClassTelemetry) ↦
    RegionPusher.mk p.inst p.regionID (p.telemetry.insert e.localTenantID
      (tenantTele.insert e.checkClass (clTele.insert calsKey (calTele.bump e))))
  match clTele.lookup calsKey with
  | some calTele => .ok (store calTele)
  | none =>
    match deserializeCals calsKey with
    | .ok cals => .ok (store (.new e.checkClass cals))
    | .error panic => .error panic

/-- `region_pusher.go:207-237`. -/
def next (p : RegionPusher) : RegionTelemetry where
  inst := p.inst
  regionId := p.regionID
  telemetry := p.telemetry.range.map fun (tenantID, tTele) ↦
    { tenantId := tenantID
      telemetry := tTele.range.flatMap fun (_, clTele) ↦ clTele.range.map Prod.snd }

/-- The counter stored under a tenant, a class and a label key. -/
def find (p : RegionPusher) (t : Int64) (c : CheckClass) (k : GoString) :
    Option CheckClassTelemetry :=
  (p.telemetry.lookup t).bind fun tTele ↦ (tTele.lookup c).bind fun clTele ↦ clTele.lookup k

private theorem lookup_getD (p : RegionPusher) (t : Int64) (c : CheckClass) (k : GoString) :
    ((((p.telemetry.lookup t).getD ∅).lookup c).getD ∅).lookup k = p.find t c k := by
  unfold find
  cases p.telemetry.lookup t with
  | none => rfl
  | some tTele => cases hc : tTele.lookup c <;> simp [hc]

private theorem find_insert (p : RegionPusher) (t t' : Int64) (c c' : CheckClass)
    (k k' : GoString) (x : CheckClassTelemetry) :
    find ⟨p.inst, p.regionID, p.telemetry.insert t (((p.telemetry.lookup t).getD ∅).insert c
      (((((p.telemetry.lookup t).getD ∅).lookup c).getD ∅).insert k x))⟩ t' c' k' =
      if t' = t ∧ c' = c ∧ k' = k then some x else p.find t' c' k' := by
  simp only [find, GoMap.lookup_insert_eq]
  by_cases ht : t' = t
  · subst ht
    by_cases hc : c' = c
    · subst hc
      by_cases hk : k' = k
      · simp [hk, GoMap.lookup_insert_eq]
      · simpa [hk, GoMap.lookup_insert_eq, find] using lookup_getD p t' c' k'
    · simp only [hc, if_true, if_false, and_false, false_and, Option.bind_some,
        GoMap.lookup_insert_eq]
      cases p.telemetry.lookup t' <;> rfl
  · simp [ht]

/-- A first execution of a key allocates its counter; any other reuses it. Only the
counter of the key of the execution changes. -/
theorem addExecution_cases (p p' : RegionPusher) (e : Execution) (h : p.addExecution e = .ok p') :
    ∃ calTele,
      (p.find e.localTenantID e.checkClass (serializeCALs e.costAttributionLabels) = some calTele ∨
        p.find e.localTenantID e.checkClass (serializeCALs e.costAttributionLabels) = none ∧
          ∃ cals, deserializeCals (serializeCALs e.costAttributionLabels) = .ok cals ∧
            calTele = .new e.checkClass cals) ∧
      ∀ t c k, p'.find t c k =
        if t = e.localTenantID ∧ c = e.checkClass ∧ k = serializeCALs e.costAttributionLabels then
          some (calTele.bump e) else p.find t c k := by
  unfold addExecution at h
  simp only [lookup_getD] at h
  split at h
  · next calTele hf =>
    cases h
    exact ⟨calTele, .inl hf, fun t c k ↦ find_insert p _ t _ c _ k _⟩
  · next hf =>
    split at h
    · next cals hd =>
      cases h
      exact ⟨.new e.checkClass cals, .inr ⟨hf, cals, hd, rfl⟩,
        fun t c k ↦ find_insert p _ t _ c _ k _⟩
    · cases h

/-- A key whose labels hold no separator is never refused. -/
theorem addExecution_ok (p : RegionPusher) (e : Execution)
    (h : ∀ l ∈ e.costAttributionLabels, l.Plain) : ∃ p', p.addExecution e = .ok p' := by
  unfold addExecution
  simp only [lookup_getD, deserializeCals_serializeCALs _ h]
  split <;> exact ⟨_, rfl⟩

end RegionPusher

/-! ### What the counters hold after any run -/

/-- The map path under which an execution is counted. -/
def Execution.key (e : Execution) : Int64 × CheckClass × GoString :=
  (e.localTenantID, e.checkClass, serializeCALs e.costAttributionLabels)

/-- A counter sums up the executions `es`, modulo the width of its fields. -/
structure Summarizes (es : List Execution) (c : CheckClass) (k : GoString)
    (calTele : CheckClassTelemetry) : Prop where
  checkClass : calTele.checkClass = c
  executions : calTele.executions.toInt = (es.length : Int).bmod (2 ^ 32)
  sampledExecutions : calTele.sampledExecutions.toInt =
    (es.map fun e ↦ (sampledExecutionsOf e.duration).toInt).sum.bmod (2 ^ 32)
  labels : deserializeCals k = .ok calTele.costAttributionLabels

/-- Every key of the history has its counter, and there is no other counter. -/
def Tracks (es : List Execution) (p : RegionPusher) : Prop :=
  ∀ t c k,
    (p.find t c k = none ∧ es.filter (fun e ↦ e.key = (t, c, k)) = []) ∨
    ∃ calTele, p.find t c k = some calTele ∧ es.filter (fun e ↦ e.key = (t, c, k)) ≠ [] ∧
      Summarizes (es.filter fun e ↦ e.key = (t, c, k)) c k calTele

private theorem summarizes_new (c : CheckClass) (k : GoString) (cals : List CostAttributionLabel)
    (h : deserializeCals k = .ok cals) : Summarizes [] c k (.new c cals) :=
  ⟨rfl, by simp [CheckClassTelemetry.new], by simp [CheckClassTelemetry.new], h⟩

private theorem summarizes_bump (es : List Execution) (c : CheckClass) (k : GoString)
    (calTele : CheckClassTelemetry) (e : Execution) (h : Summarizes es c k calTele) :
    Summarizes (es ++ [e]) c k (calTele.bump e) where
  checkClass := h.checkClass
  executions := by
    change (calTele.executions + 1).toInt = _
    rw [Int32.toInt_add, h.executions, Int.bmod_add_bmod, Int32.toInt_one,
      List.length_append, List.length_singleton, Nat.cast_add, Nat.cast_one]
  sampledExecutions := by
    change (calTele.sampledExecutions + sampledExecutionsOf e.duration).toInt = _
    rw [Int32.toInt_add, h.sampledExecutions, Int.bmod_add_bmod, List.map_append,
      List.map_singleton, List.sum_append, List.sum_singleton]
  labels := h.labels

/-- A new pusher holds no counter. -/
theorem tracks_new (inst : GoString) (regionID : Int32) :
    Tracks [] (RegionPusher.new inst regionID) :=
  fun _ _ _ ↦ .inl ⟨rfl, rfl⟩

/-- One execution keeps the counters in step with the history. -/
theorem tracks_addExecution (es : List Execution) (p p' : RegionPusher) (e : Execution)
    (ht : Tracks es p) (h : p.addExecution e = .ok p') : Tracks (es ++ [e]) p' := by
  obtain ⟨calTele, hstart, hfind⟩ := p.addExecution_cases p' e h
  have hsum : Summarizes (es.filter fun x ↦ x.key = e.key) e.checkClass
      (serializeCALs e.costAttributionLabels) calTele := by
    rcases hstart with hs | ⟨hs, cals, hd, rfl⟩
    · rcases ht e.localTenantID e.checkClass (serializeCALs e.costAttributionLabels) with
        ⟨hn, _⟩ | ⟨found, hf, _, hsum⟩
      · rw [hs] at hn; cases hn
      · rw [hs] at hf; cases hf; exact hsum
    · rcases ht e.localTenantID e.checkClass (serializeCALs e.costAttributionLabels) with
        ⟨_, hn⟩ | ⟨found, hf, _⟩
      · change es.filter (fun x ↦ x.key = e.key) = [] at hn
        rw [hn]
        exact summarizes_new _ _ _ hd
      · rw [hs] at hf; cases hf
  intro t c k
  rw [hfind t c k, List.filter_append]
  by_cases hk : t = e.localTenantID ∧ c = e.checkClass ∧ k = serializeCALs e.costAttributionLabels
  · obtain ⟨rfl, rfl, rfl⟩ := hk
    have hone : [e].filter (fun x ↦ x.key = e.key) = [e] := by simp
    refine .inr ⟨calTele.bump e, by simp, ?_, ?_⟩
    · change _ ++ [e].filter (fun x ↦ x.key = e.key) ≠ []
      rw [hone]
      simp
    · change Summarizes (_ ++ [e].filter (fun x ↦ x.key = e.key)) _ _ _
      rw [hone]
      exact summarizes_bump _ _ _ _ _ hsum
  · have hnone : [e].filter (fun x ↦ x.key = (t, c, k)) = [] := by
      simp only [Execution.key, List.filter_eq_nil_iff, List.mem_singleton]
      rintro x rfl
      simp only [Prod.mk.injEq, decide_eq_true_eq]
      rintro ⟨rfl, rfl, rfl⟩
      exact hk ⟨rfl, rfl, rfl⟩
    rw [if_neg hk, hnone, List.append_nil]
    exact ht t c k

end SMAgent.Telemetry
