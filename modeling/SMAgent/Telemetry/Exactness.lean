import SMAgent.Telemetry.RegionPusher

/-!
# Exactness of the region report

The purpose of the region pusher, stated over the history of executions: one entry for each
group of tenant, check class and label set, with the exact counts and the labels in name
order. The counters meet it exactly when no label holds a separator of the key format and
no duration is within a minute of the largest `int64`.
-/

namespace SMAgent.Telemetry
open SMAgent.Base

/-- What the executions of one report entry share. -/
structure Group where
  tenant : Int64
  checkClass : CheckClass
  labels : Finset CostAttributionLabel
  deriving DecidableEq

/-- The group of an execution. -/
def Execution.group (e : Execution) : Group :=
  ⟨e.localTenantID, e.checkClass, e.costAttributionLabels.toFinset⟩

/-- Started minutes of an execution. -/
def Execution.minutes (e : Execution) : Int := ⌈(e.duration.toInt : ℚ) / 60000000000⌉

/-- The entries of a report, each with the tenant it is listed under. -/
def RegionTelemetry.entries (r : RegionTelemetry) : List (Int64 × CheckClassTelemetry) :=
  r.telemetry.flatMap fun t ↦ t.telemetry.map fun c ↦ (t.tenantId, c)

/-- The group an entry stands for. -/
def entryGroup (entry : Int64 × CheckClassTelemetry) : Group :=
  ⟨entry.1, entry.2.checkClass, entry.2.costAttributionLabels.toFinset⟩

/-- The executions of a group. -/
def ofGroup (es : List Execution) (g : Group) : List Execution :=
  es.filter fun e ↦ e.group = g

/-- A report is exact for a history: one entry per group seen, with the group's counts and
its labels in strict name order. -/
structure ExactReport (es : List Execution) (r : RegionTelemetry) : Prop where
  groups : (r.entries.map entryGroup).Perm (es.map Execution.group).dedup
  executions : ∀ x ∈ r.entries, x.2.executions.toInt = (ofGroup es (entryGroup x)).length
  sampledExecutions : ∀ x ∈ r.entries,
    x.2.sampledExecutions.toInt = ((ofGroup es (entryGroup x)).map Execution.minutes).sum
  sorted : ∀ x ∈ r.entries, x.2.costAttributionLabels.Pairwise (fun a b ↦ a.name < b.name)

/-- A call made on a region pusher. -/
inductive Call where
  | addExecution (e : Execution)
  | next

/-- The executions among a sequence of calls. -/
def executions : List Call → List Execution
  | [] => []
  | .addExecution e :: calls => e :: executions calls
  | .next :: calls => executions calls

/-- Run `calls` from `p`, which has seen `es`: nothing panics and every report is exact. -/
def ExactRun (es : List Execution) (p : RegionPusher) : List Call → Prop
  | [] => True
  | .addExecution e :: calls => ∃ p', p.addExecution e = .ok p' ∧ ExactRun (es ++ [e]) p' calls
  | .next :: calls => ExactReport es p.next ∧ ExactRun es p calls

/-- The input domain: distinct label names, non-negative durations, and counts of every
group that fit `int32`. -/
structure Admissible (es : List Execution) : Prop where
  names : ∀ e ∈ es, (e.costAttributionLabels.map CostAttributionLabel.name).Nodup
  durations : ∀ e ∈ es, 0 ≤ e.duration.toInt
  executions : ∀ g, ((ofGroup es g).length : Int) < 2 ^ 31
  sampledExecutions : ∀ g, ((ofGroup es g).map Execution.minutes).sum < 2 ^ 31

/-- The executions that the key format and the minute arithmetic handle. -/
structure Execution.Countable (e : Execution) : Prop where
  plain : ∀ l ∈ e.costAttributionLabels, l.Plain
  duration : e.duration.toInt + 59999999999 < 2 ^ 63

/-! ### The report enumerates the counters -/

private def cells (p : RegionPusher) :
    List ((Int64 × CheckClass × GoString) × CheckClassTelemetry) :=
  p.telemetry.range.flatMap fun (t, tTele) ↦ tTele.range.flatMap fun (c, clTele) ↦
    clTele.range.map fun (k, x) ↦ ((t, c, k), x)

private theorem entries_next (p : RegionPusher) :
    p.next.entries = (cells p).map fun x ↦ (x.1.1, x.2) := by
  simp only [RegionTelemetry.entries, RegionPusher.next, cells, List.flatMap_map,
    List.map_flatMap, List.map_map]
  rfl

private theorem mem_cells (p : RegionPusher) (t : Int64) (c : CheckClass) (k : GoString)
    (x : CheckClassTelemetry) : ((t, c, k), x) ∈ cells p ↔ p.find t c k = some x := by
  simp only [cells, List.mem_flatMap, List.mem_map, Prod.exists, Prod.mk.injEq,
    RegionPusher.find, Option.bind_eq_some_iff, GoMap.mem_range]
  constructor
  · rintro ⟨_, tTele, ht, _, clTele, hc, _, _, hx, ⟨rfl, rfl, rfl⟩, rfl⟩
    exact ⟨tTele, ht, clTele, hc, hx⟩
  · rintro ⟨tTele, ht, clTele, hc, hx⟩
    exact ⟨t, tTele, ht, c, clTele, hc, k, x, hx, ⟨rfl, rfl, rfl⟩, rfl⟩

-- A traversal of nested maps repeats no path: the blocks of two keys differ in that key.
private theorem nodup_flatMap_range {κ ν β : Type} (m : GoMap κ ν) (f : κ → ν → List β)
    (hf : ∀ k v, (f k v).Nodup) (key : β → κ) (hkey : ∀ k v, ∀ b ∈ f k v, key b = k) :
    (m.range.flatMap fun e ↦ f e.1 e.2).Nodup := by
  rw [List.nodup_flatMap]
  refine ⟨fun e _ ↦ hf e.1 e.2, ?_⟩
  apply (List.pairwise_map.mp m.nodup_keys_range).imp
  intro a b hab x hxa hxb
  exact hab ((hkey _ _ x hxa).symm.trans (hkey _ _ x hxb))

private theorem nodup_cells (p : RegionPusher) : ((cells p).map Prod.fst).Nodup := by
  simp only [cells, List.map_flatMap, List.map_map]
  apply nodup_flatMap_range p.telemetry (fun t tTele ↦ tTele.range.flatMap fun e ↦
    e.2.range.map (Prod.fst ∘ fun x ↦ ((t, e.1, x.1), x.2))) _ Prod.fst
  · intro t tTele b hb
    simp only [List.mem_flatMap, List.mem_map] at hb
    obtain ⟨_, _, _, _, rfl⟩ := hb
    rfl
  · intro t tTele
    apply nodup_flatMap_range tTele (fun c clTele ↦
      clTele.range.map (Prod.fst ∘ fun x ↦ ((t, c, x.1), x.2))) _ (fun b ↦ b.2.1)
    · intro c clTele b hb
      simp only [List.mem_map] at hb
      obtain ⟨_, _, rfl⟩ := hb
      rfl
    · intro c clTele
      have hn := clTele.nodup_keys_range
      have hm : clTele.range.map (Prod.fst ∘ fun x ↦ ((t, c, x.1), x.2)) =
          (clTele.range.map Prod.fst).map fun k ↦ (t, c, k) := by
        rw [List.map_map]; rfl
      rw [hm]
      exact hn.map fun a b h ↦ (Prod.mk.inj (Prod.mk.inj h).2).2

/-! ### Sorted labels and label sets -/

private theorem name_inj {cals : List CostAttributionLabel}
    (h : (cals.map CostAttributionLabel.name).Nodup) {a b : CostAttributionLabel}
    (ha : a ∈ cals) (hb : b ∈ cals) (he : a.name = b.name) : a = b :=
  List.inj_on_of_nodup_map h ha hb he

private theorem toFinset_sortCals (cals : List CostAttributionLabel) :
    (sortCals cals).toFinset = cals.toFinset :=
  List.toFinset_eq_of_perm _ _ (sortCals_perm cals)

private theorem sortCals_eq_of_toFinset_eq (a b : List CostAttributionLabel)
    (ha : (a.map CostAttributionLabel.name).Nodup) (hb : (b.map CostAttributionLabel.name).Nodup)
    (h : a.toFinset = b.toFinset) : sortCals a = sortCals b := by
  have hperm : (sortCals a).Perm (sortCals b) :=
    (sortCals_perm a).trans ((List.perm_of_nodup_nodup_toFinset_eq
      (List.Nodup.of_map _ ha) (List.Nodup.of_map _ hb) h).trans (sortCals_perm b).symm)
  apply List.Perm.eq_of_pairwise _ (sortCals_sorted a) (sortCals_sorted b) hperm
  intro x y hx hy hxy hyx
  have hy' := hperm.mem_iff.mpr hy
  exact name_inj ha ((sortCals_perm a).mem_iff.mp hx) ((sortCals_perm a).mem_iff.mp hy')
    (List.le_antisymm hxy hyx)

private theorem sortCals_strict (cals : List CostAttributionLabel)
    (h : (cals.map CostAttributionLabel.name).Nodup) :
    (sortCals cals).Pairwise (fun a b ↦ a.name < b.name) := by
  have hn : (sortCals cals).Pairwise (fun a b ↦ a.name ≠ b.name) :=
    List.pairwise_map.mp (((sortCals_perm cals).map _).nodup_iff.mpr h)
  apply ((sortCals_sorted cals).and hn).imp
  intro a b hab
  rcases List.le_iff_lt_or_eq.mp hab.1 with hlt | heq
  · exact hlt
  · exact False.elim (hab.2 heq)

private theorem serializeCALs_eq_of_sortCals_eq (a b : List CostAttributionLabel)
    (h : sortCals a = sortCals b) : serializeCALs a = serializeCALs b := by
  have hn : a = [] ↔ b = [] := by
    rw [← List.perm_nil, ← List.perm_nil]
    constructor
    · intro hp
      exact (sortCals_perm b).symm.trans (h ▸ (sortCals_perm a).trans hp)
    · intro hp
      exact (sortCals_perm a).symm.trans (h ▸ (sortCals_perm b).trans hp)
  simp only [serializeCALs, hn, h]

/-! ### Started minutes in wrapping arithmetic -/

private theorem minutes_eq (e : Execution) :
    e.minutes = (e.duration.toInt + 59999999999) / 60000000000 := by
  rw [Execution.minutes, Int.ceil_eq_iff, lt_div_iff₀ (by norm_num), div_le_iff₀ (by norm_num)]
  have hq := Int.emod_add_mul_ediv (e.duration.toInt + 59999999999) 60000000000
  have h0 := Int.emod_nonneg (e.duration.toInt + 59999999999)
    (by decide : (60000000000 : Int) ≠ 0)
  have h1 := Int.emod_lt_of_pos (e.duration.toInt + 59999999999)
    (by decide : (0 : Int) < 60000000000)
  generalize (e.duration.toInt + 59999999999) / 60000000000 = q at *
  constructor
  · have hlt : (q - 1) * 60000000000 < e.duration.toInt := by omega
    exact_mod_cast hlt
  · have hle : e.duration.toInt ≤ q * 60000000000 := by omega
    exact_mod_cast hle

private theorem toInt_minute : minute.toInt = 60000000000 := by decide

variable {e : Execution}

private theorem sampled_eq (h0 : 0 ≤ e.duration.toInt)
    (h : e.duration.toInt + 59999999999 < 2 ^ 63) :
    (sampledExecutionsOf e.duration).toInt = e.minutes := by
  have hs : (e.duration + minute - 1).toInt = e.duration.toInt + 59999999999 := by
    rw [Int64.toInt_sub, Int64.toInt_add, toInt_minute, Int64.toInt_one, Int.bmod_sub_bmod,
      Int.bmod_eq_of_le] <;> omega
  rw [minutes_eq, sampledExecutionsOf, Int64.toInt_toInt32, Int64.toInt_div, hs, toInt_minute,
    Int.tdiv_eq_ediv_of_nonneg (by omega), Int.bmod_eq_of_le (m := 2 ^ 64) (by omega) (by omega),
    Int.bmod_eq_of_le] <;> omega

-- Past the bound the sum wraps to a negative number, and the quotient misses the true
-- one by about 2 ^ 64 / 60000000000.
private theorem sampled_overflow (h : 2 ^ 63 ≤ e.duration.toInt + 59999999999) :
    (sampledExecutionsOf e.duration).toInt ≤ e.minutes - 307445732 ∧
      e.minutes - 307445735 ≤ (sampledExecutionsOf e.duration).toInt ∧ 153722867 ≤ e.minutes := by
  have hlt := e.duration.toInt_lt
  have hs : (e.duration + minute - 1).toInt = -(2 ^ 64 - (e.duration.toInt + 59999999999)) := by
    rw [Int64.toInt_sub, Int64.toInt_add, toInt_minute, Int64.toInt_one, Int.bmod_sub_bmod,
      ← Int.sub_bmod_right, Int.bmod_eq_of_le] <;> omega
  rw [minutes_eq, sampledExecutionsOf, Int64.toInt_toInt32, Int64.toInt_div, hs, toInt_minute,
    Int.neg_tdiv, Int.tdiv_eq_ediv_of_nonneg (by omega),
    Int.bmod_eq_of_le (m := 2 ^ 64) (by omega) (by omega), Int.bmod_eq_of_le (by omega) (by omega)]
  omega

private theorem minutes_nonneg (h0 : 0 ≤ e.duration.toInt) : 0 ≤ e.minutes := by
  rw [minutes_eq]
  omega

private theorem sum_minutes_nonneg (es : List Execution) (h : ∀ e ∈ es, 0 ≤ e.duration.toInt) :
    0 ≤ (es.map Execution.minutes).sum := by
  induction es with
  | nil => exact Int.le_refl 0
  | cons e rest ih =>
    rw [List.map_cons, List.sum_cons]
    exact Int.add_nonneg (minutes_nonneg (h e (by simp))) (ih fun x hx ↦ h x (by simp [hx]))

private theorem sampled_bounds (h0 : 0 ≤ e.duration.toInt) :
    ∃ n : Int, 0 ≤ n ∧ (n = 0 → e.duration.toInt + 59999999999 < 2 ^ 63) ∧
      (sampledExecutionsOf e.duration).toInt ≤ e.minutes - 307445732 * n ∧
      e.minutes - 307445735 * n ≤ (sampledExecutionsOf e.duration).toInt ∧
      153722867 * n ≤ e.minutes := by
  by_cases hd : e.duration.toInt + 59999999999 < 2 ^ 63
  · refine ⟨0, Int.le_refl 0, fun _ ↦ hd, ?_⟩
    rw [sampled_eq h0 hd]
    simpa using minutes_nonneg h0
  · refine ⟨1, by decide, fun h ↦ absurd h (by decide), ?_⟩
    simpa using sampled_overflow (Int.not_lt.mp hd)

private theorem add_le_sub_add {a b c d x y : Int} (h : a ≤ b - x) (h' : c ≤ d - y) :
    a + c ≤ b + d - (x + y) := by omega

private theorem sub_add_le_add {a b c d x y : Int} (h : b - x ≤ a) (h' : d - y ≤ c) :
    b + d - (x + y) ≤ a + c := by omega

private theorem sum_sampled_bounds (es : List Execution) (h0 : ∀ e ∈ es, 0 ≤ e.duration.toInt) :
    ∃ n : Int, 0 ≤ n ∧ (n = 0 → ∀ e ∈ es, e.duration.toInt + 59999999999 < 2 ^ 63) ∧
      (es.map fun e ↦ (sampledExecutionsOf e.duration).toInt).sum ≤
        (es.map Execution.minutes).sum - 307445732 * n ∧
      (es.map Execution.minutes).sum - 307445735 * n ≤
        (es.map fun e ↦ (sampledExecutionsOf e.duration).toInt).sum ∧
      153722867 * n ≤ (es.map Execution.minutes).sum := by
  induction es with
  | nil => exact ⟨0, by simp⟩
  | cons e rest ih =>
    obtain ⟨n, hn, hz, hle, hge, hk⟩ := ih (fun x hx ↦ h0 x (by simp [hx]))
    obtain ⟨m, hm, hz', hle', hge', hk'⟩ := sampled_bounds (h0 e (by simp))
    refine ⟨m + n, Int.add_nonneg hm hn, ?_, ?_, ?_, ?_⟩
    · intro hmn x hx
      rcases List.mem_cons.mp hx with rfl | hx
      · exact hz' (by omega)
      · exact hz (by omega) x hx
    · rw [List.map_cons, List.map_cons, List.sum_cons, List.sum_cons, Int.mul_add]
      exact add_le_sub_add hle' hle
    · rw [List.map_cons, List.map_cons, List.sum_cons, List.sum_cons, Int.mul_add]
      exact sub_add_le_add hge' hge
    · rw [List.map_cons, List.sum_cons, Int.mul_add]
      exact Int.add_le_add hk' hk

-- A sum that fits int32 leaves room for at most 13 overflowing executions, too few for
-- their error to be a multiple of 2 ^ 32.
private theorem no_overflow_of_exact {counted total n : Int} (hn : 0 ≤ n)
    (hle : counted ≤ total - 307445732 * n) (hge : total - 307445735 * n ≤ counted)
    (hk : 153722867 * n ≤ total) (ht : total < 2 ^ 31) (h : counted.bmod (2 ^ 32) = total) :
    n = 0 := by
  obtain ⟨q, hq⟩ := Int.dvd_bmod_sub_self (x := counted) (m := 2 ^ 32)
  rw [h] at hq
  have hfew : n ≤ 13 := by omega
  have hmult : q ≤ 0 := by omega
  omega

/-! ### Counters and groups -/

variable {es : List Execution} {p : RegionPusher} {t : Int64} {c : CheckClass} {k : GoString}
  {x : CheckClassTelemetry}

private theorem key_eq_iff_group_eq
    (hn : ∀ e ∈ es, (e.costAttributionLabels.map CostAttributionLabel.name).Nodup)
    (hp : ∀ e ∈ es, ∀ l ∈ e.costAttributionLabels, l.Plain) {e' : Execution} (he : e ∈ es)
    (he' : e' ∈ es) : e.key = e'.key ↔ e.group = e'.group := by
  simp only [Execution.key, Execution.group, Prod.mk.injEq, Group.mk.injEq]
  refine and_congr_right fun _ ↦ and_congr_right fun _ ↦ ?_
  constructor
  · intro h
    rw [← toFinset_sortCals, sortCals_eq_of_serializeCALs_eq _ _ (hp e he) (hp e' he') h,
      toFinset_sortCals]
  · intro h
    exact serializeCALs_eq_of_sortCals_eq _ _
      (sortCals_eq_of_toFinset_eq _ _ (hn e he) (hn e' he') h)

private theorem mem_entries (p : RegionPusher) (x : Int64 × CheckClassTelemetry) :
    x ∈ p.next.entries ↔ ∃ c k, p.find x.1 c k = some x.2 := by
  rw [entries_next, List.mem_map]
  constructor
  · rintro ⟨⟨⟨t, c, k⟩, y⟩, hm, rfl⟩
    exact ⟨c, k, (mem_cells p t c k y).mp hm⟩
  · rintro ⟨c, k, hf⟩
    exact ⟨((x.1, c, k), x.2), (mem_cells p x.1 c k x.2).mpr hf, rfl⟩

-- A counter that exists was started by an execution of the history, under its key.
private theorem tracks_origin (ht : Tracks es p) (hf : p.find t c k = some x) :
    ∃ e ∈ es, e.key = (t, c, k) ∧ Summarizes (es.filter fun e ↦ e.key = (t, c, k)) c k x := by
  rcases ht t c k with ⟨hn, _⟩ | ⟨y, hy, hne, hs⟩
  · rw [hf] at hn; cases hn
  · rw [hf] at hy
    cases hy
    obtain ⟨e, he⟩ := List.exists_mem_of_ne_nil _ hne
    rw [List.mem_filter, decide_eq_true_eq] at he
    exact ⟨e, he.1, he.2, hs⟩

private theorem tracks_find (ht : Tracks es p) (he : e ∈ es) :
    ∃ x, p.find e.localTenantID e.checkClass (serializeCALs e.costAttributionLabels) = some x := by
  rcases ht e.localTenantID e.checkClass (serializeCALs e.costAttributionLabels) with
    ⟨_, hn⟩ | ⟨x, hx, _⟩
  · have hm : e ∈ es.filter (fun x ↦ x.key = e.key) := by simp [he]
    change es.filter (fun x ↦ x.key = e.key) = [] at hn
    rw [hn] at hm
    cases hm
  · exact ⟨x, hx⟩

private theorem entry_origin (ht : Tracks es p)
    (hn : ∀ e ∈ es, (e.costAttributionLabels.map CostAttributionLabel.name).Nodup)
    (hp : ∀ e ∈ es, ∀ l ∈ e.costAttributionLabels, l.Plain) (hf : p.find t c k = some x) :
    ∃ e ∈ es, e.key = (t, c, k) ∧ entryGroup (t, x) = e.group ∧
      x.costAttributionLabels = sortCals e.costAttributionLabels ∧
      Summarizes (ofGroup es e.group) c k x := by
  obtain ⟨e, he, hk, hs⟩ := tracks_origin ht hf
  have hl : x.costAttributionLabels = sortCals e.costAttributionLabels := by
    have hd := hs.labels
    have hkey : k = serializeCALs e.costAttributionLabels := (Prod.mk.inj (Prod.mk.inj hk).2).2.symm
    rw [hkey, deserializeCals_serializeCALs _ (hp e he)] at hd
    exact (Except.ok.inj hd).symm
  have hfilter : es.filter (fun y ↦ y.key = (t, c, k)) = ofGroup es e.group := by
    apply List.filter_congr
    intro y hy
    rw [← hk, decide_eq_decide]
    exact key_eq_iff_group_eq hn hp hy he
  refine ⟨e, he, hk, ?_, hl, hfilter ▸ hs⟩
  rw [entryGroup, Execution.group, Group.mk.injEq]
  exact ⟨(Prod.mk.inj hk).1.symm, hs.checkClass.trans (Prod.mk.inj (Prod.mk.inj hk).2).1.symm,
    by rw [hl, toFinset_sortCals]⟩

private theorem nodup_entryGroups (ht : Tracks es p)
    (hn : ∀ e ∈ es, (e.costAttributionLabels.map CostAttributionLabel.name).Nodup)
    (hp : ∀ e ∈ es, ∀ l ∈ e.costAttributionLabels, l.Plain) :
    (p.next.entries.map entryGroup).Nodup := by
  rw [entries_next, List.map_map]
  apply List.Nodup.map_on _ (List.Nodup.of_map _ (nodup_cells p))
  rintro ⟨⟨t, c, k⟩, x⟩ hx ⟨⟨t', c', k'⟩, x'⟩ hx' hg
  have hf := (mem_cells p t c k x).mp hx
  have hf' := (mem_cells p t' c' k' x').mp hx'
  obtain ⟨e, he, hk, hge, -, -⟩ := entry_origin ht hn hp hf
  obtain ⟨e', he', hk', hge', -, -⟩ := entry_origin ht hn hp hf'
  have hkey : e.key = e'.key :=
    (key_eq_iff_group_eq hn hp he he').mpr (hge.symm.trans (hg.trans hge'))
  rw [hk, hk'] at hkey
  cases hkey
  rw [hf] at hf'
  cases hf'
  rfl

private theorem ofGroup_nonneg (h : Admissible es) (g : Group) :
    ∀ e ∈ ofGroup es g, 0 ≤ e.duration.toInt :=
  fun e he ↦ h.durations e (List.mem_filter.mp he).1

/-- Counters in step with a countable history give an exact report. -/
theorem exactReport_of_countable (ht : Tracks es p) (ha : Admissible es)
    (hc : ∀ e ∈ es, e.Countable) : ExactReport es p.next := by
  have hplain : ∀ e ∈ es, ∀ l ∈ e.costAttributionLabels, l.Plain := fun e he ↦ (hc e he).plain
  have horigin : ∀ x ∈ p.next.entries, ∃ e ∈ es, entryGroup x = e.group ∧
      x.2.costAttributionLabels = sortCals e.costAttributionLabels ∧
      ∃ c k, Summarizes (ofGroup es (entryGroup x)) c k x.2 := by
    intro x hx
    obtain ⟨c, k, hf⟩ := (mem_entries p x).mp hx
    obtain ⟨e, he, -, hg, hl, hs⟩ := entry_origin ht ha.names hplain hf
    exact ⟨e, he, hg, hl, c, k, hg ▸ hs⟩
  refine ⟨?_, ?_, ?_, ?_⟩
  · rw [List.perm_ext_iff_of_nodup (nodup_entryGroups ht ha.names hplain) (List.nodup_dedup _)]
    intro g
    rw [List.mem_dedup, List.mem_map, List.mem_map]
    constructor
    · rintro ⟨x, hx, rfl⟩
      obtain ⟨e, he, hg, -⟩ := horigin x hx
      exact ⟨e, he, hg.symm⟩
    · rintro ⟨e, he, rfl⟩
      obtain ⟨x, hx⟩ := tracks_find ht he
      refine ⟨(e.localTenantID, x), (mem_entries p _).mpr ⟨_, _, hx⟩, ?_⟩
      obtain ⟨e', he', hk, hg, -, -⟩ := entry_origin ht ha.names hplain hx
      rw [hg]
      exact (key_eq_iff_group_eq ha.names hplain he' he).mp hk
  · intro x hx
    obtain ⟨-, -, -, -, c, k, hs⟩ := horigin x hx
    have hlt := ha.executions (entryGroup x)
    rw [hs.executions, Int.bmod_eq_of_le] <;> omega
  · intro x hx
    obtain ⟨-, -, -, -, c, k, hs⟩ := horigin x hx
    have hlt := ha.sampledExecutions (entryGroup x)
    have h0 := sum_minutes_nonneg _ (ofGroup_nonneg ha (entryGroup x))
    rw [hs.sampledExecutions, List.map_congr_left (g := Execution.minutes) fun e he ↦
      sampled_eq (ofGroup_nonneg ha _ e he) (hc e (List.mem_filter.mp he).1).duration,
      Int.bmod_eq_of_le] <;> omega
  · intro x hx
    obtain ⟨e, he, -, hl, -⟩ := horigin x hx
    rw [hl]
    exact sortCals_strict _ (ha.names e he)

-- The labels of an entry come out of the parser, so a label with a separator is in none.
private theorem plain_of_exactReport (ht : Tracks es p) (hr : ExactReport es p.next) :
    ∀ e ∈ es, ∀ l ∈ e.costAttributionLabels, l.Plain := by
  intro e he l hl
  have hg : e.group ∈ p.next.entries.map entryGroup :=
    hr.groups.mem_iff.mpr (List.mem_dedup.mpr (List.mem_map_of_mem he))
  obtain ⟨x, hx, hxg⟩ := List.mem_map.mp hg
  obtain ⟨c, k, hf⟩ := (mem_entries p x).mp hx
  obtain ⟨-, -, -, hs⟩ := tracks_origin ht hf
  have hset : x.2.costAttributionLabels.toFinset = e.costAttributionLabels.toFinset :=
    congrArg Group.labels hxg
  have hmem : l ∈ x.2.costAttributionLabels :=
    List.mem_toFinset.mp (hset ▸ List.mem_toFinset.mpr hl)
  exact deserializeCals_plain k _ hs.labels l hmem

/-- Counters in step with an admissible history give an exact report only if it is
countable. -/
theorem countable_of_exactReport (ht : Tracks es p) (ha : Admissible es)
    (hr : ExactReport es p.next) : ∀ e ∈ es, e.Countable := by
  have hplain := plain_of_exactReport ht hr
  intro e he
  refine ⟨hplain e he, ?_⟩
  obtain ⟨x, hx⟩ := tracks_find ht he
  obtain ⟨e', he', hk, hg, -, hs⟩ := entry_origin ht ha.names hplain hx
  have hgroup : e'.group = e.group := (key_eq_iff_group_eq ha.names hplain he' he).mp hk
  have hexact := hr.sampledExecutions (e.localTenantID, x) ((mem_entries p _).mpr ⟨_, _, hx⟩)
  rw [hg, hs.sampledExecutions] at hexact
  obtain ⟨n, hn, hz, hle, hge, hk⟩ := sum_sampled_bounds _ (ofGroup_nonneg ha e'.group)
  have hn0 := no_overflow_of_exact hn hle hge hk (ha.sampledExecutions e'.group) hexact
  exact hz hn0 e (List.mem_filter.mpr ⟨he, by simp [hgroup]⟩)

/-! ### Runs -/

private theorem Admissible.of_append {rest : List Execution} (h : Admissible (es ++ rest)) :
    Admissible es where
  names e he := h.names e (List.mem_append_left _ he)
  durations e he := h.durations e (List.mem_append_left _ he)
  executions g := by
    have hl := h.executions g
    rw [ofGroup, List.filter_append, List.length_append] at hl
    rw [ofGroup]
    omega
  sampledExecutions g := by
    have hl := h.sampledExecutions g
    have h0 := sum_minutes_nonneg (ofGroup rest g) fun e he ↦
      h.durations e (List.mem_append_right _ (List.mem_filter.mp he).1)
    rw [ofGroup, List.filter_append, List.map_append, List.sum_append] at hl
    rw [ofGroup] at h0 ⊢
    omega

private theorem exactRun_of_countable (calls : List Call) (es : List Execution) (p : RegionPusher)
    (ht : Tracks es p) (ha : Admissible (es ++ executions calls))
    (hc : ∀ e ∈ es ++ executions calls, e.Countable) : ExactRun es p calls := by
  induction calls generalizing es p with
  | nil => trivial
  | cons call calls ih =>
    cases call with
    | addExecution e =>
      have hsplit : es ++ executions (.addExecution e :: calls) =
          es ++ [e] ++ executions calls := by
        simp [executions]
      rw [hsplit] at ha hc
      obtain ⟨p', hp'⟩ := p.addExecution_ok e (hc e (by simp)).plain
      exact ⟨p', hp', ih (es ++ [e]) p' (tracks_addExecution es p p' e ht hp') ha hc⟩
    | next =>
      exact ⟨exactReport_of_countable ht ha.of_append
        (fun e he ↦ hc e (List.mem_append_left _ he)), ih es p ht ha hc⟩

private theorem report_of_exactRun (rest es : List Execution) (p : RegionPusher)
    (ht : Tracks es p) (h : ExactRun es p (rest.map .addExecution ++ [.next])) :
    ∃ p', Tracks (es ++ rest) p' ∧ ExactReport (es ++ rest) p'.next := by
  induction rest generalizing es p with
  | nil =>
    rw [List.append_nil]
    exact ⟨p, ht, h.1⟩
  | cons e rest ih =>
    obtain ⟨p', hp', hrun⟩ := h
    obtain ⟨q, hq⟩ := ih (es ++ [e]) p' (tracks_addExecution es p p' e ht hp') hrun
    exact ⟨q, by simpa using hq⟩

private theorem executions_map (es : List Execution) :
    executions (es.map .addExecution ++ [.next]) = es := by
  induction es with
  | nil => rfl
  | cons e rest ih => rw [List.map_cons, List.cons_append, executions, ih]

/-- Every interleaving of reports with a sequence of executions runs without a panic and
reports exactly if and only if no label holds a separator of the key format and no
duration overflows the minute arithmetic. -/
theorem exactRun_iff_countable (inst : GoString) (regionID : Int32) (es : List Execution)
    (ha : Admissible es) :
    (∀ calls, executions calls = es → ExactRun [] (RegionPusher.new inst regionID) calls) ↔
      ∀ e ∈ es, e.Countable := by
  constructor
  · intro h
    obtain ⟨p, ht, hr⟩ := report_of_exactRun es [] _ (tracks_new inst regionID)
      (h _ (executions_map es))
    exact countable_of_exactReport ht ha hr
  · intro hc calls hcalls
    exact exactRun_of_countable calls [] _ (tracks_new inst regionID)
      (by rwa [List.nil_append, hcalls]) (by rwa [List.nil_append, hcalls])

private theorem admissible_singleton (e : Execution)
    (hn : (e.costAttributionLabels.map CostAttributionLabel.name).Nodup)
    (h0 : 0 ≤ e.duration.toInt) : Admissible [e] where
  names x hx := by rwa [List.mem_singleton.mp hx]
  durations x hx := by rwa [List.mem_singleton.mp hx]
  executions g := by
    have hl := List.length_filter_le (fun x : Execution ↦ decide (x.group = g)) [e]
    rw [ofGroup]
    simp only [List.length_singleton] at hl
    omega
  sampledExecutions g := by
    have hm : e.minutes < 2 ^ 31 := by
      have hlt := e.duration.toInt_lt
      rw [minutes_eq]
      omega
    rw [ofGroup, List.filter_singleton]
    cases decide (e.group = g) with
    | false => simp
    | true => rwa [cond_true, List.map_singleton, List.sum_singleton]

/-- One scripted execution of 90 seconds with a single label. -/
def sampleExecution (value : String) : Execution where
  localTenantID := 1
  regionID := 0
  checkClass := .scripted
  duration := 90000000000
  costAttributionLabels := [⟨GoString.lit "team", GoString.lit value⟩]

/-- A plain label value is counted and reported exactly under every interleaving. -/
theorem exactRun_plain_value : Admissible [sampleExecution "synthetics"] ∧
    ∀ calls, executions calls = [sampleExecution "synthetics"] →
      ExactRun [] (RegionPusher.new [] 0) calls := by
  have ha := admissible_singleton (sampleExecution "synthetics") (by decide) (by decide)
  refine ⟨ha, (exactRun_iff_countable [] 0 _ ha).mpr ?_⟩
  intro e he
  rw [List.mem_singleton.mp he]
  exact ⟨by decide, by decide⟩

/-- A comma in a label value makes the first execution that carries it panic. -/
theorem exactRun_comma_value : Admissible [sampleExecution "core,infra"] ∧
    (∀ l ∈ (sampleExecution "core,infra").costAttributionLabels, l.value ≠ []) ∧
    ¬ ∀ calls, executions calls = [sampleExecution "core,infra"] →
      ExactRun [] (RegionPusher.new [] 0) calls := by
  refine ⟨admissible_singleton _ (by decide) (by decide), by decide, fun h ↦ ?_⟩
  obtain ⟨p, hp, -⟩ := h [.addExecution (sampleExecution "core,infra")] rfl
  have hpanic : (RegionPusher.new [] 0).addExecution (sampleExecution "core,infra") =
      .error .indexOutOfRange := rfl
  rw [hpanic] at hp
  cases hp

end SMAgent.Telemetry
