import SMAgent.K6.Repository

/-!
# Which binaries a repository resolves to

`scan` appends to the list that also tells whether a scan was made. A scan that fails after
its first binary leaves a part of the repository behind, unsorted, and no later call completes
it. The other failures leave nothing, and after a complete scan every answer is about the
whole repository.
-/

namespace SMAgent.K6
open SMAgent.Base

section
variable {V C : Type} (lib : Lib V C) (repo : Repository V)

/-- A call on the repository, with what happens during it. -/
inductive Call where
  | resolve (constraintStr : GoString) (attempt : Attempt lib repo)
  | entries (attempt : Attempt lib repo)

variable {lib repo}

/-- What happens during the call. -/
def Call.attempt : Call lib repo → Attempt lib repo
  | .resolve _ a => a
  | .entries a => a

/-- The list that a call leaves in the repository. -/
def Call.step (call : Call lib repo) (entries : List (Entry V)) : List (Entry V) :=
  match call with
  | .resolve constraintStr a => (K6.resolve lib repo a constraintStr entries).1
  | .entries a => (listEntries lib repo a entries).1

/-- The list after a sequence of calls on a new repository. -/
def after (calls : List (Call lib repo)) : List (Entry V) :=
  calls.foldl (fun entries call ↦ call.step entries) []

/-- The entry is a binary of the repository that satisfies the constraint, and none that
satisfies it has a higher version. -/
structure IsNewest (lib : Lib V C) (repo : Repository V) (constraint : C) (entry : Entry V) :
    Prop where
  mem : entry ∈ allBinaries lib repo
  check : lib.check constraint entry.version = true
  maximal : ∀ other ∈ allBinaries lib repo, lib.check constraint other.version = true →
    lib.compare other.version entry.version ≠ .gt

/-- The answer of a call, if it is not about a failure, is about the whole repository. -/
def Right (entries : List (Entry V)) : Call lib repo → Prop
  | .resolve constraintStr a =>
    match (resolve lib repo a constraintStr entries).2 with
    | .ok entry => ∃ constraint, lib.newConstraint constraintStr = some constraint ∧
        IsNewest lib repo constraint entry
    | .error .unsatisfiable => ∃ constraint, lib.newConstraint constraintStr = some constraint ∧
        ∀ entry ∈ allBinaries lib repo, ¬ lib.check constraint entry.version = true
    | .error _ => True
  | .entries a =>
    match (listEntries lib repo a entries).2 with
    | .ok listed => listed.Perm (allBinaries lib repo)
    | .error _ => True

/-- If the call has to execute the binaries, and the first execution succeeds, all do. -/
def Unbroken (entries : List (Entry V)) (a : Attempt lib repo) : Prop :=
  entries = [] → ∀ bins, binaries lib repo a = .ok bins → (∀ bin ∈ bins.head?, a.Succeeds bin) →
    ∀ bin ∈ bins, a.Succeeds bin

/-- Every call of a sequence is unbroken in the state it finds. -/
def AllUnbroken : List (Entry V) → List (Call lib repo) → Prop
  | _, [] => True
  | entries, call :: calls =>
    Unbroken entries call.attempt ∧ AllUnbroken (call.step entries) calls

/-! ### What a scan leaves -/

/-- The list of a complete scan. -/
structure Complete (lib : Lib V C) (repo : Repository V) (entries : List (Entry V)) : Prop where
  perm : entries.Perm (allBinaries lib repo)
  sorted : entries.Pairwise fun a b ↦ newestFirst lib a b ≠ .gt

/-- No scan left anything, or a complete one did. -/
def Sound (lib : Lib V C) (repo : Repository V) (entries : List (Entry V)) : Prop :=
  entries = [] ∨ Complete lib repo entries

/-- A scan left some binaries and not others. -/
def Broken (lib : Lib V C) (repo : Repository V) (entries : List (Entry V)) : Prop :=
  0 < entries.length ∧ entries.length < (allBinaries lib repo).length

private theorem complete_sortFunc : Complete lib repo (lib.sortFunc (newestFirst lib)
    (allBinaries lib repo)) where
  perm := lib.sortFunc_perm _ _
  sorted := lib.sortFunc_sorted _ _ transCmp_newestFirst

variable {entries : List (Entry V)}

private theorem scan_of_pos (a : Attempt lib repo) (h : 0 < entries.length) :
    scan lib repo a false entries = (entries, none) := by
  rw [scan, if_pos ⟨h, rfl⟩]

private theorem scan_nil_of_binaries {a : Attempt lib repo} {bins : List GoString}
    (hb : binaries lib repo a = .ok bins) : scan lib repo a false [] =
      match appendVersions lib repo a bins [] with
      | (entries, some err) => (entries, some err)
      | (entries, none) => (lib.sortFunc (newestFirst lib) entries, none) := by
  have hempty : ¬ (0 < ([] : List (Entry V)).length ∧ true = true) := fun h ↦ Nat.lt_irrefl 0 h.1
  refine (if_neg hempty).trans ?_
  generalize binaries lib repo a = result at hb
  subst hb
  rfl

private theorem scan_of_unbroken {a : Attempt lib repo} (h : Unbroken [] a) :
    (∃ err, scan lib repo a false [] = ([], some err)) ∨
    scan lib repo a false [] =
      (lib.sortFunc (newestFirst lib) (allBinaries lib repo), none) := by
  cases hb : binaries lib repo a with
  | error err =>
    refine .inl ⟨err, ?_⟩
    rw [scan, if_neg (fun h ↦ Nat.lt_irrefl 0 h.1), hb]
  | ok bins =>
    rw [scan_nil_of_binaries hb]
    by_cases hall : ∀ bin ∈ bins, a.Succeeds bin
    · right
      rw [appendVersions_of_forall a bins hall, allBinaries_of_binaries hb, List.nil_append]
    · left
      cases bins with
      | nil => exact absurd (by simp) hall
      | cons bin bins =>
        -- were the first execution to succeed, all would
        have hfirst : ¬ a.Succeeds bin := fun hs ↦ hall (h rfl _ hb (by simpa using hs))
        obtain ⟨hs, -⟩ | ⟨-, err, heq⟩ := appendVersions_cons a bin bins []
        · exact absurd hs hfirst
        · exact ⟨err, by rw [heq]⟩

private theorem scan_of_not_unbroken {a : Attempt lib repo} (h : ¬ Unbroken entries a) :
    ∃ left err, scan lib repo a false entries = (left, some err) ∧ Broken lib repo left := by
  simp only [Unbroken, not_forall] at h
  obtain ⟨rfl, bins, hb, hfirst, bin, hbin, hfails⟩ := h
  cases bins with
  | nil => cases hbin
  | cons b bins =>
    have hs : a.Succeeds b := hfirst b rfl
    have hrest : ∃ bin ∈ bins, ¬ a.Succeeds bin := by
      rcases List.mem_cons.mp hbin with rfl | hbin
      · exact absurd hs hfails
      · exact ⟨bin, hbin, hfails⟩
    obtain ⟨-, heq⟩ | ⟨hf, -⟩ := appendVersions_cons a b bins []
    · obtain ⟨more, err, hm, hlen⟩ :=
        appendVersions_of_exists a bins hrest ([] ++ [⟨b, repo.version b⟩])
      refine ⟨_, err, by rw [scan_nil_of_binaries hb, heq, hm], ?_⟩
      rw [Broken, allBinaries_of_binaries hb]
      simp only [List.length_append, List.length_map, List.length_cons, List.length_nil]
      omega
    · exact absurd hs hf

private theorem step_eq_scan (call : Call lib repo) (entries : List (Entry V)) :
    call.step entries = (scan lib repo call.attempt false entries).1 := by
  cases call with
  | resolve constraintStr a =>
    rw [Call.step, K6.resolve.eq_def, Call.attempt]
    rcases scan lib repo a false entries with ⟨left, _ | err⟩ <;> rfl
  | entries a =>
    rw [Call.step, listEntries, Call.attempt]
    rcases scan lib repo a false entries with ⟨left, _ | err⟩ <;> rfl

private theorem step_of_pos (call : Call lib repo) (h : 0 < entries.length) :
    call.step entries = entries := by
  rw [step_eq_scan, scan_of_pos _ h]

private theorem foldl_step_of_pos (calls : List (Call lib repo)) (h : 0 < entries.length) :
    calls.foldl (fun entries call ↦ call.step entries) entries = entries := by
  induction calls with
  | nil => rfl
  | cons call calls ih => rw [List.foldl_cons, step_of_pos call h, ih]

/-- Step lemma: a call keeps the list sound if it is unbroken. -/
theorem sound_step (hs : Sound lib repo entries) {call : Call lib repo}
    (h : Unbroken entries call.attempt) : Sound lib repo (call.step entries) := by
  cases entries with
  | nil =>
    rw [step_eq_scan]
    obtain ⟨err, heq⟩ | heq := scan_of_unbroken h
    · rw [heq]
      exact .inl rfl
    · rw [heq]
      exact .inr complete_sortFunc
  | cons entry entries =>
    rw [step_of_pos call (List.length_pos_of_ne_nil (List.cons_ne_nil _ _))]
    exact hs

/-! ### What a call answers -/

private theorem le_of_find?_eq_some {α : Type*} {R : α → α → Prop} {p : α → Bool} {l : List α}
    {a : α} (hl : l.Pairwise R) (h : l.find? p = some a) {b : α} (hb : b ∈ l) (hp : p b = true) :
    b = a ∨ R a b := by
  obtain ⟨-, before, rest, rfl, hbefore⟩ := List.find?_eq_some_iff_append.mp h
  rcases List.mem_append.mp hb with hb | hb
  · have hnot := hbefore b hb
    rw [hp] at hnot
    cases hnot
  · rcases List.mem_cons.mp hb with rfl | hb
    · exact .inl rfl
    · exact .inr (List.rel_of_pairwise_cons (List.pairwise_append.mp hl).2.1 hb)

private theorem isNewest_of_find? (hc : Complete lib repo entries) {constraint : C}
    {entry : Entry V} (h : (entries.find? fun e ↦ lib.check constraint e.version) = some entry) :
    IsNewest lib repo constraint entry where
  mem := hc.perm.mem_iff.mp (List.mem_of_find?_eq_some h)
  check := by simpa using List.find?_some h
  maximal := by
    intro other ho hcheck
    have htrans := lib.transCmp
    have hrefl : Std.ReflCmp lib.compare := inferInstance
    rcases le_of_find?_eq_some hc.sorted h (hc.perm.mem_iff.mpr ho) hcheck with rfl | hle
    · rw [hrefl.compare_self]
      exact nofun
    · exact hle

private theorem scan_of_sound (hs : Sound lib repo entries) (a : Attempt lib repo) :
    (∃ left err, scan lib repo a false entries = (left, some err)) ∨
    ∃ found, scan lib repo a false entries = (found, none) ∧ Complete lib repo found := by
  cases entries with
  | nil =>
    by_cases h : Unbroken ([] : List (Entry V)) a
    · obtain ⟨err, heq⟩ | heq := scan_of_unbroken h
      · exact .inl ⟨_, err, heq⟩
      · exact .inr ⟨_, heq, complete_sortFunc⟩
    · obtain ⟨left, err, heq, -⟩ := scan_of_not_unbroken h
      exact .inl ⟨left, err, heq⟩
  | cons entry entries =>
    exact .inr ⟨_, scan_of_pos a (Nat.succ_pos _), hs.resolve_left (List.cons_ne_nil _ _)⟩

/-- Every call on a sound list is answered right. -/
theorem right_of_sound (hs : Sound lib repo entries) (call : Call lib repo) :
    Right entries call := by
  cases call with
  | resolve constraintStr a =>
    rw [Right, resolve]
    obtain ⟨left, err, heq⟩ | ⟨found, heq, hc⟩ := scan_of_sound hs a
    · simp only [heq]
    · simp only [heq]
      cases hp : lib.newConstraint constraintStr with
      | none => trivial
      | some constraint =>
        dsimp only
        cases hf : found.find? fun entry ↦ lib.check constraint entry.version with
        | some entry => exact ⟨constraint, rfl, isNewest_of_find? hc hf⟩
        | none =>
          refine ⟨constraint, rfl, fun entry he ↦ ?_⟩
          exact List.find?_eq_none.mp hf entry (hc.perm.mem_iff.mpr he)
  | entries a =>
    rw [Right, listEntries]
    obtain ⟨left, err, heq⟩ | ⟨found, heq, hc⟩ := scan_of_sound hs a
    · simp only [heq]
    · simp only [heq]
      exact hc.perm

/-- A broken list is returned as it is. -/
theorem not_right_of_broken (hb : Broken lib repo entries) (a : Attempt lib repo) :
    ¬ Right entries (.entries a) := by
  rw [Right, listEntries, scan_of_pos a hb.1]
  exact fun hperm ↦ Nat.ne_of_lt hb.2 hperm.length_eq

/-- An attempt in which every execution fails. -/
def Attempt.failing (lib : Lib V C) (repo : Repository V) : Attempt lib repo where
  runK6Version := fun _ ↦ none
  fixed := nofun

/-- Run lemma: after calls on a sound list, the next call is answered right whatever it is
exactly if all the calls were unbroken. -/
theorem forall_right_iff (hs : Sound lib repo entries) (calls : List (Call lib repo)) :
    (∀ next : Call lib repo,
      Right (calls.foldl (fun entries call ↦ call.step entries) entries) next) ↔
      AllUnbroken entries calls := by
  induction calls generalizing entries with
  | nil => exact ⟨fun _ ↦ trivial, fun _ ↦ right_of_sound hs⟩
  | cons call calls ih =>
    rw [List.foldl_cons, AllUnbroken]
    by_cases h : Unbroken entries call.attempt
    · rw [ih (sound_step hs h)]
      exact ⟨fun hall ↦ ⟨h, hall⟩, fun hall ↦ hall.2⟩
    · obtain ⟨left, err, heq, hb⟩ := scan_of_not_unbroken h
      have hstep : call.step entries = left := by rw [step_eq_scan, heq]
      rw [hstep, foldl_step_of_pos calls hb.1]
      exact ⟨fun hr ↦ absurd (hr _) (not_right_of_broken hb (.failing lib repo)),
        fun hall ↦ absurd hall.1 h⟩

/-- After a sequence of calls on a new repository, every next call is answered from the whole
repository exactly if no scan failed after its first binary. -/
theorem forall_right_after_iff (lib : Lib V C) (repo : Repository V)
    (calls : List (Call lib repo)) :
    (∀ next : Call lib repo, Right (after calls) next) ↔ AllUnbroken [] calls :=
  forall_right_iff (.inl rfl) calls

end

/-! ### A binary that fails once -/

/-- Versions and constraints written in unary; a constraint is a lower bound. -/
def Lib.unary : Lib Nat Nat where
  newVersion := fun text ↦ some text.length
  newConstraint := fun text ↦ some text.length
  compare := Ord.compare
  check := fun constraint version ↦ constraint ≤ version
  join := fun root name ↦ root ++ GoString.lit "/" ++ name
  sortFunc := fun cmp l ↦ l.mergeSort fun a b ↦ (cmp a b).isLE
  transCmp := inferInstance
  sortFunc_perm := fun _ l ↦ List.mergeSort_perm l _
  sortFunc_sorted := by
    intro α cmp l htrans
    have htotal (a b : α) : ((cmp a b).isLE || (cmp b a).isLE) = true := by
      rw [htrans.eq_swap]
      cases cmp b a <;> rfl
    have hle (a b c : α) : (cmp a b).isLE → (cmp b c).isLE → (cmp a c).isLE := htrans.isLE_trans
    have hsorted : (l.mergeSort fun a b ↦ (cmp a b).isLE).Pairwise fun a b ↦ (cmp a b).isLE :=
      List.pairwise_mergeSort hle htotal l
    exact hsorted.imp fun {a b} h ↦ Ordering.isLE_iff_ne_gt.mp h

/-- A folder with version 1 in `k6-a` and version 2 in `k6-b`. -/
def twoVersions : Repository Nat where
  root := .lit "/usr/libexec"
  files := [{ name := .lit "k6-a" }, { name := .lit "k6-b" }]
  version := fun bin ↦ if bin = .lit "/usr/libexec/k6-a" then 1 else 2

/-- A call during which `k6-a` runs and every other binary fails. -/
def onlyFirst : Attempt Lib.unary twoVersions where
  runK6Version := fun bin ↦ if bin = .lit "/usr/libexec/k6-a" then some [1] else none
  fixed := by
    intro bin text v h hv
    split at h
    next hbin =>
      obtain rfl := Option.some.inj h
      rw [← Option.some.inj hv]
      exact (if_pos hbin).symm
    next => cases h

/-- After a call during which `k6-b` fails once, version 1 is resolved for any constraint that
it satisfies. -/
theorem not_right_after_onlyFirst :
    ¬ Right (after [.resolve (.lit "1") onlyFirst])
      (.resolve (.lit "1") (.failing Lib.unary twoVersions)) := by
  rintro ⟨constraint, hc, hnewest⟩
  obtain rfl := Option.some.inj hc
  exact hnewest.maximal ⟨.lit "/usr/libexec/k6-b", 2⟩ (by decide) (by decide) (by decide)

end SMAgent.K6
