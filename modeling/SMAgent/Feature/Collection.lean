import SMAgent.Base.GoMap
import SMAgent.Base.GoString

/-!
# Feature flags

`internal/feature/feature.go`. A collection is a set of names. `Set` takes its argument apart at
commas and trims the parts, so a name is not empty, trimmed and without a comma, and the names in
order between commas are an argument that gives the collection back.
-/

namespace SMAgent.Feature
open SMAgent.Base

/-- `ErrInvalidCollection`. -/
inductive CollectionError where
  | invalidCollection
  deriving DecidableEq, Repr

/-- `Collection`; `none` is the nil map. -/
abbrev Collection := Option (GoMap GoString Unit)

/-- The separator of names. -/
def comma : UInt8 := GoString.byte ','

/-- `sort.Strings`. -/
def sortStrings (values : List GoString) : List GoString := values.insertionSort (· ≤ ·)

/-- `NewCollection`. -/
def newCollection : Collection := some ∅

/-- One round of the loop in `Set`, `feature.go:42-49`. -/
def addElem (c : GoMap GoString Unit) (elem : GoString) : GoMap GoString Unit :=
  let feature := GoString.trimSpace elem
  if feature = [] then c else c.insert feature ()

namespace Collection

/-- `Collection.Set`, `feature.go:37-52`. -/
def set (c : Collection) (s : GoString) : Except CollectionError Collection :=
  match c with
  | none => .error .invalidCollection
  | some c => .ok (some ((GoString.split s comma).foldl addElem c))

/-- `Collection.String`, `feature.go:58-71`. -/
def string (c : Collection) : GoString :=
  match c with
  | none => []
  | some c => GoString.join (sortStrings (c.range.map Prod.fst)) comma

/-- `Collection.IsSet`, `feature.go:75-83`. -/
def isSet (c : Collection) (name : GoString) : Bool :=
  match c with
  | none => false
  | some c => (c.lookup name).isSome

/-- Two maps with the same keys; their values say nothing. -/
def Same (c c' : Collection) : Prop := c.isSome = c'.isSome ∧ ∀ name, c.isSet name = c'.isSet name

end Collection

/-- The collection after calls of `Set`. -/
def afterSets (args : List GoString) : Except CollectionError Collection :=
  args.foldlM Collection.set newCollection

/-! ### What a collection holds -/

/-- The names in an argument of `Set`. -/
def namesOf (s : GoString) : List GoString :=
  ((GoString.split s comma).map GoString.trimSpace).filter (· ≠ [])

/-- What can be a name. -/
structure IsFeature (name : GoString) : Prop where
  ne_nil : name ≠ []
  trimmed : GoString.trimSpace name = name
  comma_notMem : comma ∉ name

private theorem isFeature_of_mem_namesOf {s name : GoString} (h : name ∈ namesOf s) :
    IsFeature name := by
  simp only [namesOf, List.mem_filter, List.mem_map, decide_eq_true_eq] at h
  obtain ⟨⟨elem, helem, rfl⟩, hne⟩ := h
  exact ⟨hne, GoString.trimSpace_trimSpace elem, fun hmem ↦
    GoString.notMem_of_mem_split s comma elem helem (GoString.mem_of_mem_trimSpace hmem)⟩

private theorem namesOf_join {names : List GoString} (h : ∀ name ∈ names, IsFeature name) :
    namesOf (GoString.join names comma) = names := by
  by_cases hnil : names = []
  · rw [hnil]
    decide
  · have htrim : names.map GoString.trimSpace = names := by
      rw [List.map_congr_left (g := id) fun name hname ↦ (h name hname).trimmed, List.map_id]
    rw [namesOf, GoString.split_join names comma hnil fun name hname ↦ (h name hname).comma_notMem,
      htrim, List.filter_eq_self]
    intro name hname
    exact decide_eq_true (h name hname).ne_nil

private theorem lookup_foldl_addElem (elems : List GoString) (c : GoMap GoString Unit)
    (name : GoString) : ((elems.foldl addElem c).lookup name).isSome =
      ((c.lookup name).isSome ||
        decide (name ∈ (elems.map GoString.trimSpace).filter (· ≠ []))) := by
  induction elems generalizing c with
  | nil => simp
  | cons elem elems ih =>
    rw [List.foldl_cons, ih, addElem]
    by_cases hempty : GoString.trimSpace elem = []
    · simp [hempty]
    · rw [if_neg hempty, GoMap.lookup_insert_eq]
      by_cases hname : name = GoString.trimSpace elem
      · simp [hname, hempty]
      · simp [hname]

private theorem exists_set (c : GoMap GoString Unit) (s : GoString) :
    ∃ c', Collection.set (some c) s = .ok (some c') ∧
      ∀ name, (c'.lookup name).isSome = ((c.lookup name).isSome || decide (name ∈ namesOf s)) :=
  ⟨_, rfl, lookup_foldl_addElem _ c⟩

private theorem exists_foldlM_set (args : List GoString) (c : GoMap GoString Unit) :
    ∃ c', args.foldlM Collection.set (some c) = .ok (some c') ∧ ∀ name,
      (c'.lookup name).isSome =
        ((c.lookup name).isSome || decide (∃ s ∈ args, name ∈ namesOf s)) := by
  induction args generalizing c with
  | nil => exact ⟨c, rfl, by simp⟩
  | cons s args ih =>
    obtain ⟨c₁, hset, hc₁⟩ := exists_set c s
    obtain ⟨c', hrun, hc'⟩ := ih c₁
    refine ⟨c', ?_, fun name ↦ ?_⟩
    · rw [List.foldlM_cons, hset]
      exact hrun
    · rw [hc', hc₁]
      simp [Bool.or_assoc]

/-! ### The text form -/

private theorem sortStrings_perm (values : List GoString) : (sortStrings values).Perm values :=
  List.perm_insertionSort _ values

private theorem sortStrings_sorted (values : List GoString) :
    (sortStrings values).Pairwise (· ≤ ·) := by
  have : Std.Total (fun a b : GoString ↦ a ≤ b) := ⟨List.le_total⟩
  have : IsTrans GoString (fun a b ↦ a ≤ b) := ⟨fun _ _ _ ↦ List.le_trans⟩
  exact List.pairwise_insertionSort _ values

private theorem sortStrings_congr {a b : List GoString} (h : a.Perm b) :
    sortStrings a = sortStrings b := by
  apply List.Perm.eq_of_pairwise _ (sortStrings_sorted a) (sortStrings_sorted b)
    ((sortStrings_perm a).trans (h.trans (sortStrings_perm b).symm))
  intro x y _ _ hxy hyx
  exact List.le_antisymm hxy hyx

private theorem mem_keys_iff (c : GoMap GoString Unit) (name : GoString) :
    name ∈ c.range.map Prod.fst ↔ (c.lookup name).isSome = true := by
  rw [Option.isSome_iff_exists, List.mem_map]
  constructor
  · rintro ⟨⟨k, v⟩, he, rfl⟩
    exact ⟨v, (c.mem_range k v).mp he⟩
  · rintro ⟨v, hv⟩
    exact ⟨(name, v), (c.mem_range name v).mpr hv, rfl⟩

private theorem string_congr {c c' : Collection} (h : c.Same c') : c.string = c'.string := by
  obtain ⟨hsome, hset⟩ := h
  cases c with
  | none =>
    cases c' with
    | none => rfl
    | some c' => cases hsome
  | some c =>
    cases c' with
    | none => cases hsome
    | some c' =>
      have hperm : (c.range.map Prod.fst).Perm (c'.range.map Prod.fst) := by
        rw [List.perm_ext_iff_of_nodup c.nodup_keys_range c'.nodup_keys_range]
        intro name
        rw [mem_keys_iff, mem_keys_iff]
        exact Bool.eq_iff_iff.mp (hset name)
      rw [Collection.string, Collection.string, sortStrings_congr hperm]

/-- The text of a collection whose names are features gives the collection back. -/
theorem set_string {c : GoMap GoString Unit}
    (h : ∀ name, (c.lookup name).isSome = true → IsFeature name) :
    ∃ c', newCollection.set (Collection.string (some c)) = .ok c' ∧ c'.Same (some c) := by
  obtain ⟨c', hset, hc'⟩ := exists_set ∅ (Collection.string (some c))
  have hnames : namesOf (Collection.string (some c)) = sortStrings (c.range.map Prod.fst) := by
    apply namesOf_join
    intro name hname
    exact h name ((mem_keys_iff c name).mp ((sortStrings_perm _).mem_iff.mp hname))
  refine ⟨some c', hset, rfl, fun name ↦ ?_⟩
  rw [Collection.isSet, hc', hnames]
  simp only [AList.lookup_empty, Option.isSome_none, Bool.false_or, (sortStrings_perm _).mem_iff,
    mem_keys_iff]
  simp [Collection.isSet]

/-- `feature.go:31-71`. A collection made by calls of `Set` comes back from its text, and it does
not depend on the order and the repetition of the calls. -/
theorem collection_of_string (args : List GoString) :
    ∃ c, afterSets args = .ok c ∧
      (∃ c', newCollection.set c.string = .ok c' ∧ c'.Same c) ∧
      ∀ args', (∀ s, s ∈ args' ↔ s ∈ args) →
        ∃ c', afterSets args' = .ok c' ∧ c'.Same c ∧ c'.string = c.string := by
  have hrun (args : List GoString) : ∃ c, afterSets args = .ok (some c) ∧
      ∀ name, (c.lookup name).isSome = decide (∃ s ∈ args, name ∈ namesOf s) := by
    obtain ⟨c, hc, hnames⟩ := exists_foldlM_set args ∅
    exact ⟨c, hc, fun name ↦ by rw [hnames, AList.lookup_empty]; rfl⟩
  obtain ⟨c, hc, hnames⟩ := hrun args
  refine ⟨some c, hc, set_string fun name hname ↦ ?_, fun args' hargs ↦ ?_⟩
  · rw [hnames, decide_eq_true_eq] at hname
    obtain ⟨s, -, hs⟩ := hname
    exact isFeature_of_mem_namesOf hs
  · obtain ⟨c', hc', hnames'⟩ := hrun args'
    have hsame : Collection.Same (some c') (some c) := by
      refine ⟨rfl, fun name ↦ ?_⟩
      rw [Collection.isSet, Collection.isSet, hnames, hnames']
      simp only [hargs]
    exact ⟨some c', hc', hsame, string_congr hsame⟩

/-- Neither order nor repetition matters to the text. -/
theorem collection_of_string_twice :
    ∃ c c', afterSets [.lit "k6, traceroute", .lit "k6"] = .ok c ∧
      afterSets [.lit "k6", .lit "k6, traceroute", .lit "k6"] = .ok c' ∧ c'.string = c.string := by
  obtain ⟨c, hc, -, hother⟩ := collection_of_string [.lit "k6, traceroute", .lit "k6"]
  obtain ⟨c', hc', -, hstring⟩ := hother [.lit "k6", .lit "k6, traceroute", .lit "k6"]
    (fun s ↦ by simp only [List.mem_cons, List.not_mem_nil, or_false]; tauto)
  exact ⟨c, c', hc, hc', hstring⟩

end SMAgent.Feature
