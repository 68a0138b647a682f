import Mathlib.Data.List.Nodup

/-!
# Lists with a key

Lists whose elements carry a key that may repeat, and the two ways to merge one into the
other: keep the first element of each key, or put an element in the place of the last one
with its key. `first` and `last` read a list by key; they agree where a key occurs once.
-/

namespace SMAgent.Base.Keyed

universe u v

variable {α : Type u} {κ : Type v} [DecidableEq κ] (key : α → κ)

/-- The first element with the key. -/
def first (k : κ) (l : List α) : Option α := l.find? fun x ↦ decide (key x = k)

/-- The last element with the key. -/
def last (k : κ) (l : List α) : Option α := first key k l.reverse

/-- How many elements have the key. -/
def count (k : κ) (l : List α) : Nat := l.countP fun x ↦ decide (key x = k)

/-- Append an element unless its key is there. -/
def addNew (l : List α) (x : α) : List α :=
  if l.any fun y ↦ decide (key y = key x) then l else l ++ [x]

/-- Put an element in the place of the last one with its key, or at the end. -/
def put : List α → α → List α
  | [], x => [x]
  | y :: ys, x =>
    if key x ∈ ys.map key then y :: put ys x
    else if key y = key x then x :: ys
    else y :: (ys ++ [x])

variable {key}

/-! ### Reading -/

@[simp]
private theorem first_nil (k : κ) : first key k [] = none := rfl

/-- The first element of a key, by cases. -/
theorem first_cons (k : κ) (x : α) (l : List α) :
    first key k (x :: l) = if key x = k then some x else first key k l := by
  unfold first
  rw [List.find?_cons]
  by_cases h : key x = k
  · rw [if_pos h, decide_eq_true h]
  · rw [if_neg h, decide_eq_false h]

/-- The first element of a key in two lists. -/
theorem first_append (k : κ) (l m : List α) :
    first key k (l ++ m) = (first key k l).or (first key k m) :=
  List.find?_append

/-- The last element of a key in two lists. -/
theorem last_append (k : κ) (l m : List α) :
    last key k (l ++ m) = (last key k m).or (last key k l) := by
  unfold last
  rw [List.reverse_append, first_append]

/-- The last element of a key, by cases. -/
theorem last_cons (k : κ) (x : α) (l : List α) :
    last key k (x :: l) = (last key k l).or (if key x = k then some x else none) := by
  have hx : last key k [x] = if key x = k then some x else none := first_cons k x []
  rw [← hx, ← last_append]
  rfl

variable {l : List α} {k : κ}

/-- Nothing is found exactly for the keys that do not occur. -/
theorem first_eq_none : first key k l = none ↔ k ∉ l.map key := by
  simp [first, List.mem_map]

/-- Nothing is found exactly under keys that do not occur. -/
theorem last_eq_none : last key k l = none ↔ k ∉ l.map key := by
  rw [last, first_eq_none, List.map_reverse, List.mem_reverse]

/-- What is found is there, and has the key. -/
theorem mem_of_first {x : α} (h : first key k l = some x) : x ∈ l ∧ key x = k := by
  refine ⟨List.mem_of_find?_eq_some h, ?_⟩
  have hx := List.find?_some h
  exact of_decide_eq_true hx

/-- What is found is there, and has the key. -/
theorem mem_of_last {x : α} (h : last key k l = some x) : x ∈ l ∧ key x = k := by
  obtain ⟨hx, hk⟩ := mem_of_first h
  exact ⟨List.mem_reverse.mp hx, hk⟩

private theorem count_cons (k : κ) (x : α) (l : List α) :
    count key k (x :: l) = count key k l + if key x = k then 1 else 0 := by
  rw [count, List.countP_cons]
  by_cases h : key x = k
  · rw [if_pos h, if_pos (decide_eq_true h)]
    rfl
  · rw [if_neg h, if_neg (by simpa using h)]
    rfl

/-- A key is not counted exactly if it does not occur. -/
theorem count_eq_zero : count key k l = 0 ↔ k ∉ l.map key := by
  simp [count, List.countP_eq_zero]

/-- A key that occurs once at most has one element. -/
theorem first_eq_last (h : count key k l ≤ 1) : first key k l = last key k l := by
  induction l with
  | nil => rfl
  | cons x l ih =>
    rw [first_cons, last_cons]
    rw [count_cons] at h
    by_cases hx : key x = k
    · rw [if_pos hx, if_pos hx]
      rw [if_pos hx] at h
      have hnone : last key k l = none := by
        apply last_eq_none.mpr
        apply count_eq_zero.mp
        omega
      rw [hnone]
      rfl
    · rw [if_neg hx, if_neg hx, Option.or_none]
      exact ih (Nat.le_trans (Nat.le_add_right _ _) h)

/-- Without repeated keys each counts once at most. -/
theorem count_le_one_of_nodup (h : (l.map key).Nodup) (k : κ) : count key k l ≤ 1 := by
  induction l with
  | nil => exact Nat.zero_le 1
  | cons x l ih =>
    rw [List.map_cons, List.nodup_cons] at h
    rw [count_cons]
    split
    · next hx => exact Nat.le_of_eq (congrArg (· + 1) (count_eq_zero.mpr (hx ▸ h.1)))
    · exact ih h.2

/-- Without repeated keys the first and the last are the same. -/
theorem first_eq_last_of_nodup (h : (l.map key).Nodup) (k : κ) : first key k l = last key k l :=
  first_eq_last (count_le_one_of_nodup h k)

/-- In a list without repeated keys an element is found by its key. -/
theorem first_of_mem (h : (l.map key).Nodup) {x : α} (hx : x ∈ l) :
    first key (key x) l = some x := by
  induction l with
  | nil => cases hx
  | cons y l ih =>
    rw [List.map_cons, List.nodup_cons] at h
    rw [first_cons]
    rcases List.mem_cons.mp hx with rfl | hx
    · rw [if_pos rfl]
    · rw [if_neg, ih h.2 hx]
      intro hy
      exact h.1 (hy ▸ List.mem_map_of_mem hx)

/-- Reading through an injective renaming of the keys. -/
theorem first_map {β : Type u} {μ : Type v} [DecidableEq μ] {key' : β → μ} {f : α → β} {g : κ → μ}
    (hg : g.Injective) (hf : ∀ x, key' (f x) = g (key x)) (k : κ) (l : List α) :
    first key' (g k) (l.map f) = (first key k l).map f := by
  unfold first
  rw [List.find?_map]
  congr 2
  funext x
  exact decide_eq_decide.mpr (by rw [hf x, hg.eq_iff])

/-- Counting after a map that respects the keys. -/
theorem count_map {β : Type u} {μ : Type v} [DecidableEq μ] {key' : β → μ} {f : α → β} {g : κ → μ}
    (hg : g.Injective) (hf : ∀ x, key' (f x) = g (key x)) (k : κ) (l : List α) :
    count key' (g k) (l.map f) = count key k l := by
  unfold count
  rw [List.countP_map]
  congr 1
  funext x
  exact decide_eq_decide.mpr (by rw [hf x, hg.eq_iff])

/-- Reading where some keys are left out. -/
theorem first_filter (p : κ → Bool) (k : κ) (l : List α) :
    first key k (l.filter fun x ↦ p (key x)) = if p k then first key k l else none := by
  induction l with
  | nil => simp
  | cons x l ih =>
    rw [List.filter_cons, first_cons]
    by_cases hx : key x = k
    · rw [if_pos hx, hx]
      split
      · rw [first_cons, if_pos hx]
      · next h => rw [ih, if_neg h]
    · rw [if_neg hx]
      split
      · rw [first_cons, if_neg hx, ih]
      · exact ih

/-! ### Keeping the first element of each key -/

private theorem keys_addNew (l : List α) (x : α) :
    (addNew key l x).map key =
      if key x ∈ l.map key then l.map key else l.map key ++ [key x] := by
  have hany : (l.any fun y ↦ decide (key y = key x)) = true ↔ key x ∈ l.map key := by simp
  by_cases h : key x ∈ l.map key
  · rw [addNew, if_pos (hany.mpr h), if_pos h]
  · rw [addNew, if_neg (mt hany.mp h), if_neg h, List.map_append]
    rfl

private theorem first_addNew (k : κ) (l : List α) (x : α) :
    first key k (addNew key l x) = (first key k l).or (first key k [x]) := by
  unfold addNew
  split
  · next h =>
    by_cases hx : key x = k
    · obtain ⟨y, hy, hyx⟩ := List.any_eq_true.mp h
      have hsome : first key k l ≠ none := by
        rw [ne_eq, first_eq_none, not_not, ← hx, ← of_decide_eq_true hyx]
        exact List.mem_map_of_mem hy
      obtain ⟨z, hz⟩ := Option.ne_none_iff_exists'.mp hsome
      rw [hz]
      rfl
    · rw [first_cons, if_neg hx, first_nil, Option.or_none]
  · exact first_append k l [x]

/-- What is kept is what comes first. -/
theorem first_foldl_addNew (k : κ) (l acc : List α) :
    first key k (l.foldl (addNew key) acc) = (first key k acc).or (first key k l) := by
  induction l generalizing acc with
  | nil => simp
  | cons x l ih =>
    rw [List.foldl_cons, ih, first_addNew, Option.or_assoc, ← first_append]
    rfl

/-- Adding new keys keeps the keys distinct. -/
theorem nodup_foldl_addNew (l acc : List α) (h : (acc.map key).Nodup) :
    ((l.foldl (addNew key) acc).map key).Nodup := by
  induction l generalizing acc with
  | nil => exact h
  | cons x l ih =>
    apply ih
    rw [keys_addNew]
    split
    · exact h
    · next hx => exact h.append (List.nodup_singleton _) (List.disjoint_singleton.mpr hx)

/-- Every key is kept. -/
theorem mem_keys_foldl_addNew : k ∈ (l.foldl (addNew key) []).map key ↔ k ∈ l.map key := by
  rw [← not_iff_not, ← first_eq_none, ← first_eq_none, first_foldl_addNew]
  rfl

/-- What is kept was there. -/
theorem mem_of_mem_foldl_addNew {x : α} (h : x ∈ l.foldl (addNew key) []) : x ∈ l := by
  have hfirst := first_of_mem (nodup_foldl_addNew l [] List.nodup_nil) h
  rw [first_foldl_addNew] at hfirst
  exact (mem_of_first hfirst).1

/-- What is there stays in front. -/
theorem prefix_foldl_addNew (l acc : List α) : acc <+: l.foldl (addNew key) acc := by
  induction l generalizing acc with
  | nil => exact List.prefix_rfl
  | cons x l ih =>
    apply List.IsPrefix.trans _ (ih (addNew key acc x))
    unfold addNew
    split
    · exact List.prefix_rfl
    · exact List.prefix_append acc [x]

/-! ### Putting elements in place -/

/-- A new key goes to the end. -/
theorem put_of_notMem {x : α} (h : key x ∉ l.map key) : put key l x = l ++ [x] := by
  cases l with
  | nil => rfl
  | cons y l =>
    rw [List.map_cons, List.mem_cons, not_or] at h
    rw [put, if_neg h.2, if_neg (Ne.symm h.1)]
    rfl

/-- An old key stays in its place. -/
theorem put_append_cons {pre post : List α} {x y : α} (hy : key y = key x)
    (h : key x ∉ post.map key) : put key (pre ++ y :: post) x = pre ++ x :: post := by
  induction pre with
  | nil => rw [List.nil_append, put, if_neg h, if_pos hy, List.nil_append]
  | cons z pre ih =>
    have hmem : key x ∈ (pre ++ y :: post).map key := by
      rw [← hy]
      exact List.mem_map_of_mem (List.mem_append_right _ List.mem_cons_self)
    rw [List.cons_append, put, if_pos hmem, ih, List.cons_append]

private theorem put_append_of_notMem {base : List α} {x : α} (h : key x ∉ base.map key)
    (l : List α) : put key (base ++ l) x = base ++ put key l x := by
  induction base with
  | nil => rfl
  | cons y base ih =>
    rw [List.map_cons, List.mem_cons, not_or] at h
    rw [List.cons_append, put, List.cons_append]
    by_cases hmem : key x ∈ (base ++ l).map key
    · rw [if_pos hmem, ih h.2]
    · have hl : key x ∉ l.map key := by
        rw [List.map_append, List.mem_append, not_or] at hmem
        exact hmem.2
      rw [if_neg hmem, if_neg (Ne.symm h.1), put_of_notMem hl, List.append_assoc]

/-- Elements with new keys leave the base in front as it is. -/
theorem foldl_put_append {base l : List α} (h : ∀ x ∈ l, key x ∉ base.map key) (acc : List α) :
    l.foldl (put key) (base ++ acc) = base ++ l.foldl (put key) acc := by
  induction l generalizing acc with
  | nil => rfl
  | cons x l ih =>
    rw [List.foldl_cons, put_append_of_notMem (h x List.mem_cons_self),
      ih (List.forall_mem_cons.mp h).2, List.foldl_cons]

private theorem keys_put (l : List α) (x : α) :
    (put key l x).map key =
      if key x ∈ l.map key then l.map key else l.map key ++ [key x] := by
  induction l with
  | nil => rfl
  | cons y l ih =>
    rw [put, List.map_cons]
    by_cases hmem : key x ∈ l.map key
    · rw [if_pos hmem, if_pos (List.mem_cons_of_mem _ hmem), List.map_cons, ih, if_pos hmem]
    · rw [if_neg hmem]
      by_cases hy : key y = key x
      · rw [if_pos hy, hy, if_pos List.mem_cons_self, List.map_cons]
      · have hnot : key x ∉ key y :: l.map key :=
          List.not_mem_cons_of_ne_of_not_mem (Ne.symm hy) hmem
        rw [if_neg hy, if_neg hnot, List.map_cons, List.map_append]
        rfl

private theorem last_put (k : κ) (l : List α) (x : α) :
    last key k (put key l x) = if key x = k then some x else last key k l := by
  induction l with
  | nil => exact first_cons k x []
  | cons y l ih =>
    rw [put]
    by_cases hmem : key x ∈ l.map key
    · rw [if_pos hmem, last_cons, last_cons, ih]
      by_cases hx : key x = k
      · rw [if_pos hx, if_pos hx]
        rfl
      · rw [if_neg hx, if_neg hx]
    · rw [if_neg hmem]
      by_cases hy : key y = key x
      · rw [if_pos hy, last_cons, last_cons]
        by_cases hx : key x = k
        · rw [if_pos hx, if_pos hx, last_eq_none.mpr (hx ▸ hmem)]
          rfl
        · rw [if_neg hx, if_neg hx, if_neg (hy ▸ hx)]
      · have hsingle : last key k [x] = if key x = k then some x else none := first_cons k x []
        rw [if_neg hy, ← List.cons_append, last_append, hsingle]
        by_cases hx : key x = k
        · rw [if_pos hx, if_pos hx]
          rfl
        · rw [if_neg hx, if_neg hx]
          rfl

private theorem first_put_of_repeated (k : κ) (l : List α) (x : α)
    (h : key x = k → 2 ≤ count key k l) : first key k (put key l x) = first key k l := by
  induction l with
  | nil =>
    have hx : key x ≠ k := fun hx ↦ absurd (h hx) (by simp [count])
    rw [put, first_cons, if_neg hx]
  | cons y l ih =>
    rw [put]
    by_cases hmem : key x ∈ l.map key
    · rw [if_pos hmem, first_cons, first_cons]
      by_cases hy : key y = k
      · rw [if_pos hy, if_pos hy]
      · rw [if_neg hy, if_neg hy]
        apply ih
        intro hx
        have hcount := h hx
        rwa [count_cons, if_neg hy] at hcount
    · have hx : key x ≠ k := by
        intro hx
        have hcount := h hx
        rw [count_cons, count_eq_zero.mpr (hx ▸ hmem)] at hcount
        split at hcount <;> omega
      rw [if_neg hmem]
      by_cases hy : key y = key x
      · rw [if_pos hy, first_cons, first_cons, if_neg hx, if_neg (hy ▸ hx)]
      · rw [if_neg hy, ← List.cons_append, first_append, first_cons k x, if_neg hx, first_nil,
          Option.or_none]

private theorem count_put (k : κ) (l : List α) (x : α) :
    count key k (put key l x) =
      if key x = k ∧ k ∉ l.map key then 1 else count key k l := by
  induction l with
  | nil => simp [put, count, List.countP_cons]
  | cons y l ih =>
    rw [put]
    by_cases hmem : key x ∈ l.map key
    · have hin : ∀ keys : List κ, key x ∈ keys → ¬ (key x = k ∧ k ∉ keys) := by
        rintro keys hx ⟨rfl, hk⟩
        exact hk hx
      rw [if_pos hmem, count_cons, ih, if_neg (hin _ hmem), List.map_cons,
        if_neg (hin _ (List.mem_cons_of_mem _ hmem)), count_cons]
    · rw [if_neg hmem]
      by_cases hy : key y = key x
      · rw [if_pos hy, if_neg, count_cons, count_cons, hy]
        rintro ⟨rfl, hk⟩
        exact hk (hy ▸ List.mem_cons_self)
      · rw [if_neg hy, ← List.cons_append, count, List.countP_append]
        by_cases hx : key x = k
        · subst hx
          have hk : key x ∉ (y :: l).map key := List.not_mem_cons_of_ne_of_not_mem (Ne.symm hy) hmem
          rw [if_pos ⟨rfl, hk⟩, ← count, count_eq_zero.mpr hk]
          simp
        · rw [if_neg fun hk ↦ hx hk.1]
          simp [count, hx]

/-- A key that the base has twice keeps its first element. -/
theorem first_foldl_put_of_repeated (l acc : List α) (h : 2 ≤ count key k acc) :
    first key k (l.foldl (put key) acc) = first key k acc := by
  induction l generalizing acc with
  | nil => rfl
  | cons x l ih =>
    have hmem : k ∈ acc.map key := by
      by_contra hk
      rw [count_eq_zero.mpr hk] at h
      omega
    rw [List.foldl_cons, ih, first_put_of_repeated k acc x fun _ ↦ h]
    rwa [count_put, if_neg fun hk ↦ hk.2 hmem]

/-- A key that the base has once at most stays so. -/
theorem first_foldl_put_of_count_le (l acc : List α) (h : count key k acc ≤ 1) :
    first key k (l.foldl (put key) acc) = last key k (l.foldl (put key) acc) := by
  induction l generalizing acc with
  | nil => exact first_eq_last h
  | cons x l ih =>
    apply ih
    rw [count_put]
    split
    · exact Nat.le_refl 1
    · exact h

/-- After some writes the last one decides. -/
theorem last_foldl_put (k : κ) (l acc : List α) :
    last key k (l.foldl (put key) acc) = (last key k l).or (last key k acc) := by
  induction l generalizing acc with
  | nil => rfl
  | cons x l ih =>
    rw [List.foldl_cons, ih, last_put, last_cons, Option.or_assoc]
    by_cases hx : key x = k
    · rw [if_pos hx, if_pos hx]
      rfl
    · rw [if_neg hx, if_neg hx]
      rfl

/-- Writing keeps the keys distinct. -/
theorem nodup_foldl_put (l acc : List α) (h : (acc.map key).Nodup) :
    ((l.foldl (put key) acc).map key).Nodup := by
  induction l generalizing acc with
  | nil => exact h
  | cons x l ih =>
    apply ih
    rw [keys_put]
    split
    · exact h
    · next hx => exact h.append (List.nodup_singleton _) (List.disjoint_singleton.mpr hx)

/-- The keys after some writes. -/
theorem mem_keys_foldl_put {l acc : List α} :
    k ∈ (l.foldl (put key) acc).map key ↔ k ∈ l.map key ∨ k ∈ acc.map key := by
  rw [← not_iff_not, not_or, ← last_eq_none, ← last_eq_none, ← last_eq_none, last_foldl_put,
    Option.or_eq_none_iff]

end SMAgent.Base.Keyed
