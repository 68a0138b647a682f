import Mathlib.Data.List.AList

/-!
# Go maps

A Go map is a finite partial function whose iteration order the language leaves open.
It is modelled by `AList`, whose field carries the absence of repeated keys.
`range` enumerates the entries in the order of the list; results about a traversal are
stated up to permutation or through `lookup`.
-/

namespace SMAgent.Base

/-- A Go `map[κ]ν`. -/
abbrev GoMap (κ ν : Type) := AList (fun _ : κ ↦ ν)

namespace GoMap

variable {κ ν : Type}

/-- The pairs visited by `for k, v := range m`. -/
def range (m : GoMap κ ν) : List (κ × ν) := m.entries.map (fun e ↦ (e.1, e.2))

/-- A traversal visits no key twice. -/
theorem nodup_keys_range (m : GoMap κ ν) : (m.range.map Prod.fst).Nodup := by
  rw [range, List.map_map]
  exact m.keys_nodup

/-- How many of the stored values are in `p`. -/
def count (m : GoMap κ ν) (p : ν → Bool) : Nat := m.entries.countP fun e ↦ p e.2

private theorem count_eq_countP_range (m : GoMap κ ν) (p : ν → Bool) :
    m.count p = m.range.countP fun e ↦ p e.2 := by
  rw [count, range, List.countP_map]
  rfl

variable [DecidableEq κ]

/-- A traversal visits exactly the stored pairs. -/
theorem mem_range (m : GoMap κ ν) (k : κ) (v : ν) :
    (k, v) ∈ m.range ↔ m.lookup k = some v := by
  rw [range, List.mem_map]
  constructor
  · rintro ⟨⟨a, b⟩, he, hab⟩
    obtain ⟨rfl, rfl⟩ := Prod.mk.inj hab
    exact AList.mem_lookup_iff.mpr he
  · intro h
    exact ⟨⟨k, v⟩, AList.mem_lookup_iff.mp h, rfl⟩

/-- Reading after an assignment. -/
theorem lookup_insert_eq (m : GoMap κ ν) (k a : κ) (v : ν) :
    (m.insert k v).lookup a = if a = k then some v else m.lookup a := by
  split
  · next h => rw [h, AList.lookup_insert]
  · next h => rw [AList.lookup_insert_ne h]

/-- Reading after a `delete`. -/
theorem lookup_erase_eq (m : GoMap κ ν) (k a : κ) :
    (m.erase k).lookup a = if a = k then none else m.lookup a := by
  split
  · next h => rw [h, AList.lookup_erase]
  · next h => rw [AList.lookup_erase_ne h]

/-- Assignments to different keys: each of them is read back. -/
theorem lookup_foldl_insert_of_nodup {α : Type*} (key : α → κ) (val : α → ν) {as : List α}
    (hkeys : (as.map key).Nodup) (m : GoMap κ ν) (k : κ) :
    (as.foldl (fun m a ↦ m.insert (key a) (val a)) m).lookup k =
      match as.find? fun a ↦ key a = k with
      | some a => some (val a)
      | none => m.lookup k := by
  induction as generalizing m with
  | nil => rfl
  | cons a as ih =>
    obtain ⟨hnot, hkeys⟩ := List.nodup_cons.mp hkeys
    rw [List.foldl_cons, ih hkeys, List.find?_cons]
    by_cases hk : key a = k
    · have hnone : (as.find? fun b ↦ key b = k) = none := by
        rw [List.find?_eq_none]
        intro b hb hbk
        apply hnot
        rw [hk, ← of_decide_eq_true hbk]
        exact List.mem_map_of_mem hb
      simp [hnone, hk]
    · simp [hk, Ne.symm hk]

/-- Counting after the assignment to a new key. -/
theorem count_insert (m : GoMap κ ν) {k : κ} (h : m.lookup k = none) (v : ν) (p : ν → Bool) :
    GoMap.count (m.insert k v) p = m.count p + if p v then 1 else 0 := by
  have hk : k ∉ m.entries.keys := AList.lookup_eq_none.mp h
  rw [count, AList.entries_insert, List.kerase_of_notMem_keys hk, List.countP_cons, count]

/-- Counting after the deletion of a stored pair. -/
theorem count_erase (m : GoMap κ ν) {k : κ} {v : ν} (h : m.lookup k = some v) (p : ν → Bool) :
    GoMap.count (m.erase k) p + (if p v then 1 else 0) = m.count p := by
  have hmem : (⟨k, v⟩ : Sigma fun _ ↦ ν) ∈ m.entries := AList.mem_lookup_iff.mp h
  have hkeys : k ∈ m.entries.keys := List.mem_keys.mpr ⟨v, hmem⟩
  obtain ⟨v', l₁, l₂, hnot, heq, herase⟩ := List.exists_of_kerase hkeys
  have hv : v' = v := by
    have hlookup : m.lookup k = some v' := by
      apply AList.mem_lookup_iff.mpr
      rw [heq]
      exact List.mem_append_right _ List.mem_cons_self
    exact Option.some.inj (hlookup.symm.trans h)
  rw [count, count, show (m.erase k).entries = m.entries.kerase k from rfl, herase, heq, hv]
  simp only [List.countP_append, List.countP_cons]
  omega

/-- Maps that agree on what `f` sees of their values have equal counts of it. -/
theorem count_congr {γ : Type} {m m' : GoMap κ ν} (f : ν → γ)
    (h : ∀ k, (m.lookup k).map f = (m'.lookup k).map f) (p : γ → Bool) :
    m.count (fun v ↦ p (f v)) = m'.count fun v ↦ p (f v) := by
  have hnodup (m : GoMap κ ν) : (m.range.map fun e ↦ (e.1, f e.2)).Nodup := by
    apply List.Nodup.of_map Prod.fst
    rw [List.map_map]
    exact m.nodup_keys_range
  have hmem (m : GoMap κ ν) (k : κ) (c : γ) :
      (k, c) ∈ m.range.map (fun e ↦ (e.1, f e.2)) ↔ (m.lookup k).map f = some c := by
    simp only [List.mem_map, Prod.mk.injEq, Option.map_eq_some_iff, Prod.exists]
    constructor
    · rintro ⟨a, v, he, rfl, rfl⟩
      exact ⟨v, (m.mem_range a v).mp he, rfl⟩
    · rintro ⟨v, hv, rfl⟩
      exact ⟨k, v, (m.mem_range k v).mpr hv, rfl, rfl⟩
  have hperm : (m.range.map fun e ↦ (e.1, f e.2)).Perm (m'.range.map fun e ↦ (e.1, f e.2)) := by
    rw [List.perm_ext_iff_of_nodup (hnodup m) (hnodup m')]
    rintro ⟨k, c⟩
    rw [hmem, hmem, h k]
  have hcount := hperm.countP_eq fun e ↦ p e.2
  rw [List.countP_map, List.countP_map] at hcount
  rw [count_eq_countP_range, count_eq_countP_range]
  exact hcount

end GoMap
end SMAgent.Base
