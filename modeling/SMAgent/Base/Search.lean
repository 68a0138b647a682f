import Mathlib.Data.List.Sort

/-!
# Binary search and sorted prefixes

`sort.Search(n, f)` halves an interval of indices until it is empty. On a predicate that
changes from false to true at most once it finds the change, which in a sorted list is the
length of the prefix below a bound.
-/

namespace SMAgent.Base

-- The interval shrinks in every round, so its length is enough fuel.
private def searchLoop (f : Nat → Bool) : Nat → Nat → Nat → Nat
  | 0, i, _ => i
  | fuel + 1, i, j =>
    if i < j then
      let h := (i + j) / 2
      if f h then searchLoop f fuel i h else searchLoop f fuel (h + 1) j
    else i

/-- Go's `sort.Search(n, f)`. -/
def sortSearch (n : Nat) (f : Nat → Bool) : Nat := searchLoop f n 0 n

private theorem searchLoop_eq (f : Nat → Bool) (n m : Nat) (hlt : ∀ k < m, f k = false)
    (hge : ∀ k, m ≤ k → k < n → f k = true) :
    ∀ fuel i j, i ≤ m → m ≤ j → j ≤ n → j - i ≤ fuel → searchLoop f fuel i j = m := by
  intro fuel
  induction fuel with
  | zero =>
    intro i j hi hj _ hf
    rw [searchLoop]
    omega
  | succ fuel ih =>
    intro i j hi hj hn hf
    rw [searchLoop]
    split
    · next hij =>
      dsimp only
      split
      · next hfh =>
        have hm : m ≤ (i + j) / 2 := by
          by_contra hlt'
          rw [hlt _ (by omega)] at hfh
          cases hfh
        apply ih
        all_goals omega
      · next hfh =>
        have hm : (i + j) / 2 < m := by
          by_contra hge'
          exact hfh (hge _ (by omega) (by omega))
        apply ih
        all_goals omega
    · omega

/-- The search finds the index where the predicate changes from false to true. -/
theorem sortSearch_eq (f : Nat → Bool) (n m : Nat) (hm : m ≤ n) (hlt : ∀ k < m, f k = false)
    (hge : ∀ k, m ≤ k → k < n → f k = true) : sortSearch n f = m :=
  searchLoop_eq f n m hlt hge n 0 n (by omega) hm (by omega) (by omega)

/-! ### Downward closed predicates on a list -/

variable {α : Type} {p : α → Bool}

/-- Once the predicate fails it fails on the rest of the list. -/
def PrefixClosed (p : α → Bool) (l : List α) : Prop :=
  l.Pairwise fun a b ↦ p b = true → p a = true

/-- The elements that satisfy the predicate are a prefix, the others the rest. -/
theorem PrefixClosed.split_eq {l : List α} (h : PrefixClosed p l) :
    l.take (l.countP p) = l.filter p ∧ l.drop (l.countP p) = l.filter (fun a ↦ !p a) := by
  induction l with
  | nil => exact ⟨rfl, rfl⟩
  | cons a l ih =>
    obtain ⟨ha, hl⟩ := List.pairwise_cons.mp h
    obtain ⟨htake, hdrop⟩ := ih hl
    cases hp : p a with
    | true => simp [hp, htake, hdrop]
    | false =>
      have hnone : ∀ b ∈ l, p b = false := by
        intro b hb
        cases hpb : p b with
        | false => rfl
        | true => cases hp.symm.trans (ha b hb hpb)
      have hcount : l.countP p = 0 := by
        rw [List.countP_eq_zero]
        intro b hb
        rw [hnone b hb]
        exact Bool.false_ne_true
      rw [hcount] at htake hdrop
      simp [hp, hcount, ← htake, ← hdrop]

/-- The search for the first element that fails the predicate. -/
theorem PrefixClosed.sortSearch_eq {l : List α} (h : PrefixClosed p l) :
    sortSearch l.length (fun i ↦ !(l[i]?.any p)) = l.countP p := by
  obtain ⟨htake, hdrop⟩ := h.split_eq
  apply Base.sortSearch_eq
  · exact List.countP_le_length
  · intro k hk
    have hlen : k < l.length := Nat.lt_of_lt_of_le hk List.countP_le_length
    have hmem : l[k] ∈ l.filter p := by
      rw [← htake]
      exact List.mem_take_iff_getElem.mpr ⟨k, by omega, rfl⟩
    rw [List.getElem?_eq_getElem hlen, Option.any_some, (List.mem_filter.mp hmem).2]
    rfl
  · intro k hk hlen
    have hmem : l[k] ∈ l.filter (fun a ↦ !p a) := by
      rw [← hdrop]
      exact List.mem_drop_iff_getElem.mpr ⟨k - l.countP p, by omega, by congr 1; omega⟩
    rw [List.getElem?_eq_getElem hlen, Option.any_some, (List.mem_filter.mp hmem).2]

end SMAgent.Base
