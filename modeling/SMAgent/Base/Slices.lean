import Mathlib.Data.List.Basic
import SMAgent.Base.GoString

/-!
# Slices over arrays

A slice is a window on an array that other slices may share: `append` writes into the array as
long as the capacity allows, and copies to a new one only when it is full. The panics are those
of slice expressions out of bounds.
-/

namespace SMAgent.Base

universe u

variable {α : Type u}

/-- The arrays of a program, by address. -/
abbrev Heap (α : Type u) := List (List α)

/-- A slice value: `len` elements of the array `arr` from `off` on, and the capacity. -/
structure GoSlice where
  arr : Nat
  off : Nat
  len : Nat
  cap : Nat
  len_le : len ≤ cap
  deriving DecidableEq, Repr

/-- The slice expression `s[lo:hi]`; the upper bound may go up to the capacity. -/
def GoSlice.slice (s : GoSlice) (lo hi : Int) : Except Panic GoSlice :=
  if h : 0 ≤ lo ∧ lo ≤ hi ∧ hi ≤ s.cap then
    .ok ⟨s.arr, s.off + lo.toNat, (hi - lo).toNat, s.cap - lo.toNat, by omega⟩
  else .error .indexOutOfRange

namespace Heap

/-- The array at an address. -/
def array (h : Heap α) (arr : Nat) : List α := h.getD arr []

/-- The elements of a slice. -/
def elems (h : Heap α) (s : GoSlice) : List α := ((h.array s.arr).drop s.off).take s.len

/-- The slice lies in its array, with its capacity. -/
def InBounds (h : Heap α) (s : GoSlice) : Prop := s.off + s.cap ≤ (h.array s.arr).length

/-- `append(s, x)`: in place, or in a new array with `spare` behind the elements. -/
def append (h : Heap α) (s : GoSlice) (x : α) (spare : List α) : Heap α × GoSlice :=
  if hroom : s.len < s.cap then
    (h.set s.arr ((h.array s.arr).set (s.off + s.len) x),
      { s with len := s.len + 1, len_le := hroom })
  else
    (h ++ [h.elems s ++ x :: spare],
      ⟨h.length, 0, s.len + 1, s.len + 1 + spare.length, Nat.le_add_right _ _⟩)

variable {h : Heap α} {s t : GoSlice}

/-- A slice in bounds has as many elements as its length says. -/
theorem length_elems (hs : h.InBounds s) : (h.elems s).length = s.len := by
  have hlen := s.len_le
  unfold InBounds at hs
  simp only [elems, List.length_take, List.length_drop]
  omega

/-- A slice expression within the length takes a part of the elements. -/
theorem elems_slice {lo hi : Int} (ht : s.slice lo hi = .ok t) (hhi : hi ≤ s.len) :
    h.elems t = ((h.elems s).drop lo.toNat).take (hi - lo).toNat := by
  unfold GoSlice.slice at ht
  split at ht
  · next hbounds =>
    obtain rfl := Except.ok.inj ht
    simp only [elems, List.drop_take, List.drop_drop, List.take_take]
    congr 1
    omega
  · cases ht

/-- A slice of a slice is in bounds. -/
theorem inBounds_slice {lo hi : Int} (hs : h.InBounds s) (ht : s.slice lo hi = .ok t) :
    h.InBounds t := by
  unfold GoSlice.slice at ht
  split at ht
  · next hbounds =>
    obtain rfl := Except.ok.inj ht
    unfold InBounds at hs ⊢
    dsimp only
    omega
  · cases ht

private theorem array_set_self {k : Nat} (hk : k < h.length) (xs : List α) :
    Heap.array (h.set k xs) k = xs := by
  rw [array, List.getD_eq_getElem?_getD, List.getElem?_set_self hk, Option.getD_some]

private theorem array_set_of_ne {j k : Nat} (hne : j ≠ k) (xs : List α) :
    Heap.array (h.set k xs) j = h.array j := by
  rw [array, array, List.getD_eq_getElem?_getD, List.getD_eq_getElem?_getD,
    List.getElem?_set_ne (Ne.symm hne)]

private theorem take_drop_set (l : List α) (off len : Nat) (x : α) (h : off + len < l.length) :
    ((l.set (off + len) x).drop off).take (len + 1) = (l.drop off).take len ++ [x] := by
  have hat : ((l.drop off).set len x)[len]? = some x := by
    apply List.getElem?_set_self
    rw [List.length_drop]
    omega
  have hshort : ((l.drop off).take len).length ≤ len := List.length_take_le _ _
  rw [List.drop_set, if_neg (by omega), Nat.add_sub_cancel_left, List.take_add_one, hat,
    List.take_set, List.set_eq_of_length_le hshort]
  rfl

/-- The new slice has the old elements and the new one, whichever array it is in. -/
theorem elems_append (hs : h.InBounds s) (x : α) (spare : List α) :
    (h.append s x spare).1.elems (h.append s x spare).2 = h.elems s ++ [x] := by
  have hlen := length_elems hs
  unfold append
  split
  · next hroom =>
    unfold InBounds at hs
    have harr : s.arr < h.length := by
      by_contra hout
      have hnone : h.array s.arr = [] := by
        rw [array, List.getD_eq_getElem?_getD, List.getElem?_eq_none (by omega), Option.getD_none]
      rw [hnone, List.length_nil] at hs
      omega
    simp only [elems, array_set_self harr]
    exact take_drop_set _ _ _ _ (by omega)
  · have hnew : Heap.array (h ++ [h.elems s ++ x :: spare]) h.length =
        h.elems s ++ [x] ++ spare := by
      rw [array, List.getD_eq_getElem?_getD, List.getElem?_concat_length, Option.getD_some,
        List.append_assoc, List.singleton_append]
    rw [elems, hnew, List.drop_zero, List.take_left']
    rw [List.length_append, hlen]
    rfl

/-! ### Arrays that are made and written -/

/-- `make([]T, len, cap)`. -/
def make (h : Heap α) (zero : α) (len cap : Nat) (hlen : len ≤ cap) : Heap α × GoSlice :=
  (h ++ [List.replicate cap zero], ⟨h.length, 0, len, cap, hlen⟩)

/-- `s[i] = x`. -/
def write (h : Heap α) (s : GoSlice) (i : Nat) (x : α) : Except Panic (Heap α) :=
  if i < s.len then .ok (h.set s.arr ((h.array s.arr).set (s.off + i) x))
  else .error .indexOutOfRange

/-- `copy(s, xs)`. -/
def copy (h : Heap α) (s : GoSlice) (xs : List α) : Heap α :=
  let front := (h.array s.arr).take s.off ++ xs.take s.len
  h.set s.arr (front ++ (h.array s.arr).drop front.length)

/-- `append(s, xs...)`, which grows without spare room. -/
def appendAll (h : Heap α) (s : GoSlice) (xs : List α) : Heap α × GoSlice :=
  xs.foldl (fun r x ↦ r.1.append r.2 x []) (h, s)

/-- The slice is on an array of the heap. -/
structure Holds (h : Heap α) (s : GoSlice) : Prop where
  lt : s.arr < h.length
  inBounds : h.InBounds s

/-- The slice is on an array that was made after `h₀`, whose arrays are as they were. -/
structure Owns (h₀ h : Heap α) (s : GoSlice) : Prop extends h.Holds s where
  kept : h₀ <+: h
  made : h₀.length ≤ s.arr

variable {h₀ h' : Heap α}

private theorem array_mono (hp : h <+: h') {k : Nat} (hk : k < h.length) :
    h'.array k = h.array k := by
  obtain ⟨more, rfl⟩ := hp
  rw [array, array, List.getD_eq_getElem?_getD, List.getD_eq_getElem?_getD,
    List.getElem?_append_left hk]

/-- A heap that grows still holds the slice. -/
theorem Holds.mono (hs : h.Holds s) (hp : h <+: h') : h'.Holds s where
  lt := Nat.lt_of_lt_of_le hs.lt hp.length_le
  inBounds := by
    rw [InBounds, array_mono hp hs.lt]
    exact hs.inBounds

/-- A heap that grows keeps the elements. -/
theorem Holds.elems_mono (hs : h.Holds s) (hp : h <+: h') : h'.elems s = h.elems s := by
  rw [elems, array_mono hp hs.lt, elems]

/-- Writing to an array leaves the others alone. -/
theorem elems_set_of_ne (hne : t.arr ≠ s.arr) (xs : List α) :
    Heap.elems (h.set s.arr xs) t = h.elems t := by
  rw [elems, array_set_of_ne hne, elems]

/-- Another array of the same length in the place of one. -/
theorem Holds.set (ht : h.Holds t) {xs : List α} (hxs : xs.length = (h.array s.arr).length) :
    Heap.Holds (h.set s.arr xs) t where
  lt := by
    rw [List.length_set]
    exact ht.lt
  inBounds := by
    have hin := ht.inBounds
    unfold InBounds at *
    by_cases hne : t.arr = s.arr
    · rw [hne, array_set_self (hne ▸ ht.lt), hxs, ← hne]
      exact hin
    · rw [array_set_of_ne hne]
      exact hin

private theorem prefix_set (hp : h₀ <+: h) {k : Nat} (hk : h₀.length ≤ k) (xs : List α) :
    h₀ <+: h.set k xs := by
  obtain ⟨more, rfl⟩ := hp
  rw [List.set_append_right _ _ hk]
  exact List.prefix_append _ _

/-- Writing to its array keeps a slice owned. -/
theorem Owns.set (hs : Owns h₀ h s) {xs : List α} (hxs : xs.length = (h.array s.arr).length) :
    Owns h₀ (h.set s.arr xs) s where
  toHolds := hs.toHolds.set hxs
  kept := prefix_set hs.kept hs.made xs
  made := hs.made

/-- A new slice is owned. -/
theorem owns_make (h : Heap α) (zero : α) (len cap : Nat) (hlen : len ≤ cap) :
    Owns h (h.make zero len cap hlen).1 (h.make zero len cap hlen).2 where
  lt := by simp [make]
  inBounds := by simp [make, InBounds, array]
  kept := List.prefix_append _ _
  made := Nat.le_refl _

/-- The elements of a new slice. -/
theorem elems_make (h : Heap α) (zero : α) (len cap : Nat) (hlen : len ≤ cap) :
    (h.make zero len cap hlen).1.elems (h.make zero len cap hlen).2 = List.replicate len zero := by
  simp [make, elems, array, Nat.min_eq_left hlen]

/-- Writing an element. -/
theorem write_eq_ok (hs : h.Holds s) {i : Nat} (hi : i < s.len) (x : α) :
    ∃ xs, xs.length = (h.array s.arr).length ∧ h.write s i x = .ok (h.set s.arr xs) ∧
      Heap.elems (h.set s.arr xs) s = (h.elems s).set i x := by
  refine ⟨(h.array s.arr).set (s.off + i) x, List.length_set, if_pos hi, ?_⟩
  rw [elems, array_set_self hs.lt, elems, List.drop_set, if_neg (by omega), Nat.add_sub_cancel_left,
    List.take_set]

/-- Copying as many elements as there are, or fewer. -/
theorem copy_eq (hs : h.Holds s) (ys : List α) (hxs : ys.length ≤ s.len) :
    ∃ xs, xs.length = (h.array s.arr).length ∧ h.copy s ys = h.set s.arr xs ∧
      Heap.elems (h.set s.arr xs) s = ys ++ (h.elems s).drop ys.length := by
  have hin := hs.inBounds
  have hcap := s.len_le
  unfold InBounds at hin
  have hfront : ((h.array s.arr).take s.off ++ ys.take s.len).length = s.off + ys.length := by
    rw [List.length_append, List.length_take, List.length_take]
    omega
  have hoff : ((h.array s.arr).take s.off).length = s.off := by
    rw [List.length_take]
    omega
  refine ⟨_, ?_, rfl, ?_⟩
  · rw [List.length_append, List.length_drop, hfront]
    omega
  · rw [elems, array_set_self hs.lt, hfront, List.take_of_length_le hxs, List.append_assoc,
      List.drop_left' hoff, List.take_append, List.take_of_length_le hxs, elems, ← List.drop_drop,
      List.drop_take]

private theorem append_eq_of_room (hs : h.Holds s) (hroom : s.len < s.cap) (x : α)
    (spare : List α) : ∃ xs, xs.length = (h.array s.arr).length ∧
      h.append s x spare = (h.set s.arr xs, { s with len := s.len + 1, len_le := hroom }) ∧
      Heap.elems (h.set s.arr xs) { s with len := s.len + 1, len_le := hroom } =
        h.elems s ++ [x] := by
  have happend : h.append s x spare = (h.set s.arr ((h.array s.arr).set (s.off + s.len) x),
      { s with len := s.len + 1, len_le := hroom }) := dif_pos hroom
  refine ⟨_, List.length_set, happend, ?_⟩
  have helems := elems_append hs.inBounds x spare
  rwa [happend] at helems

/-- Appending in place keeps a slice owned. -/
theorem Owns.append (hs : Owns h₀ h s) (hroom : s.len < s.cap) (x : α) (spare : List α) :
    Owns h₀ (h.append s x spare).1 (h.append s x spare).2 ∧
      (h.append s x spare).2.len = s.len + 1 ∧ (h.append s x spare).2.cap = s.cap := by
  obtain ⟨xs, hxs, happend, -⟩ := append_eq_of_room hs.toHolds hroom x spare
  have hset := hs.set hxs
  rw [happend]
  exact ⟨⟨⟨hset.lt, hset.inBounds⟩, hset.kept, hset.made⟩, rfl, rfl⟩

/-- Appending several elements in place. -/
theorem Owns.appendAll (hs : Owns h₀ h s) (xs : List α) (hroom : s.len + xs.length ≤ s.cap) :
    Owns h₀ (h.appendAll s xs).1 (h.appendAll s xs).2 ∧
      (h.appendAll s xs).1.elems (h.appendAll s xs).2 = h.elems s ++ xs ∧
      (h.appendAll s xs).2.len = s.len + xs.length ∧ (h.appendAll s xs).2.cap = s.cap := by
  induction xs generalizing h s with
  | nil => exact ⟨hs, (List.append_nil _).symm, rfl, rfl⟩
  | cons x xs ih =>
    rw [List.length_cons] at hroom
    have helems := elems_append hs.inBounds x []
    obtain ⟨howns, hlen, hcap⟩ := hs.append (by omega) x []
    obtain ⟨hall, hread, hlen', hcap'⟩ := ih howns (by omega)
    refine ⟨hall, ?_, ?_, hcap'.trans hcap⟩
    · exact hread.trans (by rw [helems, List.append_assoc, List.singleton_append])
    · refine hlen'.trans ?_
      rw [hlen, List.length_cons]
      omega

/-! ### Loops over a slice -/

/-- `for _, x := range s`: an element is read when its turn comes. -/
def rangeLoop {σ : Type*} (heap : σ → Heap α) (s : GoSlice) (body : σ → α → σ) (st : σ) : σ :=
  (List.range s.len).foldl (fun st i ↦ (((heap st).elems s)[i]?).elim st (body st)) st

/-- What holds of the elements so far holds of all at the end, if the body does not change the
elements. -/
theorem rangeLoop_induction {σ : Type*} {heap : σ → Heap α} {body : σ → α → σ} {st : σ}
    {I : List α → σ → Prop} {xs : List α} (hlen : xs.length = s.len)
    (hread : ∀ done st, I done st → (heap st).elems s = xs)
    (hbody : ∀ done x rest st, xs = done ++ x :: rest → I done st → I (done ++ [x]) (body st x))
    (hst : I [] st) : I xs (rangeLoop heap s body st) := by
  have hloop : ∀ n ≤ xs.length, I (xs.take n) ((List.range n).foldl
      (fun st i ↦ (((heap st).elems s)[i]?).elim st (body st)) st) := by
    intro n hn
    induction n with
    | zero => exact hst
    | succ n ih =>
      have hdone := ih (Nat.le_of_succ_le hn)
      have hsplit : xs = xs.take n ++ xs[n] :: xs.drop (n + 1) := by
        rw [← List.drop_eq_getElem_cons, List.take_append_drop]
      rw [List.range_succ, List.foldl_append, List.take_add_one, List.foldl_cons, List.foldl_nil,
        hread _ _ hdone, List.getElem?_eq_getElem hn]
      exact hbody _ _ _ _ hsplit hdone
  have hall := hloop xs.length (Nat.le_refl _)
  rw [List.take_length, hlen] at hall
  exact hall

end Heap
end SMAgent.Base
