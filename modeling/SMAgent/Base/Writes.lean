import Mathlib.Data.Finset.Basic
import Mathlib.Data.Finset.Image
import Mathlib.Data.List.Induction

/-!
# Sets that follow a log of writes

An entry of the log puts its key into a set or removes it from there. After a log, a key is in
the set exactly if its last write put it there.
-/

namespace SMAgent.Base

universe u v

variable {α : Type u} {β : Type v} [DecidableEq α] (key : β → α) (live : β → Bool)

/-- Put the key of a live entry, remove the key of any other. -/
def write (s : Finset α) (b : β) : Finset α :=
  if live b then insert (key b) s else s.erase (key b)

/-- The last entry for a key. -/
def lastWrite (x : α) (bs : List β) : Option β := bs.reverse.find? fun b ↦ key b = x

/-- A write decides about its own key. -/
theorem mem_write (s : Finset α) (b : β) (x : α) :
    x ∈ write key live s b ↔ if key b = x then live b = true else x ∈ s := by
  unfold write
  split
  · next hlive =>
    rw [Finset.mem_insert]
    split
    · next hx => exact iff_of_true (.inl hx.symm) hlive
    · next hx => exact or_iff_right (Ne.symm hx)
  · next hlive =>
    rw [Finset.mem_erase]
    split
    · next hx => exact iff_of_false (fun h ↦ h.1 hx.symm) hlive
    · next hx => exact and_iff_right (Ne.symm hx)

/-- A later entry for the key replaces an earlier one. -/
theorem lastWrite_concat (x : α) (bs : List β) (b : β) :
    lastWrite key x (bs ++ [b]) = if key b = x then some b else lastWrite key x bs := by
  rw [lastWrite, List.reverse_concat, List.find?_cons]
  split
  · next h => rw [if_pos (of_decide_eq_true h)]
  · next h =>
    rw [if_neg (of_decide_eq_false h)]
    rfl

/-- After a log the last write of a key decides, and without one nothing has changed. -/
theorem mem_foldl_write (bs : List β) (s : Finset α) (x : α) :
    x ∈ bs.foldl (write key live) s ↔
      match lastWrite key x bs with
      | some b => live b = true
      | none => x ∈ s := by
  induction bs using List.reverseRecOn with
  | nil => rfl
  | append_singleton bs b ih =>
    rw [List.foldl_concat, mem_write, lastWrite_concat]
    by_cases hx : key b = x
    · rw [if_pos hx, if_pos hx]
    · rw [if_neg hx, if_neg hx]
      exact ih

/-- The last entry for a key is an entry for it. -/
theorem mem_of_lastWrite {x : α} {bs : List β} {b : β} (h : lastWrite key x bs = some b) :
    b ∈ bs ∧ key b = x := by
  have hb := List.find?_some h
  exact ⟨List.mem_reverse.mp (List.mem_of_find?_eq_some h), of_decide_eq_true hb⟩

/-- From the empty set on, the keys are those whose last entry is live. -/
theorem mem_foldl_write_empty (bs : List β) (x : α) :
    x ∈ bs.foldl (write key live) ∅ ↔ (lastWrite key x bs).any live = true := by
  rw [mem_foldl_write]
  cases lastWrite key x bs with
  | none => simp
  | some b => rfl

/-- A log that only puts. -/
theorem foldl_write_of_live (bs : List β) (s : Finset α) (h : ∀ b ∈ bs, live b = true) :
    bs.foldl (write key live) s = s ∪ (bs.map key).toFinset := by
  induction bs generalizing s with
  | nil => simp
  | cons b bs ih =>
    rw [List.foldl_cons, ih _ (List.forall_mem_cons.mp h).2, write,
      if_pos (h b List.mem_cons_self)]
    ext x
    simp only [Finset.mem_union, Finset.mem_insert, List.map_cons, List.toFinset_cons]
    tauto

/-- A log that only removes. -/
theorem foldl_write_of_dead (bs : List β) (s : Finset α) (h : ∀ b ∈ bs, live b = false) :
    bs.foldl (write key live) s = s \ (bs.map key).toFinset := by
  induction bs generalizing s with
  | nil => simp
  | cons b bs ih =>
    have hb : ¬ live b = true := by
      rw [h b List.mem_cons_self]
      exact Bool.false_ne_true
    rw [List.foldl_cons, ih _ (List.forall_mem_cons.mp h).2, write, if_neg hb]
    ext x
    simp only [Finset.mem_sdiff, Finset.mem_erase, List.map_cons, List.toFinset_cons,
      Finset.mem_insert]
    tauto

/-- The keys of the entries that pass a test, with one more entry. -/
theorem mem_keys_filter_concat {p : β → Bool} {bs : List β} {b : β} {x : α} :
    x ∈ (((bs ++ [b]).filter p).map key).toFinset ↔
      x ∈ ((bs.filter p).map key).toFinset ∨ p b = true ∧ x = key b := by
  by_cases h : p b
  · simp [h, or_comm]
  · simp [h]

end SMAgent.Base
