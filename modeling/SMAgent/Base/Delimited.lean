import Mathlib.Data.List.Infix
import Mathlib.Data.List.TakeWhile
import Mathlib.Tactic.Common

/-!
# Delimited names in a text

The leftmost non-overlapping occurrences of a name between an opening text and a closing
letter that is not part of the name, as an expression `opening([^c]*)c` finds them. `Leftmost`
says what these occurrences are and `findAll` computes their positions; the text is put
together again from its pieces by `assemble`.
-/

namespace SMAgent.Base.Delimited

variable {α : Type}

/-! ### What is to be found -/

section Occurrences
variable (opening : List α) (closing : α)

/-- A name with its delimiters. -/
def wrap (name : List α) : List α := opening ++ name ++ [closing]

/-- An occurrence begins here. -/
def Starts (s : List α) : Prop := ∃ name, closing ∉ name ∧ wrap opening closing name <+: s

/-- The text is cut at its leftmost non-overlapping occurrences: each piece is a name with the
text before it, and no occurrence begins in such a text or in what remains at the end. -/
inductive Leftmost : List α → List (List α × List α) → List α → Prop
  | done {tail : List α} (hnone : ∀ s, s <:+ tail → ¬ Starts opening closing s) :
      Leftmost tail [] tail
  | next {text name rest tail : List α} {pieces : List (List α × List α)} (hname : closing ∉ name)
      (hfirst : ∀ s, s <:+ text ++ (wrap opening closing name ++ rest) →
        (wrap opening closing name ++ rest).length < s.length → ¬ Starts opening closing s)
      (hrest : Leftmost rest pieces tail) :
      Leftmost (text ++ (wrap opening closing name ++ rest)) ((text, name) :: pieces) tail

end Occurrences

/-- Texts and what follows each of them, and the rest. -/
def assemble : List (List α × List α) → List α → List α
  | [], tail => tail
  | (text, value) :: pieces, tail => text ++ (value ++ assemble pieces tail)

variable {opening : List α} {closing : α}

/-- The length of a delimited name. -/
theorem length_wrap (opening : List α) (closing : α) (name : List α) :
    (wrap opening closing name).length = opening.length + name.length + 1 := by
  simp only [wrap, List.length_append, List.length_cons, List.length_nil]

private theorem not_starts_nil : ¬ Starts opening closing [] := by
  rintro ⟨name, -, h⟩
  have := h.length_le
  rw [length_wrap] at this
  simp at this

/-- The pieces with their delimiters make up the text. -/
theorem Leftmost.eq_assemble {s tail : List α} {pieces : List (List α × List α)}
    (h : Leftmost opening closing s pieces tail) :
    s = assemble (pieces.map fun p ↦ (p.1, wrap opening closing p.2)) tail := by
  induction h with
  | done => rfl
  | next _ _ _ ih => rw [List.map_cons, assemble, ← ih]

private theorem Leftmost.cons {s tail : List α} {pieces : List (List α × List α)} {b : α}
    (h : Leftmost opening closing s pieces tail) (hb : ¬ Starts opening closing (b :: s)) :
    ∃ pieces tail, Leftmost opening closing (b :: s) pieces tail := by
  cases h with
  | done hnone =>
    refine ⟨[], b :: s, .done fun s' hs' ↦ ?_⟩
    rcases List.suffix_cons_iff.mp hs' with rfl | hs'
    · exact hb
    · exact hnone s' hs'
  | @next text name rest _ pieces hname hfirst hrest =>
    have hfirst' : ∀ s', s' <:+ b :: text ++ (wrap opening closing name ++ rest) →
        (wrap opening closing name ++ rest).length < s'.length → ¬ Starts opening closing s' := by
      intro s' hs' hlen
      rcases List.suffix_cons_iff.mp hs' with rfl | hs'
      · exact hb
      · exact hfirst s' hs' hlen
    exact ⟨(b :: text, name) :: pieces, tail, .next hname hfirst' hrest⟩


/-- Every text is cut in this way. -/
theorem exists_leftmost (s : List α) : ∃ pieces tail, Leftmost opening closing s pieces tail := by
  -- an occurrence at the front is taken off as a whole, otherwise one letter is
  induction hn : s.length using Nat.strong_induction_on generalizing s with
  | _ n ih =>
    by_cases hs : Starts opening closing s
    · obtain ⟨name, hname, rest, rfl⟩ := hs
      have hlen : rest.length < n := by
        rw [← hn, List.length_append, length_wrap]
        omega
      obtain ⟨pieces, tail, hrest⟩ := ih rest.length hlen rest rfl
      have hfirst : ∀ s', s' <:+ [] ++ (wrap opening closing name ++ rest) →
          (wrap opening closing name ++ rest).length < s'.length →
          ¬ Starts opening closing s' := by
        intro s' hs' hlt
        exact absurd hs'.length_le (Nat.not_le_of_lt hlt)
      exact ⟨([], name) :: pieces, tail, .next hname hfirst hrest⟩
    · cases s with
      | nil =>
        refine ⟨[], [], .done fun s' hs' ↦ ?_⟩
        rw [List.suffix_nil.mp hs']
        exact not_starts_nil
      | cons b s =>
        obtain ⟨pieces, tail, hrest⟩ := ih s.length (by rw [← hn]; simp) s rfl
        exact hrest.cons hs

/-! ### The search -/

/-- The indices of an occurrence and of its name. -/
structure Loc where
  start : Nat
  stop : Nat
  nameStart : Nat
  nameStop : Nat
  deriving DecidableEq, Repr

/-- The occurrence of `name` at `pos`. -/
def Loc.at (opening : List α) (pos : Nat) (name : List α) : Loc :=
  ⟨pos, pos + (opening.length + name.length + 1), pos + opening.length,
    pos + opening.length + name.length⟩

/-- It begins at `pos`. -/
theorem Loc.start_at (opening : List α) (pos : Nat) (name : List α) :
    (Loc.at opening pos name).start = pos := rfl

section Search
variable [DecidableEq α]

/-- The name of the occurrence that begins here. -/
def front (opening : List α) (closing : α) (s : List α) : Option (List α) :=
  if opening.isPrefixOf s then
    let rest := s.drop opening.length
    let name := rest.takeWhile (· ≠ closing)
    if name.length < rest.length then some name else none
  else none

/-- `FindAllSubmatchIndex` on the text `s` that begins at index `pos`. Every round takes a
letter, so the length of the text is enough fuel. -/
def findAll (opening : List α) (closing : α) : Nat → Nat → List α → List Loc
  | 0, _, _ => []
  | fuel + 1, pos, s =>
    match front opening closing s with
    | some name =>
      let loc := Loc.at opening pos name
      loc :: findAll opening closing fuel loc.stop (s.drop (opening.length + name.length + 1))
    | none =>
      match s with
      | [] => []
      | _ :: rest => findAll opening closing fuel (pos + 1) rest

/-- The indices of the names in a text that begins at index `pos`. -/
def locs (opening : List α) : Nat → List (List α × List α) → List Loc
  | _, [] => []
  | pos, (text, name) :: pieces =>
    let loc := Loc.at opening (pos + text.length) name
    loc :: locs opening loc.stop pieces

private theorem front_eq_some {s name : List α} :
    front opening closing s = some name ↔ closing ∉ name ∧ wrap opening closing name <+: s := by
  constructor
  · intro h
    unfold front at h
    split at h
    · next hopen =>
      obtain ⟨rest, rfl⟩ := List.isPrefixOf_iff_prefix.mp hopen
      simp only [List.drop_left] at h
      split at h
      · next hlen =>
        obtain rfl := Option.some.inj h
        have hsplit := List.takeWhile_append_dropWhile (p := (· ≠ closing)) (l := rest)
        refine ⟨fun hmem ↦ by simpa using List.mem_takeWhile_imp hmem, ?_⟩
        cases hdrop : rest.dropWhile (· ≠ closing) with
        | nil =>
          rw [hdrop, List.append_nil] at hsplit
          rw [hsplit] at hlen
          exact absurd hlen (Nat.lt_irrefl _)
        | cons b after =>
          have hb : b = closing := by
            have := List.head?_dropWhile_not (p := fun x ↦ decide (x ≠ closing)) (l := rest)
            rw [hdrop] at this
            simpa using this
          rw [hdrop, hb] at hsplit
          exact ⟨after, by rw [wrap, List.append_assoc, List.append_assoc, List.singleton_append,
            hsplit]⟩
      · cases h
    · cases h
  · rintro ⟨hname, after, rfl⟩
    have htake : (name ++ closing :: after).takeWhile (· ≠ closing) = name := by
      rw [List.takeWhile_append_of_pos, List.takeWhile_cons_of_neg, List.append_nil]
      · simp
      · intro b hb
        simpa using fun heq : b = closing ↦ hname (heq ▸ hb)
    have hassoc : wrap opening closing name ++ after = opening ++ (name ++ closing :: after) := by
      simp only [wrap, List.append_assoc, List.singleton_append]
    rw [front, hassoc, if_pos (List.isPrefixOf_iff_prefix.mpr (List.prefix_append _ _))]
    simp only [List.drop_left, htake]
    rw [if_pos]
    simp

/-- Nothing starts here exactly if the reader finds nothing. -/
theorem front_eq_none {s : List α} :
    front opening closing s = none ↔ ¬ Starts opening closing s := by
  rw [Option.eq_none_iff_forall_ne_some]
  constructor
  · rintro h ⟨name, hname⟩
    exact h name (front_eq_some.mpr hname)
  · intro h name hname
    exact h ⟨name, front_eq_some.mp hname⟩

private theorem findAll_skip (text : List α) {s : List α} (fuel pos : Nat)
    (h : ∀ s', s' <:+ text ++ s → s.length < s'.length → ¬ Starts opening closing s') :
    findAll opening closing (text.length + fuel) pos (text ++ s) =
      findAll opening closing fuel (pos + text.length) s := by
  induction text generalizing pos with
  | nil => rw [List.length_nil, Nat.zero_add, Nat.add_zero, List.nil_append]
  | cons b text ih =>
    have hnone : front opening closing (b :: (text ++ s)) = none := by
      apply front_eq_none.mpr
      apply h _ (List.suffix_refl _)
      simp only [List.length_cons, List.length_append]
      omega
    rw [List.length_cons, Nat.add_right_comm, List.cons_append, findAll, hnone]
    dsimp only
    rw [ih]
    · congr 1
      omega
    · intro s' hs'
      exact h s' (hs'.trans (List.suffix_cons b _))

private theorem findAll_nil (fuel pos : Nat) : findAll opening closing fuel pos [] = [] := by
  cases fuel with
  | zero => rfl
  | succ fuel =>
    rw [findAll, front_eq_none.mpr not_starts_nil]

/-- The search finds the leftmost non-overlapping occurrences. -/
theorem findAll_eq {s tail : List α} {pieces : List (List α × List α)}
    (h : Leftmost opening closing s pieces tail) {fuel : Nat} (hfuel : s.length ≤ fuel)
    (pos : Nat) :
    findAll opening closing fuel pos s = locs opening pos pieces := by
  induction h generalizing fuel pos with
  | @done tail hnone =>
    obtain ⟨k, rfl⟩ := Nat.exists_eq_add_of_le hfuel
    have hskip := findAll_skip tail (s := []) k pos fun s' hs' _ ↦
      hnone s' (by rwa [List.append_nil] at hs')
    rw [List.append_nil] at hskip
    rw [hskip, findAll_nil]
    rfl
  | @next text name rest tail pieces hname hfirst hrest ih =>
    have hwrap := length_wrap opening closing name
    rw [List.length_append, List.length_append, hwrap] at hfuel
    obtain ⟨k, rfl⟩ : ∃ k, fuel = text.length + (k + 1) := ⟨fuel - text.length - 1, by omega⟩
    have hfront : front opening closing (wrap opening closing name ++ rest) = some name :=
      front_eq_some.mpr ⟨hname, List.prefix_append _ _⟩
    have hdrop : (wrap opening closing name ++ rest).drop (opening.length + name.length + 1) =
        rest := by rw [← hwrap, List.drop_left]
    rw [findAll_skip text (k + 1) pos hfirst, findAll.eq_def]
    simp only [hfront, hdrop, locs]
    rw [ih (by omega)]

end Search

end SMAgent.Base.Delimited
