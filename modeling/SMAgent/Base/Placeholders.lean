import Mathlib.Data.List.Infix
import Mathlib.Data.List.TakeWhile
import Mathlib.Tactic.Common

/-!
# Texts with placeholders

A placeholder is a name between a mark with an opening letter and a closing letter. The mark
stands nowhere else in a placeholder, so two placeholders overlap only if they are one, and a
text has one cut into placeholders and the letters between them. Substitution replaces all
placeholders at once, replacement those of one name; a sequence of replacements is a
substitution as long as no replacement meets a placeholder that an earlier one brought in.
-/

namespace SMAgent.Base.Placeholders

/-- How names are marked, and what they are made of. -/
structure Marks (α : Type) where
  mark : α
  opening : α
  closing : α
  isStart : α → Bool
  isLetter : α → Bool
  isLetter_of_isStart : ∀ a, isStart a = true → isLetter a = true
  isLetter_mark : isLetter mark = false
  isLetter_closing : isLetter closing = false
  mark_ne_opening : mark ≠ opening
  mark_ne_closing : mark ≠ closing

/-- A part of a text: a letter, or a placeholder with its name. -/
inductive Part (α : Type) where
  | letter (a : α)
  | name (name : List α)
  deriving DecidableEq, Repr

/-- What stands for a part when every name has a value. -/
def Part.fill {α : Type} (σ : List α → List α) : Part α → List α
  | .letter a => [a]
  | .name n => σ n

namespace Marks

variable {α : Type} (m : Marks α)

/-- The placeholder of a name. -/
def wrap (name : List α) : List α := m.mark :: m.opening :: (name ++ [m.closing])

/-- A name: letters, of which the first may start one. -/
def IsName (name : List α) : Prop :=
  name.head?.any m.isStart = true ∧ ∀ a ∈ name, m.isLetter a = true

instance (name : List α) : Decidable (m.IsName name) := inferInstanceAs (Decidable (_ ∧ _))

/-- A letter that stands in no placeholder but as its mark. -/
structure Barrier (a : α) : Prop where
  isLetter : m.isLetter a = false
  ne_opening : a ≠ m.opening
  ne_closing : a ≠ m.closing

/-- The mark is a barrier. -/
theorem barrier_mark : m.Barrier m.mark :=
  ⟨m.isLetter_mark, m.mark_ne_opening, m.mark_ne_closing⟩

/-- A barrier is no later letter of a placeholder. -/
theorem Barrier.notMem_tail_wrap {m : Marks α} {a : α} (ha : m.Barrier a) {name : List α}
    (hname : m.IsName name) : a ∉ (m.wrap name).tail := by
  intro hmem
  rcases List.mem_cons.mp hmem with rfl | hmem
  · exact ha.ne_opening rfl
  rcases List.mem_append.mp hmem with hmem | hmem
  · have := hname.2 a hmem
    rw [ha.isLetter] at this
    cases this
  · exact ha.ne_closing (List.mem_singleton.mp hmem)

/-- The closing letter ends a name: placeholders at one place are the same. -/
theorem wrap_append_inj {n k s t : List α} (hn : m.IsName n) (hk : m.IsName k)
    (h : m.wrap n ++ s = m.wrap k ++ t) : n = k ∧ s = t := by
  have htake {name rest : List α} (hname : m.IsName name) :
      (name ++ m.closing :: rest).takeWhile m.isLetter = name := by
    rw [List.takeWhile_append_of_pos hname.2, List.takeWhile_cons_of_neg, List.append_nil]
    rw [m.isLetter_closing]
    exact Bool.false_ne_true
  simp only [wrap, List.cons_append, List.append_assoc, List.nil_append, List.cons.injEq,
    true_and] at h
  have hname := congrArg (List.takeWhile m.isLetter) h
  rw [htake hn, htake hk] at hname
  subst hname
  exact ⟨rfl, (List.cons.inj (List.append_cancel_left h)).2⟩

/-! ### Texts in blocks -/

private theorem length_flatMap_le {v w : List α} {f g : List α → List α}
    (hvw : v.length ≤ w.length) (h : ∀ u, (f u).length ≤ (g u).length) (us : List (List α)) :
    (us.flatMap (v ++ f ·)).length ≤ (us.flatMap (w ++ g ·)).length := by
  induction us with
  | nil => exact Nat.le_refl _
  | cons u us ih =>
    have := h u
    simp only [List.flatMap_cons, List.length_append]
    omega

private theorem blocks_inj {v : List α} {f g : List α → List α}
    (h : ∀ u, (f u).length ≤ (g u).length) {u : List α} {us : List (List α)}
    (heq : f u ++ us.flatMap (v ++ f ·) = g u ++ us.flatMap (v ++ g ·)) :
    ∀ w ∈ u :: us, f w = g w := by
  have hrest := length_flatMap_le (Nat.le_refl v.length) h us
  have hlen := congrArg List.length heq
  rw [List.length_append, List.length_append] at hlen
  have hu := h u
  obtain ⟨hfirst, hothers⟩ := List.append_inj heq (by omega)
  induction us generalizing u with
  | nil =>
    intro w hw
    rw [List.mem_singleton.mp hw, hfirst]
  | cons x us ih =>
    rw [List.flatMap_cons, List.flatMap_cons, List.append_assoc, List.append_assoc] at hothers
    have hothers := List.append_cancel_left hothers
    have hrest := length_flatMap_le (Nat.le_refl v.length) h us
    have hlen := congrArg List.length hothers
    rw [List.length_append, List.length_append] at hlen
    have hx := h x
    obtain ⟨hfirst', hothers'⟩ := List.append_inj hothers (by omega)
    intro w hw
    rcases List.mem_cons.mp hw with rfl | hw
    · exact hfirst
    · exact ih hothers hrest hlen hx hfirst' hothers' w hw

section Search
variable [DecidableEq α]

/-- The placeholder at the start of a text: its name, and the text after it. The closing letter
is no letter of a name, so there is one way to read it. -/
def matchAt : List α → Option (List α × List α)
  | a :: b :: rest =>
    if a = m.mark ∧ b = m.opening then
      match rest.takeWhile m.isLetter, rest.dropWhile m.isLetter with
      | first :: name, close :: after =>
        if m.isStart first ∧ close = m.closing then some (first :: name, after) else none
      | _, _ => none
    else none
  | _ => none

/-- A placeholder is found where it begins. -/
theorem matchAt_wrap {name : List α} (hname : m.IsName name) (after : List α) :
    m.matchAt (m.wrap name ++ after) = some (name, after) := by
  have hclosing : ¬ m.isLetter m.closing = true := by
    rw [m.isLetter_closing]
    exact Bool.false_ne_true
  have htake : (name ++ m.closing :: after).takeWhile m.isLetter = name := by
    rw [List.takeWhile_append_of_pos hname.2, List.takeWhile_cons_of_neg hclosing, List.append_nil]
  have hdrop : (name ++ m.closing :: after).dropWhile m.isLetter = m.closing :: after := by
    rw [List.dropWhile_append_of_pos hname.2, List.dropWhile_cons_of_neg hclosing]
  have htext : m.wrap name ++ after = m.mark :: m.opening :: (name ++ m.closing :: after) := by
    simp only [wrap, List.cons_append, List.append_assoc, List.nil_append]
  rw [htext, matchAt, if_pos ⟨rfl, rfl⟩, htake, hdrop]
  cases name with
  | nil => cases hname.1
  | cons first name =>
    have hstart : m.isStart first = true := hname.1
    simp only [hstart, and_self, if_true]

private theorem matchAt_eq_some {s name after : List α} :
    m.matchAt s = some (name, after) ↔ m.IsName name ∧ s = m.wrap name ++ after := by
  constructor
  · intro h
    match s with
    | [] | [_] => cases h
    | a :: b :: rest =>
      rw [matchAt] at h
      split at h
      · next hopen =>
        obtain ⟨rfl, rfl⟩ := hopen
        split at h
        · next first name' close after' htake hdrop =>
          split at h
          · next hclose =>
            obtain ⟨hstart, rfl⟩ := hclose
            obtain ⟨rfl, rfl⟩ := Prod.mk.inj (Option.some.inj h)
            have hsplit := List.takeWhile_append_dropWhile (p := m.isLetter) (l := rest)
            rw [htake, hdrop] at hsplit
            have hletters : ∀ a ∈ first :: name', m.isLetter a = true := by
              intro a ha
              exact List.mem_takeWhile_imp (htake ▸ ha)
            refine ⟨⟨hstart, hletters⟩, ?_⟩
            rw [← hsplit]
            simp only [wrap, List.cons_append, List.append_assoc, List.nil_append]
          · cases h
        · cases h
      · cases h
  · rintro ⟨hname, rfl⟩
    exact m.matchAt_wrap hname after

variable {s : List α}

/-- No placeholder begins here. -/
theorem matchAt_eq_none : m.matchAt s = none ↔ ∀ name, m.IsName name → ¬ m.wrap name <+: s := by
  rw [Option.eq_none_iff_forall_ne_some]
  constructor
  · rintro h name hname ⟨after, rfl⟩
    exact h _ (m.matchAt_wrap hname after)
  · rintro h ⟨name, after⟩ hsome
    obtain ⟨hname, rfl⟩ := m.matchAt_eq_some.mp hsome
    exact h name hname (List.prefix_append _ _)

/-- Only a mark begins a placeholder. -/
theorem matchAt_cons_of_ne {a : α} (ha : a ≠ m.mark) (s : List α) : m.matchAt (a :: s) = none := by
  apply m.matchAt_eq_none.mpr
  rintro name - ⟨after, h⟩
  exact ha (List.cons.inj h).1.symm

/-! ### The cut -/

/-- The leftmost placeholders and the letters between them; `skip` letters are part of the
placeholder before. -/
def partsFrom : Nat → List α → List (Part α)
  | _, [] => []
  | skip + 1, _ :: s => partsFrom skip s
  | 0, a :: s =>
    match m.matchAt (a :: s) with
    | some (name, _) => .name name :: partsFrom (name.length + 2) s
    | none => .letter a :: partsFrom 0 s

/-- The parts of a text. -/
def parts (s : List α) : List (Part α) := m.partsFrom 0 s

private theorem partsFrom_append (u s : List α) : m.partsFrom u.length (u ++ s) = m.parts s := by
  induction u with
  | nil => rfl
  | cons a u ih => exact ih

/-- Nothing has no parts. -/
@[simp] theorem parts_nil : m.parts [] = [] := rfl

/-- A placeholder is one part. -/
theorem parts_wrap {name : List α} (hname : m.IsName name) (s : List α) :
    m.parts (m.wrap name ++ s) = .name name :: m.parts s := by
  have hmatch := m.matchAt_wrap hname s
  have hlength : (m.opening :: (name ++ [m.closing])).length = name.length + 2 := by simp
  have hrest := m.partsFrom_append (m.opening :: (name ++ [m.closing])) s
  rw [hlength] at hrest
  rw [wrap, List.cons_append] at hmatch ⊢
  rw [parts, partsFrom, hmatch]
  simp only [hrest]

/-- A letter at which no placeholder begins is one part. -/
theorem parts_cons {a : α} (h : m.matchAt (a :: s) = none) :
    m.parts (a :: s) = .letter a :: m.parts s := by
  rw [parts, partsFrom, h]
  rfl

/-- Induction along the cut. -/
@[elab_as_elim]
theorem induction_parts {P : List α → Prop} (s : List α) (nil : P [])
    (name : ∀ name s, m.IsName name → P s → P (m.wrap name ++ s))
    (letter : ∀ a s, m.matchAt (a :: s) = none → P s → P (a :: s)) : P s := by
  induction hlen : s.length using Nat.strong_induction_on generalizing s with
  | _ l ih =>
    cases s with
    | nil => exact nil
    | cons a s =>
      cases hmatch : m.matchAt (a :: s) with
      | none => exact letter a s hmatch (ih s.length (by simp [← hlen]) s rfl)
      | some found =>
        obtain ⟨hname, htext⟩ := m.matchAt_eq_some.mp hmatch
        rw [htext]
        refine name found.1 found.2 hname (ih found.2.length ?_ found.2 rfl)
        rw [← hlen, htext]
        simp only [wrap, List.length_append, List.length_cons]
        omega

/-- Every name in the cut is one. -/
theorem isName_of_mem_parts {n s : List α} (h : .name n ∈ m.parts s) : m.IsName n := by
  induction s using m.induction_parts with
  | nil => cases h
  | name k s hk ih =>
    rw [m.parts_wrap hk] at h
    rcases List.mem_cons.mp h with heq | h
    · exact Part.name.inj heq ▸ hk
    · exact ih h
  | letter a s ha ih =>
    rw [m.parts_cons ha] at h
    rcases List.mem_cons.mp h with heq | h
    · cases heq
    · exact ih h

/-- No placeholder of a text reaches past a barrier that follows. -/
theorem parts_append_barrier (u : List α) {a : α} (ha : m.Barrier a) (s : List α) :
    m.parts (u ++ a :: s) = m.parts u ++ m.parts (a :: s) := by
  induction u using m.induction_parts with
  | nil => rfl
  | name n u hn ih => rw [List.append_assoc, m.parts_wrap hn, m.parts_wrap hn, ih, List.cons_append]
  | letter b u hb ih =>
    have hnone : m.matchAt (b :: (u ++ a :: s)) = none := by
      apply m.matchAt_eq_none.mpr
      rintro name hname ⟨after, hafter⟩
      rw [← List.cons_append] at hafter
      rcases List.append_eq_append_iff.mp hafter with ⟨as, has, -⟩ | ⟨bs, hbs, hrest⟩
      · exact m.matchAt_eq_none.mp hb name hname ⟨as, has.symm⟩
      · cases bs with
        | nil =>
          rw [List.append_nil] at hbs
          exact m.matchAt_eq_none.mp hb name hname ⟨[], by rw [List.append_nil, hbs]⟩
        | cons c bs =>
          -- the barrier is a letter of the placeholder, and not its first one
          obtain rfl : a = c := (List.cons.inj hrest).1
          refine ha.notMem_tail_wrap hname ?_
          rw [hbs]
          simp
    rw [List.cons_append, m.parts_cons hnone, m.parts_cons hb, ih, List.cons_append]

variable {n : List α}

/-- A placeholder is cut out wherever it stands. -/
theorem parts_append_wrap (u : List α) (hn : m.IsName n) (s : List α) :
    m.parts (u ++ (m.wrap n ++ s)) = m.parts u ++ .name n :: m.parts s := by
  rw [← m.parts_wrap hn]
  exact m.parts_append_barrier u m.barrier_mark _

/-- A name in the cut is the name of a placeholder of the text. -/
theorem exists_of_mem_parts {n s : List α} (h : .name n ∈ m.parts s) :
    ∃ u t, s = u ++ (m.wrap n ++ t) := by
  induction s using m.induction_parts with
  | nil => cases h
  | name k s hk ih =>
    rw [m.parts_wrap hk] at h
    rcases List.mem_cons.mp h with heq | h
    · exact ⟨[], s, by rw [Part.name.inj heq, List.nil_append]⟩
    · obtain ⟨u, t, rfl⟩ := ih h
      exact ⟨m.wrap k ++ u, t, by rw [List.append_assoc]⟩
  | letter a s ha ih =>
    rw [m.parts_cons ha] at h
    rcases List.mem_cons.mp h with heq | h
    · cases heq
    · obtain ⟨u, t, rfl⟩ := ih h
      exact ⟨a :: u, t, rfl⟩

/-- A text without placeholders is its letters. -/
theorem parts_eq_letters (h : ∀ n, .name n ∉ m.parts s) : m.parts s = s.map .letter := by
  induction s using m.induction_parts with
  | nil => rfl
  | name k s hk ih => exact absurd (by rw [m.parts_wrap hk]; exact List.mem_cons_self) (h k)
  | letter a s ha ih =>
    rw [m.parts_cons ha] at h ⊢
    rw [ih fun n hn ↦ h n (List.mem_cons_of_mem _ hn), List.map_cons]

/-- The text in pieces: names with the letters before each, and the letters after the last. -/
inductive Cut : List α → List (List α × List α) → List α → Prop
  | done {tail : List α} (hletters : m.parts tail = tail.map .letter) : Cut tail [] tail
  | next {before name rest tail : List α} {pieces : List (List α × List α)}
      (hletters : m.parts before = before.map .letter) (hname : m.IsName name)
      (hrest : Cut rest pieces tail) :
      Cut (before ++ (m.wrap name ++ rest)) ((before, name) :: pieces) tail

/-- What is cut out are names. -/
theorem Cut.isName {m : Marks α} {s tail : List α} {pieces : List (List α × List α)}
    (h : m.Cut s pieces tail) : ∀ p ∈ pieces, m.IsName p.2 := by
  induction h with
  | done _ => exact fun _ hp ↦ absurd hp List.not_mem_nil
  | next _ hname _ ih => exact List.forall_mem_cons.mpr ⟨hname, ih⟩

/-- Nothing is cut out of nothing. -/
theorem Cut.eq_nil {m : Marks α} {s tail : List α} {pieces : List (List α × List α)}
    (h : m.Cut s pieces tail) (hs : s = []) : pieces = [] ∧ tail = [] := by
  cases h with
  | done _ => exact ⟨rfl, hs⟩
  | next _ _ _ => simp [wrap] at hs

/-- The search from left to right: each match with the letters before it, up to the match before,
and what is after the last match. Every round takes a letter, so the length of the text is enough
fuel. -/
def search (match? : List α → Option (List α × List α)) :
    Nat → List α → List α → List (List α × List α) × List α
  | 0, before, s => ([], before ++ s)
  | fuel + 1, before, s =>
    match match? s with
    | some (name, after) =>
      let found := search match? fuel [] after
      ((before, name) :: found.1, found.2)
    | none =>
      match s with
      | [] => ([], before)
      | a :: rest => search match? fuel (before ++ [a]) rest

private theorem cut_search_from (fuel : Nat) (before s : List α) (hfuel : s.length ≤ fuel)
    (h : m.parts (before ++ s) = before.map .letter ++ m.parts s) :
    m.Cut (before ++ s) (search m.matchAt fuel before s).1 (search m.matchAt fuel before s).2 := by
  induction s using m.induction_parts generalizing fuel before with
  | nil =>
    rw [List.append_nil, m.parts_nil, List.append_nil] at h
    cases fuel with
    | zero =>
      rw [search, List.append_nil]
      exact .done h
    | succ fuel =>
      rw [List.append_nil]
      exact .done h
  | name n s hn ih =>
    cases fuel with
    | zero => cases hfuel
    | succ fuel =>
      have hlen : s.length ≤ fuel := by
        simp only [wrap, List.cons_append, List.length_cons, List.length_append] at hfuel
        omega
      rw [m.parts_append_wrap before hn, m.parts_wrap hn] at h
      rw [search.eq_def]
      simp only [m.matchAt_wrap hn]
      exact .next (List.append_cancel_right h) hn (ih fuel [] hlen rfl)
  | letter a s ha ih =>
    cases fuel with
    | zero => cases hfuel
    | succ fuel =>
      have hnext := ih fuel (before ++ [a]) (Nat.le_of_succ_le_succ hfuel)
      rw [List.append_assoc, List.singleton_append, List.map_append, List.append_assoc] at hnext
      rw [search, ha]
      rw [m.parts_cons ha] at h
      exact hnext h

/-- The search cuts the text at its placeholders. -/
theorem cut_search (s : List α) :
    m.Cut s (search m.matchAt s.length [] s).1 (search m.matchAt s.length [] s).2 :=
  m.cut_search_from s.length [] s (Nat.le_refl _) rfl

/-! ### Substitution and replacement -/

/-- The text with all placeholders replaced at once. -/
def subst (σ : List α → List α) (s : List α) : List α := (m.parts s).flatMap (Part.fill σ)

/-- The text with the placeholders of one name replaced. -/
def replace (n v : List α) (s : List α) : List α := m.subst (Function.update m.wrap n v) s

/-- Replacing placeholders by themselves changes nothing. -/
theorem subst_wrap (s : List α) : m.subst m.wrap s = s := by
  induction s using m.induction_parts with
  | nil => rfl
  | name n s hn ih => rw [subst, m.parts_wrap hn, List.flatMap_cons, ← subst, ih, Part.fill]
  | letter a s ha ih => rw [subst, m.parts_cons ha, List.flatMap_cons, ← subst, ih]; rfl

/-- Only the values of names that occur matter. -/
theorem subst_congr {σ τ : List α → List α} (h : ∀ n, .name n ∈ m.parts s → σ n = τ n) :
    m.subst σ s = m.subst τ s := by
  apply List.flatMap_congr
  intro p hp
  cases p with
  | letter a => rfl
  | name n => exact h n hp

/-- A text without placeholders stays. -/
theorem subst_letters (h : m.parts s = s.map .letter) (σ : List α → List α) : m.subst σ s = s := by
  rw [subst, h, List.flatMap_map]
  exact List.flatMap_singleton' s

/-- A placeholder is replaced between what comes before and after. -/
theorem subst_append_wrap (hn : m.IsName n) (σ : List α → List α) (u s : List α) :
    m.subst σ (u ++ (m.wrap n ++ s)) = m.subst σ u ++ (σ n ++ m.subst σ s) := by
  rw [subst, m.parts_append_wrap u hn, List.flatMap_append, List.flatMap_cons, Part.fill]
  rfl

private theorem replace_append_wrap (hn : m.IsName n) (v u s : List α) :
    m.replace n v (u ++ (m.wrap n ++ s)) = m.replace n v u ++ (v ++ m.replace n v s) := by
  rw [replace, m.subst_append_wrap hn, Function.update_self]
  rfl

/-- Any scan that replaces the placeholder of a name where it begins, and goes on after it,
replaces the placeholders of the name. -/
theorem eq_replace {n v : List α} (hn : m.IsName n) {f : List α → List α} (hnil : f [] = [])
    (hhit : ∀ s, f (m.wrap n ++ s) = v ++ f s)
    (hmiss : ∀ a s, ¬ m.wrap n <+: a :: s → f (a :: s) = a :: f s) (s : List α) :
    f s = m.replace n v s := by
  -- a text without marks is passed over
  have hpass (u s : List α) (hu : m.mark ∉ u) : f (u ++ s) = u ++ f s := by
    induction u with
    | nil => rfl
    | cons a u ih =>
      rw [List.cons_append, hmiss, ih fun h ↦ hu (List.mem_cons_of_mem _ h), List.cons_append]
      rintro ⟨after, h⟩
      exact hu ((List.cons.inj h).1 ▸ List.mem_cons_self)
  induction s using m.induction_parts with
  | nil => exact hnil
  | name k s hk ih =>
    rw [replace, subst, m.parts_wrap hk, List.flatMap_cons, Part.fill, ← subst, ← replace, ← ih]
    by_cases hkn : k = n
    · subst hkn
      rw [Function.update_self, hhit]
    · have hrest := hpass (m.wrap k).tail s (m.barrier_mark.notMem_tail_wrap hk)
      have hfirst : ¬ m.wrap n <+: m.wrap k ++ s := by
        rintro ⟨after, h⟩
        exact hkn (m.wrap_append_inj hn hk h).1.symm
      rw [Function.update_of_ne hkn]
      exact (hmiss m.mark _ hfirst).trans (congrArg (m.mark :: ·) hrest)
  | letter a s ha ih =>
    rw [replace, subst, m.parts_cons ha, List.flatMap_cons, ← subst, ← replace, ← ih,
      hmiss a s (m.matchAt_eq_none.mp ha n hn)]
    rfl

/-! ### When a replacement is right -/

private theorem exists_blocks (τ : List α → List α) (n : List α) (ps : List (Part α)) :
    ∃ (u : List α) (us : List (List α)), us.length = ps.count (.name n) ∧
      ∀ v, ps.flatMap (Part.fill (Function.update τ n v)) = u ++ us.flatMap (v ++ ·) := by
  induction ps with
  | nil => exact ⟨[], [], rfl, fun _ ↦ rfl⟩
  | cons p ps ih =>
    obtain ⟨u, us, hlen, htext⟩ := ih
    cases p with
    | letter a =>
      refine ⟨a :: u, us, by rw [hlen, List.count_cons_of_ne (by simp)], fun v ↦ ?_⟩
      rw [List.flatMap_cons, htext]
      rfl
    | name k =>
      by_cases hk : k = n
      · subst hk
        refine ⟨[], u :: us, by rw [List.count_cons_self, List.length_cons, hlen], fun v ↦ ?_⟩
        rw [List.flatMap_cons, htext, Part.fill, Function.update_self, List.flatMap_cons,
          List.nil_append, List.append_assoc]
      · refine ⟨τ k ++ u, us, by rw [hlen, List.count_cons_of_ne (by simp [hk])], fun v ↦ ?_⟩
        rw [List.flatMap_cons, htext, Part.fill, Function.update_of_ne hk, List.append_assoc]

private theorem length_replace_le (n v : List α) :
    (∀ s, s.length ≤ (m.replace n v s).length) ∨ ∀ s, (m.replace n v s).length ≤ s.length := by
  have hblocks (s : List α) : ∃ (u : List α) (us : List (List α)),
      s = u ++ us.flatMap (m.wrap n ++ ·) ∧ m.replace n v s = u ++ us.flatMap (v ++ ·) := by
    obtain ⟨u, us, -, htext⟩ := exists_blocks m.wrap n (m.parts s)
    refine ⟨u, us, ?_, htext v⟩
    rw [← htext, Function.update_eq_self, ← subst, m.subst_wrap]
  rcases Nat.le_total (m.wrap n).length v.length with hle | hle
  · left
    intro s
    obtain ⟨u, us, hs, hreplace⟩ := hblocks s
    have := length_flatMap_le hle (fun u ↦ Nat.le_refl (id u).length) us
    rw [hreplace, hs, List.length_append, List.length_append]
    exact Nat.add_le_add_left this _
  · right
    intro s
    obtain ⟨u, us, hs, hreplace⟩ := hblocks s
    have := length_flatMap_le hle (fun u ↦ Nat.le_refl (id u).length) us
    rw [hreplace, hs, List.length_append, List.length_append]
    exact Nat.add_le_add_left this _

/-- Two values make the same text exactly when there is nothing to replace, or they are the
same. -/
theorem replace_eq_replace_iff (n v w s : List α) :
    m.replace n v s = m.replace n w s ↔ v = w ∨ .name n ∉ m.parts s := by
  obtain ⟨u, us, hlen, htext⟩ := exists_blocks m.wrap n (m.parts s)
  have hreplace (x : List α) : m.replace n x s = u ++ us.flatMap (x ++ ·) := htext x
  rw [← List.count_eq_zero, ← hlen, List.length_eq_zero_iff, hreplace, hreplace]
  constructor
  · intro heq
    have heq := List.append_cancel_left heq
    cases us with
    | nil => exact .inr rfl
    | cons x us =>
      left
      have hx := congrArg List.length heq
      rw [List.flatMap_cons, List.flatMap_cons, List.append_assoc, List.append_assoc] at heq
      refine (List.append_inj heq ?_).1
      simp only [List.flatMap_cons, List.length_append] at hx
      rcases Nat.le_total v.length w.length with hle | hle
      · have := length_flatMap_le hle (fun u ↦ Nat.le_refl (id u).length) us
        simp only [id] at this
        omega
      · have := length_flatMap_le hle (fun u ↦ Nat.le_refl (id u).length) us
        simp only [id] at this
        omega
  · rintro (rfl | rfl)
    · rfl
    · rfl

/-- Replacing a name by its placeholder changes nothing. -/
theorem replace_wrap (n s : List α) : m.replace n (m.wrap n) s = s := by
  rw [replace, Function.update_eq_self, m.subst_wrap]

/-- A replacement changes nothing exactly when there is nothing to replace, or the value is the
placeholder itself. -/
theorem replace_eq_self_iff (n v s : List α) :
    m.replace n v s = s ↔ v = m.wrap n ∨ .name n ∉ m.parts s := by
  have h := m.replace_eq_replace_iff n v (m.wrap n) s
  rwa [m.replace_wrap] at h

private theorem replace_blocks (hn : m.IsName n) (v u : List α) (us : List (List α)) :
    m.replace n v (u ++ us.flatMap (m.wrap n ++ ·)) =
      m.replace n v u ++ us.flatMap (v ++ m.replace n v ·) := by
  induction us generalizing u with
  | nil => rw [List.flatMap_nil, List.flatMap_nil, List.append_nil, List.append_nil]
  | cons x us ih =>
    rw [List.flatMap_cons, List.flatMap_cons, List.append_assoc, m.replace_append_wrap hn, ih,
      List.append_assoc]

private theorem count_blocks (hn : m.IsName n) (u : List α) (us : List (List α)) :
    us.length ≤ (m.parts (u ++ us.flatMap (m.wrap n ++ ·))).count (.name n) ∧
      ((m.parts (u ++ us.flatMap (m.wrap n ++ ·))).count (.name n) = us.length ↔
        ∀ w ∈ u :: us, .name n ∉ m.parts w) := by
  induction us generalizing u with
  | nil => simp [List.count_eq_zero]
  | cons x us ih =>
    have ⟨hle, hiff⟩ := ih x
    rw [List.flatMap_cons, List.append_assoc, m.parts_append_wrap u hn, List.count_append,
      List.count_cons_self, List.length_cons, List.forall_mem_cons, ← hiff,
      ← List.count_eq_zero (l := m.parts u)]
    omega

/-- When some names are filled in, replacing another one is right exactly if the values have
brought in no placeholder of it, or its value is its placeholder. -/
theorem replace_subst_iff {τ : List α → List α} (hn : m.IsName n) (hτ : τ n = m.wrap n)
    (v s : List α) : m.replace n v (m.subst τ s) = m.subst (Function.update τ n v) s ↔
      v = m.wrap n ∨
        (m.parts (m.subst τ s)).count (.name n) = (m.parts s).count (.name n) := by
  obtain ⟨u, us, hlen, htext⟩ := exists_blocks τ n (m.parts s)
  have hs : m.subst τ s = u ++ us.flatMap (m.wrap n ++ ·) := by
    rw [← htext, ← hτ, Function.update_eq_self, subst]
  have hblocks : m.replace n v (m.subst τ s) = m.subst (Function.update τ n v) s ↔
      ∀ w ∈ u :: us, m.replace n v w = w := by
    rw [hs, m.replace_blocks hn, subst, htext]
    constructor
    · intro heq
      rcases m.length_replace_le n v with hle | hle
      · exact fun w hw ↦ (blocks_inj (f := id) hle heq.symm w hw).symm
      · exact blocks_inj (g := id) hle heq
    · intro h
      rw [h u List.mem_cons_self]
      congr 1
      apply List.flatMap_congr
      intro w hw
      rw [h w (List.mem_cons_of_mem _ hw)]
  rw [hblocks, hs, ← hlen, (m.count_blocks hn u us).2]
  simp only [m.replace_eq_self_iff]
  constructor
  · intro h
    by_cases hv : v = m.wrap n
    · exact .inl hv
    · exact .inr fun w hw ↦ (h w hw).resolve_left hv
  · rintro (hv | h) w hw
    · exact .inl hv
    · exact .inr (h w hw)

/-! ### Values that do not join their surroundings -/

/-- A value that makes no placeholder with the text around it. -/
structure Sealed (v : List α) : Prop where
  head : ∃ a t, v = a :: t ∧ m.Barrier a
  closed : ∀ t, m.parts (v ++ t) = m.parts v ++ m.parts t

/-- A placeholder is sealed. -/
theorem sealed_wrap (hn : m.IsName n) : m.Sealed (m.wrap n) where
  head := ⟨m.mark, _, rfl, m.barrier_mark⟩
  closed t := by
    have hself := m.parts_wrap hn []
    rw [List.append_nil, parts_nil] at hself
    rw [m.parts_wrap hn, hself, List.singleton_append]

/-- A barrier other than the mark is sealed. -/
theorem sealed_singleton {b : α} (hb : m.Barrier b) (hne : b ≠ m.mark) : m.Sealed [b] where
  head := ⟨b, [], rfl, hb⟩
  closed t := by
    rw [List.singleton_append, m.parts_cons (m.matchAt_cons_of_ne hne t),
      m.parts_cons (m.matchAt_cons_of_ne hne []), parts_nil, List.singleton_append]

/-- Sealed values can be joined. -/
theorem Sealed.append {m : Marks α} {v w : List α} (hv : m.Sealed v) (hw : m.Sealed w) :
    m.Sealed (v ++ w) where
  head := by
    obtain ⟨a, t, rfl, ha⟩ := hv.head
    exact ⟨a, t ++ w, List.cons_append, ha⟩
  closed t := by rw [List.append_assoc, hv.closed, hw.closed, hv.closed, List.append_assoc]

/-- The parts of what stands for a part. -/
def refill (σ : List α → List α) : Part α → List (Part α)
  | .letter a => [.letter a]
  | .name n => m.parts (σ n)

/-- Sealed values are cut on their own. -/
theorem parts_subst_of_sealed {σ : List α → List α} {s : List α}
    (h : ∀ n, .name n ∈ m.parts s → m.Sealed (σ n)) :
    m.parts (m.subst σ s) = (m.parts s).flatMap (m.refill σ) := by
  -- letters before `s` stay letters whatever is put for the names of `s`
  suffices hgen : ∀ u : List α, m.parts (u ++ s) = u.map .letter ++ m.parts s →
      m.parts (u ++ m.subst σ s) = u.map .letter ++ (m.parts s).flatMap (m.refill σ) from
    hgen [] rfl
  induction s using m.induction_parts with
  | nil => exact fun u hu ↦ hu
  | name n s hn ih =>
    intro u hu
    have hσ := h n (by rw [m.parts_wrap hn]; exact List.mem_cons_self)
    have hs : ∀ k, .name k ∈ m.parts s → m.Sealed (σ k) := fun k hk ↦
      h k (by rw [m.parts_wrap hn]; exact List.mem_cons_of_mem _ hk)
    rw [m.parts_append_wrap u hn, m.parts_wrap hn] at hu
    have hletters : m.parts u = u.map .letter := List.append_cancel_right hu
    obtain ⟨a, t, hat, ha⟩ := hσ.head
    have hclosed := hσ.closed (m.subst σ s)
    rw [subst, m.parts_wrap hn, List.flatMap_cons, List.flatMap_cons, Part.fill, ← subst, refill,
      ← hletters]
    rw [hat, List.cons_append] at hclosed ⊢
    rw [m.parts_append_barrier u ha, hclosed]
    congr 2
    exact ih hs [] rfl
  | letter a s ha ih =>
    intro u hu
    have hs : ∀ k, .name k ∈ m.parts s → m.Sealed (σ k) := fun k hk ↦
      h k (by rw [m.parts_cons ha]; exact List.mem_cons_of_mem _ hk)
    have hnext := ih hs (u ++ [a])
    rw [List.append_assoc, List.append_assoc, List.map_append, List.append_assoc,
      List.append_assoc] at hnext
    rw [m.parts_cons ha] at hu ⊢
    rw [subst, m.parts_cons ha]
    exact hnext hu

/-- What a sealed value brings in, and what is left. -/
theorem count_parts_replace {v : List α} (hv : m.Sealed v) (n s : List α) (p : Part α) :
    (m.parts (m.replace n v s)).count p = (if p = .name n then 0 else (m.parts s).count p) +
      (m.parts s).count (.name n) * (m.parts v).count p := by
  rw [replace, parts_subst_of_sealed]
  · have hwrap : ∀ k, .name k ∈ m.parts s → m.parts (m.wrap k) = [.name k] := by
      intro k hk
      have := m.parts_wrap (m.isName_of_mem_parts hk) []
      rwa [List.append_nil, parts_nil] at this
    generalize m.parts s = ps at hwrap ⊢
    induction ps with
    | nil => simp
    | cons q ps ih =>
      have ih := ih fun k hk ↦ hwrap k (List.mem_cons_of_mem _ hk)
      rw [List.flatMap_cons, List.count_append, ih]
      by_cases hq : q = .name n
      · subst hq
        rw [refill, Function.update_self, List.count_cons_self, Nat.add_mul, Nat.one_mul]
        by_cases hp : p = .name n
        · rw [if_pos hp, if_pos hp]
          omega
        · rw [if_neg hp, if_neg hp, List.count_cons_of_ne (Ne.symm hp)]
          omega
      · have hkept : m.refill (Function.update m.wrap n v) q = [q] := by
          cases q with
          | letter a => rfl
          | name k =>
            have hk : k ≠ n := fun hk ↦ hq (congrArg Part.name hk)
            rw [refill, Function.update_of_ne hk, hwrap k List.mem_cons_self]
        rw [hkept, List.count_cons_of_ne hq]
        by_cases hp : p = .name n
        · rw [if_pos hp, if_pos hp, List.count_cons_of_ne (hp ▸ hq), List.count_nil, Nat.zero_add]
        · rw [if_neg hp, if_neg hp, List.count_cons, List.count_cons, List.count_nil]
          omega
  · intro k hk
    by_cases hkn : k = n
    · rw [hkn, Function.update_self]
      exact hv
    · rw [Function.update_of_ne hkn]
      exact m.sealed_wrap (m.isName_of_mem_parts hk)

end Search
end Marks
end SMAgent.Base.Placeholders
