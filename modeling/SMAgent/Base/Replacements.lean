import Mathlib.Data.List.Induction
import SMAgent.Base.Placeholders

/-!
# Sequences of replacements

Names are replaced one after the other, each in the text that the ones before have left. Up to
any point this is the substitution of the names so far exactly when no step meets a placeholder
that is not one of the text's own. Values for which that fails exist as soon as a text has two
placeholders.
-/

namespace SMAgent.Base.Placeholders

/-- The name of a placeholder. -/
def Part.name? {α : Type} : Part α → Option (List α)
  | .letter _ => none
  | .name n => some n

namespace Marks

variable {α : Type} [DecidableEq α] (m : Marks α)

/-- The names of the placeholders, in order. -/
def names (s : List α) : List (List α) := (m.parts s).filterMap Part.name?

/-- The names of a text are those of its parts. -/
theorem mem_names {n s : List α} : n ∈ m.names s ↔ .name n ∈ m.parts s := by
  rw [names, List.mem_filterMap]
  constructor
  · rintro ⟨p, hp, hn⟩
    cases p with
    | letter a => cases hn
    | name k => exact Option.some.inj hn ▸ hp
  · intro h
    exact ⟨.name n, h, rfl⟩

/-- A name counts as often as it is a part. -/
theorem count_names (n s : List α) : (m.names s).count n = (m.parts s).count (.name n) := by
  rw [names]
  induction m.parts s with
  | nil => rfl
  | cons p ps ih =>
    cases p with
    | letter a => rw [List.filterMap_cons_none rfl, List.count_cons_of_ne (by simp), ih]
    | name k =>
      have hname : Part.name? (.name k) = some k := rfl
      rw [List.filterMap_cons_some hname, List.count_cons, List.count_cons, ih]
      simp only [beq_eq_decide, Part.name.injEq]

section Steps
variable (get : List α → Option (List α))

/-- One step: a name without a value is left as it is. -/
def replaceOne (s n : List α) : List α :=
  match get n with
  | none => s
  | some v => m.replace n v s

/-- The steps for these names. -/
def replaceEach (ns : List (List α)) (s : List α) : List α := ns.foldl (m.replaceOne get) s

/-- What stands for a name. -/
def valueOf (n : List α) : List α := (get n).getD (m.wrap n)

/-- What stands for a name when these have been replaced. -/
def filled (done : List (List α)) (n : List α) : List α :=
  if n ∈ done then m.valueOf get n else m.wrap n

/-- The text before the step for `n` has no placeholder of `n` but the original ones that still
stand, unless the step changes nothing. -/
def Clear (s : List α) (done : List (List α)) (n : List α) : Prop :=
  ∀ v, get n = some v → v = m.wrap n ∨
    (m.parts (m.replaceEach get done s)).count (.name n) =
      if n ∈ done then 0 else (m.parts s).count (.name n)

/-- One more name is replaced after the others. -/
theorem replaceEach_concat (ns : List (List α)) (n s : List α) :
    m.replaceEach get (ns ++ [n]) s = m.replaceOne get (m.replaceEach get ns s) n := by
  rw [replaceEach, List.foldl_concat, ← replaceEach]

private theorem replaceEach_concat_iff {s n : List α} {done : List (List α)} (hn : m.IsName n)
    (h : m.replaceEach get done s = m.subst (m.filled get done) s) :
    m.replaceEach get (done ++ [n]) s = m.subst (m.filled get (done ++ [n])) s ↔
      m.Clear get s done n := by
  rw [replaceEach_concat, Clear, replaceOne, h]
  cases hget : get n with
  | none =>
    have hfilled : m.filled get (done ++ [n]) = m.filled get done := by
      funext k
      by_cases hk : k = n
      · subst hk
        simp [filled, valueOf, hget]
      · simp [filled, hk]
    rw [hfilled]
    simp
  | some v =>
    simp only [Option.some.injEq, forall_eq']
    by_cases hdone : n ∈ done
    · have hfilled : m.filled get (done ++ [n]) = m.filled get done := by
        funext k
        by_cases hk : k = n
        · subst hk
          simp [filled, hdone]
        · simp [filled, hk]
      rw [hfilled, if_pos hdone, List.count_eq_zero]
      exact m.replace_eq_self_iff n v _
    · have hfilled : m.filled get (done ++ [n]) = Function.update (m.filled get done) n v := by
        funext k
        by_cases hk : k = n
        · subst hk
          simp [filled, valueOf, hget]
        · simp [filled, hk]
      rw [hfilled, if_neg hdone]
      exact m.replace_subst_iff hn (if_neg hdone) v s

/-- The steps are right at every point exactly when each is clear. -/
theorem replaceEach_iff {ns : List (List α)} (hns : ∀ n ∈ ns, m.IsName n) (s : List α) :
    (∀ done, done <+: ns → m.replaceEach get done s = m.subst (m.filled get done) s) ↔
      ∀ done n, done ++ [n] <+: ns → m.Clear get s done n := by
  constructor
  · intro h done n hpre
    have hn : m.IsName n := hns n (hpre.subset (by simp))
    exact (m.replaceEach_concat_iff get hn (h done ((List.prefix_append _ _).trans hpre))).mp
      (h _ hpre)
  · intro h done
    induction done using List.reverseRecOn with
    | nil =>
      intro _
      have hfilled : m.filled get [] = m.wrap := funext fun n ↦ if_neg List.not_mem_nil
      rw [hfilled, m.subst_wrap]
      rfl
    | append_singleton done n ih =>
      intro hpre
      have hn : m.IsName n := hns n (hpre.subset (by simp))
      exact (m.replaceEach_concat_iff get hn (ih ((List.prefix_append _ _).trans hpre))).mpr
        (h done n hpre)

/-- When all names of a text are replaced the whole is its substitution. -/
theorem subst_filled_names {ns : List (List α)} {s : List α} (h : ∀ n ∈ m.names s, n ∈ ns) :
    m.subst (m.filled get ns) s = m.subst (m.valueOf get) s := by
  apply m.subst_congr
  intro n hn
  exact if_pos (h n (m.mem_names.mpr hn))

end Steps

/-! ### Values that go wrong -/

section Wrong
variable {m} {b : α} (hb : m.Barrier b) (hmark : b ≠ m.mark)

private theorem parts_wrap_self {n : List α} (hn : m.IsName n) :
    m.parts (m.wrap n) = [.name n] := by
  have := m.parts_wrap hn []
  rwa [List.append_nil, parts_nil] at this

include hmark in
private theorem parts_singleton : m.parts [b] = [.letter b] :=
  m.parts_cons (m.matchAt_cons_of_ne hmark [])

include hmark in
private theorem count_growing {n : List α} (hn : m.IsName n) :
    (m.parts (m.wrap n ++ [b])).count (.letter b) = 1 ∧
      (m.parts (m.wrap n ++ [b])).count (.name n) = 1 := by
  rw [m.parts_wrap hn, parts_singleton hmark]
  constructor
  · rw [List.count_cons_of_ne (by simp), List.count_singleton_self]
  · rw [List.count_cons_self, List.count_cons_of_ne (by simp), List.count_nil]

/-- One name becomes the placeholder of another, and that one becomes `b`. -/
def chained (m : Marks α) (b : α) (n₁ n₂ k : List α) : Option (List α) :=
  if k = n₁ then some (m.wrap n₂) else if k = n₂ then some [b] else none

include hb hmark in
private theorem chained_count {n₁ n₂ : List α} (hne : n₂ ≠ n₁) (ns : List (List α)) {t : List α}
    (h₁ : (m.parts t).count (.name n₁) = 0)
    (h₂ : n₂ ∈ ns ∨ (m.parts t).count (.name n₂) = 0) :
    (m.parts (m.replaceEach (chained m b n₁ n₂) ns t)).count (.name n₂) = 0 := by
  induction ns generalizing t with
  | nil => exact h₂.resolve_left List.not_mem_nil
  | cons n ns ih =>
    rw [replaceEach, List.foldl_cons, ← replaceEach]
    by_cases hn₁ : n = n₁
    · -- there is nothing to replace
      have hsame : m.replaceOne (chained m b n₁ n₂) t n = t := by
        rw [replaceOne, chained, if_pos hn₁, hn₁]
        exact (m.replace_eq_self_iff _ _ _).mpr (.inr (List.count_eq_zero.mp h₁))
      rw [hsame]
      refine ih h₁ (h₂.imp_left fun hmem ↦ ?_)
      exact (List.mem_cons.mp hmem).resolve_left fun heq ↦ hne (heq.trans hn₁)
    by_cases hn₂ : n = n₂
    · have hstep : m.replaceOne (chained m b n₁ n₂) t n = m.replace n₂ [b] t := by
        rw [replaceOne, chained, if_neg hn₁, if_pos hn₂, hn₂]
      have hcount := m.count_parts_replace (m.sealed_singleton hb hmark) n₂ t
      rw [hstep]
      apply ih
      · rw [hcount, parts_singleton hmark, h₁]
        simp
      · right
        rw [hcount, parts_singleton hmark]
        simp
    · have hsame : m.replaceOne (chained m b n₁ n₂) t n = t := by
        rw [replaceOne, chained, if_neg hn₁, if_neg hn₂]
      rw [hsame]
      refine ih h₁ (h₂.imp_left fun hmem ↦ ?_)
      exact (List.mem_cons.mp hmem).resolve_left fun heq ↦ hn₂ heq.symm

/-- A name becomes its placeholder with `b` after it. -/
def growing (m : Marks α) (b : α) (n k : List α) : Option (List α) :=
  if k = n then some (m.wrap n ++ [b]) else none

include hb hmark in
private theorem sealed_growing {n : List α} (hn : m.IsName n) : m.Sealed (m.wrap n ++ [b]) :=
  (m.sealed_wrap hn).append (m.sealed_singleton hb hmark)

include hb hmark in
private theorem growing_count {n : List α} (hn : m.IsName n) (ns : List (List α)) (t : List α) :
    (m.parts (m.replaceEach (growing m b n) ns t)).count (.letter b) =
      (m.parts t).count (.letter b) + ns.count n * (m.parts t).count (.name n) := by
  have ⟨hletter, hname⟩ := count_growing hmark hn
  induction ns generalizing t with
  | nil => simp [replaceEach]
  | cons k ns ih =>
    rw [replaceEach, List.foldl_cons, ← replaceEach]
    by_cases hk : k = n
    · have hstep : m.replaceOne (growing m b n) t k = m.replace n (m.wrap n ++ [b]) t := by
        rw [replaceOne, growing, if_pos hk, hk]
      have hcount := m.count_parts_replace (sealed_growing hb hmark hn) n t
      rw [hstep, ih, hcount, hcount, hletter, hname, hk, List.count_cons_self,
        if_neg (by simp), if_pos rfl, Nat.zero_add, Nat.mul_one, Nat.add_mul, Nat.one_mul]
      omega
    · have hsame : m.replaceOne (growing m b n) t k = t := by
        rw [replaceOne, growing, if_neg hk]
      rw [hsame, ih, List.count_cons_of_ne hk]

include hb hmark in
/-- A text with two placeholders has values for which the steps go wrong. -/
theorem exists_replaceEach_ne {s n₁ n₂ : List α} {ns : List (List α)}
    (h : m.names s = n₁ :: n₂ :: ns) :
    ∃ get, m.replaceEach get (m.names s) s ≠ m.subst (m.valueOf get) s := by
  have hmem₁ : .name n₁ ∈ m.parts s := m.mem_names.mp (by rw [h]; simp)
  have hmem₂ : .name n₂ ∈ m.parts s := m.mem_names.mp (by rw [h]; simp)
  have hname₁ := m.isName_of_mem_parts hmem₁
  have hname₂ := m.isName_of_mem_parts hmem₂
  by_cases hne : n₂ = n₁
  · -- one name twice: the second step meets what the first one brought in
    subst hne
    refine ⟨growing m b n₂, fun heq ↦ ?_⟩
    have hvalue : m.valueOf (growing m b n₂) = Function.update m.wrap n₂ (m.wrap n₂ ++ [b]) := by
      funext k
      by_cases hk : k = n₂
      · subst hk
        simp [valueOf, growing]
      · simp [valueOf, growing, hk]
    have hcount := congrArg (fun t ↦ (m.parts t).count (.letter b)) heq
    simp only [growing_count hb hmark hname₂, hvalue] at hcount
    rw [← replace, m.count_parts_replace (sealed_growing hb hmark hname₂),
      (count_growing hmark hname₂).1, m.count_names, if_neg (by simp), Nat.mul_one] at hcount
    have htwo : 2 ≤ (m.parts s).count (.name n₂) := by
      rw [← m.count_names, h, List.count_cons_self, List.count_cons_self]
      omega
    have hmul : 2 * (m.parts s).count (.name n₂) ≤
        (m.parts s).count (.name n₂) * (m.parts s).count (.name n₂) :=
      Nat.mul_le_mul_right _ htwo
    omega
  · -- the step for `n₂` meets the placeholders that the first step brought in
    refine ⟨chained m b n₁ n₂, fun heq ↦ ?_⟩
    have hleft :
        (m.parts (m.replaceEach (chained m b n₁ n₂) (m.names s) s)).count (.name n₂) = 0 := by
      rw [h, replaceEach, List.foldl_cons, ← replaceEach]
      have hstep : m.replaceOne (chained m b n₁ n₂) s n₁ = m.replace n₁ (m.wrap n₂) s := by
        rw [replaceOne, chained, if_pos rfl]
      rw [hstep]
      apply chained_count hb hmark hne
      · rw [m.count_parts_replace (m.sealed_wrap hname₂), parts_wrap_self hname₂]
        simp [hne]
      · simp
    have hsealed : ∀ k, .name k ∈ m.parts s → m.Sealed (m.valueOf (chained m b n₁ n₂) k) := by
      intro k hk
      rw [valueOf, chained]
      split
      · exact m.sealed_wrap hname₂
      split
      · exact m.sealed_singleton hb hmark
      · exact m.sealed_wrap (m.isName_of_mem_parts hk)
    have hright : .name n₂ ∈ m.parts (m.subst (m.valueOf (chained m b n₁ n₂)) s) := by
      rw [m.parts_subst_of_sealed hsealed, List.mem_flatMap]
      refine ⟨.name n₁, hmem₁, ?_⟩
      rw [refill, valueOf, chained, if_pos rfl, Option.getD_some, parts_wrap_self hname₂]
      exact List.mem_singleton.mpr rfl
    rw [heq] at hleft
    exact List.count_eq_zero.mp hleft hright

end Wrong

end Marks
end SMAgent.Base.Placeholders
