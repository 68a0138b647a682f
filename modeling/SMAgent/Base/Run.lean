import Mathlib.Tactic.Common

/-!
# Runs of a labelled step relation

A system is a relation `step s a s'`: in state `s` the action `a` may lead to `s'`. A
fallible function is the relation of its successful results. What one step keeps, every
run keeps.
-/

namespace SMAgent.Base

universe u v w

variable {σ : Type u} {α : Type v} {ε : Type w}

/-- `Runs step s as s'`: the actions `as`, taken in order, lead from `s` to `s'`. -/
inductive Runs (step : σ → α → σ → Prop) : σ → List α → σ → Prop where
  | nil (s : σ) : Runs step s [] s
  | cons {s s' s'' : σ} {a : α} {as : List α} :
    step s a s' → Runs step s' as s'' → Runs step s (a :: as) s''

namespace Runs

variable {step : σ → α → σ → Prop}

/-- A property that every step keeps holds at the end of every run. -/
theorem invariant {Inv : σ → Prop} (hstep : ∀ s a s', Inv s → step s a s' → Inv s')
    {s s' : σ} {as : List α} (h : Runs step s as s') (hs : Inv s) : Inv s' := by
  induction h with
  | nil s => exact hs
  | cons ha _ ih => exact ih (hstep _ _ _ hs ha)

/-- What each action of a run keeps, the run keeps. -/
theorem invariant_of_mem {Inv : σ → Prop} {s s' : σ} {as : List α} (h : Runs step s as s')
    (hstep : ∀ s, ∀ a ∈ as, ∀ s', Inv s → step s a s' → Inv s') (hs : Inv s) : Inv s' := by
  induction h with
  | nil s => exact hs
  | @cons s t _ a as ha _ ih =>
    apply ih
    · intro s b hb
      exact hstep s b (List.mem_cons_of_mem _ hb)
    · exact hstep s a List.mem_cons_self t hs ha

/-- The successful folds of a fallible function are the runs of its graph. -/
theorem foldlM_eq_ok (f : σ → α → Except ε σ) (s s' : σ) (as : List α) :
    as.foldlM f s = .ok s' ↔ Runs (fun s a s' ↦ f s a = .ok s') s as s' := by
  induction as generalizing s with
  | nil =>
    constructor
    · intro h
      obtain rfl := Except.ok.inj h
      exact .nil _
    · rintro ⟨⟩
      rfl
  | cons a as ih =>
    rw [List.foldlM_cons]
    cases ha : f s a with
    | error e =>
      constructor
      · intro h
        cases h
      · rintro ⟨⟩
        next h _ => cases ha.symm.trans h
    | ok t =>
      constructor
      · intro h
        exact .cons ha ((ih t).mp h)
      · rintro ⟨⟩
        next h hr =>
          obtain rfl := Except.ok.inj (ha.symm.trans h)
          exact (ih t).mpr hr

/-- What every element of a fold keeps, a successful fold keeps. -/
theorem foldlM_invariant {Inv : σ → Prop} {f : σ → α → Except ε σ} {s s' : σ} {as : List α}
    (h : as.foldlM f s = .ok s')
    (hstep : ∀ s, ∀ a ∈ as, ∀ s', Inv s → f s a = .ok s' → Inv s') (hs : Inv s) : Inv s' :=
  ((foldlM_eq_ok f s s' as).mp h).invariant_of_mem hstep hs

/-- The last step of a fold, after the others succeeded. -/
theorem foldlM_concat {f : σ → α → Except ε σ} {s t : σ} {as : List α}
    (h : as.foldlM f s = .ok t) (a : α) : (as ++ [a]).foldlM f s = f t a := by
  rw [List.foldlM_append, h]
  exact bind_pure (f t a)

/-- A fold whose steps fail on bad elements, in whatever state, is the fold over good ones. -/
theorem foldlM_eq_ok_iff_foldl {P : α → Prop} {f : σ → α → Except ε σ} {g : σ → α → σ}
    (hstep : ∀ s a s', f s a = .ok s' ↔ P a ∧ s' = g s a) (as : List α) (s s' : σ) :
    as.foldlM f s = .ok s' ↔ (∀ a ∈ as, P a) ∧ s' = as.foldl g s := by
  induction as generalizing s with
  | nil => simp [pure, Except.pure, eq_comm]
  | cons a as ih =>
    rw [List.foldlM_cons, List.foldl_cons, List.forall_mem_cons]
    cases hf : f s a with
    | error e =>
      have hbad : ¬ P a := by
        intro ha
        rw [(hstep s a (g s a)).mpr ⟨ha, rfl⟩] at hf
        cases hf
      simp [bind, Except.bind, hbad]
    | ok t =>
      obtain ⟨ha, rfl⟩ := (hstep s a t).mp hf
      rw [and_iff_right ha]
      exact ih _

/-- If every step of a fallible function succeeds and simulates the step of a total one, so
does its fold. -/
theorem foldlM_simulates {τ : Type*} {R : σ → τ → Prop} {f : σ → α → Except ε σ} {g : τ → α → τ}
    {as : List α} (h : ∀ s t, ∀ a ∈ as, R s t → ∃ s', f s a = .ok s' ∧ R s' (g t a)) {s : σ} {t : τ}
    (hs : R s t) : ∃ s', as.foldlM f s = .ok s' ∧ R s' (as.foldl g t) := by
  induction as generalizing s t with
  | nil => exact ⟨s, rfl, hs⟩
  | cons a as ih =>
    obtain ⟨s', ha, hs'⟩ := h s t a List.mem_cons_self hs
    obtain ⟨s'', has, hs''⟩ := ih (fun s t b hb ↦ h s t b (List.mem_cons_of_mem _ hb)) hs'
    refine ⟨s'', ?_, hs''⟩
    rw [List.foldlM_cons, ha]
    exact has

/-- Steps with different keys, each of which changes what is stored at its key only: at the end
every key has seen its own step. -/
theorem foldlM_pointwise {κ ν : Type*} {f : σ → α → Except ε σ} (key : α → κ) (get : σ → κ → ν)
    (R : α → ν → ν → Prop) {as : List α} (hkeys : (as.map key).Nodup)
    (hstep : ∀ s, ∀ a ∈ as, ∃ s', f s a = .ok s' ∧ (∀ k, k ≠ key a → get s' k = get s k) ∧
      R a (get s (key a)) (get s' (key a))) (s : σ) :
    ∃ s', as.foldlM f s = .ok s' ∧ (∀ k, k ∉ as.map key → get s' k = get s k) ∧
      ∀ a ∈ as, R a (get s (key a)) (get s' (key a)) := by
  induction as generalizing s with
  | nil => exact ⟨s, rfl, fun _ _ ↦ rfl, fun a ha ↦ by cases ha⟩
  | cons a as ih =>
    obtain ⟨hnot, hkeys⟩ := List.nodup_cons.mp hkeys
    obtain ⟨t, ha, hoff, hat⟩ := hstep s a List.mem_cons_self
    obtain ⟨s', hfold, hoff', hat'⟩ :=
      ih hkeys (fun s b hb ↦ hstep s b (List.mem_cons_of_mem _ hb)) t
    refine ⟨s', ?_, ?_, ?_⟩
    · rw [List.foldlM_cons, ha]
      exact hfold
    · intro k hk
      rw [List.map_cons, List.mem_cons, not_or] at hk
      rw [hoff' k hk.2, hoff k hk.1]
    · intro b hb
      rcases List.mem_cons.mp hb with rfl | hb
      · rwa [hoff' _ hnot]
      · rw [← hoff (key b) (fun heq ↦ hnot (heq ▸ List.mem_map_of_mem hb))]
        exact hat' b hb

/-- A fold that fails does so at one of its elements. -/
theorem exists_of_foldlM_eq_error (f : σ → α → Except ε σ) (s : σ) (as : List α) (e : ε)
    (h : as.foldlM f s = .error e) : ∃ a ∈ as, ∃ t, f t a = .error e := by
  induction as generalizing s with
  | nil => cases h
  | cons a as ih =>
    rw [List.foldlM_cons] at h
    cases ha : f s a with
    | error e' =>
      rw [ha] at h
      obtain rfl := Except.error.inj h
      exact ⟨a, List.mem_cons_self, s, ha⟩
    | ok t =>
      rw [ha] at h
      obtain ⟨b, hb, hf⟩ := ih t h
      exact ⟨b, List.mem_cons_of_mem _ hb, hf⟩

/-- A run each of whose actions meets a condition, in the state it is taken in, is a run of
the steps restricted to the condition. -/
theorem restrict {cond : σ → α → Prop} {s s' : σ} {as : List α} (h : Runs step s as s')
    (hc : ∀ pre a post t, as = pre ++ a :: post → Runs step s pre t → cond t a) :
    Runs (fun s a s' ↦ step s a s' ∧ cond s a) s as s' := by
  induction h with
  | nil s => exact .nil s
  | cons ha _ ih =>
    refine .cons ⟨ha, hc [] _ _ _ rfl (.nil _)⟩ (ih ?_)
    intro pre a post t heq hr
    exact hc (_ :: pre) a post t (by rw [heq]; rfl) (.cons ha hr)

/-- Where steps have one outcome, runs have. -/
theorem unique (hunique : ∀ s a s₁ s₂, step s a s₁ → step s a s₂ → s₁ = s₂) {s s₁ s₂ : σ}
    {as : List α} (h₁ : Runs step s as s₁) (h₂ : Runs step s as s₂) : s₁ = s₂ := by
  induction h₁ with
  | nil s =>
    cases h₂
    rfl
  | cons ha _ ih =>
    cases h₂ with
    | cons ha' h₂ =>
      obtain rfl := hunique _ _ _ _ ha ha'
      exact ih h₂

/-- If a step keeps a property exactly where its condition is met, a run keeps it exactly where
all its steps meet theirs. -/
theorem iff_forall {Inv P : σ → Prop} {cond : σ → α → Prop} {s s' : σ} {as : List α}
    (h : Runs step s as s') (hunique : ∀ s a s₁ s₂, step s a s₁ → step s a s₂ → s₁ = s₂)
    (hstep : ∀ s a s', Inv s → step s a s' → Inv s' ∧ (P s' ↔ P s ∧ cond s a)) (hs : Inv s) :
    P s' ↔ P s ∧ ∀ pre a post t, as = pre ++ a :: post → Runs step s pre t → cond t a := by
  induction h with
  | nil s => simp
  | @cons s t s' a as ha _ ih =>
    obtain ⟨ht, hP⟩ := hstep s a t hs ha
    rw [ih ht, hP, and_assoc]
    refine and_congr_right fun _ ↦ ?_
    constructor
    · rintro ⟨hcond, hrest⟩ pre b post u heq hrun
      cases hrun with
      | nil _ =>
        obtain ⟨rfl, -⟩ := List.cons.inj heq
        exact hcond
      | cons hfirst hrun =>
        obtain ⟨rfl, rfl⟩ := List.cons.inj heq
        obtain rfl := hunique _ _ _ _ hfirst ha
        exact hrest _ _ _ _ rfl hrun
    · intro hall
      refine ⟨hall [] a as s rfl (.nil s), fun pre b post u heq hrun ↦ ?_⟩
      exact hall (a :: pre) b post u (by rw [heq]; rfl) (.cons ha hrun)

/-- Every action of a run was taken in some state. -/
theorem exists_step {s s' : σ} {as : List α} (h : Runs step s as s') :
    ∀ a ∈ as, ∃ t t', step t a t' := by
  induction h with
  | nil s => exact nofun
  | cons ha _ ih =>
    intro b hb
    rcases List.mem_cons.mp hb with rfl | hb
    · exact ⟨_, _, ha⟩
    · exact ih b hb

end Runs

/-! ### Fallible calls -/

/-- A mapped call succeeds exactly if the call does. -/
theorem except_map_eq_ok {β : Type*} {x : Except ε α} {f : α → β} {b : β} :
    x.map f = .ok b ↔ ∃ a, x = .ok a ∧ f a = b := by
  cases x with
  | error e => exact ⟨nofun, nofun⟩
  | ok a => simp [Except.map]

/-- A sequence succeeds exactly if both calls do. -/
theorem except_bind_eq_ok {α β : Type v} {x : Except ε α} {f : α → Except ε β} {b : β} :
    x >>= f = .ok b ↔ ∃ a, x = .ok a ∧ f a = .ok b := by
  cases x with
  | error e => exact ⟨nofun, nofun⟩
  | ok a => simp [bind, Except.bind]

/-! ### Conditions along a fold -/

section Along
variable {f : σ → α → σ} {C D : σ → α → Prop}

/-- Every action is taken in a state that meets the condition. -/
def Along (f : σ → α → σ) (C : σ → α → Prop) : σ → List α → Prop
  | _, [] => True
  | s, a :: as => C s a ∧ Along f C (f s a) as

instance [∀ s a, Decidable (C s a)] : (s : σ) → (as : List α) → Decidable (Along f C s as)
  | _, [] => .isTrue trivial
  | s, a :: as =>
    have : Decidable (Along f C (f s a) as) := instDecidableAlong (f s a) as
    inferInstanceAs (Decidable (C s a ∧ Along f C (f s a) as))

/-- A condition along a fold, at every element. -/
theorem along_iff_forall {s : σ} {as : List α} :
    Along f C s as ↔ ∀ pre a, pre ++ [a] <+: as → C (pre.foldl f s) a := by
  induction as generalizing s with
  | nil =>
    refine iff_of_true trivial fun pre a h ↦ ?_
    cases pre <;> exact absurd (List.prefix_nil.mp h) (by simp)
  | cons b as ih =>
    rw [Along, ih]
    constructor
    · rintro ⟨hb, hrest⟩ pre a h
      cases pre with
      | nil =>
        obtain ⟨rfl, -⟩ := List.cons_prefix_cons.mp h
        exact hb
      | cons c pre =>
        obtain ⟨rfl, hpre⟩ := List.cons_prefix_cons.mp h
        exact hrest pre a hpre
    · intro h
      refine ⟨h [] b (List.cons_prefix_cons.mpr ⟨rfl, List.nil_prefix⟩), fun pre a hpre ↦ ?_⟩
      exact h (b :: pre) a (List.cons_prefix_cons.mpr ⟨rfl, hpre⟩)

/-- Conditions that agree where an invariant holds, and one of which keeps the invariant, agree
along every fold from a state with the invariant. -/
theorem along_congr {I : σ → Prop} {s : σ} {as : List α} (hs : I s)
    (hstep : ∀ t, ∀ a ∈ as, I t → (C t a ↔ D t a) ∧ (C t a → I (f t a))) :
    Along f C s as ↔ Along f D s as := by
  induction as generalizing s with
  | nil => exact Iff.rfl
  | cons a as ih =>
    obtain ⟨hiff, hkeep⟩ := hstep s a List.mem_cons_self hs
    rw [Along, Along, ← hiff]
    apply and_congr_right
    intro hC
    exact ih (hkeep hC) fun t b hb ↦ hstep t b (List.mem_cons_of_mem _ hb)

/-- A property of the states of a fold, and a condition on its steps. -/
theorem forall_states_iff_along {P : σ → Prop} {s : σ} {as : List α} (hs : P s) :
    ((∀ pre, pre <+: as → P (pre.foldl f s)) ∧ ∀ pre a, pre ++ [a] <+: as → C (pre.foldl f s) a) ↔
      Along f (fun t a ↦ P (f t a) ∧ C t a) s as := by
  rw [along_iff_forall]
  constructor
  · rintro ⟨hP, hC⟩ pre a h
    have hafter := hP _ h
    rw [List.foldl_append] at hafter
    exact ⟨hafter, hC pre a h⟩
  · intro h
    refine ⟨fun pre hpre ↦ ?_, fun pre a hpre ↦ (h pre a hpre).2⟩
    rcases pre.eq_nil_or_concat with rfl | ⟨pre, a, rfl⟩
    · exact hs
    · rw [List.concat_eq_append] at hpre ⊢
      rw [List.foldl_append]
      exact (h pre a hpre).1

end Along

/-! ### Counting along a fold -/

/-- The number of steps of a fold that are taken where `p` holds; steps after a failure are
not taken. -/
def countAlong (f : σ → α → Except ε σ) (p : σ → α → Bool) : σ → List α → Nat
  | _, [] => 0
  | s, a :: as =>
    (p s a).toNat + match f s a with
      | .ok s' => countAlong f p s' as
      | .error _ => 0

/-- A measure that grows by one for every reason that a step has to count grows over the fold
by the sum of the counts. -/
theorem measure_foldlM {f : σ → α → Except ε σ} {p q : σ → α → Bool} {m : σ → Nat}
    (hstep : ∀ s a s', f s a = .ok s' →
      m s' = m s + (p s a).toNat + (q s a).toNat)
    {s s' : σ} {as : List α} (h : as.foldlM f s = .ok s') :
    m s' = m s + countAlong f p s as + countAlong f q s as := by
  rw [Runs.foldlM_eq_ok] at h
  induction h with
  | nil s => simp [countAlong]
  | cons ha _ ih =>
    have h1 := hstep _ _ _ ha
    simp only [countAlong, ha]
    omega

/-- Nothing is counted if the predicate is false wherever the fold gets. -/
theorem countAlong_eq_zero_iff (f : σ → α → Except ε σ) (p : σ → α → Bool) (s : σ)
    (as : List α) : countAlong f p s as = 0 ↔
      ∀ pre a post t, as = pre ++ a :: post → pre.foldlM f s = .ok t → p t a = false := by
  induction as generalizing s with
  | nil => simp [countAlong]
  | cons a as ih =>
    simp only [countAlong, Nat.add_eq_zero_iff]
    constructor
    · rintro ⟨hhead, htail⟩ pre b post t heq hpre
      cases pre with
      | nil =>
        obtain ⟨rfl, rfl⟩ := List.cons.inj heq
        obtain rfl := Except.ok.inj hpre
        simpa using hhead
      | cons c pre =>
        obtain ⟨rfl, rfl⟩ := List.cons.inj heq
        rw [List.foldlM_cons] at hpre
        cases ha : f s a with
        | error e =>
          rw [ha] at hpre
          cases hpre
        | ok s' =>
          rw [ha] at hpre htail
          exact (ih s').mp htail pre b post t rfl hpre
    · intro h
      constructor
      · have hp : p s a = false := h [] a as s rfl rfl
        simp [hp]
      · cases ha : f s a with
        | error e => rfl
        | ok s' =>
          apply (ih s').mpr
          intro pre b post t heq hpre
          apply h (a :: pre) b post t (by rw [heq]; rfl)
          rw [List.foldlM_cons, ha]
          exact hpre

end SMAgent.Base
