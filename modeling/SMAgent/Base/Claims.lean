import Mathlib.Logic.Equiv.Basic

/-!
# Exclusive claims on slots

Each of a family of processes may claim a slot at a value. Claims are exclusive if a claimed
slot holds the claimed value and no two processes claim the same slot. A process that claims
a slot, or finds it empty, may write it; a claim may be handed over.
-/

namespace SMAgent.Base

variable {γ κ ν : Type*}

/-- Claimed slots hold the claimed values, and each has one claimant. -/
structure Exclusive (claim : γ → Option (κ × ν)) (slot : κ → Option ν) : Prop where
  slot_of_claim : ∀ {g k v}, claim g = some (k, v) → slot k = some v
  unique : ∀ {g g' k v v'}, claim g = some (k, v) → claim g' = some (k, v') → g = g'

namespace Exclusive

variable {claim : γ → Option (κ × ν)} {slot : κ → Option ν}

/-- Without claims nothing is claimed twice. -/
theorem nobody : Exclusive (fun _ : γ ↦ none) slot where
  slot_of_claim := nofun
  unique := nofun

/-- Whoever may write a slot is the only one that can claim it. -/
theorem eq_of_claim (h : Exclusive claim slot) {g : γ} {k : κ}
    (hg : slot k = none ∨ ∃ v, claim g = some (k, v)) {g' : γ} {v' : ν}
    (hg' : claim g' = some (k, v')) : g' = g := by
  rcases hg with hk | ⟨v, hv⟩
  · cases hk.symm.trans (h.slot_of_claim hg')
  · exact h.unique hg' hv

variable [DecidableEq γ]

/-- A process that claims a slot, or claims nothing and finds the slot empty, writes it and
claims what it wrote. -/
theorem write [DecidableEq κ] (h : Exclusive claim slot) {g : γ} {k : κ}
    (hg : (slot k = none ∧ claim g = none) ∨ ∃ v, claim g = some (k, v)) (w : Option ν) :
    Exclusive (Function.update claim g (w.map (k, ·))) (Function.update slot k w) := by
  have honly {g' : γ} {v' : ν} : claim g' = some (k, v') → g' = g :=
    h.eq_of_claim (hg.imp_left And.left)
  have hnew {k' : κ} {v : ν} (hw : w.map (k, ·) = some (k', v)) : k' = k ∧ w = some v := by
    obtain ⟨w', hw', heq⟩ := Option.map_eq_some_iff.mp hw
    obtain ⟨rfl, rfl⟩ := Prod.mk.inj heq
    exact ⟨rfl, hw'⟩
  constructor
  · intro g' k' v' hc
    by_cases hgg : g' = g
    · rw [hgg, Function.update_self] at hc
      obtain ⟨rfl, hw⟩ := hnew hc
      rw [Function.update_self, hw]
    · rw [Function.update_of_ne hgg] at hc
      have hkk : k' ≠ k := by
        rintro rfl
        exact hgg (honly hc)
      rw [Function.update_of_ne hkk]
      exact h.slot_of_claim hc
  · intro g₁ g₂ k' v₁ v₂ h₁ h₂
    by_cases hg₁ : g₁ = g <;> by_cases hg₂ : g₂ = g
    · rw [hg₁, hg₂]
    · rw [hg₁, Function.update_self] at h₁
      rw [Function.update_of_ne hg₂] at h₂
      obtain ⟨rfl, -⟩ := hnew h₁
      exact absurd (honly h₂) hg₂
    · rw [hg₂, Function.update_self] at h₂
      rw [Function.update_of_ne hg₁] at h₁
      obtain ⟨rfl, -⟩ := hnew h₂
      exact absurd (honly h₁) hg₁
    · rw [Function.update_of_ne hg₁] at h₁
      rw [Function.update_of_ne hg₂] at h₂
      exact h.unique h₁ h₂

/-- A process hands its claim, if any, to one that has none. -/
theorem handOver (h : Exclusive claim slot) {g g' : γ} (hg' : claim g' = none) :
    Exclusive (Function.update (Function.update claim g none) g' (claim g)) slot := by
  -- after the swap of the two names the claims are the same
  have hswap (p : γ) : Function.update (Function.update claim g none) g' (claim g) p =
      claim (Equiv.swap g g' p) := by
    by_cases hp' : p = g'
    · rw [hp', Function.update_self, Equiv.swap_apply_right]
    · rw [Function.update_of_ne hp']
      by_cases hp : p = g
      · rw [hp, Function.update_self, Equiv.swap_apply_left, hg']
      · rw [Function.update_of_ne hp, Equiv.swap_apply_of_ne_of_ne hp hp']
  constructor
  · intro p k v hc
    exact h.slot_of_claim ((hswap p).symm.trans hc)
  · intro p p' k v v' hc hc'
    exact (Equiv.swap g g').injective
      (h.unique ((hswap p).symm.trans hc) ((hswap p').symm.trans hc'))

end Exclusive
end SMAgent.Base
