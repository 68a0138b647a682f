import Mathlib.Data.Option.Basic

/-!
# Decoding over a destination

`encoding/gob` sends a structure field by field and leaves out the fields that are zero and
the pointers that are nil. The decoder leaves a field it is sent nothing for as it is, and
decodes into what a pointer already points to. A decoded value therefore replaces the
destination only when it sets every field that the destination has set.
-/

namespace SMAgent.Base

universe u

/-- A type as the encoder and the decoder treat it. -/
class Gob (α : Type u) where
  /-- the zero value -/
  zero : α
  /-- `overwrite dst src` is `dst` after `src` was encoded and decoded into it -/
  overwrite : α → α → α
  /-- `Covers src dst`: what is set in `dst` is set in `src` -/
  Covers : α → α → Prop

namespace Gob

/-- What decoding gives in a destination of its own. -/
def fresh {α : Type u} [Gob α] (x : α) : α := overwrite zero x

/-- A type whose values are sent as a whole, or left out. -/
@[reducible]
def scalar {α : Type u} (zero : α) (omitted : α → Bool) : Gob α where
  zero
  overwrite dst src := if omitted src then dst else src
  Covers src dst := omitted src = true → omitted dst = true

/-- A pointer; a nil one is left out, and one that is not nil is followed. -/
instance pointer {α : Type u} [Gob α] : Gob (Option α) where
  zero := none
  overwrite
    | dst, none => dst
    | none, some src => some (fresh src)
    | some dst, some src => some (overwrite dst src)
  Covers
    | none, dst => dst = none
    | some _, none => True
    | some src, some dst => Covers src dst

instance : Gob Int := scalar 0 (· == 0)

instance slice {α : Type u} : Gob (List α) := scalar [] List.isEmpty

end Gob

/-- Decoding forgets what the destination held as far as the value covers it. -/
class LawfulGob (α : Type u) [Gob α] : Prop where
  overwrite_fresh : ∀ {src dst : α}, Gob.Covers src dst →
    Gob.overwrite (Gob.fresh dst) src = Gob.fresh src
  fresh_fresh : ∀ x : α, Gob.fresh (Gob.fresh x) = Gob.fresh x

namespace LawfulGob

variable {α : Type u}

/-- Scalars are lawful when their zero value is left out. -/
theorem scalar {zero : α} {omitted : α → Bool} (h : omitted zero = true) :
    @LawfulGob α (Gob.scalar zero omitted) := by
  let := Gob.scalar zero omitted
  have hfresh : ∀ x : α, Gob.fresh x = if omitted x then zero else x := fun _ ↦ rfl
  refine { overwrite_fresh := ?_, fresh_fresh := ?_ }
  · intro src dst hc
    change (if omitted src then Gob.fresh dst else src) = Gob.fresh src
    rw [hfresh, hfresh]
    cases hs : omitted src with
    | true => rw [if_pos rfl, if_pos rfl, if_pos (hc hs)]
    | false => rfl
  · intro x
    simp only [hfresh]
    cases hx : omitted x with
    | true => simp [h]
    | false => simp [hx]

instance pointer [Gob α] [LawfulGob α] : LawfulGob (Option α) where
  overwrite_fresh {src dst} hc := by
    cases src with
    | none =>
      obtain rfl := show dst = none from hc
      rfl
    | some src =>
      cases dst with
      | none => rfl
      | some dst => exact congrArg some (overwrite_fresh hc)
  fresh_fresh x := by
    cases x with
    | none => rfl
    | some x => exact congrArg some (fresh_fresh x)

instance : LawfulGob Int := scalar rfl

instance slice {β : Type u} : LawfulGob (List β) := scalar rfl

end LawfulGob
end SMAgent.Base
