import SMAgent.Base.Runes

/-!
# Strings in UTF-16

A JavaScript string is a sequence of 16-bit code units. A Go string becomes one by way of its
runes. ASCII bytes are code units of the same number and stand for themselves, so a text may be
cut at them on either side.
-/

namespace SMAgent.Base

/-- A JavaScript string. -/
abbrev JSString := List UInt16

/-- The code units of a rune: one, or a pair of surrogates. -/
def Rune.units (r : Rune) : JSString :=
  if r < 0x10000 then [r.toUInt16]
  else [(0xd800 + (r - 0x10000) / 0x400 % 0x400).toUInt16,
    (0xdc00 + (r - 0x10000) % 0x400).toUInt16]

/-- An ASCII code unit is a rune of its own. -/
theorem Rune.units_of_mem {r : Rune} {u : UInt16} (h : u ∈ r.units) (hu : u.toNat < 0x80) :
    r = u.toNat ∧ r.units = [u] := by
  unfold units at h ⊢
  split at h
  · next hr =>
    obtain rfl := List.mem_singleton.mp h
    rw [if_pos hr]
    exact ⟨(Nat.mod_eq_of_lt hr).symm, rfl⟩
  · rcases List.mem_cons.mp h with rfl | h
    · simp only [Nat.toUInt16, UInt16.toNat_ofNat'] at hu
      omega
    · rw [List.mem_singleton.mp h] at hu
      simp only [Nat.toUInt16, UInt16.toNat_ofNat'] at hu
      omega

/-- Different bytes are different code units. -/
theorem toUInt16_injective : Function.Injective UInt8.toUInt16 := by
  intro a b h
  apply UInt8.toNat_inj.mp
  simpa using congrArg UInt16.toNat h

private theorem exists_of_flatMap_units {l : List Rune} {x y : JSString} {u : UInt16}
    (hu : u.toNat < 0x80) (h : l.flatMap Rune.units = x ++ u :: y) :
    ∃ l₁ l₂, l = l₁ ++ u.toNat :: l₂ ∧ l₁.flatMap Rune.units = x ∧ l₂.flatMap Rune.units = y := by
  induction l generalizing x with
  | nil => exact absurd h.symm (by simp)
  | cons r l ih =>
    rw [List.flatMap_cons] at h
    rcases List.append_eq_append_iff.mp h with ⟨as, rfl, hrest⟩ | ⟨bs, hr, hrest⟩
    · obtain ⟨l₁, l₂, rfl, rfl, rfl⟩ := ih hrest
      exact ⟨r :: l₁, l₂, rfl, rfl, rfl⟩
    · cases bs with
      | nil =>
        obtain ⟨l₁, l₂, rfl, hl₁, rfl⟩ := ih (x := []) hrest.symm
        refine ⟨r :: l₁, l₂, rfl, ?_, rfl⟩
        rw [List.flatMap_cons, hl₁, hr, List.append_nil, List.append_nil]
      | cons v bs =>
        obtain ⟨rfl, rfl⟩ := List.cons.inj hrest
        have hmem : u ∈ r.units := by
          rw [hr]
          simp
        obtain ⟨rfl, hunits⟩ := Rune.units_of_mem hmem hu
        rw [hunits] at hr
        cases x with
        | nil =>
          obtain rfl := (List.cons.inj hr).2.symm
          exact ⟨[], l, rfl, rfl, rfl⟩
        | cons a x =>
          have hlength := congrArg List.length hr
          simp only [List.length_cons, List.length_nil, List.cons_append, List.length_append]
            at hlength
          omega

namespace GoString

/-- The string in UTF-16. -/
def utf16 (s : GoString) : JSString := s.runes.flatMap Rune.units

@[simp] private theorem utf16_nil : utf16 [] = [] := rfl

private theorem units_ascii {b : UInt8} (hb : b < 0x80) : Rune.units b.toNat = [b.toUInt16] := by
  have hlt := UInt8.lt_iff_toNat_lt.mp hb
  rw [Rune.units, if_pos (Nat.lt_trans hlt (by decide))]
  congr 1
  apply UInt16.toNat_inj.mp
  exact Nat.mod_eq_of_lt (Nat.lt_trans hlt (by decide))

/-- An ASCII byte is a code unit. -/
theorem utf16_cons_ascii {b : UInt8} (hb : b < 0x80) (t : GoString) :
    utf16 (b :: t) = b.toUInt16 :: utf16 t := by
  rw [utf16, runes_cons_ascii hb, List.flatMap_cons, units_ascii hb]
  rfl

/-- An ASCII byte separates what comes before and after. -/
theorem utf16_append_ascii (s : GoString) {b : UInt8} (hb : b < 0x80) (t : GoString) :
    utf16 (s ++ b :: t) = utf16 s ++ utf16 (b :: t) := by
  rw [utf16, runes_append_ascii s hb, List.flatMap_append]
  rfl

/-- ASCII text before any text. -/
theorem utf16_ascii_append {s : GoString} (hs : ∀ b ∈ s, b < 0x80) (t : GoString) :
    utf16 (s ++ t) = s.map UInt8.toUInt16 ++ utf16 t := by
  induction s with
  | nil => rfl
  | cons b s ih =>
    rw [List.cons_append, utf16_cons_ascii (hs b List.mem_cons_self),
      ih fun b' hb' ↦ hs b' (List.mem_cons_of_mem _ hb')]
    rfl

/-- The code units of an ASCII text are its bytes. -/
theorem utf16_ascii {s : GoString} (hs : ∀ b ∈ s, b < 0x80) : utf16 s = s.map UInt8.toUInt16 := by
  have := utf16_ascii_append hs []
  rwa [List.append_nil, utf16_nil, List.append_nil] at this

/-- An ASCII code unit is an ASCII byte. -/
theorem exists_of_utf16_eq {s : GoString} {x y : JSString} {u : UInt16} (hu : u.toNat < 0x80)
    (h : utf16 s = x ++ u :: y) :
    ∃ p b q, s = p ++ b :: q ∧ b < 0x80 ∧ b.toUInt16 = u ∧ utf16 p = x ∧ utf16 q = y := by
  obtain ⟨l₁, l₂, hl, hx, hy⟩ := exists_of_flatMap_units hu h
  obtain ⟨p, b, q, hs, hb, hbu, hp, hq⟩ := exists_of_runes_eq hu hl
  refine ⟨p, b, q, hs, hb, ?_, by rw [utf16, hp, hx], by rw [utf16, hq, hy]⟩
  apply UInt16.toNat_inj.mp
  rw [← hbu]
  rfl

private theorem units_ne_nil (r : Rune) : r.units ≠ [] := by
  unfold Rune.units
  split
  · exact List.cons_ne_nil _ _
  · exact List.cons_ne_nil _ _

/-- Only the empty text has no code units. -/
theorem utf16_eq_nil {s : GoString} (h : utf16 s = []) : s = [] := by
  cases s with
  | nil => rfl
  | cons b s =>
    rw [utf16, runes_cons, List.flatMap_cons] at h
    exact absurd (List.append_eq_nil_iff.mp h).1 (units_ne_nil _)

/-- ASCII code units at the start are ASCII bytes at the start. -/
theorem exists_of_utf16_eq_append {s : GoString} {x y : JSString} (hx : ∀ u ∈ x, u.toNat < 0x80)
    (h : utf16 s = x ++ y) :
    ∃ p q, s = p ++ q ∧ (∀ b ∈ p, b < 0x80) ∧ p.map UInt8.toUInt16 = x ∧ utf16 q = y := by
  induction x generalizing s with
  | nil => exact ⟨[], s, rfl, fun _ hb ↦ absurd hb List.not_mem_nil, rfl, h⟩
  | cons u x ih =>
    obtain ⟨p, b, q, rfl, hb, hbu, hp, hq⟩ :=
      exists_of_utf16_eq (x := []) (hx u List.mem_cons_self) h
    obtain rfl := utf16_eq_nil hp
    obtain ⟨p, q, rfl, hascii, hmap, hrest⟩ := ih (List.forall_mem_cons.mp hx).2 hq
    refine ⟨b :: p, q, rfl, List.forall_mem_cons.mpr ⟨hb, hascii⟩, ?_, hrest⟩
    rw [List.map_cons, hbu, hmap]

/-! ### Bytes as code units -/

private theorem length_units_le (r : Rune) : r.units.length ≤ 2 := by
  unfold Rune.units
  split
  · exact Nat.le_succ 1
  · exact Nat.le_refl 2

private theorem length_units_decodeRune (b : UInt8) (rest : GoString) :
    (decodeRune (b :: rest)).1.units.length < (decodeRune (b :: rest)).2 ∨
      (decodeRune (b :: rest)).1.units.length = 1 ∧ (decodeRune (b :: rest)).2 = 1 ∧
        (b < 0x80 ∨ (decodeRune (b :: rest)).1 = Rune.replacement) := by
  by_cases hb : b < 0x80
  · right
    rw [decodeRune, if_pos hb]
    exact ⟨congrArg List.length (units_ascii hb), rfl, .inl hb⟩
  rcases decodeRune_of_not_ascii hb rest with h | ⟨hwidth, hwide | hsmall⟩
  · right
    rw [h]
    exact ⟨rfl, rfl, .inr rfl⟩
  · left
    exact Nat.lt_of_le_of_lt (length_units_le _) (by omega)
  · left
    rw [Rune.units, if_pos hsmall]
    exact hwidth

private theorem length_drop_width (b : UInt8) (rest : GoString) :
    ((b :: rest).drop (decodeRune (b :: rest)).2).length + (decodeRune (b :: rest)).2 =
      (b :: rest).length := by
  have := (decodeRune_width b rest).2
  rw [List.length_drop]
  omega

/-- A text has at most as many code units as bytes. -/
theorem length_utf16_le (s : GoString) : s.utf16.length ≤ s.length := by
  induction hlen : s.length using Nat.strong_induction_on generalizing s with
  | _ l ih =>
    cases s with
    | nil => exact Nat.zero_le l
    | cons b rest =>
      have hwidth := (decodeRune_width b rest).1
      have hdrop := length_drop_width b rest
      have hrest := ih _ (by omega) ((b :: rest).drop (decodeRune (b :: rest)).2) rfl
      have hunits := length_units_decodeRune b rest
      rw [utf16, runes_cons, List.flatMap_cons, List.length_append]
      rw [utf16] at hrest
      omega

/-- The code units are the bytes exactly if the text is ASCII. -/
theorem utf16_eq_map_iff (s : GoString) :
    s.utf16 = s.map UInt8.toUInt16 ↔ ∀ b ∈ s, b < 0x80 := by
  refine ⟨fun h ↦ ?_, utf16_ascii⟩
  induction s with
  | nil => exact fun _ hb ↦ absurd hb List.not_mem_nil
  | cons b rest ih =>
    have hb : b < 0x80 := by
      have hlen := congrArg List.length h
      have hdrop := length_drop_width b rest
      have hrest := length_utf16_le ((b :: rest).drop (decodeRune (b :: rest)).2)
      rw [utf16, runes_cons, List.flatMap_cons, List.length_append, List.length_map] at hlen
      rw [utf16] at hrest
      rcases length_units_decodeRune b rest with hlt | ⟨-, -, hb | hreplaced⟩
      · omega
      · exact hb
      · -- a replaced byte is no byte
        rw [utf16, runes_cons, hreplaced] at h
        have hunit : (0xfffd : UInt16) = b.toUInt16 := (List.cons.inj h).1
        have hnat := congrArg UInt16.toNat hunit
        rw [UInt8.toNat_toUInt16] at hnat
        exact absurd (hnat ▸ b.toNat_lt) (by decide)
    rw [utf16_cons_ascii hb] at h
    exact List.forall_mem_cons.mpr ⟨hb, ih (List.cons.inj h).2⟩

end GoString
end SMAgent.Base
