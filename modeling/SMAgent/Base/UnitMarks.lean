import SMAgent.Base.Replacements
import SMAgent.Base.Utf16

/-!
# ASCII placeholders in UTF-16

Placeholders that are written in ASCII are the same in the bytes of a text and in its UTF-16 code
units. So a text that is cut in bytes is cut at the same places as a string.
-/

namespace SMAgent.Base.Placeholders
open GoString

/-- An ASCII code unit whose byte is in the class. -/
def unitClass (p : UInt8 → Bool) (u : UInt16) : Bool := decide (u.toNat < 0x80) && p u.toUInt8

private theorem unitClass_toUInt16 (p : UInt8 → Bool) {b : UInt8} (hb : b < 0x80) :
    unitClass p b.toUInt16 = p b := by
  have hlt : b.toNat < 0x80 := UInt8.lt_iff_toNat_lt.mp hb
  simp [unitClass, hlt]

private theorem unitClass_eq_false {p : UInt8 → Bool} {b : UInt8} (hb : p b = false) :
    unitClass p b.toUInt16 = false := by
  simp [unitClass, hb]

private theorem ascii_of_unitClass {p : UInt8 → Bool} {u : UInt16} (h : unitClass p u = true) :
    u.toNat < 0x80 := by
  rw [unitClass, Bool.and_eq_true] at h
  exact of_decide_eq_true h.1

namespace Marks

/-- The same marks in code units. -/
def units (m : Marks UInt8) : Marks UInt16 where
  mark := m.mark.toUInt16
  opening := m.opening.toUInt16
  closing := m.closing.toUInt16
  isStart := unitClass m.isStart
  isLetter := unitClass m.isLetter
  isLetter_of_isStart u h := by
    rw [unitClass, Bool.and_eq_true] at h ⊢
    exact ⟨h.1, m.isLetter_of_isStart _ h.2⟩
  isLetter_mark := unitClass_eq_false m.isLetter_mark
  isLetter_closing := unitClass_eq_false m.isLetter_closing
  mark_ne_opening h := m.mark_ne_opening (toUInt16_injective h)
  mark_ne_closing h := m.mark_ne_closing (toUInt16_injective h)

/-- Marks and names are ASCII. -/
structure Ascii (m : Marks UInt8) : Prop where
  mark : m.mark < 0x80
  opening : m.opening < 0x80
  closing : m.closing < 0x80
  letter : ∀ b, m.isLetter b = true → b < 0x80

namespace Ascii
variable {m : Marks UInt8} (hm : m.Ascii)
include hm

/-! ### Names -/

/-- Names are ASCII. -/
theorem name {n : GoString} (hn : m.IsName n) : ∀ b ∈ n, b < 0x80 :=
  fun b hb ↦ hm.letter b (hn.2 b hb)

/-- Placeholders are ASCII. -/
theorem wrap {n : GoString} (hn : m.IsName n) : ∀ b ∈ m.wrap n, b < 0x80 := by
  intro b hb
  rcases List.mem_cons.mp hb with rfl | hb
  · exact hm.mark
  rcases List.mem_cons.mp hb with rfl | hb
  · exact hm.opening
  rcases List.mem_append.mp hb with hb | hb
  · exact hm.name hn b hb
  · rw [List.mem_singleton.mp hb]
    exact hm.closing

/-- The code units of a name are its bytes. -/
theorem utf16_name {n : GoString} (hn : m.IsName n) : n.utf16 = n.map UInt8.toUInt16 :=
  utf16_ascii (hm.name hn)

/-- A name is a name in code units. -/
theorem isName_utf16 {n : GoString} (hn : m.IsName n) : m.units.IsName n.utf16 := by
  have hascii := hm.name hn
  rw [hm.utf16_name hn]
  constructor
  · cases n with
    | nil => cases hn.1
    | cons b n => exact (unitClass_toUInt16 _ (hascii b List.mem_cons_self)).trans hn.1
  · intro u hu
    obtain ⟨b, hb, rfl⟩ := List.mem_map.mp hu
    exact (unitClass_toUInt16 _ (hascii b hb)).trans (hn.2 b hb)

/-- A placeholder is a placeholder in code units. -/
theorem utf16_wrap_append {n : GoString} (hn : m.IsName n) (t : GoString) :
    utf16 (m.wrap n ++ t) = m.units.wrap n.utf16 ++ t.utf16 := by
  rw [utf16_ascii_append (hm.wrap hn), hm.utf16_name hn, Marks.wrap, Marks.wrap]
  simp only [List.map_cons, List.map_append, List.map_nil]
  rfl

/-- A text that ends before a placeholder. -/
theorem utf16_append_wrap (s : GoString) {n : GoString} (hn : m.IsName n) (t : GoString) :
    utf16 (s ++ (m.wrap n ++ t)) = s.utf16 ++ (m.units.wrap n.utf16 ++ t.utf16) := by
  rw [← hm.utf16_wrap_append hn]
  exact utf16_append_ascii s hm.mark _

/-- A placeholder in the code units is one in the bytes. -/
theorem exists_of_utf16_wrap {s : GoString} {n x y : JSString} (hn : m.units.IsName n)
    (h : s.utf16 = x ++ (m.units.wrap n ++ y)) :
    ∃ p k q, s = p ++ (m.wrap k ++ q) ∧ m.IsName k ∧ utf16 k = n := by
  have hunit {b : UInt8} (hb : b < 0x80) : b.toUInt16.toNat < 0x80 := by
    rw [UInt8.toNat_toUInt16]
    exact UInt8.lt_iff_toNat_lt.mp hb
  obtain ⟨p, b, q, rfl, hb, hmark, -, hq⟩ := exists_of_utf16_eq (hunit hm.mark) h
  have hletters : ∀ u ∈ m.units.opening :: (n ++ [m.units.closing]), u.toNat < 0x80 := by
    intro u hu
    rcases List.mem_cons.mp hu with rfl | hu
    · exact hunit hm.opening
    rcases List.mem_append.mp hu with hu | hu
    · exact ascii_of_unitClass (hn.2 u hu)
    · rw [List.mem_singleton.mp hu]
      exact hunit hm.closing
  obtain ⟨r, t, rfl, hr, hmap, -⟩ := exists_of_utf16_eq_append hletters hq
  -- the bytes between the mark and the rest are those of a placeholder
  obtain ⟨o, r, rfl, ho, hr'⟩ := List.map_eq_cons_iff.mp hmap
  obtain ⟨k, c, rfl, hk, hc⟩ := List.map_eq_append_iff.mp hr'
  obtain ⟨c, c', rfl, hclose, hnil⟩ := List.map_eq_cons_iff.mp hc
  obtain rfl := List.map_eq_nil_iff.mp hnil
  obtain rfl : b = m.mark := toUInt16_injective hmark
  obtain rfl : o = m.opening := toUInt16_injective ho
  obtain rfl : c = m.closing := toUInt16_injective hclose
  have hascii : ∀ b ∈ k, b < 0x80 := fun b hb ↦
    hr b (List.mem_cons_of_mem _ (List.mem_append_left _ hb))
  have hname : m.IsName k := by
    subst hk
    constructor
    · cases k with
      | nil => cases hn.1
      | cons b k =>
        exact (unitClass_toUInt16 _ (hascii b List.mem_cons_self)).symm.trans hn.1
    · intro b hb
      exact (unitClass_toUInt16 _ (hascii b hb)).symm.trans (hn.2 _ (List.mem_map_of_mem hb))
  refine ⟨p, k, t, ?_, hname, (hm.utf16_name hname).trans hk⟩
  simp [Marks.wrap]

/-! ### Cuts -/

/-- Letters in the bytes are letters in the code units. -/
theorem parts_utf16_letters {s : GoString} (h : m.parts s = s.map .letter) :
    m.units.parts s.utf16 = s.utf16.map .letter := by
  apply m.units.parts_eq_letters
  intro n hn
  obtain ⟨x, y, hxy⟩ := m.units.exists_of_mem_parts hn
  obtain ⟨p, k, q, rfl, hk, -⟩ := hm.exists_of_utf16_wrap (m.units.isName_of_mem_parts hn) hxy
  have hmem : .name k ∈ m.parts (p ++ (m.wrap k ++ q)) := by
    rw [m.parts_append_wrap p hk]
    simp
  rw [h] at hmem
  obtain ⟨b, -, hb⟩ := List.mem_map.mp hmem
  cases hb

variable {s : GoString} {pieces : List (GoString × GoString)} {tail : GoString}

/-- The parts of a text in UTF-16, by the pieces of its bytes. -/
theorem parts_utf16 (h : m.Cut s pieces tail) :
    m.units.parts s.utf16 =
      pieces.flatMap (fun p ↦ p.1.utf16.map .letter ++ [.name p.2.utf16]) ++
        tail.utf16.map .letter := by
  induction h with
  | done hletters => exact hm.parts_utf16_letters hletters
  | next hletters hname _ ih =>
    rw [hm.utf16_append_wrap _ hname, m.units.parts_append_wrap _ (hm.isName_utf16 hname),
      hm.parts_utf16_letters hletters, ih, List.flatMap_cons]
    simp only [List.append_assoc, List.cons_append, List.nil_append]

/-- The names of a text in UTF-16. -/
theorem names_utf16 (h : m.Cut s pieces tail) :
    m.units.names s.utf16 = pieces.map fun p ↦ p.2.utf16 := by
  have hletters (t : JSString) : (t.map Part.letter).filterMap Part.name? = [] := by
    rw [List.filterMap_map]
    exact List.filterMap_eq_nil_iff.mpr fun u _ ↦ rfl
  rw [Marks.names, hm.parts_utf16 h, List.filterMap_append, hletters, List.append_nil]
  clear h
  induction pieces with
  | nil => rfl
  | cons p pieces ih =>
    rw [List.flatMap_cons, List.filterMap_append, List.filterMap_append, hletters, ih]
    rfl

/-- A substitution in a text in UTF-16. -/
theorem subst_utf16 (h : m.Cut s pieces tail) (σ : JSString → JSString) :
    m.units.subst σ s.utf16 =
      pieces.flatMap (fun p ↦ p.1.utf16 ++ σ p.2.utf16) ++ tail.utf16 := by
  induction h with
  | done hletters => exact m.units.subst_letters (hm.parts_utf16_letters hletters) σ
  | next hletters hname _ ih =>
    rw [hm.utf16_append_wrap _ hname, m.units.subst_append_wrap (hm.isName_utf16 hname),
      m.units.subst_letters (hm.parts_utf16_letters hletters), ih, List.flatMap_cons]
    simp only [List.append_assoc]

end Ascii
end Marks

end SMAgent.Base.Placeholders
