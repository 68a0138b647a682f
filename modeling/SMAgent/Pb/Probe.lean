import SMAgent.Pb.Validate

/-!
# Probes and reserved label names

`pkg/pb/synthetic_monitoring/checks_extra.go:135-213` and `1103-1157`: the message `Probe`
with the fields that validation and the labels read, its validation, and the label names
that the agent reserves for itself. What a valid probe or check says about its labels is
collected at the end.
-/

namespace SMAgent.Pb
open SMAgent.Base

/-- A `float32` coordinate by its bit pattern. -/
structure Coordinate where
  bits : UInt32
  deriving DecidableEq, Repr

namespace Coordinate

/-- The bits without the sign, signed: ordered as the numbers are, with one zero. -/
def rank (x : Coordinate) : Int :=
  if 2 ^ 31 ≤ x.bits.toNat then - (x.bits.toNat % 2 ^ 31 : Nat) else x.bits.toNat

/-- Not a number. -/
def isNaN (x : Coordinate) : Bool := decide (0x7f800000 < x.bits.toNat % 2 ^ 31)

/-- `x < -limit || x > limit`, for the bits of a positive limit; false of a NaN. -/
def exceeds (x : Coordinate) (limit : Nat) : Bool := !x.isNaN && decide (limit < x.rank.natAbs)

end Coordinate

/-- `Probe`, `checks.pb.go:807-825`. -/
structure Probe where
  tenantId : Int := 0
  name : GoString := []
  latitude : Coordinate := ⟨0⟩
  longitude : Coordinate := ⟨0⟩
  labels : List Label := []
  region : GoString := []
  deriving DecidableEq, Repr

/-- `Probe.Validate`, `checks_extra.go:1103-1131`; 90 and 180 are given by their bits. -/
def Probe.validate (p : Probe) : Option ValidationError :=
  firstError [
    reject (p.tenantId < 0) .invalidTenantId,
    reject (p.name = []) .invalidProbeName,
    reject (p.labels.length > 3) .tooManyProbeLabels,
    p.labels.findSome? Label.validate,
    reject (p.latitude.exceeds 0x42b40000 = true) .invalidProbeLatitude,
    reject (p.longitude.exceeds 0x43340000 = true) .invalidProbeLongitude]

/-- `systemLabels`, `checks_extra.go:163-194`. -/
def systemLabels : List GoString :=
  ["check", "check_name", "cipher", "config_version", "execution_id", "fingerprint_sha256",
    "frequency", "geohash", "instance", "issuer", "job", "le", "method", "name", "phase",
    "probe", "probe_success", "proto", "rating", "result", "scenario", "serialnumber",
    "sm_region", "source", "status", "subject", "subjectalternative", "tls_version", "url",
    "version"].map GoString.lit

/-- `IsSystemLabel`, `checks_extra.go:209-213`. -/
def isSystemLabel (name : GoString) : Bool := decide (name ∈ systemLabels)

/-! ### What validation says about labels -/

/-- A byte of `[a-zA-Z0-9_]`. -/
def isLabelNameByte (b : UInt8) : Bool := isLabelNameRune b.toNat

private theorem isLabelNameRune_of_le (r : Rune) (h : 0x80 ≤ r) : isLabelNameRune r = false := by
  have hletter : ∀ lo hi : Char, hi.toNat < 0x80 → r.within lo hi = false := by
    intro lo hi hhi
    apply decide_eq_false
    rintro ⟨-, hr⟩
    exact absurd (le_trans h hr) (Nat.not_le_of_lt hhi)
  simp only [isLabelNameRune, isLetterOrDigit, hletter _ 'z' (by decide),
    hletter _ 'Z' (by decide), hletter _ '9' (by decide), Bool.or_self, Bool.false_or]
  exact beq_false_of_ne fun hr ↦ by
    rw [hr] at h
    exact absurd h (by decide)

/-- What `Label.Validate` accepts. -/
structure Label.Valid (l : Label) : Prop where
  name_ne_nil : l.name ≠ []
  name_bytes : ∀ b ∈ l.name, isLabelNameByte b = true
  value_ne_nil : l.value ≠ []
  value_length : l.value.length ≤ 128

private theorem ne_nil_of_validateLabelValue {v : GoString} (h : validateLabelValue v = none) :
    v ≠ [] ∧ v.length ≤ 128 := by
  obtain ⟨hne, hle⟩ := not_or.mp ((reject_eq_none _ _).mp h)
  exact ⟨fun hv ↦ hne (by rw [hv]; rfl), Nat.le_of_not_lt hle⟩

/-- A label that passes is valid. -/
theorem Label.valid_of_validate {l : Label} (h : l.validate = none) : l.Valid := by
  have hrules := (firstError_eq_none _).mp h
  rw [List.forall_mem_cons, List.forall_mem_cons, List.forall_mem_cons] at hrules
  obtain ⟨hname, hrunes, hvalue, -⟩ := hrules
  have hlen := not_not.mp ((reject_eq_none _ _).mp hname)
  have hall : l.name.runes.all isLabelNameRune = true := by
    simpa using (reject_eq_none _ _).mp hrunes
  exact {
    name_ne_nil := (ne_nil_of_validateLabelValue hlen).1
    name_bytes := fun b hb ↦
      (GoString.forall_mem_of_runes_all isLabelNameRune_of_le l.name hall b hb).2
    value_ne_nil := (ne_nil_of_validateLabelValue hvalue).1
    value_length := (ne_nil_of_validateLabelValue hvalue).2 }

/-- The labels of a valid probe are valid; their names may repeat. -/
theorem Probe.labels_valid {p : Probe} (h : p.validate = none) : ∀ l ∈ p.labels, l.Valid := by
  have hlabels : p.labels.findSome? Label.validate = none :=
    (firstError_eq_none _).mp h _ (by simp)
  exact fun l hl ↦ Label.valid_of_validate (List.findSome?_eq_none_iff.mp hlabels l hl)

/-- The labels of a valid check are valid. -/
theorem Check.labels_valid {lib : Stdlib} {c : Check} (h : c.validate lib = .ok none) :
    ∀ l ∈ c.labels, l.Valid := by
  have hlabels := (validateLabels_eq_none _).mp (c.validateLabels_of_validate lib h)
  exact fun l hl ↦ Label.valid_of_validate (hlabels.1 l hl)

/-- The label names of a valid check do not repeat. -/
theorem Check.nodup_label_names {lib : Stdlib} {c : Check} (h : c.validate lib = .ok none) :
    (c.labels.map Label.name).Nodup :=
  ((validateLabels_eq_none _).mp (c.validateLabels_of_validate lib h)).2

end SMAgent.Pb
