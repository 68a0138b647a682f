import SMAgent.Pb.Validate

/-!
# The grammar of hosts

`checks_extra.go:1312-1318`, `1353-1363` and `1417-1509`. The rules of a label look at its runes,
and its length is counted in bytes. A label that passes is made of ASCII bytes, so what is accepted
has a grammar in bytes.
-/

namespace SMAgent.Pb
open SMAgent.Base
open GoString (byte)

/-! ### The functions with their reads of slices -/

/-- `runes[i]`. -/
def runeAt (runes : List Rune) (i : Nat) : Except Panic Rune :=
  (runes[i]?).elim (.error .indexOutOfRange) .ok

namespace Panicking

/-- `checks_extra.go:1448-1509`. -/
def validateFQHNLabel (label : GoString) (isLast : Bool) :
    Except Panic (Option ValidationError) := do
  if label.length = 0 ∨ label.length > 63 then return some .invalidFQDNElementLength
  let runes := label.runes
  let first ← runeAt runes 0
  if isLetterOrDigit first = false then return some .invalidFQHNElement
  let last ← runeAt runes (runes.length - 1)
  if isLetterOrDigit last = false then return some .invalidFQHNElement
  if isLast ∧ runes.all (Rune.within · '0' '9') then return some .invalidFQHNElement
  if runes.all (fun r ↦ isLetterOrDigit r || r == Rune.ofChar '-') = false then
    return some .invalidFQHNElement
  return none

/-- `checks_extra.go:1427-1446`. -/
def checkFQHN (fqhn : GoString) : Except Panic (Option ValidationError) := do
  if fqhn.length = 0 ∨ fqhn.length > 255 then return some .invalidFQDNLength
  let labels := fqhn.split (byte '.')
  if labels.length < 2 then return some .invalidFQHNElements
  firstOutcome (labels.zipIdx.map fun x ↦ validateFQHNLabel x.1 (x.2 == labels.length - 1))

variable (lib : Stdlib)

/-- `checks_extra.go:1312-1318`. -/
def validateHost (target : GoString) : Except Panic (Option ValidationError) :=
  if lib.parseIP target then .ok none else checkFQHN target

/-- `checks_extra.go:1353-1363`. -/
def validateHostPort (target : GoString) : Except Panic (Option ValidationError) :=
  target.splitHostPort.elim (.ok (some .invalidCheckTarget)) fun (host, port) ↦ do
    if (← validateHost lib host) ≠ none then return some .invalidHostname
    if (port.parseUint 16).getD 0 = 0 then return some .invalidPort
    return none

end Panicking

/-! ### No read is out of range -/

private theorem runeAt_zero {runes : List Rune} (h : runes ≠ []) :
    ∃ r, runeAt runes 0 = .ok r ∧ runes.head? = some r := by
  obtain ⟨r, rest, rfl⟩ := List.exists_cons_of_ne_nil h
  exact ⟨r, rfl, rfl⟩

private theorem runeAt_last {runes : List Rune} (h : runes ≠ []) :
    ∃ r, runeAt runes (runes.length - 1) = .ok r ∧ runes.getLast? = some r := by
  refine ⟨runes.getLast h, ?_, List.getLast?_eq_some_getLast h⟩
  rw [runeAt, ← List.getLast?_eq_getElem?, List.getLast?_eq_some_getLast h]
  rfl

private theorem runes_ne_nil {s : GoString} (h : s ≠ []) : s.runes ≠ [] := by
  obtain ⟨b, rest, rfl⟩ := List.exists_cons_of_ne_nil h
  rw [GoString.runes_cons]
  exact List.cons_ne_nil _ _

private theorem firstError_reject (bad : Prop) [Decidable bad] (err : ValidationError)
    (rules : List (Option ValidationError)) :
    firstError (reject bad err :: rules) = if bad then some err else firstError rules := by
  unfold reject
  split <;> rfl

private theorem firstError_singleton (rule : Option ValidationError) :
    firstError [rule] = rule := by
  cases rule <;> rfl

private theorem firstOutcome_map {α : Type} (f : α → Option ValidationError) (l : List α) :
    firstOutcome (l.map fun x ↦ .ok (f x)) = .ok (l.findSome? f) := by
  induction l with
  | nil => rfl
  | cons x l ih =>
    rw [List.map_cons, List.findSome?_cons]
    cases f x with
    | none => exact ih
    | some err => rfl

private theorem panicking_validateFQHNLabel (label : GoString) (isLast : Bool) :
    Panicking.validateFQHNLabel label isLast = .ok (validateFQHNLabel label isLast) := by
  simp only [Panicking.validateFQHNLabel, validateFQHNLabel, firstError_reject]
  by_cases hlength : label.length = 0 ∨ label.length > 63
  · simp only [if_pos hlength]
    rfl
  · have hne : label ≠ [] := fun h ↦ hlength (.inl (by rw [h]; rfl))
    obtain ⟨first, hfirst, hhead⟩ := runeAt_zero (runes_ne_nil hne)
    obtain ⟨last, hlast, hlast'⟩ := runeAt_last (runes_ne_nil hne)
    simp only [if_neg hlength, hfirst, hlast, hhead, hlast', Option.all_some, bind, Except.bind]
    split
    · rfl
    · split
      · rfl
      · split
        · rfl
        · split
          · rfl
          · rfl

private theorem panicking_checkFQHN (fqhn : GoString) :
    Panicking.checkFQHN fqhn = .ok (checkFQHN fqhn) := by
  simp only [Panicking.checkFQHN, checkFQHN, firstError_reject, panicking_validateFQHNLabel,
    firstOutcome_map]
  split
  · rfl
  · split
    · rfl
    · rw [firstError_singleton]
      rfl

section
variable (lib : Stdlib)

private theorem panicking_validateHost (target : GoString) :
    Panicking.validateHost lib target = .ok (validateHost lib target) := by
  unfold Panicking.validateHost validateHost
  split
  · rfl
  · exact panicking_checkFQHN target

private theorem panicking_validateHostPort (target : GoString) :
    Panicking.validateHostPort lib target = .ok (validateHostPort lib target) := by
  unfold Panicking.validateHostPort validateHostPort
  cases target.splitHostPort with
  | none => rfl
  | some parts =>
    obtain ⟨host, port⟩ := parts
    simp only [Option.elim, panicking_validateHost, firstError_reject, bind, Except.bind]
    split
    · rfl
    · split
      · rfl
      · rfl

end

/-! ### The grammar -/

/-- An ASCII letter or digit. -/
def isAlphanumeric (b : UInt8) : Bool := isLetterOrDigit b.toNat

/-- A text of ASCII letters, digits and dashes. -/
def LabelBytes (label : GoString) : Prop :=
  ∀ b ∈ label, isAlphanumeric b = true ∨ b = byte '-'

/-- A label of a host name. -/
structure HostLabel (label : GoString) : Prop where
  one_le_length : 1 ≤ label.length
  length_le : label.length ≤ 63
  bytes : LabelBytes label
  first : ∃ b, label.head? = some b ∧ isAlphanumeric b = true
  last : ∃ b, label.getLast? = some b ∧ isAlphanumeric b = true

/-- A label with a byte that is not a digit. -/
def HasNonDigit (label : GoString) : Prop := ∃ b ∈ label, GoString.isDigit b = false

/-- A host name: labels with dots between them. -/
structure HostName (s : GoString) : Prop where
  one_le_length : 1 ≤ s.length
  length_le : s.length ≤ 255
  two_le_labels : 2 ≤ (s.split (byte '.')).length
  labels : ∀ label ∈ s.split (byte '.'), HostLabel label
  last : ∃ label, (s.split (byte '.')).getLast? = some label ∧ HasNonDigit label

/-- A decimal number of a port. -/
structure PortNumber (port : GoString) : Prop where
  ne_nil : port ≠ []
  digits : ∀ b ∈ port, GoString.isDigit b = true
  one_le : 1 ≤ port.foldl (fun n b ↦ n * 10 + (b.toNat - 48)) 0
  le : port.foldl (fun n b ↦ n * 10 + (b.toNat - 48)) 0 ≤ 65535

private theorem within_digits (b : UInt8) :
    Rune.within b.toNat '0' '9' = GoString.isDigit b := by
  have h0 : (byte '0').toNat = '0'.toNat := rfl
  have h9 : (byte '9').toNat = '9'.toNat := rfl
  simp only [Rune.within, GoString.isDigit, UInt8.le_iff_toNat_le, h0, h9]

private theorem isLetterOrDigit_of_le {r : Nat} (h : 0x80 ≤ r) : isLetterOrDigit r = false := by
  have hwithin (lo hi : Char) (hhi : hi.toNat < 0x80) : Rune.within r lo hi = false :=
    decide_eq_false fun hr ↦ absurd (hr.2.trans_lt hhi) (Nat.not_lt.mpr h)
  rw [isLetterOrDigit, hwithin _ _ (by decide), hwithin _ _ (by decide), hwithin _ _ (by decide)]
  rfl

private theorem toNat_eq_dash {b : UInt8} : b.toNat = Rune.ofChar '-' ↔ b = byte '-' := by
  have hdash : Rune.ofChar '-' = (byte '-').toNat := rfl
  rw [hdash, UInt8.toNat_inj]

private theorem runes_of_labelBytes {label : GoString} (h : LabelBytes label) :
    label.runes = label.map UInt8.toNat := by
  apply GoString.runes_of_ascii
  intro b hb
  rcases h b hb with halpha | rfl
  · by_contra hlarge
    have hle : 0x80 ≤ b.toNat := UInt8.le_iff_toNat_le.mp (UInt8.not_lt.mp hlarge)
    rw [isAlphanumeric, isLetterOrDigit_of_le hle] at halpha
    cases halpha
  · decide

private theorem runes_all_iff (label : GoString) :
    label.runes.all (fun r ↦ isLetterOrDigit r || r == Rune.ofChar '-') = true ↔
      LabelBytes label := by
  have hbyte (b : UInt8) : (isLetterOrDigit b.toNat || b.toNat == Rune.ofChar '-') = true ↔
      isAlphanumeric b = true ∨ b = byte '-' := by
    rw [Bool.or_eq_true, beq_iff_eq, toNat_eq_dash, isAlphanumeric]
  have hlarge (r : Nat) (hr : 0x80 ≤ r) :
      (isLetterOrDigit r || r == Rune.ofChar '-') = false := by
    have hdash : ¬ r = Rune.ofChar '-' := Nat.ne_of_gt (Nat.lt_of_lt_of_le (by decide) hr)
    rw [isLetterOrDigit_of_le hr, beq_false_of_ne hdash]
    rfl
  constructor
  · intro h b hb
    exact (hbyte b).mp (GoString.forall_mem_of_runes_all hlarge label h b hb).2
  · intro h
    rw [runes_of_labelBytes h, List.all_map, List.all_eq_true]
    intro b hb
    exact (hbyte b).mpr (h b hb)

/-- What the rules of a label accept. -/
theorem validateFQHNLabel_eq_none (label : GoString) (isLast : Bool) :
    validateFQHNLabel label isLast = none ↔
      HostLabel label ∧ (isLast = true → HasNonDigit label) := by
  have hdigits (hbytes : LabelBytes label) :
      label.runes.all (Rune.within · '0' '9') = true ↔ ¬ HasNonDigit label := by
    rw [runes_of_labelBytes hbytes, List.all_map, List.all_eq_true]
    simp only [Function.comp_apply, within_digits, HasNonDigit, not_exists, not_and,
      Bool.not_eq_false]
  simp only [validateFQHNLabel, firstError_eq_none, List.mem_cons, List.not_mem_nil, or_false,
    forall_eq_or_imp, forall_eq, reject_eq_none, Bool.not_eq_false, runes_all_iff]
  constructor
  · rintro ⟨hlength, hfirst, hlast, hnumeric, hbytes⟩
    have hne : label ≠ [] := fun h ↦ hlength (.inl (by rw [h]; rfl))
    rw [runes_of_labelBytes hbytes, List.head?_map, List.head?_eq_some_head hne] at hfirst
    rw [runes_of_labelBytes hbytes, List.getLast?_map, List.getLast?_eq_some_getLast hne] at hlast
    rw [hdigits hbytes] at hnumeric
    refine ⟨⟨by omega, by omega, hbytes, ⟨_, List.head?_eq_some_head hne, hfirst⟩,
      ⟨_, List.getLast?_eq_some_getLast hne, hlast⟩⟩, fun h ↦ ?_⟩
    by_contra hnone
    exact hnumeric ⟨h, hnone⟩
  · rintro ⟨hlabel, hlast⟩
    obtain ⟨first, hfirst, halphaFirst⟩ := hlabel.first
    obtain ⟨last, hlast', halphaLast⟩ := hlabel.last
    have hone := hlabel.one_le_length
    have hle := hlabel.length_le
    refine ⟨by omega, ?_, ?_, ?_, hlabel.bytes⟩
    · rw [runes_of_labelBytes hlabel.bytes, List.head?_map, hfirst]
      exact halphaFirst
    · rw [runes_of_labelBytes hlabel.bytes, List.getLast?_map, hlast']
      exact halphaLast
    · rw [hdigits hlabel.bytes]
      rintro ⟨h, hnone⟩
      exact hnone (hlast h)

private theorem validateEachLabel_eq_none (labels : List GoString) :
    validateEachLabel validateFQHNLabel labels = none ↔
      (∀ label ∈ labels, HostLabel label) ∧ ∀ label, labels.getLast? = some label →
        HasNonDigit label := by
  rw [validateEachLabel, List.findSome?_eq_none_iff]
  constructor
  · intro h
    have hrule (i : Nat) (label : GoString) (hi : labels[i]? = some label) :
        HostLabel label ∧ ((i == labels.length - 1) = true → HasNonDigit label) :=
      (validateFQHNLabel_eq_none label _).mp
        (h (label, i) (List.mk_mem_zipIdx_iff_getElem?.mpr hi))
    refine ⟨fun label hlabel ↦ ?_, fun label hlast ↦ ?_⟩
    · obtain ⟨i, hi⟩ := List.mem_iff_getElem?.mp hlabel
      exact (hrule i label hi).1
    · rw [List.getLast?_eq_getElem?] at hlast
      exact (hrule _ label hlast).2 (beq_self_eq_true _)
  · rintro ⟨hlabels, hlast⟩ ⟨label, i⟩ hmem
    have hi : labels[i]? = some label := List.mk_mem_zipIdx_iff_getElem?.mp hmem
    refine (validateFQHNLabel_eq_none label _).mpr ⟨hlabels label (List.mem_of_getElem? hi), ?_⟩
    intro heq
    rw [beq_iff_eq] at heq
    rw [heq, ← List.getLast?_eq_getElem?] at hi
    exact hlast label hi

private theorem checkFQHN_eq_none (s : GoString) : checkFQHN s = none ↔ HostName s := by
  simp only [checkFQHN, firstError_eq_none, List.mem_cons, List.not_mem_nil, or_false,
    forall_eq_or_imp, forall_eq, reject_eq_none, validateEachLabel_eq_none]
  constructor
  · rintro ⟨hlength, hlabels, hall, hlast⟩
    have hne : s.split (byte '.') ≠ [] := by
      apply List.ne_nil_of_length_pos
      omega
    have hget := List.getLast?_eq_some_getLast hne
    exact ⟨by omega, by omega, by omega, hall, ⟨_, hget, hlast _ hget⟩⟩
  · intro h
    have hone := h.one_le_length
    have hle := h.length_le
    have htwo := h.two_le_labels
    refine ⟨by omega, by omega, h.labels, fun label hlabel ↦ ?_⟩
    obtain ⟨last, hlast, hdigit⟩ := h.last
    obtain rfl := Option.some.inj (hlast.symm.trans hlabel)
    exact hdigit

private theorem parseUint_ne_zero (port : GoString) :
    (port.parseUint 16).getD 0 ≠ 0 ↔ PortNumber port := by
  unfold GoString.parseUint
  split
  · next hbad =>
    refine iff_of_false (fun h ↦ h rfl) fun h ↦ ?_
    rw [Bool.or_eq_true, List.isEmpty_iff, Bool.not_eq_true', List.all_eq_false] at hbad
    rcases hbad with hnil | ⟨b, hb, hdigit⟩
    · exact h.ne_nil hnil
    · exact hdigit (h.digits b hb)
  · next hgood =>
    rw [Bool.or_eq_true, List.isEmpty_iff, Bool.not_eq_true', not_or, Bool.not_eq_false,
      List.all_eq_true] at hgood
    generalize hn : port.foldl (fun n b ↦ n * 10 + (b.toNat - 48)) 0 = n
    simp only
    split
    · next hlt =>
      constructor
      · intro h
        exact ⟨hgood.1, hgood.2, by rw [hn]; exact Nat.pos_of_ne_zero h, by rw [hn]; omega⟩
      · intro h
        have hone := h.one_le
        rw [hn] at hone
        exact Nat.ne_of_gt hone
    · next hge =>
      refine iff_of_false (fun h ↦ h rfl) fun h ↦ ?_
      have hle := h.le
      rw [hn] at hle
      omega

section
variable (lib : Stdlib)

private theorem validateHost_eq_none (s : GoString) :
    validateHost lib s = none ↔ lib.parseIP s = true ∨ HostName s := by
  unfold validateHost
  split
  · next h => exact iff_of_true rfl (.inl h)
  · next h => rw [checkFQHN_eq_none, or_iff_right h]

/-- `checks_extra.go:1312-1318` and `1353-1363`. Hosts, and hosts with a port: no call panics, and
what is accepted is what the grammar says. -/
theorem validateHost_grammar (s : GoString) :
    (∃ result, Panicking.validateHost lib s = .ok result) ∧
    (Panicking.validateHost lib s = .ok none ↔ lib.parseIP s = true ∨ HostName s) ∧
    (∃ result, Panicking.validateHostPort lib s = .ok result) ∧
    (Panicking.validateHostPort lib s = .ok none ↔
      ∃ host port, s.splitHostPort = some (host, port) ∧
        (lib.parseIP host = true ∨ HostName host) ∧ PortNumber port) := by
  rw [panicking_validateHost, panicking_validateHostPort]
  refine ⟨⟨_, rfl⟩, ?_, ⟨_, rfl⟩, ?_⟩
  · rw [Except.ok.injEq, validateHost_eq_none]
  · rw [Except.ok.injEq]
    unfold validateHostPort
    split
    · next hsplit =>
      refine iff_of_false (fun h ↦ by cases h) ?_
      rintro ⟨host, port, h, -⟩
      rw [hsplit] at h
      cases h
    · next host port hsplit =>
      simp only [firstError_eq_none, List.mem_cons, List.not_mem_nil, or_false, forall_eq_or_imp,
        forall_eq, reject_eq_none, not_not, validateHost_eq_none]
      rw [← ne_eq, parseUint_ne_zero]
      constructor
      · intro h
        exact ⟨host, port, hsplit, h⟩
      · rintro ⟨host', port', h, hvalid⟩
        rw [hsplit] at h
        cases h
        exact hvalid

end
end SMAgent.Pb
