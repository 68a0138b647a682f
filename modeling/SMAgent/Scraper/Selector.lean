import SMAgent.Base.Quoted
import SMAgent.Scraper.LabelNames

/-!
# The stream selector

`fmtLabels` (`internal/scraper/scraper.go:1391-1417`) writes the labels of the log stream as a
selector, with the values between quotes as they are. Read by the grammar of selectors, it
denotes the labels exactly when no value has a character that means something between quotes.
-/

namespace SMAgent.Scraper
open SMAgent.Base SMAgent.Pb
open GoString (lit byte)

/-- One round of the loop in `fmtLabels`, after the comma. -/
def fmtPair (pair : LabelPair) : GoString :=
  pair.name ++ [byte '=', byte '"'] ++ pair.value ++ [byte '"']

/-- `fmtLabels`, `scraper.go:1391-1417`. -/
def fmtLabels (labels : List LabelPair) : GoString :=
  if labels.length = 0 then []
  else byte '{' :: (GoString.join (labels.map fmtPair) (byte ',') ++
    [byte '}'])

/-! ### The grammar of selectors -/

/-- White space between tokens. -/
def isBlank (b : UInt8) : Bool := decide (b ∈ lit " \t\r\n")

/-- What follows the white space. -/
def skipBlanks (s : GoString) : GoString := s.dropWhile isBlank

/-- What follows a token of one byte, after white space. -/
def expect (c : Char) (s : GoString) : Option GoString :=
  match skipBlanks s with
  | [] => none
  | b :: rest => if b = byte c then some rest else none

/-- `name="value"`, and what follows. -/
def readPair (s : GoString) : Option (LabelPair × GoString) :=
  let text := skipBlanks s
  let name := text.takeWhile isLabelNameByte
  if isLegalName name then
    (expect '=' (text.dropWhile isLabelNameByte)).bind fun rest ↦
      (expect '"' rest).bind fun rest ↦
        (Quoted.readString rest.length rest).map fun r ↦ (⟨name, r.1⟩, r.2)
  else none

/-- Pairs up to the closing brace, which ends the text. -/
def readPairs : Nat → GoString → Option (List LabelPair)
  | 0, _ => none
  | fuel + 1, s =>
    (readPair s).bind fun r ↦
      match expect ',' r.2 with
      | some rest => (readPairs fuel rest).map (r.1 :: ·)
      | none => (expect '}' r.2).bind fun rest ↦ if skipBlanks rest = [] then some [r.1] else none

/-- The labels that a selector denotes. -/
def parseSelector (s : GoString) : Option (List LabelPair) :=
  (expect '{' s).bind fun rest ↦ readPairs rest.length rest

/-! ### The length of a selector -/

/-- The length of the labels as a selector without escapes and white space, but for the opening
brace. -/
def selectorLength (labels : List LabelPair) : Nat :=
  (labels.map fun l ↦ l.name.length + l.value.length + 4).sum

private theorem length_le_selectorLength (labels : List LabelPair) :
    labels.length ≤ selectorLength labels := by
  induction labels with
  | nil => exact Nat.le_refl 0
  | cons l labels ih =>
    have hsum : selectorLength (l :: labels) =
        l.name.length + l.value.length + 4 + selectorLength labels := List.sum_cons
    rw [hsum, List.length_cons]
    omega

private theorem length_skipBlanks (s : GoString) : (skipBlanks s).length ≤ s.length :=
  (List.dropWhile_sublist _).length_le

private theorem length_expect {c : Char} {s rest : GoString} (h : expect c s = some rest) :
    rest.length + 1 ≤ s.length := by
  unfold expect at h
  split at h
  · cases h
  · next b tail heq =>
    split at h
    · cases h
      have hle := length_skipBlanks s
      rwa [heq, List.length_cons] at hle
    · cases h

private theorem length_readPair {s rest : GoString} {pair : LabelPair}
    (h : readPair s = some (pair, rest)) :
    pair.name.length + pair.value.length + 3 + rest.length ≤ s.length ∧
      (s.length = pair.name.length + pair.value.length + 3 + rest.length →
        Quoted.Plain pair.value) := by
  simp only [readPair] at h
  split at h
  · obtain ⟨afterEq, heq, h⟩ := Option.bind_eq_some_iff.mp h
    obtain ⟨afterQuote, hquote, h⟩ := Option.bind_eq_some_iff.mp h
    obtain ⟨⟨value, rest'⟩, hread, h⟩ := Option.map_eq_some_iff.mp h
    cases h
    obtain ⟨hvalue, hplain⟩ := Quoted.length_readString hread
    have hsplit := congrArg List.length
      (List.takeWhile_append_dropWhile (p := isLabelNameByte) (l := skipBlanks s))
    rw [List.length_append] at hsplit
    have hblank := length_skipBlanks s
    have h1 := length_expect heq
    have h2 := length_expect hquote
    dsimp only at hvalue hplain ⊢
    exact ⟨by omega, fun hlen ↦ hplain (by omega)⟩
  · cases h

private theorem length_readPairs {fuel : Nat} {s : GoString} {labels : List LabelPair}
    (h : readPairs fuel s = some labels) :
    selectorLength labels ≤ s.length ∧
      (s.length = selectorLength labels → ∀ l ∈ labels, Quoted.Plain l.value) := by
  induction fuel generalizing s labels with
  | zero => cases h
  | succ fuel ih =>
    obtain ⟨⟨pair, tail⟩, hpair, h⟩ := Option.bind_eq_some_iff.mp h
    obtain ⟨hle, hplain⟩ := length_readPair hpair
    dsimp only at h
    split at h
    · next rest hcomma =>
      obtain ⟨labels', hread, rfl⟩ := Option.map_eq_some_iff.mp h
      obtain ⟨hle', hplain'⟩ := ih hread
      have hstep := length_expect hcomma
      have hsum : selectorLength (pair :: labels') =
          pair.name.length + pair.value.length + 4 + selectorLength labels' := List.sum_cons
      rw [hsum]
      refine ⟨by omega, fun hlen l hl ↦ ?_⟩
      rcases List.mem_cons.mp hl with rfl | hl
      · exact hplain (by omega)
      · exact hplain' (by omega) l hl
    · obtain ⟨rest, hbrace, h⟩ := Option.bind_eq_some_iff.mp h
      have hstep := length_expect hbrace
      split at h
      · cases h
        have hsum : selectorLength [pair] = pair.name.length + pair.value.length + 4 :=
          List.sum_singleton
        rw [hsum]
        refine ⟨by omega, fun hlen l hl ↦ ?_⟩
        rw [List.mem_singleton.mp hl]
        exact hplain (by omega)
      · cases h

private theorem length_fmtPair (pair : LabelPair) :
    (fmtPair pair).length = pair.name.length + pair.value.length + 3 := by
  simp only [fmtPair, List.length_append, List.length_cons, List.length_nil]
  omega

private theorem join_cons_cons (p q : GoString) (ps : List GoString) (sep : UInt8) :
    GoString.join (p :: q :: ps) sep = p ++ sep :: GoString.join (q :: ps) sep := by
  simp [GoString.join, List.intercalate]

private theorem join_singleton (p : GoString) (sep : UInt8) : GoString.join [p] sep = p := by
  simp [GoString.join, List.intercalate]

private theorem length_join (l : LabelPair) (labels : List LabelPair) :
    (GoString.join ((l :: labels).map fmtPair) (byte ',')).length + 1 =
      selectorLength (l :: labels) := by
  induction labels generalizing l with
  | nil =>
    rw [List.map_singleton, join_singleton, length_fmtPair]
    exact List.sum_singleton.symm
  | cons m labels ih =>
    have hsum : selectorLength (l :: m :: labels) =
        l.name.length + l.value.length + 4 + selectorLength (m :: labels) := List.sum_cons
    rw [hsum, ← ih m, List.map_cons, List.map_cons, join_cons_cons, List.length_append,
      List.length_cons, length_fmtPair]
    omega

private theorem plain_of_parseSelector {labels : List LabelPair} (hne : labels ≠ [])
    (h : parseSelector (fmtLabels labels) = some labels) : ∀ l ∈ labels, Quoted.Plain l.value := by
  obtain ⟨l, tail, rfl⟩ := List.exists_cons_of_ne_nil hne
  obtain ⟨rest, hbrace, hread⟩ := Option.bind_eq_some_iff.mp h
  obtain ⟨hle, hplain⟩ := length_readPairs hread
  have hstep := length_expect hbrace
  have hlength : (fmtLabels (l :: tail)).length = 1 + selectorLength (l :: tail) := by
    rw [fmtLabels, if_neg (by simp), List.length_cons, List.length_append, ← length_join]
    simp only [List.length_cons, List.length_nil]
    omega
  exact hplain (by omega)

/-! ### Reading a selector back -/

private theorem skipBlanks_cons {b : UInt8} (h : isBlank b = false) (rest : GoString) :
    skipBlanks (b :: rest) = b :: rest :=
  List.dropWhile_cons_of_neg (by rw [h]; exact Bool.false_ne_true)

private theorem expect_self {c : Char} (h : isBlank (byte c) = false) (rest : GoString) :
    expect c (byte c :: rest) = some rest := by
  rw [expect, skipBlanks_cons h]
  exact if_pos rfl

private theorem expect_ne {c : Char} {b : UInt8} (h : isBlank b = false)
    (hne : b ≠ byte c) (rest : GoString) : expect c (b :: rest) = none := by
  rw [expect, skipBlanks_cons h]
  exact if_neg hne

private theorem isBlank_of_isLabelNameByte {b : UInt8} (h : isLabelNameByte b = true) :
    isBlank b = false := by
  have hall : ∀ b ∈ lit " \t\r\n", isLabelNameByte b = false := by
    decide +kernel
  apply decide_eq_false
  intro hb
  rw [hall b hb] at h
  cases h

private theorem takeWhile_name {name : GoString} (h : isLegalName name = true) (rest : GoString) :
    let text := name ++ byte '=' :: rest
    skipBlanks text = text ∧ text.takeWhile isLabelNameByte = name ∧
      text.dropWhile isLabelNameByte = byte '=' :: rest := by
  obtain ⟨b, tail, rfl⟩ : ∃ b tail, name = b :: tail := by
    cases name with
    | nil => cases h
    | cons b tail => exact ⟨b, tail, rfl⟩
  simp only [isLegalName, Bool.and_eq_true, List.all_eq_true] at h
  have hall : ∀ c ∈ b :: tail, isLabelNameByte c = true := by
    intro c hc
    rcases List.mem_cons.mp hc with rfl | hc
    · exact h.1.1
    · exact h.2 c hc
  have hnot : ¬ isLabelNameByte (byte '=') = true := by decide
  refine ⟨skipBlanks_cons (isBlank_of_isLabelNameByte h.1.1) _, ?_, ?_⟩
  · rw [List.takeWhile_append_of_pos hall, List.takeWhile_cons_of_neg hnot,
      List.append_nil]
  · rw [List.dropWhile_append_of_pos hall, List.dropWhile_cons_of_neg hnot]

private theorem readPair_fmtPair {pair : LabelPair} (hname : isLegalName pair.name = true)
    (hvalue : Quoted.Plain pair.value) (rest : GoString) :
    readPair (fmtPair pair ++ rest) = some (pair, rest) := by
  have htext : fmtPair pair ++ rest = pair.name ++ byte '=' :: byte '"' ::
      (pair.value ++ byte '"' :: rest) := by
    simp [fmtPair]
  obtain ⟨hskip, htake, hdrop⟩ := takeWhile_name hname
    (byte '"' :: (pair.value ++ byte '"' :: rest))
  have hread : Quoted.readString (pair.value ++ byte '"' :: rest).length
      (pair.value ++ byte '"' :: rest) = some (pair.value, rest) :=
    Quoted.readString_plain hvalue (by simp) rest
  rw [readPair, htext]
  simp only [hskip, htake, hdrop]
  rw [if_pos hname, expect_self (by decide), Option.bind_some, expect_self (by decide),
    Option.bind_some, hread]
  rfl

private theorem readPairs_join {fuel : Nat} (l : LabelPair) (labels : List LabelPair)
    (hfuel : labels.length < fuel) (hnames : ∀ x ∈ l :: labels, isLegalName x.name = true)
    (hvalues : ∀ x ∈ l :: labels, Quoted.Plain x.value) :
    readPairs fuel (GoString.join ((l :: labels).map fmtPair) (byte ',') ++
      [byte '}']) = some (l :: labels) := by
  induction fuel generalizing l labels with
  | zero => exact absurd hfuel (Nat.not_lt_zero _)
  | succ fuel ih =>
    have hpair := readPair_fmtPair (hnames l List.mem_cons_self) (hvalues l List.mem_cons_self)
    cases labels with
    | nil =>
      rw [List.map_singleton, join_singleton, readPairs, hpair, Option.bind_some,
        expect_ne (by decide) (by decide), expect_self (by decide)]
      rfl
    | cons m labels =>
      rw [List.map_cons, List.map_cons, join_cons_cons, List.append_assoc, readPairs, hpair,
        Option.bind_some, List.cons_append, expect_self (by decide)]
      have hrest := ih m labels (Nat.lt_of_succ_lt_succ hfuel)
        (List.forall_mem_cons.mp hnames).2
        (List.forall_mem_cons.mp hvalues).2
      rw [List.map_cons] at hrest
      simp only [hrest, Option.map_some]

private theorem parseSelector_of_plain {labels : List LabelPair} (hne : labels ≠ [])
    (hnames : ∀ x ∈ labels, isLegalName x.name = true)
    (hvalues : ∀ x ∈ labels, Quoted.Plain x.value) :
    parseSelector (fmtLabels labels) = some labels := by
  obtain ⟨l, tail, rfl⟩ := List.exists_cons_of_ne_nil hne
  rw [fmtLabels, if_neg (by simp), parseSelector, expect_self (by decide), Option.bind_some]
  apply readPairs_join l tail _ hnames hvalues
  have hlength := length_join l tail
  have hsum := length_le_selectorLength (l :: tail)
  rw [List.length_append]
  simp only [List.length_cons, List.length_nil] at hsum ⊢
  omega

/-- The selector of a log stream denotes its labels exactly when their values are plain. -/
theorem parseSelector_fmtLabels_iff (s : ScraperConfig) (mode : LabelMode) (maxLogLabels : Int)
    (success : Bool) (labels : List LabelPair)
    (hlabels : streamLabels (s.logLabels mode) maxLogLabels success = .ok labels)
    (hnames : ∀ l ∈ labels, isLegalName l.name = true) :
    parseSelector (fmtLabels labels) = some labels ↔ ∀ l ∈ labels, Quoted.Plain l.value := by
  have hne : labels ≠ [] := by
    rw [streamLabels_eq_ok hlabels]
    exact List.append_ne_nil_of_right_ne_nil _ (List.cons_ne_nil _ _)
  exact ⟨plain_of_parseSelector hne, parseSelector_of_plain hne hnames⟩

/-- The labels of a plain check are read back. -/
theorem parseSelector_team : ∃ labels,
    streamLabels ((labelledScript [] [⟨.lit "team", .lit "a b"⟩]).logLabels .prefixed) 15 true =
        .ok labels ∧
      parseSelector (fmtLabels labels) = some labels :=
  ⟨_, rfl, (parseSelector_fmtLabels_iff (labelledScript [] [⟨.lit "team", .lit "a b"⟩]) .prefixed
    15 true _ rfl (by decide +kernel)).mpr (by decide +kernel)⟩

/-- A quote in a value ends it, and the rest is read as one more label. -/
theorem not_parseSelector_quote :
    let s := labelledScript [] [⟨.lit "team", .lit "a\",b=\"c"⟩]
    s.check.validate Stdlib.permissive = .ok none ∧ s.probe.validate = none ∧
      ∃ labels, streamLabels (s.logLabels .prefixed) 15 true = .ok labels ∧
        (∀ l ∈ labels, isLegalName l.name = true) ∧
        (parseSelector (fmtLabels labels)).map List.length = some (labels.length + 1) ∧
        parseSelector (fmtLabels labels) ≠ some labels := by
  exact ⟨rfl, rfl, _, rfl, by decide, by decide +kernel, by decide +kernel⟩

end SMAgent.Scraper
