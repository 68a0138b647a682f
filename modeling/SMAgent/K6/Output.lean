import SMAgent.Base.Float64

/-!
# The output of a k6 run

`internal/k6runner/local.go:179-227` and `369-406`. A file that is larger than its limit is cut
after the last newline of the buffer it is read into. The buffer of the logs starts with a line of
its own, so there is a newline in it; the buffer of the metrics starts empty, and a file without a
newline up to the limit is cut in the middle of a line.
-/

namespace SMAgent.K6
open SMAgent.Base

/-- `afero.Fs`: the contents of the files that can be opened. -/
abbrev Fs := GoString → Option GoString

/-- An error of `readFileLimit`. -/
inductive ReadError where
  | opening
  deriving DecidableEq, Repr

/-- `'\n'`. -/
def newline : UInt8 := GoString.byte '\n'

/-- `bytes.LastIndexByte`; `none` is -1. -/
def lastIndexByte (c : UInt8) : GoString → Option Nat
  | [] => none
  | b :: s => ((lastIndexByte c s).map (· + 1)).or (if b = c then some 0 else none)

/-- `existing.Truncate` after the last newline, `local.go:399-403`. -/
def rewind (existing : GoString) : GoString :=
  ((lastIndexByte newline existing).map fun i ↦ existing.take (i + 1)).getD existing

/-- `readFileLimit`, `local.go:374-406`. -/
def readFileLimit (fs : Fs) (name : GoString) (limit : Nat) (existing : GoString) :
    Except ReadError (GoString × Bool) :=
  match fs name with
  | none => .error .opening
  | some content =>
    let copied := content.take limit
    let existing := existing ++ copied
    if copied.length < limit then .ok (existing, false)
    -- The read of one byte more is at the end of the file.
    else if content.drop limit = [] then .ok (existing, false)
    else .ok (rewind existing, true)

/-- `maxLogsSizeBytes`. -/
def maxLogsSizeBytes : Nat := 255 * 1024

/-- `maxMetricsSizeBytes`. -/
def maxMetricsSizeBytes : Nat := 100 * 1024

/-- What the notices at the end of the logs say. -/
def truncationNotice (subject : String) (limit : Nat) : GoString :=
  .lit "level=error msg=\"" ++ .lit subject ++ .lit " output truncated at " ++
    GoString.formatInt limit ++ .lit " bytes\"\n"

/-- The line that the logs start with, `local.go:189-195`; `quote` is the verb `%q`. -/
def versionLine (quote : GoString → GoString) (start manifest version path : GoString) :
    GoString :=
  .lit "time=" ++ quote start ++ .lit " level=info k6ChannelManifest=" ++ quote manifest ++
    .lit " k6version=" ++ quote version ++ .lit " k6Path=" ++ quote path ++
    .lit " msg=\"Check will be run with resolved k6 version\"\n"

/-- The outputs of `RunResponse`. -/
structure Output where
  logs : GoString
  metrics : GoString
  deriving DecidableEq, Repr

/-- The outputs of `Local.Run`, `local.go:187-227`. -/
def readOutput (fs : Fs) (logsFn metricsFn logsBuf : GoString) : Except ReadError Output := do
  let (logs, truncated) ← readFileLimit fs logsFn maxLogsSizeBytes logsBuf
  let logs := if truncated then logs ++ truncationNotice "Log" maxLogsSizeBytes else logs
  let (metrics, truncated) ← readFileLimit fs metricsFn maxMetricsSizeBytes []
  let logs := if truncated then logs ++ truncationNotice "Metrics" maxMetricsSizeBytes else logs
  return ⟨logs, metrics⟩

/-! ### Lines -/

/-- A text after which a new line begins. -/
def EndsLine (s : GoString) : Prop := s = [] ∨ ∃ p, s = p ++ [newline]

/-- The longest part at the start that is empty or ends with a newline. -/
structure LongestLines (s p : GoString) : Prop where
  isPrefix : p <+: s
  endsLine : EndsLine p
  longest : ∀ q, q <+: s → EndsLine q → q.length ≤ p.length

private theorem EndsLine.append_newline (p : GoString) : EndsLine (p ++ [newline]) := .inr ⟨p, rfl⟩

private theorem longestLines_nil {s : GoString} (h : newline ∉ s) : LongestLines s [] where
  isPrefix := List.nil_prefix
  endsLine := .inl rfl
  longest q hq hends := by
    rcases hends with rfl | ⟨p, rfl⟩
    · exact Nat.le_refl 0
    · exact absurd (hq.subset (by simp)) h

private theorem longestLines_append {p q : GoString} (h : newline ∉ q) :
    LongestLines (p ++ newline :: q) (p ++ [newline]) where
  isPrefix := ⟨q, by simp⟩
  endsLine := .append_newline p
  longest r hr hends := by
    rcases hends with rfl | ⟨r, rfl⟩
    · exact Nat.zero_le _
    · obtain ⟨t, ht⟩ := hr
      -- Otherwise the newline that `r` is followed by stands in `q`.
      by_contra hlong
      simp only [List.length_append, List.length_cons, List.length_nil] at hlong
      have hget : (p ++ newline :: q)[r.length]? = some newline := by
        rw [← ht]
        simp
      rw [List.getElem?_append_right (by omega), List.getElem?_cons,
        if_neg (by omega)] at hget
      exact h (List.mem_of_getElem? hget)

/-! ### The last newline -/

private theorem lastIndexByte_eq_none {c : UInt8} {s : GoString} (h : c ∉ s) :
    lastIndexByte c s = none := by
  induction s with
  | nil => rfl
  | cons b s ih =>
    rw [List.mem_cons, not_or] at h
    rw [lastIndexByte, ih h.2, if_neg (Ne.symm h.1)]
    rfl

private theorem lastIndexByte_append {c : UInt8} {q : GoString} (h : c ∉ q) (p : GoString) :
    lastIndexByte c (p ++ c :: q) = some p.length := by
  induction p with
  | nil =>
    rw [List.nil_append, lastIndexByte, lastIndexByte_eq_none h, if_pos rfl]
    rfl
  | cons b p ih =>
    rw [List.cons_append, lastIndexByte, ih]
    rfl

private theorem rewind_append {q : GoString} (h : newline ∉ q) (p : GoString) :
    rewind (p ++ newline :: q) = p ++ [newline] := by
  rw [rewind, lastIndexByte_append h, Option.map_some, Option.getD_some]
  simp [List.take_append]

private theorem rewind_of_notMem {s : GoString} (h : newline ∉ s) : rewind s = s := by
  rw [rewind, lastIndexByte_eq_none h]
  rfl

private theorem exists_last_newline {s : GoString} (h : newline ∈ s) :
    ∃ p q, s = p ++ newline :: q ∧ newline ∉ q := by
  obtain ⟨q, p, hs, hq⟩ := List.eq_append_cons_of_mem (List.mem_reverse.mpr h)
  refine ⟨p.reverse, q.reverse, ?_, fun hmem ↦ hq (List.mem_reverse.mp hmem)⟩
  rw [← List.reverse_reverse s, hs]
  simp

/-! ### Files larger than their limit -/

section Limit
variable {fs : Fs} {name c e : GoString} {limit : Nat}

private theorem readFileLimit_of_le (hopen : fs name = some c) (h : c.length ≤ limit)
    (e : GoString) : readFileLimit fs name limit e = .ok (e ++ c, false) := by
  simp only [readFileLimit, hopen, List.take_of_length_le h, List.drop_of_length_le h]
  split <;> rfl

private theorem readFileLimit_of_lt (hopen : fs name = some c) (h : limit < c.length)
    (e : GoString) : readFileLimit fs name limit e = .ok (rewind (e ++ c.take limit), true) := by
  have hcopied : ¬ (c.take limit).length < limit := by
    rw [List.length_take]
    omega
  have hmore : c.drop limit ≠ [] := by
    rw [ne_eq, List.drop_eq_nil_iff]
    omega
  simp only [readFileLimit, hopen, if_neg hcopied, if_neg hmore]

/-- The flag says whether the file is larger than the limit. -/
theorem exists_readFileLimit (hopen : fs name = some c) (limit : Nat) (e : GoString) :
    ∃ out, readFileLimit fs name limit e = .ok (out, decide (limit < c.length)) := by
  by_cases h : limit < c.length
  · exact ⟨_, by rw [readFileLimit_of_lt hopen h, decide_eq_true h]⟩
  · exact ⟨_, by rw [readFileLimit_of_le hopen (Nat.not_lt.mp h), decide_eq_false h]⟩

private theorem rewind_append_of_endsLine {t : GoString} (he : EndsLine e)
    (h : e ≠ [] ∨ newline ∈ t) : ∃ kept, rewind (e ++ t) = e ++ kept ∧ LongestLines t kept := by
  by_cases hmem : newline ∈ t
  · obtain ⟨p, q, rfl, hq⟩ := exists_last_newline hmem
    refine ⟨p ++ [newline], ?_, longestLines_append hq⟩
    rw [← List.append_assoc, rewind_append hq, List.append_assoc]
  · obtain ⟨p, rfl⟩ := he.resolve_left (h.resolve_right hmem)
    refine ⟨[], ?_, longestLines_nil hmem⟩
    rw [List.append_assoc, List.singleton_append, rewind_append hmem, List.append_nil]

private theorem not_longestLines_rewind {t kept : GoString} (ht : t ≠ []) (h : newline ∉ t)
    (heq : rewind t = kept) : ¬ LongestLines t kept := by
  rw [rewind_of_notMem h] at heq
  subst heq
  intro hlines
  obtain ⟨p, rfl⟩ := hlines.endsLine.resolve_left ht
  simp at h

end Limit

private theorem truncationNotice_endsLine (subject : String) (limit : Nat) (s : GoString) :
    EndsLine (s ++ truncationNotice subject limit) := by
  refine .inr ⟨s ++ (.lit "level=error msg=\"" ++ .lit subject ++ .lit " output truncated at " ++
    GoString.formatInt limit ++ .lit " bytes\""), ?_⟩
  rw [truncationNotice, List.append_assoc s, List.append_assoc _ _ [newline]]
  rfl

private theorem versionLine_endsLine (quote : GoString → GoString)
    (start manifest version path : GoString) :
    ∃ p, versionLine quote start manifest version path = p ++ [newline] := by
  refine ⟨.lit "time=" ++ quote start ++ .lit " level=info k6ChannelManifest=" ++ quote manifest ++
    .lit " k6version=" ++ quote version ++ .lit " k6Path=" ++ quote path ++
    .lit " msg=\"Check will be run with resolved k6 version\"", ?_⟩
  rw [versionLine, List.append_assoc _ _ [newline]]
  rfl

private theorem readOutput_of_truncated {fs : Fs} {logsFn metricsFn c m : GoString}
    (hlogs : fs logsFn = some c) (hmetrics : fs metricsFn = some m)
    (hlarge : maxLogsSizeBytes < c.length) (quote : GoString → GoString)
    (start manifest version path : GoString) :
    ∃ lines metrics, EndsLine lines ∧ EndsLine (lines ++ truncationNotice "Log" maxLogsSizeBytes) ∧
      readOutput fs logsFn metricsFn (versionLine quote start manifest version path) =
        .ok ⟨lines ++ truncationNotice "Log" maxLogsSizeBytes ++
          (if maxMetricsSizeBytes < m.length then truncationNotice "Metrics" maxMetricsSizeBytes
            else []), metrics⟩ := by
  obtain ⟨p, hp⟩ := versionLine_endsLine quote start manifest version path
  obtain ⟨kept, hkept, hlines⟩ := rewind_append_of_endsLine (t := c.take maxLogsSizeBytes)
    (hp ▸ EndsLine.append_newline p) (.inl (by rw [hp]; simp))
  have hends : EndsLine (versionLine quote start manifest version path ++ kept) := by
    rcases hlines.endsLine with rfl | ⟨q, rfl⟩
    · rw [List.append_nil, hp]
      exact .append_newline p
    · rw [← List.append_assoc]
      exact .append_newline _
  obtain ⟨metrics, hread⟩ := exists_readFileLimit hmetrics maxMetricsSizeBytes []
  refine ⟨_, metrics, hends, truncationNotice_endsLine _ _ _, ?_⟩
  rw [readOutput, readFileLimit_of_lt hlogs hlarge, hkept, hread]
  by_cases hm : maxMetricsSizeBytes < m.length
  · rw [if_pos hm, decide_eq_true hm]
    rfl
  · rw [if_neg hm, decide_eq_false hm, List.append_nil]
    rfl

/-- `local.go:369-406`. A file beyond the limit is cut between two lines exactly if the buffer was
not empty or a newline was copied into it. The logs of `Local.Run` are read into a buffer that is
not empty, so the notices stand on lines of their own. -/
theorem readFileLimit_lines_iff {fs : Fs} {name c e : GoString} (limit : Nat)
    (hopen : fs name = some c) (hlimit : 0 < limit) (he : EndsLine e) :
    ((∃ kept, readFileLimit fs name limit e = .ok (e ++ kept, decide (limit < c.length)) ∧
        (c.length ≤ limit → kept = c) ∧
        (limit < c.length → LongestLines (c.take limit) kept)) ↔
      c.length ≤ limit ∨ e ≠ [] ∨ newline ∈ c.take limit) ∧
    ∀ logsFn metricsFn content m, fs logsFn = some content → fs metricsFn = some m →
      maxLogsSizeBytes < content.length → ∀ quote start manifest version path,
      ∃ lines metrics, EndsLine lines ∧
        EndsLine (lines ++ truncationNotice "Log" maxLogsSizeBytes) ∧
        readOutput fs logsFn metricsFn (versionLine quote start manifest version path) =
          .ok ⟨lines ++ truncationNotice "Log" maxLogsSizeBytes ++
            (if maxMetricsSizeBytes < m.length then truncationNotice "Metrics" maxMetricsSizeBytes
              else []), metrics⟩ := by
  constructor
  · by_cases hle : c.length ≤ limit
    · refine iff_of_true ⟨c, ?_, fun _ ↦ rfl, fun hlt ↦ absurd hlt (Nat.not_lt.mpr hle)⟩ (.inl hle)
      rw [readFileLimit_of_le hopen hle, decide_eq_false (Nat.not_lt.mpr hle)]
    · have hlt := Nat.not_le.mp hle
      rw [readFileLimit_of_lt hopen hlt, decide_eq_true hlt]
      constructor
      · rintro ⟨kept, hkept, -, hlines⟩
        by_contra hnone
        simp only [not_or, not_not] at hnone
        obtain ⟨-, rfl, hnewline⟩ := hnone
        have hne : c.take limit ≠ [] := by
          apply List.ne_nil_of_length_pos
          rw [List.length_take]
          omega
        simp only [List.nil_append, Except.ok.injEq, Prod.mk.injEq, and_true] at hkept
        exact not_longestLines_rewind hne hnewline hkept (hlines hlt)
      · intro h
        obtain ⟨kept, hkept, hlines⟩ := rewind_append_of_endsLine he (h.resolve_left hle)
        exact ⟨kept, by rw [hkept], fun h ↦ absurd h hle, fun _ ↦ hlines⟩
  · intro logsFn metricsFn content m hlogs hmetrics hlarge
    exact readOutput_of_truncated hlogs hmetrics hlarge

/-- A file system whose files all have this content. -/
def everyFile (content : GoString) : Fs := fun _ ↦ some content

/-- The second line is cut. -/
theorem readFileLimit_lines_two :
    ∃ kept, readFileLimit (everyFile (.lit "a\nbc")) (.lit "metrics") 3 [] =
        .ok ([] ++ kept, true) ∧ LongestLines (.lit "a\nb") kept := by
  have hopen : everyFile (.lit "a\nbc") (.lit "metrics") = some (.lit "a\nbc") := rfl
  obtain ⟨kept, hread, -, hlines⟩ :=
    (readFileLimit_lines_iff 3 hopen (by decide) (.inl rfl)).1.mpr (by decide)
  exact ⟨kept, hread, hlines (by decide)⟩

/-- A file without a newline is cut in the middle of a line. -/
theorem readFileLimit_cuts_line :
    readFileLimit (everyFile (.lit "abcd")) (.lit "metrics") 3 [] = .ok (.lit "abc", true) ∧
      ¬ EndsLine (.lit "abc") ∧ LongestLines (.lit "abc") [] := by
  refine ⟨by decide, ?_, longestLines_nil (by decide)⟩
  rintro (h | ⟨p, hp⟩)
  · cases h
  · have hmem : newline ∈ GoString.lit "abc" := by
      rw [hp]
      simp
    revert hmem
    decide

end SMAgent.K6
