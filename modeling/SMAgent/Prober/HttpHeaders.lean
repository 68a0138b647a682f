import Mathlib.Data.List.Induction
import SMAgent.Multihttp.Headers

/-!
# The headers of an HTTP check

`internal/prober/http/http.go:394-454`. The lines of the settings are validated by
`HttpSettings.validate`, filtered against the reserved headers, and written into a map one
after the other. Each stage reads a line in its own way: the validator trims all white space
around the value, the map keeps everything but leading blanks, and its keys keep the case the
user chose. The last part says for which lines and which reserved headers the map is right.
-/

namespace SMAgent.Prober.Http
open SMAgent.Base SMAgent.Pb SMAgent.Multihttp
open GoString (lit byte)

/-- What follows the first colon of a line. -/
def rawValue (line : GoString) : GoString :=
  match line.splitN2 (byte ':') with
  | [_, value] => value
  | _ => []

/-- `http.go:445-454`. -/
def strToHeaderNameValue (s : GoString) : GoString × GoString :=
  match s.splitN2 (byte ':') with
  | [name, value] => (name, value.trimLeft (byte ' '))
  | parts => (parts.headD [], [])

/-- The name of a line. -/
abbrev name (line : GoString) : GoString := (strToHeaderNameValue line).1

/-- The value of a line, as the map gets it. -/
abbrev value (line : GoString) : GoString := (strToHeaderNameValue line).2

/-- The variable `present` of `http.go:402`. -/
def reservedLine (reserved : Header) (line : GoString) : Bool :=
  (reserved.lookup (name line).canonicalHeaderKey).isSome

/-- One line for every reserved value, `http.go:410-419`. -/
def reservedLines (reserved : Header) : List GoString :=
  reserved.range.flatMap fun (key, values) ↦
    values.map fun value ↦ key ++ byte ':' :: value

/-- `http.go:396-422`; `NewProber` has seen that the check has HTTP settings. -/
def augmentHttpHeaders (settings : HttpSettings) (reserved : Header) : HttpSettings :=
  { settings with
    headers := settings.headers.filter (!reservedLine reserved ·) ++ reservedLines reserved }

/-- The variable `userAgentHeader` of `http.go:425`. -/
def userAgentHeader : GoString := lit "user-agent"

/-- A line for the user agent, in any case. -/
def isUserAgent (line : GoString) : Bool := (name line).toLower == userAgentHeader

/-- One round of the loop, `http.go:431-440`. -/
def putLine (h : GoMap GoString GoString) (line : GoString) : GoMap GoString GoString :=
  (if isUserAgent line then h.erase userAgentHeader else h).insert (name line) (value line)

/-- `http.go:424-443`; `userAgent` is `version.UserAgent()`. -/
def buildHttpHeaders (userAgent : GoString) (headers : List GoString) :
    GoMap GoString GoString :=
  headers.foldl putLine ((∅ : GoMap GoString GoString).insert userAgentHeader userAgent)

/-! ### Reading the map -/

private theorem lookup_putLine (h : GoMap GoString GoString) (line n : GoString) :
    (putLine h line).lookup n = if n = name line then some (value line)
      else if isUserAgent line ∧ n = userAgentHeader then none else h.lookup n := by
  rw [putLine, GoMap.lookup_insert_eq]
  by_cases hua : isUserAgent line = true
  · rw [if_pos hua, GoMap.lookup_erase_eq]
    simp only [hua, true_and]
  · rw [if_neg hua, if_neg (fun hc : isUserAgent line = true ∧ n = userAgentHeader ↦ hua hc.1)]

/-- No line of `later` writes or removes the entry of `n`. -/
def Undisturbed (n : GoString) (later : List GoString) : Prop :=
  ∀ line ∈ later, name line ≠ n ∧ (n = userAgentHeader → isUserAgent line = false)

private theorem lookup_foldl_of_undisturbed {n : GoString} {later : List GoString}
    (hlater : Undisturbed n later) (h : GoMap GoString GoString) :
    (later.foldl putLine h).lookup n = h.lookup n := by
  induction later generalizing h with
  | nil => rfl
  | cons line later ih =>
    have ⟨hname, hua⟩ := hlater line List.mem_cons_self
    rw [List.foldl_cons, ih (List.forall_mem_cons.mp hlater).2, lookup_putLine,
      if_neg hname.symm, if_neg]
    rintro ⟨hline, hn⟩
    rw [hua hn] at hline
    cases hline

section Lines
variable (userAgent : GoString)

private theorem lookup_of_undisturbed (front : List GoString) (line : GoString)
    {later : List GoString} (h : Undisturbed (name line) later) :
    (buildHttpHeaders userAgent (front ++ line :: later)).lookup (name line)
      = some (value line) := by
  rw [buildHttpHeaders, List.foldl_append, List.foldl_cons, lookup_foldl_of_undisturbed h,
    lookup_putLine, if_pos rfl]

private theorem lookup_default {lines : List GoString}
    (h : ∀ line ∈ lines, isUserAgent line = false) :
    (buildHttpHeaders userAgent lines).lookup userAgentHeader = some userAgent := by
  rw [buildHttpHeaders, lookup_foldl_of_undisturbed, AList.lookup_insert]
  intro line hline
  refine ⟨fun hname ↦ ?_, fun _ ↦ h line hline⟩
  have hua := h line hline
  rw [isUserAgent, hname] at hua
  exact absurd hua (by decide)

private theorem lookup_cases {lines : List GoString} {n v : GoString}
    (h : (buildHttpHeaders userAgent lines).lookup n = some v) :
    (n = userAgentHeader ∧ v = userAgent ∧ ∀ line ∈ lines, isUserAgent line = false) ∨
    ∃ front line later, lines = front ++ line :: later ∧ name line = n ∧ value line = v ∧
      Undisturbed n later := by
  induction lines using List.reverseRecOn with
  | nil =>
    rw [buildHttpHeaders, List.foldl_nil, GoMap.lookup_insert_eq] at h
    split at h
    · next hn => exact .inl ⟨hn, (Option.some.inj h).symm, fun _ hline ↦ by cases hline⟩
    · cases h
  | append_singleton lines line ih =>
    rw [buildHttpHeaders, List.foldl_concat, lookup_putLine] at h
    by_cases hn : n = name line
    · rw [if_pos hn] at h
      exact .inr ⟨lines, line, [], rfl, hn.symm, Option.some.inj h, fun _ hl ↦ by cases hl⟩
    rw [if_neg hn] at h
    by_cases hua : isUserAgent line = true ∧ n = userAgentHeader
    · rw [if_pos hua] at h
      cases h
    rw [if_neg hua] at h
    have hline : n = userAgentHeader → isUserAgent line = false :=
      fun heq ↦ Bool.not_eq_true _ ▸ fun hc ↦ hua ⟨hc, heq⟩
    rcases ih h with ⟨heq, hv, hnone⟩ | ⟨front, l, later, rfl, hl, hv, hlater⟩
    · refine .inl ⟨heq, hv, fun l hl ↦ ?_⟩
      rcases List.mem_append.mp hl with hl | hl
      · exact hnone l hl
      · exact List.mem_singleton.mp hl ▸ hline heq
    · refine .inr ⟨front, l, later ++ [line], by simp, hl, hv, fun l' hl' ↦ ?_⟩
      rcases List.mem_append.mp hl' with hl' | hl'
      · exact hlater l' hl'
      · exact List.mem_singleton.mp hl' ▸ ⟨Ne.symm hn, hline⟩

end Lines

/-! ### Lines that were validated -/

private theorem valid_of_validate (lib : Stdlib) {settings : HttpSettings}
    (h : settings.validate lib = none) : ∀ line ∈ settings.headers,
      (name line).validHeaderFieldName = true ∧
      value line = (rawValue line).trimLeft (byte ' ') ∧
      (rawValue line).trimSpace.validHeaderFieldValue = true := by
  intro line hline
  have hheaders := (firstError_eq_none _).mp h _ List.mem_cons_self
  have hvalid := List.findSome?_eq_none_iff.mp hheaders line hline
  unfold validateHeaderLine at hvalid
  split at hvalid
  · next n v hsplit =>
    simp only [firstError_eq_none, List.mem_cons, List.not_mem_nil, or_false, forall_eq_or_imp,
      forall_eq, reject_eq_none, Bool.not_eq_false] at hvalid
    unfold name value rawValue strToHeaderNameValue
    rw [hsplit]
    exact ⟨hvalid.1, rfl, hvalid.2⟩
  · cases hvalid

/-- Reserved headers with canonical names and one valid value each. -/
structure Canonical (reserved : Header) : Prop where
  validName : ∀ key values, reserved.lookup key = some values → key.validHeaderFieldName = true
  canonical : ∀ key values, reserved.lookup key = some values → key.canonicalHeaderKey = key
  single : ∀ key values, reserved.lookup key = some values →
    ∃ value, values = [value] ∧ value.validHeaderFieldValue = true

section Reserved
variable {reserved : Header} (hreserved : Canonical reserved)
include hreserved

private theorem strToHeaderNameValue_reserved {key : GoString} {values : List GoString}
    (h : reserved.lookup key = some values) (v : GoString) :
    strToHeaderNameValue (key ++ byte ':' :: v)
      = (key, v.trimLeft (byte ' ')) := by
  have hcolon : byte ':' ∉ key :=
    GoString.notMem_of_validHeaderFieldName (hreserved.validName key values h) (by decide)
  rw [strToHeaderNameValue, GoString.splitN2_append key v hcolon]

private theorem mem_reservedLines {line : GoString} : line ∈ reservedLines reserved ↔
    ∃ key v, reserved.lookup key = some [v] ∧ line = key ++ byte ':' :: v := by
  simp only [reservedLines, List.mem_flatMap, List.mem_map, Prod.exists, GoMap.mem_range]
  constructor
  · rintro ⟨key, values, hlookup, v, hv, rfl⟩
    obtain ⟨v', rfl, -⟩ := hreserved.single key values hlookup
    exact ⟨key, v, List.mem_singleton.mp hv ▸ hlookup, rfl⟩
  · rintro ⟨key, v, hlookup, rfl⟩
    exact ⟨key, [v], hlookup, v, List.mem_singleton.mpr rfl, rfl⟩

private theorem reservedLine_of_toLower {line key : GoString} {values : List GoString}
    (hname : (name line).validHeaderFieldName = true) (hkey : reserved.lookup key = some values)
    (h : (name line).toLower = key.toLower) : reservedLine reserved line = true := by
  have hcanonical := GoString.canonicalHeaderKey_congr hname (hreserved.validName key values hkey) h
  rw [reservedLine, hcanonical, hreserved.canonical key values hkey, hkey]
  rfl

private theorem lookup_userAgentHeader : reserved.lookup userAgentHeader = none := by
  cases h : reserved.lookup userAgentHeader with
  | none => rfl
  | some values => exact absurd (hreserved.canonical _ values h) (by decide)

private theorem isUserAgent_reserved {key : GoString} {values : List GoString}
    (h : reserved.lookup key = some values) (v : GoString) :
    isUserAgent (key ++ byte ':' :: v) = true ↔ key = lit "User-Agent" := by
  rw [isUserAgent, name, strToHeaderNameValue_reserved hreserved h, beq_iff_eq]
  constructor
  · intro hlower
    have hcanonical := GoString.canonicalHeaderKey_congr (b := userAgentHeader)
      (hreserved.validName key values h) (by decide) (hlower.trans (by decide))
    rw [hreserved.canonical key values h] at hcanonical
    exact hcanonical.trans (by decide)
  · rintro rfl
    show (lit "User-Agent").toLower = userAgentHeader
    decide

private theorem map_name_flatMap (entries : List (GoString × List GoString))
    (h : ∀ e ∈ entries, reserved.lookup e.1 = some e.2) :
    (entries.flatMap fun (key, values) ↦
      values.map fun value ↦ key ++ byte ':' :: value).map name
      = entries.map Prod.fst := by
  induction entries with
  | nil => rfl
  | cons e entries ih =>
    obtain ⟨key, values⟩ := e
    have hkey : reserved.lookup key = some values := h _ List.mem_cons_self
    obtain ⟨v, rfl, -⟩ := hreserved.single key values hkey
    rw [List.flatMap_cons, List.map_append, List.map_cons,
      ih (List.forall_mem_cons.mp h).2]
    simp only [List.map_cons, List.map_nil, name, strToHeaderNameValue_reserved hreserved hkey]
    rfl

private theorem nodup_map_name_reservedLines : ((reservedLines reserved).map name).Nodup := by
  rw [reservedLines, map_name_flatMap hreserved _ fun e he ↦ (reserved.mem_range e.1 e.2).mp he]
  exact reserved.nodup_keys_range

private theorem lookup_reserved (userAgent : GoString) (settings : HttpSettings) {key v : GoString}
    (h : reserved.lookup key = some [v]) :
    (buildHttpHeaders userAgent (augmentHttpHeaders settings reserved).headers).lookup key
      = some (v.trimLeft (byte ' ')) := by
  have hread := strToHeaderNameValue_reserved hreserved h v
  have hmem := (mem_reservedLines hreserved).mpr ⟨key, v, h, rfl⟩
  obtain ⟨front, later, heq⟩ := List.append_of_mem hmem
  have hnodup := nodup_map_name_reservedLines hreserved
  rw [heq, List.map_append, List.map_cons, name, hread, List.nodup_append] at hnodup
  have hlater : key ∉ later.map name := (List.nodup_cons.mp hnodup.2.1).1
  have hkey : key ≠ userAgentHeader := by
    rintro rfl
    rw [lookup_userAgentHeader hreserved] at h
    cases h
  have hundisturbed : Undisturbed (name (key ++ byte ':' :: v)) later := by
    rw [name, hread]
    intro line hline
    refine ⟨fun hname : name line = key ↦ hlater ?_, fun hn ↦ absurd hn hkey⟩
    exact hname ▸ List.mem_map_of_mem hline
  have hlookup := lookup_of_undisturbed userAgent
    (settings.headers.filter (!reservedLine reserved ·) ++ front) _ hundisturbed
  rw [name, value, hread] at hlookup
  rw [augmentHttpHeaders, heq, ← List.append_assoc]
  exact hlookup

end Reserved

/-! ### The entries of the map -/

/-- The map of `buildStaticConfig` for a check that `augmentHttpHeaders` has prepared. -/
def sentHeaders (userAgent : GoString) (settings : HttpSettings) (reserved : Header) :
    GoMap GoString GoString :=
  buildHttpHeaders userAgent (augmentHttpHeaders settings reserved).headers

/-- Where an entry of the map comes from. -/
inductive Entry (userAgent : GoString) (settings : HttpSettings) (reserved : Header) :
    GoString → GoString → Prop
  | default (hnone : ∀ line ∈ settings.headers, isUserAgent line = false)
      (hfree : reserved.lookup (lit "User-Agent") = none) :
      Entry userAgent settings reserved userAgentHeader userAgent
  | own (front : List GoString) (line : GoString) (later : List GoString)
      (hsplit : settings.headers = front ++ line :: later)
      (hown : reservedLine reserved line = false) (hlater : Undisturbed (name line) later) :
      Entry userAgent settings reserved (name line) (value line)
  | reserved (key v : GoString) (hkey : reserved.lookup key = some [v]) :
      Entry userAgent settings reserved key (v.trimLeft (byte ' '))

section Entries
variable {settings : HttpSettings} {reserved : Header}
  (hnames : ∀ line ∈ settings.headers, (name line).validHeaderFieldName = true)
  (hreserved : Canonical reserved)

include hnames in
private theorem reservedLine_congr {a b : GoString} (ha : a ∈ settings.headers)
    (hb : b ∈ settings.headers) (h : (name a).toLower = (name b).toLower) :
    reservedLine reserved a = reservedLine reserved b := by
  rw [reservedLine, reservedLine,
    GoString.canonicalHeaderKey_congr (hnames a ha) (hnames b hb) h]

include hnames hreserved

private theorem undisturbed_augmented {front : List GoString} {line : GoString}
    {later : List GoString} (hsplit : settings.headers = front ++ line :: later)
    (hown : reservedLine reserved line = false) :
    Undisturbed (name line) (later.filter (!reservedLine reserved ·) ++ reservedLines reserved) ↔
      Undisturbed (name line) later := by
  have hline : line ∈ settings.headers := by simp [hsplit]
  have hmem : ∀ l ∈ later, l ∈ settings.headers := fun l hl ↦ by simp [hsplit, hl]
  -- a user agent line under the name `user-agent` has the lower case name of the others
  have hlower : ∀ l, name line = userAgentHeader → isUserAgent l = true →
      (name l).toLower = (name line).toLower := by
    intro l hname hl
    rw [hname, eq_of_beq hl]
    decide
  constructor
  · intro h l hl
    cases hl' : reservedLine reserved l with
    | false =>
      exact h l (List.mem_append_left _ (List.mem_filter.mpr ⟨hl, by rw [hl']; rfl⟩))
    | true =>
      have hdiffer : (name l).toLower ≠ (name line).toLower := by
        intro heq
        rw [reservedLine_congr hnames (hmem l hl) hline heq, hown] at hl'
        cases hl'
      refine ⟨fun hname ↦ hdiffer (congrArg GoString.toLower hname), fun hname ↦ ?_⟩
      exact Bool.not_eq_true _ ▸ fun hl ↦ hdiffer (hlower l hname hl)
  · intro h l hl
    rcases List.mem_append.mp hl with hl | hl
    · exact h l (List.mem_of_mem_filter hl)
    · obtain ⟨key, v, hkey, rfl⟩ := (mem_reservedLines hreserved).mp hl
      have hname : name (key ++ byte ':' :: v) = key := by
        rw [name, strToHeaderNameValue_reserved hreserved hkey]
      have hdiffer : (name line).toLower ≠ key.toLower := by
        intro heq
        rw [reservedLine_of_toLower hreserved (hnames line hline) hkey heq] at hown
        cases hown
      refine ⟨fun heq ↦ hdiffer (by rw [← heq, hname]), fun heq ↦ ?_⟩
      refine Bool.not_eq_true _ ▸ fun hl ↦ hdiffer ?_
      rw [← hlower _ heq hl, hname]

private theorem isUserAgent_augmented :
    (∀ line ∈ (augmentHttpHeaders settings reserved).headers, isUserAgent line = false) ↔
      (∀ line ∈ settings.headers, isUserAgent line = false) ∧
        reserved.lookup (lit "User-Agent") = none := by
  constructor
  · intro h
    have hfree : reserved.lookup (lit "User-Agent") = none := by
      cases hkey : reserved.lookup (lit "User-Agent") with
      | none => rfl
      | some values =>
        obtain ⟨v, rfl, -⟩ := hreserved.single _ values hkey
        have hline := h _ (List.mem_append_right _
          ((mem_reservedLines hreserved).mpr ⟨_, v, hkey, rfl⟩))
        rw [(isUserAgent_reserved hreserved hkey v).mpr rfl] at hline
        cases hline
    refine ⟨fun line hline ↦ ?_, hfree⟩
    cases hua : isUserAgent line with
    | false => rfl
    | true =>
      have hcanonical : (name line).canonicalHeaderKey = lit "User-Agent" :=
        (GoString.canonicalHeaderKey_congr (b := userAgentHeader) (hnames line hline) (by decide)
          ((eq_of_beq hua).trans (by decide))).trans (by decide)
      have hown : reservedLine reserved line = false := by rw [reservedLine, hcanonical, hfree]; rfl
      rw [← hua]
      exact h line (List.mem_append_left _ (List.mem_filter.mpr ⟨hline, by rw [hown]; rfl⟩))
  · rintro ⟨hnone, hfree⟩ line hline
    rcases List.mem_append.mp hline with hline | hline
    · exact hnone line (List.mem_of_mem_filter hline)
    · obtain ⟨key, v, hkey, rfl⟩ := (mem_reservedLines hreserved).mp hline
      refine Bool.not_eq_true _ ▸ fun hua ↦ ?_
      rw [(isUserAgent_reserved hreserved hkey v).mp hua, hfree] at hkey
      cases hkey

/-- The map has these entries and no others. -/
theorem lookup_sentHeaders (userAgent n v : GoString) :
    (sentHeaders userAgent settings reserved).lookup n = some v ↔
      Entry userAgent settings reserved n v := by
  constructor
  · intro h
    rcases lookup_cases userAgent h with ⟨rfl, rfl, hnone⟩ | ⟨front, line, later, heq, rfl, rfl, hl⟩
    · have ⟨hlines, hfree⟩ := (isUserAgent_augmented hnames hreserved).mp hnone
      exact .default hlines hfree
    have hfromReserved (hline : line ∈ reservedLines reserved) :
        Entry userAgent settings reserved (name line) (value line) := by
      obtain ⟨key, v, hkey, rfl⟩ := (mem_reservedLines hreserved).mp hline
      rw [name, value, strToHeaderNameValue_reserved hreserved hkey]
      exact .reserved key v hkey
    rcases List.append_eq_append_iff.mp heq with ⟨as, -, hlines⟩ | ⟨bs, hfilter, hlines⟩
    · exact hfromReserved (by simp [hlines])
    cases bs with
    | nil =>
      rw [List.nil_append] at hlines
      exact hfromReserved (hlines ▸ List.mem_cons_self)
    | cons b bs =>
      obtain ⟨rfl, rfl⟩ := List.cons.inj hlines
      obtain ⟨l₁, l₂, hsplit, -, hl₂⟩ := List.filter_eq_append_iff.mp hfilter
      obtain ⟨m₁, m₂, rfl, -, hown, rfl⟩ := List.filter_eq_cons_iff.mp hl₂
      have hsplit : settings.headers = (l₁ ++ m₁) ++ line :: m₂ := by rw [hsplit, List.append_assoc]
      have hown : reservedLine reserved line = false := by simpa using hown
      exact .own _ line m₂ hsplit hown
        ((undisturbed_augmented hnames hreserved hsplit hown).mp hl)
  · rintro (⟨hnone, hfree⟩ | ⟨front, line, later, hsplit, hown, hlater⟩ | ⟨key, v, hkey⟩)
    · exact lookup_default userAgent ((isUserAgent_augmented hnames hreserved).mpr ⟨hnone, hfree⟩)
    · have hlines : (augmentHttpHeaders settings reserved).headers
          = front.filter (!reservedLine reserved ·) ++
            line :: (later.filter (!reservedLine reserved ·) ++ reservedLines reserved) := by
        rw [augmentHttpHeaders, hsplit]
        simp [hown]
      rw [sentHeaders, hlines]
      exact lookup_of_undisturbed userAgent _ line
        ((undisturbed_augmented hnames hreserved hsplit hown).mpr hlater)
    · exact lookup_reserved hreserved userAgent settings hkey

end Entries

/-! ### When the map is right -/

/-- What the map should be. The default user agent is present when the entry `user-agent` is
the default, whatever that is: a user may write the default's own text. -/
structure HeadersRight (userAgent : GoString) (settings : HttpSettings) (reserved : Header) :
    Prop where
  unique : ∀ n m v w, (sentHeaders userAgent settings reserved).lookup n = some v →
    (sentHeaders userAgent settings reserved).lookup m = some w → n.toLower = m.toLower → n = m
  valid : ∀ n v, (sentHeaders userAgent settings reserved).lookup n = some v →
    v.validHeaderFieldValue = true
  reservedValue : ∀ key v, reserved.lookup key = some [v] →
    (sentHeaders userAgent settings reserved).lookup key = some v
  ownValue : ∀ front line later, settings.headers = front ++ line :: later →
    reservedLine reserved line = false →
    (∀ l ∈ later, (name l).toLower ≠ (name line).toLower) →
    (sentHeaders userAgent settings reserved).lookup (name line) = some (rawValue line).trimSpace
  defaultAgent :
    (∀ agent, (sentHeaders agent settings reserved).lookup userAgentHeader = some agent) ↔
      ∀ line ∈ settings.headers, isUserAgent line = false

/-- Lines and reserved headers that come through unharmed: the lines that stay spell each name
in one way, the last line of a name has only blanks to trim, and these in front of the value; no
reserved value starts with a blank, and the user agent is not reserved over the default. -/
structure PlainHeaders (settings : HttpSettings) (reserved : Header) : Prop where
  oneSpelling : ∀ front₁ line₁ later₁ front₂ line₂ later₂,
    settings.headers = front₁ ++ line₁ :: later₁ → settings.headers = front₂ ++ line₂ :: later₂ →
    reservedLine reserved line₁ = false → reservedLine reserved line₂ = false →
    Undisturbed (name line₁) later₁ → Undisturbed (name line₂) later₂ →
    (name line₁).toLower = (name line₂).toLower → name line₁ = name line₂
  trimmed : ∀ front line later, settings.headers = front ++ line :: later →
    reservedLine reserved line = false →
    (∀ l ∈ later, (name l).toLower ≠ (name line).toLower) →
    (rawValue line).trimLeft (byte ' ') = (rawValue line).trimSpace
  reservedTrimmed : ∀ key v, reserved.lookup key = some [v] →
    v.head? ≠ some (byte ' ')
  agentFree : reserved.lookup (lit "User-Agent") = none ∨
    ∃ line ∈ settings.headers, isUserAgent line = true

private theorem undisturbed_of_last {line : GoString} {later : List GoString}
    (h : ∀ l ∈ later, (name l).toLower ≠ (name line).toLower) : Undisturbed (name line) later := by
  intro l hl
  refine ⟨fun hname ↦ h l hl (congrArg GoString.toLower hname), fun hname ↦ ?_⟩
  refine Bool.not_eq_true _ ▸ fun hua ↦ h l hl ?_
  rw [hname, eq_of_beq hua]
  decide

private theorem exists_last_of_mem {α : Type} (p : α → Prop) [DecidablePred p] (l : List α) :
    (∀ x ∈ l, ¬ p x) ∨ ∃ front x later, l = front ++ x :: later ∧ p x ∧ ∀ y ∈ later, ¬ p y := by
  induction l with
  | nil => exact .inl fun _ hx ↦ by cases hx
  | cons a l ih =>
    rcases ih with hnone | ⟨front, x, later, rfl, hx⟩
    · by_cases ha : p a
      · exact .inr ⟨[], a, l, rfl, ha, hnone⟩
      · exact .inl (List.forall_mem_cons.mpr ⟨ha, hnone⟩)
    · exact .inr ⟨a :: front, x, later, rfl, hx⟩

section Right
variable {userAgent : GoString} {settings : HttpSettings} {reserved : Header}
  (hnames : ∀ line ∈ settings.headers, (name line).validHeaderFieldName = true)
  (hreserved : Canonical reserved)

private theorem PlainHeaders.last (hplain : PlainHeaders settings reserved) {front : List GoString}
    {line : GoString} {later : List GoString} (hsplit : settings.headers = front ++ line :: later)
    (hown : reservedLine reserved line = false) (hlater : Undisturbed (name line) later)
    (hnames : ∀ line ∈ settings.headers, (name line).validHeaderFieldName = true) :
    ∀ l ∈ later, (name l).toLower ≠ (name line).toLower := by
  rcases exists_last_of_mem (fun l ↦ (name l).toLower = (name line).toLower) later with
    hnone | ⟨mid, l, rest, rfl, hl, hrest⟩
  · exact hnone
  have hsplit' : settings.headers = (front ++ line :: mid) ++ l :: rest := by simp [hsplit]
  have hown' : reservedLine reserved l = false := by
    rw [reservedLine_congr hnames (by simp [hsplit']) (by simp [hsplit]) hl, hown]
  have hlast : Undisturbed (name l) rest := undisturbed_of_last (by rw [hl]; exact hrest)
  have hname := hplain.oneSpelling _ _ _ _ _ _ hsplit' hsplit hown' hown hlast hlater hl
  exact absurd hname (hlater l (by simp)).1

include hreserved in
private theorem Entry.unique (hplain : PlainHeaders settings reserved) {n m v w : GoString}
    (hnames : ∀ line ∈ settings.headers, (name line).validHeaderFieldName = true)
    (hn : Entry userAgent settings reserved n v) (hm : Entry userAgent settings reserved m w)
    (h : n.toLower = m.toLower) : n = m := by
  -- the default entry, a line that is not reserved and a reserved one have different names
  have hdefaultOwn {line : GoString} (hline : line ∈ settings.headers)
      (hnone : ∀ line ∈ settings.headers, isUserAgent line = false) :
      userAgentHeader.toLower ≠ (name line).toLower := by
    intro heq
    have hua := hnone line hline
    rw [isUserAgent, ← heq] at hua
    exact absurd hua (by decide)
  have hdefaultReserved {key v : GoString} (hkey : reserved.lookup key = some [v])
      (hfree : reserved.lookup (lit "User-Agent") = none) :
      userAgentHeader.toLower ≠ key.toLower := by
    intro heq
    have hua : isUserAgent (key ++ byte ':' :: v) = true := by
      rw [isUserAgent, name, strToHeaderNameValue_reserved hreserved hkey, ← heq]
      decide
    rw [(isUserAgent_reserved hreserved hkey v).mp hua, hfree] at hkey
    cases hkey
  have hownReserved {line key v : GoString} (hline : line ∈ settings.headers)
      (hown : reservedLine reserved line = false) (hkey : reserved.lookup key = some [v]) :
      (name line).toLower ≠ key.toLower := by
    intro heq
    rw [reservedLine_of_toLower hreserved (hnames line hline) hkey heq] at hown
    cases hown
  cases hn with
  | default hnone hfree =>
    cases hm with
    | default => rfl
    | own _ line _ hsplit => exact absurd h (hdefaultOwn (by simp [hsplit]) hnone)
    | reserved key v hkey => exact absurd h (hdefaultReserved hkey hfree)
  | own front line later hsplit hown hlater =>
    have hline : line ∈ settings.headers := by simp [hsplit]
    cases hm with
    | default hnone => exact absurd h.symm (hdefaultOwn hline hnone)
    | own front' line' later' hsplit' hown' hlater' =>
      exact hplain.oneSpelling _ _ _ _ _ _ hsplit hsplit' hown hown' hlater hlater' h
    | reserved key v hkey => exact absurd h (hownReserved hline hown hkey)
  | reserved key v hkey =>
    cases hm with
    | default hnone hfree => exact absurd h.symm (hdefaultReserved hkey hfree)
    | own _ line _ hsplit hown => exact absurd h.symm (hownReserved (by simp [hsplit]) hown hkey)
    | reserved key' v' hkey' =>
      calc n = n.canonicalHeaderKey := (hreserved.canonical n _ hkey).symm
        _ = m.canonicalHeaderKey := GoString.canonicalHeaderKey_congr
          (hreserved.validName n _ hkey) (hreserved.validName m _ hkey') h
        _ = m := hreserved.canonical m _ hkey'

include hnames hreserved

private theorem defaultAgent_iff :
    (∀ agent, (sentHeaders agent settings reserved).lookup userAgentHeader = some agent) ↔
      (∀ line ∈ settings.headers, isUserAgent line = false) ∧
        reserved.lookup (lit "User-Agent") = none := by
  rw [← isUserAgent_augmented hnames hreserved]
  constructor
  · intro h
    -- an entry of a line would be the same for two defaults
    rcases lookup_cases [] (h []) with ⟨-, -, hnone⟩ | ⟨front, line, later, heq, hname, hv, hlater⟩
    · exact hnone
    have hother := h [0]
    rw [sentHeaders, heq, ← hname, lookup_of_undisturbed [0] front line (hname ▸ hlater), hv]
      at hother
    cases hother
  · intro hnone agent
    exact lookup_default agent hnone

end Right

/-- For every list of lines that passes validation and all reserved headers with canonical
names and one valid value each, the map is right exactly when the lines and the reserved headers
are plain. -/
theorem headersRight_iff_plain (lib : Stdlib) (userAgent : GoString) (settings : HttpSettings)
    (reserved : Header) (hagent : userAgent.validHeaderFieldValue = true)
    (hvalid : settings.validate lib = none) (hreserved : Canonical reserved) :
    HeadersRight userAgent settings reserved ↔ PlainHeaders settings reserved := by
  have hlines := valid_of_validate lib hvalid
  have hnames : ∀ line ∈ settings.headers, (name line).validHeaderFieldName = true :=
    fun line hline ↦ (hlines line hline).1
  have hentry := lookup_sentHeaders hnames hreserved userAgent
  have hagentIff := defaultAgent_iff hnames hreserved
  constructor
  · intro hright
    constructor
    · intro front₁ line₁ later₁ front₂ line₂ later₂ h₁ h₂ hown₁ hown₂ hlater₁ hlater₂ heq
      exact hright.unique _ _ _ _ ((hentry _ _).mpr (.own _ _ _ h₁ hown₁ hlater₁))
        ((hentry _ _).mpr (.own _ _ _ h₂ hown₂ hlater₂)) heq
    · intro front line later hsplit hown hlast
      have hlookup := (hentry _ _).mpr (.own _ _ _ hsplit hown (undisturbed_of_last hlast))
      rw [hright.ownValue front line later hsplit hown hlast] at hlookup
      rw [← (hlines line (by simp [hsplit])).2.1, Option.some.inj hlookup]
    · intro key v hkey
      have hlookup := (hentry _ _).mpr (.reserved key v hkey)
      rw [hright.reservedValue key v hkey] at hlookup
      exact (GoString.trimLeft_eq_self v _).mp (Option.some.inj hlookup).symm
    · by_cases hnone : ∀ line ∈ settings.headers, isUserAgent line = false
      · exact .inl (hagentIff.mp (hright.defaultAgent.mpr hnone)).2
      · simp only [not_forall, Bool.not_eq_false] at hnone
        obtain ⟨line, hline, hua⟩ := hnone
        exact .inr ⟨line, hline, hua⟩
  · intro hplain
    constructor
    · intro n m v w hn hm heq
      exact Entry.unique hreserved hplain hnames ((hentry n v).mp hn) ((hentry m w).mp hm) heq
    · intro n v hn
      cases (hentry n v).mp hn with
      | default => exact hagent
      | own front line later hsplit hown hlater =>
        have ⟨_, hvalue, htrim⟩ := hlines line (by simp [hsplit])
        have hlast := hplain.last hsplit hown hlater hnames
        rw [hvalue, hplain.trimmed front line later hsplit hown hlast]
        exact htrim
      | reserved key v hkey =>
        obtain ⟨v', heq, hv⟩ := hreserved.single _ _ hkey
        obtain rfl : v = v' := (List.cons.inj heq).1
        rw [(GoString.trimLeft_eq_self v _).mpr (hplain.reservedTrimmed _ v hkey)]
        exact hv
    · intro key v hkey
      have hlookup := (hentry _ _).mpr (.reserved key v hkey)
      rwa [(GoString.trimLeft_eq_self v _).mpr (hplain.reservedTrimmed key v hkey)] at hlookup
    · intro front line later hsplit hown hlast
      have hlookup := (hentry _ _).mpr (.own _ _ _ hsplit hown (undisturbed_of_last hlast))
      rwa [(hlines line (by simp [hsplit])).2.1, hplain.trimmed front line later hsplit hown hlast]
        at hlookup
    · rw [hagentIff]
      constructor
      · exact fun h ↦ h.1
      · intro hnone
        rcases hplain.agentFree with hfree | ⟨line, hline, hua⟩
        · exact ⟨hnone, hfree⟩
        · rw [hnone line hline] at hua
          cases hua

/-- The reserved header of `getReservedHeaders`, `prober.go:134-142`. -/
def checkProbeHeader : Header :=
  (∅ : Header).insert (lit "X-Sm-Id") [lit "1-2"]

private theorem lookup_checkProbeHeader {key : GoString} {values : List GoString}
    (h : checkProbeHeader.lookup key = some values) :
    key = lit "X-Sm-Id" ∧ values = [lit "1-2"] := by
  rw [checkProbeHeader, GoMap.lookup_insert_eq] at h
  split at h
  · next hkey => exact ⟨hkey, (Option.some.inj h).symm⟩
  · cases h

private theorem canonical_checkProbeHeader : Canonical checkProbeHeader := by
  constructor
  · intro key values h
    rw [(lookup_checkProbeHeader h).1]
    decide
  · intro key values h
    rw [(lookup_checkProbeHeader h).1]
    decide
  · intro key values h
    exact ⟨_, (lookup_checkProbeHeader h).2, by decide⟩

/-- Settings with one line. -/
def oneLine (line : GoString) : HttpSettings := { headers := [line] }

private theorem oneLine_split {line l : GoString} {front later : List GoString}
    (h : (oneLine line).headers = front ++ l :: later) : l = line := by
  have hl : l ∈ [line] := by
    rw [show [line] = front ++ l :: later from h]
    simp
  exact List.mem_singleton.mp hl

/-- One plain line beside the reserved header. -/
theorem headersRight_accept :
    HeadersRight (lit "agent/1.0") (oneLine (lit "Accept: text/html"))
      checkProbeHeader := by
  apply (headersRight_iff_plain Stdlib.permissive _ _ _ (by decide) (by decide)
    canonical_checkProbeHeader).mpr
  constructor
  · intro front₁ line₁ later₁ front₂ line₂ later₂ h₁ h₂ _ _ _ _ _
    rw [oneLine_split h₁, oneLine_split h₂]
  · intro front line later h _ _
    rw [oneLine_split h]
    decide
  · intro key v h
    rw [(List.cons.inj (lookup_checkProbeHeader h).2).1]
    decide
  · exact .inl (by decide)

/-- A line break after the value passes validation, which trims it, and is sent. -/
theorem newline_sent :
    (oneLine (lit "Accept: text/html\r\n")).validate Stdlib.permissive = none ∧
      Canonical checkProbeHeader ∧
      (sentHeaders (lit "agent/1.0") (oneLine (lit "Accept: text/html\r\n"))
        checkProbeHeader).lookup (lit "Accept") = some (lit "text/html\r\n") ∧
      ¬ HeadersRight (lit "agent/1.0")
        (oneLine (lit "Accept: text/html\r\n")) checkProbeHeader := by
  have hlookup : (sentHeaders (lit "agent/1.0")
      (oneLine (lit "Accept: text/html\r\n")) checkProbeHeader).lookup
      (lit "Accept") = some (lit "text/html\r\n") := by decide
  refine ⟨by decide, canonical_checkProbeHeader, hlookup, fun hright ↦ ?_⟩
  exact absurd (hright.valid _ _ hlookup) (by decide)

end SMAgent.Prober.Http
