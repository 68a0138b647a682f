import SMAgent.Pb.Check
import SMAgent.Pb.Hosts

/-!
# Validation of checks

`pkg/pb/synthetic_monitoring/checks_extra.go:380-1157` and `1524-1561`. The rules of a
validator are listed in source order; the first that fails is returned. Rules that dispatch
on the check type come before the rule that exactly one settings message is present, so a
check without settings panics unless an earlier rule rejects it.
-/

namespace SMAgent.Pb
open SMAgent.Base

/-! ### Settings -/

/-- `checks_extra.go:1151-1157`. -/
def validateLabelValue (v : GoString) : Option ValidationError :=
  reject (v.length = 0 ∨ v.length > 128) .invalidLabelValue

/-- A rune that a label name may hold. -/
def isLabelNameRune (r : Rune) : Bool := isLetterOrDigit r || r == Rune.ofChar '_'

/-- `Label.Validate`, `checks_extra.go:1133-1149`. -/
def Label.validate (l : Label) : Option ValidationError :=
  firstError [
    reject (validateLabelValue l.name ≠ none) .invalidLabelName,
    reject (l.name.runes.all isLabelNameRune = false) .invalidLabelName,
    validateLabelValue l.value]

-- `seen` is the set `seenLabels` of the names before the label.
private def validateLabelsAfter (seen : List GoString) : List Label → Option ValidationError
  | [] => none
  | l :: labels =>
    if l.name ∈ seen then some (.duplicateLabelName l.name)
    else match l.validate with
    | some err => some err
    | none => validateLabelsAfter (l.name :: seen) labels

/-- `checks_extra.go:497-513`. -/
def validateLabels (labels : List Label) : Option ValidationError := validateLabelsAfter [] labels

/-- `checks_extra.go:685-695`. -/
def PingSettings.validate (s : PingSettings) : Option ValidationError :=
  firstError [
    reject (s.payloadSize < 0 ∨ s.payloadSize > 65499) .invalidPingPayloadSize,
    reject (s.packetCount < 0 ∨ s.packetCount > 10) .invalidPingPacketCount]

/-- One round of the two header loops of `HttpSettings.Validate`. -/
def validateHeaderLine (err : ValidationError) (h : GoString) : Option ValidationError :=
  match h.splitN2 (GoString.byte ':') with
  | [name, value] => firstError [
      reject (name.validHeaderFieldName = false) err,
      reject (value.trimSpace.validHeaderFieldValue = false) err]
  | _ => some err

/-- `checks_extra.go:801-807`. -/
def ScriptedSettings.validate (s : ScriptedSettings) : Option ValidationError :=
  reject (s.script = []) .invalidK6Script

/-- `checks_extra.go:829-835`. -/
def BrowserSettings.validate (s : BrowserSettings) : Option ValidationError :=
  reject (s.script = []) .invalidK6Script

/-- `checks_extra.go:884-894`. -/
def HttpHeader.validate (h : HttpHeader) : Option ValidationError :=
  firstError [
    reject (h.name.validHeaderFieldName = false) .invalidHttpHeaders,
    reject (h.value.validHeaderFieldValue = false) .invalidHttpHeaders]

/-- `checks_extra.go:896-906`. -/
def QueryField.validate (f : QueryField) : Option ValidationError :=
  reject (f.name = []) .invalidQueryFieldName

/-- `checks_extra.go:1253-1259`. -/
def HttpMethod.validate : HttpMethod → Option ValidationError
  | .unrecognized _ => some .invalidHttpMethodValue
  | _ => none

/-- The three enumeration look-ups of `MultiHttpEntryAssertion.Validate`. -/
def MultiHttpEntryAssertion.recognized (a : MultiHttpEntryAssertion) : Bool :=
  match a.type, a.subject, a.condition with
  | .unrecognized _, _, _ | _, .unrecognized _, _ | _, _, .unrecognized _ => false
  | _, _, _ => true

/-- `checks_extra.go:946-1035`. -/
def MultiHttpEntryAssertion.validate (a : MultiHttpEntryAssertion) : Option ValidationError :=
  if a.recognized = false then some .invalidMultiHttpAssertion
  else match a.type with
  | .text => firstError [
      reject (a.value = []) .invalidMultiHttpAssertionMissingValue,
      reject (a.subject ≠ .responseHeaders ∧ a.expression ≠ [])
        .invalidMultiHttpAssertionExpressionNotAllowed]
  | .jsonPathValue => firstError [
      reject (a.subject ≠ .defaultSubject) .invalidMultiHttpAssertion,
      reject (a.value = []) .invalidMultiHttpAssertion,
      reject (a.expression = []) .invalidMultiHttpAssertion]
  | .jsonPathAssertion => firstError [
      reject (a.subject ≠ .defaultSubject) .invalidMultiHttpAssertion,
      reject (a.condition ≠ .defaultCondition) .invalidMultiHttpAssertion,
      reject (a.value ≠ []) .invalidMultiHttpAssertion,
      reject (a.expression = []) .invalidMultiHttpAssertion]
  | .regexAssertion => firstError [
      reject (a.condition ≠ .defaultCondition) .invalidMultiHttpAssertion,
      reject (a.value ≠ []) .invalidMultiHttpAssertion,
      reject (a.expression = []) .invalidMultiHttpAssertion]
  | .unrecognized _ => none

/-- `checks_extra.go:1037-1071`. -/
def MultiHttpEntryVariable.validate (v : MultiHttpEntryVariable) : Option ValidationError :=
  match v.type with
  | .unrecognized _ => some .invalidMultiHttpEntryVariable
  | type => firstError [
      reject (v.name = []) .invalidMultiHttpEntryVariable,
      reject (v.expression = []) .invalidMultiHttpEntryVariable,
      reject (type ≠ .cssSelector ∧ v.attr ≠ []) .invalidMultiHttpEntryVariable]

section Parsers
variable (lib : Stdlib)

/-- The check of `ProxyURL` in `HttpSettings.Validate`, `checks_extra.go:719-728`. -/
def validateProxyURL (proxyURL : GoString) : Option ValidationError :=
  if proxyURL = [] then none
  else match lib.urlParse proxyURL with
  | none => some .invalidProxyUrl
  | some u => reject (¬ httpScheme u) .invalidProxyUrl

/-- One round of the four expression loops of `HttpSettings.Validate`. -/
def validateRegexp (err : ValidationError) (reg : GoString) : Option ValidationError :=
  reject (lib.regexpCompile reg = false) err

/-- `checks_extra.go:698-779`. -/
def HttpSettings.validate (s : HttpSettings) : Option ValidationError :=
  firstError [
    s.headers.findSome? (validateHeaderLine .invalidHttpHeaders),
    validateProxyURL lib s.proxyURL,
    reject (s.proxyConnectHeaders ≠ [] ∧ s.proxyURL = []) .invalidProxySettings,
    s.proxyConnectHeaders.findSome? (validateHeaderLine .invalidProxyConnectHeaders),
    s.failIfBodyMatchesRegexp.findSome?
      (validateRegexp lib .invalidHttpFailIfBodyMatchesRegexp),
    s.failIfBodyNotMatchesRegexp.findSome?
      (validateRegexp lib .invalidHttpFailIfBodyNotMatchesRegexp),
    s.failIfHeaderMatchesRegexp.findSome?
      (fun m ↦ validateRegexp lib .invalidHttpFailIfHeaderMatchesRegexp m.regexp),
    s.failIfHeaderNotMatchesRegexp.findSome?
      (fun m ↦ validateRegexp lib .invalidHttpFailIfHeaderNotMatchesRegexp m.regexp)]

/-- `checks_extra.go:781-791`. -/
def DnsSettings.validate (s : DnsSettings) : Option ValidationError :=
  firstError [
    reject (s.server = [] ∨ validateHost lib s.server ≠ none) .invalidDnsServer,
    reject (s.port < 0 ∨ s.port > 65535) .invalidDnsPort]

/-- `checks_extra.go:1073-1101`. -/
def HttpRequestBody.validate (b : HttpRequestBody) : Option ValidationError :=
  firstError [
    reject (b.contentType = []) .invalidHttpRequestBodyContentType,
    reject (b.contentType.validHeaderFieldValue = false) .invalidHttpRequestBodyContentType,
    (b.contentType.split (GoString.byte ',')).findSome? fun v ↦
      reject (lib.parseMediaType v = false) .invalidHttpRequestBodyContentType,
    reject (b.contentEncoding.validHeaderFieldValue = false) .invalidHttpRequestBodyContentType]

/-- `checks_extra.go:908-938`. -/
def MultiHttpEntryRequest.validate (r : MultiHttpEntryRequest) : Option ValidationError :=
  firstError [
    r.method.validate,
    if r.url.contains (GoString.lit "$\x7b") then none else validateHttpUrl lib r.url,
    r.body.bind (HttpRequestBody.validate lib),
    r.headers.findSome? HttpHeader.validate,
    r.queryFields.findSome? QueryField.validate]

/-- `checks_extra.go:852-882`. -/
def MultiHttpEntry.validate (e : MultiHttpEntry) : Option ValidationError :=
  match e.request with
  | none => some .invalidMultiHttpTargets
  | some r => firstError [
      r.validate lib,
      reject (e.assertions.length > 5) .tooManyMultiHttpAssertions,
      reject (e.vars.length > 5) .tooManyMultiHttpVariables,
      e.assertions.findSome? MultiHttpEntryAssertion.validate,
      e.vars.findSome? MultiHttpEntryVariable.validate,
      reject (¬ (e.vars.map MultiHttpEntryVariable.name).Nodup) .multiHttpVariableNamesNotUnique]

/-- `checks_extra.go:809-823`. -/
def MultiHttpSettings.validate (s : MultiHttpSettings) : Option ValidationError :=
  firstError [
    reject (s.entries.length = 0) .invalidMultiHttpTargets,
    reject (s.entries.length > 10) .tooManyMultiHttpTargets,
    s.entries.findSome? (MultiHttpEntry.validate lib)]

/-- Settings are accepted with all their entries. -/
theorem MultiHttpSettings.validate_entry (s : MultiHttpSettings) (h : s.validate lib = none) :
    ∀ e ∈ s.entries, e.validate lib = none := by
  rw [MultiHttpSettings.validate, firstError_eq_none] at h
  have hentries : s.entries.findSome? (MultiHttpEntry.validate lib) = none := h _ (by simp)
  exact List.findSome?_eq_none_iff.mp hentries

/-- The counter `settingsCount` of `CheckSettings.Validate`. -/
def CheckSettings.count (s : CheckSettings) : Nat := s.cases.countP Prod.fst

/-- The result of calling `validateFn`: the last settings present assigned it. -/
def CheckSettings.validateFn (s : CheckSettings) : Option ValidationError :=
  ((s.browser.map BrowserSettings.validate) <|>
    (s.grpc.map fun _ ↦ none) <|>
    (s.multihttp.map (MultiHttpSettings.validate lib)) <|>
    (s.scripted.map ScriptedSettings.validate) <|>
    (s.traceroute.map fun _ ↦ none) <|>
    (s.tcp.map fun _ ↦ none) <|>
    (s.dns.map (DnsSettings.validate lib)) <|>
    (s.http.map (HttpSettings.validate lib)) <|>
    (s.ping.map PingSettings.validate)).join

/-- `checks_extra.go:628-683`. -/
def CheckSettings.validate (s : CheckSettings) : Option ValidationError :=
  if s.count ≠ 1 then some .invalidCheckSettings else s.validateFn lib

/-! ### Checks -/

/-- Rules in source order of which some dispatch on the check type and can panic. -/
def firstOutcome :
    List (Except Panic (Option ValidationError)) → Except Panic (Option ValidationError)
  | [] => .ok none
  | .ok none :: rules => firstOutcome rules
  | outcome :: _ => outcome

/-- `v >= lower && v <= upper`. -/
def inClosedRange (v lower upper : Int) : Prop := v ≥ lower ∧ v ≤ upper

instance (v lower upper : Int) : Decidable (inClosedRange v lower upper) :=
  inferInstanceAs (Decidable (_ ∧ _))

/-- The smallest frequency of a check type in milliseconds, `checks_extra.go:471-485`. -/
def minFrequency : CheckType → Int
  | .traceroute => 120000
  | .scripted | .multiHttp | .browser => 60000
  | _ => 1000

/-- The timeouts of a check type in milliseconds, `checks_extra.go:1530-1550`. -/
def timeoutRange (type : CheckType) (frequency : Int) : Int × Int :=
  match type with
  | .traceroute => (30000, min frequency 30000)
  | .scripted | .multiHttp | .browser => (1000, min frequency 180000)
  | _ => (1000, min frequency 60000)

/-- `checks_extra.go:1524-1556`. -/
def validateTimeout (type : CheckType) (timeout frequency : Int) : Option ValidationError :=
  let range := timeoutRange type frequency
  reject (¬ inClosedRange timeout range.1 range.2) .invalidCheckTimeout

/-- The switch shared by the two `validateTarget` methods, `checks_extra.go:426-465`. -/
def validateTargetOf (type : CheckType) (target : GoString) : Option ValidationError :=
  match type with
  | .dns => reject (validateDnsTarget target ≠ none) .invalidDnsName
  | .http => validateHttpUrl lib target
  | .ping => reject (validateHost lib target ≠ none) .invalidPingHostname
  | .tcp => validateHostPort lib target
  | .traceroute => reject (validateHost lib target ≠ none) .invalidTracerouteHostname
  | .scripted | .multiHttp => none
  | .grpc => validateHostPort lib target
  | .browser => none

/-- The reserved value of `checks_extra.go:265`. -/
def internalMarker : GoString := GoString.lit "__internal__"

/-- `checks_extra.go:470-491`. -/
def Check.validateFrequency (c : Check) : Except Panic (Option ValidationError) :=
  c.type.map fun type ↦
    reject (¬ inClosedRange c.frequency (minFrequency type) 3600000) .invalidCheckFrequency

/-- `checks_extra.go:493-495`. -/
def Check.validateTimeout (c : Check) : Except Panic (Option ValidationError) :=
  c.type.map fun type ↦ Pb.validateTimeout type c.timeout c.frequency

/-- `checks_extra.go:420-468`. -/
def Check.validateTarget (c : Check) : Except Panic (Option ValidationError) :=
  if c.target.length > 2048 then .ok (some .invalidTargetValue)
  else c.type.map fun type ↦ validateTargetOf lib type c.target

/-- The rules of `Check.Validate` before the first use of the type, `checks_extra.go:381-395`. -/
def Check.earlyRules (c : Check) : List (Option ValidationError) :=
  [reject (c.tenantId = 0) .invalidTenantId,
    reject (c.probes = []) .invalidCheckProbes,
    reject (c.target = [] ∨ c.target = internalMarker) .invalidCheckTarget,
    reject (c.job = [] ∨ c.job = internalMarker) .invalidCheckJob]

/-- `Check.Validate`, `checks_extra.go:380-418`. -/
def Check.validate (c : Check) : Except Panic (Option ValidationError) :=
  firstOutcome (c.earlyRules.map .ok ++ [
    c.validateFrequency,
    c.validateTimeout,
    .ok (validateLabels c.labels),
    .ok (c.settings.validate lib),
    c.validateTarget lib])

/-- `checks_extra.go:581-584`; the timeout stands in for the frequency. -/
def AdHocCheck.validateTimeout (c : AdHocCheck) : Except Panic (Option ValidationError) :=
  c.type.map fun type ↦ Pb.validateTimeout type c.timeout c.timeout

/-- `checks_extra.go:586-626`; unlike `Check.validateTarget` it has no length rule. -/
def AdHocCheck.validateTarget (c : AdHocCheck) : Except Panic (Option ValidationError) :=
  c.type.map fun type ↦ validateTargetOf lib type c.target

/-- The rules of `AdHocCheck.Validate` before the first use of the type,
`checks_extra.go:554-564`. -/
def AdHocCheck.earlyRules (c : AdHocCheck) : List (Option ValidationError) :=
  [reject (c.tenantId < 0) .invalidTenantId,
    reject (c.probes = []) .invalidCheckProbes,
    reject (c.target = [] ∨ c.target = internalMarker) .invalidCheckTarget]

/-- `AdHocCheck.Validate`, `checks_extra.go:553-579`. -/
def AdHocCheck.validate (c : AdHocCheck) : Except Panic (Option ValidationError) :=
  firstOutcome (c.earlyRules.map .ok ++ [
    c.validateTimeout,
    .ok (c.settings.validate lib),
    c.validateTarget lib])

/-! ### Panics and the settings rule -/

private theorem firstOutcome_map_ok (rules : List (Option ValidationError)) :
    firstOutcome (rules.map .ok) = .ok (firstError rules) := by
  induction rules with
  | nil => rfl
  | cons rule rules ih =>
    cases rule with
    | none => exact ih
    | some err => rfl

private theorem firstOutcome_append_error (rules : List (Option ValidationError)) (p : Panic)
    (rest : List (Except Panic (Option ValidationError))) :
    firstOutcome (rules.map .ok ++ .error p :: rest) =
      match firstError rules with
      | none => .error p
      | some err => .ok (some err) := by
  induction rules with
  | nil => rfl
  | cons rule rules ih =>
    cases rule with
    | none => exact ih
    | some err => rfl

/-- The type switch succeeds exactly when some settings are present. -/
theorem CheckSettings.type_cases (s : CheckSettings) :
    (s.count ≠ 0 ∧ ∃ type, s.type = .ok type) ∨
      (s.count = 0 ∧ s.type = .error (.explicit (GoString.lit "unhandled check type"))) := by
  unfold CheckSettings.count CheckSettings.type
  cases hf : s.cases.find? Prod.fst with
  | none =>
    right
    refine ⟨?_, rfl⟩
    rw [List.countP_eq_zero]
    exact List.find?_eq_none.mp hf
  | some case =>
    left
    refine ⟨?_, case.2, rfl⟩
    apply Nat.ne_of_gt
    rw [List.countP_pos_iff]
    exact ⟨case, List.mem_of_find?_eq_some hf, List.find?_some hf⟩

/-- Validation that returns, with an error unless exactly one settings message is present. -/
def Robust (s : CheckSettings) (outcome : Except Panic (Option ValidationError)) : Prop :=
  ∃ err, outcome = .ok err ∧ (s.count ≠ 1 → err ≠ none)

/-- The rules of a validator from the first use of the type on: with a type they are `late`,
the settings rule among them, and without one the first of them panics. -/
structure Staged (s : CheckSettings) (rest : List (Except Panic (Option ValidationError)))
    (late : CheckType → List (Option ValidationError)) : Prop where
  ok : ∀ type, s.type = .ok type → rest = (late type).map .ok
  settings : ∀ type, s.validate lib ∈ late type
  error : ∀ p, s.type = .error p → rest.head? = some (.error p)

section Staged
variable {lib} {s : CheckSettings} {rest : List (Except Panic (Option ValidationError))}
  {late : CheckType → List (Option ValidationError)}

private theorem Staged.robust (h : Staged lib s rest late) (early : List (Option ValidationError))
    (hc : s.count ≠ 0 ∨ firstError early ≠ none) :
    Robust s (firstOutcome (early.map .ok ++ rest)) := by
  rcases s.type_cases with ⟨-, type, htype⟩ | ⟨h0, htype⟩
  · refine ⟨firstError (early ++ late type), ?_, ?_⟩
    · rw [h.ok type htype, ← List.map_append]
      exact firstOutcome_map_ok _
    · intro hone hnone
      have hs := (firstError_eq_none _).mp hnone _
        (List.mem_append_right early (h.settings type))
      rw [CheckSettings.validate, if_pos hone] at hs
      cases hs
  · obtain ⟨rest', rfl⟩ := List.head?_eq_some_iff.mp (h.error _ htype)
    rw [firstOutcome_append_error]
    obtain ⟨err, he⟩ := Option.ne_none_iff_exists'.mp (hc.resolve_left (not_not.mpr h0))
    rw [he]
    exact ⟨_, rfl, fun _ ↦ nofun⟩

private theorem Staged.returns (h : Staged lib s rest late) (early : List (Option ValidationError))
    (err : Option ValidationError) (he : firstOutcome (early.map .ok ++ rest) = .ok err) :
    s.count ≠ 0 ∨ firstError early ≠ none := by
  rcases s.type_cases with ⟨hc, -⟩ | ⟨-, htype⟩
  · exact .inl hc
  · right
    intro hnone
    obtain ⟨rest', rfl⟩ := List.head?_eq_some_iff.mp (h.error _ htype)
    rw [firstOutcome_append_error, hnone] at he
    cases he

end Staged

private theorem firstError_nil_ne_none : firstError [] ≠ none ↔ False := by
  rw [iff_false, not_not]
  rfl

private theorem firstError_cons_ne_none (rule : Option ValidationError)
    (rules : List (Option ValidationError)) :
    firstError (rule :: rules) ≠ none ↔ rule ≠ none ∨ firstError rules ≠ none := by
  rw [ne_eq, firstError_eq_none, List.forall_mem_cons, ← firstError_eq_none, not_and_or]

private theorem reject_ne_none (bad : Prop) [Decidable bad] (err : ValidationError) :
    reject bad err ≠ none ↔ bad := by
  rw [ne_eq, reject_eq_none, not_not]

/-- What the rules before the first use of the type refuse. -/
def Check.RejectedEarly (c : Check) : Prop :=
  c.tenantId = 0 ∨ c.probes = [] ∨ (c.target = [] ∨ c.target = internalMarker) ∨
    (c.job = [] ∨ c.job = internalMarker)

/-- What the rules before the first use of the type refuse. -/
def AdHocCheck.RejectedEarly (c : AdHocCheck) : Prop :=
  c.tenantId < 0 ∨ c.probes = [] ∨ (c.target = [] ∨ c.target = internalMarker)

private theorem Check.rejectedEarly_iff (c : Check) :
    firstError c.earlyRules ≠ none ↔ c.RejectedEarly := by
  simp only [earlyRules, firstError_cons_ne_none, firstError_nil_ne_none, reject_ne_none,
    or_false, RejectedEarly]

private theorem AdHocCheck.rejectedEarly_iff (c : AdHocCheck) :
    firstError c.earlyRules ≠ none ↔ c.RejectedEarly := by
  simp only [earlyRules, firstError_cons_ne_none, firstError_nil_ne_none, reject_ne_none,
    or_false, RejectedEarly]

private theorem Check.staged (c : Check) : Staged lib c.settings
    [c.validateFrequency, c.validateTimeout, .ok (validateLabels c.labels),
      .ok (c.settings.validate lib), c.validateTarget lib]
    fun type ↦ [
      reject (¬ inClosedRange c.frequency (minFrequency type) 3600000) .invalidCheckFrequency,
      Pb.validateTimeout type c.timeout c.frequency, validateLabels c.labels,
      c.settings.validate lib,
      if c.target.length > 2048 then some .invalidTargetValue
      else validateTargetOf lib type c.target] where
  ok type h := by
    simp only [validateFrequency, Check.validateTimeout, validateTarget, Check.type, h]
    split
    · rfl
    · rfl
  settings type := by simp
  error p h := by
    rw [validateFrequency, Check.type, h]
    rfl

private theorem AdHocCheck.staged (c : AdHocCheck) : Staged lib c.settings
    [c.validateTimeout, .ok (c.settings.validate lib), c.validateTarget lib]
    fun type ↦ [Pb.validateTimeout type c.timeout c.timeout, c.settings.validate lib,
      validateTargetOf lib type c.target] where
  ok type h := by
    rw [AdHocCheck.validateTimeout, validateTarget, AdHocCheck.type, h]
    rfl
  settings type := by simp
  error p h := by
    rw [AdHocCheck.validateTimeout, AdHocCheck.type, h]
    rfl

/-- `Check.Validate` returns exactly on checks with settings or refused early. -/
theorem Check.validate_returns_iff (c : Check) :
    (∃ err, c.validate lib = .ok err) ↔ c.settings.count ≠ 0 ∨ c.RejectedEarly := by
  rw [← c.rejectedEarly_iff]
  constructor
  · rintro ⟨err, h⟩
    exact (c.staged lib).returns c.earlyRules err h
  · intro h
    obtain ⟨err, he, -⟩ := (c.staged lib).robust c.earlyRules h
    exact ⟨err, he⟩

/-- `Check.Validate` is robust exactly on checks with settings or refused early. -/
theorem Check.robust_validate_iff (c : Check) :
    Robust c.settings (c.validate lib) ↔ c.settings.count ≠ 0 ∨ c.RejectedEarly := by
  constructor
  · rintro ⟨err, h, -⟩
    exact (c.validate_returns_iff lib).mp ⟨err, h⟩
  · rw [← c.rejectedEarly_iff]
    exact (c.staged lib).robust c.earlyRules

/-- `AdHocCheck.Validate` is robust exactly on checks with settings or refused early. -/
theorem AdHocCheck.robust_validate_iff (c : AdHocCheck) :
    Robust c.settings (c.validate lib) ↔ c.settings.count ≠ 0 ∨ c.RejectedEarly := by
  rw [← c.rejectedEarly_iff]
  constructor
  · rintro ⟨err, h, -⟩
    exact (c.staged lib).returns c.earlyRules err h
  · exact (c.staged lib).robust c.earlyRules

/-- A valid check has a type. -/
theorem Check.type_of_validate (c : Check) (h : c.validate lib = .ok none) :
    ∃ type, c.type = .ok type := by
  rcases c.settings.type_cases with ⟨-, htype⟩ | ⟨h0, -⟩
  · exact htype
  · obtain ⟨err, he, hne⟩ := (c.robust_validate_iff lib).mpr
      ((c.validate_returns_iff lib).mp ⟨none, h⟩)
    obtain rfl := Except.ok.inj (h.symm.trans he)
    exact absurd rfl (hne (by rw [h0]; decide))

/-- A valid check has a probe. -/
theorem Check.probes_ne_nil_of_validate (c : Check) (h : c.validate lib = .ok none) :
    c.probes ≠ [] := by
  obtain ⟨type, htype⟩ := c.type_of_validate lib h
  rw [Check.validate, (c.staged lib).ok type htype, ← List.map_append, firstOutcome_map_ok] at h
  have hrules := (firstError_eq_none _).mp (Except.ok.inj h)
  have hprobes : reject (c.probes = []) .invalidCheckProbes = none :=
    hrules _ (List.mem_append_left _ (by simp [earlyRules]))
  exact (reject_eq_none _ _).mp hprobes

/-- The labels of a valid check pass. -/
theorem Check.validateLabels_of_validate (c : Check) (h : c.validate lib = .ok none) :
    validateLabels c.labels = none := by
  obtain ⟨type, htype⟩ := c.type_of_validate lib h
  rw [Check.validate, (c.staged lib).ok type htype, ← List.map_append, firstOutcome_map_ok] at h
  have hrules := (firstError_eq_none _).mp (Except.ok.inj h)
  exact hrules _ (List.mem_append_right _ (by simp))

end Parsers

private theorem validateLabelsAfter_eq_none (seen : List GoString) (labels : List Label) :
    validateLabelsAfter seen labels = none ↔
      (∀ l ∈ labels, l.validate = none ∧ l.name ∉ seen) ∧ (labels.map Label.name).Nodup := by
  induction labels generalizing seen with
  | nil => simp [validateLabelsAfter]
  | cons l labels ih =>
    rw [validateLabelsAfter, List.map_cons, List.nodup_cons, List.forall_mem_cons]
    by_cases hseen : l.name ∈ seen
    · rw [if_pos hseen]
      exact ⟨nofun, fun h ↦ absurd hseen h.1.1.2⟩
    · rw [if_neg hseen]
      cases hl : l.validate with
      | some err => exact ⟨nofun, fun h ↦ nomatch h.1.1.1⟩
      | none =>
        rw [ih]
        simp only [List.mem_map, List.mem_cons, not_or, hseen]
        grind

/-- The labels pass exactly when each does and no name repeats. -/
theorem validateLabels_eq_none (labels : List Label) :
    validateLabels labels = none ↔
      (∀ l ∈ labels, l.validate = none) ∧ (labels.map Label.name).Nodup := by
  rw [validateLabels, validateLabelsAfter_eq_none]
  simp

end SMAgent.Pb
