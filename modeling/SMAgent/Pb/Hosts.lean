import SMAgent.Base.Net
import SMAgent.Base.Runes

/-!
# Host, address and URL rules

`pkg/pb/synthetic_monitoring/checks_extra.go:1312-1521`, with the errors of the package.
A validator returns its error, or `none` for nil.
-/

namespace SMAgent.Pb
open SMAgent.Base
open GoString (lit byte)

/-- The `Err…` values that the validation of a check or a probe returns,
`checks_extra.go:38-126`. -/
inductive ValidationError where
  | invalidTenantId | invalidCheckProbes | invalidCheckTarget | invalidCheckJob
  | invalidCheckFrequency | invalidCheckTimeout | invalidLabelName | invalidLabelValue
  | duplicateLabelName (name : GoString)
  | invalidTargetValue | invalidCheckSettings
  | invalidFQDNLength | invalidFQHNElements | invalidFQDNElementLength | invalidFQHNElement
  | invalidPingHostname | invalidPingPayloadSize | invalidPingPacketCount
  | invalidDnsName | invalidDnsNameElement | invalidDnsServer | invalidDnsPort
  | invalidHttpUrl | invalidHttpMethodValue | invalidHttpHeaders
  | invalidHttpFailIfBodyMatchesRegexp | invalidHttpFailIfBodyNotMatchesRegexp
  | invalidHttpFailIfHeaderMatchesRegexp | invalidHttpFailIfHeaderNotMatchesRegexp
  | httpUrlContainsPassword | httpUrlContainsUsername
  | invalidProxyConnectHeaders | invalidProxyUrl | invalidProxySettings
  | invalidTracerouteHostname | invalidK6Script | invalidMultiHttpTargets
  | tooManyMultiHttpTargets | tooManyMultiHttpAssertions | tooManyMultiHttpVariables
  | multiHttpVariableNamesNotUnique | invalidHostname | invalidPort
  | invalidHttpRequestBodyContentType | invalidQueryFieldName
  | invalidMultiHttpAssertion | invalidMultiHttpEntryVariable
  | invalidMultiHttpAssertionMissingValue | invalidMultiHttpAssertionExpressionNotAllowed
  | invalidProbeName | tooManyProbeLabels | invalidProbeLatitude | invalidProbeLongitude
  deriving DecidableEq, Repr

/-- `if bad { return err }`, as the first of several rules. -/
def reject (bad : Prop) [Decidable bad] (err : ValidationError) : Option ValidationError :=
  if bad then some err else none

/-- Rules in source order: the first error is returned. -/
def firstError (rules : List (Option ValidationError)) : Option ValidationError :=
  rules.findSome? id

/-- All rules pass exactly when each does. -/
theorem firstError_eq_none (rules : List (Option ValidationError)) :
    firstError rules = none ↔ ∀ rule ∈ rules, rule = none :=
  List.findSome?_eq_none_iff

/-- A rule passes exactly on good input. -/
theorem reject_eq_none (bad : Prop) [Decidable bad] (err : ValidationError) :
    reject bad err = none ↔ ¬ bad := by
  unfold reject
  split
  · next h => exact ⟨nofun, fun hn ↦ absurd h hn⟩
  · next h => exact ⟨fun _ ↦ h, fun _ ↦ rfl⟩

/-- An ASCII letter or digit, the closures of `checks_extra.go:1449-1455`. -/
def isLetterOrDigit (r : Rune) : Bool :=
  r.within 'a' 'z' || r.within 'A' 'Z' || r.within '0' '9'

/-- `checks_extra.go:1448-1509`; a label that is not empty has a first and a last rune. -/
def validateFQHNLabel (label : GoString) (isLast : Bool) : Option ValidationError :=
  let runes := label.runes
  firstError [
    reject (label.length = 0 ∨ label.length > 63) .invalidFQDNElementLength,
    reject (runes.head?.all isLetterOrDigit = false) .invalidFQHNElement,
    reject (runes.getLast?.all isLetterOrDigit = false) .invalidFQHNElement,
    reject (isLast ∧ runes.all (Rune.within · '0' '9')) .invalidFQHNElement,
    reject (runes.all (fun r ↦ isLetterOrDigit r || r == Rune.ofChar '-') = false)
      .invalidFQHNElement]

/-- `checks_extra.go:1514-1522`. -/
def validateDnsLabel (label : GoString) (_isLast : Bool) : Option ValidationError :=
  reject (label.length = 0 ∨ label.length > 63) .invalidDnsNameElement

/-- The loop over the labels of a name, each told whether it is the last. -/
def validateEachLabel (rule : GoString → Bool → Option ValidationError)
    (labels : List GoString) : Option ValidationError :=
  labels.zipIdx.findSome? fun (label, i) ↦ rule label (i == labels.length - 1)

/-- `checks_extra.go:1427-1446`. -/
def checkFQHN (fqhn : GoString) : Option ValidationError :=
  let labels := fqhn.split (byte '.')
  firstError [
    reject (fqhn.length = 0 ∨ fqhn.length > 255) .invalidFQDNLength,
    reject (labels.length < 2) .invalidFQHNElements,
    validateEachLabel validateFQHNLabel labels]

/-- `checks_extra.go:1324-1351`; one trailing dot is allowed. -/
def validateDnsTarget (target : GoString) : Option ValidationError :=
  let labels := target.split (byte '.')
  if labels.length = 1 then reject (target ≠ lit "localhost") .invalidDnsName
  else if labels.getLast? = some [] then validateEachLabel validateDnsLabel labels.dropLast
  else validateEachLabel validateDnsLabel labels

section Parsers
variable (lib : Stdlib)

/-- `checks_extra.go:1312-1318`. -/
def validateHost (target : GoString) : Option ValidationError :=
  if lib.parseIP target then none else checkFQHN target

/-- `checks_extra.go:1353-1363`. -/
def validateHostPort (target : GoString) : Option ValidationError :=
  match target.splitHostPort with
  | none => some .invalidCheckTarget
  | some (host, port) => firstError [
      reject (validateHost lib host ≠ none) .invalidHostname,
      reject ((port.parseUint 16).getD 0 = 0) .invalidPort]

/-- The closure `hasPort` of `checks_extra.go:1392-1403`; the first byte is not inspected. -/
def hasPort (h : GoString) : Bool :=
  (h.drop 1).reverse.find? (· ∈ lit ":].") == some (byte ':')

/-- The host of a URL with the port it implies, `checks_extra.go:1405-1413`. -/
def hostportOf (u : URL) : GoString :=
  if u.host.head? = some (byte '[') ∧ u.host.getLast? = some (byte ']') ∨
      hasPort u.host = false then
    u.host ++ (if u.scheme = lit "https" then lit ":443" else lit ":80")
  else u.host

/-- A scheme that checks and proxies may use. -/
def httpScheme (u : URL) : Prop :=
  u.scheme = lit "http" ∨ u.scheme = lit "https"

instance (u : URL) : Decidable (httpScheme u) := inferInstanceAs (Decidable (_ ∨ _))

/-- `checks_extra.go:1365-1416`. -/
def validateHttpUrl (target : GoString) : Option ValidationError :=
  if target.length ≠ target.trimSpace.length then some .invalidHttpUrl
  else match lib.urlParse target with
  | none => some .invalidHttpUrl
  | some u => firstError [
      reject u.passwordSet .httpUrlContainsPassword,
      reject (u.username ≠ []) .httpUrlContainsUsername,
      reject (¬ httpScheme u) .invalidHttpUrl,
      reject (u.host = []) .invalidHostname,
      validateHostPort lib (hostportOf u)]

end Parsers
end SMAgent.Pb
