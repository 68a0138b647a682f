import SMAgent.Base.Delimited
import SMAgent.Model.Check
import SMAgent.Multihttp.Script

/-!
# Interpolation of secrets

`internal/prober/interpolation/interpolation.go:13-173` and its caller
`internal/prober/http/http.go:210-226`. The answers of a secret provider may depend on
everything it was asked before, and each run records what it asked. A call returns a string
and an error, as in the source. Log lines are left out, and so are the lengths of the matches,
which the regular expressions fix.
-/

namespace SMAgent.Prober
open SMAgent.Base SMAgent.Base.Delimited SMAgent.Model
open GoString (byte)

/-- A question to the secret provider: the tenant and the name. -/
abbrev Asked := GlobalID × GoString

/-- `SecretProvider`, `interpolation.go:24-27`: the answer to a question after others. -/
abbrev SecretProvider := List Asked → GlobalID → GoString → Except GoString GoString

/-- `Resolver`, `interpolation.go:29-37`; `variableEnabled` is `variableProvider != nil`. -/
structure Resolver where
  variableProvider : Option (GoString → Except GoString GoString)
  secretProvider : SecretProvider
  tenantID : GlobalID
  secretEnabled : Bool

/-- What `Resolve` returns, and what it asked the secret provider. -/
structure Resolved where
  value : GoString
  err : Option GoString
  asked : List Asked
  deriving DecidableEq, Repr

/-! ### Variables -/

/-- `VariableRegex` at the start of a text: the name, and the text after the match. -/
def variableAt : GoString → Option (GoString × GoString)
  | dollar :: brace :: rest =>
    if dollar = byte '$' ∧ brace = byte '{' then
      let isByte := fun b ↦ Multihttp.isNameByte b || b == byte '-'
      match rest.takeWhile isByte, rest.dropWhile isByte with
      | first :: name, close :: after =>
        if Multihttp.isNameStart first ∧ close = byte '}' then some (first :: name, after)
        else none
      | _, _ => none
    else none
  | _ => none

/-- The names in `VariableRegex.FindAllStringSubmatch(s, -1)`. Every round takes a byte, so the
length of the text is enough fuel. -/
def variableMatches : Nat → GoString → List GoString
  | 0, _ => []
  | fuel + 1, s =>
    match variableAt s with
    | some (name, after) => name :: variableMatches fuel after
    | none =>
      match s with
      | [] => []
      | _ :: rest => variableMatches fuel rest

/-- `processVariables`, `interpolation.go:129-158`. -/
def Resolver.processVariables (r : Resolver) (value : GoString) : GoString :=
  match r.variableProvider with
  | none => value
  | some getVariable =>
    (variableMatches value.length value).foldl (fun result varName ↦
      match getVariable varName with
      | .error _ => result
      | .ok varValue =>
        result.replaceAll (.lit "$\x7b" ++ varName ++ .lit "\x7d") varValue) value

/-! ### Secrets -/

/-- `[a-z0-9]`. -/
def isAlphanumeric (b : UInt8) : Bool :=
  (byte 'a' ≤ b && b ≤ byte 'z') ||
    (byte '0' ≤ b && b ≤ byte '9')

/-- `[a-z0-9\-\.]`. -/
def isSecretNameByte (b : UInt8) : Bool :=
  isAlphanumeric b || b == byte '-' || b == byte '.'

/-- `^[a-z0-9]([a-z0-9\-\.]*[a-z0-9])?$`. -/
def matchesSecretName : GoString → Bool
  | [] => false
  | first :: rest =>
    isAlphanumeric first &&
      (rest.isEmpty || rest.dropLast.all isSecretNameByte && rest.getLast?.any isAlphanumeric)

/-- `isValidSecretName`, `interpolation.go:160-173`. -/
def isValidSecretName (name : GoString) : Bool :=
  if name.length = 0 ∨ name.length > 253 then false else matchesSecretName name

/-- `secretMatch`, `interpolation.go:63-67`, without the placeholder, which is not read. -/
structure SecretMatch where
  start : Nat
  stop : Nat
  name : GoString
  deriving DecidableEq, Repr

/-- The text before a name in `SecretRegex`. -/
def secretOpening : GoString := .lit "$\x7bsecrets."

/-- The byte after a name in `SecretRegex`. -/
def secretClosing : UInt8 := byte '}'

/-- `SecretRegex.FindAllStringSubmatchIndex(value, -1)`. -/
def findSecrets (value : GoString) : List Loc :=
  findAll secretOpening secretClosing value.length 0 value

/-- The first loop of `Resolve`, `interpolation.go:71-91`: the matches, or the error for the
first name that is not valid. -/
def secretMatches (value : GoString) :
    List SecretMatch → List Loc → Except Panic (Except GoString (List SecretMatch))
  | found, [] => .ok (.ok found)
  | found, loc :: locs => do
    let secretName ← value.slice loc.nameStart loc.nameStop
    if isValidSecretName secretName = false then
      return .error (.lit "invalid secret name '" ++ secretName ++
        .lit "': must follow Kubernetes DNS subdomain naming convention")
    else secretMatches value (found ++ [⟨loc.start, loc.stop, secretName⟩]) locs

/-- A part that is no secret is written after its variables are replaced,
`interpolation.go:100-104` and `120-124`. -/
def Resolver.writePart (r : Resolver) (result part : GoString) : GoString :=
  if part ≠ [] then result ++ r.processVariables part else result

/-- The second loop of `Resolve`, `interpolation.go:93-126`. -/
def Resolver.rebuild (r : Resolver) (value : GoString) :
    List SecretMatch → Nat → GoString → List Asked → Except Panic Resolved
  | [], lastPos, result, asked => do
    let remainingPart ← value.slice lastPos value.length
    return ⟨r.writePart result remainingPart, none, asked⟩
  | secretMatch :: secretMatches, lastPos, result, asked => do
    let nonSecretPart ← value.slice lastPos secretMatch.start
    let result := r.writePart result nonSecretPart
    let asked' := asked ++ [(r.tenantID, secretMatch.name)]
    match r.secretProvider asked r.tenantID secretMatch.name with
    | .error err =>
      return ⟨[], some (.lit "failed to get secret '" ++ secretMatch.name ++ .lit "' from GSM: " ++
        err), asked'⟩
    | .ok secretValue =>
      r.rebuild value secretMatches secretMatch.stop (result ++ secretValue) asked'

/-- `Resolve` past its two guards, `interpolation.go:62-126`. -/
def Resolver.resolveSecrets (r : Resolver) (value : GoString) : Except Panic Resolved := do
  match ← secretMatches value [] (findSecrets value) with
  | .error err => return ⟨[], some err, []⟩
  | .ok found => r.rebuild value found 0 [] []

/-- `Resolve`, `interpolation.go:51-127`. -/
def Resolver.resolve (r : Resolver) (value : GoString) : Except Panic Resolved :=
  if value = [] then .ok ⟨[], none, []⟩
  else if r.secretEnabled = false then .ok ⟨r.processVariables value, none, []⟩
  else r.resolveSecrets value

/-- `resolveSecretValue`, `http.go:210-226`. -/
def resolveSecretValue (value : GoString) (secretStore : SecretProvider) (tenantID : GlobalID)
    (secretManagerEnabled : Bool) : Except Panic Resolved :=
  if value = [] then .ok ⟨[], none, []⟩
  else if secretManagerEnabled = false then .ok ⟨value, none, []⟩
  else Resolver.resolve ⟨none, secretStore, tenantID, secretManagerEnabled⟩ value

end SMAgent.Prober
