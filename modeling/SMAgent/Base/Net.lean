import Mathlib.Algebra.Ring.Nat
import SMAgent.Base.GoString

/-!
# Field syntax, addresses and numbers

The parts of `golang.org/x/net/http/httpguts`, `net/textproto`, `net` and `strconv` that
the validators and the header code call. The four parsers of `Stdlib` stay parameters:
every result holds for whatever they accept.
-/

namespace SMAgent.Base

/-- What the code reads of a parsed `url.URL`; a URL without user info has an empty user
name and no password. -/
structure URL where
  scheme : GoString
  host : GoString
  username : GoString := []
  passwordSet : Bool := false
  deriving DecidableEq, Repr

/-- Standard library parsers whose verdict the code takes as it is. -/
structure Stdlib where
  /-- `net.ParseIP(s) != nil` -/
  parseIP : GoString → Bool
  /-- `url.Parse` -/
  urlParse : GoString → Option URL
  /-- `regexp.Compile` succeeds -/
  regexpCompile : GoString → Bool
  /-- `mime.ParseMediaType` succeeds -/
  parseMediaType : GoString → Bool

/-- Parsers that refuse addresses and accept the rest, each URL as one of `www.example.org`. -/
def Stdlib.permissive : Stdlib where
  parseIP _ := false
  urlParse _ := some { scheme := GoString.lit "http", host := GoString.lit "www.example.org" }
  regexpCompile _ := true
  parseMediaType _ := true

namespace GoString

/-- An ASCII lower case letter. -/
def isLower (b : UInt8) : Bool := decide (byte 'a' ≤ b ∧ b ≤ byte 'z')

/-- An ASCII upper case letter. -/
def isUpper (b : UInt8) : Bool := decide (byte 'A' ≤ b ∧ b ≤ byte 'Z')

/-- An ASCII digit. -/
def isDigit (b : UInt8) : Bool := decide (byte '0' ≤ b ∧ b ≤ byte '9')

/-- The bytes of an RFC 7230 token: `httpguts.IsTokenRune`, `textproto.validHeaderFieldByte`. -/
def isTokenByte (b : UInt8) : Bool :=
  isLower b || isUpper b || isDigit b || decide (b ∈ lit "!#$%&'*+-.^_\x60|~")

/-- `httpguts.ValidHeaderFieldName`. -/
def validHeaderFieldName (v : GoString) : Bool := !v.isEmpty && v.all isTokenByte

/-- `httpguts.ValidHeaderFieldValue`: no control byte other than a tab. -/
def validHeaderFieldValue (v : GoString) : Bool :=
  v.all fun b ↦ !((b < 0x20 || b == 0x7f) && b != 0x09)

-- `upper` tells whether the next letter starts a word.
private def canonicalBytes : Bool → GoString → GoString
  | _, [] => []
  | upper, b :: rest =>
    let c := if upper && isLower b then b - 32 else if !upper && isUpper b then b + 32 else b
    c :: canonicalBytes (c == byte '-') rest

/-- `http.CanonicalHeaderKey`: a key with an invalid byte is returned unchanged. -/
def canonicalHeaderKey (s : GoString) : GoString :=
  if s.all isTokenByte then canonicalBytes true s else s

-- One byte of `strings.ToLower`.
private def lowerByte (b : UInt8) : UInt8 := if isUpper b then b + 32 else b

/-- `strings.ToLower` on ASCII strings. -/
def toLower (s : GoString) : GoString := s.map lowerByte

private theorem isLower_lowerByte {b : UInt8} (h : isUpper b = true) :
    isLower (b + 32) = true ∧ isUpper (b + 32) = false ∧ b + 32 - 32 = b ∧ isLower b = false := by
  simp only [isUpper, isLower, decide_eq_true_eq, decide_eq_false_iff_not, UInt8.le_iff_toNat_le,
    UInt8.toNat_add, show (byte 'A').toNat = 65 from rfl, show (byte 'Z').toNat = 90 from rfl,
    show (byte 'a').toNat = 97 from rfl, show (byte 'z').toNat = 122 from rfl,
    show (32 : UInt8).toNat = 32 from rfl] at h ⊢
  refine ⟨by omega, by omega, UInt8.add_sub_cancel b 32, by omega⟩

private theorem canonicalBytes_toLower (upper : Bool) (s : GoString) :
    canonicalBytes upper s.toLower = canonicalBytes upper s := by
  induction s generalizing upper with
  | nil => rfl
  | cons b s ih =>
    have hbyte : (if upper && isLower (lowerByte b) then lowerByte b - 32
        else if !upper && isUpper (lowerByte b) then lowerByte b + 32 else lowerByte b)
        = if upper && isLower b then b - 32 else if !upper && isUpper b then b + 32 else b := by
      unfold lowerByte
      split
      · next hb =>
        have ⟨hlower, hupper, hback, hnot⟩ := isLower_lowerByte hb
        cases upper <;> simp [hlower, hupper, hback, hnot, hb]
      · rfl
    show canonicalBytes upper (lowerByte b :: toLower s) = _
    simp only [canonicalBytes, hbyte, ih]

/-- Names that differ in case only have one canonical key. -/
theorem canonicalHeaderKey_congr {a b : GoString} (ha : a.validHeaderFieldName = true)
    (hb : b.validHeaderFieldName = true) (h : a.toLower = b.toLower) :
    a.canonicalHeaderKey = b.canonicalHeaderKey := by
  rw [validHeaderFieldName, Bool.and_eq_true] at ha hb
  rw [canonicalHeaderKey, canonicalHeaderKey, if_pos ha.2, if_pos hb.2,
    ← canonicalBytes_toLower, h, canonicalBytes_toLower]

/-- A field name has no byte that is not of a token. -/
theorem notMem_of_validHeaderFieldName {a : GoString} (h : a.validHeaderFieldName = true)
    {b : UInt8} (hb : isTokenByte b = false) : b ∉ a := by
  rw [validHeaderFieldName, Bool.and_eq_true] at h
  intro hmem
  have := List.all_eq_true.mp h.2 b hmem
  rw [hb] at this
  cases this

/-- `net.SplitHostPort`; `none` is an error. -/
def splitHostPort (hostport : GoString) : Option (GoString × GoString) :=
  if byte ':' ∉ hostport then none
  else
    let port := (hostport.reverse.takeWhile (· != byte ':')).reverse
    let front := hostport.take (hostport.length - port.length - 1)
    match front with
    | [] => if byte '[' ∈ port ∨ byte ']' ∈ port then none else some ([], port)
    | first :: inner =>
      if first = byte '[' then
        -- the first ']' has to be the last byte before the port's colon
        if byte ']' ∈ front ∧ inner.idxOf (byte ']') + 1 = inner.length then
          let host := inner.dropLast
          if byte '[' ∈ inner ∨ byte '[' ∈ port ∨ byte ']' ∈ port then none else some (host, port)
        else none
      else if byte ':' ∈ front then none
      else if byte '[' ∈ hostport ∨ byte ']' ∈ hostport then none
      else some (front, port)

/-- `strconv.ParseUint(s, 10, bits)`; `none` is an error. -/
def parseUint (s : GoString) (bits : Nat) : Option Nat :=
  if s.isEmpty || !s.all isDigit then none
  else
    let n := s.foldl (fun n b ↦ n * 10 + (b.toNat - 48)) 0
    if n < 2 ^ bits then some n else none

end GoString
end SMAgent.Base
