import SMAgent.Base.GoString

/-!
# The remote write client

`internal/pkg/prom/prom.go:35-66` and `395-453`: the errors of the client, what Go's
`errors.Is` and `errors.Unwrap` see of them, and how a push ends. `recoverableError` embeds
an `error`, which promotes `Error` only: it has neither an `Unwrap` nor an `Is` method.
-/

namespace SMAgent.Prom
open SMAgent.Base

/-- The error values of the `context` package. -/
inductive Sentinel where
  | canceled
  | deadlineExceeded
  deriving DecidableEq, Repr

/-- A Go error as a tree. `sentinel` tells which context error a node is equal to, or says it
is through an `Is` method. -/
inductive Err where
  /-- an error that wraps nothing -/
  | leaf (text : GoString) (sentinel : Option Sentinel)
  /-- an error with `Unwrap() error`, such as `*url.Error` -/
  | wrap (text : GoString) (sentinel : Option Sentinel) (inner : Err)
  /-- an error with `Unwrap() []error`; a longer list is nested -/
  | join (text : GoString) (first second : Err)
  /-- `*HttpError`, `prom.go:43-55` -/
  | http (statusCode : Nat) (status : GoString) (err : Err)
  /-- `recoverableError`, `prom.go:35-41` -/
  | recoverable (cause : Err)
  deriving DecidableEq, Repr

/-- `context.Canceled`. -/
def Err.contextCanceled : Err := .leaf (GoString.lit "context canceled") (some .canceled)

/-- `err.Error()`. -/
def Err.text : Err → GoString
  | .leaf text _ => text
  | .wrap text _ _ => text
  | .join text _ _ => text
  | .http _ _ err => err.text
  | .recoverable cause => cause.text

/-- `errors.Is(err, target)`: only `Unwrap` methods are followed. -/
def Err.is (target : Sentinel) : Err → Bool
  | .leaf _ sentinel => sentinel == some target
  | .wrap _ sentinel inner => sentinel == some target || inner.is target
  | .join _ first second => first.is target || second.is target
  | .http _ _ err => err.is target
  | .recoverable _ => false

/-- `GetHttpStatusCode`, `prom.go:57-66`; `errors.Unwrap` of a list is nil. -/
def getHttpStatusCode : Err → Option Nat
  | .leaf _ _ => none
  | .wrap _ _ inner => getHttpStatusCode inner
  | .join _ _ _ => none
  | .http statusCode _ _ => some statusCode
  | .recoverable _ => none

/-- How the request of `StoreStream` ends. -/
inductive Outcome where
  /-- `http.NewRequest` fails -/
  | badRequest (err : Err)
  /-- `client.Do` fails -/
  | transport (err : Err)
  /-- the server answers -/
  | response (statusCode : Nat) (status body : GoString)
  deriving DecidableEq, Repr

/-- The first line of the first 256 bytes of a body, as `bufio.Scanner` returns it. -/
def firstLine (body : GoString) : GoString :=
  let line := (body.take 256).takeWhile (· != GoString.byte '\n')
  if line.getLast? = some (GoString.byte '\r') then line.dropLast else line

/-- The text of the error for a response, `prom.go:444`. -/
def responseText (status body : GoString) : GoString :=
  GoString.lit "server returned HTTP status " ++ status ++ GoString.lit ": " ++ firstLine body

/-- `Client.StoreStream`, `prom.go:395-453`; `none` is nil. -/
def storeStream : Outcome → Option Err
  | .badRequest err => some err
  | .transport err => some (.recoverable err)
  | .response statusCode status body =>
    let err := Err.http statusCode status (.leaf (responseText status body) none)
    if statusCode / 100 = 2 then none
    else if statusCode / 100 = 5 then some (.recoverable err)
    else some err

end SMAgent.Prom
