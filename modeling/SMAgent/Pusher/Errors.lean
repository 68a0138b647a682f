import SMAgent.Prom.Client

/-!
# Classification of push errors

`internal/pusher/v2/errors.go`. The error of a push is given a status code and a kind that
decides what becomes of the batch and of the tenant's handler. The classifier sees only
what `errors.Is` and `errors.Unwrap` reach; the wrapper that the client puts around server
errors and transport errors hides what it holds.
-/

namespace SMAgent.Pusher
open SMAgent.Base SMAgent.Prom
open GoString (lit)

/-- `errKind`, `errors.go:14-26`. -/
inductive ErrKind where
  | noError | network | payload | wait | tenant | fatal | terminated | limit
  deriving DecidableEq, Repr

/-- `pushError`, `errors.go:52-55`. -/
structure PushError where
  kind : ErrKind
  inner : Option Err
  deriving DecidableEq, Repr

/-- An entry of `httpCodeMappings`: the kind, and the kinds for texts that hold a substring. -/
structure Mapping where
  kind : ErrKind
  alternatives : List (GoString × ErrKind) := []
  deriving DecidableEq, Repr

/-- `errors.go:79-154`. -/
def httpCodeMappings : Nat → Option Mapping
  | 1 => some ⟨.network, []⟩
  | 2 => some ⟨.noError, []⟩
  | 3 => some ⟨.fatal, []⟩
  | 4 => some ⟨.payload, []⟩
  | 5 => some ⟨.network, []⟩
  | 500 => some ⟨.network,
      [(lit "looks like there is an issue with this instance", .tenant)]⟩
  | 400 => some ⟨.payload, [(lit "err-mimir-max-series-per-user", .fatal)]⟩
  | 429 => some ⟨.wait,
      [(lit "limit: 0 ", .fatal),
        (lit "Maximum active stream limit exceeded", .limit)]⟩
  | 401 => some ⟨.tenant, []⟩
  | 403 => some ⟨.fatal, []⟩
  | 404 => some ⟨.fatal, []⟩
  | 405 => some ⟨.fatal, []⟩
  | 408 => some ⟨.network, []⟩
  | _ => none

/-- The loop over the alternatives of a mapping, `errors.go:212-227`. -/
def Mapping.kindFor (m : Mapping) (errText : GoString) : ErrKind :=
  match m.alternatives.find? fun alt ↦ errText.contains alt.1 with
  | some alt => alt.2
  | none => m.kind

/-- `parsePublishError`, `errors.go:159-228`. -/
def parsePublishError : Option Err → Nat × PushError
  | none => (200, ⟨.noError, none⟩)
  | some err =>
    if err.is .canceled then (0, ⟨.terminated, some Err.contextCanceled⟩)
    else if err.is .deadlineExceeded then (0, ⟨.network, some err⟩)
    else match getHttpStatusCode err with
    | none => (0, ⟨.network, some err⟩)
    | some code =>
      match httpCodeMappings code <|> httpCodeMappings (code / 100) with
      | none => (code, ⟨.fatal, some err⟩)
      | some mapping => (code, ⟨mapping.kindFor err.text, some err⟩)

/-! ### End to end -/

/-- The kind that the table gives a response: the entry for its code, or else for the class
of its code, with the first alternative that the text holds. -/
def kindOfResponse (code : Nat) (text : GoString) : Option ErrKind :=
  match httpCodeMappings code, httpCodeMappings (code / 100) with
  | some exact, _ => some (exact.kindFor text)
  | none, some class_ => some (class_.kindFor text)
  | none, none => none

/-- The classification of a push agrees with how the push ended: an error response has its
own code and the kind of the table, and a cancelled push is terminated. -/
def Classified (outcome : Outcome) : Prop :=
  match outcome with
  | .response code status body =>
    code / 100 ≠ 2 →
      (parsePublishError (storeStream outcome)).1 = code ∧
        some (parsePublishError (storeStream outcome)).2.kind =
          kindOfResponse code (responseText status body)
  | .transport err =>
    err.is .canceled → (parsePublishError (storeStream outcome)).2.kind = .terminated
  | .badRequest _ => True

/-- The client wraps nothing that the classifier would have to see. -/
def Visible : Outcome → Prop
  | .response code _ _ => code / 100 ≠ 5
  | .transport err => err.is .canceled = false
  | .badRequest _ => True

/-- A wrapped error is classified as a network error without a status code. -/
theorem parsePublishError_recoverable (cause : Err) :
    parsePublishError (some (.recoverable cause)) = (0, ⟨.network, some (.recoverable cause)⟩) :=
  rfl

private theorem class_mapped (code : Nat) (h : 100 ≤ code ∧ code ≤ 599) :
    ∃ m, httpCodeMappings (code / 100) = some m := by
  have hclass : code / 100 = 1 ∨ code / 100 = 2 ∨ code / 100 = 3 ∨ code / 100 = 4 ∨
      code / 100 = 5 := by omega
  rcases hclass with h | h | h | h | h
  all_goals exact ⟨_, by rw [h, httpCodeMappings]⟩

/-- An error response that is not wrapped is looked up. -/
theorem parsePublishError_leaf (code : Nat) (status text : GoString) :
    parsePublishError (some (.http code status (.leaf text none))) =
      match httpCodeMappings code <|> httpCodeMappings (code / 100) with
      | none => (code, ⟨.fatal, some (.http code status (.leaf text none))⟩)
      | some mapping =>
        (code, ⟨mapping.kindFor text, some (.http code status (.leaf text none))⟩) := rfl

/-- An error response that is not wrapped is classified by the table. -/
theorem parsePublishError_http (code : Nat) (status text : GoString)
    (h : 100 ≤ code ∧ code ≤ 599) :
    (parsePublishError (some (.http code status (.leaf text none)))).1 = code ∧
      some (parsePublishError (some (.http code status (.leaf text none)))).2.kind =
        kindOfResponse code text := by
  obtain ⟨m, hm⟩ := class_mapped code h
  rw [parsePublishError_leaf, kindOfResponse, hm]
  cases httpCodeMappings code with
  | none => exact ⟨rfl, rfl⟩
  | some exact => exact ⟨rfl, rfl⟩

/-- A push is classified as it ended exactly when the client did not wrap a server error or
a cancellation. -/
theorem classified_iff_visible (outcome : Outcome)
    (h : ∀ code status body, outcome = .response code status body → 100 ≤ code ∧ code ≤ 599) :
    Classified outcome ↔ Visible outcome := by
  cases outcome with
  | badRequest err => exact Iff.rfl
  | transport err =>
    rw [Classified, Visible, storeStream, parsePublishError_recoverable, ← Bool.not_eq_true]
    exact imp_congr_right fun _ ↦ iff_of_false nofun id
  | response code status body =>
    have hcode := h code status body rfl
    rw [Classified, Visible]
    simp only [storeStream]
    constructor
    · intro hclass h5
      rw [if_neg (by omega), if_pos h5, parsePublishError_recoverable] at hclass
      have hzero := (hclass (by omega)).1
      dsimp only at hzero
      omega
    · intro h5 h2
      rw [if_neg h2, if_neg h5]
      exact parsePublishError_http code status _ hcode

/-- A refused stream limit is classified by its text. -/
theorem classified_active_stream_limit :
    Classified (.response 429 (lit "429 Too Many Requests")
      (lit "Maximum active stream limit exceeded")) := by
  refine (classified_iff_visible _ ?_).mpr (by decide : 429 / 100 ≠ 5)
  intro code status body h
  obtain ⟨rfl, -, -⟩ := Outcome.response.inj h
  decide

/-- The report of a paused instance loses its status code and its kind, and a cancelled push
is taken for a network error. -/
theorem classified_hidden_by_recoverableError :
    ¬ Classified (.response 500 (lit "500 Internal Server Error")
        (lit "It looks like there is an issue with this instance")) ∧
      ¬ Classified (.transport (.wrap (lit "Post: context canceled") none
        Err.contextCanceled)) := by
  constructor
  · intro h
    have hcode := (h (by decide)).1
    revert hcode
    decide
  · intro h
    have hkind := h (by decide)
    revert hkind
    decide

end SMAgent.Pusher
