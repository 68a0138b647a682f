import SMAgent.Base.GoMap
import SMAgent.Pb.Validate

/-!
# Reserved headers of multi-HTTP checks

`internal/prober/multihttp/multihttp.go:110-134`. One slice of headers is filled with the
reserved headers and then extended by every entry in turn, so an entry's request is sent
with the headers of all entries before it. Requests keep their own headers only when no
entry but the last has a header that is not reserved.
-/

namespace SMAgent.Multihttp
open SMAgent.Base SMAgent.Pb
open GoString (lit byte)

/-- `http.Header`. -/
abbrev Header := GoMap GoString (List GoString)

/-- The reserved headers in the order of the traversal, `multihttp.go:113-116`. -/
def reservedList (reserved : Header) : List HttpHeader :=
  reserved.range.map fun (key, values) ↦ ⟨key, GoString.join values (byte ',')⟩

/-- The variable `present` of `multihttp.go:121`. -/
def present (reserved : Header) (header : HttpHeader) : Bool :=
  (reserved.lookup header.name.canonicalHeaderKey).isSome

/-- The user's headers of a request that no reserved header overrides. -/
def ownHeaders (reserved : Header) (request : MultiHttpEntryRequest) : List HttpHeader :=
  request.headers.filter fun header ↦ !present reserved header

/-- `entry.Request.Headers = headers`, for the request of the entry. -/
def setHeaders (entry : MultiHttpEntry) (request : MultiHttpEntryRequest)
    (headers : List HttpHeader) : MultiHttpEntry :=
  { entry with request := some { request with headers } }

/-- The entry loop, `multihttp.go:118-133`; `updatedHeaders` lives across its rounds. -/
def augmentEntries (reserved : Header) (updatedHeaders : List HttpHeader) :
    List MultiHttpEntry → Except Panic (List MultiHttpEntry)
  | [] => .ok []
  | entry :: entries =>
    match entry.request with
    | none => .error .nilDereference
    | some request =>
      let updatedHeaders := updatedHeaders ++ ownHeaders reserved request
      (augmentEntries reserved updatedHeaders entries).map
        (setHeaders entry request updatedHeaders :: ·)

/-- `multihttp.go:112-134`; the settings are updated in place. -/
def augmentHttpHeaders (check : Check) (reserved : Header) : Except Panic Check :=
  match check.settings.multihttp with
  | none => .error .nilDereference
  | some s => (augmentEntries reserved (reservedList reserved) s.entries).map fun entries ↦
      { check with settings := { check.settings with multihttp := some { s with entries } } }

/-! ### Isolation -/

/-- An entry is sent with the reserved headers, in some order, and then its own headers;
nothing else about it changes. -/
def EntryIsolated (reserved : Header) (before after : MultiHttpEntry) : Prop :=
  ∃ request first, before.request = some request ∧ first.Perm (reservedList reserved) ∧
    after = setHeaders before request (first ++ ownHeaders reserved request)

/-- Every entry of the settings is isolated. -/
def HeadersIsolated (reserved : Header) (s : MultiHttpSettings) (check : Check) : Prop :=
  ∃ s', check.settings.multihttp = some s' ∧
    s.entries.Forall₂ (EntryIsolated reserved) s'.entries

/-- Every entry but the last has reserved headers only. -/
def OnlyLastHasOwn (reserved : Header) (entries : List MultiHttpEntry) : Prop :=
  ∀ entry ∈ entries.dropLast, ∀ request, entry.request = some request →
    ∀ header ∈ request.headers, present reserved header

private theorem request_isSome_of_validate (lib : Stdlib) (s : MultiHttpSettings)
    (h : s.validate lib = none) : ∀ entry ∈ s.entries, ∃ r, entry.request = some r := by
  intro entry he
  have hentry := s.validate_entry lib h entry he
  cases hr : entry.request with
  | none => simp [MultiHttpEntry.validate, hr] at hentry
  | some r => exact ⟨r, rfl⟩

private theorem entryIsolated_iff (reserved : Header) (extra : List HttpHeader)
    (entry : MultiHttpEntry) (request : MultiHttpEntryRequest)
    (h : entry.request = some request) :
    EntryIsolated reserved entry (setHeaders entry request
      (reservedList reserved ++ extra ++ ownHeaders reserved request)) ↔ extra = [] := by
  constructor
  · rintro ⟨request', first, hr, hp, he⟩
    obtain rfl := Option.some.inj (h.symm.trans hr)
    have hh := congrArg MultiHttpEntryRequest.headers
      (Option.some.inj (congrArg MultiHttpEntry.request he))
    have hl := congrArg List.length (List.append_cancel_right hh)
    rw [List.length_append, hp.length_eq] at hl
    apply List.length_eq_zero_iff.mp
    omega
  · rintro rfl
    exact ⟨request, reservedList reserved, h, List.Perm.refl _, by rw [List.append_nil]⟩

private theorem onlyLastHasOwn_cons (reserved : Header) (entry : MultiHttpEntry)
    (entries : List MultiHttpEntry) (request : MultiHttpEntryRequest)
    (h : entry.request = some request) :
    OnlyLastHasOwn reserved (entry :: entries) ↔
      (entries ≠ [] → ownHeaders reserved request = []) ∧ OnlyLastHasOwn reserved entries := by
  cases entries with
  | nil => simp [OnlyLastHasOwn]
  | cons second rest =>
    rw [OnlyLastHasOwn, List.dropLast_cons_cons, List.forall_mem_cons, ← OnlyLastHasOwn, h]
    simp [ownHeaders]

-- `extra` are the headers of the entries already visited.
private theorem augmentEntries_isolated (reserved : Header) (entries : List MultiHttpEntry) :
    ∀ extra : List HttpHeader, (∀ entry ∈ entries, ∃ r, entry.request = some r) →
      ∃ out, augmentEntries reserved (reservedList reserved ++ extra) entries = .ok out ∧
        (entries.Forall₂ (EntryIsolated reserved) out ↔
          (entries ≠ [] → extra = []) ∧ OnlyLastHasOwn reserved entries) := by
  induction entries with
  | nil =>
    intro extra _
    refine ⟨[], rfl, ?_⟩
    simp [OnlyLastHasOwn]
  | cons entry entries ih =>
    intro extra hreq
    obtain ⟨request, hr⟩ := hreq entry List.mem_cons_self
    obtain ⟨out, hout, hiso⟩ := ih (extra ++ ownHeaders reserved request)
      (List.forall_mem_cons.mp hreq).2
    rw [← List.append_assoc] at hout
    refine ⟨setHeaders entry request (reservedList reserved ++ extra ++
      ownHeaders reserved request) :: out, ?_, ?_⟩
    · simp only [augmentEntries, hr, hout]
      rfl
    · rw [List.forall₂_cons, entryIsolated_iff reserved extra entry request hr, hiso,
        onlyLastHasOwn_cons reserved entry entries request hr, List.append_eq_nil_iff]
      tauto

/-- With a request in every entry, the augmented requests are isolated exactly when every
entry but the last has reserved headers only. -/
theorem augmentHttpHeaders_isolated (check : Check) (reserved : Header) (s : MultiHttpSettings)
    (hs : check.settings.multihttp = some s)
    (hr : ∀ entry ∈ s.entries, ∃ r, entry.request = some r) :
    (∃ check', augmentHttpHeaders check reserved = .ok check' ∧
      HeadersIsolated reserved s check') ↔ OnlyLastHasOwn reserved s.entries := by
  obtain ⟨out, hout, hiso⟩ := augmentEntries_isolated reserved s.entries [] hr
  rw [List.append_nil] at hout
  have hlast : OnlyLastHasOwn reserved s.entries ↔
      s.entries.Forall₂ (EntryIsolated reserved) out := by
    rw [hiso]
    exact (and_iff_right fun _ ↦ rfl).symm
  simp only [augmentHttpHeaders, hs, hout, Except.map, Except.ok.injEq]
  rw [hlast]
  constructor
  · rintro ⟨_, rfl, s', hs', hf⟩
    obtain rfl := Option.some.inj hs'
    exact hf
  · intro hf
    exact ⟨_, rfl, { s with entries := out }, rfl, hf⟩

/-- Requests of a validated check are isolated from each other exactly when every entry but
the last has reserved headers only. -/
theorem headersIsolated_iff_onlyLastHasOwn (lib : Stdlib) (check : Check) (reserved : Header)
    (s : MultiHttpSettings) (hs : check.settings.multihttp = some s)
    (hv : s.validate lib = none) :
    (∃ check', augmentHttpHeaders check reserved = .ok check' ∧
      HeadersIsolated reserved s check') ↔ OnlyLastHasOwn reserved s.entries :=
  augmentHttpHeaders_isolated check reserved s hs (request_isSome_of_validate lib s hv)

/-- Two requests, the first with the given headers and the second with none. -/
def sampleSettings (headers : List HttpHeader) : MultiHttpSettings where
  entries := [
    { request := some { url := lit "http://www.example.org/login", headers } },
    { request := some { url := lit "http://www.example.com/" } }]

/-- The header that the agent adds to the requests of a check. -/
def sampleReserved : Header :=
  (∅ : Header).insert (lit "X-Sm-Id") [lit "7-9"]

/-- A user header that the reserved one overrides does not travel. -/
theorem headersIsolated_overridden_header :
    ∃ check', augmentHttpHeaders
        { settings := { multihttp := some (sampleSettings
          [⟨lit "x-sm-id", lit "1"⟩]) } } sampleReserved = .ok check' ∧
      HeadersIsolated sampleReserved (sampleSettings
        [⟨lit "x-sm-id", lit "1"⟩]) check' := by
  apply (headersIsolated_iff_onlyLastHasOwn Stdlib.permissive _ _ _ rfl (by decide)).mpr
  intro entry he request hr header hh
  obtain rfl := List.mem_singleton.mp he
  obtain rfl := Option.some.inj hr
  obtain rfl := List.mem_singleton.mp hh
  decide

/-- A credential of the first request is also sent with the second. -/
theorem headersIsolated_authorization_leaks :
    (sampleSettings [⟨lit "Authorization", lit "secret"⟩]).validate
        Stdlib.permissive = none ∧
      (∀ key ∈ sampleReserved.keys, key.canonicalHeaderKey = key) ∧ sampleReserved.keys ≠ [] ∧
      ¬ ∃ check', augmentHttpHeaders
          { settings := { multihttp := some (sampleSettings
            [⟨lit "Authorization", lit "secret"⟩]) } } sampleReserved =
              .ok check' ∧
        HeadersIsolated sampleReserved (sampleSettings
          [⟨lit "Authorization", lit "secret"⟩]) check' := by
  refine ⟨by decide, by decide, by decide, ?_⟩
  rw [augmentHttpHeaders_isolated _ _ _ rfl
    (request_isSome_of_validate Stdlib.permissive _ (by decide))]
  intro h
  have hp := h _ List.mem_cons_self _ rfl _ List.mem_cons_self
  revert hp
  decide

end SMAgent.Multihttp
