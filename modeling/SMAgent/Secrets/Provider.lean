import Mathlib.Data.List.Forall2
import SMAgent.Base.GoMap
import SMAgent.Model.Check
import SMAgent.Pb.Tenant

/-!
# The secret provider

`internal/secrets/tenant.go:96-280` and `gsm_client.go`. One cache holds the secrets of all
tenants, under keys made of the tenant id and the secret's name. A call brings with it what
the tenant provider and the secret store (GSM) answer while it runs, as functions of what they
are asked; a tenant provider that returns no error returns a tenant. The cleanup of the cache,
which removes entries that are no longer found, is left out, and so are the log lines.
-/

namespace SMAgent.Secrets
open SMAgent.Base SMAgent.Pb SMAgent.Model

/-! ### The cache library -/

/-- A cache of strings that `cache.New` of go-cache returned, and the methods that are called on
it, each with the time of the call; `Set` is called with `DefaultExpiration`. -/
structure GoCache where
  Cache : Type
  new : Cache
  get : Cache → GoString → Int → Option GoString
  set : Cache → GoString → GoString → Int → Cache
  delete : Cache → GoString → Cache

/-- The cache is a map with expiry: what is stored under a key is found under this key only, and
as long as the times of the two calls allow it. -/
structure GoCache.PerKey (lib : GoCache) : Prop where
  get_new : ∀ key now, lib.get lib.new key now = none
  get_set : ∃ alive : Int → Int → Bool, ∀ cache key value storedAt key' now,
    lib.get (lib.set cache key value storedAt) key' now =
      if key' = key then (if alive storedAt now then some value else none)
      else lib.get cache key' now
  get_delete : ∀ cache key key' now, lib.get (lib.delete cache key) key' now =
    if key' = key then none else lib.get cache key' now

/-- A map whose entries expire after `ttl`, or never if it is not positive. -/
def GoCache.expiring (ttl : Int) : GoCache where
  Cache := GoMap GoString (GoString × Int)
  new := ∅
  get cache key now := (cache.lookup key).bind fun (value, storedAt) ↦
    if ttl ≤ 0 || now ≤ storedAt + ttl then some value else none
  set cache key value storedAt := cache.insert key (value, storedAt)
  delete cache key := cache.erase key

/-- The map with expiry is a possible cache. -/
theorem GoCache.perKey_expiring (ttl : Int) : (GoCache.expiring ttl).PerKey where
  get_new _ _ := rfl
  get_set := by
    refine ⟨fun storedAt now ↦ ttl ≤ 0 || now ≤ storedAt + ttl, ?_⟩
    intro (cache : GoMap GoString (GoString × Int)) key value storedAt key' now
    show ((cache.insert key (value, storedAt)).lookup key').bind _ = _
    rw [GoMap.lookup_insert_eq]
    split
    · rfl
    · rfl
  get_delete := by
    intro (cache : GoMap GoString (GoString × Int)) key key' now
    show ((cache.erase key).lookup key').bind _ = _
    rw [GoMap.lookup_erase_eq]
    split
    · rfl
    · rfl

/-! ### The secret store -/

/-- A GSM client: the server and the two headers its editors add. -/
structure Client where
  server : GoString
  authorization : GoString
  accept : GoString
  deriving DecidableEq, Repr

/-- A `DecryptSecretById` request. -/
structure Request where
  client : Client
  secretKey : GoString
  deriving DecidableEq, Repr

/-- A decoded response; `json200` is the plaintext of `JSON200`. -/
structure Response where
  statusCode : Int
  json200 : Option GoString
  deriving DecidableEq, Repr

/-- The client for a server and a token, `gsm_client.go:29-46`. -/
def Client.of (url token : GoString) : Client :=
  ⟨url, .lit "Bearer " ++ token, .lit "application/json"⟩

/-- `CreateClient`, `gsm_client.go:19-30`; `newClient` is the error, if any, of
`NewClientWithResponses` for a server. -/
def createClient (newClient : GoString → Option GoString) (url token : GoString) :
    Except GoString Client :=
  if url = [] then .error (.lit "GSM URL cannot be empty")
  else if token = [] then .error (.lit "GSM token cannot be empty")
  else match newClient url with
    | some err => .error err
    | none => .ok (Client.of url token)

/-! ### A call -/

/-- One call of `GetSecretValue`: its arguments, the times at which it reads and writes the
cache, and what is answered to what it asks. -/
structure Call where
  tenantID : GlobalID
  secretKey : GoString
  readAt : Int
  storedAt : Int
  getTenant : Int → Except GoString Tenant
  newClient : GoString → Option GoString
  decrypt : Request → Except GoString Response

/-- `cacheKey`, `tenant.go:152-155`. -/
def cacheKey (tenantID : GlobalID) (secretKey : GoString) : GoString :=
  .formatInt tenantID ++ .lit ":" ++ secretKey

/-- The entry a call works on. -/
def Call.key (c : Call) : GoString := cacheKey c.tenantID c.secretKey

/-- `GetSecretCredentials`, `tenant.go:157-173`. -/
def getSecretCredentials (getTenant : Int → Except GoString Tenant) (tenantID : GlobalID) :
    Except GoString (Option SecretStore) :=
  match getTenant tenantID with
  | .error err => .error err
  | .ok tenant => .ok tenant.secretStore

/-- From a miss to the response, `tenant.go:199-226`: the request sent, if any, and the
response or the error that is returned. -/
def fetch (c : Call) : Option Request × Except GoString Response :=
  match getSecretCredentials c.getTenant c.tenantID with
  | .error err => (none, .error (.lit "failed to get secret store credentials: " ++ err))
  | .ok none =>
    (none, .error (.lit "no secret store configured for tenant " ++ .formatInt c.tenantID))
  | .ok (some secretStore) =>
    match createClient c.newClient secretStore.url secretStore.token with
    | .error err => (none, .error (.lit "failed to create GSM client: " ++ err))
    | .ok client =>
      let request : Request := ⟨client, c.secretKey⟩
      match c.decrypt request with
      | .error err =>
        (some request, .error (.lit "failed to contact GSM for secret '" ++ c.secretKey ++
          .lit "': " ++ err))
      | .ok resp => (some request, .ok resp)

/-- The switch on the status, `tenant.go:228-279`. -/
def handleResponse (lib : GoCache) (cache : lib.Cache) (c : Call) (resp : Response) :
    lib.Cache × Except GoString GoString :=
  if resp.statusCode = 200 then
    match resp.json200 with
    | none => (cache, .error (.lit "empty response from GSM for secret " ++ c.secretKey))
    | some secretValue => (lib.set cache c.key secretValue c.storedAt, .ok secretValue)
  else if resp.statusCode = 404 then
    (lib.delete cache c.key,
      .error (.lit "secret '" ++ c.secretKey ++ .lit "' not found in GSM (404)"))
  else if resp.statusCode = 401 then
    (lib.delete cache c.key,
      .error (.lit "unauthorized to access secret '" ++ c.secretKey ++ .lit "' in GSM (401)"))
  else
    (cache, .error (.lit "GSM returned status " ++ .formatInt resp.statusCode ++
      .lit " for secret '" ++ c.secretKey ++ .lit "'"))

/-- What a call leaves behind and returns, and the request it sent to GSM. -/
structure Outcome (lib : GoCache) where
  cache : lib.Cache
  result : Except GoString GoString
  request : Option Request

/-- `GetSecretValue`, `tenant.go:175-280`. -/
def getSecretValue (lib : GoCache) (cache : lib.Cache) (c : Call) : Outcome lib :=
  match lib.get cache c.key c.readAt with
  | some cachedValue => ⟨cache, .ok cachedValue, none⟩
  | none =>
    match fetch c with
    | (request, .error err) => ⟨cache, .error err, request⟩
    | (request, .ok resp) =>
      let (cache, result) := handleResponse lib cache c resp
      ⟨cache, result, request⟩

/-- A finished call. -/
structure Served where
  call : Call
  result : Except GoString GoString
  request : Option Request

/-- A sequence of calls, one after the other. -/
def serve (lib : GoCache) : lib.Cache → List Call → List Served
  | _, [] => []
  | cache, c :: calls =>
    let o := getSecretValue lib cache c
    ⟨c, o.result, o.request⟩ :: serve lib o.cache calls

end SMAgent.Secrets
