import SMAgent.Base.Gob
import SMAgent.Base.Run
import SMAgent.Pb.Tenant

/-!
# The tenant manager

`internal/tenants/manager.go`, for one tenant id: the entry of the cache under the tenant's
key, the tenant's mutex, and the calls of `GetTenant` and `updateTenant` in progress. Each
step is one cache operation, one use of the mutex or the answer of the API, and any call may
take the next step. The cache holds what was last set, until it is evicted; a value is
encoded when it is set and decoded when it is read, `internal/cache/local.go:86-133`. Times
are nanoseconds since the epoch, and log lines are left out.
-/

namespace SMAgent.Tenants
open SMAgent.Base SMAgent.Pb

/-! ### Encoding -/

instance : Gob Float64 := .scalar Float64.zero Float64.isZero
instance : LawfulGob Float64 := .scalar (by decide)
instance : Gob TenantStatus := .scalar .active (· == .active)
instance : LawfulGob TenantStatus := .scalar (by decide)
instance : Gob LabelMode := .scalar .prefixed (· == .prefixed)
instance : LawfulGob LabelMode := .scalar (by decide)

open Gob

instance : Gob RemoteInfo where
  zero := {}
  overwrite dst src :=
    ⟨overwrite dst.name src.name, overwrite dst.url src.url,
      overwrite dst.username src.username, overwrite dst.password src.password⟩
  Covers src dst :=
    Covers src.name dst.name ∧ Covers src.url dst.url ∧ Covers src.username dst.username ∧
      Covers src.password dst.password

instance : Gob TenantLimits where
  zero := {}
  overwrite dst src :=
    ⟨overwrite dst.maxChecks src.maxChecks, overwrite dst.maxScriptedChecks src.maxScriptedChecks,
      overwrite dst.maxMetricLabels src.maxMetricLabels,
      overwrite dst.maxLogLabels src.maxLogLabels,
      overwrite dst.maxBrowserChecks src.maxBrowserChecks⟩
  Covers src dst :=
    Covers src.maxChecks dst.maxChecks ∧ Covers src.maxScriptedChecks dst.maxScriptedChecks ∧
      Covers src.maxMetricLabels dst.maxMetricLabels ∧ Covers src.maxLogLabels dst.maxLogLabels ∧
      Covers src.maxBrowserChecks dst.maxBrowserChecks

instance : Gob SecretStore where
  zero := {}
  overwrite dst src :=
    ⟨overwrite dst.url src.url, overwrite dst.token src.token, overwrite dst.expiry src.expiry⟩
  Covers src dst :=
    Covers src.url dst.url ∧ Covers src.token dst.token ∧ Covers src.expiry dst.expiry

instance : Gob Tenant where
  zero := {}
  overwrite dst src :=
    ⟨overwrite dst.id src.id, overwrite dst.orgId src.orgId,
      overwrite dst.metricsRemote src.metricsRemote, overwrite dst.eventsRemote src.eventsRemote,
      overwrite dst.stackId src.stackId, overwrite dst.status src.status,
      overwrite dst.reason src.reason, overwrite dst.limits src.limits,
      overwrite dst.costAttributionLabels src.costAttributionLabels,
      overwrite dst.labelMode src.labelMode, overwrite dst.created src.created,
      overwrite dst.modified src.modified, overwrite dst.secretStore src.secretStore⟩
  Covers src dst :=
    Covers src.id dst.id ∧ Covers src.orgId dst.orgId ∧
      Covers src.metricsRemote dst.metricsRemote ∧ Covers src.eventsRemote dst.eventsRemote ∧
      Covers src.stackId dst.stackId ∧ Covers src.status dst.status ∧
      Covers src.reason dst.reason ∧ Covers src.limits dst.limits ∧
      Covers src.costAttributionLabels dst.costAttributionLabels ∧
      Covers src.labelMode dst.labelMode ∧ Covers src.created dst.created ∧
      Covers src.modified dst.modified ∧ Covers src.secretStore dst.secretStore

open LawfulGob

instance : LawfulGob RemoteInfo where
  overwrite_fresh h := by
    obtain ⟨hname, hurl, husername, hpassword⟩ := h
    exact RemoteInfo.ext (overwrite_fresh hname) (overwrite_fresh hurl)
      (overwrite_fresh husername) (overwrite_fresh hpassword)
  fresh_fresh r := RemoteInfo.ext (fresh_fresh r.name) (fresh_fresh r.url)
    (fresh_fresh r.username) (fresh_fresh r.password)

instance : LawfulGob TenantLimits where
  overwrite_fresh h := by
    obtain ⟨hchecks, hscripted, hmetric, hlog, hbrowser⟩ := h
    exact TenantLimits.ext (overwrite_fresh hchecks) (overwrite_fresh hscripted)
      (overwrite_fresh hmetric) (overwrite_fresh hlog) (overwrite_fresh hbrowser)
  fresh_fresh l := TenantLimits.ext (fresh_fresh l.maxChecks) (fresh_fresh l.maxScriptedChecks)
    (fresh_fresh l.maxMetricLabels) (fresh_fresh l.maxLogLabels) (fresh_fresh l.maxBrowserChecks)

instance : LawfulGob SecretStore where
  overwrite_fresh h := by
    obtain ⟨hurl, htoken, hexpiry⟩ := h
    exact SecretStore.ext (overwrite_fresh hurl) (overwrite_fresh htoken)
      (overwrite_fresh hexpiry)
  fresh_fresh s := SecretStore.ext (fresh_fresh s.url) (fresh_fresh s.token)
    (fresh_fresh s.expiry)

instance : LawfulGob Tenant where
  overwrite_fresh h := by
    obtain ⟨hid, horg, hmetrics, hevents, hstack, hstatus, hreason, hlimits, hcals, hmode,
      hcreated, hmodified, hsecret⟩ := h
    exact Tenant.ext (overwrite_fresh hid) (overwrite_fresh horg) (overwrite_fresh hmetrics)
      (overwrite_fresh hevents) (overwrite_fresh hstack) (overwrite_fresh hstatus)
      (overwrite_fresh hreason) (overwrite_fresh hlimits) (overwrite_fresh hcals)
      (overwrite_fresh hmode) (overwrite_fresh hcreated) (overwrite_fresh hmodified)
      (overwrite_fresh hsecret)
  fresh_fresh t := Tenant.ext (fresh_fresh t.id) (fresh_fresh t.orgId)
    (fresh_fresh t.metricsRemote) (fresh_fresh t.eventsRemote) (fresh_fresh t.stackId)
    (fresh_fresh t.status) (fresh_fresh t.reason) (fresh_fresh t.limits)
    (fresh_fresh t.costAttributionLabels) (fresh_fresh t.labelMode) (fresh_fresh t.created)
    (fresh_fresh t.modified) (fresh_fresh t.secretStore)

/-! ### Expiry -/

/-- `cachedTenant`, `manager.go:39-43`. -/
structure CachedTenant where
  tenant : Option Tenant := none
  validUntil : Int := 0
  modified : Float64 := Float64.zero
  deriving DecidableEq, Repr

/-- `isSecretStoreConfigured`, `manager.go:25-27`. -/
def isSecretStoreConfigured (s : SecretStore) : Bool := s.url != [] && s.token != []

/-- `sm.MaxScriptedTimeout`. -/
def maxScriptedTimeout : Int := 180000000000

/-- `t.Sub(u)`, which saturates. -/
def timeSub (t u : Int) : Int := max (-2 ^ 63) (min (t - u) (2 ^ 63 - 1))

/-- `calculateValidUntil`, `manager.go:97-184`, at the time `now` and with the jitter drawn. -/
def calculateValidUntil (timeout now jitter : Int) (tenant : Tenant) : Int :=
  match tenant.secretStore with
  | none => now + timeout + jitter
  | some s =>
    if isSecretStoreConfigured s = false then now
    else if s.expiry.positive then
      let expirationTime := s.expiry.toUnixTime
      let delta := timeSub expirationTime now
      if delta < 0 then now
      else if delta < maxScriptedTimeout then expirationTime
      else now + min (delta - maxScriptedTimeout) timeout
    else now + timeout + jitter

/-- The entry that both functions store. -/
def cacheEntry (timeout now jitter : Int) (tenant : Tenant) : CachedTenant :=
  ⟨some tenant, calculateValidUntil timeout now jitter tenant, tenant.modified⟩

/-! ### Steps -/

/-- `tm.cache.Get(ctx, key, &cached)`: the variable after the call, which a miss leaves
alone. The time is never the zero time, so it is always sent. -/
def CachedTenant.get (cached : CachedTenant) : Option CachedTenant → CachedTenant
  | none => cached
  | some e => ⟨overwrite cached.tenant e.tenant, e.validUntil, overwrite cached.modified e.modified⟩

/-- The tenant to return from the cache, if the entry was found and is valid after `now`,
`manager.go:268` and `manager.go:286`. -/
def CachedTenant.valid (cached : CachedTenant) (entry : Option CachedTenant) (now : Int) :
    Option Tenant :=
  if entry.isSome ∧ now < (cached.get entry).validUntil then (cached.get entry).tenant else none

/-- Where a call is. A `GetTenant` call read the time `now` when it started; `cached` is its
local variable, and after the second read it is `cached.get entry`. -/
inductive Call where
  /-- `GetTenant` before the first read -/
  | started (now : Int)
  /-- before the mutex is acquired -/
  | waiting (now : Int) (cached : CachedTenant)
  /-- before the second read -/
  | locked (now : Int) (cached : CachedTenant)
  /-- the API was asked -/
  | fetching (now : Int) (cached : CachedTenant) (entry : Option CachedTenant)
  /-- the API has answered -/
  | storing (tenant : Tenant)
  | returned (result : Option Tenant)
  /-- `updateTenant` before the mutex is acquired -/
  | updateWaiting (tenant : Tenant)
  /-- before the cache is read -/
  | updateLocked (tenant : Tenant)
  /-- the tenant is newer than the cached one -/
  | updateStoring (tenant : Tenant)
  | updated
  deriving DecidableEq, Repr

/-- The manager's state for one tenant id. `known` records the tenants that the API returned
or that `updateTenant` was called with. -/
structure State where
  cache : Option CachedTenant := none
  mutex : Option Nat := none
  calls : Nat → Option Call := fun _ ↦ none
  known : List Tenant := []

namespace State

/-- Move a call on. -/
def setCall (s : State) (call : Nat) (c : Call) : State :=
  { s with calls := Function.update s.calls call (some c) }

/-- A call returns; its deferred `Unlock` runs. -/
def finish (s : State) (call : Nat) (c : Call) : State :=
  { s.setCall call c with mutex := none }

/-- The first read of `GetTenant`, `manager.go:260-276`. -/
def firstGet (s : State) (call : Nat) (now : Int) : State :=
  match CachedTenant.valid {} s.cache now with
  | some tenant => s.setCall call (.returned (some tenant))
  | none => s.setCall call (.waiting now (CachedTenant.get {} s.cache))

/-- The second read of `GetTenant`, `manager.go:284-293`. -/
def secondGet (s : State) (call : Nat) (now : Int) (cached : CachedTenant) : State :=
  match cached.valid s.cache now with
  | some tenant => s.finish call (.returned (some tenant))
  | none => s.setCall call (.fetching now cached s.cache)

/-- The API's answer, `manager.go:296-322`; `none` is an error, on which what the second
read found is returned. -/
def fetched (s : State) (call : Nat) (cached : CachedTenant) (entry : Option CachedTenant) :
    Option Tenant → State
  | some tenant => { s.setCall call (.storing tenant) with known := s.known ++ [tenant] }
  | none =>
    s.finish call (.returned (if entry.isSome then (cached.get entry).tenant else none))

/-- The check for a newer tenant in `updateTenant`, `manager.go:195-208`. -/
def checkUpdate (s : State) (call : Nat) (tenant : Tenant) : State :=
  match s.cache.bind fun _ ↦ (CachedTenant.get {} s.cache).tenant with
  | some existing =>
    if existing.modified.ge tenant.modified then s.finish call .updated
    else s.setCall call (.updateStoring tenant)
  | none => s.setCall call (.updateStoring tenant)

/-- `tm.cache.Set` and the return after it. -/
def store (s : State) (call : Nat) (entry : CachedTenant) (c : Call) : State :=
  { s.finish call c with cache := some entry }

end State

/-- One step of one call, or an eviction. -/
inductive Action where
  | getTenant (call : Nat) (now : Int)
  | updateTenant (call : Nat) (tenant : Tenant)
  | firstGet (call : Nat)
  | lock (call : Nat)
  | secondGet (call : Nat)
  | fetched (call : Nat) (answer : Option Tenant)
  | checkUpdate (call : Nat)
  | store (call : Nat) (now jitter : Int)
  | evict
  deriving DecidableEq, Repr

/-- When a step can be taken, and where it leads. -/
inductive Step (timeout : Int) : State → Action → State → Prop where
  | getTenant {s : State} {call : Nat} {now : Int} :
    s.calls call = none → Step timeout s (.getTenant call now) (s.setCall call (.started now))
  | updateTenant {s : State} {call : Nat} {tenant : Tenant} :
    s.calls call = none →
    Step timeout s (.updateTenant call tenant)
      { s.setCall call (.updateWaiting tenant) with known := s.known ++ [tenant] }
  | firstGet {s : State} {call : Nat} {now : Int} :
    s.calls call = some (.started now) →
    Step timeout s (.firstGet call) (s.firstGet call now)
  | lockGet {s : State} {call : Nat} {now : Int} {cached : CachedTenant} :
    s.calls call = some (.waiting now cached) → s.mutex = none →
    Step timeout s (.lock call) { s.setCall call (.locked now cached) with mutex := some call }
  | lockUpdate {s : State} {call : Nat} {tenant : Tenant} :
    s.calls call = some (.updateWaiting tenant) → s.mutex = none →
    Step timeout s (.lock call) { s.setCall call (.updateLocked tenant) with mutex := some call }
  | secondGet {s : State} {call : Nat} {now : Int} {cached : CachedTenant} :
    s.calls call = some (.locked now cached) →
    Step timeout s (.secondGet call) (s.secondGet call now cached)
  | fetched {s : State} {call : Nat} {now : Int} {cached : CachedTenant}
      {entry : Option CachedTenant} {answer : Option Tenant} :
    s.calls call = some (.fetching now cached entry) →
    Step timeout s (.fetched call answer) (s.fetched call cached entry answer)
  | checkUpdate {s : State} {call : Nat} {tenant : Tenant} :
    s.calls call = some (.updateLocked tenant) →
    Step timeout s (.checkUpdate call) (s.checkUpdate call tenant)
  | storeFetched {s : State} {call : Nat} {tenant : Tenant} {now jitter : Int} :
    s.calls call = some (.storing tenant) →
    Step timeout s (.store call now jitter)
      (s.store call (cacheEntry timeout now jitter tenant) (.returned (some tenant)))
  | storeUpdate {s : State} {call : Nat} {tenant : Tenant} {now jitter : Int} :
    s.calls call = some (.updateStoring tenant) →
    Step timeout s (.store call now jitter)
      (s.store call (cacheEntry timeout now jitter tenant) .updated)
  | evict {s : State} : Step timeout s .evict { s with cache := none }

end SMAgent.Tenants
