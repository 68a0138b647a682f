import SMAgent.Tenants.Manager

/-!
# Tenants put together from two versions

`GetTenant` reads the cache before and after it takes the mutex, both times into the same
variable. If the entry was replaced in between, the fields that the new tenant leaves at
zero keep the values of the old one. What is returned is one tenant as long as the second
entry, when it is used, sets every field that the first one had set.
-/

namespace SMAgent.Tenants
open SMAgent.Base SMAgent.Pb Gob

variable {timeout : Int} {s s' : State} {a : Action} {known : List Tenant}

/-- Field by field equal; the two zeros of a `float64` are equal. -/
def Same (t u : Tenant) : Prop := fresh t = fresh u

instance (t u : Tenant) : Decidable (Same t u) := inferInstanceAs (Decidable (_ = _))

/-- The tenant is one of the known ones. -/
def OneOf (known : List Tenant) (t : Tenant) : Prop := ∃ k ∈ known, Same t k

/-- Every tenant that was returned is one that the API returned or an update brought. -/
def NeverMixed (s : State) : Prop :=
  ∀ call t, s.calls call = some (.returned (some t)) → OneOf s.known t

/-- The condition on a step: a call that returns what its second read found had, in the
variable it read into, no field set that the entry leaves out. -/
def Unmixed (s : State) : Action → Prop
  | .secondGet call => ∀ now cached e, s.calls call = some (.locked now cached) →
      s.cache = some e → now < e.validUntil → Covers e.tenant cached.tenant
  | .fetched call none => ∀ now cached e,
      s.calls call = some (.fetching now cached (some e)) → Covers e.tenant cached.tenant
  | _ => True

/-! ### Where the tenants come from -/

/-- The entry holds a known tenant. -/
def EntryFrom (known : List Tenant) (entry : Option CachedTenant) : Prop :=
  ∀ e ∈ entry, ∃ k ∈ known, e.tenant = some k

/-- The variable holds nothing, or a known tenant as it was read. -/
def ReadFrom (known : List Tenant) (cached : CachedTenant) : Prop :=
  ∀ t ∈ cached.tenant, ∃ k ∈ known, t = fresh k

/-- What a call holds comes from known tenants. -/
def Call.From (known : List Tenant) : Call → Prop
  | .started _ | .updated => True
  | .waiting _ cached | .locked _ cached => ReadFrom known cached
  | .fetching _ cached entry => ReadFrom known cached ∧ EntryFrom known entry
  | .storing t | .updateWaiting t | .updateLocked t | .updateStoring t => t ∈ known
  | .returned result => ∀ t ∈ result, OneOf known t

/-- The invariant of the manager. -/
structure Sourced (s : State) : Prop where
  cache : EntryFrom s.known s.cache
  calls : ∀ call c, s.calls call = some c → c.From s.known

private theorem entryFrom_none : EntryFrom known none := by
  rintro e ⟨⟩

variable {entry : Option CachedTenant}

private theorem EntryFrom.mono (h : EntryFrom known entry) (t : Tenant) :
    EntryFrom (known ++ [t]) entry := by
  intro e he
  obtain ⟨k, hk, hek⟩ := h e he
  exact ⟨k, List.mem_append_left _ hk, hek⟩

variable {cached : CachedTenant}

private theorem ReadFrom.mono (h : ReadFrom known cached) (t : Tenant) :
    ReadFrom (known ++ [t]) cached := by
  intro u hu
  obtain ⟨k, hk, huk⟩ := h u hu
  exact ⟨k, List.mem_append_left _ hk, huk⟩

private theorem OneOf.mono {u : Tenant} (h : OneOf known u) (t : Tenant) :
    OneOf (known ++ [t]) u := by
  obtain ⟨k, hk, huk⟩ := h
  exact ⟨k, List.mem_append_left _ hk, huk⟩

private theorem Call.From.mono {c : Call} (h : c.From known) (t : Tenant) :
    c.From (known ++ [t]) := by
  cases c with
  | started => trivial
  | updated => trivial
  | waiting now cached => exact ReadFrom.mono h t
  | locked now cached => exact ReadFrom.mono h t
  | fetching now cached entry => exact ⟨h.1.mono t, h.2.mono t⟩
  | returned result => exact fun u hu ↦ (h u hu).mono t
  | storing u => exact List.mem_append_left _ h
  | updateWaiting u => exact List.mem_append_left _ h
  | updateLocked u => exact List.mem_append_left _ h
  | updateStoring u => exact List.mem_append_left _ h

private theorem oneOf_of_mem {t : Tenant} (h : t ∈ known) : OneOf known t := ⟨t, h, rfl⟩

private theorem ReadFrom.oneOf (h : ReadFrom known cached) :
    ∀ t ∈ cached.tenant, OneOf known t := by
  intro t ht
  obtain ⟨k, hk, rfl⟩ := h t ht
  exact ⟨k, hk, LawfulGob.fresh_fresh k⟩

private theorem EntryFrom.readFrom_get (h : EntryFrom known entry) :
    ReadFrom known (CachedTenant.get {} entry) := by
  intro t ht
  cases entry with
  | none => cases ht
  | some e =>
    obtain ⟨k, hk, hek⟩ := h e rfl
    have hget : (CachedTenant.get {} (some e)).tenant = some (fresh k) := by
      rw [CachedTenant.get, hek]
      rfl
    rw [hget] at ht
    cases ht
    exact ⟨k, hk, rfl⟩

private theorem ReadFrom.fresh_tenant (h : ReadFrom known cached) :
    fresh cached.tenant = cached.tenant := by
  cases ht : cached.tenant with
  | none => rfl
  | some t =>
    obtain ⟨k, -, rfl⟩ := h t ht
    exact congrArg some (LawfulGob.fresh_fresh k)

private theorem readFrom_get_of_covers {cached e : CachedTenant} (hc : ReadFrom known cached)
    (he : EntryFrom known (some e)) (h : Covers e.tenant cached.tenant) :
    ReadFrom known (cached.get (some e)) := by
  have hget : (cached.get (some e)).tenant = (CachedTenant.get {} (some e)).tenant := by
    calc (cached.get (some e)).tenant
        = overwrite (fresh cached.tenant) e.tenant := by rw [hc.fresh_tenant]; rfl
      _ = fresh e.tenant := LawfulGob.overwrite_fresh h
      _ = (CachedTenant.get {} (some e)).tenant := rfl
  intro t ht
  rw [hget] at ht
  exact he.readFrom_get t ht

private theorem valid_eq_some {now : Int} {t : Tenant} (h : cached.valid entry now = some t) :
    ∃ e, entry = some e ∧ now < e.validUntil ∧ (cached.get entry).tenant = some t := by
  unfold CachedTenant.valid at h
  split at h
  · next hv =>
    obtain ⟨e, rfl⟩ := Option.isSome_iff_exists.mp hv.1
    exact ⟨e, rfl, hv.2, h⟩
  · cases h

/-! ### Steps -/

variable {call : Nat}

section

variable (hs : Sourced s)
include hs

private theorem Sourced.setCall {c : Call} (hc : c.From s.known) : Sourced (s.setCall call c) where
  cache := hs.cache
  calls := by
    intro call' c' h
    simp only [State.setCall, Function.update_apply] at h
    split at h
    · cases h
      exact hc
    · exact hs.calls call' c' h

private theorem Sourced.setMutex (mutex : Option Nat) : Sourced { s with mutex } :=
  ⟨hs.cache, hs.calls⟩

private theorem Sourced.finish {c : Call} (hc : c.From s.known) : Sourced (s.finish call c) :=
  Sourced.setMutex (hs.setCall hc) none

private theorem Sourced.learn (t : Tenant) : Sourced { s with known := s.known ++ [t] } :=
  ⟨hs.cache.mono t, fun call c h ↦ (hs.calls call c h).mono t⟩

private theorem Sourced.store {c : Call} {t : Tenant} (ht : t ∈ s.known) (hc : c.From s.known)
    (now jitter : Int) : Sourced (s.store call (cacheEntry timeout now jitter t) c) where
  cache := by
    intro e he
    cases he
    exact ⟨t, ht, rfl⟩
  calls := (hs.finish hc).calls

private theorem Sourced.firstGet (call : Nat) (now : Int) : Sourced (s.firstGet call now) := by
  unfold State.firstGet
  cases hv : CachedTenant.valid {} s.cache now with
  | none => exact hs.setCall hs.cache.readFrom_get
  | some t =>
    obtain ⟨e, -, -, ht⟩ := valid_eq_some hv
    apply hs.setCall
    rintro u ⟨⟩
    exact hs.cache.readFrom_get.oneOf t ht

private theorem Sourced.secondGet {now : Int} (h : s.calls call = some (.locked now cached))
    (hu : Unmixed s (.secondGet call)) : Sourced (s.secondGet call now cached) := by
  have hc : ReadFrom s.known cached := hs.calls call _ h
  unfold State.secondGet
  cases hv : cached.valid s.cache now with
  | none => exact hs.setCall ⟨hc, hs.cache⟩
  | some t =>
    obtain ⟨e, he, hlt, ht⟩ := valid_eq_some hv
    apply hs.finish
    rintro u ⟨⟩
    rw [he] at ht
    exact (readFrom_get_of_covers hc (he ▸ hs.cache) (hu now cached e h he hlt)).oneOf t ht

private theorem Sourced.fetched {now : Int} {answer : Option Tenant}
    (h : s.calls call = some (.fetching now cached entry)) (hu : Unmixed s (.fetched call answer)) :
    Sourced (s.fetched call cached entry answer) := by
  obtain ⟨hc, he⟩ : ReadFrom s.known cached ∧ EntryFrom s.known entry := hs.calls call _ h
  cases answer with
  | some t =>
    refine (hs.learn t).setCall ?_
    exact List.mem_append_right _ (List.mem_singleton_self t)
  | none =>
    apply hs.finish
    cases entry with
    | none => exact fun t ht ↦ nomatch ht
    | some e => exact (readFrom_get_of_covers hc he (hu now cached e h)).oneOf

private theorem Sourced.checkUpdate {t : Tenant} (h : s.calls call = some (.updateLocked t)) :
    Sourced (s.checkUpdate call t) := by
  have ht : t ∈ s.known := hs.calls call _ h
  have hstoring : Sourced (s.setCall call (.updateStoring t)) := hs.setCall ht
  unfold State.checkUpdate
  split
  · split
    · exact hs.finish trivial
    · exact hstoring
  · exact hstoring

private theorem sourced_step (h : Step timeout s a s') (hu : Unmixed s a) : Sourced s' := by
  cases h with
  | getTenant _ => exact hs.setCall trivial
  | updateTenant _ =>
    exact (hs.learn _).setCall (List.mem_append_right _ (List.mem_singleton_self _))
  | firstGet _ => exact hs.firstGet _ _
  | @lockGet call now cached hc _ =>
    have hread : ReadFrom s.known cached := hs.calls call _ hc
    exact (hs.setCall (c := .locked now cached) hread).setMutex _
  | @lockUpdate call t hc _ =>
    have ht : t ∈ s.known := hs.calls call _ hc
    exact (hs.setCall (c := .updateLocked t) ht).setMutex _
  | secondGet hc => exact hs.secondGet hc hu
  | fetched hc => exact hs.fetched hc hu
  | checkUpdate hc => exact hs.checkUpdate hc
  | @storeFetched call t _ _ hc =>
    have ht : t ∈ s.known := hs.calls call _ hc
    apply hs.store ht
    rintro u ⟨⟩
    exact oneOf_of_mem ht
  | @storeUpdate call t _ _ hc =>
    have ht : t ∈ s.known := hs.calls call _ hc
    exact hs.store (c := .updated) ht trivial _ _
  | evict => exact ⟨entryFrom_none, hs.calls⟩

end

private theorem sourced_init : Sourced {} where
  cache := entryFrom_none
  calls := by rintro call c ⟨⟩

/-- In every run whose calls return a second read only when it covers the first, every
returned tenant is one of the tenants that the API returned or that an update brought. -/
theorem neverMixed_of_unmixed (timeout : Int) (as : List Action) (s : State)
    (h : Runs (fun s a s' ↦ Step timeout s a s' ∧ Unmixed s a) {} as s) : NeverMixed s := by
  have hs : Sourced s :=
    h.invariant (fun t a t' (ht : Sourced t) hstep ↦ sourced_step ht hstep.1 hstep.2) sourced_init
  intro call t ht
  exact hs.calls call _ ht t rfl

/-! ### Sample runs -/

/-- A tenant that was disabled. -/
def suspended : Tenant :=
  { id := 1, status := .disabled, reason := GoString.lit "unpaid",
    modified := ⟨0x3ff0000000000000⟩ }

/-- A later version of the tenant, with its status and reason at zero. -/
def reinstated : Tenant := { id := 1, modified := ⟨0x4000000000000000⟩ }

/-- `first` is cached and has expired when call 1 reads it; `second` replaces it before the
call reads again. -/
def replacedWhileWaiting (first second : Tenant) : List Action :=
  [.updateTenant 0 first, .lock 0, .checkUpdate 0, .store 0 0 0, .getTenant 1 1000, .firstGet 1,
    .updateTenant 2 second, .lock 2, .checkUpdate 2, .store 2 1000 0, .lock 1, .secondGet 1]

private theorem covers_suspended :
    Covers (some { suspended with modified := reinstated.modified })
      (some { reinstated with modified := suspended.modified }) := by
  refine ⟨?_, ?_, ?_, ?_, ?_, ?_, ?_, ?_, ?_, ?_, ?_, ?_, ?_⟩
  all_goals first | exact rfl | exact fun _ ↦ rfl | exact fun h ↦ Bool.noConfusion h

/-- A tenant that is disabled in the meantime is returned as it is. -/
theorem neverMixed_suspended : ∃ s,
    Runs (fun s a s' ↦ Step 900 s a s' ∧ Unmixed s a) {}
      (replacedWhileWaiting { reinstated with modified := suspended.modified }
        { suspended with modified := reinstated.modified }) s ∧ NeverMixed s := by
  have hrun : ∃ s, Runs (fun s a s' ↦ Step 900 s a s' ∧ Unmixed s a) {}
      (replacedWhileWaiting { reinstated with modified := suspended.modified }
        { suspended with modified := reinstated.modified }) s := by
    refine ⟨_, .cons ⟨.updateTenant rfl, trivial⟩ (.cons ⟨.lockUpdate rfl rfl, trivial⟩
      (.cons ⟨.checkUpdate rfl, trivial⟩ (.cons ⟨.storeUpdate rfl, trivial⟩
      (.cons ⟨.getTenant rfl, trivial⟩ (.cons ⟨.firstGet rfl, trivial⟩
      (.cons ⟨.updateTenant rfl, trivial⟩ (.cons ⟨.lockUpdate rfl rfl, trivial⟩
      (.cons ⟨.checkUpdate rfl, trivial⟩ (.cons ⟨.storeUpdate rfl, trivial⟩
      (.cons ⟨.lockGet rfl rfl, trivial⟩ (.cons ⟨.secondGet rfl, ?_⟩ (.nil _))))))))))))⟩
    intro now cached e hc he _
    cases hc
    cases he
    exact covers_suspended
  obtain ⟨s, h⟩ := hrun
  exact ⟨s, h, neverMixed_of_unmixed 900 _ s h⟩

private theorem replacedWhileWaiting_runs : ∃ s,
    Runs (Step 900) {} (replacedWhileWaiting suspended reinstated) s ∧
      s.known = [suspended, reinstated] ∧
      s.calls 1 = some (.returned (some { suspended with modified := reinstated.modified })) := by
  refine ⟨_, .cons (.updateTenant rfl) (.cons (.lockUpdate rfl rfl) (.cons (.checkUpdate rfl)
    (.cons (.storeUpdate rfl) (.cons (.getTenant rfl) (.cons (.firstGet rfl)
    (.cons (.updateTenant rfl) (.cons (.lockUpdate rfl rfl) (.cons (.checkUpdate rfl)
    (.cons (.storeUpdate rfl) (.cons (.lockGet rfl rfl) (.cons (.secondGet rfl)
    (.nil _)))))))))))), ?_, ?_⟩
  · rfl
  · rfl

/-- Call 1 returns the new tenant with the status and the reason of the old one. -/
theorem not_neverMixed_reinstated : ∃ s,
    Runs (Step 900) {} (replacedWhileWaiting suspended reinstated) s ∧ ¬ NeverMixed s := by
  obtain ⟨s, hrun, hknown, hcall⟩ := replacedWhileWaiting_runs
  refine ⟨s, hrun, fun h ↦ ?_⟩
  obtain ⟨k, hk, hsame⟩ := h 1 _ hcall
  rw [hknown] at hk
  revert hsame
  revert k
  decide

end SMAgent.Tenants
