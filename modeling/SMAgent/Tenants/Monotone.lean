import SMAgent.Tenants.Manager

/-!
# The cached version of a tenant

The mutex of a tenant is held from the second read of `GetTenant` to its store, and from the
read of `updateTenant` to its store, so a store replaces the entry that was read. A fetched
tenant is stored whatever its version, an update only if the cached version is not at least
as high. That comparison also lets an update through whose version is not a number, and after
it an update of any version.
-/

namespace SMAgent.Tenants
open SMAgent.Base SMAgent.Pb Gob

/-! ### Versions -/

/-- The version `y` may follow `x` in the cache: it is at least as high, if `x` is a number. -/
def MayFollow (x y : Float64) : Prop := x.isNaN = true ∨ y.ge x = true

private theorem ge_iff {x y : Float64} :
    x.ge y = true ↔ x.isNaN = false ∧ y.isNaN = false ∧ y.rank ≤ x.rank := by
  simp [Float64.ge, and_assoc]

namespace MayFollow

variable {x y z : Float64}

private theorem refl (x : Float64) : MayFollow x x := by
  cases h : x.isNaN with
  | true => exact .inl h
  | false => exact .inr (ge_iff.mpr ⟨h, h, Int.le_refl _⟩)

private theorem trans (h : MayFollow x y) (h' : MayFollow y z) : MayFollow x z := by
  rcases h with h | h
  · exact .inl h
  · obtain ⟨hy, hx, hle⟩ := ge_iff.mp h
    rcases h' with h' | h'
    · cases hy.symm.trans h'
    · obtain ⟨hz, -, hle'⟩ := ge_iff.mp h'
      exact .inr (ge_iff.mpr ⟨hz, hx, by omega⟩)

private theorem not_lt (h : MayFollow x y) : y.lt x = false := by
  rcases h with h | h
  · simp [Float64.lt, h]
  · have hle := (ge_iff.mp h).2.2
    simp only [Float64.lt, Bool.and_eq_false_iff, decide_eq_false_iff_not]
    right
    omega

private theorem of_not_ge (h : x.ge y = false) (hy : y.isNaN = false) : MayFollow x y := by
  cases hx : x.isNaN with
  | true => exact .inl hx
  | false =>
    refine .inr (ge_iff.mpr ⟨hy, hx, ?_⟩)
    by_contra hlt
    rw [ge_iff.mpr ⟨hx, hy, by omega⟩] at h
    cases h

end MayFollow

private theorem ge_fresh (x y : Float64) : (fresh x).ge y = x.ge y := by
  have hfresh : fresh x = if x.isZero then Float64.zero else x := rfl
  rw [hfresh]
  split
  · next hzero =>
    have hzero' : x.exponent = 0 ∧ x.fraction = 0 := by simpa [Float64.isZero] using hzero
    have hbits : x.bits.toNat % 2 ^ 63 = 0 := by
      have hexponent : x.bits.toNat / 2 ^ 52 % 2 ^ 11 = 0 := hzero'.1
      have hfraction : x.bits.toNat % 2 ^ 52 = 0 := hzero'.2
      omega
    have hrank : x.rank = 0 := by
      have hlt := x.bits.toNat_lt
      unfold Float64.rank Float64.negative
      split
      · rw [hbits]
        rfl
      · next hneg =>
        rw [decide_eq_true_eq] at hneg
        omega
    have hnan : x.isNaN = false := by simp [Float64.isNaN, hzero'.1]
    rw [Float64.ge, Float64.ge, hnan, hrank]
    rfl
  · rfl

/-! ### Runs -/

/-- The state, and for each call the tenants that existed when it asked the API. No step reads
the latter. -/
structure Asked where
  state : State := {}
  asked : Nat → List Tenant := fun _ ↦ []

/-- What the API answers a call with is at least as new as every tenant that existed when the
call asked. -/
def AnswerNew (s : Asked) (a : Action) : Prop :=
  ∀ call t, a = .fetched call (some t) → ∀ k ∈ s.asked call, t.modified.ge k.modified = true

/-- A step with a cache that keeps its entries and an API that answers with new tenants. -/
def ReliableStep (timeout : Int) (s : Asked) (a : Action) (s' : Asked) : Prop :=
  Step timeout s.state a s'.state ∧ a ≠ .evict ∧ AnswerNew s a ∧
    s'.asked = match a with
      | .secondGet call => Function.update s.asked call s.state.known
      | _ => s.asked

/-- The version of a tenant that is pushed is a number. -/
def Numeric (a : Action) : Prop :=
  ∀ call t, a = .updateTenant call t → t.modified.isNaN = false

/-- A request of the call to the API is in flight. -/
def InFlight (s : State) (call : Nat) : Prop :=
  ∃ now cached entry, s.calls call = some (.fetching now cached entry)

/-! ### The mutex -/

/-- The call holds the mutex. -/
def Call.holds : Call → Bool
  | .locked .. | .fetching .. | .storing _ | .updateLocked _ | .updateStoring _ => true
  | _ => false

/-- The mutex has one owner. -/
def Locked (s : State) : Prop :=
  ∀ call c, s.calls call = some c → c.holds = true → s.mutex = some call

section Mutex

variable {timeout : Int} {s s' : State} {a : Action} {call : Nat} {c c₀ : Call}

private theorem Locked.others (h : Locked s) (hc : s.calls call = some c₀)
    (hholds : c₀.holds = true)
    {call' : Nat} {c' : Call} (hne : call' ≠ call) (hc' : s.calls call' = some c') :
    c'.holds = false := by
  cases hh : c'.holds with
  | false => rfl
  | true => exact absurd (Option.some.inj ((h _ _ hc' hh).symm.trans (h _ _ hc hholds))) hne

private theorem Locked.setCall (h : Locked s) (hown : c.holds = true → s.mutex = some call) :
    Locked (s.setCall call c) := by
  intro call' c' hc' hh
  replace hc' : Function.update s.calls call (some c) call' = some c' := hc'
  rw [Function.update_apply] at hc'
  split at hc'
  · next heq =>
    cases hc'
    rw [heq]
    exact hown hh
  · exact h call' c' hc' hh

private theorem Locked.finish (h : Locked s) (hc : s.calls call = some c₀)
    (hholds : c₀.holds = true) (hfree : c.holds = false) : Locked (s.finish call c) := by
  intro call' c' hc' hh
  replace hc' : Function.update s.calls call (some c) call' = some c' := hc'
  rw [Function.update_apply] at hc'
  split at hc'
  · cases hc'
    cases hfree.symm.trans hh
  · next hne => cases (h.others hc hholds hne hc').symm.trans hh

private theorem Locked.acquire (h : Locked s) (hnone : s.mutex = none) :
    Locked { s.setCall call c with mutex := some call } := by
  intro call' c' hc' hh
  replace hc' : Function.update s.calls call (some c) call' = some c' := hc'
  rw [Function.update_apply] at hc'
  split at hc'
  · next heq => rw [heq]
  · cases hnone.symm.trans (h call' c' hc' hh)

private theorem locked_step (h : Locked s) (hstep : Step timeout s a s') : Locked s' := by
  cases hstep with
  | getTenant _ => exact h.setCall fun hh ↦ by cases hh
  | updateTenant _ => exact h.setCall (s := s) fun hh ↦ by cases hh
  | firstGet _ =>
    unfold State.firstGet
    split
    · exact h.setCall fun hh ↦ by cases hh
    · exact h.setCall fun hh ↦ by cases hh
  | lockGet _ hnone => exact h.acquire hnone
  | lockUpdate _ hnone => exact h.acquire hnone
  | secondGet hc =>
    unfold State.secondGet
    split
    · exact h.finish hc rfl rfl
    · exact h.setCall fun _ ↦ h _ _ hc rfl
  | @fetched _ _ _ _ answer hc =>
    cases answer with
    | some t => exact h.setCall (s := s) fun _ ↦ h _ _ hc rfl
    | none => exact h.finish hc rfl rfl
  | checkUpdate hc =>
    unfold State.checkUpdate
    split
    · split
      · exact h.finish hc rfl rfl
      · exact h.setCall fun _ ↦ h _ _ hc rfl
    · exact h.setCall fun _ ↦ h _ _ hc rfl
  | storeFetched hc => exact h.finish (s := s) hc rfl rfl
  | storeUpdate hc => exact h.finish (s := s) hc rfl rfl
  | evict => exact h

/-- Two requests are never in flight. -/
theorem inFlight_unique (h : Locked s) {call call' : Nat} (hc : InFlight s call)
    (hc' : InFlight s call') : call = call' := by
  obtain ⟨_, _, _, hc⟩ := hc
  obtain ⟨_, _, _, hc'⟩ := hc'
  exact Option.some.inj ((h _ _ hc rfl).symm.trans (h _ _ hc' rfl))

end Mutex

/-! ### The cache -/

/-- The entry is the one of a tenant in the list. -/
def EntryOf (tenants : List Tenant) (e : CachedTenant) : Prop :=
  ∃ k ∈ tenants, e.tenant = some k ∧ e.modified = k.modified

/-- What a call has established about the cache: a call that asks the API saw the entry, and
one that is about to store has a version that may follow. -/
def Call.Ok (cache : Option CachedTenant) (asked : List Tenant) : Call → Prop
  | .fetching .. => ∀ e ∈ cache, EntryOf asked e
  | .storing t | .updateStoring t => ∀ e ∈ cache, MayFollow e.modified t.modified
  | .updateWaiting t | .updateLocked t => t.modified.isNaN = false
  | _ => True

/-- The tenant that a call carries. -/
def Call.tenant : Call → Option Tenant
  | .storing t | .updateWaiting t | .updateLocked t | .updateStoring t => some t
  | _ => none

structure MonoInv (s : Asked) : Prop where
  lock : Locked s.state
  cache : ∀ e ∈ s.state.cache, EntryOf s.state.known e
  calls : ∀ call c, s.state.calls call = some c →
    c.Ok s.state.cache (s.asked call) ∧ ∀ t ∈ c.tenant, t ∈ s.state.known

private theorem Call.Ok.of_not_holds {cache cache' : Option CachedTenant}
    {asked asked' : List Tenant}
    {c : Call} (h : c.Ok cache asked) (hc : c.holds = false) : c.Ok cache' asked' := by
  cases c <;> first | exact h | cases hc

section Cache

variable {timeout : Int} {s s' : Asked} {a : Action} {call : Nat} {c : Call}

private theorem MonoInv.move (h : MonoInv s) (hlock : Locked s'.state)
    (hcalls : s'.state.calls = Function.update s.state.calls call (some c))
    (hasked : ∀ call', call' ≠ call → s'.asked call' = s.asked call')
    (hknown : s.state.known ⊆ s'.state.known)
    (hcache : s'.state.cache = s.state.cache ∨
      ((∀ call' c', call' ≠ call → s.state.calls call' = some c' → c'.holds = false) ∧
        ∀ e ∈ s'.state.cache, EntryOf s'.state.known e))
    (hok : c.Ok s'.state.cache (s'.asked call)) (htenant : ∀ t ∈ c.tenant, t ∈ s'.state.known) :
    MonoInv s' := by
  refine ⟨hlock, ?_, ?_⟩
  · rcases hcache with hcache | ⟨-, hentry⟩
    · rw [hcache]
      intro e he
      obtain ⟨k, hk, hk'⟩ := h.cache e he
      exact ⟨k, hknown hk, hk'⟩
    · exact hentry
  · intro call' c' hc'
    rw [hcalls, Function.update_apply] at hc'
    split at hc'
    · next heq =>
      cases hc'
      rw [heq]
      exact ⟨hok, htenant⟩
    · next hne =>
      obtain ⟨hok', htenant'⟩ := h.calls call' c' hc'
      refine ⟨?_, fun t ht ↦ hknown (htenant' t ht)⟩
      rcases hcache with hcache | ⟨hfree, -⟩
      · rw [hcache, hasked call' hne]
        exact hok'
      · exact hok'.of_not_holds (hfree call' c' hne hc')

private theorem MonoInv.moveOn (h : MonoInv s) {state' : State} (hlock : Locked state')
    (hcalls : state'.calls = Function.update s.state.calls call (some c))
    (hknown : state'.known = s.state.known) (hcache : state'.cache = s.state.cache)
    (hok : ∀ cache asked, c.Ok cache asked) (htenant : c.tenant = none) :
    MonoInv { s with state := state' } := by
  refine h.move hlock hcalls (fun _ _ ↦ rfl) ?_ (.inl hcache) (hok _ _) ?_
  · rw [hknown]
    exact List.Subset.refl _
  · intro t ht
    rw [htenant] at ht
    cases ht

private theorem MonoInv.store (h : MonoInv s) {c₀ : Call} {t : Tenant}
    (hc : s.state.calls call = some c₀) (hholds : c₀.holds = true) (ht : c₀.tenant = some t)
    {now jitter : Int} (hlock : Locked (s.state.store call (cacheEntry timeout now jitter t) c))
    (hok : ∀ cache asked, c.Ok cache asked) (htenant : c.tenant = none) :
    MonoInv { s with state := s.state.store call (cacheEntry timeout now jitter t) c } := by
  have hentry : EntryOf s.state.known (cacheEntry timeout now jitter t) :=
    ⟨t, (h.calls _ _ hc).2 t ht, rfl, rfl⟩
  have hfree : ∀ call' c', call' ≠ call → s.state.calls call' = some c' → c'.holds = false :=
    fun _ _ hne hc' ↦ h.lock.others hc hholds hne hc'
  refine h.move hlock rfl (fun _ _ ↦ rfl) (List.Subset.refl _) (.inr ⟨hfree, ?_⟩) (hok _ _) ?_
  · rintro _ ⟨⟩
    exact hentry
  · intro t' ht'
    rw [htenant] at ht'
    cases ht'

private theorem exists_existing {tenants : List Tenant} {e : CachedTenant}
    (he : EntryOf tenants e) : ∃ existing, (CachedTenant.get {} (some e)).tenant = some existing ∧
      ∀ y, existing.modified.ge y = e.modified.ge y := by
  obtain ⟨k, -, htenant, hmodified⟩ := he
  refine ⟨fresh k, ?_, ?_⟩
  · rw [CachedTenant.get, htenant]
    rfl
  · intro y
    rw [hmodified]
    exact ge_fresh k.modified y

private theorem MonoInv.checkUpdate (h : MonoInv s) {t : Tenant}
    (hc : s.state.calls call = some (.updateLocked t))
    (hlock : Locked (s.state.checkUpdate call t)) :
    MonoInv { s with state := s.state.checkUpdate call t } := by
  have hnumber : t.modified.isNaN = false := (h.calls call _ hc).1
  have hknown : t ∈ s.state.known := (h.calls call _ hc).2 t rfl
  have hstoring (hok : ∀ e ∈ s.state.cache, MayFollow e.modified t.modified) :
      MonoInv { s with state := s.state.setCall call (.updateStoring t) } := by
    refine h.move (h.lock.setCall fun _ ↦ h.lock _ _ hc rfl) rfl (fun _ _ ↦ rfl)
      (List.Subset.refl _) (.inl rfl) hok ?_
    rintro _ ⟨⟩
    exact hknown
  unfold State.checkUpdate at hlock ⊢
  cases hcache : s.state.cache with
  | none =>
    rw [hcache] at hlock
    apply hstoring
    rw [hcache]
    rintro _ ⟨⟩
  | some e =>
    obtain ⟨existing, hexisting, hge⟩ := exists_existing (h.cache e hcache)
    simp only [hcache, Option.bind_some, hexisting] at hlock ⊢
    split at hlock
    · next hnewer =>
      rw [if_pos hnewer]
      exact h.moveOn hlock rfl rfl rfl (fun _ _ ↦ trivial) rfl
    · next holder =>
      rw [if_neg holder]
      apply hstoring
      rw [hcache]
      rintro _ ⟨⟩
      rw [hge, Bool.not_eq_true] at holder
      exact .of_not_ge holder hnumber

/-- One step keeps the invariant. -/
theorem monoInv_step (h : MonoInv s) (hstep : ReliableStep timeout s a s') (hnum : Numeric a) :
    MonoInv s' := by
  obtain ⟨state', asked'⟩ := s'
  obtain ⟨hstep, hevict, hanswer, hasked⟩ := hstep
  dsimp only at hstep hasked
  have hlock := locked_step h.lock hstep
  cases hstep with
  | getTenant _ =>
    subst hasked
    exact h.moveOn hlock rfl rfl rfl (fun _ _ ↦ trivial) rfl
  | @updateTenant call t _ =>
    subst hasked
    refine h.move hlock rfl (fun _ _ ↦ rfl) (List.subset_append_left _ _) (.inl rfl)
      (hnum call t rfl) ?_
    rintro _ ⟨⟩
    exact List.mem_append_right _ List.mem_cons_self
  | firstGet _ =>
    subst hasked
    unfold State.firstGet at hlock ⊢
    split at hlock
    · exact h.moveOn hlock rfl rfl rfl (fun _ _ ↦ trivial) rfl
    · exact h.moveOn hlock rfl rfl rfl (fun _ _ ↦ trivial) rfl
  | lockGet _ _ =>
    subst hasked
    exact h.moveOn hlock rfl rfl rfl (fun _ _ ↦ trivial) rfl
  | lockUpdate hc _ =>
    subst hasked
    exact h.move hlock rfl (fun _ _ ↦ rfl) (List.Subset.refl _) (.inl rfl) (h.calls _ _ hc).1
      (h.calls _ _ hc).2
  | @secondGet call now cached hc =>
    subst hasked
    have hothers (call' : Nat) (hne : call' ≠ call) :
        Function.update s.asked call s.state.known call' = s.asked call' :=
      Function.update_of_ne hne _ _
    unfold State.secondGet at hlock ⊢
    split at hlock
    · exact h.move hlock rfl hothers (List.Subset.refl _) (.inl rfl) trivial (by rintro _ ⟨⟩)
    · refine h.move hlock rfl hothers (List.Subset.refl _) (.inl rfl) ?_ (by rintro _ ⟨⟩)
      dsimp only [Call.Ok]
      rw [Function.update_self]
      exact h.cache
  | @fetched call now cached entry answer hc =>
    subst hasked
    cases answer with
    | none =>
      exact h.moveOn hlock rfl rfl rfl (fun _ _ ↦ trivial) rfl
    | some t =>
      refine h.move hlock rfl (fun _ _ ↦ rfl) (List.subset_append_left _ _) (.inl rfl) ?_ ?_
      · intro e he
        obtain ⟨k, hk, -, hmodified⟩ := (h.calls _ _ hc).1 e he
        rw [hmodified]
        exact .inr (hanswer call t rfl k hk)
      · rintro _ ⟨⟩
        exact List.mem_append_right _ List.mem_cons_self
  | checkUpdate hc =>
    subst hasked
    exact h.checkUpdate hc hlock
  | @storeFetched call t now jitter hc =>
    subst hasked
    exact h.store hc rfl rfl hlock (fun _ _ ↦ trivial) rfl
  | @storeUpdate call t now jitter hc =>
    subst hasked
    exact h.store hc rfl rfl hlock (fun _ _ ↦ trivial) rfl
  | evict => exact absurd rfl hevict

/-- The version in the second state may follow the one in the first. -/
def Follows (s s' : State) : Prop :=
  ∀ e ∈ s.cache, ∃ e' ∈ s'.cache, MayFollow e.modified e'.modified

/-- A step stores nothing, or a version that may follow. -/
theorem follows_step (h : MonoInv s) (hstep : ReliableStep timeout s a s') :
    Follows s.state s'.state := by
  obtain ⟨state', asked'⟩ := s'
  obtain ⟨hstep, hevict, -, -⟩ := hstep
  have hkeep (t : State) (ht : t.cache = s.state.cache) : Follows s.state t := by
    intro e he
    exact ⟨e, ht ▸ he, .refl _⟩
  cases hstep with
  | getTenant _ => exact hkeep _ rfl
  | updateTenant _ => exact hkeep _ rfl
  | firstGet _ =>
    refine hkeep (s.state.firstGet _ _) ?_
    unfold State.firstGet
    split <;> rfl
  | lockGet _ _ => exact hkeep _ rfl
  | lockUpdate _ _ => exact hkeep _ rfl
  | secondGet _ =>
    refine hkeep (s.state.secondGet _ _ _) ?_
    unfold State.secondGet
    split <;> rfl
  | @fetched _ _ _ _ answer _ =>
    apply hkeep
    cases answer <;> rfl
  | checkUpdate _ =>
    refine hkeep (s.state.checkUpdate _ _) ?_
    unfold State.checkUpdate
    split
    · split <;> rfl
    · rfl
  | storeFetched hc =>
    intro e he
    exact ⟨_, rfl, (h.calls _ _ hc).1 e he⟩
  | storeUpdate hc =>
    intro e he
    exact ⟨_, rfl, (h.calls _ _ hc).1 e he⟩
  | evict => exact absurd rfl hevict

end Cache

/-- The version in the cache does not fall from one state of a run to a later one. -/
theorem follows_of_runs {timeout : Int} {s s' : Asked} {acts : List Action} (h : MonoInv s)
    (hrun : Runs (fun s a s' ↦ ReliableStep timeout s a s' ∧ Numeric a) s acts s') :
    Follows s.state s'.state := by
  induction hrun with
  | nil s =>
    intro e he
    exact ⟨e, he, .refl _⟩
  | cons hstep _ ih =>
    intro e he
    obtain ⟨e', he', hfollow⟩ := follows_step h hstep.1 e he
    obtain ⟨e'', he'', hfollow'⟩ := ih (monoInv_step h hstep.1 hstep.2) e' he'
    exact ⟨e'', he'', hfollow.trans hfollow'⟩

private theorem monoInv_init : MonoInv {} where
  lock := by rintro _ _ ⟨⟩
  cache := by rintro _ ⟨⟩
  calls := by rintro _ _ ⟨⟩

/-- The versions of two states of a run, one after the other: there is an entry in the second
if there is one in the first, and its version is not lower. -/
def NeverFalls (s s' : State) : Prop :=
  ∀ e, s.cache = some e → ∃ e', s'.cache = some e' ∧ e'.modified.lt e.modified = false

/-- No two requests to the API are ever in flight, and in every run in which only tenants with
a number for their version are pushed the cached version never falls. -/
theorem neverFalls_of_numeric (timeout : Int) :
    (∀ acts s, Runs (ReliableStep timeout) {} acts s → ∀ call call',
      InFlight s.state call → InFlight s.state call' → call = call') ∧
    ∀ acts acts' s s',
      Runs (fun s a s' ↦ ReliableStep timeout s a s' ∧ Numeric a) {} acts s →
      Runs (fun s a s' ↦ ReliableStep timeout s a s' ∧ Numeric a) s acts' s' →
      NeverFalls s.state s'.state := by
  constructor
  · intro acts s h call call' hc hc'
    have hlocked : Locked s.state :=
      h.invariant (fun _ _ _ (ht : Locked _) hstep ↦ locked_step ht hstep.1) monoInv_init.lock
    exact inFlight_unique hlocked hc hc'
  · intro acts acts' s s' h h' e he
    have hinv : MonoInv s := by
      apply h.invariant _ monoInv_init
      intro t a t' ht hstep
      exact monoInv_step ht hstep.1 hstep.2
    obtain ⟨e', he', hfollow⟩ := follows_of_runs hinv h' e he
    exact ⟨e', he', hfollow.not_lt⟩

/-! ### Sample runs -/

/-- A tenant with the version. -/
def versioned (modified : Float64) : Tenant := { id := 1, modified }

/-- The steps of an update that is stored. -/
def pushed (call : Nat) (t : Tenant) : List Action :=
  [.updateTenant call t, .lock call, .checkUpdate call, .store call 0 0]

/-- The API has no part in the step. -/
def Action.isLocal : Action → Bool
  | .secondGet _ | .fetched .. | .evict => false
  | _ => true

private theorem reliableStep_of_isLocal {timeout : Int} {s s' : State} {a : Action}
    {asked : Nat → List Tenant} (h : Step timeout s a s') (ha : a.isLocal = true) :
    ReliableStep timeout ⟨s, asked⟩ a ⟨s', asked⟩ := by
  refine ⟨h, ?_, ?_, ?_⟩
  · rintro rfl
    cases ha
  · rintro call t rfl
    cases ha
  · cases a <;> first | rfl | cases ha

private theorem pushed_runs : ∃ s s',
    Runs (fun s a s' ↦ ReliableStep 900 s a s' ∧ Numeric a) {}
      (pushed 0 (versioned ⟨0x4008000000000000⟩)) s ∧
    Runs (fun s a s' ↦ ReliableStep 900 s a s' ∧ Numeric a) s
      (pushed 1 (versioned ⟨0x4014000000000000⟩)) s' ∧
    s.state.cache.map CachedTenant.modified = some ⟨0x4008000000000000⟩ ∧
    s'.state.cache.map CachedTenant.modified = some ⟨0x4014000000000000⟩ := by
  have hnum (call : Nat) {x : Float64} (hx : x.isNaN = false) :
      Numeric (.updateTenant call (versioned x)) := by
    rintro _ _ ⟨⟩
    exact hx
  have hother {a : Action} (ha : ∀ call t, a ≠ .updateTenant call t) : Numeric a :=
    fun call t heq ↦ absurd heq (ha call t)
  refine ⟨_, _, .cons ⟨reliableStep_of_isLocal (.updateTenant rfl) rfl, hnum 0 rfl⟩
    (.cons ⟨reliableStep_of_isLocal (.lockUpdate rfl rfl) rfl, hother (by simp)⟩
    (.cons ⟨reliableStep_of_isLocal (.checkUpdate rfl) rfl, hother (by simp)⟩
    (.cons ⟨reliableStep_of_isLocal (.storeUpdate rfl) rfl, hother (by simp)⟩ (.nil _)))),
    .cons ⟨reliableStep_of_isLocal (.updateTenant rfl) rfl, hnum 1 rfl⟩
    (.cons ⟨reliableStep_of_isLocal (.lockUpdate rfl rfl) rfl, hother (by simp)⟩
    (.cons ⟨reliableStep_of_isLocal (.checkUpdate rfl) rfl, hother (by simp)⟩
    (.cons ⟨reliableStep_of_isLocal (.storeUpdate rfl) rfl, hother (by simp)⟩ (.nil _)))), ?_, ?_⟩
  · rfl
  · rfl

/-- A tenant is pushed, and then a newer version of it. -/
theorem neverFalls_pushed : ∃ s s',
    Runs (fun s a s' ↦ ReliableStep 900 s a s' ∧ Numeric a) {}
      (pushed 0 (versioned ⟨0x4008000000000000⟩)) s ∧
    Runs (fun s a s' ↦ ReliableStep 900 s a s' ∧ Numeric a) s
      (pushed 1 (versioned ⟨0x4014000000000000⟩)) s' ∧
    s.state.cache.map CachedTenant.modified = some ⟨0x4008000000000000⟩ ∧
    s'.state.cache.map CachedTenant.modified = some ⟨0x4014000000000000⟩ ∧
    NeverFalls s.state s'.state := by
  obtain ⟨s, s', hrun, hrun', hcache, hcache'⟩ := pushed_runs
  exact ⟨s, s', hrun, hrun', hcache, hcache',
    (neverFalls_of_numeric 900).2 _ _ s s' hrun hrun'⟩

private theorem pushed_nan_runs : ∃ s s',
    Runs (ReliableStep 900) {} (pushed 0 (versioned ⟨0x4014000000000000⟩)) s ∧
    Runs (ReliableStep 900) s
      (pushed 1 (versioned ⟨0x7ff8000000000000⟩) ++ pushed 2 (versioned ⟨0x4008000000000000⟩)) s' ∧
    s.state.cache.map CachedTenant.modified = some ⟨0x4014000000000000⟩ ∧
    s'.state.cache.map CachedTenant.modified = some ⟨0x4008000000000000⟩ := by
  refine ⟨_, _, .cons (reliableStep_of_isLocal (.updateTenant rfl) rfl)
    (.cons (reliableStep_of_isLocal (.lockUpdate rfl rfl) rfl)
    (.cons (reliableStep_of_isLocal (.checkUpdate rfl) rfl)
    (.cons (reliableStep_of_isLocal (.storeUpdate rfl) rfl) (.nil _)))),
    .cons (reliableStep_of_isLocal (.updateTenant rfl) rfl)
    (.cons (reliableStep_of_isLocal (.lockUpdate rfl rfl) rfl)
    (.cons (reliableStep_of_isLocal (.checkUpdate rfl) rfl)
    (.cons (reliableStep_of_isLocal (.storeUpdate rfl) rfl)
    (.cons (reliableStep_of_isLocal (.updateTenant rfl) rfl)
    (.cons (reliableStep_of_isLocal (.lockUpdate rfl rfl) rfl)
    (.cons (reliableStep_of_isLocal (.checkUpdate rfl) rfl)
    (.cons (reliableStep_of_isLocal (.storeUpdate rfl) rfl) (.nil _)))))))), ?_, ?_⟩
  · rfl
  · rfl

/-- Version 5 is pushed, then one that is not a number, and then version 3. -/
theorem not_neverFalls_nan : ∃ s s',
    Runs (ReliableStep 900) {} (pushed 0 (versioned ⟨0x4014000000000000⟩)) s ∧
    Runs (ReliableStep 900) s
      (pushed 1 (versioned ⟨0x7ff8000000000000⟩) ++ pushed 2 (versioned ⟨0x4008000000000000⟩)) s' ∧
    ¬ NeverFalls s.state s'.state := by
  obtain ⟨s, s', hrun, hrun', hcache, hcache'⟩ := pushed_nan_runs
  refine ⟨s, s', hrun, hrun', fun h ↦ ?_⟩
  obtain ⟨e, he, hmodified⟩ := Option.map_eq_some_iff.mp hcache
  obtain ⟨e', he', hlt⟩ := h e he
  rw [he', Option.map_some, Option.some.injEq] at hcache'
  rw [hmodified, hcache'] at hlt
  revert hlt
  decide

end SMAgent.Tenants
