import SMAgent.Secrets.Provider

/-!
# Isolation of tenants in the secret cache

The decimal form of a tenant id has no colon, so the key of an entry determines the tenant
and the name. A call reads and writes only the entry under its own key, hence an entry holds
what GSM answered to an earlier call for the same tenant and name, and the calls for other
tenants cannot be observed.
-/

namespace SMAgent.Secrets
open SMAgent.Base SMAgent.Pb SMAgent.Model

/-! ### Keys -/

private theorem colon_notMem_formatInt (n : Int) : GoString.byte ':' ∉ GoString.formatInt n := by
  intro h
  rcases GoString.mem_formatInt h with h | ⟨-, h⟩
  · exact absurd h (by decide)
  · exact absurd h (by decide)

private theorem append_cons_inj {sep : UInt8} {a a' b b' : GoString} (ha : sep ∉ a)
    (ha' : sep ∉ a') (h : a ++ sep :: b = a' ++ sep :: b') : a = a' ∧ b = b' := by
  induction a generalizing a' with
  | nil =>
    cases a' with
    | nil => exact ⟨rfl, (List.cons.inj h).2⟩
    | cons x a' => exact absurd ((List.cons.inj h).1 ▸ List.mem_cons_self) ha'
  | cons x a ih =>
    cases a' with
    | nil => exact absurd ((List.cons.inj h).1 ▸ List.mem_cons_self) ha
    | cons y a' =>
      obtain ⟨hxy, htail⟩ := List.cons.inj h
      obtain ⟨rfl, rfl⟩ := ih (fun hm ↦ ha (List.mem_cons_of_mem _ hm))
        (fun hm ↦ ha' (List.mem_cons_of_mem _ hm)) htail
      exact ⟨by rw [hxy], rfl⟩

/-- No two pairs of a tenant and a name share a key. -/
theorem cacheKey_inj {t t' : GlobalID} {k k' : GoString} (h : cacheKey t k = cacheKey t' k') :
    t = t' ∧ k = k' := by
  have hsep : GoString.lit ":" = [GoString.byte ':'] := by decide
  simp only [cacheKey, hsep, List.append_assoc, List.singleton_append] at h
  obtain ⟨ht, hk⟩ := append_cons_inj (colon_notMem_formatInt t) (colon_notMem_formatInt t') h
  exact ⟨GoString.formatInt_injective ht, hk⟩

/-! ### What a call does -/

/-- The request that asks for the secret of the call with the credentials of `secretStore`. -/
def Call.requestTo (c : Call) (secretStore : SecretStore) : Request :=
  ⟨Client.of secretStore.url secretStore.token, c.secretKey⟩

/-- GSM answered the call's own request, made with the credentials of the store of the call's
tenant, with status 200 and `value`. -/
def Fetched (c : Call) (request : Option Request) (value : GoString) : Prop :=
  ∃ tenant secretStore, c.getTenant c.tenantID = .ok tenant ∧
    tenant.secretStore = some secretStore ∧ request = some (c.requestTo secretStore) ∧
    c.decrypt (c.requestTo secretStore) = .ok ⟨200, some value⟩

private theorem createClient_eq_ok {newClient : GoString → Option GoString}
    {url token : GoString} {client : Client} (h : createClient newClient url token = .ok client) :
    client = Client.of url token := by
  unfold createClient at h
  split at h
  · cases h
  · split at h
    · cases h
    · split at h
      · cases h
      · exact (Except.ok.inj h).symm

/-- A response is the answer to a request with the credentials of the tenant's store. -/
theorem fetch_eq_ok {c : Call} {request : Option Request} {resp : Response}
    (h : fetch c = (request, .ok resp)) :
    ∃ tenant secretStore, c.getTenant c.tenantID = .ok tenant ∧
      tenant.secretStore = some secretStore ∧ request = some (c.requestTo secretStore) ∧
      c.decrypt (c.requestTo secretStore) = .ok resp := by
  unfold fetch getSecretCredentials at h
  cases htenant : c.getTenant c.tenantID with
  | error err =>
    simp only [htenant, Prod.mk.injEq, reduceCtorEq, and_false] at h
  | ok tenant =>
    simp only [htenant] at h
    cases hstore : tenant.secretStore with
    | none => simp only [hstore, Prod.mk.injEq, reduceCtorEq, and_false] at h
    | some secretStore =>
      simp only [hstore] at h
      cases hclient : createClient c.newClient secretStore.url secretStore.token with
      | error err => simp only [hclient, Prod.mk.injEq, reduceCtorEq, and_false] at h
      | ok client =>
        have hof := createClient_eq_ok hclient
        simp only [hclient, hof] at h
        refine ⟨tenant, secretStore, rfl, hstore, ?_⟩
        cases hresp : c.decrypt (c.requestTo secretStore) with
        | error err =>
          have hresp' : c.decrypt ⟨Client.of secretStore.url secretStore.token, c.secretKey⟩ =
              .error err := hresp
          simp only [hresp', Prod.mk.injEq, reduceCtorEq, and_false] at h
        | ok r =>
          have hresp' : c.decrypt ⟨Client.of secretStore.url secretStore.token, c.secretKey⟩ =
              .ok r := hresp
          simp only [hresp', Prod.mk.injEq, Except.ok.injEq] at h
          exact ⟨h.1.symm, by rw [h.2]⟩

section
variable {lib : GoCache} {cache cache' : lib.Cache}

private theorem handleResponse_cases (cache : lib.Cache) (c : Call) (resp : Response) :
    (∃ value, resp = ⟨200, some value⟩ ∧ handleResponse lib cache c resp =
      (lib.set cache c.key value c.storedAt, .ok value)) ∨
    ∃ err, handleResponse lib cache c resp = (cache, .error err) ∨
      handleResponse lib cache c resp = (lib.delete cache c.key, .error err) := by
  obtain ⟨statusCode, json200⟩ := resp
  unfold handleResponse
  by_cases h200 : statusCode = 200
  · subst h200
    cases json200 with
    | none => exact .inr ⟨_, .inl rfl⟩
    | some value => exact .inl ⟨value, rfl, rfl⟩
  · right
    simp only [if_neg h200]
    split
    · exact ⟨_, .inr rfl⟩
    · split
      · exact ⟨_, .inr rfl⟩
      · exact ⟨_, .inl rfl⟩

/-- The three ends of a call: a hit, a fetched value that is stored, and a failure that keeps
the cache or deletes the call's entry. -/
theorem getSecretValue_cases (cache : lib.Cache) (c : Call) :
    (∃ value, lib.get cache c.key c.readAt = some value ∧
      getSecretValue lib cache c = ⟨cache, .ok value, none⟩) ∨
    (∃ value request, Fetched c request value ∧ getSecretValue lib cache c =
      ⟨lib.set cache c.key value c.storedAt, .ok value, request⟩) ∨
    ∃ err request, getSecretValue lib cache c = ⟨cache, .error err, request⟩ ∨
      getSecretValue lib cache c = ⟨lib.delete cache c.key, .error err, request⟩ := by
  unfold getSecretValue
  cases hget : lib.get cache c.key c.readAt with
  | some value => exact .inl ⟨value, rfl, rfl⟩
  | none =>
    right
    rcases hfetch : fetch c with ⟨request, err | resp⟩
    · exact .inr ⟨err, request, .inl rfl⟩
    · rcases handleResponse_cases cache c resp with ⟨value, rfl, h⟩ | ⟨err, h | h⟩
      · exact .inl ⟨value, request, fetch_eq_ok hfetch, by simp only [h]⟩
      · exact .inr ⟨err, request, .inl (by simp only [h])⟩
      · exact .inr ⟨err, request, .inr (by simp only [h])⟩

private theorem get_getSecretValue_ne (hlib : lib.PerKey) (cache : lib.Cache) (c : Call)
    {key : GoString} (h : key ≠ c.key) (now : Int) :
    lib.get (getSecretValue lib cache c).cache key now = lib.get cache key now := by
  obtain ⟨alive, hset⟩ := hlib.get_set
  rcases getSecretValue_cases cache c with
    ⟨_, -, heq⟩ | ⟨_, _, -, heq⟩ | ⟨_, _, heq | heq⟩ <;> simp only [heq]
  · rw [hset, if_neg h]
  · rw [hlib.get_delete, if_neg h]

/-! ### Where values come from -/

/-- The finished call was for `(t, k)` and got `value` from GSM. -/
def Served.Got (s : Served) (t : GlobalID) (k value : GoString) : Prop :=
  s.call.tenantID = t ∧ s.call.secretKey = k ∧ Fetched s.call s.request value

/-- Every entry holds what GSM answered to a call of `history` for the entry's own tenant and
name. -/
def Remembers (lib : GoCache) (cache : lib.Cache) (history : List Served) : Prop :=
  ∀ t k now value, lib.get cache (cacheKey t k) now = some value → ∃ s ∈ history, s.Got t k value

private theorem remembers_new (hlib : lib.PerKey) : Remembers lib lib.new [] := by
  intro t k now value h
  rw [hlib.get_new] at h
  cases h

private def servedBy (lib : GoCache) (cache : lib.Cache) (c : Call) : Served :=
  ⟨c, (getSecretValue lib cache c).result, (getSecretValue lib cache c).request⟩

private theorem Remembers.append {history : List Served} (h : Remembers lib cache history)
    (later : List Served) : Remembers lib cache (history ++ later) := by
  intro t k now value hvalue
  obtain ⟨s, hs, hgot⟩ := h t k now value hvalue
  exact ⟨s, List.mem_append_left _ hs, hgot⟩

private theorem Remembers.step (hlib : lib.PerKey) {history : List Served}
    (h : Remembers lib cache history) (c : Call) :
    Remembers lib (getSecretValue lib cache c).cache (history ++ [servedBy lib cache c]) := by
  have hbefore := h.append [servedBy lib cache c]
  obtain ⟨alive, hset⟩ := hlib.get_set
  intro t k now value hvalue
  by_cases hkey : cacheKey t k = c.key
  · obtain ⟨rfl, rfl⟩ := cacheKey_inj hkey
    rcases getSecretValue_cases cache c with
      ⟨_, -, heq⟩ | ⟨fetched, request, hgot, heq⟩ | ⟨_, _, heq | heq⟩ <;> rw [heq] at hvalue
    · exact hbefore _ _ _ _ hvalue
    · rw [hset, if_pos hkey] at hvalue
      split at hvalue
      · obtain rfl := Option.some.inj hvalue
        refine ⟨servedBy lib cache c, by simp, rfl, rfl, ?_⟩
        simpa only [servedBy, heq] using hgot
      · cases hvalue
    · exact hbefore _ _ _ _ hvalue
    · rw [hlib.get_delete, if_pos hkey] at hvalue
      cases hvalue
  · rw [get_getSecretValue_ne hlib cache c hkey] at hvalue
    exact hbefore t k now value hvalue

private theorem Remembers.value {history : List Served} (h : Remembers lib cache history)
    {c : Call} {value : GoString} (hv : (getSecretValue lib cache c).result = .ok value) :
    ∃ s ∈ history ++ [servedBy lib cache c], s.Got c.tenantID c.secretKey value := by
  rcases getSecretValue_cases cache c with
    ⟨v, hget, heq⟩ | ⟨v, request, hgot, heq⟩ | ⟨_, _, heq | heq⟩ <;> rw [heq] at hv
  · obtain rfl := Except.ok.inj hv
    exact h.append _ _ _ _ _ hget
  · obtain rfl := Except.ok.inj hv
    refine ⟨servedBy lib cache c, by simp, rfl, rfl, ?_⟩
    simpa only [servedBy, heq] using hgot
  · cases hv
  · cases hv

/-- Along a run, a returned value was fetched for the same tenant and name by this call or by
an earlier one. -/
theorem Remembers.serve (hlib : lib.PerKey) {calls : List Call} {history : List Served}
    (h : Remembers lib cache history) {before after : List Served} {s : Served} {value : GoString}
    (hrun : serve lib cache calls = before ++ s :: after) (hv : s.result = .ok value) :
    ∃ s' ∈ history ++ before ++ [s], s'.Got s.call.tenantID s.call.secretKey value := by
  -- the finished calls move from `before` to `history` one by one
  induction calls generalizing cache history before with
  | nil =>
    rw [Secrets.serve] at hrun
    exact absurd hrun (by simp)
  | cons c calls ih =>
    rw [Secrets.serve] at hrun
    cases before with
    | nil =>
      obtain ⟨rfl, -⟩ := List.cons.inj hrun
      rw [List.append_nil]
      exact h.value hv
    | cons s₀ before =>
      obtain ⟨rfl, hrest⟩ := List.cons.inj hrun
      obtain ⟨s', hs', hgot⟩ := ih (h.step hlib c) hrest
      refine ⟨s', ?_, hgot⟩
      simpa [servedBy] using hs'

/-! ### What other tenants can change -/

/-- The calls have the same arguments, times and answers. -/
structure SameAnswers (c c' : Call) : Prop where
  tenantID : c.tenantID = c'.tenantID
  secretKey : c.secretKey = c'.secretKey
  readAt : c.readAt = c'.readAt
  storedAt : c.storedAt = c'.storedAt
  fetch : fetch c = fetch c'

private theorem SameAnswers.refl (c : Call) : SameAnswers c c := ⟨rfl, rfl, rfl, rfl, rfl⟩

/-- The caches agree on the entries of tenant `t`. -/
def AgreeOn (lib : GoCache) (t : GlobalID) (cache cache' : lib.Cache) : Prop :=
  ∀ k now, lib.get cache (cacheKey t k) now = lib.get cache' (cacheKey t k) now

/-- The results of the calls for tenant `t`. -/
def resultsOf (t : GlobalID) (served : List Served) : List (Except GoString GoString) :=
  (served.filter fun s ↦ s.call.tenantID = t).map Served.result

/-- The calls for tenant `t`. -/
def callsOf (t : GlobalID) (calls : List Call) : List Call :=
  calls.filter fun c ↦ c.tenantID = t

-- A call sees its own entry only, and what it leaves there depends on what it saw.
private theorem getSecretValue_congr (hlib : lib.PerKey) {c c' : Call} (hsame : SameAnswers c c')
    (h : ∀ now, lib.get cache c.key now = lib.get cache' c.key now) :
    (getSecretValue lib cache c).result = (getSecretValue lib cache' c').result ∧
      ∀ now, lib.get (getSecretValue lib cache c).cache c.key now =
        lib.get (getSecretValue lib cache' c').cache c.key now := by
  have hkey : c'.key = c.key := by rw [Call.key, Call.key, hsame.tenantID, hsame.secretKey]
  obtain ⟨alive, hset⟩ := hlib.get_set
  unfold getSecretValue
  rw [hkey, ← hsame.readAt, ← hsame.fetch, ← h c.readAt]
  cases lib.get cache c.key c.readAt with
  | some value => exact ⟨rfl, h⟩
  | none =>
    obtain ⟨request, answer⟩ := Secrets.fetch c
    cases answer with
    | error err => exact ⟨rfl, h⟩
    | ok resp =>
      obtain ⟨statusCode, json200⟩ := resp
      simp only [handleResponse, hkey, ← hsame.secretKey, ← hsame.storedAt]
      split
      · cases json200 with
        | none => exact ⟨rfl, h⟩
        | some value => exact ⟨rfl, fun now ↦ by simp only [hset, if_true]⟩
      · split
        · exact ⟨rfl, fun now ↦ by simp only [hlib.get_delete, if_true]⟩
        · split
          · exact ⟨rfl, fun now ↦ by simp only [hlib.get_delete, if_true]⟩
          · exact ⟨rfl, h⟩

private theorem AgreeOn.step (hlib : lib.PerKey) {c c' : Call}
    (h : AgreeOn lib c.tenantID cache cache') (hsame : SameAnswers c c') :
    AgreeOn lib c.tenantID (getSecretValue lib cache c).cache
      (getSecretValue lib cache' c').cache := by
  have hkey : c'.key = c.key := by rw [Call.key, Call.key, hsame.tenantID, hsame.secretKey]
  intro k now
  by_cases hk : cacheKey c.tenantID k = c.key
  · rw [hk]
    exact (getSecretValue_congr hlib hsame (h c.secretKey)).2 now
  · rw [get_getSecretValue_ne hlib cache c hk, get_getSecretValue_ne hlib cache' c' (hkey ▸ hk)]
    exact h k now

-- A call for another tenant does not show.
private theorem AgreeOn.skip (hlib : lib.PerKey) {t : GlobalID} {c : Call}
    (h : AgreeOn lib t cache cache') (hc : c.tenantID ≠ t) :
    AgreeOn lib t (getSecretValue lib cache c).cache cache' := by
  intro k now
  rw [get_getSecretValue_ne hlib cache c]
  · exact h k now
  · intro hk
    exact hc (cacheKey_inj hk).1.symm

private theorem AgreeOn.serve_callsOf (hlib : lib.PerKey) {t : GlobalID}
    (h : AgreeOn lib t cache cache') (calls : List Call) :
    resultsOf t (serve lib cache calls) =
      (serve lib cache' (callsOf t calls)).map Served.result := by
  induction calls generalizing cache cache' with
  | nil => rfl
  | cons c calls ih =>
    by_cases hc : c.tenantID = t
    · subst hc
      have hresult := (getSecretValue_congr hlib (SameAnswers.refl c) (h c.secretKey)).1
      rw [callsOf, List.filter_cons_of_pos (by simp), resultsOf, serve,
        List.filter_cons_of_pos (by simp), List.map_cons, serve, List.map_cons]
      exact congrArg₂ List.cons hresult (ih (h.step hlib (SameAnswers.refl c)))
    · rw [callsOf, List.filter_cons_of_neg (by simpa using hc), resultsOf, serve,
        List.filter_cons_of_neg (by simpa using hc)]
      exact ih (h.skip hlib hc)

private theorem AgreeOn.serve_congr (hlib : lib.PerKey) {t : GlobalID}
    (h : AgreeOn lib t cache cache') {calls calls' : List Call}
    (hcalls : List.Forall₂ SameAnswers calls calls') (ht : ∀ c ∈ calls, c.tenantID = t) :
    (serve lib cache calls).map Served.result = (serve lib cache' calls').map Served.result := by
  induction hcalls generalizing cache cache' with
  | nil => rfl
  | @cons c c' calls calls' hsame _ ih =>
    obtain rfl := ht c List.mem_cons_self
    rw [serve, serve, List.map_cons, List.map_cons]
    exact congrArg₂ List.cons (getSecretValue_congr hlib hsame (h c.secretKey)).1
      (ih (h.step hlib hsame) (List.forall_mem_cons.mp ht).2)

end

/-! ### Isolation -/

/-- In every sequence of calls on a new cache, a value returned for a tenant and a name was
answered with status 200 to a request for that name with the credentials of the tenant's own
store, by this call or by an earlier one for the same tenant and name; and what a tenant's
calls return is determined by them and by the answers to them. -/
theorem secrets_isolated {lib : GoCache} (hlib : lib.PerKey) (calls : List Call) :
    (∀ before s after value, serve lib lib.new calls = before ++ s :: after →
      s.result = .ok value →
      ∃ s' ∈ before ++ [s], s'.call.tenantID = s.call.tenantID ∧
        s'.call.secretKey = s.call.secretKey ∧ Fetched s'.call s'.request value) ∧
    ∀ t calls', List.Forall₂ SameAnswers (callsOf t calls) (callsOf t calls') →
      resultsOf t (serve lib lib.new calls) = resultsOf t (serve lib lib.new calls') := by
  constructor
  · intro before s after value hrun hv
    exact (remembers_new hlib).serve hlib hrun hv
  · intro t calls' hcalls
    have hself : AgreeOn lib t lib.new lib.new := fun _ _ ↦ rfl
    have hown : ∀ c ∈ callsOf t calls, c.tenantID = t := by
      intro c hc
      simpa using (List.mem_filter.mp hc).2
    calc resultsOf t (serve lib lib.new calls)
        = (serve lib lib.new (callsOf t calls)).map Served.result :=
          hself.serve_callsOf hlib calls
      _ = (serve lib lib.new (callsOf t calls')).map Served.result :=
          hself.serve_congr hlib hcalls hown
      _ = resultsOf t (serve lib lib.new calls') := (hself.serve_callsOf hlib calls').symm

/-- A call that GSM answers with `value`. -/
def answeredCall (tenantID : GlobalID) (secretKey value : GoString) : Call where
  tenantID := tenantID
  secretKey := secretKey
  readAt := 10
  storedAt := 20
  getTenant _ := .ok { secretStore := some { url := .lit "gsm", token := .lit "token" } }
  newClient _ := none
  decrypt _ := .ok ⟨200, some value⟩

/-- Two tenants whose ids and names consist of the same characters in the same order. -/
def alikeCalls : List Call :=
  [answeredCall 12 (.lit ":x") (.lit "a"), answeredCall 1 (.lit "2::x") (.lit "b"),
    answeredCall 1 (.lit "2::x") (.lit "c")]

/-- The second call for tenant 1 is a hit: its value is the one fetched by the first. -/
theorem secrets_isolated_alikeCalls :
    resultsOf 1 (serve _ (GoCache.expiring 60).new alikeCalls) =
      resultsOf 1 (serve _ (GoCache.expiring 60).new alikeCalls.tail) ∧
    ∃ s' ∈ serve _ (GoCache.expiring 60).new alikeCalls, s'.call.tenantID = 1 ∧
      s'.call.secretKey = .lit "2::x" ∧ Fetched s'.call s'.request (.lit "b") := by
  have hself (c : Call) : SameAnswers c c := ⟨rfl, rfl, rfl, rfl, rfl⟩
  have hisolated := secrets_isolated (GoCache.perKey_expiring 60) alikeCalls
  constructor
  · apply hisolated.2 1
    exact .cons (hself _) (.cons (hself _) .nil)
  · exact hisolated.1 ((serve _ (GoCache.expiring 60).new alikeCalls).take 2)
      ⟨answeredCall 1 (.lit "2::x") (.lit "c"), .ok (.lit "b"), none⟩ [] (.lit "b") rfl rfl

end SMAgent.Secrets
