import SMAgent.Base.Claims
import SMAgent.Base.GoMap
import SMAgent.Pusher.Publisher

/-!
# The handler slots of all tenants

`internal/pusher/v2/publisher.go:49-143` for any number of tenants: the handler map, the
`Publish` calls and the `runHandler` goroutines, one critical section or one call of a
handler's method at a time. What a handler does inside `run` is left open, and so is what it
returns: nil, itself, or any other handler.
-/

namespace SMAgent.Pusher.Slots
open SMAgent.Base

/-- `model.GlobalID`. -/
abbrev GlobalID := Int

/-- Where a goroutine is, with its local variables. -/
inductive Goroutine where
  /-- `Publish`, before `getHandler` -/
  | started (tenantID : GlobalID)
  /-- `Publish`, `getHandler` found no handler -/
  | missed (tenantID : GlobalID)
  /-- `Publish`, `replaceHandler` swapped, before the `go` statement -/
  | spawning (tenantID : GlobalID) (handler : Option Handler)
  /-- `Publish`, before `handler.publish` -/
  | holding (tenantID : GlobalID) (handler : Option Handler)
  /-- `runHandler`, before the loop condition -/
  | looping (tenantID : GlobalID) (h : Option Handler) (ok : Bool)
  /-- `runHandler`, inside `h.run` -/
  | running (tenantID : GlobalID) (h : Handler)
  /-- `runHandler`, before `replaceHandler` -/
  | swapping (tenantID : GlobalID) (h : Handler) (next : Option Handler)
  /-- returned -/
  | finished
  deriving DecidableEq, Repr

/-- The publisher: the handler map, where an interface value may be nil, the gauge
`InstalledHandlers`, the goroutines, and the next pointer to be allocated. -/
structure State where
  handlers : GoMap GlobalID (Option Handler) := ∅
  installedHandlers : Nat := 0
  goroutines : Nat → Option Goroutine := fun _ ↦ none
  nextId : Nat := 0

namespace State

/-- `p.handlers[tenantID]`: nil if there is no entry. -/
def slot (s : State) (tenantID : GlobalID) : Option Handler := (s.handlers.lookup tenantID).join

/-- The number of occupied slots. -/
def occupied (s : State) : Nat := (s.handlers.range.filter (·.2.isSome)).length

/-- `replaceHandler`, `publisher.go:91-134`: the handler in effect, and whether it was
changed. -/
def replaceHandler (s : State) (tenantID : GlobalID) (old new : Option Handler) :
    State × Option Handler × Bool :=
  let current := s.slot tenantID
  if current ≠ old then (s, current, false)
  else
    let handlers := match new with
      | some h => s.handlers.insert tenantID (some h)
      | none => s.handlers.erase tenantID
    ({ s with handlers, installedHandlers := handlers.entries.length }, new, true)

/-- `getHandler`, `publisher.go:136-143`. -/
def getHandler (s : State) (tenantID : GlobalID) : Option Handler × Bool :=
  (s.slot tenantID, (s.handlers.lookup tenantID).isSome)

/-- Move a goroutine on. -/
def set (s : State) (g : Nat) (p : Goroutine) : State :=
  { s with goroutines := Function.update s.goroutines g (some p) }

/-- `Publish` after `getHandler`, `publisher.go:52-53`. -/
def look (s : State) (g : Nat) (tenantID : GlobalID) : State :=
  match s.getHandler tenantID with
  | (handler, true) => s.set g (.holding tenantID handler)
  | (_, false) => s.set g (.missed tenantID)

/-- `Publish` with a new handler, `publisher.go:56-59`. -/
def add (s : State) (g : Nat) (tenantID : GlobalID) : State :=
  match s.replaceHandler tenantID none (some (.tenant s.nextId)) with
  | (s', handler, true) => { s'.set g (.spawning tenantID handler) with nextId := s.nextId + 1 }
  | (s', handler, false) => { s'.set g (.holding tenantID handler) with nextId := s.nextId + 1 }

/-- The loop condition of `runHandler`, `publisher.go:74`. -/
def loop (s : State) (g : Nat) (tenantID : GlobalID) (h : Option Handler) (ok : Bool) : State :=
  match ok, h with
  | true, some h => s.set g (.running tenantID h)
  | _, _ => s.set g .finished

/-- `h, ok = p.replaceHandler(tenantID, h, next)`, `publisher.go:77`. -/
def swap (s : State) (g : Nat) (tenantID : GlobalID) (h : Handler) (next : Option Handler) :
    State :=
  match s.replaceHandler tenantID (some h) next with
  | (s', h', ok) => s'.set g (.looping tenantID h' ok)

end State

/-- A step of one goroutine. -/
inductive Action where
  | publish (g : Nat) (tenantID : GlobalID)
  | look (g : Nat)
  | add (g : Nat)
  | spawn (g runner : Nat)
  | invoke (g : Nat)
  | loop (g : Nat)
  | run (g : Nat) (next : Option Handler)
  | swap (g : Nat)
  deriving DecidableEq, Repr

/-- When a step can be taken, and where it leads. -/
inductive Step : State → Action → State → Prop where
  | publish {s : State} {g : Nat} {tenantID : GlobalID} :
    s.goroutines g = none → Step s (.publish g tenantID) (s.set g (.started tenantID))
  | look {s : State} {g : Nat} {tenantID : GlobalID} :
    s.goroutines g = some (.started tenantID) → Step s (.look g) (s.look g tenantID)
  | add {s : State} {g : Nat} {tenantID : GlobalID} :
    s.goroutines g = some (.missed tenantID) → Step s (.add g) (s.add g tenantID)
  | spawn {s : State} {g runner : Nat} {tenantID : GlobalID} {handler : Option Handler} :
    s.goroutines g = some (.spawning tenantID handler) → s.goroutines runner = none →
    Step s (.spawn g runner)
      ((s.set g (.holding tenantID handler)).set runner (.looping tenantID handler true))
  | invoke {s : State} {g : Nat} {tenantID : GlobalID} {handler : Option Handler} :
    s.goroutines g = some (.holding tenantID handler) → Step s (.invoke g) (s.set g .finished)
  | loop {s : State} {g : Nat} {tenantID : GlobalID} {h : Option Handler} {ok : Bool} :
    s.goroutines g = some (.looping tenantID h ok) → Step s (.loop g) (s.loop g tenantID h ok)
  | run {s : State} {g : Nat} {tenantID : GlobalID} {h : Handler} {next : Option Handler} :
    s.goroutines g = some (.running tenantID h) →
    Step s (.run g next) (s.set g (.swapping tenantID h next))
  | swap {s : State} {g : Nat} {tenantID : GlobalID} {h : Handler} {next : Option Handler} :
    s.goroutines g = some (.swapping tenantID h next) → Step s (.swap g) (s.swap g tenantID h next)

/-! ### The map as one slot per tenant -/

namespace State
variable {s : State}

@[simp] private theorem slot_set (s : State) (g : Nat) (p : Goroutine) :
    (s.set g p).slot = s.slot := rfl

/-- On its own slot `replaceHandler` is the exchange of the publisher of one tenant, and it
leaves the other slots alone. -/
theorem replaceHandler_eq (s : State) (tenantID : GlobalID) (old new : Option Handler) :
    (s.replaceHandler tenantID old new).2 =
        (Pusher.replaceHandler (s.slot tenantID) old new).2 ∧
      (s.replaceHandler tenantID old new).1.slot =
        Function.update s.slot tenantID (Pusher.replaceHandler (s.slot tenantID) old new).1 := by
  unfold replaceHandler Pusher.replaceHandler
  by_cases hc : s.slot tenantID ≠ old
  · simp only [if_pos hc]
    exact ⟨trivial, (Function.update_eq_self _ _).symm⟩
  · simp only [if_neg hc]
    refine ⟨trivial, funext fun t ↦ ?_⟩
    cases new with
    | some h =>
      simp only [slot, GoMap.lookup_insert_eq, Function.update_apply]
      split <;> rfl
    | none =>
      simp only [slot, GoMap.lookup_erase_eq, Function.update_apply]
      split <;> rfl

private theorem replaceHandler_of_ne {tenantID : GlobalID} {old : Option Handler}
    (h : s.slot tenantID ≠ old) (new : Option Handler) :
    s.replaceHandler tenantID old new = (s, s.slot tenantID, false) := if_pos h

/-- The map holds no nil handler, and the gauge shows its length. -/
structure Stored (handlers : GoMap GlobalID (Option Handler)) (gauge : Nat) : Prop where
  isSome : ∀ {tenantID v}, handlers.lookup tenantID = some v → v.isSome
  gauge : gauge = handlers.entries.length

private theorem replaceHandler_of_eq {tenantID : GlobalID} {old : Option Handler}
    (h : s.slot tenantID = old) (hs : Stored s.handlers s.installedHandlers)
    (new : Option Handler) :
    ∃ s', s.replaceHandler tenantID old new = (s', new, true) ∧
      s'.slot = Function.update s.slot tenantID new ∧ s'.goroutines = s.goroutines ∧
      Stored s'.handlers s'.installedHandlers := by
  obtain ⟨hresult, hslot⟩ := replaceHandler_eq s tenantID old new
  have hone : Pusher.replaceHandler (s.slot tenantID) old new = (new, new, true) := by
    rw [Pusher.replaceHandler, if_neg (not_not.mpr h)]
  rw [hone] at hresult hslot
  have heq : s.replaceHandler tenantID old new = _ := if_neg (not_not.mpr h)
  refine ⟨_, Prod.ext rfl hresult, hslot, by rw [heq], ?_⟩
  rw [heq]
  refine ⟨fun {t v} hv ↦ ?_, rfl⟩
  cases new with
  | some h' =>
    rw [GoMap.lookup_insert_eq] at hv
    split at hv
    · cases hv
      rfl
    · exact hs.isSome hv
  | none =>
    rw [GoMap.lookup_erase_eq] at hv
    split at hv
    · cases hv
    · exact hs.isSome hv

private theorem occupied_eq (hs : Stored s.handlers s.installedHandlers) :
    s.occupied = s.installedHandlers := by
  rw [occupied, hs.gauge, List.filter_eq_self.mpr, GoMap.range, List.length_map]
  rintro ⟨t, v⟩ hv
  exact hs.isSome ((GoMap.mem_range _ _ _).mp hv)

private theorem getHandler_eq (hs : Stored s.handlers s.installedHandlers) (tenantID : GlobalID) :
    s.getHandler tenantID = (s.slot tenantID, (s.slot tenantID).isSome) := by
  rw [getHandler, slot]
  cases hv : s.handlers.lookup tenantID with
  | none => rfl
  | some v => rw [Option.join_some, hs.isSome hv, Option.isSome_some]

end State

/-! ### Every run -/

/-- The handler that a goroutine will run or replace, with the tenant it serves. A goroutine
that deleted its handler, or lost it, only has to leave its loop. -/
def claim : Option Goroutine → Option (GlobalID × Handler)
  | some (.spawning tenantID handler) => handler.map (tenantID, ·)
  | some (.looping tenantID h true) => h.map (tenantID, ·)
  | some (.running tenantID h) => some (tenantID, h)
  | some (.swapping tenantID h _) => some (tenantID, h)
  | _ => none

/-- A `Publish` call that is past the look-up has a handler in hand. -/
def InHand : Option Goroutine → Prop
  | some (.spawning _ handler) => handler.isSome
  | some (.holding _ handler) => handler.isSome
  | _ => True

/-- Every handler in a loop is in its tenant's slot and in no other loop of the tenant, and no
call has a nil handler in hand. -/
structure Inv (s : State) : Prop where
  exclusive : Exclusive (claim ∘ s.goroutines) s.slot
  stored : State.Stored s.handlers s.installedHandlers
  inHand : ∀ g, InHand (s.goroutines g)

private theorem inv_init : Inv {} where
  exclusive := .nobody
  stored := ⟨nofun, rfl⟩
  inHand := fun _ ↦ trivial

variable {s : State} {g runner : Nat} {tenantID : GlobalID}

private theorem claim_set (s : State) (g : Nat) (p : Goroutine) :
    claim ∘ (s.set g p).goroutines = Function.update (claim ∘ s.goroutines) g (claim (some p)) :=
  Function.comp_update _ _ _ _

private theorem inHand_set (h : ∀ g, InHand (s.goroutines g)) {p : Goroutine}
    (hp : InHand (some p)) : ∀ g', InHand ((s.set g p).goroutines g') :=
  (Function.forall_update_iff s.goroutines fun _ ↦ InHand).mpr ⟨hp, fun g' _ ↦ h g'⟩

namespace Inv

private theorem set (h : Inv s) {p : Goroutine} (hc : claim (some p) = claim (s.goroutines g))
    (hp : InHand (some p)) : Inv (s.set g p) where
  exclusive := by
    have hsame : claim ∘ (s.set g p).goroutines = claim ∘ s.goroutines := by
      rw [claim_set, hc]
      exact Function.update_eq_self g (claim ∘ s.goroutines)
    rw [hsame, State.slot_set]
    exact h.exclusive
  stored := h.stored
  inHand := inHand_set h.inHand hp

private theorem replace (h : Inv s) {old : Option Handler} (hs : s.slot tenantID = old)
    (hg : (s.slot tenantID = none ∧ claim (s.goroutines g) = none) ∨
      ∃ v, claim (s.goroutines g) = some (tenantID, v))
    (new : Option Handler) (p : Goroutine) (hc : claim (some p) = new.map (tenantID, ·))
    (hp : InHand (some p)) :
    ∃ s', s.replaceHandler tenantID old new = (s', new, true) ∧ Inv (s'.set g p) := by
  obtain ⟨s', heq, hslot, hgs, hstored⟩ := State.replaceHandler_of_eq hs h.stored new
  refine ⟨s', heq, ?_, hstored, inHand_set (by rw [hgs]; exact h.inHand) hp⟩
  rw [claim_set, hc, State.slot_set, hslot, hgs]
  exact h.exclusive.write hg new

private theorem alloc (h : Inv s) (n : Nat) : Inv { s with nextId := n } :=
  ⟨h.exclusive, h.stored, h.inHand⟩

private theorem look (h : Inv s) (hg : s.goroutines g = some (.started tenantID)) :
    Inv (s.look g tenantID) := by
  rw [State.look, State.getHandler_eq h.stored]
  cases hs : s.slot tenantID with
  | none => exact h.set (by rw [hg]; rfl) trivial
  | some handler => exact h.set (by rw [hg]; rfl) rfl

private theorem add (h : Inv s) (hg : s.goroutines g = some (.missed tenantID)) :
    Inv (s.add g tenantID) := by
  rw [State.add]
  cases hs : s.slot tenantID with
  | none =>
    obtain ⟨s', heq, hinv⟩ := h.replace hs (.inl ⟨hs, by rw [hg]; rfl⟩)
      (some (.tenant s.nextId)) (.spawning tenantID (some (.tenant s.nextId))) rfl rfl
    rw [heq]
    exact hinv.alloc _
  | some handler =>
    rw [State.replaceHandler_of_ne (by rw [hs]; exact nofun), hs]
    exact (h.set (p := .holding tenantID (some handler)) (by rw [hg]; rfl) rfl).alloc _

private theorem spawn (h : Inv s) {handler : Option Handler}
    (hg : s.goroutines g = some (.spawning tenantID handler)) (hr : s.goroutines runner = none) :
    Inv ((s.set g (.holding tenantID handler)).set runner (.looping tenantID handler true)) where
  exclusive := by
    have hclaim : claim (some (.looping tenantID handler true)) = (claim ∘ s.goroutines) g := by
      rw [Function.comp_apply, hg]
      rfl
    rw [claim_set, claim_set, hclaim]
    exact h.exclusive.handOver (by rw [Function.comp_apply, hr]; rfl)
  stored := h.stored
  inHand := by
    have hhandler : InHand (some (.holding tenantID handler)) := by
      have hi := h.inHand g
      rw [hg] at hi
      exact hi
    exact inHand_set (inHand_set h.inHand hhandler) trivial

private theorem loop (h : Inv s) {handler : Option Handler} {ok : Bool}
    (hg : s.goroutines g = some (.looping tenantID handler ok)) :
    Inv (s.loop g tenantID handler ok) := by
  cases ok with
  | false => exact h.set (by rw [hg]; rfl) trivial
  | true =>
    cases handler with
    | none => exact h.set (by rw [hg]; rfl) trivial
    | some handler => exact h.set (by rw [hg]; rfl) trivial

private theorem swap (h : Inv s) {handler : Handler} {next : Option Handler}
    (hg : s.goroutines g = some (.swapping tenantID handler next)) :
    (s.replaceHandler tenantID (some handler) next).2.2 = true ∧
      Inv (s.swap g tenantID handler next) := by
  have hc : claim (s.goroutines g) = some (tenantID, handler) := by rw [hg]; rfl
  obtain ⟨s', heq, hinv⟩ := h.replace (h.exclusive.slot_of_claim hc) (.inr ⟨handler, hc⟩) next
    (.looping tenantID next true) rfl trivial
  rw [State.swap, heq]
  exact ⟨rfl, hinv⟩

end Inv

/-- Step lemma. -/
theorem inv_step {a : Action} {s' : State} (h : Inv s) (hstep : Step s a s') : Inv s' := by
  cases hstep with
  | publish hg => exact h.set (by rw [hg]; rfl) trivial
  | look hg => exact h.look hg
  | add hg => exact h.add hg
  | spawn hg hr => exact h.spawn hg hr
  | invoke hg => exact h.set (by rw [hg]; rfl) trivial
  | loop hg => exact h.loop hg
  | run hg => exact h.set (by rw [hg]; rfl) trivial
  | swap hg => exact (h.swap hg).2

/-- A `runHandler` goroutine whose loop is not over serves a tenant. -/
def loops : Goroutine → Option GlobalID
  | .looping tenantID (some _) true => some tenantID
  | .running tenantID _ => some tenantID
  | .swapping tenantID _ _ => some tenantID
  | _ => none

/-- The protocol of the handler slots. -/
structure SlotProtocol (s : State) : Prop where
  /-- at most one loop is active for a tenant -/
  one_loop : ∀ {g g' p p' tenantID}, s.goroutines g = some p → s.goroutines g' = some p' →
    loops p = some tenantID → loops p' = some tenantID → g = g'
  /-- inside `h.run` the slot of the tenant holds `h` -/
  running_installed : ∀ {g tenantID h}, s.goroutines g = some (.running tenantID h) →
    s.slot tenantID = some h
  /-- no tenant is hijacked -/
  swap_succeeds : ∀ {g tenantID h next}, s.goroutines g = some (.swapping tenantID h next) →
    (s.replaceHandler tenantID (some h) next).2.2 = true
  /-- `publish` is not invoked on nil -/
  publish_not_nil : ∀ {g tenantID handler}, s.goroutines g = some (.holding tenantID handler) →
    handler.isSome
  /-- the gauge shows the number of occupied slots -/
  gauge_eq : s.installedHandlers = s.occupied

private theorem claim_of_loops {p : Goroutine} (h : loops p = some tenantID) :
    ∃ v, claim (some p) = some (tenantID, v) := by
  match p, h with
  | .looping _ (some v) true, rfl => exact ⟨v, rfl⟩
  | .running _ v, rfl => exact ⟨v, rfl⟩
  | .swapping _ v _, rfl => exact ⟨v, rfl⟩

private theorem slotProtocol_of_inv (h : Inv s) : SlotProtocol s where
  one_loop := by
    intro g g' p p' t hg hg' hp hp'
    obtain ⟨v, hv⟩ := claim_of_loops hp
    obtain ⟨v', hv'⟩ := claim_of_loops hp'
    rw [← hg] at hv
    rw [← hg'] at hv'
    exact h.exclusive.unique hv hv'
  running_installed := by
    intro g t v hg
    exact h.exclusive.slot_of_claim (by rw [Function.comp_apply, hg]; rfl)
  swap_succeeds := fun hg ↦ (h.swap hg).1
  publish_not_nil := by
    intro g t handler hg
    have hi := h.inHand g
    rw [hg] at hi
    exact hi
  gauge_eq := (State.occupied_eq h.stored).symm

/-- In every state of every run the handler slots follow the protocol, whatever the handlers'
`run` methods return. -/
theorem slotProtocol_of_runs (actions : List Action) (s : State) (h : Runs Step {} actions s) :
    SlotProtocol s :=
  slotProtocol_of_inv (h.invariant (fun _ _ _ (ht : Inv _) hstep ↦ inv_step ht hstep) inv_init)

/-- Two calls find no handler for tenant 1, the second to add one takes that of the first. Its
loop is inside the delay that the pusher returned, which then returns nil, while another tenant
gets a handler. -/
def twoTenants : List Action :=
  [.publish 0 1, .publish 1 1, .look 0, .look 1, .add 0, .add 1, .invoke 1, .spawn 0 2, .loop 2,
    .run 2 (some (.delay 7 0)), .swap 2, .publish 3 5, .look 3, .add 3, .loop 2, .run 2 none,
    .swap 2, .loop 2]

/-- The run ends with one occupied slot, and its state follows the protocol. -/
theorem slotProtocol_twoTenants :
    ∃ s, Runs Step {} twoTenants s ∧ s.installedHandlers = 1 ∧ SlotProtocol s := by
  obtain ⟨s, hrun, hgauge⟩ :
      ∃ s, Runs Step {} twoTenants s ∧ s.installedHandlers = 1 :=
    ⟨_, .cons (.publish rfl) (.cons (.publish rfl) (.cons (.look rfl) (.cons (.look rfl)
      (.cons (.add rfl) (.cons (.add rfl) (.cons (.invoke rfl) (.cons (.spawn rfl rfl)
      (.cons (.loop rfl) (.cons (.run rfl) (.cons (.swap rfl) (.cons (.publish rfl)
      (.cons (.look rfl) (.cons (.add rfl) (.cons (.loop rfl) (.cons (.run rfl)
      (.cons (.swap rfl) (.cons (.loop rfl) (.nil _)))))))))))))))))), rfl⟩
  exact ⟨s, hrun, hgauge, slotProtocol_of_runs twoTenants s hrun⟩

end SMAgent.Pusher.Slots
