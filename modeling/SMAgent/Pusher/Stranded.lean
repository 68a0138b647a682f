import SMAgent.Pusher.Publisher

/-!
# Records that no handler refers to

A record waits in the queue of a `tenantPusher`. Somebody will push it as long as that
pusher is in the tenant's slot, directly or behind a `delayPusher`, or is about to be put
there. The slot loses its pusher when `run` ends for good, and nothing looks at its queues
or at the `Publish` calls that still hold it: the records are kept safe by swapping
out only pushers that are empty and not held.
-/

namespace SMAgent.Pusher
open SMAgent.Base

variable {options : QueueOptions} {s s' : State} {a : Action}

/-- The handler, if any, delivers to the queues of `id`. -/
def Refers (h : Option Handler) (id : Nat) : Prop := h.bind Handler.target = some id

/-- The pusher is installed, or behind the installed delay, or about to be installed. -/
def Referenced (s : State) (id : Nat) : Prop :=
  Refers s.slot id ∨ ∃ runner h next, s.runners runner = some (.swapping h next) ∧ Refers next id

/-- Where the enqueued records are: each is waiting, in a batch of a push loop, pushed or
counted, or dropped by a limit; a record that waits or is in a batch is in good hands. -/
structure Held (s : State) : Prop where
  conserved : ∀ id k, (s.enqueued id k).Perm
    ((s.queues id k).data ++ s.inflight id k ++ s.settled id k ++ (s.queues id k).removed)
  waiting : ∀ id k, (s.queues id k).data ≠ [] → Referenced s id
  pushing : ∀ id k, s.inflight id k ≠ [] →
    ∃ runner, s.runners runner = some (.running (.tenant id))

/-- The condition on a step: a pusher leaves the slot only with empty queues and when no
`Publish` call holds it with records to deliver. -/
def SafeSwap (s : State) : Action → Prop
  | .swap runner => ∀ h next id, s.runners runner = some (.swapping h next) →
      h.target = some id → ¬ Refers next id →
        (∀ k, (s.queues id k).data = []) ∧
          ∀ call h' rs, s.calls call = some (.holding h' rs) → h'.target = some id → rs = []
  | _ => True

/-! ### The slot and its goroutine -/

/-- The one goroutine that is active runs the installed handler, and what it is about to
install delivers to the same pusher or to none. -/
structure Control (s : State) : Prop where
  installed : ∀ runner p, s.runners runner = some p → s.slot = some p.handler
  unique : ∀ r r' p p', s.runners r = some p → s.runners r' = some p' → r = r'
  next : ∀ runner h next id, s.runners runner = some (.swapping h next) → Refers next id →
    h.target = some id

variable {h : Handler} {runner : Nat}

private theorem Control.slot_of_running (hc : Control s)
    (hr : s.runners runner = some (.running h)) : s.slot = some h :=
  hc.installed runner _ hr

private theorem Control.slot_of_swapping (hc : Control s) {next : Option Handler}
    (hr : s.runners runner = some (.swapping h next)) : s.slot = some h :=
  hc.installed runner _ hr

private theorem Control.of_frame (hc : Control s) (hslot : s'.slot = s.slot)
    (hrunners : s'.runners = s.runners) : Control s' where
  installed := by rw [hslot, hrunners]; exact hc.installed
  unique := by rw [hrunners]; exact hc.unique
  next := by rw [hrunners]; exact hc.next

private theorem deliver_frame (options : QueueOptions) (s : State) (h : Handler) (r : Record)
    (ts now : Int) :
    (s.deliver options h r ts now).slot = s.slot ∧
      (s.deliver options h r ts now).runners = s.runners ∧
      (s.deliver options h r ts now).calls = s.calls ∧
      (s.deliver options h r ts now).inflight = s.inflight ∧
      (s.deliver options h r ts now).settled = s.settled := by
  unfold State.deliver
  split
  · exact ⟨rfl, rfl, rfl, rfl, rfl⟩
  · exact ⟨rfl, rfl, rfl, rfl, rfl⟩

private theorem runResult_target (h n : Handler) (fresh id : Nat) (err : RunError)
    (hr : runResult h fresh err = some n) (hn : n.target = some id) : h.target = some id := by
  unfold runResult at hr
  split at hr
  all_goals cases hr
  all_goals first | exact hn | cases hn

-- After a step of goroutine `r₀` no other goroutine is active.
private theorem Control.of_single (r₀ : Nat)
    (h : ∀ r p, s'.runners r = some p → r = r₀ ∧ s'.slot = some p.handler ∧
      ∀ h next id, p = .swapping h next → Refers next id → h.target = some id) :
    Control s' where
  installed r p hp := (h r p hp).2.1
  unique r r' p p' hp hp' := (h r p hp).1.trans (h r' p' hp').1.symm
  next r h' next id hp hn := (h r _ hp).2.2 h' next id rfl hn

private theorem eq_of_update {runners : Nat → Option Runner} {r₀ r : Nat} {x : Option Runner}
    {p : Runner} (hidle : ∀ r, r ≠ r₀ → runners r = none)
    (h : Function.update runners r₀ x r = some p) : r = r₀ ∧ x = some p := by
  by_cases hr : r = r₀
  · subst hr
    rw [Function.update_self] at h
    exact ⟨rfl, h⟩
  · rw [Function.update_of_ne hr, hidle r hr] at h
    cases h

private theorem Control.idle_of_active (hc : Control s) {r₀ : Nat} {p₀ : Runner}
    (h₀ : s.runners r₀ = some p₀) : ∀ r, r ≠ r₀ → s.runners r = none := by
  intro r hr
  cases hp : s.runners r with
  | none => rfl
  | some p => exact absurd (hc.unique r r₀ p p₀ hp h₀) hr

private theorem Control.idle_of_empty (hc : Control s) (hs : s.slot = none) (r : Nat) :
    s.runners r = none := by
  cases hr : s.runners r with
  | none => rfl
  | some p => cases hs.symm.trans (hc.installed r p hr)

private theorem control_addHandler (hc : Control s) (call : Nat) (rs : List Record) :
    Control (s.addHandler call rs) := by
  cases hs : s.slot with
  | some h =>
    rw [State.addHandler_of_some hs]
    exact hc.of_frame rfl rfl
  | none =>
    rw [State.addHandler_of_none hs]
    apply Control.of_single s.nextId
    intro r p hp
    obtain ⟨rfl, hx⟩ := eq_of_update (fun r _ ↦ hc.idle_of_empty hs r) hp
    obtain rfl := Option.some.inj hx
    exact ⟨rfl, rfl, nofun⟩

private theorem control_finish (hc : Control s) (hr : s.runners runner = some (.running h))
    (err : RunError) : Control (s.finish runner h err) := by
  apply Control.of_single runner
  intro r p hp
  obtain ⟨rfl, hx⟩ := eq_of_update (hc.idle_of_active hr) hp
  obtain rfl := Option.some.inj hx
  refine ⟨rfl, hc.slot_of_running hr, ?_⟩
  intro h' next id heq hn
  obtain ⟨rfl, rfl⟩ := Runner.swapping.inj heq
  obtain ⟨n, hn', ht⟩ := Option.bind_eq_some_iff.mp hn
  exact runResult_target _ n _ id err hn' ht

private theorem control_swap (hc : Control s) {next : Option Handler}
    (hr : s.runners runner = some (.swapping h next)) : Control (s.swap runner h next) := by
  rw [State.swap_of_slot (hc.slot_of_swapping hr)]
  apply Control.of_single runner
  intro r p hp
  obtain ⟨rfl, hx⟩ := eq_of_update (hc.idle_of_active hr) hp
  obtain ⟨h', hh', rfl⟩ := Option.map_eq_some_iff.mp hx
  exact ⟨rfl, hh', nofun⟩

private theorem control_step (hc : Control s) (h : Step options s a s') : Control s' := by
  cases h with
  | publish _ => exact hc.of_frame rfl rfl
  | getHandler _ => exact hc.of_frame rfl rfl
  | addHandler _ => exact control_addHandler hc _ _
  | enqueue _ =>
    have hf := deliver_frame options s
    exact hc.of_frame (hf _ _ _ _).1 (hf _ _ _ _).2.1
  | take _ _ => exact hc.of_frame rfl rfl
  | putBack _ => exact hc.of_frame rfl rfl
  | dispose _ => exact hc.of_frame rfl rfl
  | finish hr _ => exact control_finish hc hr _
  | swap hr => exact control_swap hc hr

/-! ### Where the records are -/

/-- The records are with the installed handler, as far as they are known to anybody. -/
structure Located (s : State) : Prop where
  waiting : ∀ id k, (s.queues id k).data ≠ [] → Refers s.slot id
  holding : ∀ call h rs id, s.calls call = some (.holding h rs) → rs ≠ [] →
    h.target = some id → Refers s.slot id
  pushing : ∀ id k, s.inflight id k ≠ [] →
    ∃ runner, s.runners runner = some (.running (.tenant id))

private theorem update₂_apply {β : Type} (f : Nat → Kind → β) (id id' : Nat) (k k' : Kind)
    (x : β) : Function.update f id (Function.update (f id) k x) id' k' =
      if id' = id ∧ k' = k then x else f id' k' := by
  by_cases hid : id' = id
  · subst hid
    rw [Function.update_self, Function.update_apply]
    simp
  · rw [Function.update_of_ne hid, if_neg fun h ↦ hid h.1]

private theorem holding_of_update {calls : Nat → Option Call} {c : Call} {call call' : Nat}
    {rs : List Record} (hc : Function.update calls call (some c) call' = some (.holding h rs)) :
    c = .holding h rs ∨ calls call' = some (.holding h rs) := by
  by_cases hcall : call' = call
  · subst hcall
    rw [Function.update_self] at hc
    exact .inl (Option.some.inj hc)
  · rw [Function.update_of_ne hcall] at hc
    exact .inr hc

private theorem located_setCall (hl : Located s) (call : Nat) (c : Call)
    (h : ∀ h rs id, c = .holding h rs → rs ≠ [] → h.target = some id → Refers s.slot id) :
    Located (s.setCall call c) where
  waiting := hl.waiting
  holding call' h' rs id hc hrs ht := by
    rcases holding_of_update hc with hc | hc
    · exact h h' rs id hc hrs ht
    · exact hl.holding call' h' rs id hc hrs ht
  pushing := hl.pushing

private theorem located_addHandler (hc : Control s) (hl : Located s) (call : Nat)
    (rs : List Record) : Located (s.addHandler call rs) := by
  cases hs : s.slot with
  | some h =>
    have hset : Located (s.setCall call (.holding h rs)) := by
      apply located_setCall hl
      intro h' rs' id heq _ ht
      obtain ⟨rfl, rfl⟩ := Call.holding.inj heq
      rw [hs]
      exact ht
    rw [State.addHandler_of_some hs]
    exact ⟨hset.waiting, hset.holding, hset.pushing⟩
  | none =>
    have hempty : ∀ id, ¬ Refers s.slot id := by
      intro id hr
      rw [hs] at hr
      cases hr
    rw [State.addHandler_of_none hs]
    refine ⟨?_, ?_, ?_⟩
    · intro id k hd
      exact absurd (hl.waiting id k hd) (hempty id)
    · intro call' h' rs' id hh hrs ht
      rcases holding_of_update hh with heq | hold
      · obtain ⟨rfl, rfl⟩ := Call.holding.inj heq
        exact ht
      · exact absurd (hl.holding call' h' rs' id hold hrs ht) (hempty id)
    · intro id k hi
      obtain ⟨r, hr⟩ := hl.pushing id k hi
      cases (hc.idle_of_empty hs r).symm.trans hr

-- A step on the queues of the pusher `id` that the slot refers to.
private theorem Located.of_queue_step (hl : Located s) (id : Nat) (hs : Refers s.slot id)
    (hslot : s'.slot = s.slot) (hcalls : s'.calls = s.calls) (hrunners : s'.runners = s.runners)
    (hqueues : ∀ id' k, id' ≠ id → s'.queues id' k = s.queues id' k)
    (hinflight : ∀ id' k, s'.inflight id' k ≠ [] → s.inflight id' k ≠ [] ∨
      ∃ runner, s.runners runner = some (.running (.tenant id'))) : Located s' where
  waiting id' k hd := by
    rw [hslot]
    by_cases hid : id' = id
    · rw [hid]
      exact hs
    · rw [hqueues id' k hid] at hd
      exact hl.waiting id' k hd
  holding := by
    rw [hslot, hcalls]
    exact hl.holding
  pushing id' k hi := by
    rw [hrunners]
    rcases hinflight id' k hi with h | h
    · exact hl.pushing id' k h
    · exact h

private theorem setQueue_ne {id id' : Nat} (h : id' ≠ id) (k k' : Kind) (q : Queue) :
    (s.setQueue id k q).queues id' k' = s.queues id' k' :=
  (update₂_apply s.queues id id' k k' q).trans (if_neg fun hk ↦ h hk.1)

private theorem setInflight_ne {id id' : Nat} (h : id' ≠ id) (k k' : Kind)
    (batch : List QueueEntry) : (s.setInflight id k batch).inflight id' k' = s.inflight id' k' :=
  (update₂_apply s.inflight id id' k k' batch).trans (if_neg fun hk ↦ h hk.1)

-- A step of a push loop of the running pusher `id`.
private theorem Located.of_push_step (hc : Control s) (hl : Located s) {runner id : Nat}
    (hr : s.runners runner = some (.running (.tenant id))) (hslot : s'.slot = s.slot)
    (hcalls : s'.calls = s.calls) (hrunners : s'.runners = s.runners)
    (hqueues : ∀ id' k, id' ≠ id → s'.queues id' k = s.queues id' k)
    (hinflight : ∀ id' k, id' ≠ id → s'.inflight id' k = s.inflight id' k) : Located s' := by
  have hs := hc.slot_of_running hr
  refine hl.of_queue_step id (by rw [hs]; rfl) hslot hcalls hrunners hqueues ?_
  intro id' k hi
  by_cases hid : id' = id
  · rw [hid]
    exact .inr ⟨runner, hr⟩
  · rw [hinflight id' k hid] at hi
    exact .inl hi

private theorem located_enqueue (hl : Located s) {call : Nat} {r : Record} {rs : List Record}
    (hc : s.calls call = some (.holding h (r :: rs))) (ts now : Int) :
    Located ((s.deliver options h r ts now).setCall call (.holding h rs)) := by
  obtain ⟨hslot, hrunners, hcalls, hinflight, -⟩ := deliver_frame options s h r ts now
  have hdeliver : Located (s.deliver options h r ts now) := by
    cases ht : h.target with
    | none =>
      rw [State.deliver, ht]
      exact ⟨hl.waiting, hl.holding, hl.pushing⟩
    | some id =>
      apply hl.of_queue_step id (hl.holding call h _ id hc (List.cons_ne_nil r rs) ht) hslot hcalls
        hrunners
      · intro id' k hid
        rw [State.deliver, ht]
        exact setQueue_ne hid _ _ _
      · intro id' k hi
        rw [hinflight] at hi
        exact .inl hi
  apply located_setCall hdeliver
  intro h' rs' id heq hrs ht
  obtain ⟨rfl, rfl⟩ := Call.holding.inj heq
  rw [hslot]
  exact hl.holding call h _ id hc (List.cons_ne_nil r rs) ht

private theorem located_finish (hc : Control s) (hl : Located s)
    (hr : s.runners runner = some (.running h))
    (hidle : ∀ id k, h = .tenant id → s.inflight id k = []) (err : RunError) :
    Located (s.finish runner h err) where
  waiting := hl.waiting
  holding := hl.holding
  pushing id k hi := by
    obtain ⟨r, hr'⟩ := hl.pushing id k hi
    obtain rfl := hc.unique r runner _ _ hr' hr
    obtain rfl := Runner.running.inj (Option.some.inj (hr.symm.trans hr'))
    exact absurd (hidle id k rfl) hi

private theorem located_swap (hc : Control s) (hl : Located s) {next : Option Handler}
    (hr : s.runners runner = some (.swapping h next)) (hsafe : SafeSwap s (.swap runner)) :
    Located (s.swap runner h next) := by
  have hs := hc.slot_of_swapping hr
  have hout : ∀ id, Refers s.slot id → ¬ Refers next id → (∀ k, (s.queues id k).data = []) ∧
      ∀ call h' rs, s.calls call = some (.holding h' rs) → h'.target = some id → rs = [] := by
    intro id hid hn
    rw [hs] at hid
    exact hsafe h next id hr hid hn
  rw [State.swap_of_slot hs]
  refine ⟨?_, ?_, ?_⟩
  · intro id k hd
    by_contra hn
    exact hd ((hout id (hl.waiting id k hd) hn).1 k)
  · intro call h' rs id hh hrs ht
    by_contra hn
    exact hrs ((hout id (hl.holding call h' rs id hh hrs ht) hn).2 call h' rs hh ht)
  · intro id k hi
    obtain ⟨r, hr'⟩ := hl.pushing id k hi
    obtain rfl := hc.unique r runner _ _ hr' hr
    cases hr.symm.trans hr'

private theorem located_step (hc : Control s) (hl : Located s) (h : Step options s a s')
    (hsafe : SafeSwap s a) : Located s' := by
  cases h with
  | publish _ => exact located_setCall hl _ _ nofun
  | getHandler _ =>
    apply located_setCall hl
    intro h rs id heq _ ht
    split at heq
    · next h' hs =>
      obtain ⟨rfl, rfl⟩ := Call.holding.inj heq
      rw [hs]
      exact ht
    · cases heq
  | addHandler _ => exact located_addHandler hc hl _ _
  | enqueue hcall => exact located_enqueue hl hcall _ _
  | take hr _ =>
    exact Located.of_push_step hc hl hr rfl rfl rfl (fun _ _ hid ↦ setQueue_ne hid _ _ _)
      (fun _ _ hid ↦ setInflight_ne hid _ _ _)
  | putBack hr =>
    exact Located.of_push_step hc hl hr rfl rfl rfl (fun _ _ hid ↦ setQueue_ne hid _ _ _)
      (fun _ _ hid ↦ setInflight_ne hid _ _ _)
  | dispose hr =>
    exact Located.of_push_step hc hl hr rfl rfl rfl (fun _ _ _ ↦ rfl)
      (fun _ _ hid ↦ setInflight_ne hid _ _ _)
  | finish hr hidle => exact located_finish hc hl hr hidle _
  | swap hr => exact located_swap hc hl hr hsafe

/-! ### Conservation -/

/-- Each enqueued record of a queue is in one place. -/
def Kept (s : State) : Prop := ∀ id k, (s.enqueued id k).Perm
  ((s.queues id k).data ++ s.inflight id k ++ s.settled id k ++ (s.queues id k).removed)

-- A step that touches the queue `k` of the pusher `id` only.
private theorem Kept.of_update (hk : Kept s) (id : Nat) (k : Kind)
    (hne : ∀ id' k', ¬ (id' = id ∧ k' = k) → s'.enqueued id' k' = s.enqueued id' k' ∧
      s'.queues id' k' = s.queues id' k' ∧ s'.inflight id' k' = s.inflight id' k' ∧
      s'.settled id' k' = s.settled id' k')
    (heq : ∀ e, (s.enqueued id k).count e = (s.queues id k).data.count e +
        (s.inflight id k).count e + (s.settled id k).count e + (s.queues id k).removed.count e →
      (s'.enqueued id k).count e = (s'.queues id k).data.count e +
        (s'.inflight id k).count e + (s'.settled id k).count e +
        (s'.queues id k).removed.count e) : Kept s' := by
  intro id' k'
  by_cases h : id' = id ∧ k' = k
  · obtain ⟨rfl, rfl⟩ := h
    rw [List.perm_iff_count]
    intro e
    have hold := (hk id' k').count_eq e
    simp only [List.count_append] at hold ⊢
    exact heq e hold
  · obtain ⟨he, hq, hi, hs⟩ := hne id' k' h
    rw [he, hq, hi, hs]
    exact hk id' k'

private theorem kept_deliver (hk : Kept s) (h : Handler) (r : Record) (ts now : Int) :
    Kept (s.deliver options h r ts now) := by
  unfold State.deliver
  cases h.target with
  | none => exact hk
  | some id =>
    apply hk.of_update id r.kind
    · intro id' k' hne
      simp only [State.setQueue, update₂_apply, if_neg hne, and_self]
    · intro e hold
      have hp := (insert_perm (s.queues id r.kind) options r.data ts now).count_eq e
      simp only [State.setQueue, update₂_apply, and_self, if_true, List.count_append] at hp ⊢
      omega

private theorem kept_take (hk : Kept s) (id : Nat) (k : Kind) (hi : s.inflight id k = []) :
    Kept (s.take options id k) := by
  apply hk.of_update id k
  · intro id' k' hne
    simp only [State.take, State.setQueue, State.setInflight, update₂_apply, if_neg hne, and_self]
  · intro e hold
    obtain ⟨hsplit, hremoved, -⟩ := get_spec (s.queues id k) options
    have hcount := congrArg (List.count e) hsplit
    simp only [State.take, State.setQueue, State.setInflight, update₂_apply, and_self, if_true,
      List.count_append, hremoved, hi, List.count_nil] at hcount hold ⊢
    omega

private theorem kept_putBack (hk : Kept s) (id : Nat) (k : Kind) (now : Int) :
    Kept (s.putBack options id k now) := by
  apply hk.of_update id k
  · intro id' k' hne
    simp only [State.putBack, State.setQueue, State.setInflight, update₂_apply, if_neg hne,
      and_self]
  · intro e hold
    have hp := (requeue_perm (s.queues id k) options (s.inflight id k) now).count_eq e
    simp only [State.putBack, State.setQueue, State.setInflight, update₂_apply, and_self, if_true,
      List.count_append, List.count_nil] at hp ⊢
    omega

private theorem kept_dispose (hk : Kept s) (id : Nat) (k : Kind) : Kept (s.dispose id k) := by
  apply hk.of_update id k
  · intro id' k' hne
    simp only [State.dispose, State.setInflight, update₂_apply, if_neg hne, and_self]
  · intro e hold
    simp only [State.dispose, State.setInflight, update₂_apply, and_self, if_true,
      List.count_append, List.count_nil]
    omega

private theorem kept_step (hk : Kept s) (hc : Control s) (h : Step options s a s') : Kept s' := by
  cases h with
  | publish _ => exact hk
  | getHandler _ => exact hk
  | addHandler _ =>
    cases hs : s.slot with
    | none =>
      rw [State.addHandler_of_none hs]
      exact hk
    | some h =>
      rw [State.addHandler_of_some hs]
      exact hk
  | enqueue _ => exact kept_deliver hk _ _ _ _
  | take _ hi => exact kept_take hk _ _ hi
  | putBack _ => exact kept_putBack hk _ _ _
  | dispose _ => exact kept_dispose hk _ _
  | finish _ _ => exact hk
  | swap hr =>
    rw [State.swap_of_slot (hc.slot_of_swapping hr)]
    exact hk

/-! ### Runs -/

/-- What every state of a safe run satisfies. -/
structure Sound (s : State) : Prop where
  control : Control s
  located : Located s
  kept : Kept s

private theorem sound_init : Sound {} where
  control := ⟨nofun, nofun, nofun⟩
  located := ⟨fun _ _ h ↦ absurd rfl h, nofun, fun _ _ h ↦ absurd rfl h⟩
  kept _ _ := List.Perm.refl _

private theorem sound_step (options : QueueOptions) (s : State) (a : Action) (s' : State)
    (hs : Sound s) (h : Step options s a s' ∧ SafeSwap s a) : Sound s' where
  control := control_step hs.control h.1
  located := located_step hs.control hs.located h.1 h.2
  kept := kept_step hs.kept hs.control h.1

/-- In every run that swaps out only pushers that are empty and not held, no record is
stranded in any state reached. -/
theorem held_of_safeSwap (options : QueueOptions) (actions : List Action) (s : State)
    (h : Runs (fun s a s' ↦ Step options s a s' ∧ SafeSwap s a) {} actions s) : Held s := by
  have hs := h.invariant (sound_step options) sound_init
  exact ⟨hs.kept, fun id k hd ↦ .inl (hs.located.waiting id k hd), hs.located.pushing⟩

/-- The actions of a pusher that fails for good after its one record was given up. -/
def failingDrained : List Action :=
  [.publish 0 (some [1]) none, .getHandler 0, .addHandler 0, .enqueue 0 0 0, .take 0 .metrics,
    .dispose 0 .metrics, .finish 0 (.push .fatal), .swap 0]

private theorem failingDrained_runs :
    ∃ s, Runs (fun s a s' ↦ Step {} s a s' ∧ SafeSwap s a) {} failingDrained s := by
  refine ⟨_, .cons ⟨.publish rfl, trivial⟩ (.cons ⟨.getHandler rfl, trivial⟩
    (.cons ⟨.addHandler rfl, trivial⟩ (.cons ⟨.enqueue rfl, trivial⟩
    (.cons ⟨.take rfl rfl, trivial⟩ (.cons ⟨.dispose rfl, trivial⟩
    (.cons ⟨.finish rfl ?_, trivial⟩ (.cons ⟨.swap rfl, ?_⟩ (.nil _))))))))⟩
  · intro id k hid
    cases hid
    cases k <;> rfl
  · intro h next id hr hid _
    cases hr
    cases hid
    refine ⟨fun k ↦ by cases k <;> rfl, ?_⟩
    intro call h' rs hc _
    cases call with
    | zero =>
      cases hc
      rfl
    | succ _ => cases hc

/-- A pusher that fails for good with empty queues is replaced safely. -/
theorem held_of_safeSwap_failingDrained :
    ∃ s, Runs (fun s a s' ↦ Step {} s a s' ∧ SafeSwap s a) {} failingDrained s ∧ Held s := by
  obtain ⟨s, h⟩ := failingDrained_runs
  exact ⟨s, h, held_of_safeSwap {} failingDrained s h⟩

/-- The actions of a pusher that goes idle after a second `Publish` call has looked it up and
before that call enqueues its record. -/
def idleRaced : List Action :=
  [.publish 0 (some [1]) none, .getHandler 0, .addHandler 0, .enqueue 0 0 0, .take 0 .metrics,
    .dispose 0 .metrics, .publish 1 (some [2]) none, .getHandler 1, .finish 0 .idle, .swap 0,
    .enqueue 1 1 1]

private theorem idleRaced_runs : ∃ s, Runs (Step {}) {} idleRaced s ∧
    (s.queues 0 .metrics).data = [⟨[2], 1⟩] ∧ s.slot = none ∧ ∀ r, s.runners r = none := by
  refine ⟨_, .cons (.publish rfl) (.cons (.getHandler rfl) (.cons (.addHandler rfl)
    (.cons (.enqueue rfl) (.cons (.take rfl rfl) (.cons (.dispose rfl) (.cons (.publish rfl)
    (.cons (.getHandler rfl) (.cons (.finish rfl ?_) (.cons (.swap rfl)
    (.cons (.enqueue rfl) (.nil _))))))))))), rfl, rfl, ?_⟩
  · intro id k hid
    cases hid
    cases k <;> rfl
  · intro r
    cases r <;> rfl

/-- The second record stays in the queue of a pusher that is neither installed nor run. -/
theorem not_held_idleRaced : ∃ s, Runs (Step {}) {} idleRaced s ∧ ¬ Held s := by
  obtain ⟨s, hrun, hdata, hslot, hrunners⟩ := idleRaced_runs
  refine ⟨s, hrun, fun hh ↦ ?_⟩
  rcases hh.waiting 0 .metrics (by rw [hdata]; exact List.cons_ne_nil _ _) with hs | hs
  · rw [hslot] at hs
    cases hs
  · obtain ⟨r, h, next, hr, -⟩ := hs
    rw [hrunners r] at hr
    cases hr

end SMAgent.Pusher
