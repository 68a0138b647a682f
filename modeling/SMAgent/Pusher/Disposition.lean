import SMAgent.Pusher.Push

/-!
# What becomes of a batch

Every batch that the push loop takes goes back to the queue with all its buffers, or its
buffers go to the pool and its records are counted. Behind this is that every buffer has one
owner: the queue, the loop, the pool or another goroutine. The cancellation of a push is hidden
from the classifier by the client, so the branch that counts nothing is not reached. One answer
is counted wrongly: the status code 2, which the table of codes has as a class.
-/

namespace SMAgent.Pusher.Push
open SMAgent.Base SMAgent.Prom

/-! ### What a run has to keep -/

/-- The counters of a batch that was not requeued. -/
structure Counted (start : Start) (outcome : Outcome) (counters : Metric → Nat) : Prop where
  /-- on success all records are counted as pushed -/
  pushed : storeStream outcome = none →
    counters .push = start.counters .push + start.batch.length
  /-- otherwise as failed or as errors, and not as pushed -/
  failed : storeStream outcome ≠ none →
    counters .push = start.counters .push ∧
      (counters .retryExhausted = start.counters .retryExhausted + start.batch.length ∨
        ∃ code, counters (.error code) = start.counters (.error code) + start.batch.length)

/-- A batch is requeued as it was and none of its buffers was returned meanwhile, or each of
its buffers was returned once and the batch is counted. -/
def Fate.Disposed : Fate → Prop
  | .requeued start handed puts =>
    handed = start.batch ∧ ∀ e ∈ start.batch, puts.count e.buf = start.puts.count e.buf
  | .dropped start outcome puts counters =>
    (∀ e ∈ start.batch, puts.count e.buf = start.puts.count e.buf + 1) ∧
      Counted start outcome counters

/-- Every batch is disposed of, and no buffer in the pool is in use. -/
structure Safe (s : State) : Prop where
  disposed : ∀ f ∈ s.fates, f.Disposed
  /-- the batches taken are those that ended and the one in hand, in this order -/
  complete : s.taken = s.fates.map (·.start.batch) ++ s.pc.records.toList
  queue_disjoint : ∀ buf ∈ s.queue.pool.free, buf ∉ bufs s.queue.data
  batch_disjoint : ∀ buf ∈ s.queue.pool.free, ∀ records, s.pc.records = some records →
    buf ∉ bufs records

/-! ### The kinds of errors -/

/-- The kinds that an entry of the table can give. -/
private def kinds (m : Mapping) : List ErrKind := m.kind :: m.alternatives.map Prod.snd

private theorem kindFor_mem (m : Mapping) (text : GoString) : m.kindFor text ∈ kinds m := by
  unfold Mapping.kindFor
  split
  next alt h =>
    exact List.mem_cons_of_mem _ (List.mem_map_of_mem (List.mem_of_find?_eq_some h))
  next => exact List.mem_cons_self

private theorem kinds_of_mapping {k : Nat} {m : Mapping} (h : httpCodeMappings k = some m) :
    ∀ kind ∈ kinds m, kind ≠ .terminated ∧ (kind = .noError ↔ k = 2) := by
  unfold httpCodeMappings at h
  split at h
  all_goals cases h
  all_goals simp [kinds]

private theorem kind_of_http {code : Nat} (h2 : code / 100 ≠ 2) (status text : GoString) :
    (parsePublishError (some (.http code status (.leaf text none)))).2.kind ≠ .terminated ∧
      ((parsePublishError (some (.http code status (.leaf text none)))).2.kind = .noError ↔
        code = 2) := by
  rw [parsePublishError_leaf]
  cases hcode : httpCodeMappings code with
  | some m => exact kinds_of_mapping hcode _ (kindFor_mem m text)
  | none =>
    have hne : code ≠ 2 := by
      rintro rfl
      cases hcode
    cases hclass : httpCodeMappings (code / 100) with
    | some m =>
      obtain ⟨hterm, hno⟩ := kinds_of_mapping hclass _ (kindFor_mem m text)
      exact ⟨hterm, fun h ↦ absurd (hno.mp h) h2, fun h ↦ absurd h hne⟩
    | none => exact ⟨(fun h ↦ by cases h), (fun h ↦ by cases h), fun h ↦ absurd h hne⟩

/-- The server answers with the status code 2, which is no class of codes but reads as one in
the table. -/
def AnswersTwo : Outcome → Prop
  | .response code _ _ => code = 2
  | _ => False

private theorem kind_of_outcome {outcome : Outcome} (h : ∀ err, outcome ≠ .badRequest err) :
    (parsePublishError (storeStream outcome)).2.kind ≠ .terminated ∧
      ((parsePublishError (storeStream outcome)).2.kind = .noError ↔
        storeStream outcome = none ∨ AnswersTwo outcome) := by
  cases outcome with
  | badRequest err => exact absurd rfl (h err)
  | transport err =>
    rw [storeStream, parsePublishError_recoverable]
    exact ⟨(fun h ↦ by cases h), (fun h ↦ by cases h),
      fun h ↦ h.elim (fun h ↦ by cases h) False.elim⟩
  | response code status body =>
    simp only [storeStream, AnswersTwo]
    split
    next h2 => exact ⟨(fun h ↦ by cases h), fun _ ↦ .inl rfl, fun _ ↦ rfl⟩
    next h2 =>
      split
      next h5 =>
        rw [parsePublishError_recoverable]
        refine ⟨(fun h ↦ by cases h), (fun h ↦ by cases h), fun h ↦ ?_⟩
        rcases h with h | rfl
        · cases h
        · cases h5
      next h5 =>
        obtain ⟨hterm, hno⟩ := kind_of_http h2 status (responseText status body)
        exact ⟨hterm, hno.trans ⟨.inr, fun h ↦ h.resolve_left fun h ↦ by cases h⟩⟩

/-! ### What an answer leads to -/

/-- What a batch of `n` records adds to the counters, by the kind of the error. -/
structure Adds (kind : ErrKind) (n : Nat) (before after : Metric → Nat) : Prop where
  pushed : kind = .noError → after .push = before .push + n
  unpushed : kind ≠ .noError → after .push = before .push
  exhausted : kind = .network → after .retryExhausted = before .retryExhausted + n
  errored : kind ≠ .noError → kind ≠ .network →
    ∃ code, after (.error code) = before (.error code) + n

/-- The batch is over: its buffers are in the pool, it is counted by its kind, and its end is on
record. -/
structure Ended (s : State) (records : List BufEntry) (outcome : Outcome) (kind : ErrKind)
    (s' : State) : Prop where
  queue : s'.queue = { s.queue with pool := s.queue.pool.returnAll records }
  held : s'.held = s.held
  pc : s'.pc.records = none
  taken : s'.taken = s.taken
  fates : s'.fates = s.fates ++ [.dropped s.start outcome s'.queue.pool.puts s'.counters]
  adds : Adds kind records.length s.counters s'.counters

private theorem ended_settle (s : State) (records : List BufEntry) (code : Nat) (outcome : Outcome)
    {kind : ErrKind} (hk : kind ≠ .terminated) :
    Ended s records outcome kind ((s.settle records code kind).drop outcome) := by
  cases kind with
  | terminated => exact absurd rfl hk
  | noError =>
    refine ⟨rfl, rfl, rfl, rfl, rfl, fun _ ↦ ?_, fun h ↦ absurd rfl h, nofun, fun h ↦ absurd rfl h⟩
    simp [State.settle, State.drop, State.count]
  | network =>
    refine ⟨rfl, rfl, rfl, rfl, rfl, nofun, fun _ ↦ ?_, fun _ ↦ ?_, fun _ h ↦ absurd rfl h⟩ <;>
      simp [State.settle, State.drop, State.count]
  | payload | limit | tenant | fatal | wait =>
    refine ⟨rfl, rfl, rfl, rfl, rfl, nofun, fun _ ↦ ?_, nofun, fun _ _ ↦ ⟨code, ?_⟩⟩ <;>
      simp [State.settle, State.drop, State.count]

/-- After an answer that is not the status code 2 the batch may go back to the queue; else it is
over. -/
theorem respond_cases (s : State) (records : List BufEntry) {outcome : Outcome}
    (h : ∀ err, outcome ≠ .badRequest err) :
    (¬ AnswersTwo outcome ∧ ∃ counters retriesLeft, s.respond records outcome =
      { s with counters, retriesLeft, retrying := true, pc := .requeueing records }) ∨
    Ended s records outcome (parsePublishError (storeStream outcome)).2.kind
      (s.respond records outcome) := by
  obtain ⟨hterm, hno⟩ := kind_of_outcome h
  unfold State.respond
  generalize hparse : parsePublishError (storeStream outcome) = result at hterm hno
  obtain ⟨code, err⟩ := result
  dsimp only at hterm hno ⊢
  split
  next hnet =>
    split
    next =>
      exact .inl ⟨fun h2 ↦ absurd (hnet.symm.trans (hno.mpr (.inr h2))) nofun, _, _, rfl⟩
    next =>
      -- the error was counted before; it is the exhausted retries that are counted here
      have hend := ended_settle ((s.count (.response code) 1).count (.error code) records.length)
        records code outcome hterm
      refine .inr ⟨hend.queue, hend.held, hend.pc, hend.taken, hend.fates, ?_⟩
      refine ⟨fun h ↦ absurd (hnet.symm.trans h) nofun, fun hk ↦ ?_, fun hk ↦ ?_,
        fun _ hk ↦ absurd hnet hk⟩
      · rw [hend.adds.unpushed hk]
        simp [State.count]
      · rw [hend.adds.exhausted hk]
        simp [State.count]
  next hnet =>
    have hend := ended_settle (s.count (.response code) 1) records code outcome hterm
    refine .inr ⟨hend.queue, hend.held, hend.pc, hend.taken, hend.fates, ?_⟩
    refine ⟨fun hk ↦ ?_, fun hk ↦ ?_, fun hk ↦ absurd hk hnet, fun hk hk' ↦ ?_⟩
    · rw [hend.adds.pushed hk]
      simp [State.count]
    · rw [hend.adds.unpushed hk]
      simp [State.count]
    · obtain ⟨c, hc⟩ := hend.adds.errored hk hk'
      refine ⟨c, hc.trans ?_⟩
      simp [State.count]

/-- A batch is counted as it ended exactly if the server did not answer with the status code
2. -/
theorem counted_iff {start : Start} {outcome : Outcome} {counters : Metric → Nat}
    (h : ∀ err, outcome ≠ .badRequest err) (hne : start.batch ≠ [])
    (hadds : Adds (parsePublishError (storeStream outcome)).2.kind start.batch.length
      start.counters counters) :
    Counted start outcome counters ↔ ¬ AnswersTwo outcome := by
  obtain ⟨-, hno⟩ := kind_of_outcome h
  have hpos : 0 < start.batch.length := List.length_pos_of_ne_nil hne
  constructor
  · intro hc h2
    have herr : storeStream outcome ≠ none := by
      cases outcome with
      | response code status body =>
        obtain rfl : code = 2 := h2
        exact nofun
      | transport err => exact nofun
      | badRequest err => exact nofun
    have hpush := hadds.pushed (hno.mpr (.inr h2))
    rw [(hc.failed herr).1] at hpush
    omega
  · intro h2
    refine ⟨fun hs ↦ hadds.pushed (hno.mpr (.inl hs)), fun hs ↦ ?_⟩
    have hk : (parsePublishError (storeStream outcome)).2.kind ≠ .noError :=
      fun hk ↦ (hno.mp hk).elim hs h2
    refine ⟨hadds.unpushed hk, ?_⟩
    by_cases hnet : (parsePublishError (storeStream outcome)).2.kind = .network
    · exact .inl (hadds.exhausted hnet)
    · exact .inr (hadds.errored hk hnet)

/-! ### Every run -/

/-- The batch ended after the status code 2. -/
def Fate.AfterTwo : Fate → Prop
  | .requeued _ _ _ => False
  | .dropped _ outcome _ _ => AnswersTwo outcome

/-- Every buffer has one owner, the batch in hand is the one that was taken and has all its
buffers, and every batch that ended is disposed of, up to the status code 2. -/
structure Inv (s : State) : Prop where
  owned : ∀ b, s.buffers.count b ≤ 1
  batch : ∀ {records}, s.pc.records = some records → records = s.start.batch ∧ records ≠ []
  kept : ∀ {records}, s.pc.records = some records → ∀ e ∈ records,
    s.queue.pool.puts.count e.buf = s.start.puts.count e.buf
  counters : ∀ {records}, s.pc = .sending records → s.counters = s.start.counters
  complete : s.taken = s.fates.map (·.start.batch) ++ s.pc.records.toList
  fates : ∀ f ∈ s.fates, f.Disposed ↔ ¬ f.AfterTwo

/-- The invariant holds at the start. -/
theorem inv_init : Inv {} where
  owned := fun _ ↦ Nat.zero_le _
  batch := nofun
  kept := nofun
  counters := nofun
  complete := rfl
  fates := nofun

variable {s s' : State}

private theorem count_buffers (s : State) (b : Nat) :
    s.buffers.count b = (bufs s.queue.data).count b + (bufs (s.pc.records.getD [])).count b +
      s.queue.pool.free.count b + s.held.count b := by
  simp only [State.buffers, List.count_append]
  omega

private theorem one_le_count {records : List BufEntry} {e : BufEntry} (h : e ∈ records) :
    1 ≤ (bufs records).count e.buf :=
  List.one_le_count_iff.mpr (List.mem_map_of_mem h)

private theorem count_split (data : List BufEntry) (n b : Nat) :
    (bufs (data.drop n)).count b + (bufs (data.take n)).count b = (bufs data).count b := by
  rw [Nat.add_comm, ← List.count_append, ← bufs_append, List.take_append_drop]

namespace Inv

private theorem idle (h : Inv s) (hpc : s.pc.records = none) (hpc' : s'.pc.records = none)
    (hqueue : s'.queue.data = s.queue.data ∧ s'.queue.pool = s.queue.pool)
    (hheld : s'.held = s.held) (htaken : s'.taken = s.taken) (hfates : s'.fates = s.fates) :
    Inv s' where
  owned := by
    intro b
    have ho := h.owned b
    rw [count_buffers, hpc] at ho
    rw [count_buffers, hpc', hqueue.1, hqueue.2, hheld]
    exact ho
  batch := fun hr ↦ by cases hpc'.symm.trans hr
  kept := fun hr ↦ by cases hpc'.symm.trans hr
  counters := fun hr ↦ by rw [hr] at hpc'; cases hpc'
  complete := by rw [htaken, hfates, hpc', h.complete, hpc]
  fates := by rw [hfates]; exact h.fates

private theorem others (h : Inv s) {queue : BufQueue} {held : List Nat}
    (howned : ∀ b, (bufs queue.data).count b + queue.pool.free.count b + held.count b ≤
      (bufs s.queue.data).count b + s.queue.pool.free.count b + s.held.count b ∨
      (b ∉ s.buffers ∧ (bufs queue.data).count b + queue.pool.free.count b + held.count b ≤ 1))
    (hputs : ∃ more, queue.pool.puts = s.queue.pool.puts ++ more ∧
      ∀ b, more.count b ≤ (bufs s.queue.data).count b + s.held.count b) :
    Inv { s with queue, held } where
  owned := by
    intro b
    have ho := h.owned b
    rw [count_buffers] at ho ⊢
    rcases howned b with hle | ⟨hnot, hle⟩
    · dsimp only
      omega
    · have hzero := List.count_eq_zero.mpr hnot
      rw [count_buffers] at hzero
      dsimp only
      omega
  batch := h.batch
  kept := by
    intro records hr e he
    obtain ⟨more, hmore, hcount⟩ := hputs
    have ho := h.owned e.buf
    rw [count_buffers, show s.pc.records = some records from hr, Option.getD_some] at ho
    have hle := hcount e.buf
    have hpos := one_le_count he
    rw [hmore, List.count_append, h.kept hr e he]
    dsimp only
    omega
  counters := h.counters
  complete := h.complete
  fates := h.fates

private theorem enter (h : Inv s) (hpc : s.pc = .stopped) (options : Options)
    (remoteOk clientOk : Bool) : Inv (s.enter options remoteOk clientOk) := by
  unfold State.enter
  split
  · exact h
  · split
    · exact h.idle (by rw [hpc]; rfl) (hpc ▸ rfl : s.pc.records = none) ⟨rfl, rfl⟩ rfl rfl rfl
    · exact h.idle (by rw [hpc]; rfl) rfl ⟨rfl, rfl⟩ rfl rfl rfl

private theorem take (h : Inv s) (hpc : s.pc = .woken) (options : Options) :
    Inv (s.take options) := by
  have hrecords : s.pc.records = none := by rw [hpc]; rfl
  obtain ⟨hsplit, hpool⟩ := s.queue.get_splits options.toQueueOptions
  unfold State.take
  generalize s.queue.get options.toQueueOptions = result at hsplit hpool
  obtain ⟨queue, records⟩ := result
  cases records with
  | nil => exact h.idle hrecords rfl ⟨hsplit, hpool⟩ rfl rfl rfl
  | cons e rest =>
    dsimp only at hsplit hpool ⊢
    exact
      { owned := by
          intro b
          have ho := h.owned b
          rw [count_buffers, hrecords, ← hsplit, bufs_append, List.count_append] at ho
          rw [count_buffers]
          simp only [Pc.records, Option.getD_some, Option.getD_none, hpool] at ho ⊢
          omega
        batch := by
          rintro _ ⟨⟩
          exact ⟨rfl, List.cons_ne_nil _ _⟩
        kept := fun _ _ _ ↦ rfl
        counters := fun _ ↦ rfl
        complete := by
          rw [h.complete, hrecords]
          simp only [Option.toList, List.append_nil, Pc.records]
        fates := h.fates }

private theorem respond (h : Inv s) {records : List BufEntry} (hpc : s.pc = .sending records)
    {outcome : Outcome} (hsent : ∀ err, outcome ≠ .badRequest err) :
    Inv (s.respond records outcome) := by
  have hrecords : s.pc.records = some records := by rw [hpc]; rfl
  obtain ⟨hbatch, hne⟩ := h.batch hrecords
  obtain ⟨-, counters, retriesLeft, heq⟩ | hend := respond_cases s records hsent
  · rw [heq]
    exact
      { owned := fun b ↦ by
          have ho := h.owned b
          rw [count_buffers, hrecords] at ho
          rw [count_buffers]
          exact ho
        batch := by
          rintro _ ⟨⟩
          exact ⟨hbatch, hne⟩
        kept := by
          rintro _ ⟨⟩
          exact h.kept hrecords
        counters := nofun
        complete := by
          rw [h.complete, hrecords]
          rfl
        fates := h.fates }
  · exact
      { owned := fun b ↦ by
          have ho := h.owned b
          rw [count_buffers, hrecords] at ho
          rw [count_buffers, hend.pc, hend.queue, hend.held]
          simp only [Pool.returnAll, List.count_append, Option.getD_some, Option.getD_none, bufs,
            List.map_nil, List.count_nil] at ho ⊢
          omega
        batch := fun hr ↦ by cases hend.pc.symm.trans hr
        kept := fun hr ↦ by cases hend.pc.symm.trans hr
        counters := fun hr ↦ by
          have hnone := hend.pc
          rw [hr] at hnone
          cases hnone
        complete := by
          rw [hend.taken, hend.fates, hend.pc, h.complete, hrecords, hbatch, List.map_append]
          simp only [Option.toList, List.append_nil]
          rfl
        fates := by
          intro f hf
          rw [hend.fates] at hf
          rcases List.mem_append.mp hf with hf | hf
          · exact h.fates f hf
          · obtain rfl := List.mem_singleton.mp hf
            have hadds : Adds (parsePublishError (storeStream outcome)).2.kind
                s.start.batch.length s.start.counters (s.respond records outcome).counters := by
              rw [← hbatch, ← h.counters hpc]
              exact hend.adds
            refine (and_iff_right ?_).trans (counted_iff hsent (hbatch ▸ hne) hadds)
            intro e he
            rw [← hbatch] at he
            have ho := h.owned e.buf
            rw [count_buffers, hrecords, Option.getD_some] at ho
            have hpos := one_le_count he
            rw [hend.queue]
            simp only [Pool.returnAll, List.count_append, h.kept hrecords e he]
            omega }

private theorem requeue (h : Inv s) {records : List BufEntry} (hpc : s.pc = .requeueing records)
    (options : Options) (now : Int) : Inv (s.requeue options records now) := by
  have hrecords : s.pc.records = some records := by rw [hpc]; rfl
  obtain ⟨hbatch, hne⟩ := h.batch hrecords
  obtain ⟨n, hdata, hpool⟩ := s.queue.requeue_returns options.toQueueOptions records now
  exact
    { owned := by
        intro b
        have ho := h.owned b
        have hs := count_split (records ++ s.queue.data) n b
        rw [bufs_append, List.count_append] at hs
        rw [count_buffers, hrecords] at ho
        rw [count_buffers]
        simp only [State.requeue, hdata, hpool, Pool.returnAll, Pc.records, List.count_append,
          Option.getD_some, Option.getD_none, bufs, List.map_nil, List.count_nil] at ho hs ⊢
        omega
      batch := nofun
      kept := nofun
      counters := nofun
      complete := by
        have htaken := h.complete
        rw [hrecords, hbatch] at htaken
        exact htaken.trans (by simp [State.requeue, Fate.start, Pc.records])
      fates := by
        intro f hf
        rcases List.mem_append.mp hf with hf | hf
        · exact h.fates f hf
        · obtain rfl := List.mem_singleton.mp hf
          refine iff_of_true ⟨hbatch, fun e he ↦ ?_⟩ id
          exact h.kept hrecords e (hbatch ▸ he) }

private theorem insert (h : Inv s) (options : Options) {e : BufEntry} (he : e.buf ∈ s.held)
    (now : Int) : Inv { s with
      queue := s.queue.insert options.toQueueOptions e now
      held := s.held.erase e.buf } := by
  obtain ⟨n, hdata, hpool⟩ := s.queue.insert_returns options.toQueueOptions e now
  have hcount (b : Nat) : (bufs ((s.queue.data ++ [e]).drop n)).count b +
      (bufs ((s.queue.data ++ [e]).take n)).count b + (s.held.erase e.buf).count b =
        (bufs s.queue.data).count b + s.held.count b := by
    have hmoved : (e.buf :: s.held.erase e.buf).count b = s.held.count b :=
      (List.perm_cons_erase he).symm.count_eq b
    rw [count_split, bufs_append, List.count_append, ← hmoved, List.count_cons]
    simp only [bufs, List.map_cons, List.map_nil, List.count_singleton]
    omega
  refine h.others (fun b ↦ .inl ?_) ⟨_, by rw [hpool]; rfl, fun b ↦ ?_⟩
  · have hb := hcount b
    rw [hdata, hpool, Pool.returnAll, List.count_append]
    omega
  · have hb := hcount b
    omega

private theorem acquire (h : Inv s) {b : Nat} (hb : b ∈ s.queue.pool.free) :
    Inv { s with
      queue := { s.queue with pool := { s.queue.pool with free := s.queue.pool.free.erase b } }
      held := b :: s.held } := by
  refine h.others (fun b' ↦ .inl ?_) ⟨[], (List.append_nil _).symm, fun _ ↦ Nat.zero_le _⟩
  have hmoved : (b :: s.queue.pool.free.erase b).count b' = s.queue.pool.free.count b' :=
    (List.perm_cons_erase hb).symm.count_eq b'
  simp only [List.count_cons] at hmoved ⊢
  omega

private theorem allocate (h : Inv s) {b : Nat} (hb : b ∉ s.buffers) :
    Inv { s with held := b :: s.held } := by
  refine h.others (fun b' ↦ ?_) ⟨[], (List.append_nil _).symm, fun _ ↦ Nat.zero_le _⟩
  by_cases hbb : b' = b
  · refine .inr ⟨hbb ▸ hb, ?_⟩
    have hzero := List.count_eq_zero.mpr hb
    rw [count_buffers] at hzero
    rw [hbb, List.count_cons_self]
    omega
  · exact .inl (by rw [List.count_cons_of_ne (Ne.symm hbb)])

private theorem release (h : Inv s) {b : Nat} (hb : b ∈ s.held) :
    Inv { s with
      queue := { s.queue with
        pool := { free := s.queue.pool.free ++ [b], puts := s.queue.pool.puts ++ [b] } }
      held := s.held.erase b } := by
  have hmoved (b' : Nat) : (b :: s.held.erase b).count b' = s.held.count b' :=
    (List.perm_cons_erase hb).symm.count_eq b'
  simp only [List.count_cons] at hmoved
  refine h.others (fun b' ↦ .inl ?_) ⟨[b], rfl, fun b' ↦ ?_⟩
  · have hm := hmoved b'
    simp only [List.count_append, List.count_singleton]
    omega
  · have hm := hmoved b'
    rw [List.count_singleton]
    omega

private theorem collect (h : Inv s) (b : Nat) :
    Inv { s with
      queue := { s.queue with pool := { s.queue.pool with free := s.queue.pool.free.erase b } }
      held := s.held.erase b } := by
  refine h.others (fun b' ↦ .inl ?_) ⟨[], (List.append_nil _).symm, fun _ ↦ Nat.zero_le _⟩
  have hfree := (List.erase_sublist (a := b) (l := s.queue.pool.free)).count_le b'
  have hheld := (List.erase_sublist (a := b) (l := s.held)).count_le b'
  dsimp only
  omega

end Inv

/-- Step lemma. -/
theorem inv_step {options : Options} {a : Action} (h : Inv s) (hstep : Step options s a s') :
    Inv s' := by
  cases hstep with
  | enter hpc => exact h.enter hpc _ _ _
  | cancel hpc =>
    refine h.idle ?_ rfl ⟨rfl, rfl⟩ rfl rfl rfl
    rcases hpc with hpc | hpc <;> rw [hpc] <;> rfl
  | wake hpc => exact h.idle (by rw [hpc]; rfl) rfl ⟨rfl, rfl⟩ rfl rfl rfl
  | take hpc => exact h.take hpc _
  | respond hpc hsent => exact h.respond hpc hsent
  | requeue hpc => exact h.requeue hpc _ _
  | resume hpc => exact h.idle (by rw [hpc]; rfl) rfl ⟨rfl, rfl⟩ rfl rfl rfl
  | acquire hb => exact h.acquire hb
  | allocate hb => exact h.allocate hb
  | insert he => exact h.insert _ he _
  | release hb => exact h.release hb
  | collect => exact h.collect _

/-- The server answers a push of the loop with the status code 2. -/
def Action.AnswersTwo : Action → Prop
  | .respond outcome => Push.AnswersTwo outcome
  | _ => False

private theorem fates_enter (s : State) (options : Options) (remoteOk clientOk : Bool) :
    (s.enter options remoteOk clientOk).fates = s.fates := by
  unfold State.enter
  split
  · rfl
  · split <;> rfl

private theorem fates_take (s : State) (options : Options) : (s.take options).fates = s.fates := by
  unfold State.take
  split <;> rfl

private theorem afterTwo_step {options : Options} {a : Action} (hstep : Step options s a s') :
    (∃ f ∈ s'.fates, f.AfterTwo) ↔ (∃ f ∈ s.fates, f.AfterTwo) ∨ a.AnswersTwo := by
  have hnew {f : Fate} (hfates : s'.fates = s.fates ++ [f]) (hf : f.AfterTwo ↔ a.AnswersTwo) :
      (∃ f ∈ s'.fates, f.AfterTwo) ↔ (∃ f ∈ s.fates, f.AfterTwo) ∨ a.AnswersTwo := by
    simp only [hfates, List.mem_append, List.mem_singleton, or_and_right, exists_or,
      exists_eq_left, hf]
  have hsame (hfates : s'.fates = s.fates) (ha : ¬ a.AnswersTwo) :
      (∃ f ∈ s'.fates, f.AfterTwo) ↔ (∃ f ∈ s.fates, f.AfterTwo) ∨ a.AnswersTwo := by
    rw [hfates, or_iff_left ha]
  cases hstep with
  | enter _ => exact hsame (fates_enter ..) id
  | take _ => exact hsame (fates_take ..) id
  | respond _ hsent =>
    obtain ⟨h2, counters, retriesLeft, heq⟩ | hend := respond_cases s _ hsent
    · exact hsame (by rw [heq]) h2
    · exact hnew hend.fates Iff.rfl
  | requeue _ => exact hnew rfl Iff.rfl
  | cancel _ | wake _ _ | resume _ | acquire _ | allocate _ | insert _ | release _ | collect =>
    exact hsame rfl id

/-- Run lemma: the batches on record tell whether the status code 2 was answered. -/
theorem afterTwo_runs {options : Options} {actions : List Action}
    (h : Runs (Step options) s actions s') :
    (∃ f ∈ s'.fates, f.AfterTwo) ↔
      (∃ f ∈ s.fates, f.AfterTwo) ∨ ∃ a ∈ actions, a.AnswersTwo := by
  induction h with
  | nil => simp
  | cons hstep _ ih =>
    rw [ih, afterTwo_step hstep, or_assoc, List.exists_mem_cons_iff]

private theorem safe_iff_of_inv (h : Inv s) : Safe s ↔ ∀ f ∈ s.fates, ¬ f.AfterTwo := by
  constructor
  · intro hs f hf
    exact (h.fates f hf).mp (hs.disposed f hf)
  · intro hf
    refine ⟨fun f hm ↦ (h.fates f hm).mpr (hf f hm), h.complete, fun b hb hq ↦ ?_,
      fun b hb records hr hq ↦ ?_⟩
    all_goals
      have ho := h.owned b
      have hfree := List.one_le_count_iff.mpr hb
      have hused := List.one_le_count_iff.mpr hq
      rw [count_buffers] at ho
    · omega
    · rw [hr, Option.getD_some] at ho
      omega

/-- In every state of a run every batch is disposed of and no buffer in the pool is in use,
exactly if no push was answered with the status code 2. -/
theorem safe_iff (options : Options) (actions : List Action) (s : State)
    (h : Runs (Step options) {} actions s) :
    Safe s ↔ ∀ a ∈ actions, ¬ a.AnswersTwo := by
  have hinv : Inv s := h.invariant (fun _ _ _ (ht : Inv _) hstep ↦ inv_step ht hstep) inv_init
  have htwo := afterTwo_runs h
  rw [safe_iff_of_inv hinv]
  constructor
  · intro hf a ha h2
    obtain ⟨f, hm, hafter⟩ := htwo.mpr (.inr ⟨a, ha, h2⟩)
    exact hf f hm hafter
  · intro ha f hm hafter
    rcases htwo.mp ⟨f, hm, hafter⟩ with ⟨_, hnil, _⟩ | ⟨a, hmem, h2⟩
    · cases hnil
    · exact ha a hmem h2

/-- One record, inserted and sent once. -/
def sendOne (outcome : Outcome) : List Action :=
  [.allocate 0, .insert ⟨0, ⟨[7], 5⟩⟩ 5, .enter true true, .wake, .take, .respond outcome]

/-- A server error, a retry after the back-off, and a success. -/
def retryOnce : List Action :=
  sendOne (.response 503 (.lit "503 Service Unavailable") []) ++
    [.requeue 6, .resume, .wake, .take, .respond (.response 204 (.lit "204 No Content") [])]

/-- The server fails once, and then accepts the record. -/
theorem retryOnce_runs : ∃ s, Runs (Step { maxRetries := 1 }) {} retryOnce s :=
  ⟨_, .cons (.allocate (by decide)) (.cons (.insert (by decide)) (.cons (.enter rfl)
    (.cons (.wake rfl rfl) (.cons (.take rfl) (.cons (.respond rfl nofun) (.cons (.requeue rfl)
    (.cons (.resume rfl) (.cons (.wake rfl rfl) (.cons (.take rfl) (.cons (.respond rfl nofun)
    (.nil _)))))))))))⟩

/-- The batch is requeued, and the next one with its record is pushed. -/
theorem safe_retryOnce : ∃ s, Runs (Step { maxRetries := 1 }) {} retryOnce s ∧ Safe s := by
  obtain ⟨s, hrun⟩ := retryOnce_runs
  refine ⟨s, hrun, (safe_iff _ _ s hrun).mpr ?_⟩
  simp [retryOnce, sendOne, Action.AnswersTwo, AnswersTwo]

/-- A record that the server answers with the status code 2 is counted as pushed. -/
theorem not_safe_status_two :
    ∃ s, Runs (Step {}) {} (sendOne (.response 2 (.lit "002 Unknown") [])) s ∧ ¬ Safe s := by
  refine ⟨_, .cons (.allocate (by decide)) (.cons (.insert (by decide)) (.cons (.enter rfl)
    (.cons (.wake rfl rfl) (.cons (.take rfl) (.cons (.respond rfl nofun) (.nil _)))))), ?_⟩
  intro hs
  obtain ⟨hpush, -⟩ := (hs.disposed _ List.mem_cons_self).2.failed nofun
  cases hpush

end SMAgent.Pusher.Push
