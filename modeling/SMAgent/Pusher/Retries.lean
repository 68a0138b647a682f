import SMAgent.Pusher.Delivery

/-!
# Retries

`internal/pusher/v2/queue.go:48-139` with the retry counter of `options.go:151-167`, over one
call of `push`. The requests of the call are numbered with their records, their budget and their
back-off. A batch that was requeued is taken again as a whole, as far as the limits left it: its
records are at the front of the queue, and they fit into one request. So what a record in the
queue was sent for is known: those at the front were in the last batch, and the others were
never sent.
-/

namespace SMAgent.Pusher.Push
open SMAgent.Base SMAgent.Prom

/-! ### The requests of a call -/

/-- A request: the numbers of its records, and the budget and the back-off it starts with. -/
structure Request where
  records : List Nat
  retriesLeft : Int
  backoffLast : Int
  deriving DecidableEq, Repr

/-- The requests of a call, and the waits since the back-off was last reset. -/
structure Log where
  requests : List Request := []
  waits : List Int := []
  deriving DecidableEq, Repr

/-- What a step from `s` to `s'` adds; `hand` are the numbers in hand after it. -/
def Log.step (log : Log) (s : State) (a : Action) (s' : State) (hand : List Nat) : Log :=
  match a with
  | .take =>
    if s'.pc.records.isSome then
      { requests := log.requests ++ [⟨hand, s'.retriesLeft, s'.backoffLast⟩]
        waits := if s.retrying then log.waits else [] }
    else log
  | .requeue _ => { log with waits := log.waits ++ [s'.backoffLast] }
  | _ => log

/-- The number of requests that a record was in. -/
def sent (requests : List Request) (i : Nat) : Nat := requests.countP fun r ↦ i ∈ r.records

/-- The records of the last request. -/
def lastRecords (requests : List Request) : List Nat :=
  (requests.getLast?.map Request.records).getD []

/-- The state of the loop during a call, with the numbers of the records and the log. -/
structure Call where
  state : State
  numbering : Numbering
  log : Log := {}

/-- A step during the call. -/
structure CallStep (options : Options) (x : Call) (a : Action) (x' : Call) : Prop where
  inside : ∀ remoteOk clientOk, a ≠ .enter remoteOk clientOk
  step : Step options x.state a x'.state
  numbering : x'.numbering = x.numbering.step x.state a x'.state
  log : x'.log = x.log.step x.state a x'.state x'.numbering.hand

/-! ### What a step does to the budget -/

variable {options : Options} {s s' : State} {n : Numbering} {log : Log}

/-- After an answer a retry was spent and the batch is to be requeued, or the batch is over. -/
theorem retries_respond (s : State) (records : List BufEntry) (outcome : Outcome) :
    (s.respond records outcome).queue.data = s.queue.data ∧
    (s.respond records outcome).backoffLast = s.backoffLast ∧
    (((s.respond records outcome).pc = .requeueing records ∧ 0 < s.retriesLeft ∧
        (s.respond records outcome).retriesLeft = s.retriesLeft - 1 ∧
        (s.respond records outcome).retrying = true) ∨
      ((s.respond records outcome).pc.records = none ∧
        (s.respond records outcome).retriesLeft = s.retriesLeft ∧
        (s.respond records outcome).retrying = s.retrying)) := by
  have hsettle (s : State) (code : Nat) (kind : ErrKind) :
      (s.settle records code kind).queue.data = s.queue.data ∧
      (s.settle records code kind).backoffLast = s.backoffLast ∧
      (s.settle records code kind).pc.records = none ∧
      (s.settle records code kind).retriesLeft = s.retriesLeft ∧
      (s.settle records code kind).retrying = s.retrying := by
    cases kind <;> exact ⟨rfl, rfl, rfl, rfl, rfl⟩
  unfold State.respond
  generalize parsePublishError (storeStream outcome) = result
  obtain ⟨code, err⟩ := result
  dsimp only
  split
  · split
    · next hleft => exact ⟨rfl, rfl, .inl ⟨rfl, hleft, rfl, rfl⟩⟩
    · obtain ⟨hdata, hbackoff, hover⟩ :=
        hsettle ((s.count (.response code) 1).count (.error code) records.length) code err.kind
      exact ⟨hdata, hbackoff, .inr hover⟩
  · obtain ⟨hdata, hbackoff, hover⟩ := hsettle (s.count (.response code) 1) code err.kind
    exact ⟨hdata, hbackoff, .inr hover⟩

/-- `get` takes nothing from an empty queue; else the loop has a batch, with the budget of the
last one if it retries and with a new one if not. -/
theorem retries_take (s : State) (options : Options) :
    (s.take options).queue = (s.queue.get options.toQueueOptions).1 ∧
    ((s.queue.data = [] ∧ s.take options = { s with pc := .selecting }) ∨
      (s.queue.data ≠ [] ∧
        (s.take options).pc = .sending (s.queue.get options.toQueueOptions).2 ∧
        (s.take options).retrying = false ∧
        (s.take options).retriesLeft = (if s.retrying then s.retriesLeft else options.maxRetries) ∧
        (s.take options).backoffLast = if s.retrying then s.backoffLast else 0)) := by
  have hnext := (nextBatch options.toQueueOptions s.queue).nonempty
  unfold State.take
  split
  · next queue hget =>
    rw [hget] at hnext
    have hnil : s.queue.data = [] := by simpa using hnext
    have hsame : queue = s.queue := by
      have hget' : s.queue.get options.toQueueOptions = (s.queue, []) := by
        unfold BufQueue.get
        rw [hnil]
      rw [hget'] at hget
      exact (Prod.ext_iff.mp hget).1.symm
    rw [hget]
    exact ⟨rfl, .inl ⟨hnil, by rw [hsame]⟩⟩
  · next queue records hne hget =>
    rw [hget] at hnext ⊢
    exact ⟨rfl, .inr ⟨hnext.mp hne, rfl, rfl, rfl, rfl⟩⟩

/-! ### What is left of the last batch -/

/-- The first `k` records of the queue are what is left of the last batch, which fits into one
request; the others were never sent. -/
structure Front (options : Options) (data : List BufEntry) (queued : List Nat)
    (requests : List Request) (k : Nat) : Prop where
  suffix : queued.take k <:+ lastRecords requests
  fits : totalSize ((data.take k).map BufEntry.entry) ≤ options.maxPushBytes ∨ k ≤ 1
  unsent : ∀ i ∈ queued.drop k, sent requests i = 0

private theorem totalSize_append (l m : List QueueEntry) :
    totalSize (l ++ m) = totalSize l + totalSize m := by
  simp [totalSize]

namespace Front

variable {data : List BufEntry} {queued : List Nat} {k : Nat}

-- The front of what remains is what remains of the front.
private theorem take_drop_append {α : Type} {l : List α} (hk : k ≤ l.length) (m : List α)
    (j : Nat) : ((l ++ m).drop j).take (k - j) = (l.take k).drop j := by
  rw [← List.drop_take, List.take_append_of_le_length hk]

private theorem limited (h : Front options data queued requests k) (hk : k ≤ queued.length)
    (hlen : queued.length = data.length) (moreData : List BufEntry) {more : List Nat}
    (hmore : ∀ i ∈ more, sent requests i = 0) (j : Nat) :
    Front options ((data ++ moreData).drop j) ((queued ++ more).drop j) requests (k - j) := by
  constructor
  · rw [take_drop_append hk]
    exact (List.drop_suffix _ _).trans h.suffix
  · rw [take_drop_append (by omega), List.map_drop]
    have hsize := totalSize_append (((data.take k).map BufEntry.entry).take j)
      (((data.take k).map BufEntry.entry).drop j)
    rw [List.take_append_drop] at hsize
    have hfits := h.fits
    omega
  · intro i hi
    rw [List.drop_drop] at hi
    have hle : k ≤ j + (k - j) := by omega
    obtain ⟨d, hd⟩ := Nat.exists_eq_add_of_le hle
    rw [hd, ← List.drop_drop, List.drop_append_of_le_length hk] at hi
    rcases List.mem_append.mp (List.mem_of_mem_drop hi) with hold | hnew
    · exact h.unsent i hold
    · exact hmore i hnew

/-- The next batch has everything that is left of the last one. -/
theorem le_length (q : BufQueue) (h : Front options q.data queued requests k)
    (hk : k ≤ q.data.length) : k ≤ (q.get options.toQueueOptions).2.length := by
  obtain ⟨hsplit, hnonempty, -, hmaximal⟩ := nextBatch options.toQueueOptions q
  by_contra hlt
  have hne : q.data ≠ [] := by
    rintro hnil
    rw [hnil, List.length_nil] at hk
    omega
  have hpos := List.length_pos_of_ne_nil (hnonempty.mpr hne)
  cases hrest : (q.get options.toQueueOptions).1.data with
  | nil =>
    rw [hrest, List.append_nil] at hsplit
    rw [hsplit] at hlt
    omega
  | cons e later =>
    -- the record behind the batch is one of the first `k`, which fit
    have hbig := hmaximal e later hrest
    obtain ⟨d, hd⟩ := Nat.exists_eq_add_of_lt (Nat.lt_of_not_le hlt)
    have hfront : q.data.take k = (q.get options.toQueueOptions).2 ++ e :: later.take d := by
      rw [← hsplit, hrest, List.take_append, List.take_of_length_le (by omega), hd]
      congr 1
      rw [Nat.add_assoc, Nat.add_sub_cancel_left, List.take_succ_cons]
    have hfits := h.fits
    rw [hfront, List.map_append, totalSize_append] at hfits
    simp only [List.map_cons, totalSize, List.sum_cons] at hfits hbig
    omega

end Front

/-! ### One step -/

private theorem sent_concat (requests : List Request) (r : Request) (i : Nat) :
    sent (requests ++ [r]) i = sent requests i + if i ∈ r.records then 1 else 0 := by
  simp [sent, List.countP_append, List.countP_cons]

@[simp] private theorem lastRecords_concat (requests : List Request) (r : Request) :
    lastRecords (requests ++ [r]) = r.records := by
  simp [lastRecords]

/-- Where the records stand with the budget. -/
structure CallInv (options : Options) (s : State) (n : Numbering) (requests : List Request) :
    Prop where
  inv : Inv s
  numbered : Numbered s n
  left : 0 ≤ s.retriesLeft ∧ s.retriesLeft ≤ options.maxRetries
  bounded : ∀ i, (sent requests i : Int) ≤ options.maxRetries + 1
  known : ∀ i, n.inserted.length ≤ i → sent requests i = 0
  front : ∃ k ≤ n.queued.length, Front options s.queue.data n.queued requests k ∧
    (s.retrying = false ∨ s.pc.records.isSome = true → k = 0)
  hand : ∀ records, s.pc.records = some records → n.hand = lastRecords requests ∧
    (totalSize (records.map BufEntry.entry) ≤ options.maxPushBytes ∨ records.length ≤ 1)
  sending : ∀ records, s.pc = .sending records → s.retrying = false ∧ requests ≠ [] ∧
    ∀ i ∈ lastRecords requests,
      (sent requests i : Int) ≤ options.maxRetries - s.retriesLeft + 1
  requeueing : ∀ records, s.pc = .requeueing records → s.retrying = true
  retrying : s.retrying = true → s.retriesLeft < options.maxRetries ∧ requests ≠ [] ∧
    ∀ i ∈ lastRecords requests, (sent requests i : Int) ≤ options.maxRetries - s.retriesLeft

namespace CallInv

variable {requests : List Request}

section

variable (h : CallInv options s n requests)
include h

private theorem frame (hinv : Inv s') (hnumbered : Numbered s' n)
    (hdata : s'.queue.data = s.queue.data) (hleft : s'.retriesLeft = s.retriesLeft)
    (hretrying : s'.retrying = s.retrying)
    (hpc : s'.pc = s.pc ∨ (s.pc.records = none ∧ s'.pc.records = none)) :
    CallInv options s' n requests := by
  have hrecords : s'.pc.records = s.pc.records := by
    rcases hpc with heq | ⟨hs, hs'⟩
    · rw [heq]
    · rw [hs, hs']
  have hin {pc : Pc} (hsome : pc.records.isSome = true) (heq : s'.pc = pc) : s.pc = pc := by
    rcases hpc with hsame | ⟨-, hnone⟩
    · rwa [← hsame]
    · rw [heq] at hnone
      rw [hnone] at hsome
      cases hsome
  constructor
  · exact hinv
  · exact hnumbered
  · rw [hleft]
    exact h.left
  · exact h.bounded
  · exact h.known
  · rw [hdata, hretrying, hrecords]
    exact h.front
  · rw [hrecords]
    exact h.hand
  · intro records heq
    rw [hleft, hretrying]
    exact h.sending records (hin rfl heq)
  · intro records heq
    rw [hretrying]
    exact h.requeueing records (hin rfl heq)
  · rw [hleft, hretrying]
    exact h.retrying

private theorem insert (hinv : Inv s') (e : BufEntry) (j : Nat)
    (hdata : s'.queue.data = (s.queue.data ++ [e]).drop j) (hpc : s'.pc = s.pc)
    (hleft : s'.retriesLeft = s.retriesLeft) (hretrying : s'.retrying = s.retrying)
    (hfates : s'.fates = s.fates) : CallInv options s' { n with
      inserted := n.inserted ++ [e]
      queued := keepLast s'.queue.data.length (n.queued ++ [n.inserted.length]) } requests := by
  have hnumbered := h.numbered.insert e j hdata (by rw [hpc]) hfates
  have hqueued := (h.numbered.queued.extend e).append (Denotes.last n.inserted e)
  have hkeep : keepLast s'.queue.data.length (n.queued ++ [n.inserted.length]) =
      (n.queued ++ [n.inserted.length]).drop j := by
    rw [hdata, keepLast_length_drop hqueued]
  constructor
  · exact hinv
  · exact hnumbered
  · rw [hleft]
    exact h.left
  · exact h.bounded
  · intro i hi
    apply h.known i
    simp only [List.length_append] at hi
    omega
  · obtain ⟨k, hk, hfront, hzero⟩ := h.front
    refine ⟨k - j, ?_, ?_, ?_⟩
    · simp only [hkeep, List.length_drop, List.length_append]
      omega
    · rw [hkeep, hdata]
      apply hfront.limited hk h.numbered.queued.length_eq
      intro i hi
      rw [List.mem_singleton.mp hi]
      exact h.known _ (Nat.le_refl _)
    · intro hcond
      rw [hretrying, hpc] at hcond
      rw [hzero hcond, Nat.zero_sub]
  · rw [hpc]
    exact h.hand
  · rw [hpc, hleft, hretrying]
    exact h.sending
  · rw [hpc, hretrying]
    exact h.requeueing
  · rw [hleft, hretrying]
    exact h.retrying

private theorem nodup_queued : n.queued.Nodup := by
  have hall := (List.pairwise_append.mp h.numbered.increasing).2.1
  exact (List.pairwise_append.mp hall).2.1.imp Nat.ne_of_lt

private theorem take_empty (hinv : Inv (s.take options)) (hpc : s.pc = .woken)
    (hnil : s.queue.data = []) :
    n.step s .take (s.take options) = n ∧ CallInv options (s.take options) n requests := by
  have hnumbered := h.numbered.take hpc options
  have htake : s.take options = { s with pc := .selecting } := by
    rcases (retries_take s options).2 with ⟨-, heq⟩ | ⟨hne, -⟩
    · exact heq
    · exact absurd hnil hne
  have hhand : n.hand = [] := by
    apply List.eq_nil_of_length_eq_zero
    rw [h.numbered.hand.length_eq, hpc]
    rfl
  have hsame : n.step s .take (s.take options) = n := by
    simp only [Numbering.step, htake, Nat.sub_self, List.take_zero, List.drop_zero, ← hhand]
  refine ⟨hsame, h.frame hinv ?_ ?_ ?_ ?_ (.inr ?_)⟩
  · rwa [← Numbering.step, hsame] at hnumbered
  · rw [htake]
  · rw [htake]
  · rw [htake]
  · rw [hpc, htake]
    exact ⟨rfl, rfl⟩

private theorem paid {b : Nat} {left : Int}
    (hleft : left = if s.retrying then s.retriesLeft else options.maxRetries) :
    ∀ i ∈ n.queued.take b, (sent requests i : Int) ≤ options.maxRetries - left := by
  obtain ⟨k, hk, hfront, hzero⟩ := h.front
  intro i hi
  by_cases hmem : i ∈ n.queued.take k
  · have hretrying : s.retrying = true := by
      by_contra hnot
      rw [hzero (.inl (Bool.not_eq_true _ ▸ hnot)), List.take_zero] at hmem
      cases hmem
    rw [hleft, if_pos hretrying]
    exact (h.retrying hretrying).2.2 i (hfront.suffix.subset hmem)
  · have hdrop : i ∈ n.queued.drop k := by
      have hqueued : i ∈ n.queued.take k ++ n.queued.drop k := by
        rw [List.take_append_drop]
        exact List.mem_of_mem_take hi
      exact (List.mem_append.mp hqueued).resolve_left hmem
    have hle := h.left.2
    rw [hfront.unsent i hdrop, hleft]
    split <;> omega

/-- The next request: what is left of the last batch, and records that were never sent. -/
theorem take_batch (hinv : Inv (s.take options)) (hpc : s.pc = .woken) (hne : s.queue.data ≠ []) :
    CallInv options (s.take options) (n.step s .take (s.take options))
      (requests ++ [⟨(n.step s .take (s.take options)).hand, (s.take options).retriesLeft,
        (s.take options).backoffLast⟩]) := by
  obtain ⟨hqueue, hcases⟩ := retries_take s options
  obtain ⟨-, hpc', hretrying', hleft', -⟩ := hcases.resolve_left fun hempty ↦ hne hempty.1
  obtain ⟨hsplit, -, hfits, -⟩ := nextBatch options.toQueueOptions s.queue
  have hnumbered := h.numbered.take hpc options
  obtain ⟨k, hk, hfront, -⟩ := h.front
  have hkb := hfront.le_length s.queue (h.numbered.queued.length_eq ▸ hk)
  have hpaid := h.paid (b := (s.queue.get options.toQueueOptions).2.length) hleft'
  have htaken : s.queue.data.length - (s.take options).queue.data.length =
      (s.queue.get options.toQueueOptions).2.length := by
    rw [hqueue, ← hsplit, List.length_append]
    omega
  have hleft : 0 ≤ (s.take options).retriesLeft ∧
      (s.take options).retriesLeft ≤ options.maxRetries := by
    have hold := h.left
    rw [hleft']
    split <;> omega
  rw [← Numbering.step] at hnumbered
  have hstep : n.step s .take (s.take options) = { n with
      hand := n.queued.take (s.queue.get options.toQueueOptions).2.length
      queued := n.queued.drop (s.queue.get options.toQueueOptions).2.length } := by
    simp only [Numbering.step, htaken]
  rw [hstep] at hnumbered ⊢
  generalize (s.queue.get options.toQueueOptions).2 = batch at *
  constructor
  · exact hinv
  · exact hnumbered
  · exact hleft
  · intro i
    rw [sent_concat]
    split
    · next hi =>
      have hi' := hpaid i hi
      omega
    · exact h.bounded i
  · intro i hi
    rw [sent_concat, h.known i hi, if_neg]
    intro hmem
    have hlt := h.numbered.lt_length i (by simp [List.mem_of_mem_take hmem])
    exact absurd hlt (Nat.not_lt.mpr hi)
  · refine ⟨0, Nat.zero_le _, ⟨?_, .inr (Nat.zero_le _), ?_⟩, fun _ ↦ rfl⟩
    · rw [List.take_zero]
      exact List.nil_suffix
    · intro i hi
      rw [List.drop_zero] at hi
      have hunsent : i ∈ n.queued.drop k := (List.drop_sublist_drop_left n.queued hkb).subset hi
      rw [sent_concat, hfront.unsent i hunsent, if_neg]
      exact fun hmem ↦ List.disjoint_take_drop h.nodup_queued (Nat.le_refl _) hmem hi
  · intro records hrecords
    rw [hpc'] at hrecords
    obtain rfl := Option.some.inj hrecords
    rw [lastRecords_concat]
    exact ⟨rfl, hfits⟩
  · intro records _
    refine ⟨hretrying', by simp, fun i hi ↦ ?_⟩
    rw [lastRecords_concat] at hi
    have hi' := hpaid i hi
    rw [sent_concat, if_pos hi]
    push_cast
    omega
  · intro records heq
    rw [hpc'] at heq
    cases heq
  · intro hretrying
    rw [hretrying'] at hretrying
    cases hretrying

private theorem respond {records : List BufEntry}
    {outcome : Outcome} (hinv : Inv (s.respond records outcome))
    (hnumbered : Numbered (s.respond records outcome)
      (n.step s (.respond outcome) (s.respond records outcome)))
    (hpc : s.pc = .sending records) :
    CallInv options (s.respond records outcome)
      (n.step s (.respond outcome) (s.respond records outcome)) requests := by
  obtain ⟨hdata, -, hcases⟩ := retries_respond s records outcome
  obtain ⟨hretrying, hsome, hcost⟩ := h.sending records hpc
  obtain ⟨k, hk, hfront, hzero⟩ := h.front
  obtain rfl := hzero (.inl hretrying)
  have hleft := h.left
  generalize s.respond records outcome = s' at *
  rcases hcases with ⟨hpc', hpos, hleft', hretrying'⟩ | ⟨hpc', hleft', hretrying'⟩
  · have hsame : n.step s (.respond outcome) s' = n := by
      rw [Numbering.step, if_pos (by rw [hpc']; rfl)]
    rw [hsame] at hnumbered ⊢
    constructor
    · exact hinv
    · exact hnumbered
    · omega
    · exact h.bounded
    · exact h.known
    · rw [hdata]
      exact ⟨0, hk, hfront, fun _ ↦ rfl⟩
    · intro records' hrecords
      rw [hpc'] at hrecords
      obtain rfl := Option.some.inj hrecords
      exact h.hand records (by rw [hpc]; rfl)
    · intro records' heq
      rw [hpc'] at heq
      cases heq
    · intro _ _
      exact hretrying'
    · intro _
      refine ⟨by omega, hsome, fun i hi ↦ ?_⟩
      have hi' := hcost i hi
      omega
  · have hstep : (n.step s (.respond outcome) s').queued = n.queued ∧
        (n.step s (.respond outcome) s').inserted = n.inserted := by
      rw [Numbering.step, if_neg (by rw [hpc']; simp)]
      exact ⟨rfl, rfl⟩
    have hnone {pc : Pc} (hsome : pc.records.isSome = true) : s'.pc ≠ pc := by
      intro heq
      rw [heq] at hpc'
      rw [hpc'] at hsome
      cases hsome
    constructor
    · exact hinv
    · exact hnumbered
    · omega
    · exact h.bounded
    · rw [hstep.2]
      exact h.known
    · rw [hdata, hstep.1]
      exact ⟨0, hk, hfront, fun _ ↦ rfl⟩
    · intro records' hrecords
      rw [hpc'] at hrecords
      cases hrecords
    · intro records' heq
      exact absurd heq (hnone rfl)
    · intro records' heq
      exact absurd heq (hnone rfl)
    · intro hret
      rw [hretrying', hretrying] at hret
      cases hret

private theorem requeue {records : List BufEntry} {now : Int}
    (hinv : Inv (s.requeue options records now)) (hpc : s.pc = .requeueing records) :
    CallInv options (s.requeue options records now)
      (n.step s (.requeue now) (s.requeue options records now)) requests := by
  have hnumbered := h.numbered.requeue hpc options now
  obtain ⟨j, hdata, -⟩ := BufQueue.requeue_returns s.queue options.toQueueOptions records now
  obtain ⟨k, hk, hfront, hzero⟩ := h.front
  obtain rfl := hzero (.inr (by rw [hpc]; rfl))
  obtain ⟨hhand, hfits⟩ := h.hand records (by rw [hpc]; rfl)
  have hrecords : Denotes n.inserted n.hand records := by
    have hall := h.numbered.hand
    rwa [hpc] at hall
  have hlen := hrecords.length_eq
  have hbatch : Front options records n.hand requests n.hand.length := by
    constructor
    · rw [List.take_length, hhand]
    · rwa [hlen, List.take_length]
    · intro i hi
      rw [List.drop_length] at hi
      cases hi
  have hqueue : (s.requeue options records now).queue.data = (records ++ s.queue.data).drop j :=
    hdata
  have hkeep : keepLast (s.requeue options records now).queue.data.length (n.hand ++ n.queued) =
      (n.hand ++ n.queued).drop j := by
    rw [hqueue, keepLast_length_drop (hrecords.append h.numbered.queued)]
  have hunsent : ∀ i ∈ n.queued, sent requests i = 0 := by
    intro i hi
    exact hfront.unsent i (by rwa [List.drop_zero])
  constructor
  · exact hinv
  · exact hnumbered
  · exact h.left
  · exact h.bounded
  · exact h.known
  · refine ⟨n.hand.length - j, ?_, ?_, ?_⟩
    · simp only [Numbering.step, hkeep, List.length_drop, List.length_append]
      omega
    · rw [Numbering.step, hkeep, hqueue]
      exact hbatch.limited (Nat.le_refl _) hlen s.queue.data hunsent j
    · intro hcond
      rcases hcond with hnot | hsome
      · rw [show (s.requeue options records now).retrying = s.retrying from rfl,
          h.requeueing records hpc] at hnot
        cases hnot
      · cases hsome
  · intro records' hsome
    cases hsome
  · intro records' heq
    cases heq
  · intro records' heq
    cases heq
  · exact h.retrying

end

end CallInv

variable {x x' : Call} {a : Action}

/-- Step lemma for the budget of a call. -/
theorem callInv_step (h : CallInv options x.state x.numbering x.log.requests)
    (hstep : CallStep options x a x') :
    CallInv options x'.state x'.numbering x'.log.requests := by
  obtain ⟨s, n, log⟩ := x
  obtain ⟨s', n', log'⟩ := x'
  obtain ⟨hinside, hs, hn, hlog⟩ := hstep
  dsimp only at h hs hn hlog ⊢
  subst hn hlog
  have hinv := inv_step h.inv hs
  have hnumbered := numbered_step h.numbered h.inv hs
  cases hs with
  | enter _ => exact absurd rfl (hinside _ _)
  | cancel hpc =>
    refine h.frame hinv hnumbered rfl rfl rfl (.inr ⟨?_, rfl⟩)
    rcases hpc with hpc | hpc <;> rw [hpc] <;> rfl
  | wake hpc _ => exact h.frame hinv hnumbered rfl rfl rfl (.inr ⟨by rw [hpc]; rfl, rfl⟩)
  | take hpc =>
    rcases (retries_take s options).2 with ⟨hnil, heq⟩ | ⟨hne, hpc', -⟩
    · obtain ⟨hsame, hcall⟩ := h.take_empty hinv hpc hnil
      rw [hsame, Log.step, if_neg (by rw [heq]; simp [Pc.records])]
      exact hcall
    · rw [Log.step, if_pos (by rw [hpc']; rfl)]
      exact h.take_batch hinv hpc hne
  | respond hpc _ => exact h.respond hinv hnumbered hpc
  | requeue hpc => exact h.requeue hinv hpc
  | resume hpc => exact h.frame hinv hnumbered rfl rfl rfl (.inr ⟨by rw [hpc]; rfl, rfl⟩)
  | insert _ =>
    obtain ⟨j, hdata, -⟩ := BufQueue.insert_returns s.queue options.toQueueOptions _ _
    exact h.insert hinv _ j hdata rfl rfl rfl rfl
  | acquire _ | allocate _ | release _ | collect =>
    exact h.frame hinv hnumbered rfl rfl rfl (.inl rfl)

end SMAgent.Pusher.Push
