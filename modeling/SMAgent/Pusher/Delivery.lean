import SMAgent.Pusher.Disposition

/-!
# The order of delivery

Records are numbered as they are inserted, and the numbers follow them: into a batch, back in
front of the queue, to the server. The numbers are proof data beside the state of the push
loop; no step reads them. What is acknowledged, what is in hand and what waits are, one after
the other, in the order of insertion.
-/

namespace SMAgent.Pusher.Push
open SMAgent.Base SMAgent.Prom

/-! ### Positions in a history -/

/-- The records `r` are those at the positions `l` of the history. -/
def Denotes (history : List BufEntry) (l : List Nat) (r : List BufEntry) : Prop :=
  l.map (history[·]?) = r.map some

/-- The records `r` are a subsequence of the history, at the increasing positions `l`. -/
structure Subsequence (history : List BufEntry) (l : List Nat) (r : List BufEntry) : Prop where
  increasing : l.Pairwise (· < ·)
  denotes : Denotes history l r

namespace Denotes

variable {history : List BufEntry} {l m : List Nat} {r t : List BufEntry}

private theorem nil (history : List BufEntry) : Denotes history [] [] := rfl

/-- There are as many numbers as records. -/
theorem length_eq (h : Denotes history l r) : l.length = r.length := by
  simpa using congrArg List.length h

/-- Numbers and records of two lists. -/
theorem append (hl : Denotes history l r) (hm : Denotes history m t) :
    Denotes history (l ++ m) (r ++ t) := by
  unfold Denotes at *
  rw [List.map_append, List.map_append, hl, hm]

private theorem take (h : Denotes history l r) (n : Nat) : Denotes history (l.take n)
    (r.take n) := by
  unfold Denotes at *
  rw [List.map_take, List.map_take, h]

private theorem drop (h : Denotes history l r) (n : Nat) : Denotes history (l.drop n)
    (r.drop n) := by
  unfold Denotes at *
  rw [List.map_drop, List.map_drop, h]

private theorem lt_length (h : Denotes history l r) : ∀ i ∈ l, i < history.length := by
  intro i hi
  have hmem : history[i]? ∈ l.map (history[·]?) := List.mem_map_of_mem hi
  rw [show l.map (history[·]?) = r.map some from h] at hmem
  obtain ⟨e, -, he⟩ := List.mem_map.mp hmem
  exact (List.getElem?_eq_some_iff.mp he.symm).1

/-- A longer history has the same records at these positions. -/
theorem extend (h : Denotes history l r) (e : BufEntry) : Denotes (history ++ [e]) l r := by
  unfold Denotes
  rw [← show l.map (history[·]?) = r.map some from h]
  apply List.map_congr_left
  intro i hi
  exact List.getElem?_append_left (h.lt_length i hi)

/-- The number of the newest record. -/
theorem last (history : List BufEntry) (e : BufEntry) :
    Denotes (history ++ [e]) [history.length] [e] := by
  simp [Denotes]

end Denotes

private theorem Subsequence.chronological {history : List BufEntry} {l : List Nat}
    {r : List BufEntry}
    (h : Subsequence history l r) (hc : Chronological (history.map BufEntry.entry)) :
    Chronological (r.map BufEntry.entry) := by
  have hhistory (i j : Nat) (a b : BufEntry) (hi : history[i]? = some a)
      (hj : history[j]? = some b) (hlt : i < j) : a.entry.ts ≤ b.entry.ts := by
    obtain ⟨hi', rfl⟩ := List.getElem?_eq_some_iff.mp hi
    obtain ⟨hj', rfl⟩ := List.getElem?_eq_some_iff.mp hj
    have hp := List.pairwise_iff_getElem.mp hc i j (by simpa using hi') (by simpa using hj') hlt
    simpa using hp
  have hsome : (r.map some).Pairwise
      fun a b ↦ ∀ x y, a = some x → b = some y → x.entry.ts ≤ y.entry.ts := by
    rw [← show l.map (history[·]?) = r.map some from h.denotes, List.pairwise_map]
    exact h.increasing.imp fun hlt x y hx hy ↦ hhistory _ _ x y hx hy hlt
  unfold Chronological
  rw [List.pairwise_map] at hsome ⊢
  exact hsome.imp fun hab ↦ hab _ _ rfl rfl

/-! ### Numbers beside the state -/

/-- The records inserted so far, and the numbers of those that wait, that are in hand and that
were acknowledged. -/
structure Numbering where
  inserted : List BufEntry := []
  queued : List Nat := []
  hand : List Nat := []
  acked : List Nat := []
  deriving DecidableEq, Repr

/-- The numbers of the last `n` records; the limits drop the first ones. -/
def keepLast (n : Nat) (l : List Nat) : List Nat := l.drop (l.length - n)

/-- Where the numbers go in a step from `s` to `s'`. -/
def Numbering.step (n : Numbering) (s : State) (a : Action) (s' : State) : Numbering :=
  match a with
  | .insert e _ =>
    { n with
      inserted := n.inserted ++ [e]
      queued := keepLast s'.queue.data.length (n.queued ++ [n.inserted.length]) }
  | .take =>
    let taken := s.queue.data.length - s'.queue.data.length
    { n with hand := n.queued.take taken, queued := n.queued.drop taken }
  | .respond outcome =>
    if s'.pc.records.isSome then n
    else
      { n with
        hand := []
        acked := if storeStream outcome = none then n.acked ++ n.hand else n.acked }
  | .requeue _ =>
    { n with queued := keepLast s'.queue.data.length (n.hand ++ n.queued), hand := [] }
  | _ => n

/-- A step with its numbers. -/
def NumberedStep (options : Options) (x : State × Numbering) (a : Action)
    (x' : State × Numbering) : Prop :=
  Step options x.1 a x'.1 ∧ x'.2 = x.2.step x.1 a x'.1

/-- The records of a batch that `StoreStream` returned nil for. -/
def Fate.acked : Fate → List BufEntry
  | .requeued _ _ _ => []
  | .dropped start outcome _ _ => if storeStream outcome = none then start.batch else []

/-- All records acknowledged so far, batch after batch. -/
def State.ackedRecords (s : State) : List BufEntry := s.fates.flatMap Fate.acked

/-! ### The next batch -/

/-- What `get` returns: a prefix of the queue, empty only if the queue is, within the size of a
request unless it is one record, and no longer one is; the rest stays as it is. -/
structure NextBatch (options : QueueOptions) (q : BufQueue) : Prop where
  split : (q.get options).2 ++ (q.get options).1.data = q.data
  nonempty : (q.get options).2 ≠ [] ↔ q.data ≠ []
  fits : totalSize ((q.get options).2.map BufEntry.entry) ≤ options.maxPushBytes ∨
    (q.get options).2.length ≤ 1
  maximal : ∀ e rest, (q.get options).1.data = e :: rest →
    options.maxPushBytes < totalSize ((q.get options).2.map BufEntry.entry) + e.entry.size

private theorem getLoop_fits (max : Nat) (rest : List QueueEntry) (numBytes : Nat) :
    numBytes + totalSize (rest.take (getLoop max numBytes rest)) ≤ max ∨
      getLoop max numBytes rest = 0 := by
  induction rest generalizing numBytes with
  | nil => exact .inr rfl
  | cons e rest ih =>
    rw [getLoop]
    split
    · exact .inr rfl
    · next hfit =>
      left
      rw [List.take_succ_cons]
      have hcons : ∀ l, totalSize (e :: l) = e.size + totalSize l := by simp [totalSize]
      rcases ih (numBytes + e.size) with h | h
      · rw [hcons]
        omega
      · rw [h, hcons]
        simp [totalSize]
        omega

private theorem getLoop_maximal (max : Nat) (rest : List QueueEntry) (numBytes : Nat)
    {e : QueueEntry}
    {later : List QueueEntry} (h : rest.drop (getLoop max numBytes rest) = e :: later) :
    max < numBytes + totalSize (rest.take (getLoop max numBytes rest)) + e.size := by
  induction rest generalizing numBytes with
  | nil => simp at h
  | cons a rest ih =>
    rw [getLoop] at h ⊢
    split at h
    · next hbig =>
      rw [if_pos hbig]
      simp only [List.drop_zero, List.cons.injEq] at h
      simp [totalSize, ← h.1]
      omega
    · next hfit =>
      rw [if_neg hfit]
      have hrest := ih (numBytes + a.size) (by simpa using h)
      simp only [List.take_succ_cons, totalSize, List.map_cons, List.sum_cons] at hrest ⊢
      omega

/-- `get` in every state. -/
theorem nextBatch (options : QueueOptions) (q : BufQueue) : NextBatch options q := by
  have hsplit := (BufQueue.get_splits q options).1
  cases hdata : q.data with
  | nil =>
    have hget : q.get options = (q, []) := by
      unfold BufQueue.get
      rw [hdata]
    constructor
    · exact hsplit
    · simp [hget, hdata]
    · simp [hget]
    · simp [hget, hdata]
  | cons e rest =>
    have hbatch : (q.get options).2 =
        e :: rest.take (getLoop options.maxPushBytes e.entry.size (rest.map BufEntry.entry)) := by
      unfold BufQueue.get
      rw [hdata]
      rfl
    have hleft : (q.get options).1.data =
        rest.drop (getLoop options.maxPushBytes e.entry.size (rest.map BufEntry.entry)) := by
      rw [hbatch, hdata, List.cons_append, List.cons.injEq] at hsplit
      exact List.append_cancel_left (hsplit.2.trans (List.take_append_drop _ _).symm)
    have hsize : totalSize ((q.get options).2.map BufEntry.entry) = e.entry.size +
        totalSize ((rest.map BufEntry.entry).take
          (getLoop options.maxPushBytes e.entry.size (rest.map BufEntry.entry))) := by
      rw [hbatch]
      simp [totalSize, List.map_take]
    constructor
    · exact hsplit
    · simp [hbatch, hdata]
    · rw [hsize]
      rcases getLoop_fits options.maxPushBytes (rest.map BufEntry.entry) e.entry.size with h | h
      · exact .inl h
      · right
        rw [hbatch, h]
        simp
    · intro next later hnext
      rw [hsize]
      have hdrop : (rest.map BufEntry.entry).drop
          (getLoop options.maxPushBytes e.entry.size (rest.map BufEntry.entry)) =
            next.entry :: later.map BufEntry.entry := by
        rw [← List.map_drop, ← hleft, hnext, List.map_cons]
      exact getLoop_maximal _ _ _ hdrop

/-! ### One step -/

/-- The numbers tell where the records are: first those acknowledged, then those in hand, then
those that wait, all in the order of insertion. -/
structure Numbered (s : State) (n : Numbering) : Prop where
  increasing : (n.acked ++ (n.hand ++ n.queued)).Pairwise (· < ·)
  acked : Denotes n.inserted n.acked s.ackedRecords
  hand : Denotes n.inserted n.hand (s.pc.records.getD [])
  queued : Denotes n.inserted n.queued s.queue.data

variable {s s' : State} {n : Numbering} {options : Options}

/-- If the first records are dropped, so are the first numbers. -/
theorem keepLast_length_drop {history : List BufEntry} {l : List Nat} {r : List BufEntry}
    (h : Denotes history l r) (k : Nat) : keepLast (r.drop k).length l = l.drop k := by
  have hlength := h.length_eq
  rw [keepLast, List.length_drop]
  by_cases hk : k ≤ r.length
  · congr 1
    omega
  · rw [List.drop_eq_nil_of_le (by omega), List.drop_eq_nil_of_le (by omega)]

namespace Numbered

/-- Numbers are positions of the history. -/
theorem lt_length (h : Numbered s n) :
    ∀ i ∈ n.acked ++ (n.hand ++ n.queued), i < n.inserted.length :=
  (h.acked.append (h.hand.append h.queued)).lt_length

private theorem frame (h : Numbered s n) (hdata : s'.queue.data = s.queue.data)
    (hpc : s'.pc.records = s.pc.records) (hfates : s'.fates = s.fates) : Numbered s' n where
  increasing := h.increasing
  acked := by simpa only [State.ackedRecords, hfates] using h.acked
  hand := by simpa only [hpc] using h.hand
  queued := by simpa only [hdata] using h.queued

/-- A record gets the next number. -/
theorem insert (h : Numbered s n) (e : BufEntry) (k : Nat)
    (hdata : s'.queue.data = (s.queue.data ++ [e]).drop k)
    (hpc : s'.pc.records = s.pc.records) (hfates : s'.fates = s.fates) :
    Numbered s' { n with
      inserted := n.inserted ++ [e]
      queued := keepLast s'.queue.data.length (n.queued ++ [n.inserted.length]) } := by
  have hqueued := (h.queued.extend e).append (Denotes.last n.inserted e)
  rw [hdata, keepLast_length_drop hqueued]
  constructor
  · have hall : (n.acked ++ (n.hand ++ (n.queued ++ [n.inserted.length]))).Pairwise (· < ·) := by
      rw [← List.append_assoc n.hand, ← List.append_assoc n.acked]
      apply List.pairwise_append.mpr
      refine ⟨h.increasing, List.pairwise_singleton _ _, fun i hi j hj ↦ ?_⟩
      rw [List.mem_singleton.mp hj]
      exact h.lt_length i hi
    refine List.Pairwise.sublist ?_ hall
    exact ((List.drop_sublist k _).append_left _).append_left _
  · simpa only [State.ackedRecords, hfates] using h.acked.extend e
  · simpa only [hpc] using h.hand.extend e
  · rw [hdata]
    exact hqueued.drop k

/-- The numbers of a batch go into the hands of the loop. -/
theorem take (h : Numbered s n) (hpc : s.pc = .woken) (options : Options) :
    Numbered (s.take options) { n with
      hand := n.queued.take (s.queue.data.length - (s.take options).queue.data.length)
      queued := n.queued.drop (s.queue.data.length - (s.take options).queue.data.length) } := by
  have hsplit := (BufQueue.get_splits s.queue options.toQueueOptions).1
  have hempty : n.hand = [] := by
    have hlength := h.hand.length_eq
    rw [hpc] at hlength
    exact List.length_eq_zero_iff.mp hlength
  have hqueue : (s.take options).queue = (s.queue.get options.toQueueOptions).1 := by
    unfold State.take
    split
    next hq => rw [hq]
    next hq => rw [hq]
  have hrecords : (s.take options).pc.records.getD [] =
      (s.queue.get options.toQueueOptions).2 := by
    unfold State.take
    split
    next hq =>
      rw [hq]
      rfl
    next hq =>
      rw [hq]
      rfl
  have hfates : (s.take options).fates = s.fates := by
    unfold State.take
    split <;> rfl
  have hcount : s.queue.data.length - (s.take options).queue.data.length =
      (s.queue.get options.toQueueOptions).2.length := by
    rw [← hsplit, hqueue, List.length_append]
    omega
  rw [hcount]
  constructor
  · simpa only [hempty, List.nil_append, List.take_append_drop] using h.increasing
  · simpa only [State.ackedRecords, hfates] using h.acked
  · have hhand := h.queued.take (s.queue.get options.toQueueOptions).2.length
    rw [← hsplit, List.take_left] at hhand
    rwa [hrecords]
  · have hleft := h.queued.drop (s.queue.get options.toQueueOptions).2.length
    rw [← hsplit, List.drop_left] at hleft
    rwa [hqueue]

private theorem ended (h : Numbered s n) (hinv : Inv s) {records : List BufEntry}
    {outcome : Outcome}
    {kind : ErrKind} (hpc : s.pc = .sending records) (hend : Ended s records outcome kind s') :
    Numbered s' { n with
      hand := []
      acked := if storeStream outcome = none then n.acked ++ n.hand else n.acked } := by
  have hbatch : records = s.start.batch := (hinv.batch (by rw [hpc]; rfl)).1
  have hhand : Denotes n.inserted n.hand s.start.batch := by
    have hrecords := h.hand
    rw [hpc] at hrecords
    rwa [← hbatch]
  have hacked : s'.ackedRecords =
      s.ackedRecords ++ if storeStream outcome = none then s.start.batch else [] := by
    simp [State.ackedRecords, hend.fates, Fate.acked]
  constructor
  · split
    · simpa only [List.nil_append, List.append_assoc] using h.increasing
    · refine List.Pairwise.sublist ?_ h.increasing
      exact (List.sublist_append_right n.hand n.queued).append_left _
  · rw [hacked]
    split
    · exact h.acked.append hhand
    · simpa using h.acked
  · rw [hend.pc]
    exact .nil _
  · rw [hend.queue]
    exact h.queued

/-- The numbers of a batch go back to the queue. -/
theorem requeue (h : Numbered s n) {records : List BufEntry} (hpc : s.pc = .requeueing records)
    (options : Options) (now : Int) :
    Numbered (s.requeue options records now) { n with
      queued := keepLast (s.requeue options records now).queue.data.length (n.hand ++ n.queued)
      hand := [] } := by
  obtain ⟨k, hdata, -⟩ := BufQueue.requeue_returns s.queue options.toQueueOptions records now
  have hqueue : (s.requeue options records now).queue.data = (records ++ s.queue.data).drop k :=
    hdata
  have hhand : Denotes n.inserted n.hand records := by
    have hrecords := h.hand
    rwa [hpc] at hrecords
  have hqueued := hhand.append h.queued
  rw [hqueue, keepLast_length_drop hqueued]
  constructor
  · refine List.Pairwise.sublist ?_ h.increasing
    exact (List.drop_sublist k _).append_left _
  · simpa [State.ackedRecords, State.requeue, Fate.acked] using h.acked
  · exact .nil _
  · rw [hqueue]
    exact hqueued.drop k

end Numbered

/-- What one step does to the numbers. -/
theorem numbered_step {a : Action} (h : Numbered s n) (hinv : Inv s)
    (hstep : Step options s a s') : Numbered s' (n.step s a s') := by
  cases hstep with
  | enter hpc =>
    unfold State.enter
    split
    · exact h
    · split
      · exact h.frame rfl rfl rfl
      · exact h.frame rfl (by rw [hpc]; rfl) rfl
  | cancel hpc =>
    refine h.frame rfl ?_ rfl
    rcases hpc with hpc | hpc <;> rw [hpc] <;> rfl
  | wake hpc _ => exact h.frame rfl (by rw [hpc]; rfl) rfl
  | take hpc => exact h.take hpc options
  | @respond records outcome hpc hsent =>
    rcases respond_cases s records hsent with ⟨-, counters, retriesLeft, heq⟩ | hend
    · have hsome : (s.respond records outcome).pc.records.isSome = true := by
        rw [heq]
        rfl
      rw [Numbering.step, if_pos hsome, heq]
      exact h.frame rfl (by rw [hpc]; rfl) rfl
    · have hnone : ¬ (s.respond records outcome).pc.records.isSome = true := by
        rw [hend.pc]
        simp
      rw [Numbering.step, if_neg hnone]
      exact h.ended hinv hpc hend
  | requeue hpc => exact h.requeue hpc options _
  | resume hpc => exact h.frame rfl (by rw [hpc]; rfl) rfl
  | insert _ =>
    obtain ⟨k, hdata, -⟩ := BufQueue.insert_returns s.queue options.toQueueOptions _ _
    exact h.insert _ k hdata rfl rfl
  | acquire _ | allocate _ | release _ | collect => exact h.frame rfl rfl rfl

/-! ### Every run -/

/-- The order of delivery. What waits is a subsequence of what was inserted, in order of time
if the clock does not go back; the next batch is as long a prefix as a request takes; what was
acknowledged, batch after batch, is a subsequence of what was inserted. Increasing positions do
not repeat, so no record is acknowledged twice. -/
structure Delivered (options : Options) (s : State) (n : Numbering) : Prop where
  waiting : Subsequence n.inserted n.queued s.queue.data
  chronological : Chronological (n.inserted.map BufEntry.entry) → Chronological s.queue.entries
  batch : NextBatch options.toQueueOptions s.queue
  acknowledged : Subsequence n.inserted n.acked s.ackedRecords

/-- The numbers never stand in the way of a step. -/
theorem exists_numberedRuns {options : Options} {acts : List Action} {s s' : State}
    (h : Runs (Step options) s acts s') (n : Numbering) :
    ∃ n', Runs (NumberedStep options) (s, n) acts (s', n') := by
  induction h generalizing n with
  | nil s => exact ⟨n, .nil _⟩
  | @cons s t _ a _ hstep _ ih =>
    obtain ⟨n', hrun⟩ := ih (n.step s a t)
    exact ⟨n', .cons ⟨hstep, rfl⟩ hrun⟩

/-- Run lemma: numbers and records stay together. -/
theorem numbered_of_runs {options : Options} {acts : List Action} {s : State} {n : Numbering}
    (h : Runs (NumberedStep options) ({}, {}) acts (s, n)) : Inv s ∧ Numbered s n := by
  have hinit : Inv {} ∧ Numbered {} {} := ⟨inv_init, .nil, .nil _, .nil _, .nil _⟩
  exact h.invariant (fun x _ x' (hx : Inv x.1 ∧ Numbered x.1 x.2) hstep ↦
    ⟨inv_step hx.1 hstep.1, by rw [hstep.2]; exact numbered_step hx.2 hx.1 hstep.1⟩) hinit

/-- Every run delivers in the order of insertion. -/
theorem delivered_of_runs {options : Options} {acts : List Action} {s : State}
    (h : Runs (Step options) {} acts s) :
    ∃ n, Runs (NumberedStep options) ({}, {}) acts (s, n) ∧ Delivered options s n := by
  obtain ⟨n, hrun⟩ := exists_numberedRuns h {}
  have hnumbered := (numbered_of_runs hrun).2
  have hincreasing := List.pairwise_append.mp hnumbered.increasing
  have hwaiting : Subsequence n.inserted n.queued s.queue.data :=
    ⟨(List.pairwise_append.mp hincreasing.2.1).2.1, hnumbered.queued⟩
  exact ⟨n, hrun, hwaiting, hwaiting.chronological, nextBatch _ _, hincreasing.1, hnumbered.acked⟩

/-- A record that is sent twice is delivered. -/
theorem delivered_retryOnce : ∃ s n, Runs (Step { maxRetries := 1 }) {} retryOnce s ∧
    Runs (NumberedStep { maxRetries := 1 }) ({}, {}) retryOnce (s, n) ∧
    Delivered { maxRetries := 1 } s n := by
  obtain ⟨s, hrun⟩ := retryOnce_runs
  obtain ⟨n, hnumbered, hdelivered⟩ := delivered_of_runs hrun
  exact ⟨s, n, hrun, hnumbered, hdelivered⟩

end SMAgent.Pusher.Push
