import Mathlib.Algebra.Ring.Nat
import SMAgent.Base.GoString
import SMAgent.Base.Search

/-!
# The publisher's queue

`internal/pusher/v2/queue.go:153-265`. Entries wait in order of arrival; a byte limit and an
age limit drop the oldest after every insertion. Sizes are natural numbers: the entries fit
in memory, so their sums do not reach `2 ^ 64`. Every operation holds the queue's mutex, and
the clock readings it makes are its arguments.
-/

namespace SMAgent.Pusher
open SMAgent.Base

/-- `queueEntry`, `queue.go:267-270`; times are nanoseconds. -/
structure QueueEntry where
  data : GoString
  ts : Int
  deriving DecidableEq, Repr

/-- `len(*e.data)`. -/
def QueueEntry.size (e : QueueEntry) : Nat := e.data.length

/-- The fields of `pusherOptions` that the queue reads. -/
structure QueueOptions where
  maxPushBytes : Nat := 0
  maxQueuedBytes : Nat := 0
  maxQueuedTime : Int := 0
  deriving DecidableEq, Repr

/-- `queue`, with the effects of the limits: the value of `DroppedCounter` and the entries
whose buffers they returned to the pool. `pending` is the one-slot channel of the condition. -/
structure Queue where
  data : List QueueEntry := []
  pending : Bool := false
  dropped : Nat := 0
  removed : List QueueEntry := []
  deriving DecidableEq, Repr

/-- Return the first `n` entries to the pool. -/
def Queue.remove (q : Queue) (n : Nat) : Queue :=
  { q with data := q.data.drop n, removed := q.removed ++ q.data.take n }

/-- The loop of `limitBytes` over the entries from the last to the first. -/
def limitBytesLoop (max : Nat) : List QueueEntry → Nat → Nat
  | [], _ => 0
  | e :: earlier, numBytes =>
    if numBytes + e.size > max then earlier.length + 1
    else limitBytesLoop max earlier (numBytes + e.size)

/-- `queue.go:172-189`. -/
def Queue.limitBytes (q : Queue) (max : Nat) : Queue × Nat :=
  if max = 0 then (q, 0)
  else (q.remove (limitBytesLoop max q.data.reverse 0), limitBytesLoop max q.data.reverse 0)

/-- `e.ts.Before(limit)`. -/
def QueueEntry.before (limit : Int) (e : QueueEntry) : Bool := decide (e.ts < limit)

/-- `queue.go:191-213`; the result is the number of entries kept by the search, not of those
removed, and nothing is removed when all entries are too old. -/
def Queue.limitAge (q : Queue) (maxAge now : Int) : Queue × Nat :=
  if q.data.length = 0 ∨ maxAge ≤ 0 then (q, 0)
  else if q.data.head?.any (QueueEntry.before (now - maxAge)) = false then (q, 0)
  else
    let n := q.data.length
    let idx := sortSearch n fun i ↦ !(q.data[i]?.any (QueueEntry.before (now - maxAge)))
    (if idx < n then q.remove idx else q, n - idx)

/-- `queue.go:165-170`. -/
def Queue.applyLimits (q : Queue) (options : QueueOptions) (now : Int) : Queue :=
  let bytes := q.limitBytes options.maxQueuedBytes
  let age := bytes.1.limitAge options.maxQueuedTime now
  { age.1 with dropped := age.1.dropped + (bytes.2 + age.2) }

/-- `q.pending.Signal()`: the channel holds at most one signal. -/
def Queue.signal (q : Queue) : Queue := { q with pending := true }

/-- `queue.go:153-163`; `ts` and `now` are the two clock readings of the call. -/
def Queue.insert (q : Queue) (options : QueueOptions) (data : GoString) (ts now : Int) : Queue :=
  (Queue.applyLimits { q with data := q.data ++ [⟨data, ts⟩] } options now).signal

/-- The loop of `get`: how many further entries fit into the request. -/
def getLoop (maxPushBytes : Nat) : Nat → List QueueEntry → Nat
  | _, [] => 0
  | numBytes, e :: rest =>
    if numBytes + e.size > maxPushBytes then 0
    else getLoop maxPushBytes (numBytes + e.size) rest + 1

/-- `queue.go:219-251`: at least one entry is taken from a queue that is not empty. -/
def Queue.get (q : Queue) (options : QueueOptions) : Queue × List QueueEntry :=
  match q.data with
  | [] => (q, [])
  | e :: rest =>
    let limit := getLoop options.maxPushBytes e.size rest + 1
    let q' := { q with data := q.data.drop limit }
    (if limit < q.data.length then q'.signal else q', q.data.take limit)

/-- `queue.go:253-265`. -/
def Queue.requeue (q : Queue) (options : QueueOptions) (data : List QueueEntry) (now : Int) :
    Queue :=
  if data = [] then q
  else (Queue.applyLimits { q with data := data ++ q.data } options now).signal

/-! ### Conservation -/

private theorem remove_zero (q : Queue) : q.remove 0 = q := by
  rw [Queue.remove, List.drop_zero, List.take_zero, List.append_nil]

/-- Removing twice. -/
theorem remove_remove (q : Queue) (b e : Nat) : (q.remove b).remove e = q.remove (b + e) := by
  simp only [Queue.remove, List.drop_drop, List.append_assoc, List.take_add]

private theorem limitBytes_removes (q : Queue) (max : Nat) :
    ∃ n, (q.limitBytes max).1 = q.remove n := by
  unfold Queue.limitBytes
  split
  · exact ⟨0, (remove_zero q).symm⟩
  · exact ⟨_, rfl⟩

private theorem limitAge_removes (q : Queue) (maxAge now : Int) :
    ∃ n, (q.limitAge maxAge now).1 = q.remove n := by
  unfold Queue.limitAge
  split
  · exact ⟨0, (remove_zero q).symm⟩
  · split
    · exact ⟨0, (remove_zero q).symm⟩
    · dsimp only
      split
      · exact ⟨_, rfl⟩
      · exact ⟨0, (remove_zero q).symm⟩

private theorem remove_perm (q : Queue) (n : Nat) :
    ((q.remove n).data ++ (q.remove n).removed).Perm (q.data ++ q.removed) := by
  have hd : (q.data.drop n ++ q.data.take n).Perm q.data := by
    have hc : (q.data.drop n ++ q.data.take n).Perm (q.data.take n ++ q.data.drop n) :=
      List.perm_append_comm
    rwa [List.take_append_drop] at hc
  rw [Queue.remove]
  exact (List.perm_append_comm_assoc _ _ _).trans
    ((List.perm_append_comm.trans (hd.append_right _)))

private theorem applyLimits_perm (q : Queue) (options : QueueOptions) (now : Int) :
    ((q.applyLimits options now).data ++ (q.applyLimits options now).removed).Perm
      (q.data ++ q.removed) := by
  obtain ⟨b, hb⟩ := limitBytes_removes q options.maxQueuedBytes
  obtain ⟨e, he⟩ := limitAge_removes (q.limitBytes options.maxQueuedBytes).1
    options.maxQueuedTime now
  have h := remove_perm q (b + e)
  rw [← remove_remove, ← hb, ← he] at h
  exact h

/-- `insert` adds one entry to what is in the queue or removed. -/
theorem insert_perm (q : Queue) (options : QueueOptions) (data : GoString) (ts now : Int) :
    ((q.insert options data ts now).data ++ (q.insert options data ts now).removed).Perm
      (q.data ++ [⟨data, ts⟩] ++ q.removed) :=
  applyLimits_perm { q with data := q.data ++ [⟨data, ts⟩] } options now

/-- `requeue` adds its batch to what is in the queue or removed. -/
theorem requeue_perm (q : Queue) (options : QueueOptions) (batch : List QueueEntry) (now : Int) :
    ((q.requeue options batch now).data ++ (q.requeue options batch now).removed).Perm
      (batch ++ q.data ++ q.removed) := by
  unfold Queue.requeue
  split
  · next h =>
    rw [h]
    exact List.Perm.refl _
  · exact applyLimits_perm { q with data := batch ++ q.data } options now

/-- `get` splits the queue and touches nothing else. -/
theorem get_spec (q : Queue) (options : QueueOptions) :
    (q.get options).2 ++ (q.get options).1.data = q.data ∧
      (q.get options).1.removed = q.removed ∧ (q.get options).1.dropped = q.dropped := by
  unfold Queue.get
  split
  · exact ⟨rfl, rfl, rfl⟩
  · dsimp only
    split
    · exact ⟨List.take_append_drop _ _, rfl, rfl⟩
    · exact ⟨List.take_append_drop _ _, rfl, rfl⟩

/-! ### The byte limit -/

/-- The total size of some entries. -/
def totalSize (entries : List QueueEntry) : Nat := (entries.map QueueEntry.size).sum

/-- What the byte limit is for: `kept` is the longest suffix of `data` within `max` bytes; a
limit of zero keeps everything. -/
def WithinBytes (max : Nat) (data kept : List QueueEntry) : Prop :=
  if max = 0 then kept = data
  else kept <:+ data ∧ totalSize kept ≤ max ∧ ∀ t, t <:+ data → totalSize t ≤ max → t <:+ kept

/-- At most one list is kept. -/
theorem WithinBytes.unique {max : Nat} {data k₁ k₂ : List QueueEntry}
    (h₁ : WithinBytes max data k₁) (h₂ : WithinBytes max data k₂) : k₁ = k₂ := by
  unfold WithinBytes at h₁ h₂
  split at h₁
  · rw [if_pos ‹_›] at h₂
    rw [h₁, h₂]
  · rw [if_neg ‹_›] at h₂
    have h12 := h₂.2.2 k₁ h₁.1 h₁.2.1
    have h21 := h₁.2.2 k₂ h₂.1 h₂.2.1
    exact h12.eq_of_length_le h21.length_le

private theorem totalSize_cons (e : QueueEntry) (entries : List QueueEntry) :
    totalSize (e :: entries) = totalSize entries + e.size := by
  rw [totalSize, List.map_cons, List.sum_cons, Nat.add_comm, totalSize]

private theorem totalSize_le_of_suffix {t data : List QueueEntry} (h : t <:+ data) :
    totalSize t ≤ totalSize data := by
  obtain ⟨front, rfl⟩ := h
  rw [totalSize, totalSize, List.map_append, List.sum_append]
  omega

private theorem suffix_of_too_big {max : Nat} {e : QueueEntry} {kept data t : List QueueEntry}
    (hbig : max < totalSize (e :: kept)) (hdata : e :: kept <:+ data) (ht : t <:+ data)
    (hfit : totalSize t ≤ max) : t <:+ kept := by
  rcases List.suffix_or_suffix_of_suffix ht hdata with h | h
  · rcases List.suffix_cons_iff.mp h with rfl | h
    · omega
    · exact h
  · have hle := totalSize_le_of_suffix h
    omega

-- `kept` are the entries that the loop has passed.
private theorem limitBytesLoop_spec (max : Nat) (earlier : List QueueEntry) :
    ∀ kept, totalSize kept ≤ max →
      ∃ rest, (earlier.reverse ++ kept).drop (limitBytesLoop max earlier (totalSize kept)) = rest ∧
        rest <:+ earlier.reverse ++ kept ∧ totalSize rest ≤ max ∧
          ∀ t, t <:+ earlier.reverse ++ kept → totalSize t ≤ max → t <:+ rest := by
  induction earlier with
  | nil =>
    intro kept hk
    exact ⟨kept, rfl, List.suffix_refl _, hk, fun t ht _ ↦ ht⟩
  | cons e earlier ih =>
    intro kept hk
    have hdata : (e :: earlier).reverse ++ kept = earlier.reverse ++ e :: kept := by simp
    rw [limitBytesLoop, hdata]
    split
    · next hbig =>
      rw [← totalSize_cons] at hbig
      have hsuffix : e :: kept <:+ earlier.reverse ++ e :: kept := List.suffix_append _ _
      refine ⟨kept, ?_, (List.suffix_cons e kept).trans hsuffix, hk, fun t ht hfit ↦ ?_⟩
      · rw [← List.length_reverse, List.drop_append]
        simp
      · exact suffix_of_too_big hbig hsuffix ht hfit
    · next hfit =>
      rw [← totalSize_cons] at hfit ⊢
      exact ih (e :: kept) (by omega)

private theorem limitBytesLoop_le (max : Nat) (earlier : List QueueEntry) (numBytes : Nat) :
    limitBytesLoop max earlier numBytes ≤ earlier.length := by
  induction earlier generalizing numBytes with
  | nil => exact Nat.le_refl 0
  | cons e earlier ih =>
    rw [limitBytesLoop]
    split
    · exact Nat.le_refl _
    · exact Nat.le_succ_of_le (ih _)

/-- `limitBytes` removes what does not fit and reports how many entries that is. -/
theorem limitBytes_spec (q : Queue) (max : Nat) :
    ∃ n, q.limitBytes max = (q.remove n, n) ∧ n ≤ q.data.length ∧
      WithinBytes max q.data (q.data.drop n) := by
  unfold Queue.limitBytes WithinBytes
  split
  · exact ⟨0, by rw [remove_zero], Nat.zero_le _, List.drop_zero⟩
  · refine ⟨_, rfl, ?_, ?_⟩
    · rw [← List.length_reverse]
      exact limitBytesLoop_le max _ 0
    · obtain ⟨rest, hrest, h⟩ := limitBytesLoop_spec max q.data.reverse [] (Nat.zero_le max)
      rw [List.reverse_reverse, List.append_nil] at hrest h
      rw [← hrest] at h
      exact h

/-! ### The age limit -/

/-- Entries in order of arrival. -/
def Chronological (entries : List QueueEntry) : Prop :=
  entries.Pairwise fun a b ↦ a.ts ≤ b.ts

/-- The number of entries that a time limit has expired for. -/
def numExpired (limit : Int) (entries : List QueueEntry) : Nat :=
  entries.countP (QueueEntry.before limit)

private theorem prefixClosed_before (limit : Int) {entries : List QueueEntry}
    (h : Chronological entries) : PrefixClosed (QueueEntry.before limit) entries := by
  refine h.imp ?_
  intro a b hab hb
  rw [QueueEntry.before, decide_eq_true_eq] at hb ⊢
  omega

private theorem numExpired_pos_iff (limit : Int) {entries : List QueueEntry}
    (h : Chronological entries) :
    0 < numExpired limit entries ↔ entries.head?.any (QueueEntry.before limit) = true := by
  cases entries with
  | nil => simp [numExpired]
  | cons e rest =>
    rw [numExpired, List.countP_pos_iff, List.head?_cons, Option.any_some]
    constructor
    · rintro ⟨a, ha, hp⟩
      rcases List.mem_cons.mp ha with rfl | ha
      · exact hp
      · exact (List.pairwise_cons.mp (prefixClosed_before limit h)).1 a ha hp
    · intro he
      exact ⟨e, List.mem_cons_self, he⟩

/-- `limitAge` on entries in order: it removes the expired entries unless all are, and
reports the number of the others. -/
theorem limitAge_spec (q : Queue) (maxAge now : Int) (h : Chronological q.data) :
    q.limitAge maxAge now =
      if 0 < maxAge ∧ 0 < numExpired (now - maxAge) q.data then
        (if numExpired (now - maxAge) q.data < q.data.length
          then q.remove (numExpired (now - maxAge) q.data) else q,
          q.data.length - numExpired (now - maxAge) q.data)
      else (q, 0) := by
  have hsearch := (prefixClosed_before (now - maxAge) h).sortSearch_eq
  rw [← numExpired] at hsearch
  have hle : numExpired (now - maxAge) q.data ≤ q.data.length := List.countP_le_length
  unfold Queue.limitAge
  split
  · next hnone => rw [if_neg (by omega)]
  · next hsome =>
    split
    · next hhead =>
      rw [if_neg]
      rintro ⟨-, hpos⟩
      cases hhead.symm.trans ((numExpired_pos_iff _ h).mp hpos)
    · next hhead =>
      rw [if_pos ⟨by omega, (numExpired_pos_iff _ h).mpr (Bool.not_eq_false _ ▸ hhead)⟩]
      simp only [hsearch]

end SMAgent.Pusher
