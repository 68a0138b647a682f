import SMAgent.Pusher.Queue

/-!
# What the limits of a queue keep

The byte limit keeps the longest suffix that fits. The age limit is meant to drop from it what
is too old; `limitAge` searches for the first record that is young enough, and if there is
none it drops nothing. So a queue whose newest record is too old stays as it is.
-/

namespace SMAgent.Pusher
open SMAgent.Base

/-- What the limits are for: of the longest suffix of `content` within the byte limit, the
records that are not too old. -/
def Retained (options : QueueOptions) (content : List QueueEntry) (now : Int)
    (kept : List QueueEntry) : Prop :=
  ∃ fit, WithinBytes options.maxQueuedBytes content fit ∧
    kept = if options.maxQueuedTime ≤ 0 then fit
      else fit.filter fun e ↦ !e.before (now - options.maxQueuedTime)

/-- The newest record is kept by the byte limit and too old. -/
def NewestStale (options : QueueOptions) (content : List QueueEntry) (now : Int) : Prop :=
  0 < options.maxQueuedTime ∧ ∃ e ∈ content.getLast?,
    e.ts < now - options.maxQueuedTime ∧
      (options.maxQueuedBytes = 0 ∨ e.size ≤ options.maxQueuedBytes)

/-- A call that adds records and applies the limits. -/
inductive LimitedCall where
  | insert (data : GoString) (ts : Int)
  | requeue (batch : List QueueEntry)
  deriving DecidableEq, Repr

namespace LimitedCall

/-- What is in the queue before the limits are applied. -/
def content (q : Queue) : LimitedCall → List QueueEntry
  | .insert data ts => q.data ++ [⟨data, ts⟩]
  | .requeue batch => batch ++ q.data

/-- The queue after the call. -/
def exec (q : Queue) (options : QueueOptions) (now : Int) : LimitedCall → Queue
  | .insert data ts => q.insert options data ts now
  | .requeue batch => q.requeue options batch now

/-- The limits keep what they should: the newest record is not too old or, as a call that adds
nothing does not apply them, there is nothing to drop. -/
def Fresh (q : Queue) (options : QueueOptions) (now : Int) (call : LimitedCall) : Prop :=
  if call = .requeue [] then Retained options q.data now q.data
  else ¬ NewestStale options (call.content q) now

end LimitedCall

/-! ### The suffix that fits -/

variable {options : QueueOptions} {content fit : List QueueEntry} {now : Int}

private theorem Retained.eq {kept : List QueueEntry} (h : Retained options content now kept)
    (hfit : WithinBytes options.maxQueuedBytes content fit) :
    kept = if options.maxQueuedTime ≤ 0 then fit
      else fit.filter fun e ↦ !e.before (now - options.maxQueuedTime) := by
  obtain ⟨fit', hfit', hkept⟩ := h
  rw [hkept, hfit'.unique hfit]

private theorem WithinBytes.suffix {max : Nat} (h : WithinBytes max content fit) :
    fit <:+ content := by
  unfold WithinBytes at h
  split at h
  · rw [h]
  · exact h.1

private theorem WithinBytes.ne_nil_iff {max : Nat} {e : QueueEntry}
    (h : WithinBytes max content fit)
    (he : content.getLast? = some e) : fit ≠ [] ↔ max = 0 ∨ e.size ≤ max := by
  have hlast : [e] <:+ content := by
    obtain ⟨front, rfl⟩ := List.getLast?_eq_some_iff.mp he
    exact List.suffix_append _ _
  unfold WithinBytes at h
  split at h
  · next hzero =>
    refine iff_of_true ?_ (.inl hzero)
    rintro rfl
    rw [← h] at he
    cases he
  · next hpos =>
    obtain ⟨hsuffix, hsize, hlongest⟩ := h
    constructor
    · intro hne
      right
      -- the last record of what fits is the newest one
      have hfit : fit.getLast? = some e := by
        obtain ⟨front, rfl⟩ := hsuffix
        rwa [List.getLast?_append_of_ne_nil _ hne] at he
      obtain ⟨front, rfl⟩ := List.getLast?_eq_some_iff.mp hfit
      simp only [totalSize, List.map_append, List.map_cons, List.map_nil, List.sum_append,
        List.sum_cons, List.sum_nil] at hsize
      omega
    · rintro (hzero | hle)
      · exact absurd hzero hpos
      · have hin : [e] <:+ fit := hlongest [e] hlast (by simpa [totalSize] using hle)
        rintro rfl
        simpa using hin.length_le

private theorem newestStale_iff (hc : Chronological content)
    (hfit : WithinBytes options.maxQueuedBytes content fit) :
    NewestStale options content now ↔ 0 < options.maxQueuedTime ∧ fit ≠ [] ∧
      numExpired (now - options.maxQueuedTime) fit = fit.length := by
  unfold NewestStale
  apply and_congr_right
  intro _
  constructor
  · rintro ⟨e, he, hold, hsize⟩
    refine ⟨(hfit.ne_nil_iff he).mpr hsize, ?_⟩
    obtain ⟨front, rfl⟩ := List.getLast?_eq_some_iff.mp he
    rw [numExpired, List.countP_eq_length]
    intro a ha
    have hle : a.ts ≤ e.ts := by
      rcases List.mem_append.mp (hfit.suffix.subset ha) with h | h
      · exact (List.pairwise_append.mp hc).2.2 a h e List.mem_cons_self
      · rw [List.mem_singleton.mp h]
    simp only [QueueEntry.before, decide_eq_true_eq]
    omega
  · rintro ⟨hne, hall⟩
    rw [numExpired, List.countP_eq_length] at hall
    have hlast : content.getLast? = some (fit.getLast hne) := by
      obtain ⟨front, rfl⟩ := hfit.suffix
      rw [List.getLast?_append_of_ne_nil _ hne, List.getLast?_eq_some_getLast hne]
    have hold := hall _ (List.getLast_mem hne)
    rw [QueueEntry.before, decide_eq_true_eq] at hold
    exact ⟨_, hlast, hold, (hfit.ne_nil_iff hlast).mp hne⟩

private theorem drop_numExpired (limit : Int) {entries : List QueueEntry}
    (h : Chronological entries) :
    entries.drop (numExpired limit entries) = entries.filter fun e ↦ !e.before limit := by
  induction entries with
  | nil => rfl
  | cons e rest ih =>
    obtain ⟨hhead, htail⟩ := List.pairwise_cons.mp h
    by_cases he : e.before limit = true
    · have hcount : numExpired limit (e :: rest) = numExpired limit rest + 1 := by
        simp [numExpired, he]
      rw [hcount, List.drop_succ_cons, ih htail, List.filter_cons_of_neg (by simp [he])]
    · have hyoung : ∀ a ∈ e :: rest, a.before limit = false := by
        intro a ha
        have hle : e.ts ≤ a.ts := by
          rcases List.mem_cons.mp ha with rfl | ha
          · omega
          · exact hhead a ha
        simp only [QueueEntry.before, decide_eq_true_eq, decide_eq_false_iff_not] at he ⊢
        omega
      have hcount : numExpired limit (e :: rest) = 0 := by
        rw [numExpired, List.countP_eq_zero]
        intro a ha
        simp [hyoung a ha]
      rw [hcount, List.drop_zero]
      refine (List.filter_eq_self.mpr ?_).symm
      intro a ha
      simp [hyoung a ha]

/-! ### One application of the limits -/

/-- The limits keep what they should exactly if the newest record is not too old. -/
theorem retained_applyLimits_iff (q : Queue) (options : QueueOptions) (now : Int)
    (h : Chronological q.data) :
    Retained options q.data now (q.applyLimits options now).data ↔
      ¬ NewestStale options q.data now := by
  obtain ⟨b, hbytes, -, hfit⟩ := limitBytes_spec q options.maxQueuedBytes
  have hchron : Chronological (q.data.drop b) := h.sublist (List.drop_sublist b q.data)
  have hage := limitAge_spec (q.remove b) options.maxQueuedTime now hchron
  have hdata : (q.remove b).data = q.data.drop b := rfl
  rw [hdata] at hage
  have hkept : (q.applyLimits options now).data =
      ((q.remove b).limitAge options.maxQueuedTime now).1.data := by
    simp only [Queue.applyLimits, hbytes]
  have hle : numExpired (now - options.maxQueuedTime) (q.data.drop b) ≤ (q.data.drop b).length :=
    List.countP_le_length
  have hdrop := drop_numExpired (now - options.maxQueuedTime) hchron
  rw [newestStale_iff h hfit, hkept, hage]
  constructor
  · rintro hretained ⟨hpos, hne, hall⟩
    -- nothing was dropped, and everything is too old
    have heq := hretained.eq hfit
    have hexpired : 0 < numExpired (now - options.maxQueuedTime) (q.data.drop b) := by
      rw [hall]
      exact List.length_pos_of_ne_nil hne
    rw [if_pos ⟨hpos, hexpired⟩, if_neg (by omega), if_neg (by omega), ← hdrop, hall,
      List.drop_length] at heq
    exact hne heq
  · intro hyoung
    refine ⟨q.data.drop b, hfit, ?_⟩
    by_cases hpos : options.maxQueuedTime ≤ 0
    · rw [if_neg (by omega), if_pos hpos]
      rfl
    · rw [if_neg hpos, ← hdrop]
      by_cases hexpired : 0 < numExpired (now - options.maxQueuedTime) (q.data.drop b)
      · have hlt : numExpired (now - options.maxQueuedTime) (q.data.drop b) <
            (q.data.drop b).length := by
          have hne : q.data.drop b ≠ [] := by
            intro hnil
            simp [hnil, numExpired] at hexpired
          by_contra hge
          exact hyoung ⟨by omega, hne, by omega⟩
        rw [if_pos ⟨by omega, hexpired⟩, if_pos hlt]
        rfl
      · rw [if_neg (by omega), show numExpired (now - options.maxQueuedTime) (q.data.drop b) = 0
          by omega, List.drop_zero]
        rfl

/-- What `insert` and `requeue` leave in a queue in order of time is what the limits should
keep, exactly if the call is fresh. -/
theorem retained_iff_fresh (q : Queue) (options : QueueOptions) (now : Int) (call : LimitedCall)
    (hc : Chronological (call.content q)) :
    Retained options (call.content q) now (call.exec q options now).data ↔
      call.Fresh q options now := by
  cases call with
  | insert data ts =>
    rw [LimitedCall.Fresh, if_neg (by simp)]
    exact retained_applyLimits_iff { q with data := q.data ++ [⟨data, ts⟩] } options now hc
  | requeue batch =>
    by_cases hb : batch = []
    · rw [LimitedCall.Fresh, if_pos (by rw [hb])]
      simp [hb, LimitedCall.content, LimitedCall.exec, Queue.requeue]
    · rw [LimitedCall.Fresh, if_neg (by simpa using hb)]
      simp only [LimitedCall.exec, Queue.requeue, if_neg hb]
      exact retained_applyLimits_iff { q with data := batch ++ q.data } options now hc

/-- A record of the last second and one of the last minute, with ten seconds for both. -/
theorem retained_young : (LimitedCall.insert [8] 59).Fresh
      { data := [⟨[7], 0⟩] } { maxQueuedTime := 10 } 60 ∧
    Retained { maxQueuedTime := 10 } [⟨[7], 0⟩, ⟨[8], 59⟩] 60
      ((LimitedCall.insert [8] 59).exec
        { data := [⟨[7], 0⟩] } { maxQueuedTime := 10 } 60).data := by
  have hfresh : (LimitedCall.insert [8] 59).Fresh
      { data := [⟨[7], 0⟩] } { maxQueuedTime := 10 } 60 := by
    rw [LimitedCall.Fresh, if_neg (by simp)]
    simp [NewestStale, LimitedCall.content]
  refine ⟨hfresh, (retained_iff_fresh _ _ _ _ ?_).mpr hfresh⟩
  simp [LimitedCall.content, Chronological]

/-- A batch that comes back after a minute is too old, and stays. -/
theorem not_retained_old_batch : Chronological [⟨[7], 0⟩] ∧
    ¬ Retained { maxQueuedTime := 10 } ((LimitedCall.requeue [⟨[7], 0⟩]).content {}) 60
      ((LimitedCall.requeue [⟨[7], 0⟩]).exec {} { maxQueuedTime := 10 } 60).data := by
  refine ⟨List.pairwise_singleton _ _, fun h ↦ ?_⟩
  have hfit : WithinBytes 0 ((LimitedCall.requeue [⟨[7], 0⟩]).content {}) [⟨[7], 0⟩] := by
    simp [WithinBytes, LimitedCall.content]
  have heq := h.eq hfit
  revert heq
  decide

end SMAgent.Pusher
