import SMAgent.Pusher.SnappyConcat

/-!
# Reads into short buffers

`snappy_concat.go:17-29`. The first call of `Read` takes the headers off the streams and notes that
it did so before it finds out that its buffer has no room for the total length. A caller that goes
on gets the bodies without the length. Where there is nothing to decode the length has one byte,
and an empty buffer is not found to be short: the write panics.
-/

namespace SMAgent.Pusher
open SMAgent.Base SMAgent.Base.Snappy SnappyConcatReader

/-- What the caller may do before a call: change memory that is not the records', and choose any
slice of it. -/
structure Prepared (records : List Slice) (m m' : Memory) (out : Slice) : Prop where
  intact : ∀ r ∈ records, m' r.buf = m r.buf
  inBounds : out.InBounds m'
  other : ∀ r ∈ records, r.buf ≠ out.buf

/-- A call of `Read`, whether or not it returns an error. -/
def CallStep (records : List Slice) (s : Reading) (call : Memory × Slice) (s' : Reading) : Prop :=
  Prepared records s.mem call.1 call.2 ∧ ∃ result, s.reader.read call.1 call.2 = .ok result ∧
    s' = ⟨result.mem, result.reader, s.got ++ (result.mem.bytes call.2).take result.n⟩

/-- The length that is written first: the sum of the lengths, a `uint64`. -/
def header (payloads : List (List UInt8)) : List UInt8 :=
  putUvarint (payloads.flatten.length % 2 ^ 64)

/-- The bodies of all streams in order. -/
def bodies (m : Memory) (records : List Slice) : List UInt8 :=
  ((records.map m.bytes).map body).flatten

/-- The block is being delivered: what was returned is the start of it, the next call does not
panic, it returns a byte if it has a buffer, it says that its buffer is short only if it has no
room for the length, and `io.EOF` comes when all was delivered. -/
structure Delivers (records : List Slice) (head rest : List UInt8) (s : Reading) : Prop where
  start : s.got <+: head ++ rest
  next : ∀ m out, Prepared records s.mem m out → ∃ result, s.reader.read m out = .ok result ∧
    (result.err = none → 0 < out.len → 0 < result.n) ∧
    (result.err = some .shortBuffer → out.len < head.length) ∧
    (result.err = some .eof → s.got = head ++ rest)

/-! ### Calls after the first -/

section Begun
variable {records : List Slice} {m₀ m : Memory} {block : List UInt8} {s s' : Reading} {out : Slice}

/-- The first call is over, and this is the block that is delivered. -/
structure Begun (m₀ : Memory) (records : List Slice) (block : List UInt8) (s : Reading) : Prop where
  intact : ∀ r ∈ records, s.mem r.buf = m₀ r.buf
  init : s.reader.init = true
  within : Within s.mem records s.reader.streams
  rest : s.got ++ pending s.mem s.reader.streams = block

private theorem Within.prepared {streams : List Slice} (h : Within s.mem records streams)
    (hp : Prepared records s.mem m out) :
    Within m records streams ∧ pending m streams = pending s.mem streams := by
  have hbuf (t : Slice) (ht : t ∈ streams) : m t.buf = s.mem t.buf := by
    obtain ⟨-, r, hr, hbuf⟩ := h t ht
    rw [hbuf, hp.intact r hr]
  constructor
  · intro t ht
    refine ⟨?_, (h t ht).2⟩
    rw [Slice.InBounds, hbuf t ht]
    exact (h t ht).1
  · unfold pending
    rw [List.map_congr_left]
    intro t ht
    rw [Memory.bytes, hbuf t ht, Memory.bytes]

private theorem Begun.read (h : Begun m₀ records block s) (hp : Prepared records s.mem m out) :
    (s.reader.streams = [] ∧ s.reader.read m out = .ok ⟨m, ⟨[], true⟩, 0, some .eof⟩) ∨
      (s.reader.streams ≠ [] ∧ ∃ rest, s.reader.read m out =
          .ok ⟨m.store out ((pending s.mem s.reader.streams).take out.len), ⟨rest, true⟩,
            min out.len (pending s.mem s.reader.streams).length, none⟩ ∧
        pending m rest = (pending s.mem s.reader.streams).drop out.len ∧
        HeadNonempty rest ∧ Within m records rest) := by
  obtain ⟨hwithin, hpending⟩ := h.within.prepared hp
  have hread : s.reader.read m out = .ok (fill m s.reader.streams out 0) := by
    rw [SnappyConcatReader.read, if_pos h.init]
  by_cases hnil : s.reader.streams = []
  · left
    refine ⟨hnil, ?_⟩
    rw [hread, hnil]
    rfl
  · right
    obtain ⟨rest, hfill, hdrop, hhead, hwithin'⟩ :=
      fill_spec (hwithin.apart hp.other) hp.inBounds 0 (by simp [hnil])
    rw [hpending, Nat.zero_add] at hfill
    rw [hpending] at hdrop
    exact ⟨hnil, rest, hread.trans (congrArg _ hfill), hdrop, hhead, hwithin.trans hwithin'⟩

private theorem Begun.step (h : Begun m₀ records block s) (hstep : CallStep records s (m, out) s') :
    Begun m₀ records block s' ∧ HeadNonempty s'.reader.streams ∧
      s'.got = s.got ++ (pending s.mem s.reader.streams).take out.len := by
  obtain ⟨hp, result, hresult, rfl⟩ := hstep
  dsimp only at hp hresult ⊢
  rcases h.read hp with ⟨hnil, hread⟩ | ⟨-, rest, hread, hdrop, hhead, hwithin⟩
  · obtain rfl := Except.ok.inj (hresult.symm.trans hread)
    have hrest := h.rest
    rw [hnil] at hrest ⊢
    refine ⟨⟨fun r hr ↦ (hp.intact r hr).trans (h.intact r hr), rfl, ?_, ?_⟩, ?_, ?_⟩
    · intro t ht
      cases ht
    · rw [List.take_zero, List.append_nil]
      exact hrest
    · intro t ht
      cases ht
    · rw [List.take_zero]
      exact congrArg _ List.take_nil.symm
  · obtain rfl := Except.ok.inj (hresult.symm.trans hread)
    have hdata := Memory.take_bytes_store hp.inBounds
      (List.length_take_le out.len (pending s.mem s.reader.streams))
    rw [List.length_take] at hdata
    dsimp only at hdata ⊢
    refine ⟨⟨fun r hr ↦ ?_, rfl, ?_, ?_⟩, hhead, by rw [hdata]⟩
    · dsimp only
      rw [Memory.store_of_ne (hp.other r hr), hp.intact r hr, h.intact r hr]
    · exact (within_store hp.other _).mpr hwithin
    · dsimp only
      rw [hdata, pending_store (hwithin.apart hp.other), hdrop, List.append_assoc,
        List.take_append_drop, h.rest]

private theorem Begun.delivers {head rest : List UInt8} (h : Begun m₀ records (head ++ rest) s)
    (hhead : HeadNonempty s.reader.streams) : Delivers records head rest s where
  start := by
    rw [← h.rest]
    exact List.prefix_append _ _
  next m out hp := by
    rcases h.read hp with ⟨hnil, hread⟩ | ⟨hne, streams, hread, -⟩
    · refine ⟨_, hread, ?_, ?_, ?_⟩
      · intro herr
        cases herr
      · intro herr
        cases herr
      · intro _
        rw [← h.rest, hnil]
        exact (List.append_nil s.got).symm
    · refine ⟨_, hread, ?_, ?_, ?_⟩
      · intro _ hpos
        have hlength := List.length_pos_of_ne_nil
          (pending_ne_nil (fun t ht ↦ (h.within t ht).1) hne hhead)
        dsimp only
        omega
      · intro herr
        cases herr
      · intro herr
        cases herr

private theorem Begun.runs {head rest : List UInt8} {calls : List (Memory × Slice)}
    (h : Begun m₀ records (head ++ rest) s) (hhead : HeadNonempty s.reader.streams)
    (hruns : Runs (CallStep records) s calls s') : Delivers records head rest s' := by
  have hstep : ∀ s call s', (Begun m₀ records (head ++ rest) s ∧ HeadNonempty s.reader.streams) →
      CallStep records s call s' →
      Begun m₀ records (head ++ rest) s' ∧ HeadNonempty s'.reader.streams := by
    intro s call s' hs hcall
    obtain ⟨hbegun, hnext, -⟩ := hs.1.step hcall
    exact ⟨hbegun, hnext⟩
  have hinv := hruns.invariant hstep ⟨h, hhead⟩
  exact hinv.1.delivers hinv.2

end Begun

/-! ### The first call -/

section First
variable {records : List Slice} {m₀ m : Memory} {payloads : List (List UInt8)} {out : Slice}

private theorem Prepared.bytes (hp : Prepared records m₀ m out) :
    records.map m.bytes = records.map m₀.bytes :=
  List.map_congr_left fun _ hr ↦ bytes_of_intact hp.intact hr

private theorem Prepared.records_inBounds (hp : Prepared records m₀ m out)
    (hin : ∀ r ∈ records, r.InBounds m₀) : ∀ r ∈ records, r.InBounds m := by
  intro r hr
  rw [Slice.InBounds, hp.intact r hr]
  exact hin r hr

private theorem read_first (hblocks : List.Forall₂ IsBlock (records.map m₀.bytes) payloads)
    (hp : Prepared records m₀ m out) :
    (newConcatReader records).read m out =
      if (header payloads).length ≤ out.len then
        .ok (fill (m.store out (header payloads))
          (records.map fun s ↦ s.after (uvarint (m.bytes s)).2.toNat)
          (out.after (header payloads).length) (header payloads).length)
      else if out.len < maxVarintLen64 ∧ 2 ^ (7 * out.len) ≤ payloads.flatten.length % 2 ^ 64 then
        .ok ⟨m, ⟨records.map fun s ↦ s.after (uvarint (m.bytes s)).2.toNat, true⟩, 0,
          some .shortBuffer⟩
      else .error .indexOutOfRange := by
  rw [SnappyConcatReader.read, if_neg (by simp [newConcatReader]),
    show (newConcatReader records).streams = records from rfl,
    stripHeaders_mod (hp.bytes ▸ hblocks) 0 (by decide), Nat.zero_add]
  dsimp only [bind, Except.bind, pure, Except.pure]
  by_cases hfits : (header payloads).length ≤ out.len
  · rw [if_pos hfits, if_neg (length_putUvarint_le_iff.mp hfits).2]
    exact if_neg (Nat.not_lt.mpr hfits)
  · rw [if_neg hfits]
    split
    · rfl
    · exact if_pos (Nat.not_le.mp hfits)

private theorem begun_first (hin : ∀ r ∈ records, r.InBounds m₀)
    (hblocks : List.Forall₂ IsBlock (records.map m₀.bytes) payloads)
    (hfits : (header payloads).length ≤ out.len) {s : Reading}
    (hstep : CallStep records ⟨m₀, newConcatReader records, []⟩ (m, out) s) :
    Begun m₀ records (header payloads ++ bodies m₀ records) s ∧
      HeadNonempty s.reader.streams := by
  obtain ⟨hp, result, hresult, rfl⟩ := hstep
  dsimp only at hp hresult ⊢
  have hne : header payloads ≠ [] := putUvarint_ne_nil _
  obtain ⟨data, hreturned⟩ :=
    fill_header (hp.records_inBounds hin) hp.inBounds hp.other hne hfits
  rw [hp.bytes] at hreturned
  rw [read_first hblocks hp, if_pos hfits] at hresult
  obtain rfl := Except.ok.inj hresult
  have hdata := Memory.take_bytes_store hp.inBounds hreturned.fits
  rw [← hreturned.mem, ← hreturned.n] at hdata
  refine ⟨⟨fun r hr ↦ ?_, hreturned.init, ?_, ?_⟩, hreturned.head⟩
  · dsimp only
    rw [hreturned.mem, Memory.store_of_ne (hp.other r hr), hp.intact r hr]
  · dsimp only
    rw [hreturned.mem, within_store hp.other]
    exact hreturned.within
  · dsimp only
    rw [hdata, hreturned.mem, pending_store (hreturned.within.apart hp.other), List.nil_append,
      hreturned.rest]
    rfl

private theorem exists_prepared (records : List Slice) (m : Memory) (n : Nat) :
    ∃ m' out, out.len = n ∧ Prepared records m m' out := by
  obtain ⟨b, hb⟩ : ∃ b, ∀ r ∈ records, r.buf < b := by
    induction records with
    | nil => exact ⟨0, fun r hr ↦ absurd hr List.not_mem_nil⟩
    | cons r records ih =>
      obtain ⟨b, hb⟩ := ih
      refine ⟨max (r.buf + 1) b, List.forall_mem_cons.mpr ⟨by omega, fun t ht ↦ ?_⟩⟩
      have := hb t ht
      omega
  refine ⟨Function.update m b (List.replicate n 0), ⟨b, 0, n⟩, rfl, fun r hr ↦ ?_, ?_,
    fun r hr ↦ ?_⟩
  · exact Function.update_of_ne (Nat.ne_of_lt (hb r hr)) _ _
  · show 0 + n ≤ (Function.update m b (List.replicate n 0) b).length
    rw [Function.update_self, List.length_replicate, Nat.zero_add]
  · exact Nat.ne_of_lt (hb r hr)

private theorem begun_short (hin : ∀ r ∈ records, r.InBounds m₀) (hp : Prepared records m₀ m out) :
    Begun m₀ records (bodies m₀ records)
      ⟨m, ⟨records.map fun s ↦ s.after (uvarint (m.bytes s)).2.toNat, true⟩, []⟩ where
  intact := hp.intact
  init := rfl
  within := within_stripped (hp.records_inBounds hin)
  rest := by
    rw [List.nil_append, bodies, ← hp.bytes]
    exact pending_stripped m records

/-- A caller that goes on after a call that was short gets all the bodies, then `io.EOF`. -/
theorem not_delivers_of_short (hin : ∀ r ∈ records, r.InBounds m₀)
    (hblocks : List.Forall₂ IsBlock (records.map m₀.bytes) payloads)
    (hp : Prepared records m₀ m out) (hfits : ¬ (header payloads).length ≤ out.len)
    (hshort : out.len < maxVarintLen64 ∧ 2 ^ (7 * out.len) ≤ payloads.flatten.length % 2 ^ 64) :
    ∃ calls s, Runs (CallStep records) ⟨m₀, newConcatReader records, []⟩ ((m, out) :: calls) s ∧
      ¬ Delivers records (header payloads) (bodies m₀ records) s := by
  have hread := read_first hblocks hp
  rw [if_neg hfits, if_pos hshort] at hread
  have hbegun := begun_short hin hp
  obtain ⟨m', big, hlen, hp'⟩ := exists_prepared records m (bodies m₀ records).length
  obtain ⟨s, hstep⟩ : ∃ s, CallStep records
      ⟨m, ⟨records.map fun s ↦ s.after (uvarint (m.bytes s)).2.toNat, true⟩, []⟩ (m', big) s := by
    rcases hbegun.read hp' with ⟨-, hread⟩ | ⟨-, rest, hread, -⟩
    · exact ⟨_, hp', _, hread, rfl⟩
    · exact ⟨_, hp', _, hread, rfl⟩
  obtain ⟨hnext, hhead, hgot⟩ := hbegun.step hstep
  refine ⟨[(m', big)], s, .cons ⟨hp, _, hread, rfl⟩ (.cons hstep (.nil s)), ?_⟩
  intro hdelivers
  have hall : s.got = bodies m₀ records := by
    have hpending := hbegun.rest
    rw [List.nil_append] at hpending
    rw [hgot, List.nil_append, hpending, hlen, List.take_length]
  have hdone : s.reader.streams = [] := by
    by_contra hne
    have hrest := hnext.rest
    rw [hall, List.append_right_eq_self] at hrest
    exact pending_ne_nil (fun t ht ↦ (hnext.within t ht).1) hne hhead hrest
  obtain ⟨m'', out', -, hp''⟩ := exists_prepared records s.mem 0
  obtain ⟨result, hresult, -, -, heof⟩ := hdelivers.next m'' out' hp''
  rcases hnext.read hp'' with ⟨-, hread⟩ | ⟨hne, -⟩
  · obtain rfl := Except.ok.inj (hresult.symm.trans hread)
    have hwhole := heof rfl
    rw [hall, List.self_eq_append_left] at hwhole
    exact putUvarint_ne_nil _ hwhole
  · exact hne hdone

/-- `snappy_concat.go:17-55`. A first call with room for the length: no call panics, and all the
block is delivered, whatever the later buffers are. A first call without this room: it panics, or
the length is lost. -/
theorem delivers_iff_first_fits (hin : ∀ r ∈ records, r.InBounds m₀)
    (hblocks : List.Forall₂ IsBlock (records.map m₀.bytes) payloads)
    (hp : Prepared records m₀ m out) :
    ((∃ result, (newConcatReader records).read m out = .ok result) ∧
      ∀ calls s, Runs (CallStep records) ⟨m₀, newConcatReader records, []⟩ ((m, out) :: calls) s →
        Delivers records (header payloads) (bodies m₀ records) s) ↔
      (header payloads).length ≤ out.len := by
  constructor
  · rintro ⟨⟨result, hresult⟩, hruns⟩
    by_contra hfits
    by_cases hshort : out.len < maxVarintLen64 ∧
        2 ^ (7 * out.len) ≤ payloads.flatten.length % 2 ^ 64
    · obtain ⟨calls, s, hrun, hnot⟩ := not_delivers_of_short hin hblocks hp hfits hshort
      exact hnot (hruns calls s hrun)
    · rw [read_first hblocks hp, if_neg hfits, if_neg hshort] at hresult
      cases hresult
  · intro hfits
    refine ⟨⟨_, (read_first hblocks hp).trans (if_pos hfits)⟩, ?_⟩
    rintro calls s ⟨⟩
    next s' hstep hruns =>
      obtain ⟨hbegun, hhead⟩ := begun_first hin hblocks hfits hstep
      exact hbegun.runs hhead hruns

end First

/-- One byte has room for the length of the two blocks. -/
theorem delivers_twoBlocks :
    (∃ result, (newConcatReader twoRecords).read twoBlocks ⟨2, 0, 1⟩ = .ok result) ∧
      ∀ calls s, Runs (CallStep twoRecords) ⟨twoBlocks, newConcatReader twoRecords, []⟩
          ((twoBlocks, ⟨2, 0, 1⟩) :: calls) s →
        Delivers twoRecords [6] [0, 97, 0, 98, 1, 1] s := by
  have hp : Prepared twoRecords twoBlocks twoBlocks ⟨2, 0, 1⟩ :=
    ⟨fun _ _ ↦ rfl, (by decide : 0 + 1 ≤ (twoBlocks 2).length), by decide⟩
  exact (delivers_iff_first_fits inBounds_twoRecords isBlock_twoRecords hp).mpr (by decide)

/-- One block, for no data, and a buffer. -/
def emptyBlock : Memory
  | 0 => [0]
  | _ => [0, 0, 0, 0, 0, 0, 0, 0]

/-- An empty buffer is short for the two blocks; the calls after it give the bodies, and then
`io.EOF`. With nothing to decode the call panics. -/
theorem short_first_buffer :
    (∃ s, Runs (CallStep twoRecords) ⟨twoBlocks, newConcatReader twoRecords, []⟩
        [(twoBlocks, ⟨2, 0, 0⟩), (twoBlocks, ⟨2, 0, 4⟩), (twoBlocks, ⟨2, 0, 4⟩)] s ∧
      s.got = [0, 97, 0, 98, 1, 1] ∧
      ∃ result, s.reader.read s.mem ⟨2, 0, 4⟩ = .ok result ∧ result.err = some .eof) ∧
    (newConcatReader [⟨0, 0, 1⟩]).read emptyBlock ⟨1, 0, 0⟩ = .error .indexOutOfRange := by
  have hother : ∀ r ∈ twoRecords, r.buf ≠ 2 := by decide
  have hp (m : Memory) (len : Nat) (hlen : len ≤ 4)
      (hm : ∀ r ∈ twoRecords, twoBlocks r.buf = m r.buf) :
      Prepared twoRecords m twoBlocks ⟨2, 0, len⟩ := by
    refine ⟨hm, ?_, hother⟩
    show 0 + len ≤ 4
    omega
  refine ⟨⟨_, .cons ⟨hp _ 0 (by decide) fun _ _ ↦ rfl, _, rfl, rfl⟩
    (.cons ⟨hp _ 4 (by decide) (by decide), _, rfl, rfl⟩
      (.cons ⟨hp _ 4 (by decide) (by decide), _, rfl, rfl⟩ (.nil _))), by decide, _, rfl, rfl⟩, rfl⟩

end SMAgent.Pusher
