import SMAgent.Base.GoString
import SMAgent.Base.Memory
import SMAgent.Base.Run
import SMAgent.Base.Snappy

/-!
# One Snappy block from many

`internal/pusher/v2/snappy_concat.go` and `queue.go:272-281`. The records of a batch are Snappy
blocks in buffers of their own. The reader gives them out as one block: the sum of their
lengths, and their elements one after the other, in pieces as large as the caller's buffers.
It re-slices its own list of slices and writes into the caller's buffers only, so the same
records can be read again.
-/

namespace SMAgent.Pusher
open SMAgent.Base SMAgent.Base.Snappy

/-- `SnappyConcatReader`. -/
structure SnappyConcatReader where
  streams : List Slice
  init : Bool := false
  deriving DecidableEq, Repr

/-- `newConcatReader`, `queue.go:272-281`. -/
def newConcatReader (records : List Slice) : SnappyConcatReader := { streams := records }

/-- `io.EOF` and `io.ErrShortBuffer`. -/
inductive ReadError where
  | eof
  | shortBuffer
  deriving DecidableEq, Repr

/-- What a call of `Read` returns, and what it leaves. -/
structure ReadResult where
  mem : Memory
  reader : SnappyConcatReader
  n : Nat
  err : Option ReadError

namespace SnappyConcatReader

/-- `stripHeaders`, `snappy_concat.go:57-67`: the sum of the lengths, and the streams without
them. A slice expression with a negative index panics. -/
def stripHeaders (m : Memory) : List Slice → Nat → Except Panic (Nat × List Slice)
  | [], totalLength => .ok (totalLength, [])
  | stream :: streams, totalLength =>
    let (streamLen, skip) := uvarint (m.bytes stream)
    if skip < 0 then .error .indexOutOfRange
    else do
      let (totalLength, streams) ← stripHeaders m streams ((totalLength + streamLen) % 2 ^ 64)
      return (totalLength, stream.after skip.toNat :: streams)

/-- The loop that copies all the streams that fit, `snappy_concat.go:36-43`. -/
def copyFitting : List Slice → Memory → Slice → Nat → Memory × List Slice × Slice × Nat
  | [], m, out, n => (m, [], out, n)
  | stream :: streams, m, out, n =>
    if stream.len ≤ out.len then
      copyFitting streams (m.store out (m.bytes stream)) (out.after stream.len) (n + stream.len)
    else (m, stream :: streams, out, n)

/-- Copy a partial stream if there is room, `snappy_concat.go:45-52`. -/
def copyPartial (m : Memory) (out : Slice) (n : Nat) : List Slice → Memory × List Slice × Nat
  | [] => (m, [], n)
  | stream :: streams =>
    if 0 < out.len then
      (m.store out ((m.bytes stream).take out.len), stream.after out.len :: streams, n + out.len)
    else (m, stream :: streams, n)

/-- `snappy_concat.go:36-52`. -/
def copyStreams (streams : List Slice) (m : Memory) (out : Slice) (n : Nat) :
    Memory × List Slice × Nat :=
  let (m, streams, out, n) := copyFitting streams m out n
  copyPartial m out n streams

/-- `snappy_concat.go:31-54`, with `n` bytes written before `out`. -/
def fill (m : Memory) (streams : List Slice) (out : Slice) (n : Nat) : ReadResult :=
  if n = 0 ∧ streams = [] then ⟨m, ⟨streams, true⟩, 0, some .eof⟩
  else
    let (m, streams, n) := copyStreams streams m out n
    ⟨m, ⟨streams, true⟩, n, none⟩

/-- `Read`, `snappy_concat.go:17-55`. `PutUvarint` panics where its buffer has no room. -/
def read (m : Memory) (s : SnappyConcatReader) (out : Slice) : Except Panic ReadResult :=
  if s.init then .ok (fill m s.streams out 0)
  else do
    let (decodedLen, streams) ← stripHeaders m s.streams 0
    if out.len < maxVarintLen64 ∧ 2 ^ (7 * out.len) ≤ decodedLen then
      return ⟨m, ⟨streams, true⟩, 0, some .shortBuffer⟩
    let written := putUvarint decodedLen
    if out.len < written.length then .error .indexOutOfRange
    else return fill (m.store out written) streams (out.after written.length) written.length

end SnappyConcatReader

/-! ### One call -/

open SnappyConcatReader

variable {m : Memory} {streams : List Slice} {out : Slice}

/-- The bytes that the streams still have. -/
def pending (m : Memory) (streams : List Slice) : List UInt8 := (streams.map m.bytes).flatten

/-- The first stream has bytes; only then does a call return some. -/
def HeadNonempty (streams : List Slice) : Prop := ∀ s ∈ streams.head?, 0 < s.len

/-- The slices lie in their buffers, and not in the one of `out`. -/
def Apart (m : Memory) (out : Slice) (streams : List Slice) : Prop :=
  ∀ s ∈ streams, s.InBounds m ∧ s.buf ≠ out.buf

/-- The slices lie in their buffers, which are buffers of the `records`. -/
def Within (m : Memory) (records streams : List Slice) : Prop :=
  ∀ s ∈ streams, s.InBounds m ∧ ∃ r ∈ records, s.buf = r.buf

/-- Streams of records in other buffers are apart from the caller's. -/
theorem Within.apart {records : List Slice} (h : Within m records streams)
    (hother : ∀ r ∈ records, r.buf ≠ out.buf) : Apart m out streams := by
  intro s hs
  obtain ⟨hin, r, hr, hbuf⟩ := h s hs
  exact ⟨hin, hbuf ▸ hother r hr⟩

/-- What is within streams of records is within the records. -/
theorem Within.trans {records t : List Slice} (h : Within m records t)
    (hstreams : Within m t streams) : Within m records streams := by
  intro s hs
  obtain ⟨hin, r, hr, hbuf⟩ := hstreams s hs
  obtain ⟨-, r', hr', hbuf'⟩ := h r hr
  exact ⟨hin, r', hr', hbuf.trans hbuf'⟩

/-- Writing elsewhere does not matter. -/
theorem within_store {records : List Slice} (hother : ∀ r ∈ records, r.buf ≠ out.buf)
    (data : List UInt8) : Within (m.store out data) records streams ↔ Within m records streams := by
  apply forall₂_congr
  intro s _
  apply and_congr_left
  rintro ⟨r, hr, hbuf⟩
  rw [Slice.InBounds, Memory.store_of_ne (hbuf ▸ hother r hr), Slice.InBounds]

/-- Writing to the caller's buffer leaves the streams alone. -/
theorem pending_store (h : Apart m out streams) (data : List UInt8) :
    pending (m.store out data) streams = pending m streams := by
  unfold pending
  rw [List.map_congr_left]
  intro s hs
  exact Memory.bytes_store_of_ne (h s hs).2 data

private theorem Apart.store (h : Apart m out streams) (data : List UInt8) (n : Nat) :
    Apart (m.store out data) (out.after n) streams := by
  intro s hs
  exact ⟨Memory.inBounds_store_of_ne (h s hs).2 data (h s hs).1, (h s hs).2⟩

/-- The writes of a call are one write: as many pending bytes as there is room for. -/
theorem copyStreams_spec (n : Nat) (h : Apart m out streams) (hout : out.InBounds m) :
    ∃ rest, copyStreams streams m out n =
        (m.store out ((pending m streams).take out.len), rest,
          n + min out.len (pending m streams).length) ∧
      pending m rest = (pending m streams).drop out.len ∧ HeadNonempty rest ∧
      Within m streams rest := by
  induction streams generalizing m out n with
  | nil => exact ⟨[], by simp [copyStreams, copyFitting, copyPartial, pending, Memory.store_nil],
      by simp [pending], by simp [HeadNonempty], by simp [Within]⟩
  | cons s streams ih =>
    obtain ⟨⟨hin, hne⟩, hrest⟩ := List.forall_mem_cons.mp h
    have hlen : (m.bytes s).length = s.len := Memory.length_bytes hin
    have hself : Within m (s :: streams) streams :=
      fun t ht ↦ ⟨(hrest t ht).1, t, List.mem_cons_of_mem _ ht, rfl⟩
    have hpending : pending m (s :: streams) = m.bytes s ++ pending m streams := rfl
    by_cases hfits : s.len ≤ out.len
    · -- the stream is written, and what follows is written behind it
      have hwhole : (m.bytes s).length ≤ out.len := by omega
      have hstep : copyStreams (s :: streams) m out n =
          copyStreams streams (m.store out (m.bytes s)) (out.after s.len) (n + s.len) := by
        rw [copyStreams, copyFitting, if_pos hfits]
        rfl
      have hapart : Apart m out streams := hrest
      obtain ⟨rest, hcopy, hdrop, hhead, hwithin⟩ :=
        ih (n + s.len) (hapart.store (m.bytes s) s.len)
          (Memory.inBounds_after (Memory.inBounds_store hout hwhole) hfits)
      rw [within_store fun r hr ↦ (hrest r hr).2] at hwithin
      rw [pending_store hapart] at hcopy hdrop
      rw [pending_store (hwithin.apart fun r hr ↦ (hrest r hr).2)] at hdrop
      refine ⟨rest, ?_, ?_, hhead, hself.trans hwithin⟩
      · have hroom : (m.bytes s).length +
            ((pending m streams).take (out.len - s.len)).length ≤ out.len := by
          rw [List.length_take]
          omega
        have hstore := Memory.store_store hout hroom
        rw [hlen] at hstore
        rw [hstep, hcopy, Memory.after_len, hstore, hpending, List.take_append,
          List.take_of_length_le hwhole, List.length_append, hlen]
        simp only [Prod.mk.injEq, true_and]
        omega
      · rw [hdrop, hpending, Memory.after_len, List.drop_append, hlen,
          List.drop_eq_nil_of_le hwhole, List.nil_append]
    · have hstep : copyStreams (s :: streams) m out n = copyPartial m out n (s :: streams) := by
        rw [copyStreams, copyFitting, if_neg hfits]
      by_cases hroom : 0 < out.len
      · refine ⟨s.after out.len :: streams, ?_, ?_, ?_, ?_⟩
        · rw [hstep, copyPartial, if_pos hroom, hpending,
            List.take_append_of_le_length (by omega), List.length_append, hlen,
            Nat.min_eq_left (by omega)]
        · rw [hpending, List.drop_append_of_le_length (by omega), ← Memory.bytes_after]
          rfl
        · intro t ht
          cases ht
          rw [Memory.after_len]
          omega
        · exact List.forall_mem_cons.mpr
            ⟨⟨Memory.inBounds_after hin (by omega), s, List.mem_cons_self, rfl⟩, hself⟩
      · have hzero : out.len = 0 := by omega
        refine ⟨s :: streams, ?_, ?_, ?_, fun t ht ↦ ⟨(h t ht).1, t, ht, rfl⟩⟩
        · rw [hstep, copyPartial, if_neg hroom, hzero, List.take_zero, Memory.store_nil,
            Nat.zero_min, Nat.add_zero]
        · rw [hzero, List.drop_zero]
        · intro t ht
          cases ht
          omega

/-- `fill` writes as many pending bytes as there is room for. -/
theorem fill_spec (h : Apart m out streams) (hout : out.InBounds m) (n : Nat)
    (hsome : ¬ (n = 0 ∧ streams = [])) :
    ∃ rest, fill m streams out n = ⟨m.store out ((pending m streams).take out.len),
        ⟨rest, true⟩, n + min out.len (pending m streams).length, none⟩ ∧
      pending m rest = (pending m streams).drop out.len ∧ HeadNonempty rest ∧
      Within m streams rest := by
  obtain ⟨rest, hcopy, hdrop, hhead, hwithin⟩ := copyStreams_spec n h hout
  refine ⟨rest, ?_, hdrop, hhead, hwithin⟩
  rw [fill, if_neg hsome, hcopy]

/-- The headers of valid blocks are stripped, and their lengths added up as a `uint64`. -/
theorem stripHeaders_mod {records : List Slice} {payloads : List (List UInt8)}
    (h : List.Forall₂ IsBlock (records.map m.bytes) payloads) (total : Nat)
    (htotal : total < 2 ^ 64) :
    stripHeaders m records total = .ok ((total + payloads.flatten.length) % 2 ^ 64,
      records.map fun s ↦ s.after (uvarint (m.bytes s)).2.toNat) := by
  induction records generalizing payloads total with
  | nil =>
    rw [List.map_nil, List.forall₂_nil_left_iff] at h
    subst h
    rw [List.flatten_nil, List.length_nil, Nat.add_zero, Nat.mod_eq_of_lt htotal]
    rfl
  | cons s records ih =>
    obtain ⟨payload, rest, hblock, hblocks, rfl⟩ := List.forall₂_cons_left_iff.mp h
    have hskip := hblock.complete
    rw [stripHeaders]
    dsimp only
    rw [if_neg (by omega), hblock.length, ih hblocks _ (Nat.mod_lt _ (by decide)),
      List.flatten_cons, List.length_append, Nat.mod_add_mod, Nat.add_assoc]
    rfl

/-- The lengths of streams that are not too many are added up. -/
theorem stripHeaders_spec {records : List Slice} {payloads : List (List UInt8)}
    (h : List.Forall₂ IsBlock (records.map m.bytes) payloads) (total : Nat)
    (hsmall : total + payloads.flatten.length < 2 ^ 64) :
    stripHeaders m records total = .ok (total + payloads.flatten.length,
      records.map fun s ↦ s.after (uvarint (m.bytes s)).2.toNat) := by
  rw [stripHeaders_mod h total (by omega), Nat.mod_eq_of_lt hsmall]

/-- A buffer that may be passed to `Read`: it is not empty, and not one of the records'. -/
structure Usable (records : List Slice) (m : Memory) (out : Slice) : Prop where
  nonempty : 0 < out.len
  inBounds : out.InBounds m
  other : ∀ r ∈ records, r.buf ≠ out.buf

/-- A call that returned `data`, the start of `tail`, and keeps the rest of it. -/
structure Returned (records : List Slice) (m : Memory) (out : Slice) (tail data : List UInt8)
    (result : ReadResult) : Prop where
  err : result.err = none
  mem : result.mem = m.store out data
  n : result.n = data.length
  ne_nil : data ≠ []
  fits : data.length ≤ out.len
  init : result.reader.init = true
  head : HeadNonempty result.reader.streams
  within : Within m records result.reader.streams
  rest : data ++ pending m result.reader.streams = tail

variable {records : List Slice} {s : SnappyConcatReader}

/-- Streams with a first byte have bytes pending. -/
theorem pending_ne_nil (hin : ∀ t ∈ streams, t.InBounds m) (hne : streams ≠ [])
    (hhead : HeadNonempty streams) : pending m streams ≠ [] := by
  cases streams with
  | nil => exact absurd rfl hne
  | cons t streams =>
    have hlen := Memory.length_bytes (hin t List.mem_cons_self)
    have hpos := hhead t rfl
    intro hnil
    rw [pending, List.map_cons, List.flatten_cons, List.append_eq_nil_iff] at hnil
    rw [hnil.1, List.length_nil] at hlen
    omega

private theorem read_begun (hinit : s.init = true) (hwithin : Within m records s.streams)
    (hhead : HeadNonempty s.streams) (hout : Usable records m out) :
    (s.streams = [] ∧ s.read m out = .ok ⟨m, s, 0, some .eof⟩) ∨
      ∃ data result, s.read m out = .ok result ∧
        Returned records m out (pending m s.streams) data result := by
  obtain ⟨streams, init⟩ := s
  dsimp only at hinit hwithin hhead ⊢
  subst hinit
  rw [SnappyConcatReader.read, if_pos rfl]
  by_cases hnil : streams = []
  · left
    subst hnil
    exact ⟨rfl, rfl⟩
  · right
    obtain ⟨rest, hfill, hdrop, hhead', hwithin'⟩ :=
      fill_spec (hwithin.apart hout.other) hout.inBounds 0 (by simp [hnil])
    have hpending := pending_ne_nil (fun t ht ↦ (hwithin t ht).1) hnil hhead
    refine ⟨_, _, congrArg _ hfill, rfl, rfl, ?_, ?_, ?_, rfl, hhead', hwithin.trans hwithin', ?_⟩
    · rw [Nat.zero_add, List.length_take]
    · have := hout.nonempty
      simp only [ne_eq, List.take_eq_nil_iff, not_or]
      exact ⟨by omega, hpending⟩
    · exact List.length_take_le _ _
    · rw [hdrop, List.take_append_drop]

/-- The bytes that follow the headers. -/
theorem pending_stripped (m : Memory) (records : List Slice) :
    pending m (records.map fun s ↦ s.after (uvarint (m.bytes s)).2.toNat) =
      ((records.map m.bytes).map body).flatten := by
  rw [pending, List.map_map, List.map_map]
  congr 1
  apply List.map_congr_left
  intro r _
  exact Memory.bytes_after _ _ _

/-- What follows a length is in its record. -/
theorem within_stripped (hin : ∀ r ∈ records, r.InBounds m) :
    Within m records (records.map fun s ↦ s.after (uvarint (m.bytes s)).2.toNat) := by
  intro t ht
  obtain ⟨r, hr, rfl⟩ := List.mem_map.mp ht
  refine ⟨Memory.inBounds_after (hin r hr) ?_, r, hr, rfl⟩
  have := uvarint_le (m.bytes r)
  rw [Memory.length_bytes (hin r hr)] at this
  omega

/-- A length that has room, and what has room behind it. -/
theorem fill_header {written : List UInt8} (hin : ∀ r ∈ records, r.InBounds m)
    (hout : out.InBounds m) (hother : ∀ r ∈ records, r.buf ≠ out.buf) (hne : written ≠ [])
    (hheader : written.length ≤ out.len) :
    ∃ data, Returned records m out (written ++ ((records.map m.bytes).map body).flatten) data
      (fill (m.store out written)
        (records.map fun s ↦ s.after (uvarint (m.bytes s)).2.toNat)
        (out.after written.length) written.length) := by
  have hwithin := within_stripped hin
  have hapart := hwithin.apart hother
  obtain ⟨rest, hfill, hdrop, hhead, hwithin'⟩ :=
    fill_spec (hapart.store written written.length)
      (Memory.inBounds_after (Memory.inBounds_store hout hheader) hheader)
      written.length (by simp [hne])
  rw [pending_store hapart, pending_stripped] at hfill hdrop
  rw [within_store fun t ht ↦ (hapart t ht).2] at hwithin'
  rw [pending_store (hwithin'.apart fun t ht ↦ (hapart t ht).2)] at hdrop
  refine ⟨written ++ (((records.map m.bytes).map body).flatten).take (out.len - written.length), ?_⟩
  rw [hfill]
  refine ⟨rfl, ?_, ?_, ?_, ?_, rfl, hhead, hwithin.trans hwithin', ?_⟩
  · rw [Memory.after_len]
    refine Memory.store_store hout ?_
    rw [List.length_take]
    omega
  · rw [List.length_append, List.length_take, Memory.after_len]
  · simp [hne]
  · rw [List.length_append, List.length_take]
    omega
  · rw [hdrop, Memory.after_len, List.append_assoc, List.take_append_drop]

private theorem read_fresh {payloads : List (List UInt8)} (hinit : s.init = false)
    (hstreams : s.streams = records) (hin : ∀ r ∈ records, r.InBounds m)
    (hblocks : List.Forall₂ IsBlock (records.map m.bytes) payloads)
    (hsmall : payloads.flatten.length < 2 ^ 32) (hout : Usable records m out) :
    (∃ s', s.read m out = .ok ⟨m, s', 0, some .shortBuffer⟩) ∨
      ∃ data result, s.read m out = .ok result ∧
        Returned records m out (putUvarint payloads.flatten.length ++
          ((records.map m.bytes).map body).flatten) data result := by
  rw [SnappyConcatReader.read, if_neg (by simp [hinit]), hstreams,
    stripHeaders_spec hblocks 0 (by omega), Nat.zero_add]
  dsimp only [bind, Except.bind, pure, Except.pure]
  by_cases hshort : out.len < maxVarintLen64 ∧ 2 ^ (7 * out.len) ≤ payloads.flatten.length
  · left
    rw [if_pos hshort]
    exact ⟨_, rfl⟩
  · right
    have hheader : (putUvarint payloads.flatten.length).length ≤ out.len :=
      length_putUvarint_le_iff.mpr ⟨hout.nonempty, hshort⟩
    rw [if_neg hshort, if_neg (Nat.not_lt.mpr hheader)]
    obtain ⟨data, hreturned⟩ := fill_header hin hout.inBounds hout.other
      (putUvarint_ne_nil payloads.flatten.length) hheader
    exact ⟨data, _, rfl, hreturned⟩

/-! ### All calls -/

/-- A reader in use: the memory, the reader, and the bytes that were returned. -/
structure Reading where
  mem : Memory
  reader : SnappyConcatReader
  got : List UInt8

/-- A call of `Read` that returns no error. -/
def ReadStep (records : List Slice) (s : Reading) (out : Slice) (s' : Reading) : Prop :=
  Usable records s.mem out ∧ ∃ result, s.reader.read s.mem out = .ok result ∧
    result.err = none ∧
    s' = ⟨result.mem, result.reader, s.got ++ (result.mem.bytes out).take result.n⟩

/-- The block that the reader gives out. -/
def concatenation (m : Memory) (records : List Slice) (payloads : List (List UInt8)) :
    List UInt8 :=
  putUvarint payloads.flatten.length ++ ((records.map m.bytes).map body).flatten

/-- What holds after the calls with the buffers `outs` that returned no error. -/
structure Reads (m₀ : Memory) (records : List Slice) (payloads : List (List UInt8))
    (outs : List Slice) (s : Reading) : Prop where
  /-- The buffers of the records are not modified. -/
  intact : ∀ r ∈ records, s.mem r.buf = m₀ r.buf
  /-- The calls returned the start of the block, each at least one byte of it. -/
  start : s.got <+: concatenation m₀ records payloads
  advance : outs.length ≤ s.got.length
  /-- The next call does not panic, leaves the records alone and returns at least one byte, or
  the block is complete and decodes to all the payloads, or the first buffer is too short. -/
  next : ∀ out, Usable records s.mem out → ∃ result, s.reader.read s.mem out = .ok result ∧
    (∀ r ∈ records, result.mem r.buf = m₀ r.buf) ∧
    ((result.err = none ∧ 0 < result.n ∧ result.n ≤ out.len) ∨
      (result.err = some .eof ∧ IsBlock s.got payloads.flatten) ∨
      (result.err = some .shortBuffer ∧ outs = []))

/-- How the reader stands between two calls. -/
structure ReadInv (m₀ : Memory) (records : List Slice) (block : List UInt8) (s : Reading) :
    Prop where
  intact : ∀ r ∈ records, s.mem r.buf = m₀ r.buf
  fresh : s.reader.init = false → s.reader.streams = records ∧ s.got = []
  begun : s.reader.init = true → HeadNonempty s.reader.streams ∧
    Within s.mem records s.reader.streams ∧ s.got ++ pending s.mem s.reader.streams = block

section Calls

variable {m₀ : Memory} {payloads : List (List UInt8)} {s s' : Reading}

/-- Records that are intact have their bytes. -/
theorem bytes_of_intact (h : ∀ r ∈ records, m r.buf = m₀ r.buf) {r : Slice} (hr : r ∈ records) :
    m.bytes r = m₀.bytes r := by
  rw [Memory.bytes, h r hr, Memory.bytes]

private theorem ReadInv.read (h : ReadInv m₀ records (concatenation m₀ records payloads) s)
    (hin : ∀ r ∈ records, r.InBounds m₀)
    (hblocks : List.Forall₂ IsBlock (records.map m₀.bytes) payloads)
    (hsmall : payloads.flatten.length < 2 ^ 32) (hout : Usable records s.mem out) :
    (∃ s', s.reader.read s.mem out = .ok ⟨s.mem, s', 0, some .shortBuffer⟩ ∧
        s.reader.init = false) ∨
      (s.reader.read s.mem out = .ok ⟨s.mem, s.reader, 0, some .eof⟩ ∧
        s.got = concatenation m₀ records payloads) ∨
      ∃ tail data result, s.reader.read s.mem out = .ok result ∧
        Returned records s.mem out tail data result ∧
        s.got ++ tail = concatenation m₀ records payloads := by
  have hbytes : records.map s.mem.bytes = records.map m₀.bytes :=
    List.map_congr_left fun r hr ↦ bytes_of_intact h.intact hr
  cases hinit : s.reader.init with
  | false =>
    obtain ⟨hstreams, hgot⟩ := h.fresh hinit
    have hin' : ∀ r ∈ records, r.InBounds s.mem := by
      intro r hr
      rw [Slice.InBounds, h.intact r hr]
      exact hin r hr
    rcases read_fresh hinit hstreams hin' (by rwa [hbytes]) hsmall hout with
      ⟨s', hread⟩ | ⟨data, result, hread, hreturned⟩
    · exact .inl ⟨s', hread, rfl⟩
    · rw [hbytes] at hreturned
      exact .inr (.inr ⟨_, data, result, hread, hreturned, by rw [hgot]; rfl⟩)
  | true =>
    obtain ⟨hhead, hwithin, hrest⟩ := h.begun hinit
    rcases read_begun hinit hwithin hhead hout with ⟨hnil, hread⟩ | ⟨data, result, hread, hreturned⟩
    · refine .inr (.inl ⟨hread, ?_⟩)
      rwa [hnil, pending, List.map_nil, List.flatten_nil, List.append_nil] at hrest
    · exact .inr (.inr ⟨_, data, result, hread, hreturned, hrest⟩)

private theorem ReadInv.returned {block tail data : List UInt8} {result : ReadResult}
    (h : ReadInv m₀ records block s) (hout : Usable records s.mem out)
    (hreturned : Returned records s.mem out tail data result) (htail : s.got ++ tail = block) :
    ReadInv m₀ records block
      ⟨result.mem, result.reader, s.got ++ (result.mem.bytes out).take result.n⟩ := by
  have hdata : (result.mem.bytes out).take result.n = data := by
    rw [hreturned.mem, hreturned.n]
    exact Memory.take_bytes_store hout.inBounds hreturned.fits
  refine ⟨?_, ?_, ?_⟩
  · intro r hr
    dsimp only
    rw [hreturned.mem, Memory.store_of_ne (hout.other r hr), h.intact r hr]
  · intro hinit
    rw [hreturned.init] at hinit
    cases hinit
  · intro _
    refine ⟨hreturned.head, ?_, ?_⟩
    · dsimp only
      rw [hreturned.mem, within_store hout.other]
      exact hreturned.within
    · dsimp only
      rw [hdata, hreturned.mem, pending_store (hreturned.within.apart hout.other),
        List.append_assoc, hreturned.rest, htail]

section

variable (hin : ∀ r ∈ records, r.InBounds m₀)
  (hblocks : List.Forall₂ IsBlock (records.map m₀.bytes) payloads)
  (hsmall : payloads.flatten.length < 2 ^ 32)
  (h : ReadInv m₀ records (concatenation m₀ records payloads) s)
include hin hblocks hsmall h

private theorem ReadInv.step (hstep : ReadStep records s out s') :
    ReadInv m₀ records (concatenation m₀ records payloads) s' ∧
      s.got.length < s'.got.length := by
  obtain ⟨hout, result, hread, hnone, rfl⟩ := hstep
  rcases h.read hin hblocks hsmall hout with
    ⟨_, hshort, -⟩ | ⟨heof, -⟩ | ⟨tail, data, result', hread', hreturned, htail⟩
  · rw [hread] at hshort
    cases hshort
    cases hnone
  · rw [hread] at heof
    cases heof
    cases hnone
  · rw [hread] at hread'
    cases hread'
    refine ⟨h.returned hout hreturned htail, ?_⟩
    have hpos := List.length_pos_of_ne_nil hreturned.ne_nil
    have hdata := Memory.take_bytes_store hout.inBounds hreturned.fits
    rw [← hreturned.mem, ← hreturned.n] at hdata
    rw [List.length_append, hdata]
    omega

private theorem ReadInv.runs {outs : List Slice} (hruns : Runs (ReadStep records) s outs s') :
    ReadInv m₀ records (concatenation m₀ records payloads) s' ∧
      s.got.length + outs.length ≤ s'.got.length := by
  induction hruns with
  | nil s => exact ⟨h, by simp⟩
  | cons hstep _ ih =>
    obtain ⟨hnext, hlt⟩ := h.step hin hblocks hsmall hstep
    obtain ⟨hlast, hle⟩ := ih hnext
    refine ⟨hlast, ?_⟩
    rw [List.length_cons]
    omega

end

private theorem ReadInv.start {block : List UInt8} (h : ReadInv m₀ records block s) :
    s.got <+: block := by
  cases hinit : s.reader.init with
  | false =>
    rw [(h.fresh hinit).2]
    exact List.nil_prefix
  | true =>
    rw [← (h.begun hinit).2.2]
    exact List.prefix_append _ _

end Calls

/-- Records that are valid blocks are read as one valid block for all their data, whatever the
sizes of the buffers. -/
theorem reads_concatenation {m₀ : Memory} {payloads : List (List UInt8)} {outs : List Slice}
    {s : Reading} (hin : ∀ r ∈ records, r.InBounds m₀)
    (hblocks : List.Forall₂ IsBlock (records.map m₀.bytes) payloads)
    (hsmall : payloads.flatten.length < 2 ^ 32)
    (h : Runs (ReadStep records) ⟨m₀, newConcatReader records, []⟩ outs s) :
    Reads m₀ records payloads outs s := by
  have hinit : ReadInv m₀ records (concatenation m₀ records payloads)
      ⟨m₀, newConcatReader records, []⟩ :=
    ⟨fun _ _ ↦ rfl, fun _ ↦ ⟨rfl, rfl⟩, fun h ↦ by cases h⟩
  obtain ⟨hinv, hle⟩ := hinit.runs hin hblocks hsmall h
  have hadvance : outs.length ≤ s.got.length := by simpa using hle
  refine ⟨hinv.intact, hinv.start, hadvance, ?_⟩
  intro out hout
  rcases hinv.read hin hblocks hsmall hout with
    ⟨s', hread, hfresh⟩ | ⟨hread, hgot⟩ | ⟨tail, data, result, hread, hreturned, htail⟩
  · refine ⟨_, hread, hinv.intact, .inr (.inr ⟨rfl, ?_⟩)⟩
    rw [(hinv.fresh hfresh).2] at hadvance
    exact List.eq_nil_of_length_eq_zero (Nat.le_zero.mp hadvance)
  · refine ⟨_, hread, hinv.intact, .inr (.inl ⟨rfl, ?_⟩)⟩
    rw [hgot]
    exact isBlock_concat hblocks hsmall
  · refine ⟨result, hread, (hinv.returned hout hreturned htail).intact,
      .inl ⟨hreturned.err, ?_, ?_⟩⟩
    · rw [hreturned.n]
      exact List.length_pos_of_ne_nil hreturned.ne_nil
    · rw [hreturned.n]
      exact hreturned.fits

/-- Two blocks, for `a` and for `bbbbb`, the second one with a copy, and a buffer to read
into. -/
def twoBlocks : Memory
  | 0 => [1, 0, 97]
  | 1 => [5, 0, 98, 1, 1]
  | _ => [0, 0, 0, 0]

/-- The records of `twoBlocks`. -/
def twoRecords : List Slice := [⟨0, 0, 3⟩, ⟨1, 0, 5⟩]

/-- The two records are in bounds. -/
theorem inBounds_twoRecords : ∀ r ∈ twoRecords, r.InBounds twoBlocks := by
  intro r hr
  simp only [twoRecords, List.mem_cons, List.not_mem_nil, or_false] at hr
  rcases hr with rfl | rfl
  · exact Nat.le_refl 3
  · exact Nat.le_refl 5

/-- The two records are blocks. -/
theorem isBlock_twoRecords : List.Forall₂ IsBlock (twoRecords.map twoBlocks.bytes)
    [[97], [98, 98, 98, 98, 98]] :=
  .cons (by decide) (.cons (by decide) .nil)

/-- Two calls read both blocks as one. -/
theorem reads_twoBlocks : ∃ s, Runs (ReadStep twoRecords)
    ⟨twoBlocks, newConcatReader twoRecords, []⟩ [⟨2, 0, 4⟩, ⟨2, 1, 3⟩] s ∧
    s.got = [6, 0, 97, 0, 98, 1, 1] ∧
    Reads twoBlocks twoRecords [[97], [98, 98, 98, 98, 98]] [⟨2, 0, 4⟩, ⟨2, 1, 3⟩] s := by
  have husable (m : Memory) (off len : Nat) (hpos : 0 < len)
      (hlen : off + len ≤ (m 2).length) : Usable twoRecords m ⟨2, off, len⟩ :=
    ⟨hpos, hlen, (by decide : ∀ r ∈ twoRecords, r.buf ≠ 2)⟩
  have hrun : ∃ s, Runs (ReadStep twoRecords) ⟨twoBlocks, newConcatReader twoRecords, []⟩
      [⟨2, 0, 4⟩, ⟨2, 1, 3⟩] s ∧ s.got = [6, 0, 97, 0, 98, 1, 1] :=
    ⟨_, .cons ⟨husable _ _ _ (by decide) (by decide), _, rfl, rfl, rfl⟩
      (.cons ⟨husable _ _ _ (by decide) (by decide), _, rfl, rfl, rfl⟩ (.nil _)), by decide⟩
  obtain ⟨s, hs, hgot⟩ := hrun
  exact ⟨s, hs, hgot,
    reads_concatenation inBounds_twoRecords isBlock_twoRecords (by decide) hs⟩

end SMAgent.Pusher
