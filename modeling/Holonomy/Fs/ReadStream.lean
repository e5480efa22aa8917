import Holonomy.Foundation.Machine

/-!
# Read streams of the memory filesystem

A read stream remembers where in its file it is and where it ends, both fixed when it is opened.
Each credit sends one chunk of what the file holds by then, or the end.
-/

namespace Holonomy.Fs

open Foundation

/-- The limits that a single file and its streams are checked against. -/
structure MemoryFsLimits where
  maxChunkBytes : ℕ
  maxFileBytes : ℕ

/-- The limits of a provider that is given none. -/
def DEFAULT_LIMITS : MemoryFsLimits where
  maxChunkBytes := 64 * 1024
  maxFileBytes := 16 * 1024 * 1024

/-- The largest integer that the engine tells from its neighbours. -/
def maxSafeInteger : ℤ := 2 ^ 53 - 1

/-- A stream as it was opened and as far as it has come. -/
structure StreamRecord where
  cursor : ℕ
  end_ : ℕ
  chunkSize : ℕ
  sequence : ℕ

/-- A chunk event. -/
structure ChunkEvent where
  sequence : ℕ
  data : List UInt8
deriving DecidableEq

/-- A file, and the stream that one call opens on it: its record once it is opened, whether it is
registered, the loops of `grantCredits` that go on, innermost first, with the credits they have
left, and what the sink was given. -/
structure FileStream where
  data : List UInt8
  record : Option StreamRecord
  registered : Bool
  loops : List ℕ
  chunks : List ChunkEvent
  bytesRead : Option ℕ

/-- The number of bytes that the chunks carry. -/
def delivered (chunks : List ChunkEvent) : ℕ := (chunks.map fun chunk => chunk.data.length).sum

/-- The stream that `openReadStream` opens on a file of some size, unless the chunk size is
refused. -/
def openReadStream (limits : MemoryFsLimits) (byteLength start : ℕ) (endExclusive : Option ℕ)
    (chunkSize : ℕ) : Option StreamRecord :=
  if chunkSize = 0 ∨ limits.maxChunkBytes < chunkSize then none
  else some {
    cursor := min start byteLength
    end_ := min (endExclusive.getD byteLength) byteLength
    chunkSize
    sequence := 0 }

/-- The bytes of a file after `handleWrite`; a gap before them is filled with zeros. -/
def overwrite (data : List UInt8) (start : ℕ) (binary : List UInt8) : List UInt8 :=
  data.take start ++ List.replicate (start - data.length) 0 ++ binary ++
    data.drop (start + binary.length)

/-- What happens to a file and its stream. What is refused, moves or removes the file's entry, or
touches other files does not change the two. -/
inductive StreamEvent where
  | createReadStream (start : ℕ) (endExclusive : Option ℕ) (chunkSize : ℕ)
  | grantCredits (credits : ℤ)
  /-- The innermost loop of `grantCredits` goes on. -/
  | proceed
  /-- A write at the end of the file, or at a position. -/
  | handleWrite (append : Bool) (position : ℕ) (binary : List UInt8)
  /-- The file is opened with a flag that truncates it. -/
  | openTruncate
  /-- The call is cancelled, or the provider is disposed of. -/
  | cancel

namespace FileStream

variable {limits : MemoryFsLimits}

/-- One round of the innermost loop; the sequence number is taken before the sink is called, which
may grant further credits. -/
def proceed (stream : FileStream) : Option FileStream :=
  match stream.loops, stream.record with
  | (credits + 1) :: loops, some record =>
    if stream.registered = false then some { stream with loops }
    else if record.end_ ≤ record.cursor then
      some { stream with registered := false, loops, bytesRead := some record.cursor }
    else
      let stop := min record.end_ (record.cursor + record.chunkSize)
      some { stream with
        record := some { record with cursor := stop, sequence := record.sequence + 1 }
        loops := credits :: loops
        chunks := stream.chunks ++ [
          { sequence := record.sequence
            data := (stream.data.take stop).drop record.cursor }] }
  | _ :: loops, _ => some { stream with loops }
  | [], _ => none

/-- The file and the stream after an event; no call opens two streams. -/
def step (limits : MemoryFsLimits) (stream : FileStream) : StreamEvent → Option FileStream
  | .createReadStream start endExclusive chunkSize =>
    if stream.record.isSome then none
    else (openReadStream limits stream.data.length start endExclusive chunkSize).map fun record =>
      { stream with record := some record, registered := true }
  | .grantCredits credits =>
    if credits ≤ 0 ∨ maxSafeInteger < credits ∨ stream.registered = false then some stream
    else some { stream with loops := credits.toNat :: stream.loops }
  | .proceed => stream.proceed
  | .handleWrite append position binary =>
    let start := if append then stream.data.length else position
    if limits.maxChunkBytes < binary.length ∨ limits.maxFileBytes < start + binary.length then none
    else some { stream with data := overwrite stream.data start binary }
  | .openTruncate => some { stream with data := [] }
  | .cancel => some { stream with registered := false }

/-- A file whose stream was not opened yet. -/
def unopened (data : List UInt8) : FileStream where
  data
  record := none
  registered := false
  loops := []
  chunks := []
  bytesRead := none

/-- A file with a stream. -/
def machine (limits : MemoryFsLimits) (data : List UInt8) : Machine FileStream StreamEvent where
  start := unopened data
  step := step limits

/-- The chunks are numbered from zero, none of them is empty or too long, and the end reports what
they carry. -/
structure Reports (stream : FileStream) : Prop where
  consecutive : stream.chunks.map ChunkEvent.sequence = List.range stream.chunks.length
  bounded : ∀ record, stream.record = some record → ∀ chunk ∈ stream.chunks,
    0 < chunk.data.length ∧ chunk.data.length ≤ record.chunkSize
  total : ∀ bytesRead, stream.bytesRead = some bytesRead → bytesRead = delivered stream.chunks

/-- A stream starts at the first byte, or on an empty file, and when it sends a chunk the file still
has the bytes up to its end. -/
def isOrderly (stream : FileStream) : StreamEvent → Bool
  | .createReadStream start _ _ => min start stream.data.length == 0
  | .proceed => stream.record.all fun record =>
    !stream.registered || decide (min record.end_ (record.cursor + record.chunkSize) ≤
      stream.data.length)
  | _ => true

/-- What is known of a stream whose steps were orderly. -/
structure Accounted (stream : FileStream) : Prop where
  reports : stream.Reports
  unopened : stream.record = none → stream.chunks = [] ∧ stream.bytesRead = none
  unended : stream.registered = true → stream.bytesRead = none
  position : ∀ record, stream.record = some record → 0 < record.chunkSize ∧
    record.sequence = stream.chunks.length ∧ record.cursor = delivered stream.chunks

theorem delivered_concat (chunks : List ChunkEvent) (chunk : ChunkEvent) :
    delivered (chunks ++ [chunk]) = delivered chunks + chunk.data.length := by
  unfold delivered
  rw [List.map_append, List.sum_append, List.map_singleton, List.sum_singleton]

theorem Accounted.start (data : List UInt8) : (FileStream.unopened data).Accounted where
  reports := {
    consecutive := rfl
    bounded := fun _ known => by cases known
    total := fun _ ended => by cases ended }
  unopened := fun _ => ⟨rfl, rfl⟩
  unended := fun _ => rfl
  position := fun _ known => by cases known

variable {stream : FileStream}

/-- The data and the loops are not counted, and a stream can be given up. -/
theorem Accounted.frame (accounted : stream.Accounted) (data : List UInt8)
    (loops : List ℕ) {registered : Bool} (given : registered = true → stream.registered = true) :
    Accounted { stream with data, loops, registered } where
  reports := {
    consecutive := accounted.reports.consecutive
    bounded := accounted.reports.bounded
    total := accounted.reports.total }
  unopened := accounted.unopened
  unended := fun still => accounted.unended (given still)
  position := accounted.position

variable {record : StreamRecord}

/-- A stream that is opened at the first byte has nothing to count. -/
theorem Accounted.create (accounted : stream.Accounted)
    (fresh : stream.record = none) {start chunkSize : ℕ}
    {endExclusive : Option ℕ} (first : min start stream.data.length = 0)
    (opened : openReadStream limits stream.data.length start endExclusive chunkSize = some record) :
    Accounted { stream with record := some record, registered := true } := by
  obtain ⟨nothing, unended⟩ := accounted.unopened fresh
  unfold openReadStream at opened
  obtain ⟨accepted, opened⟩ := Option.ite_none_left_eq_some.mp opened
  have size : chunkSize ≠ 0 := fun zero => accepted (Or.inl zero)
  refine ⟨⟨accounted.reports.consecutive, ?_, accounted.reports.total⟩, ?_, fun _ => unended, ?_⟩
  · intro _ _ chunk sent
    change chunk ∈ stream.chunks at sent
    rw [nothing] at sent
    cases sent
  · intro none
    cases none
  · intro known same
    rw [← Option.some.inj same, ← Option.some.inj opened]
    refine ⟨Nat.pos_of_ne_zero size, ?_, ?_⟩
    · change 0 = stream.chunks.length
      rw [nothing]
      rfl
    · change min start stream.data.length = delivered stream.chunks
      rw [nothing, first]
      rfl

/-- A chunk that the file has whole moves the position by its length. -/
theorem Accounted.chunk (accounted : stream.Accounted) (known : stream.record = some record)
    (registered : stream.registered = true) {stop : ℕ} (loops : List ℕ)
    (ahead : record.cursor < record.end_)
    (same : stop = min record.end_ (record.cursor + record.chunkSize))
    (whole : stop ≤ stream.data.length) :
    Accounted { stream with
      record := some { record with cursor := stop, sequence := record.sequence + 1 }
      loops
      chunks := stream.chunks ++ [
        { sequence := record.sequence
          data := (stream.data.take stop).drop record.cursor }] } := by
  obtain ⟨size, count, position⟩ := accounted.position record known
  have length : ((stream.data.take stop).drop record.cursor).length = stop - record.cursor := by
    rw [List.length_drop, List.length_take, Nat.min_eq_left whole]
  have unended := accounted.unended registered
  refine ⟨⟨?_, ?_, ?_⟩, ?_, fun _ => unended, ?_⟩
  · rw [List.map_append, accounted.reports.consecutive, List.length_append, List.length_singleton,
      List.range_succ, ← count]
    rfl
  · intro changed same'
    rw [← Option.some.inj same']
    refine forall_mem_concat (accounted.reports.bounded record known) ?_
    rw [length]
    change 0 < stop - record.cursor ∧ stop - record.cursor ≤ record.chunkSize
    omega
  · intro bytesRead ended
    change stream.bytesRead = some bytesRead at ended
    rw [unended] at ended
    cases ended
  · intro none
    cases none
  · intro changed same'
    rw [← Option.some.inj same']
    refine ⟨size, ?_, ?_⟩
    · rw [List.length_append, List.length_singleton, ← count]
    · rw [delivered_concat, ← position, length]
      change stop = record.cursor + (stop - record.cursor)
      omega

/-- The end of a stream reports its position. -/
theorem Accounted.finish (accounted : stream.Accounted)
    (known : stream.record = some record) (loops : List ℕ) :
    Accounted { stream with registered := false, loops, bytesRead := some record.cursor } := by
  refine ⟨⟨accounted.reports.consecutive, accounted.reports.bounded, ?_⟩, ?_, ?_,
    accounted.position⟩
  · intro bytesRead ended
    rw [← Option.some.inj ended]
    exact (accounted.position record known).2.2
  · intro none
    change stream.record = _ at none
    rw [known] at none
    cases none
  · intro no
    cases no

/-- A round of a loop, when the file has the bytes that it sends. -/
theorem Accounted.proceed {stream next : FileStream} (accounted : stream.Accounted)
    (orderly : stream.isOrderly .proceed = true) (stepped : stream.proceed = some next) :
    next.Accounted := by
  unfold FileStream.proceed at stepped
  split at stepped
  case h_1 credits loops record looping known =>
    split at stepped
    · rw [← Option.some.inj stepped]
      exact accounted.frame stream.data loops id
    next registered =>
    have registered := Bool.eq_true_of_not_eq_false registered
    split at stepped
    · rw [← Option.some.inj stepped]
      exact accounted.finish known loops
    next ahead =>
    rw [← Option.some.inj stepped]
    unfold isOrderly at orderly
    rw [known, Option.all_some, registered, Bool.not_true, Bool.false_or, decide_eq_true_eq]
      at orderly
    exact accounted.chunk known registered (credits :: loops) (Nat.lt_of_not_le ahead) rfl orderly
  case h_2 loops _ _ =>
    rw [← Option.some.inj stepped]
    exact accounted.frame stream.data loops id
  case h_3 => cases stepped

/-- Orderly steps keep the accounts. -/
theorem Accounted.step {stream next : FileStream} {event : StreamEvent}
    (accounted : stream.Accounted) (orderly : stream.isOrderly event = true)
    (stepped : stream.step limits event = some next) : next.Accounted := by
  cases event with
  | createReadStream start endExclusive chunkSize =>
    obtain ⟨fresh, opened⟩ := Option.ite_none_left_eq_some.mp stepped
    obtain ⟨record, opened, same⟩ := Option.map_eq_some_iff.mp opened
    rw [← same]
    exact accounted.create (Option.not_isSome_iff_eq_none.mp fresh) (beq_iff_eq.mp orderly) opened
  | grantCredits credits =>
    change (if _ then _ else _) = some next at stepped
    split at stepped
    · rw [← Option.some.inj stepped]
      exact accounted
    · rw [← Option.some.inj stepped]
      exact accounted.frame stream.data (credits.toNat :: stream.loops) id
  | proceed => exact accounted.proceed orderly stepped
  | handleWrite append position binary =>
    obtain ⟨_, written⟩ := Option.ite_none_left_eq_some.mp stepped
    rw [← Option.some.inj written]
    exact accounted.frame _ stream.loops id
  | openTruncate =>
    rw [← Option.some.inj stepped]
    exact accounted.frame [] stream.loops id
  | cancel =>
    rw [← Option.some.inj stepped]
    exact accounted.frame stream.data stream.loops fun still => absurd still Bool.false_ne_true

/-- A stream that starts at the first byte of a file reports what it delivers, as long as the file
keeps the bytes that the stream still sends. -/
theorem readStream_reports {data : List UInt8} {events : List StreamEvent} {stream : FileStream}
    (reached : (machine limits data).ReachesWhen
      (fun stream event => stream.isOrderly event = true) events stream) : stream.Reports := by
  have accounted : Accounted stream :=
    reached.invariant (.start data) fun _ _ _ before orderly stepped => before.step orderly stepped
  exact accounted.reports

/-- A stream over four of five bytes, three of which it has sent when the file is written to. -/
def orderlyStream : List StreamEvent :=
  [.createReadStream 0 (some 4) 3, .grantCredits 2, .proceed, .handleWrite false 3 [9, 9, 9],
    .proceed, .grantCredits 1, .proceed]

/-- The bytes that were written before they were read are delivered and counted. -/
theorem readStream_reports_orderlyStream : ∃ stream : FileStream,
    (machine DEFAULT_LIMITS [1, 2, 3, 4, 5]).Reaches orderlyStream stream ∧
      (stream.chunks, stream.bytesRead) = ([⟨0, [1, 2, 3]⟩, ⟨1, [9]⟩], some 4) ∧
      stream.Reports := by
  have ran : (((machine DEFAULT_LIMITS [1, 2, 3, 4, 5]).guarded fun stream event =>
      stream.isOrderly event = true).run orderlyStream).map (fun stream =>
        (stream.chunks, stream.bytesRead)) = some ([⟨0, [1, 2, 3]⟩, ⟨1, [9]⟩], some 4) := by
    decide +kernel
  obtain ⟨stream, reached, sent⟩ := Machine.exists_of_guarded_run ran
  exact ⟨stream, reached.reaches, sent, readStream_reports reached⟩

/-- A stream that starts at the third of three bytes delivers one and reports three. -/
theorem not_readStream_reports : ¬ ∀ (data : List UInt8) (events : List StreamEvent)
    (stream : FileStream), (machine DEFAULT_LIMITS data).Reaches events stream →
      stream.Reports := by
  intro claim
  have ran : ((machine DEFAULT_LIMITS [1, 2, 3]).run [.createReadStream 2 none 8, .grantCredits 2,
      .proceed, .proceed]).map (fun stream => (stream.chunks, stream.bytesRead)) =
        some ([⟨0, [3]⟩], some 3) := by
    decide +kernel
  obtain ⟨stream, reached, sent⟩ := Machine.exists_of_run ran
  obtain ⟨chunks, bytesRead⟩ := Prod.mk.inj sent
  have total := (claim _ _ stream reached).total 3 bytesRead
  rw [chunks] at total
  exact absurd total (by decide)

end FileStream

end Holonomy.Fs
