import Holonomy.Supervisor.Codec

/-!
# The decoder of supervisor frames

The decoder is pushed chunks of the byte stream and returns the frames that each call completes.
Frames that were written come back whole, wherever the stream was cut.
-/

namespace Holonomy.Supervisor

open Foundation

/-- A refused buffer stays refused when it grows. -/
theorem readFrame_append_reject {input : List UInt8} (found : readFrame input = .reject)
    (extra : List UInt8) : readFrame (input ++ extra) = .reject := by
  rw [readFrame] at found
  by_cases short : input.length < 4
  · rw [if_pos short] at found
    cases found
  have longer : ¬ (input ++ extra).length < 4 := by
    rw [List.length_append]
    omega
  have lengthWord : wordAt (input ++ extra) 4 0 = wordAt input 4 0 := wordAt_append extra (by omega)
  rw [if_neg short] at found
  rw [readFrame, if_neg longer, lengthWord]
  by_cases outside : wordAt input 4 0 < headerBytes ∨ wordAt input 4 0 > maxFrameBytes
  · simp only [if_pos outside]
  by_cases incomplete : input.length < wordAt input 4 0 + 4
  · simp only [if_neg outside, if_pos incomplete] at found
    cases found
  have complete : ¬ (input ++ extra).length < wordAt input 4 0 + 4 := by
    rw [List.length_append]
    omega
  have least : 20 ≤ wordAt input 4 0 := by
    rw [headerBytes] at outside
    omega
  have payloadInside : wordAt input 4 0 - headerBytes ≤ (input.drop 24).length := by
    rw [List.length_drop, headerBytes]
    omega
  have payload : ((input ++ extra).drop 24).take (wordAt input 4 0 - headerBytes) =
      (input.drop 24).take (wordAt input 4 0 - headerBytes) := by
    rw [List.drop_append_of_le_length (by omega), List.take_append_of_le_length payloadInside]
  simp only [if_neg outside, if_neg incomplete] at found
  have word : ∀ width offset, offset + width ≤ 24 →
      wordAt (input ++ extra) width offset = wordAt input width offset := by
    intro width offset inside
    exact wordAt_append extra (by omega)
  simp only [if_neg outside, if_neg complete, payload, word 4 4 (by decide), word 1 8 (by decide),
    word 1 9 (by decide), word 2 10 (by decide), word 4 12 (by decide), word 4 16 (by decide),
    word 4 20 (by decide)]
  by_cases header : wordAt input 4 4 ≠ magic ∨ wordAt input 1 8 ≠ 1 ∨ wordAt input 2 10 ≠ 0
  · simp only [if_pos header]
  simp only [if_neg header] at found ⊢
  cases chosen : operationAt (wordAt input 1 9) with
  | none => rfl
  | some operation =>
    simp only [chosen] at found ⊢
    cases accepted : normalizeProcessSupervisorFrameV1 (frameObject operation
        ((input.drop 24).take (wordAt input 4 0 - headerBytes)) (wordAt input 4 16)
        (wordAt input 4 12) (wordAt input 4 20)) with
    | none => rfl
    | some frame =>
      rw [accepted] at found
      cases found

def frameReader : Incremental UInt8 ProcessSupervisorFrameV1 where
  next := readFrame
  next_nil := rfl
  shorter := by
    intro input frame rest found
    have sound := readFrame_sound found
    rw [sound.2.2, List.length_append, length_frameBytes]
    omega
  item_append := by
    intro input frame rest found extra
    have sound := readFrame_sound found
    rw [sound.2.2, List.append_assoc]
    exact readFrame_frameBytes sound.1 sound.2.1 _
  reject_append := readFrame_append_reject

structure ProcessSupervisorFrameDecoderV1 where
  buffer : List UInt8

namespace ProcessSupervisorFrameDecoderV1

/-- A decoder that was pushed nothing. -/
def new : ProcessSupervisorFrameDecoderV1 := ⟨[]⟩

def push (decoder : ProcessSupervisorFrameDecoderV1) (chunk : List UInt8) :
    Option (List ProcessSupervisorFrameV1) × ProcessSupervisorFrameDecoderV1 :=
  let drained := frameReader.drain (decoder.buffer ++ chunk)
  (if drained.rejected then none else some drained.items, ⟨drained.rest⟩)

/-- The end of the stream is admitted when no bytes are left. -/
def finish (decoder : ProcessSupervisorFrameDecoderV1) : Option Unit :=
  if decoder.buffer.length ≠ 0 then none else some ()

def pushEach (decoder : ProcessSupervisorFrameDecoderV1) :
    List (List UInt8) → List ProcessSupervisorFrameV1 × Bool × ProcessSupervisorFrameDecoderV1
  | [] => ([], false, decoder)
  | chunk :: chunks =>
    match decoder.push chunk with
    | (none, left) => ([], true, left)
    | (some frames, left) =>
      let (later, threw, last) := pushEach left chunks
      (frames ++ later, threw, last)

theorem pushEach_eq_feed (decoder : ProcessSupervisorFrameDecoderV1) (chunks : List (List UInt8)) :
    decoder.pushEach chunks =
      ((frameReader.feed decoder.buffer chunks).handed,
        (frameReader.feed decoder.buffer chunks).threw,
        ⟨(frameReader.feed decoder.buffer chunks).rest⟩) := by
  induction chunks generalizing decoder with
  | nil => rfl
  | cons chunk chunks ih =>
    rw [pushEach, push, Incremental.feed]
    cases refused : (frameReader.drain (decoder.buffer ++ chunk)).rejected with
    | true => rfl
    | false =>
      simp only [Bool.false_eq_true, if_false]
      rw [ih]

theorem pushEach_of_admitted (chunks : List (List UInt8))
    (admitted : (frameReader.drain chunks.flatten).rejected = false) :
    new.pushEach chunks =
      ((frameReader.drain chunks.flatten).items, false,
        ⟨(frameReader.drain chunks.flatten).rest⟩) := by
  have fed := frameReader.feed_of_admitted frameReader.next_nil chunks admitted
  rw [pushEach_eq_feed, new, fed]
  rfl

theorem pushEach_threw (chunks : List (List UInt8)) :
    (new.pushEach chunks).2.1 = (frameReader.drain chunks.flatten).rejected := by
  rw [pushEach_eq_feed]
  exact frameReader.feed_threw frameReader.next_nil chunks

theorem finish_eq_none (decoder : ProcessSupervisorFrameDecoderV1) :
    decoder.finish = none ↔ decoder.buffer ≠ [] := by
  simp [finish]

end ProcessSupervisorFrameDecoderV1

open ProcessSupervisorFrameDecoderV1

def WholeFrames (bytes : List UInt8) : Prop :=
  ∃ (values : List FrameValue) (encoded : List (List UInt8)),
    values.map encodeProcessSupervisorFrameV1 = encoded.map some ∧ bytes = encoded.flatten

theorem encode_eq_some {value : FrameValue} {bytes : List UInt8} :
    encodeProcessSupervisorFrameV1 value = some bytes ↔
      ∃ frame, normalizeProcessSupervisorFrameV1 value = some frame ∧
        headerBytes + frame.payload.length ≤ maxFrameBytes ∧ bytes = frameBytes frame := by
  rw [encodeProcessSupervisorFrameV1, Option.bind_eq_bind, Option.bind_eq_some_iff]
  constructor
  · intro written
    obtain ⟨frame, accepted, chosen⟩ := written
    by_cases large : headerBytes + frame.payload.length > maxFrameBytes
    · rw [if_pos large] at chosen
      cases chosen
    · rw [if_neg large] at chosen
      exact ⟨frame, accepted, Nat.le_of_not_lt large, (Option.some.inj chosen).symm⟩
  · intro written
    obtain ⟨frame, accepted, small, rfl⟩ := written
    exact ⟨frame, accepted, if_neg (Nat.not_lt.mpr small)⟩

theorem encode_frameObject {frame : ProcessSupervisorFrameV1} (admitted : ¬ Refused frame)
    (small : headerBytes + frame.payload.length ≤ maxFrameBytes) :
    encodeProcessSupervisorFrameV1 (frameObject frame.operation frame.payload
      frame.processId.toNat frame.requestId.toNat frame.sequence.toNat) =
      some (frameBytes frame) := by
  apply encode_eq_some.mpr
  refine ⟨frame, ?_, small, rfl⟩
  rw [normalize_frameObject _ _ frame.processId.toNat_lt frame.requestId.toNat_lt
    frame.sequence.toNat_lt]
  simp [admitted]

theorem drain_frames {frames : List ProcessSupervisorFrameV1}
    (admitted : ∀ frame ∈ frames, ¬ Refused frame)
    (small : ∀ frame ∈ frames, headerBytes + frame.payload.length ≤ maxFrameBytes)
    {rest : List UInt8} (unfinished : readFrame rest = .more) :
    frameReader.drain (frames.flatMap frameBytes ++ rest) = ⟨frames, rest, false⟩ := by
  have written : ∀ frame ∈ frames, ∀ rest,
      frameReader.next (frameBytes frame ++ rest) = .item frame rest := fun frame frameIn rest =>
    readFrame_frameBytes (admitted frame frameIn) (small frame frameIn) rest
  rw [frameReader.drain_written frameBytes frames written]
  have none : frameReader.drain rest = ⟨[], rest, false⟩ := frameReader.drain_more unfinished
  rw [none, Drained.prepend, List.append_nil]

/-- A stream that is not refused ends where a frame ends exactly when nothing is left. -/
theorem wholeFrames_iff {bytes : List UInt8}
    (admitted : (frameReader.drain bytes).rejected = false) :
    WholeFrames bytes ↔ (frameReader.drain bytes).rest = [] := by
  constructor
  · intro whole
    obtain ⟨values, encoded, written, rfl⟩ := whole
    have frames : ∀ bytes ∈ encoded, ∃ frame, ¬ Refused frame ∧
        headerBytes + frame.payload.length ≤ maxFrameBytes ∧ bytes = frameBytes frame := by
      intro bytes bytesIn
      have inside : some bytes ∈ values.map encodeProcessSupervisorFrameV1 := by
        rw [written]
        exact List.mem_map_of_mem bytesIn
      obtain ⟨value, _, spelled⟩ := List.mem_map.mp inside
      obtain ⟨frame, accepted, small, same⟩ := encode_eq_some.mp spelled
      exact ⟨frame, not_refused_of_normalize accepted, small, same⟩
    clear written admitted
    induction encoded with
    | nil => rfl
    | cons head tail ih =>
      obtain ⟨frame, kept, small, rfl⟩ := frames head List.mem_cons_self
      have read := readFrame_frameBytes kept small tail.flatten
      have first : frameReader.drain (frameBytes frame ++ tail.flatten) =
          (frameReader.drain tail.flatten).prepend [frame] := frameReader.drain_item read
      rw [List.flatten_cons, first]
      exact ih fun bytes bytesIn => frames bytes (List.mem_cons_of_mem _ bytesIn)
  · intro empty
    have kept := frameReader.of_mem_items (fun frame => ¬ Refused frame ∧
      headerBytes + frame.payload.length ≤ maxFrameBytes)
      (fun input frame rest found => ⟨(readFrame_sound found).1, (readFrame_sound found).2.1⟩) bytes
    have spelled := frameReader.written_drain frameBytes
      (fun input frame rest found => (readFrame_sound found).2.2) bytes
    rw [empty, List.append_nil] at spelled
    refine ⟨(frameReader.drain bytes).items.map fun frame => frameObject frame.operation
      frame.payload frame.processId.toNat frame.requestId.toNat frame.sequence.toNat,
      (frameReader.drain bytes).items.map frameBytes, ?_, ?_⟩
    · rw [List.map_map, List.map_map]
      apply List.map_congr_left
      intro frame frameIn
      exact encode_frameObject (kept frame frameIn).1 (kept frame frameIn).2
    · rw [← List.flatMap_def]
      exact spelled.symm

/-- Frames that were written come back whole under any cutting of the bytes, and the end of the
stream is admitted exactly where a frame ends. -/
theorem pushEach_roundTrip (values : List FrameValue) (frames : List ProcessSupervisorFrameV1)
    (accepted : values.map normalizeProcessSupervisorFrameV1 = frames.map some)
    (small : ∀ frame ∈ frames, headerBytes + frame.payload.length ≤ maxFrameBytes) :
    (∃ encoded : List (List UInt8),
      values.map encodeProcessSupervisorFrameV1 = encoded.map some ∧
      (∀ chunks : List (List UInt8), chunks.flatten = encoded.flatten →
        (new.pushEach chunks).1 = frames ∧ (new.pushEach chunks).2.1 = false ∧
          (new.pushEach chunks).2.2.finish = some ()) ∧
      (∀ (chunks : List (List UInt8)) (value : FrameValue) (beginning missing : List UInt8),
        encodeProcessSupervisorFrameV1 value = some (beginning ++ missing) → missing ≠ [] →
        chunks.flatten = encoded.flatten ++ beginning →
        (new.pushEach chunks).1 = frames ∧ (new.pushEach chunks).2.1 = false ∧
          ((new.pushEach chunks).2.2.finish = none ↔ beginning ≠ []))) ∧
    (∀ chunks : List (List UInt8), (new.pushEach chunks).2.1 = false →
      ((new.pushEach chunks).2.2.finish = none ↔ ¬ WholeFrames chunks.flatten)) := by
  have kept : ∀ frame ∈ frames, ¬ Refused frame := by
    intro frame frameIn
    have inside : some frame ∈ values.map normalizeProcessSupervisorFrameV1 := by
      rw [accepted]
      exact List.mem_map_of_mem frameIn
    obtain ⟨value, _, normal⟩ := List.mem_map.mp inside
    exact not_refused_of_normalize normal
  refine ⟨⟨frames.map frameBytes, ?_, ?_, ?_⟩, ?_⟩
  · have each : values.map encodeProcessSupervisorFrameV1 =
        (values.map normalizeProcessSupervisorFrameV1).map fun normal => normal.bind fun frame =>
          if headerBytes + frame.payload.length > maxFrameBytes then none
          else some (frameBytes frame) := by
      rw [List.map_map]
      rfl
    rw [each, accepted, List.map_map, List.map_map]
    apply List.map_congr_left
    intro frame frameIn
    exact if_neg (Nat.not_lt.mpr (small frame frameIn))
  · intro chunks joined
    have nothing : readFrame [] = .more := rfl
    have drained := drain_frames kept small nothing
    rw [List.append_nil, List.flatMap_def, ← joined] at drained
    rw [pushEach_of_admitted chunks (congrArg Drained.rejected drained), drained]
    exact ⟨rfl, rfl, rfl⟩
  · intro chunks value beginning missing written proper joined
    obtain ⟨frame, normal, sized, spelled⟩ := encode_eq_some.mp written
    have read := readFrame_frameBytes (not_refused_of_normalize normal) sized []
    rw [List.append_nil, ← spelled] at read
    have unfinished := frameReader.next_beginning read proper
    have drained := drain_frames kept small unfinished
    rw [List.flatMap_def, ← joined] at drained
    rw [pushEach_of_admitted chunks (congrArg Drained.rejected drained), drained]
    exact ⟨rfl, rfl, finish_eq_none _⟩
  · intro chunks quiet
    rw [pushEach_threw] at quiet
    rw [pushEach_of_admitted chunks quiet, finish_eq_none, wholeFrames_iff quiet]

/-- Two written frames come back from three chunks. -/
theorem pushEach_roundTrip_two :
    (new.pushEach [(frameBytes ⟨.stdout, [7], 17, 0, 3⟩).take 5, [],
      (frameBytes ⟨.stdout, [7], 17, 0, 3⟩).drop 5 ++ frameBytes ⟨.close, [], 17, 0, 0⟩]).1 =
        [⟨.stdout, [7], 17, 0, 3⟩, ⟨.close, [], 17, 0, 0⟩] := by
  have trip := (pushEach_roundTrip
    [frameObject .stdout [7] 17 0 3, frameObject .close [] 17 0 0]
    [⟨.stdout, [7], 17, 0, 3⟩, ⟨.close, [], 17, 0, 0⟩] (by decide +kernel) (by decide)).1
  obtain ⟨encoded, written, whole, _⟩ := trip
  have known : [frameObject .stdout [7] 17 0 3, frameObject .close [] 17 0 0].map
      encodeProcessSupervisorFrameV1 = [frameBytes ⟨.stdout, [7], 17, 0, 3⟩,
        frameBytes ⟨.close, [], 17, 0, 0⟩].map some := by decide +kernel
  rw [known] at written
  have same := List.map_injective_iff.mpr (Option.some_injective _) written
  exact (whole _ (by rw [← same]; decide +kernel)).1

/-- Whether pushing fails depends on the joined bytes only, and so do the frames when it does not.
When it fails, the frames returned are those of the calls before the one that completes the
refused bytes; on both sides they begin the same list. -/
theorem pushEach_chunking (left right : List (List UInt8)) (joined : left.flatten = right.flatten) :
    (new.pushEach left).2.1 = (new.pushEach right).2.1 ∧
    ((new.pushEach left).2.1 = false → (new.pushEach left).1 = (new.pushEach right).1) ∧
    ((new.pushEach left).2.1 = true → ∃ count < left.length,
      (new.push (left.take count).flatten).1 = some (new.pushEach left).1 ∧
      (new.push (left.take (count + 1)).flatten).1 = none) ∧
    ((new.pushEach left).1 <+: (new.pushEach right).1 ∨
      (new.pushEach right).1 <+: (new.pushEach left).1) := by
  have begins : ∀ chunks : List (List UInt8),
      (new.pushEach chunks).1 <+: (frameReader.drain chunks.flatten).items := by
    intro chunks
    cases quiet : (frameReader.drain chunks.flatten).rejected with
    | false =>
      rw [pushEach_of_admitted chunks quiet]
    | true =>
      obtain ⟨count, _, _, _, handed⟩ :=
        frameReader.feed_of_rejected frameReader.next_nil chunks quiet
      have split : (chunks.take count).flatten ++ (chunks.drop count).flatten = chunks.flatten := by
        rw [← List.flatten_append, List.take_append_drop]
      rw [pushEach_eq_feed, ← split]
      exact handed ▸ frameReader.items_append _ _
  refine ⟨?_, ?_, ?_, ?_⟩
  · rw [pushEach_threw, pushEach_threw, joined]
  · intro quiet
    rw [pushEach_threw] at quiet
    rw [pushEach_of_admitted left quiet, pushEach_of_admitted right (joined ▸ quiet), joined]
  · intro threw
    rw [pushEach_threw] at threw
    obtain ⟨count, inside, before, after, handed⟩ :=
      frameReader.feed_of_rejected frameReader.next_nil left threw
    refine ⟨count, inside, ?_, ?_⟩
    · rw [pushEach_eq_feed]
      exact (if_neg (by rw [Bool.not_eq_true]; exact before)).trans (congrArg some handed.symm)
    · exact if_pos after
  · have first := begins left
    have second := begins right
    rw [joined] at first
    exact List.prefix_or_prefix_of_prefix first second

/-- A frame followed by four zero bytes, pushed whole or cut between them. -/
theorem pushEach_chunking_ack :
    (new.pushEach [frameBytes ⟨.ack, [], 1, 1, 0⟩ ++ [0, 0, 0, 0]]).2.1 =
      (new.pushEach [frameBytes ⟨.ack, [], 1, 1, 0⟩, [0, 0, 0, 0]]).2.1 :=
  (pushEach_chunking [frameBytes ⟨.ack, [], 1, 1, 0⟩ ++ [0, 0, 0, 0]]
    [frameBytes ⟨.ack, [], 1, 1, 0⟩, [0, 0, 0, 0]] (by decide +kernel)).1

/-- The frames returned before the first failure depend on the cutting: a frame in the chunk that
fails is not returned. -/
theorem not_pushEach_chunking :
    ¬ ∀ left right : List (List UInt8), left.flatten = right.flatten →
      (new.pushEach left).1 = (new.pushEach right).1 ∧
        (new.pushEach left).2.1 = (new.pushEach right).2.1 := by
  intro all
  have same := (all [frameBytes ⟨.ack, [], 1, 1, 0⟩ ++ [0, 0, 0, 0]]
    [frameBytes ⟨.ack, [], 1, 1, 0⟩, [0, 0, 0, 0]] (by decide +kernel)).1
  have whole : (new.pushEach [frameBytes ⟨.ack, [], 1, 1, 0⟩ ++ [0, 0, 0, 0]]).1 = [] := by
    decide +kernel
  have cut : (new.pushEach [frameBytes ⟨.ack, [], 1, 1, 0⟩, [0, 0, 0, 0]]).1 =
      [⟨.ack, [], 1, 1, 0⟩] := by decide +kernel
  rw [whole, cut] at same
  cases same

/-- What waits for more bytes is shorter than the longest frame. -/
theorem length_of_readFrame_more {input : List UInt8} (waits : readFrame input = .more) :
    input.length < maxFrameBytes + 4 := by
  unfold readFrame at waits
  dsimp only at waits
  split_ifs at waits with short wrong unfinished
  · unfold maxFrameBytes
    omega
  · omega
  · split at waits
    · cases waits
    · split at waits
      · cases waits
      · cases waits

/-- Whatever the bytes and however they are cut, the frames that are handed over are admitted and
written exactly as the bytes that they were read from; until a call throws, everything else is kept,
and it is less than the longest frame. -/
theorem pushEach_genuine (chunks : List (List UInt8)) :
    (∀ frame ∈ (new.pushEach chunks).1, ¬ Refused frame ∧
      headerBytes + frame.payload.length ≤ maxFrameBytes) ∧
    (new.pushEach chunks).1.flatMap frameBytes <+: chunks.flatten ∧
    ((new.pushEach chunks).2.1 = false →
      (new.pushEach chunks).1.flatMap frameBytes ++ (new.pushEach chunks).2.2.buffer =
        chunks.flatten ∧ (new.pushEach chunks).2.2.buffer.length < maxFrameBytes + 4) := by
  have kept := frameReader.of_mem_items (fun frame => ¬ Refused frame ∧
    headerBytes + frame.payload.length ≤ maxFrameBytes)
    fun _ _ _ found => ⟨(readFrame_sound found).1, (readFrame_sound found).2.1⟩
  have spelled := frameReader.written_drain frameBytes fun _ _ _ found => (readFrame_sound found).2.2
  cases refused : (frameReader.drain chunks.flatten).rejected with
  | false =>
    rw [pushEach_of_admitted chunks refused]
    refine ⟨kept _, ⟨_, spelled _⟩, fun _ => ⟨spelled _, ?_⟩⟩
    exact length_of_readFrame_more (frameReader.next_rest _ refused)
  | true =>
    obtain ⟨count, -, -, -, handed⟩ := frameReader.feed_of_rejected frameReader.next_nil chunks refused
    have read : (new.pushEach chunks).1 = (frameReader.drain (chunks.take count).flatten).items :=
      (congrArg Prod.fst (pushEach_eq_feed new chunks)).trans handed
    rw [read, pushEach_threw, refused]
    refine ⟨kept _, ⟨(frameReader.drain (chunks.take count).flatten).rest ++
      (chunks.drop count).flatten, ?_⟩, fun threw => (by cases threw)⟩
    rw [← List.append_assoc, spelled, ← List.flatten_append, List.take_append_drop]

end Holonomy.Supervisor
