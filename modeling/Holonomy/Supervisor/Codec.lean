import Holonomy.Foundation.Bytes
import Holonomy.Foundation.Incremental
import Holonomy.Foundation.Text

/-!
# Frames of the process supervisor

The supervisor connection carries frames: a length prefix, a fixed header and a payload. A frame is
admitted by the rules of its operation, which say whether it names a process, a request and a
sequence number.
-/

namespace Holonomy.Supervisor

open Foundation

/-- The operations of a frame. -/
inductive ProcessSupervisorOperationV1 where
  | ack | close | error | exit | ready | shutdown | signal | spawn | spawned | stderr | stdin
  | stdinClose | stdout | filesystemRequest | filesystemResponse | execRequest | execResponse
  | configure | capabilityRequest | capabilityResponse | execResult | networkRequest
  | networkResponse
  deriving DecidableEq

/-- How the source spells an operation. -/
def operationName : ProcessSupervisorOperationV1 → Text
  | .ack => js "ack"
  | .close => js "close"
  | .error => js "error"
  | .exit => js "exit"
  | .ready => js "ready"
  | .shutdown => js "shutdown"
  | .signal => js "signal"
  | .spawn => js "spawn"
  | .spawned => js "spawned"
  | .stderr => js "stderr"
  | .stdin => js "stdin"
  | .stdinClose => js "stdinClose"
  | .stdout => js "stdout"
  | .filesystemRequest => js "filesystemRequest"
  | .filesystemResponse => js "filesystemResponse"
  | .execRequest => js "execRequest"
  | .execResponse => js "execResponse"
  | .configure => js "configure"
  | .capabilityRequest => js "capabilityRequest"
  | .capabilityResponse => js "capabilityResponse"
  | .execResult => js "execResult"
  | .networkRequest => js "networkRequest"
  | .networkResponse => js "networkResponse"

/-- The operations in the order of their codes. -/
def processSupervisorOperations : List ProcessSupervisorOperationV1 :=
  [.ack, .close, .error, .exit, .ready, .shutdown, .signal, .spawn, .spawned, .stderr, .stdin,
    .stdinClose, .stdout, .filesystemRequest, .filesystemResponse, .execRequest, .execResponse,
    .configure, .capabilityRequest, .capabilityResponse, .execResult, .networkRequest,
    .networkResponse]

/-- Bytes of a frame's header behind the length prefix. -/
def headerBytes : ℕ := 20

/-- The longest header and payload. -/
def maxFrameBytes : ℕ := 1024 * 1024

/-- The word that opens a header. -/
def magic : ℕ := 0x484F4C4F

/-- A frame. -/
structure ProcessSupervisorFrameV1 where
  operation : ProcessSupervisorOperationV1
  payload : List UInt8
  processId : UInt32
  requestId : UInt32
  sequence : UInt32
  deriving DecidableEq

/-- What a field of a value holds, as far as frames tell it apart. -/
inductive FieldValue where
  | number (value : ℚ)
  | text (value : Text)
  | bytes (value : List UInt8)
  | other
  deriving DecidableEq

/-- A value offered as a frame. -/
inductive FrameValue where
  | object (members : List (Text × FieldValue))
  | other

def frameKeys : List Text :=
  [js "operation", js "payload", js "processId", js "requestId", js "sequence", js "version"]

def fieldOf (members : List (Text × FieldValue)) (key : Text) : FieldValue :=
  (members.lookup key).getD .other

/-- An integer that fits a word. -/
def unsigned : FieldValue → Option UInt32
  | .number value =>
    if value.den = 1 ∧ 0 ≤ value.num ∧ value.num ≤ 0xFFFFFFFF then
      some (UInt32.ofNat value.num.toNat)
    else none
  | _ => none

def operationOf : FieldValue → Option ProcessSupervisorOperationV1
  | .text name => processSupervisorOperations.find? fun operation => operationName operation = name
  | _ => none

/-- The code of an operation, counted from zero. -/
def operationIndex (operation : ProcessSupervisorOperationV1) : ℕ :=
  processSupervisorOperations.idxOf operation

def environmentOperations : List ProcessSupervisorOperationV1 :=
  [.configure, .ready, .shutdown, .spawn]

def requestOperations : List ProcessSupervisorOperationV1 :=
  [.ack, .capabilityRequest, .capabilityResponse, .configure, .execRequest, .execResponse,
    .execResult, .filesystemRequest, .filesystemResponse, .networkRequest, .networkResponse,
    .signal, .spawned, .stdin, .stdinClose]

def processOperations : List ProcessSupervisorOperationV1 :=
  [.close, .capabilityRequest, .capabilityResponse, .execRequest, .execResponse, .execResult,
    .exit, .networkRequest, .networkResponse, .signal, .spawned, .stderr, .stdin, .stdinClose,
    .stdout]

/-- Operations that name no request. -/
def eventOperations : List ProcessSupervisorOperationV1 := [.close, .exit, .stderr, .stdout]

def sequencedOperations : List ProcessSupervisorOperationV1 :=
  [.capabilityRequest, .stderr, .stdout]

def Refused (frame : ProcessSupervisorFrameV1) : Prop :=
  (frame.operation ∈ environmentOperations ∧ frame.processId ≠ 0) ∨
  (frame.operation = .ready ∧ (frame.requestId ≠ 0 ∨ frame.sequence ≠ 0)) ∨
  (frame.operation ∈ requestOperations ∧ frame.requestId = 0) ∨
  (frame.operation ∈ processOperations ∧ frame.processId = 0) ∨
  (frame.operation ∈ eventOperations ∧ frame.requestId ≠ 0) ∨
  (frame.operation = .capabilityRequest ∧ frame.sequence = 0) ∨
  (frame.operation ∉ sequencedOperations ∧ frame.sequence ≠ 0)
  deriving Decidable

def normalizeProcessSupervisorFrameV1 : FrameValue → Option ProcessSupervisorFrameV1
  | .other => none
  | .object members =>
    if members.length ≠ 6 ∨ (∃ member ∈ members, member.1 ∉ frameKeys) ∨
        fieldOf members (js "version") ≠ .number 1 then none
    else
      match fieldOf members (js "payload") with
      | .bytes payload => do
        let operation ← operationOf (fieldOf members (js "operation"))
        let processId ← unsigned (fieldOf members (js "processId"))
        let requestId ← unsigned (fieldOf members (js "requestId"))
        let sequence ← unsigned (fieldOf members (js "sequence"))
        let frame : ProcessSupervisorFrameV1 := ⟨operation, payload, processId, requestId, sequence⟩
        if Refused frame then none else some frame
      | _ => none

def frameObject (operation : ProcessSupervisorOperationV1) (payload : List UInt8)
    (processId requestId sequence : ℕ) : FrameValue :=
  .object [(js "operation", .text (operationName operation)), (js "payload", .bytes payload),
    (js "processId", .number processId), (js "requestId", .number requestId),
    (js "sequence", .number sequence), (js "version", .number 1)]

def frameBytes (frame : ProcessSupervisorFrameV1) : List UInt8 :=
  bigEndian 4 (headerBytes + frame.payload.length) ++ (bigEndian 4 magic ++ (bigEndian 1 1 ++
    (bigEndian 1 (operationIndex frame.operation + 1) ++ (bigEndian 2 0 ++
      (bigEndian 4 frame.requestId.toNat ++ (bigEndian 4 frame.processId.toNat ++
        (bigEndian 4 frame.sequence.toNat ++ frame.payload)))))))

def encodeProcessSupervisorFrameV1 (value : FrameValue) : Option (List UInt8) := do
  let frame ← normalizeProcessSupervisorFrameV1 value
  if headerBytes + frame.payload.length > maxFrameBytes then none else some (frameBytes frame)

def operationAt (code : ℕ) : Option ProcessSupervisorOperationV1 :=
  if code = 0 then none else processSupervisorOperations[code - 1]?

/-- One turn of the decoder's loop over its buffer. -/
def readFrame (buffer : List UInt8) : Progress UInt8 ProcessSupervisorFrameV1 :=
  if buffer.length < 4 then .more
  else
    let length := wordAt buffer 4 0
    if length < headerBytes ∨ length > maxFrameBytes then .reject
    else if buffer.length < length + 4 then .more
    else if wordAt buffer 4 4 ≠ magic ∨ wordAt buffer 1 8 ≠ 1 ∨ wordAt buffer 2 10 ≠ 0 then .reject
    else
      match operationAt (wordAt buffer 1 9) with
      | none => .reject
      | some operation =>
        match normalizeProcessSupervisorFrameV1 (frameObject operation
            ((buffer.drop 24).take (length - headerBytes)) (wordAt buffer 4 16)
            (wordAt buffer 4 12) (wordAt buffer 4 20)) with
        | none => .reject
        | some frame => .item frame (buffer.drop (4 + length))

@[simp]
theorem operationAt_operationIndex (operation : ProcessSupervisorOperationV1) :
    operationAt (operationIndex operation + 1) = some operation := by
  cases operation <;> rfl

theorem operationIndex_lt (operation : ProcessSupervisorOperationV1) :
    operationIndex operation + 1 < 256 := by
  cases operation <;> decide

theorem operationIndex_of_operationAt {code : ℕ} {operation : ProcessSupervisorOperationV1}
    (found : operationAt code = some operation) : operationIndex operation + 1 = code := by
  by_cases zero : code = 0
  · rw [operationAt, if_pos zero] at found
    cases found
  · rw [operationAt, if_neg zero] at found
    have inside := List.getElem?_eq_some_iff.mp found
    obtain ⟨small, same⟩ := inside
    have distinct : processSupervisorOperations.Nodup := by decide
    have place := distinct.idxOf_getElem (code - 1) small
    rw [same] at place
    rw [operationIndex, place]
    omega

@[simp]
theorem operationOf_name (operation : ProcessSupervisorOperationV1) :
    operationOf (.text (operationName operation)) = some operation := by
  cases operation <;> decide +kernel

theorem unsigned_number {value : ℕ} (small : value < 256 ^ 4) :
    unsigned (.number value) = some (UInt32.ofNat value) := by
  have integral : (value : ℚ).den = 1 := Rat.den_natCast value
  have whole : (value : ℚ).num = value := Rat.num_natCast value
  have bounds : (value : ℚ).den = 1 ∧ 0 ≤ (value : ℚ).num ∧ (value : ℚ).num ≤ 0xFFFFFFFF := by
    refine ⟨integral, ?_, ?_⟩
    · rw [whole]
      exact Int.natCast_nonneg value
    · rw [whole]
      omega
  rw [unsigned, if_pos bounds, whole, Int.toNat_natCast]

theorem lookup_js (key name : String) (value : FieldValue) (rest : List (Text × FieldValue)) :
    List.lookup (js key) ((js name, value) :: rest) =
      if key = name then some value else List.lookup (js key) rest := by
  by_cases same : key = name
  · rw [if_pos same, same, List.lookup_cons_self]
  · have different : (js key == js name) = false := by simpa using same
    rw [if_neg same, List.lookup_cons, different]

theorem normalize_frameObject (operation : ProcessSupervisorOperationV1) (payload : List UInt8)
    {processId requestId sequence : ℕ} (smallProcess : processId < 256 ^ 4)
    (smallRequest : requestId < 256 ^ 4) (smallSequence : sequence < 256 ^ 4) :
    normalizeProcessSupervisorFrameV1 (frameObject operation payload processId requestId sequence) =
      (let frame : ProcessSupervisorFrameV1 := ⟨operation, payload, UInt32.ofNat processId,
        UInt32.ofNat requestId, UInt32.ofNat sequence⟩
      if Refused frame then none else some frame) := by
  rw [frameObject, normalizeProcessSupervisorFrameV1]
  simp [fieldOf, lookup_js, frameKeys, unsigned_number smallProcess, unsigned_number smallRequest,
    unsigned_number smallSequence]

variable {frame : ProcessSupervisorFrameV1}

theorem not_refused_of_normalize {value : FrameValue}
    (accepted : normalizeProcessSupervisorFrameV1 value = some frame) : ¬ Refused frame := by
  cases value with
  | other => cases accepted
  | object members =>
    rw [normalizeProcessSupervisorFrameV1] at accepted
    split at accepted
    · cases accepted
    split at accepted
    · simp only [Option.bind_eq_bind, Option.bind_eq_some_iff] at accepted
      obtain ⟨_, _, _, _, _, _, _, _, chosen⟩ := accepted
      split at chosen
      · cases chosen
      · cases chosen
        assumption
    · cases accepted

theorem length_frameBytes (frame : ProcessSupervisorFrameV1) :
    (frameBytes frame).length = 4 + (headerBytes + frame.payload.length) := by
  simp only [frameBytes, List.length_append, length_bigEndian, headerBytes]
  omega

/-- The decoder takes a written frame off its buffer. -/
theorem readFrame_frameBytes (admitted : ¬ Refused frame)
    (small : headerBytes + frame.payload.length ≤ maxFrameBytes) (rest : List UInt8) :
    readFrame (frameBytes frame ++ rest) = .item frame rest := by
  have enough : ¬ (frameBytes frame ++ rest).length < 4 := by
    rw [List.length_append, length_frameBytes]
    omega
  have lengthWord : wordAt (frameBytes frame ++ rest) 4 0 = headerBytes + frame.payload.length := by
    rw [frameBytes, List.append_assoc]
    apply wordAt_head
    rw [maxFrameBytes] at small
    omega
  have bounds : ¬ (headerBytes + frame.payload.length < headerBytes ∨
      headerBytes + frame.payload.length > maxFrameBytes) := by omega
  have complete : ¬ (frameBytes frame ++ rest).length < headerBytes + frame.payload.length + 4 := by
    rw [List.length_append, length_frameBytes]
    omega
  have code := operationIndex_lt frame.operation
  have request := frame.requestId.toNat_lt
  have process := frame.processId.toNat_lt
  have sequence := frame.sequence.toNat_lt
  have magicWord : wordAt (frameBytes frame ++ rest) 4 4 = magic := by
    simp [frameBytes, wordAt_skip, wordAt_head, magic]
  have versionByte : wordAt (frameBytes frame ++ rest) 1 8 = 1 := by
    simp [frameBytes, wordAt_skip, wordAt_head]
  have operationByte : wordAt (frameBytes frame ++ rest) 1 9 =
      operationIndex frame.operation + 1 := by
    simp [frameBytes, wordAt_skip, wordAt_head, code]
  have reservedWord : wordAt (frameBytes frame ++ rest) 2 10 = 0 := by
    simp [frameBytes, wordAt_skip, wordAt_head]
  have requestWord : wordAt (frameBytes frame ++ rest) 4 12 = frame.requestId.toNat := by
    simp [frameBytes, wordAt_skip, wordAt_head, request]
  have processWord : wordAt (frameBytes frame ++ rest) 4 16 = frame.processId.toNat := by
    simp [frameBytes, wordAt_skip, wordAt_head, process]
  have sequenceWord : wordAt (frameBytes frame ++ rest) 4 20 = frame.sequence.toNat := by
    simp [frameBytes, wordAt_skip, wordAt_head, sequence]
  have payloadPart : ((frameBytes frame ++ rest).drop 24).take
      (headerBytes + frame.payload.length - headerBytes) = frame.payload := by
    simp [frameBytes, drop_skip]
  have restPart : (frameBytes frame ++ rest).drop
    (4 + (headerBytes + frame.payload.length)) = rest :=
    List.drop_left' (length_frameBytes frame)
  rw [readFrame, if_neg enough]
  simp only [lengthWord, if_neg bounds, if_neg complete, magicWord, versionByte, reservedWord,
    operationByte, requestWord, processWord, sequenceWord, payloadPart, restPart,
    operationAt_operationIndex]
  rw [normalize_frameObject _ _ (by simpa using process) (by simpa using request)
    (by simpa using sequence)]
  simp [admitted]

theorem header_words {input : List UInt8} (long : 24 ≤ input.length) :
    input = bigEndian 4 (wordAt input 4 0) ++ (bigEndian 4 (wordAt input 4 4) ++
      (bigEndian 1 (wordAt input 1 8) ++ (bigEndian 1 (wordAt input 1 9) ++
        (bigEndian 2 (wordAt input 2 10) ++ (bigEndian 4 (wordAt input 4 12) ++
          (bigEndian 4 (wordAt input 4 16) ++ (bigEndian 4 (wordAt input 4 20) ++
            input.drop 24))))))) := by
  have sequence : bigEndian 4 (wordAt input 4 20) ++ input.drop 24 = input.drop 20 :=
    word_drop (by omega)
  have process : bigEndian 4 (wordAt input 4 16) ++ input.drop 20 = input.drop 16 :=
    word_drop (by omega)
  have request : bigEndian 4 (wordAt input 4 12) ++ input.drop 16 = input.drop 12 :=
    word_drop (by omega)
  have reserved : bigEndian 2 (wordAt input 2 10) ++ input.drop 12 = input.drop 10 :=
    word_drop (by omega)
  have operation : bigEndian 1 (wordAt input 1 9) ++ input.drop 10 = input.drop 9 :=
    word_drop (by omega)
  have version : bigEndian 1 (wordAt input 1 8) ++ input.drop 9 = input.drop 8 :=
    word_drop (by omega)
  have opening : bigEndian 4 (wordAt input 4 4) ++ input.drop 8 = input.drop 4 :=
    word_drop (by omega)
  have length : bigEndian 4 (wordAt input 4 0) ++ input.drop 4 = input.drop 0 :=
    word_drop (by omega)
  rw [sequence, process, request, reserved, operation, version, opening, length, List.drop_zero]

/-- What the decoder takes off its buffer is a written frame that keeps the rules. -/
theorem readFrame_sound {input rest : List UInt8} (found : readFrame input = .item frame rest) :
    ¬ Refused frame ∧ headerBytes + frame.payload.length ≤ maxFrameBytes ∧
      input = frameBytes frame ++ rest := by
  rw [readFrame] at found
  by_cases short : input.length < 4
  · rw [if_pos short] at found
    cases found
  rw [if_neg short] at found
  by_cases outside : wordAt input 4 0 < headerBytes ∨ wordAt input 4 0 > maxFrameBytes
  · simp only [if_pos outside] at found
    cases found
  by_cases partial' : input.length < wordAt input 4 0 + 4
  · simp only [if_neg outside, if_pos partial'] at found
    cases found
  by_cases header : wordAt input 4 4 ≠ magic ∨ wordAt input 1 8 ≠ 1 ∨ wordAt input 2 10 ≠ 0
  · simp only [if_neg outside, if_neg partial', if_pos header] at found
    cases found
  simp only [if_neg outside, if_neg partial', if_neg header] at found
  cases chosen : operationAt (wordAt input 1 9) with
  | none =>
    rw [chosen] at found
    cases found
  | some operation =>
    have process := wordAt_lt input 4 16
    have request := wordAt_lt input 4 12
    have sequence := wordAt_lt input 4 20
    simp only [chosen, normalize_frameObject _ _ process request sequence] at found
    by_cases refused : Refused ⟨operation, (input.drop 24).take (wordAt input 4 0 - headerBytes),
        UInt32.ofNat (wordAt input 4 16), UInt32.ofNat (wordAt input 4 12),
        UInt32.ofNat (wordAt input 4 20)⟩
    · simp only [if_pos refused] at found
      cases found
    simp only [if_neg refused, Progress.item.injEq] at found
    obtain ⟨rfl, rfl⟩ := found
    have whole : headerBytes + (wordAt input 4 0 - headerBytes) = wordAt input 4 0 := by omega
    have payloadLength : ((input.drop 24).take (wordAt input 4 0 - headerBytes)).length =
        wordAt input 4 0 - headerBytes := by
      rw [List.length_take, List.length_drop]
      rw [headerBytes] at whole ⊢
      omega
    refine ⟨refused, ?_, ?_⟩
    · rw [payloadLength, whole]
      omega
    · have long : 24 ≤ input.length := by
        rw [headerBytes] at whole
        omega
      have tail : (input.drop 24).take (wordAt input 4 0 - headerBytes) ++
          input.drop (4 + wordAt input 4 0) = input.drop 24 := by
        have split : 4 + wordAt input 4 0 = 24 + (wordAt input 4 0 - headerBytes) := by
          rw [headerBytes] at whole ⊢
          omega
        rw [split, ← List.drop_drop]
        exact List.take_append_drop _ _
      have magicWord : wordAt input 4 4 = magic := by tauto
      have versionByte : wordAt input 1 8 = 1 := by tauto
      have reservedWord : wordAt input 2 10 = 0 := by tauto
      have code := operationIndex_of_operationAt chosen
      have words := header_words long
      rw [magicWord, versionByte, reservedWord, ← code, ← tail] at words
      rw [frameBytes, payloadLength, whole]
      simp only [List.append_assoc]
      simpa [UInt32.toNat_ofNat_of_lt' process, UInt32.toNat_ofNat_of_lt' request,
        UInt32.toNat_ofNat_of_lt' sequence] using words

end Holonomy.Supervisor
