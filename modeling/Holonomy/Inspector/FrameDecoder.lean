import Holonomy.Foundation.Bytes
import Holonomy.Foundation.Text
import Holonomy.Foundation.Incremental

/-!
# The decoder of the inspector's socket

A push takes the frames off the buffer and acts on each. It stops behind a close frame and keeps
what follows it, so the bytes behind a close frame are acted on when a later push comes, and not
otherwise.
-/

namespace Holonomy.Inspector

open Foundation

/-! ## Frames of the inspector's socket

`parseFrame` looks for one frame at the head of the buffer: it asks for more bytes, refuses the
buffer, or finds a frame and says how many bytes it takes.
-/

/-- The largest payload of a frame. -/
def maxFrameBytes : ℕ := 1024 * 1024

structure ParsedFrame where
  bytes : ℕ
  opcode : UInt8
  payload : List UInt8
deriving DecidableEq

def unmask (mask payload : List UInt8) : List UInt8 :=
  payload.mapIdx fun index byte => byte ^^^ mask.getD (index % 4) 0

def parseBody (buffer : List UInt8) (opcode : UInt8) (length offset : ℕ) :
    Except Text (Option ParsedFrame) :=
  if length > maxFrameBytes then .error (js "WebSocket frame exceeds its limit")
  else if buffer.length < offset + 4 + length then .ok none
  else
    let mask := (buffer.drop offset).take 4
    let payload := (buffer.drop (offset + 4)).take length
    .ok (some ⟨offset + 4 + length, opcode, unmask mask payload⟩)

/-- The payload length of the second byte, or the mark of a longer form. -/
def shortLength (buffer : List UInt8) : ℕ := (buffer.getD 1 0 &&& 0x7F).toNat

/-- The frame is final and masked. -/
def isAdmitted (buffer : List UInt8) : Bool :=
  buffer.getD 0 0 &&& 0x80 != 0 && buffer.getD 1 0 &&& 0x80 != 0

def parseHeader (buffer : List UInt8) : Except Text (Option (ℕ × ℕ)) :=
  if !isAdmitted buffer then .error (js "Invalid WebSocket frame")
  else if shortLength buffer = 126 then
    if buffer.length < 4 then .ok none else .ok (some (wordAt buffer 2 2, 4))
  else if shortLength buffer = 127 then
    if buffer.length < 10 then .ok none
    else if wordAt buffer 8 2 > maxFrameBytes then .error (js "WebSocket frame exceeds its limit")
    else .ok (some (wordAt buffer 8 2, 10))
  else .ok (some (shortLength buffer, 2))

def parseFrame (buffer : List UInt8) : Except Text (Option ParsedFrame) :=
  match parseHeader buffer with
  | .error message => .error message
  | .ok none => .ok none
  | .ok (some (length, offset)) => parseBody buffer (buffer.getD 0 0 &&& 0x0F) length offset

section Agreement

variable {left right : List UInt8} {count : ℕ}

section

variable (same : left.take count = right.take count)

include same

theorem getD_of_take {index : ℕ}
    (inside : index < count) : left.getD index 0 = right.getD index 0 := by
  have leftByte : (left.take count)[index]? = left[index]? := List.getElem?_take_of_lt inside
  have rightByte : (right.take count)[index]? = right[index]? := List.getElem?_take_of_lt inside
  rw [List.getD_eq_getElem?_getD, List.getD_eq_getElem?_getD, ← leftByte, ← rightByte, same]

theorem slice_of_take {offset width : ℕ} (inside : offset + width ≤ count) :
    (left.drop offset).take width = (right.drop offset).take width := by
  have cut : ∀ bytes : List UInt8,
      (bytes.drop offset).take width = ((bytes.take count).drop offset).take width := by
    intro bytes
    rw [List.drop_take, List.take_take, Nat.min_eq_left (by omega)]
  rw [cut left, cut right, same]

theorem wordAt_of_take {offset width : ℕ}
    (inside : offset + width ≤ count) : wordAt left width offset = wordAt right width offset := by
  rw [wordAt, wordAt, slice_of_take same inside]

theorem length_of_take (long : count ≤ left.length) : count ≤ right.length := by
  have lengths := congrArg List.length same
  rw [List.length_take, List.length_take] at lengths
  omega

end

end Agreement

variable {parsed : ParsedFrame} {buffer : List UInt8} {length offset : ℕ}

theorem parseBody_some {opcode : UInt8}
    (found : parseBody buffer opcode length offset = .ok (some parsed)) :
    length ≤ maxFrameBytes ∧ offset + 4 + length ≤ buffer.length ∧
      parsed.bytes = offset + 4 + length := by
  unfold parseBody at found
  by_cases large : length > maxFrameBytes
  · rw [if_pos large] at found
    cases found
  by_cases short : buffer.length < offset + 4 + length
  · rw [if_neg large, if_pos short] at found
    cases found
  rw [if_neg large, if_neg short] at found
  cases found
  exact ⟨by omega, by omega, rfl⟩

theorem parseBody_agree {left right : List UInt8} {opcode : UInt8}
    (found : parseBody left opcode length offset = .ok (some parsed))
    (same : left.take parsed.bytes = right.take parsed.bytes) :
    parseBody right opcode length offset = .ok (some parsed) := by
  have needs := parseBody_some found
  obtain ⟨small, long, bytes⟩ := needs
  rw [bytes] at same
  have longToo := length_of_take same long
  have mask := slice_of_take same (show offset + 4 ≤ offset + 4 + length by omega)
  have payload := slice_of_take same (le_refl (offset + 4 + length))
  rw [← found, parseBody, parseBody, if_neg (by omega), if_neg (by omega), if_neg (by omega),
    if_neg (by omega), mask, payload]

theorem parseBody_error {left : List UInt8} {opcode : UInt8} {message : Text}
    (found : parseBody left opcode length offset = .error message) (right : List UInt8) :
    parseBody right opcode length offset = .error message := by
  unfold parseBody at found ⊢
  by_cases large : length > maxFrameBytes
  · rw [if_pos large] at found ⊢
    exact found
  by_cases short : left.length < offset + 4 + length
  · rw [if_neg large, if_pos short] at found
    cases found
  rw [if_neg large, if_neg short] at found
  cases found

theorem opening_agree {left right : List UInt8} (same : left.take 2 = right.take 2) :
    isAdmitted left = isAdmitted right ∧ shortLength left = shortLength right := by
  have first := getD_of_take same (show 0 < 2 by decide)
  have second := getD_of_take same (show 1 < 2 by decide)
  rw [isAdmitted, isAdmitted, shortLength, shortLength, first, second]
  exact ⟨rfl, rfl⟩

theorem parseHeader_agree {left right : List UInt8}
    (found : parseHeader left = .ok (some (length, offset)))
    (same : left.take offset = right.take offset) (long : offset ≤ left.length) :
    2 ≤ offset ∧ parseHeader right = .ok (some (length, offset)) := by
  have longToo := length_of_take same long
  have opening : 2 ≤ offset → isAdmitted left = isAdmitted right ∧
      shortLength left = shortLength right := by
    intro behind
    have cut := congrArg (List.take 2) same
    rw [List.take_take, List.take_take, Nat.min_eq_left behind] at cut
    exact opening_agree cut
  unfold parseHeader at found ⊢
  by_cases refused : (!isAdmitted left) = true
  · rw [if_pos refused] at found
    cases found
  rw [if_neg refused] at found
  by_cases medium : shortLength left = 126
  · by_cases short : left.length < 4
    · rw [if_pos medium, if_pos short] at found
      cases found
    rw [if_pos medium, if_neg short] at found
    cases found
    have agree := opening (by decide)
    have word : wordAt left 2 2 = wordAt right 2 2 := wordAt_of_take same (by decide)
    rw [agree.1] at refused
    rw [agree.2] at medium
    rw [if_neg refused, if_pos medium, if_neg (by omega), word]
    exact ⟨by decide, rfl⟩
  by_cases wide : shortLength left = 127
  · by_cases short : left.length < 10
    · rw [if_neg medium, if_pos wide, if_pos short] at found
      cases found
    by_cases large : wordAt left 8 2 > maxFrameBytes
    · rw [if_neg medium, if_pos wide, if_neg short, if_pos large] at found
      cases found
    rw [if_neg medium, if_pos wide, if_neg short, if_neg large] at found
    cases found
    have agree := opening (by decide)
    have word : wordAt left 8 2 = wordAt right 8 2 := wordAt_of_take same (by decide)
    rw [agree.1] at refused
    rw [agree.2] at medium wide
    rw [word] at large
    rw [if_neg refused, if_neg medium, if_pos wide, if_neg (by omega), if_neg large, word]
    exact ⟨by decide, rfl⟩
  rw [if_neg medium, if_neg wide] at found
  cases found
  have agree := opening le_rfl
  rw [agree.1] at refused
  rw [agree.2] at medium wide
  rw [if_neg refused, if_neg medium, if_neg wide, agree.2]
  exact ⟨le_rfl, rfl⟩

theorem parseHeader_inside {read : ℕ × ℕ} (long : 2 ≤ buffer.length)
    (found : parseHeader buffer = .ok (some read)) : read.2 ≤ buffer.length := by
  unfold parseHeader at found
  by_cases refused : (!isAdmitted buffer) = true
  · rw [if_pos refused] at found
    cases found
  rw [if_neg refused] at found
  by_cases medium : shortLength buffer = 126
  · by_cases short : buffer.length < 4
    · rw [if_pos medium, if_pos short] at found
      cases found
    rw [if_pos medium, if_neg short] at found
    cases found
    exact Nat.le_of_not_lt short
  by_cases wide : shortLength buffer = 127
  · by_cases short : buffer.length < 10
    · rw [if_neg medium, if_pos wide, if_pos short] at found
      cases found
    by_cases large : wordAt buffer 8 2 > maxFrameBytes
    · rw [if_neg medium, if_pos wide, if_neg short, if_pos large] at found
      cases found
    rw [if_neg medium, if_pos wide, if_neg short, if_neg large] at found
    cases found
    exact Nat.le_of_not_lt short
  rw [if_neg medium, if_neg wide] at found
  cases found
  exact long

/-- A refusal of the header stays when a buffer of two bytes grows. -/
theorem parseHeader_error {message : Text} (long : 2 ≤ buffer.length)
    (found : parseHeader buffer = .error message) (extra : List UInt8) :
    parseHeader (buffer ++ extra) = .error message := by
  have same : ∀ count ≤ buffer.length, buffer.take count = (buffer ++ extra).take count := by
    intro count inside
    rw [List.take_append_of_le_length inside]
  have agree := opening_agree (same 2 long)
  have longer : (buffer ++ extra).length = buffer.length + extra.length := List.length_append
  unfold parseHeader at found ⊢
  rw [← agree.1, ← agree.2]
  by_cases refused : (!isAdmitted buffer) = true
  · rw [if_pos refused] at found ⊢
    exact found
  rw [if_neg refused] at found ⊢
  by_cases medium : shortLength buffer = 126
  · by_cases short : buffer.length < 4
    · rw [if_pos medium, if_pos short] at found
      cases found
    rw [if_pos medium, if_neg short] at found
    cases found
  by_cases wide : shortLength buffer = 127
  · by_cases short : buffer.length < 10
    · rw [if_neg medium, if_pos wide, if_pos short] at found
      cases found
    have word : wordAt (buffer ++ extra) 8 2 = wordAt buffer 8 2 := wordAt_append extra (by omega)
    rw [if_neg medium, if_pos wide, if_neg short] at found
    rw [if_neg medium, if_pos wide, if_neg (by omega), word]
    by_cases large : wordAt buffer 8 2 > maxFrameBytes
    · rw [if_pos large] at found ⊢
      exact found
    rw [if_neg large] at found
    cases found
  rw [if_neg medium, if_neg wide] at found
  cases found

theorem parseFrame_some (found : parseFrame buffer = .ok (some parsed)) :
    ∃ length offset, parseHeader buffer = .ok (some (length, offset)) ∧
      parseBody buffer (buffer.getD 0 0 &&& 0x0F) length offset = .ok (some parsed) := by
  unfold parseFrame at found
  cases header : parseHeader buffer with
  | error message =>
    rw [header] at found
    cases found
  | ok read =>
    rw [header] at found
    cases read with
    | none => cases found
    | some read => exact ⟨read.1, read.2, rfl, found⟩

theorem parseFrame_bytes (found : parseFrame buffer = .ok (some parsed)) :
    6 ≤ parsed.bytes ∧ parsed.bytes ≤ buffer.length := by
  have steps := parseFrame_some found
  obtain ⟨length, offset, header, body⟩ := steps
  have needs := parseBody_some body
  have behind := (parseHeader_agree header rfl (by omega)).1
  omega

theorem parseFrame_agree {left right : List UInt8} (found : parseFrame left = .ok (some parsed))
    (same : left.take parsed.bytes = right.take parsed.bytes) :
    parseFrame right = .ok (some parsed) := by
  have steps := parseFrame_some found
  obtain ⟨length, offset, header, body⟩ := steps
  have needs := parseBody_some body
  have cut := congrArg (List.take offset) same
  rw [List.take_take, List.take_take, Nat.min_eq_left (by omega)] at cut
  have again := parseHeader_agree header cut (by omega)
  have opcode := getD_of_take same (show 0 < parsed.bytes by omega)
  rw [parseFrame, again.2, ← opcode]
  exact parseBody_agree body same

theorem parseFrame_error {message : Text} (long : 2 ≤ buffer.length)
    (found : parseFrame buffer = .error message) (extra : List UInt8) :
    parseFrame (buffer ++ extra) = .error message := by
  have same : ∀ count ≤ buffer.length, buffer.take count = (buffer ++ extra).take count := by
    intro count inside
    rw [List.take_append_of_le_length inside]
  unfold parseFrame at found ⊢
  cases header : parseHeader buffer with
  | error refusal =>
    rw [header] at found
    rw [parseHeader_error long header extra]
    exact found
  | ok read =>
    rw [header] at found
    cases read with
    | none => cases found
    | some read =>
      have inside : read.2 ≤ buffer.length := parseHeader_inside long header
      have again := parseHeader_agree header (same read.2 inside) inside
      have opcode := getD_of_take (same 2 long) (show 0 < 2 by decide)
      rw [again.2, ← opcode]
      exact parseBody_error found (buffer ++ extra)

inductive LengthForm where
  | short
  | medium
  | long
deriving DecidableEq

namespace LengthForm

def Admits : LengthForm → ℕ → Prop
  | short, length => length < 126
  | medium, length => length < 2 ^ 16
  | long, length => length < 2 ^ 63

instance (form : LengthForm) (length : ℕ) : Decidable (form.Admits length) := by
  cases form <;> exact inferInstanceAs (Decidable (_ < _))

/-- The second byte of a masked frame and the length word behind it. -/
def write : LengthForm → ℕ → List UInt8
  | short, length => [0x80 ||| UInt8.ofNat length]
  | medium, length => 0xFE :: bigEndian 2 length
  | long, length => 0xFF :: bigEndian 8 length

end LengthForm

/-- The frames whose payload the inspector answers. -/
inductive ClientKind where
  | text
  | ping
deriving DecidableEq

def ClientKind.opcode : ClientKind → UInt8
  | text => 0x1
  | ping => 0x9

structure ClientFrame where
  kind : ClientKind
  form : LengthForm
  mask : List UInt8
  payload : List UInt8
  masked : mask.length = 4
  admits : form.Admits payload.length
  limited : payload.length ≤ maxFrameBytes

/-- The bytes of a frame in front of its mask. -/
def ClientFrame.header (frame : ClientFrame) : List UInt8 :=
  (0x80 ||| frame.kind.opcode) :: frame.form.write frame.payload.length

def ClientFrame.write (frame : ClientFrame) : List UInt8 :=
  frame.header ++ frame.mask ++ unmask frame.mask frame.payload

@[simp]
theorem length_unmask (mask payload : List UInt8) : (unmask mask payload).length = payload.length :=
  List.length_mapIdx

theorem unmask_unmask (mask payload : List UInt8) : unmask mask (unmask mask payload) =
    payload := by
  apply List.ext_getElem (by simp)
  intro index inside insideToo
  simp only [unmask, List.getElem_mapIdx, UInt8.xor_assoc, UInt8.xor_self, UInt8.xor_zero]

theorem secondByte : ∀ length < 128, (0x80 ||| UInt8.ofNat length) &&& 0x80 = (0x80 : UInt8) ∧
    ((0x80 ||| UInt8.ofNat length) &&& 0x7F).toNat = length := by
  decide

theorem firstByte (kind : ClientKind) : (0x80 ||| kind.opcode) &&& 0x80 = (0x80 : UInt8) ∧
    (0x80 ||| kind.opcode) &&& 0x0F = kind.opcode := by
  cases kind <;> decide

theorem parseBody_written {header mask payload : List UInt8} (masked : mask.length = 4)
    (limited : payload.length ≤ maxFrameBytes) (opcode : UInt8) (rest : List UInt8) :
    parseBody (header ++ mask ++ unmask mask payload ++ rest) opcode payload.length header.length =
      .ok (some ⟨header.length + 4 + payload.length, opcode, payload⟩) := by
  have long : (header ++ mask ++ unmask mask payload ++ rest).length =
      header.length + 4 + payload.length + rest.length := by
    simp [masked]
    omega
  have maskRead : ((header ++ mask ++ unmask mask payload ++ rest).drop header.length).take 4 =
      mask := by
    rw [List.append_assoc, List.append_assoc, List.drop_left' rfl]
    exact List.take_left' masked
  have payloadRead : ((header ++ mask ++ unmask mask payload ++ rest).drop
      (header.length + 4)).take payload.length = unmask mask payload := by
    rw [List.append_assoc, List.drop_left' (by rw [List.length_append, masked])]
    exact List.take_left' (length_unmask mask payload)
  rw [parseBody, if_neg (by omega), if_neg (by omega), maskRead, payloadRead]
  simp only [unmask_unmask]

theorem parseHeader_written (frame : ClientFrame) (rest : List UInt8) :
    parseHeader (frame.header ++ rest) =
      .ok (some (frame.payload.length, frame.header.length)) := by
  have first := (firstByte frame.kind).1
  have limited := frame.limited
  have admits := frame.admits
  unfold ClientFrame.header
  cases form : frame.form with
  | short =>
    rw [form] at admits
    have small : frame.payload.length < 126 := admits
    have second := secondByte frame.payload.length (by omega)
    have admitted : isAdmitted ((0x80 ||| frame.kind.opcode) ::
        LengthForm.short.write frame.payload.length ++ rest) = true := by
      simp [isAdmitted, LengthForm.write, first, second.1]
    have length : shortLength ((0x80 ||| frame.kind.opcode) ::
        LengthForm.short.write frame.payload.length ++ rest) = frame.payload.length := second.2
    rw [parseHeader, admitted, length, if_neg (by decide), if_neg (by omega), if_neg (by omega)]
    rfl
  | medium =>
    rw [form] at admits
    have small : frame.payload.length < 256 ^ 2 := admits
    have admitted : isAdmitted ((0x80 ||| frame.kind.opcode) ::
        LengthForm.medium.write frame.payload.length ++ rest) = true := by
      simp [isAdmitted, LengthForm.write, first]
      decide
    have length : shortLength ((0x80 ||| frame.kind.opcode) ::
        LengthForm.medium.write frame.payload.length ++ rest) = 126 :=
      show ((0xFE : UInt8) &&& 0x7F).toNat = 126 by decide
    have word : wordAt ((0x80 ||| frame.kind.opcode) ::
        LengthForm.medium.write frame.payload.length ++ rest) 2 2 = frame.payload.length :=
      wordAt_head rest small
    have long : ¬ ((0x80 ||| frame.kind.opcode) ::
        LengthForm.medium.write frame.payload.length ++ rest).length < 4 := by
      simp [LengthForm.write]
    rw [parseHeader, admitted, length, if_neg (by decide), if_pos rfl, if_neg long, word]
    rfl
  | long =>
    have small : frame.payload.length < 256 ^ 8 := by
      rw [maxFrameBytes] at limited
      omega
    have admitted : isAdmitted ((0x80 ||| frame.kind.opcode) ::
        LengthForm.long.write frame.payload.length ++ rest) = true := by
      simp [isAdmitted, LengthForm.write, first]
      decide
    have length : shortLength ((0x80 ||| frame.kind.opcode) ::
        LengthForm.long.write frame.payload.length ++ rest) = 127 :=
      show ((0xFF : UInt8) &&& 0x7F).toNat = 127 by decide
    have word : wordAt ((0x80 ||| frame.kind.opcode) ::
        LengthForm.long.write frame.payload.length ++ rest) 8 2 = frame.payload.length :=
      wordAt_head rest small
    have long : ¬ ((0x80 ||| frame.kind.opcode) ::
        LengthForm.long.write frame.payload.length ++ rest).length < 10 := by
      simp [LengthForm.write]
    rw [parseHeader, admitted, length, if_neg (by decide), if_neg (by decide), if_pos rfl,
      if_neg long, word, if_neg (by omega)]
    rfl

theorem parseFrame_written (frame : ClientFrame) (rest : List UInt8) :
    parseFrame (frame.write ++ rest) =
      .ok (some ⟨frame.write.length, frame.kind.opcode, frame.payload⟩) := by
  have whole : frame.write ++ rest =
      frame.header ++ (frame.mask ++ unmask frame.mask frame.payload ++ rest) := by
    simp [ClientFrame.write, List.append_assoc]
  have header : parseHeader (frame.write ++ rest) =
      .ok (some (frame.payload.length, frame.header.length)) := by
    rw [whole]
    exact parseHeader_written frame _
  have opcode : (frame.write ++ rest).getD 0 0 &&& 0x0F = frame.kind.opcode :=
    (firstByte frame.kind).2
  have size : frame.write.length = frame.header.length + 4 + frame.payload.length := by
    simp [ClientFrame.write, frame.masked, Nat.add_assoc]
  rw [parseFrame, header, opcode, size]
  exact parseBody_written frame.masked frame.limited frame.kind.opcode rest

/-- What the decoder does for a frame. The text of a message is handed to the chain of handler
calls, which makes them one after another. -/
inductive Action where
  | message (text : Text)
  | pong (payload : List UInt8)
  | close
deriving DecidableEq

structure Pushed where
  actions : List Action
  buffer : List UInt8
  thrown : Option Text
deriving DecidableEq

def Pushed.behind (pushed : Pushed) (action : Action) : Pushed :=
  { pushed with actions := action :: pushed.actions }

def pushLoop : ℕ → List UInt8 → Pushed
  | 0, buffer => ⟨[], buffer, none⟩
  | fuel + 1, buffer =>
    if buffer.length < 2 then ⟨[], buffer, none⟩
    else
      match parseFrame buffer with
      | .error message => ⟨[], buffer, some message⟩
      | .ok none => ⟨[], buffer, none⟩
      | .ok (some parsed) =>
        let left := buffer.drop parsed.bytes
        if parsed.opcode = 0x8 then ⟨[.close], left, none⟩
        else if parsed.opcode = 0x9 then (pushLoop fuel left).behind (.pong parsed.payload)
        else if parsed.opcode ≠ 0x1 then ⟨[], left, some (js "Unsupported WebSocket frame")⟩
        else (pushLoop fuel left).behind (.message (decodeLossy parsed.payload))

/-- Push a chunk behind the bytes that were kept. Each turn but the last takes bytes off, so the
turns suffice. -/
def push (buffer chunk : List UInt8) : Pushed :=
  pushLoop ((buffer ++ chunk).length + 1) (buffer ++ chunk)

/-- What pushing chunks one after another does, up to the point where a push throws. -/
structure Decoded where
  actions : List Action
  thrown : Option Text
deriving DecidableEq

def pushEach : List UInt8 → List (List UInt8) → Decoded
  | _, [] => ⟨[], none⟩
  | buffer, chunk :: chunks =>
    let pushed := push buffer chunk
    match pushed.thrown with
    | some message => ⟨pushed.actions, some message⟩
    | none =>
      let later := pushEach pushed.buffer chunks
      ⟨pushed.actions ++ later.actions, later.thrown⟩

def decode (chunks : List (List UInt8)) : Decoded := pushEach [] chunks

def actionOf (opcode : UInt8) (payload : List UInt8) : Option Action :=
  if opcode = 0x8 then some .close
  else if opcode = 0x9 then some (.pong payload)
  else if opcode ≠ 0x1 then none
  else some (.message (decodeLossy payload))

def nextAction (bytes : List UInt8) : Progress UInt8 Action :=
  if bytes.length < 2 then .more
  else
    match parseFrame bytes with
    | .error _ => .reject
    | .ok none => .more
    | .ok (some parsed) =>
      match actionOf parsed.opcode parsed.payload with
      | none => .reject
      | some action => .item action (bytes.drop parsed.bytes)

variable {bytes : List UInt8}

theorem nextAction_of_frame {action : Action} (found : parseFrame bytes = .ok (some parsed))
    (acts : actionOf parsed.opcode parsed.payload = some action) :
    nextAction bytes = .item action (bytes.drop parsed.bytes) := by
  have sizes := parseFrame_bytes found
  have long : ¬ bytes.length < 2 := by omega
  simp only [nextAction, if_neg long, found, acts]

theorem frame_of_nextAction {bytes rest : List UInt8} {action : Action}
    (found : nextAction bytes = .item action rest) :
    ∃ parsed, parseFrame bytes = .ok (some parsed) ∧
      actionOf parsed.opcode parsed.payload = some action ∧ rest = bytes.drop parsed.bytes := by
  rw [nextAction] at found
  by_cases short : bytes.length < 2
  · rw [if_pos short] at found
    cases found
  rw [if_neg short] at found
  cases read : parseFrame bytes with
  | error message => simp [read] at found
  | ok frame =>
    cases frame with
    | none => simp [read] at found
    | some parsed =>
      simp only [read] at found
      cases acts : actionOf parsed.opcode parsed.payload with
      | none => simp [acts] at found
      | some chosen =>
        simp only [acts, Progress.item.injEq] at found
        exact ⟨parsed, rfl, by rw [acts, found.1], found.2.symm⟩

theorem nextAction_reject (found : nextAction bytes = .reject)
    (extra : List UInt8) : nextAction (bytes ++ extra) = .reject := by
  rw [nextAction] at found
  by_cases short : bytes.length < 2
  · rw [if_pos short] at found
    cases found
  rw [if_neg short] at found
  have long : ¬ (bytes ++ extra).length < 2 := by
    rw [List.length_append]
    omega
  rw [nextAction, if_neg long]
  cases read : parseFrame bytes with
  | error message => rw [parseFrame_error (by omega) read extra]
  | ok frame =>
    cases frame with
    | none => simp [read] at found
    | some parsed =>
      have sizes := parseFrame_bytes read
      have again : parseFrame (bytes ++ extra) = .ok (some parsed) :=
        parseFrame_agree read (List.take_append_of_le_length sizes.2).symm
      simp only [read] at found
      rw [again]
      cases acts : actionOf parsed.opcode parsed.payload with
      | none => simp only [acts]
      | some chosen => simp [acts] at found

theorem nextAction_beginning {bytes rest : List UInt8} {action : Action}
    (found : nextAction bytes = .item action rest) :
    ∃ frame, bytes = frame ++ rest ∧ frame ≠ [] ∧
      ∀ extra, nextAction (frame ++ extra) = .item action extra := by
  have read := frame_of_nextAction found
  obtain ⟨parsed, parse, acts, left⟩ := read
  have sizes := parseFrame_bytes parse
  have size : (bytes.take parsed.bytes).length = parsed.bytes := by
    rw [List.length_take]
    omega
  refine ⟨bytes.take parsed.bytes, ?_, ?_, fun extra => ?_⟩
  · rw [left, List.take_append_drop]
  · intro empty
    rw [empty, List.length_nil] at size
    omega
  · have same : bytes.take parsed.bytes =
        (bytes.take parsed.bytes ++ extra).take parsed.bytes := (List.take_left' size).symm
    rw [nextAction_of_frame (parseFrame_agree parse same) acts, List.drop_left' size]

def actionReader : Incremental UInt8 Action where
  next := nextAction
  next_nil := rfl
  shorter := by
    intro input action rest found
    have parts := nextAction_beginning found
    obtain ⟨frame, whole, some', -⟩ := parts
    have positive := List.length_pos_iff.mpr some'
    rw [whole, List.length_append]
    omega
  item_append := by
    intro input action rest found extra
    have parts := nextAction_beginning found
    obtain ⟨frame, whole, -, reads⟩ := parts
    rw [whole, List.append_assoc]
    exact reads (rest ++ extra)
  reject_append := nextAction_reject

theorem actionReader_takesFront : actionReader.TakesFront := by
  intro bytes action rest found
  have parts := nextAction_beginning found
  obtain ⟨frame, whole, -, reads⟩ := parts
  have alone := reads []
  rw [List.append_nil] at alone
  exact ⟨frame, whole, alone⟩

/-- The decoder pauses behind a close frame. -/
def pausesAt (action : Action) : Bool := action = .close

/-- A push does what the reader does: the same actions, a failure for a refusal, and the same
bytes kept when there is none. -/
structure Pushed.Follows (pushed : Pushed) (taken : Drained UInt8 Action) : Prop where
  actions : pushed.actions = taken.items
  thrown : pushed.thrown.isSome = taken.rejected
  buffer : taken.rejected = false → pushed.buffer = taken.rest

theorem Pushed.Follows.behind {pushed : Pushed} {taken : Drained UInt8 Action}
    (follows : pushed.Follows taken) (action : Action) :
    (pushed.behind action).Follows (taken.prepend [action]) where
  actions := congrArg (List.cons action) follows.actions
  thrown := follows.thrown
  buffer := follows.buffer

theorem pushLoop_follows (fuel : ℕ) (bytes : List UInt8) :
    (pushLoop fuel bytes).Follows (actionReader.takeFor pausesAt fuel bytes) := by
  induction fuel generalizing bytes with
  | zero => exact ⟨rfl, rfl, fun _ => rfl⟩
  | succ fuel ih =>
    have looks : actionReader.next bytes = nextAction bytes := rfl
    rw [pushLoop, Incremental.takeFor, looks, nextAction]
    by_cases short : bytes.length < 2
    · rw [if_pos short, if_pos short]
      exact ⟨rfl, rfl, fun _ => rfl⟩
    rw [if_neg short, if_neg short]
    cases read : parseFrame bytes with
    | error message => exact ⟨rfl, rfl, fun impossible => by cases impossible⟩
    | ok frame =>
      cases frame with
      | none => exact ⟨rfl, rfl, fun _ => rfl⟩
      | some parsed =>
        simp only [actionOf]
        by_cases closes : parsed.opcode = 0x8
        · simp only [if_pos closes]
          exact ⟨rfl, rfl, fun _ => rfl⟩
        by_cases pings : parsed.opcode = 0x9
        · simp only [if_neg closes, if_pos pings]
          exact (ih _).behind _
        by_cases other : parsed.opcode ≠ 0x1
        · simp only [if_neg closes, if_neg pings, if_pos other]
          exact ⟨rfl, rfl, fun impossible => by cases impossible⟩
        · simp only [if_neg closes, if_neg pings, if_neg other]
          exact (ih _).behind _

theorem pushEach_follows (buffer : List UInt8) (chunks : List (List UInt8)) :
    (pushEach buffer chunks).actions = (actionReader.feedPausing pausesAt buffer chunks).items ∧
      (pushEach buffer chunks).thrown.isSome =
        (actionReader.feedPausing pausesAt buffer chunks).rejected := by
  induction chunks generalizing buffer with
  | nil => exact ⟨rfl, rfl⟩
  | cons chunk chunks ih =>
    have follows : (push buffer chunk).Follows
      (actionReader.untilPause pausesAt (buffer ++ chunk)) :=
      pushLoop_follows _ _
    rw [pushEach, Incremental.feedPausing]
    cases thrown : (push buffer chunk).thrown with
    | some message =>
      have refused : (actionReader.untilPause pausesAt (buffer ++ chunk)).rejected = true := by
        rw [← follows.thrown, thrown]
        rfl
      simp only [refused, if_true]
      exact ⟨follows.actions, rfl⟩
    | none =>
      have admitted : (actionReader.untilPause pausesAt (buffer ++ chunk)).rejected = false := by
        rw [← follows.thrown, thrown]
        rfl
      have later := ih (push buffer chunk).buffer
      rw [follows.buffer admitted] at later
      simp only [admitted, Bool.false_eq_true, if_false, Drained.prepend_items,
        Drained.prepend_rejected, follows.buffer admitted, follows.actions]
      exact ⟨congrArg _ later.1, later.2⟩

/-- Behind a close frame nothing is complete or refused. -/
def ClosesLast (bytes : List UInt8) : Prop := actionReader.Quiet pausesAt bytes

/-- No message and no pong stands behind a close. -/
def Silenced (actions : List Action) : Prop := ∀ before later action,
  actions = before ++ .close :: later → action ∈ later → action = .close

/-- The actions of two cuttings of the same bytes are the same, both throw or neither does, and
nothing is answered behind a close frame. -/
def Independent (bytes : List UInt8) : Prop := ∀ chunks others : List (List UInt8),
  chunks.flatten = bytes → others.flatten = bytes →
    (decode chunks).actions = (decode others).actions ∧
    (decode chunks).thrown.isSome = (decode others).thrown.isSome ∧
    Silenced (decode chunks).actions

def ClientFrame.action (frame : ClientFrame) : Action :=
  match frame.kind with
  | .text => .message (decodeLossy frame.payload)
  | .ping => .pong frame.payload

theorem decode_of_closesLast {chunks : List (List UInt8)} (last : ClosesLast chunks.flatten) :
    (decode chunks).actions = (actionReader.drain chunks.flatten).items ∧
      (decode chunks).thrown.isSome = (actionReader.drain chunks.flatten).rejected := by
  have follows := pushEach_follows [] chunks
  have fed := actionReader.feedPausing_of_quiet pausesAt actionReader_takesFront chunks
    actionReader.next_nil last
  exact ⟨follows.1.trans fed.1, follows.2.trans fed.2⟩

theorem silenced_of_closesLast (last : ClosesLast bytes) :
    Silenced (actionReader.drain bytes).items := by
  intro before later action whole actionIn
  cases actionReader.untilPause_cases pausesAt actionReader_takesFront bytes with
  | inl ended =>
    have closeIn : Action.close ∈ (actionReader.drain bytes).items := by
      rw [whole]
      exact List.mem_append_right _ List.mem_cons_self
    have goes := ended.2 .close closeIn
    cases goes
  | inr paused =>
    obtain ⟨front, items, value, rest, cut, -, -, spells, stops, goes⟩ := paused
    have nothing := last front items value rest cut spells stops
    have drained : (actionReader.drain bytes).items = items ++ [value] := by
      rw [cut, actionReader.drain_of_spells spells, actionReader.drain_more nothing,
        Drained.prepend_items, List.append_nil]
    rw [drained] at whole
    rcases List.eq_nil_or_concat later with empty | ⟨earlier, final, ends⟩
    · rw [empty] at actionIn
      exact absurd actionIn List.not_mem_nil
    · have regrouped : items ++ [value] = (before ++ .close :: earlier) ++ [final] := by
        rw [whole, ends, List.concat_eq_append, List.append_assoc, List.cons_append]
      have same := (List.append_inj' regrouped rfl).1
      have goesClose := goes .close (by
        rw [same]
        exact List.mem_append_right _ List.mem_cons_self)
      cases goesClose

theorem drain_write (frames : List ClientFrame) :
    actionReader.drain (frames.flatMap ClientFrame.write) =
      ⟨frames.map ClientFrame.action, [], false⟩ := by
  induction frames with
  | nil => exact actionReader.drain_more actionReader.next_nil
  | cons frame frames ih =>
    have parse := parseFrame_written frame (frames.flatMap ClientFrame.write)
    have acts : actionOf frame.kind.opcode frame.payload = some frame.action := by
      unfold ClientFrame.action
      cases frame.kind with
      | text => rfl
      | ping => rfl
    have found := nextAction_of_frame parse acts
    rw [List.drop_left' rfl] at found
    rw [List.flatMap_cons, actionReader.drain_item found, ih]
    rfl

theorem action_ne_close (frame : ClientFrame) : frame.action ≠ .close := by
  unfold ClientFrame.action
  cases frame.kind with
  | text => exact Action.noConfusion
  | ping => exact Action.noConfusion

theorem closesLast_write (frames : List ClientFrame) :
    ClosesLast (frames.flatMap ClientFrame.write) := by
  intro front items value rest whole spells stops
  have closes : value = .close := of_decide_eq_true stops
  have drained := drain_write frames
  rw [whole, actionReader.drain_of_spells spells] at drained
  have sameItems : items ++ [value] ++ (actionReader.drain rest).items =
      frames.map ClientFrame.action := congrArg Drained.items drained
  have valueIn : value ∈ frames.map ClientFrame.action := by
    rw [← sameItems]
    exact List.mem_append_left _ (List.mem_append_right _ List.mem_cons_self)
  rw [List.mem_map] at valueIn
  obtain ⟨frame, -, acts⟩ := valueIn
  exact absurd (acts.trans closes) (action_ne_close frame)

/-- What the decoder does depends on the bytes alone, and nothing is answered behind a close
frame, exactly when nothing behind the first close frame is complete or refused. Text and ping
frames in any of the length forms give their payloads in order under every cutting. -/
theorem decode_independent (bytes : List UInt8) : (Independent bytes ↔ ClosesLast bytes) ∧
    ∀ (frames : List ClientFrame) (chunks : List (List UInt8)), chunks.flatten = bytes →
      frames.flatMap ClientFrame.write = bytes →
        decode chunks = ⟨frames.map ClientFrame.action, none⟩ := by
  constructor
  · constructor
    · intro independent
      apply actionReader.quiet_of_same pausesAt actionReader_takesFront
      intro front rest whole _ _
      have cut : [front, rest].flatten = bytes := by
        rw [whole]
        simp
      have same := independent [front, rest] [bytes] cut (by simp)
      have first := pushEach_follows [] [front, rest]
      have second := pushEach_follows [] [bytes]
      rw [← first.1, ← first.2, ← second.1, ← second.2]
      exact ⟨same.1, same.2.1⟩
    · intro last chunks others cut cutToo
      have first := decode_of_closesLast (cut ▸ last)
      have second := decode_of_closesLast (cutToo ▸ last)
      rw [first.1, first.2, second.1, second.2, cut, cutToo]
      exact ⟨rfl, rfl, silenced_of_closesLast last⟩
  · intro frames chunks cut written
    rw [← written] at cut
    have last : ClosesLast chunks.flatten := by
      rw [cut]
      exact closesLast_write frames
    have decoded := decode_of_closesLast last
    rw [cut, drain_write] at decoded
    have thrown := Option.isSome_eq_false_iff.mp decoded.2
    cases outcome : decode chunks with
    | mk actions failure =>
      rw [outcome] at decoded thrown
      have actionsRead : actions = frames.map ClientFrame.action := decoded.1
      have failureRead : failure = none := Option.isNone_iff_eq_none.mp thrown
      rw [actionsRead, failureRead]

/-- A ping of two bytes, masked, with its length in a word of eight bytes. -/
def longPing : ClientFrame where
  kind := .ping
  form := .long
  mask := [1, 2, 3, 4]
  payload := [0x68, 0x69]
  masked := rfl
  admits := by decide
  limited := by decide

/-- The ping is answered also when it arrives in three chunks. -/
theorem decode_independent_ping :
    decode [[0x89, 0xFF, 0, 0, 0], [0, 0, 0, 0, 2, 1, 2, 3, 4, 0x69], [0x6B]] =
      ⟨[.pong [0x68, 0x69]], none⟩ :=
  (decode_independent (longPing.write)).2 [longPing] _ (by decide) (by decide)

/-- A close frame and an empty ping in one chunk are only a close; cut between the two, the ping
is answered behind the close. -/
theorem not_independent_behind_close : ¬ ∀ bytes, Independent bytes := by
  intro independent
  have same := independent [0x88, 0x80, 0, 0, 0, 0, 0x89, 0x80, 0, 0, 0, 0]
    [[0x88, 0x80, 0, 0, 0, 0, 0x89, 0x80, 0, 0, 0, 0]]
    [[0x88, 0x80, 0, 0, 0, 0], [0x89, 0x80, 0, 0, 0, 0]] rfl rfl
  have atOnce : (decode [[0x88, 0x80, 0, 0, 0, 0, 0x89, 0x80, 0, 0, 0, 0]]).actions = [.close] := by
    decide
  have apart : (decode [[0x88, 0x80, 0, 0, 0, 0], [0x89, 0x80, 0, 0, 0, 0]]).actions =
      [.close, .pong []] := by
    decide
  rw [atOnce, apart] at same
  exact absurd same.1 (by decide)

end Holonomy.Inspector
