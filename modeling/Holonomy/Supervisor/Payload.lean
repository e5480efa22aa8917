import Holonomy.Foundation.Scanner
import Holonomy.Foundation.Json
import Holonomy.Supervisor.Codec

/-!
# Payloads of supervisor frames

What the host reads from the payloads the guest sends, and what it writes into its answers. Every
reader refuses a payload with bytes left over.
-/

namespace Holonomy.Supervisor

open Foundation Scanner

/-! ## Spawn payloads

The host writes the request to start a program as one payload, and the supervisor inside the guest
reads it with a parser of its own.
-/

def longestString : ℕ := 2 ^ 29 - 24

/-- The program of a request, as far as the writer reads it. -/
structure Executable where
  kind : Text
  path : Text
  deriving DecidableEq

/-- A request to start a program, as far as the writer reads it. -/
structure ProcessBackendSpawnRequestV1 where
  args : List Text
  cwd : Text
  env : List (Text × Text)
  executable : Executable
  executableId : Text
  processResourceId : Text
  stdio : List Text
  /-- The environment is a record: no key stands twice. -/
  record : (env.map Prod.fst).Nodup
  short : ∀ text ∈ [executable.path, cwd, executableId, processResourceId] ++ args ++
    env.flatMap (fun entry => [entry.1, entry.2]), text.length ≤ longestString

def stringBytes (text : Text) : List UInt8 :=
  bigEndian 4 (encodeUtf8 text).length ++ encodeUtf8 text

def writeString (text : Text) : Option (List UInt8) :=
  if (0 : UInt16) ∈ text then none else some (stringBytes text)

/-- The writer's `u16`. -/
def writeU16 (value : ℕ) : Option (List UInt8) :=
  if 0xFFFF < value then none else some (bigEndian 2 value)

/-- The writer's `string`, called for one text after another. -/
def writeStrings : List Text → Option (List UInt8)
  | [] => some []
  | text :: texts => do
    let first ← writeString text
    let rest ← writeStrings texts
    some (first ++ rest)

/-- One bit for each pipe. -/
def stdioMask (stdio : List Text) : ℕ :=
  stdio.zipIdx.foldl (fun mask entry =>
    if entry.1 = js "pipe" then mask ||| (1 <<< entry.2) else mask) 0

/-- The environment in the order of its keys. -/
def sortedEntries (request : ProcessBackendSpawnRequestV1) : List (Text × Text) :=
  (JsonValue.byKey Text).sort request.env

/-- Keys and values in turn. -/
def entryTexts (entries : List (Text × Text)) : List Text :=
  entries.flatMap fun entry => [entry.1, entry.2]

def encodeHoloUvSpawnPayloadV1 (request : ProcessBackendSpawnRequestV1) :
    Option (List UInt8) := do
  if request.executable.kind ≠ js "guestPath" ∨ request.stdio.length ≠ 3 ∨
      request.stdio.any (fun mode => mode ≠ js "ignore" ∧ mode ≠ js "pipe") then none
  let entries := sortedEntries request
  if 0xFFFF < request.args.length ∨ 0xFFFF < entries.length then none
  let head : List UInt8 := [1, UInt8.ofNat (stdioMask request.stdio), 0, 0]
  let names ← writeStrings
    [request.executable.path, request.cwd, request.executableId, request.processResourceId]
  let argumentCount ← writeU16 request.args.length
  let environmentCount ← writeU16 entries.length
  let args ← writeStrings request.args
  let env ← writeStrings (entryTexts entries)
  some (head ++ names ++ argumentCount ++ environmentCount ++ args ++ env)

/-- What the supervisor keeps of a request. -/
structure HoloSpawnRequest where
  stdioMask : ℕ
  path : List UInt8
  cwd : List UInt8
  executableId : List UInt8
  resourceId : List UInt8
  argv : List (List UInt8)
  envp : List (List UInt8)
  deriving DecidableEq

def holoMaxArgs : ℕ := 256

def holoMaxEnv : ℕ := 256

def holoMaxString : ℕ := 4096

/-- The character `/`. -/
def slash : UInt8 := 0x2F

/-- The character `=`. -/
def equalsSign : UInt8 := 0x3D

/-- Take bytes, unless fewer are left. -/
def holoReaderBytes (length : ℕ) : Scanner (List UInt8) := fun bytes offset =>
  if bytes.length < offset + length then none
  else some ((bytes.drop offset).take length, offset + length)

/-- Take one byte. -/
def holoReaderU8 : Scanner ℕ := do
  let bytes ← holoReaderBytes 1
  pure (fromBigEndian bytes)

/-- Take two bytes, the most significant one first. -/
def holoReaderU16 : Scanner ℕ := do
  let bytes ← holoReaderBytes 2
  pure (fromBigEndian bytes)

def holoReaderString (maximum : ℕ) : Scanner (List UInt8) := do
  let bytes ← holoReaderBytes 4
  require (fromBigEndian bytes ≤ maximum)
  let output ← holoReaderBytes (fromBigEndian bytes)
  require ((0 : UInt8) ∉ output)
  pure output

/-- The argument vector: the path, then the arguments. -/
def parseArgs (path : List UInt8) (count : ℕ) : Scanner (List (List UInt8)) := do
  let args ← many (holoReaderString holoMaxString) count
  pure (path :: args)

def parseAssignment : Scanner (List UInt8) := do
  let key ← holoReaderString 256
  let value ← holoReaderString holoMaxString
  require (key ≠ [])
  require (equalsSign ∉ key)
  pure (key ++ [equalsSign] ++ value)

/-- The environment vector. -/
def parseEnv (count : ℕ) : Scanner (List (List UInt8)) := many parseAssignment count

/-- The supervisor's parser before it asks whether all bytes were read. -/
def parseFields : Scanner HoloSpawnRequest := do
  let version ← holoReaderU8
  require (version = 1)
  let stdioMask ← holoReaderU8
  require (stdioMask ≤ 7)
  let reserved ← holoReaderBytes 2
  require (reserved = [0, 0])
  let path ← holoReaderString holoMaxString
  require (path.head? = some slash)
  let cwd ← holoReaderString holoMaxString
  require (cwd.head? = some slash)
  let executableId ← holoReaderString 128
  let resourceId ← holoReaderString 128
  let argumentCount ← holoReaderU16
  require (argumentCount ≤ holoMaxArgs)
  let environmentCount ← holoReaderU16
  require (environmentCount ≤ holoMaxEnv)
  let argv ← parseArgs path argumentCount
  let envp ← parseEnv environmentCount
  pure ⟨stdioMask, path, cwd, executableId, resourceId, argv, envp⟩

/-- The supervisor's parser. A payload is shorter than a frame, so no sum of lengths overflows. -/
def holoParseSpawn (payload : List UInt8) : Option HoloSpawnRequest := parseFields.all payload

def assignment (entry : Text × Text) : List UInt8 :=
  encodeUtf8 entry.1 ++ [equalsSign] ++ encodeUtf8 entry.2

def supervised (request : ProcessBackendSpawnRequestV1) : HoloSpawnRequest where
  stdioMask := stdioMask request.stdio
  path := encodeUtf8 request.executable.path
  cwd := encodeUtf8 request.cwd
  executableId := encodeUtf8 request.executableId
  resourceId := encodeUtf8 request.processResourceId
  argv := encodeUtf8 request.executable.path :: request.args.map encodeUtf8
  envp := (sortedEntries request).map assignment

/-- The request is within the limits of the parser. -/
structure FitsSupervisor (request : ProcessBackendSpawnRequestV1) : Prop where
  path : request.executable.path.head? = some 0x2F
  cwd : request.cwd.head? = some 0x2F
  argumentCount : request.args.length ≤ holoMaxArgs
  environmentCount : request.env.length ≤ holoMaxEnv
  pathLength : (encodeUtf8 request.executable.path).length ≤ holoMaxString
  cwdLength : (encodeUtf8 request.cwd).length ≤ holoMaxString
  executableId : (encodeUtf8 request.executableId).length ≤ 128
  resourceId : (encodeUtf8 request.processResourceId).length ≤ 128
  args : ∀ text ∈ request.args, (encodeUtf8 text).length ≤ holoMaxString
  keys : ∀ entry ∈ request.env, (encodeUtf8 entry.1).length ≤ 256
  values : ∀ entry ∈ request.env, (encodeUtf8 entry.2).length ≤ holoMaxString
  named : ∀ entry ∈ request.env, entry.1 ≠ []
  plain : ∀ entry ∈ request.env, (0x3D : UInt16) ∉ entry.1

section Reader

variable {fits : Prop}

theorem reads_bytes (written : List UInt8) :
    Reads (holoReaderBytes written.length) written written := by
  intro before after
  have found : ((before ++ written ++ after).drop before.length).take written.length = written := by
    rw [List.append_assoc, List.drop_left, List.take_left]
  rw [holoReaderBytes, if_neg (by simp only [List.length_append]; omega), found]

theorem stable_bytes (length : ℕ) : Stable (holoReaderBytes length) := by
  intro bytes extra offset found success
  unfold holoReaderBytes at success ⊢
  split at success
  · cases success
  · rename_i inside
    have behind : length ≤ (bytes.drop offset).length := by
      rw [List.length_drop]
      omega
    rw [if_neg (by rw [List.length_append]; omega), List.drop_append_of_le_length (by omega),
      List.take_append_of_le_length behind]
    exact success

theorem follows_word {width value : ℕ} (small : value < 256 ^ width) :
    Follows fits (do let bytes ← holoReaderBytes width; pure (fromBigEndian bytes))
      (bigEndian width value) value := by
  have bytes := reads_bytes (bigEndian width value)
  rw [length_bigEndian] at bytes
  have word : Follows fits (do let bytes ← holoReaderBytes width; pure (fromBigEndian bytes))
      (bigEndian width value) (fromBigEndian (bigEndian width value)) := (bytes.follows fits).done
  rwa [fromBigEndian_bigEndian small] at word

theorem length_encodeUtf8_lt {text : Text} (short : text.length ≤ longestString) :
    (encodeUtf8 text).length < 256 ^ 4 := by
  have bytes := length_encodeUtf8_le text
  unfold longestString at short
  omega

theorem follows_string {maximum : ℕ} {text : Text} (short : text.length ≤ longestString)
    (plain : (0 : UInt16) ∉ text) (within : fits → (encodeUtf8 text).length ≤ maximum) :
    Follows fits (holoReaderString maximum) (stringBytes text) (encodeUtf8 text) := by
  have small := length_encodeUtf8_lt short
  have length := reads_bytes (bigEndian 4 (encodeUtf8 text).length)
  rw [length_bigEndian] at length
  have noNul : (0 : UInt8) ∉ encodeUtf8 text := by
    have same := mem_encodeUtf8_ascii text (show 0 < 0x80 by decide)
    exact fun found => plain (same.mp found)
  have checked : Follows fits (require ((0 : UInt8) ∉ encodeUtf8 text) >>=
      fun _ => pure (encodeUtf8 text)) [] (encodeUtf8 text) :=
    Follows.require (fun _ => noNul) ((reads_pure _).follows fits)
  have body : Follows fits (do
      let output ← holoReaderBytes (encodeUtf8 text).length
      require ((0 : UInt8) ∉ output)
      pure output) (encodeUtf8 text ++ []) (encodeUtf8 text) :=
    ((reads_bytes (encodeUtf8 text)).follows fits).bind checked
  rw [List.append_nil] at body
  have spelled := fromBigEndian_bigEndian small
  apply (length.follows fits).bind
  rw [spelled]
  exact Follows.require within body

theorem stable_u8 : Stable holoReaderU8 := (stable_bytes 1).bind fun _ => stable_pure _

theorem stable_u16 : Stable holoReaderU16 := (stable_bytes 2).bind fun _ => stable_pure _

theorem stable_after {β : Type} {next : Scanner β} (condition : Prop) [Decidable condition]
    (rest : Stable next) : Stable (require condition >>= fun _ => next) :=
  (stable_require condition).bind fun _ => rest

theorem stable_string (maximum : ℕ) : Stable (holoReaderString maximum) := by
  apply (stable_bytes 4).bind
  intro length
  apply stable_after
  apply (stable_bytes _).bind
  intro output
  exact stable_after _ (stable_pure _)

theorem stable_assignment : Stable parseAssignment := by
  apply (stable_string 256).bind
  intro key
  apply (stable_string holoMaxString).bind
  intro value
  exact stable_after _ (stable_after _ (stable_pure _))

/-- What the parser read stays when bytes follow. -/
theorem stable_fields : Stable parseFields := by
  apply stable_u8.bind
  intro version
  apply stable_after
  apply stable_u8.bind
  intro mask
  apply stable_after
  apply (stable_bytes 2).bind
  intro reserved
  apply stable_after
  apply (stable_string holoMaxString).bind
  intro path
  apply stable_after
  apply (stable_string holoMaxString).bind
  intro cwd
  apply stable_after
  apply (stable_string 128).bind
  intro executableId
  apply (stable_string 128).bind
  intro resourceId
  apply stable_u16.bind
  intro argumentCount
  apply stable_after
  apply stable_u16.bind
  intro environmentCount
  apply stable_after
  have argv : Stable (parseArgs path argumentCount) :=
    ((stable_string holoMaxString).many argumentCount).bind fun _ => stable_pure _
  apply argv.bind
  intro argv
  exact (stable_assignment.many environmentCount).bind fun _ => stable_pure _

end Reader

section Writer

theorem writeStrings_eq_some {texts : List Text} {bytes : List UInt8} :
    writeStrings texts = some bytes ↔
      (∀ text ∈ texts, (0 : UInt16) ∉ text) ∧ texts.flatMap stringBytes = bytes := by
  induction texts generalizing bytes with
  | nil => simp [writeStrings]
  | cons text texts ih =>
    rw [writeStrings, writeString]
    by_cases nul : (0 : UInt16) ∈ text
    · simp [nul]
    · simp [nul, ih, Option.bind_eq_some_iff]

theorem writeU16_eq_some {value : ℕ} {bytes : List UInt8} :
    writeU16 value = some bytes ↔ value ≤ 0xFFFF ∧ bigEndian 2 value = bytes := by
  rw [writeU16]
  split
  · simp
    omega
  · simp
    omega

def requestTexts (request : ProcessBackendSpawnRequestV1) : List Text :=
  [request.executable.path, request.cwd, request.executableId, request.processResourceId] ++
    request.args ++ entryTexts (sortedEntries request)

theorem encodeHoloUvSpawnPayloadV1_eq_some {request : ProcessBackendSpawnRequestV1}
    {payload : List UInt8} (encoded : encodeHoloUvSpawnPayloadV1 request = some payload) :
    request.stdio.length = 3 ∧ request.args.length ≤ 0xFFFF ∧ request.env.length ≤ 0xFFFF ∧
      (∀ text ∈ requestTexts request, (0 : UInt16) ∉ text) ∧
      payload = [1] ++ ([UInt8.ofNat (stdioMask request.stdio)] ++ ([0, 0] ++
        (stringBytes request.executable.path ++ (stringBytes request.cwd ++
        (stringBytes request.executableId ++ (stringBytes request.processResourceId ++
        (bigEndian 2 request.args.length ++ (bigEndian 2 (sortedEntries request).length ++
        (request.args.flatMap stringBytes ++ (sortedEntries request).flatMap fun entry =>
            stringBytes entry.1 ++ stringBytes entry.2))))))))) := by
  unfold encodeHoloUvSpawnPayloadV1 at encoded
  split at encoded
  · cases encoded
  rename_i admitted
  simp only at encoded
  split at encoded
  · cases encoded
  simp only [Option.bind_eq_bind, Option.bind_eq_some_iff, writeStrings_eq_some,
    writeU16_eq_some, Option.some.injEq] at encoded
  obtain ⟨names, ⟨namesPlain, rfl⟩, argumentCount, ⟨arguments, rfl⟩, environmentCount,
    ⟨environment, rfl⟩, args, ⟨argsPlain, rfl⟩, env, ⟨envPlain, rfl⟩, rfl⟩ := encoded
  have counted : (sortedEntries request).length = request.env.length := Precedence.length_sort _ _
  refine ⟨?_, arguments, counted ▸ environment, ?_, ?_⟩
  · by_contra other
    exact admitted (.inr (.inl other))
  · intro text textIn
    rw [requestTexts, List.mem_append, List.mem_append] at textIn
    exact textIn.elim (fun front => front.elim (namesPlain text) (argsPlain text)) (envPlain text)
  · simp [entryTexts, List.flatMap_assoc, List.append_assoc]

theorem stdioMask_le {stdio : List Text} (three : stdio.length = 3) : stdioMask stdio ≤ 7 := by
  obtain ⟨first, second, third, rfl⟩ := List.length_eq_three.mp three
  simp only [stdioMask, List.zipIdx_cons, List.zipIdx_nil, List.foldl_cons, List.foldl_nil]
  split_ifs <;> decide

theorem short_requestTexts (request : ProcessBackendSpawnRequestV1) :
    ∀ text ∈ requestTexts request, text.length ≤ longestString := by
  intro text textIn
  apply request.short text
  rw [requestTexts, List.mem_append] at textIn
  rw [List.mem_append]
  refine textIn.imp_right fun found => ?_
  rw [entryTexts, List.mem_flatMap] at found
  obtain ⟨entry, entryIn, textIn⟩ := found
  exact List.mem_flatMap.mpr ⟨entry, ((JsonValue.byKey Text).mem_sort _ _).mp entryIn, textIn⟩

end Writer

theorem follows_assignment {fits : Prop} {entry : Text × Text}
    (short : ∀ text ∈ [entry.1, entry.2], text.length ≤ longestString)
    (plain : ∀ text ∈ [entry.1, entry.2], (0 : UInt16) ∉ text)
    (within : fits → (encodeUtf8 entry.1).length ≤ 256 ∧
      (encodeUtf8 entry.2).length ≤ holoMaxString ∧ entry.1 ≠ [] ∧ (0x3D : UInt16) ∉ entry.1) :
    Follows fits parseAssignment (stringBytes entry.1 ++ stringBytes entry.2)
      (assignment entry) := by
  have key : Follows fits (holoReaderString 256) (stringBytes entry.1) (encodeUtf8 entry.1) :=
    follows_string (short _ (by simp)) (plain _ (by simp)) fun fit => (within fit).1
  have value : Follows fits (holoReaderString holoMaxString) (stringBytes entry.2)
      (encodeUtf8 entry.2) :=
    follows_string (short _ (by simp)) (plain _ (by simp)) fun fit => (within fit).2.1
  have named (fit : fits) : encodeUtf8 entry.1 ≠ [] := fun empty =>
    (within fit).2.2.1 ((encodeUtf8_eq_nil _).mp empty)
  have separate (fit : fits) : equalsSign ∉ encodeUtf8 entry.1 := fun found =>
    (within fit).2.2.2 ((mem_encodeUtf8_ascii entry.1 (show 0x3D < 0x80 by decide)).mp found)
  have checked : Follows fits (require (encodeUtf8 entry.1 ≠ []) >>= fun _ =>
      require (equalsSign ∉ encodeUtf8 entry.1) >>= fun _ => pure (assignment entry)) []
      (assignment entry) :=
    Follows.require named (Follows.require separate ((reads_pure _).follows fits))
  have whole : Follows fits parseAssignment (stringBytes entry.1 ++ (stringBytes entry.2 ++ []))
      (assignment entry) := key.bind (value.bind checked)
  rwa [List.append_nil] at whole

theorem head_encodeUtf8 {text : Text} (head : text.head? = some 0x2F) :
    (encodeUtf8 text).head? = some slash := by
  obtain ⟨rest, rfl⟩ := List.head?_eq_some_iff.mp head
  have bytes := encodeUtf8_cons_ascii (show 0x2F < 0x80 by decide) rest
  exact congrArg List.head? bytes

theorem follows_fields {request : ProcessBackendSpawnRequestV1} {payload : List UInt8}
    (encoded : encodeHoloUvSpawnPayloadV1 request = some payload) :
    Follows (FitsSupervisor request) parseFields payload (supervised request) := by
  obtain ⟨three, arguments, environment, plain, written⟩ :=
    encodeHoloUvSpawnPayloadV1_eq_some encoded
  have short := short_requestTexts request
  have counted : (sortedEntries request).length = request.env.length := Precedence.length_sort _ _
  have entryIn {entry : Text × Text} (found : entry ∈ sortedEntries request) :
    entry ∈ request.env :=
    ((JsonValue.byKey Text).mem_sort _ _).mp found
  have mask := stdioMask_le three
  have byte (value : ℕ) (small : value < 256) :
      Follows (FitsSupervisor request) holoReaderU8 [UInt8.ofNat value] value := by
    have word : Follows (FitsSupervisor request) holoReaderU8 (bigEndian 1 value) value :=
      follows_word (by omega)
    simpa [bigEndian, Nat.mod_one] using word
  have text {value : Text} {maximum : ℕ} (among : value ∈ requestTexts request)
      (within : FitsSupervisor request → (encodeUtf8 value).length ≤ maximum) :
      Follows (FitsSupervisor request) (holoReaderString maximum) (stringBytes value)
        (encodeUtf8 value) := follows_string (short value among) (plain value among) within
  have args : Follows (FitsSupervisor request)
      (parseArgs (encodeUtf8 request.executable.path) request.args.length)
      (request.args.flatMap stringBytes)
      (encodeUtf8 request.executable.path :: request.args.map encodeUtf8) := by
    apply Follows.done
    apply Follows.many
    intro value valueIn
    exact text (by simp [requestTexts, valueIn]) fun fit => fit.args value valueIn
  have env : Follows (FitsSupervisor request) (parseEnv (sortedEntries request).length)
      ((sortedEntries request).flatMap fun entry => stringBytes entry.1 ++ stringBytes entry.2)
      ((sortedEntries request).map assignment) := by
    apply Follows.many
    intro entry found
    have among : ∀ value ∈ [entry.1, entry.2], value ∈ requestTexts request := by
      intro value valueIn
      rw [requestTexts, List.mem_append, entryTexts, List.mem_flatMap]
      exact .inr ⟨entry, found, valueIn⟩
    exact follows_assignment (fun value valueIn => short value (among value valueIn))
      (fun value valueIn => plain value (among value valueIn)) fun fit =>
        ⟨fit.keys entry (entryIn found), fit.values entry (entryIn found),
          fit.named entry (entryIn found), fit.plain entry (entryIn found)⟩
  rw [written]
  apply (byte 1 (by decide)).bind
  apply Follows.require fun _ => rfl
  apply (byte (stdioMask request.stdio) (by omega)).bind
  apply Follows.require fun _ => mask
  apply ((reads_bytes [0, 0]).follows _).bind
  apply Follows.require fun _ => rfl
  apply (text (by simp [requestTexts]) fun fit => fit.pathLength).bind
  apply Follows.require fun fit => head_encodeUtf8 fit.path
  apply (text (by simp [requestTexts]) fun fit => fit.cwdLength).bind
  apply Follows.require fun fit => head_encodeUtf8 fit.cwd
  apply (text (by simp [requestTexts]) fun fit => fit.executableId).bind
  apply (text (by simp [requestTexts]) fun fit => fit.resourceId).bind
  apply (follows_word (by omega)).bind
  apply Follows.require fun fit => fit.argumentCount
  apply (follows_word (by omega)).bind
  apply Follows.require fun fit => counted ▸ fit.environmentCount
  apply args.bind
  exact env.done

/-- A written payload within the limits of the parser is read back as the request it was written
for, and nothing shorter or longer than a written payload is accepted. -/
theorem holoParseSpawn_encoded {request : ProcessBackendSpawnRequestV1} {payload : List UInt8}
    (encoded : encodeHoloUvSpawnPayloadV1 request = some payload) :
    (FitsSupervisor request → holoParseSpawn payload = some (supervised request)) ∧
      (supervised request).envp.Perm (request.env.map assignment) ∧
      (∀ beginning missing, beginning ++ missing = payload → missing ≠ [] →
        holoParseSpawn beginning = none) ∧
      ∀ extra, extra ≠ [] → holoParseSpawn (payload ++ extra) = none := by
  have fields := follows_fields encoded
  refine ⟨fun fit => (fields.reads fit).all, ?_, ?_, ?_⟩
  · exact ((JsonValue.byKey Text).sort_perm request.env).map assignment
  · intro beginning missing whole proper
    rw [← whole] at fields
    exact fields.yields.all_beginning stable_fields proper
  · intro extra proper
    exact fields.yields.all_extension proper

def catRequest : ProcessBackendSpawnRequestV1 where
  args := [js "-"]
  cwd := js "/tmp"
  env := [(js "TERM", js "é"), (js "HOME", js "/a=b")]
  executable := ⟨js "guestPath", js "/bin/cat"⟩
  executableId := js "cat"
  processResourceId := js "p1"
  stdio := [js "pipe", js "ignore", js "pipe"]
  record := by decide
  short := by decide

/-- The request reaches the supervisor, and its payload without the last byte does not. -/
theorem holoParseSpawn_encoded_cat :
    ∃ payload, encodeHoloUvSpawnPayloadV1 catRequest = some payload ∧
      holoParseSpawn payload = some (supervised catRequest) ∧
      (supervised catRequest).stdioMask = 5 ∧ (supervised catRequest).argv.length = 2 ∧
      holoParseSpawn payload.dropLast = none ∧ holoParseSpawn (payload ++ [0]) = none := by
  have encoded : encodeHoloUvSpawnPayloadV1 catRequest =
      some ((encodeHoloUvSpawnPayloadV1 catRequest).getD []) := by decide
  have fits : FitsSupervisor catRequest := by
    constructor <;> decide
  have agree := holoParseSpawn_encoded encoded
  refine ⟨_, encoded, agree.1 fits, by decide, by decide, ?_, agree.2.2.2 [0] (by decide)⟩
  exact agree.2.2.1 _ [0xA9] (by decide) (by decide)

/-- The greatest integer that a number holds exactly. -/
def maxSafeInteger : ℕ := 2 ^ 53 - 1

def readerWord (width : ℕ) : Scanner ℕ := do
  let bytes ← holoReaderBytes width
  pure (fromBigEndian bytes)

def readerI32 : Scanner ℤ := do
  let word ← readerWord 4
  pure (if word < 2 ^ 31 then (word : ℤ) else (word : ℤ) - 2 ^ 32)

def present {α : Type} : Option α → Scanner α
  | some value => pure value
  | none => fun _ _ => none

def readerString : Scanner Text := do
  let length ← readerWord 4
  let source ← holoReaderBytes length
  let output ← present (decodeUtf8 source)
  require ((0 : UInt16) ∉ output)
  require (encodeUtf8 output = source)
  pure output

/-- A digit or a capital letter. -/
def isSignalUnit (unit : UInt16) : Bool :=
  (0x30 ≤ unit && unit ≤ 0x39) || (0x41 ≤ unit && unit ≤ 0x5A)

def IsSignalName (text : Text) : Prop :=
  js "SIG" <+: text ∧ 4 ≤ text.length ∧ text.length ≤ 27 ∧
    ∀ unit ∈ text.drop 3, isSignalUnit unit = true
  deriving Decidable

def isSmallLetter (unit : UInt16) : Bool := 0x61 ≤ unit && unit ≤ 0x7A

/-- What may follow in an error code. -/
def isCodeUnit (unit : UInt16) : Bool :=
  isSmallLetter unit || (0x30 ≤ unit && unit ≤ 0x39) || unit == 0x5F || unit == 0x2E || unit == 0x2D

/-- The texts that `^[a-z][a-z\d_.-]{0,63}$` admits. -/
def IsErrorCode (text : Text) : Prop :=
  (∃ unit ∈ text.head?, isSmallLetter unit = true) ∧ text.length ≤ 64 ∧
    ∀ unit ∈ text.drop 1, isCodeUnit unit = true

instance : DecidablePred IsErrorCode := fun text =>
  inferInstanceAs (Decidable ((∃ unit ∈ text.head?, _) ∧ _ ∧ _))

structure CompletionV1 where
  code : Option ℕ
  signal : Option Text
  deriving DecidableEq

/-- The payload of exit and close frames. -/
def decodeHoloUvCompletionPayloadV1 (payload : List UInt8) : Option CompletionV1 := do
  let (code, signal) ← (do
    let code ← readerI32
    let signal ← readerString
    pure (code, signal) : Scanner (ℤ × Text)).all payload
  if code < -1 ∨ 255 < code ∨ (signal ≠ [] ∧ ¬ IsSignalName signal) then none
  else some ⟨if code = -1 then none else some code.toNat, if signal = [] then none else some signal⟩

def decodeHoloUvErrorPayloadV1 (payload : List UInt8) : Option Text := do
  let code ← readerString.all payload
  if IsErrorCode code then some code else none

def decodeHoloUvSpawnedPayloadV1 (payload : List UInt8) (frameProcessId : UInt32) :
    Option UInt32 :=
  if frameProcessId = 0 then none
  else do
    let linuxPid ← readerI32.all payload
    if linuxPid ≤ 0 then none else some (UInt32.ofNat linuxPid.toNat)

def requireEmptyHoloUvPayloadV1 (payload : List UInt8) : Option Unit :=
  if payload.length ≠ 0 then none else some ()

def encodeHoloUvSignalPayloadV1 (signal : Text) : Option (List UInt8) :=
  if ¬ IsSignalName signal then none else writeString signal

def capabilityErrorPayload (error : Text) : Option (List UInt8) :=
  if (0 : UInt16) ∈ error ∨ 256 * 1024 < (encodeUtf8 error).length ∨ ¬ IsErrorCode error then none
  else (writeString error).map fun text => [1, 0, 0, 0] ++ text

def kernelCapabilityBits : List (Text × ℕ) :=
  [(js "process", 1), (js "fuse", 2), (js "tun", 4), (js "networkNamespaces", 8),
    (js "cgroups", 16), (js "fanotify", 32), (js "seccompUserNotification", 64)]

def decodeProcessSupervisorReadyPayloadV1 (payload : List UInt8) : Option (List Text) :=
  let flags := fromBigEndian payload
  if payload.length ≠ 4 ∨ 128 ≤ flags ∨ flags &&& 1 = 0 then none
  else some ((kernelCapabilityBits.filter fun entry => flags &&& entry.2 ≠ 0).map Prod.fst)

/-- A program asks to run another. -/
structure ProcessSupervisorExecRequestV1 where
  argv : List Text
  cwd : Text
  linuxPid : UInt32
  parentLinuxPid : UInt32
  path : Text
  processStartTimeTicks : ℕ
  deriving DecidableEq

def execString : Scanner Text := do
  let length ← readerWord 4
  require (length ≠ 0 ∧ length ≤ 4096)
  let source ← holoReaderBytes length
  let output ← present (decodeUtf8 source)
  require (output.length ≠ 0 ∧ output.length ≤ 4096 ∧ (0 : UInt16) ∉ output)
  pure output

def execFields : Scanner ProcessSupervisorExecRequestV1 := do
  let linuxPid ← readerWord 4
  let parentLinuxPid ← readerWord 4
  let processStartTimeTicks ← readerWord 8
  require (processStartTimeTicks ≠ 0 ∧ processStartTimeTicks ≤ maxSafeInteger)
  let path ← execString
  let cwd ← execString
  let count ← readerWord 2
  require (linuxPid ≠ 0 ∧ parentLinuxPid ≠ 0 ∧ count ≠ 0 ∧ count ≤ 256)
  let argv ← many execString count
  pure ⟨argv, cwd, UInt32.ofNat linuxPid, UInt32.ofNat parentLinuxPid, path, processStartTimeTicks⟩

def decodeProcessSupervisorExecRequestV1 (payload : List UInt8) :
    Option ProcessSupervisorExecRequestV1 := do
  let request ← execFields.all payload
  if request.path.head? = some 0x2F ∧ request.cwd.head? = some 0x2F then some request else none

/-- The payload that answers an execution request with yes or no. -/
def encodeProcessSupervisorExecResponseV1 (allowed : Bool) : List UInt8 :=
  [if allowed then 1 else 0]

def decodeProcessSupervisorExecResultV1 (payload : List UInt8) : Option Bool :=
  match payload with
  | [byte] => if 1 < byte then none else some (byte = 1)
  | _ => none

/-- How a program reaches the network. -/
inductive NetworkTransport where
  | connect | tcp | udp
  deriving DecidableEq

/-- A program asks for a connection. -/
structure ProcessSupervisorNetworkRequestV1 where
  address : Text
  linuxPid : UInt32
  parentLinuxPid : UInt32
  port : ℕ
  processStartTimeTicks : ℕ
  transport : NetworkTransport
  deriving DecidableEq

def networkTransportAt (code : ℕ) : Option NetworkTransport :=
  if code = 1 then some .tcp
  else if code = 2 then some .udp
  else if code = 3 then some .connect
  else none

def dottedAddress (parts : List UInt8) : Text :=
  (js ".").intercalate (parts.map fun part => js (Nat.repr part.toNat))

/-- A process identifier of the guest. -/
def networkProcessId (value : ℕ) : Option UInt32 :=
  if 1 ≤ value ∧ value ≤ 0x7FFFFFFF then some (UInt32.ofNat value) else none

def decodeProcessSupervisorNetworkRequestV1 (payload : List UInt8) :
    Option ProcessSupervisorNetworkRequestV1 :=
  if payload.length ≠ 23 then none
  else do
    let processStartTimeTicks := wordAt payload 8 8
    if processStartTimeTicks = 0 ∨ maxSafeInteger < processStartTimeTicks then none
    let transport ← networkTransportAt (wordAt payload 1 16)
    let port := wordAt payload 2 21
    if port = 0 then none
    let linuxPid ← networkProcessId (wordAt payload 4 0)
    let parentLinuxPid ← networkProcessId (wordAt payload 4 4)
    some ⟨dottedAddress ((payload.drop 17).take 4), linuxPid, parentLinuxPid, port,
      processStartTimeTicks, transport⟩

/-- The payload that answers a network request with yes or no. -/
def encodeProcessSupervisorNetworkResponseV1 (allowed : Bool) : List UInt8 :=
  [if allowed then 1 else 0]

end Holonomy.Supervisor
