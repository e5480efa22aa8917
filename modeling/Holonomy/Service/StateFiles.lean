import Holonomy.Foundation.Lookups
import Holonomy.Network.Rules

/-!
# The files of the service

The service keeps one file with its state and one file for every transaction. A file is the JSON
value that its text denotes.
-/

namespace Holonomy.Service

open Foundation Network

/-- The codes of the errors that the store throws. -/
inductive ServiceErrorCode where
  | invalidRequest
  | stateCorrupt
  | limitExceeded
  | unavailable
  | internal
deriving DecidableEq

inductive Failure where
  | service (code : ServiceErrorCode) (message : String)
  | system
  | thrown
deriving DecidableEq

def serviceSchemaVersion : ℕ := 1

/-- The largest exact integer. -/
def maxSafeInteger : ℕ := 2 ^ 53 - 1

section Normalizing

def isDecimal (unit : UInt16) : Bool := 0x30 ≤ unit.toNat && unit.toNat ≤ 0x39

def arrayIndex? (key : Text) : Option ℕ :=
  if key.all isDecimal ∧ key ≠ [] ∧ (key.head? = some 0x30 → key.length = 1) then
    let value := key.foldl (fun value unit => value * 10 + (unit.toNat - 0x30)) 0
    if value < 2 ^ 32 - 1 then some value else none
  else none

/-- Where a key stands: indices come first, in their order. -/
def rank (key : Text) : ℕ := (arrayIndex? key).getD (2 ^ 32 - 1)

def keyOrder : Precedence Text :=
  ((Precedence.ofLinear ℕ).comap rank).andThen (Precedence.ofLinear Text)

def propertyOrder : Precedence (Text × JsonValue) := keyOrder.comap Prod.fst

/-- The key that sets no property when it is assigned to. -/
def protoKey : Text := js "__proto__"

mutual

def normalizeJson : JsonValue → JsonValue
  | .null => .null
  | .boolean value => .boolean value
  | .number value => .number value
  | .string value => .string value
  | .array items => .array (normalizeItems items)
  | .object members =>
    .object (propertyOrder.sort
      ((normalizeMembers members).filter fun member => member.1 ≠ protoKey))

def normalizeItems : List JsonValue → List JsonValue
  | [] => []
  | item :: items => normalizeJson item :: normalizeItems items

def normalizeMembers : List (Text × JsonValue) → List (Text × JsonValue)
  | [] => []
  | (key, value) :: members => (key, normalizeJson value) :: normalizeMembers members

end

def canonicalJson (numbers : NumberFormat) (value : JsonValue) : Text :=
  JsonValue.stringify numbers (normalizeJson value)

/-- A copy of a value: what its text denotes. -/
def cloneJson (value : JsonValue) : JsonValue := normalizeJson value

/-- The number of bytes of a text. -/
def byteLength (text : Text) : ℕ := utf8ByteLength text

/-- The size of a value as a file. -/
def encodedBytes (numbers : NumberFormat) (value : JsonValue) : ℕ :=
  byteLength (canonicalJson numbers value ++ [0x0A])

end Normalizing

section Validating

def serviceError {α : Type} (code : ServiceErrorCode) (message : String) : Except Failure α :=
  .error (.service code message)

def requireRecord (value : Option JsonValue) (label : String) : Except Failure JsonValue :=
  match value with
  | some (.object members) => .ok (.object members)
  | _ => serviceError .invalidRequest (label ++ " must be an object")

def requireString (value : Option JsonValue) (label : String) (max : ℕ) : Except Failure Text :=
  match value with
  | some (.string text) =>
    if text.length < 1 ∨ max < text.length then
      serviceError .invalidRequest (label ++ " is invalid")
    else .ok text
  | _ => serviceError .invalidRequest (label ++ " is invalid")

/-- An exact integer of a permitted range. -/
def requireInteger (value : Option JsonValue) (label : String) (min max : ℕ) : Except Failure ℕ :=
  match value.bind safeInteger? with
  | some integer =>
    if integer < min ∨ (max : ℤ) < integer then
      serviceError .invalidRequest (label ++ " is invalid")
    else .ok integer.toNat
  | none => serviceError .invalidRequest (label ++ " is invalid")

def numberAt (value : JsonValue) (key : Text) : Option ℚ :=
  match memberOf value key with
  | some (.number number) => some number
  | _ => none

def integerAt (value : JsonValue) (key : Text) : ℕ :=
  (((memberOf value key).bind safeInteger?).getD 0).toNat

/-- The number of transactions behind a state. -/
def cursorOf (state : JsonValue) : ℕ := integerAt state (js "cursor")

/-- The number of transactions whose events may be forgotten. -/
def floorOf (state : JsonValue) : ℕ := integerAt state (js "eventFloor")

/-- The tables of a state. -/
def resourceNames : List String :=
  ["devices", "inspectors", "networkRules", "operations", "processes"]

/-- Every table of a state is an object. -/
def requireResources (resources : JsonValue) : List String → Except Failure Unit
  | [] => .ok ()
  | name :: names => do
    let _ ← requireRecord (memberOf resources (js name)) ("Persisted " ++ name)
    requireResources resources names

/-- A state that can be used. -/
def validateState (value : JsonValue) : Except Failure JsonValue := do
  let state ← requireRecord (some value) "Persisted state"
  if numberAt state (js "schemaVersion") ≠ some (serviceSchemaVersion : ℚ) then
    serviceError .stateCorrupt "Holonomy Service state schema is unsupported"
  else
    let cursor ← requireInteger (memberOf state (js "cursor")) "Persisted state cursor" 0
      maxSafeInteger
    let _ ← requireInteger (memberOf state (js "eventFloor")) "Persisted event floor" 0 cursor
    let _ ← requireRecord (memberOf state (js "idempotency")) "Persisted idempotency state"
    let resources ← requireRecord (memberOf state (js "resources")) "Persisted resources"
    requireResources resources resourceNames
    .ok (cloneJson state)

def createInitialServiceState : JsonValue :=
  .object [(js "cursor", .number 0), (js "eventFloor", .number 0), (js "idempotency", .object []),
    (js "resources", .object (resourceNames.map fun name => (js name, .object []))),
    (js "schemaVersion", .number serviceSchemaVersion)]

/-- The record of a transaction. -/
structure JournalRecord where
  time : ℕ
  cursor : ℕ
  event : JsonValue
  nextState : JsonValue

def JournalRecord.toJson (record : JournalRecord) : JsonValue :=
  .object [(js "at", .number record.time), (js "cursor", .number record.cursor),
    (js "event", record.event), (js "nextState", record.nextState),
    (js "schemaVersion", .number serviceSchemaVersion)]

/-- A record that can be used. -/
def validateJournal (value : JsonValue) : Except Failure JournalRecord := do
  let record ← requireRecord (some value) "Journal record"
  if numberAt record (js "schemaVersion") ≠ some (serviceSchemaVersion : ℚ) then
    serviceError .stateCorrupt "Holonomy Service journal schema is unsupported"
  else
    let cursor ← requireInteger (memberOf record (js "cursor")) "Journal cursor" 1 maxSafeInteger
    let time ← requireInteger (memberOf record (js "at")) "Journal timestamp" 0 maxSafeInteger
    let event ← requireRecord (memberOf record (js "event")) "Journal event"
    let _ ← requireString (memberOf event (js "type")) "Journal event type" 128
    let nextState ← validateState ((memberOf record (js "nextState")).getD .null)
    if cursorOf nextState ≠ cursor ∨ numberAt event (js "cursor") ≠ some (cursor : ℚ) ∨
        numberAt event (js "at") ≠ some (time : ℚ) then
      serviceError .stateCorrupt "Holonomy Service journal identity is invalid"
    else .ok ⟨time, cursor, cloneJson event, nextState⟩

def readJournalRecords : List (ℕ × JsonValue) → Except Failure (List JournalRecord)
  | [] => .ok []
  | (name, value) :: files => do
    let record ← validateJournal value
    if record.cursor ≠ name then
      serviceError .stateCorrupt "Holonomy Service journal filename is invalid"
    else
      let records ← readJournalRecords files
      .ok (record :: records)

/-- The files of a journal after one of them was replaced; files stand in the order of names. -/
def writeRecord (name : ℕ) (value : JsonValue) : List (ℕ × JsonValue) → List (ℕ × JsonValue)
  | [] => [(name, value)]
  | file :: files =>
    if name < file.1 then (name, value) :: file :: files
    else if name = file.1 then (name, value) :: files
    else file :: writeRecord name value files

end Validating

end Holonomy.Service
