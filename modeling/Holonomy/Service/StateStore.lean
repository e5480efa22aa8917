import Holonomy.Foundation.Fallible
import Holonomy.Service.StateFiles
import Holonomy.Foundation.Machine

/-!
# The state store of the service

A transaction copies the state, lets its caller change the copy, writes a record of the change into
the journal, and then replaces the state file. Opening replays the records that the state file does
not have yet.
-/

namespace Holonomy.Service

open Foundation Network

/-! ## What the files say

Normalizing a value changes no number in it and nothing that validation asks of it.
-/

section Normalizing

variable {key : Text} {members : List (Text × JsonValue)}

theorem normalizeItems_eq (items : List JsonValue) :
    normalizeItems items = items.map normalizeJson := by
  induction items with
  | nil => rfl
  | cons item items ih => rw [normalizeItems, ih, List.map_cons]

theorem normalizeMembers_eq (members : List (Text × JsonValue)) :
    normalizeMembers members = members.map fun member => (member.1, normalizeJson member.2) := by
  induction members with
  | nil => rfl
  | cons member members ih => rw [normalizeMembers, ih, List.map_cons]

theorem propertyOrder_tied (key : Text) (left right : Text × JsonValue)
    (leftKey : decide (left.1 = key) = true) (rightKey : decide (right.1 = key) = true) :
    propertyOrder.before left right := by
  have same : left.1 = right.1 := (of_decide_eq_true leftKey).trans
    (of_decide_eq_true rightKey).symm
  change keyOrder.before left.1 right.1
  rw [same]
  exact keyOrder.refl right.1

theorem memberOf_normalizeJson (value : JsonValue) (plain : key ≠ protoKey) :
    memberOf (normalizeJson value) key = (memberOf value key).map normalizeJson := by
  cases value with
  | object members =>
    have kept : ∀ member : Text × JsonValue, decide (member.1 = key) = true →
        decide (member.1 ≠ protoKey) = true := by
      intro member named
      have same : member.1 = key := of_decide_eq_true named
      exact decide_eq_true (same ▸ plain)
    rw [normalizeJson, normalizeMembers_eq]
    simp only [memberOf]
    rw [find?_sort propertyOrder _ (propertyOrder_tied key), find?_filter_of_kept _ _ kept,
      find?_map_contents normalizeJson key members, Option.map_map, Option.map_map]
    rfl
  | _ => rfl

theorem normalizeJson_object (sorted : propertyOrder.Sorted members)
    (plain : ∀ member ∈ members, member.1 ≠ protoKey)
    (each : ∀ member ∈ members, normalizeJson member.2 = member.2) :
    normalizeJson (.object members) = .object members := by
  have same : members.map (fun member => (member.1, normalizeJson member.2)) = members := by
    have pointwise : ∀ member ∈ members, (member.1, normalizeJson member.2) = id member :=
      fun member memberIn => Prod.ext rfl (each member memberIn)
    rw [List.map_congr_left pointwise, List.map_id]
  have all : members.filter (fun member => decide (member.1 ≠ protoKey)) = members :=
    List.filter_eq_self.mpr fun member memberIn => decide_eq_true (plain member memberIn)
  rw [normalizeJson, normalizeMembers_eq, same, all, propertyOrder.sort_of_sorted sorted]

theorem normalizeJson_normalizeJson (value : JsonValue) :
    normalizeJson (normalizeJson value) = normalizeJson value := by
  induction value with
  | array items ih =>
    simp only [normalizeJson, normalizeItems_eq, List.map_map, JsonValue.array.injEq]
    exact List.map_congr_left ih
  | object members ih =>
    have source : ∀ member ∈ propertyOrder.sort ((normalizeMembers members).filter
        fun member => member.1 ≠ protoKey),
        member.1 ≠ protoKey ∧ normalizeJson member.2 = member.2 := by
      intro member memberIn
      rw [Precedence.mem_sort, List.mem_filter, normalizeMembers_eq, List.mem_map] at memberIn
      obtain ⟨⟨given, givenIn, rfl⟩, plain⟩ := memberIn
      exact ⟨of_decide_eq_true plain, ih given givenIn⟩
    rw [normalizeJson]
    apply normalizeJson_object (propertyOrder.sort_sorted _)
    · exact fun member memberIn => (source member memberIn).1
    · exact fun member memberIn => (source member memberIn).2
  | _ => rfl

theorem normal_object (normal : normalizeJson (.object members) = .object members) :
    propertyOrder.Sorted members ∧
      ∀ member ∈ members, member.1 ≠ protoKey ∧ normalizeJson member.2 = member.2 := by
  rw [normalizeJson, JsonValue.object.injEq] at normal
  constructor
  · have sorted := propertyOrder.sort_sorted
      ((normalizeMembers members).filter fun member => member.1 ≠ protoKey)
    rwa [normal] at sorted
  · intro member memberIn
    rw [← normal, Precedence.mem_sort, List.mem_filter, normalizeMembers_eq,
      List.mem_map] at memberIn
    obtain ⟨⟨given, givenIn, rfl⟩, plain⟩ := memberIn
    exact ⟨of_decide_eq_true plain, normalizeJson_normalizeJson given.2⟩

theorem safeInteger?_normalizeJson (value : JsonValue) :
    safeInteger? (normalizeJson value) = safeInteger? value := by
  cases value <;> rfl

theorem numberAt_normalizeJson (value : JsonValue) (plain : key ≠ protoKey) :
    numberAt (normalizeJson value) key = numberAt value key := by
  rw [numberAt, numberAt, memberOf_normalizeJson value plain]
  cases memberOf value key with
  | none => rfl
  | some content => cases content <;> rfl

theorem bind_safeInteger?_map (value : Option JsonValue) :
    (value.map normalizeJson).bind safeInteger? = value.bind safeInteger? := by
  cases value with
  | none => rfl
  | some content => exact safeInteger?_normalizeJson content

theorem integerAt_normalizeJson (value : JsonValue) (plain : key ≠ protoKey) :
    integerAt (normalizeJson value) key = integerAt value key := by
  rw [integerAt, integerAt, memberOf_normalizeJson value plain, bind_safeInteger?_map]

theorem cursorOf_normalizeJson (state : JsonValue) :
    cursorOf (normalizeJson state) = cursorOf state :=
  integerAt_normalizeJson state (by decide)

end Normalizing

section Validating

variable {value state : JsonValue} {label : String} {cursor floor min max number : ℕ}

theorem requireInteger_map (value : Option JsonValue) (label : String) (min max : ℕ) :
    requireInteger (value.map normalizeJson) label min max
      = requireInteger value label min max := by
  rw [requireInteger, requireInteger, bind_safeInteger?_map]

theorem requireRecord_map (value : Option JsonValue) (label : String) :
    requireRecord (value.map normalizeJson) label
      = (requireRecord value label).map normalizeJson := by
  cases value with
  | none => rfl
  | some content => cases content <;> rfl

theorem requireString_map (value : Option JsonValue) (label : String) (max : ℕ) :
    requireString (value.map normalizeJson) label max = requireString value label max := by
  cases value with
  | none => rfl
  | some content => cases content <;> rfl

theorem requireRecord_eq {record : JsonValue}
    (found : requireRecord (some value) label = .ok record) : record = value := by
  cases value with
  | object members => exact (Except.ok.inj found).symm
  | _ => cases found

theorem requireResources_normalizeJson (resources : JsonValue) {names : List String}
    (plain : ∀ name ∈ names, js name ≠ protoKey) :
    requireResources (normalizeJson resources) names = requireResources resources names := by
  induction names with
  | nil => rfl
  | cons name names ih =>
    have head : js name ≠ protoKey := plain name List.mem_cons_self
    have rest := ih fun other otherIn => plain other (List.mem_cons_of_mem name otherIn)
    rw [requireResources, requireResources, memberOf_normalizeJson resources head,
      requireRecord_map, rest]
    cases requireRecord (memberOf resources (js name)) ("Persisted " ++ name) <;> rfl

theorem resourceNames_plain : ∀ name ∈ resourceNames, js name ≠ protoKey := by decide

theorem validateState_normalizeJson (value : JsonValue) :
    validateState (normalizeJson value) = validateState value := by
  have start : requireRecord (some (normalizeJson value)) "Persisted state"
      = (requireRecord (some value) "Persisted state").map normalizeJson :=
    requireRecord_map (some value) "Persisted state"
  rw [validateState, validateState, start]
  cases isRecord : requireRecord (some value) "Persisted state" with
  | error failure => rfl
  | ok record =>
    have plain : js "schemaVersion" ≠ protoKey ∧ js "cursor" ≠ protoKey ∧
        js "eventFloor" ≠ protoKey ∧ js "idempotency" ≠ protoKey ∧ js "resources" ≠ protoKey := by
      decide
    obtain ⟨schema, cursor, floor, idempotency, resources⟩ := plain
    simp only [Except.map, bind, Except.bind, numberAt_normalizeJson record schema,
      memberOf_normalizeJson record cursor, memberOf_normalizeJson record floor,
      memberOf_normalizeJson record idempotency, memberOf_normalizeJson record resources,
      requireInteger_map, requireRecord_map, cloneJson, normalizeJson_normalizeJson]
    cases requireRecord (memberOf record (js "idempotency")) "Persisted idempotency state" with
    | error failure => rfl
    | ok table =>
      cases requireRecord (memberOf record (js "resources")) "Persisted resources" with
      | error failure => rfl
      | ok tables => simp only [requireResources_normalizeJson tables resourceNames_plain]

/-- What validation asks of a value with these counters. -/
structure Shape (value : JsonValue) (cursor floor : ℕ) : Prop where
  isRecord : requireRecord (some value) "Persisted state" = .ok value
  supported : numberAt value (js "schemaVersion") = some (serviceSchemaVersion : ℚ)
  hasCursor : requireInteger (memberOf value (js "cursor")) "Persisted state cursor" 0
    maxSafeInteger = .ok cursor
  hasFloor : requireInteger (memberOf value (js "eventFloor")) "Persisted event floor" 0 cursor
    = .ok floor
  hasIdempotency : ∃ table,
    requireRecord (memberOf value (js "idempotency")) "Persisted idempotency state" = .ok table
  hasResources : ∃ tables,
    requireRecord (memberOf value (js "resources")) "Persisted resources" = .ok tables ∧
      requireResources tables resourceNames = .ok ()

theorem Shape.valid (shape : Shape value cursor floor) :
    validateState value = .ok (normalizeJson value) := by
  obtain ⟨table, hasTable⟩ := shape.hasIdempotency
  obtain ⟨tables, hasTables, hasAll⟩ := shape.hasResources
  have current : ¬ numberAt value (js "schemaVersion") ≠ some (serviceSchemaVersion : ℚ) :=
    fun different => different shape.supported
  rw [validateState, shape.isRecord]
  simp only [bind, Except.bind]
  rw [if_neg current, shape.hasCursor]
  simp only
  rw [shape.hasFloor]
  simp only
  rw [hasTable]
  simp only
  rw [hasTables]
  simp only
  rw [hasAll]
  rfl

theorem shape_of_valid (valid : validateState value = .ok state) :
    (∃ cursor floor, Shape value cursor floor) ∧ state = normalizeJson value := by
  rw [validateState] at valid
  obtain ⟨record, isRecord, checked⟩ := found_of_bind valid
  have same := requireRecord_eq isRecord
  subst same
  by_cases other : numberAt record (js "schemaVersion") ≠ some (serviceSchemaVersion : ℚ)
  · rw [if_pos other] at checked
    cases checked
  · rw [if_neg other] at checked
    obtain ⟨cursor, hasCursor, checked⟩ := found_of_bind checked
    obtain ⟨floor, hasFloor, checked⟩ := found_of_bind checked
    obtain ⟨table, hasTable, checked⟩ := found_of_bind checked
    obtain ⟨tables, hasTables, checked⟩ := found_of_bind checked
    obtain ⟨_, hasAll, checked⟩ := found_of_bind checked
    have supported := not_not.mp other
    have shape : Shape record cursor floor :=
      ⟨isRecord, supported, hasCursor, hasFloor, ⟨table, hasTable⟩, ⟨tables, hasTables, hasAll⟩⟩
    exact ⟨⟨cursor, floor, shape⟩, (Except.ok.inj checked).symm⟩

def IsState (state : JsonValue) : Prop := validateState state = .ok state

theorem isState_of_valid (valid : validateState value = .ok state) : IsState state := by
  have same := (shape_of_valid valid).2
  rw [IsState, same, validateState_normalizeJson, ← same]
  exact valid

theorem IsState.normal (valid : IsState state) : normalizeJson state = state :=
  (shape_of_valid valid).2.symm

theorem requireInteger_ok {value : Option JsonValue}
    (found : requireInteger value label min max = .ok number) :
    value.bind safeInteger? = some (number : ℤ) ∧ min ≤ number ∧ number ≤ max := by
  rw [requireInteger] at found
  cases integer : value.bind safeInteger? with
  | none =>
    rw [integer] at found
    cases found
  | some read =>
    simp only [integer] at found
    split at found
    · cases found
    · next inside =>
      have same : read.toNat = number := Except.ok.inj found
      have whole : read = (number : ℤ) := by omega
      refine ⟨congrArg some whole, ?_, ?_⟩ <;> omega

theorem requireInteger_of {value : Option JsonValue}
    (read : value.bind safeInteger? = some (number : ℤ)) (low : min ≤ number)
    (high : number ≤ max) : requireInteger value label min max = .ok number := by
  rw [requireInteger, read]
  simp only
  rw [if_neg (by omega)]
  rfl

theorem safeInteger?_number (small : number ≤ maxSafeInteger) :
    safeInteger? (.number number) = some (number : ℤ) := by
  have fits : (number : ℚ).den = 1 ∧ (number : ℚ).num.natAbs ≤ 2 ^ 53 - 1 := by
    constructor
    · exact Rat.den_natCast number
    · rw [Rat.num_natCast, Int.natAbs_natCast]
      exact small
  rw [safeInteger?, if_pos fits, Rat.num_natCast]

theorem Shape.counters (shape : Shape value cursor floor) :
    cursorOf value = cursor ∧ floorOf value = floor ∧ floor ≤ cursor ∧
      cursor ≤ maxSafeInteger := by
  obtain ⟨cursorRead, -, cursorHigh⟩ := requireInteger_ok shape.hasCursor
  obtain ⟨floorRead, -, floorHigh⟩ := requireInteger_ok shape.hasFloor
  refine ⟨?_, ?_, floorHigh, cursorHigh⟩
  · rw [cursorOf, integerAt, cursorRead]
    rfl
  · rw [floorOf, integerAt, floorRead]
    rfl

theorem IsState.shape (valid : IsState state) : Shape state (cursorOf state) (floorOf state) := by
  obtain ⟨cursor, floor, shape⟩ := (shape_of_valid valid).1
  rw [shape.counters.1, shape.counters.2.1]
  exact shape

theorem IsState.isObject (valid : IsState state) : ∃ members, state = .object members := by
  have isRecord := valid.shape.isRecord
  cases state with
  | object members => exact ⟨members, rfl⟩
  | _ => cases isRecord

theorem IsState.floor_le (valid : IsState state) : floorOf state ≤ cursorOf state :=
  valid.shape.counters.2.2.1

theorem memberOf_withMember (members : List (Text × JsonValue)) (key wanted : Text)
    (content : JsonValue) :
    memberOf (withMember (.object members) key content) wanted
      = if wanted = key then some content else memberOf (.object members) wanted := by
  rw [withMember]
  by_cases present : (members.any fun entry => entry.1 = key) = true
  · rw [if_pos present]
    simp only [memberOf]
    rw [find?_replace]
    by_cases asked : wanted = key
    · have found : (members.find? fun entry => decide (entry.1 = key)).isSome = true := by
        rw [List.find?_isSome]
        exact List.any_eq_true.mp present
      obtain ⟨entry, entryIs⟩ := Option.isSome_iff_exists.mp found
      rw [if_pos asked, asked, entryIs]
      simp
    · rw [if_neg asked, Option.map_map]
      congr 1
      funext entry
      simp [asked]
  · rw [if_neg present]
    simp only [memberOf, List.find?_append]
    by_cases asked : wanted = key
    · have absent : (members.find? fun entry => decide (entry.1 = wanted)) = none := by
        rw [List.find?_eq_none, asked]
        intro entry entryIn named
        exact present (List.any_eq_true.mpr ⟨entry, entryIn, named⟩)
      rw [if_pos asked, absent]
      simp [asked]
    · have other : ¬ key = wanted := fun same => asked same.symm
      rw [if_neg asked]
      simp [other]

theorem normal_withMember {members : List (Text × JsonValue)} {key : Text} {content : JsonValue}
    (normal : normalizeJson (.object members) = .object members)
    (present : (members.any fun entry => entry.1 = key) = true)
    (simple : normalizeJson content = content) :
    normalizeJson (withMember (.object members) key content)
      = withMember (.object members) key content := by
  obtain ⟨sorted, each⟩ := normal_object normal
  have keys : (members.map fun entry => if entry.1 = key then (key, content) else entry).map
      Prod.fst = members.map Prod.fst := by
    rw [List.map_map]
    apply List.map_congr_left
    intro entry _
    by_cases here : entry.1 = key
    · simp [here]
    · simp [here]
  rw [withMember, if_pos present]
  apply normalizeJson_object
  · have byKeys : ∀ list : List (Text × JsonValue), propertyOrder.Sorted list ↔
        keyOrder.Sorted (list.map Prod.fst) := by
      intro list
      rw [Precedence.Sorted, Precedence.Sorted, List.pairwise_map]
      rfl
    rw [byKeys, keys, ← byKeys]
    exact sorted
  · intro entry entryIn
    obtain ⟨given, givenIn, rfl⟩ := List.mem_map.mp entryIn
    by_cases here : given.1 = key
    · rw [if_pos here, ← here]
      exact (each given givenIn).1
    · rw [if_neg here]
      exact (each given givenIn).1
  · intro entry entryIn
    obtain ⟨given, givenIn, rfl⟩ := List.mem_map.mp entryIn
    by_cases here : given.1 = key
    · rw [if_pos here]
      exact simple
    · rw [if_neg here]
      exact (each given givenIn).2

def withFloor (state : JsonValue) (floor : ℕ) : JsonValue :=
  withMember state (js "eventFloor") (.number floor)

theorem memberOf_withFloor (valid : IsState state) (floor : ℕ) (wanted : Text) :
    memberOf (withFloor state floor) wanted
      = if wanted = js "eventFloor" then some (.number floor) else memberOf state wanted := by
  obtain ⟨members, rfl⟩ := valid.isObject
  exact memberOf_withMember members _ wanted _

theorem normal_withFloor (valid : IsState state) (floor : ℕ) :
    normalizeJson (withFloor state floor) = withFloor state floor := by
  obtain ⟨members, rfl⟩ := valid.isObject
  apply normal_withMember valid.normal
  · by_contra absent
    have read := (requireInteger_ok valid.shape.hasFloor).1
    have missing : (members.find? fun entry => decide (entry.1 = js "eventFloor")) = none := by
      rw [List.find?_eq_none]
      intro entry entryIn named
      exact absent (List.any_eq_true.mpr ⟨entry, entryIn, named⟩)
    rw [memberOf, missing] at read
    cases read
  · rfl

theorem isState_withFloor (valid : IsState state) (low : floor ≤ cursorOf state) :
    IsState (withFloor state floor) ∧ cursorOf (withFloor state floor) = cursorOf state ∧
      floorOf (withFloor state floor) = floor := by
  have shape := valid.shape
  have small : floor ≤ maxSafeInteger := low.trans shape.counters.2.2.2
  have others : ∀ wanted, wanted ≠ js "eventFloor" →
      memberOf (withFloor state floor) wanted = memberOf state wanted :=
    fun wanted other => (memberOf_withFloor valid floor wanted).trans (if_neg other)
  have floorIs : memberOf (withFloor state floor) (js "eventFloor") = some (.number floor) :=
    (memberOf_withFloor valid floor _).trans (if_pos rfl)
  have changed : Shape (withFloor state floor) (cursorOf state) floor := by
    constructor
    · obtain ⟨members, rfl⟩ := valid.isObject
      rw [withFloor, withMember]
      split <;> rfl
    · rw [numberAt, others _ (by decide)]
      exact shape.supported
    · rw [others _ (by decide)]
      exact shape.hasCursor
    · apply requireInteger_of
      · rw [floorIs]
        exact safeInteger?_number small
      · exact Nat.zero_le floor
      · exact low
    · rw [others _ (by decide)]
      exact shape.hasIdempotency
    · rw [others _ (by decide)]
      exact shape.hasResources
  refine ⟨?_, changed.counters.1, changed.counters.2.1⟩
  have valid := changed.valid
  rwa [normal_withFloor ‹_› floor] at valid

theorem isState_initial : IsState (cloneJson createInitialServiceState) ∧
    cursorOf (cloneJson createInitialServiceState) = 0 := by
  constructor
  · have valid : validateState createInitialServiceState
        = .ok (cloneJson createInitialServiceState) := rfl
    exact isState_of_valid valid
  · rw [cloneJson, cursorOf_normalizeJson]
    rfl

end Validating

/-- How the store was set up. -/
structure StoreOptions where
  numbers : NumberFormat
  maxStateBytes : ℕ
  maxEventBytes : ℕ
  retentionMs : ℕ

/-- A value of a caller, as far as the store looks at it. -/
inductive Given where
  | undefined
  | json (value : JsonValue)
  | thenable
  | other

/-- What an event is made of. -/
structure EventDescriptor where
  data : Given
  subject : Given
  type : Given

structure Call where
  time : ℕ
  /-- The draft that the mutation leaves and what it returns, unless it throws. -/
  mutation : JsonValue → Option (Option JsonValue × Given)
  /-- The draft that is left and the event, if it is an object, unless the function throws. -/
  eventInput : Given → Option JsonValue → Option (Option JsonValue × Option EventDescriptor)
  heard : Bool

/-- A transaction that is about to be written. -/
structure Transaction where
  record : JournalRecord
  result : Given
  heard : Bool

/-- The files of the directory; the files of the journal stand in the order of their names. -/
structure Disk where
  stateFile : Option JsonValue
  journal : List (ℕ × JsonValue)

/-- A record whose file is being deleted. -/
structure Deletion where
  cursor : ℕ
  /-- The operation that deletes it waits for the end. -/
  awaited : Bool
deriving DecidableEq

/-- What the operation at work waits for. -/
inductive Stage where
  | idle
  /-- The state that was recovered is being written. -/
  | opening (state : JsonValue)
  | journaling (work : Transaction)
  /-- The state after a transaction is being written. -/
  | storing (work : Transaction)
  /-- The state with the higher floor is being written. -/
  | pruning (state : JsonValue) (expired : List ℕ)
  | deleting

/-- The directory, the store that works on it, and the history. -/
structure Store where
  disk : Disk
  memory : Option JsonValue
  poisoned : Bool
  stage : Stage
  deletions : List Deletion
  /-- The state after the last operation that was not interrupted. -/
  before : JsonValue
  /-- The states after the operations that were begun since. -/
  attempts : List JsonValue
  /-- The events of the transactions that were committed, that is, whose records were written. -/
  events : List JsonValue
  resolved : List ℕ

/-- How a file operation ends. -/
inductive Outcome where
  | done
  | failed (landed : Bool)
deriving DecidableEq

/-- The file operation had its effect. -/
def Outcome.landed : Outcome → Bool
  | .done => true
  | .failed landed => landed

/-- What can happen. -/
inductive StoreEvent where
  /-- The store is opened; while it reads, some files are deleted that it has already listed. -/
  | opened (vanished : List ℕ)
  | transact (call : Call)
  /-- Old events are to be deleted; here too, listed files can be gone. -/
  | pruneEvents (now : ℕ) (vanished : List ℕ)
  | written (outcome : Outcome)
  | unlinked (deletion : Deletion) (outcome : Outcome)
  /-- The process ends; the write under way may land. -/
  | crashed (landed : Bool)
  /-- Another store takes the place of a store without an operation at work. -/
  | replaced

/-- The last time that the clock can tell. -/
def maxTime : ℕ := 8640000000000000

section Operations

variable (options : StoreOptions)

def StoreOptions.fits (value : JsonValue) : Bool :=
  encodedBytes options.numbers value ≤ options.maxStateBytes

def StoreOptions.fitsJournal (record : JournalRecord) : Bool :=
  encodedBytes options.numbers record.toJson ≤ options.maxStateBytes + options.maxEventBytes

/-- What a caller's function gives, unless it throws. -/
def ofCaller {α : Type} (value : Option α) : Except Failure α :=
  match value with
  | some value => .ok value
  | none => .error .thrown

def Given.json? : Given → Option JsonValue
  | .json value => some value
  | _ => none

/-- A copy of a caller's value. -/
def cloneGiven (value : Option JsonValue) : Except Failure JsonValue :=
  match value with
  | some value => .ok (cloneJson value)
  | none => serviceError .invalidRequest "Value must be finite JSON"

def eventData (data : Given) : Except Failure (List (Text × JsonValue)) :=
  match data with
  | .undefined => .ok []
  | data => do
    let value ← cloneGiven data.json?
    .ok [(js "data", value)]

def eventSubject (subject : Given) : Except Failure (List (Text × JsonValue)) :=
  match subject with
  | .undefined => .ok []
  | subject => do
    let text ← requireString subject.json? "Event subject" 4096
    .ok [(js "subject", .string text)]

def eventOf (time cursor : ℕ) (descriptor : EventDescriptor) : Except Failure JsonValue := do
  let data ← eventData descriptor.data
  let subject ← eventSubject descriptor.subject
  let type ← requireString descriptor.type.json? "Event type" 128
  .ok (.object ((js "at", .number time) :: (js "cursor", .number cursor) ::
    (data ++ subject ++ [(js "type", .string type)])))

def requireDescriptor (descriptor : Option EventDescriptor) : Except Failure EventDescriptor :=
  match descriptor with
  | some descriptor => .ok descriptor
  | none => serviceError .invalidRequest "Event must be an object"

def validateDraft (draft : Option JsonValue) : Except Failure JsonValue :=
  match draft with
  | some draft => validateState draft
  | none => serviceError .invalidRequest "Value must be finite JSON"

/-- The mutation did not return a promise. -/
def requireSynchronous (result : Given) : Except Failure Unit :=
  match result with
  | .thenable => serviceError .internal "State mutations must be synchronous"
  | _ => .ok ()

def requireEventSize (event : JsonValue) : Except Failure Unit :=
  if options.maxEventBytes < byteLength (canonicalJson options.numbers event) then
    serviceError .limitExceeded "Holonomy Service event exceeds its limit"
  else .ok ()

/-- What a transaction does before it writes anything. -/
def prepare (state : JsonValue) (call : Call) : Except Failure Transaction := do
  let (draft, result) ← ofCaller (call.mutation (cloneJson state))
  requireSynchronous result
  let cursor := cursorOf state + 1
  let assigned := draft.map fun draft => withMember draft (js "cursor") (.number cursor)
  let (finished, given) ← ofCaller (call.eventInput result assigned)
  let descriptor ← requireDescriptor given
  let event ← eventOf call.time cursor descriptor
  requireEventSize options event
  let nextState ← validateDraft finished
  .ok ⟨⟨call.time, cursor, event, nextState⟩, result, call.heard⟩

def replay (state : JsonValue) (recovered : Bool) :
    List JournalRecord → Except Failure (JsonValue × Bool)
  | [] => .ok (state, recovered)
  | record :: records =>
    if record.cursor ≤ cursorOf state then replay state recovered records
    else if record.cursor ≠ cursorOf state + 1 then
      serviceError .stateCorrupt "Holonomy Service journal has a cursor gap"
    else replay record.nextState true records

/-- What the files say, and whether it has to be written. -/
def recover (disk : Disk) : Except Failure (JsonValue × Bool) := do
  let state ← validateState (disk.stateFile.getD createInitialServiceState)
  let records ← readJournalRecords disk.journal
  let (recoveredState, recovered) ← replay state false records
  .ok (recoveredState, recovered || disk.stateFile.isNone)

def JournalRecord.file (record : JournalRecord) : ℕ × JsonValue :=
  (record.cursor, cloneJson record.toJson)

end Operations

namespace Store

variable (options : StoreOptions)

/-- The state of a store that is open and needs no recovery. -/
def ready (store : Store) : Option JsonValue := if store.poisoned then none else store.memory

def putState (store : Store) (state : JsonValue) : Store :=
  { store with disk := { store.disk with stateFile := some (cloneJson state) } }

def putRecord (store : Store) (record : JournalRecord) : Store :=
  { store with
    disk := { store.disk with
      journal := writeRecord record.cursor (cloneJson record.toJson) store.disk.journal }
    events := store.events ++ [cloneJson record.event] }

/-- The write under way has its effect. -/
def land (store : Store) : Store :=
  match store.stage with
  | .opening state => store.putState state
  | .journaling work => store.putRecord work.record
  | .storing work => store.putState work.record.nextState
  | .pruning state _ => store.putState state
  | .idle => store
  | .deleting => store

/-- The operation at work ends. -/
def rest (store : Store) : Store := { store with stage := .idle }

/-- The store does not work any more until it is opened again. -/
def poison (store : Store) : Store := { store with poisoned := true, stage := .idle }

/-- The operation at work leads to a state. -/
def settle (store : Store) (state : JsonValue) (stage : Stage) : Store :=
  { store with memory := some state, before := state, attempts := [], stage := stage }

/-- An operation that leads to a state starts to write. -/
def attempt (store : Store) (state : JsonValue) (stage : Stage) : Store :=
  { store with attempts := store.attempts ++ [state], stage := stage }

/-- Some files of the journal are gone. -/
def remove (store : Store) (cursors : List ℕ) : Store :=
  { store with disk := { store.disk with
      journal := store.disk.journal.filter fun file => file.1 ∉ cursors } }

def vanish (store : Store) (vanished : List ℕ) : Store :=
  { store.remove vanished with
    deletions := store.deletions.filter fun deletion => deletion.cursor ∉ vanished }

def canVanish (store : Store) (vanished : List ℕ) : Bool :=
  vanished.all fun cursor => store.deletions.any fun deletion => deletion.cursor = cursor

def open_ (store : Store) (vanished : List ℕ) : Store :=
  if store.memory.isSome then store
  else if vanished ≠ [] then store.vanish vanished
  else match recover store.disk with
    | .error _ => store
    | .ok (state, false) => store.settle state .idle
    | .ok (state, true) => if options.fits
        state then { store with stage := .opening state } else store

def transact (store : Store) (call : Call) : Store :=
  match store.ready with
  | none => store
  | some state => match prepare options state call with
    | .error _ => store
    | .ok work =>
      if options.fitsJournal work.record then
        store.attempt work.record.nextState (.journaling work)
      else store.poison

/-- The records that can be deleted. -/
def expired (state : JsonValue) (now : ℕ) (records : List JournalRecord) : List ℕ :=
  (records.filter fun record =>
    record.time + options.retentionMs < now ∧ record.cursor ≤ cursorOf state).map (·.cursor)

/-- Begin to delete old events. -/
def pruneEvents (store : Store) (now : ℕ) (vanished : List ℕ) : Store :=
  match store.ready with
  | none => store
  | some state =>
    if vanished ≠ [] then store.vanish vanished
    else match readJournalRecords store.disk.journal with
      | .error _ => store
      | .ok records =>
        let cursors := expired options state now records
        let pruned := withFloor (cloneJson state) (cursors.foldl max (floorOf state))
        if cursors = [] then store
        else if options.fits pruned then store.attempt pruned (.pruning pruned cursors)
        else store

def note (store : Store) (work : Transaction) : Store :=
  if work.heard ∧ work.result.json?.isSome then
    { store with resolved := store.resolved ++ [work.record.cursor] }
  else store

/-- The write under way is done. -/
def proceed (store : Store) : Option Store :=
  match store.stage with
  | .opening state => some (store.land.settle state .idle)
  | .journaling work =>
    if options.fits work.record.nextState then some { store.land with stage := .storing work }
    else some store.land.poison
  | .storing work => some ((store.land.settle work.record.nextState .idle).note work)
  | .pruning state cursors =>
    some { store.land.settle state .deleting with
      deletions := store.deletions ++ cursors.map fun cursor => ⟨cursor, true⟩ }
  | .idle => none
  | .deleting => none

/-- The write under way fails. -/
def fail (store : Store) (landed : Bool) : Option Store :=
  let store := if landed then store.land else store
  match store.stage with
  | .opening _ => some store.rest
  | .journaling _ => some store.poison
  | .storing _ => some store.poison
  | .pruning _ _ => some store.rest
  | .idle => none
  | .deleting => none

/-- The write under way ends. -/
def written (store : Store) : Outcome → Option Store
  | .done => store.proceed options
  | .failed landed => store.fail landed

/-- Nobody waits for the deletes under way any more. -/
def abandon (store : Store) : Store :=
  { store.rest with deletions := store.deletions.map fun deletion => ⟨deletion.cursor, false⟩ }

/-- The deletes are done, if none is left that is waited for. -/
def awaitDeletions (store : Store) : Store :=
  if store.deletions.any (·.awaited) then store else store.rest

/-- A delete under way ends. -/
def unlinked (store : Store) (deletion : Deletion) (outcome : Outcome) : Option Store :=
  if deletion ∈ store.deletions then
    let removed := if outcome.landed then store.remove [deletion.cursor] else store
    let remaining := { removed with deletions := store.deletions.erase deletion }
    if deletion.awaited then
      if outcome = .done then some remaining.awaitDeletions else some remaining.abandon
    else some remaining
  else none

/-- The process has ended. -/
def crash (store : Store) (landed : Bool) : Store :=
  { if landed then store.land else store with
    memory := none, poisoned := false, stage := .idle, deletions := [] }

/-- Nothing is at work. -/
def isIdle (store : Store) : Bool :=
  match store.stage with
  | .idle => true
  | _ => false

/-- What follows. -/
def step (store : Store) : StoreEvent → Option Store
  | .opened vanished =>
    if store.isIdle ∧ store.canVanish vanished then some (store.open_ options vanished) else none
  | .transact call =>
    if store.isIdle ∧ call.time ≤ maxTime then some (store.transact options call) else none
  | .pruneEvents now vanished =>
    if store.isIdle ∧ store.canVanish vanished then some (store.pruneEvents options now vanished)
    else none
  | .written outcome => store.written options outcome
  | .unlinked deletion outcome => store.unlinked deletion outcome
  | .crashed landed => some (store.crash landed)
  | .replaced =>
    if store.isIdle then some { store with memory := none, poisoned := false } else none

/-- A directory that is not there yet. -/
def start : Store where
  disk := ⟨none, []⟩
  memory := none
  poisoned := false
  stage := .idle
  deletions := []
  before := cloneJson createInitialServiceState
  attempts := []
  events := []
  resolved := []

def machine : Machine Store StoreEvent := ⟨start, step options⟩

end Store

end Holonomy.Service
