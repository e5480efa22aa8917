import Holonomy.Foundation.JsonEquality
import Holonomy.Foundation.Verdicts

/-!
# Equal schemas and equal values, read by the validator

What the validator reads of a schema and of a value is alike for schemas and values that are equal
up to the order of members: the keywords, the lists and bounds under them, the keys that a value
has, and the definition that a reference stands for.
-/

namespace Holonomy.Kernel.Schema

open Foundation JsonValue

/-! ## The finite schema validator

`validate` decides whether a JSON value fits a JSON schema of a fixed set of keywords.
-/

section

inductive PropertyKind where
  | boolean
  | number
  | string
  | array
  | object
deriving DecidableEq

/-- What validation takes from the language. -/
structure SchemaHost where
  numbers : NumberFormat
  /-- The test of a regular expression, if the pattern is one. -/
  pattern : Text → Option (Text → Bool)
  inherited : PropertyKind → Text → Bool

/-- What validation throws. -/
inductive SchemaFailure where
  | typeError
  | syntaxError
  | rangeError
deriving DecidableEq

variable (host : SchemaHost)

/-- The keywords of a schema. -/
def supported : List Text :=
  [js "$defs", js "$ref", js "additionalProperties", js "allOf", js "anyOf", js "const", js "else",
    js "enum", js "if", js "items", js "maxItems", js "maxLength", js "maxProperties",
    js "maximum", js "minItems", js "minLength", js "minimum", js "not", js "oneOf", js "pattern",
    js "prefixItems", js "properties", js "propertyNames", js "required", js "then", js "type",
    js "uniqueItems"]

def member (key : Text) (members : List (Text × JsonValue)) : Option JsonValue :=
  (members.find? fun entry => entry.1 = key).map Prod.snd

def keyword (schema : JsonValue) (key : Text) : Option JsonValue :=
  match schema with
  | .object members => member key members
  | _ => none

def present (schema : JsonValue) (key : Text) : Option JsonValue :=
  match keyword schema key with
  | some .null => none
  | found => found

/-- The keyword is there and neither null nor false. -/
def applicable (schema : JsonValue) (key : Text) : Option JsonValue :=
  match present schema key with
  | some (.boolean false) => none
  | found => found

def arrayUnder (schema : JsonValue) (key : Text) : Option (List JsonValue) :=
  match keyword schema key with
  | some (.array items) => some items
  | _ => none

def listed (schema : JsonValue) (key : Text) : List JsonValue := (arrayUnder schema key).getD []

def bound (schema : JsonValue) (key : Text) : Option ℚ :=
  match keyword schema key with
  | some (.number value) => some value
  | _ => none

def named (schema : JsonValue) (key : Text) : Option Text :=
  match keyword schema key with
  | some (.string value) => some value
  | _ => none

def flagged (schema : JsonValue) (key : Text) (value : Bool) : Bool :=
  match keyword schema key with
  | some (.boolean found) => found == value
  | _ => false

def indexKey (index : ℕ) : Text := host.numbers.write index

def ownKeys : JsonValue → Except SchemaFailure (List Text)
  | .null => .error .typeError
  | .boolean _ => .ok []
  | .number _ => .ok []
  | .string text => .ok ((List.range text.length).map (indexKey host))
  | .array items => .ok ((List.range items.length).map (indexKey host))
  | .object members => .ok (members.map Prod.fst)

def entries : JsonValue → List (Text × JsonValue)
  | .string text => text.mapIdx fun index unit => (indexKey host index, .string [unit])
  | .array items => items.mapIdx fun index item => (indexKey host index, item)
  | .object members => members
  | _ => []

/-- The value has the property itself. -/
def hasOwn (value : JsonValue) (key : Text) : Bool :=
  match value with
  | .string text => key = js "length" || (List.range text.length).any (indexKey host · = key)
  | .array items => key = js "length" || (List.range items.length).any (indexKey host · = key)
  | .object members => members.any (·.1 = key)
  | _ => false

mutual

def propertyKey : JsonValue → Except SchemaFailure Text
  | .null => .ok (js "null")
  | .boolean value => .ok (if value then js "true" else js "false")
  | .number value => .ok (host.numbers.write value)
  | .string value => .ok value
  | .array items =>
    match elementKeys items with
    | .error failure => .error failure
    | .ok texts => .ok (join 0x2C texts)
  -- a member of that name hides the inherited conversion, and no JSON value can be called
  | .object members =>
    if members.any (·.1 = js "toString") then .error .typeError else .ok (js "[object Object]")

def elementKeys : List JsonValue → Except SchemaFailure (List Text)
  | [] => .ok []
  | .null :: items =>
    match elementKeys items with
    | .error failure => .error failure
    | .ok texts => .ok ([] :: texts)
  | item :: items =>
    match propertyKey item, elementKeys items with
    | .ok text, .ok texts => .ok (text :: texts)
    | .error failure, _ => .error failure
    | _, .error failure => .error failure

end

/-- What a reference stands for: a JSON value, or a value of the language itself. Such a value, an
inherited function or a length, has neither keys nor keywords. -/
inductive Definition where
  | schema (value : JsonValue)
  | builtin

def orInherited (own : Option JsonValue) (inherits : Bool) : Option Definition :=
  match own with
  | some found => some (.schema found)
  | none => if inherits then some .builtin else none

def property (value : JsonValue) (key : Text) : Option Definition :=
  match value with
  | .null => none
  | .boolean _ => orInherited none (host.inherited .boolean key)
  | .number _ => orInherited none (host.inherited .number key)
  | .string text => orInherited (member key (entries host (.string text)))
    (key = js "length" || host.inherited .string key)
  | .array items => orInherited (member key (entries host (.array items)))
    (key = js "length" || host.inherited .array key)
  | .object members => orInherited (member key members) (host.inherited .object key)

def isNameUnit (unit : UInt16) : Bool :=
  (0x30 ≤ unit && unit ≤ 0x39) || (0x41 ≤ unit && unit ≤ 0x5A) || (0x61 ≤ unit && unit ≤ 0x7A) ||
    unit = 0x5F || unit = 0x2E || unit = 0x2D

def referenceName (reference : Text) : Option Text :=
  let opening := js "#/$defs/"
  let name := reference.drop opening.length
  if opening <+: reference && name ≠ [] && name.all isNameUnit then some name else none

def definition (root : JsonValue) (reference : Text) : Option Definition :=
  match referenceName reference, keyword root (js "$defs") with
  | some name, some definitions =>
    match property host definitions name with
    | some (.schema .null) => none
    | found => found
  | _, _ => none

/-- The same serialized text. -/
def equal (left right : JsonValue) : Bool :=
  stringify host.numbers left = stringify host.numbers right

def constHolds (schema value : JsonValue) : Bool :=
  match keyword schema (js "const") with
  | some constant => equal host value constant
  | none => true

/-- The value has the text of one of the listed values. -/
def enumHolds (schema value : JsonValue) : Bool :=
  match arrayUnder schema (js "enum") with
  | some items => items.any (equal host value)
  | none => true

/-- No two items have the same text. -/
def itemsUnique (items : List JsonValue) : Bool :=
  (items.map (stringify host.numbers)).dedup.length = items.length

def numberConstraint (value schema : JsonValue) : Bool :=
  match value with
  | .number value =>
    !((bound schema (js "minimum")).any (value < ·)) &&
      !((bound schema (js "maximum")).any (value > ·)) &&
      (named schema (js "type") ≠ some (js "integer") || value.den = 1)
  | _ => false

def stringConstraint (value schema : JsonValue) : Verdict SchemaFailure :=
  match value with
  | .string text =>
    if (bound schema (js "minLength")).any ((text.length : ℚ) < ·) then .ok false
    else if (bound schema (js "maxLength")).any ((text.length : ℚ) > ·) then .ok false
    else match named schema (js "pattern") with
      | none => .ok true
      | some pattern =>
        match host.pattern pattern with
        | none => .error .syntaxError
        | some test => .ok (test text)
  | _ => .ok false

section Constraints

variable (check : JsonValue → JsonValue → Verdict SchemaFailure)

def arrayConstraint (value schema : JsonValue) : Verdict SchemaFailure :=
  match value with
  | .array items =>
    let prefixes := listed schema (js "prefixItems")
    if (bound schema (js "minItems")).any ((items.length : ℚ) < ·) then .ok false
    else if (bound schema (js "maxItems")).any ((items.length : ℚ) > ·) then .ok false
    else if flagged schema (js "uniqueItems") true && !itemsUnique host items then .ok false
    else Verdict.inOrder [Verdict.every (fun pair => check pair.1 pair.2) (prefixes.zip items),
      .ok !(flagged schema (js "items") false && decide (items.length > prefixes.length)),
      Verdict.optionally (fun each => Verdict.every (check each) (items.drop prefixes.length))
        (applicable schema (js "items"))]
  | _ => .ok false

def properties (schema : JsonValue) : JsonValue :=
  (present schema (js "properties")).getD (.object [])

def requiredHolds (input : List (Text × JsonValue)) (required : JsonValue) :
    Verdict SchemaFailure :=
  match propertyKey host required with
  | .error failure => .error failure
  | .ok key => .ok (input.any (·.1 = key))

/-- The value has no such property, or one that fits. -/
def knownHolds (input : List (Text × JsonValue)) (entry : Text × JsonValue) :
    Verdict SchemaFailure :=
  Verdict.optionally (check entry.2) (member entry.1 input)

def additionalHolds (known additional : JsonValue) (entry : Text × JsonValue) :
    Verdict SchemaFailure :=
  if hasOwn host known entry.1 then .ok true else check additional entry.2

def objectConstraint (value schema : JsonValue) : Verdict SchemaFailure :=
  match value with
  | .object input =>
    let keys := input.map Prod.fst
    let known := properties schema
    Verdict.inOrder [.ok !((bound schema (js "maxProperties")).any ((keys.length : ℚ) > ·)),
      Verdict.every (requiredHolds host input) (listed schema (js "required")),
      .ok !(flagged schema (js "additionalProperties") false &&
        keys.any fun key => !hasOwn host known key),
      Verdict.optionally (fun names => Verdict.every (fun key => check names (.string key)) keys)
        (present schema (js "propertyNames")),
      Verdict.every (knownHolds check input) (entries host known),
      Verdict.optionally (fun additional =>
          Verdict.every (additionalHolds host check known additional) input)
        (applicable schema (js "additionalProperties"))]
  | _ => .ok false

def typeHolds (schema : JsonValue) (type : Text) (isKind : Bool) : Bool :=
  !(named schema (js "type") = some type && !isKind)

def isNull : JsonValue → Bool
  | .null => true
  | _ => false

def isBoolean : JsonValue → Bool
  | .boolean _ => true
  | _ => false

def isObject : JsonValue → Bool
  | .object _ => true
  | _ => false

def hasObjectKeyword (schema : JsonValue) : Bool :=
  [js "additionalProperties", js "maxProperties", js "properties", js "propertyNames",
    js "required"].any fun key => (keyword schema key).isSome

def conditional (schema value condition : JsonValue) : Verdict SchemaFailure :=
  match check condition value with
  | .error failure => .error failure
  | .ok answer => Verdict.optionally (fun branch => check branch value)
    (present schema (if answer then js "then" else js "else"))

def exactlyOne (schemas : List JsonValue) (value : JsonValue) : Verdict SchemaFailure :=
  match Verdict.count (fun item => check item value) schemas with
  | .error failure => .error failure
  | .ok found => .ok (found = 1)

/-- The part of `validate` behind the type of numbers. -/
def typeClauses (schema value : JsonValue) : List (Verdict SchemaFailure) :=
  [if named schema (js "type") = some (js "string") then stringConstraint host value schema
    else .ok true,
    if named schema (js "type") = some (js "array") then arrayConstraint host check value schema
    else .ok true, .ok (typeHolds schema (js "object") (isObject value)),
    if isObject value && hasObjectKeyword schema then objectConstraint host check value schema
    else .ok true]

def clauses (schema value : JsonValue) : List (Verdict SchemaFailure) :=
  [.ok (constHolds host schema value), .ok (enumHolds host schema value),
    Verdict.every (fun item => check item value) (listed schema (js "allOf")),
    Verdict.optionally (fun items => Verdict.anyOf (fun item => check item value) items)
      (arrayUnder schema (js "anyOf")),
    Verdict.optionally (conditional check schema value) (present schema (js "if")),
    Verdict.optionally (fun refused => Verdict.negate (check refused value))
      (present schema (js "not")), Verdict.optionally (fun items => exactlyOne check items value)
      (arrayUnder schema (js "oneOf")), .ok (typeHolds schema (js "null") (isNull value)),
    .ok (typeHolds schema (js "boolean") (isBoolean value)),
    if named schema (js "type") = some (js "number") ∨
      named schema (js "type") = some (js "integer") then .ok (numberConstraint value schema)
    else Verdict.inOrder (typeClauses host check schema value)]

/-- One call of `validate`, the calls inside it given. -/
def validateOnce (root schema value : JsonValue) : Verdict SchemaFailure :=
  match ownKeys host schema with
  | .error failure => .error failure
  | .ok keys =>
    if keys.any (· ∉ supported) then .ok false
    else match named schema (js "$ref") with
      | some reference =>
        match definition host root reference with
        | none => .ok false
        | some .builtin => .ok true
        | some (.schema found) => check found value
      | none => Verdict.inOrder (clauses host check schema value)

end Constraints

def validate (root : JsonValue) : ℕ → JsonValue → JsonValue → Verdict SchemaFailure
  | 0, _, _ => .error .rangeError
  | stack + 1, schema, value => validateOnce host (validate root stack) root schema value

def validateFiniteJsonSchemaV1 (stack : ℕ) (schema value : JsonValue) : Verdict SchemaFailure :=
  validate host schema stack schema value

end

variable {host : SchemaHost}

variable {members : List (Text × JsonValue)} {key : Text} {left right : JsonValue}

theorem member_eq_some (distinct : (members.map Prod.fst).Nodup) {value : JsonValue} :
    member key members = some value ↔ (key, value) ∈ members := by
  constructor
  · intro found
    have entry := Option.map_eq_some_iff.mp found
    obtain ⟨entry, read, same⟩ := entry
    have holds := List.find?_some read
    have key' : entry.1 = key := of_decide_eq_true holds
    rw [← key', ← same]
    exact List.mem_of_find?_eq_some read
  · intro listed
    cases read : members.find? fun entry => entry.1 = key with
    | none =>
      have absent := List.find?_eq_none.mp read (key, value) listed
      exact absurd (decide_eq_true rfl) absent
    | some entry =>
      have holds := List.find?_some read
      have key' : entry.1 = key := of_decide_eq_true holds
      have entryIn := List.mem_of_find?_eq_some read
      have same : entry = (key, value) := List.inj_on_of_nodup_map distinct entryIn listed key'
      rw [member, read, same]
      rfl

theorem member_eq_none : member key members = none ↔ ∀ entry ∈ members, entry.1 ≠ key := by
  rw [member, Option.map_eq_none_iff, List.find?_eq_none]
  simp

theorem member_alike {left right : List (Text × JsonValue)}
    (alike : Alike host.numbers (.object left) (.object right)) (key : Text) :
    Option.Rel (Alike host.numbers) (member key left) (member key right) := by
  cases found : member key left with
  | some value =>
    have listed := (member_eq_some alike.distinct).mp found
    have other := alike.members _ listed
    obtain ⟨other, otherIn, same⟩ := other
    rw [(member_eq_some alike.symm.distinct).mpr otherIn]
    exact .some same
  | none =>
    cases foundToo : member key right with
    | none => exact .none
    | some value =>
      have listed := (member_eq_some alike.symm.distinct).mp foundToo
      have other := alike.symm.members _ listed
      obtain ⟨other, otherIn, -⟩ := other
      exact absurd rfl (member_eq_none.mp found _ otherIn)

section Schemas

variable {left right : JsonValue} (alike : Alike host.numbers left right) (key : Text)

include alike

theorem keyword_alike :
    Option.Rel (Alike host.numbers) (keyword left key) (keyword right key) := by
  cases alike.equals with
  | object entries leftPerm rightPerm each => exact member_alike alike key
  | _ => exact .none

theorem present_alike :
    Option.Rel (Alike host.numbers) (present left key) (present right key) := by
  have rel := keyword_alike alike key
  unfold present
  generalize keyword left key = first at rel ⊢
  generalize keyword right key = second at rel ⊢
  cases rel with
  | none => exact .none
  | @some first second same =>
    cases kind : same.equals with
    | null => exact .none
    | _ => exact .some same

theorem applicable_alike :
    Option.Rel (Alike host.numbers) (applicable left key) (applicable right key) := by
  have rel := present_alike alike key
  unfold applicable
  generalize present left key = first at rel ⊢
  generalize present right key = second at rel ⊢
  cases rel with
  | none => exact .none
  | @some first second same =>
    cases kind : same.equals with
    | null => exact .some same
    | boolean value =>
      cases value with
      | false => exact .none
      | true => exact .some same
    | _ => exact .some same

theorem arrayUnder_alike :
    Option.Rel (List.Forall₂ (Alike host.numbers)) (arrayUnder left key)
    (arrayUnder right key) := by
  have rel := keyword_alike alike key
  unfold arrayUnder
  generalize keyword left key = first at rel ⊢
  generalize keyword right key = second at rel ⊢
  cases rel with
  | none => exact .none
  | @some first second same =>
    cases kind : same.equals with
    | array pairs each => exact .some same.items
    | _ => exact .none

theorem listed_alike : List.Forall₂ (Alike host.numbers) (listed left key) (listed right key) := by
  have rel := arrayUnder_alike alike key
  unfold listed
  generalize arrayUnder left key = first at rel ⊢
  generalize arrayUnder right key = second at rel ⊢
  cases rel with
  | none => exact .nil
  | some each => exact each

theorem scalar_alike : bound left key = bound right key ∧ named left key = named right key ∧
    ∀ value, flagged left key value = flagged right key value := by
  have rel := keyword_alike alike key
  unfold bound named flagged
  generalize keyword left key = first at rel ⊢
  generalize keyword right key = second at rel ⊢
  cases rel with
  | none => exact ⟨rfl, rfl, fun _ => rfl⟩
  | @some first second same =>
    cases kind : same.equals with
    | _ => exact ⟨rfl, rfl, fun _ => rfl⟩

end Schemas

theorem mapIdx_alike {left right : List JsonValue}
    (each : List.Forall₂ (Alike host.numbers) left right) (write : ℕ → Text) :
    ∀ entry ∈ left.mapIdx (fun index item => (write index, item)),
      ∃ other, (entry.1, other) ∈ right.mapIdx (fun index item => (write index, item)) ∧
        Alike host.numbers entry.2 other := by
  intro entry entryIn
  obtain ⟨index, inside, rfl⟩ := List.mem_mapIdx.mp entryIn
  have insideToo : index < right.length := each.length_eq ▸ inside
  refine ⟨right[index], List.mem_mapIdx.mpr ⟨index, insideToo, rfl⟩, ?_⟩
  exact each.get inside insideToo

theorem entries_alike (alike : Alike host.numbers left right) :
    ∀ entry ∈ entries host left, ∃ other, (entry.1, other) ∈ entries host right ∧
      Alike host.numbers entry.2 other := by
  cases kind : alike.equals with
  | string value =>
    intro entry entryIn
    obtain ⟨index, inside, same⟩ := List.mem_mapIdx.mp entryIn
    refine ⟨entry.2, entryIn, ?_⟩
    rw [← same]
    exact .refl (.string _)
  | array pairs each => exact mapIdx_alike alike.items _
  | object members leftPerm rightPerm each => exact alike.members
  | _ => exact fun entry entryIn => absurd entryIn List.not_mem_nil

theorem hasOwn_alike (alike : Alike host.numbers left right) (key : Text) :
    hasOwn host left key = hasOwn host right key := by
  cases kind : alike.equals with
  | array pairs each =>
    simp only [hasOwn, List.length_map]
  | object members leftPerm rightPerm each =>
    rw [Bool.eq_iff_iff]
    simp only [hasOwn, List.any_eq_true, decide_eq_true_eq]
    constructor
    · intro found
      obtain ⟨entry, entryIn, same⟩ := found
      obtain ⟨other, otherIn, -⟩ := alike.members entry entryIn
      exact ⟨_, otherIn, same⟩
    · intro found
      obtain ⟨entry, entryIn, same⟩ := found
      obtain ⟨other, otherIn, -⟩ := alike.symm.members entry entryIn
      exact ⟨_, otherIn, same⟩
  | _ => rfl

theorem member_of_entries {left right : List (Text × JsonValue)} (key : Text)
    (each : List.Forall₂ (fun entry other => entry.1 = other.1 ∧
      Alike host.numbers entry.2 other.2) left right) :
    Option.Rel (Alike host.numbers) (member key left) (member key right) := by
  unfold member
  induction each with
  | nil => exact .none
  | @cons entry other left right head tail ih =>
    rw [List.find?_cons, List.find?_cons, ← head.1]
    by_cases same : entry.1 = key
    · rw [decide_eq_true same]
      exact .some head.2
    · rw [decide_eq_false same]
      exact ih

theorem ownKeys_alike (alike : Alike host.numbers left right) :
    (ownKeys host left = .error .typeError ∧ ownKeys host right = .error .typeError) ∨
    ∃ keys others, ownKeys host left = .ok keys ∧ ownKeys host right = .ok others ∧
      ∀ key, key ∈ keys ↔ key ∈ others := by
  cases kind : alike.equals with
  | null => exact .inl ⟨rfl, rfl⟩
  | array pairs each =>
    refine .inr ⟨_, _, rfl, rfl, fun key => ?_⟩
    rw [List.length_map, List.length_map]
  | object members leftPerm rightPerm each =>
    refine .inr ⟨_, _, rfl, rfl, fun key => ?_⟩
    rw [List.mem_map, List.mem_map]
    constructor
    · intro found
      obtain ⟨entry, entryIn, same⟩ := found
      obtain ⟨other, otherIn, -⟩ := alike.members entry entryIn
      exact ⟨_, otherIn, same⟩
    · intro found
      obtain ⟨entry, entryIn, same⟩ := found
      obtain ⟨other, otherIn, -⟩ := alike.symm.members entry entryIn
      exact ⟨_, otherIn, same⟩
  | _ => exact .inr ⟨_, _, rfl, rfl, fun _ => .rfl⟩

theorem elementKeys_alike {left right : List JsonValue}
    (each : List.Forall₂ (Alike host.numbers) left right)
    (keys : ∀ item ∈ left, ∀ other, Alike host.numbers item other →
      propertyKey host item = propertyKey host other) :
    elementKeys host left = elementKeys host right := by
  induction each with
  | nil => rfl
  | @cons item other left right head tail ih =>
    rw [List.forall_mem_cons] at keys
    have rest := ih keys.2
    have same := keys.1 other head
    cases kind : head.equals with
    | null => rw [elementKeys, elementKeys, rest]
    | _ => simp only [elementKeys, same, rest]

theorem propertyKey_alike (alike : Alike host.numbers left right) :
    propertyKey host left = propertyKey host right := by
  induction left generalizing right with
  | array items ih =>
    cases right with
    | array others =>
      have same := elementKeys_alike alike.items fun item itemIn other => ih item itemIn
      rw [propertyKey, propertyKey, same]
    | _ => cases alike.equals
  | object members ih =>
    cases right with
    | object others =>
      have same := hasOwn_alike alike (js "toString")
      simp only [hasOwn] at same
      rw [propertyKey, propertyKey, same]
    | _ => cases alike.equals
  | _ =>
    cases alike.equals
    rfl

inductive DefinitionAlike (host : SchemaHost) : Definition → Definition → Prop where
  | builtin : DefinitionAlike host .builtin .builtin
  | schema {left right : JsonValue} (alike : Alike host.numbers left right) :
    DefinitionAlike host (.schema left) (.schema right)

theorem orInherited_alike {left right : Option JsonValue}
    (rel : Option.Rel (Alike host.numbers) left right) (inherits : Bool) :
    Option.Rel (DefinitionAlike host) (orInherited left inherits) (orInherited right inherits) := by
  cases rel with
  | some same => exact .some (.schema same)
  | none =>
    cases inherits with
    | true => exact .some .builtin
    | false => exact .none

theorem mapIdx_entries_alike {left right : List JsonValue}
    (each : List.Forall₂ (Alike host.numbers) left right) (write : ℕ → Text) :
    List.Forall₂ (fun entry other : Text × JsonValue => entry.1 = other.1 ∧
        Alike host.numbers entry.2 other.2)
      (left.mapIdx fun index item => (write index, item))
      (right.mapIdx fun index item => (write index, item)) := by
  induction each generalizing write with
  | nil => exact .nil
  | cons head tail ih =>
    rw [List.mapIdx_cons, List.mapIdx_cons]
    exact .cons ⟨rfl, head⟩ (ih fun index => write (index + 1))

theorem property_alike (alike : Alike host.numbers left right) (key : Text) :
    Option.Rel (DefinitionAlike host) (property host left key) (property host right key) := by
  cases kind : alike.equals with
  | null => exact .none
  | string value =>
    apply orInherited_alike
    cases found : member key (entries host (.string value)) with
    | none => exact .none
    | some text =>
      have entry := Option.map_eq_some_iff.mp found
      obtain ⟨entry, read, same⟩ := entry
      obtain ⟨index, inside, whole⟩ := List.mem_mapIdx.mp (List.mem_of_find?_eq_some read)
      rw [← same, ← whole]
      exact .some (.refl (.string _))
  | array pairs each =>
    exact orInherited_alike (member_of_entries key (mapIdx_entries_alike alike.items _)) _
  | object members leftPerm rightPerm each => exact orInherited_alike (member_alike alike key) _
  | _ => exact orInherited_alike .none _

theorem definition_alike (alike : Alike host.numbers left right) (reference : Text) :
    Option.Rel (DefinitionAlike host) (definition host left reference)
      (definition host right reference) := by
  unfold definition
  cases referenceName reference with
  | none => exact .none
  | some name =>
    have rel := keyword_alike alike (js "$defs")
    generalize keyword left (js "$defs") = first at rel ⊢
    generalize keyword right (js "$defs") = second at rel ⊢
    cases rel with
    | none => exact .none
    | @some first second same =>
      have found := property_alike same name
      simp only
      generalize property host first name = one at found ⊢
      generalize property host second name = other at found ⊢
      cases found with
      | none => exact .none
      | some found =>
        cases found with
        | builtin => exact .some .builtin
        | @schema one other alike =>
          cases kind : alike.equals with
          | null => exact .none
          | _ => exact .some (.schema alike)

end Holonomy.Kernel.Schema
