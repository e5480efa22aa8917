import Holonomy.Foundation.JsonEquality
import Holonomy.Kernel.Ascii

/-!
# Canonical JSON

The kernel's serializer of values, whose texts every digest is taken of. Members stand in the order
of their keys and negative zero is written as zero; a number that is not finite is refused.
-/

namespace Holonomy.Kernel

open Foundation

/-- A number of the language. -/
inductive JsNumber where
  | finite (value : ℚ)
  | negativeZero
  | notFinite
deriving DecidableEq

inductive CanonicalJsonValue where
  | null
  | boolean (value : Bool)
  | number (value : JsNumber)
  | string (value : Text)
  | array (items : List CanonicalJsonValue)
  | record (members : List (Text × CanonicalJsonValue))

variable (format : NumberFormat)

def serializeNumber : JsNumber → Option Text
  | .finite value => some (format.write value)
  | .negativeZero => some (format.write 0)
  | .notFinite => none

mutual

def serialize : CanonicalJsonValue → Option Text
  | .null => some (js "null")
  | .boolean true => some (js "true")
  | .boolean false => some (js "false")
  | .number value => serializeNumber format value
  | .string value => some (quote value)
  | .array items => do
    let texts ← serializeItems items
    some (0x5B :: (join 0x2C texts ++ [0x5D]))
  | .record members => do
    let entries ← serializeMembers members
    let sorted := (JsonValue.byKey Text).sort entries
    some (0x7B :: (join 0x2C (sorted.map fun entry => quote entry.1 ++ 0x3A :: entry.2) ++ [0x7D]))

def serializeItems : List CanonicalJsonValue → Option (List Text)
  | [] => some []
  | item :: items => do
    let text ← serialize item
    let texts ← serializeItems items
    some (text :: texts)

def serializeMembers : List (Text × CanonicalJsonValue) → Option (List (Text × Text))
  | [] => some []
  | (key, value) :: members => do
    let text ← serialize value
    let entries ← serializeMembers members
    some ((key, text) :: entries)

end

def CanonicalJsonValue.canonicalJson (value : CanonicalJsonValue) : Option Text :=
  serialize format value

def CanonicalJsonValue.canonicalDigest (value : CanonicalJsonValue) : Option Text :=
  (value.canonicalJson format).map fun text => sha256Hex (encodeUtf8 text)

def JsNumber.value : JsNumber → ℚ
  | .finite value => value
  | .negativeZero => 0
  | .notFinite => 0

namespace CanonicalJsonValue

mutual

def value : CanonicalJsonValue → JsonValue
  | null => .null
  | boolean truth => .boolean truth
  | number amount => .number amount.value
  | string text => .string text
  | array items => .array (itemValues items)
  | record members => .object (memberValues members)

def itemValues : List CanonicalJsonValue → List JsonValue
  | [] => []
  | item :: items => item.value :: itemValues items

def memberValues : List (Text × CanonicalJsonValue) → List (Text × JsonValue)
  | [] => []
  | (key, item) :: members => (key, item.value) :: memberValues members

end

inductive IsJson : CanonicalJsonValue → Prop where
  | null : IsJson null
  | boolean (truth : Bool) : IsJson (boolean truth)
  | number (amount : JsNumber) (finite : amount ≠ .notFinite)
    (representable : format.Representable amount.value) : IsJson (number amount)
  | string (text : Text) : IsJson (string text)
  | array (items : List CanonicalJsonValue) (each : ∀ item ∈ items, IsJson item) :
    IsJson (array items)
  | record (members : List (Text × CanonicalJsonValue))
    (distinct : (members.map Prod.fst).Nodup) (each : ∀ member ∈ members, IsJson member.2) :
    IsJson (record members)

variable {format}

theorem itemValues_eq (items : List CanonicalJsonValue) : itemValues items = items.map value := by
  induction items with
  | nil => rfl
  | cons item items ih => rw [itemValues, ih, List.map_cons]

theorem memberValues_eq (members : List (Text × CanonicalJsonValue)) :
    memberValues members = members.map fun member => (member.1, member.2.value) := by
  induction members with
  | nil => rfl
  | cons member members ih => rw [memberValues, ih, List.map_cons]

theorem IsJson.proper {value : CanonicalJsonValue} (isJson : IsJson format value) :
    JsonValue.Proper format value.value := by
  induction isJson with
  | null => exact .null
  | boolean truth => exact .boolean truth
  | number amount finite representable => exact .number _ representable
  | string text => exact .string text
  | array items each ih =>
    rw [CanonicalJsonValue.value, itemValues_eq]
    apply JsonValue.Proper.array
    intro item itemIn
    obtain ⟨source, sourceIn, rfl⟩ := List.mem_map.mp itemIn
    exact ih source sourceIn
  | record members distinct each ih =>
    rw [CanonicalJsonValue.value, memberValues_eq]
    apply JsonValue.Proper.object
    · rw [List.map_map]
      exact distinct
    · intro member memberIn
      obtain ⟨source, sourceIn, rfl⟩ := List.mem_map.mp memberIn
      exact ih source sourceIn

end CanonicalJsonValue

open CanonicalJsonValue (IsJson itemValues_eq memberValues_eq)

variable {format}

theorem serializeItems_eq {items : List CanonicalJsonValue}
    (each : ∀ item ∈ items, serialize format item =
      some (JsonValue.canonicalJson format item.value)) :
    serializeItems format items =
      some (items.map fun item => JsonValue.canonicalJson format item.value) := by
  induction items with
  | nil => rfl
  | cons item items ih =>
    have first := each item (List.mem_cons_self ..)
    have rest := ih fun other otherIn => each other (List.mem_cons_of_mem _ otherIn)
    rw [serializeItems, first, rest]
    rfl

theorem serializeMembers_eq {members : List (Text × CanonicalJsonValue)}
    (each : ∀ member ∈ members, serialize format member.2 =
      some (JsonValue.canonicalJson format member.2.value)) :
    serializeMembers format members =
      some (members.map fun member =>
        (member.1, JsonValue.canonicalJson format member.2.value)) := by
  induction members with
  | nil => rfl
  | cons member members ih =>
    have first := each member (List.mem_cons_self ..)
    have rest := ih fun other otherIn => each other (List.mem_cons_of_mem _ otherIn)
    rw [serializeMembers, first, rest]
    rfl

theorem serialize_eq {value : CanonicalJsonValue} (isJson : IsJson format value) :
    serialize format value = some (JsonValue.canonicalJson format value.value) := by
  induction isJson with
  | null => rfl
  | boolean truth => cases truth <;> rfl
  | number amount finite representable =>
    cases amount with
    | finite number => rfl
    | negativeZero => rfl
    | notFinite => exact absurd rfl finite
  | string text => rfl
  | array items each ih =>
    rw [serialize, serializeItems_eq ih]
    change some (0x5B :: (join 0x2C _ ++ [0x5D])) = some _
    rw [JsonValue.canonicalJson, CanonicalJsonValue.value, itemValues_eq, JsonValue.sortMembers,
      JsonValue.sortItems_eq, JsonValue.stringify, JsonValue.stringifyItems_eq, List.map_map,
      List.map_map]
    rfl
  | record members distinct each ih =>
    rw [serialize, serializeMembers_eq ih]
    let write (member : Text × JsonValue) : Text × Text :=
      (member.1, JsonValue.stringify format member.2)
    let source := members.map fun member => (member.1, JsonValue.sortMembers member.2.value)
    have entries : (members.map fun member =>
        (member.1, JsonValue.canonicalJson format member.2.value)) = source.map write := by
      rw [List.map_map]
      rfl
    have sorted : (JsonValue.byKey Text).sort (source.map write) =
        ((JsonValue.byKey JsonValue).sort source).map write :=
      ((JsonValue.byKey Text).map_sort_comap write source).symm
    change some (0x7B :: (join 0x2C (((JsonValue.byKey Text).sort _).map _) ++ [0x7D])) = some _
    rw [entries, sorted, JsonValue.canonicalJson, CanonicalJsonValue.value, memberValues_eq,
      JsonValue.sortMembers, JsonValue.sortValues_eq, JsonValue.stringify,
      JsonValue.stringifyMembers_eq, List.map_map, List.map_map]
    rfl

/-- The canonical text determines the value, reads as the value and is determined by its bytes; so
equal digests are those of equal values or of colliding texts. -/
theorem canonicalJson_determines (format : NumberFormat) (left right : CanonicalJsonValue)
    (leftJson : IsJson format left) (rightJson : IsJson format right) :
    (left.canonicalJson format = right.canonicalJson format ↔
      JsonValue.Equals left.value right.value) ∧
    (∃ text, left.canonicalJson format = some text ∧
      ∃ read, JsonValue.parse format text = some read ∧ JsonValue.Equals read left.value) ∧
    (∀ leftText rightText, left.canonicalJson format = some leftText →
      right.canonicalJson format = some rightText →
      (encodeUtf8 leftText = encodeUtf8 rightText ↔ leftText = rightText) ∧
      (left.canonicalDigest format = right.canonicalDigest format →
        JsonValue.Equals left.value right.value ∨
          encodeUtf8 leftText ≠ encodeUtf8 rightText ∧
            sha256Hex (encodeUtf8 leftText) = sha256Hex (encodeUtf8 rightText))) := by
  have leftText := serialize_eq leftJson
  have rightText := serialize_eq rightJson
  have determines : left.canonicalJson format = right.canonicalJson format ↔
      JsonValue.Equals left.value right.value := by
    rw [CanonicalJsonValue.canonicalJson, CanonicalJsonValue.canonicalJson, leftText, rightText,
      Option.some.injEq]
    exact JsonValue.canonicalJson_eq_iff leftJson.proper rightJson.proper
  refine ⟨determines, ?_, ?_⟩
  · refine ⟨_, leftText, _, JsonValue.parse_canonicalJson format leftJson.proper, ?_⟩
    exact JsonValue.equals_sortMembers left.value
  · intro first second isFirst isSecond
    have formed {text : Text} {value : CanonicalJsonValue} (isJson : IsJson format value)
        (written : value.canonicalJson format = some text) : WellFormed text := by
      have same := (serialize_eq isJson).symm.trans written
      rw [← Option.some.inj same]
      exact JsonValue.wellFormed_stringify format _
    have bytes : encodeUtf8 first = encodeUtf8 second ↔ first = second := by
      constructor
      · exact encodeUtf8_injective (formed leftJson isFirst) (formed rightJson isSecond)
      · intro same
        rw [same]
    refine ⟨bytes, ?_⟩
    intro digests
    rw [CanonicalJsonValue.canonicalDigest, CanonicalJsonValue.canonicalDigest, isFirst, isSecond,
      Option.map_some, Option.map_some,
      Option.some.injEq] at digests
    by_cases same : encodeUtf8 first = encodeUtf8 second
    · left
      rw [← determines, isFirst, isSecond, bytes.mp same]
    · exact .inr ⟨same, digests⟩

section Example

def looseRecord : CanonicalJsonValue :=
  .record [(js "b", .array [.number .negativeZero, .boolean true]), (js "a", .string [0xD800])]

/-- The same value, with the other order and the other zero. -/
def tidyRecord : CanonicalJsonValue :=
  .record [(js "a", .string [0xD800]), (js "b", .array [.number (.finite 0), .boolean true])]

theorem records_isJson :
    IsJson decimalFormat looseRecord ∧ IsJson decimalFormat tidyRecord := by
  have zero : decimalFormat.Representable 0 := ⟨0, by decide, rfl⟩
  have items {amount : JsNumber} (finite : amount ≠ .notFinite) (none : amount.value = 0) :
      IsJson decimalFormat (.array [.number amount, .boolean true]) := by
    apply IsJson.array
    intro item itemIn
    rcases List.mem_cons.mp itemIn with same | later
    · rw [same]
      apply IsJson.number amount finite
      rw [none]
      exact zero
    · rw [List.mem_singleton.mp later]
      exact .boolean true
  constructor
  · apply IsJson.record _ (by decide)
    intro member memberIn
    rcases List.mem_cons.mp memberIn with same | later
    · rw [same]
      exact items (by decide) rfl
    · rw [List.mem_singleton.mp later]
      exact .string _
  · apply IsJson.record _ (by decide)
    intro member memberIn
    rcases List.mem_cons.mp memberIn with same | later
    · rw [same]
      exact .string _
    · rw [List.mem_singleton.mp later]
      exact items (by decide) rfl

/-- The records have one canonical text. -/
theorem canonicalJson_determines_records :
    looseRecord.canonicalJson decimalFormat = tidyRecord.canonicalJson decimalFormat ∧
      JsonValue.Equals looseRecord.value tidyRecord.value := by
  have same : looseRecord.canonicalJson decimalFormat = tidyRecord.canonicalJson decimalFormat := by
    decide +kernel
  have determines := (canonicalJson_determines decimalFormat looseRecord tidyRecord
    records_isJson.1 records_isJson.2).1
  exact ⟨same, determines.mp same⟩

end Example

end Holonomy.Kernel
