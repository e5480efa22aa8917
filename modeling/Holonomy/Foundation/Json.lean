import Holonomy.Foundation.Sorting
import Holonomy.Foundation.Text

/-!
# JSON values and their texts

The values a JSON text can denote, with the members of an object as a list of key and value. Writing
follows the standard serializer: no white space, members in their given order, and strings escaped
so that the result is always a well-formed text. How a number is spelled is a parameter; reading
inverts writing on every value whose numbers have a spelling and whose objects do not repeat a key,
so on these the canonical text determines the value up to the order of members.
-/

namespace Holonomy.Foundation

/-- A JSON value. -/
inductive JsonValue where
  | null
  | boolean (value : Bool)
  | number (value : ℚ)
  | string (value : Text)
  | array (items : List JsonValue)
  | object (members : List (Text × JsonValue))

/-- The units that spell numbers: digits, signs, the point and the exponent mark. -/
def isNumeric (unit : UInt16) : Bool :=
  (0x30 ≤ unit && unit ≤ 0x39) || unit = 0x2B || unit = 0x2D || unit = 0x2E || unit = 0x45
    || unit = 0x65

/-- How finite numbers are spelled. -/
structure NumberFormat where
  /-- The number is one of the format's values. -/
  Representable : ℚ → Prop
  write : ℚ → Text
  /-- The number a spelling denotes, if it is one. -/
  read : Text → Option ℚ
  write_ne_nil : ∀ number, write number ≠ []
  write_numeric : ∀ number, ∀ unit ∈ write number, isNumeric unit = true
  /-- A spelling denotes the number it was written for. -/
  read_write : ∀ number, Representable number → read (write number) = some number

/-- A lower-case hexadecimal digit. -/
def hexDigit (value : ℕ) : UInt16 :=
  if value < 10 then UInt16.ofNat (0x30 + value) else UInt16.ofNat (0x61 + (value - 10))

/-- The value of a hexadecimal digit of either case. -/
def hexValue (unit : UInt16) : Option ℕ :=
  if 0x30 ≤ unit.toNat ∧ unit.toNat ≤ 0x39 then some (unit.toNat - 0x30)
  else if 0x61 ≤ unit.toNat ∧ unit.toNat ≤ 0x66 then some (unit.toNat - 0x61 + 10)
  else if 0x41 ≤ unit.toNat ∧ unit.toNat ≤ 0x46 then some (unit.toNat - 0x41 + 10)
  else none

/-- The numbered escape of a unit. -/
def unicodeEscape (unit : UInt16) : Text :=
  [0x5C, 0x75, hexDigit (unit.toNat / 4096), hexDigit (unit.toNat / 256 % 16),
    hexDigit (unit.toNat / 16 % 16), hexDigit (unit.toNat % 16)]

/-- The written form of a unit that is no half of a pair. -/
def escapeUnit (unit : UInt16) : Text :=
  if unit = 0x22 then [0x5C, 0x22]
  else if unit = 0x5C then [0x5C, 0x5C]
  else if unit = 0x08 then [0x5C, 0x62]
  else if unit = 0x09 then [0x5C, 0x74]
  else if unit = 0x0A then [0x5C, 0x6E]
  else if unit = 0x0C then [0x5C, 0x66]
  else if unit = 0x0D then [0x5C, 0x72]
  else if unit.toNat < 0x20 || isLead unit || isTrail unit then unicodeEscape unit
  else [unit]

/-- The written form of a string's units; only paired surrogates stay as they are. -/
def escape : Text → Text
  | [] => []
  | [unit] => escapeUnit unit
  | lead :: trail :: rest =>
    if isLead lead && isTrail trail then lead :: trail :: escape rest
    else escapeUnit lead ++ escape (trail :: rest)

/-- The written form of a string. -/
def quote (text : Text) : Text := 0x22 :: (escape text ++ [0x22])

def join (separator : UInt16) (texts : List Text) : Text := [separator].intercalate texts

namespace JsonValue

variable (format : NumberFormat)

mutual

def stringify : JsonValue → Text
  | null => js "null"
  | boolean true => js "true"
  | boolean false => js "false"
  | number value => format.write value
  | string value => quote value
  | array items => 0x5B :: (join 0x2C (stringifyItems items) ++ [0x5D])
  | object members => 0x7B :: (join 0x2C (stringifyMembers members) ++ [0x7D])

/-- The texts of an array's items. -/
def stringifyItems : List JsonValue → List Text
  | [] => []
  | item :: items => stringify item :: stringifyItems items

def stringifyMembers : List (Text × JsonValue) → List Text
  | [] => []
  | (key, value) :: members =>
    (quote key ++ 0x3A :: stringify value) :: stringifyMembers members

end

/-- Members compare by key, code unit by code unit. -/
def byKey (α : Type) : Precedence (Text × α) := (Precedence.ofLinear Text).comap Prod.fst

mutual

def sortMembers : JsonValue → JsonValue
  | null => null
  | boolean value => boolean value
  | number value => number value
  | string value => string value
  | array items => array (sortItems items)
  | object members => object ((byKey JsonValue).sort (sortValues members))

/-- Key order inside an array's items. -/
def sortItems : List JsonValue → List JsonValue
  | [] => []
  | item :: items => sortMembers item :: sortItems items

/-- Key order inside an object's values. -/
def sortValues : List (Text × JsonValue) → List (Text × JsonValue)
  | [] => []
  | (key, value) :: members => (key, sortMembers value) :: sortValues members

end

def canonicalJson (value : JsonValue) : Text := stringify format (sortMembers value)

/-- The values that reading and writing preserve. -/
inductive Proper : JsonValue → Prop where
  /-- The null value. -/
  | null : Proper null
  /-- A truth value. -/
  | boolean (value : Bool) : Proper (boolean value)
  /-- A number of the format. -/
  | number (value : ℚ) (representable : format.Representable value) : Proper (number value)
  /-- A string. -/
  | string (value : Text) : Proper (string value)
  /-- An array of such values. -/
  | array (items : List JsonValue) (each : ∀ item ∈ items, Proper item) : Proper (array items)
  /-- An object of such values without a repeated key. -/
  | object (members : List (Text × JsonValue)) (distinct : (members.map Prod.fst).Nodup)
    (each : ∀ member ∈ members, Proper member.2) : Proper (object members)

@[induction_eliminator]
theorem induct {motive : JsonValue → Prop} (null : motive null)
    (boolean : ∀ value, motive (boolean value)) (number : ∀ value, motive (number value))
    (string : ∀ value, motive (string value))
    (array : ∀ items, (∀ item ∈ items, motive item) → motive (array items))
    (object : ∀ members, (∀ member ∈ members, motive member.2) → motive (object members))
    (value : JsonValue) : motive value :=
  @JsonValue.rec motive (fun items => ∀ item ∈ items, motive item)
    (fun members => ∀ member ∈ members, motive member.2) (fun member => motive member.2)
    null boolean number string array object
    (by simp) (fun _ _ head tail => List.forall_mem_cons.mpr ⟨head, tail⟩)
    (by simp) (fun _ _ head tail => List.forall_mem_cons.mpr ⟨head, tail⟩)
    (fun _ _ value => value) value

theorem stringifyItems_eq (items : List JsonValue) :
    stringifyItems format items = items.map (stringify format) := by
  induction items with
  | nil => rfl
  | cons item items ih => rw [stringifyItems, ih, List.map_cons]

theorem stringifyMembers_eq (members : List (Text × JsonValue)) :
    stringifyMembers format members
      = members.map fun member => quote member.1 ++ 0x3A :: stringify format member.2 := by
  induction members with
  | nil => rfl
  | cons member members ih => rw [stringifyMembers, ih, List.map_cons]

/-- The items are put in order one by one. -/
theorem sortItems_eq (items : List JsonValue) : sortItems items = items.map sortMembers := by
  induction items with
  | nil => rfl
  | cons item items ih => rw [sortItems, ih, List.map_cons]

/-- The values are put in order one by one. -/
theorem sortValues_eq (members : List (Text × JsonValue)) :
    sortValues members = members.map fun member => (member.1, sortMembers member.2) := by
  induction members with
  | nil => rfl
  | cons member members ih => rw [sortValues, ih, List.map_cons]

/-- Key order keeps a value proper. -/
theorem proper_sortMembers {value : JsonValue} (proper : Proper format value) :
    Proper format (sortMembers value) := by
  induction proper with
  | null => exact .null
  | boolean value => exact .boolean value
  | number value representable => exact .number value representable
  | string value => exact .string value
  | array items each ih =>
    rw [sortMembers, sortItems_eq]
    refine .array _ fun item itemIn => ?_
    obtain ⟨source, sourceIn, rfl⟩ := List.mem_map.mp itemIn
    exact ih source sourceIn
  | object members distinct each ih =>
    rw [sortMembers, sortValues_eq]
    refine .object _ ?_ fun member memberIn => ?_
    · refine (((byKey JsonValue).sort_perm _).map Prod.fst).nodup_iff.mpr ?_
      rw [List.map_map]
      exact distinct
    · rw [Precedence.mem_sort] at memberIn
      obtain ⟨source, sourceIn, rfl⟩ := List.mem_map.mp memberIn
      exact ih source sourceIn

/-- Key order is reached in one step. -/
theorem sortMembers_sortMembers (value : JsonValue) :
    sortMembers (sortMembers value) = sortMembers value := by
  induction value with
  | array items ih =>
    simp only [sortMembers, sortItems_eq, List.map_map, array.injEq]
    exact List.map_congr_left ih
  | object members ih =>
    simp only [sortMembers, sortValues_eq, object.injEq]
    have keyed : ((byKey JsonValue).sort (members.map fun m => (m.1, sortMembers m.2))).map
        (fun m => (m.1, sortMembers m.2))
          = (byKey JsonValue).sort (members.map fun m => (m.1, sortMembers m.2)) := by
      refine (List.map_congr_left (g := id) fun member memberIn => ?_).trans (List.map_id _)
      rw [Precedence.mem_sort] at memberIn
      obtain ⟨source, sourceIn, rfl⟩ := List.mem_map.mp memberIn
      simp only [id, Prod.mk.injEq, true_and]
      exact ih source sourceIn
    rw [keyed, Precedence.sort_sort]
  | _ => rfl

end JsonValue

end Holonomy.Foundation
