import Holonomy.Kernel.Platform

/-!
# Validation of configuration values

The checks every normalizer is made of. A check either refuses the configuration or returns the
value in a type that carries what was checked: an integer between its bounds, an identifier, a
literal of an enumeration, a set of literals in code point order.
-/

namespace Holonomy.Kernel

open Foundation

/-- The largest number of entries of an object or a list. -/
def maxContainerEntries : ℕ := 1024

def record : JsonValue → Js (List (Text × JsonValue))
  | .object members => .ok members
  | _ => invalidPolicy

/-- The members of an object that has no other keys than the given ones. -/
def exact (value : JsonValue) (keys : List String) : Js (List (Text × JsonValue)) := do
  let output ← record value
  if output.length > maxContainerEntries ∨ ∃ member ∈ output, member.1 ∉ keys.map js then
    invalidPolicy
  else .ok output

def member (key : String) : List (Text × JsonValue) → Option JsonValue
  | [] => none
  | (name, value) :: rest => if name = js key then some value else member key rest

def required (members : List (Text × JsonValue)) (key : String) : Js JsonValue :=
  match member key members with
  | some value => .ok value
  | none => invalidPolicy

abbrev Bounded (minimum maximum : ℕ) : Type :=
  { value : ℕ // minimum ≤ value ∧ value ≤ maximum ∧ value ≤ maxSafeInteger }

/-- Bounded integers compare as numbers. -/
instance boundedMin (minimum maximum : ℕ) : Min (Bounded minimum maximum) := inferInstance

def natural? : JsonValue → Option ℕ
  | .number value => if (value.num.toNat : ℚ) = value then some value.num.toNat else none
  | _ => none

def integer (value : JsonValue) (minimum maximum : ℕ) : Js (Bounded minimum maximum) :=
  match natural? value with
  | some number =>
    if fits : minimum ≤ number ∧ number ≤ maximum ∧ number ≤ maxSafeInteger then
      .ok ⟨number, fits⟩
    else invalidPolicy
  | none => invalidPolicy

def boundedText (value : JsonValue) (maximumBytes : ℕ) (allowEmpty : Bool) : Js Text :=
  match value with
  | .string text =>
    if (allowEmpty = false ∧ text = []) ∨ utf8ByteLength text > maximumBytes then invalidPolicy
    else .ok text
  | _ => invalidPolicy

def boolean : JsonValue → Js Bool
  | .boolean value => .ok value
  | _ => invalidPolicy

def string (value : JsonValue) (maximumBytes : ℕ) : Js Text :=
  boundedText value maximumBytes false

def array (value : JsonValue) (minimum maximum : ℕ) : Js (List JsonValue) :=
  match value with
  | .array items =>
    if items.length < minimum ∨ items.length > maximum then invalidPolicy else .ok items
  | _ => invalidPolicy

/-- An ASCII letter or digit. -/
def isAlphanumeric (unit : UInt16) : Bool :=
  (0x30 ≤ unit && unit ≤ 0x39) || (0x41 ≤ unit && unit ≤ 0x5A) || (0x61 ≤ unit && unit ≤ 0x7A)

/-- A letter, a digit or an underscore. -/
def isWord (unit : UInt16) : Bool := isAlphanumeric unit || unit = 0x5F

/-- A letter or digit followed by word characters, points and hyphens. -/
def isIdentifier : Text → Bool
  | [] => false
  | unit :: rest =>
    isAlphanumeric unit && rest.all fun unit => isWord unit || unit = 0x2E || unit = 0x2D

/-- An identifier of bounded size. -/
structure Identifier (maximumBytes : ℕ) where
  text : Text
  formed : isIdentifier text = true
  bounded : utf8ByteLength text ≤ maximumBytes
  deriving DecidableEq

/-- An identifier of bounded size. -/
def identifier (value : JsonValue) (maximumBytes : ℕ) : Js (Identifier maximumBytes) := do
  let result ← string value maximumBytes
  if accepted : isIdentifier result = true ∧ utf8ByteLength result ≤ maximumBytes then
    .ok ⟨result, accepted.1, accepted.2⟩
  else invalidPolicy

class Literal (T : Type) where
  values : List T
  spell : T → String
  complete : ∀ value, value ∈ values := by
    intro value
    cases value <;> decide +kernel
  ordered : (values.map fun value => (spell value).toList.map Char.toNat).IsChain (· < ·) := by
    decide +kernel
  ascii : ∀ value, ((spell value).toList.all fun character => character.toNat < 0x80) = true := by
    intro value
    cases value <;> decide +kernel

namespace Literal

variable {T : Type} [Literal T]

def text (value : T) : Text := js (spell value)

def parse? (spelled : Text) : Option T := values.find? fun value => text value = spelled

theorem pairwise_points : ((values (T := T)).map fun value => points (text value)).Pairwise
    (· < ·) := by
  simp only [text, points_js]
  exact ordered.pairwise

theorem points_nodup : ((values (T := T)).map fun value => points (text value)).Nodup :=
  pairwise_points.imp fun less => less.ne

theorem text_injective : Function.Injective (text (T := T)) := by
  intro left right same
  have separate := points_nodup (T := T)
  exact List.inj_on_of_nodup_map separate (complete left) (complete right)
    (congrArg points same)

@[simp]
theorem text_inj (left right : T) : text left = text right ↔ left = right := text_injective.eq_iff

theorem parse?_eq_some (spelled : Text) (value : T) :
    parse? spelled = some value ↔ text value = spelled := by
  constructor
  · intro found
    simpa using List.find?_some found
  · rintro rfl
    cases found : parse? (T := T) (text value) with
    | none =>
      have missing := List.find?_eq_none.mp found value (complete value)
      simp at missing
    | some other =>
      have same : text other = text value := by simpa using List.find?_some found
      rw [text_injective same]

/-- Values compare by spelling, code point by code point. -/
def order (T : Type) [Literal T] : Precedence T := (Precedence.ofLinear (List ℕ)).comap fun value =>
  points (text value)

theorem plain (value : T) : ∀ unit ∈ text value, ¬ IsSurrogate unit.toNat := by
  intro unit unitIn
  have small : ∀ point ∈ points (text value), point < 0x80 := by
    rw [text, points_js]
    simpa using List.all_eq_true.mp (ascii value)
  have listed : unit ∈ (points (text value)).flatMap fromCodePoint := by rwa [flatMap_points]
  obtain ⟨point, pointIn, unitOf⟩ := List.mem_flatMap.mp listed
  have bound := small point pointIn
  rw [fromCodePoint, if_pos (by omega), List.mem_singleton] at unitOf
  have value : unit.toNat = point := by
    rw [unitOf]
    simp
    omega
  unfold IsSurrogate
  omega

theorem order_before (left right : T) :
    (order T).before left right ↔ text left ≤ text right :=
  points_le_points (plain left) (plain right)

end Literal

def literal (T : Type) [Literal T] : JsonValue → Js T
  | .string spelled => match Literal.parse? spelled with
    | some value => .ok value
    | none => invalidPolicy
  | _ => invalidPolicy

structure KeyedSet {α κ : Type} (order : Precedence α) (key : α → κ) (minimum maximum : ℕ) where
  values : List α
  sorted : order.Sorted values
  nodup : (values.map key).Nodup
  atLeast : minimum ≤ values.length
  atMost : values.length ≤ maximum

/-- Values in order, none repeated, whose number lies between two bounds. -/
abbrev OrderedSet {α : Type} (order : Precedence α) (minimum maximum : ℕ) : Type :=
  KeyedSet order (id : α → α) minimum maximum

/-- Values of an enumeration in code point order. -/
abbrev LiteralSet (T : Type) [Literal T] (minimum maximum : ℕ) : Type :=
  OrderedSet (Literal.order T) minimum maximum

def sortedDistinct {α κ : Type} [DecidableEq κ] (order : Precedence α) (key : α → κ)
    (values : List α) (minimum maximum : ℕ) : Js (KeyedSet order key minimum maximum) :=
  if fits : (values.map key).Nodup ∧ minimum ≤ values.length ∧ values.length ≤ maximum then
    .ok {
      values := order.sort values
      sorted := order.sort_sorted values
      nodup := ((order.sort_perm values).map key).nodup_iff.mpr fits.1
      atLeast := (order.length_sort values).symm ▸ fits.2.1
      atMost := (order.length_sort values).symm ▸ fits.2.2 }
  else invalidPolicy

def orderedArray {α κ : Type} [DecidableEq κ] (order : Precedence α) (key : α → κ)
    (item : JsonValue → Js α) (value : JsonValue) (minimum maximum : ℕ) :
    Js (KeyedSet order key minimum maximum) := do
  let items ← array value minimum maximum
  let values ← each item items
  sortedDistinct order key values minimum maximum

/-- A set of literals whose size lies between two bounds. -/
def stringSet (T : Type) [Literal T] [DecidableEq T] (value : JsonValue) (minimum maximum : ℕ) :
    Js (LiteralSet T minimum maximum) :=
  orderedArray (Literal.order T) id (literal T) value minimum maximum

def natJson (number : ℕ) : JsonValue := .number number

def literalJson {T : Type} [Literal T] (value : T) : JsonValue := .string (Literal.text value)

def literalsJson {T : Type} [Literal T] {minimum maximum : ℕ}
    (values : LiteralSet T minimum maximum) : JsonValue :=
  .array (values.values.map literalJson)

/-- The JSON form of an object whose keys are literals of the source. -/
def objectJson (members : List (String × JsonValue)) : JsonValue :=
  .object (members.map fun member => (js member.1, member.2))

section Records

variable {κ : Type} {β : κ → Type}

def firstError (function : (key : κ) → Js (β key)) : List κ → Option Thrown
  | [] => none
  | key :: keys => match function key with
    | .error thrown => some thrown
    | .ok _ => firstError function keys

theorem firstError_eq_none (function : (key : κ) → Js (β key)) (keys : List κ) :
    firstError function keys = none ↔ ∀ key ∈ keys, ∃ value, function key = .ok value := by
  induction keys with
  | nil => simp [firstError]
  | cons key keys ih =>
    rw [firstError, List.forall_mem_cons]
    cases read : function key with
    | error thrown => simp
    | ok value => simpa using ih

def returned {α : Type} : (computation : Js α) → (∃ value, computation = .ok value) → α
  | .ok value, _ => value
  | .error _, returns => absurd returns nofun

theorem eq_ok_returned {α : Type} (computation : Js α)
    (returns : ∃ value, computation = .ok value) :
    computation = .ok (returned computation returns) := by
  obtain ⟨value, rfl⟩ := returns
  rfl

variable [Literal κ]

/-- Read the value of every key, in the order of the keys. -/
def eachKey (function : (key : κ) → Js (β key)) : Js ((key : κ) → β key) :=
  match refused : firstError function Literal.values with
  | some thrown => .error thrown
  | none => .ok fun key => returned (function key)
      ((firstError_eq_none function Literal.values).mp refused key (Literal.complete key))

@[simp]
theorem eachKey_eq_ok (function : (key : κ) → Js (β key)) (values : (key : κ) → β key) :
    eachKey function = .ok values ↔ ∀ key, function key = .ok (values key) := by
  unfold eachKey
  split
  · next thrown refused =>
    constructor
    · intro returns
      cases returns
    · intro every
      have none_ : firstError function Literal.values = none :=
        (firstError_eq_none _ _).mpr fun key _ => ⟨values key, every key⟩
      rw [none_] at refused
      cases refused
  · next accepted =>
    have reads (key : κ) := eq_ok_returned (function key)
      ((firstError_eq_none function Literal.values).mp accepted key (Literal.complete key))
    constructor
    · intro same key
      rw [reads key, ← Except.ok.inj same]
    · intro every
      congr 1
      funext key
      exact Except.ok.inj ((reads key).symm.trans (every key))

def recordJson (values : κ → JsonValue) : JsonValue :=
  .object (Literal.values.map fun key => (Literal.text key, values key))

end Records

section Forms

variable {κ T : Type} {minimum maximum maximumBytes : ℕ}

theorem exact_object (members : List (Text × JsonValue)) (keys : List String)
    (few : members.length ≤ maxContainerEntries)
    (known : ∀ member ∈ members, member.1 ∈ keys.map js) :
    exact (.object members) keys = .ok members := by
  have accepted : ¬ (members.length > maxContainerEntries
      ∨ ∃ member ∈ members, member.1 ∉ keys.map js) := by
    rintro (many | ⟨member, memberIn, foreign⟩)
    · omega
    · exact foreign (known member memberIn)
  simp only [exact, record, ok_bind]
  rw [if_neg accepted]

theorem exact_objectJson (members : List (String × JsonValue)) (keys : List String)
    (few : members.length ≤ maxContainerEntries)
    (known : ∀ key ∈ members.map Prod.fst, key ∈ keys) :
    exact (objectJson members) keys
      = .ok (members.map fun member => (js member.1, member.2)) := by
  refine exact_object _ keys (by simpa using few) fun member memberIn => ?_
  obtain ⟨source, sourceIn, rfl⟩ := List.mem_map.mp memberIn
  exact List.mem_map_of_mem (known source.1 (List.mem_map_of_mem sourceIn))

@[simp]
theorem required_cons (name key : String) (value : JsonValue) (rest : List (Text × JsonValue)) :
    required ((js name, value) :: rest) key
      = if name = key then .ok value else required rest key := by
  by_cases same : name = key
  · rw [if_pos same, required, member, if_pos (congrArg js same)]
  · rw [if_neg same, required, required, member, if_neg (js_injective.ne same)]

@[simp]
theorem member_cons (name key : String) (value : JsonValue) (rest : List (Text × JsonValue)) :
    member key ((js name, value) :: rest) = if name = key then some value else member key rest := by
  by_cases same : name = key
  · rw [if_pos same, member, if_pos (congrArg js same)]
  · rw [if_neg same, member, if_neg (js_injective.ne same)]

theorem member_record [Literal κ] (values : κ → JsonValue) (key : κ) :
    member (Literal.spell key) (Literal.values.map fun key => (Literal.text key, values key))
      = some (values key) := by
  have general (keys : List κ) (listed : key ∈ keys) :
      member (Literal.spell key) (keys.map fun key => (Literal.text key, values key))
        = some (values key) := by
    induction keys with
    | nil => cases listed
    | cons first keys ih =>
      rw [List.map_cons, member]
      by_cases same : first = key
      · rw [same]
        exact if_pos rfl
      · have differs : Literal.text first ≠ js (Literal.spell key) :=
          fun equal => same (Literal.text_injective equal)
        rw [if_neg differs, ih ((List.mem_cons.mp listed).resolve_left (Ne.symm same))]
  exact general _ (Literal.complete key)

theorem exact_recordJson [Literal κ] (values : κ → JsonValue)
    (few : (Literal.values (T := κ)).length ≤ maxContainerEntries) :
    exact (recordJson values) ((Literal.values (T := κ)).map Literal.spell)
      = .ok (Literal.values.map fun key => (Literal.text key, values key)) := by
  refine exact_object _ _ (by simpa using few) fun member memberIn => ?_
  obtain ⟨key, keyIn, rfl⟩ := List.mem_map.mp memberIn
  exact List.mem_map_of_mem (List.mem_map_of_mem keyIn)

@[simp]
theorem required_record [Literal κ] (values : κ → JsonValue) (key : κ) :
    required (Literal.values.map fun key => (Literal.text key, values key)) (Literal.spell key)
      = .ok (values key) := by
  rw [required, member_record]

@[simp]
theorem natural?_natJson (number : ℕ) : natural? (natJson number) = some number := by
  simp [natural?, natJson]

@[simp]
theorem integer_natJson (number : Bounded minimum maximum) :
    integer (natJson number.val) minimum maximum = .ok number := by
  rw [integer, natural?_natJson]
  exact dif_pos number.property

theorem boundedText_string (text : Text) (maximumBytes : ℕ) (allowEmpty : Bool)
    (filled : allowEmpty = true ∨ text ≠ []) (bounded : utf8ByteLength text ≤ maximumBytes) :
    boundedText (.string text) maximumBytes allowEmpty = .ok text := by
  rw [boundedText, if_neg]
  rintro (⟨refused, empty⟩ | large)
  · exact filled.elim (fun allowed => by simp [allowed] at refused) (fun some => some empty)
  · omega

theorem boundedText_eq_ok (value : JsonValue) (maximumBytes : ℕ) (allowEmpty : Bool) (text : Text) :
    boundedText value maximumBytes allowEmpty = .ok text ↔ value = .string text ∧
      (allowEmpty = true ∨ text ≠ []) ∧ utf8ByteLength text ≤ maximumBytes := by
  constructor
  · intro accepted
    cases value with
    | string spelled =>
      simp only [boundedText, guarded_eq_ok, not_or, not_and, not_lt, Except.ok.injEq] at accepted
      obtain ⟨⟨filled, bounded⟩, rfl⟩ := accepted
      refine ⟨rfl, ?_, bounded⟩
      cases allowEmpty with
      | true => exact .inl rfl
      | false => exact .inr (filled rfl)
    | _ => cases accepted
  · rintro ⟨rfl, filled, bounded⟩
    exact boundedText_string text maximumBytes allowEmpty filled bounded

theorem Identifier.text_ne_nil (name : Identifier maximumBytes) : name.text ≠ [] := by
  intro empty
  have formed := name.formed
  rw [empty] at formed
  cases formed

@[simp]
theorem identifier_string (name : Identifier maximumBytes) :
    identifier (.string name.text) maximumBytes = .ok name := by
  rw [identifier, string, boundedText_string _ _ _ (.inr name.text_ne_nil) name.bounded, ok_bind]
  exact dif_pos ⟨name.formed, name.bounded⟩

theorem identifier_eq_ok (value : JsonValue) (maximumBytes : ℕ) (name : Identifier maximumBytes) :
    identifier value maximumBytes = .ok name ↔ value = .string name.text := by
  constructor
  · intro accepted
    simp only [identifier, string, bind_eq_ok, boundedText_eq_ok] at accepted
    obtain ⟨text, ⟨rfl, -, -⟩, read⟩ := accepted
    split at read
    · rw [← Except.ok.inj read]
    · cases read
  · rintro rfl
    exact identifier_string name

@[simp]
theorem literal_literalJson [Literal T] (value : T) :
    literal T (literalJson value) = .ok value := by
  rw [literalJson, literal, (Literal.parse?_eq_some _ value).mpr rfl]

theorem array_eq_ok (value : JsonValue) (minimum maximum : ℕ) (items : List JsonValue) :
    array value minimum maximum = .ok items
      ↔ value = .array items ∧ minimum ≤ items.length ∧ items.length ≤ maximum := by
  cases value with
  | array entries =>
    simp only [array, guarded_eq_ok, not_or, not_lt, Except.ok.injEq, JsonValue.array.injEq]
    constructor
    · rintro ⟨bounds, rfl⟩
      exact ⟨rfl, bounds⟩
    · rintro ⟨rfl, bounds⟩
      exact ⟨bounds, rfl⟩
  | _ => simp [array]

section KeyedSets

variable {α κ : Type} {order : Precedence α} {key : α → κ} {minimum maximum : ℕ}

theorem KeyedSet.ext {left right : KeyedSet order key minimum maximum}
    (same : left.values = right.values) : left = right := by
  cases left
  cases right
  cases same
  rfl

@[simp]
theorem KeyedSet.sort_values (set : KeyedSet order key minimum maximum) :
    order.sort set.values = set.values :=
  order.sort_of_sorted set.sorted

variable [DecidableEq κ]

@[simp]
theorem sortedDistinct_values (set : KeyedSet order key minimum maximum) :
    sortedDistinct order key set.values minimum maximum = .ok set := by
  rw [sortedDistinct, dif_pos ⟨set.nodup, set.atLeast, set.atMost⟩]
  exact congrArg _ (KeyedSet.ext set.sort_values)

theorem sortedDistinct_eq_ok (values : List α) (set : KeyedSet order key minimum maximum) :
    sortedDistinct order key values minimum maximum = .ok set
      ↔ (values.map key).Nodup ∧ set.values = order.sort values := by
  constructor
  · intro accepted
    unfold sortedDistinct at accepted
    split at accepted
    · next fits =>
      rw [← Except.ok.inj accepted]
      exact ⟨fits.1, rfl⟩
    · cases accepted
  · rintro ⟨nodup, sorted⟩
    have length : set.values.length = values.length := by rw [sorted, Precedence.length_sort]
    rw [sortedDistinct, dif_pos ⟨nodup, length ▸ set.atLeast, length ▸ set.atMost⟩]
    exact congrArg _ (KeyedSet.ext sorted.symm)

theorem orderedArray_eq_ok (item : JsonValue → Js α) (value : JsonValue)
    (set : KeyedSet order key minimum maximum) :
    orderedArray order key item value minimum maximum = .ok set ↔ ∃ items values,
      value = .array items ∧ List.Forall₂ (fun form result => item form = .ok result) items values ∧
        (values.map key).Nodup ∧ set.values = order.sort values := by
  simp only [orderedArray, bind_eq_ok, array_eq_ok, each_eq_ok, sortedDistinct_eq_ok]
  constructor
  · rintro ⟨items, ⟨rfl, -⟩, values, returns, nodup, sorted⟩
    exact ⟨items, values, rfl, returns, nodup, sorted⟩
  · rintro ⟨items, values, rfl, returns, nodup, sorted⟩
    have length : set.values.length = items.length := by
      rw [sorted, Precedence.length_sort, returns.length_eq]
    exact ⟨items, ⟨rfl, length ▸ set.atLeast, length ▸ set.atMost⟩, values, returns, nodup, sorted⟩

theorem perm_of_orderedArray {β : Type} {item : JsonValue → Js α} {form : β → JsonValue}
    (read : α → β)
    (reads : ∀ source value, item (form source) = .ok value → read value = source)
    {sources : List β} {set : KeyedSet order key minimum maximum}
    (accepted : orderedArray order key item (.array (sources.map form)) minimum maximum = .ok set) :
    (set.values.map read).Perm sources := by
  obtain ⟨items, values, same, returns, -, sorted⟩ := (orderedArray_eq_ok _ _ _).mp accepted
  rw [JsonValue.array.injEq] at same
  rw [← same, List.forall₂_map_left_iff] at returns
  have listed : values.map read = sources := by
    have pairs : List.Forall₂ (fun source value => read value = source) sources values :=
      returns.imp reads
    rw [← List.forall₂_eq_eq_eq, List.forall₂_map_left_iff]
    exact pairs.flip
  rw [sorted, ← listed]
  exact (order.sort_perm values).map read

theorem orderedArray_map (item : JsonValue → Js α) (form : α → JsonValue)
    (set : KeyedSet order key minimum maximum)
    (returns : ∀ value ∈ set.values, item (form value) = .ok value) :
    orderedArray order key item (.array (set.values.map form)) minimum maximum = .ok set := by
  have items : array (.array (set.values.map form)) minimum maximum
      = .ok (set.values.map form) := by
    rw [array_eq_ok]
    exact ⟨rfl, by simpa using ⟨set.atLeast, set.atMost⟩⟩
  simp only [orderedArray, items, ok_bind]
  rw [each_map item form set.values returns, ok_bind, sortedDistinct_values]

end KeyedSets

@[simp]
theorem stringSet_literalsJson [Literal T] [DecidableEq T] (set : LiteralSet T minimum maximum) :
    stringSet T (literalsJson set) minimum maximum = .ok set :=
  orderedArray_map (literal T) literalJson set fun value _ => literal_literalJson value

end Forms

end Holonomy.Kernel
