import Holonomy.Foundation.Json

/-!
# Reading JSON texts

The JSON grammar as a recursive reader. Every step of the reader consumes a unit or descends from a
value to its first item, so twice the length of the text bounds its depth.
-/

namespace Holonomy.Foundation

/-- White space between tokens. -/
def isSpace (unit : UInt16) : Bool :=
  unit = 0x20 || unit = 0x09 || unit = 0x0A || unit = 0x0D

/-- The text from its first token on. -/
def skipSpace (text : Text) : Text := text.dropWhile isSpace

/-- The unit an escape without a number stands for. -/
def simpleEscape (mark : UInt16) : Option UInt16 :=
  if mark = 0x22 then some 0x22
  else if mark = 0x5C then some 0x5C
  else if mark = 0x2F then some 0x2F
  else if mark = 0x62 then some 0x08
  else if mark = 0x66 then some 0x0C
  else if mark = 0x6E then some 0x0A
  else if mark = 0x72 then some 0x0D
  else if mark = 0x74 then some 0x09
  else none

/-- The unit four hexadecimal digits stand for. -/
def hexUnit (first second third fourth : UInt16) : Option UInt16 := do
  let a ← hexValue first
  let b ← hexValue second
  let c ← hexValue third
  let d ← hexValue fourth
  return UInt16.ofNat (a * 4096 + b * 256 + c * 16 + d)

def readUnit : Text → Option (UInt16 × Text)
  | [] => none
  | unit :: rest =>
    if unit = 0x5C then match rest with
      | [] => none
      | mark :: rest =>
        if mark = 0x75 then match rest with
          | first :: second :: third :: fourth :: rest =>
            (hexUnit first second third fourth).map fun value => (value, rest)
          | _ => none
        else (simpleEscape mark).map fun value => (value, rest)
    else if unit.toNat < 0x20 then none
    else some (unit, rest)

/-- The units up to the closing mark, and what follows it. -/
def readUnits : ℕ → Text → Option (Text × Text)
  | 0, _ => none
  | fuel + 1, text =>
    if text.head? = some 0x22 then some ([], text.tail)
    else (readUnit text).bind fun unit =>
      (readUnits fuel unit.2).map fun read => (unit.1 :: read.1, read.2)

/-- The rest of a string after its opening mark, and what follows the closing mark. -/
def readString (text : Text) : Option (Text × Text) := readUnits text.length text

def setMember {α : Type} (members : List (Text × α)) (key : Text) (value : α) :
    List (Text × α) :=
  if key ∈ members.map Prod.fst then
    members.map fun member => if member.1 = key then (key, value) else member
  else members ++ [(key, value)]

namespace JsonValue

variable (format : NumberFormat)

def readWord (word : Text) (value : JsonValue) (text : Text) : Option (JsonValue × Text) :=
  if word.isPrefixOf text then some (value, text.drop word.length) else none

mutual

def readValue : ℕ → Text → Option (JsonValue × Text)
  | 0, _ => none
  | fuel + 1, text =>
    match skipSpace text with
    | [] => none
    | unit :: rest =>
      if unit = 0x22 then (readString rest).map fun read => (string read.1, read.2)
      else if unit = 0x5B then
        if (skipSpace rest).head? = some 0x5D then some (array [], (skipSpace rest).tail)
        else (readItems fuel rest).map fun read => (array read.1, read.2)
      else if unit = 0x7B then
        if (skipSpace rest).head? = some 0x7D then some (object [], (skipSpace rest).tail)
        else (readMembers fuel rest).map fun read =>
          (object (read.1.foldl (fun members member => setMember members member.1 member.2) []),
            read.2)
      else if unit = 0x6E then readWord (js "null") null (unit :: rest)
      else if unit = 0x74 then readWord (js "true") (boolean true) (unit :: rest)
      else if unit = 0x66 then readWord (js "false") (boolean false) (unit :: rest)
      else
        (format.read ((unit :: rest).takeWhile isNumeric)).map fun value =>
          (number value, (unit :: rest).dropWhile isNumeric)

def readItems : ℕ → Text → Option (List JsonValue × Text)
  | 0, _ => none
  | fuel + 1, text =>
    (readValue fuel text).bind fun item =>
      match skipSpace item.2 with
      | [] => none
      | unit :: rest =>
        if unit = 0x5D then some ([item.1], rest)
        else if unit = 0x2C then
          (readItems fuel rest).map fun read => (item.1 :: read.1, read.2)
        else none

def readMembers : ℕ → Text → Option (List (Text × JsonValue) × Text)
  | 0, _ => none
  | fuel + 1, text =>
    if (skipSpace text).head? = some 0x22 then
      (readString (skipSpace text).tail).bind fun key =>
        if (skipSpace key.2).head? = some 0x3A then
          (readValue fuel (skipSpace key.2).tail).bind fun value =>
            match skipSpace value.2 with
            | [] => none
            | unit :: rest =>
              if unit = 0x7D then some ([(key.1, value.1)], rest)
              else if unit = 0x2C then
                (readMembers fuel rest).map fun read => ((key.1, value.1) :: read.1, read.2)
              else none
        else none
    else none

end

/-- Read a whole text. -/
def parse (text : Text) : Option JsonValue :=
  (readValue format (2 * text.length + 1) text).bind fun read =>
    if skipSpace read.2 = [] then some read.1 else none

end JsonValue

section Strings

theorem hexValue_hexDigit (value : ℕ) (small : value < 16) :
    hexValue (hexDigit value) = some value := by
  interval_cases value <;> decide

/-- Hexadecimal digits are printable ASCII. -/
theorem hexDigit_toNat (value : ℕ) (small : value < 16) :
    0x30 ≤ (hexDigit value).toNat ∧ (hexDigit value).toNat ≤ 0x66 := by
  interval_cases value <;> decide

section

variable (unit : UInt16)

include unit

theorem hexUnit_digits :
    hexUnit (hexDigit (unit.toNat / 4096)) (hexDigit (unit.toNat / 256 % 16))
      (hexDigit (unit.toNat / 16 % 16)) (hexDigit (unit.toNat % 16)) = some unit := by
  have bound := unit.toNat_lt
  have digits : unit.toNat / 4096 * 4096 + unit.toNat / 256 % 16 * 256 + unit.toNat / 16 % 16 * 16
      + unit.toNat % 16 = unit.toNat := by omega
  simp only [hexUnit, hexValue_hexDigit _ (show unit.toNat / 4096 < 16 by omega),
    hexValue_hexDigit _ (Nat.mod_lt _ (show 16 > 0 by omega)), Option.bind_eq_bind,
    Option.bind_some, digits, UInt16.ofNat_toNat]
  rfl

theorem readUnit_escapeUnit (rest : Text) :
    readUnit (escapeUnit unit ++ rest) = some (unit, rest) := by
  unfold escapeUnit
  split
  · next mark => subst mark; rfl
  split
  · next mark => subst mark; rfl
  split
  · next mark => subst mark; rfl
  split
  · next mark => subst mark; rfl
  split
  · next mark => subst mark; rfl
  split
  · next mark => subst mark; rfl
  split
  · next mark => subst mark; rfl
  split
  · simp only [unicodeEscape, List.cons_append, List.nil_append, readUnit, hexUnit_digits]
    rfl
  · next noQuote noSlash _ _ _ _ _ plain =>
    have printable : ¬ unit.toNat < 0x20 := by
      intro small
      simp [small] at plain
    simp only [List.cons_append, List.nil_append, readUnit, if_neg noSlash, if_neg printable]

/-- No written unit looks like the closing mark. -/
theorem head_escapeUnit (rest : Text) :
    (escapeUnit unit ++ rest).head? ≠ some 0x22 := by
  unfold escapeUnit unicodeEscape
  repeat' split
  all_goals first | decide | simp [*]

/-- A half of a pair is read as it is. -/
theorem readUnit_surrogate (surrogate : 0xD800 ≤ unit.toNat) (rest : Text) :
    (unit :: rest).head? ≠ some 0x22 ∧ readUnit (unit :: rest) = some (unit, rest) := by
  have noQuote : unit ≠ 0x22 := by rintro rfl; exact absurd surrogate (by decide)
  have noSlash : unit ≠ 0x5C := by rintro rfl; exact absurd surrogate (by decide)
  have printable : ¬ unit.toNat < 0x20 := by omega
  simp [readUnit, noQuote, noSlash, printable]

/-- A written unit is not empty. -/
theorem length_escapeUnit : 0 < (escapeUnit unit).length := by
  unfold escapeUnit unicodeEscape
  repeat' split
  all_goals simp

end

/-- One step of reading a string. -/
theorem readUnits_step {fuel : ℕ} {text rest : Text} {unit : UInt16}
    (open_ : text.head? ≠ some 0x22) (read : readUnit text = some (unit, rest)) :
    readUnits (fuel + 1) text
      = (readUnits fuel rest).map fun read => (unit :: read.1, read.2) := by
  rw [readUnits, if_neg open_, read, Option.bind_some]

theorem readUnits_escape (text rest : Text) (fuel : ℕ) (enough : (escape text).length < fuel) :
    readUnits fuel (escape text ++ 0x22 :: rest) = some (text, rest) := by
  fun_induction escape text generalizing fuel with
  | case1 =>
    obtain ⟨fuel, rfl⟩ := Nat.exists_eq_add_of_lt enough
    rfl
  | case2 unit =>
    have positive := length_escapeUnit unit
    obtain ⟨fuel, rfl⟩ : ∃ less, fuel = less + 1 + 1 := ⟨fuel - 2, by omega⟩
    rw [readUnits_step (head_escapeUnit unit _) (readUnit_escapeUnit unit _)]
    rfl
  | case3 lead trail tail pair ih =>
    rw [Bool.and_eq_true, isLead_iff, isTrail_iff] at pair
    simp only [List.length_cons] at enough
    obtain ⟨fuel, rfl⟩ : ∃ less, fuel = less + 1 + 1 := ⟨fuel - 2, by omega⟩
    have first := readUnit_surrogate lead (by omega) (trail :: (escape tail ++ 0x22 :: rest))
    have second := readUnit_surrogate trail (by omega) (escape tail ++ 0x22 :: rest)
    rw [List.cons_append, List.cons_append, readUnits_step first.1 first.2,
      readUnits_step second.1 second.2, ih fuel (by omega)]
    rfl
  | case4 lead trail tail single ih =>
    rw [List.length_append] at enough
    have positive := length_escapeUnit lead
    obtain ⟨fuel, rfl⟩ : ∃ less, fuel = less + 1 := ⟨fuel - 1, by omega⟩
    rw [List.append_assoc, readUnits_step (head_escapeUnit lead _) (readUnit_escapeUnit lead _),
      ih fuel (by omega)]
    rfl

theorem readString_escape (text rest : Text) :
    readString (escape text ++ 0x22 :: rest) = some (text, rest) :=
  readUnits_escape text rest _ (by simp)

theorem escapeUnit_plain (unit : UInt16) :
    ∀ written ∈ escapeUnit unit, ¬ IsSurrogate written.toNat := by
  have digit (value : ℕ) (small : value < 16) : ¬ IsSurrogate (hexDigit value).toNat := by
    have range := hexDigit_toNat value small
    unfold IsSurrogate
    omega
  have bound := unit.toNat_lt
  unfold escapeUnit
  split
  · exact plain_of_all rfl
  split
  · exact plain_of_all rfl
  split
  · exact plain_of_all rfl
  split
  · exact plain_of_all rfl
  split
  · exact plain_of_all rfl
  split
  · exact plain_of_all rfl
  split
  · exact plain_of_all rfl
  split
  · simp only [unicodeEscape, List.forall_mem_cons, List.not_mem_nil, IsEmpty.forall_iff,
      implies_true, and_true]
    exact ⟨by decide, by decide, digit _ (by omega), digit _ (by omega), digit _ (by omega),
      digit _ (by omega)⟩
  · next plain =>
    simp only [Bool.or_eq_true, decide_eq_true_eq, isLead_iff, isTrail_iff, not_or] at plain
    simp only [List.mem_singleton, forall_eq]
    unfold IsSurrogate
    omega

theorem wellFormed_escape (text : Text) : WellFormed (escape text) := by
  fun_induction escape text with
  | case1 => decide
  | case2 unit => exact wellFormed_of_plain (escapeUnit_plain unit)
  | case3 lead trail tail pair ih => exact wellFormed_pair pair ih
  | case4 lead trail tail single ih =>
    exact wellFormed_append (wellFormed_of_plain (escapeUnit_plain lead)) ih

theorem wellFormed_quote (text : Text) : WellFormed (quote text) :=
  @wellFormed_append [0x22] _ (by decide)
    (wellFormed_append (wellFormed_escape text) (by decide))

theorem wellFormed_join {texts : List Text} (formed : ∀ text ∈ texts, WellFormed text) :
    WellFormed (join 0x2C texts) := by
  induction texts with
  | nil => decide
  | cons text texts ih =>
    cases texts with
    | nil =>
      rw [join, List.intercalate_singleton]
      exact formed text (by simp)
    | cons next texts =>
      have tail := ih fun text textIn => formed text (List.mem_cons_of_mem _ textIn)
      rw [join, List.intercalate_cons_cons]
      exact wellFormed_append (wellFormed_append (formed text (by simp)) (by decide)) tail

end Strings

section Numbers

/-- The numeric units. -/
theorem isNumeric_iff (unit : UInt16) :
    isNumeric unit = true ↔ (0x30 ≤ unit.toNat ∧ unit.toNat ≤ 0x39) ∨ unit.toNat = 0x2B
      ∨ unit.toNat = 0x2D ∨ unit.toNat = 0x2E ∨ unit.toNat = 0x45 ∨ unit.toNat = 0x65 := by
  simp [isNumeric, UInt16.le_iff_toNat_le, ← UInt16.toNat_inj, or_assoc]

/-- What follows cannot prolong a number. -/
def Stops (rest : Text) : Prop := ∀ unit ∈ rest.head?, isNumeric unit = false

/-- The end of the text prolongs no number. -/
theorem stops_nil : Stops [] := by simp [Stops]

theorem stops_cons {unit : UInt16} {rest : Text} (other : isNumeric unit = false) :
    Stops (unit :: rest) := by simpa [Stops] using other

theorem takeWhile_numeric {spelled rest : Text}
    (numeric : ∀ unit ∈ spelled, isNumeric unit = true) (stops : Stops rest) :
    (spelled ++ rest).takeWhile isNumeric = spelled ∧
    (spelled ++ rest).dropWhile isNumeric = rest := by
  rw [List.takeWhile_append_of_pos numeric, List.dropWhile_append_of_pos numeric]
  cases rest with
  | nil => simp
  | cons unit rest =>
    have other : isNumeric unit = false := stops unit rfl
    simp [other]

end Numbers

namespace JsonValue

variable (format : NumberFormat)

/-- Every JSON text is well formed. -/
theorem wellFormed_stringify (value : JsonValue) : WellFormed (stringify format value) := by
  have word (literal : String) (ascii : ∀ unit ∈ js literal, ¬ IsSurrogate unit.toNat) :
      WellFormed (js literal) := wellFormed_of_plain ascii
  induction value with
  | null => exact word "null" (plain_of_all rfl)
  | boolean value =>
    cases value with
    | true => exact word "true" (plain_of_all rfl)
    | false => exact word "false" (plain_of_all rfl)
  | number value =>
    refine wellFormed_of_plain fun unit unitIn => ?_
    have numeric := (isNumeric_iff unit).mp (format.write_numeric value unit unitIn)
    unfold IsSurrogate
    omega
  | string value => exact wellFormed_quote value
  | array items ih =>
    rw [stringify, stringifyItems_eq]
    refine @wellFormed_append [0x5B] _ (by decide) (wellFormed_append ?_ (by decide))
    refine wellFormed_join fun text textIn => ?_
    obtain ⟨item, itemIn, rfl⟩ := List.mem_map.mp textIn
    exact ih item itemIn
  | object members ih =>
    rw [stringify, stringifyMembers_eq]
    refine @wellFormed_append [0x7B] _ (by decide) (wellFormed_append ?_ (by decide))
    refine wellFormed_join fun text textIn => ?_
    obtain ⟨member, memberIn, rfl⟩ := List.mem_map.mp textIn
    exact wellFormed_append (wellFormed_quote member.1)
      (@wellFormed_append [0x3A] _ (by decide) (ih member memberIn))

theorem skipSpace_cons {unit : UInt16} (token : isSpace unit = false) (rest : Text) :
    skipSpace (unit :: rest) = unit :: rest := by
  simp [skipSpace, token]

/-- A written value starts with a token that closes nothing. -/
theorem stringify_head (value : JsonValue) :
    ∃ unit rest, stringify format value = unit :: rest ∧ isSpace unit = false ∧ unit ≠ 0x5D := by
  cases value with
  | null => exact ⟨0x6E, js "ull", rfl, rfl, by decide⟩
  | boolean value =>
    cases value with
    | true => exact ⟨0x74, js "rue", rfl, rfl, by decide⟩
    | false => exact ⟨0x66, js "alse", rfl, rfl, by decide⟩
  | number value =>
    obtain ⟨unit, rest, spelled⟩ := List.exists_cons_of_ne_nil (format.write_ne_nil value)
    have numeric := (isNumeric_iff unit).mp (format.write_numeric value unit (by simp [spelled]))
    refine ⟨unit, rest, spelled, ?_, ?_⟩
    · simp only [isSpace, ← UInt16.toNat_inj, Bool.or_eq_false_iff, decide_eq_false_iff_not]
      change ((unit.toNat ≠ 0x20 ∧ unit.toNat ≠ 0x09) ∧ unit.toNat ≠ 0x0A) ∧ unit.toNat ≠ 0x0D
      omega
    · rintro rfl
      exact absurd numeric (by decide)
  | string value => exact ⟨0x22, _, rfl, rfl, by decide⟩
  | array items => exact ⟨0x5B, _, rfl, rfl, by decide⟩
  | object members => exact ⟨0x7B, _, rfl, rfl, by decide⟩

/-- Setting keys that are all different keeps the members as they come. -/
theorem foldl_setMember {α : Type} (members before : List (Text × α))
    (distinct : ((before ++ members).map Prod.fst).Nodup) :
    members.foldl (fun members member => setMember members member.1 member.2) before
      = before ++ members := by
  induction members generalizing before with
  | nil => simp
  | cons member members ih =>
    have fresh : member.1 ∉ before.map Prod.fst := by
      rw [List.map_append, List.nodup_append'] at distinct
      exact fun again => distinct.2.2 again (by simp)
    rw [List.foldl_cons, setMember, if_neg fresh, ih _ (by simpa using distinct)]
    simp

def Reads (value : JsonValue) : Prop :=
  ∀ fuel rest, 2 * (stringify format value).length + 1 ≤ fuel → Stops rest →
    readValue format fuel (stringify format value ++ rest) = some (value, rest)

theorem readItems_join (items : List JsonValue) (each : ∀ item ∈ items, Reads format item)
    (some_ : items ≠ []) (fuel : ℕ) (rest : Text)
    (enough : 2 * (join 0x2C (items.map (stringify format))).length + 2 ≤ fuel) :
    readItems format fuel (join 0x2C (items.map (stringify format)) ++ 0x5D :: rest)
      = some (items, rest) := by
  induction items generalizing fuel with
  | nil => exact absurd rfl some_
  | cons item items ih =>
    obtain ⟨fuel, rfl⟩ : ∃ less, fuel = less + 1 := ⟨fuel - 1, by omega⟩
    cases items with
    | nil =>
      rw [List.map_singleton, join, List.intercalate_singleton] at enough ⊢
      rw [readItems, each item (by simp) fuel _ (by omega) (stops_cons (by decide))]
      rfl
    | cons next items =>
      rw [List.map_cons, List.map_cons, join, List.intercalate_cons_cons] at enough ⊢
      rw [← List.map_cons, ← join] at enough ⊢
      simp only [List.length_append, List.length_singleton] at enough
      rw [List.append_assoc, List.append_assoc, List.singleton_append, readItems,
        each item (by simp) fuel _ (by omega) (stops_cons (by decide)), Option.bind_some,
        skipSpace_cons (by decide)]
      dsimp only
      rw [if_neg (by decide), if_pos rfl,
        ih (fun other otherIn => each other (List.mem_cons_of_mem _ otherIn)) (by simp) fuel
          (by omega)]
      rfl

theorem readMembers_join (members : List (Text × JsonValue))
    (each : ∀ member ∈ members, Reads format member.2) (some_ : members ≠ []) (fuel : ℕ)
    (rest : Text)
    (enough : 2 * (join 0x2C (stringifyMembers format members)).length + 2 ≤ fuel) :
    readMembers format fuel (join 0x2C (stringifyMembers format members) ++ 0x7D :: rest)
      = some (members, rest) := by
  induction members generalizing fuel with
  | nil => exact absurd rfl some_
  | cons member members ih =>
    obtain ⟨key, value⟩ := member
    obtain ⟨fuel, rfl⟩ : ∃ less, fuel = less + 1 := ⟨fuel - 1, by omega⟩
    have opened (after : Text) : quote key ++ after = 0x22 :: (escape key ++ 0x22 :: after) := by
      simp [quote]
    have valueReads : Reads format value := each (key, value) (by simp)
    cases members with
    | nil =>
      simp only [stringifyMembers, join, List.intercalate_singleton, List.length_append,
        List.length_cons] at enough
      simp only [stringifyMembers, join, List.intercalate_singleton, List.append_assoc,
        List.cons_append]
      rw [readMembers, opened, skipSpace_cons (by decide), List.head?_cons, if_pos rfl,
        List.tail_cons, readString_escape, Option.bind_some, skipSpace_cons (by decide),
        List.head?_cons, if_pos rfl, List.tail_cons,
        valueReads fuel _ (by omega) (stops_cons (by decide))]
      rfl
    | cons next members =>
      have unfolded : join 0x2C (stringifyMembers format ((key, value) :: next :: members))
          = quote key ++ 0x3A :: (stringify format value ++ 0x2C ::
            join 0x2C (stringifyMembers format (next :: members))) := by
        obtain ⟨other, more⟩ := next
        simp [stringifyMembers, join, List.intercalate_cons_cons]
      rw [unfolded] at enough ⊢
      simp only [List.length_append, List.length_cons] at enough
      simp only [List.append_assoc, List.cons_append]
      rw [readMembers, opened, skipSpace_cons (by decide), List.head?_cons, if_pos rfl,
        List.tail_cons, readString_escape, Option.bind_some, skipSpace_cons (by decide),
        List.head?_cons, if_pos rfl, List.tail_cons,
        valueReads fuel _ (by omega) (stops_cons (by decide)), Option.bind_some,
        skipSpace_cons (by decide)]
      dsimp only
      rw [if_neg (by decide), if_pos rfl,
        ih (fun other otherIn => each other (List.mem_cons_of_mem _ otherIn)) (by simp) fuel
          (by omega)]
      rfl

variable {value : JsonValue}

section

variable (proper : Proper format value)

include proper

theorem readValue_stringify : Reads format value := by
  induction proper with
  | null =>
    intro fuel rest enough _
    obtain ⟨fuel, rfl⟩ : ∃ less, fuel = less + 1 := ⟨fuel - 1, by omega⟩
    rfl
  | boolean value =>
    intro fuel rest enough _
    obtain ⟨fuel, rfl⟩ : ∃ less, fuel = less + 1 := ⟨fuel - 1, by omega⟩
    cases value with
    | true => rfl
    | false => rfl
  | number value representable =>
    intro fuel rest enough stops
    obtain ⟨fuel, rfl⟩ : ∃ less, fuel = less + 1 := ⟨fuel - 1, by omega⟩
    obtain ⟨unit, tail, spelled, token, _⟩ := stringify_head format (number value)
    have numeric := (isNumeric_iff unit).mp
      (format.write_numeric value unit (by rw [← stringify, spelled]; simp))
    have other (mark : UInt16) (differs : isNumeric mark = false) : unit ≠ mark := by
      rintro rfl
      rw [(isNumeric_iff unit).mpr numeric] at differs
      exact absurd differs (by decide)
    have taken := takeWhile_numeric (format.write_numeric value) stops
    rw [← stringify, spelled] at taken
    rw [spelled, List.cons_append, readValue, skipSpace_cons token]
    dsimp only
    rw [if_neg (other 0x22 rfl), if_neg (other 0x5B rfl), if_neg (other 0x7B rfl),
      if_neg (other 0x6E rfl), if_neg (other 0x74 rfl), if_neg (other 0x66 rfl),
      ← List.cons_append, taken.1, taken.2, ← spelled, stringify,
      format.read_write value representable]
    rfl
  | string value =>
    intro fuel rest enough _
    obtain ⟨fuel, rfl⟩ : ∃ less, fuel = less + 1 := ⟨fuel - 1, by omega⟩
    rw [stringify, quote, List.cons_append, List.append_assoc, readValue,
      skipSpace_cons (by decide)]
    dsimp only
    rw [if_pos rfl, List.singleton_append, readString_escape]
    rfl
  | array items each ih =>
    intro fuel rest enough _
    obtain ⟨fuel, rfl⟩ : ∃ less, fuel = less + 1 := ⟨fuel - 1, by omega⟩
    rw [stringify, stringifyItems_eq] at enough ⊢
    simp only [List.length_cons, List.length_append, List.length_nil] at enough
    rw [List.cons_append, List.append_assoc, List.singleton_append, readValue,
      skipSpace_cons (by decide)]
    dsimp only
    rw [if_neg (by decide), if_pos rfl]
    cases items with
    | nil => rfl
    | cons item items =>
      obtain ⟨unit, tail, spelled, token, opens⟩ := stringify_head format item
      have first : ∃ after, join 0x2C ((item :: items).map (stringify format)) ++ 0x5D :: rest
          = unit :: after := by
        cases items with
        | nil => exact ⟨_, by simp only [List.map_cons, List.map_nil, join,
            List.intercalate_singleton, spelled, List.cons_append]; rfl⟩
        | cons next items => exact ⟨_, by simp only [List.map_cons, join,
            List.intercalate_cons_cons, spelled, List.cons_append, List.append_assoc]; rfl⟩
      obtain ⟨after, first⟩ := first
      have started :
        (skipSpace (join 0x2C ((item :: items).map (stringify format)) ++ 0x5D :: rest)).head?
          ≠ some 0x5D := by
        rw [first, skipSpace_cons token]
        simpa using opens
      rw [if_neg started, readItems_join format (item :: items) ih (by simp) fuel rest (by omega)]
      rfl
  | object members distinct each ih =>
    intro fuel rest enough _
    obtain ⟨fuel, rfl⟩ : ∃ less, fuel = less + 1 := ⟨fuel - 1, by omega⟩
    rw [stringify] at enough ⊢
    simp only [List.length_cons, List.length_append, List.length_nil] at enough
    rw [List.cons_append, List.append_assoc, List.singleton_append, readValue,
      skipSpace_cons (by decide)]
    dsimp only
    rw [if_neg (by decide), if_neg (by decide), if_pos rfl]
    cases members with
    | nil => rfl
    | cons member members =>
      have first : ∃ after, join 0x2C (stringifyMembers format (member :: members)) ++ 0x7D :: rest
          = 0x22 :: after := by
        cases members with
        | nil => exact ⟨_, rfl⟩
        | cons next members => exact ⟨_, rfl⟩
      obtain ⟨after, first⟩ := first
      have started : (skipSpace (join 0x2C (stringifyMembers format (member :: members))
          ++ 0x7D :: rest)).head? ≠ some 0x7D := by
        rw [first, skipSpace_cons (by decide)]
        simp
      rw [if_neg started,
        readMembers_join format (member :: members) ih (by simp) fuel rest (by omega),
        Option.map_some, foldl_setMember _ [] (by simpa using distinct)]
      rfl

/-- Reading a written value returns it. -/
theorem parse_stringify :
    parse format (stringify format value) = some value := by
  have read := readValue_stringify format proper (2 * (stringify format value).length + 1) []
    (le_refl _) stops_nil
  rw [List.append_nil] at read
  rw [parse, read]
  rfl

/-- Reading the canonical text returns the value in key order. -/
theorem parse_canonicalJson :
    parse format (canonicalJson format value) = some (sortMembers value) :=
  parse_stringify format (proper_sortMembers format proper)

end

theorem sortMembers_eq_of_canonicalJson {left right : JsonValue} (leftProper : Proper format left)
    (rightProper : Proper format right)
    (same : canonicalJson format left = canonicalJson format right) :
    sortMembers left = sortMembers right := by
  have read := parse_canonicalJson format leftProper
  rw [same, parse_canonicalJson format rightProper] at read
  exact (Option.some.inj read).symm

end JsonValue

end Holonomy.Foundation
