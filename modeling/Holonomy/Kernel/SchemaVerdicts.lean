import Holonomy.Kernel.SchemaCalls

/-!
# Verdicts and the order of members

Three keywords compare serialized texts, in which the order of members shows. Wherever validation
comes with a value, a value that is compared there and is equal to it as a JSON value must have the
same text.
-/

namespace Holonomy.Kernel.Schema

open Foundation JsonValue

variable (host : SchemaHost)

def inPlace (schema : JsonValue) : List JsonValue :=
  listed schema (js "allOf") ++ listed schema (js "anyOf") ++ listed schema (js "oneOf") ++
    [js "if", js "then", js "else", js "not"].filterMap (present schema)

inductive Applies (schema : JsonValue) : JsonValue → JsonValue → JsonValue → Prop where
  | inPlace {value part : JsonValue} (partIn : part ∈ inPlace schema) :
    Applies schema value part value
  | first {items : List JsonValue} {part item : JsonValue}
    (pairIn : (part, item) ∈ (listed schema (js "prefixItems")).zip items) :
    Applies schema (.array items) part item
  | rest {items : List JsonValue} {part item : JsonValue}
    (found : applicable schema (js "items") = some part)
    (itemIn : item ∈ items.drop (listed schema (js "prefixItems")).length) :
    Applies schema (.array items) part item
  | name {input : List (Text × JsonValue)} {part : JsonValue} {entry : Text × JsonValue}
    (found : present schema (js "propertyNames") = some part) (entryIn : entry ∈ input) :
    Applies schema (.object input) part (.string entry.1)
  | known {input : List (Text × JsonValue)} {entry : Text × JsonValue} {value : JsonValue}
    (entryIn : entry ∈ entries host (properties schema))
    (found : member entry.1 input = some value) :
    Applies schema (.object input) entry.2 value
  | additional {input : List (Text × JsonValue)} {part : JsonValue} {entry : Text × JsonValue}
    (found : applicable schema (js "additionalProperties") = some part) (entryIn : entry ∈ input)
    (unknown : hasOwn host (properties schema) entry.1 = false) :
    Applies schema (.object input) part entry.2

inductive Calls (root schema value : JsonValue) : JsonValue → JsonValue → Prop where
  | reference {reference : Text} {found : JsonValue}
    (refers : named schema (js "$ref") = some reference)
    (means : definition host root reference = some (.schema found)) :
    Calls root schema value found value
  | applies {part target : JsonValue} (plain : named schema (js "$ref") = none)
    (applied : Applies host schema value part target) : Calls root schema value part target

inductive Visits (root : JsonValue) : JsonValue → JsonValue → JsonValue → JsonValue → Prop where
  | here (schema value : JsonValue) : Visits root schema value schema value
  | call {schema value part target last reached : JsonValue}
    (calls : Calls host root schema value part target)
    (visits : Visits root part target last reached) : Visits root schema value last reached

structure Tells (schema value : JsonValue) : Prop where
  const : ∀ constant, keyword schema (js "const") = some constant → Equals value constant →
    equal host value constant = true
  enum : ∀ items, arrayUnder schema (js "enum") = some items →
    (∃ item ∈ items, Equals value item) → ∃ item ∈ items, equal host value item = true
  unique : ∀ items, value = .array items → named schema (js "type") = some (js "array") →
    flagged schema (js "uniqueItems") true = true →
    (¬ items.Pairwise fun one other => ¬ Equals one other) → itemsUnique host items = false

/-- Wherever validation comes, equal values have equal texts. -/
def Telling (root schema value : JsonValue) : Prop :=
  ∀ part target, Visits host root schema value part target → Tells host part target

variable {host}

variable {schema value left right valueToo : JsonValue} {items : List JsonValue} {key : Text}
  {α β : Type}

theorem Telling.call {root part target : JsonValue} (telling : Telling host root schema value)
    (calls : Calls host root schema value part target) : Telling host root part target :=
  fun last reached visits => telling last reached (.call calls visits)

theorem equals_of_equal (leftProper : Proper host.numbers left)
    (rightProper : Proper host.numbers right) (same : equal host left right = true) :
    Equals left right := by
  have values := eq_of_stringify_eq leftProper rightProper (of_decide_eq_true same)
  rw [values]
  exact .refl right

theorem itemsUnique_iff :
    itemsUnique host items = true ↔ (items.map (stringify host.numbers)).Nodup := by
  rw [itemsUnique, decide_eq_true_iff, ← List.dedup_eq_self]
  constructor
  · intro same
    have texts := items.map (stringify host.numbers)
    apply (List.dedup_sublist _).eq_of_length
    rw [same, List.length_map]
  · intro same
    rw [same, List.length_map]

theorem itemsUnique_of_pairwise (proper : ∀ item ∈ items, Proper host.numbers item)
    (distinct : items.Pairwise fun one other => ¬ Equals one other) :
    itemsUnique host items = true := by
  rw [itemsUnique_iff, List.Nodup, List.pairwise_map]
  apply List.Pairwise.imp_of_mem ?_ distinct
  intro one other oneIn otherIn differ same
  exact differ (equals_of_equal (proper one oneIn) (proper other otherIn) (decide_eq_true same))

structure Decides (host : SchemaHost) (schema value : JsonValue) : Prop where
  const : ∀ constant, keyword schema (js "const") = some constant →
    (constHolds host schema value = true ↔ Equals value constant)
  enum : ∀ items, arrayUnder schema (js "enum") = some items →
    (enumHolds host schema value = true ↔ ∃ item ∈ items, Equals value item)
  unique : ∀ items, value = .array items → named schema (js "type") = some (js "array") →
    flagged schema (js "uniqueItems") true = true →
    (itemsUnique host items = true ↔ items.Pairwise fun one other => ¬ Equals one other)

theorem keyword_proper (proper : Proper host.numbers schema)
    (found : keyword schema key = some value) : Proper host.numbers value := by
  have rel := keyword_alike (.refl proper) key
  rw [found] at rel
  cases rel with
  | some alike => exact alike.left

theorem arrayUnder_proper (proper : Proper host.numbers schema)
    (found : arrayUnder schema key = some items) : ∀ item ∈ items, Proper host.numbers item := by
  have rel := arrayUnder_alike (.refl proper) key
  rw [found] at rel
  cases rel with
  | some each =>
    intro item itemIn
    obtain ⟨index, inside, rfl⟩ := List.getElem_of_mem itemIn
    exact (each.get inside inside).left

theorem items_proper (proper : Proper host.numbers (.array items)) :
    ∀ item ∈ items, Proper host.numbers item := by
  cases proper with
  | array _ each => exact each

/-- The comparing keywords decide equality exactly where equal values have equal texts. -/
theorem decides_iff_tells (schemaProper : Proper host.numbers schema)
    (valueProper : Proper host.numbers value) :
    Decides host schema value ↔ Tells host schema value := by
  constructor
  · intro decides
    refine ⟨fun constant found same => ?_, fun items found some' => ?_,
      fun items isArray type flag same => ?_⟩
    · have holds := (decides.const constant found).mpr same
      rw [constHolds, found] at holds
      exact holds
    · have holds := (decides.enum items found).mpr some'
      rw [enumHolds, found] at holds
      exact List.any_eq_true.mp holds
    · have unlike := mt (decides.unique items isArray type flag).mp same
      exact Bool.eq_false_of_not_eq_true unlike
  · intro tells
    refine ⟨fun constant found => ?_, fun items found => ?_, fun items isArray type flag => ?_⟩
    · have constantProper := keyword_proper schemaProper found
      rw [constHolds, found]
      exact ⟨equals_of_equal valueProper constantProper, tells.const constant found⟩
    · have itemsProper := arrayUnder_proper schemaProper found
      rw [enumHolds, found]
      constructor
      · intro holds
        obtain ⟨item, itemIn, same⟩ := List.any_eq_true.mp holds
        exact ⟨item, itemIn, equals_of_equal valueProper (itemsProper item itemIn) same⟩
      · intro some'
        exact List.any_eq_true.mpr (tells.enum items found some')
    · constructor
      · intro unique
        by_contra repeated
        rw [tells.unique items isArray type flag repeated] at unique
        cases unique
      · intro distinct
        rw [isArray] at valueProper
        exact itemsUnique_of_pairwise (items_proper valueProper) distinct

theorem forall₂_mem {relation : α → β → Prop} {left : List α} {right : List β}
    (each : List.Forall₂ relation left right) :
    List.Forall₂ (fun one other => one ∈ left ∧ other ∈ right ∧ relation one other) left right := by
  induction each with
  | nil => exact .nil
  | cons head tail ih =>
    refine .cons ⟨List.mem_cons_self, List.mem_cons_self, head⟩ (ih.imp ?_)
    intro one other found
    exact ⟨List.mem_cons_of_mem _ found.1, List.mem_cons_of_mem _ found.2.1, found.2.2⟩

theorem forall₂_zip {γ δ : Type} {first : α → β → Prop} {second : γ → δ → Prop} {left : List α}
    {right : List β} {items : List γ} {others : List δ} (heads : List.Forall₂ first left right)
    (tails : List.Forall₂ second items others) :
    List.Forall₂ (fun pair other => first pair.1 other.1 ∧ second pair.2 other.2)
      (left.zip items) (right.zip others) := by
  induction heads generalizing items others with
  | nil => exact .nil
  | cons head rest ih =>
    cases tails with
    | nil => exact .nil
    | cons tail later => exact .cons ⟨head, tail⟩ (ih later)

section

variable (alike : Alike host.numbers left right)

include alike

theorem properties_alike : Alike host.numbers (properties left) (properties right) := by
  have rel := present_alike alike (js "properties")
  unfold properties
  generalize present left (js "properties") = first at rel ⊢
  generalize present right (js "properties") = second at rel ⊢
  cases rel with
  | some same => exact same
  | none => exact .refl (.object [] List.nodup_nil fun entry entryIn =>
      absurd entryIn List.not_mem_nil)

theorem kinds_alike : isNull left = isNull right ∧ isBoolean left = isBoolean right ∧
      isObject left = isObject right := by
  cases alike.equals <;> exact ⟨rfl, rfl, rfl⟩

theorem typeHolds_alike (type : Text) (isKind : Bool) :
    typeHolds left type isKind = typeHolds right type isKind := by
  rw [typeHolds, typeHolds, (scalar_alike alike _).2.1]

theorem hasObjectKeyword_alike : hasObjectKeyword left = hasObjectKeyword right := by
  have same : ∀ key, (keyword left key).isSome = (keyword right key).isSome := by
    intro key
    have rel := keyword_alike alike key
    generalize keyword left key = first at rel ⊢
    generalize keyword right key = second at rel ⊢
    cases rel with
    | none => rfl
    | some related => rfl
  unfold hasObjectKeyword
  simp only [same]

end

theorem numberConstraint_alike (schemas : Alike host.numbers left right)
    (values : Alike host.numbers value valueToo) :
    numberConstraint value left = numberConstraint valueToo right := by
  have scalars := scalar_alike schemas
  cases values.equals with
  | number number => simp only [numberConstraint, (scalars _).1, (scalars _).2.1]
  | _ => rfl

theorem stringConstraint_alike (schemas : Alike host.numbers left right)
    (values : Alike host.numbers value valueToo) :
    stringConstraint host value left = stringConstraint host valueToo right := by
  have scalars := scalar_alike schemas
  cases values.equals with
  | string text => simp only [stringConstraint, (scalars _).1, (scalars _).2.1]
  | _ => rfl

section InPlace

variable (schema part : JsonValue)

theorem allOf_inPlace (partIn : part ∈ listed schema (js "allOf")) : part ∈ inPlace schema :=
  List.mem_append_left _ (List.mem_append_left _ (List.mem_append_left _ partIn))

theorem anyOf_inPlace (partIn : part ∈ listed schema (js "anyOf")) : part ∈ inPlace schema :=
  List.mem_append_left _ (List.mem_append_left _ (List.mem_append_right _ partIn))

theorem oneOf_inPlace (partIn : part ∈ listed schema (js "oneOf")) : part ∈ inPlace schema :=
  List.mem_append_left _ (List.mem_append_right _ partIn)

end InPlace

section Agreement

variable {check checkToo : JsonValue → JsonValue → Verdict SchemaFailure}
variable {schema schemaToo value valueToo : JsonValue}
variable (schemas : Alike host.numbers schema schemaToo)
variable (values : Alike host.numbers value valueToo)

section Clauses

variable (checks : ∀ part target partToo targetToo, Applies host schema value part target →
  Applies host schemaToo valueToo partToo targetToo → Alike host.numbers part partToo →
    Alike host.numbers target targetToo →
      Verdict.Agree (check part target) (checkToo partToo targetToo))

include schemas values

variable {items others : List JsonValue} {part partToo : JsonValue} {key : Text}
  {input inputToo : List (Text × JsonValue)}

theorem constHolds_alike (tells : Tells host schema value)
    (tellsToo : Tells host schemaToo valueToo) :
    constHolds host schema value = constHolds host schemaToo valueToo := by
  have rel := keyword_alike schemas (js "const")
  have decides := ((decides_iff_tells schemas.left values.left).mpr tells).const
  have decidesToo := ((decides_iff_tells schemas.right values.right).mpr tellsToo).const
  rcases Verdict.rel_cases rel with ⟨found, foundToo⟩ | ⟨constant, constantToo, found,
    foundToo, alike⟩
  · rw [constHolds, constHolds, found, foundToo]
  · rw [Bool.eq_iff_iff, decides constant found, decidesToo constantToo foundToo]
    constructor
    · intro same
      exact (values.symm.trans (Alike.trans ⟨same, values.left, alike.left⟩ alike)).equals
    · intro same
      exact (values.trans (Alike.trans ⟨same, values.right, alike.right⟩ alike.symm)).equals

theorem enumHolds_alike (tells : Tells host schema value)
    (tellsToo : Tells host schemaToo valueToo) :
    enumHolds host schema value = enumHolds host schemaToo valueToo := by
  have decides := ((decides_iff_tells schemas.left values.left).mpr tells).enum
  have decidesToo := ((decides_iff_tells schemas.right values.right).mpr tellsToo).enum
  have rel := arrayUnder_alike schemas (js "enum")
  rcases Verdict.rel_cases rel with ⟨found, foundToo⟩ | ⟨items, others, found, foundToo, each⟩
  · rw [enumHolds, enumHolds, found, foundToo]
  · rw [Bool.eq_iff_iff, decides items found, decidesToo others foundToo]
    constructor
    · rintro ⟨item, itemIn, same⟩
      obtain ⟨index, inside, rfl⟩ := List.getElem_of_mem itemIn
      have insideToo : index < others.length := each.length_eq ▸ inside
      have alike := each.get inside insideToo
      exact ⟨_, List.getElem_mem insideToo,
        (values.symm.trans (Alike.trans ⟨same, values.left, alike.left⟩ alike)).equals⟩
    · rintro ⟨item, itemIn, same⟩
      obtain ⟨index, inside, rfl⟩ := List.getElem_of_mem itemIn
      have insideToo : index < items.length := each.length_eq ▸ inside
      have alike := each.get insideToo inside
      exact ⟨_, List.getElem_mem insideToo,
        (values.trans (Alike.trans ⟨same, values.right, alike.right⟩ alike.symm)).equals⟩

theorem itemsUnique_alike (arrays : value = .array items) (arraysToo : valueToo = .array others)
    (type : named schema (js "type") = some (js "array")) (tells : Tells host schema value)
    (tellsToo : Tells host schemaToo valueToo)
    (flag : flagged schema (js "uniqueItems") true = true) :
    itemsUnique host items = itemsUnique host others := by
  have scalars := scalar_alike schemas (js "uniqueItems")
  have typeToo := (scalar_alike schemas (js "type")).2.1
  have flagToo := flag
  rw [scalars.2.2 true] at flagToo
  rw [typeToo] at type
  have decides := ((decides_iff_tells schemas.left values.left).mpr tells).unique items arrays
    (typeToo.trans type) flag
  have decidesToo := ((decides_iff_tells schemas.right values.right).mpr tellsToo).unique others
    arraysToo type flagToo
  rw [arrays, arraysToo] at values
  have each := values.items
  have back : List.Forall₂ (Alike host.numbers) others items :=
    (List.Forall₂.flip each).imp fun _ _ alike => alike.symm
  rw [Bool.eq_iff_iff, decides, decidesToo]
  exact ⟨pairwise_alike each, pairwise_alike back⟩

include checks

omit schemas in
theorem agree_inPlace (partIn : part ∈ inPlace schema) (partInToo : partToo ∈ inPlace schemaToo)
    (alike : Alike host.numbers part partToo) :
    Verdict.Agree (check part value) (checkToo partToo valueToo) :=
  checks part value partToo valueToo (.inPlace partIn) (.inPlace partInToo) alike values

theorem agree_listed (listedIn : ∀ schema part, part ∈ listed schema key → part ∈ inPlace schema) :
    List.Forall₂ (fun part partToo => Verdict.Agree (check part value) (checkToo partToo valueToo))
      (listed schema key) (listed schemaToo key) := by
  have each := forall₂_mem (listed_alike schemas key)
  apply each.imp
  intro part partToo found
  exact agree_inPlace values checks (listedIn _ _ found.1) (listedIn _ _ found.2.1)
    found.2.2

omit schemas in
theorem agree_present (keyIn : key ∈ [js "if", js "then", js "else", js "not"])
    (found : present schema key = some part) (foundToo : present schemaToo key = some partToo)
    (alike : Alike host.numbers part partToo) :
    Verdict.Agree (check part value) (checkToo partToo valueToo) := by
  have inside : ∀ schema part, present schema key = some part → part ∈ inPlace schema := by
    intro schema part found
    apply List.mem_append_right
    exact List.mem_filterMap.mpr ⟨key, keyIn, found⟩
  exact agree_inPlace values checks (inside _ _ found) (inside _ _ foundToo) alike

theorem agree_arrayConstraint (type : named schema (js "type") = some (js "array"))
    (tells : Tells host schema value) (tellsToo : Tells host schemaToo valueToo) :
    Verdict.Agree (arrayConstraint host check value schema)
      (arrayConstraint host checkToo valueToo schemaToo) := by
  cases value with
  | array items =>
    cases valueToo with
    | array others =>
      have each := values.items
      have prefixes := listed_alike schemas (js "prefixItems")
      have scalars := scalar_alike schemas
      have repeats : (flagged schema (js "uniqueItems") true && !itemsUnique host items) =
          (flagged schemaToo (js "uniqueItems") true && !itemsUnique host others) := by
        rw [← (scalars _).2.2 true]
        cases flag : flagged schema (js "uniqueItems") true with
        | false => rfl
        | true => rw [itemsUnique_alike schemas values rfl rfl type tells tellsToo flag]
      simp only [arrayConstraint, repeats]
      simp only [(scalars _).1, (scalars _).2.2, each.length_eq, prefixes.length_eq]
      split_ifs
      · exact Verdict.agree_ok false
      · exact Verdict.agree_ok false
      · exact Verdict.agree_ok false
      apply Verdict.agree_every_of_forall₂
      refine .cons ?_ (.cons (Verdict.agree_ok _) (.cons ?_ .nil))
      · apply Verdict.agree_every_of_forall₂
        have zipped := forall₂_mem (forall₂_zip prefixes each)
        apply zipped.imp
        intro pair pairToo found
        exact checks _ _ _ _ (.first found.1) (.first found.2.1) found.2.2.1 found.2.2.2
      · apply Verdict.agree_optionally (applicable_alike schemas (js "items"))
        intro part partToo found foundToo alike
        apply Verdict.agree_every_of_forall₂
        have dropped := List.forall₂_drop (listed schema (js "prefixItems")).length each
        rw [prefixes.length_eq] at dropped
        apply (forall₂_mem dropped).imp
        intro item itemToo place
        have itemIn := place.1
        rw [← prefixes.length_eq] at itemIn
        exact checks _ _ _ _ (.rest found itemIn) (.rest foundToo place.2.1) alike place.2.2
    | _ => cases values.equals
  | null => cases values.equals with | null => exact Verdict.agree_ok false
  | boolean truth => cases values.equals with | boolean => exact Verdict.agree_ok false
  | number number => cases values.equals with | number => exact Verdict.agree_ok false
  | string text => cases values.equals with | string => exact Verdict.agree_ok false
  | object members => cases values.equals with | object => exact Verdict.agree_ok false

section

variable (objects : value = .object input)

include objects

section

variable (objectsToo : valueToo = .object inputToo)

include objectsToo

omit schemas in
theorem agree_propertyNames
    {names namesToo : JsonValue}
    (found : present schema (js "propertyNames") = some names)
    (foundToo : present schemaToo (js "propertyNames") = some namesToo)
    (alike : Alike host.numbers names namesToo) :
    Verdict.Agree (Verdict.every (fun key => check names (.string key)) (input.map Prod.fst))
      (Verdict.every (fun key => checkToo namesToo (.string key)) (inputToo.map Prod.fst)) := by
  subst objects objectsToo
  have same : ∀ entry ∈ input, ∀ other ∈ inputToo, entry.1 = other.1 →
      Verdict.Agree (check names (.string entry.1)) (checkToo namesToo (.string other.1)) := by
    intro entry entryIn other otherIn key
    apply checks _ _ _ _ (.name found entryIn) (.name foundToo otherIn) alike
    rw [key]
    exact .refl (.string _)
  apply Verdict.agree_every
  · intro key keyIn
    obtain ⟨entry, entryIn, rfl⟩ := List.mem_map.mp keyIn
    obtain ⟨other, otherIn, -⟩ := values.members entry entryIn
    exact ⟨entry.1, List.mem_map.mpr ⟨(entry.1, other), otherIn, rfl⟩,
      same entry entryIn (entry.1, other) otherIn rfl⟩
  · intro key keyIn
    obtain ⟨entry, entryIn, rfl⟩ := List.mem_map.mp keyIn
    obtain ⟨other, otherIn, -⟩ := values.symm.members entry entryIn
    exact ⟨entry.1, List.mem_map.mpr ⟨(entry.1, other), otherIn, rfl⟩,
      same (entry.1, other) otherIn entry entryIn rfl⟩

theorem agree_known :
    Verdict.Agree
      (Verdict.every (knownHolds check input) (entries host (properties schema)))
      (Verdict.every (knownHolds checkToo inputToo) (entries host (properties schemaToo))) := by
  subst objects objectsToo
  have known := properties_alike schemas
  have same : ∀ entry ∈ entries host (properties schema),
      ∀ other ∈ entries host (properties schemaToo), entry.1 = other.1 →
        Alike host.numbers entry.2 other.2 →
          Verdict.Agree (knownHolds check input entry) (knownHolds checkToo inputToo other) := by
    intro entry entryIn other otherIn key alike
    have rel := member_alike values entry.1
    unfold knownHolds
    rw [← key]
    apply Verdict.agree_optionally rel
    intro reached reachedToo found foundToo same
    rw [key] at foundToo
    exact checks _ _ _ _ (.known entryIn found) (.known otherIn foundToo) alike same
  apply Verdict.agree_every
  · intro entry entryIn
    obtain ⟨other, otherIn, alike⟩ := entries_alike known entry entryIn
    exact ⟨(entry.1, other), otherIn, same entry entryIn (entry.1, other) otherIn rfl alike⟩
  · intro other otherIn
    obtain ⟨entry, entryIn, alike⟩ := entries_alike known.symm other otherIn
    exact ⟨(other.1, entry), entryIn, same (other.1, entry) entryIn other otherIn rfl alike.symm⟩

theorem agree_additional
    (found : applicable schema (js "additionalProperties") = some part)
    (foundToo : applicable schemaToo (js "additionalProperties") = some partToo)
    (alike : Alike host.numbers part partToo) :
    Verdict.Agree
      (Verdict.every (additionalHolds host check (properties schema) part) input)
      (Verdict.every (additionalHolds host checkToo (properties schemaToo) partToo) inputToo) := by
  subst objects objectsToo
  have known := properties_alike schemas
  have same : ∀ entry ∈ input, ∀ other ∈ inputToo, entry.1 = other.1 →
      Alike host.numbers entry.2 other.2 →
        Verdict.Agree (additionalHolds host check (properties schema) part entry)
          (additionalHolds host checkToo (properties schemaToo) partToo other) := by
    intro entry entryIn other otherIn key both
    have own := hasOwn_alike known entry.1
    unfold additionalHolds
    rw [← key, ← own]
    cases unknown : hasOwn host (properties schema) entry.1 with
    | true => exact Verdict.agree_ok true
    | false =>
      rw [own, key] at unknown
      apply checks _ _ _ _ (.additional found entryIn ?_) (.additional foundToo otherIn unknown)
        alike both
      rw [own, key]
      exact unknown
  apply Verdict.agree_every
  · intro entry entryIn
    obtain ⟨other, otherIn, both⟩ := values.members entry entryIn
    exact ⟨(entry.1, other), otherIn, same entry entryIn (entry.1, other) otherIn rfl both⟩
  · intro other otherIn
    obtain ⟨entry, entryIn, both⟩ := values.symm.members other otherIn
    exact ⟨(other.1, entry), entryIn, same (other.1, entry) entryIn other otherIn rfl both.symm⟩

end

end

theorem agree_objectConstraint :
    Verdict.Agree (objectConstraint host check value schema)
      (objectConstraint host checkToo valueToo schemaToo) := by
  cases value with
  | object input =>
    cases valueToo with
    | object inputToo =>
      have known := properties_alike schemas
      have scalars := scalar_alike schemas
      have keys : ∀ key, key ∈ input.map Prod.fst ↔ key ∈ inputToo.map Prod.fst := by
        have both := ownKeys_alike values
        simp only [ownKeys, Except.ok.injEq] at both
        obtain ⟨impossible, -⟩ | ⟨first, second, rfl, rfl, same⟩ := both
        · cases impossible
        · exact same
      have unknown : (input.map Prod.fst).any (fun key => !hasOwn host (properties schema) key) =
          (inputToo.map Prod.fst).any fun key => !hasOwn host (properties schemaToo) key := by
        rw [Bool.eq_iff_iff, List.any_eq_true, List.any_eq_true]
        simp only [keys, hasOwn_alike known]
      have sizes : (input.map Prod.fst).length = (inputToo.map Prod.fst).length := by
        rw [List.length_map, List.length_map, values.length]
      simp only [objectConstraint, unknown, sizes, (scalars _).1, (scalars _).2.2]
      apply Verdict.agree_every_of_forall₂
      refine .cons (Verdict.agree_ok _) (.cons ?_ (.cons (Verdict.agree_ok _)
        (.cons ?_ (.cons ?_ (.cons ?_ .nil)))))
      · apply Verdict.agree_every_of_forall₂
        apply (listed_alike schemas (js "required")).imp
        intro required requiredToo alike
        rw [requiredHolds, requiredHolds, propertyKey_alike alike]
        cases propertyKey host requiredToo with
        | error failure => exact Verdict.agree_error failure _
        | ok key =>
          have own := hasOwn_alike values key
          simp only [hasOwn] at own
          simp only [own]
          exact Verdict.agree_ok _
      · apply Verdict.agree_optionally (present_alike schemas (js "propertyNames"))
        intro names namesToo found foundToo alike
        exact agree_propertyNames values checks rfl rfl found foundToo alike
      · exact agree_known schemas values checks rfl rfl
      · apply Verdict.agree_optionally (applicable_alike schemas (js "additionalProperties"))
        intro part partToo found foundToo alike
        exact agree_additional schemas values checks rfl rfl found foundToo alike
    | _ => cases values.equals
  | null => cases values.equals with | null => exact Verdict.agree_ok false
  | boolean truth => cases values.equals with | boolean => exact Verdict.agree_ok false
  | number number => cases values.equals with | number => exact Verdict.agree_ok false
  | string text => cases values.equals with | string => exact Verdict.agree_ok false
  | array items => cases values.equals with | array => exact Verdict.agree_ok false

theorem agree_conditional {condition conditionToo : JsonValue}
    (found : present schema (js "if") = some condition)
    (foundToo : present schemaToo (js "if") = some conditionToo)
    (alike : Alike host.numbers condition conditionToo) :
    Verdict.Agree (conditional check schema value condition)
      (conditional checkToo schemaToo valueToo conditionToo) := by
  have conditions := agree_present values checks (by simp) found foundToo alike
  unfold conditional
  cases first : check condition value with
  | error failure => exact Verdict.agree_error failure _
  | ok answer =>
    cases second : checkToo conditionToo valueToo with
    | error failure =>
      intro one other left right
      cases right
    | ok answerToo =>
      have same := conditions answer answerToo first second
      subst same
      have keyIn : (if answer then js "then" else js "else") ∈
          [js "if", js "then", js "else", js "not"] := by
        cases answer <;> simp
      apply Verdict.agree_optionally (present_alike schemas _)
      intro branch branchToo chosen chosenToo both
      exact agree_present values checks keyIn chosen chosenToo both

theorem agree_exactlyOne (found : arrayUnder schema (js "oneOf") = some items)
    (foundToo : arrayUnder schemaToo (js "oneOf") = some others) :
    Verdict.Agree (exactlyOne check items value) (exactlyOne checkToo others valueToo) := by
  have each := agree_listed schemas values checks (oneOf_inPlace)
  rw [listed, listed, found, foundToo] at each
  have counts := Verdict.agree_count each
  intro one other left right
  unfold exactlyOne at left right
  simp only [Option.getD_some] at counts
  cases first : Verdict.count (fun item => check item value) items with
  | error failure => simp [first] at left
  | ok number =>
    cases second : Verdict.count (fun item => checkToo item valueToo) others with
    | error failure => simp [second] at right
    | ok numberToo =>
      have same := counts number numberToo first second
      simp only [first, Except.ok.injEq] at left
      simp only [second, Except.ok.injEq] at right
      rw [← left, ← right, same]

theorem agree_clauses (tells : Tells host schema value)
    (tellsToo : Tells host schemaToo valueToo) :
    Verdict.Agree (Verdict.inOrder (clauses host check schema value))
      (Verdict.inOrder (clauses host checkToo schemaToo valueToo)) := by
  have scalars := scalar_alike schemas
  have type := (scalars (js "type")).2.1
  have kinds := kinds_alike values
  have listedAll := agree_listed schemas values checks allOf_inPlace
  have listedAny := agree_listed schemas values checks anyOf_inPlace
  apply Verdict.agree_every_of_forall₂
  unfold clauses
  rw [constHolds_alike schemas values tells tellsToo, enumHolds_alike schemas values tells tellsToo,
    typeHolds_alike schemas, typeHolds_alike schemas, kinds.1, kinds.2.1]
  refine .cons (Verdict.agree_ok _) (.cons (Verdict.agree_ok _)
    (.cons (Verdict.agree_every_of_forall₂ listedAll) (.cons ?_ (.cons ?_ (.cons ?_ (.cons ?_
      (.cons (Verdict.agree_ok _) (.cons (Verdict.agree_ok _) (.cons ?_ .nil)))))))))
  · apply Verdict.agree_optionally (arrayUnder_alike schemas (js "anyOf"))
    intro items others found foundToo _
    rw [listed, listed, found, foundToo] at listedAny
    exact Verdict.agree_anyOf listedAny
  · apply Verdict.agree_optionally (present_alike schemas (js "if"))
    intro condition conditionToo found foundToo alike
    exact agree_conditional schemas values checks found foundToo alike
  · apply Verdict.agree_optionally (present_alike schemas (js "not"))
    intro refused refusedToo found foundToo alike
    exact Verdict.agree_negate (agree_present values checks (by simp) found foundToo alike)
  · apply Verdict.agree_optionally (arrayUnder_alike schemas (js "oneOf"))
    intro items others found foundToo _
    exact agree_exactlyOne schemas values checks found foundToo
  · rw [type, numberConstraint_alike schemas values]
    split_ifs
    · exact Verdict.agree_ok _
    apply Verdict.agree_every_of_forall₂
    unfold typeClauses
    rw [type, typeHolds_alike schemas, kinds.2.2, hasObjectKeyword_alike schemas,
      stringConstraint_alike schemas values]
    refine .cons (Verdict.agree_self _) (.cons ?_ (.cons (Verdict.agree_ok _) (.cons ?_ .nil)))
    · by_cases arrays : named schemaToo (js "type") = some (js "array")
      · simp only [if_pos arrays]
        exact agree_arrayConstraint schemas values checks (type.trans arrays) tells tellsToo
      · simp only [if_neg arrays]
        exact Verdict.agree_ok true
    · cases isObject valueToo && hasObjectKeyword schemaToo with
      | false => exact Verdict.agree_ok true
      | true => exact agree_objectConstraint schemas values checks

end Clauses

end Agreement

end Holonomy.Kernel.Schema
