import Holonomy.Kernel.Ascii
import Holonomy.Kernel.SchemaVerdicts

/-!
# Verdicts of whole validations

A well-formed schema, with references that do not form a cycle, gives every value a verdict on a
large enough stack. The verdict is the same for all orders of members, and the comparing keywords
decide equality of JSON values, exactly when in no order two equal values are compared that have
different texts.
-/

namespace Holonomy.Kernel.Schema

open Foundation JsonValue

variable (host : SchemaHost)

def referenced (root schema : JsonValue) : List JsonValue :=
  match named schema (js "$ref") with
  | none => []
  | some reference =>
    match definition host root reference with
    | some (.schema found) => [found]
    | _ => []

def parts (schema : JsonValue) : List JsonValue :=
  inPlace schema ++ listed schema (js "prefixItems") ++
    [js "items", js "additionalProperties"].filterMap (applicable schema) ++
    [js "propertyNames"].filterMap (present schema) ++
    (entries host (properties schema)).map Prod.snd

inductive Within : JsonValue → JsonValue → Prop where
  | here (schema : JsonValue) : Within schema schema
  | inside {schema part deeper : JsonValue} (partIn : part ∈ parts host schema)
    (within : Within part deeper) : Within schema deeper

structure Sane (schema : JsonValue) : Prop where
  keys : ∃ keys, ownKeys host schema = .ok keys
  pattern : ∀ text, named schema (js "pattern") = some text → ∃ test, host.pattern text = some test
  required : ∀ item ∈ listed schema (js "required"), ∃ key, propertyKey host item = .ok key

structure WellFormedSchema (root : JsonValue) : Prop where
  sane : ∀ part, Within host root part → Sane host part
  definitions : ∀ reference found part, definition host root reference = some (.schema found) →
    Within host found part → Sane host part
  acyclic : ∃ rank : Text → ℕ, ∀ reference found part other,
    definition host root reference = some (.schema found) → Within host found part →
      named part (js "$ref") = some other → rank other < rank reference

inductive Grounded (root : JsonValue) : JsonValue → Prop where
  | intro (schema : JsonValue) (sane : Sane host schema)
    (each : ∀ part ∈ referenced host root schema ++ parts host schema, Grounded root part) :
    Grounded root schema

variable {host}

variable {schema value part target root rootToo schemaToo valueToo : JsonValue}
  {check : JsonValue → JsonValue → Verdict SchemaFailure}

theorem applies_parts (applied : Applies host schema value part target) :
    part ∈ parts host schema := by
  unfold parts
  cases applied with
  | inPlace partIn => simp [partIn]
  | first pairIn => simp [(List.of_mem_zip pairIn).1]
  | rest found itemIn => simp [found]
  | name found entryIn => simp [found]
  | known entryIn found =>
    have partIn := List.mem_map_of_mem (f := Prod.snd) entryIn
    simp only [List.mem_append, partIn, or_true]
  | additional found entryIn unknown => simp [found]

theorem calls_parts (calls : Calls host root schema value part target) :
    part ∈ referenced host root schema ++ parts host schema := by
  cases calls with
  | reference refers means =>
    apply List.mem_append_left
    rw [referenced, refers]
    simp only [means, List.mem_singleton]
  | applies plain applied => exact List.mem_append_right _ (applies_parts applied)

section Sizes

variable {entry : Text × JsonValue} {schema value part : JsonValue} {key : Text}

theorem sizeOf_member {members : List (Text × JsonValue)} (entryIn : entry ∈ members) :
    sizeOf entry.2 < sizeOf (JsonValue.object members) := by
  have inside := List.sizeOf_lt_of_mem entryIn
  have whole : sizeOf entry = 1 + sizeOf entry.1 + sizeOf entry.2 := by
    cases entry
    rfl
  have object : sizeOf (JsonValue.object members) = 1 + sizeOf members :=
    JsonValue.object.sizeOf_spec members
  omega

theorem sizeOf_keyword (found : keyword schema key = some value) :
    sizeOf value < sizeOf schema := by
  cases schema with
  | object members =>
    have entry := Option.map_eq_some_iff.mp found
    obtain ⟨entry, read, same⟩ := entry
    rw [← same]
    exact sizeOf_member (List.mem_of_find?_eq_some read)
  | _ => cases found

theorem keyword_of_present (found : present schema key = some value) :
    keyword schema key = some value := by
  unfold present at found
  split at found
  · cases found
  · exact found

theorem keyword_of_applicable (found : applicable schema key = some value) :
    keyword schema key = some value := by
  unfold applicable at found
  split at found
  · cases found
  · exact keyword_of_present found

theorem sizeOf_listed (partIn : part ∈ listed schema key) : sizeOf part < sizeOf schema := by
  unfold listed arrayUnder at partIn
  split at partIn
  · rename_i items found
    have whole := sizeOf_keyword found
    have partIn : part ∈ items := partIn
    have inside := List.sizeOf_lt_of_mem partIn
    have array := JsonValue.array.sizeOf_spec items
    omega
  · exact absurd partIn List.not_mem_nil

theorem sizeOf_singleton {text : Text} {unit : UInt16} (unitIn : unit ∈ text) :
    sizeOf [unit] ≤ sizeOf text := by
  induction text with
  | nil => exact absurd unitIn List.not_mem_nil
  | cons first rest ih =>
    have positive : 1 ≤ sizeOf rest := by
      cases rest with
      | nil => simp
      | cons second more =>
        rw [List.cons.sizeOf_spec]
        omega
    rcases List.mem_cons.mp unitIn with same | later
    · rw [same, List.cons.sizeOf_spec, List.cons.sizeOf_spec, List.nil.sizeOf_spec]
      omega
    · have smaller := ih later
      rw [List.cons.sizeOf_spec first rest]
      omega

theorem sizeOf_entries (entryIn : entry ∈ entries host value) : sizeOf entry.2 ≤ sizeOf value := by
  cases value with
  | string text =>
    obtain ⟨index, inside, rfl⟩ := List.mem_mapIdx.mp entryIn
    have single := sizeOf_singleton (List.getElem_mem inside)
    simp only [JsonValue.string.sizeOf_spec]
    omega
  | array items =>
    obtain ⟨index, inside, rfl⟩ := List.mem_mapIdx.mp entryIn
    have small := List.sizeOf_lt_of_mem (List.getElem_mem inside)
    have array := JsonValue.array.sizeOf_spec items
    simp only
    omega
  | object members => exact (sizeOf_member entryIn).le
  | _ => exact absurd entryIn List.not_mem_nil

theorem sizeOf_parts (partIn : part ∈ parts host schema) : sizeOf part < sizeOf schema := by
  unfold parts inPlace at partIn
  simp only [List.mem_append, List.mem_filterMap, List.mem_map] at partIn
  rcases partIn with ((((((all | any) | one) | conditions) | first) | applied) | names) | known
  · exact sizeOf_listed all
  · exact sizeOf_listed any
  · exact sizeOf_listed one
  · obtain ⟨key, -, found⟩ := conditions
    exact sizeOf_keyword (keyword_of_present found)
  · exact sizeOf_listed first
  · obtain ⟨key, -, found⟩ := applied
    exact sizeOf_keyword (keyword_of_applicable found)
  · obtain ⟨key, -, found⟩ := names
    exact sizeOf_keyword (keyword_of_present found)
  · obtain ⟨entry, entryIn, rfl⟩ := known
    have small := sizeOf_entries entryIn
    unfold properties at small entryIn
    cases found : present schema (js "properties") with
    | none =>
      rw [found] at entryIn
      exact absurd entryIn List.not_mem_nil
    | some value =>
      rw [found] at small
      exact small.trans_lt (sizeOf_keyword (keyword_of_present found))

end Sizes

theorem grounded_of_parts
    (sane : ∀ part, Within host schema part → Sane host part)
    (refers : ∀ part, Within host schema part → ∀ found ∈ referenced host root part,
      Grounded host root found) : Grounded host root schema := by
  have bounded : ∀ (size : ℕ) (schema : JsonValue), sizeOf schema ≤ size →
      (∀ part, Within host schema part → Sane host part) →
      (∀ part, Within host schema part → ∀ found ∈ referenced host root part,
        Grounded host root found) → Grounded host root schema := by
    intro size
    induction size with
    | zero =>
      intro schema small
      cases schema <;> simp at small
    | succ size ih =>
      intro schema small sane refers
      refine .intro schema (sane schema (.here schema)) fun part partIn => ?_
      rcases List.mem_append.mp partIn with referred | inside
      · exact refers schema (.here schema) part referred
      · have smaller := sizeOf_parts inside
        exact ih part (by omega) (fun deeper within => sane deeper (.inside inside within))
          fun deeper within => refers deeper (.inside inside within)
  exact bounded (sizeOf schema) schema le_rfl sane refers

theorem referenced_iff {found : JsonValue} :
    found ∈ referenced host root schema ↔ ∃ reference, named schema (js "$ref") = some reference ∧
      definition host root reference = some (.schema found) := by
  unfold referenced
  cases named schema (js "$ref") with
  | none => simp
  | some reference =>
    cases means : definition host root reference with
    | none => simp [means]
    | some meaning =>
      cases meaning with
      | builtin => simp [means]
      | schema value =>
        simp only [means, List.mem_singleton, Option.some.injEq, exists_eq_left',
          Definition.schema.injEq]
        exact eq_comm

theorem WellFormedSchema.grounded (formed : WellFormedSchema host root) :
    Grounded host root root := by
  obtain ⟨rank, descends⟩ := formed.acyclic
  -- the definitions first, by their ranks
  have definitions : ∀ (bound : ℕ) (reference : Text) (found : JsonValue), rank reference < bound →
      definition host root reference = some (.schema found) → Grounded host root found := by
    intro bound
    induction bound with
    | zero => intro reference found low; omega
    | succ bound ih =>
      intro reference found low means
      apply grounded_of_parts fun part within => formed.definitions reference found part
        means within
      intro part within other otherIn
      obtain ⟨name, refers, meansToo⟩ := referenced_iff.mp otherIn
      have lower := descends reference found part name means within refers
      exact ih name other (by omega) meansToo
  apply grounded_of_parts formed.sane
  intro part within found foundIn
  obtain ⟨reference, refers, means⟩ := referenced_iff.mp foundIn
  exact definitions (rank reference + 1) reference found (Nat.lt_succ_self _) means

section Returning

variable {check : JsonValue → JsonValue → Verdict SchemaFailure} {root schema value : JsonValue}
variable (sane : Sane host schema)
variable (checks : ∀ part target, Applies host schema value part target →
  Verdict.Returns (check part target))

include sane

theorem returns_stringConstraint : Verdict.Returns (stringConstraint host value schema) := by
  cases value with
  | string text =>
    unfold stringConstraint
    simp only
    split_ifs
    · exact Verdict.returns_ok false
    · exact Verdict.returns_ok false
    cases found : named schema (js "pattern") with
    | none => exact Verdict.returns_ok true
    | some pattern =>
      obtain ⟨test, compiled⟩ := sane.pattern pattern found
      simp only [compiled]
      exact Verdict.returns_ok _
  | _ => exact Verdict.returns_ok false

include checks

omit sane in
theorem returns_arrayConstraint : Verdict.Returns (arrayConstraint host check value schema) := by
  cases value with
  | array items =>
    unfold arrayConstraint
    simp only
    split_ifs
    · exact Verdict.returns_ok false
    · exact Verdict.returns_ok false
    · exact Verdict.returns_ok false
    apply Verdict.returns_every
    rw [List.forall_mem_cons, List.forall_mem_cons, List.forall_mem_singleton]
    refine ⟨?_, Verdict.returns_ok _, ?_⟩
    · exact Verdict.returns_every fun pair pairIn => checks _ _ (.first pairIn)
    · apply Verdict.returns_optionally
      intro part found
      exact Verdict.returns_every fun item itemIn => checks _ _ (.rest found itemIn)
  | _ => exact Verdict.returns_ok false

theorem returns_objectConstraint : Verdict.Returns (objectConstraint host check value schema) := by
  cases value with
  | object input =>
    apply Verdict.returns_every
    simp only [List.forall_mem_cons, List.not_mem_nil, false_imp_iff, implies_true, and_true]
    refine ⟨Verdict.returns_ok _, ?_, Verdict.returns_ok _, ?_, ?_, ?_⟩
    · apply Verdict.returns_every
      intro required requiredIn
      obtain ⟨key, read⟩ := sane.required required requiredIn
      simp only [requiredHolds, read]
      exact Verdict.returns_ok _
    · apply Verdict.returns_optionally
      intro names found
      apply Verdict.returns_every
      intro key keyIn
      obtain ⟨entry, entryIn, rfl⟩ := List.mem_map.mp keyIn
      exact checks _ _ (.name found entryIn)
    · apply Verdict.returns_every
      intro entry entryIn
      apply Verdict.returns_optionally
      intro reached found
      exact checks _ _ (.known entryIn found)
    · apply Verdict.returns_optionally
      intro additional found
      apply Verdict.returns_every
      intro entry entryIn
      unfold additionalHolds
      cases known : hasOwn host (properties schema) entry.1 with
      | true => exact Verdict.returns_ok true
      | false => exact checks _ _ (.additional found entryIn known)
  | _ => exact Verdict.returns_ok false

omit sane in
theorem returns_present {key : Text} (keyIn : key ∈ [js "if", js "then", js "else", js "not"])
    {part : JsonValue} (found : present schema key = some part) :
    Verdict.Returns (check part value) := by
  apply checks part value
  apply Applies.inPlace
  apply List.mem_append_right
  exact List.mem_filterMap.mpr ⟨key, keyIn, found⟩

theorem returns_clauses : Verdict.Returns (Verdict.inOrder (clauses host check schema value)) := by
  have listedIn : ∀ key items, arrayUnder schema key = some items → items = listed schema key := by
    intro key items found
    rw [listed, found]
    rfl
  apply Verdict.returns_every
  unfold clauses
  simp only [List.forall_mem_cons, List.not_mem_nil, false_imp_iff, implies_true, and_true]
  refine ⟨Verdict.returns_ok _, Verdict.returns_ok _, ?_, ?_, ?_, ?_, ?_, Verdict.returns_ok _,
    Verdict.returns_ok _, ?_⟩
  · apply Verdict.returns_every
    exact fun part partIn => checks _ _ (.inPlace (allOf_inPlace schema part partIn))
  · apply Verdict.returns_optionally
    intro items found
    rw [listedIn _ items found]
    apply Verdict.returns_anyOf
    exact fun part partIn => checks _ _ (.inPlace (anyOf_inPlace schema part partIn))
  · apply Verdict.returns_optionally
    intro condition found
    obtain ⟨answer, first⟩ := returns_present checks (by simp) found
    simp only [conditional, first]
    apply Verdict.returns_optionally
    intro branch chosen
    have keyIn : (if answer then js "then" else js "else") ∈
        [js "if", js "then", js "else", js "not"] := by
      cases answer <;> simp
    exact returns_present checks keyIn chosen
  · apply Verdict.returns_optionally
    intro refused found
    exact Verdict.returns_negate (returns_present checks (by simp) found)
  · apply Verdict.returns_optionally
    intro items found
    rw [listedIn _ items found]
    have counted : Verdict.Returns
        (Verdict.count (fun item => check item value) (listed schema (js "oneOf"))) := by
      apply Verdict.returns_count
      exact fun part partIn => checks _ _ (.inPlace (oneOf_inPlace schema part partIn))
    obtain ⟨number, count⟩ := counted
    simp only [exactlyOne, count]
    exact Verdict.returns_ok _
  · split_ifs
    · exact Verdict.returns_ok _
    apply Verdict.returns_every
    unfold typeClauses
    simp only [List.forall_mem_cons, List.not_mem_nil, false_imp_iff, implies_true, and_true]
    refine ⟨?_, ?_, Verdict.returns_ok _, ?_⟩
    · split_ifs
      · exact returns_stringConstraint sane
      · exact Verdict.returns_ok true
    · split_ifs
      · exact returns_arrayConstraint checks
      · exact Verdict.returns_ok true
    · split_ifs
      · exact returns_objectConstraint sane checks
      · exact Verdict.returns_ok true

end Returning

theorem returns_validateOnce (sane : Sane host schema)
    (checks : ∀ part target, Calls host root schema value part target →
      Verdict.Returns (check part target)) :
    Verdict.Returns (validateOnce host check root schema value) := by
  obtain ⟨keys, read⟩ := sane.keys
  simp only [validateOnce, read]
  split_ifs
  · exact Verdict.returns_ok false
  cases refers : named schema (js "$ref") with
  | none => exact returns_clauses sane fun part target applied =>
      checks _ _ (.applies refers applied)
  | some reference =>
    simp only
    cases means : definition host root reference with
    | none => exact Verdict.returns_ok false
    | some meaning =>
      cases meaning with
      | builtin => exact Verdict.returns_ok true
      | schema found => exact checks _ _ (.reference refers means)

theorem exists_common_bound {α : Type} {holds : α → ℕ → Prop} {items : List α}
    (each : ∀ item ∈ items, ∃ least, ∀ bound ≥ least, holds item bound) :
    ∃ least, ∀ bound ≥ least, ∀ item ∈ items, holds item bound := by
  induction items with
  | nil => exact ⟨0, fun bound _ item itemIn => absurd itemIn List.not_mem_nil⟩
  | cons item items ih =>
    rw [List.forall_mem_cons] at each
    obtain ⟨first, firstHolds⟩ := each.1
    obtain ⟨later, laterHolds⟩ := ih each.2
    refine ⟨max first later, fun bound large => ?_⟩
    rw [List.forall_mem_cons]
    exact ⟨firstHolds bound (by omega), laterHolds bound (by omega)⟩

theorem returns_of_grounded (grounded : Grounded host root schema) :
    ∃ frames, ∀ stack ≥ frames, ∀ value,
    Verdict.Returns (validate host root stack schema value) := by
  induction grounded with
  | intro schema sane each ih =>
    obtain ⟨frames, returns⟩ := exists_common_bound ih
    refine ⟨frames + 1, fun stack enough value => ?_⟩
    obtain ⟨less, rfl⟩ : ∃ less, stack = less + 1 := ⟨stack - 1, by omega⟩
    rw [validate]
    apply returns_validateOnce sane
    intro part target calls
    exact returns less (by omega) part (calls_parts calls) target

theorem agree_validateOnce {checkToo : JsonValue → JsonValue → Verdict SchemaFailure}
    (roots : Alike host.numbers root rootToo) (schemas : Alike host.numbers schema schemaToo)
    (values : Alike host.numbers value valueToo)
    (tells : Tells host schema value) (tellsToo : Tells host schemaToo valueToo)
    (checks : ∀ part target partToo targetToo, Calls host root schema value part target →
      Calls host rootToo schemaToo valueToo partToo targetToo → Alike host.numbers part partToo →
        Alike host.numbers target targetToo →
          Verdict.Agree (check part target) (checkToo partToo targetToo)) :
    Verdict.Agree (validateOnce host check root schema value)
      (validateOnce host checkToo rootToo schemaToo valueToo) := by
  have names := (scalar_alike schemas (js "$ref")).2.1
  unfold validateOnce
  obtain ⟨failed, failedToo⟩ | ⟨keys, others, read, readToo, same⟩ := ownKeys_alike schemas
  · rw [failed, failedToo]
    exact Verdict.agree_error _ _
  have unknown : keys.any (· ∉ supported) = others.any (· ∉ supported) := by
    rw [Bool.eq_iff_iff, List.any_eq_true, List.any_eq_true]
    simp only [same]
  simp only [read, readToo, unknown]
  split_ifs
  · exact Verdict.agree_ok false
  cases refers : named schema (js "$ref") with
  | none =>
    rw [names] at refers
    simp only [refers]
    apply agree_clauses schemas values ?_ tells tellsToo
    intro part target partToo targetToo applied appliedToo
    exact checks _ _ _ _ (.applies (names.trans refers) applied) (.applies refers appliedToo)
  | some reference =>
    have refersToo := names.symm.trans refers
    have rel := definition_alike roots reference
    simp only [refersToo]
    rcases Verdict.rel_cases rel with ⟨means, meansToo⟩ | ⟨meaning, other, means, meansToo, same⟩
    · simp only [means, meansToo]
      exact Verdict.agree_ok false
    · simp only [means, meansToo]
      cases same with
      | builtin => exact Verdict.agree_ok true
      | schema alike =>
        exact checks _ _ _ _ (.reference refers means) (.reference refersToo meansToo) alike values

theorem agree_validate (roots : Alike host.numbers root rootToo) (stack stackToo : ℕ)
    (schemas : Alike host.numbers schema schemaToo) (values : Alike host.numbers value valueToo)
    (telling : Telling host root schema value)
    (tellingToo : Telling host rootToo schemaToo valueToo) :
    Verdict.Agree (validate host root stack schema value)
      (validate host rootToo stackToo schemaToo valueToo) := by
  induction stack generalizing stackToo schema schemaToo value valueToo with
  | zero => exact Verdict.agree_error _ _
  | succ stack ih =>
    cases stackToo with
    | zero =>
      intro one other left right
      cases right
    | succ stackToo =>
      rw [validate, validate]
      apply agree_validateOnce roots schemas values (telling _ _ (.here schema value))
        (tellingToo _ _ (.here schemaToo valueToo))
      intro part target partToo targetToo calls callsToo parts targets
      exact ih stackToo parts targets (telling.call calls) (tellingToo.call callsToo)

def SameVerdict (host : SchemaHost) (schema value schemaToo valueToo : JsonValue) : Prop :=
  ∃ answer frames, ∀ stack ≥ frames,
    validateFiniteJsonSchemaV1 host stack schema value = .ok answer ∧
      validateFiniteJsonSchemaV1 host stack schemaToo valueToo = .ok answer

theorem sameVerdict_of_telling (formed : WellFormedSchema host schema)
    (formedToo : WellFormedSchema host schemaToo) (schemas : Alike host.numbers schema schemaToo)
    (values : Alike host.numbers value valueToo) (telling : Telling host schema schema value)
    (tellingToo : Telling host schemaToo schemaToo valueToo) :
    SameVerdict host schema value schemaToo valueToo := by
  obtain ⟨frames, returns⟩ := returns_of_grounded formed.grounded
  obtain ⟨framesToo, returnsToo⟩ := returns_of_grounded formedToo.grounded
  have agree := fun stack stackToo =>
    agree_validate schemas stack stackToo schemas values telling tellingToo
  obtain ⟨answer, first⟩ := returns frames le_rfl value
  have firstToo := (agree frames (max frames framesToo)).eq ⟨answer, first⟩
    (returnsToo _ (le_max_right _ _) valueToo)
  refine ⟨answer, max frames framesToo, fun stack enough => ⟨?_, ?_⟩⟩
  · have later := (agree stack (max frames framesToo)).eq (returns stack (by omega) value)
      (returnsToo _ (le_max_right _ _) valueToo)
    exact later.trans (firstToo.symm.trans first)
  · have later := (agree frames stack).eq ⟨answer, first⟩ (returnsToo stack (by omega) valueToo)
    exact later.symm.trans first

def OrderBlind (host : SchemaHost) (schema value : JsonValue) : Prop :=
  ∀ schemaToo valueToo, WellFormedSchema host schemaToo → Alike host.numbers schema schemaToo →
    Alike host.numbers value valueToo →
      SameVerdict host schema value schemaToo valueToo ∧
      ∀ part target, Visits host schemaToo schemaToo valueToo part target →
        Decides host part target

/-- In no order of members does validation compare equal values with different texts. -/
def TextsTell (host : SchemaHost) (schema value : JsonValue) : Prop :=
  ∀ schemaToo valueToo, WellFormedSchema host schemaToo → Alike host.numbers schema schemaToo →
    Alike host.numbers value valueToo → Telling host schemaToo schemaToo valueToo

section Propriety

variable {root schema value part target : JsonValue}

theorem listed_proper (schemaProper : Proper host.numbers schema) {key : Text}
    (partIn : part ∈ listed schema key) : Proper host.numbers part := by
  unfold listed at partIn
  cases found : arrayUnder schema key with
  | none =>
    rw [found] at partIn
    exact absurd partIn List.not_mem_nil
  | some items =>
    rw [found] at partIn
    exact arrayUnder_proper schemaProper found part partIn

theorem parts_proper (schemaProper : Proper host.numbers schema)
    (partIn : part ∈ parts host schema) : Proper host.numbers part := by
  unfold parts inPlace at partIn
  simp only [List.mem_append, List.mem_filterMap, List.mem_map] at partIn
  rcases partIn with ((((((all | any) | one) | conditions) | first) | applied) | names) | known
  · exact listed_proper schemaProper all
  · exact listed_proper schemaProper any
  · exact listed_proper schemaProper one
  · obtain ⟨key, -, found⟩ := conditions
    exact keyword_proper schemaProper (keyword_of_present found)
  · exact listed_proper schemaProper first
  · obtain ⟨key, -, found⟩ := applied
    exact keyword_proper schemaProper (keyword_of_applicable found)
  · obtain ⟨key, -, found⟩ := names
    exact keyword_proper schemaProper (keyword_of_present found)
  · obtain ⟨entry, entryIn, rfl⟩ := known
    obtain ⟨other, -, alike⟩ := entries_alike (properties_alike (.refl schemaProper)) entry entryIn
    exact alike.left

theorem target_proper (valueProper : Proper host.numbers value)
    (applied : Applies host schema value part target) : Proper host.numbers target := by
  cases applied with
  | inPlace partIn => exact valueProper
  | first pairIn => exact items_proper valueProper _ (List.of_mem_zip pairIn).2
  | rest found itemIn => exact items_proper valueProper _ (List.mem_of_mem_drop itemIn)
  | name found entryIn => exact .string _
  | known entryIn found =>
    exact keyword_proper valueProper found
  | additional found entryIn unknown =>
    obtain ⟨other, -, alike⟩ := (Alike.refl valueProper).members _ entryIn
    exact alike.left

theorem visits_proper {last reached : JsonValue} (rootProper : Proper host.numbers root)
    (visits : Visits host root schema value last reached)
    (schemaProper : Proper host.numbers schema)
    (valueProper : Proper host.numbers value) :
    Proper host.numbers last ∧ Proper host.numbers reached := by
  induction visits with
  | here schema value => exact ⟨schemaProper, valueProper⟩
  | call calls visits ih =>
    cases calls with
    | @reference reference _ refers means =>
      have rel := definition_alike (.refl rootProper) reference
      rw [means] at rel
      cases rel with
      | some definitions =>
        cases definitions with
        | schema alike => exact ih alike.left valueProper
    | applies plain applied =>
      exact ih (parts_proper schemaProper (applies_parts applied))
        (target_proper valueProper applied)

end Propriety

def plainHost : SchemaHost where
  numbers := decimalFormat
  pattern := fun _ => none
  inherited := fun _ _ => false

def constSchema (constant : JsonValue) : JsonValue := .object [(js "const", constant)]

theorem parts_constSchema (constant : JsonValue) : parts plainHost (constSchema constant) =
    [] := rfl

theorem constSchema_formed (constant : JsonValue) :
    WellFormedSchema plainHost (constSchema constant) := by
  have nothing : ∀ reference, definition plainHost (constSchema constant) reference = none := by
    intro reference
    unfold definition
    cases referenceName reference with
    | none => rfl
    | some name => rfl
  refine ⟨fun part within => ?_, fun reference found part means => ?_, fun _ => 0, ?_⟩
  · cases within with
    | here => exact ⟨⟨_, rfl⟩, (by rintro text ⟨⟩), by rintro item ⟨⟩⟩
    | inside partIn within =>
      rw [parts_constSchema] at partIn
      cases partIn
  · rw [nothing] at means
    cases means
  · intro reference found part other means
    rw [nothing] at means
    cases means

theorem eq_of_alike_constSchema {other : JsonValue}
    (alike : Alike plainHost.numbers (constSchema .null) other) : other = constSchema .null := by
  cases other with
  | object members =>
    cases alike.equals with
    | object entries leftPerm rightPerm each =>
      have listed := List.singleton_perm.mp leftPerm
      cases entries with
      | nil => cases listed
      | cons entry rest =>
        have none' : rest = [] := List.map_eq_nil_iff.mp (List.cons.inj listed).2.symm
        have head := (List.cons.inj listed).1
        have key : js "const" = entry.1 := congrArg Prod.fst head
        have left : JsonValue.null = entry.2.1 := congrArg Prod.snd head
        have right := each entry List.mem_cons_self
        rw [none', List.map_singleton, List.perm_singleton] at rightPerm
        rw [← left] at right
        rw [constSchema, rightPerm, ← key]
        generalize entry.2.2 = found at right ⊢
        cases right
        rfl
  | _ => cases alike.equals

/-- An object with two members. -/
def pairObject (first second : Text) : JsonValue := .object [(first, .null), (second, .null)]

theorem pairObject_proper {first second : Text} (differ : first ≠ second) :
    Proper plainHost.numbers (pairObject first second) := by
  apply Proper.object
  · simp [differ]
  · intro entry entryIn
    simp only [List.mem_cons, List.not_mem_nil, or_false] at entryIn
    rcases entryIn with rfl | rfl
    · exact .null
    · exact .null

end Holonomy.Kernel.Schema
