import Holonomy.Kernel.CapabilityOrder

/-!
# Selection of a capability branch

A requirement lists alternative branches, and each branch the capabilities it needs. Repeated
capabilities are merged by their meet.
-/

namespace Holonomy.Kernel

open Foundation

abbrev CapabilityMap (platform : Platform) : Type :=
  List ((name : CapabilityName) × Constraints platform name.schema)

namespace CapabilityMap

variable {platform : Platform}

def get (name : CapabilityName) : CapabilityMap platform → Option (Constraints platform name.schema)
  | [] => none
  | ⟨other, constraints⟩ :: rest =>
    if same : other = name then some (same ▸ constraints) else get name rest

def set (name : CapabilityName) (constraints : Constraints platform name.schema) :
    CapabilityMap platform → CapabilityMap platform
  | [] => [⟨name, constraints⟩]
  | entry :: rest =>
    if entry.1 = name then ⟨name, constraints⟩ :: rest else entry :: set name constraints rest

variable {name : CapabilityName} {map : CapabilityMap platform}
  {constraints : Constraints platform name.schema}

@[simp]
theorem get_set (name : CapabilityName) (constraints : Constraints platform name.schema)
    (map : CapabilityMap platform) : get name (set name constraints map) = some constraints := by
  induction map with
  | nil => simp [set, get]
  | cons entry rest ih =>
    rw [set]
    split
    · simp [get]
    · next differs =>
      rw [get, dif_neg differs]
      exact ih

theorem get_set_of_ne {other : CapabilityName} (differs : other ≠ name)
    (constraints : Constraints platform other.schema) (map : CapabilityMap platform) :
    get name (set other constraints map) = get name map := by
  induction map with
  | nil => simp [set, get, differs]
  | cons entry rest ih =>
    rw [set]
    split
    · next same =>
      obtain ⟨first, held⟩ := entry
      cases same
      simp [get, differs]
    · obtain ⟨first, held⟩ := entry
      simp only [get, ih]

theorem mem_of_get (found : get name map = some constraints) : ⟨name, constraints⟩ ∈ map := by
  induction map with
  | nil => cases found
  | cons entry rest ih =>
    obtain ⟨first, held⟩ := entry
    rw [get] at found
    split at found
    · next same =>
      cases same
      cases found
      exact List.mem_cons_self
    · exact List.mem_cons_of_mem _ (ih found)

theorem mem_of_mem_set {entry : (name : CapabilityName) × Constraints platform name.schema}
    (entryIn : entry ∈ set name constraints map) : entry = ⟨name, constraints⟩ ∨ entry ∈ map := by
  induction map with
  | nil => exact .inl (List.mem_singleton.mp entryIn)
  | cons first rest ih =>
    rw [set] at entryIn
    split at entryIn
    · exact (List.mem_cons.mp entryIn).imp_right (List.mem_cons_of_mem _)
    · rcases List.mem_cons.mp entryIn with rfl | later
      · exact .inr List.mem_cons_self
      · exact (ih later).imp_right (List.mem_cons_of_mem _)

def all (name : CapabilityName) : CapabilityMap platform → List (Constraints platform name.schema)
  | [] => []
  | ⟨other, constraints⟩ :: rest =>
    if same : other = name then (same ▸ constraints) :: all name rest else all name rest

/-- Every constraint is one that its normalizer returns. -/
def Normal (map : CapabilityMap platform) : Prop := ∀ entry ∈ map, entry.2.Normal

end CapabilityMap

def mergeInto (platform : Platform) (map : CapabilityMap platform) (name : CapabilityName)
    (constraints : Constraints platform name.schema) : Js (Option (CapabilityMap platform)) :=
  match map.get name with
  | none => .ok (some (map.set name constraints))
  | some current => do
    match ← meetCapabilityConstraintsV1 platform name current.toJson constraints.toJson with
    | none => return none
    | some merged => return some (map.set name merged)

/-- An available capability. -/
structure AvailableCapabilityV1 where
  constraints : JsonValue
  name : Text
  version : ℚ

def availableMap (platform : Platform) :
    CapabilityMap platform → List AvailableCapabilityV1 → Js (CapabilityMap platform)
  | output, [] => .ok output
  | output, value :: values =>
    match Literal.parse? (T := CapabilityName) value.name with
    | none => invalidPolicy
    | some name =>
      if value.version ≠ 1 then invalidPolicy
      else do
        let normalized ← normalizeCapabilityConstraintsV1 platform name value.constraints
        match ← mergeInto platform output name normalized with
        | none => invalidPolicy
        | some merged => availableMap platform merged values

def mergeRequired (platform : Platform) :
    CapabilityMap platform → CapabilityMap platform → Js (Option (CapabilityMap platform))
  | output, [] => .ok (some output)
  | output, ⟨name, constraints⟩ :: refs => do
    match ← mergeInto platform output name constraints with
    | none => return none
    | some merged => mergeRequired platform merged refs

/-- A branch of a requirement. -/
structure CapabilityBranch (platform : Platform) where
  /-- The capabilities of the branch, which may repeat. -/
  allOf : CapabilityMap platform
  branchId : Identifier 128

/-- A requirement. -/
structure CapabilityRequirementV1 (platform : Platform) where
  anyOf : List (CapabilityBranch platform)

def isOne : JsonValue → Bool
  | .number value => value = 1
  | _ => false

def capabilityRef (platform : Platform) (value : JsonValue) :
    Js ((name : CapabilityName) × Constraints platform name.schema) := do
  let ref ← exact value ["constraints", "name", "version"]
  let name ← literal CapabilityName (← required ref "name")
  let version ← required ref "version"
  if isOne version = false then invalidPolicy
  else do
    let constraints ← normalizeCapabilityConstraintsV1 platform name (← required ref "constraints")
    return ⟨name, constraints⟩

def capabilityBranch (platform : Platform) (value : JsonValue) :
    Js (CapabilityBranch platform) := do
  let branch ← exact value ["allOf", "branchId"]
  let allOf ← each (capabilityRef platform) (← array (← required branch "allOf") 1 64)
  let branchId ← identifier (← required branch "branchId") 128
  return { allOf, branchId }

def normalizeCapabilityRequirementV1 (platform : Platform) (value : JsonValue) :
    Js (CapabilityRequirementV1 platform) := do
  let input ← exact value ["anyOf"]
  let anyOf ← each (capabilityBranch platform) (← array (← required input "anyOf") 1 64)
  if (anyOf.map CapabilityBranch.branchId).Nodup then return { anyOf } else invalidPolicy

/-- The context of a selection. -/
structure CapabilitySelectionContextV1 where
  generation : JsonValue
  policyDigest : JsonValue
  principal : JsonValue
  processId : JsonValue

/-- A checked context. -/
structure SelectionContext where
  generation : Bounded 1 maxSafeInteger
  policyDigest : { text : Text // isDigest text = true }
  principal : Text
  processId : Identifier 128

/-- A digest in lower-case hexadecimal. -/
def digest : JsonValue → Js { text : Text // isDigest text = true }
  | .string text => if formed : isDigest text = true then .ok ⟨text, formed⟩ else invalidPolicy
  | _ => invalidPolicy

def selectionContext (value : CapabilitySelectionContextV1) : Js SelectionContext := do
  let generation ← integer value.generation 1 maxSafeInteger
  let policyDigest ← digest value.policyDigest
  let principal ← string value.principal 256
  let processId ← identifier value.processId 128
  return { generation, policyDigest, principal, processId }

structure CapabilityBindingV1 (platform : Platform) where
  branchId : Identifier 128
  bound : (name : CapabilityName) × Constraints platform name.schema
  digest : Text

structure AuthorityBindingV1 (platform : Platform) where
  authorityDigest : Text
  bound : (name : CapabilityName) × Constraints platform name.schema
  providerModule : Text

/-- A selection. -/
structure CapabilitySelectionV1 (platform : Platform) where
  authorityBindings : List (AuthorityBindingV1 platform)
  bindings : List (CapabilityBindingV1 platform)
  branchId : Identifier 128
  requirement : CapabilityRequirementV1 platform

def capabilityBinding (platform : Platform) (context : SelectionContext) (branchId : Identifier 128)
    (bound : (name : CapabilityName) × Constraints platform name.schema) :
    CapabilityBindingV1 platform :=
  let semanticDigest := canonicalDigest platform (.array [.string (js "capability"),
    literalJson bound.1, natJson 1, bound.2.toJson])
  let digest := canonicalDigest platform (.array [.string (js "capabilityBinding"),
    .string semanticDigest, .string branchId.text, .string context.policyDigest.val,
    .string context.processId.text, natJson context.generation.val])
  { branchId, bound, digest }

def authorityBinding (platform : Platform) (context : SelectionContext)
    (binding : CapabilityBindingV1 platform) : AuthorityBindingV1 platform where
  authorityDigest := canonicalDigest platform (.array [.string (js "authority"),
    .string binding.bound.1.providerModule, binding.bound.2.toJson, .string context.principal,
    natJson context.generation.val, .string binding.digest])
  bound := binding.bound
  providerModule := binding.bound.1.providerModule

def refuses (platform : Platform) (available : CapabilityMap platform) :
    CapabilityMap platform → Js Bool
  | [] => .ok false
  | ⟨name, constraints⟩ :: rest =>
    match available.get name with
    | none => .ok true
    | some candidate => do
      if ← capabilitySatisfiesV1 platform name candidate.toJson constraints.toJson then
        refuses platform available rest
      else return true

def firstBranch (platform : Platform) (requirement : CapabilityRequirementV1 platform)
    (available : CapabilityMap platform) (context : SelectionContext) :
    List (CapabilityBranch platform) → Js (Option (CapabilitySelectionV1 platform))
  | [] => .ok none
  | branch :: branches => do
    match ← mergeRequired platform [] branch.allOf with
    | none => firstBranch platform requirement available context branches
    | some requiredByName =>
      if ← refuses platform available requiredByName then
        firstBranch platform requirement available context branches
      else
        let bindings := requiredByName.map (capabilityBinding platform context branch.branchId)
        return some {
          authorityBindings := bindings.map (authorityBinding platform context)
          bindings
          branchId := branch.branchId
          requirement }

def selectCapabilityBranchV1 (platform : Platform) (requirementValue : JsonValue)
    (availableValues : List AvailableCapabilityV1) (contextValue : CapabilitySelectionContextV1) :
    Js (Option (CapabilitySelectionV1 platform)) := do
  let requirement ← normalizeCapabilityRequirementV1 platform requirementValue
  let available ← availableMap platform [] availableValues
  let context ← selectionContext contextValue
  firstBranch platform requirement available context requirement.anyOf

section Merging

variable {platform : Platform}

def AvailableCapabilityV1.IsAccepted (platform : Platform) (value : AvailableCapabilityV1)
    (entry : (name : CapabilityName) × Constraints platform name.schema) : Prop :=
  value.name = Literal.text entry.1 ∧ value.version = 1 ∧
    normalizeCapabilityConstraintsV1 platform entry.1 value.constraints = .ok entry.2

def Clashes {schema : ConstraintSchema} :
    Option (Constraints platform schema) → List (Constraints platform schema) → Prop
  | _, [] => False
  | none, first :: rest => Clashes (some first) rest
  | some current, next :: rest =>
    match meetConstraints platform schema current next with
    | .ok none => True
    | .ok (some met) => Clashes (some met) rest
    | .error _ => False

/-- The constraints of some capability do not meet. -/
def Contradictory (refs : CapabilityMap platform) : Prop :=
  ∃ name : CapabilityName, Clashes none (refs.all name)

def ConstraintSchema.IsPlain (schema : ConstraintSchema) : Prop :=
  schema ≠ .filesystem ∧ schema ≠ .storage

/-- Filesystem and storage constraints are not merged. -/
def MergesPlainly (map refs : CapabilityMap platform) : Prop :=
  ∀ name : CapabilityName, ¬ name.schema.IsPlain →
    (map.get name).toList.length + (refs.all name).length ≤ 1

variable {name : CapabilityName} {available : CapabilityMap platform}
  {requirement : CapabilityRequirementV1 platform} {constraints : Constraints platform name.schema}

@[simp]
theorem all_cons (name : CapabilityName) (constraints : Constraints platform name.schema)
    (refs : CapabilityMap platform) :
    CapabilityMap.all name (⟨name, constraints⟩ :: refs) = constraints :: refs.all name := by
  simp [CapabilityMap.all]

theorem all_cons_of_ne {other : CapabilityName} (differs : other ≠ name)
    (constraints : Constraints platform other.schema) (refs : CapabilityMap platform) :
    CapabilityMap.all name (⟨other, constraints⟩ :: refs) = refs.all name := by
  simp [CapabilityMap.all, differs]

theorem mergeInto_of_none {map : CapabilityMap platform}
    (constraints : Constraints platform name.schema) (absent : map.get name = none) :
    mergeInto platform map name constraints = .ok (some (map.set name constraints)) := by
  rw [mergeInto, absent]

theorem mergeInto_of_some {map : CapabilityMap platform}
    {current : Constraints platform name.schema} (found : map.get name = some current)
    (currentNormal : current.Normal) (normal : constraints.Normal)
    {met : Option (Constraints platform name.schema)}
    (isMet : meetConstraints platform name.schema current constraints = .ok met) :
    mergeInto platform map name constraints = .ok (met.map fun merged => map.set name merged) := by
  have meets : meetCapabilityConstraintsV1 platform name current.toJson constraints.toJson =
    .ok met :=
    (meetCapabilityConstraints_eq (normalize_toJson currentNormal) (normalize_toJson normal)).trans
      isMet
  rw [mergeInto, found]
  dsimp only
  rw [meets, ok_bind]
  cases met <;> rfl

theorem CapabilityMap.normal_nil : CapabilityMap.Normal ([] : CapabilityMap platform) := by
  intro entry entryIn
  cases entryIn

theorem CapabilityMap.Normal.set {map : CapabilityMap platform} (mapNormal : map.Normal)
    (normal : constraints.Normal) : (map.set name constraints).Normal := by
  intro entry entryIn
  rcases CapabilityMap.mem_of_mem_set entryIn with rfl | before
  · exact normal
  · exact mapNormal entry before

theorem length_all_le (name : CapabilityName) (refs : CapabilityMap platform) :
    (refs.all name).length ≤ refs.length := by
  induction refs with
  | nil => simp [CapabilityMap.all]
  | cons ref refs ih =>
    obtain ⟨other, constraints⟩ := ref
    rw [CapabilityMap.all]
    split <;> simp <;> omega

theorem mergesPlainly_of_short {refs : CapabilityMap platform} (short : refs.length ≤ 1) :
    MergesPlainly [] refs := by
  intro name _
  have bound := length_all_le name refs
  simp only [CapabilityMap.get, Option.toList_none, List.length_nil]
  omega

theorem not_contradictory_of_short {refs : CapabilityMap platform} (short : refs.length ≤ 1) :
    ¬ Contradictory refs := by
  rintro ⟨name, clashes⟩
  have bound := length_all_le name refs
  match all : CapabilityMap.all name refs with
  | [] => simp [all, Clashes] at clashes
  | [constraints] => simp [all, Clashes] at clashes
  | _ :: _ :: _ =>
    rw [all, List.length_cons, List.length_cons] at bound
    omega

theorem mergesPlainly_set {map refs : CapabilityMap platform}
    (plain : MergesPlainly map (⟨name, constraints⟩ :: refs))
    (merged : Constraints platform name.schema) : MergesPlainly (map.set name merged) refs := by
  intro other special
  by_cases same : name = other
  · subst same
    have bound := plain name special
    simp only [all_cons, List.length_cons] at bound
    simp only [CapabilityMap.get_set, Option.toList_some, List.length_singleton]
    omega
  · have bound := plain other special
    rwa [all_cons_of_ne same, ← CapabilityMap.get_set_of_ne same merged] at bound

theorem mergeRequired_returns {map refs : CapabilityMap platform} (mapNormal : map.Normal)
    (refsNormal : refs.Normal) (plain : MergesPlainly map refs) :
    (∃ merged, mergeRequired platform map refs = .ok (some merged) ∧ merged.Normal ∧
      ∀ name : CapabilityName, ¬ Clashes (map.get name) (refs.all name)) ∨
    (mergeRequired platform map refs = .ok none ∧
      ∃ name : CapabilityName, Clashes (map.get name) (refs.all name)) := by
  induction refs generalizing map with
  | nil => exact .inl ⟨map, rfl, mapNormal, fun name => by simp [CapabilityMap.all, Clashes]⟩
  | cons ref refs ih =>
    obtain ⟨name, constraints⟩ := ref
    have normal : constraints.Normal := refsNormal ⟨name, constraints⟩ List.mem_cons_self
    have restNormal : CapabilityMap.Normal refs := fun entry entryIn =>
      refsNormal entry (List.mem_cons_of_mem _ entryIn)
    -- one step of the merge leaves every capability with the clash it had before
    have step (merged : Constraints platform name.schema) (mergedNormal : merged.Normal)
        (merges : mergeInto platform map name constraints = .ok (some (map.set name merged)))
        (kept : Clashes (map.get name) (constraints :: CapabilityMap.all name refs)
          ↔ Clashes (some merged) (CapabilityMap.all name refs)) :
        (∃ result, mergeRequired platform map (⟨name, constraints⟩ :: refs) = .ok (some result) ∧
          result.Normal ∧ ∀ other : CapabilityName, ¬ Clashes (map.get other)
            (CapabilityMap.all other (⟨name, constraints⟩ :: refs))) ∨
        (mergeRequired platform map (⟨name, constraints⟩ :: refs) = .ok none ∧
          ∃ other : CapabilityName, Clashes (map.get other)
            (CapabilityMap.all other (⟨name, constraints⟩ :: refs))) := by
      have same (other : CapabilityName) : Clashes (map.get other)
          (CapabilityMap.all other (⟨name, constraints⟩ :: refs))
            ↔ Clashes ((map.set name merged).get other) (CapabilityMap.all other refs) := by
        by_cases equal : name = other
        · subst equal
          rw [all_cons, CapabilityMap.get_set]
          exact kept
        · rw [all_cons_of_ne equal, CapabilityMap.get_set_of_ne equal]
      simp only [same, mergeRequired, merges, ok_bind]
      exact ih (mapNormal.set mergedNormal) restNormal (mergesPlainly_set plain merged)
    cases found : map.get name with
    | none =>
      exact step constraints normal (mergeInto_of_none constraints found) (by rw [found, Clashes])
    | some current =>
      have currentNormal : current.Normal := mapNormal _ (CapabilityMap.mem_of_get found)
      have schemaPlain : name.schema.IsPlain := by
        by_contra special
        have bound := plain name special
        simp only [found, all_cons, Option.toList_some, List.length_cons] at bound
        omega
      obtain ⟨met, isMet⟩ := meetConstraints_returns schemaPlain.2 current constraints
      have merges := mergeInto_of_some found currentNormal normal isMet
      cases met with
      | none =>
        refine .inr ⟨?_, name, ?_⟩
        · simp only [mergeRequired, merges, Option.map_none, ok_bind]
          rfl
        · rw [found, all_cons, Clashes, isMet]
          trivial
      | some merged =>
        exact step merged (normal_of_ne_filesystem schemaPlain.1 merged) merges
          (by rw [found, Clashes, isMet])

theorem availableMap_eq {values : List AvailableCapabilityV1} {entries : CapabilityMap platform}
    (accepted : List.Forall₂ (AvailableCapabilityV1.IsAccepted platform) values entries)
    (map : CapabilityMap platform) :
    availableMap platform map values = (mergeRequired platform map entries >>= fun
      | none => invalidPolicy
      | some merged => .ok merged) := by
  induction accepted generalizing map with
  | nil => simp only [availableMap, mergeRequired, ok_bind]
  | @cons value entry values entries first rest ih =>
    obtain ⟨name, constraints⟩ := entry
    obtain ⟨named, version, normalized⟩ := first
    simp only [availableMap, named, (Literal.parse?_eq_some _ name).mpr rfl, version, ne_eq,
      not_true_eq_false, if_false, mergeRequired]
    dsimp only at normalized
    rw [normalized, ok_bind]
    cases merged : mergeInto platform map name constraints with
    | error thrown => rfl
    | ok result =>
      simp only [ok_bind]
      cases result with
      | none => simp only [pure_eq_ok, ok_bind]
      | some next => exact ih next

def Satisfied (available required : CapabilityMap platform) : Prop :=
  ∀ entry ∈ required, ∃ candidate, available.get entry.1 = some candidate ∧ candidate.Covers entry.2

theorem refuses_returns {required : CapabilityMap platform} (availableNormal : available.Normal)
    (requiredNormal : required.Normal) :
    ∃ refused, refuses platform available required = .ok refused ∧
      (refused = false ↔ Satisfied available required) := by
  induction required with
  | nil => exact ⟨false, rfl, by simp [Satisfied]⟩
  | cons entry rest ih =>
    obtain ⟨name, constraints⟩ := entry
    obtain ⟨refused, returns, satisfied⟩ :=
      ih fun entry entryIn => requiredNormal entry (List.mem_cons_of_mem _ entryIn)
    have normal : constraints.Normal := requiredNormal ⟨name, constraints⟩ List.mem_cons_self
    rw [refuses]
    cases found : available.get name with
    | none => exact ⟨true, rfl, by simp [Satisfied, found]⟩
    | some candidate =>
      have candidateNormal : candidate.Normal := availableNormal _ (CapabilityMap.mem_of_get found)
      have compared := capabilitySatisfies_eq (normalize_toJson candidateNormal)
        (normalize_toJson normal)
      dsimp only
      rw [compared, ok_bind]
      by_cases covers : candidate.Covers constraints
      · refine ⟨refused, by simpa [covers] using returns, ?_⟩
        simp [Satisfied, found, covers, satisfied]
      · exact ⟨true, by simp [covers], by simp [Satisfied, found, covers]⟩

theorem normal_of_requirement {value : JsonValue}
    (accepted : normalizeCapabilityRequirementV1 platform value = .ok requirement) :
    ∀ branch ∈ requirement.anyOf, branch.allOf.Normal := by
  intro branch branchIn
  simp only [normalizeCapabilityRequirementV1, bind_eq_ok, pure_eq_ok, checked_eq_ok] at accepted
  obtain ⟨-, -, -, -, items, -, branches, returns, -, same⟩ := accepted
  cases same
  obtain ⟨item, -, read⟩ := exists_of_mem_each returns branchIn
  simp only [capabilityBranch, bind_eq_ok, pure_eq_ok] at read
  obtain ⟨-, -, -, -, refItems, -, refs, refReturns, -, -, name, -, same⟩ := read
  cases same
  intro ref refIn
  obtain ⟨refItem, -, refRead⟩ := exists_of_mem_each refReturns refIn
  simp only [capabilityRef, bind_eq_ok, pure_eq_ok, guarded_eq_ok] at refRead
  obtain ⟨_, _, _, _, name, _, version, _, _, _, _, constraints, normalized, same⟩ := refRead
  cases same
  exact normal_of_normalize normalized

theorem firstBranch_returns (availableNormal : available.Normal) (context : SelectionContext)
    {branches : List (CapabilityBranch platform)}
    (normal : ∀ branch ∈ branches, branch.allOf.Normal)
    (plain : ∀ branch ∈ branches, MergesPlainly [] branch.allOf) :
    ∃ selection, firstBranch platform requirement available context branches = .ok selection := by
  induction branches with
  | nil => exact ⟨none, rfl⟩
  | cons branch branches ih =>
    have later := ih (fun branch branchIn => normal branch (List.mem_cons_of_mem _ branchIn))
      fun branch branchIn => plain branch (List.mem_cons_of_mem _ branchIn)
    rcases mergeRequired_returns CapabilityMap.normal_nil (normal branch List.mem_cons_self)
      (plain branch List.mem_cons_self) with
      ⟨merged, merges, mergedNormal, -⟩ | ⟨merges, -⟩
    · obtain ⟨refused, compares, -⟩ := refuses_returns availableNormal mergedNormal
      simp only [firstBranch, merges, ok_bind, compares]
      cases refused with
      | true => simpa using later
      | false => exact ⟨_, rfl⟩
    · simp only [firstBranch, merges, ok_bind]
      exact later

end Merging

def shellRequirement : JsonValue :=
  objectJson [("anyOf", .array [objectJson [
    ("allOf", .array [objectJson [("constraints", shellsJson []),
      ("name", literalJson CapabilityName.processShell), ("version", natJson 1)]]),
    ("branchId", .string (js "a"))]])]

def availableShells (names : List String) : AvailableCapabilityV1 where
  constraints := shellsJson names
  name := Literal.text CapabilityName.processShell
  version := 1

def firstContext : CapabilitySelectionContextV1 where
  generation := natJson 1
  policyDigest := .string (List.replicate 64 0x30)
  principal := .string (js "a")
  processId := .string (js "a")

section Granting

variable {platform : Platform} {name : CapabilityName} {map merged available : CapabilityMap platform}
  {requirement : CapabilityRequirementV1 platform} {selection : CapabilitySelectionV1 platform}

/-- The result covers what all its parts cover, and there is none only of no parts. -/
def Merges {schema : ConstraintSchema} (parts : List (Constraints platform schema))
    (result : Option (Constraints platform schema)) : Prop :=
  (result = none ↔ parts = []) ∧
    ∀ merged ∈ result, ∀ required, merged.Covers required ↔ ∀ part ∈ parts, part.Covers required

theorem merges_mergeInto {constraints : Constraints platform name.schema}
    (merges : mergeInto platform map name constraints = .ok (some merged)) :
    ∃ result, merged = map.set name result ∧
      Merges ((map.get name).toList ++ [constraints]) (some result) := by
  unfold mergeInto at merges
  cases found : map.get name with
  | none =>
    rw [found] at merges
    cases merges
    exact ⟨constraints, rfl, by simp [Merges]⟩
  | some current =>
    simp only [found, bind_eq_ok, meetCapabilityConstraintsV1] at merges
    obtain ⟨met, ⟨left, leftAccepted, right, rightAccepted, isMet⟩, returned⟩ := merges
    cases met with
    | none => cases returned
    | some met =>
      cases returned
      refine ⟨met, rfl, by simp, fun result same required => ?_⟩
      cases same
      rw [covers_meetConstraints isMet, covers_of_normalize leftAccepted,
        covers_of_normalize rightAccepted]
      simp

/-- Every capability is merged from all the constraints on it, whatever stands between them. -/
theorem merges_mergeRequired {refs : CapabilityMap platform}
    (merges : mergeRequired platform map refs = .ok (some merged)) (name : CapabilityName) :
    Merges ((map.get name).toList ++ refs.all name) (merged.get name) := by
  induction refs generalizing map with
  | nil =>
    cases merges
    cases merged.get name <;> simp [Merges, CapabilityMap.all]
  | cons ref refs ih =>
    obtain ⟨other, constraints⟩ := ref
    simp only [mergeRequired, bind_eq_ok] at merges
    obtain ⟨next, first, rest⟩ := merges
    cases next with
    | none => cases rest
    | some next =>
      obtain ⟨result, rfl, -, whole⟩ := merges_mergeInto first
      obtain ⟨empty, covers⟩ := ih rest
      by_cases same : other = name
      · subst same
        rw [CapabilityMap.get_set] at empty covers
        rw [all_cons]
        refine ⟨by simpa using empty, fun final isFinal required => ?_⟩
        rw [covers final isFinal required]
        simp only [Option.toList_some, List.forall_mem_append, List.forall_mem_cons,
          whole result rfl required, List.not_mem_nil, false_imp_iff, forall_true_iff, and_true,
          and_assoc]
      · rw [CapabilityMap.get_set_of_ne same] at empty covers
        rw [all_cons_of_ne same]
        exact ⟨empty, covers⟩

theorem satisfied_of_refuses {required : CapabilityMap platform}
    (admits : refuses platform available required = .ok false) : Satisfied available required := by
  induction required with
  | nil => simp [Satisfied]
  | cons entry rest ih =>
    obtain ⟨name, constraints⟩ := entry
    unfold refuses at admits
    cases found : available.get name with
    | none =>
      rw [found] at admits
      cases admits
    | some candidate =>
      simp only [found, bind_eq_ok, capabilitySatisfiesV1] at admits
      obtain ⟨covered, ⟨left, leftAccepted, right, rightAccepted, compared⟩, admits⟩ := admits
      rw [satisfiesConstraints_eq, Except.ok.injEq] at compared
      cases covered with
      | false => cases admits
      | true =>
        have covers := of_decide_eq_true compared
        rw [(alike_of_normalize rightAccepted _).2, covers_of_normalize leftAccepted] at covers
        exact List.forall_mem_cons.mpr ⟨⟨candidate, found, covers⟩, ih admits⟩

theorem firstBranch_selects {context : SelectionContext}
    {branches : List (CapabilityBranch platform)}
    (selects : firstBranch platform requirement available context branches = .ok (some selection)) :
    ∃ branch ∈ branches, selection.branchId = branch.branchId ∧ ∃ merged,
      mergeRequired platform [] branch.allOf = .ok (some merged) ∧ Satisfied available merged ∧
        selection.bindings.map CapabilityBindingV1.bound = merged ∧
        selection.authorityBindings.map AuthorityBindingV1.bound = merged := by
  induction branches with
  | nil => cases selects
  | cons branch branches ih =>
    have later (goesOn : firstBranch platform requirement available context branches =
        .ok (some selection)) := (ih goesOn).imp fun _ => And.imp_left (List.mem_cons_of_mem branch)
    simp only [firstBranch, bind_eq_ok] at selects
    obtain ⟨merged, merges, selects⟩ := selects
    cases merged with
    | none => exact later selects
    | some merged =>
      simp only [bind_eq_ok] at selects
      obtain ⟨refused, admits, selects⟩ := selects
      cases refused with
      | true => exact later selects
      | false =>
        cases selects
        refine ⟨branch, List.mem_cons_self, rfl, merged, merges, satisfied_of_refuses admits, ?_, ?_⟩
        · simp [List.map_map, Function.comp_def, capabilityBinding]
        · simp [List.map_map, Function.comp_def, capabilityBinding, authorityBinding]

/-- A selection binds exactly what some branch requires, merged for each capability, and each bound
constraint is covered by every one of the available entries of its capability, of which there is
one. Merged filesystem and storage constraints are no exception. -/
theorem selection_neverAmplifies {requirementValue : JsonValue}
    {availableValues : List AvailableCapabilityV1} {entries : CapabilityMap platform}
    {contextValue : CapabilitySelectionContextV1}
    (accepted : normalizeCapabilityRequirementV1 platform requirementValue = .ok requirement)
    (available : List.Forall₂ (AvailableCapabilityV1.IsAccepted platform) availableValues entries)
    (selects : selectCapabilityBranchV1 platform requirementValue availableValues contextValue =
      .ok (some selection)) :
    ∃ branch ∈ requirement.anyOf, selection.branchId = branch.branchId ∧
      selection.authorityBindings.map AuthorityBindingV1.bound =
        selection.bindings.map CapabilityBindingV1.bound ∧
      (∀ name, Merges (branch.allOf.all name)
        (CapabilityMap.get name (selection.bindings.map CapabilityBindingV1.bound))) ∧
      ∀ binding ∈ selection.bindings, entries.all binding.bound.1 ≠ [] ∧
        ∀ entry ∈ entries.all binding.bound.1, entry.Covers binding.bound.2 := by
  simp only [selectCapabilityBranchV1, accepted, ok_bind, availableMap_eq available, bind_eq_ok]
    at selects
  obtain ⟨held, ⟨merged, gathers, returned⟩, context, -, selects⟩ := selects
  cases merged with
  | none => cases returned
  | some merged =>
    cases returned
    obtain ⟨branch, branchIn, same, bound, merges, satisfied, bindings, authorities⟩ :=
      firstBranch_selects selects
    refine ⟨branch, branchIn, same, authorities.trans bindings.symm, fun name => ?_,
      fun binding listed => ?_⟩
    · rw [bindings]
      exact merges_mergeRequired merges name
    · have boundIn : binding.bound ∈ bound := bindings ▸ List.mem_map_of_mem listed
      obtain ⟨candidate, found, covers⟩ := satisfied binding.bound boundIn
      obtain ⟨some', whole⟩ := merges_mergeRequired gathers binding.bound.1
      refine ⟨fun none => ?_, (whole candidate found _).mp covers⟩
      rw [some'.mpr none] at found
      cases found

/-- The one available shell covers what is bound of the shell. -/
theorem selection_neverAmplifies_shell : ∃ selection,
    selectCapabilityBranchV1 asciiPlatform shellRequirement [availableShells ["a"]] firstContext =
      .ok (some selection) ∧ selection.bindings.length = 1 ∧
    ∃ requirement branch, normalizeCapabilityRequirementV1 asciiPlatform shellRequirement =
      .ok requirement ∧ branch ∈ requirement.anyOf ∧ selection.branchId = branch.branchId := by
  have selects : selectCapabilityBranchV1 asciiPlatform shellRequirement [availableShells ["a"]]
    firstContext = .ok (some _) := rfl
  obtain ⟨branch, branchIn, same, -⟩ := selection_neverAmplifies rfl
    (.cons ⟨rfl, rfl, rfl⟩ .nil : List.Forall₂ (AvailableCapabilityV1.IsAccepted asciiPlatform)
      [availableShells ["a"]] [⟨.processShell, _⟩]) selects
  exact ⟨_, selects, rfl, _, branch, rfl, branchIn, same⟩

end Granting

end Holonomy.Kernel
