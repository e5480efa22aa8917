import Holonomy.Kernel.Selection

/-!
# The registry of capability resources

A provider publishes resources with the result of an invocation. The registry counts the references
to each resource, and one call publishes the resources one after the other: what the call did before
one of them is refused stays done.
-/

namespace Holonomy.Kernel

open Foundation

/-- What the registry throws. -/
inductive RegistryThrown where
  | contract (thrown : Thrown)
  | invocation (code operation : String) (bindingId : Text)

def capabilityFailure {α : Type} (code : String) (bindingId : Text) : Except RegistryThrown α :=
  .error (.invocation code "runtime.resource" bindingId)

structure CapabilityRuntimeIdentityV1 where
  generation : ℚ
  processId : Text

structure CapabilityProviderResourcePublicationV1 where
  bindingId : Text
  resourceType : Text
  eventSchemaId : Option Text
  resource : Option JsonValue
  subscribes : Bool

/-- The roles of a schema. -/
inductive OperationSchemaRoleV1 where
  | args | delivery | event | resource | result | tuple
  deriving DecidableEq

structure CapabilityResourceRecordV1 (platform : Platform) where
  identity : CapabilityRuntimeIdentityV1
  publication : CapabilityProviderResourcePublicationV1
  providerModule : Text
  resource : JsonValue
  selection : CapabilitySelectionV1 platform
  references : ℕ

structure CapabilityResourceRegistryV1 (platform : Platform) where
  identity : CapabilityRuntimeIdentityV1
  records : List (Text × CapabilityResourceRecordV1 platform)
  operationSchemaOwnerV1 : Text → Option (List OperationSchemaRoleV1)

structure ResourceFacadeBindingV1 where
  bindingId : Text
  generation : ℚ
  resourceType : Text

def resourceFacadeBindingV1 : JsonValue → Js (Option ResourceFacadeBindingV1)
  | .object candidate =>
    match member "binding" candidate, member "resourceType" candidate with
    | some (.object fields), some resourceType =>
      match member "bindingId" fields, member "generation" fields, resourceType with
      | some (.string bindingId), some (.number generation), .string resourceType => do
        let bindingId ← identifier (.string bindingId) 128
        let resourceType ← identifier (.string resourceType) 128
        return some ⟨bindingId.text, generation, resourceType.text⟩
      | _, _, _ => .ok none
    | _, _ => .ok none
  | _ => .ok none

def canonicalizeOpaqueHandleResource (platform : Platform) (bridgeIdentityDigest generation label
    resourceType rightsDigest : JsonValue) : Js JsonValue := do
  let resourceType ← identifier resourceType 128
  let generation ← integer generation 1 maxSafeInteger
  let rightsDigest ← digest rightsDigest
  let bridgeIdentityDigest ← digest bridgeIdentityDigest
  let semanticResourceDigest := canonicalDigest platform (.array [.string (js "opaqueHandle"),
    .string resourceType.text, natJson generation.val, .string rightsDigest.val,
    .string bridgeIdentityDigest.val])
  let label ← string label 256
  return .object [(js "bridgeIdentityDigest", .string bridgeIdentityDigest.val),
    (js "display", .object [(js "label", .string label)]),
    (js "generation", natJson generation.val), (js "kind", .string (js "opaqueHandle")),
    (js "resourceType", .string resourceType.text), (js "rightsDigest", .string rightsDigest.val),
    (js "schemaVersion", natJson 1),
    (js "semanticId", .string (resourceType.text ++ js ":" ++ bridgeIdentityDigest.val.take 16)),
    (js "semanticResourceDigest", .string semanticResourceDigest)]

namespace CapabilityResourceRegistryV1

variable {platform : Platform}

def get (registry : CapabilityResourceRegistryV1 platform) (bindingIdValue : JsonValue)
    (resourceTypeValue : Option JsonValue) :
    Except RegistryThrown (CapabilityResourceRecordV1 platform) := do
  let bindingId ← (identifier bindingIdValue 128).mapError .contract
  match registry.records.lookup bindingId.text with
  | none => capabilityFailure "runtime.generation_stale" bindingId.text
  | some record =>
    if record.identity.generation ≠ registry.identity.generation then
      capabilityFailure "runtime.generation_stale" bindingId.text
    else
      match resourceTypeValue with
      | none => return record
      | some resourceType => do
        let resourceType ← (identifier resourceType 128).mapError .contract
        if resourceType.text ≠ record.publication.resourceType then
          capabilityFailure "resource.invalid" bindingId.text
        else return record

def isPublished (publications : List CapabilityProviderResourcePublicationV1)
    (facade : ResourceFacadeBindingV1) : Bool :=
  publications.any fun item =>
    item.bindingId = facade.bindingId && item.resourceType = facade.resourceType

def counted (registry : CapabilityResourceRegistryV1 platform) (value : JsonValue)
    (publications : List CapabilityProviderResourcePublicationV1)
    (inheritedBindingId : Option Text) : Except RegistryThrown (Option Text) := do
  match ← (resourceFacadeBindingV1 value).mapError .contract with
  | none => return none
  | some facade =>
    if facade.generation ≠ registry.identity.generation then
      capabilityFailure "provider.protocol_error" facade.bindingId
    else if isPublished publications facade then return none
    else
      match registry.records.lookup facade.bindingId with
      | none => capabilityFailure "provider.protocol_error" facade.bindingId
      | some current =>
        if current.publication.resourceType ≠ facade.resourceType ∨
            current.identity.generation ≠ facade.generation then
          capabilityFailure "provider.protocol_error" facade.bindingId
        else if some facade.bindingId = inheritedBindingId then return none
        else return some facade.bindingId

def count (registry : CapabilityResourceRegistryV1 platform) (bindingId : Text) :
    CapabilityResourceRegistryV1 platform :=
  { registry with records := registry.records.map fun entry =>
      if entry.1 = bindingId then
        (entry.1, { entry.2 with references := entry.2.references + 1 })
      else entry }

def resourceOf (registry : CapabilityResourceRegistryV1 platform)
    (publication : CapabilityProviderResourcePublicationV1)
    (selection : CapabilitySelectionV1 platform) : Js JsonValue :=
  match publication.resource with
  | some resource => .ok resource
  | none => canonicalizeOpaqueHandleResource platform
    (.string (canonicalDigest platform (.array [.string (js "capabilityResource"),
      .string registry.identity.processId, .number registry.identity.generation,
      .string publication.bindingId, .string publication.resourceType])))
    (.number registry.identity.generation) (.string publication.resourceType)
    (.string publication.resourceType)
    (.string (canonicalDigest platform (.array (((Precedence.ofLinear Text).sort
        (selection.authorityBindings.map AuthorityBindingV1.authorityDigest)).map .string))))

def announces (registry : CapabilityResourceRegistryV1 platform)
    (publication : CapabilityProviderResourcePublicationV1) : Bool :=
  !publication.subscribes || publication.eventSchemaId.any fun schemaId =>
    (registry.operationSchemaOwnerV1 schemaId).any fun roles => .event ∈ roles

def publishOne (registry : CapabilityResourceRegistryV1 platform) (providerModule : Text)
    (selection : CapabilitySelectionV1 platform)
    (publication : CapabilityProviderResourcePublicationV1) :
    Except RegistryThrown (CapabilityResourceRegistryV1 platform) := do
  let bindingId ← (identifier (.string publication.bindingId) 128).mapError .contract
  let _ ← (identifier (.string publication.resourceType) 128).mapError .contract
  if bindingId.text ∈ registry.records.map Prod.fst then
    capabilityFailure "provider.protocol_error" bindingId.text
  else
    let resource ← (registry.resourceOf publication selection).mapError .contract
    if registry.announces publication then
      return { registry with records := registry.records ++ [(bindingId.text,
        ⟨registry.identity, publication, providerModule, resource, selection, 1⟩)] }
    else capabilityFailure "provider.protocol_error" bindingId.text

/-- Publish one resource after the other, up to the first that is refused. -/
def publishEach (providerModule : Text) (selection : CapabilitySelectionV1 platform) :
    List CapabilityProviderResourcePublicationV1 → CapabilityResourceRegistryV1 platform →
      Except RegistryThrown Unit × CapabilityResourceRegistryV1 platform
  | [], registry => (.ok (), registry)
  | publication :: rest, registry =>
    match registry.publishOne providerModule selection publication with
    | .error thrown => (.error thrown, registry)
    | .ok next => publishEach providerModule selection rest next

def publish (registry : CapabilityResourceRegistryV1 platform) (value : JsonValue)
    (publications : Option (List CapabilityProviderResourcePublicationV1)) (providerModule : Text)
    (selection : CapabilitySelectionV1 platform) (inheritedBindingId : Option Text) :
    Except RegistryThrown Unit × CapabilityResourceRegistryV1 platform :=
  match registry.counted value (publications.getD []) inheritedBindingId with
  | .error thrown => (.error thrown, registry)
  | .ok none => publishEach providerModule selection (publications.getD []) registry
  | .ok (some bindingId) =>
    publishEach providerModule selection (publications.getD []) (registry.count bindingId)

section Publications

variable {registry next : CapabilityResourceRegistryV1 platform} {providerModule : Text}
  {selection : CapabilitySelectionV1 platform}
  {publication : CapabilityProviderResourcePublicationV1}
  {publications : List CapabilityProviderResourcePublicationV1}

/-- A publication passes the checks that do not depend on the records. -/
def admits (registry : CapabilityResourceRegistryV1 platform)
    (selection : CapabilitySelectionV1 platform)
    (publication : CapabilityProviderResourcePublicationV1) : Bool :=
  (identifier (.string publication.bindingId) 128).isOk &&
    (identifier (.string publication.resourceType) 128).isOk &&
    (registry.resourceOf publication selection).isOk && registry.announces publication

def Publishable (admits : CapabilityProviderResourcePublicationV1 → Bool) :
    List Text → List CapabilityProviderResourcePublicationV1 → Prop
  | _, [] => True
  | known, publication :: rest =>
    (admits publication = true ∧ publication.bindingId ∉ known) ∧
      Publishable admits (known ++ [publication.bindingId]) rest

def Takes (registry : CapabilityResourceRegistryV1 platform)
    (selection : CapabilitySelectionV1 platform)
    (publications : List CapabilityProviderResourcePublicationV1) : Prop :=
  Publishable (registry.admits selection) (registry.records.map Prod.fst) publications

def Stands (registry : CapabilityResourceRegistryV1 platform) (value : JsonValue)
    (publications : List CapabilityProviderResourcePublicationV1) : Prop :=
  ∃ facade?, resourceFacadeBindingV1 value = .ok facade? ∧ ∀ facade ∈ facade?,
    facade.generation = registry.identity.generation ∧
      (isPublished publications facade = true ∨ ∃ record ∈ registry.records.lookup facade.bindingId,
          record.publication.resourceType = facade.resourceType ∧
            record.identity.generation = facade.generation)

def Refers (value : JsonValue) (publications : List CapabilityProviderResourcePublicationV1)
    (inheritedBindingId : Option Text) : Prop :=
  ∃ facade, resourceFacadeBindingV1 value = .ok (some facade) ∧
    isPublished publications facade = false ∧ some facade.bindingId ≠ inheritedBindingId

def RefusesFirst (registry : CapabilityResourceRegistryV1 platform) (value : JsonValue)
    (publications : List CapabilityProviderResourcePublicationV1)
    (selection : CapabilitySelectionV1 platform) (inheritedBindingId : Option Text) : Prop :=
  ¬ registry.Stands value publications ∨ registry.Takes selection publications ∨
    (¬ Refers value publications inheritedBindingId ∧
      ¬ registry.Takes selection (publications.take 1))

theorem identifier_text {text : Text} {accepted : Identifier 128}
    (admitted : identifier (.string text) 128 = .ok accepted) : accepted.text = text := by
  simp only [identifier, string, boundedText, bind_eq_ok, guarded_eq_ok] at admitted
  obtain ⟨result, ⟨-, given⟩, made⟩ := admitted
  cases given
  split_ifs at made
  · cases made
    rfl
  · cases made

theorem publishOne_eq_ok : registry.publishOne providerModule selection publication = .ok next ↔
    (registry.admits selection publication = true ∧
      publication.bindingId ∉ registry.records.map Prod.fst) ∧
    ∃ resource, registry.resourceOf publication selection = .ok resource ∧
      next = { registry with records := registry.records ++ [(publication.bindingId,
        ⟨registry.identity, publication, providerModule, resource, selection, 1⟩)] } := by
  unfold publishOne admits
  cases bound : identifier (.string publication.bindingId) 128 with
  | error => simp [Except.mapError, bind, Except.bind, Except.isOk, Except.toBool]
  | ok bindingId =>
    have same := identifier_text bound
    cases typed : identifier (.string publication.resourceType) 128 with
    | error => simp [Except.mapError, bind, Except.bind, Except.isOk, Except.toBool]
    | ok resourceType =>
      cases given : registry.resourceOf publication selection with
      | error =>
        by_cases known : publication.bindingId ∈ registry.records.map Prod.fst <;>
          simp [Except.mapError, bind, Except.bind, Except.isOk, Except.toBool, same, known,
            capabilityFailure]
      | ok resource =>
        by_cases known : publication.bindingId ∈ registry.records.map Prod.fst <;>
          cases announced : registry.announces publication <;>
          simp [Except.mapError, bind, Except.bind, Except.isOk, Except.toBool, same, known,
            capabilityFailure, pure, Except.pure, eq_comm]

theorem publishOne_isOk : (∃ next, registry.publishOne providerModule selection publication =
    .ok next) ↔ registry.admits selection publication = true ∧
      publication.bindingId ∉ registry.records.map Prod.fst := by
  refine ⟨fun ⟨next, made⟩ => (publishOne_eq_ok.mp made).1, fun fits => ?_⟩
  cases given : registry.resourceOf publication selection with
  | error thrown =>
    have admitted := fits.1
    unfold admits at admitted
    rw [given, Bool.and_eq_true, Bool.and_eq_true] at admitted
    cases admitted.1.2
  | ok resource => exact ⟨_, publishOne_eq_ok.mpr ⟨fits, resource, given, rfl⟩⟩

/-- Publishing fails exactly when the publications cannot be added; what was published stays, and
nothing was only where the first publication is refused. -/
theorem publishEach_spec (publications : List CapabilityProviderResourcePublicationV1)
    (registry : CapabilityResourceRegistryV1 platform) :
    ((publishEach providerModule selection publications registry).1 = .ok () ↔
      registry.Takes selection publications) ∧
    ∃ added, (publishEach providerModule selection publications registry).2 =
        { registry with records := registry.records ++ added } ∧
      (added = [] ↔ publications = [] ∨ ¬ registry.Takes selection (publications.take 1)) := by
  induction publications generalizing registry with
  | nil => exact ⟨⟨fun _ => trivial, fun _ => rfl⟩, [], by simp [publishEach], by simp⟩
  | cons publication rest ih =>
    have first : registry.Takes selection [publication] ↔
        ∃ next, registry.publishOne providerModule selection publication = .ok next := by
      rw [publishOne_isOk]
      exact and_iff_left trivial
    unfold publishEach
    cases made : registry.publishOne providerModule selection publication with
    | error thrown =>
      have refused : ¬ registry.Takes selection [publication] := by
        rw [first, made]
        exact fun ⟨next, made⟩ => by cases made
      refine ⟨⟨fun published => (by cases published), fun takes => ?_⟩, [], by simp,
        by simp [refused]⟩
      exact absurd ⟨takes.1, trivial⟩ refused
    | ok next =>
      obtain ⟨whole, added, same, -⟩ := ih next
      obtain ⟨fits, resource, -, isNext⟩ := publishOne_eq_ok.mp made
      have goesOn : next.Takes selection rest ↔ registry.Takes selection (publication :: rest) := by
        unfold Takes
        rw [isNext, List.map_append]
        exact (and_iff_right fits).symm
      refine ⟨whole.trans goesOn, (publication.bindingId,
        ⟨registry.identity, publication, providerModule, resource, selection, 1⟩) :: added, ?_, ?_⟩
      · rw [same, isNext, List.append_assoc]
        rfl
      · simp [first.mpr ⟨next, made⟩]

end Publications

section Results

variable {registry : CapabilityResourceRegistryV1 platform} {value : JsonValue}
  {publications : List CapabilityProviderResourcePublicationV1} {inheritedBindingId : Option Text}

/-- What is counted of the result of an invocation. -/
theorem counted_spec :
    ((∃ thrown, registry.counted value publications inheritedBindingId = .error thrown) ↔
      ¬ registry.Stands value publications) ∧
    (registry.counted value publications inheritedBindingId = .ok none →
      ¬ Refers value publications inheritedBindingId) ∧
    ∀ bindingId, registry.counted value publications inheritedBindingId = .ok (some bindingId) →
      Refers value publications inheritedBindingId ∧
        ∃ record, (bindingId, record) ∈ registry.records := by
  unfold counted Stands Refers
  cases facadeIs : resourceFacadeBindingV1 value with
  | error thrown => simp [Except.mapError, bind, Except.bind]
  | ok facade? =>
    cases facade? with
    | none => simp [Except.mapError, bind, Except.bind, pure, Except.pure]
    | some facade =>
      by_cases current : facade.generation = registry.identity.generation
      · cases published : isPublished publications facade with
        | true =>
          simp [Except.mapError, bind, Except.bind, pure, Except.pure, current, published]
        | false =>
          cases found : registry.records.lookup facade.bindingId with
          | none =>
            simp [Except.mapError, bind, Except.bind, current, published, found, capabilityFailure]
          | some record =>
            have kept : ∃ record, (facade.bindingId, record) ∈ registry.records := by
              obtain ⟨front, back, whole, -⟩ := List.lookup_eq_some_iff.mp found
              rw [whole]
              exact ⟨record, List.mem_append_right _ List.mem_cons_self⟩
            by_cases typed : record.publication.resourceType = facade.resourceType <;>
              by_cases aged : record.identity.generation = registry.identity.generation <;>
              by_cases inherited : some facade.bindingId = inheritedBindingId <;>
              simp [Except.mapError, bind, Except.bind, pure, Except.pure, current,
                published, found, capabilityFailure, typed, aged, inherited, kept]
      · simp [Except.mapError, bind, Except.bind, current, capabilityFailure]

theorem takes_count {selection : CapabilitySelectionV1 platform} (bindingId : Text) :
    (registry.count bindingId).Takes selection publications ↔
      registry.Takes selection publications := by
  have keys : (registry.count bindingId).records.map Prod.fst = registry.records.map Prod.fst := by
    unfold count
    rw [List.map_map]
    apply List.map_congr_left
    intro entry _
    rw [Function.comp_apply]
    split <;> rfl
  unfold Takes
  rw [keys]
  rfl

theorem count_ne {bindingId : Text} {record : CapabilityResourceRecordV1 platform}
    (recordIn : (bindingId, record) ∈ registry.records)
    (added : List (Text × CapabilityResourceRecordV1 platform)) :
    { registry.count bindingId with records := (registry.count bindingId).records ++ added } ≠
      registry := by
  intro same
  obtain ⟨index, here⟩ := List.mem_iff_getElem?.mp recordIn
  have records := congrArg (fun registry => registry.records[index]?) same
  obtain ⟨small, -⟩ := List.getElem?_eq_some_iff.mp here
  simp only [count] at records
  rw [List.getElem?_append_left (by simpa using small), List.getElem?_map, here, Option.map_some,
    if_pos rfl, Option.some.injEq, Prod.mk.injEq] at records
  have more := congrArg CapabilityResourceRecordV1.references records.2
  exact Nat.succ_ne_self _ more

/-- A call that throws leaves the registry as it was, for every lookup, exactly when nothing is
done before something is refused. -/
theorem publish_atomic_iff (registry : CapabilityResourceRegistryV1 platform) (value : JsonValue)
    (publications : Option (List CapabilityProviderResourcePublicationV1)) (providerModule : Text)
    (selection : CapabilitySelectionV1 platform) (inheritedBindingId : Option Text) :
    (∀ thrown, (registry.publish value publications providerModule selection
        inheritedBindingId).1 = .error thrown →
      (registry.publish value publications providerModule selection inheritedBindingId).2 =
        registry ∧
      ∀ bindingId resourceType, (registry.publish value publications providerModule selection
        inheritedBindingId).2.get bindingId resourceType = registry.get bindingId resourceType) ↔
    registry.RefusesFirst value (publications.getD []) selection inheritedBindingId := by
  have only (after : CapabilityResourceRegistryV1 platform) : (after = registry ∧
      ∀ bindingId resourceType, after.get bindingId resourceType =
        registry.get bindingId resourceType) ↔ after = registry :=
    ⟨And.left, fun same => ⟨same, fun _ _ => by rw [same]⟩⟩
  simp only [only]
  obtain ⟨refused, unreferred, referred⟩ :=
    @counted_spec _ registry value (publications.getD []) inheritedBindingId
  unfold publish RefusesFirst
  cases counted : registry.counted value (publications.getD []) inheritedBindingId with
  | error thrown => exact ⟨fun _ => .inl (refused.mp ⟨thrown, counted⟩), fun _ _ _ => rfl⟩
  | ok found =>
    have stands : registry.Stands value (publications.getD []) := by
      by_contra stands
      obtain ⟨thrown, failed⟩ := refused.mpr stands
      rw [counted] at failed
      cases failed
    cases found with
    | none =>
      obtain ⟨whole, added, same, first⟩ :=
        @publishEach_spec _ providerModule selection (publications.getD []) registry
      constructor
      · intro atomic
        by_cases all : registry.Takes selection (publications.getD [])
        · exact .inr (.inl all)
        · refine .inr (.inr ⟨unreferred counted, ?_⟩)
          cases result :
            (publishEach providerModule selection (publications.getD []) registry).1 with
          | ok done => exact absurd (whole.mp result) all
          | error thrown =>
            have unchanged := same.symm.trans (atomic thrown result)
            have none : added = [] := by
              simpa using congrArg CapabilityResourceRegistryV1.records unchanged
            rcases first.mp none with nothing | early
            · rw [nothing] at all
              exact absurd trivial all
            · exact early
      · rintro (fails | all | ⟨-, early⟩) thrown failed
        · exact absurd stands fails
        · rw [whole.mpr all] at failed
          cases failed
        · rw [same, first.mpr (.inr early), List.append_nil]
    | some bindingId =>
      obtain ⟨refers, record, recordIn⟩ := referred bindingId counted
      obtain ⟨whole, added, same, -⟩ := @publishEach_spec _ providerModule selection
        (publications.getD []) (registry.count bindingId)
      rw [takes_count] at whole
      constructor
      · intro atomic
        cases result : (publishEach providerModule selection (publications.getD [])
          (registry.count bindingId)).1 with
        | ok done => exact .inr (.inl (whole.mp result))
        | error thrown =>
          exact absurd (same.symm.trans (atomic thrown result)) (count_ne recordIn added)
      · rintro (fails | all | ⟨alone, -⟩) thrown failed
        · exact absurd stands fails
        · rw [whole.mpr all] at failed
          cases failed
        · exact absurd refers alone

end Results

def standalone : CapabilityProviderResourcePublicationV1 :=
  ⟨js "a", js "t", none, some (.object []), false⟩

/-- A selection without authorities. -/
def bareSelection : CapabilitySelectionV1 asciiPlatform :=
  ⟨[], [], ⟨js "b", by decide +kernel, by decide +kernel⟩, ⟨[]⟩⟩

/-- A binding that is published twice is refused the second time, and stays published. -/
theorem not_publish_atomic : ¬ ∀ (registry : CapabilityResourceRegistryV1 asciiPlatform)
    (value : JsonValue) (publications : Option (List CapabilityProviderResourcePublicationV1))
    (thrown : RegistryThrown),
    (registry.publish value publications [] bareSelection none).1 = .error thrown →
      (registry.publish value publications [] bareSelection none).2 = registry := by
  intro claimed
  have ran : ((publish ⟨⟨1, js "p"⟩, [], fun _ => none⟩ .null (some [standalone, standalone]) []
      bareSelection none).1.isOk, (publish ⟨⟨1, js "p"⟩, [], fun _ => none⟩ .null
        (some [standalone, standalone]) [] bareSelection none).2.records.length) = (false, 1) := by
    decide +kernel
  rw [Prod.mk.injEq] at ran
  cases result : (publish ⟨⟨1, js "p"⟩, [], fun _ => none⟩ .null (some [standalone, standalone]) []
      bareSelection none).1 with
  | ok done =>
    rw [result] at ran
    cases ran.1
  | error thrown =>
    have unchanged := claimed _ _ _ thrown result
    rw [unchanged] at ran
    cases ran.2

end CapabilityResourceRegistryV1

end Holonomy.Kernel
