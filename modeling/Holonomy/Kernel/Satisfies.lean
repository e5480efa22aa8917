import Holonomy.Kernel.Constraints

/-!
# Satisfaction of capability constraints

An available constraint satisfies a required one when it covers every part of it: required sets are
contained in available sets, required numbers stay below available numbers, and every required root
or endpoint lies in an available one. Both sides are normalized first.
-/

namespace Holonomy.Kernel

open Foundation

/-! ## The meet of capability constraints

Two constraints of one schema meet in the constraint both of them allow, or in nothing.
-/

/-- The values of both lists, in code unit order. -/
def intersect {α : Type} (text : α → Text) (left right : List α) : List α :=
  ((Precedence.ofLinear Text).comap text).sort
    (left.filter fun value => text value ∈ right.map text)

/-- The smaller one of every two limits. -/
def meetNumbers {κ : Type} (left right : Limits κ) : Limits κ :=
  fun key => min (left key) (right key)

/-- The longer prefix of two of which one extends the other. -/
def commonPrefix (left right : List Segment) : Option (List Segment) :=
  if left <+: right then some right else if right <+: left then some left else none

section Sets

variable {α κ : Type} {order : Precedence α} {key : α → κ} {minimum maximum : ℕ}

def intersectSet (text : α → Text)
    (agrees : ∀ left right, text left ≤ text right → order.before left right)
    (left right : KeyedSet order key minimum maximum) : KeyedSet order key 0 maximum where
  values := intersect text left.values right.values
  sorted := (((Precedence.ofLinear Text).comap text).sort_sorted _).imp fun before =>
    agrees _ _ before
  nodup := (((Precedence.sort_perm _ _).map key).nodup_iff).mpr
    (left.nodup.sublist (List.filter_sublist.map key))
  atLeast := Nat.zero_le _
  atMost := by
    rw [intersect, Precedence.length_sort]
    exact (List.length_filter_le _ _).trans left.atMost

def meetSet (text : α → Text)
    (agrees : ∀ left right, text left ≤ text right → order.before left right) (small : minimum ≤ 1)
    (left right : KeyedSet order key minimum maximum) :
    Option (KeyedSet order key minimum maximum) :=
  let values := intersectSet text agrees left right
  if emptied : values.values = [] ∧ left.values ≠ [] ∧ right.values ≠ [] then none
  else some { values with
    atLeast := by
      by_cases empty : values.values = []
      · by_cases leftEmpty : left.values = []
        · have bound := left.atLeast
          rw [leftEmpty] at bound
          exact bound.trans (Nat.zero_le _)
        · have rightEmpty : right.values = [] := by
            by_contra some_
            exact emptied ⟨empty, leftEmpty, some_⟩
          have bound := right.atLeast
          rw [rightEmpty] at bound
          exact bound.trans (Nat.zero_le _)
      · exact small.trans (List.length_pos_iff.mpr empty) }

variable {text : α → Text} {small : minimum ≤ 1} {left right : KeyedSet order key minimum maximum}
  {agrees : ∀ left right, text left ≤ text right → order.before left right}

theorem mem_intersect (text : α → Text) (left right : List α) (value : α) :
    value ∈ intersect text left right ↔ value ∈ left ∧ text value ∈ right.map text := by
  simp [intersect]

section

variable (separates : Function.Injective text)

include separates

theorem mem_intersectSet
    (agrees : ∀ left right, text left ≤ text right → order.before left right)
    (left right : KeyedSet order key minimum maximum) (value : α) :
    value ∈ (intersectSet text agrees left right).values
      ↔ value ∈ left.values ∧ value ∈ right.values := by
  rw [intersectSet, mem_intersect, List.mem_map_of_injective separates]

theorem mem_of_meetSet
    {met : KeyedSet order key minimum maximum}
    (same : meetSet text agrees small left right = some met) (value : α) :
    value ∈ met.values ↔ value ∈ left.values ∧ value ∈ right.values := by
  unfold meetSet at same
  dsimp only at same
  split at same
  · cases same
  · cases same
    exact mem_intersectSet separates agrees left right value

theorem meetSet_eq_none :
    meetSet text agrees small left right = none ↔ left.values ≠ [] ∧ right.values ≠ [] ∧
      ∀ value ∈ left.values, value ∉ right.values := by
  have empty : (intersectSet text agrees left right).values = []
      ↔ ∀ value ∈ left.values, value ∉ right.values := by
    rw [List.eq_nil_iff_forall_not_mem]
    simp only [mem_intersectSet separates, not_and]
  unfold meetSet
  simp only [dite_eq_left_iff, reduceCtorEq, imp_false, not_not, empty]
  tauto

end

end Sets

theorem literal_agrees {T : Type} [Literal T] (left right : T)
    (before : Literal.text left ≤ Literal.text right) : (Literal.order T).before left right :=
  (Literal.order_before left right).mpr before

def meetLiterals {T : Type} [Literal T] {minimum maximum : ℕ} (small : minimum ≤ 1)
    (left right : LiteralSet T minimum maximum) : Option (LiteralSet T minimum maximum) :=
  meetSet Literal.text literal_agrees small left right

def meetIdentifiers {maximum : ℕ} (left right : IdentifierSet maximum) :
    Option (IdentifierSet maximum) :=
  meetSet Identifier.text (fun _ _ before => before) (Nat.zero_le 1) left right

def meetDevicePrecision (left right : DevicePrecision) : DevicePrecision :=
  if left.rank ≤ right.rank then left else right

def meetSystemPrecision (left right : SystemPrecision) : SystemPrecision :=
  if left.rank ≤ right.rank then left else right

theorem commonPrefix_mem {left right met : List Segment}
    (same : commonPrefix left right = some met) :
    met = left ∨ met = right := by
  unfold commonPrefix at same
  split at same
  · exact .inr (Option.some.inj same).symm
  · split at same
    · exact .inl (Option.some.inj same).symm
    · cases same

def meetGrant (leftRoot rightRoot : FilesystemGrant) : Option FilesystemGrant :=
  if leftRoot.rootId ≠ rightRoot.rootId then none
  else
    match common : commonPrefix leftRoot.pathPrefixSegments rightRoot.pathPrefixSegments with
    | none => none
    | some pathPrefixSegments =>
      let rights := intersectSet Literal.text literal_agrees leftRoot.rights rightRoot.rights
      if empty : rights.values = [] then none
      else some {
        pathPrefixSegments
        shallow := (commonPrefix_mem common).elim (fun same => same ▸ leftRoot.shallow)
          (fun same => same ▸ rightRoot.shallow)
        rights := { rights with atLeast := List.length_pos_iff.mpr empty }
        rootId := leftRoot.rootId
        symlinks := if leftRoot.symlinks = .deny ∨ rightRoot.symlinks = .deny then .deny
          else .withinRoot }

def meetRoots (left right : List FilesystemGrant) : List FilesystemGrant :=
  left.flatMap fun leftRoot => right.filterMap fun rightRoot => meetGrant leftRoot rightRoot

def meetFs (left right : FilesystemConstraints) : Option FilesystemConstraints :=
  let roots := meetRoots left.roots right.roots
  if roots = [] then none
  else some { limits := meetNumbers left.limits right.limits, roots }

section Network

variable {platform : Platform}

theorem Origin.text_injective : Function.Injective (@Origin.text platform) := by
  intro left right same
  obtain ⟨text, url, parses, canonical⟩ := left
  obtain ⟨other, second, otherParses, otherCanonical⟩ := right
  cases same
  cases Option.some.inj (parses.symm.trans otherParses)
  rfl

def meetNetwork {mode : NetworkMode} (left right : NetworkConstraints platform mode) :
    Option (NetworkConstraints platform mode) :=
  let origins := intersectSet Origin.text (fun _ _ before => before) left.origins right.origins
  let schemes := intersectSet Literal.text literal_agrees left.schemes right.schemes
  if origins.values = [] ∨ schemes.values = [] then none
  else some {
    allowPrivateNetwork := left.allowPrivateNetwork && right.allowPrivateNetwork
    unexposed := fun mocked => by rw [left.unexposed mocked, Bool.false_and]
    inspectRequestBodyBytes := min left.inspectRequestBodyBytes right.inspectRequestBodyBytes
    limits := meetNumbers left.limits right.limits
    origins := origins
    schemes := schemes
    covered := by
      intro origin originIn
      have both := (mem_intersectSet Origin.text_injective _ _ _ origin).mp originIn
      obtain ⟨scheme, schemeIn, same⟩ := left.covered origin both.1
      obtain ⟨other, otherIn, otherSame⟩ := right.covered origin both.2
      have equal : scheme = other := Literal.text_injective (same.trans otherSame.symm)
      exact ⟨scheme, (mem_intersectSet Literal.text_injective _ _ _ scheme).mpr
        ⟨schemeIn, equal ▸ otherIn⟩, same⟩ }

def endpointAt (endpoints : List (Endpoint platform)) (key : Text) : Option (Endpoint platform) :=
  endpoints.reverse.find? fun endpoint => endpoint.key = key

def meetPorts (left right : PortSet) : Option PortSet :=
  let values := left.values.filter fun port => port ∈ right.values
  if empty : values = [] then none
  else some {
    values
    sorted := left.sorted.sublist List.filter_sublist
    nodup := left.nodup.sublist (List.filter_sublist.map id)
    atLeast := List.length_pos_iff.mpr empty
    atMost := (List.length_filter_le _ _).trans left.atMost }

def meetEndpoint (right : List (Endpoint platform)) (endpoint : Endpoint platform) :
    Option (Endpoint platform) := do
  let other ← endpointAt right endpoint.key
  let ports ← meetPorts endpoint.ports other.ports
  return { endpoint with ports }

theorem key_of_meetEndpoint {right : List (Endpoint platform)} {endpoint met : Endpoint platform}
    (same : meetEndpoint right endpoint = some met) : met.key = endpoint.key := by
  simp only [meetEndpoint, Option.bind_eq_bind, Option.bind_eq_some_iff, Option.pure_def,
    Option.some.injEq] at same
  obtain ⟨other, -, ports, -, rfl⟩ := same
  rfl

def meetEndpoints (left right : EndpointSet platform) : EndpointSet platform where
  values := left.values.filterMap (meetEndpoint right.values)
  sorted := by
    refine List.Pairwise.filterMap _ (fun first second before one oneIs other otherIs => ?_)
      left.sorted
    change platform.localeCompare.before one.key other.key
    rw [key_of_meetEndpoint oneIs, key_of_meetEndpoint otherIs]
    exact before
  nodup := by
    have distinct : left.values.Pairwise fun first second => first.key ≠ second.key :=
      List.pairwise_map.mp left.nodup
    refine List.pairwise_map.mpr (List.Pairwise.filterMap _ ?_ distinct)
    intro first second differs one oneIs other otherIs
    rw [key_of_meetEndpoint oneIs, key_of_meetEndpoint otherIs]
    exact differs
  atLeast := Nat.zero_le _
  atMost := (List.length_filterMap_le _ _).trans left.atMost

def meetProcessNetwork (left right : ProcessNetworkConstraints platform) :
    Option (ProcessNetworkConstraints platform) :=
  let endpoints := meetEndpoints left.endpoints right.endpoints
  if endpoints.values = [] then none
  else some {
    endpoints
    maxSockets := min left.maxSockets right.maxSockets
    privateNetwork := if left.privateNetwork = .allow ∧ right.privateNetwork = .allow then .allow
      else .deny }

end Network

def meetProcessExecution (left right : ProcessExecutionConstraints) :
    Option ProcessExecutionConstraints := do
  let executableIds ← meetIdentifiers left.executableIds right.executableIds
  return {
    executableIds
    limits := meetNumbers left.limits right.limits
    rootIds := intersectSet Identifier.text (fun _ _ before => before) left.rootIds right.rootIds }

def meetDevice (left right : DeviceConstraints) : Option DeviceConstraints := do
  let operations ← meetLiterals (le_refl 1) left.operations right.operations
  return {
    maxPrecision := meetDevicePrecision left.maxPrecision right.maxPrecision
    maxPrivacyTier := min left.maxPrivacyTier right.maxPrivacyTier
    maxQueuedEvents := min left.maxQueuedEvents right.maxQueuedEvents
    operations }

def meetSystem (left right : SystemConstraints) : Option SystemConstraints := do
  let fields ← meetLiterals (le_refl 1) left.fields right.fields
  let modes ← meetLiterals (le_refl 1) left.modes right.modes
  return { fields, maxPrecision := meetSystemPrecision left.maxPrecision right.maxPrecision, modes }

def meetProcessShell (left right : ProcessShellConstraints) : Option ProcessShellConstraints := do
  let executableIds ← meetIdentifiers left.executableIds right.executableIds
  return { executableIds }

def meetProcessSignal (left right : ProcessSignalConstraints) :
    Option ProcessSignalConstraints := do
  let signals ← meetLiterals (Nat.zero_le 1) left.signals right.signals
  return { signals }

def meetCredential (left right : CredentialConstraints) : Option CredentialConstraints := do
  let stores ← meetIdentifiers left.stores right.stores
  let usages ← meetLiterals (le_refl 1) left.usages right.usages
  return { stores, usages }

def meetReader (left right : ReaderConstraints) : Option ReaderConstraints :=
  some {
    maxReadBytes := min left.maxReadBytes right.maxReadBytes
    maxReads := min left.maxReads right.maxReads }

def meetConstraints (platform : Platform) : (schema : ConstraintSchema) →
    Constraints platform schema → Constraints platform schema →
    Js (Option (Constraints platform schema))
  | .filesystem, left, right => .ok (meetFs left right)
  | .network mode, left, right => .ok (@meetNetwork platform mode left right)
  | .device, left, right => .ok (meetDevice left right)
  | .system, left, right => .ok (meetSystem left right)
  | .processExecution, left, right => .ok (meetProcessExecution left right)
  | .processNetwork, left, right => .ok (meetProcessNetwork left right)
  | .processShell, left, right => .ok (meetProcessShell left right)
  | .processSignal, left, right => .ok (meetProcessSignal left right)
  | .storage, (left : StorageConstraints platform), (right : StorageConstraints platform) =>
    meetStorageCapabilityConstraintsV1 platform left.toJson right.toJson
  | .credential, left, right => .ok (meetCredential left right)
  | .reader, left, right => .ok (meetReader left right)

def meetCapabilityConstraintsV1 (platform : Platform) (name : CapabilityName)
    (leftValue rightValue : JsonValue) : Js (Option (Constraints platform name.schema)) := do
  let left ← normalizeCapabilityConstraintsV1 platform name leftValue
  let right ← normalizeCapabilityConstraintsV1 platform name rightValue
  meetConstraints platform name.schema left right

def SetAtLeast {α : Type} (text : α → Text) (available required : List α) : Prop :=
  ∀ value ∈ required, text value ∈ available.map text

def NumbersAtLeast {κ : Type} [Literal κ] (available required : Limits κ) : Prop :=
  ∀ key ∈ Literal.values (T := κ), required key ≤ available key

def FilesystemGrant.Contains (available required : FilesystemGrant) : Prop :=
  available.rootId = required.rootId ∧
    available.pathPrefixSegments <+: required.pathPrefixSegments ∧
    SetAtLeast Literal.text available.rights.values required.rights.values ∧
    (available.symlinks = .withinRoot ∨ required.symlinks = .deny)

instance {α : Type} (text : α → Text) (available required : List α) :
    Decidable (SetAtLeast text available required) :=
  inferInstanceAs (Decidable (∀ _ ∈ _, _))

instance {κ : Type} [Literal κ] (available required : Limits κ) :
    Decidable (NumbersAtLeast available required) :=
  inferInstanceAs (Decidable (∀ _ ∈ _, _))

instance (available required : FilesystemGrant) : Decidable (available.Contains required) :=
  inferInstanceAs (Decidable (_ ∧ _ ∧ _ ∧ _))

def FilesystemConstraints.Covers (available required : FilesystemConstraints) : Prop :=
  (∀ requiredRoot ∈ required.roots, ∃ availableRoot ∈ available.roots,
    availableRoot.Contains requiredRoot) ∧
    NumbersAtLeast available.limits required.limits

def NetworkConstraints.Covers {platform : Platform} {mode : NetworkMode}
    (available required : NetworkConstraints platform mode) : Prop :=
  SetAtLeast Origin.text available.origins.values required.origins.values ∧
    SetAtLeast Literal.text available.schemes.values required.schemes.values ∧
    (available.allowPrivateNetwork = true ∨ required.allowPrivateNetwork = false) ∧
    required.inspectRequestBodyBytes ≤ available.inspectRequestBodyBytes ∧
    NumbersAtLeast available.limits required.limits

def ProcessNetworkConstraints.Covers {platform : Platform}
    (available required : ProcessNetworkConstraints platform) : Prop :=
  (∀ endpoint ∈ required.endpoints.values,
    ∃ other ∈ endpointAt available.endpoints.values endpoint.key,
      ∀ port ∈ endpoint.ports.values, port ∈ other.ports.values) ∧
    required.maxSockets ≤ available.maxSockets ∧
    (required.privateNetwork ≠ .allow ∨ available.privateNetwork = .allow)

def DeviceConstraints.Covers (available required : DeviceConstraints) : Prop :=
  SetAtLeast Literal.text available.operations.values required.operations.values ∧
    required.maxPrivacyTier ≤ available.maxPrivacyTier ∧
    required.maxQueuedEvents ≤ available.maxQueuedEvents ∧
    required.maxPrecision.rank ≤ available.maxPrecision.rank

def SystemConstraints.Covers (available required : SystemConstraints) : Prop :=
  SetAtLeast Literal.text available.fields.values required.fields.values ∧
    SetAtLeast Literal.text available.modes.values required.modes.values ∧
    required.maxPrecision.rank ≤ available.maxPrecision.rank

def ProcessExecutionConstraints.Covers (available required : ProcessExecutionConstraints) : Prop :=
  SetAtLeast Identifier.text available.executableIds.values required.executableIds.values ∧
    SetAtLeast Identifier.text available.rootIds.values required.rootIds.values ∧
    NumbersAtLeast available.limits required.limits

def ProcessShellConstraints.Covers (available required : ProcessShellConstraints) : Prop :=
  SetAtLeast Identifier.text available.executableIds.values required.executableIds.values

def ProcessSignalConstraints.Covers (available required : ProcessSignalConstraints) : Prop :=
  SetAtLeast Literal.text available.signals.values required.signals.values

def CredentialConstraints.Covers (available required : CredentialConstraints) : Prop :=
  SetAtLeast Identifier.text available.stores.values required.stores.values ∧
    SetAtLeast Literal.text available.usages.values required.usages.values

def ReaderConstraints.Covers (available required : ReaderConstraints) : Prop :=
  required.maxReadBytes ≤ available.maxReadBytes ∧ required.maxReads ≤ available.maxReads

def Constraints.Covers {platform : Platform} : {schema : ConstraintSchema} →
    (available required : Constraints platform schema) → Prop
  | .filesystem, available, required => FilesystemConstraints.Covers available required
  | .network mode, available, required => @NetworkConstraints.Covers platform mode available
      required
  | .device, available, required => DeviceConstraints.Covers available required
  | .system, available, required => SystemConstraints.Covers available required
  | .processExecution, available, required =>
    ProcessExecutionConstraints.Covers available required
  | .processNetwork, available, required => ProcessNetworkConstraints.Covers available required
  | .processShell, available, required => ProcessShellConstraints.Covers available required
  | .processSignal, available, required => ProcessSignalConstraints.Covers available required
  | .storage, available, required => StorageConstraints.Covers available required
  | .credential, available, required => CredentialConstraints.Covers available required
  | .reader, available, required => ReaderConstraints.Covers available required

instance {platform : Platform} {mode : NetworkMode}
    (available required : NetworkConstraints platform mode) :
    Decidable (available.Covers required) :=
  inferInstanceAs (Decidable (_ ∧ _ ∧ _ ∧ _ ∧ _))

instance {platform : Platform} (available required : ProcessNetworkConstraints platform) :
    Decidable (available.Covers required) :=
  inferInstanceAs (Decidable (_ ∧ _ ∧ _))

instance {platform : Platform} {schema : ConstraintSchema}
    (available required : Constraints platform schema) : Decidable (available.Covers required) :=
  match schema, available, required with
  | .filesystem, _, _ => inferInstanceAs (Decidable ((∀ _ ∈ _, ∃ _ ∈ _, _) ∧ _))
  | .network _, (available : NetworkConstraints platform _), required =>
    inferInstanceAs (Decidable (available.Covers required))
  | .device, _, _ => inferInstanceAs (Decidable (_ ∧ _ ∧ _ ∧ _))
  | .system, _, _ => inferInstanceAs (Decidable (_ ∧ _ ∧ _))
  | .processExecution, _, _ => inferInstanceAs (Decidable (_ ∧ _ ∧ _))
  | .processNetwork, (available : ProcessNetworkConstraints platform), required =>
    inferInstanceAs (Decidable (available.Covers required))
  | .processShell, _, _ => inferInstanceAs (Decidable (SetAtLeast _ _ _))
  | .processSignal, _, _ => inferInstanceAs (Decidable (SetAtLeast _ _ _))
  | .storage, (available : StorageConstraints platform), required =>
    inferInstanceAs (Decidable (available.Covers required))
  | .credential, _, _ => inferInstanceAs (Decidable (_ ∧ _))
  | .reader, _, _ => inferInstanceAs (Decidable (_ ∧ _))

def satisfiesConstraints (platform : Platform) : (schema : ConstraintSchema) →
    (available required : Constraints platform schema) → Js Bool
  | .storage, (available : StorageConstraints platform), (required : StorageConstraints platform) =>
    storageCapabilitySatisfiesV1 platform available.toJson required.toJson
  | _, available, required => .ok (decide (available.Covers required))

def capabilitySatisfiesV1 (platform : Platform) (name : CapabilityName)
    (availableValue requiredValue : JsonValue) : Js Bool := do
  let available ← normalizeCapabilityConstraintsV1 platform name availableValue
  let required ← normalizeCapabilityConstraintsV1 platform name requiredValue
  satisfiesConstraints platform name.schema available required

theorem satisfiesConstraints_eq {platform : Platform} {schema : ConstraintSchema}
    (available required : Constraints platform schema) :
    satisfiesConstraints platform schema available required
      = .ok (decide (available.Covers required)) := by
  cases schema with
  | storage =>
    simp only [satisfiesConstraints, storageCapabilitySatisfiesV1]
    rw [normalizeStorageCapabilityConstraintsV1_toJson, ok_bind,
      normalizeStorageCapabilityConstraintsV1_toJson, ok_bind, pure_eq_ok]
    rfl
  | _ => rfl

end Holonomy.Kernel
