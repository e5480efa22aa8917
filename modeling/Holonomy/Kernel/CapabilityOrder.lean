import Holonomy.Kernel.Ascii
import Holonomy.Kernel.Satisfies

/-!
# The meet in the capability order

Coverage orders the constraints of a schema. A meet covers exactly what both of its sides cover.
-/

namespace Holonomy.Kernel

open Foundation

section Sets

variable {α : Type} {text : α → Text}

variable {left right : List α}

section

variable (separates : Function.Injective text)

include separates

theorem setAtLeast_iff (available required : List α) :
    SetAtLeast text available required ↔ ∀ value ∈ required, value ∈ available := by
  simp only [SetAtLeast, List.mem_map_of_injective separates]

theorem setAtLeast_both {met : List α}
    (holds : ∀ value, value ∈ met ↔ value ∈ left ∧ value ∈ right) (required : List α) :
    SetAtLeast text met required ↔ SetAtLeast text left required ∧
    SetAtLeast text right required := by
  simp only [setAtLeast_iff separates, holds]
  exact forall₂_and

theorem setAtLeast_intersectSet {κ : Type}
    {order : Precedence α} {key : α → κ} {minimum maximum : ℕ}
    (agrees : ∀ left right, text left ≤ text right → order.before left right)
    (left right : KeyedSet order key minimum maximum) (required : List α) :
    SetAtLeast text (intersectSet text agrees left right).values required
      ↔ SetAtLeast text left.values required ∧ SetAtLeast text right.values required :=
  setAtLeast_both separates (mem_intersectSet separates agrees left right) required

theorem eq_nil_of_setAtLeast {required : List α}
    (apart : ∀ value ∈ left, value ∉ right) (leftCovers : SetAtLeast text left required)
    (rightCovers : SetAtLeast text right required) : required = [] := by
  rw [setAtLeast_iff separates] at leftCovers rightCovers
  refine List.eq_nil_iff_forall_not_mem.mpr fun value valueIn => ?_
  exact apart value (leftCovers value valueIn) (rightCovers value valueIn)

end

end Sets

variable {maximum : ℕ} {left right : List Segment} {platform : Platform}
  {endpoint : Endpoint platform}

theorem Identifier.text_injective : Function.Injective (@Identifier.text maximum) := by
  intro left right same
  cases left
  cases right
  cases same
  rfl

theorem numbersAtLeast_meetNumbers {κ : Type} [Literal κ] (left right required : Limits κ) :
    NumbersAtLeast (meetNumbers left right) required
      ↔ NumbersAtLeast left required ∧ NumbersAtLeast right required := by
  simp only [NumbersAtLeast, meetNumbers, le_min_iff]
  exact forall₂_and

theorem le_rank_meetDevicePrecision (left right : DevicePrecision) (rank : ℕ) :
    rank ≤ (meetDevicePrecision left right).rank ↔ rank ≤ left.rank ∧ rank ≤ right.rank := by
  unfold meetDevicePrecision
  split <;> omega

theorem le_rank_meetSystemPrecision (left right : SystemPrecision) (rank : ℕ) :
    rank ≤ (meetSystemPrecision left right).rank ↔ rank ≤ left.rank ∧ rank ≤ right.rank := by
  unfold meetSystemPrecision
  split <;> omega

theorem prefix_of_commonPrefix {met : List Segment} (same : commonPrefix left right = some met) :
    left <+: met ∧ right <+: met := by
  unfold commonPrefix at same
  split at same
  · next extends_ =>
    cases Option.some.inj same
    exact ⟨extends_, List.prefix_rfl⟩
  · split at same
    · next extended =>
      cases Option.some.inj same
      exact ⟨List.prefix_rfl, extended⟩
    · cases same

theorem commonPrefix_of_prefix {path : List Segment} (leftOf : left <+: path)
    (rightOf : right <+: path) : ∃ met, commonPrefix left right = some met ∧ met <+: path := by
  unfold commonPrefix
  by_cases forward : left <+: right
  · exact ⟨right, if_pos forward, rightOf⟩
  · have backward := (List.prefix_or_prefix_of_prefix leftOf rightOf).resolve_left forward
    exact ⟨left, by rw [if_neg forward, if_pos backward], leftOf⟩

theorem meetGrant_eq_some {left right met : FilesystemGrant} :
    meetGrant left right = some met ↔ left.rootId = right.rootId ∧ met.rootId = left.rootId ∧
      commonPrefix left.pathPrefixSegments right.pathPrefixSegments = some met.pathPrefixSegments ∧
      met.rights.values = intersect Literal.text left.rights.values right.rights.values ∧
      met.symlinks = if left.symlinks = .deny ∨ right.symlinks = .deny then .deny
        else .withinRoot := by
  unfold meetGrant
  split
  · next differs => simp [differs]
  · next same =>
    rw [not_not] at same
    split
    · next common => simp [common]
    · next segments common =>
      dsimp only
      split
      · next empty =>
        simp only [reduceCtorEq, false_iff, not_and]
        intro _ _ _ rights
        have filled := met.rights.atLeast
        rw [rights, show intersect _ _ _ = [] from empty] at filled
        simp at filled
      · next filled =>
        rw [Option.some.injEq]
        constructor
        · rintro rfl
          exact ⟨same, rfl, common, rfl, rfl⟩
        · obtain ⟨metSegments, metShallow, metRights, metRoot, metSymlinks⟩ := met
          rintro ⟨-, rootId, prefixes, rights, symlinks⟩
          cases Option.some.inj (common.symm.trans prefixes)
          dsimp only at rootId rights symlinks
          subst rootId symlinks
          congr 1
          exact KeyedSet.ext rights.symm

/-- A root lies in two roots exactly when it lies in their meet. -/
theorem contains_meetGrant (left right required : FilesystemGrant) :
    left.Contains required ∧ right.Contains required
      ↔ ∃ met, meetGrant left right = some met ∧ met.Contains required := by
  have rights := setAtLeast_both Literal.text_injective
    (fun value => (mem_intersect Literal.text left.rights.values right.rights.values value).trans
      (by rw [List.mem_map_of_injective Literal.text_injective])) required.rights.values
  constructor
  · rintro ⟨⟨leftRoot, leftPrefix, leftRights, leftLinks⟩,
      rightRoot, rightPrefix, rightRights, rightLinks⟩
    obtain ⟨segments, common, within⟩ := commonPrefix_of_prefix leftPrefix rightPrefix
    have granted := rights.mpr ⟨leftRights, rightRights⟩
    have filled : intersect Literal.text left.rights.values right.rights.values ≠ [] := by
      intro empty
      have nonempty := required.rights.atLeast
      obtain ⟨value, valueIn⟩ := List.exists_mem_of_length_pos nonempty
      rw [empty, setAtLeast_iff Literal.text_injective] at granted
      exact List.not_mem_nil (granted value valueIn)
    have met : ∃ met, meetGrant left right = some met := by
      unfold meetGrant
      rw [if_neg (by rw [leftRoot, rightRoot]; simp)]
      split
      · next absent => rw [absent] at common; cases common
      · exact ⟨_, dif_neg filled⟩
    obtain ⟨met, isMet⟩ := met
    obtain ⟨-, rootId, prefixes, metRights, symlinks⟩ := meetGrant_eq_some.mp isMet
    refine ⟨met, isMet, rootId.trans leftRoot, ?_, metRights ▸ granted, ?_⟩
    · rw [common, Option.some.injEq] at prefixes
      exact prefixes ▸ within
    · rw [symlinks]
      rcases leftLinks with leftLinks | denied
      · rcases rightLinks with rightLinks | denied
        · exact .inl (by rw [leftLinks, rightLinks]; rfl)
        · exact .inr denied
      · exact .inr denied
  · rintro ⟨met, isMet, root, within, granted, links⟩
    obtain ⟨same, rootId, prefixes, metRights, symlinks⟩ := meetGrant_eq_some.mp isMet
    obtain ⟨leftOf, rightOf⟩ := prefix_of_commonPrefix prefixes
    obtain ⟨leftRights, rightRights⟩ := rights.mp (metRights ▸ granted)
    have followed (side : SymlinkPolicy) (named : side = left.symlinks ∨ side = right.symlinks) :
        side = .withinRoot ∨ required.symlinks = .deny := by
      refine links.imp_left fun follows => ?_
      rw [symlinks] at follows
      split at follows
      · cases follows
      · next allowed =>
        push Not at allowed
        rcases named with rfl | rfl
        · cases side : left.symlinks with
          | deny => exact absurd side allowed.1
          | withinRoot => rfl
        · cases side : right.symlinks with
          | deny => exact absurd side allowed.2
          | withinRoot => rfl
    exact ⟨⟨rootId ▸ root, leftOf.trans within, leftRights, followed _ (.inl rfl)⟩,
      ⟨same ▸ rootId ▸ root, rightOf.trans within, rightRights, followed _ (.inr rfl)⟩⟩

theorem contains_meetRoots (left right : List FilesystemGrant) (required : FilesystemGrant) :
    (∃ met ∈ meetRoots left right, met.Contains required)
      ↔ (∃ root ∈ left, root.Contains required) ∧ ∃ root ∈ right, root.Contains required := by
  simp only [meetRoots, List.mem_flatMap, List.mem_filterMap]
  constructor
  · rintro ⟨met, ⟨leftRoot, leftIn, rightRoot, rightIn, isMet⟩, contains⟩
    have both := (contains_meetGrant leftRoot rightRoot required).mpr ⟨met, isMet, contains⟩
    exact ⟨⟨leftRoot, leftIn, both.1⟩, rightRoot, rightIn, both.2⟩
  · rintro ⟨⟨leftRoot, leftIn, leftContains⟩, rightRoot, rightIn, rightContains⟩
    obtain ⟨met, isMet, contains⟩ :=
      (contains_meetGrant leftRoot rightRoot required).mp ⟨leftContains, rightContains⟩
    exact ⟨met, ⟨leftRoot, leftIn, rightRoot, rightIn, isMet⟩, contains⟩

theorem covers_meetFs {left right met : FilesystemConstraints}
    (isMet : meetFs left right = some met)
    (required : FilesystemConstraints) :
    met.Covers required ↔ left.Covers required ∧ right.Covers required := by
  unfold meetFs at isMet
  dsimp only at isMet
  split at isMet
  · cases isMet
  · cases isMet
    simp only [FilesystemConstraints.Covers, contains_meetRoots, numbersAtLeast_meetNumbers,
      imp_and, forall_and]
    tauto

theorem not_covers_of_meetFs {left right required : FilesystemConstraints}
    (apart : meetFs left right = none) (rooted : required.roots ≠ [])
    (leftCovers : left.Covers required) : ¬ right.Covers required := by
  intro rightCovers
  obtain ⟨root, rootIn⟩ := List.exists_mem_of_ne_nil _ rooted
  obtain ⟨met, metIn, -⟩ := (contains_meetRoots left.roots right.roots root).mpr
    ⟨leftCovers.1 root rootIn, rightCovers.1 root rootIn⟩
  unfold meetFs at apart
  simp only [ite_eq_left_iff, reduceCtorEq, imp_false, not_not] at apart
  rw [apart] at metIn
  cases metIn

theorem covers_meetNetwork {mode : NetworkMode} {left right met : NetworkConstraints platform mode}
    (isMet : meetNetwork left right = some met) (required : NetworkConstraints platform mode) :
    met.Covers required ↔ left.Covers required ∧ right.Covers required := by
  unfold meetNetwork at isMet
  dsimp only at isMet
  split at isMet
  · cases isMet
  · cases isMet
    have origins := setAtLeast_intersectSet Origin.text_injective (fun _ _ before => before)
      left.origins right.origins required.origins.values
    simp only [NetworkConstraints.Covers, numbersAtLeast_meetNumbers, le_min_iff, Bool.and_eq_true,
      setAtLeast_intersectSet Literal.text_injective]
    rw [origins]
    tauto

theorem endpointAt_eq_some (set : EndpointSet platform) (key : Text)
    (endpoint : Endpoint platform) :
    endpointAt set.values key = some endpoint ↔ endpoint ∈ set.values ∧ endpoint.key = key := by
  constructor
  · intro found
    exact ⟨List.mem_reverse.mp (List.mem_of_find?_eq_some found),
      by simpa using List.find?_some found⟩
  · rintro ⟨endpointIn, rfl⟩
    cases found : endpointAt set.values endpoint.key with
    | none =>
      have missing := List.find?_eq_none.mp found endpoint (List.mem_reverse.mpr endpointIn)
      simp at missing
    | some other =>
      have otherIn := List.mem_reverse.mp (List.mem_of_find?_eq_some found)
      have same : other.key = endpoint.key := by simpa using List.find?_some found
      rw [List.inj_on_of_nodup_map set.nodup otherIn endpointIn same]

theorem meetEndpoint_eq_some {right : EndpointSet platform} {met : Endpoint platform}
    (isMet : meetEndpoint right.values endpoint = some met) :
    ∃ other ∈ right.values, other.key = endpoint.key ∧
      ∀ port, port ∈ met.ports.values ↔ port ∈ endpoint.ports.values ∧
        port ∈ other.ports.values := by
  simp only [meetEndpoint, Option.bind_eq_bind, Option.bind_eq_some_iff, Option.pure_def,
    Option.some.injEq] at isMet
  obtain ⟨other, found, ports, both, rfl⟩ := isMet
  obtain ⟨otherIn, same⟩ := (endpointAt_eq_some right _ _).mp found
  refine ⟨other, otherIn, same, fun port => ?_⟩
  unfold meetPorts at both
  dsimp only at both
  split at both
  · cases both
  · cases both
    simp

theorem exists_meetEndpoint {right : EndpointSet platform} {other : Endpoint platform}
    (otherIn : other ∈ right.values) (same : other.key = endpoint.key) {port : Bounded 1 65535}
    (portIn : port ∈ endpoint.ports.values) (otherPort : port ∈ other.ports.values) :
    ∃ met, meetEndpoint right.values endpoint = some met := by
  have shared : endpoint.ports.values.filter (fun port => port ∈ other.ports.values) ≠ [] :=
    List.ne_nil_of_mem (List.mem_filter.mpr ⟨portIn, by simpa using otherPort⟩)
  obtain ⟨ports, both⟩ : ∃ ports, meetPorts endpoint.ports other.ports = some ports :=
    ⟨_, dif_neg shared⟩
  refine ⟨{ endpoint with ports }, ?_⟩
  rw [meetEndpoint, (endpointAt_eq_some right _ other).mpr ⟨otherIn, same⟩, Option.bind_eq_bind,
    Option.bind_some, both]
  rfl

def Endpoint.Within {platform : Platform} (endpoint : Endpoint platform)
    (available : EndpointSet platform) : Prop :=
  ∃ other ∈ endpointAt available.values endpoint.key,
    ∀ port ∈ endpoint.ports.values, port ∈ other.ports.values

theorem within_meetEndpoints (left right : EndpointSet platform) (endpoint : Endpoint platform) :
    endpoint.Within (meetEndpoints left right)
      ↔ endpoint.Within left ∧ endpoint.Within right := by
  have listed := endpointAt_eq_some (meetEndpoints left right) endpoint.key
  constructor
  · rintro ⟨met, found, ports⟩
    obtain ⟨metIn, metKey⟩ := (listed met).mp found
    obtain ⟨source, sourceIn, isMet⟩ := List.mem_filterMap.mp metIn
    obtain ⟨other, otherIn, otherKey, both⟩ := meetEndpoint_eq_some isMet
    have sourceKey : source.key = endpoint.key := (key_of_meetEndpoint isMet).symm.trans metKey
    exact ⟨⟨source, (endpointAt_eq_some left _ _).mpr ⟨sourceIn, sourceKey⟩,
        fun port portIn => ((both port).mp (ports port portIn)).1⟩,
      other, (endpointAt_eq_some right _ _).mpr ⟨otherIn, otherKey.trans sourceKey⟩,
        fun port portIn => ((both port).mp (ports port portIn)).2⟩
  · rintro ⟨⟨source, found, leftPorts⟩, other, otherFound, rightPorts⟩
    obtain ⟨sourceIn, sourceKey⟩ := (endpointAt_eq_some left _ _).mp found
    obtain ⟨otherIn, otherKey⟩ := (endpointAt_eq_some right _ _).mp otherFound
    obtain ⟨port, portIn⟩ := List.exists_mem_of_length_pos endpoint.ports.atLeast
    obtain ⟨met, isMet⟩ := exists_meetEndpoint otherIn (otherKey.trans sourceKey.symm)
      (leftPorts port portIn) (rightPorts port portIn)
    obtain ⟨second, secondIn, secondKey, both⟩ := meetEndpoint_eq_some isMet
    have same : second = other :=
      List.inj_on_of_nodup_map right.nodup secondIn otherIn
        (secondKey.trans (sourceKey.trans otherKey.symm))
    subst same
    refine ⟨met, (listed met).mpr ⟨List.mem_filterMap.mpr ⟨source, sourceIn, isMet⟩,
      (key_of_meetEndpoint isMet).trans sourceKey⟩, fun port portIn => ?_⟩
    exact (both port).mpr ⟨leftPorts port portIn, rightPorts port portIn⟩

theorem covers_meetProcessNetwork {left right met : ProcessNetworkConstraints platform}
    (isMet : meetProcessNetwork left right = some met)
    (required : ProcessNetworkConstraints platform) :
    met.Covers required ↔ left.Covers required ∧ right.Covers required := by
  unfold meetProcessNetwork at isMet
  dsimp only at isMet
  split at isMet
  · cases isMet
  · cases isMet
    have endpoints (endpoint : Endpoint platform) :=
      within_meetEndpoints left.endpoints right.endpoints endpoint
    simp only [Endpoint.Within] at endpoints
    simp only [ProcessNetworkConstraints.Covers, endpoints, le_min_iff, imp_and, forall_and]
    by_cases both : left.privateNetwork = .allow ∧ right.privateNetwork = .allow
    · simp only [both.1, both.2, and_self, if_true]
      tauto
    · rw [if_neg both]
      simp only [reduceCtorEq, or_false]
      tauto

theorem setAtLeast_meetLiterals {T : Type} [Literal T] {minimum : ℕ} {small : minimum ≤ 1}
    {left right met : LiteralSet T minimum maximum}
    (isMet : meetLiterals small left right = some met) (required : List T) :
    SetAtLeast Literal.text met.values required
      ↔ SetAtLeast Literal.text left.values required ∧
        SetAtLeast Literal.text right.values required :=
  setAtLeast_both Literal.text_injective (mem_of_meetSet Literal.text_injective isMet) required

theorem setAtLeast_meetIdentifiers {left right met : IdentifierSet maximum}
    (isMet : meetIdentifiers left right = some met) (required : List (Identifier 128)) :
    SetAtLeast Identifier.text met.values required ↔
      SetAtLeast Identifier.text left.values required ∧
        SetAtLeast Identifier.text right.values required :=
  setAtLeast_both Identifier.text_injective (mem_of_meetSet Identifier.text_injective isMet)
    required

theorem mem_commonPrefixes (left right : List Text) (scope : Text) :
    scope ∈ commonPrefixes left right
      ↔ ∃ a ∈ left, ∃ b ∈ right, (b <+: a ∧ scope = a) ∨ (¬ b <+: a ∧ a <+: b ∧ scope = b) := by
  simp only [commonPrefixes, Precedence.mem_sort, List.mem_dedup, List.mem_flatMap,
    List.isPrefixOf_iff_prefix]
  refine exists_congr fun a => and_congr_right fun _ => exists_congr fun b =>
    and_congr_right fun _ => ?_
  by_cases forward : b <+: a
  · simp [forward]
  · by_cases backward : a <+: b <;> simp [forward, backward]

theorem prefixed_commonPrefixes (left right : List Text) (text : Text) :
    (∃ scope ∈ commonPrefixes left right, scope <+: text)
      ↔ (∃ scope ∈ left, scope <+: text) ∧ ∃ scope ∈ right, scope <+: text := by
  simp only [mem_commonPrefixes]
  constructor
  · rintro ⟨scope, ⟨a, aIn, b, bIn, ⟨forward, rfl⟩ | ⟨-, backward, rfl⟩⟩, within⟩
    · exact ⟨⟨scope, aIn, within⟩, b, bIn, forward.trans within⟩
    · exact ⟨⟨a, aIn, backward.trans within⟩, scope, bIn, within⟩
  · rintro ⟨⟨a, aIn, leftOf⟩, b, bIn, rightOf⟩
    by_cases forward : b <+: a
    · exact ⟨a, ⟨a, aIn, b, bIn, .inl ⟨forward, rfl⟩⟩, leftOf⟩
    · have backward := (List.prefix_or_prefix_of_prefix leftOf rightOf).resolve_right forward
      exact ⟨b, ⟨a, aIn, b, bIn, .inr ⟨forward, backward, rfl⟩⟩, rightOf⟩

section Storage

variable {platform : Platform} {left right : StorageConstraints platform}

def StorageConstraints.sharedOperations (left right : StorageConstraints platform) :
    List StorageOperation :=
  left.entry.operations.values.filter (· ∈ right.entry.operations.values)

def StorageConstraints.MeetsIn (left right : StorageConstraints platform) :
    Option (StorageConstraints platform) → Prop
  | none => left.entry.namespaceId ≠ right.entry.namespaceId ∨ left.sharedOperations right = [] ∨
      ((∃ operation ∈ left.sharedOperations right, operation.isKv = true) ∧
        commonPrefixes left.entry.keyPrefixes.texts right.entry.keyPrefixes.texts = []) ∨
      ((∃ operation ∈ left.sharedOperations right, operation.isSqlite = true) ∧
        ∀ database ∈ left.entry.databases.texts, database ∉ right.entry.databases.texts)
  | some met => left.entry.namespaceId = right.entry.namespaceId ∧
      met.entry.namespaceId = left.entry.namespaceId ∧
      (∀ name, met.limits name = min (left.limits name) (right.limits name)) ∧
      (∀ operation, operation ∈ met.entry.operations.values ↔
        operation ∈ left.entry.operations.values ∧ operation ∈ right.entry.operations.values) ∧
      (∀ database, database ∈ met.entry.databases.texts ↔
        database ∈ left.entry.databases.texts ∧ database ∈ right.entry.databases.texts) ∧
      ∀ scope, scope ∈ met.entry.keyPrefixes.texts ↔
        scope ∈ commonPrefixes left.entry.keyPrefixes.texts right.entry.keyPrefixes.texts

theorem meetsIn_of_meetStorage {met : Option (StorageConstraints platform)}
    (isMet : meetStorageCapabilityConstraintsV1 platform left.toJson right.toJson = .ok met) :
    left.MeetsIn right met := by
  rw [meetStorageCapabilityConstraintsV1, normalizeStorageCapabilityConstraintsV1_toJson, ok_bind,
    normalizeStorageCapabilityConstraintsV1_toJson, ok_bind] at isMet
  split at isMet
  · next differs =>
    cases isMet
    exact .inl differs
  · next same =>
    rw [not_not] at same
    dsimp only at isMet
    split at isMet
    · next nothing =>
      cases isMet
      exact .inr (.inl nothing)
    · split at isMet
      · next unkeyed =>
        cases isMet
        exact .inr (.inr (.inl unkeyed))
      · split at isMet
        · next unstored =>
          cases isMet
          refine .inr (.inr (.inr ⟨unstored.1, ?_⟩))
          simpa [List.filter_eq_nil_iff] using unstored.2
        · rw [bind_eq_ok] at isMet
          obtain ⟨parts, accepted, returned_⟩ := isMet
          cases returned_
          obtain ⟨limits, namespaceId, databases, keyPrefixes, operations⟩ :=
            parts_of_normalizeStorage accepted
          refine ⟨same, Identifier.text_injective namespaceId, fun name => ?_, fun operation => ?_,
            fun database => ?_, fun scope => keyPrefixes.mem_iff⟩
          · rw [limits]
          · rw [operations.mem_iff]
            simp
          · rw [databases.mem_iff]
            simp

theorem covers_meetStorage {met : StorageConstraints platform}
    (isMet : meetStorageCapabilityConstraintsV1 platform left.toJson right.toJson = .ok (some met))
    (required : StorageConstraints platform) :
    met.Covers required ↔ left.Covers required ∧ right.Covers required := by
  obtain ⟨same, namespaceId, limits, operations, databases, keyPrefixes⟩ :=
    meetsIn_of_meetStorage isMet
  have scopes (text : Text) : (∃ scope ∈ met.entry.keyPrefixes.texts, scope <+: text)
      ↔ (∃ scope ∈ left.entry.keyPrefixes.texts, scope <+: text) ∧
        ∃ scope ∈ right.entry.keyPrefixes.texts, scope <+: text := by
    simp only [keyPrefixes, prefixed_commonPrefixes]
  simp only [StorageConstraints.Covers, List.isPrefixOf_iff_prefix, scopes, operations, databases,
    limits, namespaceId, ← same, le_min_iff, imp_and, forall_and]
  tauto

end Storage

/-- Two lists share no value, and the third holds none. -/
def Emptied {α : Type} (left right required : List α) : Prop :=
  (∀ value ∈ left, value ∉ right) ∧ required = []

def Constraints.Relinquished {platform : Platform} : {schema : ConstraintSchema} →
    (left right required : Constraints platform schema) → Prop
  | .filesystem, _, _, _ | .device, _, _, _ | .system, _, _, _ | .reader, _, _, _ => False
  | .network _, (left : NetworkConstraints platform _), (right : NetworkConstraints platform _),
      (required : NetworkConstraints platform _) =>
    Emptied left.origins.values right.origins.values required.origins.values ∨
      Emptied left.schemes.values right.schemes.values required.schemes.values
  | .processExecution, (left : ProcessExecutionConstraints),
      (right : ProcessExecutionConstraints), (required : ProcessExecutionConstraints) =>
    Emptied left.executableIds.values right.executableIds.values required.executableIds.values
  | .processNetwork, (left : ProcessNetworkConstraints platform),
      (right : ProcessNetworkConstraints platform),
        (required : ProcessNetworkConstraints platform) =>
    (meetEndpoints left.endpoints right.endpoints).values = [] ∧ required.endpoints.values = []
  | .processShell, (left : ProcessShellConstraints), (right : ProcessShellConstraints),
      (required : ProcessShellConstraints) =>
    Emptied left.executableIds.values right.executableIds.values required.executableIds.values
  | .processSignal, (left : ProcessSignalConstraints), (right : ProcessSignalConstraints),
      (required : ProcessSignalConstraints) =>
    Emptied left.signals.values right.signals.values required.signals.values
  | .storage, (left : StorageConstraints platform), (right : StorageConstraints platform),
      (required : StorageConstraints platform) =>
    (commonPrefixes left.entry.keyPrefixes.texts right.entry.keyPrefixes.texts = [] ∧
        required.entry.keyPrefixes.texts = []) ∨
      Emptied left.entry.databases.texts right.entry.databases.texts required.entry.databases.texts
  | .credential, (left : CredentialConstraints), (right : CredentialConstraints),
      (required : CredentialConstraints) =>
    Emptied left.stores.values right.stores.values required.stores.values

section Order

variable {platform : Platform}

variable {schema : ConstraintSchema} {α κ : Type} {minimum maximum : ℕ} {name : CapabilityName}
  {left right : Constraints platform schema} {text : α → Text} {order : Precedence α}
  {required : List α} {key : α → κ}

/-- A returned meet covers what both sides cover. -/
theorem covers_meetConstraints {met : Constraints platform schema}
    (isMet : meetConstraints platform schema left right = .ok (some met))
    (required : Constraints platform schema) :
    met.Covers required ↔ left.Covers required ∧ right.Covers required := by
  cases schema with
  | filesystem => exact covers_meetFs (Except.ok.inj isMet) required
  | network mode => exact covers_meetNetwork (Except.ok.inj isMet) required
  | processNetwork => exact covers_meetProcessNetwork (Except.ok.inj isMet) required
  | storage => exact covers_meetStorage isMet required
  | device =>
    have parts := Except.ok.inj isMet
    simp only [meetDevice, Option.bind_eq_bind, Option.bind_eq_some_iff, Option.pure_def,
      Option.some.injEq] at parts
    obtain ⟨operations, operationsMet, rfl⟩ := parts
    simp only [Constraints.Covers, DeviceConstraints.Covers, setAtLeast_meetLiterals operationsMet,
      le_min_iff, le_rank_meetDevicePrecision]
    tauto
  | system =>
    have parts := Except.ok.inj isMet
    simp only [meetSystem, Option.bind_eq_bind, Option.bind_eq_some_iff, Option.pure_def,
      Option.some.injEq] at parts
    obtain ⟨fields, fieldsMet, modes, modesMet, rfl⟩ := parts
    simp only [Constraints.Covers, SystemConstraints.Covers, setAtLeast_meetLiterals fieldsMet,
      setAtLeast_meetLiterals modesMet, le_rank_meetSystemPrecision]
    tauto
  | processExecution =>
    have parts := Except.ok.inj isMet
    simp only [meetProcessExecution, Option.bind_eq_bind, Option.bind_eq_some_iff, Option.pure_def,
      Option.some.injEq] at parts
    obtain ⟨executables, executablesMet, rfl⟩ := parts
    have roots := setAtLeast_intersectSet Identifier.text_injective (fun _ _ before => before)
      left.rootIds right.rootIds required.rootIds.values
    simp only [Constraints.Covers, ProcessExecutionConstraints.Covers,
      setAtLeast_meetIdentifiers executablesMet, numbersAtLeast_meetNumbers]
    rw [roots]
    tauto
  | processShell =>
    have parts := Except.ok.inj isMet
    simp only [meetProcessShell, Option.bind_eq_bind, Option.bind_eq_some_iff, Option.pure_def,
      Option.some.injEq] at parts
    obtain ⟨executables, executablesMet, rfl⟩ := parts
    exact setAtLeast_meetIdentifiers executablesMet _
  | processSignal =>
    have parts := Except.ok.inj isMet
    simp only [meetProcessSignal, Option.bind_eq_bind, Option.bind_eq_some_iff, Option.pure_def,
      Option.some.injEq] at parts
    obtain ⟨signals, signalsMet, rfl⟩ := parts
    exact setAtLeast_meetLiterals signalsMet _
  | credential =>
    have parts := Except.ok.inj isMet
    simp only [meetCredential, Option.bind_eq_bind, Option.bind_eq_some_iff, Option.pure_def,
      Option.some.injEq] at parts
    obtain ⟨stores, storesMet, usages, usagesMet, rfl⟩ := parts
    simp only [Constraints.Covers, CredentialConstraints.Covers,
      setAtLeast_meetIdentifiers storesMet, setAtLeast_meetLiterals usagesMet]
    tauto
  | reader =>
    have parts := Except.ok.inj isMet
    simp only [meetReader, Option.some.injEq] at parts
    subst parts
    simp only [Constraints.Covers, ReaderConstraints.Covers, le_min_iff]
    tauto

theorem emptied_of_intersectSet (separates : Function.Injective text)
    {agrees : ∀ left right, text left ≤ text right → order.before left right}
    {left right : KeyedSet order key minimum maximum}
    (empty : (intersectSet text agrees left right).values = [])
    (leftCovers : SetAtLeast text left.values required)
    (rightCovers : SetAtLeast text right.values required) :
    Emptied left.values right.values required := by
  have apart : ∀ value ∈ left.values, value ∉ right.values := by
    intro value leftIn rightIn
    have both := (mem_intersectSet separates agrees left right value).mpr ⟨leftIn, rightIn⟩
    rw [empty] at both
    cases both
  exact ⟨apart, eq_nil_of_setAtLeast separates apart leftCovers rightCovers⟩

theorem emptied_of_meetSet (separates : Function.Injective text)
    {agrees : ∀ left right, text left ≤ text right → order.before left right} {small : minimum ≤ 1}
    {left right : KeyedSet order key minimum maximum}
    (gaveUp : meetSet text agrees small left right = none)
    (leftCovers : SetAtLeast text left.values required)
    (rightCovers : SetAtLeast text right.values required) :
    Emptied left.values right.values required := by
  obtain ⟨-, -, apart⟩ := (meetSet_eq_none separates).mp gaveUp
  exact ⟨apart, eq_nil_of_setAtLeast separates apart leftCovers rightCovers⟩

theorem not_emptied {left right : List α} (required : KeyedSet order key 1 maximum) :
    ¬ Emptied left right required.values := by
  rintro ⟨-, empty⟩
  have filled := required.atLeast
  rw [empty] at filled
  exact absurd filled (by simp)

/-- Where two constraints do not meet, what both cover leaves an emptied list empty. -/
theorem relinquished_of_meetConstraints {required : Constraints platform schema}
    (apart : meetConstraints platform schema left right = .ok none) (normal : required.Normal)
    (leftCovers : left.Covers required) (rightCovers : right.Covers required) :
    left.Relinquished right required := by
  cases schema with
  | filesystem =>
    have rooted : (required : FilesystemConstraints).roots ≠ [] :=
      List.ne_nil_of_length_pos (FilesystemConstraints.Normal.some normal)
    exact not_covers_of_meetFs (Except.ok.inj apart) rooted leftCovers rightCovers
  | network mode =>
    have gaveUp := Except.ok.inj apart
    simp only [meetNetwork, ite_eq_left_iff, reduceCtorEq, imp_false, not_not] at gaveUp
    rcases gaveUp with origins | schemes
    · exact .inl (emptied_of_intersectSet Origin.text_injective origins leftCovers.1 rightCovers.1)
    · exact .inr (emptied_of_intersectSet Literal.text_injective schemes leftCovers.2.1
        rightCovers.2.1)
  | device =>
    have gaveUp := Except.ok.inj apart
    simp only [meetDevice, Option.bind_eq_bind, Option.pure_def, Option.bind_eq_none_iff,
      reduceCtorEq, imp_false, ← Option.eq_none_iff_forall_ne_some] at gaveUp
    exact not_emptied _ (emptied_of_meetSet Literal.text_injective gaveUp leftCovers.1
      rightCovers.1)
  | system =>
    have gaveUp := Except.ok.inj apart
    cases fields : meetLiterals (le_refl 1) left.fields right.fields with
    | none =>
      exact not_emptied _ (emptied_of_meetSet Literal.text_injective fields leftCovers.1
        rightCovers.1)
    | some met =>
      cases modes : meetLiterals (le_refl 1) left.modes right.modes with
      | none =>
        exact not_emptied _ (emptied_of_meetSet Literal.text_injective modes leftCovers.2.1
          rightCovers.2.1)
      | some both => simp [meetSystem, fields, modes] at gaveUp
  | processExecution =>
    have gaveUp := Except.ok.inj apart
    cases executables : meetIdentifiers left.executableIds right.executableIds with
    | none =>
      exact emptied_of_meetSet Identifier.text_injective executables leftCovers.1 rightCovers.1
    | some met => simp [meetProcessExecution, executables] at gaveUp
  | processNetwork =>
    have gaveUp := Except.ok.inj apart
    simp only [meetProcessNetwork, ite_eq_left_iff, reduceCtorEq, imp_false, not_not] at gaveUp
    refine ⟨gaveUp, List.eq_nil_iff_forall_not_mem.mpr fun endpoint endpointIn => ?_⟩
    obtain ⟨met, found, -⟩ := (within_meetEndpoints _ _ endpoint).mpr
      ⟨leftCovers.1 endpoint endpointIn, rightCovers.1 endpoint endpointIn⟩
    rw [gaveUp] at found
    cases found
  | processShell =>
    have gaveUp := Except.ok.inj apart
    cases executables : meetIdentifiers left.executableIds right.executableIds with
    | none => exact emptied_of_meetSet Identifier.text_injective executables leftCovers rightCovers
    | some met => simp [meetProcessShell, executables] at gaveUp
  | processSignal =>
    have gaveUp := Except.ok.inj apart
    cases signals : meetLiterals (Nat.zero_le 1) left.signals right.signals with
    | none => exact emptied_of_meetSet Literal.text_injective signals leftCovers rightCovers
    | some met => simp [meetProcessSignal, signals] at gaveUp
  | credential =>
    have gaveUp := Except.ok.inj apart
    cases stores : meetIdentifiers left.stores right.stores with
    | none => exact emptied_of_meetSet Identifier.text_injective stores leftCovers.1 rightCovers.1
    | some met =>
      cases usages : meetLiterals (le_refl 1) left.usages right.usages with
      | none =>
        exact absurd (emptied_of_meetSet Literal.text_injective usages leftCovers.2 rightCovers.2)
          (not_emptied _)
      | some both => simp [meetCredential, stores, usages] at gaveUp
  | reader => cases Except.ok.inj apart
  | storage =>
    obtain ⟨leftId, leftOperations, leftDatabases, leftPrefixes, -⟩ := leftCovers
    obtain ⟨rightId, rightOperations, rightDatabases, rightPrefixes, -⟩ := rightCovers
    have shared (operation : StorageOperation)
      (requiredIn : operation ∈ required.entry.operations.values) :
        operation ∈ left.sharedOperations right := by
      simpa [StorageConstraints.sharedOperations] using
        ⟨leftOperations operation requiredIn, rightOperations operation requiredIn⟩
    rcases meetsIn_of_meetStorage apart with differs | nothing | ⟨-, unkeyed⟩ | ⟨-, unstored⟩
    · exact absurd (leftId.trans rightId.symm) differs
    · obtain ⟨operation, operationIn⟩ :=
        List.exists_mem_of_length_pos required.entry.operations.atLeast
      have both := shared operation operationIn
      rw [nothing] at both
      cases both
    · refine .inl ⟨unkeyed, List.eq_nil_iff_forall_not_mem.mpr fun text textIn => ?_⟩
      simp only [List.isPrefixOf_iff_prefix] at leftPrefixes rightPrefixes
      obtain ⟨scope, scopeIn, -⟩ := (prefixed_commonPrefixes _ _ text).mpr
        ⟨leftPrefixes text textIn, rightPrefixes text textIn⟩
      rw [unkeyed] at scopeIn
      cases scopeIn
    · refine .inr ⟨unstored, List.eq_nil_iff_forall_not_mem.mpr fun database databaseIn => ?_⟩
      exact unstored database (leftDatabases database databaseIn)
        (rightDatabases database databaseIn)

theorem parts_of_filesystem {constraints again : FilesystemConstraints}
    (accepted : filesystem platform (@Constraints.toJson platform .filesystem constraints)
      = .ok again) : again.limits = constraints.limits ∧ again.roots.Perm constraints.roots := by
  simp only [filesystem, Constraints.toJson] at accepted
  rw [exact_objectJson _ _ (by simp [maxContainerEntries]) (by simp)] at accepted
  simp only [List.map_cons, List.map_nil, required_cons, String.reduceEq, reduceIte, ok_bind,
    bind_eq_ok, limits_limitsJson constraints.limits (by decide), Except.ok.injEq, pure_eq_ok]
      at accepted
  obtain ⟨roots, listed, rfl⟩ := accepted
  have perm : (roots.values.map id).Perm constraints.roots := by
    refine perm_of_orderedArray id (fun _ _ read => ?_) listed
    rwa [filesystemGrant_toJson, Except.ok.injEq, eq_comm] at read
  exact ⟨rfl, by rwa [List.map_id] at perm⟩

/-- A constraint that is normalized again covers, and asks for, what it did before. -/
theorem alike_of_normalize {constraints again : Constraints platform schema}
    (accepted : normalizeConstraints platform schema constraints.toJson = .ok again)
    (other : Constraints platform schema) :
    (again.Covers other ↔ constraints.Covers other) ∧
      (other.Covers again ↔ other.Covers constraints) := by
  by_cases plain : constraints.Normal
  · rw [normalize_toJson plain] at accepted
    cases accepted
    exact ⟨Iff.rfl, Iff.rfl⟩
  · cases schema with
    | filesystem =>
      obtain ⟨limits, roots⟩ := parts_of_filesystem accepted
      simp only [Constraints.Covers, FilesystemConstraints.Covers, limits, roots.mem_iff, and_self]
    | _ => exact absurd trivial plain

theorem covers_of_normalize {constraints again : Constraints platform schema}
    (accepted : normalizeConstraints platform schema constraints.toJson = .ok again)
    (required : Constraints platform schema) :
    again.Covers required ↔ constraints.Covers required :=
  (alike_of_normalize accepted required).1

theorem meetConstraints_returns (plain : schema ≠ .storage)
    (left right : Constraints platform schema) :
    ∃ met, meetConstraints platform schema left right = .ok met := by
  cases schema with
  | storage => exact absurd rfl plain
  | _ => exact ⟨_, rfl⟩

theorem normal_of_ne_filesystem (plain : schema ≠ .filesystem)
    (constraints : Constraints platform schema) : constraints.Normal := by
  cases schema with
  | filesystem => exact absurd rfl plain
  | _ => trivial

theorem capabilitySatisfies_eq {availableValue requiredValue : JsonValue}
    {available required : Constraints platform name.schema}
    (availableAccepted : normalizeCapabilityConstraintsV1 platform name availableValue =
    .ok available)
    (requiredAccepted : normalizeCapabilityConstraintsV1 platform name requiredValue =
    .ok required) :
    capabilitySatisfiesV1 platform name availableValue requiredValue
      = .ok (decide (available.Covers required)) := by
  rw [capabilitySatisfiesV1, availableAccepted, ok_bind, requiredAccepted, ok_bind,
    satisfiesConstraints_eq]

theorem meetCapabilityConstraints_eq {leftValue rightValue : JsonValue}
    {left right : Constraints platform name.schema}
    (leftAccepted : normalizeCapabilityConstraintsV1 platform name leftValue = .ok left)
    (rightAccepted : normalizeCapabilityConstraintsV1 platform name rightValue = .ok right) :
    meetCapabilityConstraintsV1 platform name leftValue rightValue
      = meetConstraints platform name.schema left right := by
  rw [meetCapabilityConstraintsV1, leftAccepted, ok_bind, rightAccepted, ok_bind]

end Order

/-- The meet of two accepted constraints is the greatest constraint that both sides satisfy, and it
is nothing only where what both sides satisfy leaves an emptied list empty. Only a storage meet can
throw, and only a filesystem meet can be refused where it is compared. -/
theorem capabilityMeet_isGreatest (platform : Platform) (name : CapabilityName)
    (leftValue rightValue requiredValue : JsonValue)
    (left right required : Constraints platform name.schema)
    (leftAccepted : normalizeCapabilityConstraintsV1 platform name leftValue = .ok left)
    (rightAccepted : normalizeCapabilityConstraintsV1 platform name rightValue = .ok right)
    (requiredAccepted : normalizeCapabilityConstraintsV1 platform name requiredValue =
    .ok required) :
    (name.schema ≠ .storage →
      ∃ met, meetCapabilityConstraintsV1 platform name leftValue rightValue = .ok met) ∧
    ∃ leftSatisfies rightSatisfies,
      capabilitySatisfiesV1 platform name leftValue requiredValue = .ok leftSatisfies ∧
      capabilitySatisfiesV1 platform name rightValue requiredValue = .ok rightSatisfies ∧
      (∀ met, meetCapabilityConstraintsV1 platform name leftValue rightValue = .ok (some met) →
        (name.schema ≠ .filesystem →
          ∃ metSatisfies, capabilitySatisfiesV1 platform name met.toJson requiredValue
            = .ok metSatisfies) ∧
        ∀ metSatisfies, capabilitySatisfiesV1 platform name met.toJson requiredValue =
          .ok metSatisfies →
          (metSatisfies = true ↔ leftSatisfies = true ∧ rightSatisfies = true)) ∧
      (meetCapabilityConstraintsV1 platform name leftValue rightValue = .ok none →
        leftSatisfies = true → rightSatisfies = true → left.Relinquished right required) := by
  rw [meetCapabilityConstraints_eq leftAccepted rightAccepted]
  refine ⟨fun plain => ?_, _, _, capabilitySatisfies_eq leftAccepted requiredAccepted,
    capabilitySatisfies_eq rightAccepted requiredAccepted,
      fun met isMet => ⟨fun plain => ?_, ?_⟩, ?_⟩
  · exact meetConstraints_returns plain left right
  · exact ⟨_, capabilitySatisfies_eq (normalize_toJson (normal_of_ne_filesystem plain met))
      requiredAccepted⟩
  · intro metSatisfies compared
    rw [capabilitySatisfiesV1, bind_eq_ok] at compared
    obtain ⟨again, accepted, compared⟩ := compared
    rw [requiredAccepted, ok_bind, satisfiesConstraints_eq, Except.ok.injEq] at compared
    rw [← compared, decide_eq_true_eq, decide_eq_true_eq, decide_eq_true_eq,
      covers_of_normalize accepted, covers_meetConstraints isMet]
  · intro apart leftCovers rightCovers
    exact relinquished_of_meetConstraints apart (normal_of_normalize requiredAccepted)
      (of_decide_eq_true leftCovers) (of_decide_eq_true rightCovers)

def shellsJson (names : List String) : JsonValue :=
  objectJson [("executableIds", .array (names.map fun name => .string (js name)))]

/-- A constraint on one shell meets itself, and satisfies the constraint on no shell. -/
theorem capabilityMeet_isGreatest_shell :
    (∃ met, meetCapabilityConstraintsV1 asciiPlatform .processShell (shellsJson ["a"])
        (shellsJson ["a"]) = .ok met) ∧
      ∃ satisfied, capabilitySatisfiesV1 asciiPlatform .processShell (shellsJson ["a"])
        (shellsJson []) = .ok satisfied := by
  have general := capabilityMeet_isGreatest asciiPlatform .processShell (shellsJson ["a"])
    (shellsJson ["a"]) (shellsJson []) _ _ _ rfl rfl rfl
  obtain ⟨returns, satisfied, -, compared, -⟩ := general
  exact ⟨returns (by decide), satisfied, compared⟩

/-- Two constraints on different shells both satisfy the constraint on no shell, but they do not
meet. -/
theorem capabilityMeet_not_isGreatest :
    capabilitySatisfiesV1 asciiPlatform .processShell (shellsJson ["a"]) (shellsJson [])
        = .ok true ∧
      capabilitySatisfiesV1 asciiPlatform .processShell (shellsJson ["b"]) (shellsJson [])
        = .ok true ∧
      meetCapabilityConstraintsV1 asciiPlatform .processShell (shellsJson ["a"]) (shellsJson ["b"])
        = .ok none := by
  refine ⟨?_, ?_, ?_⟩
  · decide +kernel
  · decide +kernel
  · rfl

end Holonomy.Kernel
