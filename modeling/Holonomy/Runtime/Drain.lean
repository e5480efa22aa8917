import Holonomy.Runtime.EngineGateScope

/-!
# Draining a plugin graph revision

The counters of the registry are the numbers of unreleased snapshots, and the waiters of a
revision are its unresolved drain promises. Both are kept by every call, so a drain promise is
resolved exactly when no snapshot of its revision is left.
-/

namespace Holonomy.Runtime

open Foundation

variable {ρ : Type}

namespace RuntimeInterceptorRegistryV1

def holdsRevision (revision : ℕ) (snapshot : RuntimeInterceptorSnapshotV1 ρ) : Bool :=
  snapshot.pluginGraphRevision = revision && !snapshot.released

def outstanding (registry : RuntimeInterceptorRegistryV1 ρ) (revision : ℕ) : ℕ :=
  registry.snapshots.countP (holdsRevision revision)

structure Counted (registry : RuntimeInterceptorRegistryV1 ρ) : Prop where
  counts : ∀ revision, registry.inflight revision =
    if registry.outstanding revision = 0 then none else some (registry.outstanding revision)
  past : ∀ drain ∈ registry.drains, drain.revision < registry.pluginGraphRevision
  waiting : ∀ revision index, index ∈ (registry.drainWaiters revision).getD [] ↔
    ∃ drain, registry.drains[index]? = some drain ∧ drain.revision = revision ∧
      drain.resolved = false
  exactly : ∀ drain ∈ registry.drains,
    (drain.resolved = true ↔ registry.outstanding drain.revision = 0)

structure Untouched (before after : RuntimeInterceptorRegistryV1 ρ) : Prop where
  drainWaiters : after.drainWaiters = before.drainWaiters
  inflight : after.inflight = before.inflight
  snapshots : after.snapshots = before.snapshots
  drains : after.drains = before.drains
  pluginGraphRevision : before.pluginGraphRevision ≤ after.pluginGraphRevision

theorem outstanding_eq_zero (registry : RuntimeInterceptorRegistryV1 ρ) (revision : ℕ) :
    registry.outstanding revision = 0 ↔ ∀ snapshot ∈ registry.snapshots,
      snapshot.pluginGraphRevision = revision → snapshot.released = true := by
  rw [outstanding, List.countP_eq_zero]
  apply forall₂_congr
  intro snapshot _
  simp [holdsRevision]

theorem counted_new : (new : RuntimeInterceptorRegistryV1 ρ).Counted where
  counts revision := rfl
  past drain drainIn := absurd drainIn List.not_mem_nil
  waiting revision index := by simp [new]
  exactly drain drainIn := absurd drainIn List.not_mem_nil

variable {before after : RuntimeInterceptorRegistryV1 ρ}

theorem Counted.of_untouched
    (counted : before.Counted) (same : Untouched before after) : after.Counted where
  counts revision := by
    rw [same.inflight, counted.counts, outstanding, outstanding, same.snapshots]
  past drain drainIn := by
    rw [same.drains] at drainIn
    exact (counted.past drain drainIn).trans_le same.pluginGraphRevision
  waiting revision index := by rw [same.drainWaiters, same.drains, counted.waiting]
  exactly drain drainIn := by
    rw [same.drains] at drainIn
    rw [counted.exactly drain drainIn, outstanding, outstanding, same.snapshots]

theorem outstanding_acquireSnapshot (registry : RuntimeInterceptorRegistryV1 ρ) (revision : ℕ) :
    registry.acquireSnapshot.outstanding revision =
      registry.outstanding revision + if registry.pluginGraphRevision = revision then 1 else 0 := by
  rw [outstanding, outstanding, acquireSnapshot, List.countP_append, List.countP_singleton]
  by_cases same : registry.pluginGraphRevision = revision
  · simp [holdsRevision, same]
  · simp [holdsRevision, same]

variable {registry : RuntimeInterceptorRegistryV1 ρ}

theorem Counted.acquireSnapshot
    (counted : registry.Counted) : registry.acquireSnapshot.Counted where
  counts revision := by
    have before := counted.counts revision
    rw [outstanding_acquireSnapshot]
    show Function.update _ _ _ revision = _
    by_cases same : registry.pluginGraphRevision = revision
    · rw [same, Function.update_self, before, if_pos rfl, if_neg (Nat.succ_ne_zero _)]
      by_cases zero : registry.outstanding revision = 0
      · rw [if_pos zero, zero]
        rfl
      · rw [if_neg zero]
        rfl
    · have other : revision ≠ registry.pluginGraphRevision := fun equal => same equal.symm
      rw [Function.update_of_ne other, before, if_neg same, Nat.add_zero]
  past := counted.past
  waiting := counted.waiting
  exactly drain drainIn := by
    have past := counted.past drain drainIn
    have other : registry.pluginGraphRevision ≠ drain.revision := by omega
    rw [counted.exactly drain drainIn, outstanding_acquireSnapshot, if_neg other, Nat.add_zero]

variable {snapshot : RuntimeInterceptorSnapshotV1 ρ} {index : ℕ}

theorem outstanding_set (found : before.snapshots[index]? = some snapshot)
    (unreleased : snapshot.released = false)
    (marked : after.snapshots = before.snapshots.set index { snapshot with released := true })
    (revision : ℕ) : after.outstanding revision =
      before.outstanding revision - if snapshot.pluginGraphRevision = revision then 1 else 0 := by
  obtain ⟨inside, same⟩ := List.getElem?_eq_some_iff.mp found
  rw [outstanding, outstanding, marked, List.countP_set inside, same]
  by_cases here : snapshot.pluginGraphRevision = revision
  · simp [holdsRevision, here, unreleased]
  · simp [holdsRevision, here]

theorem outstanding_pos (found : registry.snapshots[index]? = some snapshot)
    (unreleased : snapshot.released = false) :
    0 < registry.outstanding snapshot.pluginGraphRevision := by
  apply List.countP_pos_iff.mpr
  refine ⟨snapshot, List.mem_of_getElem? found, ?_⟩
  simp [holdsRevision, unreleased]

theorem getElem?_resolveAll (waiters : List ℕ) (drains : List DrainV1) (index : ℕ) :
    (resolveAll waiters drains)[index]? = drains[index]?.map fun drain =>
      if index ∈ waiters then { drain with resolved := true } else drain :=
  List.getElem?_mapIdx

theorem unresolved_resolveAll (waiters : List ℕ) (drains : List DrainV1) (index revision : ℕ) :
    (∃ drain, (resolveAll waiters drains)[index]? = some drain ∧ drain.revision = revision ∧
        drain.resolved = false) ↔
      index ∉ waiters ∧ ∃ drain, drains[index]? = some drain ∧ drain.revision = revision ∧
        drain.resolved = false := by
  rw [getElem?_resolveAll]
  cases there : drains[index]? with
  | none => simp
  | some drain =>
    by_cases chosen : index ∈ waiters
    · simp [chosen]
    · simp [chosen]

theorem Counted.waits_once (counted : registry.Counted)
    {left right index : ℕ} (leftWaits : index ∈ (registry.drainWaiters left).getD [])
    (rightWaits : index ∈ (registry.drainWaiters right).getD []) : left = right := by
  obtain ⟨first, firstThere, firstRevision, _⟩ := (counted.waiting _ _).mp leftWaits
  obtain ⟨second, secondThere, secondRevision, _⟩ := (counted.waiting _ _).mp rightWaits
  rw [firstThere] at secondThere
  have same : first = second := Option.some.inj secondThere
  rw [← firstRevision, ← secondRevision, same]

theorem Counted.release_more (counted : before.Counted)
    (found : before.snapshots[index]? = some snapshot) (unreleased : snapshot.released = false)
    (more : 1 < before.outstanding snapshot.pluginGraphRevision)
    (released : after = { before with
      inflight := Function.update before.inflight snapshot.pluginGraphRevision
        (some (before.outstanding snapshot.pluginGraphRevision - 1))
      snapshots := before.snapshots.set index { snapshot with released := true } }) :
    after.Counted := by
  have left := outstanding_set found unreleased (congrArg snapshots released)
  refine ⟨?_, ?_, ?_, ?_⟩
  · intro revision
    rw [left, released]
    show Function.update _ _ _ revision = _
    by_cases here : revision = snapshot.pluginGraphRevision
    · have some : before.outstanding snapshot.pluginGraphRevision - 1 ≠ 0 := by omega
      rw [here, Function.update_self, if_pos rfl, if_neg some]
    · rw [Function.update_of_ne here, if_neg (Ne.symm here), Nat.sub_zero]
      exact counted.counts revision
  · rw [released]
    exact counted.past
  · rw [released]
    exact counted.waiting
  · intro drain drainIn
    rw [released] at drainIn
    rw [left, counted.exactly drain drainIn]
    by_cases here : snapshot.pluginGraphRevision = drain.revision
    · rw [here] at more
      rw [if_pos here]
      omega
    · rw [if_neg here, Nat.sub_zero]

theorem Counted.release_last (counted : before.Counted)
    (found : before.snapshots[index]? = some snapshot) (unreleased : snapshot.released = false)
    (last : before.outstanding snapshot.pluginGraphRevision = 1)
    (released : after = { before with
      inflight := Function.update before.inflight snapshot.pluginGraphRevision none
      drainWaiters := Function.update before.drainWaiters snapshot.pluginGraphRevision none
      drains := resolveAll ((before.drainWaiters snapshot.pluginGraphRevision).getD [])
        before.drains
      snapshots := before.snapshots.set index { snapshot with released := true } }) :
    after.Counted := by
  have left := outstanding_set found unreleased (congrArg snapshots released)
  have drained : after.drains = resolveAll _ before.drains := congrArg drains released
  have original : ∀ drain ∈ after.drains, ∃ index old, before.drains[index]? = some old ∧
      drain = if index ∈ (before.drainWaiters snapshot.pluginGraphRevision).getD [] then
        { old with resolved := true } else old := by
    intro drain drainIn
    obtain ⟨index, place⟩ := List.getElem?_of_mem drainIn
    rw [drained, getElem?_resolveAll, Option.map_eq_some_iff] at place
    obtain ⟨old, there, same⟩ := place
    exact ⟨index, old, there, same.symm⟩
  refine ⟨?_, ?_, ?_, ?_⟩
  · intro revision
    rw [left, released]
    show Function.update _ _ _ revision = _
    by_cases here : revision = snapshot.pluginGraphRevision
    · rw [here, Function.update_self, if_pos rfl, last, if_pos rfl]
    · rw [Function.update_of_ne here, if_neg (Ne.symm here), Nat.sub_zero]
      exact counted.counts revision
  · intro drain drainIn
    obtain ⟨index, old, there, same⟩ := original drain drainIn
    have past := counted.past old (List.mem_of_getElem? there)
    rw [same, released]
    split
    · exact past
    · exact past
  · intro revision position
    rw [drained, unresolved_resolveAll, ← counted.waiting, released]
    show position ∈ (Function.update before.drainWaiters _ none revision).getD [] ↔ _
    by_cases here : revision = snapshot.pluginGraphRevision
    · rw [here, Function.update_self]
      simp
    · rw [Function.update_of_ne here]
      constructor
      · intro waits
        exact ⟨fun chosen => here (counted.waits_once waits chosen), waits⟩
      · exact And.right
  · intro drain drainIn
    obtain ⟨index, old, there, same⟩ := original drain drainIn
    have before' := counted.exactly old (List.mem_of_getElem? there)
    rw [same, left]
    by_cases chosen : index ∈ (before.drainWaiters snapshot.pluginGraphRevision).getD []
    · obtain ⟨waiting, sameThere, revision, _⟩ := (counted.waiting _ _).mp chosen
      rw [there] at sameThere
      rw [← Option.some.inj sameThere] at revision
      rw [if_pos chosen]
      simp only [revision, if_true, last, Nat.sub_self]
    · rw [if_neg chosen]
      by_cases here : snapshot.pluginGraphRevision = old.revision
      · have resolved : old.resolved = true := by
          by_contra open'
          exact chosen ((counted.waiting _ _).mpr
            ⟨old, there, here.symm, Bool.eq_false_of_not_eq_true open'⟩)
        have none := before'.mp resolved
        rw [← here, last] at none
        cases none
      · rw [if_neg here, Nat.sub_zero]
        exact before'

theorem Counted.release (counted : registry.Counted)
    (index : ℕ) : (registry.release index).Counted := by
  cases found : registry.snapshots[index]? with
  | none =>
    rw [RuntimeInterceptorRegistryV1.release, found]
    exact counted
  | some snapshot =>
    cases unreleased : snapshot.released with
    | true =>
      simp only [RuntimeInterceptorRegistryV1.release, found, unreleased, if_true]
      exact counted
    | false =>
      have positive := outstanding_pos found unreleased
      have counter := counted.counts snapshot.pluginGraphRevision
      rw [if_neg (Nat.pos_iff_ne_zero.mp positive)] at counter
      by_cases more : registry.outstanding snapshot.pluginGraphRevision - 1 > 0
      · apply counted.release_more found unreleased (by omega)
        simp [RuntimeInterceptorRegistryV1.release, found, unreleased, counter, more]
      · apply counted.release_last found unreleased (by omega)
        simp [RuntimeInterceptorRegistryV1.release, found, unreleased, counter, more]

theorem Counted.drainPluginGraph (counted : before.Counted) {revision : ℤ}
    (asked : before.drainPluginGraph revision = some after) : after.Counted := by
  rw [RuntimeInterceptorRegistryV1.drainPluginGraph] at asked
  by_cases refused : revision.natAbs > maxSafeInteger ∨ revision < 0 ∨
      revision ≥ before.pluginGraphRevision
  · rw [if_pos refused] at asked
    cases asked
  rw [if_neg refused] at asked
  have past : revision.toNat < before.pluginGraphRevision := by omega
  have counter := counted.counts revision.toNat
  have untouched : ∀ drain ∈ before.drains,
      (drain.resolved = true ↔ before.outstanding drain.revision = 0) := counted.exactly
  by_cases empty : before.outstanding revision.toNat = 0
  · rw [if_pos empty] at counter
    simp only [counter, Option.some.injEq] at asked
    subst asked
    refine ⟨counted.counts, ?_, ?_, ?_⟩
    · exact forall_mem_concat counted.past past
    · intro waiting index
      rw [counted.waiting]
      simp only [List.getElem?_append]
      by_cases inside : index < before.drains.length
      · simp only [if_pos inside]
      · have missing : before.drains[index]? = none :=
          List.getElem?_eq_none (Nat.le_of_not_lt inside)
        simp only [if_neg inside, missing, List.getElem?_singleton]
        by_cases same : index - before.drains.length = 0
        · simp [same]
        · simp [same]
    · exact forall_mem_concat untouched ⟨fun _ => empty, fun _ => rfl⟩
  · rw [if_neg empty] at counter
    simp only [counter, Option.some.injEq] at asked
    subst asked
    refine ⟨counted.counts, ?_, ?_, ?_⟩
    · exact forall_mem_concat counted.past past
    · intro waiting index
      show index ∈ (Function.update before.drainWaiters _ _ waiting).getD [] ↔ _
      simp only [List.getElem?_append]
      by_cases inside : index < before.drains.length
      · have other : index ≠ before.drains.length := by omega
        simp only [if_pos inside]
        rw [← counted.waiting]
        by_cases here : waiting = revision.toNat
        · rw [here, Function.update_self]
          simp [other]
        · rw [Function.update_of_ne here]
      · have missing : before.drains[index]? = none :=
          List.getElem?_eq_none (Nat.le_of_not_lt inside)
        have waitsNot : ∀ waiting, index ∉ (before.drainWaiters waiting).getD [] := by
          intro waiting waits
          obtain ⟨drain, there, _⟩ := (counted.waiting _ _).mp waits
          rw [missing] at there
          cases there
        simp only [if_neg inside, List.getElem?_singleton]
        by_cases last : index = before.drains.length
        · by_cases here : waiting = revision.toNat
          · rw [here, Function.update_self]
            simp [last]
          · rw [Function.update_of_ne here]
            simp [last, Ne.symm here]
            rw [← last]
            exact waitsNot waiting
        · have beyond : index - before.drains.length ≠ 0 := by omega
          by_cases here : waiting = revision.toNat
          · rw [here, Function.update_self]
            simp [last, beyond, waitsNot]
          · rw [Function.update_of_ne here]
            simp [beyond, waitsNot]
    · refine forall_mem_concat untouched ?_
      simp [outstanding] at empty ⊢
      exact empty

theorem untouched_publishPluginGraph {revision : ℤ}
    {scopes : List ℕ} (published : before.publishPluginGraph revision scopes = some after) :
    Untouched before after := by
  rw [publishPluginGraph] at published
  by_cases refused : revision.natAbs > maxSafeInteger ∨ revision ≠ before.pluginGraphRevision + 1
  · rw [if_pos refused] at published
    cases published
  rw [if_neg refused] at published
  have next : before.pluginGraphRevision ≤ revision.toNat := by omega
  split at published
  · cases published
  · cases published
    exact ⟨rfl, rfl, rfl, rfl, next⟩

theorem untouched_scopeUse {scope : ℕ}
    {registration : ρ} (used : before.scopeUse scope registration = some after) :
    Untouched before after := by
  rw [scopeUse, Option.bind_eq_bind, Option.bind_eq_some_iff] at used
  obtain ⟨found, _, chosen⟩ := used
  split at chosen
  · cases chosen
  · cases chosen
    exact ⟨rfl, rfl, rfl, rfl, le_rfl⟩

theorem untouched_scopeDisposeRegistration
    {scope id : ℕ} (disposed : before.scopeDisposeRegistration scope id = some after) :
    Untouched before after := by
  rw [scopeDisposeRegistration, Option.bind_eq_bind, Option.bind_eq_some_iff] at disposed
  obtain ⟨found, _, chosen⟩ := disposed
  cases chosen
  exact ⟨rfl, rfl, rfl, rfl, le_rfl⟩

theorem untouched_scopeDispose {scope : ℕ}
    (disposed : before.scopeDispose scope = some after) : Untouched before after := by
  rw [scopeDispose, Option.bind_eq_bind, Option.bind_eq_some_iff] at disposed
  obtain ⟨found, _, chosen⟩ := disposed
  split at chosen
  · cases chosen
    exact ⟨rfl, rfl, rfl, rfl, le_rfl⟩
  · cases chosen
    exact ⟨rfl, rfl, rfl, rfl, le_rfl⟩

theorem untouched_createPluginScope
    {instanceId : Text} (made : before.createPluginScope instanceId = some after) :
    Untouched before after := by
  rw [createPluginScope] at made
  split at made
  · cases made
    exact ⟨rfl, rfl, rfl, rfl, le_rfl⟩
  · cases made

theorem untouched_getD {before : RuntimeInterceptorRegistryV1 ρ}
    {outcome : Option (RuntimeInterceptorRegistryV1 ρ)}
    (returned : ∀ after, outcome = some after → Untouched before after) :
    Untouched before (outcome.getD before) := by
  cases result : outcome with
  | none => exact ⟨rfl, rfl, rfl, rfl, le_rfl⟩
  | some after => exact returned after result

theorem apply_cases (registry : RuntimeInterceptorRegistryV1 ρ) (call : RegistryCall ρ) :
    Untouched registry (call.apply registry) ∨ call = .acquireSnapshot ∨
      (∃ index, call = .release index) ∨ ∃ revision, call = .drainPluginGraph revision := by
  cases call with
  | acquireSnapshot => exact .inr (.inl rfl)
  | release index => exact .inr (.inr (.inl ⟨index, rfl⟩))
  | createPluginScope instanceId =>
    exact .inl (untouched_getD fun _ => untouched_createPluginScope)
  | scopeUse scope registration => exact .inl (untouched_getD fun _ => untouched_scopeUse)
  | scopeDisposeRegistration scope id =>
    exact .inl (untouched_getD fun _ => untouched_scopeDisposeRegistration)
  | scopeDispose scope => exact .inl (untouched_getD fun _ => untouched_scopeDispose)
  | publishPluginGraph revision scopes =>
    exact .inl (untouched_getD fun _ => untouched_publishPluginGraph)
  | drainPluginGraph revision => exact .inr (.inr (.inr ⟨revision, rfl⟩))
  | _ => exact .inl ⟨rfl, rfl, rfl, rfl, le_rfl⟩

theorem Counted.apply (counted : registry.Counted)
    (call : RegistryCall ρ) : (call.apply registry).Counted := by
  rcases apply_cases registry call with same | rfl | ⟨index, rfl⟩ | ⟨revision, rfl⟩
  · exact counted.of_untouched same
  · exact counted.acquireSnapshot
  · exact counted.release index
  · show ((registry.drainPluginGraph revision).getD registry).Counted
    cases asked : registry.drainPluginGraph revision with
    | none => exact counted
    | some after => exact counted.drainPluginGraph asked

structure Carries (before after : RuntimeInterceptorRegistryV1 ρ) : Prop where
  revision : before.pluginGraphRevision ≤ after.pluginGraphRevision
  length : before.snapshots.length ≤ after.snapshots.length
  kept : ∀ (index : ℕ) (snapshot : RuntimeInterceptorSnapshotV1 ρ),
    before.snapshots[index]? = some snapshot → ∃ later, after.snapshots[index]? = some later ∧
      later.pluginGraphRevision = snapshot.pluginGraphRevision ∧
      later.registrations = snapshot.registrations
  fresh : ∀ (index : ℕ) (snapshot : RuntimeInterceptorSnapshotV1 ρ),
    before.snapshots.length ≤ index → after.snapshots[index]? = some snapshot →
    before.pluginGraphRevision ≤ snapshot.pluginGraphRevision

theorem Carries.refl (registry : RuntimeInterceptorRegistryV1 ρ) : Carries registry registry where
  revision := le_rfl
  length := le_rfl
  kept _ snapshot found := ⟨snapshot, found, rfl, rfl⟩
  fresh index snapshot beyond found := by
    rw [List.getElem?_eq_none beyond] at found
    cases found

theorem Carries.trans {before middle after : RuntimeInterceptorRegistryV1 ρ}
    (first : Carries before middle) (second : Carries middle after) : Carries before after where
  revision := first.revision.trans second.revision
  length := first.length.trans second.length
  kept index snapshot found := by
    obtain ⟨later, laterFound, revision, registrations⟩ := first.kept index snapshot found
    obtain ⟨last, lastFound, lastRevision, lastRegistrations⟩ := second.kept index later laterFound
    exact ⟨last, lastFound, lastRevision.trans revision, lastRegistrations.trans registrations⟩
  fresh index snapshot beyond found := by
    by_cases inside : index < middle.snapshots.length
    · have there : middle.snapshots[index]? = some middle.snapshots[index] :=
        List.getElem?_eq_getElem inside
      obtain ⟨later, laterFound, revision, _⟩ := second.kept index _ there
      rw [found] at laterFound
      rw [Option.some.inj laterFound, revision]
      exact first.fresh index _ beyond there
    · exact first.revision.trans (second.fresh index snapshot (Nat.le_of_not_lt inside) found)

theorem Carries.of_snapshots (revision : before.pluginGraphRevision ≤ after.pluginGraphRevision)
    (same : after.snapshots = before.snapshots) : Carries before after where
  revision := revision
  length := by rw [same]
  kept index snapshot found := ⟨snapshot, by rw [same, found], rfl, rfl⟩
  fresh index snapshot beyond found := by
    rw [same, List.getElem?_eq_none beyond] at found
    cases found

/-- What releasing a snapshot leaves alone. -/
theorem release_carries (registry : RuntimeInterceptorRegistryV1 ρ) (index : ℕ) :
    Carries registry (registry.release index) := by
  cases found : registry.snapshots[index]? with
  | none =>
    rw [release, found]
    exact .refl registry
  | some snapshot =>
    cases released : snapshot.released with
    | true =>
      simp only [release, found, released, if_true]
      exact .refl registry
    | false =>
      have marked : (registry.release index).snapshots =
          registry.snapshots.set index { snapshot with released := true } := by
        simp only [release, found, released, Bool.false_eq_true, if_false]
        split <;> rfl
      have revision : (registry.release index).pluginGraphRevision =
          registry.pluginGraphRevision := by
        simp only [release, found, released, Bool.false_eq_true, if_false]
        split <;> rfl
      refine ⟨revision.ge, ?_, ?_, ?_⟩
      · rw [marked, List.length_set]
      · intro place other there
        rw [marked, List.getElem?_set]
        by_cases here : index = place
        · subst here
          rw [found] at there
          have inside := (List.getElem?_eq_some_iff.mp found).1
          rw [if_pos rfl, if_pos inside, ← Option.some.inj there]
          exact ⟨_, rfl, rfl, rfl⟩
        · rw [if_neg here, there]
          exact ⟨other, rfl, rfl, rfl⟩
      · intro place other beyond there
        rw [marked, List.getElem?_eq_none (by rw [List.length_set]; exact beyond)] at there
        cases there

/-- What is found behind the earlier snapshots is the one that was acquired. -/
theorem acquired_of_beyond (beyond : registry.snapshots.length ≤ index)
    (found : (registry.snapshots ++
      [⟨registry.pluginGraphRevision, registry.snapshot, false⟩])[index]? = some snapshot) :
    snapshot = ⟨registry.pluginGraphRevision, registry.snapshot, false⟩ := by
  rw [List.getElem?_append_right beyond] at found
  exact List.mem_singleton.mp (List.mem_of_getElem? found)

theorem apply_carries (registry : RuntimeInterceptorRegistryV1 ρ) (call : RegistryCall ρ) :
    Carries registry (call.apply registry) := by
  rcases apply_cases registry call with same | rfl | ⟨index, rfl⟩ | ⟨revision, rfl⟩
  · exact .of_snapshots same.pluginGraphRevision same.snapshots
  · refine ⟨le_rfl, ?_, ?_, ?_⟩
    · show _ ≤ (registry.snapshots ++ [_]).length
      rw [List.length_append]
      exact Nat.le_add_right _ _
    · intro index snapshot found
      have inside := (List.getElem?_eq_some_iff.mp found).1
      refine ⟨snapshot, ?_, rfl, rfl⟩
      show (registry.snapshots ++ [_])[index]? = _
      rw [List.getElem?_append_left inside, found]
    · intro index snapshot beyond found
      rw [acquired_of_beyond beyond found]
  · exact release_carries registry index
  · show Carries registry ((registry.drainPluginGraph revision).getD registry)
    cases asked : registry.drainPluginGraph revision with
    | none => exact .refl registry
    | some after =>
      rw [drainPluginGraph] at asked
      split at asked
      · cases asked
      split at asked
      · cases asked
        exact .of_snapshots le_rfl rfl
      · cases asked
        exact .of_snapshots le_rfl rfl

theorem mem_snapshots_apply {call : RegistryCall ρ}
    (found : (call.apply registry).snapshots[index]? = some snapshot) :
    (∃ old, registry.snapshots[index]? = some old ∧
      old.pluginGraphRevision = snapshot.pluginGraphRevision ∧
      old.registrations = snapshot.registrations) ∨
    (snapshot.pluginGraphRevision = registry.pluginGraphRevision ∧
      snapshot.registrations = registry.snapshot) := by
  by_cases inside : index < registry.snapshots.length
  · have there : registry.snapshots[index]? = some registry.snapshots[index] :=
      List.getElem?_eq_getElem inside
    obtain ⟨later, laterFound, revision, registrations⟩ :=
      (apply_carries registry call).kept index _ there
    rw [found] at laterFound
    have same := Option.some.inj laterFound
    exact .inl ⟨_, there, by rw [same, revision], by rw [same, registrations]⟩
  · have beyond := Nat.le_of_not_lt inside
    rcases apply_cases registry call with same | rfl | ⟨release, rfl⟩ | ⟨revision, rfl⟩
    · rw [same.snapshots, List.getElem?_eq_none beyond] at found
      cases found
    · rw [acquired_of_beyond beyond found]
      exact .inr ⟨rfl, rfl⟩
    · have short : ((RegistryCall.release release).apply registry).snapshots.length =
          registry.snapshots.length := by
        show (registry.release release).snapshots.length = _
        rw [RuntimeInterceptorRegistryV1.release]
        split
        · rfl
        split
        · rfl
        simp only
        split <;> exact List.length_set
      rw [List.getElem?_eq_none (short ▸ beyond)] at found
      cases found
    · have same : ((RegistryCall.drainPluginGraph revision).apply registry).snapshots =
          registry.snapshots := by
        show ((registry.drainPluginGraph revision).getD registry).snapshots = _
        rw [drainPluginGraph]
        split
        · rfl
        split <;> rfl
      rw [same, List.getElem?_eq_none beyond] at found
      cases found

end RuntimeInterceptorRegistryV1

open RuntimeInterceptorRegistryV1

variable {events : List (RegistryCall ρ)}

theorem counted_of_reaches {registry : RuntimeInterceptorRegistryV1 ρ}
    (reached : (interceptors ρ).Reaches events registry) : registry.Counted :=
  reached.invariant counted_new fun _ call _ counted stepped =>
    Option.some.inj stepped ▸ counted.apply call

theorem carries_of_leads {allowed : RuntimeInterceptorRegistryV1 ρ → RegistryCall ρ → Prop}
    {before after : RuntimeInterceptorRegistryV1 ρ}
    (leads : (interceptors ρ).Leads allowed before events after) : Carries before after :=
  leads.relates Carries.refl Carries.trans fun state call _ _ stepped =>
    Option.some.inj stepped ▸ apply_carries state call

theorem origin_of_reaches {registry : RuntimeInterceptorRegistryV1 ρ}
    (reached : (interceptors ρ).Reaches events registry) :
    ∀ (index : ℕ) (snapshot : RuntimeInterceptorSnapshotV1 ρ),
      registry.snapshots[index]? = some snapshot →
      ∃ before rest origin, events = before ++ rest ∧ (interceptors ρ).Reaches before origin ∧
        snapshot.pluginGraphRevision = origin.pluginGraphRevision ∧
        snapshot.registrations = origin.snapshot := by
  induction reached with
  | refl =>
    intro index snapshot found
    cases found
  | @step _ _ _ call earlier _ stepped ih =>
    intro index snapshot found
    rw [← Option.some.inj stepped] at found
    rcases mem_snapshots_apply found with ⟨old, there, revision, registrations⟩ | taken
    · obtain ⟨before, rest, origin, split, reachedBefore, revisionThere, registrationsThere⟩ :=
        ih index old there
      refine ⟨before, rest ++ [call], origin, ?_, reachedBefore, ?_, ?_⟩
      · rw [split, List.append_assoc]
      · rw [← revision, revisionThere]
      · rw [← registrations, registrationsThere]
    · exact ⟨_, [_], _, rfl, earlier, taken.1, taken.2⟩

end Holonomy.Runtime
