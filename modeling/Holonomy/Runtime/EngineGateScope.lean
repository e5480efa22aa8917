import Holonomy.Foundation.Machine
import Holonomy.Foundation.Text

/-!
# The scopes of the engine gate

A scope of the engine gate keeps its middleware in a set, and each registration hands out a handle
that takes the middleware out of the set again. The set knows a registration by its middleware
alone, and a handle does not remember that it was disposed.
-/

namespace Holonomy.Runtime

open Foundation

/-! ## The interceptor registry

The registry hands out snapshots of its registrations, each for the plugin graph revision that is
current, and counts the snapshots of a revision that are not released.
-/

/-- The largest integer that numbers tell apart from its neighbours. -/
def maxSafeInteger : ℕ := 2 ^ 53 - 1

structure RuntimePluginInterceptorScopeV1 (ρ : Type) where
  instanceId : Text
  registrations : List (ℕ × ρ)
  closed : Bool
  next : ℕ

structure RuntimeInterceptorSnapshotV1 (ρ : Type) where
  pluginGraphRevision : ℕ
  registrations : List ρ
  released : Bool

/-- The promise of a drain. -/
structure DrainV1 where
  revision : ℕ
  resolved : Bool

structure RuntimeInterceptorRegistryV1 (ρ : Type) where
  drainWaiters : ℕ → Option (List ℕ)
  inflight : ℕ → Option ℕ
  next : ℕ
  pluginGraphRevision : ℕ
  pluginScopes : List ℕ
  registrations : List (ℕ × ρ)
  scopes : List (RuntimePluginInterceptorScopeV1 ρ)
  snapshots : List (RuntimeInterceptorSnapshotV1 ρ)
  drains : List DrainV1

/-- A letter or a digit. -/
def isAlphanumeric (unit : UInt16) : Bool :=
  (0x30 ≤ unit && unit ≤ 0x39) || (0x41 ≤ unit && unit ≤ 0x5A) || (0x61 ≤ unit && unit ≤ 0x7A)

/-- The identifiers of plugin instances. -/
def isInstanceId : Text → Bool
  | [] => false
  | first :: rest => isAlphanumeric first && decide (rest.length ≤ 127) &&
    rest.all fun unit => isAlphanumeric unit || unit = 0x5F || unit = 0x2E || unit = 0x2D

namespace RuntimeInterceptorRegistryV1

variable {ρ : Type}

def new : RuntimeInterceptorRegistryV1 ρ where
  drainWaiters _ := none
  inflight _ := none
  next := 0
  pluginGraphRevision := 0
  pluginScopes := []
  registrations := []
  scopes := []
  snapshots := []
  drains := []

def scopeSnapshot (registry : RuntimeInterceptorRegistryV1 ρ) (scope : ℕ) : List ρ :=
  (registry.scopes[scope]?.map fun scope => scope.registrations.map Prod.snd).getD []

def snapshot (registry : RuntimeInterceptorRegistryV1 ρ) : List ρ :=
  registry.registrations.map Prod.snd ++ registry.pluginScopes.flatMap registry.scopeSnapshot

def acquireSnapshot (registry : RuntimeInterceptorRegistryV1 ρ) : RuntimeInterceptorRegistryV1 ρ :=
  let revision := registry.pluginGraphRevision
  { registry with
    inflight := Function.update registry.inflight revision
      (some ((registry.inflight revision).getD 0 + 1))
    snapshots := registry.snapshots ++ [⟨revision, registry.snapshot, false⟩] }

def resolveAll (waiters : List ℕ) (drains : List DrainV1) : List DrainV1 :=
  drains.mapIdx fun index drain =>
    if index ∈ waiters then { drain with resolved := true } else drain

def release (registry : RuntimeInterceptorRegistryV1 ρ) (index : ℕ) :
    RuntimeInterceptorRegistryV1 ρ :=
  match registry.snapshots[index]? with
  | none => registry
  | some snapshot =>
    if snapshot.released then registry
    else
      let revision := snapshot.pluginGraphRevision
      let snapshots := registry.snapshots.set index { snapshot with released := true }
      let remaining := (registry.inflight revision).getD 1 - 1
      if remaining > 0 then
        { registry with
          inflight := Function.update registry.inflight revision (some remaining)
          snapshots := snapshots }
      else
        { registry with
          inflight := Function.update registry.inflight revision none
          drainWaiters := Function.update registry.drainWaiters revision none
          drains := resolveAll ((registry.drainWaiters revision).getD []) registry.drains
          snapshots := snapshots }

def createPluginScope (registry : RuntimeInterceptorRegistryV1 ρ) (instanceId : Text) :
    Option (RuntimeInterceptorRegistryV1 ρ) :=
  if isInstanceId instanceId then
    some { registry with scopes := registry.scopes ++ [⟨instanceId, [], false, 0⟩] }
  else none

def scopeUse (registry : RuntimeInterceptorRegistryV1 ρ) (scope : ℕ) (registration : ρ) :
    Option (RuntimeInterceptorRegistryV1 ρ) := do
  let found ← registry.scopes[scope]?
  if found.closed then none
  else
    some { registry with
      scopes := registry.scopes.set scope { found with
        registrations := found.registrations ++ [(found.next + 1, registration)]
        next := found.next + 1 } }

def scopeDisposeRegistration (registry : RuntimeInterceptorRegistryV1 ρ) (scope id : ℕ) :
    Option (RuntimeInterceptorRegistryV1 ρ) := do
  let found ← registry.scopes[scope]?
  some { registry with
    scopes := registry.scopes.set scope { found with
      registrations := found.registrations.filter fun entry => entry.1 ≠ id } }

def scopeDispose (registry : RuntimeInterceptorRegistryV1 ρ) (scope : ℕ) :
    Option (RuntimeInterceptorRegistryV1 ρ) := do
  let found ← registry.scopes[scope]?
  if found.closed then some registry
  else
    some { registry with
      scopes := registry.scopes.set scope { found with closed := true, registrations := [] } }

def publishPluginGraph (registry : RuntimeInterceptorRegistryV1 ρ) (revision : ℤ)
    (scopes : List ℕ) : Option (RuntimeInterceptorRegistryV1 ρ) :=
  if revision.natAbs > maxSafeInteger ∨ revision ≠ registry.pluginGraphRevision + 1 then none
  else if ¬ scopes.Nodup ∨ ¬ (scopes.map fun scope =>
      registry.scopes[scope]?.map RuntimePluginInterceptorScopeV1.instanceId).Nodup then none
  else some { registry with pluginScopes := scopes, pluginGraphRevision := revision.toNat }

def drainPluginGraph (registry : RuntimeInterceptorRegistryV1 ρ) (revision : ℤ) :
    Option (RuntimeInterceptorRegistryV1 ρ) :=
  if revision.natAbs > maxSafeInteger ∨ revision < 0 ∨ revision ≥ registry.pluginGraphRevision then
    none
  else
    match registry.inflight revision.toNat with
    | none => some { registry with drains := registry.drains ++ [⟨revision.toNat, true⟩] }
    | some _ =>
      some { registry with
        drainWaiters := Function.update registry.drainWaiters revision.toNat
          (some ((registry.drainWaiters revision.toNat).getD [] ++ [registry.drains.length]))
        drains := registry.drains ++ [⟨revision.toNat, false⟩] }

/-- Add a live registration. -/
def use (registry : RuntimeInterceptorRegistryV1 ρ) (registration : ρ) :
    RuntimeInterceptorRegistryV1 ρ :=
  { registry with
    registrations := registry.registrations ++ [(registry.next + 1, registration)]
    next := registry.next + 1 }

/-- Take a live registration out. -/
def disposeRegistration (registry : RuntimeInterceptorRegistryV1 ρ) (id : ℕ) :
    RuntimeInterceptorRegistryV1 ρ :=
  { registry with registrations := registry.registrations.filter fun entry => entry.1 ≠ id }

end RuntimeInterceptorRegistryV1

inductive RegistryCall (ρ : Type) where
  | acquireSnapshot
  | release (snapshot : ℕ)
  | createPluginScope (instanceId : Text)
  | scopeUse (scope : ℕ) (registration : ρ)
  | scopeDisposeRegistration (scope id : ℕ)
  | scopeDispose (scope : ℕ)
  | publishPluginGraph (revision : ℤ) (scopes : List ℕ)
  | drainPluginGraph (revision : ℤ)
  | use (registration : ρ)
  | disposeRegistration (id : ℕ)

def RegistryCall.apply {ρ : Type} (registry : RuntimeInterceptorRegistryV1 ρ) :
    RegistryCall ρ → RuntimeInterceptorRegistryV1 ρ
  | .acquireSnapshot => registry.acquireSnapshot
  | .release snapshot => registry.release snapshot
  | .createPluginScope instanceId => (registry.createPluginScope instanceId).getD registry
  | .scopeUse scope registration => (registry.scopeUse scope registration).getD registry
  | .scopeDisposeRegistration scope id => (registry.scopeDisposeRegistration scope id).getD registry
  | .scopeDispose scope => (registry.scopeDispose scope).getD registry
  | .publishPluginGraph revision scopes => (registry.publishPluginGraph revision scopes).getD
      registry
  | .drainPluginGraph revision => (registry.drainPluginGraph revision).getD registry
  | .use registration => registry.use registration
  | .disposeRegistration id => registry.disposeRegistration id

/-- The registry under any order of calls. -/
def interceptors (ρ : Type) : Machine (RuntimeInterceptorRegistryV1 ρ) (RegistryCall ρ) where
  start := RuntimeInterceptorRegistryV1.new
  step registry call := some (call.apply registry)

structure EngineGateHandleV1 (Middleware : Type) where
  middleware : Middleware
  disposed : Bool
  deriving DecidableEq

def EngineGateHandleV1.dispose {Middleware : Type} (handle : EngineGateHandleV1 Middleware) :
    EngineGateHandleV1 Middleware :=
  { handle with disposed := true }

structure EngineGatePluginScopeV1 (Middleware : Type) where
  instanceId : Text
  handlers : List Middleware
  closed : Bool
  registryClosed : Bool
  handles : List (EngineGateHandleV1 Middleware)
  deriving DecidableEq

variable {Middleware : Type} [DecidableEq Middleware]

def createPluginScope (registryClosed : Bool) (instanceId : Text) :
    Except String (EngineGatePluginScopeV1 Middleware) :=
  if registryClosed || !isInstanceId instanceId then .error "Invalid Engine Gate scope"
  else .ok ⟨instanceId, [], false, registryClosed, []⟩

namespace EngineGatePluginScopeV1

def snapshot (scope : EngineGatePluginScopeV1 Middleware) : List Middleware := scope.handlers

def use (scope : EngineGatePluginScopeV1 Middleware) (middleware : Option Middleware) :
    Except String (EngineGatePluginScopeV1 Middleware) :=
  match middleware with
  | none => .error "Invalid Engine Gate middleware"
  | some middleware =>
    if scope.registryClosed || scope.closed || 32 ≤ scope.handlers.length then
      .error "Invalid Engine Gate middleware"
    else if middleware ∈ scope.handlers then .error "Duplicate Engine Gate middleware"
    else .ok { scope with
      handlers := scope.handlers ++ [middleware]
      handles := scope.handles ++ [⟨middleware, false⟩] }

def disposeHandle (scope : EngineGatePluginScopeV1 Middleware) (index : ℕ) :
    Option (EngineGatePluginScopeV1 Middleware) :=
  scope.handles[index]?.map fun handle =>
    { scope with
      handlers := scope.handlers.erase handle.middleware
      handles := scope.handles.modify index EngineGateHandleV1.dispose }

def dispose (scope : EngineGatePluginScopeV1 Middleware) : EngineGatePluginScopeV1 Middleware :=
  { scope with closed := true, handlers := [] }

end EngineGatePluginScopeV1

inductive EngineGateScopeCall (Middleware : Type) where
  | use (middleware : Option Middleware)
  | disposeHandle (index : ℕ)
  | dispose
  | close

def EngineGateScopeCall.apply (scope : EngineGatePluginScopeV1 Middleware) :
    EngineGateScopeCall Middleware → Option (EngineGatePluginScopeV1 Middleware)
  | .use middleware => some ((scope.use middleware).toOption.getD scope)
  | .disposeHandle index => scope.disposeHandle index
  | .dispose => some scope.dispose
  | .close => some { scope with registryClosed := true }

def engineGateScope (scope : EngineGatePluginScopeV1 Middleware) :
    Machine (EngineGatePluginScopeV1 Middleware) (EngineGateScopeCall Middleware) where
  start := scope
  step scope call := call.apply scope

namespace EngineGatePluginScopeV1

variable {scope next : EngineGatePluginScopeV1 Middleware}

def undisposed (handles : List (EngineGateHandleV1 Middleware)) : List Middleware :=
  (handles.filter fun handle => !handle.disposed).map EngineGateHandleV1.middleware

def isOrderly (scope : EngineGatePluginScopeV1 Middleware) :
    EngineGateScopeCall Middleware → Bool
  | .disposeHandle index =>
    scope.handles[index]?.all fun handle => !handle.disposed || handle.middleware ∉ scope.handlers
  | _ => true

/-- The set holds each registration that is left, once. -/
structure Listed (scope : EngineGatePluginScopeV1 Middleware) : Prop where
  once : scope.handlers.Nodup
  registered : scope.closed = false → scope.snapshot = undisposed scope.handles
  emptied : scope.closed = true → scope.handlers = []

variable {handles : List (EngineGateHandleV1 Middleware)} {index : ℕ}
  {handle : EngineGateHandleV1 Middleware} {call : EngineGateScopeCall Middleware}

theorem undisposed_modify (here : handles[index]? = some handle) (once : (undisposed handles).Nodup)
    (live : handle.disposed = false) :
    undisposed (handles.modify index EngineGateHandleV1.dispose) =
      (undisposed handles).erase handle.middleware := by
  induction handles generalizing index with
  | nil => cases here
  | cons first rest ih =>
    cases index with
    | zero =>
      have same : first = handle := Option.some.inj here
      subst same
      unfold undisposed EngineGateHandleV1.dispose
      rw [List.modify_zero_cons, List.filter_cons_of_neg (by simp),
        List.filter_cons_of_pos (by simp [live]), List.map_cons, List.erase_cons_head]
    | succ index =>
      have later : rest[index]? = some handle := here
      have listed : handle.middleware ∈ undisposed rest :=
        List.mem_map.mpr ⟨handle, List.mem_filter.mpr
          ⟨List.mem_of_getElem? later, by simp [live]⟩, rfl⟩
      rw [List.modify_succ_cons]
      by_cases gone : first.disposed = true
      · have front : ∀ handles, undisposed (first :: handles) = undisposed handles := by
          intro handles
          unfold undisposed
          rw [List.filter_cons_of_neg (by simp [gone])]
        rw [front] at once ⊢
        rw [front, ih later once]
      · have front : ∀ handles,
            undisposed (first :: handles) = first.middleware :: undisposed handles := by
          intro handles
          unfold undisposed
          rw [List.filter_cons_of_pos (by simpa using gone), List.map_cons]
        rw [front] at once ⊢
        rw [front, ih later (List.nodup_cons.mp once).2]
        have differs : first.middleware ≠ handle.middleware := by
          intro clash
          rw [clash] at once
          exact (List.nodup_cons.mp once).1 listed
        rw [List.erase_cons_tail (by simpa using differs)]

omit [DecidableEq Middleware] in
theorem undisposed_modify_of_disposed (here : handles[index]? = some handle)
    (gone : handle.disposed = true) :
    handles.modify index EngineGateHandleV1.dispose = handles := by
  have same : EngineGateHandleV1.dispose handle = handle := by
    unfold EngineGateHandleV1.dispose
    rw [← gone]
  apply List.ext_getElem?
  intro place
  rw [List.getElem?_modify]
  by_cases there : index = place
  · subst there
    simp [here, same]
  · simp [there]

omit [DecidableEq Middleware] in
theorem undisposed_append (handles : List (EngineGateHandleV1 Middleware))
    (middleware : Middleware) :
    undisposed (handles ++ [⟨middleware, false⟩]) = undisposed handles ++ [middleware] := by
  unfold undisposed
  rw [List.filter_append, List.map_append]
  rfl

theorem Listed.use (listed : scope.Listed) (middleware : Option Middleware) :
    ((scope.use middleware).toOption.getD scope).Listed := by
  cases middleware with
  | none => exact listed
  | some middleware =>
    unfold EngineGatePluginScopeV1.use
    simp only
    split_ifs with refused known
    · exact listed
    · exact listed
    · have notClosed : scope.closed = false := by
        simp only [Bool.or_eq_true, not_or] at refused
        exact Bool.not_eq_true _ ▸ refused.1.2
      refine ⟨?_, ?_, ?_⟩
      · change (scope.handlers ++ [middleware]).Nodup
        exact nodup_concat listed.once known
      · intro _
        have before : scope.handlers = undisposed scope.handles := listed.registered notClosed
        change scope.handlers ++ [middleware] = undisposed (scope.handles ++ [⟨middleware, false⟩])
        rw [undisposed_append, before]
      · intro closed
        have was : scope.closed = true := closed
        rw [notClosed] at was
        cases was

theorem isOrderly_disposeHandle (here : scope.handles[index]? = some handle) :
    scope.isOrderly (.disposeHandle index) =
      (!handle.disposed || decide (handle.middleware ∉ scope.handlers)) := by
  change scope.handles[index]?.all _ = _
  rw [here, Option.all_some]

theorem Listed.disposeHandle (listed : scope.Listed)
    (orderly : scope.isOrderly (.disposeHandle index) = true)
    (disposed : scope.disposeHandle index = some next) : next.Listed := by
  obtain ⟨handle, here, made⟩ := Option.map_eq_some_iff.mp disposed
  subst made
  refine ⟨listed.once.erase _, ?_, ?_⟩
  · intro notClosed
    have before : scope.handlers = undisposed scope.handles := listed.registered notClosed
    have once : (undisposed scope.handles).Nodup := before ▸ listed.once
    change scope.handlers.erase handle.middleware =
      undisposed (scope.handles.modify index EngineGateHandleV1.dispose)
    by_cases gone : handle.disposed = true
    · have absent : handle.middleware ∉ scope.handlers := by
        rw [isOrderly_disposeHandle here] at orderly
        simpa [gone] using orderly
      rw [undisposed_modify_of_disposed here gone, List.erase_of_not_mem absent, before]
    · rw [undisposed_modify here once (by simpa using gone), before]
  · intro closed
    have empty : scope.handlers = [] := listed.emptied closed
    change scope.handlers.erase handle.middleware = []
    rw [empty, List.erase_nil]

theorem Listed.step (listed : scope.Listed) (orderly : scope.isOrderly call = true)
    (stepped : call.apply scope = some next) : next.Listed := by
  cases call with
  | use middleware =>
    cases stepped
    exact listed.use middleware
  | disposeHandle index => exact listed.disposeHandle orderly stepped
  | dispose =>
    cases stepped
    exact ⟨List.nodup_nil, (by rintro ⟨⟩), fun _ => rfl⟩
  | close =>
    cases stepped
    exact ⟨listed.once, listed.registered, listed.emptied⟩

omit [DecidableEq Middleware] in
theorem Listed.create {registryClosed : Bool} {instanceId : Text}
    (created : createPluginScope registryClosed instanceId = .ok scope) : scope.Listed := by
  unfold createPluginScope at created
  split_ifs at created
  cases created
  exact ⟨List.nodup_nil, fun _ => rfl, (by rintro ⟨⟩)⟩

theorem Listed.step_iff (listed : scope.Listed) (stepped : call.apply scope = some next) :
    (next.closed = false → next.snapshot = undisposed next.handles) ↔
      scope.isOrderly call = true := by
  constructor
  · intro right
    cases call with
    | disposeHandle index =>
      obtain ⟨handle, here, made⟩ := Option.map_eq_some_iff.mp stepped
      subst made
      rw [isOrderly_disposeHandle here]
      by_cases gone : handle.disposed = true
      · have absent : handle.middleware ∉ scope.handlers := by
          intro present
          cases closed : scope.closed with
          | true =>
            rw [listed.emptied closed] at present
            exact absurd present List.not_mem_nil
          | false =>
            have after : scope.handlers.erase handle.middleware =
                undisposed (scope.handles.modify index EngineGateHandleV1.dispose) := right closed
            have before : scope.handlers = undisposed scope.handles := listed.registered closed
            rw [undisposed_modify_of_disposed here gone, ← before] at after
            have shorter := List.length_erase_of_mem present
            have some' := List.length_pos_of_mem present
            rw [after] at shorter
            omega
        rw [gone, decide_eq_true absent]
        rfl
      · rw [Bool.eq_false_iff.mpr gone]
        rfl
    | _ => rfl
  · intro orderly
    exact (listed.step orderly stepped).registered

/-- While no disposed handle is disposed again over a later registration of its middleware, the
snapshot lists the middleware of the handles that are left, in registration order, and a call ends
that exactly when it is such a disposal. -/
theorem snapshot_registered {registryClosed : Bool} {instanceId : Text}
    {state : EngineGatePluginScopeV1 Middleware} {calls : List (EngineGateScopeCall Middleware)}
    (created : createPluginScope registryClosed instanceId = .ok scope)
    (reached : (engineGateScope scope).ReachesWhen
      (fun state call => state.isOrderly call = true) calls state) :
    (state.closed = false → state.snapshot = undisposed state.handles) ∧
    (∀ call next, EngineGateScopeCall.apply state call = some next →
      ((next.closed = false → next.snapshot = undisposed next.handles) ↔
        state.isOrderly call = true)) ∧
    ∀ index handle next, state.handles[index]? = some handle → handle.disposed = true →
      state.disposeHandle index = some next → state.isOrderly (.disposeHandle index) = true →
      next.snapshot = state.snapshot := by
  have listed : state.Listed := reached.invariant (Listed.create created)
    fun _ _ _ before orderly stepped => before.step orderly stepped
  refine ⟨listed.registered, fun _ _ stepped => listed.step_iff stepped, ?_⟩
  intro index handle next here gone disposed orderly
  obtain ⟨found, there, made⟩ := Option.map_eq_some_iff.mp disposed
  rw [here] at there
  cases there
  subst made
  have absent : handle.middleware ∉ state.handlers := by
    rw [isOrderly_disposeHandle here] at orderly
    simpa [gone] using orderly
  exact List.erase_of_not_mem absent

/-- A middleware that was disposed is registered again, and its old handle disposed once more while
it is not registered. -/
theorem snapshot_registered_again :
    ∃ state : EngineGatePluginScopeV1 ℕ,
      (engineGateScope ⟨[0x61], [], false, false, []⟩).ReachesWhen
        (fun state call => state.isOrderly call = true)
        [.use (some 1), .use (some 2), .disposeHandle 0, .disposeHandle 0, .use (some 1)] state ∧
      state.snapshot = [2, 1] ∧ state.snapshot = undisposed state.handles := by
  have ran : (((engineGateScope ⟨[0x61], [], false, false, []⟩).guarded
      fun state call => state.isOrderly call = true).run
        [.use (some 1), .use (some 2), .disposeHandle 0, .disposeHandle 0, .use (some 1)]).map
        (fun state => (state.closed, state.snapshot)) = some (false, [2, 1]) := by
    decide +kernel
  obtain ⟨state, reached, same⟩ := Machine.exists_of_guarded_run ran
  rw [Prod.mk.injEq] at same
  have created : createPluginScope false [0x61] =
      .ok (⟨[0x61], [], false, false, []⟩ : EngineGatePluginScopeV1 ℕ) := by
    decide +kernel
  exact ⟨state, reached, same.2, (snapshot_registered created reached).1 same.1⟩

/-- The old handle of a middleware that was registered again takes it out. -/
theorem snapshot_dropped :
    ¬ ∀ (calls : List (EngineGateScopeCall ℕ)) (state : EngineGatePluginScopeV1 ℕ),
      (engineGateScope ⟨[0x61], [], false, false, []⟩).Reaches calls state →
      state.closed = false → state.snapshot = undisposed state.handles := by
  intro claimed
  have ran : ((engineGateScope ⟨[0x61], [], false, false, []⟩).run
      [.use (some 1), .disposeHandle 0, .use (some 1), .disposeHandle 0]).map
        (fun state => (state.closed, state.snapshot, (undisposed state.handles : List ℕ))) =
      some (false, [], [1]) := by
    decide +kernel
  obtain ⟨state, reached, same⟩ := Machine.exists_of_run ran
  rw [Prod.mk.injEq, Prod.mk.injEq] at same
  have right := claimed _ state reached same.1
  rw [same.2.1, same.2.2] at right
  cases right

end EngineGatePluginScopeV1

end Holonomy.Runtime
