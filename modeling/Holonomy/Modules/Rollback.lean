import Holonomy.Modules.Keeping
import Holonomy.Modules.Rooted

/-!
# Transactions are undone completely

Undoing a transaction gives the caches from which it started, at whatever point it is undone: every
entry notes what undoing needs, and no entry notes less than it changes. So the caches of a loader
are those of its calls one after the other, each from the caches that the calls before it have left,
and a call that failed can as well be left out.
-/

namespace Holonomy.Modules

open Foundation Asking

section Undoing

variable {α : Type}

theorem lookup_dropKeys (cache : Cache α) (keys : List Text) (key : Text) :
    (dropKeys cache keys).lookup key = if key ∈ keys then none else cache.lookup key := by
  unfold dropKeys
  induction keys generalizing cache with
  | nil => rw [if_neg List.not_mem_nil]; rfl
  | cons first rest ih =>
    rw [List.foldl_cons, ih]
    by_cases later : key ∈ rest
    · rw [if_pos later, if_pos (List.mem_cons_of_mem _ later)]
    · rw [if_neg later]
      by_cases same : key = first
      · rw [if_pos (same ▸ List.mem_cons_self), same, Finmap.lookup_erase]
      · rw [if_neg (fun among => (List.mem_cons.mp among).elim same later),
          Finmap.lookup_erase_ne same]

variable {key : Text} {cache : Cache α}

theorem dropKeys_insert (missing : cache.lookup key = none) (value : α) (keys : List Text) :
    dropKeys (cache.insert key value) (keys ++ [key]) = dropKeys cache keys := by
  refine Finmap.ext_lookup fun other => ?_
  rw [lookup_dropKeys, lookup_dropKeys]
  by_cases same : other = key
  · rw [if_pos (List.mem_append_right _ (List.mem_singleton.mpr same)), same, missing, ite_self]
  · rw [Finmap.lookup_insert_of_ne _ same]
    have iff : other ∈ keys ++ [key] ↔ other ∈ keys := by
      rw [List.mem_append, List.mem_singleton, or_iff_left same]
    by_cases among : other ∈ keys
    · rw [if_pos among, if_pos (iff.mpr among)]
    · rw [if_neg among, if_neg (among ∘ iff.mp)]

theorem dropKeys_insert_of_mem {keys : List Text} (among : key ∈ keys) (value : α) :
    dropKeys (cache.insert key value) keys = dropKeys cache keys := by
  refine Finmap.ext_lookup fun other => ?_
  rw [lookup_dropKeys, lookup_dropKeys]
  by_cases same : other = key
  · rw [if_pos (same ▸ among), if_pos (same ▸ among)]
  · rw [Finmap.lookup_insert_of_ne _ same]

theorem restore_append (cache : Cache α) (prior : List (Text × α)) (key : Text) (value : α) :
    restore cache (prior ++ [(key, value)]) = (restore cache prior).insert key value := by
  unfold restore
  rw [List.foldl_append]
  rfl

theorem lookup_restore_congr {first second : Cache α}
    (same : first.lookup key = second.lookup key) (prior : List (Text × α)) :
    (restore first prior).lookup key = (restore second prior).lookup key := by
  induction prior generalizing first second with
  | nil => exact same
  | cons entry rest ih =>
    refine ih ?_
    by_cases equal : key = entry.1
    · rw [equal, Finmap.lookup_insert, Finmap.lookup_insert]
    · rw [Finmap.lookup_insert_of_ne _ equal, Finmap.lookup_insert_of_ne _ equal, same]

theorem lookup_restore_of_mem (first second : Cache α) {prior : List (Text × α)}
    (among : key ∈ prior.map Prod.fst) :
    (restore first prior).lookup key = (restore second prior).lookup key := by
  induction prior generalizing first second with
  | nil => exact absurd among List.not_mem_nil
  | cons entry rest ih =>
    by_cases equal : key = entry.1
    · refine lookup_restore_congr ?_ rest
      rw [equal, Finmap.lookup_insert, Finmap.lookup_insert]
    · exact ih _ _ ((List.mem_cons.mp among).resolve_left equal)

theorem lookup_restore {prior : List (Text × α)}
    (missing : key ∉ prior.map Prod.fst) : (restore cache prior).lookup key = cache.lookup key := by
  unfold restore
  induction prior generalizing cache with
  | nil => rfl
  | cons entry rest ih =>
    rw [List.map_cons, List.mem_cons, not_or] at missing
    rw [List.foldl_cons, ih missing.2, Finmap.lookup_insert_of_ne _ missing.1]

theorem foldl_erase_insert {β : Type} [DecidableEq β] {known : Finset β} {value : β}
    (missing : value ∉ known) (values : List β) :
    (values ++ [value]).foldl Finset.erase (insert value known) =
      values.foldl Finset.erase known := by
  have mem : ∀ (values : List β) (known : Finset β) (other : β),
      other ∈ values.foldl Finset.erase known ↔ other ∈ known ∧ other ∉ values := by
    intro values
    induction values with
    | nil => intro known other; simp only [List.foldl_nil, List.not_mem_nil, not_false_eq_true,
        and_true]
    | cons first rest ih =>
      intro known other
      rw [List.foldl_cons, ih, Finset.mem_erase, List.mem_cons, not_or]
      tauto
  ext other
  rw [mem, mem, Finset.mem_insert, List.mem_append, List.mem_singleton, not_or]
  by_cases same : other = value
  · rw [same]
    tauto
  · tauto

end Undoing

section Entries

theorem lookup_none {α : Type} {cache : Cache α} {key : Text}
    (missing : ¬ (cache.lookup key).isSome = true) : cache.lookup key = none :=
  Option.not_isSome_iff_eq_none.mp missing

variable (working : Working)

theorem rollback_enterResolution (key url : Text) :
    rollbackTransaction (enterResolution key url working) = rollbackTransaction working := by
  unfold enterResolution
  by_cases known : (working.caches.resolutionCache.lookup key).isSome
  · rw [if_pos known]
  · rw [if_neg known]
    simp only [rollbackTransaction, dropKeys_insert (lookup_none known)]

theorem rollback_enterModule (key : Text) (module : PlannedModule) :
    rollbackTransaction (enterModule key module working) = rollbackTransaction working := by
  unfold enterModule
  by_cases known : (working.caches.moduleCache.lookup key).isSome
  · rw [if_pos known]
  · rw [if_neg known]
    simp only [rollbackTransaction, dropKeys_insert (lookup_none known)]

theorem rollback_addDependency {url : Text} (dependency : ModuleDependency)
    (entered : url ∈ working.transaction.moduleKeys) :
    rollbackTransaction (addDependency url dependency working) = rollbackTransaction working := by
  unfold addDependency
  split
  · rfl
  · simp only [rollbackTransaction, dropKeys_insert_of_mem entered]

theorem rollback_enterPackage (key : Text) (packageData : Option ParsedPackage) :
    rollbackTransaction (enterPackage key packageData working) = rollbackTransaction working := by
  unfold enterPackage
  by_cases known : (working.caches.packageCache.lookup key).isSome
  · rw [if_pos known]
  · rw [if_neg known]
    simp only [rollbackTransaction, dropKeys_insert (lookup_none known)]

theorem rollback_enterSource (key : Text) (source : VerifiedSource) :
    rollbackTransaction (enterSource key source working) = rollbackTransaction working := by
  unfold enterSource
  by_cases known : (working.caches.sourceCache.lookup key).isSome
  · rw [if_pos known]
  · rw [if_neg known]
    simp only [rollbackTransaction, dropKeys_insert (lookup_none known)]

theorem rollback_exchangeSource (key : Text) (source : VerifiedSource) :
    rollbackTransaction (exchangeSource key source working) = rollbackTransaction working := by
  unfold exchangeSource
  split
  · exact rollback_enterSource working key source
  case h_2 prior known =>
    set keys := working.transaction.sourceKeys with keysEq
    set noted := working.transaction.sourcePriorValues with notedEq
    have sources : restore (dropKeys (working.caches.sourceCache.insert key source) keys)
        (if key ∈ keys ∨ key ∈ noted.map Prod.fst then noted else noted ++ [(key, prior)]) =
        restore (dropKeys working.caches.sourceCache keys) noted := by
      by_cases entered : key ∈ keys
      · rw [if_pos (.inl entered), dropKeys_insert_of_mem entered]
      · have elsewhere : ∀ other, other ≠ key →
            (dropKeys (working.caches.sourceCache.insert key source) keys).lookup other =
              (dropKeys working.caches.sourceCache keys).lookup other := by
          intro other different
          rw [lookup_dropKeys, lookup_dropKeys, Finmap.lookup_insert_of_ne _ different]
        refine Finmap.ext_lookup fun other => ?_
        by_cases before : key ∈ noted.map Prod.fst
        · rw [if_pos (.inr before)]
          by_cases same : other = key
          · exact lookup_restore_of_mem _ _ (same ▸ before)
          · exact lookup_restore_congr (elsewhere other same) noted
        · rw [if_neg (not_or.mpr ⟨entered, before⟩), restore_append]
          by_cases same : other = key
          · rw [same, Finmap.lookup_insert, lookup_restore before, lookup_dropKeys,
              if_neg entered, known]
          · rw [Finmap.lookup_insert_of_ne _ same]
            exact lookup_restore_congr (elsewhere other same) noted
    simp only [rollbackTransaction, sources, ← keysEq, ← notedEq]

theorem rollback_enterModuleGrant (url : Text) :
    rollbackTransaction (enterModuleGrant url working) = rollbackTransaction working := by
  unfold enterModuleGrant
  by_cases known : url ∈ working.caches.moduleGrantUrls
  · rw [if_pos known]
  · rw [if_neg known]
    simp only [rollbackTransaction, foldl_erase_insert known]

theorem rollback_enterAlias (url canonicalUrl : Text) :
    rollbackTransaction (enterAlias url canonicalUrl working) = rollbackTransaction working := by
  unfold enterAlias
  by_cases known : (working.caches.aliasCache.lookup url).isSome
  · rw [if_pos known]
  · rw [if_neg known]
    simp only [rollbackTransaction, dropKeys_insert (lookup_none known)]

theorem rollback_enterNegativeSource (key : ModuleReadPurpose × Text) :
    rollbackTransaction (enterNegativeSource key working) = rollbackTransaction working := by
  unfold enterNegativeSource
  by_cases known : key ∈ working.caches.negativeSourceCache
  · rw [if_pos known]
  · rw [if_neg known]
    simp only [rollbackTransaction, foldl_erase_insert known]

theorem keptByLoading_rollback (before : Caches) :
    KeptByLoading fun working => rollbackTransaction working = before where
  resolution key url working undone := (rollback_enterResolution working key url).trans undone
  package key packageData working undone :=
    (rollback_enterPackage working key packageData).trans undone
  source key source working undone := (rollback_enterSource working key source).trans undone
  exchange key source working undone := (rollback_exchangeSource working key source).trans undone
  moduleGrant url working undone := (rollback_enterModuleGrant working url).trans undone
  aliasing url canonicalUrl working undone :=
    (rollback_enterAlias working url canonicalUrl).trans undone
  negativeSource key working undone := (rollback_enterNegativeSource working key).trans undone
  bytes _ _ _ undone := undone
  moduleUrl _ _ undone := undone
  steps _ _ undone := undone
  module key module working undone := (rollback_enterModule working key module).trans undone
  dependency _ dependency working undone entered :=
    (rollback_addDependency working dependency entered).trans undone

end Entries

section Calls

variable (loader : HolonomyModuleLoader)

theorem begin_undone (call : LoaderCall) (caches : Caches) :
    (loader.begin call caches).Ensures (fun _ working => rollbackTransaction working = caches)
      fun _ working => rollbackTransaction working = caches :=
  (keeps_operation (keptByLoading_rollback caches) call).always rfl

inductive OneByOne : Caches → List FinishedCall → Caches → Prop where
  | nil (caches : Caches) : OneByOne caches [] caches
  | resolved {before after : Caches} {call : LoaderCall} {answers : List HostAnswer}
    {begun : Begun} {working : Working} {rest : List FinishedCall}
    (ran : (loader.begin call before).answered answers = some (.done (.ok begun) working))
    (others : OneByOne working.caches rest after) :
    OneByOne before (⟨call, answers, .ok (loader.finish working.caches begun)⟩ :: rest) after
  | rejected {before after : Caches} {call : LoaderCall} {answers : List HostAnswer}
    {error : HolonomyModuleLoaderError} {working : Working} {rest : List FinishedCall}
    (ran : (loader.begin call before).answered answers = some (.done (.error error) working))
    (others : OneByOne before rest after) :
    OneByOne before (⟨call, answers, .error error⟩ :: rest) after

variable {loader}

theorem OneByOne.append {first middle last : Caches} {calls more : List FinishedCall}
    (left : OneByOne loader first calls middle) (right : OneByOne loader middle more last) :
    OneByOne loader first (calls ++ more) last := by
  induction left with
  | nil => exact right
  | resolved ran _ ih => exact .resolved ran (ih right)
  | rejected ran _ ih => exact .rejected ran (ih right)

theorem OneByOne.sublist {before after : Caches} {calls kept : List FinishedCall}
    (all : OneByOne loader before calls after) (fewer : kept.Sublist calls)
    (resolved : kept.filter (fun call => !call.rejected) =
      calls.filter fun call => !call.rejected) : OneByOne loader before kept after := by
  induction all generalizing kept with
  | nil caches =>
    rw [List.sublist_nil.mp fewer]
    exact .nil caches
  | @resolved before after call answers begun working rest ran others ih =>
    cases fewer with
    | cons _ fewer =>
      -- What is kept has fewer calls that returned than there are.
      have fewerResolved := (fewer.filter fun call => !call.rejected).length_le
      rw [resolved, List.filter_cons_of_pos rfl, List.length_cons] at fewerResolved
      exact absurd fewerResolved (by omega)
    | cons_cons _ fewer =>
      rw [List.filter_cons_of_pos rfl, List.filter_cons_of_pos rfl, List.cons.injEq] at resolved
      exact .resolved ran (ih fewer resolved.2)
  | @rejected before after call answers error working rest ran others ih =>
    cases fewer with
    | cons _ fewer => exact ih fewer resolved
    | cons_cons _ fewer => exact .rejected ran (ih fewer resolved)

end Calls

section Runs

variable {loader : HolonomyModuleLoader}

structure Serial (loader : HolonomyModuleLoader) (state : LoaderState) : Prop where
  inOrder : state.admitted = state.finished.map FinishedCall.call ++
    state.active.toList.map ActiveCall.call ++ state.queue
  oneByOne : OneByOne loader Caches.new state.finished state.settledCaches
  running : ∀ active ∈ state.active,
    (loader.begin active.call state.settledCaches).answered active.answers = some active.task

theorem rollback_answered {call : LoaderCall} {caches : Caches} {answers : List HostAnswer}
    {task : Transaction} (becomes : (loader.begin call caches).answered answers = some task) :
    rollbackTransaction task.state = caches :=
  ((begin_undone loader call caches).answered becomes).state

/-- Every step keeps the calls in order. -/
theorem serial_step {state next : LoaderState} {event : LoaderEvent} (serial : Serial loader state)
    (stepped : loader.step state event = some next) : Serial loader next := by
  cases event with
  | call call =>
    simp only [HolonomyModuleLoader.step] at stepped
    split at stepped
    · exact Option.some.inj stepped ▸ serial
    · cases stepped
      exact ⟨by rw [serial.inOrder, List.append_assoc], serial.oneByOne, serial.running⟩
  | start =>
    simp only [HolonomyModuleLoader.step] at stepped
    split at stepped
    case h_1 call rest idle waiting =>
      cases stepped
      have settled : state.settledCaches = state.caches := by
        unfold LoaderState.settledCaches
        rw [idle]
      have begun : (loader.begin call state.caches).answered [] =
          some (loader.begin call state.caches) := Task.answered_nil
      have undone := rollback_answered begun
      refine ⟨?_, ?_, ?_⟩
      · show state.admitted = _
        rw [serial.inOrder, idle, waiting]
        simp only [LoaderState.resume, Option.toList_none, List.map_nil, List.append_nil,
          Option.toList_some, List.map_cons, List.append_assoc, List.singleton_append]
      · show OneByOne loader Caches.new state.finished
          (rollbackTransaction (loader.begin call state.caches).state)
        rw [undone, ← settled]
        exact serial.oneByOne
      · intro active isActive
        cases isActive
        show (loader.begin call
          (rollbackTransaction (loader.begin call state.caches).state)).answered
          [] = _
        rw [undone]
        exact Task.answered_nil
    case h_2 => cases stepped
  | returned =>
    simp only [HolonomyModuleLoader.step] at stepped
    split at stepped
    · cases stepped
      exact ⟨serial.inOrder, serial.oneByOne, serial.running⟩
    · cases stepped
  | answer answer =>
    simp only [HolonomyModuleLoader.step] at stepped
    split at stepped
    case h_1 call answers question working resume isActive =>
      cases stepped
      have before := serial.running _ isActive
      have after := Task.answered_append before answer
      have same : rollbackTransaction (resume answer).state = state.settledCaches :=
        rollback_answered after
      refine ⟨?_, ?_, ?_⟩
      · show state.admitted = _
        rw [serial.inOrder, isActive]
        rfl
      · show OneByOne loader Caches.new state.finished (rollbackTransaction (resume answer).state)
        rw [same]
        exact serial.oneByOne
      · intro active becomes
        cases becomes
        show (loader.begin call (rollbackTransaction (resume answer).state)).answered
          (answers ++ [answer]) = _
        rw [same]
        exact after
    case h_2 => cases stepped
  | settle =>
    simp only [HolonomyModuleLoader.step] at stepped
    split at stepped
    case h_1 call answers result working isActive =>
      cases stepped
      have ran := serial.running _ isActive
      have undone : rollbackTransaction working = state.settledCaches := rollback_answered ran
      refine ⟨?_, ?_, fun active isActive => by cases isActive⟩
      · show state.admitted = _
        rw [serial.inOrder, isActive]
        simp only [Option.toList_some, List.map_cons, List.map_nil, Option.toList_none,
          List.append_nil, List.map_append]
      · refine serial.oneByOne.append ?_
        cases result with
        | ok begun => exact .resolved ran (.nil _)
        | error error =>
          show OneByOne loader _ _ (rollbackTransaction working)
          rw [undone]
          exact .rejected ran (.nil _)
    case h_2 => cases stepped

theorem serial_of_reaches {events : List LoaderEvent} {state : LoaderState}
    (reached : loader.machine.Reaches events state) : Serial loader state :=
  reached.invariant ⟨rfl, .nil _, fun active isActive => by cases isActive⟩
    fun _ _ _ serial stepped => serial_step serial stepped

/-- The calls of a loader run one after the other in the order in which they were made, each from
the caches that the calls before it have left. A call that fails leaves the caches as they were, so
that any calls that failed can be left out: the others answer what they answer with them. -/
theorem transactions_atomic {events : List LoaderEvent} {state : LoaderState}
    (reached : loader.machine.Reaches events state) :
    state.admitted = state.finished.map FinishedCall.call ++
        state.active.toList.map ActiveCall.call ++ state.queue ∧
      ∃ before : Caches,
        (∀ kept : List FinishedCall, kept.Sublist state.finished →
          kept.filter (fun call => !call.rejected) =
            state.finished.filter (fun call => !call.rejected) →
          OneByOne loader Caches.new kept before) ∧
        (state.active = none → state.caches = before) ∧
        ∀ active ∈ state.active,
          (loader.begin active.call before).answered active.answers = some active.task ∧
            ∀ error working, active.task = .done (.error error) working →
              rollbackTransaction working = before := by
  have serial := serial_of_reaches reached
  refine ⟨serial.inOrder, state.settledCaches, ?_, ?_, ?_⟩
  · intro kept fewer resolved
    exact serial.oneByOne.sublist fewer resolved
  · intro idle
    unfold LoaderState.settledCaches
    rw [idle]
  · intro active isActive
    have running := serial.running active isActive
    refine ⟨running, fun error working failed => ?_⟩
    have undone := rollback_answered running
    rw [failed] at undone
    exact undone

/-- A call that fails in its second module, and one that waits for it. -/
theorem transactions_atomic_failing : ∃ state,
    (plainLoader {} (js "app://h/")).machine.Reaches
      [.call (.createPlan (js "./a.mjs") none .import), .call (.load (js "app://h/c.mjs")), .start,
        .answer (plainSource (js "import './b.mjs'")), .answer .missing, .settle, .start,
        .answer (plainSource []), .settle] state ∧
      state.finished.map FinishedCall.rejected = [true, false] ∧
      state.admitted = state.finished.map FinishedCall.call ++
        state.active.toList.map ActiveCall.call ++ state.queue := by
  have run : ((plainLoader {} (js "app://h/")).machine.run
      [.call (.createPlan (js "./a.mjs") none .import), .call (.load (js "app://h/c.mjs")), .start,
        .answer (plainSource (js "import './b.mjs'")), .answer .missing, .settle, .start,
        .answer (plainSource []), .settle]).map (fun state =>
          state.finished.map FinishedCall.rejected) = some [true, false] := by
    decide +kernel
  obtain ⟨state, reached, fields⟩ := Machine.exists_of_run run
  exact ⟨state, reached, fields, (transactions_atomic reached).1⟩

end Runs

end Holonomy.Modules
