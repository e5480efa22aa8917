import Holonomy.Foundation.Tallies
import Holonomy.HoloUv.EnvironmentEvents

/-!
# Runs of the environments

The environments of an orderly run are in step with their generations in every state that the run
reaches, and the runtime comes to rest from there without its callers. In other runs a factory is
called for a closed generation, two environments go by one name, or one is closed twice.
-/

namespace Holonomy.HoloUv

open Foundation Kernel

/-- What the runtime and its microtasks do by themselves. -/
def EnvironmentEvent.isOwn : EnvironmentEvent → Bool
  | .proceed | .opens _ | .adopts _ | .calls _ => true
  | _ => false

/-- What a record still takes. -/
def EnvironmentRecord.work (record : EnvironmentRecord) : ℕ :=
  record.waiting +
    if record.progress = .scheduled ∨ record.progress = .returned ∨ record.progress = .rejected
    then 1 else 0

/-- What a call still takes. -/
def Frame.work : Frame → ℕ
  | .settling _ => 2
  | .mapping serials _ => 1 + 3 * serials.length

namespace HoloUvEnvironmentRuntime

/-- No call runs and no microtask waits. -/
def isAtRest (runtime : HoloUvEnvironmentRuntime) : Bool :=
  runtime.stack.isEmpty && runtime.issued.all EnvironmentRecord.isIdle

/-- What the runtime still does by itself. -/
def work (runtime : HoloUvEnvironmentRuntime) : ℕ :=
  tally EnvironmentRecord.work runtime.issued + tally Frame.work runtime.stack

def OpensInTime (runtime : HoloUvEnvironmentRuntime) : Prop :=
  ∀ before after number, runtime.history = before ++ Happening.opened number :: after →
    ∀ happening ∈ before, happening.ends number = false

def ClosesOnce (runtime : HoloUvEnvironmentRuntime) : Prop :=
  ∀ record ∈ runtime.issued, record.closes ≤ 1

def KeepsApart (runtime : HoloUvEnvironmentRuntime) : Prop :=
  ∀ (serial : ℕ) (record : EnvironmentRecord) (other : ℕ) (twin : EnvironmentRecord),
    serial ≠ other → runtime.issued[serial]? = some record →
      runtime.issued[other]? = some twin → record.environmentId = twin.environmentId →
        ¬ (record.isOpen = true ∧ twin.isOpen = true)

structure InStep (runtime : HoloUvEnvironmentRuntime) : Prop where
  opensInTime : runtime.OpensInTime
  closesOnce : runtime.ClosesOnce
  onlyAtEnd : ∀ record ∈ runtime.issued, 0 < record.closes → record.HasEnded runtime.history
  exactlyOnce : runtime.isAtRest = true → ∀ record ∈ runtime.issued, record.isReturned = true →
    record.HasEnded runtime.history → record.closes = 1
  rests : ∃ events last, environmentMachine.Leads (fun _ event => event.isOwn = true)
    runtime events last ∧ last.isAtRest = true
  keepsApart : runtime.KeepsApart

variable {runtime next : HoloUvEnvironmentRuntime} {serial : ℕ} {record : EnvironmentRecord}

section Rest

theorem isOrderly_of_isOwn {event : EnvironmentEvent} (own : event.isOwn = true) :
    runtime.isOrderly event = true := by
  cases event with
  | proceed => rfl
  | opens serial => rfl
  | adopts serial => rfl
  | calls serial => rfl
  | _ => cases own

section

variable (here : runtime.issued[serial]? = some record)

include here

theorem work_change (changed : EnvironmentRecord → EnvironmentRecord) :
    (runtime.change serial changed).work + record.work =
      runtime.work + (changed record).work := by
  have tallied : tally EnvironmentRecord.work (runtime.issued.modify serial changed) + record.work =
      tally EnvironmentRecord.work runtime.issued + (changed record).work := tally_modify here
  unfold work
  change tally EnvironmentRecord.work (runtime.issued.modify serial changed) +
    tally Frame.work runtime.stack + _ = _
  omega

theorem work_register : (runtime.register serial).work = runtime.work + 1 := by
  have changed := work_change here fun record =>
    { record with closePromise := true, waiting := record.waiting + 1 }
  have more : ({ record with closePromise := true, waiting := record.waiting + 1 } :
      EnvironmentRecord).work = record.work + 1 := by
    unfold EnvironmentRecord.work
    simp only
    omega
  rw [more] at changed
  unfold register
  omega

/-- A closing that begins takes two more steps at most. -/
theorem work_closeRecord : (runtime.closeRecord serial record).work ≤ runtime.work + 2 := by
  have withdrawn : ∃ records, runtime.withdraw serial record.environmentId =
      { runtime with records := records } := by
    unfold withdraw
    split
    · exact ⟨_, rfl⟩
    · exact ⟨_, rfl⟩
  obtain ⟨records, same⟩ := withdrawn
  have marked : (({ runtime with records := records } : HoloUvEnvironmentRuntime).change serial
      fun record => { record with closed := true, aborted := true }).work + record.work =
        runtime.work + record.work := work_change here fun record =>
          { record with closed := true, aborted := true }
  have found : (({ runtime with records := records } : HoloUvEnvironmentRuntime).change serial
      fun record => { record with closed := true, aborted := true }).issued[serial]? = some _ :=
    (Changes.of_modify here fun record => { record with closed := true, aborted := true }).made
  unfold closeRecord
  rw [same]
  generalize (({ runtime with records := records } : HoloUvEnvironmentRuntime).change serial
    fun record => { record with closed := true, aborted := true }) = left at marked found
  simp only
  split
  · omega
  · split
    · rw [work_register found]
      omega
    · have pushed : ({ left with stack := .settling serial :: left.stack } :
          HoloUvEnvironmentRuntime).work = left.work + 2 := by
        unfold work
        rw [tally_cons]
        change tally EnvironmentRecord.work left.issued + (2 + tally Frame.work left.stack) = _
        omega
      rw [pushed]
      omega

end

theorem Kept.goes (kept : runtime.Kept) (unrest : runtime.isAtRest = false) :
    ∃ event next, EnvironmentEvent.isOwn event = true ∧ runtime.step event = some next ∧
      next.work < runtime.work := by
  cases running : runtime.stack with
  | cons frame stack =>
    have popped : ({ runtime with stack := stack } : HoloUvEnvironmentRuntime).work + frame.work =
        runtime.work := by
      unfold work
      rw [running, tally_cons]
      change tally EnvironmentRecord.work runtime.issued + tally Frame.work stack + _ = _
      omega
    have top : frame ∈ runtime.stack := by
      rw [running]
      exact List.mem_cons_self ..
    cases frame with
    | settling serial =>
      have inside := kept.known _ top serial (List.mem_singleton.mpr rfl)
      have here : runtime.issued[serial]? = some runtime.issued[serial] :=
        List.getElem?_eq_getElem inside
      refine ⟨.proceed, ({ runtime with stack := stack }).register serial, rfl, ?_, ?_⟩
      · simp only [HoloUvEnvironmentRuntime.step, HoloUvEnvironmentRuntime.proceed, running]
      · have more : (({ runtime with stack := stack } : HoloUvEnvironmentRuntime).register
            serial).work = ({ runtime with stack := stack } : HoloUvEnvironmentRuntime).work + 1 :=
          work_register here
        change _ + 2 = _ at popped
        omega
    | mapping serials whole =>
      cases serials with
      | nil =>
        refine ⟨.proceed, { runtime with
          stack := stack, closePromise := runtime.closePromise || whole }, rfl, ?_, ?_⟩
        · simp only [HoloUvEnvironmentRuntime.step, HoloUvEnvironmentRuntime.proceed, running]
        · change ({ runtime with stack := stack } : HoloUvEnvironmentRuntime).work < _
          change _ + (1 + 3 * 0) = _ at popped
          omega
      | cons serial serials =>
        have inside := kept.known _ top serial (List.mem_cons_self ..)
        have here : runtime.issued[serial]? = some runtime.issued[serial] :=
          List.getElem?_eq_getElem inside
        have less : (({ runtime with stack := .mapping serials whole :: stack } :
            HoloUvEnvironmentRuntime).closeRecord serial runtime.issued[serial]).work ≤
            ({ runtime with stack := .mapping serials whole :: stack } :
              HoloUvEnvironmentRuntime).work + 2 := work_closeRecord here
        refine ⟨.proceed, ({ runtime with stack := .mapping serials whole :: stack }).closeRecord
          serial runtime.issued[serial], rfl, ?_, ?_⟩
        · simp only [HoloUvEnvironmentRuntime.step, HoloUvEnvironmentRuntime.proceed, running, here]
        · have shorter : ({ runtime with stack := .mapping serials whole :: stack } :
              HoloUvEnvironmentRuntime).work + 3 = runtime.work := by
            rw [← popped]
            unfold work
            rw [tally_cons]
            change tally EnvironmentRecord.work runtime.issued +
                (1 + 3 * serials.length + tally Frame.work stack) + 3 =
              tally EnvironmentRecord.work runtime.issued + tally Frame.work stack +
                (1 + 3 * (serials.length + 1))
            omega
          omega
  | nil =>
    unfold isAtRest at unrest
    rw [running, List.isEmpty_nil, Bool.true_and, List.all_eq_false] at unrest
    obtain ⟨record, listed, busy⟩ := unrest
    obtain ⟨serial, here⟩ := List.mem_iff_getElem?.mp listed
    have altered : ∀ (possible : EnvironmentRecord → Bool)
        (changed : EnvironmentRecord → EnvironmentRecord)
        (happened : EnvironmentRecord → List Happening), possible record = true →
        (changed record).work < record.work →
        ∃ next, runtime.microtask (runtime.alter serial possible changed happened) = some next ∧
          next.work < runtime.work := by
      intro possible changed happened able less
      refine ⟨{ runtime.change serial changed with
        history := runtime.history ++ happened record }, ?_, ?_⟩
      · simp only [microtask, running, if_true, HoloUvEnvironmentRuntime.alter, here, able]
      · have whole := work_change here changed
        change (runtime.change serial changed).work < runtime.work
        omega
    unfold EnvironmentRecord.isIdle at busy
    cases progress : record.progress with
    | scheduled =>
      obtain ⟨next, stepped, less⟩ := altered (fun record => record.progress = .scheduled)
        (fun record => { record with progress := .opening })
        (fun record => [.opened record.generation]) (decide_eq_true progress)
        (by simp [EnvironmentRecord.work, progress])
      exact ⟨.opens serial, next, rfl, stepped, less⟩
    | ready =>
      have waits : 0 < record.waiting := by
        rw [progress] at busy
        simp only [decide_eq_true_eq] at busy
        omega
      obtain ⟨next, stepped, less⟩ := altered
        (fun record => record.progress = .ready && 0 < record.waiting)
        (fun record => { record with
          waiting := record.waiting - 1, closes := record.closes + 1 }) (fun _ => [])
        (by simp [progress, waits]) (by simp [EnvironmentRecord.work, progress]; omega)
      exact ⟨.calls serial, next, rfl, stepped, less⟩
    | opening =>
      rw [progress] at busy
      exact absurd rfl busy
    | failed =>
      rw [progress] at busy
      exact absurd rfl busy
    | _ =>
      obtain ⟨next, stepped, less⟩ := altered
        (fun record => record.progress = .returned || record.progress = .rejected)
        (fun record => { record with progress := adopted record.progress }) (fun _ => [])
        (by simp [progress]) (by simp [EnvironmentRecord.work, progress, adopted])
      exact ⟨.adopts serial, next, rfl, stepped, less⟩

theorem Kept.rests (kept : runtime.Kept) :
    ∃ events last, environmentMachine.Leads (fun _ event => event.isOwn = true)
      runtime events last ∧ last.isAtRest = true := by
  generalize size : runtime.work = amount
  induction amount using Nat.strong_induction_on generalizing runtime with
  | _ amount ih =>
    cases rest : runtime.isAtRest with
    | true => exact ⟨[], runtime, .refl, rest⟩
    | false =>
      obtain ⟨event, next, own, stepped, less⟩ := kept.goes rest
      have keeps := kept.step (isOrderly_of_isOwn own) stepped
      obtain ⟨events, last, leads, resting⟩ := ih next.work (by omega) keeps rfl
      have first : environmentMachine.Leads (fun _ event => event.isOwn = true)
          runtime [event] next := .step .refl own stepped
      exact ⟨[event] ++ events, last, first.append leads, resting⟩

end Rest

theorem not_isOpen_of_isOver (over' : record.isOver = true) : record.isOpen = false := by
  unfold EnvironmentRecord.isOver at over'
  unfold EnvironmentRecord.isOpen EnvironmentRecord.isReturned
  cases progress : record.progress with
  | rejected => rfl
  | failed => rfl
  | _ =>
    simp [progress] at over' ⊢
    try omega

theorem Kept.inStep (kept : runtime.Kept) : runtime.InStep := by
  have bounded : ∀ record ∈ runtime.issued, record.closes ≤ 1 := by
    intro record listed
    obtain ⟨serial, here⟩ := List.mem_iff_getElem?.mp listed
    have once := (kept.sound serial record here).once
    have bit := record.closePromise.toNat_le
    omega
  constructor
  · intro before after number same happening listed
    have inOrder := kept.inOrder
    rw [same, List.pairwise_append] at inOrder
    exact inOrder.2.2 happening listed (.opened number) (List.mem_cons_self ..)
  · exact bounded
  · intro record listed called
    obtain ⟨serial, here⟩ := List.mem_iff_getElem?.mp listed
    have sound := kept.sound serial record here
    have once := sound.once
    refine sound.ends (sound.promised ?_)
    cases promise : record.closePromise with
    | false =>
      rw [promise, Bool.toNat_false] at once
      omega
    | true => rfl
  · intro rest record listed returned ended
    obtain ⟨serial, here⟩ := List.mem_iff_getElem?.mp listed
    have sound := kept.sound serial record here
    obtain ⟨empty, idle⟩ := (Bool.and_eq_true ..).mp rest
    have quiet : runtime.stack = [] := List.isEmpty_iff.mp empty
    have still := List.all_eq_true.mp idle record listed
    have ready : record.progress = .ready := by
      rcases (Bool.or_eq_true ..).mp returned with early | ready
      · rw [EnvironmentRecord.isIdle, of_decide_eq_true early] at still
        cases still
      · exact of_decide_eq_true ready
    rw [EnvironmentRecord.isIdle, ready] at still
    have none' : record.waiting = 0 := of_decide_eq_true still
    have closed : record.closed = true := by
      rcases sound.ended ended with closed | failed | ⟨serials, whole, running, -⟩
      · exact closed
      · rw [ready] at failed
        cases failed
      · rw [quiet] at running
        cases running
    have promised : record.closePromise = true := by
      rcases sound.settles closed with promised | running
      · exact promised
      · rw [quiet] at running
        cases running
    have once := sound.once
    rw [promised, none', Bool.toNat_true] at once
    omega
  · exact kept.rests
  · intro serial record other twin differ here there same both
    rcases kept.alone serial record other twin differ here there same with left | right
    · rw [not_isOpen_of_isOver left] at both
      cases both.1
    · rw [not_isOpen_of_isOver right] at both
      cases both.2

/-- Environments of orderly runs are opened and closed in step with their generations. -/
theorem environments_inStep (events : List EnvironmentEvent) (runtime : HoloUvEnvironmentRuntime)
    (reached : environmentMachine.ReachesWhen
      (fun runtime event => runtime.isOrderly event = true) events runtime) :
    runtime.InStep := by
  have kept : runtime.Kept := reached.invariant kept_new fun _ _ _ before orderly stepped =>
    before.step orderly stepped
  exact kept.inStep

def treeRequest : JsonValue :=
  .object [(js "executables", .array []), (js "generation", .number 1),
    (js "scope", .string (js "processTree"))]

def acquireTree : EnvironmentEvent := .acquire treeRequest (.string (js "7"))

def closings (runtime : HoloUvEnvironmentRuntime) : List ℕ × Bool :=
  (runtime.issued.map EnvironmentRecord.closes, runtime.isAtRest)

def twoTrees : List EnvironmentEvent :=
  [acquireTree, acquireTree, .opens 0, .settles 0 true, .adopts 0, .release 0, .proceed, .calls 0,
    .closes 0, acquireTree, .opens 1, .closeGeneration (.number 1), .proceed, .release 0,
    .proceed, .proceed, .settles 1 true, .adopts 1, .calls 1, .close, .proceed, .closes 1]

/-- Both environments are closed once. -/
theorem environments_inStep_twoTrees : ∃ runtime : HoloUvEnvironmentRuntime,
    runtime.closings = ([1, 1], true) ∧ runtime.InStep := by
  have ran : ((environmentMachine.guarded
      fun runtime event => runtime.isOrderly event = true).run twoTrees).map closings =
        some ([1, 1], true) := by
    decide +kernel
  obtain ⟨runtime, reached, closed⟩ := Machine.exists_of_guarded_run ran
  exact ⟨runtime, closed, environments_inStep twoTrees runtime
    reached⟩

def asksAgain : List EnvironmentEvent :=
  [acquireTree, .opens 0, .settles 0 true, .adopts 0, .release 0, .proceed, .calls 0, acquireTree,
    .opens 1, .settles 1 true]

def closedEarly : List EnvironmentEvent :=
  [acquireTree, .closeGeneration (.number 1), .proceed, .proceed, .proceed, .opens 0]

/-- A listener of an abort releases the lease whose release aborts. -/
def releasedTwice : List EnvironmentEvent :=
  [acquireTree, .opens 0, .settles 0 true, .adopts 0, .release 0, .release 0, .proceed, .calls 0,
    .calls 0]

/-- Two environments of one name are open, a closed generation is opened, and an environment is
closed twice. -/
theorem environments_outOfStep :
    (¬ ∀ events runtime, environmentMachine.Reaches events runtime → runtime.KeepsApart) ∧
    (¬ ∀ events runtime, environmentMachine.Reaches events runtime → runtime.OpensInTime) ∧
    (¬ ∀ events runtime, environmentMachine.Reaches events runtime → runtime.ClosesOnce) := by
  refine ⟨?_, ?_, ?_⟩
  · intro claimed
    have ran : (environmentMachine.run asksAgain).map (fun runtime =>
        runtime.issued.map fun record => (record.environmentId, record.isOpen)) =
          some [(js "1:processTree:7", true), (js "1:processTree:7", true)] := by
      decide +kernel
    obtain ⟨runtime, computed, both⟩ := Option.map_eq_some_iff.mp ran
    have apart := claimed asksAgain runtime (Machine.reaches_of_run computed)
    have read : ∀ serial : ℕ, runtime.issued[serial]?.map (fun record =>
        (record.environmentId, record.isOpen)) =
          [(js "1:processTree:7", true), (js "1:processTree:7", true)][serial]? := by
      intro serial
      rw [← both, List.getElem?_map]
    obtain ⟨first, firstFound, firstRead⟩ := Option.map_eq_some_iff.mp (read 0)
    obtain ⟨second, secondFound, secondRead⟩ := Option.map_eq_some_iff.mp (read 1)
    rw [Prod.mk.injEq] at firstRead secondRead
    exact apart 0 first 1 second (by decide) firstFound secondFound
      (firstRead.1.trans secondRead.1.symm) ⟨firstRead.2, secondRead.2⟩
  · intro claimed
    have ran : (environmentMachine.run closedEarly).map (fun runtime => runtime.history) =
        some [.closedGeneration 1, .opened 1] := by
      decide +kernel
    obtain ⟨runtime, computed, happened⟩ := Option.map_eq_some_iff.mp ran
    have inTime := claimed closedEarly runtime (Machine.reaches_of_run computed)
    have ends := inTime [.closedGeneration 1] [] 1 happened (.closedGeneration 1)
      (List.mem_singleton.mpr rfl)
    exact absurd ends (by decide)
  · intro claimed
    have ran : (environmentMachine.run releasedTwice).map (fun runtime =>
        runtime.issued.map EnvironmentRecord.closes) = some [2] := by
      decide +kernel
    obtain ⟨runtime, computed, closed⟩ := Option.map_eq_some_iff.mp ran
    have once := claimed releasedTwice runtime (Machine.reaches_of_run computed)
    have listed : 2 ∈ runtime.issued.map EnvironmentRecord.closes := by
      rw [closed]
      exact List.mem_singleton.mpr rfl
    obtain ⟨record, recordIn, twice⟩ := List.mem_map.mp listed
    have bounded := once record recordIn
    omega

end HoloUvEnvironmentRuntime

end Holonomy.HoloUv
