import Holonomy.Process.Resources

/-!
# The events of a process before it is ready

A port may report before its spawn returns. What it reports is staged, and replayed once the process
is admitted.
-/

namespace Holonomy.Process

open Foundation

/-- The methods of a process sink. -/
inductive SinkName where
  | spawn | error | exit | close | stdout | stdoutEnd | stdoutError | stdoutClose | stderr
  | stderrEnd | stderrError | stderrClose | stdinError | stdinClose | stdinCallback
  deriving DecidableEq

/-- A call of a method of a sink. -/
structure PortEvent (Value : Type) where
  name : SinkName
  values : List Value
  deriving DecidableEq

/-- A call at work. -/
inductive PreReadyFrame (Value : Type) where
  | replaying (left : List (PortEvent Value))
  | calling
  deriving DecidableEq

structure PreReadyProcessSinkV1 (Value : Type) where
  queued : List (PortEvent Value)
  bytes : ℕ
  overflow : Bool
  ready : Bool
  stack : List (PreReadyFrame Value)
  emitted : List (PortEvent Value)
  received : List (PortEvent Value)

/-- What happens to a staging sink. -/
inductive PreReadyCall (Value : Type) where
  | emit (event : PortEvent Value)
  | replay
  | proceed
  | returns
  | throws

namespace PreReadyProcessSinkV1

variable {Value : Type}

def new : PreReadyProcessSinkV1 Value := ⟨[], 0, false, false, [], [], []⟩

def call (sink : PreReadyProcessSinkV1 Value) (event : PortEvent Value) :
    PreReadyProcessSinkV1 Value :=
  { sink with stack := .calling :: sink.stack, received := sink.received ++ [event] }

/-- The number of bytes of an event that is to be staged; a size that is missing is none. -/
def countOf (byteLength : Value → Option ℕ) (event : PortEvent Value) : Option ℕ :=
  if event.name = .stdout ∨ event.name = .stderr then event.values.head?.bind byteLength
  else some 0

def stage (byteLength : Value → Option ℕ) (sink : PreReadyProcessSinkV1 Value)
    (event : PortEvent Value) : PreReadyProcessSinkV1 Value :=
  if sink.overflow then sink
  else match countOf byteLength event with
    | none => { sink with overflow := true, queued := [] }
    | some count =>
      if maxEvents ≤ sink.queued.length ∨ maxBytes < sink.bytes + count then
        { sink with overflow := true, queued := [] }
      else { sink with bytes := sink.bytes + count, queued := sink.queued ++ [event] }

def emit (byteLength : Value → Option ℕ) (sink : PreReadyProcessSinkV1 Value)
    (event : PortEvent Value) : PreReadyProcessSinkV1 Value :=
  let noted := { sink with emitted := sink.emitted ++ [event] }
  if sink.ready then noted.call event else noted.stage byteLength event

/-- The loop of `replay` goes on, and empties the queue at its end. -/
def proceed (sink : PreReadyProcessSinkV1 Value) : Option (PreReadyProcessSinkV1 Value) :=
  match sink.stack with
  | .replaying [] :: rest => some { sink with stack := rest, queued := [] }
  | .replaying (event :: left) :: rest =>
    some ({ sink with stack := .replaying left :: rest }.call event)
  | _ => none

/-- The calls at work when the sink throws: a port goes on, and the loop of `replay` ends. -/
def unwound : List (PreReadyFrame Value) → Option (List (PreReadyFrame Value))
  | .calling :: .replaying _ :: rest => some rest
  | .calling :: rest => some rest
  | _ => none

def calls (sink : PreReadyProcessSinkV1 Value) : Bool :=
  match sink.stack with
  | .calling :: _ => true
  | _ => false

/-- One call. The port reports while nothing is at work or the sink runs. -/
def step (byteLength : Value → Option ℕ) (sink : PreReadyProcessSinkV1 Value) :
    PreReadyCall Value → Option (PreReadyProcessSinkV1 Value)
  | .emit event =>
    if sink.stack.isEmpty || sink.calls then some (sink.emit byteLength event) else none
  | .replay =>
    if sink.ready || !sink.stack.isEmpty then none
    else some { sink with ready := true, stack := [.replaying sink.queued] }
  | .proceed => sink.proceed
  | .returns =>
    match sink.stack with
    | .calling :: rest => some { sink with stack := rest }
    | _ => none
  | .throws => (unwound sink.stack).map fun rest => { sink with stack := rest }

/-- The runs of a staging sink. -/
def machine (byteLength : Value → Option ℕ) :
    Machine (PreReadyProcessSinkV1 Value) (PreReadyCall Value) where
  start := new
  step := step byteLength

def leftOf : PreReadyFrame Value → List (PortEvent Value)
  | .replaying left => left
  | .calling => []

/-- The staged events that are not replayed yet. -/
def left (sink : PreReadyProcessSinkV1 Value) : List (PortEvent Value) :=
  if sink.ready then sink.stack.flatMap leftOf else sink.queued

def isOrderly (sink : PreReadyProcessSinkV1 Value) : PreReadyCall Value → Bool
  | .emit _ => !sink.ready || sink.left.isEmpty
  | .throws => sink.left.isEmpty
  | _ => true

variable {byteLength : Value → Option ℕ} {sink next : PreReadyProcessSinkV1 Value}
  {event : PortEvent Value} {rest : List (PreReadyFrame Value)}

structure Ordered (sink : PreReadyProcessSinkV1 Value) : Prop where
  whole : sink.overflow = false → sink.received ++ sink.left = sink.emitted
  quiet : sink.ready = false → sink.stack = []

section

variable (ordered : sink.Ordered)

include ordered

theorem Ordered.of_stack (ready : sink.ready = true)
    (same : rest.flatMap leftOf = sink.stack.flatMap leftOf) (queued : List (PortEvent Value)) :
    { sink with stack := rest, queued := queued }.Ordered where
  whole := by
    intro fits
    have whole := ordered.whole fits
    unfold left at whole ⊢
    rw [if_pos ready] at whole ⊢
    rw [same]
    exact whole
  quiet unready := absurd ready (Bool.eq_false_iff.mp unready)

theorem Ordered.ready {frame : PreReadyFrame Value}
    (working : sink.stack = frame :: rest) : sink.ready = true := by
  by_contra unready
  have idle := ordered.quiet (Bool.eq_false_iff.mpr unready)
  rw [working] at idle
  cases idle

theorem Ordered.stage (unready : sink.ready = false)
    (event : PortEvent Value) :
    (PreReadyProcessSinkV1.stage byteLength
      { sink with emitted := sink.emitted ++ [event] } event).Ordered := by
  have idle := ordered.quiet unready
  have over' : ∀ {later : PreReadyProcessSinkV1 Value}, later.overflow = true →
      later.stack = [] → later.Ordered := fun full idle =>
    ⟨fun fits => absurd full (Bool.eq_false_iff.mp fits), fun _ => idle⟩
  unfold PreReadyProcessSinkV1.stage
  dsimp only
  split
  · next full => exact over' full idle
  · next fits =>
    have whole := ordered.whole (Bool.eq_false_iff.mpr fits)
    unfold left at whole
    rw [unready, if_neg Bool.false_ne_true] at whole
    split
    · exact over' rfl idle
    · split
      · exact over' rfl idle
      · refine ⟨fun _ => ?_, fun _ => idle⟩
        unfold left
        simp only [unready, Bool.false_eq_true, if_false]
        rw [← List.append_assoc, whole]

theorem Ordered.call (ready : sink.ready = true)
    {emitted : List (PortEvent Value)}
    (takes : event :: rest.flatMap leftOf = sink.left ∧ emitted = sink.emitted ∨
      sink.left = [] ∧ rest.flatMap leftOf = [] ∧ emitted = sink.emitted ++ [event]) :
    (PreReadyProcessSinkV1.call { sink with emitted, stack := rest } event).Ordered := by
  refine ⟨fun fits => ?_, fun unready => absurd ready (Bool.eq_false_iff.mp unready)⟩
  have whole := ordered.whole fits
  have later : (PreReadyProcessSinkV1.call { sink with emitted, stack := rest } event).left =
      rest.flatMap leftOf := by
    change (if sink.ready then (PreReadyFrame.calling :: rest).flatMap leftOf else _) = _
    rw [if_pos ready]
    rfl
  rw [later]
  change sink.received ++ [event] ++ _ = emitted
  rcases takes with ⟨first, same⟩ | ⟨none, nothing, same⟩
  · rw [← first] at whole
    rw [same, ← whole, List.append_assoc]
    rfl
  · rw [none, List.append_nil] at whole
    rw [nothing, same, whole, List.append_nil]

end

theorem unwound_left {stack : List (PreReadyFrame Value)} (unwinds : unwound stack = some rest)
    (none : stack.flatMap leftOf = []) : rest.flatMap leftOf = [] := by
  unfold unwound at unwinds
  split at unwinds
  · cases unwinds
    rw [List.flatMap_cons, List.flatMap_cons] at none
    exact (List.append_eq_nil_iff.mp (List.append_eq_nil_iff.mp none).2).2
  · cases unwinds
    exact none
  · cases unwinds

theorem Ordered.step (ordered : sink.Ordered) {call : PreReadyCall Value}
    (orderly : sink.isOrderly call = true) (stepped : sink.step byteLength call = some next) :
    next.Ordered := by
  cases call with
  | emit event =>
    obtain ⟨-, same⟩ := Option.ite_none_right_eq_some.mp stepped
    cases same
    unfold emit
    dsimp only
    split
    · next ready =>
      have none : sink.left = [] := by
        unfold isOrderly at orderly
        rw [ready] at orderly
        exact List.isEmpty_iff.mp orderly
      have nothing : sink.stack.flatMap leftOf = [] := by
        unfold left at none
        rwa [if_pos ready] at none
      exact ordered.call ready (.inr ⟨none, nothing, rfl⟩)
    · next unready => exact ordered.stage (Bool.eq_false_iff.mpr unready) event
  | replay =>
    obtain ⟨free, same⟩ := Option.ite_none_left_eq_some.mp stepped
    cases same
    rw [Bool.or_eq_true, not_or, Bool.not_eq_true] at free
    refine ⟨fun fits => ?_, fun unready => by cases unready⟩
    have whole := ordered.whole fits
    unfold left at whole
    rw [free.1, if_neg Bool.false_ne_true] at whole
    change sink.received ++ (sink.queued ++ []) = sink.emitted
    rw [List.append_nil, whole]
  | proceed =>
    change sink.proceed = some next at stepped
    unfold proceed at stepped
    split at stepped
    · next rest working =>
      cases stepped
      exact ordered.of_stack (ordered.ready working) (by rw [working]; rfl) []
    · next event staged rest working =>
      cases stepped
      have ready := ordered.ready working
      refine ordered.call ready (.inl ⟨?_, rfl⟩)
      unfold left
      rw [if_pos ready, working]
      rfl
    · cases stepped
  | returns =>
    simp only [PreReadyProcessSinkV1.step] at stepped
    split at stepped
    · next rest working =>
      cases stepped
      exact ordered.of_stack (ordered.ready working) (by rw [working]; rfl) sink.queued
    · cases stepped
  | throws =>
    obtain ⟨rest, unwinds, same⟩ := Option.map_eq_some_iff.mp stepped
    cases same
    have none : sink.left = [] := List.isEmpty_iff.mp orderly
    cases working : sink.stack with
    | nil =>
      rw [working] at unwinds
      cases unwinds
    | cons frame others =>
      have ready := ordered.ready working
      unfold left at none
      rw [if_pos ready] at none
      exact ordered.of_stack ready ((unwound_left unwinds none).trans none.symm) sink.queued

/-- While staged events are left to be replayed, let the port report nothing and the sink not throw.
Then, unless too much was staged, what the sink received is the beginning of what the port reported,
and all of it once the process is ready and the replay is over. -/
theorem received_in_order {calls : List (PreReadyCall Value)}
    (reached : (machine byteLength).ReachesWhen (fun sink call => sink.isOrderly call = true)
      calls sink) (fits : sink.overflow = false) :
    sink.received <+: sink.emitted ∧
      (sink.ready = true → sink.stack = [] → sink.received = sink.emitted) := by
  have begins : (machine byteLength).start.Ordered := ⟨fun _ => rfl, fun _ => rfl⟩
  have ordered := reached.invariant begins fun _ _ _ (before : Ordered _) orderly stepped =>
    before.step orderly stepped
  have whole := ordered.whole fits
  refine ⟨⟨sink.left, whole⟩, fun ready idle => ?_⟩
  have none : sink.left = [] := by
    unfold left
    rw [if_pos ready, idle]
    rfl
  rw [none, List.append_nil] at whole
  exact whole

/-- Events are staged, replayed, and reported after the replay. -/
theorem received_in_order_replayed :
    ∃ sink : PreReadyProcessSinkV1 ℕ, (machine some).ReachesWhen
        (fun sink call => sink.isOrderly call = true)
        [.emit ⟨.spawn, []⟩, .emit ⟨.stdout, [3]⟩, .replay, .proceed, .returns, .proceed, .returns,
          .proceed, .emit ⟨.close, []⟩, .returns] sink ∧
      sink.emitted.length = 3 ∧ sink.received = sink.emitted := by
  have ran : (((machine some).guarded fun sink call => sink.isOrderly call = true).run
      [.emit ⟨.spawn, []⟩, .emit ⟨.stdout, [3]⟩, .replay, .proceed, .returns, .proceed, .returns,
        .proceed, .emit ⟨.close, []⟩, .returns]).map (fun sink => (sink.overflow, sink.ready,
          sink.stack, sink.emitted.length)) = some (false, true, [], 3) := by
    decide +kernel
  obtain ⟨sink, reached, same⟩ := Machine.exists_of_guarded_run ran
  simp only [Prod.mk.injEq] at same
  exact ⟨sink, reached, same.2.2.2, (received_in_order reached same.1).2 same.2.1 same.2.2.1⟩

/-- A port that is killed for its staged output reports its end before its staged exit. -/
theorem not_received_in_order :
    ¬ ∀ (calls : List (PreReadyCall ℕ)) (sink : PreReadyProcessSinkV1 ℕ),
      (machine some).Reaches calls sink → sink.overflow = false → sink.ready = true →
        sink.stack = [] → sink.received = sink.emitted := by
  intro claimed
  have ran : ((machine some).run [.emit ⟨.stdout, [9]⟩, .emit ⟨.exit, []⟩, .replay, .proceed,
      .emit ⟨.close, []⟩, .returns, .returns, .proceed, .returns, .proceed]).map
      (fun sink => (sink.overflow, sink.ready, sink.stack, decide (sink.received = sink.emitted))) =
        some (false, true, [], false) := by
    decide +kernel
  obtain ⟨sink, reached, same⟩ := Machine.exists_of_run ran
  simp only [Prod.mk.injEq] at same
  have inOrder := claimed _ sink reached same.1 same.2.1 same.2.2.1
  exact of_decide_eq_false same.2.2.2 inOrder

end PreReadyProcessSinkV1

end Holonomy.Process
