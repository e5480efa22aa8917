import Holonomy.Foundation.Histories

/-!
# Machines

A machine starts in some state and takes one event after another. An event that cannot happen in a
state has no next state.
-/

namespace Holonomy.Foundation

structure Machine (State Event : Type) where
  /-- The state of a run without events. -/
  start : State
  step : State → Event → Option State

namespace Machine

variable {State Event : Type} (machine : Machine State Event)

inductive Leads (allowed : State → Event → Prop) (first : State) : List Event → State → Prop where
  /-- No events lead nowhere. -/
  | refl : Leads allowed first [] first
  /-- One more event. -/
  | step {events : List Event} {state next : State} {event : Event}
    (before : Leads allowed first events state) (free : allowed state event)
    (stepped : machine.step state event = some next) : Leads allowed first (events ++ [event]) next

/-- The runs that take allowed steps only. -/
def ReachesWhen (allowed : State → Event → Prop) (events : List Event) (state : State) : Prop :=
  machine.Leads allowed machine.start events state

/-- The runs of the machine. -/
def Reaches (events : List Event) (state : State) : Prop :=
  machine.ReachesWhen (fun _ _ => True) events state

/-- The state after some events. -/
def run (events : List Event) : Option State := events.foldlM machine.step machine.start

variable {machine}

section

variable {allowed : State → Event → Prop} {first last state : State} {events : List Event}

section

variable (leads : machine.Leads allowed first events last)

include leads

theorem Leads.keeps (holds : State → Prop)
    (begins : holds first)
    (kept : ∀ state event next, holds state → allowed state event →
      machine.step state event = some next → holds next) : holds last := by
  induction leads with
  | refl => exact begins
  | step before free stepped ih => exact kept _ _ _ ih free stepped

theorem Leads.relates
    {related : State → State → Prop}
    (reflexive : ∀ state, related state state)
    (transitive : ∀ {before state after}, related before state → related state after →
      related before after)
    (respected : ∀ state event next, allowed state event → machine.step state event = some next →
      related state next) : related first last := by
  induction leads with
  | refl => exact reflexive first
  | step before free stepped ih => exact transitive ih (respected _ _ _ free stepped)

/-- Runs of allowed steps are runs. -/
theorem Leads.weaken {wider : State → Event → Prop}
    (included : ∀ state event, allowed state event → wider state event) :
    machine.Leads wider first events last := by
  induction leads with
  | refl => exact .refl
  | step before free stepped ih => exact .step ih (included _ _ free) stepped

end

/-- Runs go on where runs end. -/
theorem Leads.append {middle : State} {before after : List Event}
    (left : machine.Leads allowed first before middle)
    (right : machine.Leads allowed middle after last) :
    machine.Leads allowed first (before ++ after) last := by
  induction right with
  | refl =>
    rw [List.append_nil]
    exact left
  | step _ free stepped ih =>
    rw [← List.append_assoc]
    exact .step ih free stepped

theorem Leads.turn (leads : machine.Leads allowed first events last) (holds : State → Prop)
    (begins : ¬ holds first) (ends : holds last) :
    ∃ before state event next after, events = before ++ [event] ++ after ∧
      machine.Leads allowed first before state ∧ ¬ holds state ∧
      machine.step state event = some next ∧ holds next ∧
        machine.Leads allowed next after last := by
  induction leads with
  | refl => exact absurd ends begins
  | @step events state next event leads free stepped ih =>
    by_cases already : holds state
    · obtain ⟨before, middle, turning, turned, after, same, left, no, moved, yes, right⟩ :=
        ih already
      refine ⟨before, middle, turning, turned, after ++ [event], ?_, left, no, moved, yes,
        .step right free stepped⟩
      rw [same, List.append_assoc]
    · exact ⟨events, state, event, next, [], by rw [List.append_nil], leads, already, stepped, ends,
        .refl⟩

theorem ReachesWhen.invariant (reached : machine.ReachesWhen allowed events state)
    {holds : State → Prop} (begins : holds machine.start)
    (kept : ∀ state event next, holds state → allowed state event →
      machine.step state event = some next → holds next) : holds state :=
  Leads.keeps reached holds begins kept

theorem Reaches.invariant (reached : machine.Reaches events state) {holds : State → Prop}
    (begins : holds machine.start)
    (kept : ∀ state event next, holds state → machine.step state event = some next → holds next) :
    holds state :=
  Leads.keeps reached holds begins fun state event next held _ stepped =>
    kept state event next held stepped

/-- Allowed runs are runs. -/
theorem ReachesWhen.reaches (reached : machine.ReachesWhen allowed events state) :
    machine.Reaches events state :=
  Leads.weaken reached fun _ _ _ => trivial

end

theorem Reaches.allowed {allowed : State → Event → Prop} {state : State} {events : List Event}
    (reached : machine.Reaches events state)
    (free : ∀ event ∈ events, ∀ state, allowed state event) :
    machine.ReachesWhen allowed events state := by
  induction reached with
  | refl => exact .refl
  | @step events _ _ event _ _ stepped ih =>
    have here : event ∈ events ++ [event] := List.mem_append_right _ (List.mem_singleton.mpr rfl)
    have before := ih fun earlier earlierIn => free earlier (List.mem_append_left _ earlierIn)
    exact .step before (free event here _) stepped

theorem reaches_of_run {events : List Event} {state : State}
    (computed : machine.run events = some state) : machine.Reaches events state := by
  have leads : ∀ (events done : List Event) (middle : State), machine.Reaches done middle →
      events.foldlM machine.step middle = some state → machine.Reaches (done ++ events) state := by
    intro events
    induction events with
    | nil =>
      intro done middle reached finished
      have same : middle = state := Option.some.inj finished
      rw [List.append_nil, ← same]
      exact reached
    | cons event events ih =>
      intro done middle reached finished
      rw [List.foldlM_cons, Option.bind_eq_bind, Option.bind_eq_some_iff] at finished
      obtain ⟨next, stepped, rest⟩ := finished
      have further := ih (done ++ [event]) next (.step reached trivial stepped) rest
      rw [List.append_assoc] at further
      exact further
  exact leads events [] machine.start .refl computed

def guarded (machine : Machine State Event) (allowed : State → Event → Prop)
    [∀ state, DecidablePred (allowed state)] : Machine State Event where
  start := machine.start
  step state event := if allowed state event then machine.step state event else none

theorem Reaches.unguarded {allowed : State → Event → Prop} [∀ state, DecidablePred (allowed state)]
    {events : List Event} {state : State}
    (reached : (machine.guarded allowed).Reaches events state) :
    machine.ReachesWhen allowed events state := by
  induction reached with
  | refl => exact .refl
  | @step _ before _ event _ _ stepped ih =>
    have checked : (if allowed before event then machine.step before event else none) = some _ :=
      stepped
    by_cases free : allowed before event
    · rw [if_pos free] at checked
      exact .step ih free checked
    · rw [if_neg free] at checked
      cases checked

section Computed

variable {Shown : Type} {project : State → Shown} {events : List Event} {shown : Shown}

theorem exists_of_run (computed : (machine.run events).map project = some shown) :
    ∃ state, machine.Reaches events state ∧ project state = shown := by
  obtain ⟨state, ran, same⟩ := Option.map_eq_some_iff.mp computed
  exact ⟨state, reaches_of_run ran, same⟩

theorem exists_of_guarded_run {allowed : State → Event → Prop}
    [∀ state, DecidablePred (allowed state)]
    (computed : ((machine.guarded allowed).run events).map project = some shown) :
    ∃ state, machine.ReachesWhen allowed events state ∧ project state = shown := by
  obtain ⟨state, reached, same⟩ := exists_of_run computed
  exact ⟨state, reached.unguarded, same⟩

end Computed

end Machine

end Holonomy.Foundation
