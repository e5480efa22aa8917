import Holonomy.Foundation.Machine
import Holonomy.Kernel.Validation

/-!
# The engine gate

Middleware decides whether the engine may compile a source. Every handler is a frame; calling `next`
starts the frame behind it, whether or not the handler waits for it.
-/

namespace Holonomy.Runtime

open Foundation Kernel

/-- A decision of the gate. -/
inductive EngineGateDecisionV1 where
  | allow
  | deny (reasonCode : Text)
  deriving DecidableEq

/-- The spelling of a decision. -/
inductive GateActionV1 where
  | allow | deny
  deriving DecidableEq

instance gateActionLiteral : Literal GateActionV1 where
  values := [.allow, .deny]
  spell
    | .allow => "allow"
    | .deny => "deny"

/-- A reason: up to 128 word characters, dots, colons and dashes. -/
def opaqueId : JsonValue → Js Text
  | .string text =>
    if 1 ≤ text.length ∧ text.length ≤ 128 ∧
        (text.all fun unit => isWord unit || unit = 0x2E || unit = 0x3A || unit = 0x2D) = true then
      .ok text
    else invalidPolicy
  | _ => invalidPolicy

/-- Admit what a handler returned as a decision. -/
def normalizeEngineGateDecisionV1 (value : JsonValue) : Js EngineGateDecisionV1 := do
  let input ← exact value ["action", "reasonCode"]
  let action ← required input "action"
  match ← literal GateActionV1 action with
  | .allow =>
    if (member "reasonCode" input).isSome then invalidPolicy else .ok .allow
  | .deny => do
    let reason ← required input "reasonCode"
    let reasonCode ← opaqueId reason
    .ok (.deny reasonCode)

/-- What a handler returned: plain data, or a value of another kind, which is never admitted. -/
def normalizeReturned : Option JsonValue → Js EngineGateDecisionV1
  | some value => normalizeEngineGateDecisionV1 value
  | none => invalidPolicy

/-- What the handler of a frame did. -/
inductive GateHandlerV1 where
  | uncalled
  | pending
  | returned (raw : Option JsonValue)
  | threw

/-- How far a frame is. -/
inductive GatePhaseV1 where
  | absent
  | dispatched
  | running
  | awaiting (decision : EngineGateDecisionV1)
  /-- `runFrame` returned; from here on the frame is closed. -/
  | finished (decision : EngineGateDecisionV1)
  | fulfilled (decision : EngineGateDecisionV1)
  deriving DecidableEq

/-- The decision of a frame that is over. -/
def GatePhaseV1.decision? : GatePhaseV1 → Option EngineGateDecisionV1
  | .finished decision => some decision
  | .fulfilled decision => some decision
  | _ => none

/-- A frame. -/
structure GateFrameV1 where
  phase : GatePhaseV1
  /-- `next` was called and the frame behind was dispatched. -/
  called : Bool
  handler : GateHandlerV1
  repeated : Bool

def GateFrameV1.none : GateFrameV1 := ⟨.absent, false, .uncalled, false⟩

/-- The state of one dispatch. -/
structure EngineGateV1 where
  frames : ℕ → GateFrameV1
  closed : Bool
  aborted : Bool
  listening : Bool
  denial : Option Text
  active : List ℕ
  settled : Bool
  /-- What the race took: the outermost frame's decision or the cancellation. -/
  winner : Option EngineGateDecisionV1
  decision : Option EngineGateDecisionV1

/-- What can happen next. -/
inductive GateEventV1 where
  | runs (index : ℕ)
  | callsNext (index : ℕ)
  | returns (index : ℕ) (raw : Option JsonValue)
  | throws (index : ℕ)
  /-- A frame receives the decision of the frame behind it. -/
  | resumes (index : ℕ)
  | fulfils (index : ℕ)
  | releases (index : ℕ)
  | aborts
  /-- The race is over, and the decision is resolved. -/
  | resolves

namespace EngineGateV1

def cancelled : Text := js "runtime.cancelled"

def deny (gate : EngineGateV1) (reason : Text) : EngineGateV1 :=
  { gate with denial := some (gate.denial.getD reason) }

def put (gate : EngineGateV1) (index : ℕ) (frame : GateFrameV1) : EngineGateV1 :=
  { gate with frames := Function.update gate.frames index frame }

def maybeSettled (gate : EngineGateV1) : EngineGateV1 :=
  if gate.closed ∧ gate.active = [] then { gate with settled := true } else gate

/-- `runFrame` returns a decision. -/
def finish (gate : EngineGateV1) (index : ℕ) (decision : EngineGateDecisionV1) : EngineGateV1 :=
  gate.put index { gate.frames index with phase := .finished decision }

def refuse (gate : EngineGateV1) (index : ℕ) (reason : Text) : EngineGateV1 :=
  (gate.deny reason).finish index (.deny (gate.denial.getD reason))

/-- Create the task of a frame. -/
def dispatch (gate : EngineGateV1) (index : ℕ) : EngineGateV1 :=
  { gate.put index ⟨.dispatched, false, .uncalled, false⟩ with active := gate.active ++ [index] }

def runFrame (length : ℕ) (gate : EngineGateV1) (index : ℕ) : EngineGateV1 :=
  if gate.closed ∨ gate.aborted then gate.refuse index cancelled
  else if length ≤ index then gate.refuse index (js "host.gate_unavailable")
  else gate.put index { gate.frames index with phase := .running, handler := .pending }

def callNext (gate : EngineGateV1) (index : ℕ) : EngineGateV1 :=
  let frame := gate.frames index
  let gate := gate.put index { frame with repeated := frame.repeated || frame.called }
  if gate.closed ∨ frame.phase.decision?.isSome ∨ gate.aborted then gate.deny cancelled
  else if frame.called then gate.deny (js "host.invalid_next")
  else (gate.put index { frame with called := true }).dispatch (index + 1)

def record (gate : EngineGateV1) : EngineGateDecisionV1 → EngineGateV1
  | .allow => gate
  | .deny reason => gate.deny reason

def conclude (gate : EngineGateV1) (index : ℕ) (decision : EngineGateDecisionV1) : EngineGateV1 :=
  match gate.denial with
  | some reason => gate.finish index (.deny reason)
  | none => gate.finish index decision

/-- `runFrame` behind the `await` of the handler's result. -/
def receive (gate : EngineGateV1) (index : ℕ) (raw : Option JsonValue) : EngineGateV1 :=
  let gate := gate.put index { gate.frames index with handler := .returned raw }
  if gate.closed ∨ gate.aborted then gate.refuse index cancelled
  else match normalizeReturned raw with
    | .error _ => gate.refuse index (js "host.invalid_decision")
    | .ok decision =>
      let gate := gate.record decision
      if gate.denial = none ∧ (gate.frames index).called then
        gate.put index { gate.frames index with phase := .awaiting decision }
      else gate.conclude index decision

/-- The `catch` of `runFrame`. -/
def fail (gate : EngineGateV1) (index : ℕ) : EngineGateV1 :=
  (gate.put index { gate.frames index with handler := .threw }).refuse index (js "host.gate_failed")

/-- `runFrame` behind the `await` of the frame behind. -/
def resume (gate : EngineGateV1) (index : ℕ) (decision : EngineGateDecisionV1) : EngineGateV1 :=
  if gate.closed ∨ gate.aborted then gate.refuse index cancelled else gate.conclude index decision

/-- The promise of a task is fulfilled; the outermost one takes part in the race. -/
def fulfil (gate : EngineGateV1) (index : ℕ) (decision : EngineGateDecisionV1) : EngineGateV1 :=
  let gate := gate.put index { gate.frames index with phase := .fulfilled decision }
  if index = 0 then { gate with winner := gate.winner.or (some decision) } else gate

/-- The lease of a frame is released. -/
def release (gate : EngineGateV1) (index : ℕ) : EngineGateV1 :=
  { gate with active := gate.active.erase index }.maybeSettled

def abort (gate : EngineGateV1) : EngineGateV1 :=
  let gate := { gate with aborted := true }
  if gate.listening then
    { gate.deny cancelled with
      closed := true
      winner := gate.winner.or (some (.deny (gate.denial.getD cancelled))) }.maybeSettled
  else gate

def resolve (gate : EngineGateV1) (decision : EngineGateDecisionV1) : EngineGateV1 :=
  { gate with closed := true, listening := false, decision := some decision }.maybeSettled

def new (aborted : Bool) : EngineGateV1 :=
  if aborted then
    ⟨fun _ => .none, false, true, false, none, [], true, some (.deny cancelled),
      some (.deny cancelled)⟩
  else
    EngineGateV1.dispatch ⟨fun _ => .none, false, false, true, none, [], false, none, none⟩ 0

def step (length : ℕ) (gate : EngineGateV1) : GateEventV1 → Option EngineGateV1
  | .runs index =>
    if (gate.frames index).phase = .dispatched then some (gate.runFrame length index) else none
  | .callsNext index =>
    match (gate.frames index).handler with
    | .uncalled => none
    | _ => some (gate.callNext index)
  | .returns index raw =>
    if (gate.frames index).phase = .running then some (gate.receive index raw) else none
  | .throws index =>
    if (gate.frames index).phase = .running then some (gate.fail index) else none
  | .resumes index =>
    match (gate.frames index).phase, (gate.frames (index + 1)).phase with
    | .awaiting decision, .fulfilled _ => some (gate.resume index decision)
    | _, _ => none
  | .fulfils index =>
    match (gate.frames index).phase with
    | .finished decision => some (gate.fulfil index decision)
    | _ => none
  | .releases index =>
    match (gate.frames index).phase with
    | .fulfilled _ => if index ∈ gate.active then some (gate.release index) else none
    | _ => none
  | .aborts => if gate.aborted then none else some gate.abort
  | .resolves =>
    match gate.winner, gate.decision with
    | some decision, none => some (gate.resolve decision)
    | _, _ => none

end EngineGateV1

def dispatchEngineGateV1 (length : ℕ) (aborted : Bool) : Machine EngineGateV1 GateEventV1 where
  start := EngineGateV1.new aborted
  step := EngineGateV1.step length

end Holonomy.Runtime
