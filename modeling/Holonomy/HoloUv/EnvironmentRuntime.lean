import Holonomy.Foundation.Machine
import Holonomy.Network.Rules

/-!
# The runtime of the environments

The runtime opens one environment for each identity and hands out leases of it. The call of the
factory waits for a microtask, a closing record leaves the table before its environment has
closed, and the listeners of an abort run before the promise of the closing is there.
-/

namespace Holonomy.HoloUv

open Foundation Kernel Network

/-- How far an environment is shared. -/
inductive EnvironmentScope where
  | processTree
  | runtime
  deriving DecidableEq

/-- A request that the runtime refuses. -/
inductive EnvironmentError where
  | invalid
  deriving DecidableEq

def generation (value : Option JsonValue) : Except EnvironmentError ℤ :=
  match value.bind safeInteger? with
  | some number => if 1 ≤ number then .ok number else .error .invalid
  | none => .error .invalid

def processResourceId : JsonValue → Except EnvironmentError Text
  | .string text =>
    if 1 ≤ text.length ∧ text.length ≤ 512 ∧ 0 ∉ text then .ok text else .error .invalid
  | _ => .error .invalid

def scope : Option JsonValue → Except EnvironmentError EnvironmentScope
  | some (.string text) =>
    if text = js "processTree" then .ok .processTree
    else if text = js "runtime" then .ok .runtime
    else .error .invalid
  | _ => .error .invalid

def executables : Option JsonValue → Except EnvironmentError (List JsonValue)
  | some (.array items) => .ok items
  | _ => .error .invalid

/-- The name under which requests share an environment. -/
def environmentIdentity (generationValue : ℤ) (scopeValue : EnvironmentScope)
    (resourceId : Text) : Text :=
  decimalText generationValue.toNat ++
    match scopeValue with
    | .runtime => js ":runtime"
    | .processTree => js ":processTree:" ++ resourceId

inductive Opening where
  /-- The microtask that calls the factory is waiting. -/
  | scheduled
  | opening
  /-- The factory returned an environment, which the record's promise does not hold yet. -/
  | returned
  /-- The factory failed, which the record's promise does not say yet. -/
  | rejected
  | ready
  | failed
  deriving DecidableEq

structure EnvironmentRecord where
  environmentId : Text
  generation : ℤ
  scope : EnvironmentScope
  closed : Bool
  aborted : Bool
  closePromise : Bool
  progress : Opening
  waiting : ℕ
  closes : ℕ
  settled : ℕ
  released : Bool
  deriving DecidableEq

namespace EnvironmentRecord

def isReturned (record : EnvironmentRecord) : Bool :=
  record.progress = .returned || record.progress = .ready

/-- The environment is there and not yet completely closed. -/
def isOpen (record : EnvironmentRecord) : Bool := record.isReturned && record.settled = 0

def isOver (record : EnvironmentRecord) : Bool :=
  record.progress = .rejected || record.progress = .failed || 0 < record.settled

def isIdle (record : EnvironmentRecord) : Bool :=
  match record.progress with
  | .scheduled | .returned | .rejected => false
  | .ready => record.waiting = 0
  | .opening | .failed => true

end EnvironmentRecord

/-- What the runtime still has to do before its callers go on. -/
inductive Frame where
  /-- The listeners of the abort are running, the promise of the closing comes after them. -/
  | settling (serial : ℕ)
  /-- These records are to be closed, by `close` if the whole runtime closes. -/
  | mapping (serials : List ℕ) (whole : Bool)
  deriving DecidableEq

inductive Happening where
  | opened (generation : ℤ)
  | closedGeneration (generation : ℤ)
  | closedRuntime
  deriving DecidableEq

def Happening.ends (happening : Happening) (generation : ℤ) : Bool :=
  happening = .closedGeneration generation || happening = .closedRuntime

/-- What must not happen later. -/
def Happening.forbids (earlier : Happening) : Happening → Bool
  | .opened generation => earlier.ends generation
  | _ => false

structure HoloUvEnvironmentRuntime where
  closedGenerations : List ℤ
  /-- The records by the names of their environments. -/
  records : OrderedMap Text ℕ
  closed : Bool
  closePromise : Bool
  issued : List EnvironmentRecord
  /-- What is still to be done, the innermost call first. -/
  stack : List Frame
  history : List Happening

namespace HoloUvEnvironmentRuntime

def new : HoloUvEnvironmentRuntime where
  closedGenerations := []
  records := .empty
  closed := false
  closePromise := false
  issued := []
  stack := []
  history := []

variable (runtime : HoloUvEnvironmentRuntime)

def change (serial : ℕ) (changed : EnvironmentRecord → EnvironmentRecord) :
    HoloUvEnvironmentRuntime :=
  { runtime with issued := runtime.issued.modify serial changed }

def admitted (request resourceId : JsonValue) :
    Except EnvironmentError (ℤ × EnvironmentScope × Text) := do
  let _ ← executables (memberOf request (js "executables"))
  let requestGeneration ← generation (memberOf request (js "generation"))
  let requestScope ← scope (memberOf request (js "scope"))
  let normalizedResourceId ← processResourceId resourceId
  if runtime.closed ∨ requestGeneration ∈ runtime.closedGenerations then .error .invalid
  else .ok (requestGeneration, requestScope, normalizedResourceId)

/-- The record that a request begins with. -/
def newRecord (environmentId : Text) (generation : ℤ) (scope : EnvironmentScope) :
    EnvironmentRecord where
  environmentId := environmentId
  generation := generation
  scope := scope
  closed := false
  aborted := false
  closePromise := false
  progress := .scheduled
  waiting := 0
  closes := 0
  settled := 0
  released := false

def lease (requestGeneration : ℤ) (requestScope : EnvironmentScope) (environmentId : Text) :
    HoloUvEnvironmentRuntime × ℕ :=
  match runtime.records.get? environmentId with
  | some serial => (runtime, serial)
  | none =>
    ({ runtime with
        records := runtime.records.set environmentId runtime.issued.length
        issued := runtime.issued ++ [newRecord environmentId requestGeneration requestScope] },
      runtime.issued.length)

def acquire (request resourceId : JsonValue) :
    HoloUvEnvironmentRuntime × Except EnvironmentError ℕ :=
  match runtime.admitted request resourceId with
  | .error error => (runtime, .error error)
  | .ok (requestGeneration, requestScope, normalizedResourceId) =>
    let leased := runtime.lease requestGeneration requestScope
      (environmentIdentity requestGeneration requestScope normalizedResourceId)
    (leased.1, .ok leased.2)

/-- A record leaves the table if it is still the one under its name. -/
def withdraw (serial : ℕ) (environmentId : Text) : HoloUvEnvironmentRuntime :=
  if runtime.records.get? environmentId = some serial then
    { runtime with records := runtime.records.delete environmentId }
  else runtime

def register (serial : ℕ) : HoloUvEnvironmentRuntime :=
  runtime.change serial fun record =>
    { record with closePromise := true, waiting := record.waiting + 1 }

def closeRecord (serial : ℕ) (record : EnvironmentRecord) : HoloUvEnvironmentRuntime :=
  if record.closePromise then runtime
  else
    let left := (runtime.withdraw serial record.environmentId).change serial fun record =>
      { record with closed := true, aborted := true }
    -- only the first abort of a signal has listeners to run
    if record.aborted then left.register serial
    else { left with stack := .settling serial :: left.stack }

def release (serial : ℕ) (record : EnvironmentRecord) : HoloUvEnvironmentRuntime :=
  match record.scope with
  | .runtime => runtime
  | .processTree =>
    (runtime.change serial fun record => { record with released := true }).closeRecord serial record

def tabled : List ℕ := runtime.records.entries.map Prod.snd

def generationOf (serial : ℕ) : Option ℤ :=
  runtime.issued[serial]?.map EnvironmentRecord.generation

def close : HoloUvEnvironmentRuntime :=
  if runtime.closePromise then { runtime with history := runtime.history ++ [.closedRuntime] }
  else
    { runtime with
      closed := true
      closedGenerations := runtime.closedGenerations ++
        runtime.tabled.filterMap runtime.generationOf
      stack := .mapping runtime.tabled true :: runtime.stack
      history := runtime.history ++ [.closedRuntime] }

def closeGeneration (generationValue : JsonValue) : HoloUvEnvironmentRuntime :=
  match generation (some generationValue) with
  | .error _ => runtime
  | .ok normalized =>
    { runtime with
      closedGenerations := runtime.closedGenerations ++ [normalized]
      stack := .mapping (runtime.tabled.filter fun serial =>
        runtime.generationOf serial = some normalized) false :: runtime.stack
      history := runtime.history ++ [.closedGeneration normalized] }

/-- The innermost call goes on. -/
def proceed : Option HoloUvEnvironmentRuntime :=
  match runtime.stack with
  | [] => none
  | .settling serial :: stack => some ({ runtime with stack := stack }.register serial)
  | .mapping [] whole :: stack =>
    some { runtime with stack := stack, closePromise := runtime.closePromise || whole }
  | .mapping (serial :: serials) whole :: stack =>
    let popped := { runtime with stack := .mapping serials whole :: stack }
    match runtime.issued[serial]? with
    | some record => some (popped.closeRecord serial record)
    | none => none

/-- The callers are asked: nothing runs, or listeners of an abort do. -/
def isCalling : Bool :=
  match runtime.stack with
  | [] | .settling _ :: _ => true
  | .mapping _ _ :: _ => false

end HoloUvEnvironmentRuntime

inductive EnvironmentEvent where
  | acquire (request resourceId : JsonValue)
  | release (serial : ℕ)
  | closeGeneration (generation : JsonValue)
  | close
  | proceed
  | opens (serial : ℕ)
  | settles (serial : ℕ) (fulfilled : Bool)
  /-- The promise of a record takes over what the factory's was settled with. -/
  | adopts (serial : ℕ)
  | forgets (serial : ℕ)
  /-- A waiting closing calls `close` of the environment. -/
  | calls (serial : ℕ)
  /-- A promise that `close` of the environment returned is settled. -/
  | closes (serial : ℕ)

namespace HoloUvEnvironmentRuntime

def alter (runtime : HoloUvEnvironmentRuntime) (serial : ℕ) (possible : EnvironmentRecord → Bool)
    (changed : EnvironmentRecord → EnvironmentRecord)
    (happened : EnvironmentRecord → List Happening) : Option HoloUvEnvironmentRuntime :=
  match runtime.issued[serial]? with
  | none => none
  | some record =>
    if possible record then
      some { runtime.change serial changed with history := runtime.history ++ happened record }
    else none

/-- A microtask runs when no call does. -/
def microtask (runtime : HoloUvEnvironmentRuntime) (next : Option HoloUvEnvironmentRuntime) :
    Option HoloUvEnvironmentRuntime :=
  if runtime.stack = [] then next else none

/-- What a settled factory leaves. -/
def outcome (fulfilled : Bool) : Opening := if fulfilled then .returned else .rejected

/-- What the promise of a record takes over. -/
def adopted : Opening → Opening
  | .returned => .ready
  | .rejected => .failed
  | progress => progress

/-- The next state. -/
def step (runtime : HoloUvEnvironmentRuntime) : EnvironmentEvent → Option HoloUvEnvironmentRuntime
  | .acquire request resourceId =>
    if runtime.isCalling then some (runtime.acquire request resourceId).1 else none
  | .release serial =>
    match runtime.issued[serial]? with
    | some record => if runtime.isCalling then some (runtime.release serial record) else none
    | none => none
  | .closeGeneration generation =>
    if runtime.isCalling then some (runtime.closeGeneration generation) else none
  | .close => if runtime.isCalling then some runtime.close else none
  | .proceed => runtime.proceed
  | .opens serial => runtime.microtask <|
    runtime.alter serial (fun record => record.progress = .scheduled)
      (fun record => { record with progress := .opening })
      (fun record => [.opened record.generation])
  | .settles serial fulfilled =>
    runtime.alter serial (fun record => record.progress = .opening)
      (fun record => { record with progress := outcome fulfilled }) (fun _ => [])
  | .adopts serial => runtime.microtask <|
    runtime.alter serial
      (fun record => record.progress = .returned || record.progress = .rejected)
      (fun record => { record with progress := adopted record.progress }) (fun _ => [])
  | .forgets serial => runtime.microtask <|
    match runtime.issued[serial]? with
    | some record =>
      if record.progress = .failed then some (runtime.withdraw serial record.environmentId)
      else none
    | none => none
  | .calls serial => runtime.microtask <|
    runtime.alter serial (fun record => record.progress = .ready && 0 < record.waiting)
      (fun record => { record with waiting := record.waiting - 1, closes := record.closes + 1 })
      (fun _ => [])
  | .closes serial =>
    runtime.alter serial (fun record => record.settled < record.closes)
      (fun record => { record with settled := record.settled + 1 }) (fun _ => [])

end HoloUvEnvironmentRuntime

def environmentMachine : Machine HoloUvEnvironmentRuntime EnvironmentEvent where
  start := .new
  step := HoloUvEnvironmentRuntime.step

end Holonomy.HoloUv
