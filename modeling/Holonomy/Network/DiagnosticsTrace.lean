import Holonomy.Foundation.Base64
import Holonomy.Foundation.Tallies

/-!
# The diagnostics of a fetch

A fetch tells a diagnostics sink of each request it sends, of each response, of the chunks of the
body it delivers, and of its end. The chunks are captured up to a limit; a chunk behind the limit
makes the body unavailable.
-/

namespace Holonomy.Network

open Foundation

/-- What a diagnostics sink is told. -/
inductive NetworkDiagnosticsEvent where
  | requestWillBeSent (hop : ℕ)
  | responseReceived (hop : ℕ)
  | dataReceived (dataBase64 : Option Text) (bodyUnavailable : Bool) (dataLength : ℕ)
  | loadingFinished (totalBytes : ℕ)
  | loadingFailed (cancelled : Bool) (code : Text)

/-- What a fetch keeps for its diagnostics. -/
structure DiagnosticsTrace where
  bodyCaptureBytes : ℕ
  bodyUnavailable : Bool
  hop : ℕ
  terminal : Bool
deriving DecidableEq

def DiagnosticsTrace.new : DiagnosticsTrace := ⟨0, false, 0, false⟩

/-- Where a fetch stands. -/
inductive FetchPhase where
  | sending
  | waiting
  | answered
  /-- The answer is the response of the fetch, whose body is delivered. -/
  | reading
deriving DecidableEq

structure TracedFetch where
  phase : FetchPhase
  trace : DiagnosticsTrace
  delivered : List (List UInt8)
deriving DecidableEq

/-- A fetch that has sent nothing. -/
def TracedFetch.new : TracedFetch := ⟨.sending, .new, []⟩

/-- What a fetch does next. -/
inductive FetchAction where
  | send
  | answer
  | redirect
  | respond
  | chunk (bytes : List UInt8)
  | finish
  | fail (cancelled : Bool) (code : Text)
deriving DecidableEq

def emitData (limit : ℕ) (trace : DiagnosticsTrace) (chunk : List UInt8) :
    DiagnosticsTrace × NetworkDiagnosticsEvent :=
  let canCapture := !trace.bodyUnavailable && limit > 0 &&
    trace.bodyCaptureBytes + chunk.length ≤ limit
  let captured :=
    if canCapture then { trace with bodyCaptureBytes := trace.bodyCaptureBytes + chunk.length }
    else if limit > 0 then { trace with bodyUnavailable := true }
    else trace
  (captured, .dataReceived (if canCapture then some (base64Encode chunk) else none)
    captured.bodyUnavailable chunk.length)

/-- Tell of the failure, unless the end was told. -/
def failTrace (trace : DiagnosticsTrace) (cancelled : Bool) (code : Text) :
    DiagnosticsTrace × Option NetworkDiagnosticsEvent :=
  if trace.terminal then (trace, none)
  else ({ trace with terminal := true }, some (.loadingFailed cancelled code))

/-- Tell of the end of the body, unless the end was told. -/
def finishTrace (trace : DiagnosticsTrace) (totalBytes : ℕ) :
    DiagnosticsTrace × Option NetworkDiagnosticsEvent :=
  if trace.terminal then (trace, none)
  else ({ trace with terminal := true }, some (.loadingFinished totalBytes))

variable {trace : DiagnosticsTrace} {event : NetworkDiagnosticsEvent}

theorem emitData_event (limit : ℕ) (trace : DiagnosticsTrace) (chunk : List UInt8) :
    ∃ dataBase64 bodyUnavailable,
      (emitData limit trace chunk).2 = .dataReceived dataBase64 bodyUnavailable chunk.length ∧
        (dataBase64 = some (base64Encode chunk) ∧ bodyUnavailable = false ∨
          dataBase64 = none ∧ (bodyUnavailable = true ∨ limit = 0)) := by
  refine ⟨_, _, rfl, ?_⟩
  by_cases captures : (!trace.bodyUnavailable && limit > 0 &&
      trace.bodyCaptureBytes + chunk.length ≤ limit) = true
  · rw [if_pos captures, if_pos captures]
    simp only [Bool.and_eq_true, Bool.not_eq_true', decide_eq_true_eq] at captures
    exact .inl ⟨rfl, captures.1.1⟩
  · rw [if_neg captures, if_neg captures]
    refine .inr ⟨rfl, ?_⟩
    by_cases some' : limit > 0
    · rw [if_pos some']
      exact .inl rfl
    · exact .inr (Nat.eq_zero_of_not_pos some')

theorem finishTrace_some {totalBytes : ℕ} (told : (finishTrace trace totalBytes).2 = some event) :
    event = .loadingFinished totalBytes ∧ (finishTrace trace totalBytes).1.terminal = true := by
  unfold finishTrace at told ⊢
  split_ifs at told ⊢
  cases told
  exact ⟨rfl, rfl⟩

theorem failTrace_some {cancelled : Bool} {code : Text}
    (told : (failTrace trace cancelled code).2 = some event) :
    event = .loadingFailed cancelled code := by
  unfold failTrace at told
  split_ifs at told
  cases told
  rfl

namespace TracedFetch

def totalBytes (fetch : TracedFetch) : ℕ := tally List.length fetch.delivered

def act (limit : ℕ) (fetch : TracedFetch) :
    FetchAction → Option (TracedFetch × Option NetworkDiagnosticsEvent)
  | .send =>
    if fetch.phase = .sending ∧ fetch.trace.terminal = false then
      some ({ fetch with phase := .waiting }, some (.requestWillBeSent fetch.trace.hop))
    else none
  | .answer =>
    if fetch.phase = .waiting ∧ fetch.trace.terminal = false then
      some ({ fetch with phase := .answered }, some (.responseReceived fetch.trace.hop))
    else none
  | .redirect =>
    if fetch.phase = .answered ∧ fetch.trace.terminal = false then
      some ({ fetch with
        phase := .sending
        trace := { fetch.trace with hop := fetch.trace.hop + 1 } }, none)
    else none
  | .respond =>
    if fetch.phase = .answered ∧ fetch.trace.terminal = false then
      some ({ fetch with phase := .reading }, none)
    else none
  | .chunk bytes =>
    if fetch.phase = .reading ∧ fetch.trace.terminal = false then
      let (trace, event) := emitData limit fetch.trace bytes
      some ({ fetch with trace := trace, delivered := fetch.delivered ++ [bytes] }, some event)
    else none
  | .finish =>
    if fetch.phase = .reading then
      let (trace, event) := finishTrace fetch.trace fetch.totalBytes
      some ({ fetch with trace := trace }, event)
    else none
  | .fail cancelled code =>
    let (trace, event) := failTrace fetch.trace cancelled code
    some ({ fetch with trace := trace }, event)

/-- Nothing is delivered before the response. -/
def Quiet (fetch : TracedFetch) : Prop := fetch.phase = .reading ∨ fetch.delivered = []

variable {limit : ℕ} {fetch next : TracedFetch} {action : FetchAction}
  {event : Option NetworkDiagnosticsEvent}

/-- A fetch has delivered nothing before its response, whatever it does. -/
theorem Quiet.act (quiet : fetch.Quiet) (acted : fetch.act limit action = some (next, event)) :
    next.Quiet := by
  cases action with
  | respond =>
    simp only [TracedFetch.act] at acted
    split_ifs at acted with free
    cases acted
    exact .inl rfl
  | chunk bytes =>
    simp only [TracedFetch.act] at acted
    split_ifs at acted with free
    cases acted
    exact .inl free.1
  | finish =>
    simp only [TracedFetch.act] at acted
    split_ifs at acted with reading
    cases acted
    exact .inl reading
  | fail cancelled code =>
    cases acted
    exact quiet
  | _ =>
    simp only [TracedFetch.act] at acted
    split_ifs at acted with free
    cases acted
    rcases quiet with reading | nothing
    · rw [free.1] at reading
      cases reading
    · exact .inr nothing

theorem act_terminal (terminal : fetch.trace.terminal = true)
    (acted : fetch.act limit action = some (next, event)) :
    next.delivered = fetch.delivered ∧ next.trace.terminal = true ∧ event = none := by
  have never : ¬ fetch.trace.terminal = false := by
    rw [terminal]
    exact Bool.noConfusion
  cases action with
  | finish =>
    simp only [TracedFetch.act, finishTrace, if_pos terminal] at acted
    split_ifs at acted
    cases acted
    exact ⟨rfl, terminal, rfl⟩
  | fail cancelled code =>
    simp only [TracedFetch.act, failTrace, if_pos terminal] at acted
    cases acted
    exact ⟨rfl, terminal, rfl⟩
  | _ => simp [TracedFetch.act, never] at acted

end TracedFetch

end Holonomy.Network
