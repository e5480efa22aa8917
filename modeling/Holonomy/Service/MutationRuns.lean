import Holonomy.Service.MutationSteps

/-!
# Runs of the mutations

In every state that an orderly run reaches, the work of a mutation was started once in the period
of its record, and every answer about it is its outcome or asks for reconciliation. A work whose
response could not be written is answered with a failure.
-/

namespace Holonomy.Service

open Foundation Network

variable {numbers : NumberFormat}

namespace Coordinator

structure Truthful (coordinator : Coordinator numbers) : Prop where
  once : coordinator.runs.Pairwise fun earlier later => earlier.scope = later.scope →
    earlier.key = later.key → earlier.expiresAt ≤ later.checked
  retained : ∀ run ∈ coordinator.runs, run.checked + retentionMs ≤ run.expiresAt
  /-- The call that began a run is answered with its end. -/
  own : ∀ entry ∈ coordinator.answers, ∀ id, entry.own = some id →
    ∃ run, coordinator.runs[id]? = some run ∧ entry.call = run.call ∧ run.Ends entry.answer
  later : ∀ entry ∈ coordinator.answers, entry.own = none → ∀ (id : ℕ) (run : Run numbers),
    coordinator.runs[id]? = some run → id < entry.before →
      entry.call.scope = some (.string run.scope) → entry.call.key = some (.string run.key) →
        entry.time < run.expiresAt → run.Reports entry.call.input entry.answer
  /-- A response is that of a run with the scope, the key and the input of the call. -/
  responds : ∀ entry ∈ coordinator.answers, ∀ response, entry.answer = .response response →
    ∃ run ∈ coordinator.runs, run.Responds entry.call response

theorem Kept.truthful {durable : Bool} {coordinator : Coordinator numbers}
    (kept : coordinator.Kept durable) : coordinator.Truthful where
  once := by
    refine kept.apart.imp_of_mem fun {earlier later} earlierIn laterIn apart scope key => ?_
    apply apart
    rw [(kept.sound earlier earlierIn).recordKey, (kept.sound later laterIn).recordKey, scope, key]
  retained run listed := (kept.sound run listed).retained
  own entry listed := (kept.judged entry listed).own
  later entry listed := (kept.judged entry listed).later
  responds entry listed := (kept.judged entry listed).responds

/-- The mutations of an orderly run are run at most once and their outcomes are reported. -/
theorem mutations_truthful (numbers : NumberFormat) (durable : Bool)
    (events : List (MutationEvent numbers)) (coordinator : Coordinator numbers)
    (reached : (mutationMachine numbers durable).ReachesWhen
      (fun coordinator event => coordinator.isOrderly durable event = true) events coordinator) :
    coordinator.Truthful := by
  have kept : coordinator.Kept durable :=
    reached.invariant kept_new fun _ _ _ before orderly stepped => before.step orderly stepped
  exact kept.truthful

def coldBoot : Input Kernel.decimalFormat :=
  ⟨.object [(js "coldBoot", .boolean true)], .object _ (by decide) fun member listed => by
    rw [List.mem_singleton.mp listed]
    exact .boolean true⟩

def warmBoot : Input Kernel.decimalFormat :=
  ⟨.object [(js "coldBoot", .boolean false)], .object _ (by decide) fun member listed => by
    rw [List.mem_singleton.mp listed]
    exact .boolean false⟩

def startPixel (input : Input Kernel.decimalFormat) : MutationEvent Kernel.decimalFormat :=
  .execute ⟨some (.string (js "emulator.start:pixel")), some (.string (js "stable-key")),
    some input⟩

def atOnce (time : ℕ) : Readings := ⟨time, time, time, time⟩

def repeatedStart : List (MutationEvent Kernel.decimalFormat) :=
  [startPixel coldBoot, .turn (atOnce 1), .reads true (atOnce 1), .written .done,
    .works (.resolves (some (.boolean true))), .written .done, .restart false,
    startPixel coldBoot, startPixel warmBoot, .turn (atOnce 5), .reads true (atOnce 6),
    .turn (atOnce 7)]

def Answer.kind : Answer → String
  | .conflict => "conflict"
  | .mismatch => "mismatch"
  | .response _ => "response"
  | .failure _ => "failure"
  | .unwritten _ => "unwritten"
  | .unread => "unread"
  | .refused _ => "refused"

def kinds (coordinator : Coordinator numbers) : List String :=
  coordinator.answers.map fun entry => Answer.kind entry.answer

/-- The response is repeated, and refused for another input. -/
theorem mutations_truthful_repeated : ∃ coordinator : Coordinator Kernel.decimalFormat,
    coordinator.kinds = ["response", "response", "mismatch"] ∧ coordinator.Truthful := by
  have ran : (((mutationMachine Kernel.decimalFormat true).guarded
      fun coordinator event => coordinator.isOrderly true event = true).run
        repeatedStart).map kinds = some ["response", "response", "mismatch"] := by
    decide +kernel
  obtain ⟨coordinator, reached, kinds⟩ := Machine.exists_of_guarded_run ran
  exact ⟨coordinator, kinds, mutations_truthful Kernel.decimalFormat true repeatedStart
    coordinator reached⟩

def unwrittenResponse : List (MutationEvent Kernel.decimalFormat) :=
  [startPixel coldBoot, .turn (atOnce 1), .reads true (atOnce 1), .written .done,
    .works (.resolves (some (.boolean true))), .written (.failed false), .written .done]

def resolvedRuns (coordinator : Coordinator numbers) : List Bool :=
  coordinator.runs.map fun run => match run.outcome with
    | some (.resolved _) => true
    | _ => false

/-- The calls that began runs, and what they were answered. -/
def ownKinds (coordinator : Coordinator numbers) : List (Option ℕ × String) :=
  coordinator.answers.map fun entry => (entry.own, Answer.kind entry.answer)

/-- A resolved work is answered with a failure. -/
theorem resolved_failed : ¬ ∀ (numbers : NumberFormat) (durable : Bool)
    (events : List (MutationEvent numbers)) (coordinator : Coordinator numbers),
    (mutationMachine numbers durable).Reaches events coordinator → coordinator.Truthful := by
  intro claimed
  have ran : ((mutationMachine Kernel.decimalFormat true).run unwrittenResponse).map
      (fun coordinator => (coordinator.resolvedRuns, coordinator.ownKinds)) =
        some ([true], [(some 0, "failure")]) := by
    decide +kernel
  obtain ⟨coordinator, reached, both⟩ := Machine.exists_of_run ran
  rw [Prod.mk.injEq] at both
  have truthful := claimed Kernel.decimalFormat true unwrittenResponse coordinator
    reached
  have listed : (some 0, "failure") ∈ coordinator.ownKinds := by
    rw [both.2]
    exact List.mem_singleton.mpr rfl
  obtain ⟨entry, entryIn, entryIs⟩ := List.mem_map.mp listed
  rw [Prod.mk.injEq] at entryIs
  obtain ⟨run, here, -, ends⟩ := truthful.own entry entryIn 0 entryIs.1
  have read : coordinator.resolvedRuns[0]? = some true := by
    rw [both.1]
    rfl
  rw [resolvedRuns, List.getElem?_map, here, Option.map_some, Option.some.injEq] at read
  rcases ends with ⟨response, known, same⟩ | ⟨error, known, -⟩
  · have answered := entryIs.2
    rw [same] at answered
    change "response" = "failure" at answered
    exact absurd answered (by decide)
  · rw [known] at read
    cases read

end Coordinator

end Holonomy.Service
