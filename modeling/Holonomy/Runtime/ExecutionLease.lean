import Holonomy.Runtime.Execution

/-!
# Starts of the provider

A frame dispatches the frame behind it at most once, so the provider is started at most once. The
asynchronous dispatcher asks for the lease before every start.
-/

namespace Holonomy.Runtime

open Foundation

variable {ν : Type}

namespace SyncExecutionV1

/-- What every run of the synchronous dispatcher keeps. -/
structure Kept (input : ExecutionInputV1) (execution : SyncExecutionV1 ν) : Prop where
  inside : ∀ index, (execution.frames index).entered = true → index < input.middleware
  entered : ∀ index, (execution.frames index).called = true →
    (execution.frames index).entered = true
  behind : ∀ index, (execution.frames (index + 1)).entered = true →
    (execution.frames index).called = true
  single : execution.starts.length ≤ 1
  begun : execution.starts ≠ [] → input.middleware = 0 ∨
    (execution.frames (input.middleware - 1)).called = true

def InTime (input : ExecutionInputV1) (execution : SyncExecutionV1 ν) : SyncEventV1 ν → Prop
  | .callsNext index => input.providerSync = true → input.middleware ≤ index + 1 →
    (execution.frames index).called = false → execution.closed = false
  | _ => True

variable {index : ℕ} {input : ExecutionInputV1} {execution next : SyncExecutionV1 ν}
  {event : SyncEventV1 ν}

@[simp]
theorem put_frames_self (execution : SyncExecutionV1 ν) (index : ℕ) (frame : SyncFrameV1 ν) :
    (execution.put index frame).frames index = frame := Function.update_self _ _ _

theorem put_frames_of_ne (execution : SyncExecutionV1 ν) {other : ℕ} (frame : SyncFrameV1 ν)
    (apart : other ≠ index) : (execution.put index frame).frames other = execution.frames other :=
  Function.update_of_ne apart _ _

theorem Kept.put (kept : execution.Kept input) {frame : SyncFrameV1 ν}
    (entered : frame.entered = (execution.frames index).entered)
    (called : frame.called = (execution.frames index).called) :
    (execution.put index frame).Kept input := by
  have sameEntered (other : ℕ) :
      ((execution.put index frame).frames other).entered = (execution.frames other).entered := by
    by_cases here : other = index
    · rw [here, put_frames_self, entered]
    · rw [put_frames_of_ne execution frame here]
  have sameCalled (other : ℕ) :
      ((execution.put index frame).frames other).called = (execution.frames other).called := by
    by_cases here : other = index
    · rw [here, put_frames_self, called]
    · rw [put_frames_of_ne execution frame here]
  refine ⟨?_, ?_, ?_, kept.single, ?_⟩
  · intro other
    rw [sameEntered]
    exact kept.inside other
  · intro other
    rw [sameEntered, sameCalled]
    exact kept.entered other
  · intro other
    rw [sameEntered, sameCalled]
    exact kept.behind other
  · intro started
    rw [sameCalled]
    exact kept.begun started

theorem Kept.of_same {before after : SyncExecutionV1 ν} (kept : before.Kept input)
    (frames : after.frames = before.frames) (starts : after.starts = before.starts) :
    after.Kept input := by
  refine ⟨?_, ?_, ?_, ?_, ?_⟩
  · rw [frames]
    exact kept.inside
  · rw [frames]
    exact kept.entered
  · rw [frames]
    exact kept.behind
  · rw [starts]
    exact kept.single
  · rw [starts, frames]
    exact kept.begun

section

variable (kept : execution.Kept input)

include kept

theorem Kept.syncProvider (unstarted : execution.starts = [])
    (last : input.middleware = 0 ∨ (execution.frames (input.middleware - 1)).called = true) :
    (execution.syncProvider input).Kept input := by
  unfold SyncExecutionV1.syncProvider
  split
  · refine ⟨kept.inside, kept.entered, kept.behind, ?_, fun _ => last⟩
    show (execution.starts ++ [execution.closed]).length ≤ 1
    rw [unstarted]
    exact le_refl 1
  · exact kept.of_same rfl rfl

theorem Kept.dispatch
    (called : (execution.frames index).called = true)
    (unentered : (execution.frames (index + 1)).entered = false)
    (unstarted : index + 1 = input.middleware → execution.starts = []) :
    (execution.dispatch input (index + 1)).Kept input := by
  have inside := kept.inside index (kept.entered index called)
  have uncalled : (execution.frames (index + 1)).called = false := by
    rw [Bool.eq_false_iff]
    intro calls
    rw [kept.entered _ calls] at unentered
    cases unentered
  unfold SyncExecutionV1.dispatch
  split
  · rename_i before
    have self := put_frames_self execution (index + 1) ⟨true, false, false, none⟩
    have others (other : ℕ) (apart : other ≠ index + 1) :=
      put_frames_of_ne execution ⟨true, false, false, none⟩ apart
    have sameCalled (other : ℕ) : ((execution.put (index + 1) ⟨true, false, false, none⟩).frames
        other).called = (execution.frames other).called := by
      by_cases here : other = index + 1
      · rw [here, self, uncalled]
      · rw [others other here]
    refine ⟨?_, ?_, ?_, kept.single, ?_⟩
    · intro other enters
      by_cases here : other = index + 1
      · rw [here]
        exact before
      · rw [others other here] at enters
        exact kept.inside other enters
    · intro other calls
      by_cases here : other = index + 1
      · rw [here, self]
      · rw [sameCalled] at calls
        rw [others other here]
        exact kept.entered other calls
    · intro other enters
      rw [sameCalled]
      by_cases here : other = index
      · rw [here]
        exact called
      · rw [others (other + 1) (by omega)] at enters
        exact kept.behind other enters
    · intro started
      rw [sameCalled]
      exact kept.begun started
  · rename_i last
    have same : input.middleware - 1 = index := by omega
    apply kept.syncProvider (unstarted (by omega))
    rw [same]
    exact .inr called

theorem Kept.delegate
    (entered : (execution.frames index).entered = true)
    (fresh : (execution.frames index).called = false) :
    ((execution.put index { execution.frames index with called := true }).dispatch input
      (index + 1)).Kept input := by
  have inside := kept.inside index entered
  have behind : (execution.frames (index + 1)).entered = false := by
    rw [Bool.eq_false_iff]
    intro later
    have called := kept.behind index later
    rw [fresh] at called
    cases called
  have unstarted (last : index + 1 = input.middleware) : execution.starts = [] := by
    by_contra started
    have called := (kept.begun started).resolve_left (by omega)
    have same : input.middleware - 1 = index := by omega
    rw [same, fresh] at called
    cases called
  have noted (other : ℕ) (apart : other ≠ index) := put_frames_of_ne execution
    { execution.frames index with called := true } apart
  have self := put_frames_self execution index { execution.frames index with called := true }
  have called : (execution.put index { execution.frames index with called := true }).Kept
      input := by
    refine ⟨?_, ?_, ?_, kept.single, ?_⟩
    · intro other enters
      by_cases here : other = index
      · rw [here]
        exact inside
      · rw [noted other here] at enters
        exact kept.inside other enters
    · intro other calls
      by_cases here : other = index
      · rw [here, self]
        exact entered
      · rw [noted other here] at calls ⊢
        exact kept.entered other calls
    · intro other enters
      by_cases here : other = index
      · rw [here, self]
      · rw [noted other here]
        by_cases next : other + 1 = index
        · rw [next, self] at enters
          rw [← next] at entered
          exact kept.behind other entered
        · rw [noted _ next] at enters
          exact kept.behind other enters
    · intro started
      refine (kept.begun started).imp_right fun calls => ?_
      by_cases here : input.middleware - 1 = index
      · rw [here, self]
      · rw [noted _ here]
        exact calls
  apply called.dispatch
  · rw [self]
  · rw [noted (index + 1) (by omega)]
    exact behind
  · exact unstarted

end

theorem kept_new (input : ExecutionInputV1) : (new input : SyncExecutionV1 ν).Kept input := by
  have bare (rejected : Bool) : (⟨fun _ => ⟨false, false, false, none⟩, .absent, false, [],
      rejected⟩ : SyncExecutionV1 ν).Kept input := by
    refine ⟨?_, ?_, ?_, Nat.zero_le 1, fun started => absurd rfl started⟩
    · intro index entered
      cases entered
    · intro index called
      cases called
    · intro index entered
      cases entered
  unfold new
  split
  · unfold SyncExecutionV1.dispatch
    split
    · rename_i positive
      refine ⟨?_, ?_, ?_, Nat.zero_le 1, fun started => absurd rfl started⟩
      · intro index entered
        by_cases here : index = 0
        · rw [here]
          exact positive
        · rw [put_frames_of_ne _ _ here] at entered
          cases entered
      · intro index called
        by_cases here : index = 0
        · rw [here, put_frames_self]
        · rw [put_frames_of_ne _ _ here] at called
          cases called
      · intro index entered
        rw [put_frames_of_ne _ _ (Nat.succ_ne_zero index)] at entered
        cases entered
    · exact (bare _).syncProvider rfl (.inl (by omega))
  · exact bare _

theorem endProvider_same {outcome : OutcomeV1 ν}
    (ended : execution.endProvider outcome = some next) :
    next.frames = execution.frames ∧ next.starts = execution.starts := by
  unfold endProvider at ended
  split at ended
  · rw [← Option.some.inj ended]
    exact ⟨rfl, rfl⟩
  · cases ended

theorem Kept.step (kept : execution.Kept input) (stepped : execution.step input event = some next) :
    next.Kept input := by
  cases event with
  | callsNext index =>
    rw [SyncExecutionV1.step, Option.ite_none_right_eq_some] at stepped
    rw [← Option.some.inj stepped.2, callNext]
    split
    · exact kept.put rfl rfl
    · rename_i fresh
      exact kept.delegate stepped.1 (Bool.eq_false_iff.mpr fresh)
  | providerReturns value =>
    have same := endProvider_same stepped
    exact kept.of_same same.1 same.2
  | providerThrows error =>
    have same := endProvider_same stepped
    exact kept.of_same same.1 same.2
  | closes =>
    rw [SyncExecutionV1.step, Option.ite_none_right_eq_some] at stepped
    rw [← Option.some.inj stepped.2]
    exact kept.of_same rfl rfl
  | _ =>
    rw [SyncExecutionV1.step, Option.ite_none_right_eq_some] at stepped
    rw [← Option.some.inj stepped.2]
    exact kept.put rfl rfl

theorem starts_callNext (input : ExecutionInputV1) (execution : SyncExecutionV1 ν) (index : ℕ) :
    (execution.callNext input index).starts = execution.starts ++
      if (execution.frames index).called = false ∧ input.middleware ≤ index + 1 ∧
        input.providerSync = true then [execution.closed] else [] := by
  by_cases called : (execution.frames index).called = true
  · rw [callNext, if_pos called, if_neg (by simp [called]), List.append_nil]
    rfl
  rw [callNext, if_neg called, SyncExecutionV1.dispatch]
  by_cases inner : index + 1 < input.middleware
  · rw [if_pos inner, if_neg (by omega), List.append_nil]
    rfl
  rw [if_neg inner, SyncExecutionV1.syncProvider]
  by_cases sync : input.providerSync = true
  · rw [if_pos sync, if_pos ⟨Bool.eq_false_iff.mpr called, not_lt.mp inner, sync⟩]
    rfl
  · rw [if_neg sync, if_neg (by simp [sync]), List.append_nil]
    rfl

theorem starts_step (stepped : execution.step input event = some next) :
    ∃ added, next.starts = execution.starts ++ added ∧
      ((∀ closed ∈ added, closed = false) ↔ InTime input execution event) := by
  have nothing {event : SyncEventV1 ν} (same : next.starts = execution.starts)
      (inTime : InTime input execution event) : ∃ added, next.starts = execution.starts ++ added ∧
        ((∀ closed ∈ added, closed = false) ↔ InTime input execution event) :=
    ⟨[], by rw [same, List.append_nil], by simp [inTime]⟩
  cases event with
  | callsNext index =>
    rw [SyncExecutionV1.step, Option.ite_none_right_eq_some] at stepped
    have starts := starts_callNext input execution index
    rw [Option.some.inj stepped.2] at starts
    by_cases last : (execution.frames index).called = false ∧ input.middleware ≤ index + 1 ∧
        input.providerSync = true
    · rw [if_pos last] at starts
      refine ⟨[execution.closed], starts, ?_⟩
      rw [List.forall_mem_singleton]
      constructor
      · exact fun opened _ _ _ => opened
      · exact fun inTime => inTime last.2.2 last.2.1 last.1
    · rw [if_neg last, List.append_nil] at starts
      exact nothing starts fun sync ends fresh => absurd ⟨fresh, ends, sync⟩ last
  | providerReturns value => exact nothing (endProvider_same stepped).2 trivial
  | providerThrows error => exact nothing (endProvider_same stepped).2 trivial
  | _ =>
    rw [SyncExecutionV1.step, Option.ite_none_right_eq_some] at stepped
    rw [← Option.some.inj stepped.2] at nothing ⊢
    exact nothing rfl trivial

theorem starts_inTime {events : List (SyncEventV1 ν)}
    (reached : (executeCapabilitySyncV1 ν input).Reaches events execution) :
    (∀ closed ∈ execution.starts, closed = false) ↔
      (executeCapabilitySyncV1 ν input).ReachesWhen (InTime input) events execution := by
  have begins : ∀ closed ∈ (new input : SyncExecutionV1 ν).starts, closed = false := by
    unfold new SyncExecutionV1.dispatch SyncExecutionV1.syncProvider
    split_ifs <;> simp [SyncExecutionV1.put]
  constructor
  · induction reached with
    | refl => exact fun _ => .refl
    | step before free stepped ih =>
      intro all
      obtain ⟨added, starts, inTime⟩ := starts_step stepped
      rw [starts, List.forall_mem_append] at all
      exact .step (ih all.1) (inTime.mp all.2) stepped
  · intro allowed
    apply allowed.invariant begins
    intro state event next all inTime stepped
    obtain ⟨added, starts, same⟩ := starts_step stepped
    rw [starts, List.forall_mem_append]
    exact ⟨all, same.mpr inTime⟩

end SyncExecutionV1

/-- The frame has no task or waits in it. -/
def AsyncFrameV1.Idle (frame : AsyncFrameV1 ν) : Prop :=
  frame.phase = .absent ∨ frame.phase = .dispatched

namespace AsyncExecutionV1

def startsOf : ProviderPhaseV1 ν → List Bool
  | .started => [false]
  | _ => []

/-- What every run of the asynchronous dispatcher keeps. -/
structure Kept (input : ExecutionInputV1) (execution : AsyncExecutionV1 ν) : Prop where
  behind : ∀ index, (execution.frames index).called = false →
    (execution.frames (index + 1)).phase = .absent
  idle : ∀ index, (execution.frames index).phase = .absent →
    (execution.frames index).called = false
  inside : ∀ index, (execution.frames index).entered = true → index < input.middleware
  live : ∀ index, (execution.frames index).entered = true → (execution.frames index).phase ≠ .absent
  within : ∀ index, (execution.frames index).phase ≠ .absent → index ≤ input.middleware
  once : (execution.frames input.middleware).Idle → execution.provider = .absent
  ended : ∀ outcome, execution.provider ≠ .ended outcome
  starts : execution.starts = startsOf execution.provider

variable {index : ℕ} {input : ExecutionInputV1} {execution : AsyncExecutionV1 ν}

@[simp]
theorem put_frames_self (execution : AsyncExecutionV1 ν) (index : ℕ) (frame : AsyncFrameV1 ν) :
    (execution.put index frame).frames index = frame := Function.update_self _ _ _

theorem put_frames_of_ne (execution : AsyncExecutionV1 ν) {other : ℕ} (frame : AsyncFrameV1 ν)
    (apart : other ≠ index) : (execution.put index frame).frames other = execution.frames other :=
  Function.update_of_ne apart _ _

theorem Kept.of_same {before after : AsyncExecutionV1 ν} (kept : before.Kept input)
    (frames : after.frames = before.frames) (provider : after.provider = before.provider)
    (starts : after.starts = before.starts) : after.Kept input := by
  refine ⟨?_, ?_, ?_, ?_, ?_, ?_, ?_, ?_⟩
  · rw [frames]
    exact kept.behind
  · rw [frames]
    exact kept.idle
  · rw [frames]
    exact kept.inside
  · rw [frames]
    exact kept.live
  · rw [frames]
    exact kept.within
  · rw [frames, provider]
    exact kept.once
  · rw [provider]
    exact kept.ended
  · rw [starts, provider]
    exact kept.starts

section

variable (kept : execution.Kept input)

include kept

/-- A frame may leave its task as long as `called` stays. -/
theorem Kept.put {frame : AsyncFrameV1 ν} (called : frame.called = (execution.frames index).called)
    (present : (execution.frames index).phase ≠ .absent) (busy : ¬ frame.Idle)
    (entered : frame.entered = true → index < input.middleware) :
    (execution.put index frame).Kept input := by
  have self := put_frames_self execution index frame
  have others (other : ℕ) (apart : other ≠ index) := put_frames_of_ne execution frame apart
  refine ⟨?_, ?_, ?_, ?_, ?_, ?_, kept.ended, kept.starts⟩
  · intro other fresh
    have before : (execution.frames other).called = false := by
      by_cases here : other = index
      · rw [here, self, called] at fresh
        rw [here, fresh]
      · rw [others other here] at fresh
        exact fresh
    have absent := kept.behind other before
    have next : other + 1 ≠ index := by
      intro same
      rw [same] at absent
      exact present absent
    rw [others _ next]
    exact absent
  · intro other absent
    by_cases here : other = index
    · rw [here, self] at absent
      exact absurd (.inl absent) busy
    · rw [others other here] at absent ⊢
      exact kept.idle other absent
  · intro other enters
    by_cases here : other = index
    · rw [here, self] at enters
      rw [here]
      exact entered enters
    · rw [others other here] at enters
      exact kept.inside other enters
  · intro other enters
    by_cases here : other = index
    · rw [here, self]
      exact fun absent => busy (.inl absent)
    · rw [others other here] at enters ⊢
      exact kept.live other enters
  · intro other stays
    by_cases here : other = index
    · rw [here]
      exact kept.within index present
    · rw [others other here] at stays
      exact kept.within other stays
  · intro idle
    by_cases here : input.middleware = index
    · rw [here, self] at idle
      exact absurd idle busy
    · rw [others _ here] at idle
      exact kept.once idle

theorem Kept.finish (present : (execution.frames index).phase ≠ .absent) (outcome : OutcomeV1 ν) :
    (execution.finish index outcome).Kept input := by
  refine kept.put rfl present (fun idle => ?_) (kept.inside index)
  refine idle.elim (fun absent => ?_) fun dispatched => ?_
  · cases absent
  · cases dispatched

theorem Kept.fail (present : (execution.frames index).phase ≠ .absent)
    (code : Text) : (execution.fail index code).Kept input := by
  have aborted : (execution.abort code).Kept input := kept.of_same rfl rfl rfl
  exact aborted.finish present _

/-- The handler of a frame, or the checkpoint of the provider, begins. -/
theorem Kept.dispatch (dispatched : (execution.frames index).phase = .dispatched) :
    (execution.dispatch input index).Kept input := by
  have present : (execution.frames index).phase ≠ .absent := by simp [dispatched]
  unfold AsyncExecutionV1.dispatch
  split
  · exact kept.finish present _
  split
  · rename_i inner
    refine kept.put rfl present (fun idle => ?_) fun _ => inner
    refine idle.elim (fun absent => ?_) fun dispatched => ?_
    · cases absent
    · cases dispatched
  · rename_i outer
    have last : index = input.middleware := by
      have within := kept.within index present
      omega
    have unbegun : execution.provider = .absent := by
      apply kept.once
      rw [← last]
      exact .inr dispatched
    have running : (execution.put index { execution.frames index with phase := .running }).Kept
        input := by
      refine kept.put rfl present (fun idle => ?_) (kept.inside index)
      refine idle.elim (fun absent => ?_) fun dispatched => ?_
      · cases absent
      · cases dispatched
    refine ⟨running.behind, running.idle, running.inside, running.live, running.within, ?_, ?_, ?_⟩
    · intro idle
      have idle : ((execution.put index { execution.frames index with phase := .running }).frames
        input.middleware).Idle := idle
      rw [← last, put_frames_self] at idle
      refine idle.elim (fun absent => ?_) fun dispatched => ?_
      · cases absent
      · cases dispatched
    · intro outcome ended
      cases ended
    · have before := kept.starts
      rw [unbegun] at before
      exact before

/-- A handler calls `next`. -/
theorem Kept.callNext (entered : (execution.frames index).entered = true) :
    (execution.callNext index).Kept input := by
  by_cases stopped : (execution.frames index).called ∨ (execution.frames index).frameClosed ∨
      execution.closed
  · rw [AsyncExecutionV1.callNext, if_pos stopped]
    exact kept.of_same rfl rfl rfl
  · rw [AsyncExecutionV1.callNext, if_neg stopped]
    have going := stopped
    simp only [not_or, Bool.not_eq_true] at going
    have inside := kept.inside index entered
    have absent := kept.behind index going.1
    have uncalled := kept.idle _ absent
    have further := kept.behind _ uncalled
    have self : (((execution.put index { execution.frames index with called := true }).start
        (index + 1)).frames index) = { execution.frames index with called := true } := by
      rw [start, put_frames_of_ne _ _ (Nat.succ_ne_self index).symm, put_frames_self]
    have behind : (((execution.put index { execution.frames index with called := true }).start
        (index + 1)).frames (index + 1)) = ⟨.dispatched, false, false, false⟩ := by
      rw [start, put_frames_self]
    have others (other : ℕ) (here : other ≠ index) (next : other ≠ index + 1) :
        (((execution.put index { execution.frames index with called := true }).start
          (index + 1)).frames other) = execution.frames other := by
      rw [start, put_frames_of_ne _ _ next, put_frames_of_ne _ _ here]
    refine ⟨?_, ?_, ?_, ?_, ?_, ?_, kept.ended, kept.starts⟩
    · intro other fresh
      by_cases here : other = index
      · rw [here, self] at fresh
        cases fresh
      by_cases next : other = index + 1
      · rw [next, others _ (by omega) (by omega)]
        exact further
      · rw [others other here next] at fresh
        have before := kept.behind other fresh
        by_cases last : other + 1 = index
        · rw [last] at before ⊢
          rw [self]
          exact before
        · rw [others _ last (by omega)]
          exact before
    · intro other missing
      by_cases here : other = index
      · rw [here, self] at missing
        exact absurd missing (kept.live index entered)
      by_cases next : other = index + 1
      · rw [next, behind]
      · rw [others other here next] at missing ⊢
        exact kept.idle other missing
    · intro other enters
      by_cases here : other = index
      · rw [here]
        exact inside
      by_cases next : other = index + 1
      · rw [next, behind] at enters
        cases enters
      · rw [others other here next] at enters
        exact kept.inside other enters
    · intro other enters
      by_cases here : other = index
      · rw [here, self]
        exact kept.live index entered
      by_cases next : other = index + 1
      · rw [next, behind] at enters
        cases enters
      · rw [others other here next] at enters ⊢
        exact kept.live other enters
    · intro other stays
      by_cases here : other = index
      · rw [here]
        exact inside.le
      by_cases next : other = index + 1
      · omega
      · rw [others other here next] at stays
        exact kept.within other stays
    · intro idle
      by_cases last : index + 1 = input.middleware
      · apply kept.once
        rw [← last]
        exact .inl absent
      · rw [others _ (by omega) (by omega)] at idle
        exact kept.once idle

theorem Kept.passCheckpoint
    (waiting : execution.provider = .checkpoint) : execution.passCheckpoint.Kept input := by
  have busy (idle : (execution.frames input.middleware).Idle) : False := by
    have absent := kept.once idle
    rw [waiting] at absent
    cases absent
  have unstarted := kept.starts
  rw [waiting] at unstarted
  unfold AsyncExecutionV1.passCheckpoint
  split
  · refine ⟨kept.behind, kept.idle, kept.inside, kept.live, kept.within, fun idle => ?_, ?_,
      unstarted⟩
    · exact absurd idle busy
    · intro outcome ended
      cases ended
  · rename_i going
    simp only [not_or, Bool.not_eq_true] at going
    refine ⟨kept.behind, kept.idle, kept.inside, kept.live, kept.within, fun idle => ?_, ?_, ?_⟩
    · exact absurd idle busy
    · intro outcome ended
      cases ended
    · show execution.starts ++ [execution.closed] = [false]
      rw [unstarted, going.1]
      rfl

end

theorem kept_new (input : ExecutionInputV1) : (new : AsyncExecutionV1 ν).Kept input := by
  have frames (index : ℕ) : (new : AsyncExecutionV1 ν).frames index =
      if index = 0 then ⟨.dispatched, false, false, false⟩ else ⟨.absent, false, false, false⟩ := by
    show Function.update _ _ _ _ = _
    rw [Function.update_apply]
  have called (index : ℕ) : ((new : AsyncExecutionV1 ν).frames index).called = false := by
    rw [frames]
    split <;> rfl
  have entered (index : ℕ) : ((new : AsyncExecutionV1 ν).frames index).entered = false := by
    rw [frames]
    split <;> rfl
  refine ⟨?_, fun index _ => called index, ?_, ?_, ?_, fun _ => rfl, ?_, rfl⟩
  · intro index _
    rw [frames, if_neg (Nat.succ_ne_zero index)]
  · intro index enters
    rw [entered] at enters
    cases enters
  · intro index enters
    rw [entered] at enters
    cases enters
  · intro index stays
    by_cases here : index = 0
    · omega
    · rw [frames, if_neg here] at stays
      exact absurd rfl stays
  · intro outcome ended
    cases ended

theorem Kept.step {next : AsyncExecutionV1 ν} {event : AsyncEventV1 ν} (kept : execution.Kept input)
    (stepped : execution.step input event = some next) : next.Kept input := by
  have present {index : ℕ} (running : execution.Running index = true) :
      (execution.frames index).phase ≠ .absent := by
    intro absent
    rw [Running, absent] at running
    cases running
  cases event with
  | dispatches index =>
    rw [AsyncExecutionV1.step] at stepped
    split at stepped
    · rename_i dispatched
      rw [← Option.some.inj stepped]
      exact kept.dispatch dispatched
    · cases stepped
  | callsNext index =>
    rw [AsyncExecutionV1.step, Option.ite_none_right_eq_some] at stepped
    rw [← Option.some.inj stepped.2]
    exact kept.callNext stepped.1
  | settles index race =>
    rw [AsyncExecutionV1.step, Option.ite_none_right_eq_some] at stepped
    have running := present stepped.1.2.1
    rw [← Option.some.inj stepped.2]
    cases race with
    | returned value =>
      cases value with
      | trusted value =>
        show (if execution.poisoned then _ else _ : AsyncExecutionV1 ν).Kept input
        split
        · exact kept.fail running _
        · exact kept.finish running _
      | _ =>
        show (if execution.poisoned then _ else _ : AsyncExecutionV1 ν).Kept input
        split
        · exact kept.fail running _
        · exact kept.fail running _
    | _ => exact kept.fail running _
  | checkpoint =>
    rw [AsyncExecutionV1.step] at stepped
    split at stepped
    · rename_i waiting
      rw [← Option.some.inj stepped]
      exact kept.passCheckpoint waiting
    · cases stepped
  | providerSettles race =>
    rw [AsyncExecutionV1.step, Option.ite_none_right_eq_some] at stepped
    have running := present stepped.1.1
    rw [← Option.some.inj stepped.2]
    cases race with
    | timedOut =>
      have aborted : (execution.abort (js "provider.timeout")).Kept input :=
        kept.of_same rfl rfl rfl
      exact aborted.finish running _
    | _ => exact kept.finish running _
  | aborts code =>
    rw [← Option.some.inj stepped]
    exact kept.of_same rfl rfl rfl
  | closes =>
    rw [AsyncExecutionV1.step] at stepped
    split at stepped
    · rw [Option.ite_none_left_eq_some] at stepped
      rw [← Option.some.inj stepped.2]
      exact kept.of_same rfl rfl rfl
    · cases stepped

theorem starts_of_reaches {events : List (AsyncEventV1 ν)}
    (reached : (executeCapabilityAsyncV1 ν input).Reaches events execution) :
    execution.starts.length ≤ 1 ∧ ∀ closed ∈ execution.starts, closed = false := by
  have kept : execution.Kept input :=
    reached.invariant (kept_new input) fun _ _ _ kept stepped => kept.step stepped
  rw [kept.starts]
  cases execution.provider with
  | started => exact ⟨le_refl 1, by simp [startsOf]⟩
  | _ => exact ⟨Nat.zero_le 1, by simp [startsOf]⟩

end AsyncExecutionV1

/-- The provider is started at most once by each dispatcher. The asynchronous one never starts it
behind the lease, and the synchronous one exactly where no last `next` is first called there. -/
theorem executeCapabilityV1_starts (ν : Type) (input : ExecutionInputV1) :
    (∀ events execution, (executeCapabilitySyncV1 ν input).Reaches events execution →
      execution.starts.length ≤ 1 ∧ ((∀ closed ∈ execution.starts, closed = false) ↔
        (executeCapabilitySyncV1 ν input).ReachesWhen (SyncExecutionV1.InTime input) events
          execution)) ∧
    ∀ events execution, (executeCapabilityAsyncV1 ν input).Reaches events execution →
      execution.starts.length ≤ 1 ∧ ∀ closed ∈ execution.starts, closed = false := by
  constructor
  · intro events execution reached
    have kept : execution.Kept input := reached.invariant (SyncExecutionV1.kept_new input)
      fun _ _ _ kept stepped => kept.step stepped
    exact ⟨kept.single, SyncExecutionV1.starts_inTime reached⟩
  · intro events execution reached
    exact AsyncExecutionV1.starts_of_reaches reached

/-- A synchronous invocation with one middleware and a synchronous provider. -/
def keptNext : ExecutionInputV1 := ⟨1, true, true⟩

/-- The middleware delegates while it runs. -/
theorem executeCapabilityV1_starts_delegated : ∃ execution,
    (executeCapabilitySyncV1 Unit keptNext).run [.callsNext 0,
      .providerReturns (.terminal true ()), .returns 0 (.trusted ()), .closes] = some execution ∧
    execution.closed = true ∧ execution.starts.length ≤ 1 ∧ execution.starts ≠ [] := by
  have run : ((executeCapabilitySyncV1 Unit keptNext).run [.callsNext 0,
      .providerReturns (.terminal true ()), .returns 0 (.trusted ()), .closes]).map
        (fun execution => (execution.closed, execution.starts)) = some (true, [false]) := by decide
  obtain ⟨execution, computed, fields⟩ := Option.map_eq_some_iff.mp run
  simp only [Prod.mk.injEq] at fields
  have starts := (executeCapabilityV1_starts Unit keptNext).1 _ execution
    (Machine.reaches_of_run computed)
  refine ⟨execution, computed, fields.1, starts.1, ?_⟩
  rw [fields.2]
  exact List.cons_ne_nil _ _

/-- A middleware that keeps `next`, answers itself and calls `next` after the invocation starts the
provider behind the closed lease. -/
theorem not_executeCapabilityV1_starts : ¬ ∀ (input : ExecutionInputV1) events execution,
    (executeCapabilitySyncV1 Unit input).Reaches events execution →
      execution.starts.length ≤ 1 ∧ ∀ closed ∈ execution.starts, closed = false := by
  intro claim
  have run : ((executeCapabilitySyncV1 Unit keptNext).run [.returns 0 (.trusted ()), .closes,
      .callsNext 0]).map SyncExecutionV1.starts = some [true] := by decide
  obtain ⟨execution, reached, starts⟩ := Machine.exists_of_run run
  have inTime := (claim keptNext _ execution reached).2 true
  rw [starts] at inTime
  cases inTime (List.mem_singleton.mpr rfl)

end Holonomy.Runtime
