import Holonomy.Runtime.EngineGate

/-!
# The engine gate fails closed

While no denial is recorded, every frame is on its way to an allow: nothing was refused, thrown or
called twice. A frame that ends has waited for the frame behind it.
-/

namespace Holonomy.Runtime

open Foundation Kernel

structure GateFrameV1.Allowed (frame : GateFrameV1) : Prop where
  returned : ∃ raw, frame.handler = .returned raw ∧ normalizeReturned raw = .ok .allow
  once : frame.repeated = false

def GateFrameV1.Started (frame : GateFrameV1) : Prop := frame.phase ≠ .absent

def GateFrameV1.Clean (length index : ℕ) (frame : GateFrameV1) : Prop :=
  match frame.phase with
  | .absent => frame.repeated = false
  | .dispatched => frame.repeated = false
  | .running => index < length ∧ frame.repeated = false
  | .awaiting decision => index < length ∧ decision = .allow ∧ frame.Allowed ∧ frame.called = true
  | .finished decision => index < length ∧ decision = .allow ∧ frame.Allowed
  | .fulfilled decision => index < length ∧ decision = .allow ∧ frame.Allowed

namespace EngineGateV1

structure Chained (gate : EngineGateV1) : Prop where
  /-- The frame behind is dispatched exactly by `next`. -/
  behind : ∀ index, (gate.frames index).called = true ↔ (gate.frames (index + 1)).Started
  idle : ∀ index, (gate.frames index).phase = .absent ∨ (gate.frames index).phase = .dispatched →
    (gate.frames index).called = false
  /-- A frame that was not run has no handler to call `next`. -/
  silent : ∀ index, (gate.frames index).phase = .absent ∨ (gate.frames index).phase = .dispatched →
    (gate.frames index).handler = .uncalled

structure Sound (length : ℕ) (gate : EngineGateV1) : Prop where
  clean : gate.denial = none → ∀ index, (gate.frames index).Clean length index
  last : gate.denial = none → ∀ index, (gate.frames index).phase.decision?.isSome →
    (gate.frames index).called = true → ∃ decision, (gate.frames (index + 1)).phase =
      .fulfilled decision

def outermost (gate : EngineGateV1) : Option EngineGateDecisionV1 := (gate.frames 0).phase.decision?

structure Raced (gate : EngineGateV1) : Prop where
  decided : ∀ decision, gate.decision = some decision → gate.winner = some decision
  listening : gate.listening = false → gate.winner ≠ none
  aborted : gate.aborted = true → gate.winner ≠ none
  won : gate.winner = some .allow → gate.outermost = some .allow

structure Open (gate : EngineGateV1) : Prop where
  closed : gate.closed = false
  aborted : gate.aborted = false
  denial : gate.denial = none

structure AllAllowed (length : ℕ) (gate : EngineGateV1) : Prop where
  unclosed : gate.Open
  frames : ∃ last, last < length ∧ ∀ index, ((gate.frames index).Started ↔ index ≤ last) ∧
    (index ≤ last → (gate.frames index).Allowed) ∧
    ((gate.frames index).called = true ↔ index < last)

section

variable (gate : EngineGateV1)

include gate

@[simp]
theorem put_frames_self (index : ℕ) (frame : GateFrameV1) :
    (gate.put index frame).frames index = frame := Function.update_self _ _ _

theorem put_frames_of_ne {index other : ℕ} (frame : GateFrameV1)
    (separate : other ≠ index) : (gate.put index frame).frames other = gate.frames other :=
  Function.update_of_ne separate _ _

theorem put_put (index : ℕ) (first second : GateFrameV1) :
    (gate.put index first).put index second = gate.put index second := by
  unfold EngineGateV1.put
  rw [Function.update_idem]

@[simp]
theorem deny_denial (reason : Text) : (gate.deny reason).denial ≠ none :=
  Option.some_ne_none _

@[simp]
theorem maybeSettled_frames : gate.maybeSettled.frames = gate.frames := by
  unfold maybeSettled
  split <;> rfl

@[simp]
theorem maybeSettled_denial : gate.maybeSettled.denial = gate.denial := by
  unfold maybeSettled
  split <;> rfl

end

/-- A frame ends with a denial, which is recorded. -/
def Refuses (gate next : EngineGateV1) (index : ℕ) : Prop :=
  ∃ stored reason, next = { gate with denial := some stored }.finish index (.deny reason)

theorem refuses_refuse (gate : EngineGateV1) (index : ℕ) (reason : Text) :
    gate.Refuses (gate.refuse index reason) index := ⟨_, _, rfl⟩

theorem refuses_conclude {gate : EngineGateV1} (index : ℕ) {reason : Text}
    (denied : gate.denial = some reason) (decision : EngineGateDecisionV1) :
    gate.Refuses (gate.conclude index decision) index := by
  have same : gate = { gate with denial := some reason } := by rw [← denied]
  refine ⟨reason, reason, ?_⟩
  rw [conclude, denied]
  exact congrArg (fun gate => finish gate index (.deny reason)) same

theorem runFrame_cases (length : ℕ) (gate : EngineGateV1) (index : ℕ) :
    gate.Refuses (gate.runFrame length index) index ∨
      (index < length ∧ gate.runFrame length index =
        gate.put index { gate.frames index with phase := .running, handler := .pending }) := by
  unfold runFrame
  by_cases stopped : gate.closed ∨ gate.aborted
  · rw [if_pos stopped]
    exact .inl (refuses_refuse gate index _)
  by_cases missing : length ≤ index
  · rw [if_neg stopped, if_pos missing]
    exact .inl (refuses_refuse gate index _)
  · rw [if_neg stopped, if_neg missing]
    exact .inr ⟨not_le.mp missing, rfl⟩

theorem resume_cases (gate : EngineGateV1) (index : ℕ) (decision : EngineGateDecisionV1) :
    gate.Refuses (gate.resume index decision) index ∨
      (gate.Open ∧ gate.resume index decision = gate.finish index decision) := by
  unfold resume
  by_cases stopped : gate.closed ∨ gate.aborted
  · rw [if_pos stopped]
    exact .inl (refuses_refuse gate index _)
  rw [if_neg stopped]
  simp only [not_or, Bool.not_eq_true] at stopped
  cases denial : gate.denial with
  | some reason => exact .inl (refuses_conclude index denial decision)
  | none =>
    refine .inr ⟨⟨stopped.1, stopped.2, denial⟩, ?_⟩
    rw [conclude, denial]

/-- What a frame does with the result of its handler, once that is noted. -/
theorem receive_cases (gate : EngineGateV1) (index : ℕ) (raw : Option JsonValue)
    {noted : EngineGateV1}
    (note : noted = gate.put index { gate.frames index with handler := .returned raw }) :
    noted.Refuses (gate.receive index raw) index ∨
      (noted.Open ∧ normalizeReturned raw = .ok .allow ∧ (noted.frames index).called = true ∧
        gate.receive index raw =
          noted.put index { noted.frames index with phase := .awaiting .allow }) ∨
      (noted.Open ∧ normalizeReturned raw = .ok .allow ∧ (noted.frames index).called = false ∧
        gate.receive index raw = noted.finish index .allow) := by
  unfold receive
  rw [← note]
  by_cases stopped : noted.closed ∨ noted.aborted
  · rw [if_pos stopped]
    exact .inl (refuses_refuse noted index _)
  rw [if_neg stopped]
  simp only [not_or, Bool.not_eq_true] at stopped
  cases normal : normalizeReturned raw with
  | error => exact .inl (refuses_refuse noted index _)
  | ok decision =>
    cases decision with
    | deny reason =>
      have denied : (noted.deny reason).denial = some (noted.denial.getD reason) := rfl
      left
      show noted.Refuses (if _ ∧ _ then _ else (noted.deny reason).conclude index _) index
      rw [if_neg fun both => absurd both.1 (deny_denial noted reason), conclude, denied]
      exact ⟨_, _, rfl⟩
    | allow =>
      show noted.Refuses (if noted.denial = none ∧ (noted.frames index).called then _ else _)
        index ∨ _
      cases denial : noted.denial with
      | some reason =>
        left
        rw [if_neg (by simp)]
        exact refuses_conclude index denial _
      | none =>
        right
        by_cases called : (noted.frames index).called = true
        · left
          refine ⟨⟨stopped.1, stopped.2, denial⟩, rfl, called, ?_⟩
          show (if noted.denial = none ∧ (noted.frames index).called then _ else _) = _
          rw [if_pos ⟨denial, called⟩]
          rfl
        · right
          refine ⟨⟨stopped.1, stopped.2, denial⟩, rfl, Bool.eq_false_iff.mpr called, ?_⟩
          show (if noted.denial = none ∧ (noted.frames index).called then _ else _) = _
          rw [if_neg (fun both => called both.2), record, conclude, denial]

section Steps

variable {length : ℕ} {gate next : EngineGateV1} {event : GateEventV1} {index : ℕ}
  {frame : GateFrameV1}

/-- What an event does to a gate. -/
inductive Does (length : ℕ) (gate next : EngineGateV1) : GateEventV1 → Prop where
  | refuses {event : GateEventV1} (index : ℕ) (frame : GateFrameV1) (stored reason : Text)
    (started : (gate.frames index).Started) (running : (gate.frames index).phase.decision? = none)
    (called : frame.called = (gate.frames index).called)
    (phase : frame.phase = .finished (.deny reason))
    (same : next = { gate with denial := some stored }.put index frame) :
      Does length gate next event
  | starts (index : ℕ) (dispatched : (gate.frames index).phase = .dispatched)
      (small : index < length)
    (same : next = gate.put index
      { gate.frames index with phase := .running, handler := .pending }) :
    Does length gate next (.runs index)
  | repeats (index : ℕ) (frame : GateFrameV1) (reason : Text)
    (run : (gate.frames index).phase ≠ .absent ∧ (gate.frames index).phase ≠ .dispatched)
    (phase : frame.phase = (gate.frames index).phase)
    (called : frame.called = (gate.frames index).called)
    (same : next = (gate.put index frame).deny reason) : Does length gate next (.callsNext index)
  | delegates (index : ℕ)
    (run : (gate.frames index).phase ≠ .absent ∧ (gate.frames index).phase ≠ .dispatched)
    (running : (gate.frames index).phase.decision? = none)
    (fresh : (gate.frames index).called = false)
    (same : next = (gate.put index { gate.frames index with called := true }).dispatch
      (index + 1)) :
    Does length gate next (.callsNext index)
  | awaits (index : ℕ) (raw : Option JsonValue) (running : (gate.frames index).phase = .running)
    (unclosed : gate.Open) (allow : normalizeReturned raw = .ok .allow)
    (called : (gate.frames index).called = true)
    (same : next = gate.put index
      { gate.frames index with handler := .returned raw, phase := .awaiting .allow }) :
    Does length gate next (.returns index raw)
  | returns (index : ℕ) (raw : Option JsonValue) (running : (gate.frames index).phase = .running)
    (unclosed : gate.Open) (allow : normalizeReturned raw = .ok .allow)
    (called : (gate.frames index).called = false)
    (same : next = gate.put index
      { gate.frames index with handler := .returned raw, phase := .finished .allow }) :
    Does length gate next (.returns index raw)
  | resumes (index : ℕ) (decision other : EngineGateDecisionV1)
    (awaiting : (gate.frames index).phase = .awaiting decision)
    (behind : (gate.frames (index + 1)).phase = .fulfilled other) (unclosed : gate.Open)
    (same : next = gate.put index { gate.frames index with phase := .finished decision }) :
    Does length gate next (.resumes index)
  | fulfils (index : ℕ) (decision : EngineGateDecisionV1)
    (finished : (gate.frames index).phase = .finished decision)
    (same : next = gate.fulfil index decision) : Does length gate next (.fulfils index)
  | releases (index : ℕ) (same : next = gate.release index) :
      Does length gate next (.releases index)
  | aborts (live : gate.aborted = false) (same : next = gate.abort) : Does length gate next .aborts
  | resolves (decision : EngineGateDecisionV1) (winner : gate.winner = some decision)
    (undecided : gate.decision = none) (same : next = gate.resolve decision) :
    Does length gate next .resolves

theorem Refuses.does {base : EngineGateV1} (refused : base.Refuses next index)
    (put : base = gate.put index frame) (started : (gate.frames index).Started)
    (running : (gate.frames index).phase.decision? = none)
    (called : frame.called = (gate.frames index).called) : Does length gate next event := by
  obtain ⟨stored, reason, same⟩ := refused
  subst put
  refine .refuses index { frame with phase := .finished (.deny reason) } stored reason
    started running
    called rfl (same.trans ?_)
  show ({ gate with denial := some stored }.put index frame).finish index _ = _
  rw [EngineGateV1.finish, put_frames_self, put_put]

theorem Chained.of_frames {before after : EngineGateV1} (chained : before.Chained)
    (same : after.frames = before.frames) : after.Chained := by
  constructor
  · rw [same]
    exact chained.behind
  · rw [same]
    exact chained.idle
  · rw [same]
    exact chained.silent

section

variable (chained : gate.Chained)

include chained

theorem does_step (stepped : gate.step length event = some next) : Does length gate next event := by
  have unput (index : ℕ) : gate = gate.put index (gate.frames index) := by
    unfold EngineGateV1.put
    rw [Function.update_eq_self]
  cases event with
  | runs index =>
    rw [EngineGateV1.step, Option.ite_none_right_eq_some] at stepped
    obtain ⟨dispatched, same⟩ := stepped
    rw [← Option.some.inj same]
    refine (runFrame_cases length gate index).elim (fun refused => ?_) fun running =>
      .starts index dispatched running.1 running.2
    apply refused.does (unput index) _ _ rfl
    · rw [GateFrameV1.Started, dispatched]
      exact GatePhaseV1.noConfusion
    · rw [dispatched]
      rfl
  | callsNext index =>
    have run : (gate.frames index).phase ≠ .absent ∧ (gate.frames index).phase ≠ .dispatched := by
      rw [← not_or]
      intro early
      rw [EngineGateV1.step, chained.silent index early] at stepped
      cases stepped
    have called : gate.callNext index = next := by
      rw [EngineGateV1.step] at stepped
      split at stepped
      · cases stepped
      · exact Option.some.inj stepped
    rw [← called, callNext]
    split
    · exact .repeats index { gate.frames index with
        repeated := (gate.frames index).repeated || (gate.frames index).called } _ run rfl rfl rfl
    split
    · exact .repeats index { gate.frames index with
        repeated := (gate.frames index).repeated || (gate.frames index).called } _ run rfl rfl rfl
    · rename_i going fresh
      simp only [not_or] at going
      rw [put_put]
      exact .delegates index run (Option.not_isSome_iff_eq_none.mp going.2.1)
        (Bool.eq_false_iff.mpr fresh) rfl
  | returns index raw =>
    rw [EngineGateV1.step, Option.ite_none_right_eq_some] at stepped
    obtain ⟨running, same⟩ := stepped
    have self := put_frames_self gate index { gate.frames index with handler := .returned raw }
    rw [← Option.some.inj same]
    refine (receive_cases gate index raw rfl).elim (fun refused => ?_) fun allowed =>
      allowed.elim (fun awaits => ?_) fun ends => ?_
    · apply refused.does rfl _ _ rfl
      · rw [GateFrameV1.Started, running]
        exact GatePhaseV1.noConfusion
      · rw [running]
        rfl
    · obtain ⟨unclosed, allow, called, put⟩ := awaits
      rw [self] at called put
      exact .awaits index raw running ⟨unclosed.closed, unclosed.aborted, unclosed.denial⟩
        allow called
        (put.trans (put_put ..))
    · obtain ⟨unclosed, allow, called, put⟩ := ends
      rw [self] at called
      rw [EngineGateV1.finish, self] at put
      exact .returns index raw running ⟨unclosed.closed, unclosed.aborted, unclosed.denial⟩
        allow called
        (put.trans (put_put ..))
  | throws index =>
    rw [EngineGateV1.step, Option.ite_none_right_eq_some] at stepped
    obtain ⟨running, same⟩ := stepped
    rw [← Option.some.inj same]
    have refused :=
      refuses_refuse (gate.put index { gate.frames index with handler := .threw }) index
      (js "host.gate_failed")
    apply refused.does rfl _ _ rfl
    · rw [GateFrameV1.Started, running]
      exact GatePhaseV1.noConfusion
    · rw [running]
      rfl
  | resumes index =>
    rw [EngineGateV1.step] at stepped
    split at stepped
    · rename_i decision other awaiting behind
      rw [← Option.some.inj stepped]
      refine (resume_cases gate index decision).elim (fun refused => ?_) fun ends =>
        .resumes index decision other awaiting behind ends.1 ends.2
      apply refused.does (unput index) _ _ rfl
      · rw [GateFrameV1.Started, awaiting]
        exact GatePhaseV1.noConfusion
      · rw [awaiting]
        rfl
    · cases stepped
  | fulfils index =>
    rw [EngineGateV1.step] at stepped
    split at stepped
    · rename_i decision finished
      exact .fulfils index decision finished (Option.some.inj stepped).symm
    · cases stepped
  | releases index =>
    rw [EngineGateV1.step] at stepped
    split at stepped
    · rw [Option.ite_none_right_eq_some] at stepped
      exact .releases index (Option.some.inj stepped.2).symm
    · cases stepped
  | aborts =>
    rw [EngineGateV1.step, Option.ite_none_left_eq_some] at stepped
    exact .aborts (Bool.eq_false_iff.mpr stepped.1) (Option.some.inj stepped.2).symm
  | resolves =>
    rw [EngineGateV1.step] at stepped
    split at stepped
    · rename_i decision winner undecided
      exact .resolves decision winner undecided (Option.some.inj stepped).symm
    · cases stepped

/-- Frames keep the chain while they advance. -/
theorem Chained.put (called : frame.called = (gate.frames index).called)
    (started : frame.phase ≠ .absent ∧ (gate.frames index).phase ≠ .absent)
    (run : frame.phase = .dispatched → (gate.frames index).phase = .dispatched ∧
      frame.handler = .uncalled) : (gate.put index frame).Chained := by
  constructor
  · intro other
    have before := chained.behind other
    by_cases here : other = index
    · rw [here] at before ⊢
      rw [put_frames_self, put_frames_of_ne gate frame (Nat.succ_ne_self index), called]
      exact before
    · rw [put_frames_of_ne gate frame here]
      by_cases next : other + 1 = index
      · rw [next] at before ⊢
        rw [put_frames_self, before]
        unfold GateFrameV1.Started
        simp [started]
      · rw [put_frames_of_ne gate frame next]
        exact before
  · intro other early
    by_cases here : other = index
    · rw [here] at early ⊢
      rw [put_frames_self] at early ⊢
      rw [called]
      exact chained.idle index (.inr (run (early.resolve_left started.1)).1)
    · rw [put_frames_of_ne gate frame here] at early ⊢
      exact chained.idle other early
  · intro other early
    by_cases here : other = index
    · rw [here] at early ⊢
      rw [put_frames_self] at early ⊢
      exact (run (early.resolve_left started.1)).2
    · rw [put_frames_of_ne gate frame here] at early ⊢
      exact chained.silent other early

theorem Chained.delegate (phase : frame.phase = (gate.frames index).phase)
    (run : frame.phase ≠ .absent ∧ frame.phase ≠ .dispatched)
    (fresh : (gate.frames index).called = false) (called : frame.called = true) :
    ((gate.put index frame).dispatch (index + 1)).Chained := by
  have unstarted : ¬ (gate.frames (index + 1)).Started := by
    rw [← chained.behind index, fresh]
    decide
  have absent : (gate.frames (index + 1)).phase = .absent := not_not.mp unstarted
  have quiet := chained.idle (index + 1) (.inl absent)
  have self : ((gate.put index frame).dispatch (index + 1)).frames index = frame := by
    show ((gate.put index frame).put (index + 1) _).frames index = frame
    rw [put_frames_of_ne _ _ (Nat.succ_ne_self index).symm, put_frames_self]
  have behind : ((gate.put index frame).dispatch (index + 1)).frames (index + 1) =
      ⟨.dispatched, false, .uncalled, false⟩ := put_frames_self _ _ _
  have others (other : ℕ) (here : other ≠ index) (next : other ≠ index + 1) :
      ((gate.put index frame).dispatch (index + 1)).frames other = gate.frames other := by
    show ((gate.put index frame).put (index + 1) _).frames other = _
    rw [put_frames_of_ne _ _ next, put_frames_of_ne _ _ here]
  constructor
  · intro other
    by_cases here : other = index
    · rw [here, self, behind]
      simp [called, GateFrameV1.Started]
    by_cases next : other = index + 1
    · have later := chained.behind (index + 1)
      rw [quiet] at later
      rw [next, behind, others (index + 1 + 1) (by omega) (by omega)]
      exact later
    · rw [others other here next]
      by_cases before : other + 1 = index
      · rw [before, self, chained.behind, before]
        unfold GateFrameV1.Started
        rw [phase]
      · rw [others (other + 1) before (by omega)]
        exact chained.behind other
  · intro other early
    by_cases here : other = index
    · rw [here, self] at early
      exact absurd early (not_or.mpr run)
    by_cases next : other = index + 1
    · rw [next, behind]
    · rw [others other here next] at early ⊢
      exact chained.idle other early
  · intro other early
    by_cases here : other = index
    · rw [here, self] at early
      exact absurd early (not_or.mpr run)
    by_cases next : other = index + 1
    · rw [next, behind]
    · rw [others other here next] at early ⊢
      exact chained.silent other early

theorem Chained.goes (started : (gate.frames index).phase ≠ .absent)
    (called : frame.called = (gate.frames index).called)
    (further : frame.phase ≠ .absent ∧ frame.phase ≠ .dispatched) :
    (gate.put index frame).Chained :=
  chained.put called ⟨further.1, started⟩ fun dispatched => absurd dispatched further.2

theorem Chained.step (does : Does length gate next event) : next.Chained := by
  cases does with
  | refuses index frame stored reason started running called phase same =>
    subst same
    have denied : { gate with denial := some stored }.Chained := chained.of_frames rfl
    exact denied.goes started called (by simp [phase])
  | starts index dispatched small same =>
    subst same
    exact chained.goes (by simp [dispatched]) rfl (by simp)
  | repeats index frame reason run phase called same =>
    subst same
    exact (chained.goes run.1 called (phase ▸ run)).of_frames rfl
  | delegates index run running fresh same =>
    subst same
    exact chained.delegate rfl run fresh rfl
  | awaits index raw running unclosed allow called same =>
    subst same
    exact chained.goes (by simp [running]) rfl (by simp)
  | returns index raw running unclosed allow called same =>
    subst same
    exact chained.goes (by simp [running]) rfl (by simp)
  | resumes index decision other awaiting behind unclosed same =>
    subst same
    exact chained.goes (by simp [awaiting]) rfl (by simp)
  | fulfils index decision finished same =>
    subst same
    have fulfilled :
      (gate.put index { gate.frames index with phase := .fulfilled decision }).Chained :=
      chained.goes (by simp [finished]) rfl (by simp)
    unfold fulfil
    split
    · exact fulfilled.of_frames rfl
    · exact fulfilled
  | releases index same =>
    subst same
    exact chained.of_frames (maybeSettled_frames _)
  | aborts live same =>
    rw [same, abort]
    split
    · exact chained.of_frames (maybeSettled_frames _)
    · exact chained.of_frames rfl
  | resolves decision winner undecided same =>
    subst same
    exact chained.of_frames (maybeSettled_frames _)

end

theorem sound_of_denied (denied : gate.denial ≠ none) : gate.Sound length :=
  ⟨fun none => absurd none denied, fun none => absurd none denied⟩

theorem Sound.of_same {before after : EngineGateV1} (sound : before.Sound length)
    (frames : after.frames = before.frames) (denial : after.denial = before.denial) :
    after.Sound length := by
  constructor
  · rw [frames, denial]
    exact sound.clean
  · rw [frames, denial]
    exact sound.last

theorem Sound.put (sound : gate.Sound length) (clean : gate.denial = none →
    frame.Clean length index)
    (last : gate.denial = none → frame.phase.decision?.isSome → frame.called = true →
      ∃ decision, (gate.frames (index + 1)).phase = .fulfilled decision)
    (kept : ∀ decision, (gate.frames index).phase = .fulfilled decision →
      ∃ decision, frame.phase = .fulfilled decision) : (gate.put index frame).Sound length := by
  constructor
  · intro none other
    by_cases here : other = index
    · rw [here, put_frames_self]
      exact clean none
    · rw [put_frames_of_ne gate frame here]
      exact sound.clean none other
  · intro none other ended called
    by_cases here : other = index
    · rw [here] at ended called ⊢
      rw [put_frames_self] at ended called
      rw [put_frames_of_ne gate frame (Nat.succ_ne_self index)]
      exact last none ended called
    · rw [put_frames_of_ne gate frame here] at ended called
      have behind := sound.last none other ended called
      by_cases next : other + 1 = index
      · rw [next] at behind ⊢
        rw [put_frames_self]
        exact behind.elim kept
      · rw [put_frames_of_ne gate frame next]
        exact behind

theorem Sound.finish (sound : gate.Sound length) (small : index < length) (allowed : frame.Allowed)
    (phase : frame.phase = .finished .allow)
    (last : frame.called = true → ∃ decision, (gate.frames (index + 1)).phase = .fulfilled decision)
    (running : (gate.frames index).phase.decision? = none) :
    (gate.put index frame).Sound length := by
  apply sound.put
  · intro none
    unfold GateFrameV1.Clean
    rw [phase]
    exact ⟨small, rfl, allowed⟩
  · intro none ended
    exact last
  · intro decision fulfilled
    rw [fulfilled] at running
    cases running

/-- A frame that is not finished may call `next`. -/
theorem Sound.delegate (chained : gate.Chained) (sound : gate.Sound length)
    (fresh : (gate.frames index).called = false)
    (ended : (gate.frames index).phase.decision? = none) :
    ((gate.put index { gate.frames index with called := true }).dispatch (index + 1)).Sound
      length := by
  have unstarted : ¬ (gate.frames (index + 1)).Started := by
    rw [← chained.behind index, fresh]
    decide
  have called : (gate.put index { gate.frames index with called := true }).Sound length := by
    apply sound.put
    · intro none
      have clean := sound.clean none index
      unfold GateFrameV1.Clean at clean ⊢
      cases phase : (gate.frames index).phase with
      | awaiting decision =>
        rw [phase] at clean
        obtain ⟨small, allow, allowed, delegated⟩ := clean
        exact absurd delegated (Bool.eq_false_iff.mp fresh)
      | finished decision => rw [phase] at ended; cases ended
      | fulfilled decision => rw [phase] at ended; cases ended
      | _ => simpa only [phase] using clean
    · intro none finished
      have finished : (gate.frames index).phase.decision?.isSome := finished
      rw [ended] at finished
      cases finished
    · intro decision fulfilled
      rw [fulfilled] at ended
      cases ended
  have behind : ((gate.put index { gate.frames index with called := true }).put (index + 1)
      ⟨.dispatched, false, .uncalled, false⟩).Sound length := by
    apply called.put
    · intro none
      exact rfl
    · intro none finished
      cases finished
    · intro decision fulfilled
      rw [put_frames_of_ne _ _ (Nat.succ_ne_self index)] at fulfilled
      rw [GateFrameV1.Started, fulfilled] at unstarted
      exact absurd (fun same => by cases same) unstarted
  exact behind.of_same rfl rfl

/-- Every event keeps the frames clean. -/
theorem Sound.step (chained : gate.Chained) (sound : gate.Sound length)
    (does : Does length gate next event) : next.Sound length := by
  cases does with
  | refuses index frame stored reason started running called phase same =>
    subst same
    exact sound_of_denied (Option.some_ne_none _)
  | starts index dispatched small same =>
    subst same
    apply sound.put
    · intro none
      have clean := sound.clean none index
      unfold GateFrameV1.Clean at clean
      rw [dispatched] at clean
      exact ⟨small, clean⟩
    · intro none ended
      cases ended
    · intro decision fulfilled
      rw [dispatched] at fulfilled
      cases fulfilled
  | repeats index frame reason run phase called same =>
    subst same
    exact sound_of_denied (deny_denial _ _)
  | delegates index run running fresh same =>
    subst same
    exact sound.delegate chained fresh running
  | awaits index raw running unclosed allow called same =>
    subst same
    have clean := sound.clean unclosed.denial index
    unfold GateFrameV1.Clean at clean
    rw [running] at clean
    apply sound.put
    · intro none
      exact ⟨clean.1, rfl, ⟨⟨raw, rfl, allow⟩, clean.2⟩, called⟩
    · intro none finished
      cases finished
    · intro decision fulfilled
      rw [running] at fulfilled
      cases fulfilled
  | returns index raw running unclosed allow called same =>
    subst same
    have clean := sound.clean unclosed.denial index
    unfold GateFrameV1.Clean at clean
    rw [running] at clean
    refine sound.finish clean.1 ⟨⟨raw, rfl, allow⟩, clean.2⟩ rfl ?_ ?_
    · intro delegated
      exact absurd delegated (Bool.eq_false_iff.mp called)
    · rw [running]
      rfl
  | resumes index decision other awaiting behind unclosed same =>
    have clean := sound.clean unclosed.denial index
    unfold GateFrameV1.Clean at clean
    rw [awaiting] at clean
    obtain ⟨small, allow, allowed, called⟩ := clean
    subst same allow
    refine sound.finish small ⟨allowed.returned, allowed.once⟩ rfl (fun _ => ⟨other, behind⟩) ?_
    rw [awaiting]
    rfl
  | fulfils index decision finished same =>
    have fulfilled : (gate.put index
        { gate.frames index with phase := .fulfilled decision }).Sound length := by
      apply sound.put
      · intro none
        have clean := sound.clean none index
        unfold GateFrameV1.Clean at clean
        rw [finished] at clean
        obtain ⟨small, allow, allowed⟩ := clean
        exact ⟨small, allow, allowed.returned, allowed.once⟩
      · intro none ended called
        apply sound.last none index _ called
        rw [finished]
        rfl
      · intro other fulfilled
        exact ⟨decision, rfl⟩
    subst same
    unfold fulfil
    split
    · exact fulfilled.of_same rfl rfl
    · exact fulfilled
  | releases index same =>
    subst same
    exact sound.of_same (maybeSettled_frames _) (maybeSettled_denial _)
  | aborts live same =>
    rw [same, abort]
    split
    · apply sound_of_denied
      rw [maybeSettled_denial]
      exact Option.some_ne_none _
    · exact sound.of_same rfl rfl
  | resolves decision winner undecided same =>
    subst same
    exact sound.of_same (maybeSettled_frames _) (maybeSettled_denial _)

/-- Nothing but a frame and the denial changed. -/
structure Aside (before after : EngineGateV1) : Prop where
  decision : after.decision = before.decision
  listening : after.listening = before.listening
  aborted : after.aborted = before.aborted
  winner : after.winner = before.winner

theorem aside_maybeSettled (gate : EngineGateV1) : gate.Aside gate.maybeSettled := by
  unfold maybeSettled
  split
  · exact ⟨rfl, rfl, rfl, rfl⟩
  · exact ⟨rfl, rfl, rfl, rfl⟩

theorem Does.aside (does : Does length gate next event) : gate.Aside next ∨
      (event = .fulfils 0 ∧ ∃ decision, (gate.frames 0).phase = .finished decision ∧
        next = gate.fulfil 0 decision) ∨
      (event = .aborts ∧ gate.aborted = false ∧ next = gate.abort) ∨
      (event = .resolves ∧ ∃ decision, gate.winner = some decision ∧ gate.decision = none ∧
        next = gate.resolve decision) := by
  cases does with
  | fulfils index decision finished same =>
    by_cases first : index = 0
    · subst first
      exact .inr (.inl ⟨rfl, decision, finished, same⟩)
    · left
      rw [same, fulfil, if_neg first]
      exact ⟨rfl, rfl, rfl, rfl⟩
  | releases index same =>
    have aside := aside_maybeSettled { gate with active := gate.active.erase index }
    rw [same]
    exact .inl ⟨aside.decision, aside.listening, aside.aborted, aside.winner⟩
  | aborts live same => exact .inr (.inr (.inl ⟨rfl, live, same⟩))
  | resolves decision winner undecided same =>
    exact .inr (.inr (.inr ⟨rfl, decision, winner, undecided, same⟩))
  -- all other events replace a frame or record a denial
  | _ =>
    subst next
    exact .inl ⟨rfl, rfl, rfl, rfl⟩

inductive Moves (gate next : EngineGateV1) (event : GateEventV1) (index : ℕ) : Prop where
  | stays (same : (next.frames index).phase = (gate.frames index).phase)
  | goes (started : (gate.frames index).Started)
    (running : (gate.frames index).phase.decision? = none)
    (after : (next.frames index).Started ∧ (next.frames index).phase.decision? = none)
  | denies (started : (gate.frames index).Started)
    (running : (gate.frames index).phase.decision? = none) (reason : Text)
    (after : (next.frames index).phase = .finished (.deny reason))
  | allows (started : (gate.frames index).Started)
    (running : (gate.frames index).phase.decision? = none)
    (after : (next.frames index).phase = .finished .allow) (unclosed : next.Open)
    (asked : (∃ raw, event = .returns index raw) ∨ event = .resumes index)
  | fulfils (decision : EngineGateDecisionV1)
    (before : (gate.frames index).phase = .finished decision)
    (after : (next.frames index).phase = .fulfilled decision)
  | dispatches (front : ℕ) (behind : index = front + 1) (started : (gate.frames front).Started)
    (running : (gate.frames front).phase.decision? = none)
    (before : (gate.frames index).phase = .absent)
    (after : (next.frames index).phase = .dispatched)

theorem Moves.of_put (frames : next.frames = (gate.put index frame).frames)
    (own : Moves gate next event index) (other : ℕ) : Moves gate next event other := by
  by_cases here : other = index
  · rw [here]
    exact own
  · apply Moves.stays
    rw [frames, put_frames_of_ne gate frame here]

theorem Does.moves (chained : gate.Chained) (sound : gate.Sound length)
    (does : Does length gate next event) (other : ℕ) : Moves gate next event other := by
  cases does with
  | refuses index frame stored reason started running called phase same =>
    have frames : next.frames = (gate.put index frame).frames := by rw [same]; rfl
    apply Moves.of_put frames
    subst same
    exact .denies started running reason (by rw [put_frames_self, phase])
  | starts index dispatched small same =>
    subst same
    apply Moves.of_put rfl
    apply Moves.goes
    · simp [GateFrameV1.Started, dispatched]
    · rw [dispatched]
      rfl
    · rw [put_frames_self]
      exact ⟨GatePhaseV1.noConfusion, rfl⟩
  | repeats index frame reason run phase called same =>
    have frames : next.frames = (gate.put index frame).frames := by rw [same]; rfl
    apply Moves.of_put frames
    apply Moves.stays
    rw [frames, put_frames_self, phase]
  | delegates index run running fresh same =>
    subst same
    by_cases behind : other = index + 1
    · subst behind
      have unstarted : ¬ (gate.frames (index + 1)).Started := by
        rw [← chained.behind index, fresh]
        decide
      apply Moves.dispatches index rfl run.1 running (not_not.mp unstarted)
      exact congrArg GateFrameV1.phase (put_frames_self _ _ _)
    · apply Moves.stays
      have apart := put_frames_of_ne (gate.put index { gate.frames index with called := true })
        ⟨.dispatched, false, .uncalled, false⟩ behind
      refine (congrArg GateFrameV1.phase apart).trans ?_
      by_cases here : other = index
      · rw [here, put_frames_self]
      · rw [put_frames_of_ne _ _ here]
  | awaits index raw running unclosed allow called same =>
    subst same
    apply Moves.of_put rfl
    apply Moves.goes
    · simp [GateFrameV1.Started, running]
    · rw [running]
      rfl
    · rw [put_frames_self]
      exact ⟨GatePhaseV1.noConfusion, rfl⟩
  | returns index raw running unclosed allow called same =>
    subst same
    apply Moves.of_put rfl
    apply Moves.allows
    · simp [GateFrameV1.Started, running]
    · rw [running]
      rfl
    · rw [put_frames_self]
    · exact ⟨unclosed.closed, unclosed.aborted, unclosed.denial⟩
    · exact .inl ⟨raw, rfl⟩
  | resumes index decision behind awaiting fulfilled unclosed same =>
    have clean := sound.clean unclosed.denial index
    unfold GateFrameV1.Clean at clean
    rw [awaiting] at clean
    subst same
    apply Moves.of_put rfl
    apply Moves.allows
    · simp [GateFrameV1.Started, awaiting]
    · rw [awaiting]
      rfl
    · rw [put_frames_self, clean.2.1]
    · exact ⟨unclosed.closed, unclosed.aborted, unclosed.denial⟩
    · exact .inr rfl
  | fulfils index decision finished same =>
    have frames : next.frames = (gate.put index
        { gate.frames index with phase := .fulfilled decision }).frames := by
      rw [same, fulfil]
      split
      · rfl
      · rfl
    apply Moves.of_put frames
    apply Moves.fulfils decision finished
    rw [frames, put_frames_self]
  | releases index same =>
    apply Moves.stays
    rw [same, release, maybeSettled_frames]
  | aborts live same =>
    apply Moves.stays
    rw [same, abort]
    split
    · rw [maybeSettled_frames]
      rfl
    · rfl
  | resolves decision winner undecided same =>
    apply Moves.stays
    rw [same, resolve, maybeSettled_frames]

theorem Moves.kept (moves : Moves gate next event index) {decision : EngineGateDecisionV1}
    (ended : (gate.frames index).phase.decision? = some decision) :
    (next.frames index).phase.decision? = some decision := by
  cases moves with
  | stays same =>
    rw [same]
    exact ended
  | goes started running after =>
    rw [running] at ended
    cases ended
  | denies started running reason after =>
    rw [running] at ended
    cases ended
  | allows started running after unclosed asked =>
    rw [running] at ended
    cases ended
  | fulfils other before after =>
    rw [before] at ended
    rw [after]
    exact ended
  | dispatches front behind started running before after =>
    rw [before] at ended
    cases ended

def AllEnded (gate : EngineGateV1) : Prop :=
  ∀ index, (gate.frames index).Started → (gate.frames index).phase.decision? ≠ none

theorem AllEnded.step (ended : gate.AllEnded)
    (moves : ∀ index, Moves gate next event index) : next.AllEnded ∧
      ∀ index, (next.frames index).Started ↔ (gate.frames index).Started := by
  rw [AllEnded, ← forall_and]
  intro index
  cases moves index with
  | stays same =>
    rw [same, GateFrameV1.Started, same]
    exact ⟨ended index, Iff.rfl⟩
  | goes started running after => exact absurd running (ended index started)
  | denies started running reason after => exact absurd running (ended index started)
  | allows started running after unclosed asked => exact absurd running (ended index started)
  | fulfils decision before after =>
    simp [GateFrameV1.Started, before, after, GatePhaseV1.decision?]
  | dispatches front behind started running before after =>
    exact absurd running (ended front started)

theorem allAllowed_of_open (chained : gate.Chained)
    (sound : gate.Sound length) (unclosed : gate.Open) (returned : gate.outermost ≠ none) :
    gate.AllAllowed length ∧ gate.AllEnded := by
  have front (index : ℕ) (started : (gate.frames (index + 1)).Started) :
      (gate.frames index).Started ∧ (gate.frames index).called = true := by
    have called := (chained.behind index).mpr started
    refine ⟨fun absent => ?_, called⟩
    rw [chained.idle index (.inl absent)] at called
    cases called
  have ended : gate.AllEnded := by
    intro index
    induction index with
    | zero => exact fun _ => returned
    | succ index ih =>
      intro started
      have before := front index started
      obtain ⟨decision, fulfilled⟩ := sound.last unclosed.denial index
        (Option.isSome_iff_ne_none.mpr (ih before.1)) before.2
      rw [fulfilled]
      exact Option.some_ne_none decision
  have allowed (index : ℕ) (started : (gate.frames index).Started) :
      index < length ∧ (gate.frames index).Allowed := by
    have clean := sound.clean unclosed.denial index
    have result := ended index started
    unfold GateFrameV1.Clean at clean
    cases phase : (gate.frames index).phase with
    | absent => exact absurd phase started
    | finished decision =>
      rw [phase] at clean
      exact ⟨clean.1, clean.2.2⟩
    | fulfilled decision =>
      rw [phase] at clean
      exact ⟨clean.1, clean.2.2⟩
    | _ => exact absurd (by rw [phase]; rfl) result
  have downward (index earlier : ℕ) (started : (gate.frames (earlier + index)).Started) :
      (gate.frames earlier).Started := by
    induction index with
    | zero => exact started
    | succ index ih => exact ih (front _ started).1
  have unstarted : ∃ index, ¬ (gate.frames index).Started :=
    ⟨length, fun started => lt_irrefl length (allowed length started).1⟩
  classical
  -- the first frame that was not started comes right behind the last one that was
  obtain ⟨first, missing, least⟩ := Nat.findX unstarted
  have begun : (gate.frames 0).Started := by
    intro absent
    apply returned
    rw [outermost, absent]
    rfl
  have positive : first ≠ 0 := by
    intro zero
    rw [zero] at missing
    exact missing begun
  have started (index : ℕ) : (gate.frames index).Started ↔ index < first := by
    constructor
    · intro started
      by_contra behind
      have later : first + (index - first) = index := by omega
      rw [← later] at started
      exact missing (downward _ _ started)
    · intro before
      exact not_not.mp (least index before)
  have inside : first - 1 < length := (allowed (first - 1) ((started _).mpr (by omega))).1
  refine ⟨⟨unclosed, first - 1, inside, ?_⟩, ended⟩
  intro index
  have begins := started index
  have behind := started (index + 1)
  refine ⟨?_, ?_, ?_⟩
  · rw [begins]
    omega
  · intro before
    exact (allowed index (begins.mpr (by omega))).2
  · rw [chained.behind, behind]
    omega

/-- What every run keeps. -/
structure Kept (length : ℕ) (gate : EngineGateV1) : Prop where
  chained : gate.Chained
  sound : gate.Sound length
  raced : gate.Raced

theorem Raced.candidate (raced : gate.Raced)
    {candidate : EngineGateDecisionV1} (decision : next.decision = gate.decision)
    (winner : next.winner = gate.winner.or (some candidate))
    (kept : gate.winner = some .allow → next.outermost = some .allow)
    (taken : candidate = .allow → next.outermost = some .allow) : next.Raced := by
  have present : next.winner ≠ none := by
    rw [winner]
    cases gate.winner with
    | none => exact Option.some_ne_none _
    | some other => exact Option.some_ne_none _
  refine ⟨?_, fun _ => present, fun _ => present, ?_⟩
  · intro other decided
    rw [decision] at decided
    rw [winner, raced.decided other decided]
    rfl
  · intro won
    rw [winner] at won
    cases before : gate.winner with
    | some other =>
      rw [before] at won
      exact kept (before.trans won)
    | none =>
      rw [before] at won
      exact taken (Option.some.inj won)

theorem Raced.winner_abort (raced : gate.Raced) :
    gate.abort.winner = gate.winner.or (some (.deny (gate.denial.getD cancelled))) := by
  rw [abort]
  split
  · exact (aside_maybeSettled _).winner
  · rename_i deaf
    have present := raced.listening (Bool.eq_false_iff.mpr deaf)
    show gate.winner = _
    cases winner : gate.winner with
    | none => exact absurd winner present
    | some decision => rfl

theorem Raced.step (raced : gate.Raced) (moves : Moves gate next event 0)
    (does : Does length gate next event) : next.Raced := by
  have kept (won : gate.winner = some .allow) : next.outermost = some .allow :=
    moves.kept (raced.won won)
  refine does.aside.elim (fun aside => ?_) fun touched => touched.elim (fun fulfils => ?_)
    fun touched => touched.elim (fun aborts => ?_) fun resolves => ?_
  · refine ⟨?_, ?_, ?_, ?_⟩
    · rw [aside.decision, aside.winner]
      exact raced.decided
    · rw [aside.listening, aside.winner]
      exact raced.listening
    · rw [aside.aborted, aside.winner]
      exact raced.aborted
    · rw [aside.winner]
      exact kept
  · obtain ⟨same, decision, finished, fulfilled⟩ := fulfils
    have candidate : next.winner = gate.winner.or (some decision) := by
      rw [fulfilled]
      rfl
    apply raced.candidate _ candidate kept
    · intro allow
      apply moves.kept
      rw [finished, allow]
      rfl
    · rw [fulfilled]
      rfl
  · obtain ⟨same, live, aborted⟩ := aborts
    have candidate : next.winner = gate.winner.or (some (.deny (gate.denial.getD cancelled))) := by
      rw [aborted]
      exact raced.winner_abort
    apply raced.candidate _ candidate kept
    · intro allow
      cases allow
    · rw [aborted, abort]
      split
      · exact (aside_maybeSettled _).decision
      · rfl
  · obtain ⟨same, decision, winner, undecided, resolved⟩ := resolves
    have aside := aside_maybeSettled
      { gate with closed := true, listening := false, decision := some decision }
    have present : next.winner = some decision := by
      rw [resolved, resolve, aside.winner]
      exact winner
    refine ⟨?_, ?_, ?_, ?_⟩
    · intro other decided
      rw [resolved, resolve, aside.decision] at decided
      rw [present]
      exact decided
    · intro _
      rw [present]
      exact Option.some_ne_none _
    · intro _
      rw [present]
      exact Option.some_ne_none _
    · intro won
      exact kept (winner.trans (present.symm.trans won))

theorem kept_new (length : ℕ) (aborted : Bool) : (new aborted).Kept length := by
  cases aborted with
  | true =>
    refine ⟨⟨fun index => ?_, fun index _ => rfl, fun index _ => rfl⟩,
      ⟨fun _ index => rfl, fun _ index ended => ?_⟩, ⟨fun decision decided => decided, ?_, ?_, ?_⟩⟩
    · simp [new, GateFrameV1.none, GateFrameV1.Started]
    · cases ended
    · intro _
      exact Option.some_ne_none _
    · intro _
      exact Option.some_ne_none _
    · intro won
      cases won
  | false =>
    have frames (index : ℕ) : (new false).frames index =
        if index = 0 then ⟨.dispatched, false, .uncalled, false⟩ else .none := by
      show Function.update _ _ _ _ = _
      rw [Function.update_apply]
    have called (index : ℕ) : ((new false).frames index).called = false := by
      rw [frames]
      split <;> rfl
    have handler (index : ℕ) : ((new false).frames index).handler = .uncalled := by
      rw [frames]
      split <;> rfl
    have running (index : ℕ) : ((new false).frames index).phase.decision? = none := by
      rw [frames]
      split <;> rfl
    refine ⟨⟨fun index => ?_, fun index _ => called index, fun index _ => handler index⟩,
      ⟨fun _ index => ?_, fun _ index ended => ?_⟩, ⟨?_, ?_, ?_, ?_⟩⟩
    · rw [called, frames, if_neg (Nat.succ_ne_zero index)]
      simp [GateFrameV1.none, GateFrameV1.Started]
    · rw [frames]
      split <;> rfl
    · rw [running] at ended
      cases ended
    · intro decision decided
      cases decided
    · intro deaf
      cases deaf
    · intro abort
      cases abort
    · intro won
      cases won

theorem Kept.step (kept : gate.Kept length) (stepped : gate.step length event = some next) :
    next.Kept length := by
  have does := does_step kept.chained stepped
  have moves := does.moves kept.chained kept.sound
  exact ⟨kept.chained.step does, kept.sound.step kept.chained does, kept.raced.step (moves 0) does⟩

theorem kept_of_reaches {aborted : Bool} {events : List GateEventV1}
    (reached : (dispatchEngineGateV1 length aborted).Reaches events gate) :
    gate.Kept length :=
  reached.invariant (kept_new length aborted) fun _ _ _ kept stepped => kept.step stepped

theorem Kept.denied (kept : gate.Kept length) (stepped : gate.step length event = some next)
    (denied : gate.denial ≠ none) : next.denial ≠ none := by
  cases does_step kept.chained stepped with
  | refuses index frame stored reason started running called phase same =>
    rw [same]
    exact Option.some_ne_none _
  | repeats index frame reason run phase called same =>
    rw [same]
    exact deny_denial _ _
  | fulfils index decision finished same =>
    rw [same, fulfil]
    split
    · exact denied
    · exact denied
  | releases index same =>
    rw [same, release, maybeSettled_denial]
    exact denied
  | aborts live same =>
    rw [same, abort]
    split
    · rw [maybeSettled_denial]
      exact Option.some_ne_none _
    · exact denied
  | resolves decision winner undecided same =>
    rw [same, resolve, maybeSettled_denial]
    exact denied
  -- all other events replace a frame
  | _ =>
    subst next
    exact denied

theorem Kept.returns (kept : gate.Kept length) (stepped : gate.step length event = some next)
    (before : gate.outermost ≠ some .allow) (after : next.outermost = some .allow) :
    ((∃ raw, event = .returns 0 raw) ∨ event = .resumes 0) ∧ next.AllAllowed length ∧
      next.AllEnded := by
  have moves := (does_step kept.chained stepped).moves kept.chained kept.sound 0
  have kept := kept.step stepped
  unfold outermost at before after
  cases moves with
  | stays same =>
    rw [same] at after
    exact absurd after before
  | goes started running still =>
    rw [still.2] at after
    cases after
  | denies started running reason still =>
    rw [still] at after
    cases after
  | allows started running still unclosed asked =>
    have returned : next.outermost ≠ none := by
      rw [outermost, after]
      exact Option.some_ne_none _
    exact ⟨asked, allAllowed_of_open kept.chained kept.sound unclosed returned⟩
  | fulfils decision finished still =>
    rw [still] at after
    rw [finished] at before
    exact absurd after before
  | dispatches front behind started running absent still =>
    rw [still] at after
    cases after

theorem Kept.wins (kept : gate.Kept length) (stepped : gate.step length event = some next)
    (before : gate.winner ≠ some .allow) (after : next.winner = some .allow) :
    event = .fulfils 0 ∧ gate.outermost = some .allow ∧ gate.aborted = false := by
  refine (does_step kept.chained stepped).aside.elim (fun aside => ?_) fun touched =>
    touched.elim (fun fulfils => ?_)
    fun touched => touched.elim (fun aborts => ?_) fun resolves => ?_
  · rw [aside.winner] at after
    exact absurd after before
  · obtain ⟨same, decision, finished, fulfilled⟩ := fulfils
    have candidate : next.winner = gate.winner.or (some decision) := by
      rw [fulfilled]
      rfl
    rw [candidate] at after
    cases winner : gate.winner with
    | some other =>
      rw [winner] at before after
      exact absurd after before
    | none =>
      rw [winner] at after
      have allow : decision = .allow := Option.some.inj after
      refine ⟨same, ?_, ?_⟩
      · rw [outermost, finished, allow]
        rfl
      · by_contra aborted
        exact kept.raced.aborted (Bool.eq_true_of_not_eq_false aborted) winner
  · obtain ⟨same, live, aborted⟩ := aborts
    rw [aborted, kept.raced.winner_abort] at after
    cases winner : gate.winner with
    | some other =>
      rw [winner] at before after
      exact absurd after before
    | none =>
      rw [winner] at after
      cases after
  · obtain ⟨same, decision, winner, undecided, resolved⟩ := resolves
    have aside := aside_maybeSettled
      { gate with closed := true, listening := false, decision := some decision }
    rw [resolved, resolve, aside.winner] at after
    exact absurd after before

structure Concluded (gate : EngineGateV1) (length : ℕ) (earlier : EngineGateV1) : Prop where
  kept : gate.Kept length
  ended : gate.AllEnded
  same : ∀ index, (gate.frames index).Started ↔ (earlier.frames index).Started

theorem Concluded.step {earlier : EngineGateV1} (concluded : gate.Concluded length earlier)
    (stepped : gate.step length event = some next) :
    next.Concluded length earlier := by
  have kept := concluded.kept
  have moves := (does_step kept.chained stepped).moves kept.chained kept.sound
  have ended := concluded.ended.step moves
  exact ⟨concluded.kept.step stepped, ended.1,
    fun index => (ended.2 index).trans (concluded.same index)⟩

end Steps

end EngineGateV1

open EngineGateV1

/-- The gate fails closed. An allow is resolved only where the outermost frame asked for the last
time when nothing was denied or aborted and the started frames were the first ones of the list,
each of which returned an admissible allow and called `next` at most once, the last one not at
all. No frame is started later, and the signal is not aborted before the race takes the allow. A
denial that is recorded before the outermost frame returns is the end of every allow. -/
theorem dispatchEngineGateV1_failsClosed {length : ℕ} {aborted : Bool} {events : List GateEventV1}
    {gate : EngineGateV1} (reached : (dispatchEngineGateV1 length aborted).Reaches events gate)
    (allowed : gate.decision = some .allow) :
    (∃ before event between rest returned won,
      events = before ++ [event] ++ between ++ [.fulfils 0] ++ rest ∧
      ((∃ raw, event = .returns 0 raw) ∨ event = .resumes 0) ∧
      (dispatchEngineGateV1 length aborted).Reaches (before ++ [event]) returned ∧
      returned.AllAllowed length ∧
      (dispatchEngineGateV1 length aborted).Reaches (before ++ [event] ++ between) won ∧
      won.aborted = false ∧
      ∀ index, (gate.frames index).Started ↔ (returned.frames index).Started) ∧
    ∀ earlier later middle, (dispatchEngineGateV1 length aborted).Reaches earlier middle →
      (dispatchEngineGateV1 length aborted).Leads (fun _ _ => True) middle later gate →
      middle.outermost = none → middle.denial = none := by
  have winner := (kept_of_reaches reached).raced.decided _ allowed
  have asked := (kept_of_reaches reached).raced.won winner
  have unstarted : (new aborted).outermost ≠ some .allow ∧ (new aborted).winner ≠ some .allow := by
    cases aborted with
    | true =>
      refine ⟨fun returned => ?_, fun won => ?_⟩
      · cases returned
      · cases won
    | false =>
      refine ⟨fun returned => ?_, fun won => ?_⟩
      · cases returned
      · cases won
  constructor
  · obtain ⟨front, won, winning, next, rest, split, reachedWon, notWon, stepped, wins, leads⟩ :=
      Machine.Leads.turn reached (fun gate => gate.winner = some .allow) unstarted.2 winner
    have race := (kept_of_reaches reachedWon).wins stepped notWon wins
    obtain ⟨before, state, event, returned, between, same, reachedState, notReturned, returns, yes,
      towards⟩ := Machine.Leads.turn reachedWon (fun gate => gate.outermost = some .allow)
        unstarted.1 race.2.1
    have all := (kept_of_reaches reachedState).returns returns notReturned yes
    have reachedReturned : (dispatchEngineGateV1 length aborted).Reaches (before ++ [event])
      returned :=
      .step reachedState trivial returns
    have afterwards := towards.append (.append (.step .refl trivial stepped) leads)
    have still : gate.Concluded length returned := by
      apply afterwards.keeps fun gate => gate.Concluded length returned
      · exact ⟨kept_of_reaches reachedReturned, all.2.2, fun _ => Iff.rfl⟩
      · exact fun _ _ _ concluded _ stepped => concluded.step stepped
    refine ⟨before, event, between, rest, returned, won, ?_, all.1, reachedReturned, all.2.1, ?_,
      race.2.2, still.same⟩
    · rw [split, same, race.1]
    · rw [← same]
      exact reachedWon
  · intro earlier later middle reachedMiddle leads undecided
    by_contra denied
    have notYet : middle.outermost ≠ some .allow := by
      rw [undecided]
      exact fun same => by cases same
    obtain ⟨before, state, event, returned, after, same, towards, notReturned, returns, yes, _⟩ :=
      leads.turn (fun gate => gate.outermost = some .allow) notYet asked
    have reachedState := reachedMiddle.append towards
    have all := (kept_of_reaches reachedState).returns returns notReturned yes
    have still : state.Kept length ∧ state.denial ≠ none := by
      apply towards.keeps (fun gate => gate.Kept length ∧ gate.denial ≠ none)
      · exact ⟨kept_of_reaches reachedMiddle, denied⟩
      · exact fun _ _ _ both _ stepped => ⟨both.1.step stepped, both.1.denied stepped both.2⟩
    exact still.1.denied returns still.2 all.2.1.unclosed.denial

/-- What a handler returns to allow. -/
def allowed : Option JsonValue := some (.object [(js "action", .string (js "allow"))])

def unawaited : List GateEventV1 :=
  [.runs 0, .callsNext 0, .returns 0 allowed, .runs 1, .returns 1 allowed, .fulfils 1, .resumes 0,
    .releases 1, .fulfils 0, .releases 0, .resolves]

/-- The gate allows, and both handlers did so when the first one's frame returned. -/
theorem dispatchEngineGateV1_failsClosed_two : ∃ gate,
    (dispatchEngineGateV1 2 false).run unawaited = some gate ∧ gate.decision = some .allow ∧
      ∃ before returned, (dispatchEngineGateV1 2 false).Reaches before returned ∧
        returned.AllAllowed 2 ∧ (returned.frames 1).Started := by
  have resolved : ((dispatchEngineGateV1 2 false).run unawaited).map (fun gate =>
      (gate.decision, (gate.frames 1).phase)) = some (some .allow, .fulfilled .allow) := by
    decide +kernel
  obtain ⟨gate, computed, fields⟩ := Option.map_eq_some_iff.mp resolved
  simp only [Prod.mk.injEq] at fields
  have reached := Machine.reaches_of_run computed
  obtain ⟨⟨before, event, between, rest, returned, won, split, asked, reachedReturned, all,
    reachedWon, live, still⟩, early⟩ := dispatchEngineGateV1_failsClosed reached fields.1
  refine ⟨gate, computed, fields.1, before ++ [event], returned, reachedReturned, all, ?_⟩
  rw [← still 1, GateFrameV1.Started, fields.2]
  exact fun absent => by cases absent

/-- The signal may be aborted between the race and the resolution of its result, and a handler may
call `next` again there: the allow stands although both record a denial. -/
theorem not_dispatchEngineGateV1_failsClosed : ¬ ∀ length events before after,
    (dispatchEngineGateV1 length false).Reaches events before →
      (dispatchEngineGateV1 length false).step before .resolves = some after →
        after.decision = some .allow → before.aborted = false ∧ before.denial = none := by
  intro claim
  have run : ((dispatchEngineGateV1 1 false).run [.runs 0, .returns 0 allowed, .fulfils 0,
      .aborts]).map (fun gate => (gate.aborted, gate.winner, gate.decision)) =
        some (true, some .allow, none) := by decide +kernel
  obtain ⟨before, reached, fields⟩ := Machine.exists_of_run run
  simp only [Prod.mk.injEq] at fields
  have resolves : (dispatchEngineGateV1 1 false).step before .resolves =
      some (before.resolve .allow) := by
    show before.step 1 .resolves = _
    rw [EngineGateV1.step, fields.2.1, fields.2.2]
  have decided : (before.resolve .allow).decision = some .allow := (aside_maybeSettled _).decision
  have unaborted := claim 1 _ before _ reached resolves decided
  rw [fields.1] at unaborted
  cases unaborted.1

end Holonomy.Runtime
