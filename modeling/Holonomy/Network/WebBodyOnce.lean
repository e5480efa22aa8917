import Holonomy.Network.ResponseBody

/-!
# Bodies are consumed once

One pull is outstanding at a time, chunks reach consumers in the order of the source, and what
`bytes` resolves with is the whole body, while the terminal callback waits for the chunks on
their way and no chunk is accepted after it.
-/

namespace Holonomy.Network

open Foundation

namespace WebBodyController

structure ConsumedOnce (body : WebBodyController) : Prop where
  onePull : body.pulls.length ≤ 1
  inOrder : (body.handed.map Prod.snd).Pairwise (· < ·)
  whole : ∀ collected ∈ body.resolved, collected.joined = body.sourced.flatten ∧
    body.ended = true ∧ collected.joined.length ≤ collected.maxBytes
  terminalOnce : body.terminals ≤ 1
  terminalRan : body.ended = true ∨ body.failed = true ∨ body.cancelled = true →
    body.terminals = 1
  notLate : body.late = []

def arriving : Option Answer → List Chunk
  | some (.chunk chunk) => [chunk]
  | _ => []

/-- The chunks that no consumer got yet. -/
def onTheWay (body : WebBodyController) : List Chunk := body.handing ++ arriving body.arrival

/-- The terminal callback can run without overtaking a chunk. -/
def mayFinish (body : WebBodyController) : Bool :=
  body.terminalDelivered || body.onTheWay.isEmpty

def pullsFor (body : WebBodyController) (owner : Option ℕ) : Bool :=
  body.assertReader owner false && !body.done && body.hasSource && !body.pulling

def bringsChunk (body : WebBodyController) (pull : Pull) (outcome : Pulled) (aborted : Bool) :
    Bool :=
  match outcome with
  | .value _ => body.accepts pull outcome aborted
  | _ => false

def isOrderly (body : WebBodyController) : BodyEvent → Bool
  | .next owner throws => !(throws && body.pullsFor owner) || body.mayFinish
  | .pulled index outcome aborted =>
    body.pulls[index]?.all fun pull =>
      if body.bringsChunk pull outcome aborted then !body.terminalDelivered else body.mayFinish
  | .cancel owner _ => !body.assertReader owner true || body.done || body.mayFinish
  | .cancelFromStream _ => body.readerOwner.isSome || body.done || body.mayFinish
  | _ => true

def numbers (body : WebBodyController) : List ℕ :=
  body.handed.map Prod.snd ++ body.onTheWay.map Chunk.number

structure Sound (body : WebBodyController) : Prop where
  counted : body.terminals = if body.terminalDelivered then 1 else 0
  finished : body.ended = true ∨ body.failed = true ∨ body.cancelled = true ∨ body.done = true →
    body.terminalDelivered = true
  endedDone : body.ended = true → body.done = true ∧ body.pulls = []
  nothingLeft : body.terminalDelivered = true → body.onTheWay = []
  notLate : body.late = []
  ordered : body.numbers.Pairwise (· < ·)
  below : ∀ number ∈ body.numbers, number < body.sourced.length
  untouched : body.consumed = false → body.pulls = [] ∧ body.sourced = [] ∧
    body.handing = [] ∧ (body.hasSource = true → body.done = false)
  sourceless : body.hasSource = false → body.consumed = false
  measured : ∀ call, body.bytesCall = some call → body.handing = [] ∧
    call.total = call.chunks.flatten.length ∧ call.total ≤ call.maxBytes
  whole : ∀ collected ∈ body.resolved, collected.joined = body.sourced.flatten ∧
    body.ended = true ∧ collected.joined.length ≤ collected.maxBytes

def Waits (body : WebBodyController) (call : BytesCall) : Option Answer → Prop
  | none =>
    (∃ epoch, body.pulls = [⟨.bytes, epoch⟩]) ∧ body.sourced.flatten = call.chunks.flatten
  | some (.chunk chunk) => body.sourced.flatten = call.chunks.flatten ++ chunk.bytes
  | some .done => body.ended = true ∧ body.sourced.flatten = call.chunks.flatten
  | some .rejected => True

/-- What orderly events keep. -/
structure Kept (body : WebBodyController) : Prop extends Sound body where
  onePull : body.pulls.length = if body.pulling then 1 else 0
  waits : ∀ call, body.bytesCall = some call → body.Waits call call.arrived
  callConsumed : ∀ call, body.bytesCall = some call → body.consumed = true
  pullsWait : ∀ pull ∈ body.pulls, pull.consumer = .bytes →
    ∃ call, body.bytesCall = some call ∧ call.arrived = none

variable {body : WebBodyController}

variable {answer : Answer} {chunk : Chunk} {index : ℕ} {pull : Pull} {call : BytesCall}
  {aborted : Bool} {owner : Option ℕ}

section

variable (sound : Sound body)

include sound

theorem Sound.finish_eq :
    body.finish = { body with terminalDelivered := true, terminals := 1 } := by
  have counted := sound.counted
  unfold finish
  by_cases delivered : body.terminalDelivered = true
  · rw [if_pos delivered] at counted ⊢
    rw [← delivered, ← counted]
  · rw [if_neg delivered] at counted ⊢
    rw [counted]

theorem Sound.clear (free : body.mayFinish = true) : body.onTheWay = [] := by
  rw [mayFinish, Bool.or_eq_true, List.isEmpty_iff] at free
  rcases free with delivered | empty
  · exact sound.nothingLeft delivered
  · exact empty

theorem Sound.finish (clear : body.onTheWay = []) : Sound body.finish := by
  rw [sound.finish_eq]
  exact { sound with
    counted := rfl
    finished := fun _ => rfl
    nothingLeft := fun _ => clear }

theorem Sound.deliver (consumed : body.consumed = true)
    (going : body.ended = false) (outcome : Pulled) : Sound (body.deliver outcome) := by
  cases outcome with
  | value bytes =>
    have longer : body.sourced.length ≤ (body.sourced ++ [bytes]).length := by
      rw [List.length_append]
      omega
    exact { sound with
      below := fun number listed => lt_of_lt_of_le (sound.below number listed) longer
      untouched := fun fresh => by
        have clash : body.consumed = false := fresh
        rw [consumed] at clash
        cases clash
      whole := fun collected listed => by
        have done := (sound.whole collected listed).2.1
        rw [going] at done
        cases done }
  | ended => exact sound
  | error => exact sound

/-- Answering the call of `bytes` with no chunk takes a chunk away at most. -/
theorem Sound.answerOther (consumer : Consumer)
    (other : arriving (some answer) = []) (clear : body.onTheWay = []) :
    Sound (body.answer consumer answer) := by
  have nothing : body.handing = [] ∧ arriving body.arrival = [] := List.append_eq_nil_iff.mp clear
  cases consumer with
  | caller =>
    cases answer with
    | chunk chunk => cases other
    | done => exact sound
    | rejected => exact sound
  | bytes =>
    have stays : (body.answer .bytes answer).onTheWay = body.onTheWay := by
      have same : arriving (body.answer .bytes answer).arrival = [] := by
        unfold WebBodyController.answer arrival
        cases body.bytesCall with
        | none => rfl
        | some call => exact other
      change body.handing ++ arriving (body.answer .bytes answer).arrival = _
      rw [same, clear, nothing.1]
      rfl
    have sameNumbers : (body.answer .bytes answer).numbers = body.numbers := by
      change body.handed.map Prod.snd ++ (body.answer .bytes answer).onTheWay.map _ = _
      rw [stays]
      rfl
    exact { sound with
      nothingLeft := fun _ => stays.trans clear
      ordered := by
        rw [sameNumbers]
        exact sound.ordered
      below := by
        rw [sameNumbers]
        exact sound.below
      measured := fun call found => by
        obtain ⟨before, had, same⟩ := Option.map_eq_some_iff.mp found
        have measured := sound.measured before had
        rw [← same]
        exact measured }

theorem Sound.fail (clear : body.onTheWay = []) (consumer : Consumer) :
    Sound (body.fail consumer) := by
  have finished := sound.finish clear
  have delivered : body.finish.terminalDelivered = true := by rw [sound.finish_eq]
  have failed : Sound { body.finish with failed := true } :=
    { finished with finished := fun _ => delivered }
  have still : ({ body.finish with failed := true } : WebBodyController).onTheWay = [] := by
    rw [sound.finish_eq]
    exact clear
  exact { failed.answerOther consumer rfl still with }

theorem Sound.finishDone_eq : body.finishDone =
      { body with done := true, ended := true, terminalDelivered := true, terminals := 1 } := by
  have counted := sound.counted
  unfold WebBodyController.finishDone WebBodyController.finish
  by_cases delivered : body.terminalDelivered = true
  · rw [if_pos delivered] at counted
    rw [if_pos delivered, ← delivered, ← counted]
  · rw [if_neg delivered] at counted
    rw [if_neg delivered, counted]

theorem Sound.finishDone (clear : body.onTheWay = [])
    (noPulls : body.pulls = []) (reading : body.hasSource = true → body.consumed = true) :
    Sound body.finishDone := by
  rw [sound.finishDone_eq]
  exact { sound with
    counted := rfl
    finished := fun _ => rfl
    endedDone := fun _ => ⟨rfl, noPulls⟩
    nothingLeft := fun _ => clear
    untouched := fun fresh => by
      obtain ⟨pulls, sourced, handing, _⟩ := sound.untouched fresh
      refine ⟨pulls, sourced, handing, fun has => ?_⟩
      have clash : body.consumed = false := fresh
      rw [reading has] at clash
      cases clash
    whole := fun collected listed => by
      obtain ⟨same, _, within⟩ := sound.whole collected listed
      exact ⟨same, rfl, within⟩ }

theorem Sound.answerChunk (consumer : Consumer) (quiet : body.arrival = none)
    (open_ : body.terminalDelivered = false)
    (waiting : consumer = .bytes → body.handing = [] ∧ ∃ call, body.bytesCall = some call)
    (alone : consumer = .caller → body.bytesCall = none)
    (later : ∀ number ∈ body.numbers, number < chunk.number)
    (within : chunk.number < body.sourced.length) (consumed : body.consumed = true) :
    Sound (body.answer consumer (.chunk chunk)) := by
  have way : (body.answer consumer (.chunk chunk)).onTheWay = body.onTheWay ++ [chunk] := by
    unfold onTheWay
    rw [quiet]
    cases consumer with
    | caller =>
      change (body.handing ++ [chunk]) ++ arriving body.arrival = _
      rw [quiet]
      change body.handing ++ [chunk] ++ [] = body.handing ++ [] ++ [chunk]
      rw [List.append_nil, List.append_nil]
    | bytes =>
      obtain ⟨_, call, found⟩ := waiting rfl
      have arrived : (body.answer .bytes (.chunk chunk)).arrival = some (.chunk chunk) := by
        unfold WebBodyController.answer arrival
        rw [found]
        rfl
      rw [arrived]
      change body.handing ++ [chunk] = body.handing ++ [] ++ [chunk]
      rw [List.append_nil]
  have same : (body.answer consumer (.chunk chunk)).numbers = body.numbers ++ [chunk.number] := by
    unfold numbers
    rw [way, List.map_append, ← List.append_assoc]
    cases consumer <;> rfl
  have ordered : (body.answer consumer (.chunk chunk)).numbers.Pairwise (· < ·) := by
    rw [same]
    exact pairwise_concat sound.ordered fun number listed => later number listed
  have below : ∀ number ∈ (body.answer consumer (.chunk chunk)).numbers,
      number < body.sourced.length := by
    intro number listed
    rw [same, List.mem_append, List.mem_singleton] at listed
    rcases listed with old | new
    · exact sound.below number old
    · rw [new]
      exact within
  have closed : ∀ {goal : Prop}, body.terminalDelivered = true → goal := by
    intro goal delivered
    rw [open_] at delivered
    cases delivered
  have touched : ∀ {goal : Prop}, body.consumed = false → goal := by
    intro goal untouched
    rw [consumed] at untouched
    cases untouched
  cases consumer with
  | caller =>
    exact { sound with
      nothingLeft := fun delivered => closed delivered
      ordered := ordered
      below := below
      untouched := fun fresh => touched fresh
      measured := fun call found => by
        have none : body.bytesCall = none := alone rfl
        have some : body.bytesCall = some call := found
        rw [none] at some
        cases some }
  | bytes =>
    exact { sound with
      nothingLeft := fun delivered => closed delivered
      ordered := ordered
      below := below
      untouched := fun fresh => touched fresh
      measured := fun call found => by
        obtain ⟨before, had, same⟩ := Option.map_eq_some_iff.mp found
        have measured := sound.measured before had
        rw [← same]
        exact measured }

end

theorem Kept.only (kept : Kept body) (found : body.pulls[index]? = some pull) :
    body.pulls = [pull] ∧ body.pulls.eraseIdx index = [] := by
  have one := kept.onePull
  have positive : 0 < body.pulls.length := by
    have bound := (List.getElem?_eq_some_iff.mp found).1
    omega
  have single : body.pulls.length = 1 := by
    by_cases pulling : body.pulling = true
    · rw [if_pos pulling] at one
      exact one
    · rw [if_neg pulling] at one
      omega
  obtain ⟨first, only⟩ := List.length_eq_one_iff.mp single
  rw [only] at found ⊢
  cases index with
  | zero => exact ⟨by rw [Option.some.inj found], rfl⟩
  | succ index => cases found

section

variable (sound : Sound body)

include sound

theorem Sound.going (pulls : body.pulls = [pull]) : body.ended = false := by
  by_cases ended : body.ended = true
  · have none := (sound.endedDone ended).2
    rw [pulls] at none
    cases none
  · exact Bool.eq_false_iff.mpr ended

theorem Sound.consumed_of_pulls (pulls : body.pulls = [pull]) :
    body.consumed = true := by
  by_cases consumed : body.consumed = true
  · exact consumed
  · have none := (sound.untouched (Bool.eq_false_iff.mpr consumed)).1
    rw [pulls] at none
    cases none

theorem Sound.unpulled : Sound { body with pulls := [] } :=
  { sound with
    endedDone := fun ended => ⟨(sound.endedDone ended).1, rfl⟩
    untouched := fun fresh => ⟨rfl, (sound.untouched fresh).2⟩ }

theorem Sound.kept (noPulls : body.pulls = []) (idle : body.pulling = false)
    (waits : ∀ call, body.bytesCall = some call → body.Waits call call.arrived)
    (consumed : ∀ call, body.bytesCall = some call → body.consumed = true) : Kept body where
  toSound := sound
  callConsumed := consumed
  onePull := by rw [noPulls, idle, if_neg Bool.false_ne_true, List.length_nil]
  waits := waits
  pullsWait pull listed := by
    rw [noPulls] at listed
    cases listed

end

theorem Kept.waiting (kept : Kept body) (pulls : body.pulls = [pull])
    (quiet : body.arrival = none) :
    (pull.consumer = .caller → body.bytesCall = none) ∧
      ∀ call, body.bytesCall = some call → pull.consumer = .bytes ∧
        body.sourced.flatten = call.chunks.flatten := by
  have knows : ∀ call, body.bytesCall = some call → pull.consumer = .bytes ∧
      body.sourced.flatten = call.chunks.flatten := by
    intro call found
    have silent : call.arrived = none := by
      unfold arrival at quiet
      rw [found] at quiet
      exact quiet
    have waits := kept.waits call found
    rw [silent] at waits
    obtain ⟨⟨epoch, mine⟩, collected⟩ := waits
    have same : pull = ⟨.bytes, epoch⟩ := by
      rw [pulls] at mine
      exact (List.cons.inj mine).1
    exact ⟨by rw [same], collected⟩
  refine ⟨fun caller => ?_, knows⟩
  cases found : body.bytesCall with
  | none => rfl
  | some call =>
    have other := (knows call found).1
    rw [caller] at other
    cases other

theorem answer_bytesCall (found : (body.answer .bytes answer).bytesCall = some call) :
    ∃ before, body.bytesCall = some before ∧ call = { before with arrived := some answer } := by
  obtain ⟨before, had, same⟩ := Option.map_eq_some_iff.mp found
  exact ⟨before, had, same.symm⟩

theorem Sound.settled {consumer : Consumer} (answered : Sound (body.answer consumer answer))
    (noPulls : body.pulls = []) (alone : consumer = .caller → body.bytesCall = none)
    (waits : ∀ call, body.bytesCall = some call → body.Waits call (some answer))
    (consumed : body.consumed = true) : Kept (body.answer consumer answer).unpull := by
  have settled : Sound (body.answer consumer answer).unpull := { answered with }
  apply settled.kept
  · cases consumer with
    | caller => cases answer <;> exact noPulls
    | bytes => exact noPulls
  · rfl
  · intro call found
    cases consumer with
    | caller =>
      have none := alone rfl
      have some : body.bytesCall = some call := by
        cases answer <;> exact found
      rw [none] at some
      cases some
    | bytes =>
      obtain ⟨before, had, same⟩ := answer_bytesCall found
      have known := waits before had
      rw [same]
      cases answer <;> exact known
  · intro call found
    cases consumer with
    | caller => cases answer <;> exact consumed
    | bytes => exact consumed

section

variable (kept : Kept body)

include kept

section

variable (pulls : body.pulls = [pull])

include pulls

section

variable (quiet : body.arrival = none)

include quiet

theorem Kept.accept
    (running : body.terminalDelivered = false) (bytes : List UInt8) :
    Kept ((({ body with pulls := [] }.deliver (.value bytes)).answer pull.consumer
      (.chunk ⟨body.sourced.length, bytes⟩)).unpull) := by
  have consumed := kept.consumed_of_pulls pulls
  obtain ⟨alone, knows⟩ := kept.waiting pulls quiet
  have delivered : Sound ({ body with pulls := [] }.deliver (.value bytes)) :=
    kept.unpulled.deliver consumed (kept.going pulls) (.value bytes)
  have call : pull.consumer = .bytes → body.handing = [] ∧ ∃ call, body.bytesCall = some call := by
    intro collects
    have listed : pull ∈ body.pulls := by
      rw [pulls]
      exact List.mem_singleton.mpr rfl
    obtain ⟨call, found, _⟩ := kept.pullsWait pull listed collects
    exact ⟨(kept.measured call found).1, call, found⟩
  have within : body.sourced.length < (body.sourced ++ [bytes]).length := by
    rw [List.length_append, List.length_singleton]
    omega
  let chunk : Chunk := ⟨body.sourced.length, bytes⟩
  have inside : chunk.number < (body.sourced ++ [bytes]).length := within
  have later : ∀ number ∈ body.numbers, number < chunk.number := kept.below
  have answered := delivered.answerChunk pull.consumer quiet running call alone later inside
    consumed
  apply answered.settled rfl alone _ consumed
  intro call found
  have collected := (knows call found).2
  change (body.sourced ++ [bytes]).flatten = call.chunks.flatten ++ bytes
  rw [List.flatten_append, collected, List.flatten_singleton]

theorem Kept.reject
    (clear : body.onTheWay = []) (outcome : Pulled) :
    Kept (({ body with pulls := [] }.deliver outcome).fail pull.consumer) := by
  obtain ⟨alone, _⟩ := kept.waiting pulls quiet
  have delivered : Sound ({ body with pulls := [] }.deliver outcome) :=
    kept.unpulled.deliver (kept.consumed_of_pulls pulls) (kept.going pulls) outcome
  have still : ({ body with pulls := [] }.deliver outcome).onTheWay = [] := by
    cases outcome <;> exact clear
  have sameCall : ({ body with pulls := [] }.deliver outcome).bytesCall = body.bytesCall := by
    cases outcome <;> rfl
  have samePulls : ({ body with pulls := [] }.deliver outcome).pulls = [] := by
    cases outcome <;> rfl
  have ended : Sound { ({ body with pulls := [] }.deliver outcome).finish with failed := true } :=
    { delivered.finish still with finished := fun _ => by rw [delivered.finish_eq] }
  have answered : Sound (({ ({ body with pulls := [] }.deliver outcome).finish with
      failed := true } : WebBodyController).answer pull.consumer .rejected) := by
    apply ended.answerOther pull.consumer rfl
    rw [delivered.finish_eq]
    exact still
  apply answered.settled
  · rw [delivered.finish_eq]
    exact samePulls
  · intro caller
    rw [delivered.finish_eq]
    change ({ body with pulls := [] }.deliver outcome).bytesCall = none
    rw [sameCall]
    exact alone caller
  · intro call found
    exact trivial
  · rw [delivered.finish_eq]
    cases outcome <;> exact kept.consumed_of_pulls pulls

theorem Kept.finishes
    (clear : body.onTheWay = []) :
    Kept (({ body with pulls := [] }.finishDone.answer pull.consumer .done).unpull) := by
  obtain ⟨alone, knows⟩ := kept.waiting pulls quiet
  have consumed := kept.consumed_of_pulls pulls
  have ended : Sound { body with pulls := [] }.finishDone :=
    kept.unpulled.finishDone clear rfl fun _ => consumed
  have same := kept.unpulled.finishDone_eq
  have answered : Sound ({ body with pulls := [] }.finishDone.answer pull.consumer .done) := by
    apply ended.answerOther pull.consumer rfl
    rw [same]
    exact clear
  apply answered.settled
  · rw [same]
  · rw [same]
    exact alone
  · rw [same]
    intro call found
    exact ⟨rfl, (knows call found).2⟩
  · rw [same]
    exact consumed

end

end

theorem Kept.settle
    (found : body.pulls[index]? = some pull) (quiet : body.arrival = none) {outcome : Pulled}
    (orderly : (if body.bringsChunk pull outcome aborted then
      !body.terminalDelivered else body.mayFinish) = true) :
    Kept ({ body with pulls := body.pulls.eraseIdx index }.settle pull outcome aborted) := by
  obtain ⟨pulls, none⟩ := kept.only found
  rw [none]
  have accepts : { body with pulls := [] }.accepts pull outcome aborted =
      body.accepts pull outcome aborted := rfl
  unfold WebBodyController.settle
  rw [accepts]
  unfold bringsChunk at orderly
  by_cases accepted : body.accepts pull outcome aborted = true
  · rw [accepted, if_neg (by decide)]
    cases outcome with
    | value bytes =>
      have running : body.terminalDelivered = false := by
        rw [if_pos accepted] at orderly
        exact (Bool.not_eq_true' _).mp orderly
      exact kept.accept pulls quiet running bytes
    | ended => exact kept.finishes pulls quiet (kept.clear orderly)
    | error =>
      have refused : body.accepts pull .error aborted = false := rfl
      rw [refused] at accepted
      cases accepted
  · have refused := Bool.eq_false_iff.mpr accepted
    have clear : body.onTheWay = [] := by
      apply kept.clear
      cases outcome with
      | value bytes =>
        rw [if_neg accepted] at orderly
        exact orderly
      | ended => exact orderly
      | error => exact orderly
    rw [refused]
    exact kept.reject pulls quiet clear outcome

theorem Kept.idle (idle : body.pulling = false) : body.pulls = [] := by
  have one := kept.onePull
  rw [idle, if_neg Bool.false_ne_true] at one
  exact List.length_eq_zero_iff.mp one

end

theorem Sound.running_of_not_done (sound : Sound body) (going : body.done = false) :
    body.ended = false := by
  by_cases ended : body.ended = true
  · have done := (sound.endedDone ended).1
    rw [going] at done
    cases done
  · exact Bool.eq_false_iff.mpr ended

theorem Kept.clear_of_fresh (kept : Kept body) (fresh : body.consumed = false) :
    body.pulls = [] ∧ body.pulling = false ∧ body.bytesCall = none ∧ body.onTheWay = [] := by
  obtain ⟨pulls, sourced, handing, _⟩ := kept.untouched fresh
  have noCall : body.bytesCall = none := by
    cases found : body.bytesCall with
    | none => rfl
    | some call =>
      have consumed := kept.callConsumed call found
      rw [fresh] at consumed
      cases consumed
  have idle : body.pulling = false := by
    have one := kept.onePull
    rw [pulls] at one
    by_cases pulling : body.pulling = true
    · rw [if_pos pulling] at one
      cases one
    · exact Bool.eq_false_iff.mpr pulling
  refine ⟨pulls, idle, noCall, ?_⟩
  unfold onTheWay arrival
  rw [handing, noCall]
  rfl

theorem Kept.sourcelessEnd (kept : Kept body) (sourceless : body.hasSource = false) :
    Kept body.finishDone := by
  obtain ⟨pulls, idle, noCall, clear⟩ := kept.clear_of_fresh (kept.sourceless sourceless)
  have lacks : ¬ body.hasSource = true := Bool.eq_false_iff.mp sourceless
  have ended : Sound body.finishDone := kept.finishDone clear pulls fun has => absurd has lacks
  have same := kept.finishDone_eq
  have none : ∀ {goal : BytesCall → Prop} call, body.finishDone.bytesCall = some call →
      goal call := by
    intro goal call found
    rw [same] at found
    have some : body.bytesCall = some call := found
    rw [noCall] at some
    cases some
  apply ended.kept
  · rw [same]
    exact pulls
  · rw [same]
    exact idle
  · exact none
  · exact none

theorem Sound.pullStarts (sound : Sound body) (has : body.hasSource = true)
    (going : body.done = false) (pulls : List Pull) :
    Sound { body with consumed := true, pulling := true, pulls := pulls } :=
  { sound with
    endedDone := fun ended => by
      have running := sound.running_of_not_done going
      rw [running] at ended
      cases ended
    untouched := fun fresh => by cases fresh
    sourceless := fun sourceless => by
      have lacks : body.hasSource = false := sourceless
      rw [has] at lacks
      cases lacks }

theorem Kept.next (kept : Kept body) {throws : Bool}
    (orderly : throws = true → body.pullsFor owner = true → body.mayFinish = true) :
    Kept (body.next .caller owner throws) := by
  unfold WebBodyController.next
  by_cases mine : body.assertReader owner false = true
  case neg =>
    rw [Bool.eq_false_iff.mpr mine]
    exact kept
  rw [mine, if_neg (by decide)]
  by_cases done : body.done = true
  · rw [if_pos done]
    exact kept
  rw [if_neg done]
  have going := Bool.eq_false_iff.mpr done
  by_cases has : body.hasSource = true
  case neg =>
    have sourceless := Bool.eq_false_iff.mpr has
    rw [sourceless, if_pos (by decide)]
    exact kept.sourcelessEnd sourceless
  have reads : ¬ (!body.hasSource) = true := by
    rw [has]
    decide
  rw [if_neg reads]
  by_cases pulling : body.pulling = true
  · rw [if_pos pulling]
    exact kept
  rw [if_neg pulling]
  have pulls := kept.idle (Bool.eq_false_iff.mpr pulling)
  have noWait : ∀ call, body.bytesCall = some call → call.arrived ≠ none := by
    intro call found silent
    have waits := kept.waits call found
    rw [silent] at waits
    obtain ⟨⟨epoch, mine⟩, _⟩ := waits
    rw [pulls] at mine
    cases mine
  cases throws with
  | true =>
    rw [if_pos rfl]
    have pullsFor : body.pullsFor owner = true := by
      unfold WebBodyController.pullsFor
      rw [mine, going, has, Bool.eq_false_iff.mpr pulling]
      rfl
    have clear := kept.clear (orderly rfl pullsFor)
    have begun := kept.pullStarts has going body.pulls
    have failed := begun.fail clear .caller
    apply failed.kept
    · unfold WebBodyController.fail
      rw [begun.finish_eq]
      exact pulls
    · rfl
    · unfold WebBodyController.fail
      rw [begun.finish_eq]
      intro call found
      have waits := kept.waits call found
      cases arrived : call.arrived with
      | none => exact absurd arrived (noWait call found)
      | some answer =>
        rw [arrived] at waits
        cases answer <;> exact waits
    · unfold WebBodyController.fail
      rw [begun.finish_eq]
      exact fun _ _ => rfl
  | false =>
    rw [if_neg Bool.false_ne_true]
    have begun := kept.pullStarts has going (body.pulls ++ [⟨.caller, body.cancellationEpoch⟩])
    exact { begun with
      onePull := by
        change (body.pulls ++ [_]).length = 1
        rw [pulls]
        rfl
      waits := fun call found => by
        have waits := kept.waits call found
        cases arrived : call.arrived with
        | none => exact absurd arrived (noWait call found)
        | some answer =>
          rw [arrived] at waits
          cases answer <;> exact waits
      callConsumed := fun _ _ => rfl
      pullsWait := fun pull listed collects => by
        rw [pulls] at listed
        rw [List.mem_singleton.mp listed] at collects
        cases collects }

theorem Sound.nextBytes (sound : Sound body) (found : body.bytesCall = some call)
    (silent : call.arrived = none) (collected : body.sourced.flatten = call.chunks.flatten)
    (onePull : body.pulls.length = if body.pulling then 1 else 0)
    (others : ∀ pull ∈ body.pulls, pull.consumer = .caller) (clear : body.onTheWay = [])
    (has : body.hasSource = true) (going : body.done = false) (throws : Bool)
    (consumed : body.consumed = true ∨ body.readerOwner = none ∧ body.pulling = false) :
    Kept (body.next .bytes none throws) := by
  have rejected (consumed : body.consumed = true) : Kept (body.answer .bytes .rejected) :=
    { sound.answerOther .bytes rfl clear with
      callConsumed := fun _ _ => consumed
      onePull := onePull
      waits := fun now had => by
        obtain ⟨before, _, same⟩ := answer_bytesCall had
        rw [same]
        exact trivial
      pullsWait := fun pull listed collects => by
        have caller := others pull listed
        rw [caller] at collects
        cases collects }
  unfold WebBodyController.next
  by_cases mine : body.assertReader none false = true
  case neg =>
    rw [Bool.eq_false_iff.mpr mine]
    apply rejected
    rcases consumed with consumed | ⟨unlocked, _⟩
    · exact consumed
    · have free : body.assertReader none false = true := by
        unfold WebBodyController.assertReader
        rw [unlocked]
        rfl
      exact absurd free mine
  have reads : ¬ (!body.hasSource) = true := by
    rw [has]
    decide
  rw [mine, if_neg (by decide), if_neg (Bool.eq_false_iff.mp going), if_neg reads]
  by_cases pulling : body.pulling = true
  · rw [if_pos pulling]
    apply rejected
    rcases consumed with consumed | ⟨_, idle⟩
    · exact consumed
    · exact absurd pulling (Bool.eq_false_iff.mp idle)
  rw [if_neg pulling]
  have pulls : body.pulls = [] := by
    rw [if_neg pulling] at onePull
    exact List.length_eq_zero_iff.mp onePull
  cases throws with
  | true =>
    rw [if_pos rfl]
    have begun := sound.pullStarts has going body.pulls
    have failed := begun.fail clear .bytes
    apply failed.kept
    · unfold WebBodyController.fail
      rw [begun.finish_eq]
      exact pulls
    · rfl
    · unfold WebBodyController.fail
      intro now had
      obtain ⟨before, _, same⟩ := answer_bytesCall had
      rw [same]
      exact trivial
    · unfold WebBodyController.fail
      rw [begun.finish_eq]
      exact fun _ _ => rfl
  | false =>
    rw [if_neg Bool.false_ne_true]
    have begun := sound.pullStarts has going (body.pulls ++ [⟨.bytes, body.cancellationEpoch⟩])
    exact { begun with
      onePull := by
        change (body.pulls ++ [_]).length = 1
        rw [pulls]
        rfl
      waits := fun now had => by
        have same : some call = some now := found.symm.trans had
        rw [← Option.some.inj same, silent]
        refine ⟨⟨body.cancellationEpoch, ?_⟩, collected⟩
        change body.pulls ++ [_] = _
        rw [pulls]
        rfl
      callConsumed := fun _ _ => rfl
      pullsWait := fun pull listed collects => ⟨call, found, silent⟩ }

theorem Kept.cancel (kept : Kept body)
    (free : body.assertReader owner true = true → body.done = false → body.onTheWay = []) :
    Kept (body.cancel owner aborted) := by
  unfold WebBodyController.cancel
  by_cases mine : body.assertReader owner true = true
  case neg =>
    rw [Bool.eq_false_iff.mpr mine]
    exact kept
  rw [mine, if_neg (by decide)]
  by_cases done : body.done = true
  · rw [if_pos done]
    exact kept
  rw [if_neg done]
  have going := Bool.eq_false_iff.mpr done
  have clear := free mine going
  by_cases aborts : (body.hasSource && aborted) = true
  · rw [if_pos aborts, kept.finish_eq]
    exact { kept with
      counted := rfl
      finished := fun _ => rfl
      nothingLeft := fun _ => clear }
  · rw [if_neg aborts]
    have cancelled : Sound { body with
        cancellationEpoch := body.cancellationEpoch + 1
        consumed := body.hasSource
        done := true
        cancelled := true
        terminalDelivered := true
        terminals := 1 } :=
      { kept.toSound with
        counted := rfl
        finished := fun _ => rfl
        endedDone := fun ended => ⟨rfl, (kept.endedDone ended).2⟩
        nothingLeft := fun _ => clear
        untouched := fun sourceless => by
          have lacks : body.hasSource = false := sourceless
          obtain ⟨pulls, sourced, handing, _⟩ := kept.untouched (kept.sourceless lacks)
          refine ⟨pulls, sourced, handing, fun has => ?_⟩
          rw [lacks] at has
          cases has
        sourceless := id }
    have same : ({ body with
        cancellationEpoch := body.cancellationEpoch + 1
        consumed := body.hasSource
        done := true
        cancelled := true } : WebBodyController).finish = { body with
        cancellationEpoch := body.cancellationEpoch + 1
        consumed := body.hasSource
        done := true
        cancelled := true
        terminalDelivered := true
        terminals := 1 } := by
      have counted := kept.counted
      unfold WebBodyController.finish
      by_cases delivered : body.terminalDelivered = true
      · rw [if_pos delivered] at counted
        rw [if_pos delivered, ← delivered, ← counted]
      · rw [if_neg delivered] at counted
        rw [if_neg delivered, counted]
    rw [same]
    exact { cancelled with
      onePull := kept.onePull
      waits := fun call found => by
        have waits := kept.waits call found
        cases arrived : call.arrived with
        | none =>
          rw [arrived] at waits
          exact waits
        | some answer =>
          rw [arrived] at waits
          cases answer <;> exact waits
      callConsumed := fun call found => by
        have consumed := kept.callConsumed call found
        change body.hasSource = true
        by_cases has : body.hasSource = true
        · exact has
        · have fresh := kept.sourceless (Bool.eq_false_iff.mpr has)
          rw [consumed] at fresh
          cases fresh
      pullsWait := kept.pullsWait }

theorem Sound.running (sound : Sound body) (coming : chunk ∈ body.onTheWay) :
    body.terminalDelivered = false ∧ body.done = false := by
  have running : body.terminalDelivered = false := by
    apply Bool.eq_false_iff.mpr
    intro delivered
    rw [sound.nothingLeft delivered] at coming
    cases coming
  refine ⟨running, Bool.eq_false_iff.mpr fun done => ?_⟩
  have delivered := sound.finished (.inr (.inr (.inr done)))
  rw [running] at delivered
  cases delivered

theorem Kept.received (kept : Kept body) {rest : List Chunk}
    (handing : body.handing = chunk :: rest) :
    Kept ({ body with handing := rest }.hand .caller chunk.number) := by
  have coming : chunk ∈ body.onTheWay := by
    unfold onTheWay
    rw [handing]
    exact List.mem_append_left _ List.mem_cons_self
  have running := (kept.running coming).1
  have noCall : body.bytesCall = none := by
    cases found : body.bytesCall with
    | none => rfl
    | some call =>
      have empty := (kept.measured call found).1
      rw [handing] at empty
      cases empty
  have noTime : ({ body with handing := rest }.hand .caller chunk.number).late = [] := by
    change (if body.terminalDelivered = true then _ else body.late) = []
    rw [if_neg (Bool.eq_false_iff.mp running)]
    exact kept.notLate
  have sameNumbers :
      ({ body with handing := rest }.hand .caller chunk.number).numbers = body.numbers := by
    change (body.handed ++ [(Consumer.caller, chunk.number)]).map Prod.snd ++
      (rest ++ arriving body.arrival).map Chunk.number = body.handed.map Prod.snd ++
      (body.handing ++ arriving body.arrival).map Chunk.number
    rw [handing, List.map_append, List.append_assoc]
    rfl
  exact { kept with
    nothingLeft := fun delivered => by
      have clash : body.terminalDelivered = true := delivered
      rw [running] at clash
      cases clash
    notLate := noTime
    ordered := by
      rw [sameNumbers]
      exact kept.ordered
    below := by
      rw [sameNumbers]
      exact kept.below
    untouched := fun fresh => by
      obtain ⟨pulls, sourced, none, going⟩ := kept.untouched fresh
      rw [handing] at none
      cases none
    measured := fun call found => by
      have some : body.bytesCall = some call := found
      rw [noCall] at some
      cases some
    waits := fun call found => by
      have some : body.bytesCall = some call := found
      rw [noCall] at some
      cases some }

theorem Sound.taken (sound : Sound body)
    (found : body.bytesCall = some call) (arrived : call.arrived = some (.chunk chunk))
    (consumed : body.consumed = true) {further : Option BytesCall}
    (measured : ∀ now, further = some now → now.arrived = none ∧
      now.total = now.chunks.flatten.length ∧ now.total ≤ now.maxBytes) :
    Sound { body.hand .bytes chunk.number with bytesCall := further } ∧
      WebBodyController.onTheWay { body.hand .bytes chunk.number with bytesCall := further } =
        [] := by
  have handing := (sound.measured call found).1
  have way : body.onTheWay = [chunk] := by
    unfold onTheWay arrival
    rw [handing, found]
    change arriving call.arrived = [chunk]
    rw [arrived]
    rfl
  have coming : chunk ∈ body.onTheWay := by
    rw [way]
    exact List.mem_singleton.mpr rfl
  have running : body.terminalDelivered = false := (sound.running coming).1
  have clear : WebBodyController.onTheWay
      { body.hand .bytes chunk.number with bytesCall := further } = [] := by
    change body.handing ++ arriving (further.bind BytesCall.arrived) = []
    rw [handing]
    cases found : further with
    | none => rfl
    | some now =>
      change arriving now.arrived = []
      rw [(measured now found).1]
      rfl
  have sameNumbers : WebBodyController.numbers
      { body.hand .bytes chunk.number with bytesCall := further } = body.numbers := by
    unfold numbers
    rw [clear, way]
    change (body.handed ++ [(Consumer.bytes, chunk.number)]).map Prod.snd ++ [] = _
    rw [List.map_append, List.append_nil]
    rfl
  refine ⟨{ sound with
    nothingLeft := fun _ => clear
    notLate := ?_
    ordered := ?_
    below := ?_
    untouched := ?_
    measured := fun now found => ⟨handing, (measured now found).2⟩ }, clear⟩
  · change (if body.terminalDelivered = true then _ else body.late) = []
    rw [if_neg (Bool.eq_false_iff.mp running)]
    exact sound.notLate
  · rw [sameNumbers]
    exact sound.ordered
  · rw [sameNumbers]
    exact sound.below
  · intro fresh
    have clash : body.consumed = false := fresh
    rw [consumed] at clash
    cases clash

section

variable (kept : Kept body)

include kept

section

variable (found : body.bytesCall = some call)

include found

theorem Kept.others
    (arrived : call.arrived = some answer) : ∀ pull ∈ body.pulls, pull.consumer = .caller := by
  intro pull listed
  cases who : pull.consumer with
  | caller => rfl
  | bytes =>
    obtain ⟨waiting, had, silent⟩ := kept.pullsWait pull listed who
    rw [found] at had
    rw [← Option.some.inj had, arrived] at silent
    cases silent

theorem Kept.collect
    (arrived : call.arrived = some (.chunk chunk)) (aborted throws : Bool) :
    Kept (body.collect call chunk aborted throws) := by
  obtain ⟨handing, total, within⟩ := kept.measured call found
  have coming : chunk ∈ body.onTheWay := by
    unfold onTheWay arrival
    rw [found]
    apply List.mem_append_right
    change chunk ∈ arriving call.arrived
    rw [arrived]
    exact List.mem_singleton.mpr rfl
  have going := (kept.running coming).2
  have consumed := kept.callConsumed call found
  have has : body.hasSource = true := by
    by_cases has : body.hasSource = true
    · exact has
    · have fresh := kept.sourceless (Bool.eq_false_iff.mpr has)
      rw [consumed] at fresh
      cases fresh
  have others := kept.others found arrived
  have waits := kept.waits call found
  rw [arrived] at waits
  unfold WebBodyController.collect
  by_cases large : call.maxBytes < call.total + chunk.bytes.length
  · have nothing : ∀ now, (none : Option BytesCall) = some now → now.arrived = none ∧
        now.total = now.chunks.flatten.length ∧ now.total ≤ now.maxBytes :=
      fun now had => by cases had
    have taken := kept.taken found arrived consumed nothing
    have rejecting : Kept { body.hand .bytes chunk.number with bytesCall := none } :=
      { taken.1 with
        onePull := kept.onePull
        waits := fun now had => by cases had
        callConsumed := fun now had => by cases had
        pullsWait := fun pull listed collects => by
          have caller := others pull listed
          rw [caller] at collects
          cases collects }
    simp only [if_pos large]
    apply rejecting.cancel
    exact fun _ _ => taken.2
  · have sizes : ∀ now, (some ⟨call.maxBytes, call.chunks ++ [chunk.bytes],
        call.total + chunk.bytes.length, none⟩ : Option BytesCall) = some now →
        now.arrived = none ∧ now.total = now.chunks.flatten.length ∧
          now.total ≤ now.maxBytes := by
      intro now same
      rw [← Option.some.inj same]
      refine ⟨rfl, ?_, Nat.le_of_not_lt large⟩
      change call.total + chunk.bytes.length = (call.chunks ++ [chunk.bytes]).flatten.length
      rw [List.flatten_append, List.length_append, total, List.flatten_singleton]
    obtain ⟨taken, clear⟩ := kept.taken found arrived consumed sizes
    have collected : body.sourced.flatten = (call.chunks ++ [chunk.bytes]).flatten := by
      rw [List.flatten_append, List.flatten_singleton]
      exact waits
    simp only [if_neg large]
    exact taken.nextBytes rfl rfl collected kept.onePull others clear has going throws
      (.inl consumed)

theorem Kept.endCall
    (arrived : call.arrived = some answer) (other : arriving (some answer) = []) :
    Kept { body with bytesCall := none } := by
  have others := kept.others found arrived
  have same : WebBodyController.onTheWay { body with bytesCall := none } = body.onTheWay := by
    unfold onTheWay arrival
    rw [found]
    change body.handing ++ [] = body.handing ++ arriving call.arrived
    rw [arrived, other]
  have sameNumbers : WebBodyController.numbers { body with bytesCall := none } = body.numbers := by
    unfold numbers
    rw [same]
  exact { kept with
    nothingLeft := fun delivered => by
      rw [same]
      exact kept.nothingLeft delivered
    ordered := by
      rw [sameNumbers]
      exact kept.ordered
    below := by
      rw [sameNumbers]
      exact kept.below
    measured := fun now had => by cases had
    callConsumed := fun now had => by cases had
    waits := fun now had => by cases had
    pullsWait := fun pull listed collects => by
      have caller := others pull listed
      rw [caller] at collects
      cases collects }

end

theorem Kept.resolve {maxBytes : ℕ} {joined : List UInt8}
    (noCall : body.bytesCall = none) (whole : joined = body.sourced.flatten)
    (ended : body.ended = true) (within : joined.length ≤ maxBytes) :
    Kept (body.resolve maxBytes joined) := by
  have same : body.resolve maxBytes joined =
      { body with resolved := body.resolved ++ [⟨maxBytes, joined⟩] } := by
    unfold WebBodyController.resolve
    rw [← noCall]
  rw [same]
  exact { kept with
    whole := forall_mem_concat kept.whole ⟨whole, ended, within⟩
    waits := fun call found => by
      have waits := kept.waits call found
      rw [noCall] at found
      cases found
    callConsumed := kept.callConsumed }

theorem Kept.resume (found : body.bytesCall = some call)
    (arrived : call.arrived = some answer) (aborted throws : Bool) :
    Kept (body.resume call aborted throws answer) := by
  cases answer with
  | chunk chunk => exact kept.collect found arrived aborted throws
  | done =>
    have waits := kept.waits call found
    rw [arrived] at waits
    obtain ⟨ended, collected⟩ := waits
    obtain ⟨_, total, within⟩ := kept.measured call found
    rw [total] at within
    have left := kept.endCall found arrived rfl
    exact left.resolve rfl collected.symm ended within
  | rejected => exact kept.endCall found arrived rfl

theorem Kept.bytes (maxBytes : ℕ) (throws : Bool) : Kept (body.bytes maxBytes throws) := by
  unfold WebBodyController.bytes
  by_cases used : (body.consumed || body.readerOwner.isSome) = true
  · rw [if_pos used]
    exact kept
  rw [if_neg used]
  have fresh : body.consumed = false := by
    rw [Bool.not_eq_true, Bool.or_eq_false_iff] at used
    exact used.1
  obtain ⟨_, sourced, handing, going⟩ := kept.untouched fresh
  obtain ⟨pulls, idle, noCall, clear⟩ := kept.clear_of_fresh fresh
  by_cases has : body.hasSource = true
  case neg =>
    have sourceless := Bool.eq_false_iff.mpr has
    rw [sourceless, if_pos (by decide)]
    have same := kept.finishDone_eq
    apply (kept.sourcelessEnd sourceless).resolve
    · rw [same]
      exact noCall
    · rw [same]
      change [] = body.sourced.flatten
      rw [sourced]
      rfl
    · rw [same]
    · exact Nat.zero_le _
  have reads : ¬ (!body.hasSource) = true := by
    rw [has]
    decide
  rw [if_neg reads]
  have still : WebBodyController.onTheWay
      { body with bytesCall := some ⟨maxBytes, [], 0, none⟩ } = [] := by
    change body.handing ++ [] = []
    rw [handing]
    rfl
  have sameNumbers : WebBodyController.numbers
      { body with bytesCall := some ⟨maxBytes, [], 0, none⟩ } = body.numbers := by
    unfold numbers
    rw [still, clear]
  have begun : Sound { body with bytesCall := some ⟨maxBytes, [], 0, none⟩ } :=
    { kept.toSound with
      nothingLeft := fun _ => still
      ordered := by
        rw [sameNumbers]
        exact kept.ordered
      below := by
        rw [sameNumbers]
        exact kept.below
      measured := fun call found => by
        rw [← Option.some.inj found]
        exact ⟨handing, rfl, Nat.zero_le _⟩ }
  have unlocked : body.readerOwner = none := by
    rw [Bool.not_eq_true, Bool.or_eq_false_iff, Option.isSome_eq_false_iff] at used
    exact Option.isNone_iff_eq_none.mp used.2
  apply begun.nextBytes rfl rfl _ kept.onePull _ still has (going has) throws
    (.inr ⟨unlocked, idle⟩)
  · change body.sourced.flatten = []
    rw [sourced]
    rfl
  · intro pull listed
    have none : pull ∈ body.pulls := listed
    rw [pulls] at none
    cases none

theorem Kept.relock (owner : Option ℕ) (owners : ℕ) :
    Kept { body with readerOwner := owner, owners := owners } :=
  { kept with
    waits := fun call found => by
      have waits := kept.waits call found
      cases arrived : call.arrived with
      | none =>
        rw [arrived] at waits
        exact waits
      | some answer =>
        rw [arrived] at waits
        cases answer <;> exact waits }

theorem Kept.step {event : BodyEvent} {next : WebBodyController}
    (orderly : body.isOrderly event = true) (stepped : body.step event = some next) :
    Kept next := by
  cases event with
  | acquireReader =>
    rw [← Option.some.inj stepped]
    unfold WebBodyController.acquireReader
    split
    · exact kept
    · exact kept.relock (some body.owners) (body.owners + 1)
  | releaseReader owner =>
    rw [← Option.some.inj stepped]
    unfold WebBodyController.releaseReader
    split
    · exact kept
    · split
      · exact kept
      · exact kept.relock none body.owners
  | next owner throws =>
    rw [← Option.some.inj stepped]
    apply kept.next
    intro thrown pullsFor
    change (!(throws && body.pullsFor owner) || body.mayFinish) = true at orderly
    rw [thrown, pullsFor] at orderly
    exact orderly
  | pulled index outcome aborted =>
    unfold WebBodyController.step at stepped
    by_cases quiet : body.arrival.isSome = true
    · simp only [if_pos quiet] at stepped
      cases stepped
    · simp only [if_neg quiet] at stepped
      obtain ⟨pull, found, same⟩ := Option.map_eq_some_iff.mp stepped
      change (body.pulls[index]?.all fun pull => if body.bringsChunk pull outcome aborted then
        !body.terminalDelivered else body.mayFinish) = true at orderly
      rw [found] at orderly
      have silent : body.arrival = none := by
        rw [Bool.not_eq_true, Option.isSome_eq_false_iff] at quiet
        exact Option.isNone_iff_eq_none.mp quiet
      rw [← same]
      exact kept.settle found silent orderly
  | received =>
    obtain ⟨chunk, first, same⟩ := Option.map_eq_some_iff.mp stepped
    obtain ⟨rest, handing⟩ := List.head?_eq_some_iff.mp first
    rw [← same, handing]
    exact kept.received handing
  | cancel owner aborted =>
    rw [← Option.some.inj stepped]
    apply kept.cancel
    intro mine going
    change (!body.assertReader owner true || body.done || body.mayFinish) = true at orderly
    rw [mine, going] at orderly
    exact kept.clear orderly
  | cancelFromStream aborted =>
    rw [← Option.some.inj stepped]
    unfold WebBodyController.cancelFromStream
    by_cases locked : body.readerOwner.isSome = true
    · rw [if_pos locked]
      exact kept
    · rw [if_neg locked]
      apply kept.cancel
      intro _ going
      change (body.readerOwner.isSome || body.done || body.mayFinish) = true at orderly
      rw [Bool.eq_false_iff.mpr locked, going] at orderly
      exact kept.clear orderly
  | bytes maxBytes throws =>
    rw [← Option.some.inj stepped]
    exact kept.bytes maxBytes throws
  | resumed aborted throws =>
    obtain ⟨call, found, answered⟩ := Option.bind_eq_some_iff.mp stepped
    obtain ⟨answer, arrived, same⟩ := Option.map_eq_some_iff.mp answered
    rw [← same]
    exact kept.resume found arrived aborted throws

end

theorem Kept.begins (hasSource : Bool) : Kept (start hasSource) where
  counted := rfl
  finished over_ := by simp [start] at over_
  endedDone ended := by cases ended
  nothingLeft _ := rfl
  notLate := rfl
  ordered := List.Pairwise.nil
  below number listed := by cases listed
  untouched _ := ⟨rfl, rfl, rfl, fun _ => rfl⟩
  sourceless _ := rfl
  measured call found := by cases found
  whole collected listed := by cases listed
  onePull := rfl
  waits call found := by cases found
  callConsumed call found := by cases found
  pullsWait pull listed := by cases listed

theorem Kept.consumedOnce (kept : Kept body) : ConsumedOnce body where
  onePull := by
    rw [kept.onePull]
    split <;> omega
  inOrder := by
    have ordered := kept.ordered
    unfold numbers at ordered
    exact (List.pairwise_append.mp ordered).1
  whole := kept.whole
  terminalOnce := by
    rw [kept.counted]
    split <;> omega
  terminalRan over_ := by
    have delivered : body.terminalDelivered = true := by
      apply kept.finished
      rcases over_ with ended | failed | cancelled
      · exact .inl ended
      · exact .inr (.inl failed)
      · exact .inr (.inr (.inl cancelled))
    rw [kept.counted, if_pos delivered]
  notLate := kept.notLate

/-- In runs of orderly events, a body is consumed once and whole. -/
theorem orderly_consumedOnce {hasSource : Bool} {events : List BodyEvent}
    {body : WebBodyController} (reached : (webBody hasSource).ReachesWhen
      (fun state event => state.isOrderly event = true) events body) : ConsumedOnce body := by
  have kept : Kept body := by
    apply reached.invariant
    · exact Kept.begins hasSource
    · intro state event next kept orderly stepped
      exact Kept.step kept orderly stepped
  exact kept.consumedOnce

/-- All of a body of two chunks is collected. -/
theorem orderly_consumedOnce_collects : ∃ body, ConsumedOnce body ∧
    body.resolved = [⟨10, [1, 2, 3]⟩] ∧ body.terminals = 1 := by
  have computed : ((webBody true).guarded fun state event => state.isOrderly event = true).run
      [.bytes 10 false, .pulled 0 (.value [1, 2]) false, .resumed false false,
        .pulled 0 (.value [3]) false, .resumed false false, .pulled 0 .ended false,
        .resumed false false] = some
      { start true with
        consumed := true
        done := true
        terminalDelivered := true
        sourced := [[1, 2], [3]]
        ended := true
        terminals := 1
        handed := [(.bytes, 0), (.bytes, 1)]
        resolved := [⟨10, [1, 2, 3]⟩] } := by
    decide +kernel
  exact ⟨_, orderly_consumedOnce (Machine.reaches_of_run computed).unguarded, rfl, rfl⟩

/-- A cancellation between a chunk and the call of `bytes` that waits for it truncates the body. -/
theorem not_consumedOnce : ¬ ∀ (hasSource : Bool) (events : List BodyEvent)
    (body : WebBodyController), (webBody hasSource).Reaches events body → ConsumedOnce body := by
  intro all
  have computed : (webBody true).run
      [.bytes 10 false, .pulled 0 (.value [1]) false, .cancelFromStream false,
        .resumed false false, .resumed false false] = some
      { start true with
        consumed := true
        cancellationEpoch := 1
        done := true
        terminalDelivered := true
        sourced := [[1]]
        cancelled := true
        terminals := 1
        handed := [(.bytes, 0)]
        late := [0]
        resolved := [⟨10, [1]⟩] } := by
    decide +kernel
  have once := all true _ _ (Machine.reaches_of_run computed)
  obtain ⟨_, ended, _⟩ := once.whole ⟨10, [1]⟩ (List.mem_singleton.mpr rfl)
  cases ended

end WebBodyController

end Holonomy.Network
