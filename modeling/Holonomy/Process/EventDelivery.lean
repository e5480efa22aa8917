import Holonomy.Process.EventChannel

/-!
# Every listener gets every event

What a listener that was subscribed once was handed is the beginning of the events up to its
cursor. While the channel is not paused, a listener whose cursor is not at the end is still owed
its events: by a microtask, or by a loop that is at work.
-/

namespace Holonomy.Process

open Foundation

variable {Value Trusted : Type}

/-- The loop will come to the listener. -/
def ChannelFrame.Covers (entry : ChannelListener) : ChannelFrame → Prop
  | .drain listener => listener = entry.listener
  | .drainAll place => place ≤ entry.place
  | _ => False

namespace ProcessEventChannelV1

variable {channel next : ProcessEventChannelV1 Value Trusted} {maximum : ℕ}
  {trust : EmittedEvent Value → Option Trusted}

def received (channel : ProcessEventChannelV1 Value Trusted) (listener : ℕ) : List Trusted :=
  (channel.delivered.filter fun handed => handed.1 = listener).map Prod.snd

def accepted (channel : ProcessEventChannelV1 Value Trusted) : List Trusted :=
  channel.events.map RetainedEvent.trusted

def errors (channel : ProcessEventChannelV1 Value Trusted) : ℕ :=
  channel.events.countP fun event => event.value.event = .error

structure Counted (channel : ProcessEventChannelV1 Value Trusted) (maximum : ℕ) : Prop where
  limit : channel.maximum = maximum
  bytes : (channel.events.map RetainedEvent.bytes).sum ≤ channel.size
  size : channel.size ≤ maximum
  errors : channel.errors = if channel.errorEmitted then 1 else 0
  room : channel.events.length ≤
    4094 + (if channel.errorEmitted then 1 else 0) + if channel.closed then 1 else 0
  open' : channel.closed = false → ∀ event ∈ channel.events, event.value.event ≠ .close
  ended : channel.closed = true → ∃ event ∈ channel.events, event.value.event = .close
  last : ∀ before event after, channel.events = before ++ event :: after →
    event.value.event = .close → after = []

structure Placed (channel : ProcessEventChannelV1 Value Trusted) : Prop where
  order : (channel.listeners.map ChannelListener.place).Pairwise (· < ·)
  below : ∀ entry ∈ channel.listeners, entry.place < channel.places
  keys : (channel.listeners.map ChannelListener.listener).Nodup
  known : ∀ entry ∈ channel.listeners, entry.listener ∈ channel.subscribed
  unknown : ∀ listener, listener ∉ channel.subscribed → channel.received listener = []
  inside : ∀ entry ∈ channel.listeners, entry.cursor ≤ channel.events.length
  handed : ∀ entry ∈ channel.listeners, channel.subscribed.count entry.listener = 1 →
    channel.received entry.listener = channel.accepted.take entry.cursor
  beginning : ∀ listener, channel.subscribed.count listener = 1 →
    channel.received listener <+: channel.accepted

def Owed (channel : ProcessEventChannelV1 Value Trusted) : Prop :=
  channel.paused = false → ∀ entry ∈ channel.listeners,
    entry.cursor = channel.events.length ∨ entry.listener ∈ channel.microtasks ∨
      ∃ frame ∈ channel.stack, frame.Covers entry

/-- What every call keeps. -/
structure Kept (channel : ProcessEventChannelV1 Value Trusted) (maximum : ℕ) : Prop where
  counted : channel.Counted maximum
  placed : channel.Placed
  owed : channel.Owed

variable {value : EmittedEvent Value} {bytes listener place : ℕ} {rest : List ChannelFrame}
  {entry : ChannelListener}

theorem Counted.of_same (counted : channel.Counted maximum) (events : next.events = channel.events)
    (size : next.size = channel.size) (same : next.maximum = channel.maximum)
    (errorEmitted : next.errorEmitted = channel.errorEmitted)
    (closed : next.closed = channel.closed) : next.Counted maximum := by
  cases channel
  cases next
  cases events
  cases size
  cases same
  cases errorEmitted
  cases closed
  exact ⟨counted.limit, counted.bytes, counted.size, counted.errors, counted.room, counted.open',
    counted.ended, counted.last⟩

theorem Placed.of_same (placed : channel.Placed) (listeners : next.listeners = channel.listeners)
    (places : next.places = channel.places) (subscribed : next.subscribed = channel.subscribed)
    (delivered : next.delivered = channel.delivered)
    (more : ∃ later, next.events = channel.events ++ later) : next.Placed := by
  obtain ⟨later, events⟩ := more
  have longer : channel.events.length ≤ next.events.length := by
    rw [events, List.length_append]
    exact Nat.le_add_right _ _
  have taken : next.accepted = channel.accepted ++ later.map RetainedEvent.trusted := by
    unfold accepted
    rw [events, List.map_append]
  have length : channel.accepted.length = channel.events.length := List.length_map ..
  refine ⟨?_, ?_, ?_, ?_, ?_, ?_, ?_, ?_⟩
  · rw [listeners]
    exact placed.order
  · rw [listeners, places]
    exact placed.below
  · rw [listeners]
    exact placed.keys
  · rw [listeners, subscribed]
    exact placed.known
  · unfold received
    rw [subscribed, delivered]
    exact placed.unknown
  · rw [listeners]
    exact fun entry entryIn => (placed.inside entry entryIn).trans longer
  · rw [listeners, subscribed]
    intro entry entryIn once
    have same := placed.handed entry entryIn once
    have inside := placed.inside entry entryIn
    rw [taken, List.take_append_of_le_length (by omega), ← same]
    unfold received
    rw [delivered]
  · rw [subscribed]
    intro listener once
    have same := placed.beginning listener once
    rw [taken]
    unfold received at same ⊢
    rw [delivered]
    exact same.trans (List.prefix_append _ _)

theorem of_accepts (accepts : channel.counts.accepts value.event bytes = true) :
    channel.closed = false ∧ channel.size + bytes ≤ channel.maximum ∧
      (value.event = .error → channel.errorEmitted = false) ∧
      (value.event = .plain → channel.events.length < 4094) := by
  unfold ProcessEventChannel.accepts counts maxRetainedEvents terminalSlots at accepts
  simp only [Bool.and_eq_true, Bool.not_eq_true', decide_eq_true_eq] at accepts
  obtain ⟨⟨notClosed, kind⟩, fits⟩ := accepts
  refine ⟨notClosed, fits, ?_, ?_⟩
  · intro error
    rw [error] at kind
    simp only [Bool.and_eq_true, Bool.not_eq_true'] at kind
    exact kind.1
  · intro plain
    rw [plain] at kind
    exact of_decide_eq_true kind

theorem Counted.retain (counted : channel.Counted maximum)
    (accepts : channel.counts.accepts value.event bytes = true) (trusted : Trusted) :
    (channel.retain value bytes trusted).Counted maximum := by
  obtain ⟨notClosed, fits, error, plain⟩ := of_accepts accepts
  rw [counted.limit] at fits
  have room := counted.room
  have errors := counted.errors
  rw [notClosed] at room
  refine ⟨counted.limit, ?_, fits, ?_, ?_, ?_, ?_, ?_⟩
  · change ((channel.events ++ [_]).map RetainedEvent.bytes).sum ≤ channel.size + bytes
    rw [List.map_append, List.sum_append]
    exact Nat.add_le_add_right counted.bytes _
  · change (channel.events ++ [_]).countP _ = if (channel.errorEmitted || _) then 1 else 0
    unfold ProcessEventChannelV1.errors at errors
    rw [List.countP_append, errors, List.countP_singleton]
    by_cases isError : value.event = .error
    · simp [isError, error isError]
    · simp [isError]
  · change (channel.events ++ [_]).length ≤ 4094 +
      (if (channel.errorEmitted || decide (value.event = .error)) = true then 1 else 0) +
        if decide (value.event = .close) = true then 1 else 0
    rw [List.length_append, List.length_singleton]
    cases kind : value.event with
    | error =>
      rw [error kind] at room ⊢
      simpa using Nat.lt_succ_of_le room
    | close => simpa using room
    | plain =>
      have small := plain kind
      simp only [reduceCtorEq, decide_false, Bool.or_false, Bool.false_eq_true, if_false]
      split <;> omega
  · intro stillOpen
    refine forall_mem_concat (counted.open' notClosed) ?_
    exact of_decide_eq_false stillOpen
  · intro closed
    exact ⟨_, List.mem_append_right _ (List.mem_singleton.mpr rfl), of_decide_eq_true closed⟩
  · intro before event after split' isClose
    have whole : channel.events ++ [⟨value, bytes, trusted⟩] = before ++ event :: after := split'
    rcases List.eq_nil_or_concat after with ended | ⟨front, final, same⟩
    · exact ended
    · subst same
      rw [List.concat_eq_append, ← List.cons_append, ← List.append_assoc] at whole
      have early := (List.append_inj' whole rfl).1
      have old : event ∈ channel.events := by
        rw [early]
        exact List.mem_append_right _ List.mem_cons_self
      exact absurd isClose (counted.open' notClosed event old)

theorem owed_drainAll (channel : ProcessEventChannelV1 Value Trusted) : channel.drainAll.Owed := by
  unfold drainAll
  by_cases paused : channel.paused = true
  · rw [if_pos paused]
    intro notPaused
    rw [paused] at notPaused
    cases notPaused
  · rw [if_neg paused]
    intro _ entry _
    exact .inr (.inr ⟨.drainAll 0, List.mem_cons_self, Nat.zero_le _⟩)

theorem Kept.drainAll (counted : channel.Counted maximum) (placed : channel.Placed) :
    channel.drainAll.Kept maximum := by
  have owed := owed_drainAll channel
  unfold ProcessEventChannelV1.drainAll at owed ⊢
  split_ifs at owed ⊢ with paused
  · exact ⟨counted, placed, owed⟩
  · exact ⟨counted.of_same rfl rfl rfl rfl rfl,
      placed.of_same rfl rfl rfl rfl ⟨[], (List.append_nil _).symm⟩, owed⟩

section

variable (kept : channel.Kept maximum)

include kept

theorem Kept.emit (value : EmittedEvent Value) (bytes : ℕ) :
    (channel.emit trust value bytes).Kept maximum := by
  unfold ProcessEventChannelV1.emit
  split_ifs with accepts
  · cases trust value with
    | none =>
      have fits := (of_accepts accepts).2.1
      have before := kept.counted
      rw [before.limit] at fits
      refine ⟨⟨before.limit, before.bytes.trans (Nat.le_add_right _ _), fits, before.errors,
        before.room, before.open', before.ended, before.last⟩, ?_, kept.owed⟩
      exact kept.placed.of_same rfl rfl rfl rfl ⟨[], (List.append_nil _).symm⟩
    | some trusted =>
      exact Kept.drainAll (kept.counted.retain accepts trusted)
        (kept.placed.of_same rfl rfl rfl rfl ⟨_, rfl⟩)
  · exact kept

theorem Kept.restack {stack : List ChannelFrame}
    (covers : channel.paused = false → ∀ entry ∈ channel.listeners, ∀ frame ∈ channel.stack,
      frame.Covers entry → entry.cursor = channel.events.length ∨
        ∃ frame ∈ stack, frame.Covers entry) :
    { channel with stack := stack }.Kept maximum := by
  refine ⟨kept.counted.of_same rfl rfl rfl rfl rfl,
    kept.placed.of_same rfl rfl rfl rfl ⟨[], (List.append_nil _).symm⟩, ?_⟩
  intro notPaused entry entryIn
  rcases kept.owed notPaused entry entryIn with all | later | ⟨frame, frameIn, covered⟩
  · exact .inl all
  · exact .inr (.inl later)
  · rcases covers notPaused entry entryIn frame frameIn covered with all | still
    · exact .inl all
    · exact .inr (.inr still)

theorem Kept.leave {top : ChannelFrame}
    (stack : channel.stack = top :: rest) (covers : ∀ entry, ¬ top.Covers entry) :
    { channel with stack := rest }.Kept maximum := by
  apply kept.restack
  intro _ entry _ frame frameIn covered
  rw [stack] at frameIn
  rcases List.mem_cons.mp frameIn with first | later
  · exact absurd (first ▸ covered) (covers entry)
  · exact .inr ⟨frame, later, covered⟩

theorem Kept.fail (error : Value) : (channel.fail trust error).Kept maximum := by
  unfold ProcessEventChannelV1.fail
  split_ifs
  · exact kept
  · exact kept
  · apply Kept.emit
    exact kept.restack fun _ _ _ frame frameIn covered =>
      .inr ⟨frame, List.mem_cons_of_mem _ frameIn, covered⟩

theorem Kept.resume : channel.resume.Kept maximum := by
  unfold ProcessEventChannelV1.resume
  split_ifs
  · exact Kept.drainAll (kept.counted.of_same rfl rfl rfl rfl rfl)
      (kept.placed.of_same rfl rfl rfl rfl ⟨[], (List.append_nil _).symm⟩)
  · exact kept

end

section Listeners

variable {entries : List ChannelListener} {listener cursor : ℕ}

theorem listeners_setCursor : (entries.map (setCursor listener cursor)).map
    ChannelListener.listener = entries.map ChannelListener.listener := by
  rw [List.map_map]
  apply List.map_congr_left
  intro entry _
  rw [Function.comp_apply, setCursor]
  split <;> rfl

theorem places_setCursor : (entries.map (setCursor listener cursor)).map
    ChannelListener.place = entries.map ChannelListener.place := by
  rw [List.map_map]
  apply List.map_congr_left
  intro entry _
  rw [Function.comp_apply, setCursor]
  split <;> rfl

theorem mem_setCursor {entry : ChannelListener}
    (entryIn : entry ∈ entries.map (setCursor listener cursor)) :
    (∃ before ∈ entries, before.listener = listener ∧ entry = { before with cursor := cursor }) ∨
      (entry ∈ entries ∧ entry.listener ≠ listener) := by
  obtain ⟨before, beforeIn, same⟩ := List.mem_map.mp entryIn
  unfold setCursor at same
  split_ifs at same with own
  · exact .inl ⟨before, beforeIn, own, same.symm⟩
  · subst same
    exact .inr ⟨beforeIn, own⟩

end Listeners

theorem received_deliver (entry : ChannelListener) (event : RetainedEvent Value Trusted)
    (listener : ℕ) : (channel.deliver entry event).received listener =
      channel.received listener ++ if entry.listener = listener then [event.trusted] else [] := by
  change ((channel.delivered ++ [(entry.listener, event.trusted)]).filter _).map Prod.snd = _
  rw [List.filter_append, List.map_append]
  by_cases own : entry.listener = listener
  · rw [if_pos own, List.filter_cons_of_pos (by simpa using own)]
    rfl
  · rw [if_neg own, List.filter_cons_of_neg (by simpa using own)]
    rfl

theorem Placed.deliver (placed : channel.Placed) {event : RetainedEvent Value Trusted}
    (entryIn : entry ∈ channel.listeners) (here : channel.events[entry.cursor]? = some event) :
    (channel.deliver entry event).Placed := by
  obtain ⟨inside, found⟩ := List.getElem?_eq_some_iff.mp here
  have once := placed.keys
  have further : channel.subscribed.count entry.listener = 1 →
      (channel.deliver entry event).received entry.listener =
        channel.accepted.take (entry.cursor + 1) := by
    intro single
    have there : channel.accepted[entry.cursor]? = some event.trusted := by
      unfold accepted
      rw [List.getElem?_map, here, Option.map_some]
    rw [received_deliver, if_pos rfl, placed.handed entry entryIn single,
      List.take_add_one, there, Option.toList_some]
  refine ⟨?_, ?_, ?_, ?_, ?_, ?_, ?_, ?_⟩
  · change ((channel.listeners.map _).map _).Pairwise _
    rw [places_setCursor]
    exact placed.order
  · intro other otherIn
    rcases mem_setCursor otherIn with ⟨before, beforeIn, -, same⟩ | ⟨old, -⟩
    · rw [same]
      exact placed.below before beforeIn
    · exact placed.below other old
  · change ((channel.listeners.map _).map _).Nodup
    rw [listeners_setCursor]
    exact once
  · intro other otherIn
    rcases mem_setCursor otherIn with ⟨before, beforeIn, -, same⟩ | ⟨old, -⟩
    · rw [same]
      exact placed.known before beforeIn
    · exact placed.known other old
  · intro listener never
    have differs : entry.listener ≠ listener := by
      intro same
      exact never (same ▸ placed.known entry entryIn)
    rw [received_deliver, if_neg differs, List.append_nil]
    exact placed.unknown listener never
  · intro other otherIn
    rcases mem_setCursor otherIn with ⟨before, -, -, same⟩ | ⟨old, -⟩
    · rw [same]
      exact inside
    · exact placed.inside other old
  · intro other otherIn single
    rcases mem_setCursor otherIn with ⟨before, beforeIn, own, same⟩ | ⟨old, differs⟩
    · subst same
      change (channel.deliver entry event).received before.listener = _
      change channel.subscribed.count before.listener = 1 at single
      rw [own] at single ⊢
      exact further single
    · rw [received_deliver, if_neg differs.symm, List.append_nil]
      exact placed.handed other old single
  · intro listener single
    by_cases own : entry.listener = listener
    · subst own
      rw [further single]
      exact List.take_prefix _ _
    · rw [received_deliver, if_neg own, List.append_nil]
      exact placed.beginning listener single

theorem mem_enter {entries : List ChannelListener}
    (entryIn : entry ∈ enter entries listener place) :
    (entry.listener = listener ∧ entry.cursor = 0) ∨
      (entry ∈ entries ∧ entry.listener ≠ listener) := by
  unfold enter at entryIn
  split_ifs at entryIn with known
  · rcases mem_setCursor entryIn with ⟨before, -, own, same⟩ | other
    · rw [same]
      exact .inl ⟨own, rfl⟩
    · exact .inr other
  · rcases List.mem_append.mp entryIn with old | new
    · exact .inr ⟨old, fun own => known (List.mem_map.mpr ⟨entry, old, own⟩)⟩
    · rw [List.mem_singleton.mp new]
      exact .inl ⟨rfl, rfl⟩

/-- A new subscription stands at the front of the events. -/
theorem Placed.subscribe (placed : channel.Placed) (listener : ℕ) :
    (channel.subscribe listener).Placed := by
  have count (other : ℕ) : (channel.subscribe listener).subscribed.count other =
      channel.subscribed.count other + if listener = other then 1 else 0 := by
    change (channel.subscribed ++ [listener]).count other = _
    rw [List.count_append, List.count_singleton]
    simp only [beq_iff_eq]
  have absent (other : ℕ) (single : (channel.subscribe listener).subscribed.count other = 1)
      (own : listener = other) : channel.received other = [] := by
    rw [count, if_pos own] at single
    exact placed.unknown other (List.count_eq_zero.mp (by omega))
  have earlier (other : ℕ) (single : (channel.subscribe listener).subscribed.count other = 1)
      (own : listener ≠ other) : channel.subscribed.count other = 1 := by
    rw [count, if_neg own] at single
    exact single
  refine ⟨?_, ?_, ?_, ?_, ?_, ?_, ?_, ?_⟩
  · change ((enter _ _ _).map ChannelListener.place).Pairwise _
    unfold enter
    split_ifs
    · rw [places_setCursor]
      exact placed.order
    · rw [List.map_append]
      refine pairwise_concat placed.order fun place placeIn => ?_
      obtain ⟨entry, entryIn, same⟩ := List.mem_map.mp placeIn
      rw [← same]
      exact placed.below entry entryIn
  · intro entry entryIn
    change entry ∈ enter _ _ _ at entryIn
    change entry.place < channel.places + 1
    unfold enter at entryIn
    split_ifs at entryIn
    · have among : entry.place ∈ _ := List.mem_map_of_mem entryIn
      rw [places_setCursor] at among
      obtain ⟨before, beforeIn, same⟩ := List.mem_map.mp among
      have below := placed.below before beforeIn
      omega
    · exact forall_mem_concat (fun entry old => Nat.lt_succ_of_lt (placed.below entry old))
        (Nat.lt_succ_self _) entry entryIn
  · change ((enter _ _ _).map ChannelListener.listener).Nodup
    unfold enter
    split_ifs with known
    · rw [listeners_setCursor]
      exact placed.keys
    · rw [List.map_append]
      exact nodup_concat placed.keys known
  · intro entry entryIn
    change entry.listener ∈ channel.subscribed ++ [listener]
    rcases mem_enter entryIn with ⟨own, -⟩ | ⟨old, -⟩
    · exact List.mem_append_right _ (List.mem_singleton.mpr own)
    · exact List.mem_append_left _ (placed.known entry old)
  · intro other never
    exact placed.unknown other fun found => never (List.mem_append_left _ found)
  · intro entry entryIn
    rcases mem_enter entryIn with ⟨-, start⟩ | ⟨old, -⟩
    · rw [start]
      exact Nat.zero_le _
    · exact placed.inside entry old
  · intro entry entryIn single
    rcases mem_enter entryIn with ⟨own, start⟩ | ⟨old, differs⟩
    · rw [start, List.take_zero]
      exact absent entry.listener single own.symm
    · exact placed.handed entry old (earlier entry.listener single differs.symm)
  · intro other single
    by_cases own : listener = other
    · have none := absent other single own
      change channel.received other <+: channel.accepted
      rw [none]
      exact List.nil_prefix
    · exact placed.beginning other (earlier other single own)

theorem Kept.subscribe (kept : channel.Kept maximum) (listener : ℕ) :
    (channel.subscribe listener).Kept maximum := by
  refine ⟨kept.counted.of_same rfl rfl rfl rfl rfl, kept.placed.subscribe listener, ?_⟩
  intro notPaused entry entryIn
  rcases mem_enter entryIn with ⟨own, -⟩ | ⟨old, -⟩
  · exact .inr (.inl (List.mem_append_right _ (List.mem_singleton.mpr own)))
  · rcases kept.owed notPaused entry old with all | later | covered
    · exact .inl all
    · exact .inr (.inl (List.mem_append_left _ later))
    · exact .inr (.inr covered)

theorem Kept.unsubscribe (kept : channel.Kept maximum) (listener : ℕ) :
    (channel.unsubscribe listener).Kept maximum := by
  have fewer : (channel.unsubscribe listener).listeners.Sublist channel.listeners :=
    List.filter_sublist
  have placed := kept.placed
  refine ⟨kept.counted.of_same rfl rfl rfl rfl rfl, ⟨?_, ?_, ?_, ?_, placed.unknown, ?_, ?_,
    placed.beginning⟩, ?_⟩
  · exact placed.order.sublist (fewer.map _)
  · exact fun entry entryIn => placed.below entry (fewer.mem entryIn)
  · exact placed.keys.sublist (fewer.map _)
  · exact fun entry entryIn => placed.known entry (fewer.mem entryIn)
  · exact fun entry entryIn => placed.inside entry (fewer.mem entryIn)
  · exact fun entry entryIn => placed.handed entry (fewer.mem entryIn)
  · exact fun notPaused entry entryIn => kept.owed notPaused entry (fewer.mem entryIn)

theorem Placed.same (placed : channel.Placed) {left right : ChannelListener}
    (leftIn : left ∈ channel.listeners) (rightIn : right ∈ channel.listeners)
    (listener : left.listener = right.listener) : left = right :=
  List.inj_on_of_nodup_map placed.keys leftIn rightIn listener

section

variable (kept : channel.Kept maximum)

include kept

theorem Kept.drain (top : channel.stack = .drain listener :: rest)
    (proceeds : channel.proceed trust = some next) : next.Kept maximum := by
  unfold proceed at proceeds
  rw [top] at proceeds
  simp only at proceeds
  cases handing : channel.next? listener with
  | none =>
    rw [handing] at proceeds
    cases proceeds
    apply kept.restack
    intro notPaused entry entryIn frame frameIn covered
    rw [top] at frameIn
    rcases List.mem_cons.mp frameIn with first | later
    · subst first
      have own : listener = entry.listener := covered
      left
      unfold next? at handing
      rw [notPaused, if_neg Bool.false_ne_true, Option.bind_eq_none_iff] at handing
      cases found : channel.listeners.find? (fun entry => entry.listener = listener) with
      | none =>
        have other := List.find?_eq_none.mp found entry entryIn
        exact absurd own.symm (by simpa using other)
      | some other =>
        have matches' := List.find?_some found
        have same := kept.placed.same entryIn (List.mem_of_find?_eq_some found)
          (own.symm.trans (of_decide_eq_true matches').symm)
        subst same
        have passed := handing entry found
        rw [Option.map_eq_none_iff, List.getElem?_eq_none_iff] at passed
        exact le_antisymm (kept.placed.inside entry entryIn) passed
    · exact .inr ⟨frame, later, covered⟩
  | some pair =>
    obtain ⟨entry, event⟩ := pair
    rw [handing] at proceeds
    cases proceeds
    unfold next? at handing
    split_ifs at handing with paused
    obtain ⟨found, search, there⟩ := Option.bind_eq_some_iff.mp handing
    obtain ⟨event', here, same⟩ := Option.map_eq_some_iff.mp there
    cases same
    have entryIn := List.mem_of_find?_eq_some search
    have own := List.find?_some search
    have own : entry.listener = listener := of_decide_eq_true own
    refine ⟨kept.counted.of_same rfl rfl rfl rfl rfl, kept.placed.deliver entryIn here, ?_⟩
    intro notPaused other otherIn
    have stacked : ∀ frame ∈ channel.stack, frame ∈ (channel.deliver entry event).stack :=
      fun frame frameIn => List.mem_cons_of_mem _ frameIn
    rcases mem_setCursor otherIn with ⟨before, -, same, changed⟩ | ⟨old, -⟩
    · have loop : ChannelFrame.drain listener ∈ channel.stack := top ▸ List.mem_cons_self
      refine .inr (.inr ⟨.drain listener, stacked _ loop, ?_⟩)
      rw [changed]
      exact own.symm.trans same.symm
    · rcases kept.owed notPaused other old with all | later | ⟨frame, frameIn, covered⟩
      · exact .inl all
      · exact .inr (.inl later)
      · exact .inr (.inr ⟨frame, stacked frame frameIn, covered⟩)

/-- The loop over all listeners goes on. -/
theorem Kept.walk (top : channel.stack = .drainAll place :: rest)
    (proceeds : channel.proceed trust = some next) : next.Kept maximum := by
  unfold proceed at proceeds
  rw [top] at proceeds
  simp only at proceeds
  cases search : channel.listeners.find? (fun entry => place ≤ entry.place) with
  | none =>
    rw [search] at proceeds
    cases proceeds
    apply kept.restack
    intro _ entry entryIn frame frameIn covered
    rw [top] at frameIn
    rcases List.mem_cons.mp frameIn with first | later
    · subst first
      have behind : place ≤ entry.place := covered
      have other := List.find?_eq_none.mp search entry entryIn
      exact absurd behind (by simpa using other)
    · exact .inr ⟨frame, later, covered⟩
  | some found =>
    rw [search] at proceeds
    cases proceeds
    apply kept.restack
    intro _ entry entryIn frame frameIn covered
    rw [top] at frameIn
    right
    rcases List.mem_cons.mp frameIn with first | later
    · subst first
      have behind : place ≤ entry.place := covered
      obtain ⟨-, front, back, whole, passed⟩ := List.find?_eq_some_iff_append.mp search
      have order := kept.placed.order
      rw [whole] at entryIn order
      rcases List.mem_append.mp entryIn with early | late
      · have not := passed entry early
        exact absurd behind (by simpa using not)
      · rcases List.mem_cons.mp late with same | after
        · subst same
          exact ⟨.drain entry.listener, List.mem_cons_self, rfl⟩
        · rw [List.map_append, List.map_cons] at order
          have further := (List.pairwise_cons.mp (List.pairwise_append.mp order).2.1).1
            entry.place (List.mem_map_of_mem after)
          exact ⟨.drainAll (found.place + 1), by simp, further⟩
    · exact ⟨frame, by simp [later], covered⟩

/-- Each call keeps the channel. -/
theorem Kept.step {call : ChannelCall Value}
    (stepped : call.apply trust channel = some next) : next.Kept maximum := by
  cases call with
  | emit value bytes =>
    obtain ⟨-, same⟩ := Option.ite_none_right_eq_some.mp stepped
    cases same
    exact kept.emit value bytes
  | fail error =>
    obtain ⟨-, same⟩ := Option.ite_none_right_eq_some.mp stepped
    cases same
    exact kept.fail error
  | pause =>
    obtain ⟨-, same⟩ := Option.ite_none_right_eq_some.mp stepped
    cases same
    exact ⟨kept.counted.of_same rfl rfl rfl rfl rfl,
      kept.placed.of_same rfl rfl rfl rfl ⟨[], (List.append_nil _).symm⟩, (by rintro ⟨⟩)⟩
  | resume =>
    obtain ⟨-, same⟩ := Option.ite_none_right_eq_some.mp stepped
    cases same
    exact kept.resume
  | subscribe listener =>
    obtain ⟨-, same⟩ := Option.ite_none_right_eq_some.mp stepped
    cases same
    exact kept.subscribe listener
  | unsubscribe listener =>
    obtain ⟨-, same⟩ := Option.ite_none_right_eq_some.mp stepped
    cases same
    exact kept.unsubscribe listener
  | returns =>
    cases stack : channel.stack with
    | nil =>
      simp only [ChannelCall.apply, stack] at stepped
      cases stepped
    | cons top rest =>
      cases top with
      | listening =>
        simp only [ChannelCall.apply, stack] at stepped
        cases stepped
        exact kept.leave stack fun _ covered => covered
      | drain | drainAll | failing =>
        simp only [ChannelCall.apply, stack] at stepped
        cases stepped
  | microtask =>
    cases stack : channel.stack with
    | cons =>
      simp only [ChannelCall.apply, stack] at stepped
      cases stepped
    | nil =>
      cases queue : channel.microtasks with
      | nil =>
        simp only [ChannelCall.apply, stack, queue] at stepped
        cases stepped
      | cons listener rest =>
        simp only [ChannelCall.apply, stack, queue] at stepped
        cases stepped
        refine ⟨kept.counted.of_same rfl rfl rfl rfl rfl,
          kept.placed.of_same rfl rfl rfl rfl ⟨[], (List.append_nil _).symm⟩, ?_⟩
        intro notPaused entry entryIn
        rcases kept.owed notPaused entry entryIn with all | later | ⟨frame, frameIn, -⟩
        · exact .inl all
        · rw [queue] at later
          rcases List.mem_cons.mp later with own | still
          · exact .inr (.inr ⟨.drain listener, List.mem_singleton.mpr rfl, own.symm⟩)
          · exact .inr (.inl still)
        · rw [stack] at frameIn
          cases frameIn
  | proceed =>
    have proceeds : channel.proceed trust = some next := stepped
    cases stack : channel.stack with
    | nil =>
      unfold proceed at proceeds
      rw [stack] at proceeds
      cases proceeds
    | cons frame rest =>
      cases frame with
      | drain listener => exact kept.drain stack proceeds
      | drainAll place => exact kept.walk stack proceeds
      | listening =>
        unfold proceed at proceeds
        rw [stack] at proceeds
        cases proceeds
      | failing =>
        unfold proceed at proceeds
        rw [stack] at proceeds
        cases proceeds
        exact (kept.leave stack fun _ covered => covered).emit _ _

end

theorem Kept.new (maximum : ℕ) :
    (new maximum : ProcessEventChannelV1 Value Trusted).Kept maximum := by
  refine ⟨⟨rfl, le_rfl, Nat.zero_le _, rfl, Nat.zero_le _, fun _ _ => ?_, (by rintro ⟨⟩),
    fun before event after => ?_⟩, ⟨.nil, fun _ => ?_, .nil, fun _ => ?_, fun _ _ => rfl,
      fun _ => ?_, fun _ => ?_, fun _ once => ?_⟩, fun _ _ => ?_⟩
  · exact fun none => absurd none List.not_mem_nil
  · intro whole
    have impossible := congrArg List.length whole
    rw [List.length_append, List.length_cons] at impossible
    simp [ProcessEventChannelV1.new] at impossible
  all_goals first | exact List.nil_prefix | exact fun none => absurd none List.not_mem_nil

/-- In every run each listener that was subscribed once was handed a beginning of the events that
the channel took, and all of them once nothing is at work or waiting and the channel is not paused.
The channel takes at most one error, nothing behind a close, and no more bytes than its maximum; and
it takes the first close. -/
theorem events_delivered {calls : List (ChannelCall Value)}
    (reached : (eventChannel trust maximum).Reaches calls channel) :
    (∀ listener, channel.subscribed.count listener = 1 →
      channel.received listener <+: channel.accepted) ∧
    (channel.stack = [] → channel.microtasks = [] → channel.paused = false →
      ∀ entry ∈ channel.listeners, channel.subscribed.count entry.listener = 1 →
        channel.received entry.listener = channel.accepted) ∧
    channel.errors ≤ 1 ∧
    (∀ before event after, channel.events = before ++ event :: after →
      event.value.event = .close → after = []) ∧
    (channel.events.map RetainedEvent.bytes).sum ≤ maximum ∧
    ∀ value trusted, value.event = .close → trust value = some trusted →
      (∀ event ∈ channel.events, event.value.event ≠ .close) →
      (channel.emit trust value 0).events = channel.events ++ [⟨value, 0, trusted⟩] := by
  have begins : (eventChannel trust maximum).start.Kept maximum := Kept.new maximum
  have kept := reached.invariant begins fun _ _ _ (before : Kept _ maximum) stepped =>
    before.step stepped
  have counted := kept.counted
  refine ⟨kept.placed.beginning, ?_, ?_, counted.last, counted.bytes.trans counted.size, ?_⟩
  · intro idle waited notPaused entry entryIn once
    have whole : entry.cursor = channel.accepted.length := by
      have length : channel.accepted.length = channel.events.length := List.length_map ..
      rw [length]
      rcases kept.owed notPaused entry entryIn with all | later | ⟨frame, frameIn, -⟩
      · exact all
      · rw [waited] at later
        cases later
      · rw [idle] at frameIn
        cases frameIn
    rw [kept.placed.handed entry entryIn once, whole, List.take_length]
  · rw [counted.errors]
    split <;> decide
  · intro value trusted isClose given noClose
    have notClosed : channel.closed = false := by
      by_contra closed
      obtain ⟨event, eventIn, close⟩ := counted.ended (Bool.not_eq_false _ ▸ closed)
      exact noClose event eventIn close
    have room := counted.room
    have accepts : channel.counts.accepts value.event 0 = true := by
      have short : channel.events.length < maxRetainedEvents := by
        rw [notClosed] at room
        unfold maxRetainedEvents
        split at room <;> simp only [Bool.false_eq_true, if_false] at room <;> omega
      have fits : channel.size + 0 ≤ channel.maximum := by
        rw [counted.limit]
        exact counted.size
      unfold ProcessEventChannel.accepts counts
      simp only [isClose, notClosed, Bool.not_false, Bool.true_and, Bool.and_eq_true,
        decide_eq_true_eq]
      exact ⟨short, fits⟩
    unfold ProcessEventChannelV1.emit
    rw [if_pos accepts, given]
    simp only
    unfold ProcessEventChannelV1.drainAll
    split <;> rfl

/-- A listener that emits the close while it is handed the first event is handed both. -/
theorem events_delivered_inside :
    ∃ channel : ProcessEventChannelV1 ℕ (EmittedEvent ℕ),
      (eventChannel some 8).Reaches [.subscribe 0, .emit ⟨.plain, [7]⟩ 3, .proceed, .proceed,
        .emit ⟨.close, []⟩ 0, .proceed, .proceed, .returns, .proceed, .proceed, .returns, .proceed,
        .proceed, .microtask, .proceed] channel ∧ channel.accepted.length = 2 ∧
      channel.received 0 = channel.accepted := by
  have ran : ((eventChannel (some : EmittedEvent ℕ → _) 8).run [.subscribe 0,
      .emit ⟨.plain, [7]⟩ 3, .proceed, .proceed, .emit ⟨.close, []⟩ 0, .proceed, .proceed, .returns,
      .proceed, .proceed, .returns, .proceed, .proceed, .microtask, .proceed]).map (fun channel =>
        (channel.stack.length + channel.microtasks.length, channel.paused,
          channel.listeners.map ChannelListener.listener, channel.subscribed,
          channel.accepted.length)) = some (0, false, [0], [0], 2) := by
    decide +kernel
  obtain ⟨channel, reached, same⟩ := Machine.exists_of_run ran
  simp only [Prod.mk.injEq, Nat.add_eq_zero_iff, List.length_eq_zero_iff] at same
  obtain ⟨⟨idle, waited⟩, notPaused, listeners, subscribed, two⟩ := same
  obtain ⟨entry, alone, listener⟩ := List.map_eq_singleton_iff.mp listeners
  have entryIn : entry ∈ channel.listeners := alone ▸ List.mem_singleton.mpr rfl
  have once : channel.subscribed.count entry.listener = 1 := by
    rw [subscribed, listener]
    rfl
  have all := (events_delivered reached).2.1 idle waited notPaused entry entryIn once
  rw [listener] at all
  exact ⟨channel, reached, two, all⟩

end ProcessEventChannelV1

end Holonomy.Process
