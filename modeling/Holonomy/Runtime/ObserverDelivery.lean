import Holonomy.Runtime.Observer

/-!
# What an observer is handed

Every enqueued event is queued, handed over, or stands in exactly one overflow event. Numbers grow
along what is handed over: an overflow event is numbered behind everything that was queued when its
first event was dropped, and before everything that is published later.
-/

namespace Holonomy.Runtime

open Foundation

def Summarizes : Option DroppedRuntimeObserverEventsV1 → List RuntimeObserverEventV1 → Prop
  | none, lost => lost = []
  | some dropped, lost =>
    dropped.dropped = lost.length ∧
    (∀ name, dropped.droppedByEvent name = lost.countP fun event => event.event = name) ∧
    (∀ event ∈ lost, dropped.firstDroppedSequence ≤ event.sequence ∧
      event.sequence ≤ dropped.lastDroppedSequence) ∧
    (∃ event ∈ lost, event.sequence = dropped.firstDroppedSequence) ∧
    ∃ event ∈ lost, event.sequence = dropped.lastDroppedSequence

def Delivery.Describes : Delivery → Prop
  | .event _ => True
  | .overflow item accounted => Summarizes (some item.payload) accounted

def Delivery.IsOverflow : Delivery → Prop
  | .event _ => False
  | .overflow _ _ => True

structure Numbered (handed queued : List ℕ) (slot : Option ℕ) (given : ℕ) : Prop where
  handedOrder : handed.Pairwise (· < ·)
  queuedOrder : queued.Pairwise (· < ·)
  apart : ∀ number ∈ slot, number ∉ queued
  queuedBehind : ∀ number ∈ handed, ∀ later ∈ queued, number < later
  slotBehind : ∀ number ∈ handed, ∀ later ∈ slot, number < later
  bound : ∀ number, number ∈ handed ∨ number ∈ queued ∨ number ∈ slot → number ≤ given

namespace Numbered

variable {handed queued : List ℕ} {slot : Option ℕ} {given : ℕ}

section

variable (numbered : Numbered handed queued slot given)

include numbered

theorem raise {more : ℕ} (larger : given ≤ more) : Numbered handed queued slot more :=
  { numbered with bound := fun number known => (numbered.bound number known).trans larger }

theorem push {number : ℕ} (fresh : given < number) :
    Numbered handed (queued ++ [number]) slot number where
  handedOrder := numbered.handedOrder
  queuedOrder := by
    refine pairwise_concat numbered.queuedOrder fun earlier earlierIn => ?_
    have known := numbered.bound earlier (.inr (.inl earlierIn))
    omega
  apart own ownIn inside := by
    rcases List.mem_append.mp inside with old | new
    · exact numbered.apart own ownIn old
    · have known := numbered.bound own (.inr (.inr ownIn))
      rw [List.mem_singleton.mp new] at known
      omega
  queuedBehind earlier earlierIn later laterIn := by
    rcases List.mem_append.mp laterIn with old | new
    · exact numbered.queuedBehind earlier earlierIn later old
    · have known := numbered.bound earlier (.inl earlierIn)
      rw [List.mem_singleton.mp new]
      omega
  slotBehind := numbered.slotBehind
  bound other known := by
    rcases known with before | inside | slotted
    · have known := numbered.bound other (.inl before)
      omega
    · rcases List.mem_append.mp inside with old | new
      · have known := numbered.bound other (.inr (.inl old))
        omega
      · exact (List.mem_singleton.mp new).le
    · have known := numbered.bound other (.inr (.inr slotted))
      omega

theorem leave {left : List ℕ} (fewer : left.Sublist queued) : Numbered handed left slot given where
  handedOrder := numbered.handedOrder
  queuedOrder := numbered.queuedOrder.sublist fewer
  apart number numberIn inside := numbered.apart number numberIn (fewer.subset inside)
  queuedBehind number numberIn later laterIn :=
    numbered.queuedBehind number numberIn later (fewer.subset laterIn)
  slotBehind := numbered.slotBehind
  bound number known := numbered.bound number (by
    rcases known with before | inside | slotted
    · exact .inl before
    · exact .inr (.inl (fewer.subset inside))
    · exact .inr (.inr slotted))

end

theorem fill (numbered : Numbered handed queued none given) {number : ℕ} (fresh : given < number) :
    Numbered handed queued (some number) number where
  handedOrder := numbered.handedOrder
  queuedOrder := numbered.queuedOrder
  apart own ownIn inside := by
    have known := numbered.bound own (.inr (.inl inside))
    rw [Option.mem_some_iff] at ownIn
    omega
  queuedBehind := numbered.queuedBehind
  slotBehind earlier earlierIn later laterIn := by
    have known := numbered.bound earlier (.inl earlierIn)
    rw [Option.mem_some_iff] at laterIn
    omega
  bound other known := by
    rcases known with before | inside | slotted
    · have known := numbered.bound other (.inl before)
      omega
    · have known := numbered.bound other (.inr (.inl inside))
      omega
    · rw [Option.mem_some_iff] at slotted
      omega

theorem takeSlot {number : ℕ} (numbered : Numbered handed queued (some number) given)
    (first : ∀ later ∈ queued, number < later) :
    Numbered (handed ++ [number]) queued none given where
  handedOrder := by
    exact pairwise_concat numbered.handedOrder
      fun earlier earlierIn => numbered.slotBehind earlier earlierIn number rfl
  queuedOrder := numbered.queuedOrder
  apart own ownIn := by cases ownIn
  queuedBehind := forall_mem_concat numbered.queuedBehind fun later laterIn => first later laterIn
  slotBehind earlier earlierIn later laterIn := by cases laterIn
  bound other known := by
    rcases known with before | inside | slotted
    · exact forall_mem_concat (fun one old => numbered.bound one (.inl old))
        (numbered.bound number (.inr (.inr rfl))) other before
    · exact numbered.bound other (.inr (.inl inside))
    · cases slotted

theorem takeHead {number : ℕ} (numbered : Numbered handed (number :: queued) slot given)
    (first : ∀ later ∈ slot, number < later) :
    Numbered (handed ++ [number]) queued slot given where
  handedOrder := by
    exact pairwise_concat numbered.handedOrder
      fun earlier earlierIn => numbered.queuedBehind earlier earlierIn number List.mem_cons_self
  queuedOrder := numbered.queuedOrder.tail
  apart own ownIn inside := numbered.apart own ownIn (List.mem_cons_of_mem _ inside)
  queuedBehind earlier earlierIn later laterIn := by
    exact forall_mem_concat
      (fun one old => numbered.queuedBehind one old later (List.mem_cons_of_mem _ laterIn))
      (List.rel_of_pairwise_cons numbered.queuedOrder laterIn) earlier earlierIn
  slotBehind := forall_mem_concat numbered.slotBehind fun later laterIn => first later laterIn
  bound other known := by
    rcases known with before | inside | slotted
    · exact forall_mem_concat (fun one old => numbered.bound one (.inl old))
        (numbered.bound number (.inr (.inl List.mem_cons_self))) other before
    · exact numbered.bound other (.inr (.inl (List.mem_cons_of_mem _ inside)))
    · exact numbered.bound other (.inr (.inr slotted))

end Numbered

namespace RuntimeObserverSubscriptionV1

variable {admission : ObserverAdmission} {subscription : RuntimeObserverSubscriptionV1}

theorem schedule_eq (subscription : RuntimeObserverSubscriptionV1) :
    ∃ running scheduled, subscription.schedule =
      { subscription with running := running, scheduled := scheduled } := by
  by_cases skipped : (subscription.running || !subscription.active) = true
  · exact ⟨subscription.running, subscription.scheduled, if_pos skipped⟩
  · exact ⟨true, true, if_neg skipped⟩

/-- The enqueued events are those queued, handed over or dropped. -/
def Conserved (subscription : RuntimeObserverSubscriptionV1) : Prop :=
  subscription.enqueued.Perm
    (subscription.delivered.flatMap Delivery.events ++ (subscription.queue ++ subscription.lost))

structure Described (subscription : RuntimeObserverSubscriptionV1) : Prop where
  pending : Summarizes subscription.dropped subscription.lost
  slot : subscription.overflow.map ObserverOverflowV1.payload = subscription.dropped
  handed : ∀ delivery ∈ subscription.delivered, delivery.Describes

/-- Numbers grow along what was handed over, and what waits comes behind it. -/
def Ordered (subscription : RuntimeObserverSubscriptionV1) : Prop :=
  Numbered (subscription.delivered.map Delivery.sequence)
    (subscription.queue.map RuntimeObserverEventV1.sequence)
    (subscription.overflow.map ObserverOverflowV1.sequence) subscription.sequence

structure Bounded (admission : ObserverAdmission) (subscription : RuntimeObserverSubscriptionV1) :
    Prop where
  queue : subscription.queue.length ≤ admission.maxQueuedEvents
  /-- With the event in flight it does too, unless that is an overflow event. -/
  inflight : subscription.inflight = true →
    (∃ delivery, subscription.delivered.getLast? = some delivery ∧ delivery.IsOverflow) ∨
      subscription.queue.length + 1 ≤ admission.maxQueuedEvents

theorem summarizes_recordDrop {event : RuntimeObserverEventV1}
    (pending : Summarizes subscription.dropped subscription.lost) :
    Summarizes (subscription.recordDrop event).dropped (subscription.recordDrop event).lost := by
  rw [recordDrop]
  cases before : subscription.dropped with
  | none =>
    rw [before] at pending
    have empty : subscription.lost = [] := pending
    refine ⟨?_, ?_, ?_, ?_, ?_⟩
    · simp [empty]
    · intro name
      by_cases same : event.event = name
      · simp [empty, same]
      · simp [empty, same, Function.update_of_ne (Ne.symm same)]
    · simp [empty]
    · simp [empty]
    · simp [empty]
  | some previous =>
    rw [before] at pending
    obtain ⟨total, each, within, first, last⟩ := pending
    refine ⟨?_, ?_, ?_, ?_, ?_⟩
    · simp [total]
    · intro name
      by_cases same : event.event = name
      · rw [← same]
        simp [each]
      · simp [each, same, Function.update_of_ne (Ne.symm same)]
    · intro other otherIn
      show min _ _ ≤ _ ∧ _ ≤ max _ _
      rcases List.mem_append.mp otherIn with old | new
      · have bounds := within other old
        omega
      · rw [List.mem_singleton.mp new]
        omega
    · obtain ⟨least, leastIn, leastIs⟩ := first
      by_cases smaller : previous.firstDroppedSequence ≤ event.sequence
      · refine ⟨least, List.mem_append_left _ leastIn, ?_⟩
        show _ = min _ _
        omega
      · refine ⟨event, List.mem_append_right _ (List.mem_singleton.mpr rfl), ?_⟩
        show _ = min _ _
        omega
    · obtain ⟨greatest, greatestIn, greatestIs⟩ := last
      by_cases smaller : event.sequence ≤ previous.lastDroppedSequence
      · refine ⟨greatest, List.mem_append_left _ greatestIn, ?_⟩
        show _ = max _ _
        omega
      · refine ⟨event, List.mem_append_right _ (List.mem_singleton.mpr rfl), ?_⟩
        show _ = max _ _
        omega

theorem recordDrop_frame (subscription : RuntimeObserverSubscriptionV1)
    (event : RuntimeObserverEventV1) :
    (subscription.recordDrop event).queue = subscription.queue ∧
    (subscription.recordDrop event).inflight = subscription.inflight ∧
    (subscription.recordDrop event).delivered = subscription.delivered ∧
    (subscription.recordDrop event).enqueued = subscription.enqueued ∧
    (subscription.recordDrop event).lost = subscription.lost ++ [event] ∧
    (subscription.recordDrop event).active = subscription.active := by
  rw [recordDrop]
  split
  · exact ⟨rfl, rfl, rfl, rfl, rfl, rfl⟩
  · exact ⟨rfl, rfl, rfl, rfl, rfl, rfl⟩

theorem recordDrop_overflow (subscription : RuntimeObserverSubscriptionV1)
    (event : RuntimeObserverEventV1) (slot : subscription.overflow.map ObserverOverflowV1.payload =
      subscription.dropped) :
    ((subscription.recordDrop event).overflow.map ObserverOverflowV1.payload =
      (subscription.recordDrop event).dropped) ∧
    ((∃ overflow, subscription.overflow = some overflow ∧
        (subscription.recordDrop event).overflow.map ObserverOverflowV1.sequence =
          some overflow.sequence ∧
        (subscription.recordDrop event).sequence = subscription.sequence) ∨
      (subscription.overflow = none ∧
        (subscription.recordDrop event).overflow.map ObserverOverflowV1.sequence =
          some (subscription.sequence + 1) ∧
        (subscription.recordDrop event).sequence = subscription.sequence + 1)) := by
  rw [recordDrop]
  cases before : subscription.dropped with
  | none =>
    rw [before, Option.map_eq_none_iff] at slot
    exact ⟨rfl, .inr ⟨slot, rfl, rfl⟩⟩
  | some previous =>
    rw [before, Option.map_eq_some_iff] at slot
    obtain ⟨overflow, there, _⟩ := slot
    rw [there]
    exact ⟨rfl, .inl ⟨overflow, rfl, rfl, rfl⟩⟩

theorem enqueue_cases (admission : ObserverAdmission) (event : RuntimeObserverEventV1)
    (active : subscription.active = true) :
    let noted := { subscription with enqueued := subscription.enqueued ++ [event] }
    (subscription.queue.length + (if subscription.inflight then 1 else 0) <
        admission.maxQueuedEvents ∧ enqueue admission subscription event =
        schedule { noted with queue := subscription.queue ++ [event] }) ∨
    (∃ before item after, subscription.queue = before ++ item :: after ∧
      enqueue admission subscription event =
        schedule { recordDrop { noted with queue := before ++ after } item with
          queue := before ++ after ++ [event] }) ∨
    enqueue admission subscription event = schedule (recordDrop noted event) := by
  intro noted
  have alive : ¬ (!subscription.active) = true := by rw [active]; exact Bool.false_ne_true
  rw [enqueue, if_neg alive]
  by_cases full : subscription.queue.length + (if subscription.inflight then 1 else 0) ≥
      admission.maxQueuedEvents
  · simp only [if_pos full]
    cases place : (evicted admission subscription.queue).bind fun index =>
        subscription.queue[index]?.map fun item => (index, item) with
    | none => exact .inr (.inr rfl)
    | some found =>
      rw [Option.bind_eq_some_iff] at place
      obtain ⟨index, _, there⟩ := place
      rw [Option.map_eq_some_iff] at there
      obtain ⟨item, there, rfl⟩ := there
      obtain ⟨inside, same⟩ := List.getElem?_eq_some_iff.mp there
      refine .inr (.inl ⟨subscription.queue.take index, item, subscription.queue.drop (index + 1),
        ?_, ?_⟩)
      · rw [← same, List.cons_getElem_drop_succ, List.take_append_drop]
      · have erased := List.eraseIdx_eq_take_drop_succ subscription.queue index
        simp only [erased]
        have frame := recordDrop_frame { noted with
          queue := subscription.queue.take index ++ subscription.queue.drop (index + 1) } item
        rw [frame.1]
  · simp only [if_neg full]
    exact .inl ⟨Nat.lt_of_not_le full, rfl⟩

theorem of_schedule {holds : RuntimeObserverSubscriptionV1 → Prop}
    (blind : ∀ running scheduled,
      holds { subscription with running := running, scheduled := scheduled }) :
    holds subscription.schedule := by
  obtain ⟨running, scheduled, same⟩ := schedule_eq subscription
  rw [same]
  exact blind running scheduled

theorem Conserved.enqueue (conserved : subscription.Conserved) (event : RuntimeObserverEventV1)
    (active : subscription.active = true) : (enqueue admission subscription event).Conserved := by
  rcases enqueue_cases admission event active with room | evicts | drops
  · rw [room.2]
    apply of_schedule
    intro running scheduled
    show List.Perm (subscription.enqueued ++ [event]) (_ ++ ((subscription.queue ++ [event]) ++ _))
    rw [List.perm_iff_count]
    intro item
    have before := List.perm_iff_count.mp conserved item
    simp only [List.count_append] at before ⊢
    omega
  · obtain ⟨before, item, after, split, result⟩ := evicts
    rw [result]
    apply of_schedule
    intro running scheduled
    have frame := recordDrop_frame { subscription with
      enqueued := subscription.enqueued ++ [event], queue := before ++ after } item
    show List.Perm (recordDrop _ item).enqueued ((recordDrop _ item).delivered.flatMap
      Delivery.events ++ (before ++ after ++ [event] ++ (recordDrop _ item).lost))
    rw [frame.2.2.1, frame.2.2.2.1, frame.2.2.2.2.1, List.perm_iff_count]
    intro other
    have count := List.perm_iff_count.mp conserved other
    rw [split] at count
    simp only [List.count_append, List.count_cons, List.count_nil] at count ⊢
    omega
  · rw [drops]
    apply of_schedule
    intro running scheduled
    have frame := recordDrop_frame { subscription with
      enqueued := subscription.enqueued ++ [event] } event
    show List.Perm (recordDrop _ event).enqueued ((recordDrop _ event).delivered.flatMap
      Delivery.events ++ ((recordDrop _ event).queue ++ (recordDrop _ event).lost))
    rw [frame.1, frame.2.2.1, frame.2.2.2.1, frame.2.2.2.2.1, List.perm_iff_count]
    intro other
    have count := List.perm_iff_count.mp conserved other
    simp only [List.count_append] at count ⊢
    omega

section

variable (described : subscription.Described)

include described

theorem Described.recordDrop (event : RuntimeObserverEventV1) :
    (subscription.recordDrop event).Described where
  pending := summarizes_recordDrop described.pending
  slot := (recordDrop_overflow subscription event described.slot).1
  handed := by
    rw [(recordDrop_frame subscription event).2.2.1]
    exact described.handed

theorem Described.enqueue (event : RuntimeObserverEventV1)
    (active : subscription.active = true) : (enqueue admission subscription event).Described := by
  rcases enqueue_cases admission event active with room | evicts | drops
  · rw [room.2]
    apply of_schedule
    intro running scheduled
    exact ⟨described.pending, described.slot, described.handed⟩
  · obtain ⟨before, item, after, split, result⟩ := evicts
    rw [result]
    apply of_schedule
    intro running scheduled
    have start : Described { subscription with
        enqueued := subscription.enqueued ++ [event], queue := before ++ after } :=
      ⟨described.pending, described.slot, described.handed⟩
    have dropped := start.recordDrop item
    exact ⟨dropped.pending, dropped.slot, dropped.handed⟩
  · rw [drops]
    apply of_schedule
    intro running scheduled
    have start : Described { subscription with enqueued := subscription.enqueued ++ [event] } :=
      ⟨described.pending, described.slot, described.handed⟩
    have dropped := start.recordDrop event
    exact ⟨dropped.pending, dropped.slot, dropped.handed⟩

theorem numbered_recordDrop {queued : List ℕ}
    (item : RuntimeObserverEventV1)
    (numbered : Numbered (subscription.delivered.map Delivery.sequence) queued
      (subscription.overflow.map ObserverOverflowV1.sequence) subscription.sequence) :
    Numbered (subscription.delivered.map Delivery.sequence) queued
      ((subscription.recordDrop item).overflow.map ObserverOverflowV1.sequence)
      (subscription.recordDrop item).sequence := by
  rcases (recordDrop_overflow subscription item described.slot).2 with kept | made
  · obtain ⟨overflow, there, number, given⟩ := kept
    rw [there] at numbered
    rw [number, given]
    exact numbered
  · obtain ⟨free, number, given⟩ := made
    rw [free] at numbered
    rw [number, given]
    exact numbered.fill (Nat.lt_succ_self _)

end

theorem Ordered.enqueue (ordered : subscription.Ordered) (described : subscription.Described)
    (active : subscription.active = true) (name : RuntimeObserverSelectableEventNameV1) :
    (enqueue admission { subscription with sequence := subscription.sequence + 1 }
      ⟨name, subscription.sequence + 1⟩).Ordered := by
  have pushed : ∀ queue : List RuntimeObserverEventV1, queue.Sublist subscription.queue →
      Numbered (subscription.delivered.map Delivery.sequence)
        ((queue ++ [RuntimeObserverEventV1.mk name (subscription.sequence + 1)]).map
          RuntimeObserverEventV1.sequence)
        (subscription.overflow.map ObserverOverflowV1.sequence) (subscription.sequence + 1) := by
    intro queue fewer
    rw [List.map_append]
    exact (Numbered.leave ordered (fewer.map _)).push (Nat.lt_succ_self _)
  have active' : { subscription with sequence := subscription.sequence + 1 }.active = true := active
  rcases enqueue_cases admission (.mk name (subscription.sequence + 1)) active' with
    room | evicts | drops
  · rw [room.2]
    apply of_schedule
    intro running scheduled
    exact pushed subscription.queue (List.Sublist.refl _)
  · obtain ⟨before, item, after, split, result⟩ := evicts
    have split : subscription.queue = before ++ item :: after := split
    rw [result]
    apply of_schedule
    intro running scheduled
    have fewer : (before ++ after).Sublist subscription.queue := by
      rw [split]
      exact (List.Sublist.refl before).append (List.sublist_cons_self item after)
    have start : Described { subscription with
        sequence := subscription.sequence + 1
        enqueued := subscription.enqueued ++ [⟨name, subscription.sequence + 1⟩]
        queue := before ++ after } := ⟨described.pending, described.slot, described.handed⟩
    have numbered := numbered_recordDrop start item (pushed (before ++ after) fewer)
    show Numbered ((recordDrop _ item).delivered.map Delivery.sequence) _ _ _
    rw [(recordDrop_frame _ item).2.2.1]
    exact numbered
  · rw [drops]
    apply of_schedule
    intro running scheduled
    have start : Described { subscription with
        sequence := subscription.sequence + 1
        enqueued := subscription.enqueued ++ [⟨name, subscription.sequence + 1⟩] } :=
      ⟨described.pending, described.slot, described.handed⟩
    have numbered := numbered_recordDrop start (.mk name (subscription.sequence + 1))
      (Numbered.raise ordered (Nat.le_succ _))
    show Numbered ((recordDrop _ _).delivered.map Delivery.sequence)
      ((recordDrop _ _).queue.map RuntimeObserverEventV1.sequence) _ _
    rw [(recordDrop_frame _ _).2.2.1, (recordDrop_frame _ _).1]
    exact numbered

theorem Bounded.enqueue (bounded : Bounded admission subscription)
    (event : RuntimeObserverEventV1) (active : subscription.active = true) :
    Bounded admission (enqueue admission subscription event) := by
  rcases enqueue_cases admission event active with room | evicts | drops
  · have occupied := room.1
    rw [room.2]
    apply of_schedule
    intro running scheduled
    refine ⟨?_, ?_⟩
    · show (subscription.queue ++ [event]).length ≤ _
      rw [List.length_append, List.length_singleton]
      omega
    · intro flying
      right
      have flying : subscription.inflight = true := flying
      rw [if_pos flying] at occupied
      show (subscription.queue ++ [event]).length + 1 ≤ _
      rw [List.length_append, List.length_singleton]
      omega
  · obtain ⟨before, item, after, split, result⟩ := evicts
    have frame := recordDrop_frame { subscription with
      enqueued := subscription.enqueued ++ [event], queue := before ++ after } item
    have same : (before ++ after ++ [event]).length = subscription.queue.length := by
      rw [split]
      simp only [List.length_append, List.length_cons, List.length_nil]
      omega
    rw [result]
    apply of_schedule
    intro running scheduled
    refine ⟨?_, ?_⟩
    · show (before ++ after ++ [event]).length ≤ _
      rw [same]
      exact bounded.queue
    · intro flying
      have flying : (recordDrop { subscription with
        enqueued := subscription.enqueued ++ [event], queue := before ++ after } item).inflight =
          true := flying
      rw [frame.2.1] at flying
      show (∃ delivery, (recordDrop _ item).delivered.getLast? = some delivery ∧ _) ∨
        (before ++ after ++ [event]).length + 1 ≤ _
      rw [frame.2.2.1, same]
      exact bounded.inflight flying
  · have frame := recordDrop_frame { subscription with
      enqueued := subscription.enqueued ++ [event] } event
    rw [drops]
    apply of_schedule
    intro running scheduled
    refine ⟨?_, ?_⟩
    · show (recordDrop _ event).queue.length ≤ _
      rw [frame.1]
      exact bounded.queue
    · intro flying
      have flying : (recordDrop { subscription with
        enqueued := subscription.enqueued ++ [event] } event).inflight = true := flying
      rw [frame.2.1] at flying
      show (∃ delivery, (recordDrop _ event).delivered.getLast? = some delivery ∧ _) ∨
        (recordDrop _ event).queue.length + 1 ≤ _
      rw [frame.2.2.1, frame.1]
      exact bounded.inflight flying

/-- The four statements about a subscription that is not disposed. -/
structure Sound (admission : ObserverAdmission) (subscription : RuntimeObserverSubscriptionV1) :
    Prop where
  active : subscription.active = true
  conserved : subscription.Conserved
  described : subscription.Described
  ordered : subscription.Ordered
  bounded : Bounded admission subscription

theorem schedule_active (subscription : RuntimeObserverSubscriptionV1) :
    subscription.schedule.active = subscription.active := by
  obtain ⟨running, scheduled, same⟩ := schedule_eq subscription
  rw [same]

theorem enqueue_active (event : RuntimeObserverEventV1) (active : subscription.active = true) :
    (enqueue admission subscription event).active = true := by
  rcases enqueue_cases admission event active with room | evicts | drops
  · rw [room.2, schedule_active]
    exact active
  · obtain ⟨before, item, after, split, result⟩ := evicts
    rw [result, schedule_active]
    exact (recordDrop_frame _ item).2.2.2.2.2.trans active
  · rw [drops, schedule_active]
    exact (recordDrop_frame _ event).2.2.2.2.2.trans active

section

variable (sound : Sound admission subscription)

include sound

theorem Sound.enqueue
    (name : RuntimeObserverSelectableEventNameV1) :
    Sound admission (enqueue admission { subscription with sequence := subscription.sequence + 1 }
      ⟨name, subscription.sequence + 1⟩) := by
  have active : { subscription with sequence := subscription.sequence + 1 }.active = true :=
    sound.active
  have conserved : Conserved { subscription with sequence := subscription.sequence + 1 } :=
    sound.conserved
  have described : Described { subscription with sequence := subscription.sequence + 1 } :=
    ⟨sound.described.pending, sound.described.slot, sound.described.handed⟩
  have bounded : Bounded admission { subscription with sequence := subscription.sequence + 1 } :=
    ⟨sound.bounded.queue, sound.bounded.inflight⟩
  exact ⟨enqueue_active _ active, conserved.enqueue _ active, described.enqueue _ active,
    sound.ordered.enqueue sound.described sound.active name, bounded.enqueue _ active⟩

theorem Sound.drainQueue
    (first : ∀ overflow, subscription.overflow = some overflow →
      ∀ event rest, subscription.queue = event :: rest → event.sequence < overflow.sequence) :
    Sound admission subscription.drainQueue := by
  rw [RuntimeObserverSubscriptionV1.drainQueue]
  cases split : subscription.queue with
  | nil =>
    have ended : Sound admission
        { subscription with inflight := false, running := false, queue := [] } := by
      rw [← split]
      refine ⟨sound.active, sound.conserved, ?_, sound.ordered, ?_⟩
      · exact ⟨sound.described.pending, sound.described.slot, sound.described.handed⟩
      · exact ⟨sound.bounded.queue, fun flying => by cases flying⟩
    simp only
    split
    · apply of_schedule
      intro running scheduled
      refine ⟨ended.active, ended.conserved, ?_, ended.ordered, ?_⟩
      · exact ⟨ended.described.pending, ended.described.slot, ended.described.handed⟩
      · exact ⟨ended.bounded.queue, fun flying => by cases flying⟩
    · exact ended
  | cons event rest =>
    have short := sound.bounded.queue
    rw [split, List.length_cons] at short
    refine ⟨sound.active, ?_, ?_, ?_, ?_⟩
    · show List.Perm subscription.enqueued
        ((subscription.delivered ++ [Delivery.event event]).flatMap Delivery.events ++ (rest ++ _))
      rw [List.perm_iff_count]
      intro item
      have count := List.perm_iff_count.mp sound.conserved item
      rw [split] at count
      simp only [List.flatMap_append, List.flatMap_singleton, Delivery.events, List.count_append,
        List.count_cons, List.count_nil] at count ⊢
      omega
    · refine ⟨sound.described.pending, sound.described.slot, ?_⟩
      refine forall_mem_concat sound.described.handed ?_
      trivial
    · have ordered : Numbered _ _ _ _ := sound.ordered
      rw [split, List.map_cons] at ordered
      show Numbered ((subscription.delivered ++ [Delivery.event event]).map Delivery.sequence) _ _ _
      rw [List.map_append]
      apply ordered.takeHead
      intro later laterIn
      rw [Option.mem_def, Option.map_eq_some_iff] at laterIn
      obtain ⟨overflow, there, rfl⟩ := laterIn
      exact first overflow there event rest split
    · refine ⟨?_, ?_⟩
      · show rest.length ≤ _
        omega
      · intro _
        right
        exact short

theorem Sound.drainTurn :
    Sound admission subscription.drainTurn := by
  have alive : ¬ (!subscription.active) = true := by rw [sound.active]; exact Bool.false_ne_true
  rw [RuntimeObserverSubscriptionV1.drainTurn, if_neg alive]
  cases slot : subscription.overflow with
  | none =>
    apply sound.drainQueue
    intro overflow there
    rw [slot] at there
    cases there
  | some overflow =>
    have ordered : Numbered _ _ _ _ := sound.ordered
    by_cases due : overflowDue overflow subscription.queue = true
    · simp only [due, if_true]
      have handed := sound.described.slot
      rw [slot, Option.map_some] at handed
      have pending := sound.described.pending
      rw [← handed] at pending
      refine ⟨sound.active, ?_, ?_, ?_, ?_⟩
      · show List.Perm subscription.enqueued ((subscription.delivered ++
          [Delivery.overflow overflow subscription.lost]).flatMap Delivery.events ++ (_ ++ []))
        rw [List.perm_iff_count]
        intro item
        have count := List.perm_iff_count.mp sound.conserved item
        simp only [List.flatMap_append, List.flatMap_singleton, Delivery.events, List.count_append,
          List.count_nil] at count ⊢
        omega
      · refine ⟨rfl, rfl, ?_⟩
        exact forall_mem_concat sound.described.handed pending
      · rw [slot, Option.map_some] at ordered
        show Numbered ((subscription.delivered ++
          [Delivery.overflow overflow subscription.lost]).map Delivery.sequence) _ none _
        rw [List.map_append]
        apply ordered.takeSlot
        intro later laterIn
        cases split : subscription.queue with
        | nil =>
          rw [split] at laterIn
          cases laterIn
        | cons event rest =>
          rw [split, overflowDue, decide_eq_true_eq] at due
          have order := ordered.queuedOrder
          rw [split, List.map_cons] at order laterIn
          rcases List.mem_cons.mp laterIn with rfl | behind
          · exact due
          · have more := List.rel_of_pairwise_cons order behind
            omega
      · refine ⟨sound.bounded.queue, ?_⟩
        intro _
        left
        exact ⟨.overflow overflow subscription.lost, List.getLast?_concat, trivial⟩
    · simp only [due]
      apply sound.drainQueue
      intro other there event rest split
      rw [slot] at there
      rw [split, overflowDue, decide_eq_true_eq] at due
      have apart := ordered.apart overflow.sequence (by rw [slot]; rfl)
      rw [split, List.map_cons] at apart
      have different : event.sequence ≠ overflow.sequence := fun same =>
        apart (same ▸ List.mem_cons_self)
      rw [← Option.some.inj there]
      omega

end

theorem sound_new (admission : ObserverAdmission) (sequence : ℕ) :
    Sound admission (new sequence) where
  active := rfl
  conserved := List.Perm.refl _
  described := ⟨rfl, rfl, fun delivery deliveryIn => absurd deliveryIn List.not_mem_nil⟩
  ordered := by
    refine ⟨.nil, .nil, ?_, ?_, ?_, ?_⟩
    · intro number numberIn
      cases numberIn
    · intro number numberIn
      cases numberIn
    · intro number numberIn
      cases numberIn
    · intro number known
      rcases known with before | inside | slotted
      · cases before
      · cases inside
      · cases slotted
  bounded := ⟨Nat.zero_le _, fun flying => by cases flying⟩

/-- Every step but a disposal keeps the statements. -/
theorem Sound.step {sequence : ℕ} {next : RuntimeObserverSubscriptionV1}
    (sound : Sound admission subscription) (step : ObserverStep) (alive : step ≠ .dispose)
    (stepped : (observer admission sequence).step subscription step = some next) :
    Sound admission next := by
  cases step with
  | publish name =>
    have stepped : (if subscription.active && decide (name ∈ admission.events) then _ else _) =
      some next := stepped
    split at stepped
    · rw [← Option.some.inj stepped]
      exact sound.enqueue name
    · rw [← Option.some.inj stepped]
      refine ⟨sound.active, sound.conserved, ?_, ?_, ?_⟩
      · exact ⟨sound.described.pending, sound.described.slot, sound.described.handed⟩
      · exact Numbered.raise sound.ordered (Nat.le_succ _)
      · exact ⟨sound.bounded.queue, sound.bounded.inflight⟩
  | elsewhere count =>
    rw [← Option.some.inj stepped]
    refine ⟨sound.active, sound.conserved, ?_, ?_, ?_⟩
    · exact ⟨sound.described.pending, sound.described.slot, sound.described.handed⟩
    · exact Numbered.raise sound.ordered (Nat.le_add_right _ _)
    · exact ⟨sound.bounded.queue, sound.bounded.inflight⟩
  | microtask =>
    have stepped : (if subscription.scheduled then _ else _) = some next := stepped
    split at stepped
    · rw [← Option.some.inj stepped]
      apply Sound.drainTurn
      refine ⟨sound.active, sound.conserved, ?_, sound.ordered, ?_⟩
      · exact ⟨sound.described.pending, sound.described.slot, sound.described.handed⟩
      · exact ⟨sound.bounded.queue, sound.bounded.inflight⟩
    · cases stepped
  | settle outcome =>
    have stepped : (if subscription.inflight then _ else _) = some next := stepped
    split at stepped
    · rw [← Option.some.inj stepped]
      apply Sound.drainTurn
      refine ⟨sound.active, sound.conserved, ?_, sound.ordered, ?_⟩
      · exact ⟨sound.described.pending, sound.described.slot, sound.described.handed⟩
      · exact ⟨sound.bounded.queue, fun flying => by cases flying⟩
    · cases stepped
  | dispose => exact absurd rfl alive

end RuntimeObserverSubscriptionV1

def Delivery.single : Delivery → List RuntimeObserverEventV1
  | .event item => [item]
  | .overflow _ _ => []

/-- How many events what was handed over counts as dropped. -/
def Delivery.dropped : Delivery → ℕ
  | .event _ => 0
  | .overflow item _ => item.payload.dropped

def Delivery.droppedByEvent (name : RuntimeObserverSelectableEventNameV1) : Delivery → ℕ
  | .event _ => 0
  | .overflow item _ => item.payload.droppedByEvent name

variable {delivered : List Delivery}

/-- What deliveries stand for, counted, when each of them accounts for what it dropped. -/
theorem countP_flatMap_events (counted : RuntimeObserverEventV1 → Bool) (dropped : Delivery → ℕ)
    (each : ∀ delivery ∈ delivered, delivery.events.countP counted =
      delivery.single.countP counted + dropped delivery) :
    (delivered.flatMap Delivery.events).countP counted =
      (delivered.flatMap Delivery.single).countP counted + (delivered.map dropped).sum := by
  induction delivered with
  | nil => rfl
  | cons delivery delivered ih =>
    have rest := ih fun other otherIn => each other (List.mem_cons_of_mem _ otherIn)
    have this := each delivery List.mem_cons_self
    rw [List.flatMap_cons, List.flatMap_cons, List.map_cons, List.sum_cons, List.countP_append,
      List.countP_append, rest, this]
    omega

theorem length_events
    (described : ∀ delivery ∈ delivered, delivery.Describes) :
    (delivered.flatMap Delivery.events).length =
      (delivered.flatMap Delivery.single).length + (delivered.map Delivery.dropped).sum := by
  rw [← List.countP_true]
  apply countP_flatMap_events
  intro delivery deliveryIn
  cases delivery with
  | event item => rfl
  | overflow item accounted =>
    have total : item.payload.dropped = accounted.length := (described _ deliveryIn).1
    rw [List.countP_true, Delivery.dropped, total]
    exact (Nat.zero_add _).symm

theorem countP_events (name : RuntimeObserverSelectableEventNameV1)
    (described : ∀ delivery ∈ delivered, delivery.Describes) :
    (delivered.flatMap Delivery.events).countP (fun event => event.event = name) =
      (delivered.flatMap Delivery.single).countP (fun event => event.event = name) +
        (delivered.map (Delivery.droppedByEvent name)).sum := by
  apply countP_flatMap_events
  intro delivery deliveryIn
  cases delivery with
  | event item => rfl
  | overflow item accounted =>
    have each : item.payload.droppedByEvent name =
      accounted.countP fun event => event.event = name := (described _ deliveryIn).2.1 name
    rw [Delivery.droppedByEvent, each]
    exact (Nat.zero_add _).symm

open RuntimeObserverSubscriptionV1

/-- In a run without disposal every enqueued event is handed over, queued or counted as dropped,
by name and in total; the queue stays within its bound, also with the event in flight unless that
is an overflow event; numbers grow along what is handed over; and an overflow event describes
enqueued events that nothing else handed over stands for. -/
theorem observer_delivery {admission : ObserverAdmission} {sequence : ℕ}
    {events : List ObserverStep}
    {subscription : RuntimeObserverSubscriptionV1}
    (reached : (observer admission sequence).ReachesWhen (fun _ step => step ≠ .dispose) events
      subscription) :
    (subscription.enqueued.length = (subscription.delivered.flatMap Delivery.single).length +
      subscription.queue.length + (subscription.delivered.map Delivery.dropped).sum +
        (subscription.dropped.map DroppedRuntimeObserverEventsV1.dropped).getD 0) ∧
    (∀ name, (subscription.enqueued.countP fun event => event.event = name) =
      ((subscription.delivered.flatMap Delivery.single).countP fun event => event.event = name) +
      (subscription.queue.countP fun event => event.event = name) +
        (subscription.delivered.map (Delivery.droppedByEvent name)).sum +
          (subscription.dropped.map fun dropped => dropped.droppedByEvent name).getD 0) ∧
    Bounded admission subscription ∧
    (subscription.delivered.map Delivery.sequence).Pairwise (· < ·) ∧
    subscription.enqueued.Perm (subscription.delivered.flatMap Delivery.events ++
      (subscription.queue ++ subscription.lost)) ∧
    ∀ overflow accounted, .overflow overflow accounted ∈ subscription.delivered →
      Summarizes (some overflow.payload) accounted := by
  have sound : Sound admission subscription := reached.invariant (sound_new admission sequence)
    fun _ step _ sound alive stepped => sound.step step alive stepped
  have pending := sound.described.pending
  refine ⟨?_, ?_, sound.bounded, Numbered.handedOrder sound.ordered, sound.conserved, ?_⟩
  · have total := sound.conserved.length_eq
    have lost : (subscription.dropped.map DroppedRuntimeObserverEventsV1.dropped).getD 0 =
        subscription.lost.length := by
      cases slot : subscription.dropped with
      | none =>
        rw [slot] at pending
        have empty : subscription.lost = [] := pending
        rw [empty]
        rfl
      | some dropped =>
        rw [slot] at pending
        exact pending.1
    rw [List.length_append, List.length_append, length_events sound.described.handed] at total
    omega
  · intro name
    have total := sound.conserved.countP_eq fun event => decide (event.event = name)
    have lost : (subscription.dropped.map fun dropped => dropped.droppedByEvent name).getD 0 =
        subscription.lost.countP fun event => event.event = name := by
      cases slot : subscription.dropped with
      | none =>
        rw [slot] at pending
        have empty : subscription.lost = [] := pending
        rw [empty]
        rfl
      | some dropped =>
        rw [slot] at pending
        exact pending.2.1 name
    rw [List.countP_append, List.countP_append, countP_events name sound.described.handed] at total
    omega
  · intro overflow accounted overflowIn
    exact sound.described.handed _ overflowIn

/-- A queue for one event under three events of the same name. -/
def oneEvent : ObserverAdmission := ⟨1, [.gcCompleted], fun _ => some .required⟩

/-- Three events enter a queue for one, and the drain takes its turn. -/
def threeEvents : List ObserverStep :=
  [.publish .gcCompleted, .publish .gcCompleted, .publish .gcCompleted, .microtask]

theorem threeEvents_alive : ∀ step ∈ threeEvents, step ≠ .dispose := by decide

/-- The third event is queued, and an overflow event for the others is in flight. -/
theorem observer_delivery_three : ∃ subscription,
    (observer oneEvent 0).run threeEvents = some subscription ∧
    subscription.enqueued.length = (subscription.delivered.flatMap Delivery.single).length +
      subscription.queue.length + (subscription.delivered.map Delivery.dropped).sum +
        (subscription.dropped.map DroppedRuntimeObserverEventsV1.dropped).getD 0 := by
  have computed : ∃ subscription, (observer oneEvent 0).run threeEvents = some subscription :=
    ⟨_, rfl⟩
  obtain ⟨subscription, computed⟩ := computed
  have reached : (observer oneEvent 0).ReachesWhen (fun _ step => step ≠ .dispose) threeEvents
      subscription := (Machine.reaches_of_run computed).allowed fun step stepIn _ =>
    threeEvents_alive step stepIn
  exact ⟨subscription, computed, (observer_delivery reached).1⟩

/-- The queue and the event in flight can exceed the bound: with room for one event, the overflow
event of two dropped events is in flight while the third is queued. -/
theorem not_queue_and_inflight_bounded :
    ¬ ∀ (admission : ObserverAdmission) (sequence : ℕ) (events : List ObserverStep)
      (subscription : RuntimeObserverSubscriptionV1),
      (observer admission sequence).ReachesWhen (fun _ step => step ≠ .dispose) events
        subscription →
      subscription.queue.length + (if subscription.inflight then 1 else 0) ≤
        admission.maxQueuedEvents := by
  intro all
  have computed : ∃ subscription, (observer oneEvent 0).run threeEvents = some subscription ∧
      subscription.queue.length = 1 ∧ subscription.inflight = true := ⟨_, rfl, rfl, rfl⟩
  obtain ⟨subscription, computed, queued, flying⟩ := computed
  have reached : (observer oneEvent 0).ReachesWhen (fun _ step => step ≠ .dispose) threeEvents
      subscription := (Machine.reaches_of_run computed).allowed fun step stepIn _ =>
    threeEvents_alive step stepIn
  have bound := all oneEvent 0 threeEvents subscription reached
  rw [queued, flying] at bound
  exact absurd bound (by decide)

end Holonomy.Runtime
