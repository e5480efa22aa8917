import Holonomy.Foundation.Machine

/-!
# The event emitter

An emit goes through a copy of the records that are registered when it starts. It takes a record
that is good for once out of the register, if it is still there, and calls its listener in any case.
-/

namespace Holonomy.NodeCompat

open Foundation

/-- A function that `removeListener` is given: a listener, or the function that `once` wraps around
the listener of a record. -/
inductive NodeEventListener (L : Type) where
  | given (listener : L)
  | wrapper (id : ℕ)
deriving DecidableEq

/-- A registration; registrations are numbered. -/
structure ListenerRecord (Name L : Type) where
  id : ℕ
  eventName : Name
  original : L
  once : Bool
deriving DecidableEq

/-- The function that stands for a record. -/
def ListenerRecord.listener {Name L : Type} (record : ListenerRecord Name L) :
    NodeEventListener L :=
  if record.once then .wrapper record.id else .given record.original

/-- A call of `emit`: the records that there were, those that were called and those that were
not yet. -/
structure Emit (Name L : Type) where
  eventName : Name
  registered : ℕ
  present : List (ListenerRecord Name L)
  called : List (ListenerRecord Name L)
  remaining : List (ListenerRecord Name L)
deriving DecidableEq

/-- The register, the number of registrations, the calls of `emit` that go on, innermost first,
those that have ended, and whether by a listener that threw, and the calls of listeners. -/
structure EventEmitter (Name L : Type) where
  events : Name → List (ListenerRecord Name L)
  registered : ℕ
  running : List (Emit Name L)
  ended : List (Emit Name L × Bool)
  calls : List (ListenerRecord Name L)

/-- What is done with an emitter. -/
inductive EmitterEvent (Name L : Type) where
  | on (eventName : Name) (listener : L)
  | once (eventName : Name) (listener : L)
  | removeListener (eventName : Name) (listener : L)
  | removeAllListeners (eventName : Option Name)
  | emit (eventName : Name)
  /-- The innermost emit calls its next listener, the one before having returned, or returns. -/
  | proceed
  /-- The listener that the innermost emit has called throws. -/
  | throw

def removeLast {α : Type} (kind : α → Bool) (values : List α) : List α :=
  (values.reverse.eraseP kind).reverse

theorem removeLast_sublist {α : Type} (kind : α → Bool) (values : List α) :
    (removeLast kind values).Sublist values := by
  have shorter := (List.eraseP_sublist (p := kind) (l := values.reverse)).reverse
  rw [List.reverse_reverse] at shorter
  exact shorter

/-- The only value of a kind is gone. -/
theorem not_mem_removeLast {α : Type} {kind : α → Bool} {values : List α} {value : α}
    (once : values.Nodup) (holds : kind value = true)
    (only : ∀ other ∈ values, kind other = true → other = value) :
    value ∉ removeLast kind values := by
  unfold removeLast
  rw [List.mem_reverse]
  intro listed
  have there : value ∈ values.reverse := List.mem_of_mem_eraseP listed
  obtain ⟨first, before, after, -, found, whole, left⟩ := List.exists_of_eraseP there holds
  have firstIn : first ∈ values := by
    rw [← List.mem_reverse, whole]
    exact List.mem_append_right _ List.mem_cons_self
  rw [only first firstIn found] at whole
  have apart := List.nodup_reverse.mpr once
  rw [whole, List.nodup_middle] at apart
  rw [left] at listed
  exact (List.nodup_cons.mp apart).1 listed

namespace EventEmitter

variable {Name L : Type} [DecidableEq Name] [DecidableEq L]

def setEvents (eventName : Name) (records : List (ListenerRecord Name L))
    (emitter : EventEmitter Name L) : EventEmitter Name L :=
  { emitter with events := Function.update emitter.events eventName records }

def register (eventName : Name) (listener : L) (once : Bool) (emitter : EventEmitter Name L) :
    EventEmitter Name L :=
  { emitter.setEvents eventName (emitter.events eventName ++
      [⟨emitter.registered, eventName, listener, once⟩]) with
    registered := emitter.registered + 1 }

def removeListener (eventName : Name) (listener : NodeEventListener L)
    (emitter : EventEmitter Name L) : EventEmitter Name L :=
  emitter.setEvents eventName (removeLast (fun record =>
    record.listener = listener ∨ .given record.original = listener) (emitter.events eventName))

/-- Take a record that is good for once out, if it is there. -/
def consume (eventName : Name) (record : ListenerRecord Name L) (emitter : EventEmitter Name L) :
    EventEmitter Name L :=
  if record.once ∧ record ∈ emitter.events eventName then
    emitter.removeListener eventName record.listener
  else emitter

def callNext (emit : Emit Name L) (record : ListenerRecord Name L)
    (rest : List (ListenerRecord Name L)) (outer : List (Emit Name L))
    (emitter : EventEmitter Name L) : EventEmitter Name L :=
  { emitter with
    events := (emitter.consume emit.eventName record).events
    running := { emit with called := emit.called ++ [record], remaining := rest } :: outer
    calls := emitter.calls ++ [record] }

def listens (emitter : EventEmitter Name L) : Bool :=
  match emitter.running with
  | [] => true
  | emit :: _ => !emit.called.isEmpty

/-- The emitter after something was done with it. An emit without records calls nothing; of an
error it throws, which changes nothing here. -/
def step (emitter : EventEmitter Name L) : EmitterEvent Name L → Option (EventEmitter Name L)
  | .on eventName listener =>
    if emitter.listens then some (emitter.register eventName listener false) else none
  | .once eventName listener =>
    if emitter.listens then some (emitter.register eventName listener true) else none
  | .removeListener eventName listener =>
    if emitter.listens then some (emitter.removeListener eventName (.given listener)) else none
  | .removeAllListeners none =>
    if emitter.listens then some { emitter with events := fun _ => [] } else none
  | .removeAllListeners (some eventName) =>
    if emitter.listens then some (emitter.setEvents eventName []) else none
  | .emit eventName =>
    if emitter.listens = false then none
    else if emitter.events eventName = [] then some emitter
    else some { emitter with
      running := ⟨eventName, emitter.registered, emitter.events eventName, [],
        emitter.events eventName⟩ :: emitter.running }
  | .proceed =>
    match emitter.running with
    | [] => none
    | emit :: outer =>
      match emit.remaining with
      | [] => some { emitter with running := outer, ended := emitter.ended ++ [(emit, false)] }
      | record :: rest => some (emitter.callNext emit record rest outer)
  | .throw =>
    match emitter.running with
    | [] => none
    | emit :: outer =>
      if emit.called = [] then none
      else some { emitter with running := outer, ended := emitter.ended ++ [(emit, true)] }

/-- Nothing is registered at first. -/
def machine (Name L : Type) [DecidableEq Name] [DecidableEq L] :
    Machine (EventEmitter Name L) (EmitterEvent Name L) where
  start := ⟨fun _ => [], 0, [], [], []⟩
  step := step

def emits (emitter : EventEmitter Name L) : List (Emit Name L) :=
  emitter.running ++ emitter.ended.map Prod.fst

/-- A registration for once is called at most once. An emit calls the registrations that there were
when it started, in their order, all of them unless a listener throws, and no later ones. -/
structure CallsOnce (emitter : EventEmitter Name L) : Prop where
  once : (emitter.calls.filter ListenerRecord.once).Nodup
  whole : ∀ emit ∈ emitter.emits, emit.called ++ emit.remaining = emit.present
  earlier : ∀ emit ∈ emitter.emits, ∀ record ∈ emit.present, record.id < emit.registered
  returned : ∀ entry ∈ emitter.ended, entry.2 = false → entry.1.remaining = []

/-- A registration for once is called by an emit only when no emit around it has the registration
still before it. -/
def isOrderly (emitter : EventEmitter Name L) : EmitterEvent Name L → Bool
  | .proceed =>
    match emitter.running with
    | [] => true
    | emit :: outer => emit.remaining.head?.all fun record =>
      !record.once || outer.all fun around => record ∉ around.remaining
  | _ => true

/-- What is known of an emitter whose steps were orderly. -/
structure Kept (emitter : EventEmitter Name L) : Prop where
  callsOnce : emitter.CallsOnce
  named : ∀ eventName, ∀ record ∈ emitter.events eventName,
    record.eventName = eventName ∧ record.id < emitter.registered
  numbered : ∀ eventName, ((emitter.events eventName).map ListenerRecord.id).Nodup
  pending : ∀ emit ∈ emitter.running, emit.remaining.Nodup ∧ ∀ record ∈ emit.remaining,
    record.eventName = emit.eventName ∧ record.id < emitter.registered
  spent : ∀ record ∈ emitter.calls, record.id < emitter.registered ∧ (record.once = true →
    (∀ eventName, record ∉ emitter.events eventName) ∧
      ∀ emit ∈ emitter.running, record ∉ emit.remaining)

variable {emitter next : EventEmitter Name L}

section

variable (kept : emitter.Kept)

include kept

/-- Other records under a name do no harm when there are fewer. -/
theorem Kept.setEvents {eventName : Name} {records : List (ListenerRecord Name L)}
    (fewer : records.Sublist (emitter.events eventName)) :
    (emitter.setEvents eventName records).Kept := by
  have sublist : ∀ other, (Function.update emitter.events eventName records other).Sublist
      (emitter.events other) := by
    intro other
    by_cases here : other = eventName
    · rw [here, Function.update_self]
      exact fewer
    · rw [Function.update_of_ne here]
  exact {
    callsOnce := ⟨kept.callsOnce.once, kept.callsOnce.whole, kept.callsOnce.earlier,
      kept.callsOnce.returned⟩
    named := fun other record listed => kept.named other record ((sublist other).subset listed)
    numbered := fun other => (kept.numbered other).sublist ((sublist other).map _)
    pending := kept.pending
    spent := fun record called => ⟨(kept.spent record called).1, fun once =>
      ⟨fun other listed => ((kept.spent record called).2 once).1 other
        ((sublist other).subset listed), ((kept.spent record called).2 once).2⟩⟩ }

/-- A new registration was not called. -/
theorem Kept.register (eventName : Name) (listener : L) (once : Bool) :
    (emitter.register eventName listener once).Kept := by
  have entries : ∀ other, ∀ record ∈ (emitter.register eventName listener once).events other,
      record ∈ emitter.events other ∨
        other = eventName ∧ record = ⟨emitter.registered, eventName, listener, once⟩ := by
    intro other record listed
    change record ∈ Function.update emitter.events eventName _ other at listed
    by_cases here : other = eventName
    · rw [here, Function.update_self] at listed
      rw [here]
      exact (List.mem_append.mp listed).imp_right fun new' => ⟨rfl, List.mem_singleton.mp new'⟩
    · rw [Function.update_of_ne here] at listed
      exact .inl listed
  refine ⟨⟨kept.callsOnce.once, kept.callsOnce.whole, kept.callsOnce.earlier,
    kept.callsOnce.returned⟩, ?_, ?_, ?_, ?_⟩
  · intro other record listed
    rcases entries other record listed with old | ⟨here, new'⟩
    · exact ⟨(kept.named other record old).1, Nat.lt_succ_of_lt (kept.named other record old).2⟩
    · rw [new', here]
      exact ⟨rfl, Nat.lt_succ_self _⟩
  · intro other
    change ((Function.update emitter.events eventName _ other).map _).Nodup
    by_cases here : other = eventName
    · rw [here, Function.update_self, List.map_append]
      refine nodup_concat (kept.numbered eventName) fun listed => ?_
      obtain ⟨record, recordIn, same⟩ := List.mem_map.mp listed
      exact absurd same (kept.named eventName record recordIn).2.ne
    · rw [Function.update_of_ne here]
      exact kept.numbered other
  · exact fun emit listed => ⟨(kept.pending emit listed).1, fun record recordIn =>
      ⟨((kept.pending emit listed).2 record recordIn).1,
        Nat.lt_succ_of_lt ((kept.pending emit listed).2 record recordIn).2⟩⟩
  · intro record called
    obtain ⟨low, spent⟩ := kept.spent record called
    refine ⟨Nat.lt_succ_of_lt low, fun good => ⟨fun other listed => ?_, (spent good).2⟩⟩
    rcases entries other record listed with old | ⟨-, new'⟩
    · exact (spent good).1 other old
    · rw [new'] at low
      exact absurd low (Nat.lt_irrefl _)

/-- An emit starts with the records that are registered. -/
theorem Kept.emit (eventName : Name) : Kept { emitter with
      running := ⟨eventName, emitter.registered, emitter.events eventName, [],
        emitter.events eventName⟩ :: emitter.running } := by
  refine ⟨⟨kept.callsOnce.once, ?_, ?_, kept.callsOnce.returned⟩, kept.named, kept.numbered, ?_, ?_⟩
  · exact List.forall_mem_cons.mpr ⟨rfl, kept.callsOnce.whole⟩
  · exact List.forall_mem_cons.mpr ⟨fun record listed => (kept.named eventName record listed).2,
      kept.callsOnce.earlier⟩
  · exact List.forall_mem_cons.mpr ⟨⟨.of_map _ (kept.numbered eventName), kept.named eventName⟩,
      kept.pending⟩
  · exact fun record called => ⟨(kept.spent record called).1, fun good =>
      ⟨((kept.spent record called).2 good).1, List.forall_mem_cons.mpr
        ⟨((kept.spent record called).2 good).1 eventName, ((kept.spent record called).2 good).2⟩⟩⟩

/-- The innermost emit ends, by a throw unless it has called all. -/
theorem Kept.finish {emit : Emit Name L} {outer : List (Emit Name L)}
    (running : emitter.running = emit :: outer) {threw : Bool}
    (done : threw = false → emit.remaining = []) :
    Kept { emitter with running := outer, ended := emitter.ended ++ [(emit, threw)] } := by
  have same : ∀ other : Emit Name L,
      other ∈ outer ++ (emitter.ended ++ [(emit, threw)]).map Prod.fst → other ∈ emitter.emits := by
    intro other listed
    rw [List.map_append, ← List.append_assoc, List.map_singleton] at listed
    unfold emits
    rw [running]
    rcases List.mem_append.mp listed with old | here
    · exact List.mem_cons_of_mem _ old
    · rw [List.mem_singleton.mp here]
      exact List.mem_cons_self
  have inner : ∀ other ∈ outer, other ∈ emitter.running := by
    rw [running]
    exact fun other listed => List.mem_cons_of_mem _ listed
  exact {
    callsOnce := ⟨kept.callsOnce.once, fun other listed => kept.callsOnce.whole other
      (same other listed), fun other listed => kept.callsOnce.earlier other (same other listed),
      forall_mem_concat kept.callsOnce.returned done⟩
    named := kept.named
    numbered := kept.numbered
    pending := fun other listed => kept.pending other (inner other listed)
    spent := fun record called => ⟨(kept.spent record called).1, fun good =>
      ⟨((kept.spent record called).2 good).1, fun other listed =>
        ((kept.spent record called).2 good).2 other (inner other listed)⟩⟩ }

/-- A record good for once that is taken out is no longer there. -/
theorem Kept.consume (eventName : Name) (record : ListenerRecord Name L) :
    Kept { emitter with events := (emitter.consume eventName record).events } ∧
      (record.once = true → record ∉ (emitter.consume eventName record).events eventName) := by
  unfold EventEmitter.consume
  split_ifs with taken
  · refine ⟨kept.setEvents (removeLast_sublist _ _), fun once => ?_⟩
    change record ∉ Function.update emitter.events eventName _ eventName
    rw [Function.update_self]
    have stands : record.listener = .wrapper record.id := if_pos once
    refine not_mem_removeLast (.of_map _ (kept.numbered eventName))
      (decide_eq_true (.inl rfl)) fun other listed same => ?_
    rw [stands, decide_eq_true_eq] at same
    rcases same with wrapped | given
    · unfold ListenerRecord.listener at wrapped
      split_ifs at wrapped
      exact List.inj_on_of_nodup_map (kept.numbered eventName) listed taken.2
        (NodeEventListener.wrapper.inj wrapped)
    · cases given
  · exact ⟨kept, fun once listed => taken ⟨once, listed⟩⟩

/-- A call of a listener: a record good for once is then neither registered nor before any emit. -/
theorem Kept.callNext {emit : Emit Name L} {outer : List (Emit Name L)}
    {record : ListenerRecord Name L} {rest : List (ListenerRecord Name L)}
    (running : emitter.running = emit :: outer) (ahead : emit.remaining = record :: rest)
    (alone : record.once = true → ∀ around ∈ outer, record ∉ around.remaining) :
    (emitter.callNext emit record rest outer).Kept := by
  obtain ⟨base, gone⟩ := kept.consume emit.eventName record
  have here : emit ∈ emitter.running := running ▸ List.mem_cons_self
  have there : emit ∈ emitter.emits := List.mem_append_left _ here
  have inner : ∀ other ∈ outer, other ∈ emitter.running := by
    rw [running]
    exact fun other listed => List.mem_cons_of_mem _ listed
  have others : ∀ other ∈ outer ++ emitter.ended.map Prod.fst, other ∈ emitter.emits :=
    fun other listed => (List.mem_append.mp listed).elim
      (fun running => List.mem_append_left _ (inner other running)) (List.mem_append_right _)
  have next : record ∈ emit.remaining := ahead ▸ List.mem_cons_self
  obtain ⟨distinct, names⟩ := kept.pending emit here
  have fresh : record.once = true → record ∉ emitter.calls := fun once called =>
    ((kept.spent record called).2 once).2 emit here next
  rw [ahead] at distinct
  refine ⟨⟨?_, ?_, ?_, kept.callsOnce.returned⟩, base.named, base.numbered, ?_, ?_⟩
  · change ((emitter.calls ++ [record]).filter ListenerRecord.once).Nodup
    rw [List.filter_append]
    by_cases once : record.once = true
    · rw [List.filter_cons_of_pos once, List.filter_nil]
      exact nodup_concat kept.callsOnce.once fun listed =>
        fresh once (List.mem_of_mem_filter listed)
    · rw [List.filter_cons_of_neg once, List.filter_nil, List.append_nil]
      exact kept.callsOnce.once
  · refine List.forall_mem_cons.mpr ⟨?_, fun other listed =>
      kept.callsOnce.whole other (others other listed)⟩
    rw [← kept.callsOnce.whole emit there, ahead, List.append_assoc, List.singleton_append]
  · exact List.forall_mem_cons.mpr ⟨kept.callsOnce.earlier emit there, fun other listed =>
      kept.callsOnce.earlier other (others other listed)⟩
  · refine List.forall_mem_cons.mpr ⟨⟨distinct.of_cons, fun other listed => ?_⟩, fun other listed =>
      kept.pending other (inner other listed)⟩
    exact names other (ahead ▸ List.mem_cons_of_mem _ listed)
  · refine forall_mem_concat (fun other called => ?_) ?_
    · obtain ⟨low, spent⟩ := base.spent other called
      refine ⟨low, fun once => ⟨(spent once).1, List.forall_mem_cons.mpr ⟨fun listed => ?_,
        fun around aroundIn => (spent once).2 around (inner around aroundIn)⟩⟩⟩
      exact (spent once).2 emit here (ahead ▸ List.mem_cons_of_mem _ listed)
    · refine ⟨(names record next).2, fun once => ⟨fun other listed => ?_,
        List.forall_mem_cons.mpr ⟨(List.nodup_cons.mp distinct).1, alone once⟩⟩⟩
      have own := (base.named other record listed).1
      rw [← own, (names record next).1] at listed
      exact gone once listed

/-- Orderly steps keep what is known. -/
theorem Kept.step {event : EmitterEvent Name L}
    (orderly : emitter.isOrderly event = true) (stepped : emitter.step event = some next) :
    next.Kept := by
  cases event with
  | on eventName listener =>
    obtain ⟨-, same⟩ := Option.ite_none_right_eq_some.mp stepped
    exact Option.some.inj same ▸ kept.register eventName listener false
  | once eventName listener =>
    obtain ⟨-, same⟩ := Option.ite_none_right_eq_some.mp stepped
    exact Option.some.inj same ▸ kept.register eventName listener true
  | removeListener eventName listener =>
    obtain ⟨-, same⟩ := Option.ite_none_right_eq_some.mp stepped
    exact Option.some.inj same ▸ kept.setEvents (removeLast_sublist _ _)
  | removeAllListeners eventName =>
    cases eventName with
    | none =>
      obtain ⟨-, same⟩ := Option.ite_none_right_eq_some.mp stepped
      rw [← Option.some.inj same]
      exact ⟨⟨kept.callsOnce.once, kept.callsOnce.whole, kept.callsOnce.earlier,
        kept.callsOnce.returned⟩, fun _ _ listed => absurd listed List.not_mem_nil,
        fun _ => List.nodup_nil, kept.pending, fun record called =>
          ⟨(kept.spent record called).1, fun once =>
            ⟨fun _ => List.not_mem_nil, ((kept.spent record called).2 once).2⟩⟩⟩
    | some eventName =>
      obtain ⟨-, same⟩ := Option.ite_none_right_eq_some.mp stepped
      exact Option.some.inj same ▸ kept.setEvents (List.nil_sublist _)
  | emit eventName =>
    obtain ⟨-, started⟩ := Option.ite_none_left_eq_some.mp stepped
    split_ifs at started
    · exact Option.some.inj started ▸ kept
    · exact Option.some.inj started ▸ kept.emit eventName
  | proceed =>
    unfold EventEmitter.step at stepped
    unfold isOrderly at orderly
    cases running : emitter.running with
    | nil =>
      rw [running] at stepped
      cases stepped
    | cons emit outer =>
      rw [running] at stepped orderly
      cases ahead : emit.remaining with
      | nil =>
        simp only [ahead] at stepped
        exact Option.some.inj stepped ▸ kept.finish running fun _ => ahead
      | cons record rest =>
        simp only [ahead] at stepped orderly
        refine Option.some.inj stepped ▸ kept.callNext running ahead fun once => ?_
        rw [List.head?_cons, Option.all_some, once, Bool.not_true, Bool.false_or,
          List.all_eq_true] at orderly
        exact fun around listed => of_decide_eq_true (orderly around listed)
  | throw =>
    unfold EventEmitter.step at stepped
    cases running : emitter.running with
    | nil =>
      rw [running] at stepped
      cases stepped
    | cons emit outer =>
      rw [running] at stepped
      obtain ⟨-, same⟩ := Option.ite_none_left_eq_some.mp stepped
      exact Option.some.inj same ▸ kept.finish running fun no => by cases no

end

/-- Registrations for once are called at most once, and every emit calls what was registered when
it started, as long as no emit calls a registration for once that an emit around it still has
before it. -/
theorem emits_callsOnce {events : List (EmitterEvent Name L)}
    (reached : (machine Name L).ReachesWhen
      (fun emitter event => emitter.isOrderly event = true) events emitter) :
    emitter.CallsOnce := by
  have kept : Kept emitter := by
    refine reached.invariant ?_ fun _ _ _ before orderly stepped => before.step orderly stepped
    exact ⟨⟨List.nodup_nil, fun _ listed => absurd listed List.not_mem_nil,
      fun _ listed => absurd listed List.not_mem_nil,
      fun _ listed => absurd listed List.not_mem_nil⟩,
      fun _ _ listed => absurd listed List.not_mem_nil, fun _ => List.nodup_nil,
      fun _ listed => absurd listed List.not_mem_nil,
        fun _ called => absurd called List.not_mem_nil⟩
  exact kept.callsOnce

/-- Two listeners, the first for once; the second emits the event again, and then throws. -/
def nestedEmits : List (EmitterEvent ℕ ℕ) :=
  [.once 0 1, .on 0 2, .emit 0, .proceed, .proceed, .emit 0, .proceed, .once 0 3, .proceed, .throw]

/-- The inner emit calls the second listener only. -/
theorem emits_callsOnce_nestedEmits : ∃ emitter : EventEmitter ℕ ℕ,
    (machine ℕ ℕ).Reaches nestedEmits emitter ∧
      emitter.calls.map ListenerRecord.original = [1, 2, 2] ∧ emitter.CallsOnce := by
  have ran : (((machine ℕ ℕ).guarded fun emitter event => emitter.isOrderly event = true).run
      nestedEmits).map (fun emitter => emitter.calls.map ListenerRecord.original) =
        some [1, 2, 2] := by
    decide +kernel
  obtain ⟨emitter, reached, called⟩ := Machine.exists_of_guarded_run ran
  exact ⟨emitter, reached.reaches, called, emits_callsOnce reached⟩

/-- A listener in front of one for once emits the event again: the latter is called twice. -/
theorem not_emits_callsOnce : ¬ ∀ (events : List (EmitterEvent ℕ ℕ)) (emitter : EventEmitter ℕ ℕ),
    (machine ℕ ℕ).Reaches events emitter → emitter.CallsOnce := by
  intro claim
  have ran : ((machine ℕ ℕ).run [.on 0 1, .once 0 2, .emit 0, .proceed, .emit 0, .proceed,
      .proceed, .proceed, .proceed]).map EventEmitter.calls =
        some [⟨0, 0, 1, false⟩, ⟨0, 0, 1, false⟩, ⟨1, 0, 2, true⟩, ⟨1, 0, 2, true⟩] := by
    decide +kernel
  obtain ⟨emitter, reached, called⟩ := Machine.exists_of_run ran
  have once := (claim _ emitter reached).once
  rw [called] at once
  exact absurd once (by decide)

end EventEmitter

end Holonomy.NodeCompat
