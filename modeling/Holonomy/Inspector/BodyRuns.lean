import Holonomy.Foundation.Machine
import Holonomy.Inspector.BodyBooks

/-!
# Bodies of traced fetches

Any number of fetches tell the inspector what they do, and any of what they tell may be lost or
garbled on the way. A stored body is the whole body of its fetch when no chunk of a request whose
body is still being put together goes by unnoticed: a lost chunk, or one that is told of without
data because nothing is captured, is missing from the stored body.
-/

namespace Holonomy.Inspector

open Foundation Network BodyAccumulator

/-- What becomes of a diagnostic on its way. -/
inductive Fate where
  | arrives
  | lost
  /-- It arrives as something that the accumulator does not know. -/
  | unknown
  /-- It arrives with a text that is not base64 in the place of its data. -/
  | unreadable (text : Text)

structure Inspection where
  fetches : RequestKey → TracedFetch
  accumulator : BodyAccumulator

inductive InspectionEvent where
  | act (key : RequestKey) (action : FetchAction) (fate : Fate) (now later : ℤ)
  | clear (process : Text)

def Fate.delivers (event : NetworkDiagnosticsEvent) : Fate → Option (Option BodyEvent)
  | .arrives => some (some (.ofDiagnostic event))
  | .lost => some none
  | .unknown => some (some .other)
  | .unreadable text =>
    match event with
    | .dataReceived _ bodyUnavailable _ =>
      if base64Decode text = none then some (some (.dataReceived (some text) bodyUnavailable))
      else none
    | _ => none

namespace Inspection

def actedOn (state : Inspection) (key : RequestKey) (fetch : TracedFetch) : Inspection :=
  { state with fetches := Function.update state.fetches key fetch }

def told (limits : BodyLimits) (state : Inspection) (key : RequestKey) (event : BodyEvent)
    (now later : ℤ) : Inspection :=
  { state with accumulator := state.accumulator.ingest limits key event now later }

def step (limits : BodyLimits) (captures : RequestKey → ℕ) (state : Inspection) :
    InspectionEvent → Option Inspection
  | .act key action fate now later => do
    let (fetch, event) ← (state.fetches key).act (captures key) action
    let acted := state.actedOn key fetch
    match event with
    | none => some acted
    | some event =>
      let delivered ← fate.delivers event
      match delivered with
      | none => some acted
      | some event => some (acted.told limits key event now later)
  | .clear process => some { state with accumulator := state.accumulator.clear process }

def machine (limits : BodyLimits) (captures : RequestKey → ℕ) :
    Machine Inspection InspectionEvent where
  start := ⟨fun _ => .new, .new⟩
  step := step limits captures

def body (state : Inspection) (key : RequestKey) : List UInt8 :=
  (state.fetches key).delivered.flatten

def isPutTogether (state : Inspection) (key : RequestKey) : Bool :=
  state.accumulator.pending.any fun entry => entry.key = key && !entry.unavailable

/-- A chunk does not go by unnoticed. -/
def noticed (captures : RequestKey → ℕ) (key : RequestKey) : Fate → Bool
  | .arrives => 0 < captures key
  | .lost => false
  | .unknown => false
  | .unreadable _ => true

def isOrderly (captures : RequestKey → ℕ) (state : Inspection) : InspectionEvent → Bool
  | .act key (.chunk bytes) fate _ _ =>
    bytes.isEmpty || !state.isPutTogether key || noticed captures key fate
  | _ => true

structure Faithful (limits : BodyLimits) (state : Inspection) : Prop where
  stored : ∀ key bytes, (key, bytes) ∈ state.accumulator.stored →
    (state.fetches key).trace.terminal = true ∧ bytes = state.body key
  total : state.accumulator.totalBytes =
    tally (fun entry => entry.chunks.flatten.length) state.accumulator.pending
  process : ∀ process, state.accumulator.processBytes process =
    tally (fun entry => if entry.key.1 = process then entry.chunks.flatten.length else 0)
      state.accumulator.pending
  within : state.accumulator.Within limits

/-- What every orderly step keeps: what is put together is what was delivered. -/
structure Kept (limits : BodyLimits) (state : Inspection) : Prop where
  books : state.accumulator.Books
  within : state.accumulator.Within limits
  quiet : ∀ key, (state.fetches key).Quiet
  pending : ∀ entry ∈ state.accumulator.pending, entry.unavailable = false →
    entry.chunks.flatten = state.body entry.key
  stored : ∀ key bytes, (key, bytes) ∈ state.accumulator.stored →
    (state.fetches key).trace.terminal = true ∧ bytes = state.body key

variable {limits : BodyLimits} {captures : RequestKey → ℕ} {state : Inspection}

variable {key : RequestKey} {action : FetchAction} {fetch : TracedFetch}
  {event : NetworkDiagnosticsEvent} {fate : Fate} {arrived : Option BodyEvent}
  {delivered : BodyEvent} {trace : DiagnosticsTrace} {bytes : List UInt8} {now later : ℤ}
  {next : Inspection}

theorem Kept.silent (kept : state.Kept limits) {event : Option NetworkDiagnosticsEvent}
    (acted : (state.fetches key).act (captures key) action = some (fetch, event))
    (same : state.isPutTogether key = true → fetch.delivered.flatten = state.body key) :
    (state.actedOn key fetch).Kept limits := by
  have own : (state.actedOn key fetch).fetches key = fetch := Function.update_self ..
  have other : ∀ foreign, foreign ≠ key →
      (state.actedOn key fetch).fetches foreign = state.fetches foreign :=
    fun foreign differs => Function.update_of_ne differs ..
  refine ⟨kept.books, kept.within, fun foreign => ?_, fun entry listed free => ?_,
    fun foreign bytes listed => ?_⟩
  · by_cases mine : foreign = key
    · rw [mine, own]
      exact (kept.quiet key).act acted
    · rw [other foreign mine]
      exact kept.quiet foreign
  · have before := kept.pending entry listed free
    by_cases mine : entry.key = key
    · have together : state.isPutTogether key = true := by
        apply List.any_eq_true.mpr
        exact ⟨entry, listed, by simp [mine, free]⟩
      rw [before, mine, Inspection.body, Inspection.body, own]
      exact (same together).symm
    · rw [before, Inspection.body, Inspection.body, other entry.key mine]
  · have before := kept.stored foreign bytes listed
    by_cases mine : foreign = key
    · rw [mine] at before ⊢
      obtain ⟨unchanged, terminal, -⟩ := TracedFetch.act_terminal before.1 acted
      rw [Inspection.body, own, unchanged]
      exact ⟨terminal, before.2⟩
    · rw [Inspection.body, other foreign mine]
      exact before

theorem Kept.tells (kept : state.Kept limits) {diagnostic : Option NetworkDiagnosticsEvent}
    {event : BodyEvent}
    (acted : (state.fetches key).act (captures key) action = some (fetch, diagnostic))
    (open' : (state.fetches key).trace.terminal = false)
    (begins : event = .requestWillBeSent → fetch.delivered.flatten = [])
    (becomes : state.isPutTogether key = true → ∀ bytes,
      bodyBehind (state.body key) event = some bytes → bytes = fetch.delivered.flatten)
    (ends : event = .loadingFinished →
      fetch.trace.terminal = true ∧ fetch.delivered = (state.fetches key).delivered)
    (now later : ℤ) : ((state.actedOn key fetch).told limits key event now later).Kept limits := by
  have ingests := kept.books.ingest kept.within key event now later
  have own : ((state.actedOn key fetch).told limits key event now later).body key =
      fetch.delivered.flatten := by
    simp only [Inspection.body, told, actedOn, Function.update_self]
  have other : ∀ foreign, foreign ≠ key →
      ((state.actedOn key fetch).told limits key event now later).body foreign =
        state.body foreign := by
    intro foreign differs
    simp only [Inspection.body, told, actedOn, Function.update_of_ne differs]
  have storedBefore : ∀ foreign bytes, (foreign, bytes) ∈ state.accumulator.stored →
      foreign ≠ key := by
    intro foreign bytes listed same
    have before := (kept.stored foreign bytes listed).1
    rw [same, open'] at before
    cases before
  refine ⟨ingests.books, ingests.within, fun foreign => ?_, fun entry listed free => ?_,
    fun foreign bytes listed => ?_⟩
  · simp only [told, actedOn, Function.update_apply]
    split_ifs with same
    · exact (kept.quiet key).act acted
    · exact kept.quiet foreign
  · by_cases same : entry.key = key
    · rw [same, own]
      rcases ingests.takes.own entry listed same free with
        ⟨announced, empty⟩ | ⟨before, beforeIn, beforeKey, beforeFree, became⟩
      · rw [empty, begins announced]
        rfl
      · have together : state.isPutTogether key = true := by
          apply List.any_eq_true.mpr
          exact ⟨before, beforeIn, by simp [beforeKey, beforeFree]⟩
        have body := kept.pending before beforeIn beforeFree
        rw [beforeKey] at body
        rw [body] at became
        exact becomes together _ became
    · obtain ⟨before, beforeIn, lesser⟩ := ingests.takes.others entry listed same
      have available := lesser.available free
      rw [other entry.key same, available.2, lesser.key]
      exact kept.pending before beforeIn available.1
  · rcases ingests.stored with unchanged | ⟨finished, entry, entryIn, entryKey, free, more⟩
    · have before : (foreign, bytes) ∈ state.accumulator.stored := by
        rw [← unchanged]
        exact listed
      have differs := storedBefore foreign bytes before
      rw [other foreign differs]
      refine ⟨?_, (kept.stored foreign bytes before).2⟩
      simp only [told, actedOn, Function.update_of_ne differs]
      exact (kept.stored foreign bytes before).1
    · change (foreign, bytes) ∈ (state.accumulator.ingest limits key event now later).stored
        at listed
      rw [more] at listed
      rcases List.mem_append.mp listed with before | new'
      · have differs := storedBefore foreign bytes before
        rw [other foreign differs]
        refine ⟨?_, (kept.stored foreign bytes before).2⟩
        simp only [told, actedOn, Function.update_of_ne differs]
        exact (kept.stored foreign bytes before).1
      · obtain ⟨terminal, unchanged⟩ := ends finished
        have pair := List.mem_singleton.mp new'
        rw [Prod.mk.injEq] at pair
        have body := kept.pending entry entryIn free
        rw [pair.1, own, unchanged]
        refine ⟨?_, ?_⟩
        · simp only [told, actedOn, Function.update_self]
          exact terminal
        · rw [pair.2, body, entryKey]
          rfl

theorem delivers_cases
    (delivers : fate.delivers event = some arrived)
    (bare : ∀ dataBase64 bodyUnavailable dataLength,
      event ≠ .dataReceived dataBase64 bodyUnavailable dataLength) :
    arrived = none ∨ arrived = some (.ofDiagnostic event) ∨ arrived = some .other := by
  cases fate with
  | arrives =>
    cases delivers
    exact .inr (.inl rfl)
  | lost =>
    cases delivers
    exact .inl rfl
  | unknown =>
    cases delivers
    exact .inr (.inr rfl)
  | unreadable text =>
    cases event with
    | dataReceived dataBase64 bodyUnavailable dataLength => exact absurd rfl (bare _ _ _)
    | _ => cases delivers

theorem noticed_of_none (delivers : fate.delivers event = some none) :
    noticed captures key fate = false := by
  cases fate with
  | arrives => cases delivers
  | lost => rfl
  | unknown => rfl
  | unreadable text =>
    cases event with
    | dataReceived dataBase64 bodyUnavailable dataLength =>
      simp only [Fate.delivers] at delivers
      split_ifs at delivers
      cases delivers
    | _ => cases delivers

theorem delivers_data {dataBase64 : Option Text} {bodyUnavailable : Bool} {dataLength : ℕ}
    (delivers : fate.delivers (.dataReceived dataBase64 bodyUnavailable dataLength) =
      some (some delivered)) :
    fate = .arrives ∧ delivered = .dataReceived dataBase64 bodyUnavailable ∨
      fate = .unknown ∧ delivered = .other ∨
      ∃ text, base64Decode text = none ∧ delivered = .dataReceived (some text) bodyUnavailable := by
  cases fate with
  | arrives =>
    cases delivers
    exact .inl ⟨rfl, rfl⟩
  | lost => cases delivers
  | unknown =>
    cases delivers
    exact .inr (.inl ⟨rfl, rfl⟩)
  | unreadable text =>
    simp only [Fate.delivers] at delivers
    split_ifs at delivers with garbled
    cases delivers
    exact .inr (.inr ⟨text, garbled, rfl⟩)

theorem chunk_goesOn {limit : ℕ}
    (delivers : fate.delivers (emitData limit trace bytes).2 = some (some delivered)) :
    delivered ≠ .loadingFinished ∧ delivered ≠ .requestWillBeSent := by
  obtain ⟨dataBase64, bodyUnavailable, told, -⟩ := emitData_event limit trace bytes
  rw [told] at delivers
  rcases delivers_data delivers with ⟨-, whole⟩ | ⟨-, other⟩ | ⟨text, -, garbled⟩
  · rw [whole]
    exact ⟨BodyEvent.noConfusion, BodyEvent.noConfusion⟩
  · rw [other]
    exact ⟨BodyEvent.noConfusion, BodyEvent.noConfusion⟩
  · rw [garbled]
    exact ⟨BodyEvent.noConfusion, BodyEvent.noConfusion⟩

theorem bodyBehind_chunk {body behind : List UInt8}
    (delivers : fate.delivers (emitData (captures key) trace bytes).2 = some (some delivered))
    (became : bodyBehind body delivered = some behind) :
    behind = body ++ bytes ∨ noticed captures key fate = false ∧ behind = body := by
  obtain ⟨dataBase64, bodyUnavailable, told, cases'⟩ :=
    emitData_event (captures key) trace bytes
  rw [told] at delivers
  rcases delivers_data delivers with ⟨isWhole, whole⟩ | ⟨isOther, other⟩ | ⟨text, garbled, same⟩
  · rw [whole] at became
    rcases cases' with ⟨captured, free⟩ | ⟨missing, unavailable | nothing⟩
    · rw [captured, free, bodyBehind, base64Decode_encode] at became
      exact .inl (Option.some.inj became).symm
    · rw [missing, unavailable] at became
      cases became
    · rw [missing] at became
      cases bodyUnavailable with
      | true => cases became
      | false =>
        refine .inr ⟨?_, (Option.some.inj became).symm⟩
        rw [isWhole, noticed, nothing]
        rfl
  · rw [other] at became
    rw [isOther]
    exact .inr ⟨rfl, (Option.some.inj became).symm⟩
  · rw [same] at became
    cases bodyUnavailable with
    | true => cases became
    | false =>
      rw [bodyBehind, garbled] at became
      cases became

theorem step_act
    (stepped : step limits captures state (.act key action fate now later) = some next) :
    ∃ fetch diagnostic, (state.fetches key).act (captures key) action = some (fetch, diagnostic) ∧
      (diagnostic = none ∧ next = state.actedOn key fetch ∨
      ∃ event arrived, diagnostic = some event ∧ fate.delivers event = some arrived ∧
        (arrived = none ∧ next = state.actedOn key fetch ∨ ∃ delivered, arrived = some delivered ∧
          next = (state.actedOn key fetch).told limits key delivered now later)) := by
  simp only [step, Option.bind_eq_bind, Option.bind_eq_some_iff] at stepped
  obtain ⟨⟨fetch, diagnostic⟩, acted, rest⟩ := stepped
  refine ⟨fetch, diagnostic, acted, ?_⟩
  cases diagnostic with
  | none =>
    cases rest
    exact .inl ⟨rfl, rfl⟩
  | some event =>
    obtain ⟨arrived, delivers, last⟩ := Option.bind_eq_some_iff.mp rest
    refine .inr ⟨event, arrived, rfl, delivers, ?_⟩
    cases arrived with
    | none =>
      cases last
      exact .inl ⟨rfl, rfl⟩
    | some delivered =>
      cases last
      exact .inr ⟨delivered, rfl, rfl⟩

/-- An action that delivers nothing keeps what is put together, whatever becomes of what it
tells. -/
theorem Kept.bare (kept : state.Kept limits)
    (acted : (state.fetches key).act (captures key) action = some (fetch, some event))
    (delivers : fate.delivers event = some arrived)
    (outcome : arrived = none ∧ next = state.actedOn key fetch ∨
        ∃ delivered, arrived = some delivered ∧
          next = (state.actedOn key fetch).told limits key delivered now later)
    (same : fetch.delivered = (state.fetches key).delivered)
    (carries : ∀ dataBase64 bodyUnavailable dataLength,
      event ≠ .dataReceived dataBase64 bodyUnavailable dataLength)
    (begins : ∀ hop, event = .requestWillBeSent hop → fetch.delivered = [])
    (ends : ∀ total, event = .loadingFinished total → fetch.trace.terminal = true) :
    next.Kept limits := by
  have open' : (state.fetches key).trace.terminal = false := by
    cases terminal : (state.fetches key).trace.terminal with
    | false => rfl
    | true =>
      have silent := (TracedFetch.act_terminal terminal acted).2.2
      cases silent
  have flat : state.body key = fetch.delivered.flatten := by rw [Inspection.body, same]
  rcases outcome with ⟨-, whole⟩ | ⟨delivered, isDelivered, whole⟩
  · rw [whole]
    exact kept.silent acted fun _ => flat.symm
  · rw [whole]
    rcases delivers_cases delivers carries with nothing | exactly | other
    · rw [nothing] at isDelivered
      cases isDelivered
    · rw [exactly] at isDelivered
      have told := Option.some.inj isDelivered
      apply kept.tells acted open'
      · intro announces
        cases event with
        | requestWillBeSent hop =>
          rw [begins hop rfl]
          rfl
        | _ =>
          rw [announces] at told
          cases told
      · intro _ bytes became
        rw [← told] at became
        cases event with
        | requestWillBeSent hop =>
          rw [begins hop rfl]
          exact (Option.some.inj became).symm
        | responseReceived hop =>
          rw [← flat]
          exact (Option.some.inj became).symm
        | dataReceived dataBase64 bodyUnavailable dataLength => exact absurd rfl (carries _ _ _)
        | _ => cases became
      · intro finished
        cases event with
        | loadingFinished total => exact ⟨ends total rfl, same⟩
        | _ =>
          rw [finished] at told
          cases told
    · rw [other] at isDelivered
      have told := Option.some.inj isDelivered
      rw [← told]
      apply kept.tells acted open'
      · intro impossible
        cases impossible
      · intro _ bytes became
        rw [← flat]
        exact (Option.some.inj became).symm
      · intro impossible
        cases impossible

/-- Every orderly step of a fetch keeps what is put together. -/
theorem Kept.act (kept : state.Kept limits)
    (orderly : state.isOrderly captures (.act key action fate now later) = true)
    (stepped : step limits captures state (.act key action fate now later) = some next) :
    next.Kept limits := by
  obtain ⟨fetch, diagnostic, acted, outcome⟩ := step_act stepped
  have still := acted
  have quiet := kept.quiet key
  cases action with
  | send =>
    simp only [TracedFetch.act] at acted
    split_ifs at acted with free
    cases acted
    have nothing : (state.fetches key).delivered = [] := by
      rcases quiet with reading | empty
      · rw [free.1] at reading
        cases reading
      · exact empty
    rcases outcome with ⟨silent, -⟩ | ⟨event, arrived, told, delivers, more⟩
    · cases silent
    · cases told
      exact kept.bare still delivers more rfl (by rintro _ _ _ ⟨⟩) (fun _ _ => nothing)
        (by rintro _ ⟨⟩)
  | answer =>
    simp only [TracedFetch.act] at acted
    split_ifs at acted with free
    cases acted
    rcases outcome with ⟨silent, -⟩ | ⟨event, arrived, told, delivers, more⟩
    · cases silent
    · cases told
      exact kept.bare still delivers more rfl (by rintro _ _ _ ⟨⟩) (by rintro _ ⟨⟩)
        (by rintro _ ⟨⟩)
  | chunk bytes =>
    simp only [TracedFetch.act] at acted
    split_ifs at acted with free
    simp only [Option.some.injEq, Prod.mk.injEq] at acted
    obtain ⟨rfl, rfl⟩ := acted
    have unnoticed : state.isPutTogether key = true → noticed captures key fate = false →
        bytes = [] := by
      intro together missed
      rw [isOrderly, together, missed, Bool.not_true, Bool.or_false, Bool.or_false] at orderly
      exact List.isEmpty_iff.mp orderly
    have more : ∀ chunk : List UInt8, ((state.fetches key).delivered ++ [chunk]).flatten =
        state.body key ++ chunk := by
      intro chunk
      rw [List.flatten_append, List.flatten_singleton]
      rfl
    rcases outcome with ⟨impossible, -⟩ | ⟨event, arrived, told, delivers, outcome⟩
    · cases impossible
    · rcases outcome with ⟨nothing, whole⟩ | ⟨delivered, isDelivered, whole⟩
      · rw [whole]
        refine kept.silent still fun together => ?_
        rw [nothing] at delivers
        rw [more, unnoticed together (noticed_of_none delivers), List.append_nil]
      · rw [whole]
        cases told
        rw [isDelivered] at delivers
        have notEnd : delivered ≠ .loadingFinished ∧ delivered ≠ .requestWillBeSent :=
          chunk_goesOn delivers
        refine kept.tells still free.2 (fun announces => absurd announces notEnd.2)
          (fun together behind became => ?_) (fun finished => absurd finished notEnd.1) now later
        rw [more]
        rcases bodyBehind_chunk delivers became with whole' | ⟨missed, same⟩
        · exact whole'
        · rw [same, unnoticed together missed, List.append_nil]
  | finish =>
    simp only [TracedFetch.act] at acted
    split_ifs at acted with reading
    cases acted
    rcases outcome with ⟨-, whole⟩ | ⟨event, arrived, told, delivers, more⟩
    · rw [whole]
      exact kept.silent still fun _ => rfl
    · obtain ⟨isFinished, terminal⟩ := finishTrace_some told
      rw [told, isFinished] at still
      rw [isFinished] at delivers
      exact kept.bare still delivers more rfl (by rintro _ _ _ ⟨⟩) (by rintro _ ⟨⟩)
        fun _ _ => terminal
  | fail cancelled code =>
    simp only [TracedFetch.act, Option.some.injEq, Prod.mk.injEq] at acted
    obtain ⟨rfl, rfl⟩ := acted
    rcases outcome with ⟨-, whole⟩ | ⟨event, arrived, told, delivers, more⟩
    · rw [whole]
      exact kept.silent still fun _ => rfl
    · have isFailed := failTrace_some told
      rw [told, isFailed] at still
      rw [isFailed] at delivers
      exact kept.bare still delivers more rfl (by rintro _ _ _ ⟨⟩) (by rintro _ ⟨⟩)
        (by rintro _ ⟨⟩)
  | _ =>
    simp only [TracedFetch.act] at acted
    split_ifs at acted with free
    cases acted
    rcases outcome with ⟨-, whole⟩ | ⟨event, arrived, told, -⟩
    · rw [whole]
      exact kept.silent still fun _ => rfl
    · cases told

theorem Kept.step (kept : state.Kept limits) {event : InspectionEvent}
    (orderly : state.isOrderly captures event = true)
    (stepped : Inspection.step limits captures state event = some next) : next.Kept limits := by
  cases event with
  | act key action fate now later => exact kept.act orderly stepped
  | clear process =>
    cases stepped
    obtain ⟨books, fades⟩ := kept.books.clear process
    refine ⟨books, kept.within.fades fades, kept.quiet, fun entry listed free => ?_,
      fun key bytes listed => ?_⟩
    · obtain ⟨before, beforeIn, lesser⟩ := fades.entries entry listed
      have available := lesser.available free
      rw [available.2, lesser.key]
      exact kept.pending before beforeIn available.1
    · change (key, bytes) ∈ (state.accumulator.clear process).stored at listed
      rw [fades.stored] at listed
      exact kept.stored key bytes listed

theorem kept_start (limits : BodyLimits) (captures : RequestKey → ℕ) :
    (machine limits captures).start.Kept limits := by
  refine ⟨⟨List.nodup_nil, rfl, fun _ => rfl, ?_⟩,
    ⟨Nat.zero_le _, fun _ => Nat.zero_le _, ?_, Nat.zero_le _, fun _ => Nat.zero_le _⟩,
    fun _ => .inr rfl, ?_, ?_⟩
  · intro entry listed
    cases listed
  · intro entry listed
    cases listed
  · intro entry listed
    cases listed
  · intro key bytes listed
    cases listed

theorem Kept.faithful (kept : state.Kept limits) : state.Faithful limits where
  stored := kept.stored
  total := kept.books.total.trans (tally_congr kept.books.sized)
  process process := by
    rw [kept.books.process process]
    apply tally_congr
    intro entry listed
    rw [bytesFor, kept.books.sized entry listed]
  within := kept.within

/-- In every run in which no chunk with bytes of a body that is being put together goes by
unnoticed, a stored body is what was delivered for the last hop of its fetch, which has ended. -/
theorem inspection_faithful (limits : BodyLimits) (captures : RequestKey → ℕ)
    (events : List InspectionEvent) (state : Inspection)
    (reached : (machine limits captures).ReachesWhen
      (fun state event => state.isOrderly captures event = true) events state) :
    state.Faithful limits := by
  have kept : state.Kept limits :=
    reached.invariant (kept_start limits captures)
      fun _ _ _ before orderly stepped => before.step orderly stepped
  exact kept.faithful

def oneFetch : RequestKey := (js "process:1", js "0.1")

def otherFetch : RequestKey := (js "process:1", js "0.2")

/-- Limits for a few bytes. -/
def smallBodyLimits : BodyLimits := ⟨2, 2, 6, 4, 6, 1000⟩

def twoFetches : List InspectionEvent :=
  [.act oneFetch .send .arrives 0 0, .act otherFetch .send .arrives 1 1,
    .act oneFetch .answer .lost 2 2, .act oneFetch .redirect .arrives 2 2,
    .act oneFetch .send .lost 3 3, .act oneFetch .answer .arrives 4 4,
    .act otherFetch .answer .arrives 5 5, .act otherFetch .respond .arrives 5 5,
    .act otherFetch (.chunk [7]) (.unreadable (js "?")) 6 6,
    .act oneFetch .respond .arrives 7 7, .act oneFetch (.chunk [1, 2]) .arrives 8 8,
    .act otherFetch (.chunk [8]) .lost 9 9, .act oneFetch (.chunk [3]) .arrives 10 10,
    .act otherFetch .finish .arrives 11 11, .act oneFetch .finish .arrives 12 12]

/-- The whole body of the one fetch is stored, and no body of the other. -/
theorem inspection_faithful_twoFetches : ∃ state : Inspection,
    state.accumulator.stored = [(oneFetch, [1, 2, 3])] ∧ state.Faithful smallBodyLimits := by
  have ran : (((machine smallBodyLimits fun _ => 10).guarded
      fun state event => state.isOrderly (fun _ => 10) event = true).run twoFetches).map
        (fun state => state.accumulator.stored) = some [(oneFetch, [1, 2, 3])] := by
    decide +kernel
  obtain ⟨state, reached, stored⟩ := Machine.exists_of_guarded_run ran
  exact ⟨state, stored, inspection_faithful smallBodyLimits (fun _ => 10) twoFetches state
    reached⟩

def lostChunk : List InspectionEvent :=
  [.act oneFetch .send .arrives 0 0, .act oneFetch .answer .arrives 1 1,
    .act oneFetch .respond .arrives 1 1, .act oneFetch (.chunk [1]) .lost 2 2,
    .act oneFetch (.chunk [2]) .arrives 3 3, .act oneFetch .finish .arrives 4 4]

/-- A partial body is stored where a chunk is lost. -/
theorem inspection_partial : ¬ ∀ (limits : BodyLimits) (captures : RequestKey → ℕ)
    (events : List InspectionEvent) (state : Inspection),
    (machine limits captures).Reaches events state → state.Faithful limits := by
  intro claimed
  have ran : ((machine smallBodyLimits fun _ => 10).run lostChunk).map
      (fun state => (state.accumulator.stored, state.body oneFetch)) =
        some ([(oneFetch, [2])], [1, 2]) := by
    decide +kernel
  obtain ⟨state, reached, both⟩ := Machine.exists_of_run ran
  rw [Prod.mk.injEq] at both
  have faithful := claimed smallBodyLimits (fun _ => 10) lostChunk state
    reached
  have listed : (oneFetch, [2]) ∈ state.accumulator.stored := by
    rw [both.1]
    exact List.mem_singleton.mpr rfl
  have whole := (faithful.stored oneFetch [2] listed).2
  rw [both.2] at whole
  exact absurd whole (by decide)

end Inspection

end Holonomy.Inspector
