import Holonomy.Service.MutationBooks

/-!
# Steps of the mutations

An event is orderly when the history with a response is written, a response is finite JSON, the
digests tell the calls from the runs that are kept, and only a coordinator with a file is
restarted. Orderly events keep the books.
-/

namespace Holonomy.Service

open Foundation Network

variable {numbers : NumberFormat}

namespace Coordinator

def tellsApart (coordinator : Coordinator numbers) (call : MutationCall numbers)
    (readings : Readings) : Bool :=
  match requested call readings with
  | .error _ => true
  | .ok run => coordinator.runs.all fun earlier =>
      earlier.expiresAt ≤ readings.check || earlier.recordKey ≠ run.recordKey ||
        (earlier.scope = run.scope && earlier.key = run.key &&
          (earlier.fingerprint ≠ run.fingerprint || JsonValue.canonicalJson numbers run.input.1 =
              JsonValue.canonicalJson numbers earlier.input.1))

def isOrderly (durable : Bool) (coordinator : Coordinator numbers) : MutationEvent numbers → Bool
  | .turn readings =>
    match coordinator.waiting with
    | call :: _ => durable && !coordinator.loaded || coordinator.tellsApart call readings
    | [] => true
  | .reads _ readings =>
    match coordinator.stage with
    | .loading call => coordinator.tellsApart call readings
    | _ => true
  | .written (.failed _) =>
    match coordinator.stage with
    | .succeeding _ _ => false
    | _ => true
  | .works (.resolves none) => false
  | .restart _ => durable || coordinator.runs.all fun run => run.expiresAt ≤ coordinator.clock
  | _ => true

variable {durable : Bool} {coordinator next : Coordinator numbers}
  {call : MutationCall numbers} {readings : Readings} {run : Run numbers}

section Requests

theorem requested_ok (accepted : requested call readings = .ok run) :
    call = run.call ∧ run.checked = readings.check ∧
      run.expiresAt = readings.start + retentionMs ∧ run.outcome = none ∧
      requireString (some (.string run.scope)) "Mutation scope" 256 = .ok run.scope ∧
      requireString (some (.string run.key)) "Idempotency key" 200 = .ok run.key ∧
      run.recordKey = recordKeyOf numbers run.scope run.key ∧
      run.fingerprint = fingerprintJson numbers run.input.1 := by
  unfold requested at accepted
  cases scope : requireString call.scope "Mutation scope" 256 with
  | error failure =>
    rw [scope] at accepted
    cases accepted
  | ok scope' =>
    cases key : requireString call.key "Idempotency key" 200 with
    | error failure =>
      rw [scope, key] at accepted
      cases accepted
    | ok key' =>
      cases input : call.input with
      | none =>
        rw [scope, key, input] at accepted
        cases accepted
      | some given =>
        rw [scope, key, input] at accepted
        cases accepted
        have scopeIs := requireString_value scope
        have keyIs := requireString_value key
        refine ⟨?_, rfl, rfl, rfl, requireString_again scope, requireString_again key, rfl, rfl⟩
        cases call
        simp only at scopeIs keyIs input
        rw [Run.call, scopeIs, keyIs, input]

theorem requested_error {failure : Failure} (refused : requested call readings = .error failure)
    (scope : call.scope = some (.string run.scope)) (key : call.key = some (.string run.key))
    (scopeValid : requireString (some (.string run.scope)) "Mutation scope" 256 = .ok run.scope)
    (keyValid : requireString (some (.string run.key)) "Idempotency key" 200 = .ok run.key) :
    call.input = none := by
  unfold requested at refused
  rw [scope, key, scopeValid, keyValid] at refused
  cases input : call.input with
  | none => rfl
  | some given =>
    rw [input] at refused
    cases refused

end Requests

section Examining

/-- The history was read in the turn of a call, and holds what it should. -/
structure Ready (durable : Bool) (coordinator : Coordinator numbers) (readings : Readings) :
    Prop where
  table : ∃ members, coordinator.records = .object members ∧ Owned coordinator.runs members
  sound : ∀ run ∈ coordinator.runs, run.Sound readings.check
  apart : coordinator.runs.Pairwise fun earlier later =>
    earlier.recordKey = later.recordKey → earlier.expiresAt ≤ later.checked
  told : ∀ run ∈ coordinator.runs, readings.check < run.expiresAt →
    Held coordinator.records run
  filed : Filed durable coordinator.runs coordinator.file readings.check
  loaded : coordinator.loaded = true
  judged : ∀ entry ∈ coordinator.answers, Judged coordinator.runs entry
  clock : coordinator.clock = readings.start
  pruned : readings.check ≤ readings.prune
  started : readings.prune ≤ readings.start
  timely : readings.start ≤ maxTime

theorem Ready.existing (ready : coordinator.Ready durable readings) {earlier : Run numbers}
    (listed : earlier ∈ coordinator.runs) (early : readings.check < earlier.expiresAt)
    (checked : run.checked = readings.check) (same : earlier.recordKey = run.recordKey) :
    ∃ record, coordinator.existing run = some record ∧ Tells record earlier := by
  obtain ⟨record, found, tells⟩ := ready.told earlier listed early
  refine ⟨record, ?_, tells⟩
  unfold Coordinator.existing
  rw [← same, found]
  exact (Option.filter_eq_some_iff ..).mpr ⟨rfl, tells.unexpired (checked ▸ early)⟩

theorem tellsApart_of {earlier : Run numbers} (apart : coordinator.tellsApart call readings = true)
    (accepted : requested call readings = .ok run) (listed : earlier ∈ coordinator.runs)
    (early : readings.check < earlier.expiresAt) (same : earlier.recordKey = run.recordKey) :
    earlier.scope = run.scope ∧ earlier.key = run.key ∧
      (earlier.fingerprint = run.fingerprint → sameInput run.input earlier.input) := by
  unfold tellsApart at apart
  simp only [accepted] at apart
  have each := List.all_eq_true.mp apart earlier listed
  have unexpired : ¬ earlier.expiresAt ≤ readings.check := by omega
  simp only [same, Bool.or_eq_true, decide_eq_true_eq, unexpired, ne_eq, not_true_eq_false,
    false_or, Bool.and_eq_true, or_self] at each
  obtain ⟨⟨scope, key⟩, either⟩ := each
  refine ⟨scope, key, fun prints => ?_⟩
  rcases either with differs | texts
  · exact absurd prints differs
  · exact (JsonValue.canonicalJson_eq_iff run.input.2 earlier.input.2).mp texts

theorem Ready.answers (ready : coordinator.Ready durable readings)
    (apart : coordinator.tellsApart call readings = true)
    (accepted : requested call readings = .ok run) {record : JsonValue}
    (found : coordinator.existing run = some record) :
    Judged coordinator.runs
      ⟨call, readings.check, coordinator.runs.length, none, answerOf record run.fingerprint⟩ := by
  obtain ⟨callIs, checked, -, -, -, -, keyOf, printOf⟩ := requested_ok accepted
  constructor
  · exact le_refl _
  · intro id own
    cases own
  · intro _ id earlier here _ scope key early
    have listed := List.mem_of_getElem? here
    have sound := ready.sound earlier listed
    rw [callIs] at scope key
    have same := sound.recordKey_eq keyOf scope key
    obtain ⟨other, otherFound, tells⟩ := ready.existing listed early checked same
    rw [found] at otherFound
    cases otherFound
    have input : call.input = some run.input := by rw [callIs, Run.call]
    refine .inr (.inr ⟨run.input, input, ?_⟩)
    unfold answerOf
    rw [tells.prints]
    by_cases prints : earlier.fingerprint = run.fingerprint
    · left
      refine ⟨(tellsApart_of apart accepted listed early same).2.2 prints, ?_⟩
      rw [if_neg (fun differs => differs (congrArg some prints))]
      rcases tells.ends with pending | ⟨state, response, known, member⟩ | ⟨state, error,
        known, told⟩
      · rw [if_pos pending]
        exact .inl rfl
      · rw [state, if_neg (by decide), if_neg (by decide)]
        simp only [member]
        refine .inr (.inl ⟨response, known, ?_⟩)
        rw [cloneJson, cloneJson, normalizeJson_normalizeJson]
      · rw [state, if_neg (by decide), if_pos rfl]
        exact .inr (.inr ⟨error, known, congrArg Answer.failure told⟩)
    · right
      constructor
      · intro sameIn
        have equal := fingerprint_of_sameInput sameIn
        rw [← printOf, ← sound.fingerprint] at equal
        exact prints equal.symm
      · rw [if_pos fun equal => prints (Option.some.inj equal)]
  · intro response answered
    unfold answerOf at answered
    split at answered
    · cases answered
    · next matching =>
      split at answered
      · cases answered
      · next notPending =>
        split at answered
        · cases answered
        · next notFailed =>
          obtain ⟨members, tableIs, owned⟩ := ready.table
          obtain ⟨member, fresh⟩ := Option.filter_eq_some_iff.mp found
          rw [tableIs] at member
          rcases owned.found member with pending | ⟨earlier, listed, same, tells⟩
          · exact absurd pending notPending
          · have early : readings.check < earlier.expiresAt := by
              unfold unexpired numberAt at fresh
              rw [tells.expires] at fresh
              simp only [decide_eq_true_eq, Nat.cast_lt] at fresh
              omega
            have prints : earlier.fingerprint = run.fingerprint := by
              rw [tells.prints] at matching
              exact Option.some.inj (not_not.mp matching)
            obtain ⟨scope, key, inputs⟩ := tellsApart_of apart accepted listed early same
            rcases tells.ends with pending | ⟨-, resolved, known, has⟩ | ⟨failed, -⟩
            · exact absurd pending notPending
            · rw [has] at answered
              simp only at answered
              cases answered
              refine ⟨earlier, listed, ?_, ?_, ⟨run.input, ?_, inputs prints⟩, resolved, known, ?_⟩
              · rw [callIs, Run.call, scope]
              · rw [callIs, Run.call, key]
              · rw [callIs, Run.call]
              · simp only [cloneJson, normalizeJson_normalizeJson]
            · exact absurd failed notFailed

theorem maxTime_retained : maxTime + retentionMs ≤ maxSafeInteger := by decide

/-- A call whose history was read keeps the books. -/
theorem Ready.examine (ready : coordinator.Ready durable readings)
    (calm : ∀ other : Coordinator numbers, other.stage = coordinator.stage →
      other.Staged durable) (apart : coordinator.tellsApart call readings = true) :
    (coordinator.examine call readings).Kept durable := by
  have passed : readings.check ≤ coordinator.clock := by
    rw [ready.clock]
    exact ready.pruned.trans ready.started
  have kept : coordinator.Kept durable := {
    table := ready.table
    sound := fun run listed => (ready.sound run listed).later passed
    apart := ready.apart
    told := fun _ run listed early => ready.told run listed (lt_of_le_of_lt passed early)
    filed := ready.filed.later passed
    memory := fun _ => .inl ready.loaded
    staged := calm coordinator rfl
    judged := ready.judged }
  unfold Coordinator.examine
  cases accepted : requested call readings with
  | error failure =>
    refine kept.respond ⟨le_refl _, (by rintro id ⟨⟩), ?_, (by rintro response ⟨⟩)⟩
    intro _ id run here _ scope key _
    have sound := ready.sound run (List.mem_of_getElem? here)
    exact .inr (.inl ⟨requested_error accepted scope key sound.scopeValid sound.keyValid,
      failure, rfl⟩)
  | ok run =>
    simp only
    cases found : coordinator.existing run with
    | some record => exact kept.respond (ready.answers apart accepted found)
    | none =>
      obtain ⟨callIs, checked, expires, unknown, scopeValid, keyValid, keyOf, printOf⟩ :=
        requested_ok accepted
      have absent : ∀ earlier ∈ coordinator.runs, earlier.recordKey = run.recordKey →
          earlier.expiresAt ≤ readings.check := by
        intro earlier listed same
        by_contra early
        obtain ⟨record, isThere, -⟩ := ready.existing listed (by omega) checked same
        rw [found] at isThere
        cases isThere
      obtain ⟨members, tableIs, owned⟩ := ready.table
      have prunedIs : prune readings.prune coordinator.records =
          .object (members.filter fun member => retained readings.prune member.2) := by
        rw [tableIs]
        rfl
      have prunedOwned : Owned coordinator.runs
          (members.filter fun member => retained readings.prune member.2) :=
        owned.prune (by rw [← tableIs]; exact prunedIs)
      have prunedHeld : ∀ earlier ∈ coordinator.runs, coordinator.clock < earlier.expiresAt →
          Held (prune readings.prune coordinator.records) earlier := by
        intro earlier listed early
        obtain ⟨record, isThere, tells⟩ := kept.told ready.loaded earlier listed early
        have sound := ready.sound earlier listed
        have unpruned : readings.prune < earlier.expiresAt := by
          have started := ready.started
          have clock := ready.clock
          omega
        exact ⟨record, memberOf_prune isThere (tells.retained unpruned sound.exact_), tells⟩
      simp only
      split
      · have left : ({ coordinator with records := prune readings.prune coordinator.records } :
            Coordinator numbers).Kept durable :=
          { kept with
            table := ⟨_, prunedIs, prunedOwned⟩
            told := fun _ => prunedHeld
            staged := calm _ rfl }
        refine left.respond ⟨le_refl _, (by rintro id ⟨⟩), ?_, (by rintro response ⟨⟩)⟩
        intro _ id earlier here _ scope key early
        have sound := ready.sound earlier (List.mem_of_getElem? here)
        have same : earlier.recordKey = run.recordKey := by
          rw [callIs] at scope key
          exact sound.recordKey_eq keyOf scope key
        have over' := absent earlier (List.mem_of_getElem? here) same
        change readings.check < earlier.expiresAt at early
        omega
      · have tells : Tells (pendingRecord run.expiresAt run.fingerprint run.scope) run :=
          .of_pending rfl
        have object : ∃ after, withMember (prune readings.prune coordinator.records) run.recordKey
            (pendingRecord run.expiresAt run.fingerprint run.scope) = .object after :=
          isObject_withMember ⟨_, prunedIs⟩
        have sets : ∀ wanted, memberOf (withMember (prune readings.prune coordinator.records)
            run.recordKey (pendingRecord run.expiresAt run.fingerprint run.scope)) wanted =
              if wanted = run.recordKey then
                some (pendingRecord run.expiresAt run.fingerprint run.scope)
              else memberOf (prune readings.prune coordinator.records) wanted :=
          fun wanted => memberOf_set ⟨_, prunedIs⟩
        obtain ⟨after, made⟩ := object
        have pending : textAt (pendingRecord run.expiresAt run.fingerprint run.scope)
            (js "state") = some (js "pending") := rfl
        have ownedAfter : Owned coordinator.runs after :=
          prunedOwned.set (.inl pending) (prunedIs ▸ made)
        have bounded := maxTime_retained
        have timely := ready.timely
        have clock := ready.clock
        have sound : run.Sound coordinator.clock := {
          scopeValid := scopeValid
          keyValid := keyValid
          checked := by omega
          retained := by omega
          exact_ := by omega
          recordKey := keyOf
          fingerprint := printOf }
        have early : coordinator.clock < run.expiresAt := by
          have positive : 0 < retentionMs := by decide
          omega
        have own : Held (withMember (prune readings.prune coordinator.records) run.recordKey
            (pendingRecord run.expiresAt run.fingerprint run.scope)) run := by
          refine ⟨_, ?_, tells⟩
          rw [sets, if_pos rfl]
        refine { kept with table := ⟨after, made, ownedAfter⟩, told := ?_, staged := ?_ }
        · intro _ earlier listed unexpired
          obtain ⟨record, isThere, told⟩ := prunedHeld earlier listed unexpired
          refine ⟨record, ?_, told⟩
          have differs : earlier.recordKey ≠ run.recordKey := by
            intro same
            have over' := absent earlier listed same
            change coordinator.clock < earlier.expiresAt at unexpired
            omega
          change memberOf (withMember (prune readings.prune coordinator.records) run.recordKey
            (pendingRecord run.expiresAt run.fingerprint run.scope)) earlier.recordKey = _
          rw [sets, if_neg differs]
          exact isThere
        · refine ⟨ready.loaded, sound, unknown, early, own, fun earlier listed same => ?_⟩
          rw [checked]
          exact absent earlier listed same

end Examining

section Turns

theorem Kept.tick (kept : coordinator.Kept durable) {time : ℕ} (passed : coordinator.clock ≤ time)
    (stage : MutationStage numbers) (unstaged : ∀ clocked : Coordinator numbers,
      clocked.stage = stage → clocked.Staged durable) (waiting : List (MutationCall numbers)) :
    ({ coordinator with clock := time, stage := stage, waiting := waiting }).Kept durable where
  table := kept.table
  sound run listed := (kept.sound run listed).later passed
  apart := kept.apart
  told loaded run listed early := kept.told loaded run listed (lt_of_le_of_lt passed early)
  filed := kept.filed.later passed
  memory fileless := (kept.memory fileless).imp_right fun expired run listed =>
    (expired run listed).trans passed
  staged := unstaged _ rfl
  judged := kept.judged

theorem follow_iff {clock : ℕ} (follows : readings.follow clock = true) :
    clock ≤ readings.load ∧ readings.load ≤ readings.check ∧ readings.check ≤ readings.prune ∧
      readings.prune ≤ readings.start ∧ readings.start ≤ maxTime := by
  unfold Readings.follow at follows
  simp only [Bool.and_eq_true, decide_eq_true_eq] at follows
  obtain ⟨⟨⟨⟨first, second⟩, third⟩, fourth⟩, fifth⟩ := follows
  exact ⟨first, second, third, fourth, fifth⟩

section

variable (kept : coordinator.Kept durable)

include kept

/-- The turn of a call keeps the books. -/
theorem Kept.turn
    (orderly : coordinator.isOrderly durable (.turn readings) = true)
    (stepped : coordinator.turn durable readings = some next) : next.Kept durable := by
  unfold Coordinator.turn at stepped
  cases stage : coordinator.stage with
  | idle =>
    cases waiting : coordinator.waiting with
    | nil =>
      rw [stage, waiting] at stepped
      cases stepped
    | cons call rest =>
      simp only [stage, waiting] at stepped
      simp only [isOrderly, waiting] at orderly
      split at stepped
      · next follows =>
        obtain ⟨load, check, pruned, started, timely⟩ := follow_iff follows
        have passed : coordinator.clock ≤ readings.check := load.trans check
        split at stepped
        · next loaded =>
          cases stepped
          rw [loaded] at orderly
          simp only [Bool.not_true, Bool.and_false, Bool.false_or] at orderly
          refine Ready.examine ⟨kept.table, fun run listed => (kept.sound run listed).later passed,
            kept.apart, fun run listed early => kept.told loaded run listed
              (lt_of_le_of_lt passed early), kept.filed.later passed, loaded, kept.judged, rfl,
            pruned, started, timely⟩ ?_ orderly
          intro other isIdle
          unfold Staged
          rw [isIdle]
          trivial
        · next unloaded =>
          have notLoaded : coordinator.loaded = false := by
            cases loaded : coordinator.loaded with
            | true => exact absurd loaded unloaded
            | false => rfl
          split at stepped
          · next hasFile =>
            cases stepped
            refine kept.tick (passed.trans (pruned.trans started)) (.loading call) ?_ rest
            intro clocked isLoading
            unfold Staged
            rw [isLoading]
            exact hasFile
          · next fileless =>
            cases stepped
            have memoryOnly : durable = false := by
              cases durable with
              | true => exact absurd rfl fileless
              | false => rfl
            rw [memoryOnly, Bool.false_and, Bool.false_or] at orderly
            have expired : ∀ run ∈ coordinator.runs, run.expiresAt ≤ coordinator.clock := by
              rcases kept.memory memoryOnly with loaded | expired
              · rw [notLoaded] at loaded
                cases loaded
              · exact expired
            refine Ready.examine ⟨kept.table,
              fun run listed => (kept.sound run listed).later passed, kept.apart, ?_,
              kept.filed.later passed, rfl, kept.judged, rfl, pruned, started, timely⟩ ?_ orderly
            · intro run listed early
              have over' := expired run listed
              omega
            · intro other isIdle
              unfold Staged
              rw [isIdle]
              trivial
      · cases stepped
  | _ =>
    rw [stage] at stepped
    cases stepped

theorem Kept.loads (hasFile : durable = true) {now : ℕ}
    (passed : coordinator.clock ≤ now) {records : JsonValue}
    (loaded : loadRecords now coordinator.file = .ok records) :
    (∃ members, records = .object members ∧ Owned coordinator.runs members) ∧
      ∀ run ∈ coordinator.runs, now < run.expiresAt → Held records run := by
  rcases kept.filed with ⟨empty, expired⟩ | ⟨members, written, owned, held⟩
  · rw [empty] at loaded
    cases loaded
    refine ⟨⟨[], rfl, fun _ listed => absurd listed List.not_mem_nil⟩, fun run listed early => ?_⟩
    have over' := expired hasFile run listed
    omega
  · rw [written] at loaded
    have same := loadRecords_persisted ⟨members, rfl⟩ loaded
    have normal : ∃ after, normalizeJson (.object members) = .object after := ⟨_, rfl⟩
    obtain ⟨after, normalIs⟩ := normal
    have pruned : ∃ last, prune now (.object after) = .object last := ⟨_, rfl⟩
    obtain ⟨last, prunedIs⟩ := pruned
    constructor
    · refine ⟨last, ?_, (owned.normal normalIs).prune prunedIs⟩
      rw [same, normalIs, prunedIs]
    · intro run listed early
      have sound := kept.sound run listed
      obtain ⟨record, isThere, tells⟩ := held hasFile run listed (lt_of_le_of_lt passed early)
      refine ⟨normalizeJson record, ?_, tells.normal⟩
      rw [same]
      refine memberOf_prune ?_ (tells.normal.retained early sound.exact_)
      have plain : run.recordKey ≠ protoKey := by
        rw [sound.recordKey]
        exact recordKey_plain run.scope run.key
      rw [memberOf_normalizeJson _ plain, isThere]
      rfl

/-- The reading of the file keeps the books. -/
theorem Kept.reads {readable : Bool}
    (orderly : coordinator.isOrderly durable (.reads readable readings) = true)
    (stepped : coordinator.reads readable readings = some next) : next.Kept durable := by
  unfold Coordinator.reads at stepped
  cases stage : coordinator.stage with
  | loading call =>
    simp only [stage] at stepped
    simp only [isOrderly, stage] at orderly
    split at stepped
    · next follows =>
      obtain ⟨load, check, pruned, started, timely⟩ := follow_iff follows
      have passed : coordinator.clock ≤ readings.start :=
        load.trans (check.trans (pruned.trans started))
      have hasFile : durable = true := by
        have staged := kept.staged
        unfold Staged at staged
        rw [stage] at staged
        exact staged
      have calm : ∀ other : Coordinator numbers, other.stage = coordinator.stage →
          other.Staged durable := by
        intro other isLoading
        unfold Staged
        rw [isLoading, stage]
        exact hasFile
      have ticked : ({ coordinator with clock := readings.start } : Coordinator numbers).Kept
          durable := kept.tick passed coordinator.stage calm coordinator.waiting
      have unread : Judged coordinator.runs
          ⟨call, readings.check, coordinator.runs.length, none, .unread⟩ :=
        ⟨le_refl _, (by rintro id ⟨⟩), fun _ _ _ _ _ _ _ _ => .inl rfl, (by rintro response ⟨⟩)⟩
      split at stepped
      · cases loading : loadRecords readings.load coordinator.file with
        | error failure =>
          simp only [loading] at stepped
          cases stepped
          exact ticked.respond unread
        | ok records =>
          simp only [loading] at stepped
          cases stepped
          obtain ⟨table, held⟩ := kept.loads hasFile load loading
          exact Ready.examine ⟨table, fun run listed =>
            (kept.sound run listed).later (load.trans check), kept.apart,
            fun run listed early => held run listed (lt_of_le_of_lt check early),
            kept.filed.later (load.trans check), rfl, kept.judged, rfl, pruned, started, timely⟩
            (fun other isLoading => calm other (isLoading.trans stage.symm)) orderly
      · cases stepped
        exact ticked.respond unread
    · cases stepped
  | _ =>
    rw [stage] at stepped
    cases stepped

end

end Turns

section Writing

variable {file : Option JsonValue}

theorem persist_some {outcome : WriteOutcome} {error : Option ThrownError}
    (written : coordinator.persist durable outcome = some (error, file)) :
    (file = coordinator.file ∨ file = coordinator.persisted) ∧
      (error = none → durable = true → file = coordinator.persisted) ∧
      (error = none → outcome = .done) := by
  unfold persist at written
  cases outcome with
  | done =>
    simp only at written
    split at written
    · next fileless =>
      cases written
      refine ⟨.inl rfl, fun _ hasFile => ?_, fun _ => rfl⟩
      rw [hasFile] at fileless
      cases fileless
    · split at written
      · cases written
        exact ⟨.inr rfl, fun _ _ => rfl, fun _ => rfl⟩
      · cases written
  | failed landed =>
    simp only at written
    split at written
    · cases written
    · split at written
      · cases written
        refine ⟨?_, (by rintro ⟨⟩), (by rintro ⟨⟩)⟩
        split
        · exact .inr rfl
        · exact .inl rfl
      · split at written
        · cases written
        · cases written
          exact ⟨.inl rfl, (by rintro ⟨⟩), (by rintro ⟨⟩)⟩

section

variable (kept : coordinator.Kept durable)

include kept

theorem Kept.filed_persisted (loaded : coordinator.loaded = true) :
    Filed durable coordinator.runs coordinator.persisted coordinator.clock := by
  obtain ⟨members, tableIs, owned⟩ := kept.table
  refine .inr ⟨members, ?_, owned, fun _ run listed early => ?_⟩
  · rw [persisted, tableIs]
  · rw [← tableIs]
    exact kept.told loaded run listed early

theorem Kept.refile (loaded : coordinator.loaded = true)
    (same : file = coordinator.file ∨ file = coordinator.persisted) :
    ({ coordinator with file := file }).Kept durable := by
  have filed : Filed durable coordinator.runs file coordinator.clock := by
    rcases same with rfl | rfl
    · exact kept.filed
    · exact kept.filed_persisted loaded
  exact { kept with filed := filed }

theorem Kept.begins (stage : coordinator.stage = .opening run)
    (same : file = coordinator.file ∨ file = coordinator.persisted)
    (written : durable = true → file = coordinator.persisted) :
    ({ coordinator with
      file := file, runs := coordinator.runs ++ [run]
      stage := .working coordinator.runs.length }).Kept durable := by
  have staged := kept.staged
  unfold Staged at staged
  rw [stage] at staged
  obtain ⟨loaded, sound, unknown, early, held, absent⟩ := staged
  obtain ⟨members, tableIs, owned⟩ := kept.table
  have cases_in : ∀ other ∈ coordinator.runs ++ [run],
      other ∈ coordinator.runs ∨ other = run := by
    intro other listed
    rcases List.mem_append.mp listed with before | now
    · exact .inl before
    · exact .inr (List.mem_singleton.mp now)
  constructor
  · exact ⟨members, tableIs, owned.append run⟩
  · intro other listed
    rcases cases_in other listed with before | rfl
    · exact kept.sound other before
    · exact sound
  · exact pairwise_concat kept.apart fun earlier listed key => absent earlier listed key
  · intro _ other listed unexpired
    rcases cases_in other listed with before | rfl
    · exact kept.told loaded other before unexpired
    · exact held
  · have filed : Filed durable coordinator.runs file coordinator.clock := by
      rcases same with rfl | rfl
      · exact kept.filed
      · exact kept.filed_persisted loaded
    cases durable with
    | true =>
      rw [written rfl, persisted, tableIs]
      refine .inr ⟨members, rfl, owned.append run, fun _ other listed unexpired => ?_⟩
      rw [← tableIs]
      rcases cases_in other listed with before | rfl
      · exact kept.told loaded other before unexpired
      · exact held
    | false =>
      rcases filed with ⟨empty, -⟩ | ⟨written', isWritten, ownedFile, -⟩
      · exact .inl ⟨empty, (by rintro ⟨⟩)⟩
      · exact .inr ⟨written', isWritten, ownedFile.append run, (by rintro ⟨⟩)⟩
  · exact fun _ => .inl loaded
  · exact ⟨loaded, run, List.getElem?_concat_length, unknown, early⟩
  · exact fun entry listed => (kept.judged entry listed).append run

theorem Kept.unbegun (stage : coordinator.stage = .opening run) (error : ThrownError) :
    Judged coordinator.runs
      ⟨run.call, run.checked, coordinator.runs.length, none, .unwritten error⟩ := by
  have staged := kept.staged
  unfold Staged at staged
  rw [stage] at staged
  obtain ⟨-, sound, -, -, -, absent⟩ := staged
  refine ⟨le_refl _, (by rintro id ⟨⟩), ?_, (by rintro response ⟨⟩)⟩
  intro _ id earlier here _ scope key early
  have listed := List.mem_of_getElem? here
  have same := (kept.sound earlier listed).recordKey_eq sound.recordKey scope key
  have over' := absent earlier listed same
  change run.checked < earlier.expiresAt at early
  omega

end

theorem judged_own {runs : List (Run numbers)} {id : ℕ} (here : runs[id]? = some run)
    {answer : Answer} (ends : run.Ends answer) :
    Judged runs ⟨run.call, run.checked, runs.length, some id, answer⟩ := by
  refine ⟨le_refl _, ?_, (by rintro ⟨⟩), ?_⟩
  · intro other own
    cases own
    exact ⟨run, here, rfl, ends⟩
  · intro response answered
    change answer = .response response at answered
    rcases ends with ⟨resolved, known, same⟩ | ⟨error, known, same | ⟨failure, same⟩⟩
    · rw [answered] at same
      cases same
      exact ⟨run, List.mem_of_getElem? here, rfl, rfl, ⟨run.input, rfl, .refl _⟩, response, known,
        rfl⟩
    · rw [answered] at same
      cases same
    · rw [answered] at same
      cases same

/-- The end of a writing keeps the books, unless it fails for a response. -/
theorem Kept.written (kept : coordinator.Kept durable) {outcome : WriteOutcome}
    (orderly : coordinator.isOrderly durable (.written outcome) = true)
    (stepped : coordinator.written durable outcome = some next) : next.Kept durable := by
  unfold Coordinator.written at stepped
  cases persisting : coordinator.persist durable outcome with
  | none =>
    rw [persisting] at stepped
    cases stepped
  | some result =>
    obtain ⟨error, file⟩ := result
    obtain ⟨same, wrote, done⟩ := persist_some persisting
    simp only [persisting] at stepped
    have staged := kept.staged
    unfold Staged at staged
    cases stage : coordinator.stage with
    | opening run =>
      rw [stage] at staged
      cases error with
      | none =>
        simp only [stage] at stepped
        cases stepped
        exact kept.begins stage same (wrote rfl)
      | some error =>
        simp only [stage] at stepped
        cases stepped
        exact (kept.refile staged.1 same).respond (kept.unbegun stage error)
    | succeeding id response =>
      rw [stage] at staged
      obtain ⟨loaded, run, here, known⟩ := staged
      cases error with
      | none =>
        simp only [stage, here] at stepped
        cases stepped
        exact (kept.refile loaded same).respond (judged_own here (.inl ⟨response, known, rfl⟩))
      | some error =>
        cases outcome with
        | done =>
          unfold persist at persisting
          simp only at persisting
          split at persisting
          · cases persisting
          · split at persisting
            · cases persisting
            · cases persisting
        | failed landed =>
          simp only [isOrderly, stage] at orderly
          cases orderly
    | failing id thrown =>
      rw [stage] at staged
      obtain ⟨loaded, run, here, known⟩ := staged
      cases error with
      | none =>
        simp only [stage, here] at stepped
        cases stepped
        exact (kept.refile loaded same).respond
          (judged_own here (.inr ⟨thrown, known, .inl rfl⟩))
      | some error =>
        simp only [stage, here] at stepped
        cases stepped
        exact (kept.refile loaded same).respond
          (judged_own here (.inr ⟨thrown, known, .inr ⟨error, rfl⟩⟩))
    | _ =>
      simp only [stage] at stepped
      cases stepped

theorem Kept.restart (kept : coordinator.Kept durable) {landed : Bool}
    (orderly : coordinator.isOrderly durable (.restart landed) = true) :
    (coordinator.restart durable landed).Kept durable := by
  have empty : ∃ members, (coordinator.restart durable landed).records = .object members ∧
      Owned coordinator.runs members := ⟨[], rfl, fun _ listed => absurd listed List.not_mem_nil⟩
  have filed : Filed durable coordinator.runs (coordinator.restart durable landed).file
      coordinator.clock := by
    unfold Coordinator.restart
    simp only
    split
    · next writing =>
      simp only [Bool.and_eq_true] at writing
      refine kept.filed_persisted ?_
      have staged := kept.staged
      have writes := writing.1.1.2
      unfold isWriting at writes
      unfold Staged at staged
      cases stage : coordinator.stage with
      | opening run =>
        rw [stage] at staged
        exact staged.1
      | succeeding id response =>
        rw [stage] at staged
        exact staged.1
      | failing id error =>
        rw [stage] at staged
        exact staged.1
      | _ =>
        rw [stage] at writes
        cases writes
    · exact kept.filed
  exact {
    table := empty
    sound := kept.sound
    apart := kept.apart
    told := fun loaded => absurd loaded Bool.false_ne_true
    filed := filed
    memory := by
      intro fileless
      simp only [isOrderly, fileless, Bool.false_or] at orderly
      exact .inr fun run listed => of_decide_eq_true (List.all_eq_true.mp orderly run listed)
    staged := trivial
    judged := kept.judged }

end Writing

section Working

theorem Kept.ends (kept : coordinator.Kept durable) {id : ℕ}
    (stage : coordinator.stage = .working id)
    (here : coordinator.runs[id]? = some run) (outcome : WorkOutcome)
    {changed : JsonValue → JsonValue} (after : MutationStage numbers)
    (tells : ∀ record, Tells record { run with outcome := some outcome } →
      Tells (changed record) { run with outcome := some outcome })
    (staged : ∀ other : Coordinator numbers, other.stage = after → other.loaded = true →
      other.runs[id]? = some { run with outcome := some outcome } → other.Staged durable) :
    ({ (coordinator.note id outcome).assign run.recordKey changed with stage := after }).Kept
      durable := by
  have begun := kept.staged
  unfold Staged at begun
  rw [stage] at begun
  obtain ⟨loaded, found, there, unknown, early⟩ := begun
  rw [here] at there
  cases there
  obtain ⟨members, tableIs, owned⟩ := kept.table
  obtain ⟨record, isThere, told⟩ :=
    kept.told loaded run (List.mem_of_getElem? here) early
  have made : ((coordinator.note id outcome).assign run.recordKey changed).records =
      withMember coordinator.records run.recordKey (changed record) := by
    unfold assign note
    simp only [isThere, Option.getD_some]
  have tellsAfter := tells record (told.noted unknown (some outcome))
  have runs : ((coordinator.note id outcome).assign run.recordKey changed).runs =
      coordinator.runs.modify id fun run => { run with outcome := some outcome } := rfl
  have hereAfter : (coordinator.runs.modify id fun run =>
      { run with outcome := some outcome })[id]? = some { run with outcome := some outcome } := by
    rw [List.getElem?_modify_eq, here]
    rfl
  have traced : ∀ other ∈ coordinator.runs.modify id fun run =>
      { run with outcome := some outcome }, other = { run with outcome := some outcome } ∨
        ∃ place : ℕ, place ≠ id ∧ coordinator.runs[place]? = some other := by
    intro other listed
    obtain ⟨place, isAt⟩ := List.mem_iff_getElem?.mp listed
    by_cases same : id = place
    · subst same
      rw [hereAfter] at isAt
      exact .inl (Option.some.inj isAt).symm
    · rw [List.getElem?_modify_ne _ _ same] at isAt
      exact .inr ⟨place, fun clash => same clash.symm, isAt⟩
  have fields : ∀ (place : ℕ) (inside : place < coordinator.runs.length)
      (insideToo : place < (coordinator.runs.modify id fun run =>
        { run with outcome := some outcome }).length),
      (coordinator.runs.modify id fun run => { run with outcome := some outcome })[place]
        = { coordinator.runs[place] with
            outcome := (coordinator.runs.modify id fun run =>
              { run with outcome := some outcome })[place].outcome } := by
    intro place inside insideToo
    rw [List.getElem_modify]
    split
    · rfl
    · rfl
  have apartAfter : (coordinator.runs.modify id fun run =>
      { run with outcome := some outcome }).Pairwise fun earlier later =>
        earlier.recordKey = later.recordKey → earlier.expiresAt ≤ later.checked := by
    have apart := List.pairwise_iff_getElem.mp kept.apart
    refine List.pairwise_iff_getElem.mpr fun first second firstIn secondIn less key => ?_
    have inside := firstIn
    have insideToo := secondIn
    rw [List.length_modify] at inside insideToo
    rw [fields first inside firstIn, fields second insideToo secondIn] at key ⊢
    exact apart first second inside insideToo less key
  have object : ∃ last, withMember coordinator.records run.recordKey (changed record) =
      .object last := isObject_withMember ⟨members, tableIs⟩
  obtain ⟨last, lastIs⟩ := object
  constructor
  · refine ⟨last, made.trans lastIs, ?_⟩
    rw [tableIs] at lastIs
    exact (owned.note here unknown outcome).set
      (.inr ⟨_, List.mem_of_getElem? hereAfter, rfl, tellsAfter⟩) lastIs
  · intro other listed
    rcases traced other listed with rfl | ⟨place, -, isAt⟩
    · have sound := kept.sound run (List.mem_of_getElem? here)
      exact { sound with }
    · exact kept.sound other (List.mem_of_getElem? isAt)
  · exact apartAfter
  · intro _ other listed unexpired
    change Held ((coordinator.note id outcome).assign run.recordKey changed).records other
    rw [made]
    rcases traced other listed with rfl | ⟨place, differs, isAt⟩
    · refine ⟨changed record, ?_, tellsAfter⟩
      rw [memberOf_set ⟨members, tableIs⟩, if_pos rfl]
    · obtain ⟨otherRecord, otherThere, otherTold⟩ :=
        kept.told loaded other (List.mem_of_getElem? isAt) unexpired
      refine ⟨otherRecord, ?_, otherTold⟩
      rw [memberOf_set ⟨members, tableIs⟩, if_neg (kept.unlike isAt here differs unexpired early)]
      exact otherThere
  · rcases kept.filed with ⟨empty, expired⟩ | ⟨written, isWritten, ownedFile, held⟩
    · refine .inl ⟨empty, fun hasFile other listed => ?_⟩
      rcases traced other listed with rfl | ⟨place, -, isAt⟩
      · exact expired hasFile run (List.mem_of_getElem? here)
      · exact expired hasFile other (List.mem_of_getElem? isAt)
    · refine .inr ⟨written, isWritten, ownedFile.note here unknown outcome, ?_⟩
      intro hasFile other listed unexpired
      rcases traced other listed with rfl | ⟨place, -, isAt⟩
      · obtain ⟨fileRecord, fileThere, fileTold⟩ :=
          held hasFile run (List.mem_of_getElem? here) unexpired
        exact ⟨fileRecord, fileThere, fileTold.noted unknown (some outcome)⟩
      · exact held hasFile other (List.mem_of_getElem? isAt) unexpired
  · exact fun _ => .inl loaded
  · exact staged _ rfl loaded hereAfter
  · exact fun entry listed => (kept.judged entry listed).note here unknown outcome

/-- The end of the work keeps the books if a response is finite JSON. -/
theorem Kept.works (kept : coordinator.Kept durable) {result : WorkResult}
    (orderly : coordinator.isOrderly durable (.works result) = true)
    (stepped : coordinator.works result = some next) : next.Kept durable := by
  unfold Coordinator.works at stepped
  cases stage : coordinator.stage with
  | working id =>
    cases here : coordinator.runs[id]? with
    | none =>
      simp only [stage, here] at stepped
      cases stepped
    | some run =>
      simp only [stage, here] at stepped
      cases result with
      | resolves given =>
        cases given with
        | none => cases orderly
        | some response =>
          cases stepped
          refine kept.ends stage here (.resolved (some response)) (.succeeding id response)
            (fun record tells => tells.succeeds rfl) ?_
          intro other isStage loaded there
          unfold Staged
          rw [isStage]
          exact ⟨loaded, _, there, rfl⟩
      | rejects rejection =>
        cases stepped
        refine kept.ends stage here (.rejected (normalizeServiceError rejection))
          (.failing id (normalizeServiceError rejection))
          (fun record tells => tells.fails rfl) ?_
        intro other isStage loaded there
        unfold Staged
        rw [isStage]
        exact ⟨loaded, _, there, rfl⟩
  | _ =>
    rw [stage] at stepped
    cases stepped

end Working

theorem Kept.step (kept : coordinator.Kept durable) {event : MutationEvent numbers}
    (orderly : coordinator.isOrderly durable event = true)
    (stepped : coordinator.step durable event = some next) : next.Kept durable := by
  cases event with
  | execute call =>
    cases stepped
    exact { kept with }
  | turn readings => exact kept.turn orderly stepped
  | reads readable readings => exact kept.reads orderly stepped
  | written outcome => exact kept.written orderly stepped
  | works result => exact kept.works orderly stepped
  | restart landed =>
    cases stepped
    exact kept.restart orderly

end Coordinator

end Holonomy.Service
