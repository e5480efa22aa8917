import Holonomy.Service.Recovery

/-!
# Runs of the state store

A store that is opened again after any operation was interrupted has the state before or after it.
That is so as long as every transaction leaves the cursor as it is, keeps the floor above the events
that are gone, and leads to a state that fits into the state file whenever its record fits into the
journal.
-/

namespace Holonomy.Service

open Foundation Network

namespace Store

variable (options : StoreOptions)

section Property

def reopen (store : Store) (vanished : List ℕ) : Option JsonValue :=
  (store.step options (.opened vanished)).bind fun opened =>
    if opened.isIdle then opened.memory else (opened.written options .done).bind Store.memory

def HasEvents (store : Store) (state : JsonValue) : Prop :=
  ∀ cursor, floorOf state < cursor → cursor ≤ cursorOf state →
    ∃ value record, (cursor, value) ∈ store.disk.journal ∧ validateJournal value = .ok record ∧
      record.cursor = cursor ∧ store.events[cursor - 1]? = some record.event

def Opens (store : Store) : Prop :=
  ∃ state, (∀ vanished, store.canVanish vanished = true →
      store.reopen options vanished = some state) ∧
    state ∈ store.before :: store.attempts ∧ cursorOf state = store.events.length ∧
    (∀ cursor ∈ store.resolved, cursor ≤ cursorOf state) ∧ store.HasEvents state

structure Recovers (store : Store) : Prop where
  crashes : ∀ landed, (store.crash landed).Opens options
  opens : store.memory = none → store.isIdle = true → store.Opens options
  remembers : ∀ state, store.memory = some state → store.before = state ∧ store.HasEvents state
  /-- Its cursor is the number of committed transactions. -/
  counts : ∀ state, store.isIdle = true → store.ready = some state →
    cursorOf state = store.events.length

def hasRecord (store : Store) (cursor : ℕ) : Bool :=
  (store.disk.journal.any fun file => file.1 = cursor) &&
    store.deletions.all fun deletion => deletion.cursor ≠ cursor

def isCareful (store : Store) (state : JsonValue) (record : JournalRecord) : Bool :=
  cursorOf record.nextState = record.cursor && options.fits record.nextState &&
    (List.range (cursorOf state)).all fun number =>
      number + 1 ≤ floorOf record.nextState || store.hasRecord (number + 1)

/-- The transaction does not write, or it is careful. -/
def allows (store : Store) (call : Call) : Bool :=
  match store.ready with
  | none => true
  | some state => match prepare options state call with
    | .error _ => true
    | .ok work => !options.fitsJournal work.record || store.isCareful options state work.record

def isOrderly (store : Store) : StoreEvent → Bool
  | .transact call => store.allows options call
  | .replaced => store.deletions.isEmpty
  | _ => true

end Property

section Opening

variable {options} {store : Store} {older : List JournalRecord} {ahead : Option JournalRecord}
  {base : JsonValue}

theorem Holds.recover (holds : store.Holds options older ahead base) :
    recover store.disk = .ok (latest ahead base, ahead.isSome || store.disk.stateFile.isNone) := by
  have isBase : validateState (store.disk.stateFile.getD createInitialServiceState)
      = .ok base := by
    cases holds.stateFile with
    | inl written =>
      rw [written]
      exact holds.valid
    | inr absent =>
      have valid := holds.valid
      rw [absent.2] at valid
      rw [absent.1, absent.2]
      change validateState createInitialServiceState = _
      rw [← validateState_normalizeJson]
      exact valid
  have read : readJournalRecords store.disk.journal
      = .ok ((older ++ ahead.toList).map JournalRecord.readBack) := by
    rw [holds.journal]
    exact readJournalRecords_files holds.sound
  have had : ∀ record ∈ older.map JournalRecord.readBack, record.cursor ≤ cursorOf base := by
    intro record recordIn
    obtain ⟨source, sourceIn, rfl⟩ := List.mem_map.mp recordIn
    exact holds.past source sourceIn
  have replayed : replay base false ((older ++ ahead.toList).map JournalRecord.readBack)
      = .ok (latest ahead base, ahead.isSome) := by
    rw [List.map_append, replay_past false had]
    cases ahead with
    | none => rfl
    | some record =>
      have following := (holds.next record (by simp)).1
      change replay base false [record.readBack] = _
      have new : ¬ record.readBack.cursor ≤ cursorOf base := by
        change ¬ record.cursor ≤ cursorOf base
        omega
      have near : ¬ record.readBack.cursor ≠ cursorOf base + 1 := fun gap => gap following
      rw [replay, if_neg new, if_neg near]
      rfl
  rw [Service.recover, isBase]
  simp only [bind, Except.bind]
  rw [read]
  simp only
  rw [replayed]

theorem fits_cloneJson (value : JsonValue) :
    options.fits (cloneJson value) = options.fits value := by
  rw [StoreOptions.fits, StoreOptions.fits, encodedBytes, encodedBytes, canonicalJson,
    canonicalJson, cloneJson, normalizeJson_normalizeJson]

theorem Holds.fits_latest (holds : store.Holds options older ahead base)
    (roomy : options.fits createInitialServiceState = true)
    (writes : (ahead.isSome || store.disk.stateFile.isNone) = true) :
    options.fits (latest ahead base) = true := by
  cases ahead with
  | some record => exact (holds.next record (by simp)).2
  | none =>
    cases holds.stateFile with
    | inl written =>
      rw [written] at writes
      cases writes
    | inr absent =>
      change options.fits base = true
      rw [absent.2, fits_cloneJson]
      exact roomy

theorem Holds.hasEvents (holds : store.Holds options older ahead base) {state : JsonValue}
    (covered : store.Covered (older ++ ahead.toList) (floorOf state) (cursorOf state)) :
    store.HasEvents state := by
  intro cursor above below
  obtain ⟨-, record, recordIn, named⟩ := covered cursor above below
  refine ⟨cloneJson record.toJson, record.readBack, ?_, (holds.sound record recordIn).reads,
    named, ?_⟩
  · rw [holds.journal, ← named]
    exact List.mem_map.mpr ⟨record, recordIn, rfl⟩
  · rw [← named]
    exact holds.evented record recordIn

theorem nothing_vanishes (quiet : store.deletions = []) {vanished : List ℕ}
    (can : store.canVanish vanished = true) : vanished = [] := by
  cases vanished with
  | nil => rfl
  | cons cursor rest =>
    have found := List.all_eq_true.mp can cursor List.mem_cons_self
    rw [quiet] at found
    cases found

theorem Holds.opens (holds : store.Holds options older ahead base)
    (roomy : options.fits createInitialServiceState = true) (closed : store.memory = none)
    (isIdle : store.isIdle = true) (quiet : store.deletions = []) : store.Opens options := by
  have begins : store.step options (.opened []) = some (store.open_ options []) :=
    if_pos ⟨isIdle, rfl⟩
  have closedStore : ¬ store.memory.isSome = true := by simp [closed]
  refine ⟨latest ahead base, ?_, holds.candidate, holds.counted, ?_, holds.hasEvents holds.covered⟩
  · intro vanished can
    rw [nothing_vanishes quiet can, reopen, begins, Option.bind_some, open_, if_neg closedStore,
      if_neg (not_not.mpr rfl), holds.recover]
    cases writes : ahead.isSome || store.disk.stateFile.isNone with
    | false => rfl
    | true =>
      simp only [holds.fits_latest roomy writes]
      rfl
  · intro cursor cursorIn
    rw [holds.counted]
    exact holds.resolved cursor cursorIn

end Opening

section Ending

variable {options} {store : Store} {older : List JournalRecord} {ahead : Option JournalRecord}
  {base : JsonValue}

section

variable (holds : store.Holds options older ahead base)

include holds

theorem Holds.land_opening :
    (store.putState (latest ahead base)).Holds options (older ++ ahead.toList) none
      (latest ahead base) :=
  holds.putState holds.latest_valid rfl holds.candidate holds.covered

theorem Holds.land_journaling {work : Transaction}
    (stage : store.StageHolds options (older ++ ahead.toList) ahead base (.journaling work)) :
    (store.putRecord work.record).Holds options older (some work.record) base := by
  obtain ⟨state, isReady, ⟨absent, same⟩, sound, following, fits, candidate, covered⟩ := stage
  subst absent
  have alone : older ++ (none : Option JournalRecord).toList = older := List.append_nil older
  rw [alone, ← same] at covered
  rw [← same] at following
  exact holds.putRecord sound following fits candidate covered

theorem Holds.land_pruning {pruned : JsonValue} {cursors : List ℕ}
    (stage : store.StageHolds options (older ++ ahead.toList) ahead base
      (.pruning pruned cursors)) :
    (store.putState pruned).Holds options (older ++ ahead.toList) none pruned := by
  obtain ⟨state, isReady, ⟨absent, same⟩, valid, sameCursor, candidate, covered, low⟩ := stage
  apply holds.putState valid
  · rw [sameCursor, ← same, absent]
    rfl
  · exact List.mem_cons_of_mem _ candidate
  · exact covered

end

theorem Kept.land (kept : store.Kept options) :
    ∃ older ahead base, store.land.Holds options older ahead base := by
  obtain ⟨-, older, ahead, base, holds, stage⟩ := kept
  rw [Store.land]
  cases at_ : store.stage with
  | idle => exact ⟨older, ahead, base, holds⟩
  | deleting => exact ⟨older, ahead, base, holds⟩
  | opening state =>
    rw [at_] at stage
    rw [stage.1]
    exact ⟨_, none, _, holds.land_opening⟩
  | journaling work =>
    rw [at_] at stage
    exact ⟨older, some work.record, base, holds.land_journaling stage⟩
  | storing work =>
    rw [at_] at stage
    have same : work.record.nextState = latest ahead base := by
      rw [show ahead = some work.record from stage]
      rfl
    simp only
    rw [same]
    exact ⟨_, none, _, holds.land_opening⟩
  | pruning pruned cursors =>
    rw [at_] at stage
    exact ⟨_, none, pruned, holds.land_pruning stage⟩

theorem Kept.crash (kept : store.Kept options) (landed : Bool) :
    (store.crash landed).Kept options := by
  have holds : ∃ older ahead base,
      (if landed = true then store.land else store).Holds options older ahead base := by
    cases landed with
    | true => exact kept.land
    | false =>
      obtain ⟨-, older, ahead, base, holds, -⟩ := kept
      exact ⟨older, ahead, base, holds⟩
  obtain ⟨older, ahead, base, holds⟩ := holds
  constructor
  · intro deletion deletionIn
    cases deletionIn
  · refine ⟨older, ahead, base, holds.forget [] (by simp), ?_⟩
    intro state isReady
    cases isReady

theorem Kept.replace (kept : store.Kept options) (idle : store.stage = .idle)
    (quiet : store.deletions = []) :
    { store with memory := none, poisoned := false }.Kept options := by
  obtain ⟨-, older, ahead, base, holds, -⟩ := kept
  have owned : ∀ deletion ∈ store.deletions, Owned store.stage none deletion := by
    intro deletion deletionIn
    rw [quiet] at deletionIn
    cases deletionIn
  have forgotten := holds.forget store.deletions fun _ deletionIn => deletionIn
  rw [← idle] at forgotten
  refine ⟨owned, older, ahead, base, forgotten, ?_⟩
  change Store.StageHolds options _ _ _ _ store.stage
  rw [idle]
  intro state isReady
  cases isReady

end Ending

section Steps

variable {options} {store : Store}

variable {state base : JsonValue} {vanished : List ℕ} {older : List JournalRecord}
  {ahead : Option JournalRecord} {next : Store}

theorem memory_of_ready (isReady : store.ready = some state) : store.memory = some state := by
  rw [Store.ready] at isReady
  split at isReady
  · cases isReady
  · exact isReady

section

variable (kept : store.Kept options)

include kept

theorem Kept.unawaited (other : store.stage ≠ .deleting)
    {stage : Stage} : ∀ deletion ∈ store.deletions, Owned stage store.memory deletion :=
  fun deletion deletionIn =>
    ⟨fun awaited => absurd ((kept.1 deletion deletionIn).1 awaited) other,
      (kept.1 deletion deletionIn).2⟩

theorem Kept.drop {cursors : List ℕ} {remaining : List Deletion}
    (can : store.CanDrop cursors remaining)
    (owned : ∀ deletion ∈ remaining, Owned store.stage store.memory deletion) :
    (store.drop cursors remaining).Kept options := by
  obtain ⟨-, older, ahead, base, holds, stage⟩ := kept
  exact ⟨owned, leftOf older cursors, ahead, base, holds.drop can, stage.drop can⟩

theorem Kept.vanish (can : store.canVanish vanished = true) :
    (store.vanish vanished).Kept options := by
  apply kept.drop
  · constructor
    · intro cursor cursorIn
      have found := List.all_eq_true.mp can cursor cursorIn
      obtain ⟨deletion, deletionIn, same⟩ := List.any_eq_true.mp found
      exact ⟨deletion, deletionIn, of_decide_eq_true same⟩
    · intro deletion deletionIn
      exact ⟨deletion, List.mem_of_mem_filter deletionIn, rfl⟩
  · intro deletion deletionIn
    exact kept.1 deletion (List.mem_of_mem_filter deletionIn)

theorem Kept.quiet (closed : store.memory = none) : store.deletions = [] := by
  rw [List.eq_nil_iff_forall_not_mem]
  intro deletion deletionIn
  have opened := (kept.1 deletion deletionIn).2
  rw [closed] at opened
  cases opened

theorem Kept.open_ (idle : store.stage = .idle)
    (roomy : options.fits createInitialServiceState = true)
    (can : store.canVanish vanished = true) : (store.open_ options vanished).Kept options := by
  have other : store.stage ≠ .deleting := by simp [idle]
  by_cases opened : store.memory.isSome = true
  · rw [Store.open_, if_pos opened]
    exact kept
  · have closed : store.memory = none := by simpa using opened
    obtain ⟨-, older, ahead, base, holds, -⟩ := id kept
    rw [nothing_vanishes (kept.quiet closed) can, Store.open_, if_neg opened,
      if_neg (not_not.mpr rfl), holds.recover]
    cases writes : ahead.isSome || store.disk.stateFile.isNone with
    | false =>
      have absent : ahead = none := by
        cases ahead with
        | none => rfl
        | some record => cases writes
      have owned : ∀ deletion ∈ store.deletions, Owned .idle (some (latest ahead base)) deletion :=
        fun deletion deletionIn => ⟨(kept.unawaited other deletion deletionIn).1, rfl⟩
      refine ⟨owned, older, ahead, base, holds.settle .idle, ?_⟩
      intro state isReady
      have same : latest ahead base = state := by
        have found : (if store.poisoned = true then none else some (latest ahead base))
            = some state := isReady
        split at found
        · cases found
        · exact Option.some.inj found
      rw [← same, absent]
      exact ⟨rfl, rfl⟩
    | true =>
      simp only [holds.fits_latest roomy writes, if_true]
      exact ⟨kept.unawaited other, older, ahead, base, { holds with }, rfl, closed⟩

end

theorem Holds.poison (holds : store.Holds options older ahead base)
    (owned : ∀ deletion ∈ store.deletions, Owned .idle store.memory deletion) :
    store.poison.Kept options := by
  refine ⟨owned, older, ahead, base, { holds with }, ?_⟩
  intro state isReady
  cases isReady

theorem Kept.transact (kept : store.Kept options) (idle : store.stage = .idle) {call : Call}
    (early : call.time ≤ maxTime) (allowed : store.allows options call = true) :
    (store.transact options call).Kept options := by
  have other : store.stage ≠ .deleting := by simp [idle]
  obtain ⟨-, older, ahead, base, holds, stage⟩ := id kept
  rw [idle] at stage
  rw [Store.transact]
  cases isReady : store.ready with
  | none => exact kept
  | some state =>
    simp only
    cases prepared : prepare options state call with
    | error failure => exact kept
    | ok work =>
      simp only
      by_cases writes : options.fitsJournal work.record = true
      · rw [if_pos writes]
        rw [allows, isReady] at allowed
        simp only [prepared, writes, Bool.not_true, Bool.false_or] at allowed
        rw [isCareful, Bool.and_eq_true, Bool.and_eq_true] at allowed
        obtain ⟨⟨counts, fits⟩, recorded⟩ := allowed
        have counts := of_decide_eq_true counts
        have following := (prepare_ok prepared).1
        have sound := sound_of_prepare prepared early (counts.trans following)
        refine ⟨kept.unawaited other, older, ahead, base, holds.attempt _ _, state, isReady,
          stage state isReady, sound, following, fits, ?_, ?_⟩
        · exact List.mem_append_right _ (List.mem_singleton.mpr rfl)
        · intro number above below
          have inRange : number - 1 ∈ List.range (cursorOf state) := by
            rw [List.mem_range]
            omega
          have either := List.all_eq_true.mp recorded _ inRange
          have next : number - 1 + 1 = number := by omega
          have notBelow : ¬ number ≤ floorOf work.record.nextState := by omega
          rw [next, decide_eq_false notBelow, Bool.false_or, hasRecord, Bool.and_eq_true] at either
          obtain ⟨present, untouched⟩ := either
          constructor
          · intro deletion deletionIn
            exact of_decide_eq_true (List.all_eq_true.mp untouched deletion deletionIn)
          · obtain ⟨file, fileIn, named⟩ := List.any_eq_true.mp present
            rw [holds.journal] at fileIn
            obtain ⟨record, recordIn, rfl⟩ := List.mem_map.mp fileIn
            exact ⟨record, recordIn, of_decide_eq_true named⟩
      · rw [if_neg writes]
        exact holds.poison (kept.unawaited other)

theorem foldl_max (numbers : List ℕ) (first : ℕ) :
    first ≤ numbers.foldl max first ∧ (∀ number ∈ numbers, number ≤ numbers.foldl max first) ∧
      ∀ bound, first ≤ bound → (∀ number ∈ numbers, number ≤ bound) →
        numbers.foldl max first ≤ bound := by
  induction numbers generalizing first with
  | nil => exact ⟨le_refl _, by simp, fun bound low _ => low⟩
  | cons number numbers ih =>
    obtain ⟨low, each, least⟩ := ih (max first number)
    rw [List.foldl_cons]
    refine ⟨by omega, ?_, ?_⟩
    · intro other otherIn
      cases List.mem_cons.mp otherIn with
      | inl same => omega
      | inr later => exact each other later
    · intro bound begins bounded
      have here := bounded number List.mem_cons_self
      exact least bound (by omega) fun other otherIn =>
        bounded other (List.mem_cons_of_mem number otherIn)

theorem expired_le (options : StoreOptions) (state : JsonValue) (now : ℕ)
    (records : List JournalRecord) :
    ∀ cursor ∈ expired options state now records, cursor ≤ cursorOf state := by
  intro cursor cursorIn
  obtain ⟨record, recordIn, rfl⟩ := List.mem_map.mp cursorIn
  exact (of_decide_eq_true (List.mem_filter.mp recordIn).2).2

theorem Kept.pruneEvents (kept : store.Kept options) (idle : store.stage = .idle) (now : ℕ)
    (can : store.canVanish vanished = true) :
    (store.pruneEvents options now vanished).Kept options := by
  have other : store.stage ≠ .deleting := by simp [idle]
  obtain ⟨-, older, ahead, base, holds, stage⟩ := id kept
  rw [idle] at stage
  rw [Store.pruneEvents]
  cases isReady : store.ready with
  | none => exact kept
  | some state =>
    simp only
    by_cases gone : vanished ≠ []
    · rw [if_pos gone]
      exact kept.vanish can
    · rw [if_neg gone, holds.journal, readJournalRecords_files holds.sound]
      simp only
      by_cases nothing : expired options state now
          ((older ++ ahead.toList).map JournalRecord.readBack) = []
      · rw [if_pos nothing]
        exact kept
      · rw [if_neg nothing]
        split
        · have remembered := memory_of_ready isReady
          obtain ⟨valid, -, covered⟩ := holds.remembered state remembered
          have bounded := expired_le options state now
            ((older ++ ahead.toList).map JournalRecord.readBack)
          obtain ⟨raised, each, least⟩ := foldl_max (expired options state now
            ((older ++ ahead.toList).map JournalRecord.readBack)) (floorOf state)
          have low := least (cursorOf state) valid.floor_le bounded
          have same : cloneJson state = state := valid.normal
          obtain ⟨isPruned, sameCursor, isFloor⟩ := isState_withFloor valid low
          rw [same]
          refine ⟨kept.unawaited other, older, ahead, base, holds.attempt _ _, state, isReady,
            stage state isReady, isPruned, sameCursor, ?_, ?_, ?_⟩
          · exact List.mem_append_right _ (List.mem_singleton.mpr rfl)
          · intro number above below
            rw [isFloor] at above
            rw [sameCursor] at below
            exact covered number (by omega) below
          · rw [isFloor]
            exact each
        · exact kept

theorem Holds.delete (holds : store.Holds options older ahead base) {added : List Deletion}
    (low : ∀ deletion ∈ added, deletion.cursor ≤ cursorOf base ∧
      deletion.cursor ≤ floorOf (latest ahead base))
    (same : ∀ state, store.memory = some state → state = latest ahead base) :
    { store with deletions := store.deletions ++ added }.Holds options older ahead base := by
  have covered : { store with deletions := store.deletions ++ added }.Covered
      (older ++ ahead.toList) (floorOf (latest ahead base)) (cursorOf (latest ahead base)) := by
    intro number above below
    obtain ⟨untouched, found⟩ := holds.covered number above below
    refine ⟨?_, found⟩
    intro deletion deletionIn
    cases List.mem_append.mp deletionIn with
    | inl earlier => exact untouched deletion earlier
    | inr new =>
      have below := (low deletion new).2
      omega
  have deleted : ∀ deletion ∈ store.deletions ++ added, deletion.cursor ≤ cursorOf base := by
    intro deletion deletionIn
    cases List.mem_append.mp deletionIn with
    | inl earlier => exact holds.deleted deletion earlier
    | inr new => exact (low deletion new).1
  have remembered : ∀ state, store.memory = some state → IsState state ∧ store.before = state ∧
      { store with deletions := store.deletions ++ added }.Covered (older ++ ahead.toList)
        (floorOf state) (cursorOf state) := by
    intro state isMemory
    obtain ⟨valid, before, -⟩ := holds.remembered state isMemory
    rw [same state isMemory] at valid before ⊢
    exact ⟨valid, before, covered⟩
  exact { holds with deleted := deleted, covered := covered, remembered := remembered }

theorem Holds.settled (holds : store.Holds options older none state)
    (owned : ∀ deletion ∈ store.deletions, Owned .idle store.memory deletion) :
    (store.settle state .idle).Kept options := by
  refine ⟨fun deletion deletionIn => ⟨(owned deletion deletionIn).1, rfl⟩, older, none, state,
    holds.settle .idle, ?_⟩
  intro other isReady
  have found : (if store.poisoned = true then none else some state) = some other := isReady
  split at found
  · cases found
  · exact ⟨rfl, congrArg cursorOf (Option.some.inj found)⟩

theorem Kept.note (kept : store.Kept options) (work : Transaction)
    (committed : work.record.cursor ≤ store.events.length) :
    (store.note work).Kept options := by
  rw [Store.note]
  split
  · obtain ⟨awaited, older, ahead, base, holds, stage⟩ := kept
    refine ⟨awaited, older, ahead, base, { holds with resolved := ?_ }, ?_⟩
    · intro cursor cursorIn
      cases List.mem_append.mp cursorIn with
      | inl earlier => exact holds.resolved cursor earlier
      | inr new =>
        rw [List.mem_singleton.mp new]
        exact committed
    · cases at_ : store.stage with
      | _ =>
        rw [at_] at stage
        exact stage
  · exact kept

theorem Kept.proceed (kept : store.Kept options) (done : store.proceed options = some next) :
    next.Kept options := by
  obtain ⟨-, older, ahead, base, holds, stage⟩ := id kept
  have landing : store.land = store.land := rfl
  rw [Store.proceed] at done
  cases at_ : store.stage with
  | idle =>
    rw [at_] at done
    cases done
  | deleting =>
    rw [at_] at done
    cases done
  | opening state =>
    have other : store.stage ≠ .deleting := by simp [at_]
    have lands : store.land = store.putState state := by rw [Store.land, at_]
    rw [at_] at done stage
    have same := (Option.some.inj done).symm
    subst same
    rw [lands, stage.1]
    exact holds.land_opening.settled (kept.unawaited other)
  | journaling work =>
    have other : store.stage ≠ .deleting := by simp [at_]
    have lands : store.land = store.putRecord work.record := by rw [Store.land, at_]
    rw [at_] at done stage
    have landed := holds.land_journaling stage
    obtain ⟨state, -, -, -, -, fits, -⟩ := stage
    simp only at done
    rw [if_pos fits] at done
    have same := (Option.some.inj done).symm
    subst same
    rw [lands]
    exact ⟨kept.unawaited other, older, some work.record, base, { landed with }, rfl⟩
  | storing work =>
    have other : store.stage ≠ .deleting := by simp [at_]
    have lands : store.land = store.putState work.record.nextState := by rw [Store.land, at_]
    rw [at_] at done stage
    have isAhead : ahead = some work.record := stage
    have isLatest : work.record.nextState = latest ahead base := by
      rw [isAhead]
      rfl
    have same := (Option.some.inj done).symm
    subst same
    rw [lands, isLatest]
    apply Kept.note
    · exact holds.land_opening.settled (kept.unawaited other)
    · have recordIn : work.record ∈ older ++ ahead.toList := by simp [isAhead]
      have sound := holds.sound work.record recordIn
      have counted := holds.counted
      rw [← isLatest, sound.sameCursor] at counted
      exact counted.le
  | pruning pruned cursors =>
    have lands : store.land = store.putState pruned := by rw [Store.land, at_]
    rw [at_] at done stage
    have landed := holds.land_pruning stage
    obtain ⟨state, isReady, -, valid, -, -, -, low⟩ := stage
    have same := (Option.some.inj done).symm
    subst same
    rw [lands]
    have settled := landed.settle .deleting
    refine ⟨fun deletion _ => ⟨fun _ => rfl, rfl⟩, _, none, pruned, settled.delete ?_ ?_, ?_⟩
    · intro deletion deletionIn
      obtain ⟨cursor, cursorIn, rfl⟩ := List.mem_map.mp deletionIn
      have below : cursor ≤ floorOf pruned := low cursor cursorIn
      exact ⟨below.trans valid.floor_le, below⟩
    · intro other remembered
      exact (Option.some.inj remembered).symm
    · intro other isReady
      have found : (if store.poisoned = true then none else some pruned) = some other := isReady
      split at found
      · cases found
      · exact ⟨rfl, congrArg cursorOf (Option.some.inj found)⟩

theorem Kept.poison (kept : store.Kept options) (other : store.stage ≠ .deleting)
    (landed : Bool) :
    (if landed = true then store.land else store).poison.Kept options := by
  have same : (if landed = true then store.land else store).deletions = store.deletions ∧
      (if landed = true then store.land else store).memory = store.memory := by
    cases landed with
    | false => exact ⟨rfl, rfl⟩
    | true =>
      cases at_ : store.stage with
      | _ => simp only [Store.land, at_, if_true, putState, putRecord, and_self]
  have holds : ∃ older ahead base,
      (if landed = true then store.land else store).Holds options older ahead base := by
    cases landed with
    | true => exact kept.land
    | false =>
      obtain ⟨-, older, ahead, base, holds, -⟩ := kept
      exact ⟨older, ahead, base, holds⟩
  obtain ⟨older, ahead, base, holds⟩ := holds
  apply holds.poison
  rw [same.1, same.2]
  exact kept.unawaited other

theorem Holds.rest (holds : store.Holds options older ahead base)
    (owned : ∀ deletion ∈ store.deletions, Owned .idle store.memory deletion)
    (synced : ∀ state, store.ready = some state → Synced state ahead base) :
    store.rest.Kept options :=
  ⟨owned, older, ahead, base, { holds with }, synced⟩

theorem Kept.fail (kept : store.Kept options) {landed : Bool}
    (failed : store.fail landed = some next) : next.Kept options := by
  obtain ⟨-, older, ahead, base, holds, stage⟩ := id kept
  have stays : (if landed = true then store.land else store).stage = store.stage := by
    cases landed with
    | false => rfl
    | true =>
      cases at_ : store.stage with
      | _ => simp only [Store.land, at_, if_true, putState, putRecord]
  rw [Store.fail] at failed
  simp only [stays] at failed
  cases at_ : store.stage with
  | idle =>
    rw [at_] at failed
    cases failed
  | deleting =>
    rw [at_] at failed
    cases failed
  | opening state =>
    have other : store.stage ≠ .deleting := by simp [at_]
    have lands : store.land = store.putState state := by rw [Store.land, at_]
    rw [at_] at failed stage
    rw [← Option.some.inj failed]
    have unready : ∀ found, store.ready = some found → False := by
      intro found isReady
      have remembered := memory_of_ready isReady
      rw [stage.2] at remembered
      cases remembered
    cases landed with
    | false => exact holds.rest (kept.unawaited other) fun found isReady =>
        (unready found isReady).elim
    | true =>
      simp only [if_true]
      rw [lands, stage.1]
      apply holds.land_opening.rest (kept.unawaited other)
      exact fun found isReady => (unready found isReady).elim
  | pruning pruned cursors =>
    have other : store.stage ≠ .deleting := by simp [at_]
    have lands : store.land = store.putState pruned := by rw [Store.land, at_]
    rw [at_] at failed stage
    rw [← Option.some.inj failed]
    have landedHolds := holds.land_pruning stage
    obtain ⟨state, isReady, synced, valid, sameCursor, -⟩ := stage
    cases landed with
    | false =>
      apply holds.rest (kept.unawaited other)
      intro found foundReady
      rw [isReady] at foundReady
      rw [← Option.some.inj foundReady]
      exact synced
    | true =>
      simp only [if_true]
      rw [lands]
      apply landedHolds.rest (kept.unawaited other)
      intro found foundReady
      have sameReady : store.ready = some found := foundReady
      rw [isReady] at sameReady
      rw [← Option.some.inj sameReady]
      exact ⟨rfl, sameCursor⟩
  | _ =>
    have other : store.stage ≠ .deleting := by simp [at_]
    rw [at_] at failed
    rw [← Option.some.inj failed]
    exact kept.poison other landed

theorem Kept.rest (kept : store.Kept options) (deleting : store.stage = .deleting)
    (unawaited : ∀ deletion ∈ store.deletions, deletion.awaited = true → False) :
    store.rest.Kept options := by
  obtain ⟨owned, older, ahead, base, holds, stage⟩ := kept
  rw [deleting] at stage
  apply holds.rest _ stage
  intro deletion deletionIn
  exact ⟨fun awaited => (unawaited deletion deletionIn awaited).elim, (owned deletion deletionIn).2⟩

theorem canDrop_abandoned (store : Store) :
    store.CanDrop [] (store.deletions.map fun deletion => ⟨deletion.cursor, false⟩) := by
  constructor
  · intro cursor cursorIn
    cases cursorIn
  · intro deletion deletionIn
    obtain ⟨earlier, earlierIn, rfl⟩ := List.mem_map.mp deletionIn
    exact ⟨earlier, earlierIn, rfl⟩

theorem Kept.awaitDeletions (kept : store.Kept options) (deleting : store.stage = .deleting) :
    store.awaitDeletions.Kept options := by
  rw [Store.awaitDeletions]
  by_cases waits : (store.deletions.any fun deletion => deletion.awaited) = true
  · rw [if_pos waits]
    exact kept
  · rw [if_neg waits]
    apply kept.rest deleting
    intro deletion deletionIn awaited
    exact waits (List.any_eq_true.mpr ⟨deletion, deletionIn, awaited⟩)

theorem Kept.abandon (kept : store.Kept options) (deleting : store.stage = .deleting) :
    store.abandon.Kept options := by
  have owned : ∀ deletion ∈ store.deletions.map fun deletion => Deletion.mk deletion.cursor false,
      Owned store.stage store.memory deletion := by
    intro deletion deletionIn
    obtain ⟨earlier, earlierIn, rfl⟩ := List.mem_map.mp deletionIn
    exact ⟨fun _ => deleting, (kept.1 earlier earlierIn).2⟩
  have abandoned := kept.drop (canDrop_abandoned store) owned
  rw [Store.drop, remove_nil] at abandoned
  apply abandoned.rest deleting
  intro deletion deletionIn awaited
  obtain ⟨earlier, -, rfl⟩ := List.mem_map.mp deletionIn
  cases awaited

theorem remaining_eq (store : Store) (deletion : Deletion) (landed : Bool) :
    { (if landed = true then store.remove [deletion.cursor] else store) with
        deletions := store.deletions.erase deletion }
      = store.drop (if landed = true then [deletion.cursor] else [])
        (store.deletions.erase deletion) := by
  cases landed with
  | true => rfl
  | false =>
    rw [Store.drop, if_neg Bool.false_ne_true, if_neg Bool.false_ne_true, remove_nil]

theorem Kept.unlinked (kept : store.Kept options) {deletion : Deletion} {outcome : Outcome}
    (ended : store.unlinked deletion outcome = some next) : next.Kept options := by
  rw [Store.unlinked] at ended
  by_cases deletionIn : deletion ∈ store.deletions
  · rw [if_pos deletionIn] at ended
    simp only [remaining_eq] at ended
    have left : (store.drop (if outcome.landed = true then [deletion.cursor] else [])
        (store.deletions.erase deletion)).Kept options := by
      apply kept.drop
      · constructor
        · intro cursor cursorIn
          by_cases landed : outcome.landed = true
          · rw [if_pos landed] at cursorIn
            exact ⟨deletion, deletionIn, (List.mem_singleton.mp cursorIn).symm⟩
          · rw [if_neg landed] at cursorIn
            cases cursorIn
        · exact fun other otherIn => ⟨other, List.mem_of_mem_erase otherIn, rfl⟩
      · exact fun other otherIn => kept.1 other (List.mem_of_mem_erase otherIn)
    by_cases awaited : deletion.awaited = true
    · have deleting := (kept.1 deletion deletionIn).1 awaited
      rw [if_pos awaited] at ended
      by_cases done : outcome = .done
      · rw [if_pos done] at ended
        rw [← Option.some.inj ended]
        exact left.awaitDeletions deleting
      · rw [if_neg done] at ended
        rw [← Option.some.inj ended]
        exact left.abandon deleting
    · rw [if_neg awaited] at ended
      rw [← Option.some.inj ended]
      exact left
  · rw [if_neg deletionIn] at ended
    cases ended

theorem stage_of_isIdle (isIdle : store.isIdle = true) : store.stage = .idle := by
  cases at_ : store.stage with
  | idle => rfl
  | _ =>
    rw [Store.isIdle, at_] at isIdle
    cases isIdle

theorem Kept.step (kept : store.Kept options)
    (roomy : options.fits createInitialServiceState = true) {event : StoreEvent}
    (orderly : store.isOrderly options event = true)
    (stepped : store.step options event = some next) : next.Kept options := by
  cases event with
  | opened vanished =>
    rw [Store.step] at stepped
    split at stepped
    · next free =>
      rw [← Option.some.inj stepped]
      exact kept.open_ (stage_of_isIdle free.1) roomy free.2
    · cases stepped
  | transact call =>
    rw [Store.step] at stepped
    split at stepped
    · next free =>
      rw [← Option.some.inj stepped]
      exact kept.transact (stage_of_isIdle free.1) free.2 orderly
    · cases stepped
  | pruneEvents now vanished =>
    rw [Store.step] at stepped
    split at stepped
    · next free =>
      rw [← Option.some.inj stepped]
      exact kept.pruneEvents (stage_of_isIdle free.1) now free.2
    · cases stepped
  | written outcome =>
    cases outcome with
    | done => exact kept.proceed stepped
    | failed landed => exact kept.fail stepped
  | unlinked deletion outcome => exact kept.unlinked stepped
  | crashed landed =>
    rw [← Option.some.inj stepped]
    exact kept.crash landed
  | replaced =>
    rw [Store.step] at stepped
    split at stepped
    · next free =>
      rw [← Option.some.inj stepped]
      exact kept.replace (stage_of_isIdle free) (List.isEmpty_iff.mp orderly)
    · cases stepped

theorem kept_start : start.Kept options := by
  obtain ⟨valid, zero⟩ := isState_initial
  have nothing : ∀ records floor, start.Covered records floor
      (cursorOf (cloneJson createInitialServiceState)) := by
    intro records floor number above below
    omega
  refine ⟨by simp [start], [], none, cloneJson createInitialServiceState, ?_, ?_⟩
  · constructor
    · rfl
    · simp
    · simp
    · simp
    · simp
    · exact valid
    · exact .inr ⟨rfl, rfl⟩
    · exact zero
    · exact List.mem_cons_self
    · simp [start]
    · exact nothing _ _
    · intro state remembered
      cases remembered
    · simp [start]
  · intro state isReady
    cases isReady

theorem Kept.recovers (kept : store.Kept options)
    (roomy : options.fits createInitialServiceState = true) : store.Recovers options where
  crashes landed := by
    obtain ⟨-, older, ahead, base, holds, -⟩ := kept.crash landed
    exact holds.opens roomy rfl rfl rfl
  opens closed isIdle := by
    obtain ⟨-, older, ahead, base, holds, -⟩ := id kept
    exact holds.opens roomy closed isIdle (kept.quiet closed)
  remembers state remembered := by
    obtain ⟨-, older, ahead, base, holds, -⟩ := kept
    obtain ⟨-, same, covered⟩ := holds.remembered state remembered
    exact ⟨same, holds.hasEvents covered⟩
  counts state isIdle isReady := by
    obtain ⟨-, older, ahead, base, holds, stage⟩ := kept
    rw [stage_of_isIdle isIdle] at stage
    obtain ⟨absent, same⟩ := stage state isReady
    have counted := holds.counted
    rw [absent] at counted
    rw [← same]
    exact counted

end Steps

/-- In every run whose transactions are careful, and in which no store is replaced while deletes
are under way, the directory can always be opened again. -/
theorem orderly_recovers (options : StoreOptions)
    (roomy : options.fits createInitialServiceState = true) {events : List StoreEvent}
    {store : Store} (reached : (machine options).ReachesWhen
      (fun store event => store.isOrderly options event = true) events store) :
    store.Recovers options := by
  have kept : store.Kept options := by
    apply reached.invariant
    · exact kept_start
    · intro before event next kept orderly stepped
      exact kept.step roomy orderly stepped
  exact kept.recovers roomy

def smallStore : StoreOptions := ⟨Kernel.decimalFormat, 200, 200, 100⟩

/-- A transaction that replaces the table of answered requests. -/
def remembering (key : Text) : Call where
  time := 1000
  mutation state := some (some (withMember state (js "idempotency")
    (.object [(key, .boolean true)])), .json .null)
  eventInput _ draft := some (draft, some ⟨.undefined, .undefined, .json (.string (js "change"))⟩)
  heard := true

def prunesEvents : List StoreEvent :=
  [.opened [], .written .done, .transact (remembering (js "first")), .written .done,
    .written (.failed false), .replaced, .opened [], .written .done,
    .transact (remembering (js "second")), .written .done, .written .done,
    .pruneEvents 2000 [], .written .done, .unlinked ⟨1, true⟩ .done]

/-- Both transactions are counted, and the first one is deleted. -/
theorem orderly_recovers_prunesEvents : ∃ store,
    (machine smallStore).ReachesWhen (fun store event => store.isOrderly smallStore event = true)
      prunesEvents store ∧ store.memory.map cursorOf = some 2 ∧ store.resolved = [2] ∧
        store.disk.journal.map Prod.fst = [2] ∧ store.Recovers smallStore := by
  have run : (((machine smallStore).guarded fun store event =>
      store.isOrderly smallStore event = true).run prunesEvents).map (fun store =>
        (store.memory.map cursorOf, store.resolved, store.disk.journal.map Prod.fst))
          = some (some 2, [2], [2]) := by
    decide +kernel
  obtain ⟨store, reached, fields⟩ := Machine.exists_of_guarded_run run
  obtain ⟨counted, fields⟩ := Prod.mk.inj fields
  obtain ⟨resolved, names⟩ := Prod.mk.inj fields
  have roomy : smallStore.fits createInitialServiceState = true := by decide +kernel
  exact ⟨store, reached, counted, resolved, names, orderly_recovers smallStore roomy reached⟩

/-- The record of a transaction fits into the journal, but its state does not fit. -/
def outgrows : List StoreEvent :=
  [.opened [], .written .done, .transact (remembering (List.replicate 80 0x61)), .written .done]

/-- No store can be opened on the directory any more. -/
theorem not_recovers : ¬ ∀ (events : List StoreEvent) (store : Store),
    (machine smallStore).Reaches events store → store.Recovers smallStore := by
  intro recovers
  have run : ((machine smallStore).run outgrows).map (fun store =>
      ((store.crash false).reopen smallStore []).isSome) = some false := by
    decide +kernel
  obtain ⟨store, reached, closed⟩ := Machine.exists_of_run run
  obtain ⟨state, opens, -⟩ :=
    (recovers outgrows store reached).crashes false
  rw [opens [] rfl] at closed
  cases closed

end Store

end Holonomy.Service
