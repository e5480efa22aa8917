import Holonomy.Service.LogStore

/-!
# Pruning the logs

Pruning takes entries from the fronts of records only, and keeps the numbers and the counts of what
is left. A walk over the entries in the order of their times takes out, of each record, what comes
before the first entry that is older than the one in front of it; what lies behind is not visited
again.
-/

namespace Holonomy.Service

open Foundation

structure LogRecord.Sound (numbers : NumberFormat) (record : LogRecord) : Prop where
  sequences : record.events.map LogEvent.sequence =
    List.range' (record.floorSequence + 1) record.events.length
  next : record.nextSequence = record.floorSequence + record.events.length + 1
  bytes : record.totalBytes = tally (logEventBytes numbers) record.events

/-- A record that has lost its first entries. -/
structure Outlives (record later : LogRecord) : Prop where
  processId : later.processId = record.processId
  next : later.nextSequence = record.nextSequence
  events : ∃ count, later.events = record.events.drop count
  floor : record.floorSequence ≤ later.floorSequence

theorem Outlives.refl (record : LogRecord) : Outlives record record :=
  ⟨rfl, rfl, ⟨0, rfl⟩, le_rfl⟩

theorem Outlives.trans {first second third : LogRecord} (left : Outlives first second)
    (right : Outlives second third) : Outlives first third := by
  obtain ⟨count, one⟩ := left.events
  obtain ⟨more, other⟩ := right.events
  exact ⟨right.processId.trans left.processId, right.next.trans left.next,
    ⟨count + more, by rw [other, one, List.drop_drop]⟩, left.floor.trans right.floor⟩

section Records

variable {numbers : NumberFormat} {limits : LogLimits} {record : LogRecord}

section

variable (sound : record.Sound numbers)

include sound

theorem LogRecord.Sound.shift :
    (record.shift numbers).Sound numbers ∧ Outlives record (record.shift numbers) ∧
      (record.shift numbers).events = record.events.tail := by
  unfold LogRecord.shift
  cases held : record.events with
  | nil => exact ⟨sound, .refl record, by rw [held]; rfl⟩
  | cons removed rest =>
    have sequences := sound.sequences
    have next := sound.next
    have bytes := sound.bytes
    rw [held, List.map_cons, List.length_cons, List.range'_succ, List.cons.injEq] at sequences
    rw [held, List.length_cons] at next
    rw [held, tally_cons] at bytes
    have floor : max record.floorSequence removed.sequence = record.floorSequence + 1 := by omega
    simp only
    refine ⟨⟨?_, ?_, ?_⟩, ⟨rfl, rfl, ⟨1, ?_⟩, ?_⟩, rfl⟩
    · rw [floor]
      exact sequences.2
    · rw [floor]
      change record.nextSequence = record.floorSequence + 1 + rest.length + 1
      omega
    · have first : record.firstBytes numbers = logEventBytes numbers removed := by
        rw [LogRecord.firstBytes, held]
      change record.totalBytes - record.firstBytes numbers = tally _ rest
      omega
    · rw [held]
      rfl
    · exact le_max_left _ _

theorem LogRecord.Sound.shiftWhile {tooMuch : LogRecord → Bool}
    (little : ∀ empty : LogRecord, empty.Sound numbers → empty.events = [] → tooMuch empty = false)
    {turns : ℕ} (enough : record.events.length ≤ turns) :
    (shiftWhile numbers tooMuch turns record).Sound numbers ∧
      Outlives record (shiftWhile numbers tooMuch turns record) ∧
      tooMuch (shiftWhile numbers tooMuch turns record) = false := by
  induction turns generalizing record with
  | zero =>
    have empty := List.eq_nil_of_length_eq_zero (Nat.le_zero.mp enough)
    exact ⟨sound, .refl record, little record sound empty⟩
  | succ turns ih =>
    rw [Service.shiftWhile]
    split_ifs with much
    · obtain ⟨still, outlives, tail⟩ := sound.shift
      have shorter : (record.shift numbers).events.length ≤ turns := by
        rw [tail, List.length_tail]
        omega
      have rest := ih still shorter
      exact ⟨rest.1, outlives.trans rest.2.1, rest.2.2⟩
    · exact ⟨sound, .refl record, Bool.eq_false_of_not_eq_true much⟩

theorem LogRecord.Sound.trim (limits : LogLimits) (now : ℕ) :
    (record.trim numbers limits now).Sound numbers ∧
      Outlives record (record.trim numbers limits now) ∧
      limits.overfills (record.trim numbers limits now) = false := by
  have unexpired : ∀ empty : LogRecord, empty.Sound numbers → empty.events = [] →
      limits.expires now empty = false := by
    intro empty _ nothing
    unfold LogLimits.expires
    rw [nothing]
  have light : ∀ empty : LogRecord, empty.Sound numbers → empty.events = [] →
      limits.overfills empty = false := by
    intro empty still nothing
    rw [LogLimits.overfills, still.bytes, nothing]
    simp
  have fresh := sound.shiftWhile unexpired le_rfl
  have small := fresh.1.shiftWhile light le_rfl
  exact ⟨small.1, fresh.2.1.trans small.2.1, small.2.2⟩

end

end Records

/-- Records that have lost first entries only. -/
structure Prunes (records later : List LogRecord) : Prop where
  ids : later.map LogRecord.processId = records.map LogRecord.processId
  outlives : ∀ survivor ∈ later, ∃ record ∈ records, Outlives record survivor

theorem Prunes.refl (records : List LogRecord) : Prunes records records :=
  ⟨rfl, fun record listed => ⟨record, listed, .refl record⟩⟩

theorem Prunes.trans {first second third : List LogRecord} (left : Prunes first second)
    (right : Prunes second third) : Prunes first third := by
  refine ⟨right.ids.trans left.ids, fun survivor listed => ?_⟩
  obtain ⟨middle, middleIn, later⟩ := right.outlives survivor listed
  obtain ⟨record, recordIn, earlier⟩ := left.outlives middle middleIn
  exact ⟨record, recordIn, earlier.trans later⟩

section Walking

variable {numbers : NumberFormat} {localeCompare : Precedence Text} {limits : LogLimits}

structure Eviction.Counted (numbers : NumberFormat) (state : Eviction) : Prop where
  once : (state.records.map LogRecord.processId).Nodup
  sound : ∀ record ∈ state.records, record.Sound numbers
  entries : state.entries = tally (fun record => record.events.length) state.records
  bytes : state.bytes = tally LogRecord.totalBytes state.records

variable {record : LogRecord} {state : Eviction} {candidates : List (Text × LogEvent)}

theorem processId_shift (record : LogRecord) :
    (record.shift numbers).processId = record.processId := by
  unfold LogRecord.shift
  split
  · rfl
  · rfl

theorem LogRecord.Sound.starts (sound : record.Sound numbers) {event : LogEvent}
    (starts : record.startsWith event = true) :
    record.events.length = (record.shift numbers).events.length + 1 ∧
      record.totalBytes = (record.shift numbers).totalBytes + record.firstBytes numbers := by
  have bytes := sound.bytes
  unfold LogRecord.startsWith at starts
  unfold LogRecord.shift
  cases held : record.events with
  | nil =>
    rw [held] at starts
    cases starts
  | cons first rest =>
    have size : record.firstBytes numbers = logEventBytes numbers first := by
      rw [LogRecord.firstBytes, held]
    rw [held, tally_cons] at bytes
    refine ⟨rfl, ?_⟩
    change record.totalBytes = record.totalBytes - record.firstBytes numbers + _
    omega

structure Visited (candidate : Text × LogEvent) (record survivor : LogRecord) : Prop where
  processId : survivor.processId = record.processId
  events : record.processId = candidate.1 ∧ record.startsWith candidate.2 = true ∧
      survivor.events = record.events.tail ∨
    (record.processId = candidate.1 → record.startsWith candidate.2 = false) ∧
      survivor.events = record.events

theorem Eviction.Counted.visit (counted : state.Counted numbers) (candidate : Text × LogEvent) :
    (state.visit numbers candidate).Counted numbers ∧
      Prunes state.records (state.visit numbers candidate).records ∧
      ∀ survivor ∈ (state.visit numbers candidate).records, ∃ record ∈ state.records,
        Visited candidate record survivor := by
  unfold Eviction.visit
  cases found : state.records.find? fun record => record.processId = candidate.1 with
  | none =>
    refine ⟨counted, .refl _, fun survivor listed => ⟨survivor, listed, rfl, .inr ⟨?_, rfl⟩⟩⟩
    intro own
    exact absurd (decide_eq_true own) (List.find?_eq_none.mp found survivor listed)
  | some record =>
    have holds := List.find?_some found
    have own : record.processId = candidate.1 := of_decide_eq_true holds
    have recordIn := List.mem_of_find?_eq_some found
    have unique : ∀ other ∈ state.records, other.processId = candidate.1 → other = record :=
      fun other otherIn same =>
        List.inj_on_of_nodup_map counted.once otherIn recordIn (same.trans own.symm)
    simp only
    split_ifs with starts
    · have weighs : ∀ weight : LogRecord → ℕ,
          tally weight (modifyAt LogRecord.processId candidate.1 (LogRecord.shift numbers)
            state.records) + weight record =
          tally weight state.records + weight (record.shift numbers) := by
        intro weight
        rw [← own]
        exact tally_modifyAt counted.once recordIn processId_shift
      obtain ⟨fewer, lighter⟩ := (counted.sound record recordIn).starts starts
      have ids : (modifyAt LogRecord.processId candidate.1 (LogRecord.shift numbers)
          state.records).map LogRecord.processId = state.records.map LogRecord.processId :=
        map_modifyAt processId_shift
      refine ⟨⟨?_, fun survivor listed => ?_, ?_, ?_⟩, ⟨ids, fun survivor listed => ?_⟩,
        fun survivor listed => ?_⟩
      · rw [ids]
        exact counted.once
      · obtain ⟨kept, keptIn, equal⟩ := mem_modifyAt.mp listed
        have sound := counted.sound kept keptIn
        rw [← equal]
        split_ifs
        · exact sound.shift.1
        · exact sound
      · have count := weighs fun record => record.events.length
        rw [← counted.entries] at count
        change state.entries - 1 = tally _ (modifyAt LogRecord.processId candidate.1 _ _)
        omega
      · have count := weighs LogRecord.totalBytes
        rw [← counted.bytes] at count
        change state.bytes - record.firstBytes numbers =
          tally _ (modifyAt LogRecord.processId candidate.1 _ _)
        omega
      · obtain ⟨kept, keptIn, equal⟩ := mem_modifyAt.mp listed
        refine ⟨kept, keptIn, ?_⟩
        rw [← equal]
        split_ifs
        · exact (counted.sound kept keptIn).shift.2.1
        · exact .refl kept
      · obtain ⟨kept, keptIn, equal⟩ := mem_modifyAt.mp listed
        refine ⟨kept, keptIn, ?_⟩
        by_cases mine : kept.processId = candidate.1
        · rw [if_pos mine] at equal
          rw [← equal]
          refine ⟨processId_shift kept, .inl ⟨mine, ?_, ?_⟩⟩
          · rw [unique kept keptIn mine]
            exact starts
          · exact (counted.sound kept keptIn).shift.2.2
        · rw [if_neg mine] at equal
          rw [← equal]
          exact ⟨rfl, .inr ⟨fun same => absurd same mine, rfl⟩⟩
    · refine ⟨counted, .refl _, fun survivor listed => ⟨survivor, listed, rfl, .inr ⟨?_, rfl⟩⟩⟩
      intro same
      rw [unique survivor listed same]
      exact Bool.eq_false_of_not_eq_true starts

theorem Eviction.Counted.walk {final : Eviction} (counted : state.Counted numbers)
    (walked : Eviction.walk numbers limits candidates state = .ok final) :
    final.Counted numbers ∧ Prunes state.records final.records ∧
      limits.isExceeded final = false := by
  induction candidates generalizing state with
  | nil =>
    rw [Eviction.walk] at walked
    split_ifs at walked with exceeded
    · unfold logCorrupt serviceError at walked
      cases walked
    · cases walked
      exact ⟨counted, .refl _, Bool.eq_false_of_not_eq_true exceeded⟩
  | cons candidate candidates ih =>
    rw [Eviction.walk] at walked
    split_ifs at walked with exceeded
    · obtain ⟨still, prunes, -⟩ := counted.visit candidate
      have rest := ih still walked
      exact ⟨rest.1, prunes.trans rest.2.1, rest.2.2⟩
    · cases walked
      exact ⟨counted, .refl _, Bool.eq_false_of_not_eq_true exceeded⟩

/-- The entries from the first one on that is older than the one in front of it. -/
def outOfTurn : ℕ → List LogEvent → List LogEvent
  | _, [] => []
  | previous, event :: events =>
    if previous ≤ event.time then outOfTurn event.time events else event :: events

theorem outOfTurn_spec (previous : ℕ) (events : List LogEvent) :
    ∃ run, events = run ++ outOfTurn previous events ∧
      run.Pairwise (fun one other => one.time ≤ other.time) ∧
      ∀ event ∈ run, previous ≤ event.time := by
  induction events generalizing previous with
  | nil =>
    refine ⟨[], rfl, .nil, fun event listed => ?_⟩
    cases listed
  | cons event events ih =>
    rw [outOfTurn]
    split_ifs with inTurn
    · obtain ⟨run, whole, ordered, later⟩ := ih event.time
      refine ⟨event :: run, ?_, List.pairwise_cons.mpr ⟨later, ordered⟩, ?_⟩
      · rw [List.cons_append, ← whole]
      · rw [List.forall_mem_cons]
        exact ⟨inTurn, fun other listed => inTurn.trans (later other listed)⟩
    · refine ⟨[], rfl, .nil, fun other listed => ?_⟩
      cases listed

def Ahead (stays : Text → List LogEvent) (candidates : List (Text × LogEvent))
    (record : LogRecord) : Prop :=
  ∃ run behind, record.events = run ++ behind ∧ behind <:+ stays record.processId ∧
    run.Pairwise (fun one other => one.time ≤ other.time ∧ one.sequence < other.sequence) ∧
    ∀ event ∈ run, (record.processId, event) ∈ candidates

theorem Ahead.visit {stays : Text → List LogEvent} {candidate : Text × LogEvent}
    {survivor : LogRecord} (ahead : Ahead stays (candidate :: candidates) record)
    (sorted : (candidateOrder localeCompare).Sorted (candidate :: candidates))
    (visited : Visited candidate record survivor) : Ahead stays candidates survivor := by
  obtain ⟨run, behind, whole, stay, ordered, listed⟩ := ahead
  rcases visited.events with ⟨own, starts, tail⟩ | ⟨others, same⟩
  · unfold LogRecord.startsWith at starts
    cases run with
    | nil =>
      refine ⟨[], behind.tail, ?_, ?_, .nil, fun event impossible => ?_⟩
      · rw [tail, whole]
        rfl
      · rw [visited.processId]
        exact (List.tail_suffix behind).trans stay
      · cases impossible
    | cons first rest =>
      rw [whole, List.cons_append] at starts
      have sequence : first.sequence = candidate.2.sequence := of_decide_eq_true starts
      rw [List.pairwise_cons] at ordered
      refine ⟨rest, behind, ?_, ?_, ordered.2, fun event eventIn => ?_⟩
      · rw [tail, whole]
        rfl
      · rw [visited.processId]
        exact stay
      · have later := (ordered.1 event eventIn).2
        rw [visited.processId]
        rcases List.mem_cons.mp (listed event (List.mem_cons_of_mem _ eventIn)) with now | ahead
        · rw [← now] at sequence
          exact absurd (sequence ▸ later) (Nat.lt_irrefl _)
        · exact ahead
  · refine ⟨run, behind, same.trans whole, ?_, ordered, fun event eventIn => ?_⟩
    · rw [visited.processId]
      exact stay
    · rw [visited.processId]
      rcases List.mem_cons.mp (listed event eventIn) with now | ahead
      · -- The entry is not the first of its record, which is in front of it and ahead of the walk.
        have own : record.processId = candidate.1 := congrArg Prod.fst now
        have notFirst := others own
        unfold LogRecord.startsWith at notFirst
        cases run with
        | nil => cases eventIn
        | cons first rest =>
          rw [whole, List.cons_append] at notFirst
          have differs : first.sequence ≠ candidate.2.sequence := of_decide_eq_false notFirst
          rw [← now] at differs
          rw [List.pairwise_cons] at ordered
          rcases List.mem_cons.mp eventIn with isFirst | later
          · rw [isFirst] at differs
            exact absurd rfl differs
          · obtain ⟨earlier, lower⟩ := ordered.1 event later
            have firstIn := listed first List.mem_cons_self
            rcases List.mem_cons.mp firstIn with clash | firstAhead
            · rw [← now] at clash
              exact absurd (congrArg (fun pair => pair.2.sequence) clash) differs
            · have order := (List.pairwise_cons.mp sorted).1 _ firstAhead
              rw [← now] at order
              obtain ⟨time, rest'⟩ := order
              have sequence := (rest' earlier).1
              exact absurd lower (Nat.not_lt.mpr sequence)
      · exact ahead

theorem Eviction.Counted.walks (limits : LogLimits) (stays : Text → List LogEvent)
    (counted : state.Counted numbers)
    (sorted : (candidateOrder localeCompare).Sorted candidates)
    (ahead : ∀ record ∈ state.records, Ahead stays candidates record)
    (entries : tally (fun record => (stays record.processId).length) state.records ≤
      limits.maxTotalEntries)
    (bytes : tally (fun record => tally (logEventBytes numbers) (stays record.processId))
      state.records ≤ limits.maxTotalBytes) :
    ∃ final, Eviction.walk numbers limits candidates state = .ok final := by
  induction candidates generalizing state with
  | nil =>
    have left : ∀ record ∈ state.records, record.events <:+ stays record.processId := by
      intro record listed
      obtain ⟨run, behind, whole, stay, -, none'⟩ := ahead record listed
      cases run with
      | nil =>
        rw [whole]
        exact stay
      | cons first rest => cases none' first List.mem_cons_self
    have few : state.entries ≤ limits.maxTotalEntries := by
      rw [counted.entries]
      exact (tally_le fun record listed => (left record listed).length_le).trans entries
    have light : state.bytes ≤ limits.maxTotalBytes := by
      rw [counted.bytes]
      refine (tally_le fun record listed => ?_).trans bytes
      rw [(counted.sound record listed).bytes]
      obtain ⟨front, whole⟩ := left record listed
      rw [← whole, tally_append]
      exact Nat.le_add_left _ _
    have inside : limits.isExceeded state = false := by
      rw [LogLimits.isExceeded, Bool.or_eq_false_iff, decide_eq_false_iff_not,
        decide_eq_false_iff_not]
      exact ⟨Nat.not_lt.mpr few, Nat.not_lt.mpr light⟩
    refine ⟨state, ?_⟩
    rw [Eviction.walk, inside]
    rfl
  | cons candidate candidates ih =>
    rw [Eviction.walk]
    split_ifs with exceeded
    · obtain ⟨still, prunes, visits⟩ := counted.visit candidate
      have byId : ∀ weight : Text → ℕ,
          tally (fun record => weight record.processId) (state.visit numbers candidate).records =
            tally (fun record => weight record.processId) state.records := by
        intro weight
        have one : tally weight ((state.visit numbers candidate).records.map
            LogRecord.processId) = _ := tally_map
        have other : tally weight (state.records.map LogRecord.processId) = _ := tally_map
        rw [prunes.ids] at one
        exact one.symm.trans other
      apply ih still (List.pairwise_cons.mp sorted).2
      · intro survivor listed
        obtain ⟨record, recordIn, visited⟩ := visits survivor listed
        exact (ahead record recordIn).visit sorted visited
      · rw [byId fun id => (stays id).length]
        exact entries
      · rw [byId fun id => tally (logEventBytes numbers) (stays id)]
        exact bytes
    · exact ⟨state, rfl⟩

end Walking

end Holonomy.Service
