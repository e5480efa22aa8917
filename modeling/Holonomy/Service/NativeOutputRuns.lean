import Holonomy.Kernel.Ascii
import Holonomy.Service.NativeOutputPages

/-!
# Runs of the pool of native output

What a reader has been given accounts for every number up to its cursor, once each and in order,
as long as no append drops a chunk behind events that its record still holds and none keeps a
chunk that is too large for a page. The counts are those of the records and stay within the
limits.
-/

namespace Holonomy.Service

open Foundation NativeOutputPool

/-- Every chunk up to the cursor has been returned or counted. -/
structure Reading.Kept (numbers : NumberFormat) (limits : OutputLimits) (state : Reading) :
    Prop where
  balanced : state.pool.Balanced
  within : state.pool.Within limits
  contiguous : ∀ record, (state.pool.records record).Contiguous
  behind : ∀ record, state.cursors record < (state.pool.records record).nextSequence
  accounted : ∀ record, (state.given record).flatMap Received.numbers =
    List.range' 1 (state.cursors record)
  numbered : ∀ record, (state.appended record).map OutputEvent.sequence =
    List.range' 1 ((state.pool.records record).nextSequence - 1)
  held : ∀ record, ∀ event ∈ (state.pool.records record).logs, event ∈ state.appended record
  genuine : ∀ record event, .event event ∈ state.given record → event ∈ state.appended record
  small : ∀ record, ∀ event ∈ (state.pool.records record).logs,
    128 + event.cost numbers ≤ maxPageBytes

def Reading.isOrderly (numbers : NumberFormat) (limits : OutputLimits) (state : Reading) :
    PoolEvent → Bool
  | .append record stream chunk =>
    (state.pool.records record).outputRetired ||
      if isTooLarge limits chunk then (state.pool.records record).logs.isEmpty
      else 0 < limits.maxEvents && 0 < limits.maxRecordEvents &&
        128 + (state.pool.nextEvent record stream chunk).cost numbers ≤ maxPageBytes
  | .release _ => true
  | .page _ _ => true

theorem OutputRecord.Contiguous.trimmed {record trimmed : OutputRecord}
    (contiguous : record.Contiguous) (count : ℕ) (logs : trimmed.logs = record.logs.drop count)
    (next : trimmed.nextSequence = record.nextSequence) : trimmed.Contiguous := by
  have both := contiguous_drop contiguous.positive contiguous.numbers count
  rw [← logs, ← next] at both
  exact ⟨both.1, both.2⟩

theorem OutputRecord.Contiguous.extended {record extended : OutputRecord}
    (contiguous : record.Contiguous) {count : ℕ} {event : OutputEvent}
    (logs : extended.logs = record.logs.drop count ++ [event])
    (number : event.sequence = record.nextSequence)
    (next : extended.nextSequence = record.nextSequence + 1) : extended.Contiguous := by
  have both := contiguous_drop contiguous.positive contiguous.numbers count
  have length : extended.logs.length = (record.logs.drop count).length + 1 := by
    rw [logs, List.length_append, List.length_singleton]
  constructor
  · omega
  · have start : extended.nextSequence - extended.logs.length =
        record.nextSequence - (record.logs.drop count).length := by omega
    have last : record.nextSequence - (record.logs.drop count).length +
        (record.logs.drop count).length = record.nextSequence := by omega
    rw [start, length, List.range'_1_concat, last, logs, List.map_append, List.map_singleton,
      both.2, number]

section Steps

variable {numbers : NumberFormat} {limits : OutputLimits} {state : Reading}

section

variable (kept : state.Kept numbers limits)

include kept

theorem Reading.Kept.appends {record : ℕ} {event : OutputEvent}
    (number : event.sequence = (state.pool.records record).nextSequence) {pool : NativeOutputPool}
    (balanced : pool.Balanced) (within : pool.Within limits)
    (contiguous : ∀ other, (pool.records other).Contiguous)
    (next : ∀ other, (pool.records other).nextSequence =
      (state.pool.records other).nextSequence + if other = record then 1 else 0)
    (held : ∀ other, ∀ found ∈ (pool.records other).logs, found ∈ (state.pool.records other).logs ∨
      other = record ∧ found = event ∧ 128 + event.cost numbers ≤ maxPageBytes) :
    Reading.Kept numbers limits
      { state with
        pool := pool
        appended := Function.update state.appended record (state.appended record ++ [event]) } where
  balanced := balanced
  within := within
  contiguous := contiguous
  behind other := by
    have before := kept.behind other
    change state.cursors other < (pool.records other).nextSequence
    rw [next other]
    omega
  accounted := kept.accounted
  numbered other := by
    have before := kept.numbered other
    have positive := (kept.contiguous other).positive
    simp only [Function.update_apply, next other]
    split_ifs with own
    · rw [own] at before positive ⊢
      have count : (state.pool.records record).nextSequence + 1 - 1 =
          (state.pool.records record).nextSequence - 1 + 1 := by omega
      have last : 1 + ((state.pool.records record).nextSequence - 1) =
          (state.pool.records record).nextSequence := by omega
      rw [List.map_append, List.map_singleton, before, count, List.range'_1_concat, last, number]
    · exact before
  held other found foundIn := by
    simp only [Function.update_apply]
    rcases held other found foundIn with old | ⟨own, new', -⟩
    · have before := kept.held other found old
      split_ifs with own
      · rw [own] at before
        exact List.mem_append_left _ before
      · exact before
    · rw [if_pos own, new']
      exact List.mem_append_right _ (List.mem_singleton.mpr rfl)
  genuine other found given := by
    have before := kept.genuine other found given
    simp only [Function.update_apply]
    split_ifs with own
    · rw [own] at before
      exact List.mem_append_left _ before
    · exact before
  small other found foundIn := by
    rcases held other found foundIn with old | ⟨-, new', fits⟩
    · exact kept.small other found old
    · rw [new']
      exact fits

theorem Reading.Kept.append {record : ℕ} {stream chunk : Text}
    (orderly : state.isOrderly numbers limits (.append record stream chunk) = true)
    (open' : (state.pool.records record).outputRetired = false) :
    Reading.Kept numbers limits
      { state with
        pool := state.pool.append limits record stream chunk
        appended := Function.update state.appended record
          (state.appended record ++ [state.pool.nextEvent record stream chunk]) } := by
  rw [Reading.isOrderly, open', Bool.false_or] at orderly
  have room : isTooLarge limits chunk = false → 0 < limits.maxEvents ∧
      0 < limits.maxRecordEvents := by
    intro fits
    rw [if_neg (by rw [fits]; exact Bool.false_ne_true)] at orderly
    simp only [Bool.and_eq_true, decide_eq_true_eq] at orderly
    exact orderly.1
  obtain ⟨balanced, within⟩ := kept.balanced.append kept.within record stream chunk fun _ => room
  have others := nextSequence_takeNumber state.pool record
  rcases append_cases record stream chunk kept.balanced open' room with
    ⟨large, same⟩ | ⟨fits, free, hasRoom, trims, same⟩
  · rw [if_pos large] at orderly
    have empty := List.isEmpty_iff.mp orderly
    have logs : ∀ other, ((state.pool.takeNumber record).records other).logs =
        (state.pool.records other).logs := fun other => (takeNumber_records _ _ _).1
    refine kept.appends rfl balanced within ?_ ?_ ?_
    · intro other
      rw [same]
      by_cases own : other = record
      · rw [own]
        have nothing := (logs record).trans empty
        have next := others record
        constructor
        · rw [nothing, next, if_pos rfl]
          exact Nat.succ_pos _
        · rw [nothing]
          rfl
      · have next := others other
        rw [if_neg own] at next
        exact (kept.contiguous other).trimmed 0 (logs other) next
    · rw [same]
      exact others
    · intro other found foundIn
      rw [same, logs other] at foundIn
      exact .inl foundIn
  · rw [if_neg (by rw [fits]; exact Bool.false_ne_true)] at orderly
    simp only [Bool.and_eq_true, decide_eq_true_eq] at orderly
    have next : ∀ other,
        ((state.pool.append limits record stream chunk).records other).nextSequence =
          (state.pool.records other).nextSequence + if other = record then 1 else 0 := by
      intro other
      rw [same, ← others other, ← trims.nextSequence other]
      simp only [NativeOutputPool.insert, Function.update_apply]
      split_ifs with own
      · rw [own]
      · rfl
    have logs : ∀ other, ∃ count,
        ((state.pool.append limits record stream chunk).records other).logs =
          (state.pool.records other).logs.drop count ++
            if other = record then [state.pool.nextEvent record stream chunk] else [] := by
      intro other
      obtain ⟨count, left⟩ := trims.logs other
      rw [(takeNumber_records _ _ _).1] at left
      refine ⟨count, ?_⟩
      rw [same, ← left]
      simp only [NativeOutputPool.insert, Function.update_apply]
      split_ifs with own
      · rw [own]
      · rw [List.append_nil]
    refine kept.appends rfl balanced within ?_ next ?_
    · intro other
      obtain ⟨count, left⟩ := logs other
      have number := next other
      split_ifs at left number with own
      · rw [own] at left number ⊢
        exact (kept.contiguous record).extended left rfl number
      · rw [List.append_nil] at left
        exact (kept.contiguous other).trimmed count left number
    · intro other found foundIn
      obtain ⟨count, left⟩ := logs other
      rw [left] at foundIn
      rcases List.mem_append.mp foundIn with old | new'
      · exact .inl (List.mem_of_mem_drop old)
      · split_ifs at new' with own
        · exact .inr ⟨own, List.mem_singleton.mp new', orderly.2⟩
        · cases new'

/-- Retiring a record leaves no hole. -/
theorem Reading.Kept.release (record : ℕ) :
    Reading.Kept numbers limits { state with pool := state.pool.release record } := by
  obtain ⟨balanced, trims, -⟩ := kept.balanced.release record
  have same := retire_records state.pool record
  have next : ∀ other, ((state.pool.release record).records other).nextSequence =
      (state.pool.records other).nextSequence := fun other =>
    (trims.nextSequence other).trans (same other).2.2
  have logs : ∀ other, ∃ count, ((state.pool.release record).records other).logs =
      (state.pool.records other).logs.drop count := by
    intro other
    obtain ⟨count, left⟩ := trims.logs other
    exact ⟨count, by rw [left, (same other).1]⟩
  have retired : (state.pool.retire record).Within limits := by
    refine ⟨kept.within.bytes, kept.within.events, fun other => ?_, fun other => ?_⟩
    · rw [(same other).2.1]
      exact kept.within.recordBytes other
    · rw [(same other).1]
      exact kept.within.recordEvents other
  refine ⟨balanced, retired.trims trims, fun other => ?_, fun other => ?_, kept.accounted,
    fun other => ?_, fun other found foundIn => ?_, kept.genuine, fun other found foundIn => ?_⟩
  · obtain ⟨count, left⟩ := logs other
    exact (kept.contiguous other).trimmed count left (next other)
  · change state.cursors other < ((state.pool.release record).records other).nextSequence
    rw [next other]
    exact kept.behind other
  · change (state.appended other).map OutputEvent.sequence =
      List.range' 1 (((state.pool.release record).records other).nextSequence - 1)
    rw [next other]
    exact kept.numbered other
  · obtain ⟨count, left⟩ := logs other
    change found ∈ ((state.pool.release record).records other).logs at foundIn
    rw [left] at foundIn
    exact kept.held other found (List.mem_of_mem_drop foundIn)
  · obtain ⟨count, left⟩ := logs other
    change found ∈ ((state.pool.release record).records other).logs at foundIn
    rw [left] at foundIn
    exact kept.small other found (List.mem_of_mem_drop foundIn)

theorem Reading.Kept.page (record : ℕ) {limit : ℕ} (some' : 2 ≤ limit) :
    Reading.Kept numbers limits
      { state with
        cursors := Function.update state.cursors record
          ((state.pool.records record).cursor numbers (state.cursors record) limit)
        given := Function.update state.given record
          (state.given record ++
            pageGives numbers (state.pool.records record) (state.cursors record) limit) } := by
  obtain ⟨count, spec⟩ := pageSpec numbers (kept.contiguous record)
    (kept.behind record) some'
  refine ⟨kept.balanced, kept.within, kept.contiguous, fun other => ?_, fun other => ?_,
    kept.numbered, kept.held, fun other found given => ?_, kept.small⟩
  · simp only [Function.update_apply]
    split_ifs with own
    · rw [own, spec.cursor]
      exact spec.behind
    · exact kept.behind other
  · simp only [Function.update_apply]
    split_ifs with own
    · rw [List.flatMap_append, kept.accounted record, spec.gives, spec.cursor, Nat.add_comm _ 1,
        List.range'_append_1]
    · exact kept.accounted other
  · simp only [Function.update_apply] at given
    split_ifs at given with own
    · rw [own]
      rcases List.mem_append.mp given with before | now
      · exact kept.genuine record found before
      · exact kept.held record found (spec.held found now)
    · exact kept.genuine other found given

theorem Reading.Kept.step {event : PoolEvent} {next : Reading}
    (orderly : state.isOrderly numbers limits event = true)
    (stepped : Reading.step numbers limits state event = some next) : next.Kept numbers limits := by
  cases event with
  | append record stream chunk =>
    rw [Reading.step] at stepped
    split_ifs at stepped with retired
    · cases stepped
      exact kept
    · cases stepped
      exact kept.append orderly (Bool.eq_false_of_not_eq_true retired)
  | release record =>
    cases stepped
    exact kept.release record
  | page record limit =>
    simp only [Reading.step] at stepped
    split_ifs at stepped with few
    cases stepped
    exact kept.page record (Nat.le_of_not_lt few)

end

end Steps

theorem Reading.Kept.start (numbers : NumberFormat) (limits : OutputLimits) :
    (Reading.machine numbers limits).start.Kept numbers limits := by
  refine ⟨.new, ⟨Nat.zero_le _, Nat.zero_le _, fun _ => Nat.zero_le _, fun _ => Nat.zero_le _⟩,
    fun _ => ⟨Nat.zero_lt_one, rfl⟩, fun _ => Nat.zero_lt_one, fun _ => rfl,
      fun _ => rfl, ?_, ?_, ?_⟩
  · intro record event eventIn
    cases eventIn
  · intro record event given
    cases given
  · intro record event eventIn
    cases eventIn

def Reading.nextPage (numbers : NumberFormat) (state : Reading) (record limit : ℕ) :
    List OutputEvent :=
  (state.pool.records record).page numbers (state.cursors record) limit

def Reading.nextCursor (numbers : NumberFormat) (state : Reading) (record limit : ℕ) : ℕ :=
  (state.pool.records record).cursor numbers (state.cursors record) limit

def Reading.nextGiven (numbers : NumberFormat) (state : Reading) (record limit : ℕ) :
    List Received :=
  pageGives numbers (state.pool.records record) (state.cursors record) limit

structure Reading.Accounts (numbers : NumberFormat) (limits : OutputLimits) (state : Reading) :
    Prop where
  numbered : ∀ record, (state.appended record).map OutputEvent.sequence =
    List.range' 1 (state.appended record).length
  accounted : ∀ record, (state.given record).flatMap Received.numbers =
    List.range' 1 (state.cursors record)
  genuine : ∀ record event, .event event ∈ state.given record → event ∈ state.appended record
  shown : ∀ record limit, 2 ≤ limit →
    (state.nextGiven numbers record limit).map (Received.shown numbers) =
      state.nextPage numbers record limit
  ends : ∀ record limit, 2 ≤ limit → (state.nextPage numbers record limit = [] ↔
    state.cursors record = (state.appended record).length)
  advances : ∀ record limit, 2 ≤ limit → state.nextPage numbers record limit ≠ [] →
    state.cursors record < state.nextCursor numbers record limit ∧
      state.nextCursor numbers record limit ≤ (state.appended record).length
  sums : ∀ records : List ℕ, records.Nodup →
    (∀ record, (state.pool.records record).logs ≠ [] → record ∈ records) →
    state.pool.bytes = tally (fun record => (state.pool.records record).logBytes) records ∧
      state.pool.entries.length =
        tally (fun record => (state.pool.records record).logs.length) records
  within : state.pool.Within limits

/-- A reader that has missed nothing so far is given nothing but what follows. -/
theorem Reading.Kept.accounts {numbers : NumberFormat} {limits : OutputLimits} {state : Reading}
    (kept : state.Kept numbers limits) : state.Accounts numbers limits := by
  have next : ∀ record, (state.pool.records record).nextSequence =
      (state.appended record).length + 1 := by
    intro record
    have lengths := congrArg List.length (kept.numbered record)
    have positive := (kept.contiguous record).positive
    rw [List.length_map, List.length_range'] at lengths
    omega
  refine ⟨fun record => ?_, kept.accounted, kept.genuine, fun record limit some' => ?_,
    fun record limit some' => ?_, fun record limit some' nonempty => ?_,
    fun records once all => kept.balanced.sums once all, kept.within⟩
  · rw [kept.numbered, next, Nat.add_sub_cancel]
  · exact shown_pageGives _ some'
  · obtain ⟨count, spec⟩ := pageSpec numbers (kept.contiguous record)
      (kept.behind record) some'
    have behind := spec.behind
    rw [next record] at behind
    rw [Reading.nextPage, spec.empty]
    constructor
    · intro zero
      rcases spec.ended zero with reached | ⟨event, eventIn, tooLarge⟩
      · rw [next record] at reached
        omega
      · have fits := kept.small record event eventIn
        omega
    · intro reached
      omega
  · obtain ⟨count, spec⟩ := pageSpec numbers (kept.contiguous record)
      (kept.behind record) some'
    have behind := spec.behind
    rw [next record] at behind
    have moved : count ≠ 0 := fun zero => nonempty (spec.empty.mpr zero)
    rw [Reading.nextCursor, spec.cursor]
    constructor
    · omega
    · omega

section Runs

variable (numbers : NumberFormat) (limits : OutputLimits)

/-- In every run of orderly steps every chunk is accounted for. -/
theorem reading_accounts (events : List PoolEvent) (state : Reading)
    (reached : (Reading.machine numbers limits).ReachesWhen
      (fun state event => state.isOrderly numbers limits event = true) events state) :
    state.Accounts numbers limits := by
  have kept : state.Kept numbers limits :=
    reached.invariant (Reading.Kept.start numbers limits)
      fun _ _ _ before orderly stepped => before.step orderly stepped
  exact kept.accounts

end Runs

/-- Limits for two small chunks in a record. -/
def smallOutputLimits : OutputLimits := ⟨1000, 150, 10, 10⟩

/-- Two records take three chunks each and their readers are given some of them. -/
def threeChunks : List PoolEvent :=
  [.append 0 (js "stdout") (js "a"), .append 1 (js "stderr") (js "x"),
    .append 0 (js "stdout") (js "b"), .page 0 2, .append 0 (js "stdout") (js "c"),
    .append 0 (js "stdout") (js "d"), .append 0 (js "stdout") (js "e"), .page 0 2, .page 1 2,
    .release 1, .page 1 2]

/-- The numbers that a reader's next page would have to go on from. -/
def Reading.position (state : Reading) (record : ℕ) : ℕ × List ℕ :=
  (state.cursors record, (state.given record).flatMap Received.numbers)

/-- A reader is given two chunks, a notice that counts one, and the next chunk. -/
theorem reading_accounts_threeChunks : ∃ state : Reading,
    state.position 0 = (4, [1, 2, 3, 4]) ∧
      state.Accounts Kernel.decimalFormat smallOutputLimits := by
  have ran : (((Reading.machine Kernel.decimalFormat smallOutputLimits).guarded
      fun state event => state.isOrderly Kernel.decimalFormat smallOutputLimits event = true).run
        threeChunks).map (fun state => state.position 0) = some (4, [1, 2, 3, 4]) := by
    decide +kernel
  obtain ⟨state, reached, position⟩ := Machine.exists_of_guarded_run ran
  exact ⟨state, position, reading_accounts Kernel.decimalFormat smallOutputLimits threeChunks state
    reached⟩

def largeChunkBetween : List PoolEvent :=
  [.append 0 (js "stdout") (js "a"), .append 0 (js "stdout") (List.replicate 100 0x61),
    .append 0 (js "stdout") (js "b"), .page 0 2]

/-- A chunk that is dropped behind a held one is neither returned nor counted. -/
theorem chunk_missing : ¬ ∀ (numbers : NumberFormat) (limits : OutputLimits)
    (events : List PoolEvent) (state : Reading),
    (Reading.machine numbers limits).Reaches events state → state.Accounts numbers limits := by
  intro claimed
  have ran : ((Reading.machine Kernel.decimalFormat smallOutputLimits).run
      largeChunkBetween).map (fun state => state.position 0) = some (3, [1, 3]) := by
    decide +kernel
  obtain ⟨state, reached, position⟩ := Machine.exists_of_run ran
  have accounts := claimed Kernel.decimalFormat smallOutputLimits largeChunkBetween state
    reached
  have accounted := accounts.accounted 0
  rw [Reading.position, Prod.mk.injEq] at position
  rw [position.1, position.2] at accounted
  exact absurd accounted (by decide)

end Holonomy.Service
