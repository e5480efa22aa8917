import Holonomy.Service.NativeOutputBooks

/-!
# Pages of native output

A record whose numbers have no holes gives pages without holes: what a page gives accounts for the
numbers behind the cursor one after another, and its cursor is the last of them. So a reader
misses nothing as long as no chunk is dropped behind events that the record still holds; a chunk
that is dropped there takes a number that no page ever mentions.
-/

namespace Holonomy.Service

open Foundation

structure OutputRecord.Contiguous (record : OutputRecord) : Prop where
  positive : record.logs.length < record.nextSequence
  numbers : record.logs.map OutputEvent.sequence =
    List.range' (record.nextSequence - record.logs.length) record.logs.length

variable {record : OutputRecord}

theorem OutputRecord.Contiguous.first_eq (contiguous : record.Contiguous) :
    record.first = record.nextSequence - record.logs.length := by
  have listed := contiguous.numbers
  unfold OutputRecord.first
  cases held : record.logs with
  | nil => simp
  | cons event rest =>
    rw [held, List.map_cons, List.length_cons, List.range'_succ, List.cons.injEq] at listed
    exact listed.1

theorem contiguous_drop {logs : List OutputEvent} {next : ℕ} (positive : logs.length < next)
    (numbers : logs.map OutputEvent.sequence = List.range' (next - logs.length) logs.length)
    (count : ℕ) : (logs.drop count).length < next ∧ (logs.drop count).map OutputEvent.sequence =
      List.range' (next - (logs.drop count).length) (logs.drop count).length := by
  rw [List.length_drop]
  refine ⟨by omega, ?_⟩
  rw [List.map_drop, numbers, List.drop_range', Nat.mul_one]
  by_cases inside : count ≤ logs.length
  · have start : next - logs.length + count = next - (logs.length - count) := by omega
    rw [start]
  · have none' : logs.length - count = 0 := by omega
    rw [none', List.range'_zero, List.range'_zero]

section Pages

variable {numbers : NumberFormat}

theorem pageEvents_spec (numbers : NumberFormat) (after limit : ℕ) {first : ℕ}
    {logs : List OutputEvent}
    (listed : logs.map OutputEvent.sequence = List.range' first logs.length) (count bytes : ℕ) :
    ∃ taken, pageEvents numbers after limit count bytes logs =
        (logs.drop (after + 1 - first)).take taken ∧
      (taken = 0 → logs.drop (after + 1 - first) = [] ∨ count ≥ limit ∨
        ∃ event ∈ logs, bytes + event.cost numbers > maxPageBytes) := by
  induction logs generalizing first count bytes with
  | nil => exact ⟨0, by simp [pageEvents], fun _ => .inl List.drop_nil⟩
  | cons event rest ih =>
    rw [List.map_cons, List.length_cons, List.range'_succ, List.cons.injEq] at listed
    rw [pageEvents, listed.1]
    by_cases seen : first ≤ after
    · obtain ⟨taken, same, some'⟩ := ih listed.2 count bytes
      have shift : after + 1 - first = after + 1 - (first + 1) + 1 := by omega
      rw [if_pos seen, shift, List.drop_succ_cons]
      refine ⟨taken, same, fun zero => ?_⟩
      rcases some' zero with nothing | full | ⟨large, largeIn, tooLarge⟩
      · exact .inl nothing
      · exact .inr (.inl full)
      · exact .inr (.inr ⟨large, List.mem_cons_of_mem _ largeIn, tooLarge⟩)
    · have shift : after + 1 - first = 0 := by omega
      rw [if_neg seen, shift, List.drop_zero]
      by_cases stops : count ≥ limit ∨ bytes + event.cost numbers > maxPageBytes
      · rw [if_pos stops]
        refine ⟨0, rfl, fun _ => .inr ?_⟩
        rcases stops with full | tooLarge
        · exact .inl full
        · exact .inr ⟨event, List.mem_cons_self, tooLarge⟩
      · obtain ⟨taken, same, -⟩ := ih listed.2 (count + 1) (bytes + event.cost numbers)
        have rest' : after + 1 - (first + 1) = 0 := by omega
        rw [rest', List.drop_zero] at same
        rw [if_neg stops, same]
        exact ⟨taken + 1, rfl, fun impossible => by omega⟩

structure PageSpec (numbers : NumberFormat) (record : OutputRecord) (after limit count : ℕ) :
    Prop where
  gives : (Reading.pageGives numbers record after limit).flatMap Received.numbers =
    List.range' (after + 1) count
  cursor : record.cursor numbers after limit = after + count
  behind : after + count < record.nextSequence
  held : ∀ event, .event event ∈ Reading.pageGives numbers record after limit → event ∈ record.logs
  empty : record.page numbers after limit = [] ↔ count = 0
  ended : count = 0 → after + 1 = record.nextSequence ∨
    ∃ event ∈ record.logs, 128 + event.cost numbers > maxPageBytes

theorem OutputRecord.dropped_eq (record : OutputRecord) (after : ℕ) {limit : ℕ}
    (some' : 2 ≤ limit) :
    record.dropped after limit = record.first - (after + 1) := by
  unfold OutputRecord.dropped
  split_ifs with missing
  · omega
  · omega

variable {after limit : ℕ}

theorem taken_numbers (contiguous : record.Contiguous) (some' : 2 ≤ limit) {taken : ℕ}
    (same : record.taken numbers after limit =
      (record.logs.drop (after + 1 - record.first)).take taken) :
    (record.taken numbers after limit).map OutputEvent.sequence =
      List.range' (after + 1 + record.dropped after limit)
        (record.taken numbers after limit).length := by
  have listed := contiguous.numbers
  have first := contiguous.first_eq
  have dropped := record.dropped_eq after some'
  rw [← first] at listed
  rw [same, List.map_take, List.map_drop, listed, List.drop_range', Nat.mul_one, List.length_take,
    List.length_drop]
  by_cases nothing : record.logs.length - (after + 1 - record.first) = 0
  · rw [nothing, Nat.min_zero, List.range'_zero, List.range'_zero, List.take_nil]
  · have start : record.first + (after + 1 - record.first) =
        after + 1 + record.dropped after limit := by omega
    rw [start]
    by_cases whole : record.logs.length - (after + 1 - record.first) ≤ taken
    · rw [List.take_range'_of_length_le whole, Nat.min_eq_right whole]
    · have part : taken ≤ record.logs.length - (after + 1 - record.first) := by omega
      rw [List.take_range'_of_length_ge part, Nat.min_eq_left part]

theorem flatMap_event (events : List OutputEvent) :
    (events.map Received.event).flatMap Received.numbers = events.map OutputEvent.sequence := by
  induction events with
  | nil => rfl
  | cons event rest ih =>
    rw [List.map_cons, List.flatMap_cons, ih, Received.numbers, List.map_cons,
      List.singleton_append]

/-- The event that shows a reader what it is given. -/
def Received.shown (numbers : NumberFormat) : Received → OutputEvent
  | .event found => found
  | .dropped after count => dropNotice numbers (after + 1 + count) count

theorem shown_pageGives (record : OutputRecord) (some' : 2 ≤ limit) :
    (Reading.pageGives numbers record after limit).map (Received.shown numbers) =
      record.page numbers after limit := by
  have dropped := record.dropped_eq after some'
  have events : ((record.taken numbers after limit).map Received.event).map
    (Received.shown numbers) =
      record.taken numbers after limit := by
    rw [List.map_map]
    exact List.map_id _
  rw [Reading.pageGives, OutputRecord.page, OutputRecord.notice, List.map_append, events]
  congr 1
  split_ifs with nothing
  · rfl
  · have first : after + 1 + record.dropped after limit = record.first := by omega
    rw [List.map_singleton, Received.shown, first]

theorem pageSpec (numbers : NumberFormat)
    (contiguous : record.Contiguous) (behind : after < record.nextSequence)
    (some' : 2 ≤ limit) :
    ∃ count, PageSpec numbers record after limit count := by
  have first := contiguous.first_eq
  have positive := contiguous.positive
  have dropped := record.dropped_eq after some'
  have listed := contiguous.numbers
  rw [← first] at listed
  obtain ⟨taken, same, stopped⟩ := pageEvents_spec numbers after limit listed
    (record.notice numbers after limit).length
    (128 + tally (OutputEvent.cost numbers) (record.notice numbers after limit))
  have takenIs : record.taken numbers after limit =
      (record.logs.drop (after + 1 - record.first)).take taken := same
  have takenNumbers := taken_numbers contiguous some' takenIs
  have short := congrArg List.length takenIs
  rw [List.length_take, List.length_drop] at short
  refine ⟨record.dropped after limit + (record.taken numbers after limit).length,
    ?_, ?_, ?_, ?_, ?_, ?_⟩
  · rw [Reading.pageGives, List.flatMap_append, flatMap_event, takenNumbers]
    split_ifs with nothing
    · rw [nothing, List.flatMap_nil, List.nil_append, Nat.add_zero, Nat.zero_add]
    · rw [List.flatMap_singleton, Received.numbers, List.range'_append_1]
  · unfold OutputRecord.cursor OutputRecord.page
    rw [List.getLast?_append]
    have last : (record.taken numbers after limit).getLast?.map OutputEvent.sequence =
        ((record.taken numbers after limit).map OutputEvent.sequence).getLast? :=
      List.getLast?_map.symm
    rw [takenNumbers, List.getLast?_range'] at last
    cases ending : (record.taken numbers after limit).getLast? with
    | none =>
      have empty := List.getLast?_eq_none_iff.mp ending
      rw [empty, OutputRecord.notice]
      split_ifs with nothing
      · simp [nothing]
      · simp [dropNotice]
        omega
    | some event =>
      rw [ending] at last
      simp only [Option.map_some] at last
      split_ifs at last with nothing
      have number := Option.some.inj last
      simp only [Option.some_or, number]
      omega
  · omega
  · intro event given
    rw [Reading.pageGives] at given
    rcases List.mem_append.mp given with notice | held
    · split_ifs at notice
      · cases notice
      · cases List.mem_singleton.mp notice
    · obtain ⟨other, otherIn, equal⟩ := List.mem_map.mp held
      cases equal
      rw [takenIs] at otherIn
      exact List.mem_of_mem_drop (List.mem_of_mem_take otherIn)
  · rw [OutputRecord.page, List.append_eq_nil_iff, OutputRecord.notice, ← List.length_eq_zero_iff]
    split_ifs with nothing
    · simp [nothing]
    · simp [nothing]
  · intro zero
    have noDropped : record.dropped after limit = 0 := by omega
    have noTaken : (record.taken numbers after limit).length = 0 := by omega
    have noNotice : record.notice numbers after limit = [] := by
      rw [OutputRecord.notice, if_pos noDropped]
    by_cases emptied : record.logs.length ≤ after + 1 - record.first
    · left
      omega
    · right
      have noneTaken : taken = 0 := by omega
      rcases stopped noneTaken with none' | full | ⟨event, eventIn, tooLarge⟩
      · rw [List.drop_eq_nil_iff] at none'
        exact absurd none' emptied
      · rw [noNotice, List.length_nil] at full
        omega
      · rw [noNotice, tally_nil, Nat.add_zero] at tooLarge
        exact ⟨event, eventIn, tooLarge⟩

end Pages

end Holonomy.Service
