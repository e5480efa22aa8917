import Mathlib

/-!
# Incremental readers

An incremental reader takes items off the head of a growing input. What it has decided about some
input it also decides about every continuation of it; only asking for more input is open.
-/

namespace Holonomy.Foundation

/-- What stands at the head of an input. -/
inductive Progress (α β : Type) where
  /-- The input ends inside the next item. -/
  | more
  | item (value : β) (rest : List α)
  /-- No continuation of the input is an item. -/
  | reject

/-- A reader of items whose decisions stand when the input grows. -/
structure Incremental (α β : Type) where
  /-- Look at the head of the input. -/
  next : List α → Progress α β
  /-- Nothing is decided about no input. -/
  next_nil : next [] = .more
  /-- An item takes something off the input. -/
  shorter : ∀ {input value rest}, next input = .item value rest → rest.length < input.length
  item_append : ∀ {input value rest}, next input = .item value rest →
    ∀ extra, next (input ++ extra) = .item value (rest ++ extra)
  /-- A refusal stays a refusal. -/
  reject_append : ∀ {input}, next input = .reject → ∀ extra, next (input ++ extra) = .reject

/-- All that a reader has taken off an input. -/
structure Drained (α β : Type) where
  items : List β
  rest : List α
  /-- The input that is left is refused. -/
  rejected : Bool

structure Fed (α β : Type) where
  /-- The items returned by the calls that did not fail. -/
  handed : List β
  rest : List α
  /-- Some call failed; the chunks after it were not read. -/
  threw : Bool

namespace Drained

/-- Put items in front. -/
def prepend (items : List β) (drained : Drained α β) : Drained α β :=
  { drained with items := items ++ drained.items }

@[simp]
theorem prepend_items (items : List β) (drained : Drained α β) :
    (drained.prepend items).items = items ++ drained.items := rfl

@[simp]
theorem prepend_rest (items : List β) (drained : Drained α β) :
    (drained.prepend items).rest = drained.rest := rfl

@[simp]
theorem prepend_rejected (items : List β) (drained : Drained α β) :
    (drained.prepend items).rejected = drained.rejected := rfl

/-- Nothing in front changes nothing. -/
@[simp]
theorem prepend_nil (drained : Drained α β) : drained.prepend [] = drained := rfl

/-- Items in front of items. -/
theorem prepend_prepend (first second : List β) (drained : Drained α β) :
    (drained.prepend second).prepend first = drained.prepend (first ++ second) := by
  simp [prepend, List.append_assoc]

end Drained

namespace Incremental

variable {α β : Type} (reader : Incremental α β)

/-- Take at most so many items off the input. -/
def drainFor : ℕ → List α → Drained α β
  | 0, input => ⟨[], input, false⟩
  | fuel + 1, input =>
    match reader.next input with
    | .more => ⟨[], input, false⟩
    | .reject => ⟨[], input, true⟩
    | .item value rest => (drainFor fuel rest).prepend [value]

/-- Take all items off the input. -/
def drain (input : List α) : Drained α β := reader.drainFor (input.length + 1) input

def feed : List α → List (List α) → Fed α β
  | buffer, [] => ⟨[], buffer, false⟩
  | buffer, chunk :: chunks =>
    let drained := reader.drain (buffer ++ chunk)
    if drained.rejected then ⟨[], drained.rest, true⟩
    else
      let fed := feed drained.rest chunks
      ⟨drained.items ++ fed.handed, fed.rest, fed.threw⟩

/-- More turns than the input has elements change nothing. -/
theorem drainFor_enough {fuel : ℕ} {input : List α} (enough : input.length < fuel) :
    reader.drainFor fuel input = reader.drain input := by
  have agree : ∀ (first second : ℕ) (input : List α), input.length < first →
      input.length < second → reader.drainFor first input = reader.drainFor second input := by
    intro first
    induction first with
    | zero => intro second input short; omega
    | succ first ih =>
      intro second input short shortToo
      cases second with
      | zero => omega
      | succ second =>
        rw [drainFor, drainFor]
        cases found : reader.next input with
        | more => rfl
        | reject => rfl
        | item value rest =>
          have less := reader.shorter found
          have same := ih second rest (by omega) (by omega)
          exact congrArg (Drained.prepend [value]) same
  exact agree fuel (input.length + 1) input enough (Nat.lt_succ_self _)

theorem drain_more {input : List α} (found : reader.next input = .more) :
    reader.drain input = ⟨[], input, false⟩ := by
  rw [drain, drainFor, found]

theorem drain_reject {input : List α} (found : reader.next input = .reject) :
    reader.drain input = ⟨[], input, true⟩ := by
  rw [drain, drainFor, found]

/-- Reading goes on behind an item. -/
theorem drain_item {input rest : List α} {value : β}
    (found : reader.next input = .item value rest) :
    reader.drain input = (reader.drain rest).prepend [value] := by
  have less := reader.shorter found
  rw [drain, drainFor, found]
  exact congrArg (Drained.prepend [value]) (reader.drainFor_enough less)

theorem drain_induction {motive : List α → Prop}
    (more : ∀ input, reader.next input = .more → motive input)
    (reject : ∀ input, reader.next input = .reject → motive input)
    (item : ∀ input value rest, reader.next input = .item value rest → motive rest → motive input)
    (input : List α) : motive input := by
  have bounded : ∀ (size : ℕ) (input : List α), input.length ≤ size → motive input := by
    intro size
    induction size with
    | zero =>
      intro input short
      have empty : input = [] := List.eq_nil_of_length_eq_zero (Nat.le_zero.mp short)
      subst empty
      exact more [] reader.next_nil
    | succ size ih =>
      intro input short
      cases found : reader.next input with
      | more => exact more input found
      | reject => exact reject input found
      | item value rest =>
        have less := reader.shorter found
        exact item input value rest found (ih rest (by omega))
  exact bounded input.length input le_rfl

/-- What is left without a refusal asks for more. -/
theorem next_rest (input : List α) (admitted : (reader.drain input).rejected = false) :
    reader.next (reader.drain input).rest = .more := by
  induction input using reader.drain_induction with
  | more input found =>
    rw [reader.drain_more found]
    exact found
  | reject input found =>
    rw [reader.drain_reject found] at admitted
    cases admitted
  | item input value rest found ih =>
    rw [reader.drain_item found] at admitted ⊢
    exact ih admitted

theorem drain_append_rejected (input extra : List α)
    (refused : (reader.drain input).rejected = true) :
    reader.drain (input ++ extra) =
      ⟨(reader.drain input).items, (reader.drain input).rest ++ extra, true⟩ := by
  induction input using reader.drain_induction with
  | more input found =>
    rw [reader.drain_more found] at refused
    cases refused
  | reject input found =>
    rw [reader.drain_reject found, reader.drain_reject (reader.reject_append found extra)]
  | item input value rest found ih =>
    rw [reader.drain_item found] at refused ⊢
    rw [reader.drain_item (reader.item_append found extra), ih refused]
    rfl

theorem drain_append (input extra : List α) (admitted : (reader.drain input).rejected = false) :
    reader.drain (input ++ extra) =
      (reader.drain ((reader.drain input).rest ++ extra)).prepend (reader.drain input).items := by
  induction input using reader.drain_induction with
  | more input found => rw [reader.drain_more found, Drained.prepend_nil]
  | reject input found =>
    rw [reader.drain_reject found] at admitted
    cases admitted
  | item input value rest found ih =>
    rw [reader.drain_item found] at admitted ⊢
    rw [reader.drain_item (reader.item_append found extra), ih admitted, Drained.prepend_prepend]
    rfl

section Chunks

variable {buffer : List α} (settled : reader.next buffer = .more)

include settled

theorem drain_nothing :
    reader.drain (buffer ++ ([] : List (List α)).flatten) = ⟨[], buffer, false⟩ := by
  have joined : buffer ++ ([] : List (List α)).flatten = buffer := List.append_nil _
  rw [joined, reader.drain_more settled]

/-- Whether some call fails depends on the joined input only. -/
theorem feed_threw (chunks : List (List α)) :
    (reader.feed buffer chunks).threw = (reader.drain (buffer ++ chunks.flatten)).rejected := by
  induction chunks generalizing buffer with
  | nil =>
    rw [reader.drain_nothing settled]
    rfl
  | cons chunk chunks ih =>
    rw [List.flatten_cons, ← List.append_assoc, feed]
    by_cases refused : (reader.drain (buffer ++ chunk)).rejected = true
    · rw [reader.drain_append_rejected _ _ refused]
      simp only [refused, if_true]
    · have admitted : (reader.drain (buffer ++ chunk)).rejected = false :=
        Bool.eq_false_of_not_eq_true refused
      rw [reader.drain_append _ _ admitted, Drained.prepend_rejected,
        ← ih (reader.next_rest _ admitted)]
      simp only [admitted, Bool.false_eq_true, if_false]

/-- When no call fails, the items and what is left depend on the joined input only. -/
theorem feed_of_admitted (chunks : List (List α))
    (admitted : (reader.drain (buffer ++ chunks.flatten)).rejected = false) :
    reader.feed buffer chunks =
      ⟨(reader.drain (buffer ++ chunks.flatten)).items,
        (reader.drain (buffer ++ chunks.flatten)).rest, false⟩ := by
  induction chunks generalizing buffer with
  | nil =>
    rw [reader.drain_nothing settled]
    rfl
  | cons chunk chunks ih =>
    rw [List.flatten_cons, ← List.append_assoc] at admitted ⊢
    have firstAdmitted : (reader.drain (buffer ++ chunk)).rejected = false := by
      by_contra refused
      rw [reader.drain_append_rejected _ _ (Bool.eq_true_of_not_eq_false refused)] at admitted
      cases admitted
    rw [reader.drain_append _ _ firstAdmitted] at admitted ⊢
    rw [feed, firstAdmitted, if_neg Bool.false_ne_true,
      ih (reader.next_rest _ firstAdmitted) admitted]
    rfl

theorem feed_of_rejected (chunks : List (List α))
    (refused : (reader.drain (buffer ++ chunks.flatten)).rejected = true) :
    ∃ count < chunks.length,
      (reader.drain (buffer ++ (chunks.take count).flatten)).rejected = false ∧
      (reader.drain (buffer ++ (chunks.take (count + 1)).flatten)).rejected = true ∧
      (reader.feed buffer chunks).handed =
        (reader.drain (buffer ++ (chunks.take count).flatten)).items := by
  induction chunks generalizing buffer with
  | nil =>
    rw [reader.drain_nothing settled] at refused
    cases refused
  | cons chunk chunks ih =>
    rw [List.flatten_cons, ← List.append_assoc] at refused
    by_cases first : (reader.drain (buffer ++ chunk)).rejected = true
    · refine ⟨0, Nat.succ_pos _, ?_, ?_, ?_⟩
      · simp [reader.drain_more settled]
      · simpa using first
      · rw [feed, first, if_pos rfl]
        simp [reader.drain_more settled]
    · have admitted : (reader.drain (buffer ++ chunk)).rejected = false :=
        Bool.eq_false_of_not_eq_true first
      rw [reader.drain_append _ _ admitted] at refused
      have later := ih (reader.next_rest _ admitted) refused
      obtain ⟨count, inside, before, after, handed⟩ := later
      refine ⟨count + 1, Nat.succ_lt_succ inside, ?_, ?_, ?_⟩
      · rw [List.take_succ_cons, List.flatten_cons, ← List.append_assoc,
          reader.drain_append _ _ admitted]
        exact before
      · rw [List.take_succ_cons, List.flatten_cons, ← List.append_assoc,
          reader.drain_append _ _ admitted]
        exact after
      · rw [feed, admitted, if_neg Bool.false_ne_true, List.take_succ_cons, List.flatten_cons,
          ← List.append_assoc, reader.drain_append _ _ admitted, Drained.prepend_items, ← handed]

end Chunks

/-- The items of a shorter input come first. -/
theorem items_append (input extra : List α) :
    (reader.drain input).items <+: (reader.drain (input ++ extra)).items := by
  cases refused : (reader.drain input).rejected with
  | true => rw [reader.drain_append_rejected _ _ refused]
  | false =>
    rw [reader.drain_append _ _ refused, Drained.prepend_items]
    exact List.prefix_append _ _

section Encoding

variable (encode : β → List α)

theorem drain_written (values : List β)
    (written : ∀ value ∈ values, ∀ rest, reader.next (encode value ++ rest) = .item value rest)
    (rest : List α) :
    reader.drain (values.flatMap encode ++ rest) = (reader.drain rest).prepend values := by
  induction values with
  | nil => rw [List.flatMap_nil, List.nil_append, Drained.prepend_nil]
  | cons value values ih =>
    have head := written value List.mem_cons_self (values.flatMap encode ++ rest)
    have tail := ih fun value valueIn => written value (List.mem_cons_of_mem _ valueIn)
    rw [List.flatMap_cons, List.append_assoc, reader.drain_item head, tail,
      Drained.prepend_prepend, List.singleton_append]

theorem of_mem_items (holds : β → Prop)
    (sound : ∀ input value rest, reader.next input = .item value rest → holds value)
    (input : List α) : ∀ value ∈ (reader.drain input).items, holds value := by
  induction input using reader.drain_induction with
  | more input found =>
    rw [reader.drain_more found]
    exact fun value valueIn => absurd valueIn List.not_mem_nil
  | reject input found =>
    rw [reader.drain_reject found]
    exact fun value valueIn => absurd valueIn List.not_mem_nil
  | item input value rest found ih =>
    rw [reader.drain_item found, Drained.prepend_items, List.singleton_append, List.forall_mem_cons]
    exact ⟨sound input value rest found, ih⟩

theorem next_beginning {value : β} {beginning missing : List α}
    (written : reader.next (beginning ++ missing) = .item value []) (proper : missing ≠ []) :
    reader.next beginning = .more := by
  cases found : reader.next beginning with
  | more => rfl
  | reject =>
    rw [reader.reject_append found missing] at written
    cases written
  | item early rest =>
    rw [reader.item_append found missing] at written
    have left : rest ++ missing = [] := (Progress.item.inj written).2
    exact absurd (List.append_eq_nil_iff.mp left).2 proper

theorem written_drain
    (sound : ∀ input value rest, reader.next input = .item value rest →
    input = encode value ++ rest)
    (input : List α) :
    (reader.drain input).items.flatMap encode ++ (reader.drain input).rest = input := by
  induction input using reader.drain_induction with
  | more input found =>
    rw [reader.drain_more found]
    rfl
  | reject input found =>
    rw [reader.drain_reject found]
    rfl
  | item input value rest found ih =>
    rw [reader.drain_item found, Drained.prepend_items, Drained.prepend_rest,
      List.singleton_append, List.flatMap_cons, List.append_assoc, ih,
        ← sound input value rest found]

end Encoding

end Incremental

/-! ## Incremental readers that pause

A call of such a reader returns behind certain items and keeps the rest of its input, which the next
call reads on.
-/

namespace Incremental

variable {α β : Type} (reader : Incremental α β) (pauses : β → Bool)

def takeFor : ℕ → List α → Drained α β
  | 0, input => ⟨[], input, false⟩
  | fuel + 1, input =>
    match reader.next input with
    | .more => ⟨[], input, false⟩
    | .reject => ⟨[], input, true⟩
    | .item value rest =>
      if pauses value then ⟨[value], rest, false⟩ else (takeFor fuel rest).prepend [value]

/-- What one call takes off the input. -/
def untilPause (input : List α) : Drained α β := reader.takeFor pauses (input.length + 1) input

/-- One call after another, up to the first that refuses. -/
def feedPausing : List α → List (List α) → Drained α β
  | buffer, [] => ⟨[], buffer, false⟩
  | buffer, chunk :: chunks =>
    let taken := reader.untilPause pauses (buffer ++ chunk)
    if taken.rejected then taken else (feedPausing taken.rest chunks).prepend taken.items

def Spells (front : List α) (items : List β) : Prop := reader.drain front = ⟨items, [], false⟩

def TakesFront : Prop := ∀ {input value rest}, reader.next input = .item value rest →
  ∃ front, input = front ++ rest ∧ reader.next front = .item value []

def Quiet (input : List α) : Prop := ∀ front items value rest, input = front ++ rest →
  reader.Spells front (items ++ [value]) → pauses value = true → reader.next rest = .more

variable {front input rest : List α} {items : List β} {value : β}

theorem drain_of_spells (spells : reader.Spells front items) (extra : List α) :
    reader.drain (front ++ extra) = (reader.drain extra).prepend items := by
  have admitted : (reader.drain front).rejected = false := by rw [spells]
  rw [reader.drain_append front extra admitted, spells, List.nil_append]

theorem Spells.append {first second : List α} {later : List β} (left : reader.Spells first items)
    (right : reader.Spells second later) : reader.Spells (first ++ second) (items ++ later) := by
  have whole := reader.drain_of_spells left second
  rw [right] at whole
  exact whole

/-- The part of an item spells it. -/
theorem spells_of_next (found : reader.next front = .item value []) :
    reader.Spells front [value] := by
  rw [Spells, reader.drain_item found, reader.drain_more reader.next_nil]
  rfl

/-- More turns than the input has elements change nothing. -/
theorem takeFor_enough {fuel : ℕ} (enough : input.length < fuel) :
    reader.takeFor pauses fuel input = reader.untilPause pauses input := by
  have agree : ∀ (first second : ℕ) (input : List α), input.length < first →
      input.length < second →
        reader.takeFor pauses first input = reader.takeFor pauses second input := by
    intro first
    induction first with
    | zero => intro second input short; omega
    | succ first ih =>
      intro second input short shortToo
      cases second with
      | zero => omega
      | succ second =>
        rw [takeFor, takeFor]
        cases found : reader.next input with
        | more => rfl
        | reject => rfl
        | item value rest =>
          have less := reader.shorter found
          have same := ih second rest (by omega) (by omega)
          simp only [same]
  exact agree fuel (input.length + 1) input enough (Nat.lt_succ_self _)

/-- A call takes nothing where more input is asked for. -/
theorem untilPause_more (found : reader.next input = .more) :
    reader.untilPause pauses input = ⟨[], input, false⟩ := by
  rw [untilPause, takeFor, found]

/-- A call fails where the input is refused. -/
theorem untilPause_reject (found : reader.next input = .reject) :
    reader.untilPause pauses input = ⟨[], input, true⟩ := by
  rw [untilPause, takeFor, found]

theorem untilPause_pause (found : reader.next input = .item value rest)
    (stops : pauses value = true) : reader.untilPause pauses input = ⟨[value], rest, false⟩ := by
  rw [untilPause, takeFor, found]
  exact if_pos stops

/-- A call goes on behind every other item. -/
theorem untilPause_item (found : reader.next input = .item value rest)
    (goes : pauses value = false) :
    reader.untilPause pauses input = (reader.untilPause pauses rest).prepend [value] := by
  have less := reader.shorter found
  rw [untilPause, takeFor, found]
  simp only [goes, Bool.false_eq_true, if_false, reader.takeFor_enough pauses less]

theorem next_of_append_more {extra : List α} (found : reader.next (input ++ extra) = .more) :
    reader.next input = .more := by
  cases head : reader.next input with
  | more => rfl
  | reject =>
    rw [reader.reject_append head] at found
    cases found
  | item value rest =>
    rw [reader.item_append head] at found
    cases found

/-- Calls that never see enough input take nothing. -/
theorem feedPausing_more {buffer : List α} {chunks : List (List α)}
    (found : reader.next (buffer ++ chunks.flatten) = .more) :
    reader.feedPausing pauses buffer chunks = ⟨[], buffer ++ chunks.flatten, false⟩ := by
  induction chunks generalizing buffer with
  | nil => rw [feedPausing, List.flatten_nil, List.append_nil]
  | cons chunk chunks ih =>
    rw [List.flatten_cons, ← List.append_assoc] at found ⊢
    rw [feedPausing, reader.untilPause_more pauses (reader.next_of_append_more found)]
    exact ih found

section Fronts

variable (fronts : reader.TakesFront)

include fronts

theorem spells_drained (input : List α) (admitted : (reader.drain input).rejected = false) :
    ∃ front, input = front ++ (reader.drain input).rest ∧
      reader.Spells front (reader.drain input).items := by
  induction input using reader.drain_induction with
  | more input found =>
    rw [reader.drain_more found]
    exact ⟨[], rfl, reader.drain_more reader.next_nil⟩
  | reject input found =>
    rw [reader.drain_reject found] at admitted
    cases admitted
  | item input value rest found ih =>
    have part := fronts found
    obtain ⟨first, whole, read⟩ := part
    rw [reader.drain_item found] at admitted ⊢
    have later := ih admitted
    obtain ⟨second, left, spells⟩ := later
    refine ⟨first ++ second, ?_, ?_⟩
    · rw [whole, Drained.prepend_rest, List.append_assoc, ← left]
    · exact Spells.append reader (reader.spells_of_next read) spells

/-- A call either reads to the end without a pause, or returns behind the first pause. -/
theorem untilPause_cases (input : List α) :
    (reader.untilPause pauses input = reader.drain input ∧
      ∀ value ∈ (reader.drain input).items, pauses value = false) ∨
    ∃ front items value rest, input = front ++ rest ∧
      reader.untilPause pauses input = ⟨items ++ [value], rest, false⟩ ∧
      reader.untilPause pauses front = ⟨items ++ [value], [], false⟩ ∧
      reader.Spells front (items ++ [value]) ∧ pauses value = true ∧
      ∀ early ∈ items, pauses early = false := by
  induction input using reader.drain_induction with
  | more input found =>
    rw [reader.untilPause_more pauses found, reader.drain_more found]
    exact .inl ⟨rfl, fun value valueIn => absurd valueIn List.not_mem_nil⟩
  | reject input found =>
    rw [reader.untilPause_reject pauses found, reader.drain_reject found]
    exact .inl ⟨rfl, fun value valueIn => absurd valueIn List.not_mem_nil⟩
  | item input value rest found ih =>
    have part := fronts found
    obtain ⟨first, whole, read⟩ := part
    have spells := reader.spells_of_next read
    cases stops : pauses value with
    | true =>
      right
      refine ⟨first, [], value, rest, whole, ?_, ?_, spells, stops, ?_⟩
      · rw [reader.untilPause_pause pauses found stops]
        rfl
      · rw [reader.untilPause_pause pauses read stops]
        rfl
      · exact fun early earlyIn => absurd earlyIn List.not_mem_nil
    | false =>
      rw [reader.untilPause_item pauses found stops, reader.drain_item found]
      cases ih with
      | inl ended =>
        left
        rw [ended.1, Drained.prepend_items, List.singleton_append, List.forall_mem_cons]
        exact ⟨rfl, stops, ended.2⟩
      | inr paused =>
        obtain ⟨second, items, last, left, cut, taken, takenFront, reads, halts, goes⟩ := paused
        have longer : reader.next (first ++ second) = .item value second := by
          have append := reader.item_append read second
          rwa [List.nil_append] at append
        right
        refine ⟨first ++ second, value :: items, last, left, ?_, ?_, ?_, ?_, halts, ?_⟩
        · rw [whole, List.append_assoc, ← cut]
        · rw [taken]
          rfl
        · rw [reader.untilPause_item pauses longer stops, takenFront]
          rfl
        · have both := Spells.append reader spells reads
          exact both
        · rw [List.forall_mem_cons]
          exact ⟨stops, goes⟩

/-- With nothing behind a pause, every cutting gives the items of the whole input. -/
theorem feedPausing_of_quiet {buffer : List α} (chunks : List (List α))
    (settled : reader.next buffer = .more)
    (quiet : reader.Quiet pauses (buffer ++ chunks.flatten)) :
    (reader.feedPausing pauses buffer chunks).items =
        (reader.drain (buffer ++ chunks.flatten)).items ∧
      (reader.feedPausing pauses buffer chunks).rejected =
        (reader.drain (buffer ++ chunks.flatten)).rejected := by
  induction chunks generalizing buffer with
  | nil =>
    rw [reader.drain_nothing settled, feedPausing]
    exact ⟨rfl, rfl⟩
  | cons chunk chunks ih =>
    rw [List.flatten_cons, ← List.append_assoc] at quiet ⊢
    rw [feedPausing]
    cases reader.untilPause_cases pauses fronts (buffer ++ chunk) with
    | inl ended =>
      rw [ended.1]
      cases refused : (reader.drain (buffer ++ chunk)).rejected with
      | true =>
        rw [reader.drain_append_rejected _ _ refused]
        simp [refused]
      | false =>
        have left := reader.spells_drained fronts _ refused
        obtain ⟨front, whole, spells⟩ := left
        have later : reader.Quiet pauses
            ((reader.drain (buffer ++ chunk)).rest ++ chunks.flatten) := by
          intro second items value rest cut reads
          have joined : buffer ++ chunk ++ chunks.flatten = front ++ second ++ rest := by
            rw [List.append_assoc front, ← cut, ← List.append_assoc, ← whole]
          have both := Spells.append reader spells reads
          rw [← List.append_assoc] at both
          exact quiet (front ++ second) _ value rest joined both
        have rest := ih (reader.next_rest _ refused) later
        rw [reader.drain_append _ _ refused]
        simp only [Bool.false_eq_true, if_false, Drained.prepend_items, Drained.prepend_rejected]
        exact ⟨congrArg _ rest.1, rest.2⟩
    | inr paused =>
      obtain ⟨front, items, value, rest, whole, taken, -, spells, stops, -⟩ := paused
      have joined : buffer ++ chunk ++ chunks.flatten = front ++ (rest ++ chunks.flatten) := by
        rw [whole, List.append_assoc]
      have nothing := quiet front items value _ joined spells stops
      rw [taken, joined, reader.drain_of_spells spells, reader.drain_more nothing]
      simp only [Bool.false_eq_true, if_false, reader.feedPausing_more pauses nothing]
      exact ⟨trivial, trivial⟩

/-- What was taken up to a pause is what a front of the input spells. -/
theorem front_of_taken {input rest : List α} {items : List β} {value : β}
    (taken : reader.untilPause pauses input = ⟨items ++ [value], rest, false⟩)
    (stops : pauses value = true) :
    ∃ front, input = front ++ rest ∧ reader.Spells front (items ++ [value]) ∧
      reader.untilPause pauses front = ⟨items ++ [value], [], false⟩ := by
  cases reader.untilPause_cases pauses fronts input with
  | inl ended =>
    have valueIn : value ∈ (reader.drain input).items := by
      rw [← ended.1, taken]
      exact List.mem_append_right _ List.mem_cons_self
    rw [ended.2 value valueIn] at stops
    cases stops
  | inr paused =>
    obtain ⟨front, early, last, left, whole, takenToo, takenFront, spells, -, -⟩ := paused
    have both : (⟨items ++ [value], rest, false⟩ : Drained α β) =
        ⟨early ++ [last], left, false⟩ := by
      rw [← taken, takenToo]
    have sameItems : items ++ [value] = early ++ [last] := congrArg Drained.items both
    have sameRest : rest = left := congrArg Drained.rest both
    rw [sameItems, sameRest]
    exact ⟨front, whole, spells, takenFront⟩

/-- Only the first pause matters. -/
theorem quiet_iff (input : List α) : reader.Quiet pauses input ↔
    ∀ items value rest, reader.untilPause pauses input = ⟨items ++ [value], rest, false⟩ →
      pauses value = true → reader.next rest = .more := by
  constructor
  · intro quiet items value rest taken stops
    obtain ⟨front, whole, spells, -⟩ := reader.front_of_taken pauses fronts taken stops
    exact quiet front items value rest whole spells stops
  · intro first front items value rest whole spells stops
    have drained : reader.drain input = (reader.drain rest).prepend (items ++ [value]) := by
      rw [whole, reader.drain_of_spells spells]
    cases reader.untilPause_cases pauses fronts input with
    | inl ended =>
      have valueIn : value ∈ (reader.drain input).items := by
        rw [drained]
        exact List.mem_append_left _ (List.mem_append_right _ List.mem_cons_self)
      rw [ended.2 value valueIn] at stops
      cases stops
    | inr paused =>
      obtain ⟨second, early, last, left, wholeToo, taken, -, spellsToo, halts, goes⟩ := paused
      have nothing := first early last left taken halts
      have other : reader.drain input = ⟨early ++ [last], left, false⟩ := by
        rw [wholeToo, reader.drain_of_spells spellsToo, reader.drain_more nothing,
          Drained.prepend, List.append_nil]
      rw [drained] at other
      have sameItems : items ++ [value] ++ (reader.drain rest).items = early ++ [last] :=
        congrArg Drained.items other
      have admitted : (reader.drain rest).rejected = false := congrArg Drained.rejected other
      have none' : (reader.drain rest).items = [] := by
        by_contra some'
        have shorter : items ++ [value] <+: early := by
          have cut := List.prefix_append (items ++ [value]) (reader.drain rest).items
          rw [sameItems] at cut
          apply (List.prefix_concat_iff.mp cut).resolve_left
          intro same
          rw [same, List.append_right_eq_self] at sameItems
          exact some' sameItems
        have valueIn := shorter.subset (List.mem_append_right items List.mem_cons_self)
        rw [goes value valueIn] at stops
        cases stops
      cases found : reader.next rest with
      | more => rfl
      | reject =>
        rw [reader.drain_reject found] at admitted
        cases admitted
      | item other left =>
        rw [reader.drain_item found] at none'
        cases none'

/-- A cutting behind the first pause shows whether something is found there. -/
theorem quiet_of_same {input : List α}
    (same : ∀ front rest, input = front ++ rest → front ≠ [] → rest ≠ [] →
      (reader.feedPausing pauses [] [front, rest]).items =
          (reader.feedPausing pauses [] [input]).items ∧
        (reader.feedPausing pauses [] [front, rest]).rejected =
          (reader.feedPausing pauses [] [input]).rejected) :
    reader.Quiet pauses input := by
  rw [reader.quiet_iff pauses fronts]
  intro items value rest taken stops
  obtain ⟨front, whole, spells, takenFront⟩ := reader.front_of_taken pauses fronts taken stops
  by_contra something
  have some' : rest ≠ [] := by
    intro empty
    rw [empty] at something
    exact something reader.next_nil
  have frontSome : front ≠ [] := by
    intro empty
    rw [empty, Spells, reader.drain_more reader.next_nil] at spells
    have items' : [] = items ++ [value] := congrArg Drained.items spells
    exact absurd items'.symm (by simp)
  have compared := same front rest whole frontSome some'
  have atOnce : reader.feedPausing pauses [] [input] = ⟨items ++ [value], rest, false⟩ := by
    simp [feedPausing, taken, Drained.prepend]
  have later : reader.feedPausing pauses [] [front, rest] =
      (if (reader.untilPause pauses rest).rejected then reader.untilPause pauses rest
        else ⟨(reader.untilPause pauses rest).items, (reader.untilPause pauses rest).rest,
          false⟩).prepend (items ++ [value]) := by
    simp [feedPausing, takenFront, Drained.prepend]
  rw [atOnce, later] at compared
  cases found : reader.next rest with
  | more => exact something found
  | reject =>
    rw [reader.untilPause_reject pauses found] at compared
    cases compared.2
  | item other behind =>
    have longer : (reader.untilPause pauses rest).items ≠ [] := by
      cases stops : pauses other with
      | true =>
        rw [reader.untilPause_pause pauses found stops]
        exact List.cons_ne_nil _ _
      | false =>
        rw [reader.untilPause_item pauses found stops]
        exact List.cons_ne_nil _ _
    apply longer
    have items' := compared.1
    split at items'
    · exact List.append_right_eq_self.mp items'
    · exact List.append_right_eq_self.mp items'

end Fronts

end Incremental

end Holonomy.Foundation
