import Mathlib

/-!
# Scanners over bytes

A scanner reads a value at a position of some bytes and moves on. A stable scanner that succeeds
does not look at what follows.
-/

namespace Holonomy.Foundation

/-- From bytes and a position, a value and the next position. -/
def Scanner (α : Type) : Type := List UInt8 → ℕ → Option (α × ℕ)

namespace Scanner

variable {α β : Type}

instance scannerMonad : Monad Scanner where
  pure value := fun _ offset => some (value, offset)
  bind scanner next := fun bytes offset =>
    (scanner bytes offset).bind fun found => next found.1 bytes found.2

/-- Go on when a condition holds. -/
def require (condition : Prop) [Decidable condition] : Scanner Unit := fun _ offset =>
  if condition then some ((), offset) else none

/-- Read one value after another, as many as are asked for. -/
def many (scanner : Scanner α) : ℕ → Scanner (List α)
  | 0 => pure []
  | count + 1 => do
    let first ← scanner
    let rest ← many scanner count
    pure (first :: rest)

/-- Read all bytes. -/
def all (scanner : Scanner α) (bytes : List UInt8) : Option α :=
  (scanner bytes 0).bind fun found => if found.2 = bytes.length then some found.1 else none

/-- A success stays when the bytes grow. -/
def Stable (scanner : Scanner α) : Prop := ∀ bytes extra offset found,
  scanner bytes offset = some found → scanner (bytes ++ extra) offset = some found

def Yields (scanner : Scanner α) (written : List UInt8) (value : α) : Prop :=
  ∀ before after found, scanner (before ++ written ++ after) before.length = some found →
    found = (value, before.length + written.length)

def Reads (scanner : Scanner α) (written : List UInt8) (value : α) : Prop :=
  ∀ before after, scanner (before ++ written ++ after) before.length =
    some (value, before.length + written.length)

structure Follows (fits : Prop) (scanner : Scanner α) (written : List UInt8) (value : α) :
    Prop where
  yields : Yields scanner written value
  reads : fits → Reads scanner written value

variable {scanner : Scanner α} {next : α → Scanner β} {written first second : List UInt8}
  {value middle : α} {condition fits : Prop} {write : β → List UInt8} {read : β → α}
  {values : List β}

/-- One scanner goes on where the other one stopped. -/
theorem bind_apply (scanner : Scanner α) (next : α → Scanner β) (bytes : List UInt8) (offset : ℕ) :
    (scanner >>= next) bytes offset =
      (scanner bytes offset).bind fun found => next found.1 bytes found.2 := rfl

/-- A value without bytes. -/
theorem stable_pure (value : α) : Stable (pure value : Scanner α) := by
  intro bytes extra offset found success
  exact success

/-- Stable scanners in sequence. -/
theorem Stable.bind (first : Stable scanner) (second : ∀ value, Stable (next value)) :
    Stable (scanner >>= next) := by
  intro bytes extra offset found success
  rw [bind_apply, Option.bind_eq_some_iff] at success ⊢
  obtain ⟨middle, start, rest⟩ := success
  exact ⟨middle, first _ extra _ _ start, second _ _ extra _ _ rest⟩

/-- A condition does not look at the bytes. -/
theorem stable_require (condition : Prop) [Decidable condition] : Stable (require condition) := by
  intro bytes extra offset found success
  exact success

/-- Many stable reads are stable. -/
theorem Stable.many (stable : Stable scanner) (count : ℕ) : Stable (many scanner count) := by
  induction count with
  | zero => exact stable_pure []
  | succ count ih =>
    apply stable.bind
    intro first
    apply ih.bind
    intro rest
    exact stable_pure _

/-- What is always read is read when reading succeeds. -/
theorem Reads.yields (reads : Reads scanner written value) : Yields scanner written value := by
  intro before after found success
  rw [reads] at success
  exact (Option.some.inj success).symm

/-- A value without bytes is read. -/
theorem reads_pure (value : α) : Reads (pure value : Scanner α) [] value := by
  intro before after
  rfl

/-- Written bytes in sequence are read in sequence. -/
theorem Reads.bind {value : β} (start : Reads scanner first middle)
    (rest : Reads (next middle) second value) :
    Reads (scanner >>= next) (first ++ second) value := by
  intro before after
  have begins : scanner (before ++ (first ++ second) ++ after) before.length =
      some (middle, before.length + first.length) := by
    have begins := start before (second ++ after)
    simpa only [List.append_assoc] using begins
  have goes : next middle (before ++ (first ++ second) ++ after) (before.length + first.length) =
      some (value, before.length + (first ++ second).length) := by
    have goes := rest (before ++ first) after
    simpa only [List.append_assoc, List.length_append, Nat.add_assoc] using goes
  rw [bind_apply, begins, Option.bind_some, goes]

/-- Written bytes in sequence are read in sequence, if at all. -/
theorem Yields.bind {value : β} (start : Yields scanner first middle)
    (rest : Yields (next middle) second value) :
    Yields (scanner >>= next) (first ++ second) value := by
  intro before after found success
  rw [bind_apply, Option.bind_eq_some_iff] at success
  obtain ⟨between, begins, goes⟩ := success
  rw [← List.append_assoc, List.append_assoc] at begins
  have reached := start before (second ++ after) between begins
  rw [reached] at goes
  have goes : next middle (before ++ first ++ second ++ after) (before ++ first).length =
      some found := by
    rw [List.length_append, List.append_assoc before first second]
    exact goes
  have ended := rest (before ++ first) after found goes
  rw [ended, List.length_append, List.length_append, Nat.add_assoc]

/-- A condition that holds. -/
theorem Reads.require [Decidable condition] {next : Scanner β} {value : β} (holds : condition)
    (rest : Reads next written value) :
    Reads (require condition >>= fun _ => next) written value := by
  intro before after
  have passes : Scanner.require condition (before ++ written ++ after) before.length =
      some ((), before.length) := if_pos holds
  rw [bind_apply, passes]
  exact rest before after

/-- A condition that may hold. -/
theorem Yields.require [Decidable condition] {next : Scanner β} {value : β}
    (rest : Yields next written value) :
    Yields (require condition >>= fun _ => next) written value := by
  intro before after found success
  rw [bind_apply, Option.bind_eq_some_iff] at success
  obtain ⟨between, passes, goes⟩ := success
  have passes : (if condition then some ((), before.length) else none) = some between := passes
  by_cases holds : condition
  · rw [if_pos holds] at passes
    rw [← Option.some.inj passes] at goes
    exact rest before after found goes
  · rw [if_neg holds] at passes
    cases passes

/-- Many written values are read. -/
theorem Reads.many (each : ∀ value ∈ values, Reads scanner (write value) (read value)) :
    Reads (many scanner values.length) (values.flatMap write) (values.map read) := by
  induction values with
  | nil => exact reads_pure []
  | cons value values ih =>
    have rest := ih fun other otherIn => each other (List.mem_cons_of_mem _ otherIn)
    have last : Reads (do let rest ← Scanner.many scanner values.length; pure (read value :: rest))
        (values.flatMap write ++ []) (read value :: values.map read) := rest.bind (reads_pure _)
    rw [List.append_nil] at last
    exact (each value List.mem_cons_self).bind last

theorem Yields.many (each : ∀ value ∈ values, Yields scanner (write value) (read value)) :
    Yields (many scanner values.length) (values.flatMap write) (values.map read) := by
  induction values with
  | nil => exact (reads_pure []).yields
  | cons value values ih =>
    have rest := ih fun other otherIn => each other (List.mem_cons_of_mem _ otherIn)
    have last : Yields (do let rest ← Scanner.many scanner values.length; pure (read value :: rest))
        (values.flatMap write ++ []) (read value :: values.map read) :=
      rest.bind (reads_pure _).yields
    rw [List.append_nil] at last
    exact (each value List.mem_cons_self).bind last

theorem Reads.follows (fits : Prop) (reads : Reads scanner written value) :
    Follows fits scanner written value :=
  ⟨reads.yields, fun _ => reads⟩

/-- Written bytes in sequence are followed in sequence. -/
theorem Follows.bind {value : β} (start : Follows fits scanner first middle)
    (rest : Follows fits (next middle) second value) :
    Follows fits (scanner >>= next) (first ++ second) value :=
  ⟨start.yields.bind rest.yields, fun holds => (start.reads holds).bind (rest.reads holds)⟩

theorem Follows.require [Decidable condition] {next : Scanner β} {value : β}
    (holds : fits → condition) (rest : Follows fits next written value) :
    Follows fits (require condition >>= fun _ => next) written value :=
  ⟨rest.yields.require, fun fit => (rest.reads fit).require (holds fit)⟩

theorem Follows.many (each : ∀ value ∈ values, Follows fits scanner (write value) (read value)) :
    Follows fits (many scanner values.length) (values.flatMap write) (values.map read) :=
  ⟨Yields.many fun value valueIn => (each value valueIn).yields,
    fun fit => Reads.many fun value valueIn => (each value valueIn).reads fit⟩

/-- A final value without bytes. -/
theorem Follows.done {finish : α → β} (start : Follows fits scanner written value) :
    Follows fits (scanner >>= fun found => pure (finish found)) written (finish value) := by
  have whole : Follows fits (scanner >>= fun found => pure (finish found)) (written ++ [])
      (finish value) := start.bind ((reads_pure (finish value)).follows fits)
  rwa [List.append_nil] at whole

theorem Reads.all (reads : Reads scanner written value) : scanner.all written = some value := by
  have whole := reads [] []
  rw [List.nil_append, List.append_nil, List.length_nil, Nat.zero_add] at whole
  rw [Scanner.all, whole]
  exact if_pos rfl

theorem Yields.all_beginning {beginning missing : List UInt8}
    (yields : Yields scanner (beginning ++ missing) value) (stable : Stable scanner)
    (proper : missing ≠ []) : scanner.all beginning = none := by
  rw [Scanner.all, Option.bind_eq_none_iff]
  intro found success
  have longer := stable beginning missing 0 found success
  have ended := yields [] [] found (by
    rw [List.nil_append, List.append_nil]
    exact longer)
  have positive : 0 < missing.length := List.length_pos_iff.mpr proper
  apply if_neg
  rw [ended, List.length_append]
  simp only [List.length_nil]
  omega

theorem Yields.all_extension {extra : List UInt8} (yields : Yields scanner written value)
    (proper : extra ≠ []) : scanner.all (written ++ extra) = none := by
  rw [Scanner.all, Option.bind_eq_none_iff]
  intro found success
  have ended := yields [] extra found success
  have positive : 0 < extra.length := List.length_pos_iff.mpr proper
  apply if_neg
  rw [ended, List.length_append]
  simp only [List.length_nil]
  omega

end Scanner

end Holonomy.Foundation
