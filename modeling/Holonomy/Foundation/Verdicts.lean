import Mathlib

/-!
# Verdicts that may fail

A check answers yes or no, or fails. Loops over checks stop at the first answer that decides them,
so their order can matter for whether they fail.
-/

namespace Holonomy.Foundation

/-- An answer, or a failure. -/
abbrev Verdict (ε : Type) := Except ε Bool

namespace Verdict

variable {ε α β : Type}

def both (first later : Verdict ε) : Verdict ε :=
  match first with
  | .error failure => .error failure
  | .ok false => .ok false
  | .ok true => later

/-- The opposite answer. -/
def negate (verdict : Verdict ε) : Verdict ε :=
  match verdict with
  | .error failure => .error failure
  | .ok answer => .ok !answer

/-- Ask about one after another, up to the first no. -/
def every (check : α → Verdict ε) : List α → Verdict ε
  | [] => .ok true
  | item :: items => both (check item) (every check items)

/-- Ask about one after another, up to the first yes. -/
def anyOf (check : α → Verdict ε) (items : List α) : Verdict ε :=
  negate (every (fun item => negate (check item)) items)

/-- Ask about all and count the yes. -/
def count (check : α → Verdict ε) : List α → Except ε ℕ
  | [] => .ok 0
  | item :: items =>
    match check item with
    | .error failure => .error failure
    | .ok answer =>
      match count check items with
      | .error failure => .error failure
      | .ok number => .ok (number + if answer then 1 else 0)

/-- Ask about what is there; nothing is no reason for a no. -/
def optionally (check : α → Verdict ε) : Option α → Verdict ε
  | none => .ok true
  | some item => check item

/-- Answers one after another, up to the first no. -/
def inOrder (verdicts : List (Verdict ε)) : Verdict ε := every id verdicts

/-- When both answer, they answer the same. -/
def Agree {γ : Type} (left right : Except ε γ) : Prop :=
  ∀ first second, left = .ok first → right = .ok second → first = second

/-- There is an answer. -/
def Returns {γ : Type} (verdict : Except ε γ) : Prop := ∃ answer, verdict = .ok answer

variable {γ : Type} {first later : Verdict ε} {check left : α → Verdict ε} {items : List α}
  {right : β → Verdict ε} {others : List β}

/-- Everything agrees with itself. -/
theorem agree_self (verdict : Except ε γ) : Agree verdict verdict := by
  intro first second left right
  exact Except.ok.inj (left.symm.trans right)

/-- An answer agrees with itself. -/
theorem agree_ok (answer : γ) : Agree (.ok answer : Except ε γ) (.ok answer) := agree_self _

/-- A failure agrees with everything. -/
theorem agree_error (failure : ε) (other : Except ε γ) : Agree (.error failure) other := by
  intro first second left
  cases left

/-- Two that agree and answer are the same. -/
theorem Agree.eq {left right : Except ε γ} (agree : Agree left right) (leftReturns : Returns left)
    (rightReturns : Returns right) : left = right := by
  obtain ⟨first, leftIs⟩ := leftReturns
  obtain ⟨second, rightIs⟩ := rightReturns
  rw [leftIs, rightIs, agree first second leftIs rightIs]

theorem agree_both {second last : Verdict ε} (heads : Agree first second)
    (tails : Agree later last) : Agree (both first later) (both second last) := by
  intro left right leftIs rightIs
  cases first with
  | error failure => cases leftIs
  | ok answer =>
    cases second with
    | error failure => cases rightIs
    | ok other =>
      have same : answer = other := heads answer other rfl rfl
      subst same
      cases answer with
      | false => exact (agree_ok false) left right leftIs rightIs
      | true => exact tails left right leftIs rightIs

/-- Opposite answers agree when the answers do. -/
theorem agree_negate {left right : Verdict ε} (agree : Agree left right) :
    Agree (negate left) (negate right) := by
  intro first second leftIs rightIs
  cases left with
  | error failure => cases leftIs
  | ok answer =>
    cases right with
    | error failure => cases rightIs
    | ok other =>
      have same : answer = other := agree answer other rfl rfl
      subst same
      exact agree_ok _ first second leftIs rightIs

/-- A loop answers yes exactly when every check does. -/
theorem every_true : every check items = .ok true ↔ ∀ item ∈ items, check item = .ok true := by
  induction items with
  | nil => simp [every]
  | cons item items ih =>
    rw [every, List.forall_mem_cons, ← ih]
    cases check item with
    | error failure => simp [both]
    | ok answer => cases answer <;> simp [both]

/-- A loop that answers no has met a check that does. -/
theorem every_false (found : every check items = .ok false) :
    ∃ item ∈ items, check item = .ok false := by
  induction items with
  | nil => cases found
  | cons item items ih =>
    rw [every] at found
    cases head : check item with
    | error failure =>
      rw [head] at found
      cases found
    | ok answer =>
      cases answer with
      | false => exact ⟨item, List.mem_cons_self, head⟩
      | true =>
        rw [head] at found
        have later := ih found
        obtain ⟨other, otherIn, refused⟩ := later
        exact ⟨other, List.mem_cons_of_mem _ otherIn, refused⟩

theorem agree_every (forth : ∀ item ∈ items, ∃ other ∈ others, Agree (left item) (right other))
    (back : ∀ other ∈ others, ∃ item ∈ items, Agree (left item) (right other)) :
    Agree (every left items) (every right others) := by
  intro first second leftIs rightIs
  cases first with
  | true =>
    cases second with
    | true => rfl
    | false =>
      obtain ⟨other, otherIn, refused⟩ := every_false rightIs
      obtain ⟨item, itemIn, agree⟩ := back other otherIn
      exact agree true false (every_true.mp leftIs item itemIn) refused
  | false =>
    cases second with
    | false => rfl
    | true =>
      obtain ⟨item, itemIn, refused⟩ := every_false leftIs
      obtain ⟨other, otherIn, agree⟩ := forth item itemIn
      exact agree false true refused (every_true.mp rightIs other otherIn)

section

variable (each : List.Forall₂ (fun item other => Agree (left item) (right other)) items others)

include each

/-- Loops over checks that agree one by one agree. -/
theorem agree_every_of_forall₂ :
    Agree (every left items) (every right others) := by
  induction each with
  | nil => exact agree_ok true
  | cons head tail ih => exact agree_both head ih

/-- Searches over checks that agree one by one agree. -/
theorem agree_anyOf :
    Agree (anyOf left items) (anyOf right others) :=
  agree_negate (agree_every_of_forall₂ (each.imp fun _ _ agree => agree_negate agree))

theorem agree_count :
    Agree (count left items) (count right others) := by
  induction each with
  | nil => exact agree_ok 0
  | @cons item other items others head tail ih =>
    intro first second leftIs rightIs
    rw [count] at leftIs rightIs
    cases leftHead : left item with
    | error failure => simp [leftHead] at leftIs
    | ok answer =>
      cases rightHead : right other with
      | error failure => simp [rightHead] at rightIs
      | ok answerToo =>
        have same := head answer answerToo leftHead rightHead
        cases leftTail : count left items with
        | error failure => simp [leftHead, leftTail] at leftIs
        | ok number =>
          cases rightTail : count right others with
          | error failure => simp [rightHead, rightTail] at rightIs
          | ok numberToo =>
            have sameNumber := ih number numberToo leftTail rightTail
            simp only [leftHead, leftTail, Except.ok.injEq] at leftIs
            simp only [rightHead, rightTail, Except.ok.injEq] at rightIs
            rw [← leftIs, ← rightIs, same, sameNumber]

end

/-- What is related is there on both sides or on neither. -/
theorem rel_cases {relation : α → β → Prop} {first : Option α} {second : Option β}
    (rel : Option.Rel relation first second) : (first = none ∧ second = none) ∨
      ∃ item other, first = some item ∧ second = some other ∧ relation item other := by
  cases rel with
  | none => exact .inl ⟨rfl, rfl⟩
  | some related => exact .inr ⟨_, _, rfl, rfl, related⟩

theorem agree_optionally
    {relation : α → β → Prop} {first : Option α} {second : Option β}
    (rel : Option.Rel relation first second)
    (each : ∀ item other, first = some item → second = some other → relation item other →
      Agree (left item) (right other)) :
    Agree (optionally left first) (optionally right second) := by
  cases rel with
  | none => exact agree_ok true
  | some related => exact each _ _ rfl rfl related

/-- An answer is one. -/
theorem returns_ok (answer : γ) : Returns (.ok answer : Except ε γ) := ⟨answer, rfl⟩

/-- Both parts answer. -/
theorem returns_both (head : Returns first) (tail : Returns later) :
    Returns (both first later) := by
  obtain ⟨answer, rfl⟩ := head
  cases answer with
  | false => exact returns_ok false
  | true => exact tail

/-- The opposite of an answer is one. -/
theorem returns_negate {verdict : Verdict ε} (returns : Returns verdict) :
    Returns (negate verdict) := by
  obtain ⟨answer, rfl⟩ := returns
  exact returns_ok _

theorem returns_every (each : ∀ item ∈ items, Returns (check item)) :
    Returns (every check items) := by
  induction items with
  | nil => exact returns_ok true
  | cons item items ih =>
    rw [List.forall_mem_cons] at each
    exact returns_both each.1 (ih each.2)

theorem returns_optionally {found : Option α}
    (each : ∀ item, found = some item → Returns (check item)) :
    Returns (optionally check found) := by
  cases found with
  | none => exact returns_ok true
  | some item => exact each item rfl

/-- A search answers when every check does. -/
theorem returns_anyOf (each : ∀ item ∈ items, Returns (check item)) : Returns (anyOf check items) :=
  returns_negate (returns_every fun item itemIn => returns_negate (each item itemIn))

/-- A count is made when every check answers. -/
theorem returns_count (each : ∀ item ∈ items, Returns (check item)) :
    Returns (count check items) := by
  induction items with
  | nil => exact returns_ok 0
  | cons item items ih =>
    rw [List.forall_mem_cons] at each
    obtain ⟨answer, head⟩ := each.1
    obtain ⟨number, tail⟩ := ih each.2
    simp only [count, head, tail]
    exact returns_ok _

end Verdict

end Holonomy.Foundation
