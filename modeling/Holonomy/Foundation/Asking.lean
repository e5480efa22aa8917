import Mathlib

/-!
# Programs that ask

A program works on a state, can fail, and from time to time asks a question and goes on with the
answer, whatever it is. Every program has a rule for what it ensures: something about each state in
which it asks, and something about the state in which it ends.
-/

namespace Holonomy.Foundation

/-- A program that has run until it ended or until its next question. -/
inductive Task (Q A σ ε α : Type) : Type where
  | done (result : Except ε α) (state : σ)
  /-- It asks, and goes on with the answer. -/
  | ask (question : Q) (state : σ) (resume : A → Task Q A σ ε α)

/-- A program that can be started in any state. -/
def Asking (Q A σ ε α : Type) : Type := σ → Task Q A σ ε α

variable {Q A σ ε α β : Type}

/-- Go on with the result, unless it failed. -/
def Task.bind (task : Task Q A σ ε α) (next : α → Asking Q A σ ε β) : Task Q A σ ε β :=
  match task with
  | .done (.error error) state => .done (.error error) state
  | .done (.ok value) state => next value state
  | .ask question state resume => .ask question state fun answer => (resume answer).bind next

def Task.state : Task Q A σ ε α → σ
  | .done _ state => state
  | .ask _ state _ => state

/-- It asks something. -/
def Task.isAsking : Task Q A σ ε α → Bool
  | .done _ _ => false
  | .ask _ _ _ => true

/-- The value with which it ended. -/
def Task.value : Task Q A σ ε α → Option α
  | .done (.ok value) _ => some value
  | .done (.error _) _ => none
  | .ask _ _ _ => none

def Task.answered : Task Q A σ ε α → List A → Option (Task Q A σ ε α)
  | task, [] => some task
  | .done _ _, _ :: _ => none
  | .ask _ _ resume, answer :: rest => (resume answer).answered rest

namespace Asking

instance : Monad (Asking Q A σ ε) where
  pure value := fun state => .done (.ok value) state
  bind program next := fun state => (program state).bind next

/-- Fail. -/
def throw (error : ε) : Asking Q A σ ε α := fun state => .done (.error error) state

/-- Read the state. -/
def get : Asking Q A σ ε σ := fun state => .done (.ok state) state

/-- Change the state. -/
def modify (change : σ → σ) : Asking Q A σ ε Unit := fun state => .done (.ok ()) (change state)

/-- Ask. -/
def ask (question : Q) : Asking Q A σ ε A :=
  fun state => .ask question state fun answer => .done (.ok answer) state

/-- Take a value that may have failed. -/
def lift (value : Except ε α) : Asking Q A σ ε α := fun state => .done value state

/-- Do something under a condition only. -/
def when (condition : Prop) [Decidable condition] (program : Asking Q A σ ε Unit) :
    Asking Q A σ ε Unit :=
  if condition then program else pure ()

end Asking

def Task.Ensures (asks : Q → σ → Prop) (ends : Except ε α → σ → Prop) :
    Task Q A σ ε α → Prop
  | .done result state => ends result state
  | .ask question state resume => asks question state ∧ ∀ answer, (resume answer).Ensures asks ends

namespace Task

variable {asks : Q → σ → Prop} {ends : Except ε α → σ → Prop} {task : Task Q A σ ε α}

variable {answers : List A}

theorem Ensures.weaken {asks' : Q → σ → Prop} {ends' : Except ε α → σ → Prop}
    (ensured : task.Ensures asks ends) (weakAsks : ∀ question state, asks question state →
      asks' question state) (weakEnds : ∀ result state, ends result state → ends' result state) :
    task.Ensures asks' ends' := by
  induction task with
  | done result state => exact weakEnds result state ensured
  | ask question state resume ih =>
    exact ⟨weakAsks question state ensured.1, fun answer => ih answer (ensured.2 answer)⟩

theorem Ensures.bind {next : α → Asking Q A σ ε β} {last : Except ε β → σ → Prop}
    (ensured : task.Ensures asks ends)
    (failed : ∀ error state, ends (.error error) state → last (.error error) state)
    (follows : ∀ value state, ends (.ok value) state → (next value state).Ensures asks last) :
    (task.bind next).Ensures asks last := by
  induction task with
  | done result state =>
    cases result with
    | error error => exact failed error state ensured
    | ok value => exact follows value state ensured
  | ask question state resume ih => exact ⟨ensured.1, fun answer => ih answer (ensured.2 answer)⟩

theorem done_of_value {value : α} (ended : task.value = some value) :
    ∃ state, task = .done (.ok value) state := by
  cases task with
  | done result state =>
    cases result with
    | error error => cases ended
    | ok found => exact ⟨state, by rw [Option.some.inj ended]⟩
  | ask question state resume => cases ended

theorem Ensures.answered (ensured : task.Ensures asks ends) {later : Task Q A σ ε α}
    (becomes : task.answered answers = some later) : later.Ensures asks ends := by
  induction answers generalizing task with
  | nil =>
    cases task <;> exact Option.some.inj becomes ▸ ensured
  | cons answer rest ih =>
    cases task with
    | done result state => cases becomes
    | ask question state resume => exact ih (ensured.2 answer) becomes

/-- One more answer. -/
theorem answered_append {question : Q} {state : σ} {resume : A → Task Q A σ ε α}
    (becomes : task.answered answers = some (.ask question state resume)) (answer : A) :
    task.answered (answers ++ [answer]) = some (resume answer) := by
  induction answers generalizing task with
  | nil =>
    have same : task = .ask question state resume := by
      cases task <;> exact Option.some.inj becomes
    rw [same]
    show (resume answer).answered [] = _
    cases resume answer <;> rfl
  | cons first rest ih =>
    cases task with
    | done result state => cases becomes
    | ask question state resume => exact ih becomes

theorem answered_nil : task.answered [] = some task := by cases task <;> rfl

theorem Ensures.state {holds : σ → Prop} (ensured : task.Ensures (fun _ => holds) fun _ => holds) :
    holds task.state := by
  cases task with
  | done result state => exact ensured
  | ask question state resume => exact ensured.1

end Task

namespace Asking

def Keeps (holds broken : σ → Prop) (program : Asking Q A σ ε α) : Prop :=
  ∀ state, holds state → (program state).Ensures (fun _ => holds) fun result state =>
    match result with
    | .ok _ => holds state
    | .error _ => broken state

section Keeping

variable {holds broken : σ → Prop}

variable {program : Asking Q A σ ε α} {condition : Prop}

/-- Returning keeps everything. -/
theorem keeps_pure (value : α) : Keeps holds broken (pure value : Asking Q A σ ε α) :=
  fun _ held => held

/-- Failing keeps what is kept in failing. -/
theorem keeps_throw (breaks : ∀ state, holds state → broken state) (error : ε) :
    Keeps holds broken (throw error : Asking Q A σ ε α) :=
  fun state held => breaks state held

/-- Reading keeps everything. -/
theorem keeps_get : Keeps holds broken (get : Asking Q A σ ε σ) := fun _ held => held

theorem keeps_lift (breaks : ∀ state, holds state → broken state) (value : Except ε α) :
    Keeps holds broken (lift value : Asking Q A σ ε α) := by
  intro state held
  cases value with
  | ok value => exact held
  | error error => exact breaks state held

/-- Asking keeps everything. -/
theorem keeps_ask (question : Q) : Keeps holds broken (ask question : Asking Q A σ ε A) :=
  fun _ held => ⟨held, fun _ => held⟩

/-- A change that keeps something. -/
theorem keeps_modify {change : σ → σ} (kept : ∀ state, holds state → holds (change state)) :
    Keeps holds broken (modify change : Asking Q A σ ε Unit) :=
  fun state held => kept state held

/-- One after the other. -/
theorem Keeps.bind {next : α → Asking Q A σ ε β} (first : Keeps holds broken program)
    (follows : ∀ value, Keeps holds broken (next value)) : Keeps holds broken (program >>= next) :=
  fun state held => (first state held).bind (fun _ _ kept => kept)
    fun value after kept => follows value after kept

/-- Either of two. -/
theorem Keeps.ite [Decidable condition] {first second : Asking Q A σ ε α}
    (left : Keeps holds broken first) (right : Keeps holds broken second) :
    Keeps holds broken (if condition then first else second) := by
  split
  · exact left
  · exact right

/-- What is done under a condition only. -/
theorem Keeps.when [Decidable condition] {program : Asking Q A σ ε Unit}
    (kept : condition → Keeps holds broken program) :
    Keeps holds broken (when condition program) := by
  unfold Asking.when
  by_cases true : condition
  · rw [if_pos true]
    exact kept true
  · rw [if_neg true]
    exact keeps_pure ()

theorem Keeps.always (kept : Keeps holds holds program) {state : σ} (held : holds state) :
    (program state).Ensures (fun _ => holds) fun _ => holds := by
  refine (kept state held).weaken (fun _ _ asked => asked) fun result _ reached => ?_
  cases result with
  | ok value => exact reached
  | error error => exact reached

end Keeping

def Returns (may : Q → σ → Prop) (before : σ → Prop) (program : Asking Q A σ ε α)
    (after : α → σ → Prop) : Prop :=
  ∀ state, before state → (program state).Ensures may
    fun result state => ∀ value, result = .ok value → after value state

section Returning

variable {may : Q → σ → Prop} {before : σ → Prop} {after : α → σ → Prop}

variable {last : β → σ → Prop} {program : Asking Q A σ ε α} {next : α → Asking Q A σ ε β}
  {stronger holds : σ → Prop} {condition : Prop}

/-- Returning a value. -/
theorem returns_pure {value : α} (holds : ∀ state, before state → after value state) :
    Returns may before (pure value : Asking Q A σ ε α) after := by
  intro state held other same
  cases same
  exact holds state held

/-- Failing returns nothing. -/
theorem returns_throw (error : ε) :
    Returns may before (throw error : Asking Q A σ ε α) after := by
  intro state held other same
  cases same

/-- Reading returns the state. -/
theorem returns_get : Returns may before (get : Asking Q A σ ε σ)
    fun value state => value = state ∧ before state := by
  intro state held other same
  cases same
  exact ⟨rfl, held⟩

/-- A value that may have failed. -/
theorem returns_lift (value : Except ε α) : Returns may before (lift value : Asking Q A σ ε α)
    fun result state => value = .ok result ∧ before state :=
  fun _ held _ same => ⟨same, held⟩

/-- A value that has failed. -/
theorem returns_error (error : ε) :
    Returns may before (lift (.error error) : Asking Q A σ ε α) after :=
  returns_throw error

/-- A change. -/
theorem returns_modify {change : σ → σ} {after : σ → Prop}
    (holds : ∀ state, before state → after (change state)) :
    Returns may before (modify change : Asking Q A σ ε Unit) fun _ => after :=
  fun state held _ _ => holds state held

/-- Asking what may be asked. -/
theorem returns_ask {question : Q} (allowed : ∀ state, before state → may question state) :
    Returns may before (ask question : Asking Q A σ ε A) fun _ => before :=
  fun state held => ⟨allowed state held, fun _ _ _ => held⟩

/-- One after the other. -/
theorem Returns.bind {middle : α → σ → Prop} (first : Returns may before program middle)
    (follows : ∀ value, Returns may (middle value) (next value) last) :
    Returns may before (program >>= next) last := by
  intro state held
  refine (first state held).bind ?_ fun value middle reached => follows value middle
    (reached value rfl)
  intro error state _ value same
  cases same

/-- One after the other, by way of what holds in between. -/
theorem Returns.via (middle : α → σ → Prop) (first : Returns may before program middle)
    (follows : ∀ value, Returns may (middle value) (next value) last) :
    Returns may before (program >>= next) last :=
  first.bind follows

theorem Returns.starting (weaker : σ → Prop) (needs : ∀ state, stronger state → weaker state)
    (returns : Returns may weaker program after) : Returns may stronger program after :=
  fun state held => returns state (needs state held)

theorem Returns.given {fact : Prop} (returns : fact → Returns may before program after) :
    Returns may (fun state => fact ∧ before state) program after :=
  fun state held => returns held.1 state held.2

/-- The program may ask more. -/
theorem Returns.asking {wider : Q → σ → Prop} (returns : Returns may before program after)
    (allows : ∀ question state, may question state → wider question state) :
    Returns wider before program after :=
  fun state held => (returns state held).weaken allows fun _ _ reached => reached

/-- Less is needed and more is given. -/
theorem Returns.weaken {weaker : α → σ → Prop} (returns : Returns may before program after)
    (needs : ∀ state, stronger state → before state)
    (gives : ∀ value state, after value state → weaker value state) :
    Returns may stronger program weaker :=
  fun state held => (returns state (needs state held)).weaken (fun _ _ asked => asked)
    fun _ state reached value same => gives value state (reached value same)

/-- Either of two. -/
theorem Returns.ite [Decidable condition] {first second : Asking Q A σ ε α}
    (left : condition → Returns may before first after)
    (right : ¬ condition → Returns may before second after) :
    Returns may before (if condition then first else second) after := by
  by_cases true : condition
  · rw [if_pos true]
    exact left true
  · rw [if_neg true]
    exact right true

/-- What is done under a condition only. -/
theorem Returns.when [Decidable condition] {program : Asking Q A σ ε Unit} {after : σ → Prop}
    (left : condition → Returns may before program fun _ => after)
    (right : ¬ condition → ∀ state, before state → after state) :
    Returns may before (when condition program) fun _ => after := by
  unfold Asking.when
  exact Returns.ite left fun not => returns_pure (right not)

theorem Keeps.returns {broken : σ → Prop} (kept : Keeps holds broken program) :
    Returns (fun _ => holds) holds program fun _ => holds := by
  intro state held
  refine (kept state held).weaken (fun _ _ asked => asked) ?_
  intro result state reached value same
  rw [same] at reached
  exact reached

theorem Returns.keeps (returns : Returns (fun _ => holds) holds program fun _ => holds) :
    Keeps holds (fun _ => True) program := by
  intro state held
  refine (returns state held).weaken (fun _ _ asked => asked) ?_
  intro result state reached
  cases result with
  | ok value => exact reached value rfl
  | error error => trivial

end Returning

end Asking

end Holonomy.Foundation
