import Mathlib

/-!
# Computations that can fail

What a sequence of computations found was found by each of them.
-/

namespace Holonomy.Foundation

/-- What succeeds has succeeded from its beginning on. -/
theorem found_of_bind {ε α β : Type} {first : Except ε α} {second : α → Except ε β} {result : β}
    (found : (first >>= second) = .ok result) :
    ∃ value, first = .ok value ∧ second value = .ok result := by
  cases first with
  | error error => cases found
  | ok value => exact ⟨value, rfl, found⟩

theorem failed_of_bind {ε α β : Type} {first : Except ε α} {second : α → Except ε β} {failure : ε}
    (failed : (first >>= second) = .error failure) :
    first = .error failure ∨ ∃ value, first = .ok value ∧ second value = .error failure := by
  cases first with
  | error other =>
    cases failed
    exact .inl rfl
  | ok value => exact .inr ⟨value, rfl, failed⟩

/-! ## Attempts

Actions that change a state and may fail.
-/

variable {ε σ α β : Type}

def Ends (action : EStateM ε σ α) (state : σ) (done : α → σ → Prop) (failed : ε → σ → Prop) :
    Prop :=
  match action state with
  | .ok value next => done value next
  | .error error next => failed error next

variable {done : α → σ → Prop} {failed : ε → σ → Prop} {state : σ}

variable {value : α} {error : ε} {next : σ} {action : EStateM ε σ α}

/-- To return a value is done. -/
theorem ends_pure :
    Ends (pure value : EStateM ε σ α) state done failed ↔ done value state := Iff.rfl

/-- To throw an error fails. -/
theorem ends_throw :
    Ends (throw error : EStateM ε σ α) state done failed ↔ failed error state := Iff.rfl

/-- To read the state leaves it. -/
theorem ends_get {done : σ → σ → Prop} :
    Ends (get : EStateM ε σ σ) state done failed ↔ done state state := Iff.rfl

theorem ends_set {done : PUnit → σ → Prop} :
    Ends (set next : EStateM ε σ PUnit) state done failed ↔ done ⟨⟩ next := Iff.rfl

/-- To modify the state is done. -/
theorem ends_modify {done : PUnit → σ → Prop} {change : σ → σ} :
    Ends (modify change : EStateM ε σ PUnit) state done failed ↔ done ⟨⟩ (change state) := Iff.rfl

theorem ends_bind {first : EStateM ε σ β} {second : β → EStateM ε σ α} :
    Ends (first >>= second) state done failed ↔
      Ends first state (fun value next => Ends (second value) next done failed) failed := by
  change (match EStateM.bind first second state with
      | .ok value next => done value next
      | .error error next => failed error next) ↔
    match first state with
      | .ok value next => Ends (second value) next done failed
      | .error error next => failed error next
  unfold EStateM.bind
  cases first state with
  | ok value next => exact Iff.rfl
  | error error next => exact Iff.rfl

theorem Ends.weaken {done' : α → σ → Prop} {failed' : ε → σ → Prop}
    (ends : Ends action state done failed)
    (finishes : ∀ value next, done value next → done' value next)
    (fails : ∀ error next, failed error next → failed' error next) :
    Ends action state done' failed' := by
  unfold Ends at ends ⊢
  cases same : action state with
  | ok value next =>
    rw [same] at ends
    exact finishes value next ends
  | error error next =>
    rw [same] at ends
    exact fails error next ends

theorem ends_ite {condition : Prop} [Decidable condition] {first second : EStateM ε σ α}
    (yes : condition → Ends first state done failed)
    (no : ¬ condition → Ends second state done failed) :
    Ends (if condition then first else second) state done failed := by
  by_cases holds : condition
  · rw [if_pos holds]
    exact yes holds
  · rw [if_neg holds]
    exact no holds

theorem Ends.of_ok (ends : Ends action state done failed) (same : action state = .ok value next) :
    done value next := by
  unfold Ends at ends
  rw [same] at ends
  exact ends

theorem Ends.of_error (ends : Ends action state done failed)
    (same : action state = .error error next) : failed error next := by
  unfold Ends at ends
  rw [same] at ends
  exact ends

end Holonomy.Foundation
