import Holonomy.Foundation.Histories

/-!
# Search along a graph

A search takes values from a stack, and puts what follows a new value on top of the stack. Values
that nothing is known about are passed by.
-/

namespace Holonomy.Foundation

variable {α : Type} [DecidableEq α] (next : α → Option (List α))

def search : ℕ → List α → List α → List α
  | 0, _, seen => seen
  | _ + 1, [], seen => seen
  | fuel + 1, value :: pending, seen =>
    if value ∈ seen then search fuel pending seen
    else
      match next value with
      | none => search fuel pending seen
      | some found => search fuel (found.reverse ++ pending) (seen ++ [value])

section Found

variable {next}

theorem search_within {inside : α → Prop}
    (closed : ∀ value found, inside value → next value = some found → ∀ other ∈ found, inside other)
    (fuel : ℕ) (pending seen : List α) (pendingInside : ∀ value ∈ pending, inside value)
    (seenInside : ∀ value ∈ seen, inside value) :
    ∀ value ∈ search next fuel pending seen, inside value := by
  induction fuel generalizing pending seen with
  | zero => exact seenInside
  | succ fuel ih =>
    cases pending with
    | nil => exact seenInside
    | cons value pending =>
      have rest : ∀ other ∈ pending, inside other := fun other found =>
        pendingInside other (List.mem_cons_of_mem _ found)
      have here := pendingInside value List.mem_cons_self
      unfold search
      by_cases known : value ∈ seen
      · rw [if_pos known]
        exact ih pending seen rest seenInside
      · rw [if_neg known]
        cases follows : next value with
        | none => exact ih pending seen rest seenInside
        | some found =>
          refine ih _ _ ?_ ?_
          · intro other onStack
            rcases List.mem_append.mp onStack with new | old
            · exact closed value found here follows other (List.mem_reverse.mp new)
            · exact rest other old
          · exact forall_mem_concat seenInside here

/-- Nothing is found twice. -/
theorem nodup_search (fuel : ℕ) (pending seen : List α) (distinct : seen.Nodup) :
    (search next fuel pending seen).Nodup := by
  induction fuel generalizing pending seen with
  | zero => exact distinct
  | succ fuel ih =>
    cases pending with
    | nil => exact distinct
    | cons value pending =>
      unfold search
      by_cases known : value ∈ seen
      · rw [if_pos known]
        exact ih pending seen distinct
      · rw [if_neg known]
        cases follows : next value with
        | none => exact ih pending seen distinct
        | some found =>
          exact ih _ _ (nodup_concat distinct known)

end Found

end Holonomy.Foundation
