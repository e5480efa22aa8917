import Holonomy.Foundation.Json

/-!
# Looking up members

Looking for the first value of a kind does not notice sorting when the values of that kind are
tied: a stable sort keeps them in their order. It notices neither a filter that keeps the kind
nor a map that leaves the kind of every value as it is.
-/

namespace Holonomy.Foundation

variable {α β : Type}

theorem find?_orderedInsert (order : Precedence α) (wanted : α → Bool)
    (tied : ∀ left right, wanted left = true → wanted right = true → order.before left right)
    (value : α) (values : List α) :
    (values.orderedInsert order.before value).find? wanted = (value :: values).find? wanted := by
  induction values with
  | nil => rfl
  | cons head rest ih =>
    rw [List.orderedInsert_cons]
    by_cases first : order.before value head
    · rw [if_pos first]
    · rw [if_neg first, List.find?_cons, ih]
      cases found : wanted value with
      | false => simp only [List.find?_cons, found]
      | true =>
        have other : wanted head = false := by
          by_contra same
          exact first (tied value head found (by simpa using same))
        simp only [List.find?_cons, found, other]

/-- A stable sort keeps the first value of a kind. -/
theorem find?_sort (order : Precedence α) (wanted : α → Bool)
    (tied : ∀ left right, wanted left = true → wanted right = true → order.before left right)
    (values : List α) : (order.sort values).find? wanted = values.find? wanted := by
  induction values with
  | nil => rfl
  | cons value values ih =>
    have step : order.sort (value :: values)
        = (order.sort values).orderedInsert order.before value := rfl
    rw [step, find?_orderedInsert order wanted tied, List.find?_cons, ih, ← List.find?_cons]

theorem head?_sort_spec (order : Precedence α) {values : List α} {first : α}
    (found : (order.sort values).head? = some first) :
    first ∈ values ∧ ∀ value ∈ values, order.before first value := by
  have sorted := order.sort_sorted values
  obtain ⟨rest, whole⟩ := List.head?_eq_some_iff.mp found
  rw [whole] at sorted
  refine ⟨(order.mem_sort values first).mp (whole ▸ List.mem_cons_self), fun value listed => ?_⟩
  have there := (order.mem_sort values value).mpr listed
  rw [whole] at there
  rcases List.mem_cons.mp there with here | behind
  · rw [here]
    exact order.refl first
  · exact (List.pairwise_cons.mp sorted).1 value behind

theorem find?_filter_of_kept (keep wanted : α → Bool)
    (kept : ∀ value, wanted value = true → keep value = true) (values : List α) :
    (values.filter keep).find? wanted = values.find? wanted := by
  induction values with
  | nil => rfl
  | cons value values ih =>
    cases found : wanted value with
    | true =>
      rw [List.filter_cons_of_pos (kept value found), List.find?_cons_of_pos found,
        List.find?_cons_of_pos found]
    | false =>
      have passed : ¬ wanted value = true := by simp [found]
      rw [List.find?_cons_of_neg passed, ← ih]
      by_cases stays : keep value = true
      · rw [List.filter_cons_of_pos stays, List.find?_cons_of_neg passed]
      · rw [List.filter_cons_of_neg stays]

theorem find?_map_contents {κ : Type} [DecidableEq κ] (change : β → β) (key : κ)
    (members : List (κ × β)) :
    (members.map fun member => (member.1, change member.2)).find? (fun member => member.1 = key)
      = (members.find? fun member => member.1 = key).map fun member =>
          (member.1, change member.2) := by
  rw [List.find?_map]
  rfl

theorem find?_replace {κ : Type} [DecidableEq κ] (key wanted : κ) (content : β)
    (members : List (κ × β)) :
    (members.map fun member => if member.1 = key then (key, content) else member).find?
        (fun member => member.1 = wanted)
      = (members.find? fun member => member.1 = wanted).map fun member =>
          if wanted = key then (key, content) else member := by
  induction members with
  | nil => rfl
  | cons member members ih =>
    by_cases here : member.1 = key
    · by_cases asked : key = wanted
      · simp [here, asked]
      · have other : ¬ wanted = key := fun same => asked same.symm
        simpa [here, asked, other] using ih
    · by_cases asked : member.1 = wanted
      · have other : ¬ wanted = key := fun same => here (asked.trans same)
        simp [here, asked, other]
      · simpa [here, asked] using ih

end Holonomy.Foundation
