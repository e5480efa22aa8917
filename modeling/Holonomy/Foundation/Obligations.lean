import Mathlib

/-!
# Obligations

Obligations are numbered as they arise. Each is owed until it is settled, and it is settled once.
-/

namespace Holonomy.Foundation

def Owed (settled owing : List ℕ) (arisen : ℕ) : Prop :=
  (settled ++ owing).Perm (List.range arisen)

namespace Owed

variable {settled settledNext owing owingNext : List ℕ} {arisen : ℕ}

/-- At first nothing is owed. -/
theorem none : Owed [] [] 0 := List.Perm.refl []

section

variable (owed : Owed settled owing arisen)

include owed

/-- Obligations may be settled, and may move. -/
theorem moved
    (same : ∀ id, settledNext.count id + owingNext.count id = settled.count id + owing.count id) :
    Owed settledNext owingNext arisen := by
  apply List.Perm.trans _ owed
  apply List.perm_iff_count.mpr
  intro id
  rw [List.count_append, List.count_append]
  exact same id

/-- An obligation may arise. -/
theorem arise
    (more : ∀ id, settledNext.count id + owingNext.count id =
      settled.count id + owing.count id + [arisen].count id) :
    Owed settledNext owingNext (arisen + 1) := by
  unfold Owed
  rw [List.range_succ]
  apply List.Perm.trans _ (owed.append_right [arisen])
  apply List.perm_iff_count.mpr
  intro id
  rw [List.count_append, List.count_append, List.count_append]
  exact more id

/-- Several obligations may arise at once. -/
theorem ariseMany {count : ℕ}
    (more : ∀ id, settledNext.count id + owingNext.count id =
      settled.count id + owing.count id + (List.range' arisen count).count id) :
    Owed settledNext owingNext (arisen + count) := by
  unfold Owed
  rw [List.range_add, ← List.range'_eq_map_range]
  apply List.Perm.trans _ (owed.append_right (List.range' arisen count))
  apply List.perm_iff_count.mpr
  intro id
  rw [List.count_append, List.count_append, List.count_append]
  exact more id

/-- Nothing is settled twice. -/
theorem once : settled.Nodup := by
  have distinct : (settled ++ owing).Nodup := owed.nodup_iff.mpr List.nodup_range
  exact distinct.of_append_left

theorem all (paid : owing = []) {id : ℕ} (below : id < arisen) :
    id ∈ settled := by
  have listed := owed.mem_iff.mpr (List.mem_range.mpr below)
  rw [paid, List.append_nil] at listed
  exact listed

/-- What is owed has arisen. -/
theorem lt {id : ℕ} (listed : id ∈ owing) : id < arisen :=
  List.mem_range.mp (owed.mem_iff.mp (List.mem_append_right _ listed))

end

end Owed

section Debtors

variable {Debtor : Type} [DecidableEq Debtor] {debtors : List Debtor} {debtor : Debtor}
  {owes owesNext : Debtor → List ℕ}

theorem count_flatMap_erase (listed : debtor ∈ debtors) (id : ℕ) :
    (debtors.flatMap owes).count id =
      (owes debtor).count id + ((debtors.erase debtor).flatMap owes).count id := by
  have same := (List.perm_cons_erase listed).flatMap_right owes
  rw [same.count_eq, List.flatMap_cons, List.count_append]

/-- One of several owes something else. -/
theorem count_flatMap_change (distinct : debtors.Nodup) (listed : debtor ∈ debtors)
    (others : ∀ other ∈ debtors, other ≠ debtor → owesNext other = owes other) (id : ℕ) :
    (debtors.flatMap owesNext).count id + (owes debtor).count id =
      (debtors.flatMap owes).count id + (owesNext debtor).count id := by
  have same : (debtors.erase debtor).flatMap owesNext = (debtors.erase debtor).flatMap owes := by
    apply List.flatMap_congr
    intro other isOther
    obtain ⟨differ, isListed⟩ := distinct.mem_erase_iff.mp isOther
    exact others other isListed differ
  rw [count_flatMap_erase listed, count_flatMap_erase listed, same]
  omega

end Debtors

end Holonomy.Foundation
