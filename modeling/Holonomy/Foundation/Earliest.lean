import Mathlib

/-!
# The earliest of a list

A scan over a list keeps an eligible value until it meets one with a smaller key. It finds an
eligible value whose key is least, unless nothing is eligible.
-/

namespace Holonomy.Foundation

variable {α β : Type} [LinearOrder β]

def keepEarlier (key : α → β) (eligible : α → Bool) (best : Option α) (value : α) : Option α :=
  if eligible value then
    some (match best with
      | none => value
      | some kept => if key value < key kept then value else kept)
  else best

def earliest (key : α → β) (eligible : α → Bool) (values : List α) : Option α :=
  values.foldl (keepEarlier key eligible) none

section Earliest

variable {key : α → β} {eligible : α → Bool} {values : List α} {best : Option α} {found : α}

theorem keepEarlier_of_not {value : α} (unfit : eligible value = false) :
    keepEarlier key eligible best value = best := by
  unfold keepEarlier
  rw [if_neg (by rw [unfit]; exact Bool.false_ne_true)]

theorem keepEarlier_of_eligible (key : α → β) (best : Option α) {value : α}
    (fit : eligible value = true) :
    ∃ kept, keepEarlier key eligible best value = some kept ∧ key kept ≤ key value ∧
      (∀ old ∈ best, key kept ≤ key old) ∧ (kept = value ∨ best = some kept) := by
  unfold keepEarlier
  rw [if_pos fit]
  cases best with
  | none => exact ⟨value, rfl, le_rfl, fun _ old => absurd old (Option.not_mem_none _), .inl rfl⟩
  | some old =>
    by_cases sooner : key value < key old
    · refine ⟨value, congrArg some (if_pos sooner), le_rfl, ?_, .inl rfl⟩
      intro other otherIn
      rw [Option.mem_some_iff] at otherIn
      rw [← otherIn]
      exact sooner.le
    · refine ⟨old, congrArg some (if_neg sooner), not_lt.mp sooner, ?_, .inr rfl⟩
      intro other otherIn
      rw [Option.mem_some_iff] at otherIn
      rw [← otherIn]

theorem foldl_keepEarlier (scanned : values.foldl (keepEarlier key eligible) best = some found) :
    (best = some found ∨ (found ∈ values ∧ eligible found = true)) ∧
      (∀ old ∈ best, key found ≤ key old) ∧
      ∀ value ∈ values, eligible value = true → key found ≤ key value := by
  induction values generalizing best with
  | nil =>
    have same : best = some found := scanned
    refine ⟨.inl same, ?_, fun _ listed => absurd listed List.not_mem_nil⟩
    intro old oldIn
    rw [same, Option.mem_some_iff] at oldIn
    rw [oldIn]
  | cons value values ih =>
    rw [List.foldl_cons] at scanned
    obtain ⟨origin, least, rest⟩ := ih scanned
    cases fit : eligible value with
    | false =>
      rw [keepEarlier_of_not fit] at origin least
      refine ⟨origin.imp_right fun listed => ⟨List.mem_cons_of_mem _ listed.1, listed.2⟩, least, ?_⟩
      intro other listed eligibleOther
      rcases List.mem_cons.mp listed with same | later
      · rw [same, fit] at eligibleOther
        cases eligibleOther
      · exact rest other later eligibleOther
    | true =>
      obtain ⟨kept, keeps, early, earlier, chosen⟩ :=
        keepEarlier_of_eligible key best fit
      rw [keeps] at origin least
      have bound : key found ≤ key kept := least kept rfl
      refine ⟨?_, fun old oldIn => bound.trans (earlier old oldIn), ?_⟩
      · rcases origin with same | listed
        · rw [Option.some.injEq] at same
          rcases chosen with new | old
          · rw [← same, new]
            exact .inr ⟨List.mem_cons_self, fit⟩
          · exact .inl (by rw [old, same])
        · exact .inr ⟨List.mem_cons_of_mem _ listed.1, listed.2⟩
      · intro other listed eligibleOther
        rcases List.mem_cons.mp listed with same | later
        · rw [same]
          exact bound.trans early
        · exact rest other later eligibleOther

theorem mem_of_earliest (scanned : earliest key eligible values = some found) :
    found ∈ values ∧ eligible found = true := by
  rcases (foldl_keepEarlier scanned).1 with none | listed
  · cases none
  · exact listed

theorem earliest_le (scanned : earliest key eligible values = some found) {value : α}
    (listed : value ∈ values) (fit : eligible value = true) : key found ≤ key value :=
  (foldl_keepEarlier scanned).2.2 value listed fit

end Earliest

end Holonomy.Foundation
