import Holonomy.Foundation.JsonText

/-!
# Equal JSON values

Two JSON values are equal when they differ at most in the order of members, at any depth. On values
whose objects repeat no key this is what key order decides, so that canonical texts are equal
exactly for equal values.
-/

namespace Holonomy.Foundation.JsonValue

/-- The values differ at most in the order of members. -/
inductive Equals : JsonValue → JsonValue → Prop where
  /-- The null value. -/
  | null : Equals .null .null
  /-- A truth value. -/
  | boolean (value : Bool) : Equals (.boolean value) (.boolean value)
  /-- A number. -/
  | number (value : ℚ) : Equals (.number value) (.number value)
  /-- A string. -/
  | string (value : Text) : Equals (.string value) (.string value)
  /-- An array: item by item. -/
  | array (pairs : List (JsonValue × JsonValue)) (each : ∀ pair ∈ pairs, Equals pair.1 pair.2) :
    Equals (.array (pairs.map Prod.fst)) (.array (pairs.map Prod.snd))
  /-- An object: key by key, in any order. -/
  | object {left right : List (Text × JsonValue)} (entries : List (Text × JsonValue × JsonValue))
    (leftPerm : left.Perm (entries.map fun entry => (entry.1, entry.2.1)))
    (rightPerm : right.Perm (entries.map fun entry => (entry.1, entry.2.2)))
    (each : ∀ entry ∈ entries, Equals entry.2.1 entry.2.2) : Equals (.object left) (.object right)

variable {format : NumberFormat}

variable {left right : JsonValue} {α β : Type} {change : α → β}

theorem separates_of_distinct {members : List (Text × JsonValue)}
    (distinct : (members.map Prod.fst).Nodup) : (byKey JsonValue).Separates members := by
  apply Precedence.comap_separates Prod.fst
  intro left leftIn right rightIn same
  exact List.inj_on_of_nodup_map distinct leftIn rightIn same

/-- Members of equal objects are the same in some order once equal values are made the same. -/
theorem map_perm_of_pairs {left right : List (Text × JsonValue)}
    {entries : List (Text × JsonValue × JsonValue)} {change : JsonValue → β}
    (leftPerm : left.Perm (entries.map fun entry => (entry.1, entry.2.1)))
    (rightPerm : right.Perm (entries.map fun entry => (entry.1, entry.2.2)))
    (each : ∀ entry ∈ entries, (entry.1, entry.2.1) ∈ left → change entry.2.1 = change entry.2.2) :
    (left.map (Prod.map id change)).Perm (right.map (Prod.map id change)) := by
  have same : (entries.map fun entry => (entry.1, entry.2.1)).map (Prod.map id change) =
      (entries.map fun entry => (entry.1, entry.2.2)).map (Prod.map id change) := by
    rw [List.map_map, List.map_map]
    apply List.map_congr_left
    intro entry entryIn
    have listed : (entry.1, entry.2.1) ∈ left :=
      leftPerm.mem_iff.mpr (List.mem_map_of_mem entryIn)
    exact congrArg (Prod.mk entry.1) (each entry entryIn listed)
  have first := leftPerm.map (Prod.map id change)
  rw [same] at first
  exact first.trans (rightPerm.map _).symm

/-- Equal values are equal in key order. -/
theorem Equals.sortMembers_eq (equals : Equals left right) (proper : Proper format left) :
    sortMembers left = sortMembers right := by
  induction equals with
  | array pairs each ih =>
    cases proper with
    | array _ items =>
      have same : pairs.map (sortMembers ∘ Prod.fst) = pairs.map (sortMembers ∘ Prod.snd) := by
        apply List.map_congr_left
        intro pair pairIn
        exact ih pair pairIn (items pair.1 (List.mem_map_of_mem pairIn))
      rw [sortMembers, sortMembers, sortItems_eq, sortItems_eq, List.map_map, List.map_map, same]
  | @object left right entries leftPerm rightPerm each ih =>
    cases proper with
    | object _ distinct values =>
      have perm := map_perm_of_pairs leftPerm rightPerm fun entry entryIn listed =>
        ih entry entryIn (values _ listed)
      have keys : ((left.map (Prod.map id sortMembers)).map Prod.fst).Nodup := by
        rw [List.map_map]
        exact distinct
      have sorted := (byKey JsonValue).sort_eq_of_perm perm (separates_of_distinct keys)
      rw [sortMembers, sortMembers, sortValues_eq, sortValues_eq]
      exact congrArg JsonValue.object sorted
  | _ => rfl

/-- Rearranged images come from a rearrangement. -/
theorem exists_perm_of_map_perm {left right : List α}
    (perm : (left.map change).Perm (right.map change)) :
    ∃ others : List α, others.Perm right ∧ left.map change = others.map change := by
  have images : List.Forall₂ (fun image value => image = change value) (right.map change)
      right := by
    rw [List.forall₂_map_left_iff]
    exact List.forall₂_same.mpr fun _ _ => rfl
  obtain ⟨others, related, same⟩ := List.perm_comp_forall₂ perm images
  have equal : List.Forall₂ Eq (left.map change) (others.map change) :=
    List.forall₂_map_right_iff.mpr related
  rw [List.forall₂_eq_eq_eq] at equal
  exact ⟨others, same, equal⟩

theorem exists_pairs_of_map_eq {left right : List α} (same : left.map change = right.map change) :
    ∃ pairs : List (α × α), pairs.map Prod.fst = left ∧ pairs.map Prod.snd = right ∧
      ∀ pair ∈ pairs, change pair.1 = change pair.2 := by
  have lengths : left.length = right.length := by
    have both := congrArg List.length same
    rw [List.length_map, List.length_map] at both
    exact both
  refine ⟨left.zip right, List.map_fst_zip lengths.le, List.map_snd_zip lengths.ge, ?_⟩
  intro pair pairIn
  obtain ⟨index, bound, rfl⟩ := List.getElem_of_mem pairIn
  rw [List.length_zip] at bound
  have leftBound : index < left.length := by omega
  have rightBound : index < right.length := by omega
  have images : (left.map change)[index]? = (right.map change)[index]? := by rw [same]
  rw [List.getElem?_map, List.getElem?_map, List.getElem?_eq_getElem leftBound,
    List.getElem?_eq_getElem rightBound] at images
  rw [List.getElem_zip]
  exact Option.some.inj images

/-- Values that are equal in key order are equal. -/
theorem equals_of_sortMembers_eq (same : sortMembers left = sortMembers right) :
    Equals left right := by
  induction left generalizing right with
  | null =>
    cases right with
    | null => exact .null
    | _ => simp [sortMembers] at same
  | boolean value =>
    cases right with
    | boolean other =>
      simp only [sortMembers, boolean.injEq] at same
      rw [same]
      exact .boolean other
    | _ => simp [sortMembers] at same
  | number value =>
    cases right with
    | number other =>
      simp only [sortMembers, number.injEq] at same
      rw [same]
      exact .number other
    | _ => simp [sortMembers] at same
  | string value =>
    cases right with
    | string other =>
      simp only [sortMembers, string.injEq] at same
      rw [same]
      exact .string other
    | _ => simp [sortMembers] at same
  | array items ih =>
    cases right with
    | array others =>
      simp only [sortMembers, array.injEq, sortItems_eq] at same
      obtain ⟨pairs, lefts, rights, each⟩ := exists_pairs_of_map_eq same
      rw [← lefts, ← rights]
      apply Equals.array
      intro pair pairIn
      have listed : pair.1 ∈ items := by
        rw [← lefts]
        exact List.mem_map_of_mem pairIn
      exact ih pair.1 listed (each pair pairIn)
    | _ => simp [sortMembers] at same
  | object members ih =>
    cases right with
    | object others =>
      simp only [sortMembers, object.injEq, sortValues_eq] at same
      have perm := ((byKey JsonValue).sort_perm (members.map fun member =>
        (member.1, sortMembers member.2))).symm
      rw [same] at perm
      obtain ⟨moved, movedPerm, images⟩ := exists_perm_of_map_perm
        (perm.trans ((byKey JsonValue).sort_perm _))
      obtain ⟨pairs, lefts, rights, each⟩ := exists_pairs_of_map_eq images
      let entries := pairs.map fun pair => (pair.1.1, pair.1.2, pair.2.2)
      have keys : ∀ pair ∈ pairs, pair.1.1 = pair.2.1 :=
        fun pair pairIn => (Prod.mk.inj (each pair pairIn)).1
      have firsts : entries.map (fun entry => (entry.1, entry.2.1)) = members := by
        rw [List.map_map, ← lefts]
        exact List.map_congr_left fun _ _ => rfl
      have seconds : entries.map (fun entry => (entry.1, entry.2.2)) = moved := by
        rw [List.map_map, ← rights]
        exact List.map_congr_left fun pair pairIn => Prod.ext (keys pair pairIn) rfl
      apply Equals.object entries
      · rw [firsts]
      · rw [seconds]
        exact movedPerm.symm
      · intro entry entryIn
        obtain ⟨pair, pairIn, rfl⟩ := List.mem_map.mp entryIn
        have listed : pair.1 ∈ members := by
          rw [← lefts]
          exact List.mem_map_of_mem pairIn
        exact ih pair.1 listed (Prod.mk.inj (each pair pairIn)).2
    | _ => simp [sortMembers] at same

/-- Values are equal exactly where they are in key order. -/
theorem equals_iff_sortMembers (proper : Proper format left) :
    Equals left right ↔ sortMembers left = sortMembers right :=
  ⟨fun equals => equals.sortMembers_eq proper, equals_of_sortMembers_eq⟩

/-- A value is equal to itself in key order. -/
theorem equals_sortMembers (value : JsonValue) : Equals (sortMembers value) value :=
  equals_of_sortMembers_eq (sortMembers_sortMembers value)

theorem canonicalJson_eq_iff (leftProper : Proper format left) (rightProper : Proper format right) :
    canonicalJson format left = canonicalJson format right ↔ Equals left right := by
  rw [equals_iff_sortMembers leftProper]
  constructor
  · exact sortMembers_eq_of_canonicalJson format leftProper rightProper
  · intro same
    rw [canonicalJson, canonicalJson, same]

/-- Equality does not depend on the side. -/
theorem Equals.symm (equals : Equals left right) : Equals right left := by
  induction equals with
  | null => exact .null
  | boolean value => exact .boolean value
  | number value => exact .number value
  | string value => exact .string value
  | array pairs each ih =>
    have swapped := Equals.array (pairs.map Prod.swap) (by
      intro pair pairIn
      obtain ⟨source, sourceIn, rfl⟩ := List.mem_map.mp pairIn
      exact ih source sourceIn)
    rw [List.map_map, List.map_map] at swapped
    exact swapped
  | object entries leftPerm rightPerm each ih =>
    apply Equals.object (entries.map fun entry => (entry.1, entry.2.2, entry.2.1))
    · rw [List.map_map]
      exact rightPerm
    · rw [List.map_map]
      exact leftPerm
    · intro entry entryIn
      obtain ⟨source, sourceIn, rfl⟩ := List.mem_map.mp entryIn
      exact ih source sourceIn

/-- A value equals itself. -/
theorem Equals.refl (value : JsonValue) : Equals value value := equals_of_sortMembers_eq rfl

/-- Equal values without repeated keys. -/
structure Alike (format : NumberFormat) (left right : JsonValue) : Prop where
  equals : Equals left right
  left : Proper format left
  right : Proper format right

namespace Alike

variable {right : JsonValue} {left : List (Text × JsonValue)}

/-- Being alike does not depend on the side. -/
theorem symm {left : JsonValue} (alike : Alike format left right) :
    Alike format right left := ⟨alike.equals.symm, alike.right, alike.left⟩

/-- A proper value is like itself. -/
theorem refl {value : JsonValue} (proper : Proper format value) : Alike format value value :=
  ⟨.refl value, proper, proper⟩

/-- Arrays are alike item by item. -/
theorem items {left right : List JsonValue} (alike : Alike format (.array left) (.array right)) :
    List.Forall₂ (Alike format) left right := by
  have leftProper := alike.left
  have rightProper := alike.right
  cases alike.equals with
  | array pairs each =>
    cases leftProper with
    | array _ leftItems =>
      cases rightProper with
      | array _ rightItems =>
        rw [List.forall₂_map_left_iff, List.forall₂_map_right_iff]
        apply List.forall₂_same.mpr
        intro pair pairIn
        exact ⟨each pair pairIn, leftItems _ (List.mem_map_of_mem pairIn),
          rightItems _ (List.mem_map_of_mem pairIn)⟩

/-- A member of an object has one like it under the same key. -/
theorem members {right : List (Text × JsonValue)}
    (alike : Alike format (.object left) (.object right)) :
    ∀ entry ∈ left, ∃ other, (entry.1, other) ∈ right ∧ Alike format entry.2 other := by
  have leftProper := alike.left
  have rightProper := alike.right
  cases alike.equals with
  | object entries leftPerm rightPerm each =>
    cases leftProper with
    | object _ _ leftMembers =>
      cases rightProper with
      | object _ _ rightMembers =>
        intro entry entryIn
        have listed := leftPerm.mem_iff.mp entryIn
        obtain ⟨source, sourceIn, rfl⟩ := List.mem_map.mp listed
        have otherIn : (source.1, source.2.2) ∈ right :=
          rightPerm.mem_iff.mpr (List.mem_map_of_mem sourceIn)
        exact ⟨source.2.2, otherIn, each source sourceIn, leftMembers _ entryIn,
          rightMembers _ otherIn⟩

theorem length {right : List (Text × JsonValue)}
    (alike : Alike format (.object left) (.object right)) : left.length = right.length := by
  cases alike.equals with
  | object entries leftPerm rightPerm each =>
    rw [leftPerm.length_eq, rightPerm.length_eq, List.length_map, List.length_map]

/-- An object repeats no key. -/
theorem distinct (alike : Alike format (.object left) right) : (left.map Prod.fst).Nodup := by
  cases alike.left with
  | object _ distinct _ => exact distinct

end Alike

/-- Values like the same value are alike. -/
theorem Alike.trans {middle : JsonValue} (first : Alike format left middle)
    (second : Alike format middle right) : Alike format left right := by
  have one := first.equals.sortMembers_eq first.left
  have other := second.equals.sortMembers_eq second.left
  exact ⟨equals_of_sortMembers_eq (one.trans other), first.left, second.right⟩

/-- Values with the same text are the same. -/
theorem eq_of_stringify_eq (leftProper : Proper format left) (rightProper : Proper format right)
    (same : stringify format left = stringify format right) : left = right := by
  have read := parse_stringify format leftProper
  rw [same, parse_stringify format rightProper] at read
  exact (Option.some.inj read).symm

theorem pairwise_alike {left right : List JsonValue} (each : List.Forall₂ (Alike format) left right)
    (distinct : left.Pairwise fun one other => ¬ Equals one other) :
    right.Pairwise fun one other => ¬ Equals one other := by
  induction each with
  | nil => exact .nil
  | @cons item other left right head tail ih =>
    rw [List.pairwise_cons] at distinct ⊢
    refine ⟨fun later laterIn same => ?_, ih distinct.2⟩
    obtain ⟨index, inside, rfl⟩ := List.getElem_of_mem laterIn
    have insideToo : index < left.length := tail.length_eq ▸ inside
    have place := tail.get insideToo inside
    have first : Alike format item right[index] := head.trans ⟨same, head.right, place.right⟩
    exact distinct.1 _ (List.getElem_mem insideToo) (first.trans place.symm).equals

end Holonomy.Foundation.JsonValue
