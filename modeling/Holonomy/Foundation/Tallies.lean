import Mathlib

/-!
# Tallies

What the items of a table weigh together. A table has a key for each of its items; an item is
taken out of the tally with its key, and a change of the items that keeps their weights keeps the
tally.
-/

namespace Holonomy.Foundation

variable {α β : Type}

def tally (weight : α → ℕ) (items : List α) : ℕ := (items.map weight).sum

variable {weight other : α → ℕ} {items : List α}

variable {item : α} {more : List α}

/-- Nothing weighs nothing. -/
@[simp]
theorem tally_nil : tally weight [] = 0 := rfl

/-- One more item adds its weight. -/
@[simp]
theorem tally_cons : tally weight (item :: items) = weight item + tally weight items :=
  rfl

/-- Two tables weigh what they weigh together. -/
@[simp]
theorem tally_append : tally weight (items ++ more) = tally weight items + tally weight more := by
  unfold tally
  rw [List.map_append, List.sum_append]

/-- The order of the items does not matter. -/
theorem tally_perm (perm : items.Perm more) : tally weight items = tally weight more :=
  (perm.map weight).sum_eq

theorem tally_congr (same : ∀ item ∈ items, weight item = other item) :
    tally weight items = tally other items := by
  unfold tally
  rw [List.map_congr_left same]

theorem tally_le (lighter : ∀ item ∈ items, weight item ≤ other item) :
    tally weight items ≤ tally other items :=
  List.sum_le_sum lighter

theorem tally_eq_zero (weightless : ∀ item ∈ items, weight item = 0) : tally weight items = 0 := by
  induction items with
  | nil => rfl
  | cons item items ih =>
    have first := weightless item (List.mem_cons_self ..)
    have rest := ih fun other otherIn => weightless other (List.mem_cons_of_mem _ otherIn)
    rw [tally_cons, first, rest]

theorem tally_map {change : β → α} {items : List β} :
    tally weight (items.map change) = tally (weight ∘ change) items := by
  unfold tally
  rw [List.map_map]

/-- Two weights are tallied one by one. -/
theorem tally_add :
    tally (fun item => weight item + other item) items = tally weight items + tally other items :=
  List.sum_map_add

theorem tally_filter (kept : α → Bool) :
    tally weight (items.filter kept) =
      tally (fun item => if kept item then weight item else 0) items := by
  induction items with
  | nil => rfl
  | cons item items ih =>
    by_cases keeps : kept item = true
    · rw [List.filter_cons_of_pos keeps, tally_cons, tally_cons, ih, if_pos keeps]
    · rw [List.filter_cons_of_neg keeps, tally_cons, ih, if_neg keeps, Nat.zero_add]

/-- Weights that are taken away one by one are taken away together. -/
theorem foldl_sub (total : ℕ) :
    items.foldl (fun rest item => rest - weight item) total = total - tally weight items := by
  induction items generalizing total with
  | nil => rfl
  | cons item items ih =>
    rw [List.foldl_cons, ih, tally_cons]
    omega

theorem tally_modify {change : α → α} {place : ℕ} (here : items[place]? = some item) :
    tally weight (items.modify place change) + weight item =
      tally weight items + weight (change item) := by
  induction items generalizing place with
  | nil => cases here
  | cons first rest ih =>
    cases place with
    | zero =>
      have same : first = item := Option.some.inj here
      rw [List.modify_zero_cons, tally_cons, tally_cons, same]
      omega
    | succ place =>
      have later := ih (show rest[place]? = some item from here)
      rw [List.modify_succ_cons, tally_cons, tally_cons]
      omega

section Keys

variable {Key : Type} [DecidableEq Key] {key : α → Key}

/-- The items of other keys. -/
def without (key : α → Key) (taken : Key) (items : List α) : List α :=
  items.filter fun item => key item ≠ taken

variable {taken wanted : Key} {item : α} {change : α → α}

/-- What is left of a table was in it. -/
theorem of_mem_without (listed : item ∈ without key taken items) :
    item ∈ items ∧ key item ≠ taken := by
  have both := List.mem_filter.mp listed
  exact ⟨both.1, of_decide_eq_true both.2⟩

/-- An item of another key is left. -/
theorem mem_without (listed : item ∈ items) (differs : key item ≠ taken) :
    item ∈ without key taken items :=
  List.mem_filter.mpr ⟨listed, decide_eq_true differs⟩

/-- What is left of a table stands in it. -/
theorem without_sublist (taken : Key) : (without key taken items).Sublist items :=
  List.filter_sublist

theorem perm_cons_without (once : (items.map key).Nodup) (listed : item ∈ items) :
    items.Perm (item :: without key (key item) items) := by
  induction items with
  | nil => exact absurd listed List.not_mem_nil
  | cons first rest ih =>
    rw [List.map_cons, List.nodup_cons] at once
    rcases List.mem_cons.mp listed with same | later
    · have others : without key (key item) rest = rest := by
        apply List.filter_eq_self.mpr
        intro other otherIn
        apply decide_eq_true
        intro clash
        rw [same] at clash
        exact once.1 (List.mem_map.mpr ⟨other, otherIn, clash⟩)
      have removed : without key (key item) (first :: rest) = rest := by
        unfold without
        rw [List.filter_cons_of_neg (by rw [same]; simp)]
        exact others
      rw [removed, same]
    · have differs : key first ≠ key item := by
        intro clash
        exact once.1 (List.mem_map.mpr ⟨item, later, clash.symm⟩)
      have kept : without key (key item) (first :: rest) =
          first :: without key (key item) rest :=
        List.filter_cons_of_pos (decide_eq_true differs)
      rw [kept]
      exact ((ih once.2 later).cons first).trans (List.Perm.swap ..)

theorem tally_without (once : (items.map key).Nodup) (listed : item ∈ items) :
    tally weight items = weight item + tally weight (without key (key item) items) :=
  tally_perm (perm_cons_without once listed)

/-- Change the item of a key. -/
def modifyAt (key : α → Key) (wanted : Key) (change : α → α) (items : List α) : List α :=
  items.map fun item => if key item = wanted then change item else item

/-- The items behind a change. -/
theorem mem_modifyAt :
    item ∈ modifyAt key wanted change items ↔
      ∃ kept ∈ items, (if key kept = wanted then change kept else kept) = item :=
  List.mem_map

theorem map_modifyAt (same : ∀ item, key (change item) = key item) :
    (modifyAt key wanted change items).map key = items.map key := by
  rw [modifyAt, List.map_map]
  apply List.map_congr_left
  intro item _
  rw [Function.comp_apply]
  split_ifs
  · exact same item
  · rfl

theorem without_modifyAt (same : ∀ item, key (change item) = key item) :
    without key wanted (modifyAt key wanted change items) = without key wanted items := by
  induction items with
  | nil => rfl
  | cons item items ih =>
    unfold modifyAt without at ih ⊢
    rw [List.map_cons]
    by_cases own : key item = wanted
    · rw [if_pos own, List.filter_cons_of_neg (by simp [same, own]),
        List.filter_cons_of_neg (by simp [own]), ih]
    · rw [if_neg own, List.filter_cons_of_pos (by simpa using own),
        List.filter_cons_of_pos (by simpa using own), ih]

theorem tally_modifyAt (once : (items.map key).Nodup) (listed : item ∈ items)
    (same : ∀ item, key (change item) = key item) :
    tally weight (modifyAt key (key item) change items) + weight item =
      tally weight items + weight (change item) := by
  have changed : change item ∈ modifyAt key (key item) change items :=
    mem_modifyAt.mpr ⟨item, listed, if_pos rfl⟩
  have onceToo : ((modifyAt key (key item) change items).map key).Nodup := by
    rw [map_modifyAt same]
    exact once
  have before : tally weight items = _ := tally_without once listed
  have behind : tally weight (modifyAt key (key item) change items) = _ :=
    tally_without onceToo changed
  rw [same, without_modifyAt same] at behind
  omega

end Keys

theorem tally_by_key {Key : Type} [DecidableEq Key] (key : α → Key) {keys : List Key}
    (once : keys.Nodup) (all : ∀ item ∈ items, key item ∈ keys) (weight : α → ℕ) :
    tally weight items =
      tally (fun wanted => tally weight (items.filter fun item => key item = wanted)) keys := by
  induction items with
  | nil =>
    symm
    exact tally_eq_zero fun _ _ => rfl
  | cons item items ih =>
    rw [List.forall_mem_cons] at all
    have split : ∀ wanted, tally weight ((item :: items).filter fun item => key item = wanted) =
        (if key item = wanted then weight item else 0) +
          tally weight (items.filter fun item => key item = wanted) := by
      intro wanted
      by_cases same : key item = wanted
      · rw [List.filter_cons_of_pos (by simpa using same), tally_cons, if_pos same]
      · rw [List.filter_cons_of_neg (by simpa using same), if_neg same, Nat.zero_add]
    have single : tally (fun wanted => if key item = wanted then weight item else 0) keys =
        weight item := by
      have distinct : (keys.map id).Nodup := by simpa using once
      have whole : tally (fun wanted => if key item = wanted then weight item else 0) keys =
          (if key item = key item then weight item else 0) +
            tally (fun wanted => if key item = wanted then weight item else 0)
              (without id (id (key item)) keys) := tally_without distinct all.1
      rw [whole, if_pos (rfl : key item = key item)]
      have rest : tally (fun wanted => if key item = wanted then weight item else 0)
          (without id (id (key item)) keys) = 0 := by
        apply tally_eq_zero
        intro other otherIn
        exact if_neg fun same => (of_mem_without otherIn).2 same.symm
      rw [rest, Nat.add_zero]
    rw [tally_cons, ih all.2]
    simp only [split]
    rw [tally_add, single]

end Holonomy.Foundation
