import Mathlib

/-!
# Stable sorting by a precedence

A precedence is a total preorder with a decision: it says which of two values may stand in front.
Sorting is insertion sort, which is stable, so a precedence that does not separate two values leaves
them in their input order.
-/

namespace Holonomy.Foundation

/-- A total preorder together with its decision procedure. -/
structure Precedence (α : Type) where
  /-- The first value may stand in front of the second. -/
  before : α → α → Prop
  /-- Sorting evaluates the relation. -/
  decides : DecidableRel before
  /-- Every two values are comparable. -/
  total : ∀ left right, before left right ∨ before right left
  trans : ∀ first second third, before first second → before second third → before first third

namespace Precedence

variable {α β κ : Type}

instance (order : Precedence α) : DecidableRel order.before := order.decides

instance (order : Precedence α) : Std.Total order.before := ⟨order.total⟩

instance (order : Precedence α) : IsTrans α order.before := ⟨order.trans⟩

/-- Every value may stand in front of itself. -/
theorem refl (order : Precedence α) (value : α) : order.before value value :=
  (order.total value value).elim id id

/-- Compare values through a key. -/
def comap (order : Precedence β) (key : α → β) : Precedence α where
  before left right := order.before (key left) (key right)
  decides left right := order.decides (key left) (key right)
  total left right := order.total (key left) (key right)
  trans first second third := order.trans (key first) (key second) (key third)

def ofLinear (κ : Type) [LinearOrder κ] : Precedence κ where
  before left right := left ≤ right
  decides := inferInstance
  total := le_total
  trans _ _ _ := le_trans

def andThen (first second : Precedence α) : Precedence α where
  before left right := first.before left right ∧
    (first.before right left → second.before left right)
  decides left right := inferInstance
  total left right := by
    by_cases forward : first.before left right
    · by_cases backward : first.before right left
      · exact (second.total left right).imp (fun h => ⟨forward, fun _ => h⟩)
          (fun h => ⟨backward, fun _ => h⟩)
      · exact .inl ⟨forward, fun h => absurd h backward⟩
    · have backward := (first.total left right).resolve_left forward
      exact .inr ⟨backward, fun h => absurd h forward⟩
  trans a b c ab bc := by
    refine ⟨first.trans a b c ab.1 bc.1, fun ca => ?_⟩
    have ba := first.trans b c a bc.1 ca
    have cb := first.trans c a b ca ab.1
    exact second.trans a b c (ab.2 ba) (bc.2 cb)

/-- Stable sorting. -/
def sort (order : Precedence α) (values : List α) : List α := values.insertionSort order.before

abbrev Sorted (order : Precedence α) (values : List α) : Prop := values.Pairwise order.before

/-- No two different values of the list tie. -/
def Separates (order : Precedence α) (values : List α) : Prop :=
  ∀ left ∈ values, ∀ right ∈ values,
    order.before left right → order.before right left → left = right

section

variable (order : Precedence α)

include order

/-- Sorting rearranges. -/
theorem sort_perm (values : List α) : (order.sort values).Perm values :=
  List.perm_insertionSort _ _

/-- A sorted list is in order. -/
theorem sort_sorted (values : List α) : order.Sorted (order.sort values) :=
  List.pairwise_insertionSort _ _

/-- Sorting keeps exactly the given values. -/
@[simp]
theorem mem_sort (values : List α) (value : α) : value ∈ order.sort values ↔ value ∈ values :=
  (order.sort_perm values).mem_iff

@[simp]
theorem length_sort (values : List α) : (order.sort values).length = values.length :=
  (order.sort_perm values).length_eq

theorem sort_of_sorted {values : List α} (sorted : order.Sorted values) :
    order.sort values = values :=
  List.Pairwise.insertionSort_eq sorted

/-- Sorting twice is sorting once. -/
@[simp]
theorem sort_sort (values : List α) : order.sort (order.sort values) = order.sort values :=
  order.sort_of_sorted (order.sort_sorted values)

/-- One value is in order. -/
@[simp]
theorem sort_singleton (value : α) : order.sort [value] = [value] := rfl

/-- Repetition is a matter of the elements. -/
@[simp]
theorem nodup_sort (values : List α) : (order.sort values).Nodup ↔ values.Nodup :=
  (order.sort_perm values).nodup_iff

theorem sort_eq_of_perm {left right : List α} (perm : left.Perm right)
    (separates : order.Separates left) : order.sort left = order.sort right := by
  have same : (order.sort left).Perm (order.sort right) :=
    (order.sort_perm left).trans (perm.trans (order.sort_perm right).symm)
  refine @List.Perm.eq_of_pairwise _ order.before _ _ ?_ (order.sort_sorted left)
    (order.sort_sorted right) same
  intro first second firstIn secondIn forward backward
  have secondLeft : second ∈ left := perm.mem_iff.mpr ((order.mem_sort right second).mp secondIn)
  exact separates first ((order.mem_sort left first).mp firstIn) second secondLeft forward backward

end

theorem comap_separates [LinearOrder κ] (key : α → κ) (values : List α)
    (injective : ∀ left ∈ values, ∀ right ∈ values, key left = key right → left = right) :
    ((ofLinear κ).comap key).Separates values := by
  intro left leftIn right rightIn forward backward
  exact injective left leftIn right rightIn (le_antisymm forward backward)

theorem map_sort_comap (order : Precedence β) (key : α → β) (values : List α) :
    ((order.comap key).sort values).map key = order.sort (values.map key) :=
  List.map_insertionSort _ _ key values fun _ _ _ _ => Iff.rfl

end Precedence

end Holonomy.Foundation
