import Holonomy.Foundation.Json

/-!
# Joined and split texts

Parts are joined with a separator between them, and a text is split at a separator into parts that
are free of it.
-/

namespace Holonomy.Foundation

variable {separator : UInt16} {part : Text}

theorem join_cons_cons (part next : Text) (rest : List Text) :
    join separator (part :: next :: rest) = part ++ separator :: join separator (next :: rest) := by
  rw [join, List.intercalate_cons_cons, ← join]
  simp

/-- A part alone is not changed. -/
@[simp] theorem join_singleton (part : Text) : join separator [part] = part := by
  simp [join]

/-- Parts are joined in front of parts. -/
theorem join_append {left right : List Text} (someLeft : left ≠ []) (someRight : right ≠ []) :
    join separator (left ++ right) = join separator left ++ separator :: join separator right := by
  induction left with
  | nil => exact absurd rfl someLeft
  | cons part left ih =>
    cases left with
    | nil =>
      cases right with
      | nil => exact absurd rfl someRight
      | cons next rest => rw [List.singleton_append, join_cons_cons, join_singleton]
    | cons next left =>
      rw [List.cons_append, List.cons_append, join_cons_cons, ← List.cons_append,
        ih (List.cons_ne_nil _ _), join_cons_cons, List.append_assoc, List.cons_append]

/-- The parts of a text are free of the separator. -/
theorem not_mem_of_mem_splitOn {text : Text} (listed : part ∈ text.splitOn separator) :
    separator ∉ part := by
  induction text generalizing part with
  | nil =>
    rw [List.splitOn_nil, List.mem_singleton] at listed
    simp [listed]
  | cons unit text ih =>
    rw [List.splitOn_cons_eq_if_modifyHead] at listed
    by_cases same : (unit == separator) = true
    · rw [if_pos same] at listed
      rcases List.mem_cons.mp listed with rfl | later
      · simp
      · exact ih later
    · rw [if_neg same] at listed
      cases parts : text.splitOn separator with
      | nil => exact absurd parts (List.splitOn_ne_nil _ _)
      | cons first rest =>
        rw [parts, List.modifyHead_cons] at listed
        rw [parts] at ih
        rcases List.mem_cons.mp listed with rfl | later
        · rw [List.mem_cons]
          rintro (equal | inside)
          · exact same (beq_iff_eq.mpr equal.symm)
          · exact ih List.mem_cons_self inside
        · exact ih (List.mem_cons_of_mem _ later)

end Holonomy.Foundation
