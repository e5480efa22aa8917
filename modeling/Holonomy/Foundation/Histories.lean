import Mathlib

/-!
# Histories

A history grows at its end. What held of its entries and holds of the new one holds of all of them;
and it stays in order, or without repetitions, when the new entry fits behind the former ones.
-/

namespace Holonomy.Foundation

section

variable {α : Type*} {history : List α} {entry : α}

theorem forall_mem_concat {holds : α → Prop} (former : ∀ one ∈ history, holds one)
    (new : holds entry) : ∀ one ∈ history ++ [entry], holds one :=
  List.forall_mem_append.mpr ⟨former, List.forall_mem_singleton.mpr new⟩

theorem pairwise_concat {before : α → α → Prop} (former : history.Pairwise before)
    (new : ∀ one ∈ history, before one entry) : (history ++ [entry]).Pairwise before := by
  refine List.pairwise_append.mpr ⟨former, List.pairwise_singleton _ _,
    fun one listed last own => ?_⟩
  rw [List.mem_singleton.mp own]
  exact new one listed

theorem nodup_concat (former : history.Nodup) (new : entry ∉ history) :
    (history ++ [entry]).Nodup :=
  pairwise_concat former fun _ listed same => new (same ▸ listed)

end

/-! ## Chronicles

A chronicle is a list of what happened.
-/

variable {Entry : Type}

def Fits (allowed : List Entry → Entry → Prop) (log : List Entry) : Prop :=
  ∀ before entry after, log = before ++ entry :: after → allowed before entry

namespace Fits

variable {allowed : List Entry → Entry → Prop} {log : List Entry} {entry : Entry}

/-- Nothing happened yet. -/
theorem nil : Fits allowed [] := by
  intro before entry after same
  have positive := congrArg List.length same
  rw [List.length_append, List.length_cons, List.length_nil] at positive
  omega

/-- One more entry that is allowed. -/
theorem snoc (fits : Fits allowed log) (free : allowed log entry) :
    Fits allowed (log ++ [entry]) := by
  intro before other after same
  rcases List.append_eq_append_iff.mp same with ⟨more, isBefore, isLast⟩ | ⟨more, isLog, isLast⟩
  · cases more with
    | nil =>
      rw [List.append_nil] at isBefore
      rw [List.nil_append] at isLast
      rw [isBefore, ← (List.cons.inj isLast).1]
      exact free
    | cons head tail =>
      have short := congrArg List.length isLast
      rw [List.length_singleton, List.length_append, List.length_cons, List.length_cons] at short
      omega
  · cases more with
    | nil =>
      rw [List.append_nil] at isLog
      rw [List.nil_append] at isLast
      rw [← isLog, (List.cons.inj isLast).1]
      exact free
    | cons head tail =>
      rw [List.cons_append] at isLast
      rw [(List.cons.inj isLast).1]
      exact fits before head tail isLog

end Fits

theorem filterMap_snoc {Selected : Type} (select : Entry → Option Selected) (log : List Entry)
    (entry : Entry) :
    (log ++ [entry]).filterMap select = log.filterMap select ++ (select entry).toList := by
  rw [List.filterMap_append, List.filterMap_cons, List.filterMap_nil]
  cases select entry with
  | none => rfl
  | some selected => rfl

end Holonomy.Foundation
