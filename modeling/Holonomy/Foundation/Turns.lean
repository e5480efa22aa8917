import Holonomy.Foundation.Histories

/-!
# Requests in turn

Requests are numbered as they are made. A request waits, or is held by an activation that will
settle it, or is settled.
-/

namespace Holonomy.Foundation

structure InTurn (made : ℕ) (waiting holding settled : List ℕ) (nested : List (ℕ × ℕ)) : Prop where
  covered : ∀ request, request < made ↔
    request ∈ settled ∨ request ∈ waiting ∨ request ∈ holding
  once : (settled ++ waiting ++ holding).Nodup
  queued : waiting.Pairwise (· < ·)
  settledBelow : ∀ request ∈ settled, ∀ later ∈ waiting, request < later
  heldBelow : ∀ request ∈ holding, ∀ later ∈ waiting, request < later
  ordered : settled.Pairwise fun request next => request < next ∨ (request, next) ∈ nested
  inside : ∀ request ∈ holding, ∀ later < made, request < later → (later, request) ∈ nested

namespace InTurn

variable {made : ℕ} {waiting holding settled : List ℕ} {nested : List (ℕ × ℕ)}

/-- Nothing was made yet. -/
theorem none : InTurn 0 [] [] [] [] where
  covered := by simp
  once := by simp
  queued := .nil
  settledBelow := by simp
  heldBelow := by simp
  ordered := .nil
  inside := by simp

/-- A request is made and waits. -/
theorem request (turn : InTurn made waiting holding settled nested) :
    InTurn (made + 1) (waiting ++ [made]) holding settled
      (nested ++ holding.map fun held => (made, held)) where
  covered := by
    intro request
    have before := turn.covered request
    simp only [List.mem_append, List.mem_singleton]
    by_cases new : request = made
    · simp [new]
    · have same : request < made + 1 ↔ request < made := by omega
      rw [same, before]
      simp [new]
  once := by
    have fresh : made ∉ settled ++ waiting ++ holding := by
      intro listed
      have already := (turn.covered made).mpr (by simpa [or_assoc] using listed)
      omega
    have moved : (settled ++ (waiting ++ [made]) ++ holding).Perm
        (made :: (settled ++ waiting ++ holding)) := by
      rw [← List.append_assoc, List.append_assoc (settled ++ waiting)]
      exact List.perm_middle
    exact moved.nodup_iff.mpr (List.nodup_cons.mpr ⟨fresh, turn.once⟩)
  queued := by
    exact pairwise_concat turn.queued
      fun request waits => (turn.covered request).mpr (.inr (.inl waits))
  settledBelow := by
    intro request done
    exact forall_mem_concat (turn.settledBelow request done)
      ((turn.covered request).mpr (.inl done))
  heldBelow := by
    intro request held
    exact forall_mem_concat (turn.heldBelow request held)
      ((turn.covered request).mpr (.inr (.inr held)))
  ordered := turn.ordered.imp fun passed => passed.imp_right fun listed =>
    List.mem_append_left _ listed
  inside := by
    intro request held later below above
    by_cases new : later = made
    · have entry := List.mem_map_of_mem (f := fun held => (made, held)) held
      rw [new]
      exact List.mem_append_right _ entry
    · exact List.mem_append_left _ (turn.inside request held later (by omega) above)

/-- A request is made while none waits, and is held at once. -/
theorem hold (turn : InTurn made [] holding settled nested) :
    InTurn (made + 1) [] (made :: holding) settled
      (nested ++ holding.map fun held => (made, held)) where
  covered := by
    intro request
    have placed := turn.request.covered request
    rw [placed]
    simp [or_comm]
  once := by
    have moved : (settled ++ [] ++ made :: holding).Perm
        (settled ++ ([] ++ [made]) ++ holding) := by
      simp
    exact moved.nodup_iff.mpr turn.request.once
  queued := .nil
  settledBelow := by simp
  heldBelow := by simp
  ordered := turn.request.ordered
  inside := by
    intro request held later below above
    rcases List.mem_cons.mp held with same | held
    · omega
    · exact turn.request.inside request held later below above

theorem serve {first : ℕ} (turn : InTurn made (first :: waiting) holding settled nested) :
    InTurn made waiting holding (settled ++ [first]) nested where
  covered := by
    intro request
    rw [turn.covered request]
    simp only [List.mem_cons, List.mem_append, List.not_mem_nil, or_false, or_assoc]
  once := by
    have same : settled ++ [first] ++ waiting ++ holding = settled ++ first ::
        waiting ++ holding := by
      simp
    rw [same]
    exact turn.once
  queued := turn.queued.tail
  settledBelow := by
    refine forall_mem_concat (fun request done later waits => ?_) fun later waits => ?_
    · exact turn.settledBelow request done later (List.mem_cons_of_mem _ waits)
    · exact List.rel_of_pairwise_cons turn.queued waits
  heldBelow := fun request held later waits =>
    turn.heldBelow request held later (List.mem_cons_of_mem _ waits)
  ordered := by
    exact pairwise_concat turn.ordered
      fun request done => .inl (turn.settledBelow request done first List.mem_cons_self)
  inside := turn.inside

theorem serveAll (turn : InTurn made waiting holding settled nested) :
    InTurn made [] holding (settled ++ waiting) nested := by
  induction waiting generalizing settled with
  | nil =>
    rw [List.append_nil]
    exact turn
  | cons first waiting ih =>
    have rest := ih turn.serve
    rw [List.append_assoc] at rest
    exact rest

theorem release {last : ℕ} (turn : InTurn made waiting (last :: holding) settled nested) :
    InTurn made waiting holding (settled ++ [last]) nested where
  covered := by
    intro request
    rw [turn.covered request]
    simp only [List.mem_cons, List.mem_append, List.not_mem_nil, or_false]
    tauto
  once := by
    have moved : (settled ++ [last] ++ waiting ++ holding).Perm
        (settled ++ waiting ++ last :: holding) := by
      have front : settled ++ [last] ++ waiting ++ holding =
          settled ++ last :: (waiting ++ holding) := by simp
      rw [front, List.append_assoc]
      exact List.Perm.append_left settled List.perm_middle.symm
    exact moved.nodup_iff.mpr turn.once
  queued := turn.queued
  settledBelow := by
    exact forall_mem_concat turn.settledBelow
      fun later waits => turn.heldBelow last List.mem_cons_self later waits
  heldBelow := fun request held => turn.heldBelow request (List.mem_cons_of_mem _ held)
  ordered := by
    apply List.pairwise_append.mpr
    refine ⟨turn.ordered, List.pairwise_singleton _ _, ?_⟩
    intro request done next released
    rw [List.mem_singleton.mp released]
    have below : request < made := (turn.covered request).mpr (.inl done)
    have apart : request ≠ last := by
      intro same
      have twice := List.disjoint_of_nodup_append turn.once
      exact twice (List.mem_append_left _ (same ▸ done)) List.mem_cons_self
    by_cases earlier : request < last
    · exact .inl earlier
    · exact .inr (turn.inside last List.mem_cons_self request below (by omega))
  inside := fun request held => turn.inside request (List.mem_cons_of_mem _ held)

theorem passed (turn : InTurn made waiting holding settled nested) {request earlier : ℕ}
    (done : request ∈ settled) (before : earlier < request) :
    earlier ∈ settled ∨ (earlier ∈ holding ∧ (request, earlier) ∈ nested) := by
  have below : request < made := (turn.covered request).mpr (.inl done)
  rcases (turn.covered earlier).mp (by omega) with settled | waits | held
  · exact .inl settled
  · have after := turn.settledBelow request done earlier waits
    omega
  · exact .inr ⟨held, turn.inside earlier held request below before⟩

end InTurn

end Holonomy.Foundation
