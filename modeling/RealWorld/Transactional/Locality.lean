/-!
# Local operations

Agents share a state of which each has a view. An operation belongs to one of them when it acts on that agent's view
and leaves the views of the others alone; operations of different agents then commute.
-/

namespace Transactional

variable {State Agent View Outcome : Type}

/-- The operation, which leads with an outcome from a state to another, is to its agent the function `act` of the view,
and to the others nothing. -/
def Local (view : Agent → State → View) (act : View → Outcome × View) (agent : Agent)
    (op : State → Outcome → State → Prop) : Prop :=
  ∀ s o s', op s o s' →
    act (view agent s) = (o, view agent s') ∧ ∀ other, other ≠ agent → view other s' = view other s

section
variable {view : Agent → State → View} {act act' : View → Outcome × View} {u v : Agent}
  {a b : State → Outcome → State → Prop} {s s₁ s₂ t₁ t₂ : State} {o₁ o₂ o₁' o₂' : Outcome}

/-- An operation of another agent in between changes neither the outcome nor what becomes of the own view. -/
theorem Local.undisturbed (first : Local view act u a) (second : Local view act' v b) (distinct : u ≠ v)
    (alone : a s o₁ s₁) (before : b s o₂ t₁) (after : a t₁ o₁' t₂) : o₁ = o₁' ∧ view u s₁ = view u t₂ := by
  have kept := (second _ _ _ before).2 u distinct
  have late := (first _ _ _ after).1
  rw [kept, (first _ _ _ alone).1] at late
  exact Prod.mk.inj late

/-- In either order the two operations have their outcomes and leave every agent the same view. -/
theorem Local.commute (first : Local view act u a) (second : Local view act' v b) (distinct : u ≠ v)
    (early : a s o₁ s₁) (late : b s₁ o₂ s₂) (early' : b s o₂' t₁) (late' : a t₁ o₁' t₂) :
    (∀ w, view w s₂ = view w t₂) ∧ o₁ = o₁' ∧ o₂ = o₂' := by
  obtain ⟨same, own⟩ := first.undisturbed second distinct early early' late'
  obtain ⟨same', own'⟩ := second.undisturbed first distinct.symm early' early late
  have a₁ := (first _ _ _ early).2
  have b₁ := (second _ _ _ late).2
  have b₂ := (second _ _ _ early').2
  have a₂ := (first _ _ _ late').2
  refine ⟨fun w => ?_, same, same'.symm⟩
  by_cases mine : w = u
  · rw [mine, b₁ u distinct, own]
  · by_cases yours : w = v
    · rw [yours, a₂ v distinct.symm, own']
    · rw [b₁ w yours, a₁ w mine, a₂ w mine, b₂ w yours]

end

end Transactional
