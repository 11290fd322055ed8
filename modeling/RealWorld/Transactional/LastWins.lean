import Mathlib.Data.List.Basic

/-!
# The last mark wins

Steps of a history mark keys. A state follows the marks when each step sets the keys it marks and
leaves the others alone; after any history it then holds what the latest mark of each key says.
-/

namespace Transactional

variable {ι κ β : Type} {marks : ι → κ → β → Prop} {steps : List ι} {step : ι} {key : κ} {b : β}

/-- The latest step that marks `key` marks it with `b`. -/
def Latest (marks : ι → κ → β → Prop) (steps : List ι) (key : κ) (b : β) : Prop :=
  ∃ front step back, steps = front ++ step :: back ∧ marks step key b ∧
    ∀ later ∈ back, ∀ b', ¬ marks later key b'

theorem not_latest_nil : ¬ Latest marks [] key b := by
  rintro ⟨front, step, back, split, _⟩
  exact List.append_ne_nil_of_right_ne_nil front (List.cons_ne_nil step back) split.symm

/-- A new step either marks the key itself or leaves the latest mark as it was. -/
theorem latest_concat : Latest marks (steps ++ [step]) key b ↔
    marks step key b ∨ (∀ b', ¬ marks step key b') ∧ Latest marks steps key b := by
  constructor
  · rintro ⟨front, marked, back, split, here, unmarked⟩
    rcases List.eq_nil_or_concat back with rfl | ⟨between, last, rfl⟩
    · obtain ⟨_, same⟩ := List.append_inj' split rfl
      cases same
      exact .inl here
    · rw [List.concat_eq_append, ← List.cons_append, ← List.append_assoc] at split
      obtain ⟨rfl, same⟩ := List.append_inj' split rfl
      cases same
      refine .inr ⟨unmarked step (by simp), front, marked, between, rfl, here, fun later member => ?_⟩
      exact unmarked later (by simp [member])
  · rintro (here | ⟨unmarked, front, marked, back, rfl, here, others⟩)
    · exact ⟨steps, step, [], rfl, here, nofun⟩
    · refine ⟨front, marked, back ++ [step], by simp, here, fun later member => ?_⟩
      rcases List.mem_append.mp member with old | new
      · exact others later old
      · rw [List.mem_singleton.mp new]
        exact unmarked

/-- A step that turns the set `before` into `after` as its marks say, `set` marking the keys that
are members afterwards. -/
def Evolves (marks : ι → κ → β → Prop) (set : β) (step : ι) (before after : κ → Prop) : Prop :=
  ∀ key, after key ↔ marks step key set ∨ (∀ b, ¬ marks step key b) ∧ before key

theorem Evolves.of_unmarked {set : β} {before after : κ → Prop}
    (unmarked : ∀ key b, ¬ marks step key b) (same : ∀ key, after key ↔ before key) :
    Evolves marks set step before after := by
  intro key
  rw [same]
  constructor
  · exact fun member => .inr ⟨unmarked key, member⟩
  · rintro (here | ⟨_, member⟩)
    · exact absurd here (unmarked key set)
    · exact member

theorem Evolves.latest {set : β} {before after : κ → Prop} (h : Evolves marks set step before after)
    (earlier : ∀ key, before key ↔ Latest marks steps key set) (key : κ) :
    after key ↔ Latest marks (steps ++ [step]) key set := by
  rw [latest_concat, h key, earlier key]

end Transactional
