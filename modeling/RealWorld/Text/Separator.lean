import Mathlib.Data.List.TakeDrop
import Mathlib.Data.List.TakeWhile

/-!
# Text up to a separator

What a search for the first separator finds, and how the parts determine the text.
-/

namespace Text

variable {α : Type} [DecidableEq α] {sep c : α} {text front back : List α}

theorem span_split (free : sep ∉ front) :
    (front ++ sep :: back).span (· ≠ sep) = (front, sep :: back) := by
  rw [List.span_eq_takeWhile_dropWhile]
  induction front with
  | nil => simp
  | cons d front ih =>
    obtain ⟨differs, rest⟩ := not_or.mp (mt List.mem_cons.mpr free)
    obtain ⟨taken, dropped⟩ := Prod.mk.inj (ih rest)
    have other : decide (d ≠ sep) = true := decide_eq_true (Ne.symm differs)
    rw [List.cons_append, List.takeWhile_cons_of_pos (p := fun x => decide (x ≠ sep)) other,
      List.dropWhile_cons_of_pos (p := fun x => decide (x ≠ sep)) other, taken, dropped]

theorem span_free (free : sep ∉ text) : text.span (· ≠ sep) = (text, []) := by
  have all : ∀ d ∈ text, decide (d ≠ sep) = true := by
    intro d member
    exact decide_eq_true fun same => free (same ▸ member)
  rw [List.span_eq_takeWhile_dropWhile, List.takeWhile_eq_self_iff.mpr all,
    List.dropWhile_eq_nil_iff.mpr all]

theorem span_cases (sep : α) (text : List α) :
    (sep ∉ text ∧ text.span (· ≠ sep) = (text, [])) ∨
      ∃ front back, sep ∉ front ∧ text = front ++ sep :: back ∧
        text.span (· ≠ sep) = (front, sep :: back) := by
  by_cases member : sep ∈ text
  · obtain ⟨front, back, rfl, free⟩ := List.eq_append_cons_of_mem member
    exact .inr ⟨front, back, free, rfl, span_split free⟩
  · exact .inl ⟨member, span_free member⟩

/-- What is read of a text that ends at a terminator. -/
theorem takeWhile_split : text.takeWhile (· ≠ sep) = front ↔
    sep ∉ front ∧ (text = front ∨ ∃ back, text = front ++ sep :: back) := by
  have first : text.takeWhile (· ≠ sep) = (text.span (· ≠ sep)).1 := by
    rw [List.span_eq_takeWhile_dropWhile]
  rw [first]
  constructor
  · rintro rfl
    rcases span_cases sep text with ⟨free, same⟩ | ⟨front, back, free, split, same⟩
    · rw [same]
      exact ⟨free, .inl rfl⟩
    · rw [same]
      exact ⟨free, .inr ⟨back, split⟩⟩
  · rintro ⟨free, rfl | ⟨back, rfl⟩⟩
    · rw [span_free free]
    · rw [span_split free]

/-! ### Every part -/

/-- The parts between the separators, one more than there are separators. -/
def split (sep : α) : List α → List (List α)
  | [] => [[]]
  | c :: text =>
    if c = sep then [] :: split sep text
    else match split sep text with
      | [] => [[c]]
      | part :: parts => (c :: part) :: parts

theorem split_free (free : sep ∉ text) : split sep text = [text] := by
  induction text with
  | nil => rfl
  | cons d text ih =>
    obtain ⟨differs, rest⟩ := not_or.mp (mt List.mem_cons.mpr free)
    rw [split, if_neg (Ne.symm differs), ih rest]

theorem split_append (free : sep ∉ front) :
    split sep (front ++ sep :: back) = front :: split sep back := by
  induction front with
  | nil => rw [List.nil_append, split, if_pos rfl]
  | cons d front ih =>
    obtain ⟨differs, rest⟩ := not_or.mp (mt List.mem_cons.mpr free)
    rw [List.cons_append, split, if_neg (Ne.symm differs), ih rest]

/-- A text is its first part and the other parts, each led by a separator. -/
theorem split_parts (sep : α) (text : List α) :
    ∃ part parts, split sep text = part :: parts ∧ text = part ++ parts.flatMap (sep :: ·) := by
  induction text with
  | nil => exact ⟨[], [], rfl, rfl⟩
  | cons c text ih =>
    obtain ⟨part, parts, parted, joined⟩ := ih
    rw [split, parted]
    split
    · rename_i same
      subst same
      exact ⟨[], part :: parts, rfl, congrArg (c :: ·) joined⟩
    · exact ⟨c :: part, parts, rfl, congrArg (c :: ·) joined⟩

theorem split_join {part : List α} {parts : List (List α)} (free : sep ∉ part) (others : ∀ q ∈ parts, sep ∉ q) :
    split sep (part ++ parts.flatMap (sep :: ·)) = part :: parts := by
  induction parts generalizing part with
  | nil => rw [List.flatMap_nil, List.append_nil, split_free free]
  | cons q parts ih =>
    obtain ⟨here, rest⟩ := List.forall_mem_cons.mp others
    rw [List.flatMap_cons, List.cons_append, split_append free, ih here rest]

theorem split_singleton {part : List α} : split sep text = [part] ↔ sep ∉ text ∧ part = text := by
  constructor
  · intro whole
    by_cases member : sep ∈ text
    · obtain ⟨front, back, rfl, free⟩ := List.eq_append_cons_of_mem member
      obtain ⟨_, _, parted, _⟩ := split_parts sep back
      rw [split_append free, parted] at whole
      cases whole
    · rw [split_free member] at whole
      exact ⟨member, (List.cons.inj whole).1.symm⟩
  · rintro ⟨free, rfl⟩
    exact split_free free

end Text
