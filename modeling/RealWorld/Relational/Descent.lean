import Mathlib.Data.List.Basic

/-!
# What becomes of the rows of a table

A table whose keys are drawn from a sequence is seen at two moments. Its later rows are new, with a key past
the last one drawn by the first moment, or each descends from the earlier row with the same key.
-/

namespace Relational

variable {α : Type} {key : α → Int} {same : α → α → Prop} {last last' : Int} {rows rows' rows'' : List α}

/-- A row of `rows'` with a key up to `last` has an ancestor in `rows`; `same` is what never changes. -/
def Descends (key : α → Int) (same : α → α → Prop) (last : Int) (rows rows' : List α) : Prop :=
  ∀ r' ∈ rows', key r' ≤ last → ∃ r ∈ rows, key r = key r' ∧ same r r'

theorem Descends.refl (reflexive : ∀ r, same r r) (last : Int) (rows : List α) : Descends key same last rows rows :=
  fun r member _ => ⟨r, member, rfl, reflexive r⟩

theorem Descends.trans (transitive : ∀ a b c, same a b → same b c → same a c) (grown : last ≤ last')
    (first : Descends key same last rows rows') (second : Descends key same last' rows' rows'') :
    Descends key same last rows rows'' := by
  intro r'' member old
  obtain ⟨r', member', key', same'⟩ := second r'' member (Int.le_trans old grown)
  obtain ⟨r, stored, keys, kept⟩ := first r' member' (key' ▸ old)
  exact ⟨r, stored, keys.trans key', transitive r r' r'' kept same'⟩

theorem Descends.append (reflexive : ∀ r, same r r) {added : List α} (fresh : ∀ r ∈ added, last < key r) :
    Descends key same last rows (rows ++ added) := by
  intro r member old
  rcases List.mem_append.mp member with stored | new
  · exact ⟨r, stored, rfl, reflexive r⟩
  · exact absurd old (Int.not_le.mpr (fresh r new))

theorem Descends.sublist (reflexive : ∀ r, same r r) (kept : rows'.Sublist rows) : Descends key same last rows rows' :=
  fun r member _ => ⟨r, kept.subset member, rfl, reflexive r⟩

theorem Descends.map {f : α → α} (keyed : ∀ r, key (f r) = key r) (each : ∀ r ∈ rows, same r (f r)) :
    Descends key same last rows (rows.map f) := by
  intro r' member _
  obtain ⟨r, stored, rfl⟩ := List.mem_map.mp member
  exact ⟨r, stored, (keyed r).symm, each r stored⟩

end Relational
