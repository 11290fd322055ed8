import RealWorld.Relational.Descent

/-!
# Rows with times

The clock that stamps the rows of a table never goes back. So the times of a row are in order, keys that are
drawn later belong to rows created later, and a row whose last time is before an earlier look at the table has
not changed since that look.
-/

namespace Relational

variable {α : Type} {key created updated : α → Int} {last now now' : Int} {rows rows' rows'' : List α}

/-- The rows of a table at `now`. -/
structure Stamped (key created updated : α → Int) (now : Int) (rows : List α) : Prop where
  times : ∀ r ∈ rows, created r ≤ updated r ∧ updated r ≤ now
  ordered : ∀ r ∈ rows, ∀ r' ∈ rows, key r ≤ key r' → created r ≤ created r'

/-- What a row and its descendant share: nothing changed, or a change at `now` or later left its time. -/
def Edited (created updated : α → Int) (now : Int) (r r' : α) : Prop :=
  created r = created r' ∧ (r' = r ∨ now ≤ updated r')

/-- The table was seen at `now`, its keys drawn up to `last`, and is seen again. -/
structure Since (key created updated : α → Int) (last now : Int) (rows rows' : List α) : Prop where
  old : Descends key (Edited created updated now) last rows rows'
  new : ∀ r' ∈ rows', last < key r' → now ≤ created r'

theorem Stamped.nil : Stamped key created updated now [] := ⟨nofun, nofun⟩

theorem Stamped.mono (h : Stamped key created updated now rows) (later : now ≤ now') :
    Stamped key created updated now' rows where
  times r member := ⟨(h.times r member).1, Int.le_trans (h.times r member).2 later⟩
  ordered := h.ordered

theorem Stamped.sublist (h : Stamped key created updated now rows) (kept : rows'.Sublist rows) :
    Stamped key created updated now rows' where
  times r member := h.times r (kept.subset member)
  ordered r member r' member' := h.ordered r (kept.subset member) r' (kept.subset member')

theorem Stamped.append (h : Stamped key created updated now rows) {new : α} (fresh : ∀ r ∈ rows, key r < key new)
    (create : created new = now) (update : updated new = now) : Stamped key created updated now (rows ++ [new]) where
  times r member := by
    rcases List.mem_append.mp member with old | added
    · exact h.times r old
    · rw [List.mem_singleton.mp added, create, update]
      exact ⟨Int.le_refl now, Int.le_refl now⟩
  ordered r member r' member' before := by
    rcases List.mem_append.mp member with old | added
    · rcases List.mem_append.mp member' with old' | added'
      · exact h.ordered r old r' old' before
      · have times := h.times r old
        rw [List.mem_singleton.mp added', create]
        omega
    · rcases List.mem_append.mp member' with old' | added'
      · have less := fresh r' old'
        rw [List.mem_singleton.mp added] at before
        omega
      · exact Int.le_of_eq (by rw [List.mem_singleton.mp added, List.mem_singleton.mp added'])

theorem Stamped.map (h : Stamped key created updated now rows) {f : α → α} (keyed : ∀ r, key (f r) = key r)
    (create : ∀ r, created (f r) = created r) (update : ∀ r, f r = r ∨ updated (f r) = now) :
    Stamped key created updated now (rows.map f) where
  times r' member := by
    obtain ⟨r, stored, rfl⟩ := List.mem_map.mp member
    have times := h.times r stored
    rw [create]
    rcases update r with same | changed
    · rw [same]
      exact times
    · omega
  ordered r₁ member₁ r₂ member₂ before := by
    obtain ⟨r, stored, rfl⟩ := List.mem_map.mp member₁
    obtain ⟨r', stored', rfl⟩ := List.mem_map.mp member₂
    rw [create, create]
    exact h.ordered r stored r' stored' (by rwa [keyed, keyed] at before)

theorem Edited.refl (r : α) : Edited created updated now r r := ⟨rfl, .inl rfl⟩

theorem Edited.trans (later : now ≤ now') {a b c : α} (first : Edited created updated now a b)
    (second : Edited created updated now' b c) : Edited created updated now a c := by
  obtain ⟨create, edit⟩ := first
  obtain ⟨create', edit'⟩ := second
  refine ⟨create.trans create', ?_⟩
  rcases edit' with rfl | changed
  · exact edit
  · exact .inr (Int.le_trans later changed)

theorem Since.refl (fresh : ∀ r ∈ rows, key r ≤ last) : Since key created updated last now rows rows where
  old := .refl Edited.refl last rows
  new r member drawn := absurd (fresh r member) (Int.not_le.mpr drawn)

theorem Since.trans {last' : Int} (grown : last ≤ last') (later : now ≤ now')
    (first : Since key created updated last now rows rows') (second : Since key created updated last' now' rows' rows'') :
    Since key created updated last now rows rows'' where
  old r'' member old := by
    obtain ⟨r', member', key', edit'⟩ := second.old r'' member (Int.le_trans old grown)
    obtain ⟨r, stored, keys, edit⟩ := first.old r' member' (key' ▸ old)
    exact ⟨r, stored, keys.trans key', edit.trans later edit'⟩
  new r'' member drawn := by
    by_cases known : key r'' ≤ last'
    · obtain ⟨r', member', key', create, _⟩ := second.old r'' member known
      rw [← create]
      exact first.new r' member' (key' ▸ drawn)
    · exact Int.le_trans later (second.new r'' member (Int.not_le.mp known))

section
variable (fresh : ∀ r ∈ rows, key r ≤ last)
include fresh

theorem Since.sublist (kept : rows'.Sublist rows) : Since key created updated last now rows rows' where
  old := .sublist Edited.refl kept
  new r member drawn := absurd (fresh r (kept.subset member)) (Int.not_le.mpr drawn)

theorem Since.append {new : α} (drawn : last < key new) (later : now ≤ created new) :
    Since key created updated last now rows (rows ++ [new]) where
  old := .append Edited.refl (List.forall_mem_singleton.mpr drawn)
  new r member unknown := by
    rcases List.mem_append.mp member with old | added
    · exact absurd (fresh r old) (Int.not_le.mpr unknown)
    · rw [List.mem_singleton.mp added]
      exact later

theorem Since.map {f : α → α} (keyed : ∀ r, key (f r) = key r) (create : ∀ r, created (f r) = created r)
    (update : ∀ r, f r = r ∨ now ≤ updated (f r)) : Since key created updated last now rows (rows.map f) where
  old := .map keyed fun r _ => ⟨(create r).symm, update r⟩
  new r' member drawn := by
    obtain ⟨r, stored, rfl⟩ := List.mem_map.mp member
    exact absurd (fresh r stored) (Int.not_le.mpr (keyed r ▸ drawn))

end

end Relational
