import RealWorld.Schema.Raises

/-!
# Names and addresses that are taken

Two statements write the unique columns of `users`. Whichever constraint they violate, a different user holds
what they were given for the column.
-/

namespace RealWorld.Schema
open Relational

/-- `own` asks for a name or an address that a different user holds, in the field so called. -/
inductive HeldByOther (loc : DbLocale) (t : Tables) (own : Option Int) (username email : Option String) :
    String → Prop where
  | username {name : String} {u : User} (asked : name ∈ username) (stored : u ∈ t.users) (other : some u.userId ≠ own)
      (same : loc.citextLower u.username = loc.citextLower name) : HeldByOther loc t own username email "username"
  | email {address : String} {u : User} (asked : address ∈ email) (stored : u ∈ t.users) (other : some u.userId ≠ own)
      (same : u.email = address) : HeldByOther loc t own username email "email"

/-- The constraints of the two columns, with the fields of a request they belong to. -/
def takenFields : List (String × String) := [("uniq_username", "username"), ("uniq_email", "email")]

/-- A violation of one of the constraints is of a column whose field is held. -/
def BlamesHeld (loc : DbLocale) (t : Tables) (own : Option Int) (username email : Option String) (e : DbError) : Prop :=
  ∀ constraint field, e = .uniqueViolation constraint → takenFields.lookup constraint = some field →
    HeldByOther loc t own username email field

section
variable {loc : DbLocale} {t : Tables} {own : Option Int} {username email : Option String}

theorem BlamesHeld.violation {constraint field : String} (found : takenFields.lookup constraint = some field)
    (held : HeldByOther loc t own username email field) :
    BlamesHeld loc t own username email (.uniqueViolation constraint) := by
  rintro _ field' ⟨⟩ found'
  cases found.symm.trans found'
  exact held

theorem BlamesHeld.primary : BlamesHeld loc t own username email (.uniqueViolation "pk_users") := by
  rintro _ field ⟨⟩ found
  cases found

theorem BlamesHeld.wide : BlamesHeld loc t own username email .stringDataRightTruncation := nofun

end

section
variable {loc : DbLocale} {s : Store}

theorem insertUsers_blamesHeld (h : Constraints loc s.toTables) {username email hash : String} :
    RaisesOnly (BlamesHeld loc s.toTables none (some username) (some email)) (insertUsers loc username email hash) s := by
  refine .nextval_bind nofun <| (raisesOnly_check_expected .wide).mpr fun _ =>
    (raisesOnly_check_expected .wide).mpr fun _ => .get_bind ?_
  refine .bind (raisesOnly_last_check .primary) fun _ _ => .bind (.check fun taken => ?_) fun _ _ =>
    .bind (.check fun taken => ?_) fun _ _ => .bind raisesOnly_final_set fun _ _ => raisesOnly_pure
  · rw [nodup_map_concat_iff h.uniq_username] at taken
    push Not at taken
    obtain ⟨u, stored, same⟩ := taken
    exact .violation rfl (.username rfl stored nofun same)
  · rw [nodup_map_concat_iff h.uniq_email] at taken
    push Not at taken
    obtain ⟨u, stored, same⟩ := taken
    exact .violation rfl (.email rfl stored nofun same)

theorem insertUsers_unheld (h : Constraints loc s.toTables) {username email hash : String} {userId : Int} {s' : Store}
    (done : insertUsers loc username email hash s = .ok userId s') (field : String) :
    ¬ HeldByOther loc s.toTables none (some username) (some email) field := by
  obtain ⟨_, _, _, _, names, addresses, _⟩ := insertUsers_ok.mp done
  rintro (⟨⟨⟩, stored, _, same⟩ | ⟨⟨⟩, stored, _, same⟩)
  · exact (nodup_map_concat_iff h.uniq_username).mp names _ stored same
  · exact (nodup_map_concat_iff h.uniq_email).mp addresses _ stored same

/-- A column of the updated rows that is no longer unique has a value a different user holds. -/
theorem updated_taken (h : Constraints loc s.toTables) {userId : Int} (update : User → User)
    (keeps : ∀ u, (update u).userId = u.userId) {κ : Type} {column : User → κ} (distinct : (s.users.map column).Nodup)
    (taken : ¬ ((s.users.map fun u => if u.userId = userId then update u else u).map column).Nodup) :
    ∃ u ∈ s.users, ∃ v ∈ s.users, u.userId = userId ∧ v.userId ≠ userId ∧ column v = column (update u) := by
  rcases filter_key_cases h.pk_users userId with ⟨_, absent⟩ | ⟨u, member, rfl, _⟩
  · rw [map_unhit absent] at taken
    exact absurd distinct taken
  · rw [map_key_congr h.pk_users member, ← keeps u, nodup_map_replace h.pk_users distinct member (keeps u), keeps] at taken
    push Not at taken
    obtain ⟨v, stored, same, other⟩ := taken
    exact ⟨u, member, v, stored, rfl, other, same⟩

theorem updateUserById_blamesHeld (h : Constraints loc s.toTables) {userId : Int}
    {username email passwordHash bio image : Option String} :
    RaisesOnly (BlamesHeld loc s.toTables (some userId) username email)
      (updateUserById loc userId username email passwordHash bio image) s := by
  refine .get_bind <| .bind (.forM fun _ _ => ?_) fun _ _ => .bind raisesOnly_final_set fun _ _ => raisesOnly_pure
  refine .bind (raisesOnly_last_check .wide) fun _ _ => .bind (raisesOnly_last_check .wide) fun _ _ =>
    .bind (raisesOnly_last_check .wide) fun _ _ => .bind (.check fun taken => ?_) fun _ _ => .check fun taken => ?_
  · obtain ⟨u, member, v, stored, rfl, other, same⟩ := updated_taken h
      (User.update username email passwordHash bio image) (fun _ => rfl) h.uniq_username taken
    cases username with
    | none => exact absurd (congrArg User.userId (key_inj h.uniq_username stored member same)) other
    | some name => exact .violation rfl (.username rfl stored (fun here => other (Option.some.inj here)) same)
  · obtain ⟨u, member, v, stored, rfl, other, same⟩ := updated_taken h
      (User.update username email passwordHash bio image) (fun _ => rfl) h.uniq_email taken
    cases email with
    | none => exact absurd (congrArg User.userId (key_inj h.uniq_email stored member same)) other
    | some address => exact .violation rfl (.email rfl stored (fun here => other (Option.some.inj here)) same)

end

end RealWorld.Schema
