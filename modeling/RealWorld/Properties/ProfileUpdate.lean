import RealWorld.Handlers.UserReplies
import RealWorld.Properties.Reachability

/-!
# Updating the own profile

The five fields pass through the parser, a call with positional arguments and a COALESCE for each column.
An update rewrites the columns of the fields it was given, in the row of the caller and in no other.
-/

namespace RealWorld
open Schema Relational Transactional

/-- The fields of `UpdateUserRequest` in the body of a request. -/
def profileFields : List String := ["email", "username", "password", "bio", "image"]

/-- The body has no such field, or null in it. -/
def Call.Omits (call : Call) (object name : String) : Prop :=
  call.field object name = .ok none ∨ call.field object name = .ok (some .null)

/-- Between `s` and `s'` the row of `u` has changed to `u'`, in the columns that `call` supplies. -/
structure ProfileRewritten (svc : Service) (call : Call) (s s' : Store) (u u' : User) : Prop where
  userId : u'.userId = u.userId
  email : u'.email = (call.supplied "user" "email").getD u.email
  username : u'.username = (call.supplied "user" "username").getD u.username
  bio : u'.bio = (call.supplied "user" "bio" <|> u.bio)
  image : u'.image = (call.supplied "user" "image" <|> u.image)
  password : ∀ password ∈ call.supplied "user" "password", generateHash svc.eks call.urandom password = .ok u'.passwordHash
  passwordKept : call.supplied "user" "password" = none → u'.passwordHash = u.passwordHash
  users : ∀ v, v ∈ s'.users ↔ v = u' ∨ v ∈ s.users ∧ v.userId ≠ u.userId
  others : s' = { s with users := s'.users }

section
variable {svc : Service} {call : Call} {ms : Nat → Moment} {s s' : Store} {data : UserAuthData}

theorem Call.Omits.read {object name : String} {parent : Value} (omits : call.Omits object name)
    (entered : Value.member (some call.request.body) object = .ok parent) {α : Type} (f : Option String → Except Exn α) :
    (do f (← (← parent.member name).asOptionalString)) = f none := by
  unfold Call.Omits Call.field at omits
  rw [entered] at omits
  have member : parent.member name = .ok none ∨ parent.member name = .ok (some .null) := omits
  rcases member with absent | null
  · rw [absent]
    rfl
  · rw [null]
    rfl

theorem Call.profileUpdate_empty (omits : ∀ name ∈ profileFields, call.Omits "user" name) :
    call.profileUpdate svc = .error (.validation "user" "cannot be empty") := by
  obtain ⟨parent, entered⟩ : ∃ parent, Value.member (some call.request.body) "user" = .ok parent := by
    rcases omits "email" (by decide) with absent | null
    · obtain ⟨parent, entered, _⟩ := checked_bind.mp absent
      exact ⟨parent, entered⟩
    · obtain ⟨parent, entered, _⟩ := checked_bind.mp null
      exact ⟨parent, entered⟩
  unfold Call.profileUpdate
  rw [entered]
  show Handlers.User.Put.parseRequest svc.json parent = _
  unfold Handlers.User.Put.parseRequest
  rw [(omits "email" (by decide)).read entered]
  -- without a text a check passes
  refine ((omits "username" (by decide)).read entered _).trans ?_
  refine ((omits "password" (by decide)).read entered _).trans ?_
  refine ((omits "bio" (by decide)).read entered _).trans ?_
  exact (omits "image" (by decide)).read entered _

theorem empty_update_refused (put : call.route = .putUser) (caller : call.caller svc = some data)
    (omits : ∀ name ∈ profileFields, call.Omits "user" name) :
    respond svc call ms s = (⟨422, makeError "user" "cannot be empty"⟩, s) := by
  have refused : call.profileUpdate svc = _ := Call.profileUpdate_empty omits
  unfold Call.profileUpdate at refused
  unfold respond
  rw [serve_caller caller (by rw [put]; rfl), handler, put]
  simp only [Handlers.User.Put.handleRequestJsonThrow, refused, Handlers.validated]
  rfl

/-- The statement rewrites the row of the caller, and the response shows it. -/
theorem ProfileRequest.rewritten {update : Dto.UpdateUserRequest} {hash : Option String}
    (request : ProfileRequest svc call update hash data) (h : Valid svc.loc s) (success : (respond svc call ms s).1.success) :
    ∃ u ∈ s.users, u.userId = data.id ∧ ∃ u', ProfileRewritten svc call s (respond svc call ms s).2 u u' ∧
      (respond svc call ms s).1 = userResponse data.token.token u' := by
  obtain ⟨u, member, own, answered⟩ := request.succeeded h success
  have supplied := Handlers.User.Put.parsed_supplied request.parsed
  have hashed := request.hashed
  subst supplied
  rw [answered]
  refine ⟨u, member, own, _, ?_, rfl⟩
  exact {
    userId := rfl
    email := rfl
    username := rfl
    bio := rfl
    image := rfl
    password := by
      intro password given
      rw [Option.mem_def.mp given] at hashed
      obtain ⟨text, same, here⟩ := checked_bind.mp hashed
      cases here
      exact same
    passwordKept := by
      intro absent
      rw [absent] at hashed
      cases hashed
      rfl
    users := by
      intro v
      rw [← own, map_key_congr h.pk_users member]
      exact mem_map_key member
    others := rfl }

/-- A profile update rewrites the fields it was given in the row of the caller and shows the row. Without a
field it is refused. -/
theorem profile_update_exact (reachable : Reachable svc s) (put : call.route = .putUser)
    (caller : call.caller svc = some data) :
    ((respond svc call ms s).1.success → ∃ u ∈ s.users, u.userId = data.id ∧
      ∃ u', ProfileRewritten svc call s (respond svc call ms s).2 u u' ∧
        (respond svc call ms s).1 = userResponse data.token.token u') ∧
      ((∀ name ∈ profileFields, call.Omits "user" name) →
        respond svc call ms s = (⟨422, makeError "user" "cannot be empty"⟩, s)) := by
  refine ⟨fun success => ?_, empty_update_refused put caller⟩
  obtain ⟨update, hash, own, request⟩ := ProfileRequest.of_success put success
  obtain rfl := Option.some.inj (request.caller.symm.trans caller)
  exact request.rewritten reachable.valid success

end

theorem profile_update_sample :
    let call := sampleProfile 2 [("bio", .str "Reader"), ("image", .null)]
    (∃ u ∈ samplePublished.users, u.userId = 2 ∧ ∃ u',
      ProfileRewritten sample call samplePublished (respond sample call (fun _ => sampleMoment) samplePublished).2 u u' ∧
        (respond sample call (fun _ => sampleMoment) samplePublished).1 = userResponse (sampleData 2).token.token u') ∧
      respond sample (sampleProfile 2 [("image", .null)]) (fun _ => sampleMoment) samplePublished =
        (⟨422, makeError "user" "cannot be empty"⟩, samplePublished) := by
  intro call
  have token : (sampleProfile 2 []).caller sample = some (sampleData 2) := by decide
  have caller : ∀ fields, (sampleProfile 2 fields).caller sample = some (sampleData 2) := by
    intro fields
    rw [← token]
    exact Call.caller_congr rfl rfl
  refine ⟨(profile_update_exact samplePublished_reachable rfl (caller _)).1 (by decide +kernel), ?_⟩
  refine (profile_update_exact samplePublished_reachable rfl (caller _)).2 ?_
  simp only [profileFields, List.forall_mem_cons]
  exact ⟨.inl rfl, .inl rfl, .inl rfl, .inl rfl, .inr rfl, nofun⟩

end RealWorld
