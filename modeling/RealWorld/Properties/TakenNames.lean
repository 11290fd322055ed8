import RealWorld.Handlers.UserReplies
import RealWorld.Properties.StorableUsers
import RealWorld.Schema.TakenNames

/-!
# Names and addresses that a different user holds

Registration and profile update write the same two unique columns. Registration answers a violation with 422
and the field; the handler of the update does not catch it.
-/

namespace RealWorld
open Schema Transactional

/-- An accepted request of `own` for a name and an address, with the statement that writes them. -/
inductive NamesRequest (svc : Service) (call : Call) : Option Int → Option String → Option String → Sql → Prop where
  | register {registration : Dto.RegistrationRequest} {hash : String}
      (request : RegisterRequest svc call registration hash) :
      NamesRequest svc call none (some registration.username) (some registration.email) (registerSql registration hash)
  | update {update : Dto.UpdateUserRequest} {hash : Option String} {data : UserAuthData}
      (request : ProfileRequest svc call update hash data) :
      NamesRequest svc call (some data.id) update.username update.email (profileSql update hash data.id)

def nameTaken (field : String) : Response := ⟨422, makeError field "has already been taken"⟩

/-- What a different user holds is refused with 422 and the field, and nothing else is refused as taken. -/
structure TakenReported (svc : Service) (call : Call) (ms : Nat → Moment) (s : Store) (own : Option Int)
    (username email : Option String) (q : Sql) : Prop where
  held : (∃ field, HeldByOther svc.loc s.toTables own username email field) →
    (∃ field, HeldByOther svc.loc s.toTables own username email field ∧ (respond svc call ms s).1 = nameTaken field) ∧
      (respond svc call ms s).2.toTables = s.toTables
  free : (∀ field, ¬ HeldByOther svc.loc s.toTables own username email field) →
    (∀ field, (respond svc call ms s).1 ≠ nameTaken field) ∧
      q.RaisesOnly (fun e => ¬ Taken ["uniq_username", "uniq_email"] e) svc.loc s

section
variable {loc : DbLocale} {s : Store} {own : Option Int} {username email : Option String} {q : Sql} {e : DbError}

theorem Schema.Sql.raisesOnly_of_body {expected : DbError → Prop} (isExpected : expected .invalidByteSequence)
    (raises : ∀ m e s', q.body loc m s = (.error e, s') → expected e) : q.RaisesOnly expected loc s := by
  intro m e s' failed
  by_cases texts : q.texts.all storable
  · rw [Sql.exec_storable texts] at failed
    exact raises m e s' failed
  · rw [Sql.exec_unstorable texts] at failed
    cases failed
    exact isExpected

theorem takenFields_of (taken : Taken ["uniq_username", "uniq_email"] e) :
    ∃ constraint field, e = .uniqueViolation constraint ∧ takenFields.lookup constraint = some field := by
  cases e with
  | uniqueViolation constraint =>
    rcases List.mem_pair.mp taken with rfl | rfl
    · exact ⟨_, "username", rfl, rfl⟩
    · exact ⟨_, "email", rfl, rfl⟩
  | _ => cases taken

theorem nameTaken_of {field : String} (answered : Response.ofExcept (Handlers.refusal takenFields e) = nameTaken field) :
    Taken ["uniq_username", "uniq_email"] e := by
  cases e with
  | uniqueViolation constraint =>
    unfold Handlers.refusal at answered
    dsimp only at answered
    split at answered
    · rename_i found
      obtain ⟨before, after, listed, _⟩ := List.lookup_eq_some_iff.mp found
      have member := listed ▸ List.mem_append_right before (List.mem_cons_self (l := after))
      exact List.mem_map_of_mem (f := Prod.fst) member
    · cases answered
  | _ => cases answered

/-- What nobody else holds is not what the statement is refused for. -/
theorem Schema.BlamesHeld.untaken (blames : BlamesHeld loc s.toTables own username email e)
    (free : ∀ field, ¬ HeldByOther loc s.toTables own username email field) :
    ¬ Taken ["uniq_username", "uniq_email"] e := by
  intro taken
  obtain ⟨constraint, field, same, found⟩ := takenFields_of taken
  exact free field (blames constraint field same found)

theorem registerSql_blamesHeld (h : Constraints loc s.toTables) (registration : Dto.RegistrationRequest) (hash : String) :
    (registerSql registration hash).RaisesOnly
      (BlamesHeld loc s.toTables none (some registration.username) (some registration.email)) loc s :=
  Sql.raisesOnly_of_body nofun fun _ => singleton_raisesOnly.mpr (insertUsers_blamesHeld h)

theorem profileSql_blamesHeld (h : Constraints loc s.toTables) (update : Dto.UpdateUserRequest) (hash : Option String)
    (userId : Int) : (profileSql update hash userId).RaisesOnly
      (BlamesHeld loc s.toTables (some userId) update.username update.email) loc s :=
  Sql.raisesOnly_of_body nofun fun _ => atomically_raisesOnly.mpr (updateUserById_blamesHeld h)

end

section
variable {svc : Service} {call : Call} {ms : Nat → Moment} {s : Store}

section
variable {registration : Dto.RegistrationRequest} {hash : String}

/-- A registration is answered with a taken field for a violated constraint only. -/
theorem RegisterRequest.taken_of (request : RegisterRequest svc call registration hash)
    {r : Except DbError (List Int)} {s' : Store}
    (executed : (registerSql registration hash).exec svc.loc (ms 0) s = (r, s')) {field : String}
    (answered : (respond svc call ms s).1 = nameTaken field) : ∃ e, r = .error e ∧ Taken ["uniq_username", "uniq_email"] e := by
  cases r with
  | ok rows =>
    obtain ⟨_, _, same⟩ := request.stored executed
    rw [same] at answered
    cases answered
  | error e =>
    rw [request.refused executed] at answered
    exact ⟨e, rfl, nameTaken_of answered⟩

theorem RegisterRequest.names_field (request : RegisterRequest svc call registration hash) {constraint field : String}
    {s' : Store} (executed : (registerSql registration hash).exec svc.loc (ms 0) s = (.error (.uniqueViolation constraint), s'))
    (found : takenFields.lookup constraint = some field) : respond svc call ms s = (nameTaken field, s') := by
  rw [request.refused executed]
  unfold takenFields at found
  simp only [Handlers.refusal, found]
  rfl

theorem RegisterRequest.reported_iff (request : RegisterRequest svc call registration hash) (reachable : Reachable svc s)
    (encodes : svc.eks.Encodes) :
    TakenReported svc call ms s none (some registration.username) (some registration.email)
        (registerSql registration hash) ↔
      (∀ field, ¬ HeldByOther svc.loc s.toTables none (some registration.username) (some registration.email) field) ∨
        storable registration.username ∧ s.usersSeq < maxInt ∧ registration.email.length ≤ 255 := by
  have h := reachable.valid.toConstraints
  have accepted := @addNewUser_storable_iff svc s reachable registration.username registration.email hash
    (generateHash_stored encodes request.hashed) (Handlers.Users.Post.parsed_email request.parsed)
  obtain ⟨r, s', executed⟩ : ∃ r s', (registerSql registration hash).exec svc.loc (ms 0) s = (r, s') := ⟨_, _, rfl⟩
  constructor
  · intro reported
    by_contra neither
    push Not at neither
    obtain ⟨held, unstorable⟩ := neither
    obtain ⟨⟨field, _, answered⟩, _⟩ := reported.held held
    obtain ⟨e, rfl, taken⟩ := request.taken_of executed answered
    -- the moment plays no part in this statement
    have all : (registerSql registration hash).RaisesOnly (Taken ["uniq_username", "uniq_email"]) svc.loc s := by
      intro m e' t failed
      cases executed.symm.trans failed
      exact taken
    obtain ⟨text, room, fits⟩ := accepted.mp all
    exact absurd fits (Nat.not_le_of_lt (unstorable text room))
  · intro condition
    have blames := registerSql_blamesHeld h registration hash
    refine ⟨fun held => ?_, fun free => ⟨fun field answered => ?_, fun m e t failed => (blames m e t failed).untaken free⟩⟩
    · obtain ⟨field, here⟩ := held
      have storable := accepted.mpr (condition.resolve_left fun free => free field here)
      cases r with
      | ok rows =>
        obtain ⟨_, done, _⟩ := request.stored executed
        exact absurd here (insertUsers_unheld h done field)
      | error e =>
        obtain ⟨constraint, field, rfl, found⟩ := takenFields_of (storable _ _ _ executed)
        rw [request.names_field executed found]
        exact ⟨⟨field, blames _ _ _ executed constraint field rfl found, rfl⟩, Sql.exec_error executed⟩
    · obtain ⟨e, rfl, taken⟩ := request.taken_of executed answered
      exact (blames _ _ _ executed).untaken free taken

end

theorem ProfileRequest.reported_iff {update : Dto.UpdateUserRequest} {hash : Option String} {data : UserAuthData}
    (request : ProfileRequest svc call update hash data) (h : Valid svc.loc s) :
    TakenReported svc call ms s (some data.id) update.username update.email (profileSql update hash data.id) ↔
      ∀ field, ¬ HeldByOther svc.loc s.toTables (some data.id) update.username update.email field := by
  have answers : ∀ field, (respond svc call ms s).1 ≠ nameTaken field := by
    intro field
    obtain ⟨r, s', executed⟩ : ∃ r s', (profileSql update hash data.id).exec svc.loc (ms 0) s = (r, s') := ⟨_, _, rfl⟩
    cases r with
    | error e =>
      rw [request.refused executed]
      nofun
    | ok rows =>
      cases Sql.exec_effect (by trivial) executed with
      | updateUserById updated =>
        rcases updateUserById_cases h.toConstraints updated with ⟨rfl, _⟩ | ⟨u, _, _, rfl, _⟩
        · rw [request.absent executed]
          nofun
        · rw [request.stored executed]
          nofun
  constructor
  · intro reported field held
    obtain ⟨⟨field, _, answered⟩, _⟩ := reported.held ⟨field, held⟩
    exact answers field answered
  · intro free
    refine ⟨fun ⟨field, held⟩ => absurd held (free field), fun _ => ⟨answers, fun m e t failed => ?_⟩⟩
    exact (profileSql_blamesHeld h.toConstraints update hash data.id m e t failed).untaken free

/-- What a different user holds is reported to a registration that the database can store, and never to a
profile update. -/
theorem taken_names_reported_iff (reachable : Reachable svc s) (encodes : svc.eks.Encodes) {own : Option Int}
    {username email : Option String} {q : Sql} (request : NamesRequest svc call own username email q)
    (ms : Nat → Moment) :
    TakenReported svc call ms s own username email q ↔
      (∀ field, ¬ HeldByOther svc.loc s.toTables own username email field) ∨
        call.route = .postUsers ∧ (∀ name ∈ username, storable name) ∧ s.usersSeq < maxInt ∧
          ∀ address ∈ email, address.length ≤ 255 := by
  cases request with
  | register request =>
    rw [request.reported_iff reachable encodes]
    simp [request.route]
  | update request =>
    rw [request.reported_iff reachable.valid]
    simp [request.route]

end

def sampleNamed : Store := (respond sampleDigest (sampleRegister "anna") (fun _ => sampleMoment) Store.empty).2

theorem taken_names_reported_sample :
    TakenReported sampleDigest (sampleRegister "Anna") (fun _ => sampleMoment) sampleNamed none (some "Anna")
        (some "Anna@mail.io") (.addNewUser "Anna" "Anna@mail.io" sampleHash) ↔
      (∀ field, ¬ HeldByOther sampleLocale sampleNamed.toTables none (some "Anna") (some "Anna@mail.io") field) ∨
        Route.postUsers = .postUsers ∧ (∀ name ∈ some "Anna", storable name) ∧ sampleNamed.usersSeq < maxInt ∧
          ∀ address ∈ some "Anna@mail.io", address.length ≤ 255 :=
  have request : RegisterRequest sampleDigest (sampleRegister "Anna")
      { username := "Anna", password := "secret", email := "Anna@mail.io" } sampleHash := ⟨rfl, by decide, by decide⟩
  taken_names_reported_iff ((reachable_empty sampleDigest).respond (sampleRegister "anna") _) sampleDigest_encodes
    (.register request) _

/-- Bert asks for the name of anna. -/
theorem taken_name_unreported : ∃ update, Reachable sample samplePublished ∧
    ProfileRequest sample (sampleProfile 2 [("username", .str "Anna")]) update none (sampleData 2) ∧
    HeldByOther sampleLocale samplePublished.toTables (some 2) update.username update.email "username" ∧
    (respond sample (sampleProfile 2 [("username", .str "Anna")]) (fun _ => sampleMoment) samplePublished).1.status = 500 ∧
    ¬ TakenReported sample (sampleProfile 2 [("username", .str "Anna")]) (fun _ => sampleMoment) samplePublished (some 2)
      update.username update.email (profileSql update none 2) := by
  have failed : (respond sample (sampleProfile 2 [("username", .str "Anna")]) (fun _ => sampleMoment)
      samplePublished).1.status = 500 := by decide +kernel
  have held : HeldByOther sampleLocale samplePublished.toTables (some 2) (some "Anna") none "username" :=
    .username rfl (u := sampleUser 1 "anna") List.mem_cons_self (by decide) (by decide)
  refine ⟨{ email := none, username := some "Anna", password := none, bio := none, image := none },
    samplePublished_reachable, ⟨rfl, rfl, rfl, by decide⟩, held, failed, fun reported => ?_⟩
  obtain ⟨⟨field, _, answered⟩, _⟩ := reported.held ⟨_, held⟩
  rw [answered] at failed
  cases failed

end RealWorld
