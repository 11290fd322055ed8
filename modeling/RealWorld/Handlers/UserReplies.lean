import RealWorld.Handlers.Replies

/-!
# What requests about the own user answer

Registration and profile update, run alone. The user object of every answer is built from a row of
`users`, but for that of a registration, which is built from the request.
-/

namespace RealWorld
open Schema Transactional

/-- The user object of the row `u`, with `token`. -/
def userResponse (token : String) (u : User) : Response :=
  ⟨200, .obj [("user", serializeUser
    { email := u.email, token := token, username := u.username, bio := u.bio, image := u.image })]⟩

theorem currentUserResponse_eq (auth : UserAuthData) (u : User) :
    Handlers.currentUserResponse auth u = .pure (userResponse auth.token.token u) := rfl

/-! ### Registration -/

/-- A registration that passes its parser. -/
structure RegisterRequest (svc : Service) (call : Call) (registration : Dto.RegistrationRequest) (hash : String) :
    Prop where
  route : call.route = .postUsers
  parsed : call.registration svc = .ok registration
  hashed : generateHash svc.eks call.urandom registration.password = .ok hash

abbrev registerSql (registration : Dto.RegistrationRequest) (hash : String) : Sql :=
  .addNewUser registration.username registration.email hash

/-- The row a registration stores. -/
def registeredRow (registration : Dto.RegistrationRequest) (hash : String) (userId : Int) : User :=
  { userId := userId, username := registration.username, email := registration.email, passwordHash := hash }

section
variable {svc : Service} {call : Call} {s s' : Store} {ms : Nat → Moment} {registration : Dto.RegistrationRequest}
  {hash : String}

theorem RegisterRequest.serve_eq (request : RegisterRequest svc call registration hash) :
    serve svc call = (do
      let userId ← Handlers.alreadyTaken [("uniq_username", "username"), ("uniq_email", "email")] (do
        let res ← execute (registerSql registration hash)
        let userId ← lift (asSingleRow res)
        return .inr userId)
      Handlers.afterTry userId fun userId => .pure (userResponse
        (generateToken svc.jwt svc.jwtConfig call.now userId) (registeredRow registration hash userId))) := by
  obtain ⟨post, parsed, hashed⟩ := request
  have entered : serve svc call = handler svc call none := by
    unfold serve
    rw [post]
    rfl
  rw [entered, handler, post]
  unfold Call.registration at parsed
  simp only [Handlers.Users.Post.handleRequestJsonThrow, parsed, Handlers.validated, lift_ok, hashed]
  rfl

theorem RegisterRequest.refused (request : RegisterRequest svc call registration hash) {e : DbError}
    (answer : (registerSql registration hash).exec svc.loc (ms 0) s = (.error e, s')) :
    respond svc call ms s = (Response.ofExcept
      (Handlers.refusal [("uniq_username", "username"), ("uniq_email", "email")] e), s') := by
  unfold respond
  rw [request.serve_eq, Handlers.run_tried_error answer]

theorem addNewUser_row {username email hash : String} {userId : Int} {loc : DbLocale}
    (done : addNewUser loc username email hash s = .ok userId s') :
    s'.users = s.users ++ [{ userId := userId, username := username, email := email, passwordHash := hash }] := by
  obtain ⟨_, _, _, _, _, _, rfl, rfl⟩ := insertUsers_ok.mp done
  rfl

theorem RegisterRequest.stored (request : RegisterRequest svc call registration hash) {rows : List Int}
    (answer : (registerSql registration hash).exec svc.loc (ms 0) s = (.ok rows, s')) :
    ∃ userId, addNewUser svc.loc registration.username registration.email hash s = .ok userId s' ∧
      respond svc call ms s = (userResponse (generateToken svc.jwt svc.jwtConfig call.now userId)
        (registeredRow registration hash userId), s') := by
  cases Sql.exec_effect (by trivial) answer with
  | @addNewUser _ _ _ userId _ done =>
    refine ⟨userId, done, ?_⟩
    unfold respond
    rw [request.serve_eq, Handlers.run_tried_ok answer rfl]
    rfl

theorem RegisterRequest.of_success (post : call.route = .postUsers) (success : (respond svc call ms s).1.success) :
    ∃ registration hash, RegisterRequest svc call registration hash := by
  have accepted : OnSuccess svc s (serve svc call) fun _ =>
      ∃ registration hash, RegisterRequest svc call registration hash := by
    have entered : serve svc call = handler svc call none := by
      unfold serve
      rw [post]
      rfl
    rw [entered, handler, post]
    refine .validated fun registration parsed => ?_
    refine ensures_tried (fun _ => True) ?_ fun _ _ _ failed success => absurd success failed
    refine ensures_lift (fun hash hashed => ?_) fun _ _ => trivial
    exact ensures_known ⟨registration, hash, post, parsed, hashed⟩
  exact accepted.respond success

theorem RegisterRequest.succeeded (request : RegisterRequest svc call registration hash)
    (success : (respond svc call ms s).1.success) :
    ∃ userId, addNewUser svc.loc registration.username registration.email hash s =
      .ok userId (respond svc call ms s).2 := by
  obtain ⟨r, s', executed⟩ : ∃ r s', (registerSql registration hash).exec svc.loc (ms 0) s = (r, s') := ⟨_, _, rfl⟩
  cases r with
  | error e =>
    rw [request.refused executed] at success
    exact absurd success (refusal_unsuccessful _ e)
  | ok rows =>
    obtain ⟨userId, done, same⟩ := request.stored executed
    rw [same]
    exact ⟨userId, done⟩

end

/-! ### Profile update -/

/-- A profile update that passes its parser, with the token of a user. -/
structure ProfileRequest (svc : Service) (call : Call) (update : Dto.UpdateUserRequest) (hash : Option String)
    (data : UserAuthData) : Prop where
  route : call.route = .putUser
  parsed : call.profileUpdate svc = .ok update
  hashed : update.password.mapM (generateHash svc.eks call.urandom) = .ok hash
  caller : call.caller svc = some data

abbrev profileSql (update : Dto.UpdateUserRequest) (hash : Option String) (userId : Int) : Sql :=
  .updateUserById userId update.username update.email hash update.bio update.image

/-- The row `u` once it is updated. -/
abbrev updatedRow (update : Dto.UpdateUserRequest) (hash : Option String) (u : User) : User :=
  u.update update.username update.email hash update.bio update.image

section
variable {svc : Service} {call : Call} {s s' : Store} {ms : Nat → Moment} {update : Dto.UpdateUserRequest}
  {hash : Option String} {data : UserAuthData}

theorem ProfileRequest.serve_eq (request : ProfileRequest svc call update hash data) :
    serve svc call = (do
      let res ← execute (profileSql update hash data.id)
      if res.isEmpty then Handlers.notFound
      else
        let row ← lift (asSingleRow res)
        .pure (userResponse data.token.token row)) := by
  obtain ⟨put, parsed, hashed, token⟩ := request
  rw [serve_caller token (by rw [put]; rfl), handler, put]
  unfold Call.profileUpdate at parsed
  simp only [Handlers.User.Put.handleRequestJsonThrow, parsed, Handlers.validated, Handlers.getData, lift_ok]
  obtain ⟨email, username, password, bio, image⟩ := update
  cases password with
  | none =>
    cases hashed
    rfl
  | some password =>
    obtain ⟨text, same, hashed⟩ := checked_bind.mp hashed
    cases hashed
    simp only [same]
    rfl

theorem ProfileRequest.refused (request : ProfileRequest svc call update hash data) {e : DbError}
    (answer : (profileSql update hash data.id).exec svc.loc (ms 0) s = (.error e, s')) :
    respond svc call ms s = (⟨500, .null⟩, s') := by
  unfold respond
  rw [request.serve_eq, run_execute_error answer]
  rfl

theorem ProfileRequest.absent (request : ProfileRequest svc call update hash data)
    (answer : (profileSql update hash data.id).exec svc.loc (ms 0) s = (.ok [], s')) :
    respond svc call ms s = (⟨404, .null⟩, s') := by
  unfold respond
  rw [request.serve_eq, run_execute_ok answer]
  rfl

theorem ProfileRequest.stored (request : ProfileRequest svc call update hash data) {row : User}
    (answer : (profileSql update hash data.id).exec svc.loc (ms 0) s = (.ok [row], s')) :
    respond svc call ms s = (userResponse data.token.token row, s') := by
  unfold respond
  rw [request.serve_eq, run_execute_ok answer]
  rfl

theorem ProfileRequest.of_success (put : call.route = .putUser) (success : (respond svc call ms s).1.success) :
    ∃ update hash data, ProfileRequest svc call update hash data := by
  obtain ⟨data, token⟩ := success_caller (by rw [put]; rfl) success
  have accepted : OnSuccess svc s (serve svc call) fun _ =>
      ∃ update hash data, ProfileRequest svc call update hash data := by
    rw [serve_caller token (by rw [put]; rfl), handler, put]
    refine .validated fun update parsed => .lift fun user _ => ?_
    have requested : ∀ hash, update.password.mapM (generateHash svc.eks call.urandom) = .ok hash →
        ProfileRequest svc call update hash data :=
      fun hash hashed => ⟨put, parsed, hashed, token⟩
    cases given : update.password with
    | none =>
      have known := requested none (by rw [given]; rfl)
      exact fun _ _ => ⟨_, _, _, known⟩
    | some password =>
      refine .lift fun hash hashed => ?_
      have known := requested hash (by rw [given]; exact hashed)
      exact fun _ _ => ⟨_, _, _, known⟩
  exact accepted.respond success

theorem ProfileRequest.executed (request : ProfileRequest svc call update hash data)
    (success : (respond svc call ms s).1.success) : ∃ row,
      (profileSql update hash data.id).exec svc.loc (ms 0) s = (.ok [row], (respond svc call ms s).2) := by
  obtain ⟨r, s', executed⟩ : ∃ r s', (profileSql update hash data.id).exec svc.loc (ms 0) s = (r, s') := ⟨_, _, rfl⟩
  cases r with
  | error e =>
    rw [request.refused executed] at success
    cases success
  | ok rows =>
    match rows with
    | [] =>
      rw [request.absent executed] at success
      cases success
    | [row] =>
      rw [request.stored executed]
      exact ⟨row, executed⟩
    | _ :: _ :: _ =>
      unfold respond at success
      rw [request.serve_eq, run_execute_ok executed] at success
      cases success

theorem ProfileRequest.succeeded (request : ProfileRequest svc call update hash data) (h : Valid svc.loc s)
    (success : (respond svc call ms s).1.success) :
    ∃ u ∈ s.users, u.userId = data.id ∧
      respond svc call ms s = (userResponse data.token.token (updatedRow update hash u),
        { s with users := s.users.map fun v => if v.userId = data.id then updatedRow update hash v else v }) := by
  obtain ⟨row, executed⟩ := request.executed success
  have shown := request.stored executed
  cases Sql.exec_effect (by trivial) executed with
  | updateUserById updated =>
    rcases updateUserById_cases h.toConstraints updated with ⟨none, _⟩ | ⟨u, member, same, one, store⟩
    · cases none
    · cases one
      exact ⟨u, member, same, store ▸ shown⟩

end

end RealWorld
