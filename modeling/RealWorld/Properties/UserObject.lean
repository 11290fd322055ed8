import RealWorld.Handlers.UserReplies
import RealWorld.Properties.Identities

/-!
# One user object

Registration, login and profile update answer with a user object that each of them builds in its own way.
All of them describe a row of `users`, and the current user is that row until an update replaces it.
-/

namespace RealWorld
open Schema Relational Transactional

/-- The authorization check reads `token` as `decoded`, whose signature verifies, and takes it for the user `userId`. -/
structure TokenFor (svc : Service) (token : String) (userId : Int) (decoded : DecodedToken) : Prop where
  nul_free : Char.ofNat 0 ∉ token.toList
  decodes : svc.jwt.decode token = some decoded
  verifies : svc.jwt.signedWith svc.jwtConfig.secretKey decoded = true
  user : ∃ id, decoded.id = some id ∧ toInt32 id = userId
  text : decoded.token = token

/-- A statement that updated the row of the user. -/
def UpdatesUser (userId : Int) (e : Event Sql Sql.Res Store) : Prop :=
  (∃ username email passwordHash bio image, e.op = .updateUserById userId username email passwordHash bio image) ∧
    ∃ rows, e.answer = .ok rows

section
variable {svc : Service} {s : Store} {u : User}

/-- A row stays until it is updated: no statement deletes a user. -/
theorem Schema.Effect.row_kept {loc : DbLocale} {m : Moment} {s' : Store} {q : Sql} {rows : List q.Row}
    (effect : Effect loc m s q rows s') (stored : u ∈ s.users) : u ∈ s'.users ∨
      ∃ username email passwordHash bio image, q = .updateUserById u.userId username email passwordHash bio image := by
  by_cases changes : q.changesUsers
  · cases effect with
    | addNewUser done =>
      obtain ⟨_, _, _, _, users, _⟩ := addNewUser_store done
      exact .inl (users ▸ List.mem_append_left _ stored)
    | @updateUserById userId _ _ _ _ _ _ _ done =>
      obtain ⟨_, _, rfl⟩ := updateUserById_ok.mp done
      by_cases own : u.userId = userId
      · subst own
        exact .inr ⟨_, _, _, _, _, rfl⟩
      · exact .inl (List.mem_map.mpr ⟨u, stored, if_neg own⟩)
    | _ => cases changes
  · exact .inl (effect.users_kept changes ▸ stored)

theorem updatesUser_of_lost {loc : DbLocale} {e : Event Sql Sql.Res Store}
    (executed : ∃ m, e.op.exec loc m e.before = (e.answer, e.after)) (stored : u ∈ e.before.users)
    (lost : u ∉ e.after.users) : UpdatesUser u.userId e := by
  obtain ⟨m, executed⟩ := executed
  rcases Sql.exec_cases executed with same | ⟨rows, answered, _, effect⟩
  · exact absurd (congrArg Tables.users same ▸ stored) lost
  · exact ⟨(effect.row_kept stored).resolve_left lost, rows, answered⟩

/-- A request with a token that its times still allow is made by the user the token is for. -/
theorem TokenFor.caller {token : String} {userId : Int} {decoded : DecodedToken} (names : TokenFor svc token userId decoded)
    {request : Call} (carried : Carries request.request.authorization token) (inTime : decoded.inTime request.now = true) :
    ∃ data, request.caller svc = some data ∧ data.id = userId ∧ data.token.token = token := by
  obtain ⟨id, claimed, rfl⟩ := names.user
  have passed : checkAuth svc.jwt svc.jwtConfig false request.now request.request.authorization = _ :=
    (checkAuth_carried names.nul_free carried).trans (checkToken_inTime names.decodes names.verifies claimed inTime)
  refine ⟨⟨toInt32 id, decoded⟩, ?_, rfl, names.text⟩
  simp only [Call.caller, passed]

section
variable (lawful : svc.jwt.Lawful svc.jwtConfig.secretKey)
include lawful

theorem tokenFor_caller {call : Call} {data : UserAuthData} (caller : call.caller svc = some data) :
    TokenFor svc data.token.token data.id data.token := by
  obtain ⟨token, free, _, checked⟩ := checkAuth_passed (Call.caller_eq caller false)
  obtain ⟨found, verifies, _, id, claimed, same⟩ := checkToken_passed checked
  obtain rfl := lawful.decode_token token data.token found
  exact ⟨free, found, verifies, ⟨id, claimed, same.symm⟩, rfl⟩

theorem tokenFor_stored (valid : Valid svc.loc s) (stored : u ∈ s.users) (issued : Int) :
    TokenFor svc (generateToken svc.jwt svc.jwtConfig issued u.userId) u.userId
      (svc.jwt.signed svc.jwtConfig.secretKey (expirySecond svc.jwtConfig issued) u.userId) := by
  have bounds := hasUser_range valid ⟨u, stored, rfl⟩
  unfold maxInt at bounds
  have range : IsInt64 u.userId := by
    unfold IsInt64
    omega
  have second := expirySecond_range svc.jwtConfig issued
  exact ⟨lawful.no_nul _ _, lawful.decode_sign _ _ second range, lawful.signedWith_sign _ _ second range,
    ⟨u.userId, rfl, toInt32_of_range (by omega) (by omega)⟩, rfl⟩

/-- The times of a token that was generated are its expiry alone. -/
theorem TokenFor.generated {issued id userId : Int} {decoded : DecodedToken} (range : IsInt64 id)
    (names : TokenFor svc (generateToken svc.jwt svc.jwtConfig issued id) userId decoded) :
    toInt32 id = userId ∧
      ∀ now, decoded.inTime now = true ↔ now ≤ expirySecond svc.jwtConfig issued * nanosPerSecond := by
  have second := expirySecond_inClock svc.jwtConfig issued
  have signed : svc.jwt.decode (generateToken svc.jwt svc.jwtConfig issued id) = _ :=
    lawful.decode_sign (expirySecond svc.jwtConfig issued) id second.range range
  obtain rfl := Option.some.inj (signed.symm.trans names.decodes)
  obtain ⟨_, claimed, same⟩ := names.user
  cases claimed
  exact ⟨same, fun now => by rw [JwtLib.signed_inTime second, decide_eq_true_iff]⟩

end

/-! ### The three requests that answer with a user object -/

/-- The one statement of the client, and the row of `users` that its answer shows with a token of that user. -/
def ShowsRow (svc : Service) (call : Call) (own : List (Event Sql Sql.Res Store)) (response : Response) : Prop :=
  ∃ e u token, own = [e] ∧ u ∈ e.after.users ∧ response = userResponse token u ∧
    (call.route = .putUser ∨ token = generateToken svc.jwt svc.jwtConfig call.now u.userId) ∧
    (Valid svc.loc e.after → ∃ decoded, TokenFor svc token u.userId decoded)

variable {call : Call} {i : Nat} {own : List (Event Sql Sql.Res Store)} {response : Response}

theorem registration_showsRow (lawful : svc.jwt.Lawful svc.jwtConfig.secretKey) (post : call.route = .postUsers)
    (follows : Follows (Sql.exec svc.loc) i (serve svc call) own (.pure response)) (success : response.success) :
    ShowsRow svc call own response := by
  have entered : serve svc call =
      Handlers.Users.Post.handleRequestJsonThrow svc call.now call.urandom call.request := by
    unfold serve handler
    rw [post]
    rfl
  rw [entered] at follows
  obtain ⟨registration, _, tried⟩ := Handlers.validated_answered follows success
  obtain ⟨hash, _, tried⟩ := Handlers.tried_lift_answered tried success
  obtain ⟨m, s, rows, s', others, answer, rfl, ended⟩ := Handlers.tried_answered tried success
  cases Sql.exec_effect (by trivial) answer with
  | @addNewUser _ _ _ userId _ done =>
    have answered : Follows (Sql.exec svc.loc) i (.pure (userResponse (generateToken svc.jwt svc.jwtConfig call.now userId)
        (registeredRow registration hash userId))) others (.pure response) := ended
    obtain ⟨rfl, same⟩ := Follows.of_pure answered
    cases same
    have stored : registeredRow registration hash userId ∈ s'.users :=
      addNewUser_row done ▸ List.mem_concat_self
    exact ⟨_, _, _, rfl, stored, rfl, .inr rfl, fun valid => ⟨_, tokenFor_stored lawful valid stored call.now⟩⟩

theorem login_showsRow (lawful : svc.jwt.Lawful svc.jwtConfig.secretKey) (post : call.route = .postUsersLogin)
    (follows : Follows (Sql.exec svc.loc) i (serve svc call) own (.pure response)) (success : response.success) :
    ShowsRow svc call own response := by
  have entered : serve svc call = Handlers.UsersLogin.Post.handleRequestJsonThrow svc call.now call.request := by
    unfold serve handler
    rw [post]
    rfl
  rw [entered] at follows
  obtain ⟨login, _, handled⟩ := Handlers.validated_answered follows success
  obtain ⟨m, s, rows, s', others, answer, rfl, found⟩ := Handlers.execute_answered handled
  obtain ⟨rfl, rfl⟩ := Sql.exec_reading rfl answer
  split at found
  · cases (Follows.of_throw found).2
  · obtain ⟨user, single, checked⟩ := Handlers.lift_answered found
    have stored : user ∈ s'.users := by
      have member : user ∈ getUserByEmail s'.toTables login.email := by
        rw [asSingleRow_ok.mp single]
        exact List.mem_singleton_self user
      exact (List.mem_filter.mp member).1
    split at checked
    · cases (Follows.of_throw checked).2
    · have answered : Follows (Sql.exec svc.loc) i (.pure (userResponse
          (generateToken svc.jwt svc.jwtConfig call.now user.userId) user)) others (.pure response) := checked
      obtain ⟨rfl, same⟩ := Follows.of_pure answered
      cases same
      exact ⟨_, _, _, rfl, stored, rfl, .inr rfl, fun valid => ⟨_, tokenFor_stored lawful valid stored call.now⟩⟩

/-- The handler answers with the one row that was updated. -/
theorem updateStatement_showsRow {data : UserAuthData} {username email hash bio image : Option String}
    (put : call.route = .putUser) (names : TokenFor svc data.token.token data.id data.token)
    (follows : Follows (Sql.exec svc.loc) i (do
      let res ← execute (.updateUserById data.id username email hash bio image)
      if res.isEmpty then Handlers.notFound
      else
        let row ← lift (asSingleRow res)
        Handlers.currentUserResponse data row) own (.pure response)) (success : response.success) :
    ShowsRow svc call own response := by
  obtain ⟨m, s, rows, s', others, answer, rfl, found⟩ := Handlers.execute_answered follows
  split at found
  · cases (Follows.of_pure found).2
    cases success
  · obtain ⟨row, single, shown⟩ := Handlers.lift_answered found
    obtain rfl := asSingleRow_ok.mp single
    cases Sql.exec_effect (by trivial) answer with
    | updateUserById done =>
      obtain ⟨_, updated, rfl⟩ := updateUserById_ok.mp done
      obtain ⟨u, hit, rfl⟩ := List.mem_map.mp (updated ▸ List.mem_singleton_self row)
      obtain ⟨member, own⟩ := List.mem_filter.mp hit
      have same : u.userId = data.id := of_decide_eq_true own
      rw [currentUserResponse_eq] at shown
      obtain ⟨rfl, answered⟩ := Follows.of_pure shown
      cases answered
      refine ⟨_, _, _, rfl, List.mem_map.mpr ⟨u, member, if_pos same⟩, rfl, .inl put, fun _ => ?_⟩
      rw [← same] at names
      exact ⟨_, names⟩

theorem update_showsRow (lawful : svc.jwt.Lawful svc.jwtConfig.secretKey) (put : call.route = .putUser)
    (follows : Follows (Sql.exec svc.loc) i (serve svc call) own (.pure response)) (success : response.success) :
    ShowsRow svc call own response := by
  rcases serve_cases svc call with ⟨reason, same⟩ | ⟨e, same⟩ | ⟨unguarded, _⟩ | ⟨data, token, same⟩
  · rw [same] at follows
    cases (Follows.of_pure follows).2
    cases success
  · rw [same] at follows
    cases (Follows.of_throw follows).2
  · exact absurd (put ▸ rfl) unguarded
  · rw [same, handler, put] at follows
    obtain ⟨update, _, handled⟩ := Handlers.validated_answered follows success
    obtain ⟨user, entered, hashed⟩ := Handlers.lift_answered handled
    cases entered
    have names := tokenFor_caller lawful token
    cases given : update.password with
    | none =>
      rw [given] at hashed
      exact updateStatement_showsRow put names hashed success
    | some password =>
      rw [given] at hashed
      obtain ⟨hash, _, statement⟩ := Handlers.lift_answered hashed
      exact updateStatement_showsRow put names statement success

/-! ### The current user -/

/-- The read of a request for the current user, which no error can end, and what it is answered if the row
`u` is there. -/
theorem currentUser_answered {data : UserAuthData} (get : call.route = .getUser) (caller : call.caller svc = some data)
    {p : Program Response} (follows : Follows (Sql.exec svc.loc) i (serve svc call) own p)
    (ended : (∃ answer, p = .pure answer) ∨ ∃ e, p = .throw e) :
    ∃ f, own = [f] ∧ ∀ u ∈ f.before.users, Valid svc.loc f.before → u.userId = data.id →
      p = .pure (userResponse data.token.token u) := by
  have served : serve svc call = (do
      let res ← execute (.getUserById data.id)
      if res.isEmpty then Handlers.notFound
      else
        let row ← lift (asSingleRow res)
        Handlers.currentUserResponse data row) := by
    rw [serve_caller caller (by rw [get]; rfl), handler, get]
    rfl
  rw [served] at follows
  rcases follows_execute follows with ⟨_, rfl⟩ | ⟨m, s, rows, s', rest, answer, rfl, found⟩ | ⟨m, s, e, s', failed, _, _⟩
  · rcases ended with ⟨_, same⟩ | ⟨_, same⟩ <;> cases same
  · obtain ⟨rfl, rfl⟩ := Sql.exec_reading rfl answer
    have one : ∀ u ∈ s'.users, Valid svc.loc s' → u.userId = data.id → getUserById s'.toTables data.id = [u] := by
      intro u member valid same
      rw [getUserById, ← same]
      exact filter_key valid.pk_users member
    generalize getUserById s'.toTables data.id = rows at found one
    rcases rows with _ | ⟨row, _ | ⟨other, rows⟩⟩
    · obtain ⟨rfl, _⟩ := Follows.of_pure found
      refine ⟨_, rfl, fun u member valid same => ?_⟩
      cases one u member valid same
    · have shown : Follows (Sql.exec svc.loc) i (.pure (userResponse data.token.token row)) rest p := found
      obtain ⟨rfl, same⟩ := Follows.of_pure shown
      refine ⟨_, rfl, fun u member valid own => ?_⟩
      cases one u member valid own
      exact same
    · obtain ⟨rfl, _⟩ := Follows.of_throw found
      refine ⟨_, rfl, fun u member valid same => ?_⟩
      cases one u member valid same
  · cases failed

end

theorem serve_showsRow {svc : Service} (lawful : svc.jwt.Lawful svc.jwtConfig.secretKey) {call : Call} {i : Nat}
    {own : List (Event Sql Sql.Res Store)} {response : Response}
    (route : call.route = .postUsers ∨ call.route = .postUsersLogin ∨ call.route = .putUser)
    (follows : Follows (Sql.exec svc.loc) i (serve svc call) own (.pure response)) (success : response.success) :
    ShowsRow svc call own response := by
  rcases route with post | login | put
  · exact registration_showsRow lawful post follows success
  · exact login_showsRow lawful login follows success
  · exact update_showsRow lawful put follows success

/-- In every run, the answer of a registration, login or profile update that succeeds is what a later request
for the current user with the token of the answer is answered, unless the token is out of its times or the user was
updated between the two. The times of a token of `GenerateToken`, as every registration and login answers with one,
are those up to its expiry. -/
theorem user_object_agrees {svc : Service} (lawful : svc.jwt.Lawful svc.jwtConfig.secretKey) {c c₁ : Configuration}
    (reachable : ReachableConfig svc c) {call : Call}
    (route : call.route = .postUsers ∨ call.route = .postUsersLogin ∨ call.route = .putUser)
    {es₁ : List (Event Sql Sql.Res Store)}
    (handled : Interleaving svc ⟨c.store, c.active ++ [serve svc call]⟩ es₁ c₁) {response : Response}
    (answered : c₁.outcome c.active.length = some (.ok response)) (success : response.success) :
    ∃ token userId decoded, response.token = some token ∧ TokenFor svc token userId decoded ∧
      (call.route = .putUser ∨ token = generateToken svc.jwt svc.jwtConfig call.now userId) ∧
      (∀ issued id, IsInt64 id → token = generateToken svc.jwt svc.jwtConfig issued id →
        ∀ now, decoded.inTime now = true ↔ now ≤ expirySecond svc.jwtConfig issued * nanosPerSecond) ∧
      ∀ request : Call, request.route = .getUser → Carries request.request.authorization token →
        decoded.inTime request.now = true →
        ∀ es₂ c₂, Interleaving svc ⟨c₁.store, c₁.active ++ [serve svc request]⟩ es₂ c₂ →
          ∀ r, c₂.outcome c₁.active.length = some r →
            (∀ e ∈ eventsSince c.active.length es₁ ++ eventsUntil c₁.active.length es₂, ¬ UpdatesUser userId e) →
            r = .ok response := by
  obtain ⟨_, there, follows⟩ := handled.follows (List.getElem?_concat_length : (c.active ++ [serve svc call])[_]? = _)
  cases there.symm.trans (Config.outcome_ok.mp answered)
  obtain ⟨e, u, token, own, stored, rfl, origin, generated⟩ := serve_showsRow lawful route follows success
  have arrived : Interleaving svc c es₁ c₁ := .arrive _ ⟨call, rfl⟩ handled
  have member : e ∈ es₁ := (List.mem_filter.mp (own ▸ List.mem_singleton_self e)).1
  obtain ⟨decoded, names⟩ := generated ((reachable.valid arrived).2.2 e member).2
  refine ⟨token, u.userId, decoded, Response.token_user, names, origin, ?_, ?_⟩
  · rintro issued id range rfl
    exact (names.generated lawful range).2
  intro request get carried inTime es₂ c₂ run r ended still
  obtain ⟨data, caller, id, text⟩ := names.caller carried inTime
  obtain ⟨p, here, reads⟩ := run.follows (List.getElem?_concat_length : (c₁.active ++ [serve svc request])[_]? = _)
  obtain ⟨f, read, shows⟩ := currentUser_answered get caller reads (Config.ended_of_outcome ended here)
  have whole : Interleaving svc c (es₁ ++ es₂) c₂ := arrived.append (.arrive _ ⟨request, rfl⟩ run)
  have present : u ∈ f.before.users := by
    by_contra lost
    let held : Store → Prop := fun s => u ∈ s.users
    have start : held e.after := stored
    have last : es₁.filter (fun e => e.client = c.active.length) = [] ++ [e] := own
    obtain ⟨d, between, executed, held, gone⟩ := whole.ended_since last read start lost
    exact still d between (updatesUser_of_lost (whole.executed d executed) held gone)
  have issued : f ∈ es₁ ++ es₂ :=
    List.mem_append_right _ (List.mem_filter.mp (read ▸ List.mem_singleton_self f)).1
  have shown := shows u present ((reachable.valid whole).2.2 f issued).1 id.symm
  rw [text] at shown
  subst shown
  exact Option.some.inj (ended.symm.trans (Config.outcome_ok.mpr here))

/-- Anna registers and asks for the current user. -/
theorem user_object_agrees_sample :
    ∃ es c r, Interleaving sampleSigned
        ⟨sampleSignedUp.store, sampleSignedUp.active ++ [serve sampleSigned sampleCurrent]⟩ es c ∧
      sampleSignedUp.outcome 0 = some r ∧ c.outcome sampleSignedUp.active.length = some r := by
  let signUp := Config.perform (Sql.exec sampleSigned.loc) (serve sampleSigned)
    ⟨Store.empty, [serve sampleSigned (sampleRegister "anna")]⟩ [sampleStep 0]
  let current := Config.perform (Sql.exec sampleSigned.loc) (serve sampleSigned)
    ⟨sampleSignedUp.store, sampleSignedUp.active ++ [serve sampleSigned sampleCurrent]⟩ [sampleStep 1]
  have handled : Interleaving sampleSigned ⟨Store.empty, [] ++ [serve sampleSigned (sampleRegister "anna")]⟩ signUp.1
      sampleSignedUp := Config.perform_trace _ _ (fun call => ⟨call, rfl⟩) [sampleStep 0] _
  have run : Interleaving sampleSigned
      ⟨sampleSignedUp.store, sampleSignedUp.active ++ [serve sampleSigned sampleCurrent]⟩ current.1 current.2 :=
    Config.perform_trace _ _ (fun call => ⟨call, rfl⟩) [sampleStep 1] _
  obtain ⟨response, answered, issued⟩ := sampleSignedUp_answered
  have success : response.success := by
    have status : (sampleSignedUp.outcome 0).map (fun r => (Response.ofExcept r).status) = some 200 := by decide +kernel
    rw [answered] at status
    exact Option.some.inj status
  have reachable : ReachableConfig sampleSigned ⟨Store.empty, []⟩ := ⟨[], .refl _⟩
  obtain ⟨token, userId, decoded, shown, names, _, times, agrees⟩ :=
    @user_object_agrees sampleSigned sampleSigned_lawful _ _ reachable _ (.inl rfl) _ handled _ answered success
  obtain rfl := Option.some.inj (shown.symm.trans issued.token)
  obtain ⟨rfl, _⟩ := @TokenFor.generated sampleSigned sampleSigned_lawful 0 1 _ _ (by decide) names
  have inTime : decoded.inTime 0 = true := (times 0 1 (by decide) rfl 0).mpr (by decide)
  have ended : (current.2.outcome sampleSignedUp.active.length).isSome := by decide +kernel
  obtain ⟨r, reads⟩ := Option.isSome_iff_exists.mp ended
  have quiet : eventsSince (⟨Store.empty, []⟩ : Configuration).active.length signUp.1 ++
      eventsUntil sampleSignedUp.active.length current.1 = [] := by
    rw [← List.length_eq_zero_iff]
    decide +kernel
  have carried : Carries sampleCurrent.request.authorization (generateToken sampleSigned.jwt sampleSigned.jwtConfig 0 1) := .inl rfl
  have still : ∀ e ∈ eventsSince (⟨Store.empty, []⟩ : Configuration).active.length signUp.1 ++
      eventsUntil sampleSignedUp.active.length current.1, ¬ UpdatesUser 1 e :=
    fun e member => absurd (quiet ▸ member) List.not_mem_nil
  have same := agrees sampleCurrent rfl carried inTime _ _ run r reads still
  rw [same] at reads
  exact ⟨current.1, current.2, .ok response, run, answered, reads⟩

end RealWorld
