import RealWorld.Handlers.Writes
import RealWorld.Properties.Gate
import RealWorld.Schema.UserKeys
import RealWorld.Transactional.Rely

/-!
# Issued identities stay valid

A token of a registration or a login names a stored user, and no request of any client ends that. Who
calls with such a token is found and may be referred to.
-/

namespace RealWorld
open Schema Transactional

/-- What any statement may have made of a store. -/
structure Schema.Store.Later (loc : DbLocale) (s s' : Store) : Prop where
  valid : Valid loc s → Valid loc s'
  users : ∀ id, s.hasUser id → s'.hasUser id

theorem later_guaranteed (loc : DbLocale) : Guaranteed (Sql.exec loc) (Store.Later loc) where
  refl _ := ⟨id, fun _ => id⟩
  trans first second := ⟨second.valid ∘ first.valid, fun id => second.users id ∘ first.users id⟩
  step q _ _ := ⟨fun valid => valid.exec q, fun _ => q.exec_hasUser⟩

/-- The answer is no refusal for a missing user. -/
def Schema.Sql.Accepted (q : Sql) (r : q.Res) : Prop := ∀ e, r = .error e → ¬ Dangling e

theorem Schema.Sql.exec_accepted {q : Sql} {loc : DbLocale} {m : Moment} {s : Store}
    (known : ∀ id ∈ q.userIds, s.hasUser id) : q.Accepted (q.exec loc m s).1 :=
  fun e failed => Sql.exec_attached known m e (q.exec loc m s).2 (Prod.ext failed rfl)

/-- From `s` on, and whatever other requests do, no statement of `p` is refused for a missing user and
its outcome satisfies `post`. -/
abbrev Stands {α : Type} (svc : Service) (post : Except Exn α → Store → Prop) (p : Program α) (s : Store) : Prop :=
  p.Among (Sql.exec svc.loc) (Store.Later svc.loc) Sql.Accepted post s

section
variable {svc : Service} {α β : Type} {s : Store}

theorem Stands.execute {q : Sql} {f : List q.Row → Program α} {post : Except Exn α → Store → Prop}
    (known : ∀ id ∈ q.userIds, s.hasUser id) (failed : ∀ e s', post (.error e) s')
    (done : ∀ s₁ m rows s₂, s.Later svc.loc s₁ → q.exec svc.loc m s₁ = (.ok rows, s₂) → Stands svc post (f rows) s₂) :
    Stands svc post (execute q >>= f) s := by
  intro m s₁ moved
  refine ⟨Sql.exec_accepted fun id member => moved.users id (known id member), ?_⟩
  cases answer : (q.exec svc.loc m s₁).1 with
  | ok rows => exact done s₁ m rows _ moved (Prod.ext answer rfl)
  | error e => exact failed (.db e) _

theorem Stands.lift {x : Except Exn β} {f : β → Program α} {post : Except Exn α → Store → Prop}
    (failed : ∀ e s', post (.error e) s') (done : ∀ b, x = .ok b → Stands svc post (f b) s) :
    Stands svc post (RealWorld.lift x >>= f) s := by
  cases x with
  | ok b => exact done b rfl
  | error e => exact failed e s

variable {post : Except Exn Response → Store → Prop}

theorem Stands.validated {parsed : Except Exn α} {handle : α → Program Response}
    (turned : ∀ field msg s', post (.ok ⟨422, makeError field msg⟩) s') (failed : ∀ e s', post (.error e) s')
    (done : ∀ a, Stands svc post (handle a) s) : Stands svc post (Handlers.validated parsed handle) s := by
  unfold Handlers.validated
  split
  · exact done _
  · exact turned _ _ s
  · exact failed _ s

theorem Stands.tried {fields : List (String × String)} {body : Program (Response ⊕ α)} {rest : α → Program Response}
    (turned : ∀ field msg s', post (.ok ⟨422, makeError field msg⟩) s') (failed : ∀ e s', post (.error e) s')
    (h : Stands svc (fun (r : Except Exn (Response ⊕ α)) s' => match r with
      | .ok (.inr a) => Stands svc post (rest a) s'
      | .ok (.inl response) => post (.ok response) s'
      | .error _ => True) body s) :
    Stands svc post (do
      let a ← Handlers.alreadyTaken fields body
      Handlers.afterTry a rest) s := by
  apply Prog.Among.bind
  apply Prog.Among.tryCatch
  refine Prog.Among.mono h fun r s' tried => ?_
  match r with
  | .ok (.inr a) => exact tried
  | .ok (.inl response) => exact tried
  | .error e =>
    dsimp only
    split
    · split
      · exact turned _ _ s'
      · exact failed _ s'
    · exact failed _ s'

end

/-! ### Tokens that are issued -/

/-- The token in the user object of an answer. -/
def Response.token (response : Response) : Option String :=
  (do (← (← Value.member (some response.body) "user").member "token").asString : Except Exn String).toOption

theorem Response.token_user {status : Nat} {user : Dto.User} :
    Response.token ⟨status, .obj [("user", serializeUser user)]⟩ = some user.token := rfl

/-- `call` registered or logged in a user, and the answer carries the token generated for `id`. -/
structure Issued (svc : Service) (call : Call) (response : Response) (id : Int) : Prop where
  route : call.route = .postUsers ∨ call.route = .postUsersLogin
  range : IsInt64 id
  token : response.token = some (generateToken svc.jwt svc.jwtConfig call.now id)

/-- A successful answer puts an id in a token, and whatever id is put there is that of a stored user. -/
structure Identifies (svc : Service) (call : Call) (r : Except Exn Response) (s : Store) : Prop where
  issues : (Response.ofExcept r).success → ∃ id, Issued svc call (Response.ofExcept r) id
  stored : ∀ id, Issued svc call (Response.ofExcept r) id → s.hasUser id

section
variable {svc : Service} {call : Call} {s : Store}

theorem Issued.no_token {response : Response} (none : response.token = none) {id : Int} :
    ¬ Issued svc call response id := fun issued => nomatch none.symm.trans issued.token

theorem Identifies.error (e : Exn) (s : Store) : Identifies svc call (.error e) s where
  issues success := absurd success (Response.not_success_error e)
  stored id issued := by
    have none : (Response.ofExcept (.error e)).token = none := by cases e <;> rfl
    exact absurd issued (Issued.no_token none)

theorem Identifies.turned (field msg : String) (s : Store) :
    Identifies svc call (.ok ⟨422, makeError field msg⟩) s where
  issues := nofun
  stored _ issued := absurd issued (Issued.no_token rfl)

theorem hasUser_range {loc : DbLocale} (valid : Valid loc s) {id : Int} (h : s.hasUser id) : 0 < id ∧ id ≤ maxInt := by
  obtain ⟨u, member, rfl⟩ := h
  have bounds := valid.serial_users u member
  have ended := valid.ended .users
  exact ⟨bounds.1, bounds.2.trans ended⟩

theorem Identifies.user (lawful : svc.jwt.Lawful svc.jwtConfig.secretKey)
    (route : call.route = .postUsers ∨ call.route = .postUsersLogin) (valid : Valid svc.loc s) {user : Dto.User}
    {userId : Int} (stored : s.hasUser userId)
    (token : user.token = generateToken svc.jwt svc.jwtConfig call.now userId) :
    Identifies svc call (.ok ⟨200, .obj [("user", serializeUser user)]⟩) s := by
  have bounds := hasUser_range valid stored
  have range : IsInt64 userId := by
    unfold IsInt64
    unfold maxInt at bounds
    omega
  refine ⟨fun _ => ⟨userId, route, range, congrArg some token⟩, fun id issued => ?_⟩
  have same : generateToken svc.jwt svc.jwtConfig call.now userId = generateToken svc.jwt svc.jwtConfig call.now id :=
    token.symm.trans (Option.some.inj issued.token)
  rwa [← generateToken_inj lawful range issued.range same]

theorem Handlers.Users.Post.identifies (lawful : svc.jwt.Lawful svc.jwtConfig.secretKey)
    (route : call.route = .postUsers) (valid : Valid svc.loc s) :
    Stands svc (Identifies svc call) (Users.Post.handleRequestJsonThrow svc call.now call.urandom call.request) s := by
  refine .validated Identifies.turned Identifies.error fun registration => .tried Identifies.turned Identifies.error ?_
  refine .lift (fun _ _ => trivial) fun hash _ => .execute nofun (fun _ _ => trivial) fun s₁ m rows s₂ moved answer => ?_
  refine .lift (fun _ _ => trivial) fun userId single => ?_
  obtain rfl := asSingleRow_ok.mp single
  cases Sql.exec_effect (by trivial) answer with
  | addNewUser done =>
    obtain ⟨x, rfl, _, _, users, _⟩ := addNewUser_store done
    have stored : s₂.hasUser x.userId := ⟨x, users ▸ List.mem_append_right _ (List.mem_singleton_self x), rfl⟩
    have kept := (moved.valid valid).exec (m := m) (.addNewUser registration.username registration.email hash)
    rw [answer] at kept
    exact Identifies.user lawful (.inl route) kept stored rfl

theorem Handlers.UsersLogin.Post.identifies (lawful : svc.jwt.Lawful svc.jwtConfig.secretKey)
    (route : call.route = .postUsersLogin) (valid : Valid svc.loc s) :
    Stands svc (Identifies svc call) (UsersLogin.Post.handleRequestJsonThrow svc call.now call.request) s := by
  refine .validated Identifies.turned Identifies.error fun login => ?_
  refine .execute nofun Identifies.error fun s₁ m rows s₂ moved answer => ?_
  obtain ⟨found, rfl⟩ := Sql.exec_reading rfl answer
  split
  · exact Identifies.error _ s₂
  · refine .lift Identifies.error fun user single => ?_
    have member : user ∈ getUserByEmail s₂.toTables login.email := by
      rw [← found, asSingleRow_ok.mp single]
      exact List.mem_singleton_self user
    have stored : s₂.hasUser user.userId := ⟨user, (List.mem_filter.mp member).1, rfl⟩
    split
    · exact Identifies.error _ s₂
    · exact Identifies.user lawful (.inr route) (moved.valid valid) stored rfl

theorem serve_identifies (lawful : svc.jwt.Lawful svc.jwtConfig.secretKey) (valid : Valid svc.loc s)
    (route : call.route = .postUsers ∨ call.route = .postUsersLogin) : Stands svc (Identifies svc call) (serve svc call) s := by
  unfold serve handler
  rcases route with same | same
  · rw [same]
    exact Handlers.Users.Post.identifies lawful same valid
  · rw [same]
    exact Handlers.UsersLogin.Post.identifies lawful same valid

end

/-! ### Requests of users who are stored -/

/-- The routes that answer with the user who calls. -/
def Route.current (route : Route) : Prop := route = .getUser ∨ route = .putUser

/-- The caller is found where the answer is about the caller. -/
def Found (call : Call) (r : Except Exn Response) (_ : Store) : Prop :=
  call.route.current → (Response.ofExcept r).status ≠ 404

section
variable {svc : Service} {call : Call} {s : Store} {data : UserAuthData}

theorem Found.error (e : Exn) (s : Store) : Found call (.error e) s := by
  intro _
  cases e <;> nofun

theorem Schema.Sql.IssuedBy.userIds {route : Route} {auth : Option UserAuthData} {q : Sql} (issued : q.IssuedBy route auth)
    (other : route ≠ .postProfiles) : ∀ id ∈ q.userIds, auth.map (·.id) = some id := by
  intro id member
  cases q with
  | follow => exact absurd (Option.some.inj issued.issuer).symm other
  | addNewArticle | addNewComment | favoriteArticle =>
    obtain rfl := List.mem_singleton.mp member
    exact (issued.actor.resolve_left nofun).symm
  | _ => cases member

theorem Schema.Sql.userIds_writes {q : Sql} {id : Int} (member : id ∈ q.userIds) : q.writes := by
  cases q <;> trivial

/-- A handler that follows nobody stores the id of the caller only. -/
theorem handler_stands {auth : Option UserAuthData} (other : call.route ≠ .postProfiles)
    (known : ∀ data, auth = some data → s.hasUser data.id) :
    Stands svc (fun _ _ => True) (handler svc call auth) s := by
  refine Prog.Among.of_all (later_guaranteed svc.loc) (fun s => ∀ data, auth = some data → s.hasUser data.id)
    (fun _ _ moved known data same => moved.users _ (known data same)) ?_ (handler_writes svc call auth).all known
  intro q m s issued known
  refine Sql.exec_accepted fun id member => ?_
  have mine := (issued (Sql.userIds_writes member)).userIds other id member
  obtain ⟨data, same, rfl⟩ := Option.map_eq_some_iff.mp mine
  exact known data same

theorem Handlers.User.Get.found (known : s.hasUser data.id) :
    Stands svc (Found call) (User.Get.handleRequestJsonThrow (some data)) s := by
  refine .execute nofun Found.error fun s₁ m rows s₂ moved answer => ?_
  obtain ⟨found, rfl⟩ := Sql.exec_reading rfl answer
  obtain ⟨u, member, same⟩ := moved.users _ known
  have present : u ∈ rows := found ▸ List.mem_filter.mpr ⟨member, decide_eq_true same⟩
  have nonempty : rows.isEmpty = false := List.isEmpty_eq_false_iff.mpr (List.ne_nil_of_mem present)
  rw [nonempty]
  exact .lift Found.error fun row _ => fun _ => nofun

theorem Handlers.User.Put.found {urandom : Option (List UInt8)} {request : HttpRequest} (known : s.hasUser data.id) :
    Stands svc (Found call) (User.Put.handleRequestJsonThrow svc urandom request (some data)) s := by
  refine .validated (fun _ _ _ _ => nofun) Found.error fun update => ?_
  have statement : ∀ hash, Stands svc (Found call) (do
      let res ← execute (.updateUserById data.id update.username update.email hash update.bio update.image)
      if res.isEmpty then notFound
      else
        let row ← lift (asSingleRow res)
        currentUserResponse data row : Program Response) s := by
    refine fun hash => .execute nofun Found.error fun s₁ m rows s₂ moved answer => ?_
    cases Sql.exec_effect (by trivial) answer with
    | updateUserById done =>
      obtain ⟨_, rfl, _⟩ := updateUserById_ok.mp done
      obtain ⟨u, member, same⟩ := moved.users _ known
      have hit : u ∈ s₁.users.filter fun u => u.userId = data.id := List.mem_filter.mpr ⟨member, decide_eq_true same⟩
      have present := List.mem_map_of_mem (f := User.update update.username update.email hash update.bio update.image) hit
      rw [List.isEmpty_eq_false_iff.mpr (List.ne_nil_of_mem present)]
      exact .lift Found.error fun row _ => fun _ => nofun
  refine .lift Found.error fun user same => ?_
  obtain rfl := Except.ok.inj same
  cases update.password with
  | none => exact statement none
  | some password => exact .lift Found.error fun hash _ => statement hash

/-- The followed user was read before, and has stayed since. -/
theorem Handlers.Profiles.Post.stands {request : HttpRequest} (known : s.hasUser data.id) :
    Stands svc (fun _ _ => True) (Profiles.Post.handleRequestJsonThrow request (some data)) s := by
  refine .execute nofun (fun _ _ => trivial) fun s₁ m rows s₂ moved answer => ?_
  obtain ⟨found, rfl⟩ := Sql.exec_reading rfl answer
  split
  · trivial
  · refine .lift (fun _ _ => trivial) fun user single => .lift (fun _ _ => trivial) fun caller same => ?_
    obtain rfl := Except.ok.inj same
    have member : user ∈ getUserByUsername svc.loc s₂.toTables (request.getPathArg "username") := by
      rw [← found, asSingleRow_ok.mp single]
      exact List.mem_singleton_self user
    refine .execute (fun id listed => ?_) (fun _ _ => trivial) fun _ _ _ _ _ _ => trivial
    rcases List.mem_cons.mp listed with rfl | second
    · exact moved.users _ known
    · obtain rfl := List.mem_singleton.mp second
      exact ⟨user, (List.mem_filter.mp member).1, rfl⟩

/-- A request without a token, or with that of a stored user, refers to stored users only and finds its
caller. -/
theorem serve_stands (known : ∀ data, call.caller svc = some data → s.hasUser data.id) :
    Stands svc (Found call) (serve svc call) s := by
  have elsewhere : ∀ p, ¬ call.route.current → Stands svc (fun _ _ => True) p s → Stands svc (Found call) p s :=
    fun p other stands => Prog.Among.mono stands fun _ _ _ current => absurd current other
  rcases serve_cases svc call with ⟨reason, same⟩ | ⟨e, same⟩ | ⟨unguarded, same⟩ | ⟨data, token, same⟩
  · rw [same]
    exact fun _ => nofun
  · rw [same]
    exact Found.error e s
  · rw [same]
    refine elsewhere _ ?_ (handler_stands ?_ nofun)
    · rintro (route | route) <;> exact unguarded (route ▸ rfl)
    · exact fun route => unguarded (route ▸ rfl)
  · rw [same]
    have stored := known data token
    by_cases get : call.route = .getUser
    · unfold handler
      rw [get]
      exact Handlers.User.Get.found stored
    by_cases put : call.route = .putUser
    · unfold handler
      rw [put]
      exact Handlers.User.Put.found stored
    refine elsewhere _ (fun current => current.elim get put) ?_
    by_cases follow : call.route = .postProfiles
    · unfold handler
      rw [follow]
      exact Handlers.Profiles.Post.stands stored
    · refine handler_stands follow ?_
      rintro _ ⟨⟩
      exact stored

end

/-! ### Every interleaving -/

/-- Ids of stored users have 32 bits, so the check passes them on unchanged. -/
theorem caller_issued {svc : Service} (lawful : svc.jwt.Lawful svc.jwtConfig.secretKey) {s : Store}
    (valid : Valid svc.loc s) {id issued : Int} (stored : s.hasUser id) (range : IsInt64 id) {request : Call}
    (carried : Carries request.request.authorization (generateToken svc.jwt svc.jwtConfig issued id))
    (unexpired : request.now ≤ expirySecond svc.jwtConfig issued * nanosPerSecond) {data : UserAuthData}
    (caller : request.caller svc = some data) : data.id = id := by
  have passed : checkAuth svc.jwt svc.jwtConfig false request.now request.request.authorization = _ :=
    checkAuth_generated lawful range carried unexpired
  simp only [Call.caller, passed, Option.some.injEq] at caller
  rw [← caller]
  have bounds := hasUser_range valid stored
  unfold maxInt at bounds
  exact toInt32_of_range (by omega) (by omega)

/-- In every run: a registration or login that succeeds puts an id in a token, and an id put there is that
of a stored user from then on. A request that comes later, with this token before it expires or without
one that passes, is never refused for a missing user, and `GET` and `PUT /api/user` find their caller. -/
theorem issued_identities {svc : Service} (lawful : svc.jwt.Lawful svc.jwtConfig.secretKey) {c c₁ : Configuration}
    (reachable : ReachableConfig svc c) {call : Call} (route : call.route = .postUsers ∨ call.route = .postUsersLogin)
    {es₁ : List (Event Sql Sql.Res Store)}
    (handled : Interleaving svc ⟨c.store, c.active ++ [serve svc call]⟩ es₁ c₁) {response : Response}
    (answered : c₁.outcome c.active.length = some (.ok response)) :
    (response.success → ∃ id, Issued svc call response id) ∧
      ∀ id, Issued svc call response id → ∀ es₂ c₂, Interleaving svc c₁ es₂ c₂ →
        (∃ u ∈ c₂.store.users, u.userId = id) ∧
          ∀ request : Call,
            (Carries request.request.authorization (generateToken svc.jwt svc.jwtConfig call.now id) ∧
                request.now ≤ expirySecond svc.jwtConfig call.now * nanosPerSecond) ∨
              request.caller svc = none →
            ∀ es₃ c₃, Interleaving svc ⟨c₂.store, c₂.active ++ [serve svc request]⟩ es₃ c₃ →
              (∀ e ∈ es₃, e.client = c₂.active.length → ∀ constraint ∈ userKeys,
                  e.answer ≠ .error (.foreignKeyViolation constraint)) ∧
                (request.route = .getUser ∨ request.route = .putUser →
                  ∀ r, c₃.outcome c₂.active.length = some r → (Response.ofExcept r).status ≠ 404) := by
  have valid := (reachable.valid (.refl c)).1
  have here : (c.active ++ [serve svc call])[c.active.length]? = some (serve svc call) := List.getElem?_concat_length
  have guaranteed := later_guaranteed svc.loc
  obtain ⟨s, since, identifies⟩ := handled.outcome guaranteed here (serve_identifies lawful valid route) answered
  refine ⟨identifies.issues, fun id issued es₂ c₂ later => ?_⟩
  have stored : c₂.store.hasUser id :=
    (later.within guaranteed).users id (since.users id (identifies.stored id issued))
  have kept : Valid svc.loc c₂.store := (later.within guaranteed).valid ((handled.within guaranteed).valid valid)
  refine ⟨stored, fun request token es₃ c₃ run => ?_⟩
  have known : ∀ data, request.caller svc = some data → c₂.store.hasUser data.id := by
    intro data caller
    rcases token with ⟨carried, unexpired⟩ | none
    · rw [← caller_issued lawful kept stored issued.range carried unexpired caller] at stored
      exact stored
    · exact nomatch none.symm.trans caller
  have arrived : (c₂.active ++ [serve svc request])[c₂.active.length]? = some (serve svc request) :=
    List.getElem?_concat_length
  have stands : Stands svc (Found request) (serve svc request) c₂.store := serve_stands known
  obtain ⟨accepted, _⟩ := run.among guaranteed arrived (guaranteed.refl c₂.store) stands
  refine ⟨fun e member client constraint key failed => accepted e member client _ failed key, fun current r ended => ?_⟩
  obtain ⟨_, _, found⟩ := run.outcome guaranteed arrived stands ended
  exact found current

theorem sampleSigned_lawful : sampleSigned.jwt.Lawful sampleSigned.jwtConfig.secretKey :=
  JwtCpp.jwtCpp_lawful sampleDoubles sampleHmac "secret"

def sampleSignedUp : Configuration :=
  (Config.perform (Sql.exec sampleSigned.loc) (serve sampleSigned) ⟨Store.empty, [serve sampleSigned (sampleRegister "anna")]⟩
    [sampleStep 0]).2

/-- The current user, asked for with the token of the registration. -/
def sampleCurrent : Call :=
  { route := .getUser, request := { authorization := "Token " ++ generateToken sampleSigned.jwt sampleSigned.jwtConfig 0 1 } }

theorem sampleSignedUp_answered : ∃ response, sampleSignedUp.outcome 0 = some (.ok response) ∧
    Issued sampleSigned (sampleRegister "anna") response 1 := by
  have token : ((sampleSignedUp.outcome 0).map fun r => (Response.ofExcept r).token) =
      some (some (generateToken sampleSigned.jwt sampleSigned.jwtConfig 0 1)) := by decide +kernel
  obtain ⟨r, answered, carried⟩ := Option.map_eq_some_iff.mp token
  cases r with
  | error e => exact absurd carried (by cases e <;> nofun)
  | ok response => exact ⟨response, answered, .inl rfl, by decide, carried⟩

theorem issued_identities_sample :
    (∃ u ∈ sampleSignedUp.store.users, u.userId = 1) ∧
      ∀ es c, Interleaving sampleSigned ⟨sampleSignedUp.store, sampleSignedUp.active ++ [serve sampleSigned sampleCurrent]⟩ es c →
        ∀ r, c.outcome sampleSignedUp.active.length = some r → (Response.ofExcept r).status ≠ 404 := by
  obtain ⟨response, answered, issued⟩ := sampleSignedUp_answered
  have reachable : ReachableConfig sampleSigned ⟨Store.empty, []⟩ := ⟨[], .refl _⟩
  have handled : Interleaving sampleSigned ⟨Store.empty, [] ++ [serve sampleSigned (sampleRegister "anna")]⟩ _ sampleSignedUp :=
    Config.perform_trace _ _ (fun call => ⟨call, rfl⟩) [sampleStep 0] _
  obtain ⟨_, holds⟩ := @issued_identities sampleSigned sampleSigned_lawful _ _ reachable _ (.inl rfl) _ handled _ answered
  obtain ⟨stored, current⟩ := holds 1 issued [] sampleSignedUp (.refl _)
  have token : Carries sampleCurrent.request.authorization (generateToken sampleSigned.jwt sampleSigned.jwtConfig 0 1) := .inl rfl
  exact ⟨stored, fun es c run r => (current sampleCurrent (.inl ⟨token, by decide⟩) es c run).2 (.inl rfl) r⟩

end RealWorld
