import RealWorld.Common.KeyExpansion
import RealWorld.Handlers.UserReplies
import RealWorld.Properties.Failures

/-!
# Logging in

Registration and profile updates set the email and the password of a user. A login compares the
email as it is and the password through its hash, which holds less than the password.
-/

namespace RealWorld
open Schema Transactional

structure Credentials where
  email : String
  password : String
  deriving DecidableEq

/-! ### The credentials a run has set -/

/-- A successful registration: the id of the user it stored, and the credentials it gave. -/
def Answered.registered (svc : Service) (step : Answered) : Option (Int × Credentials) :=
  match step.call.route, step.call.registration svc with
  | .postUsers, .ok registration =>
    if step.response.success then
      (getUserByEmail step.after.toTables registration.email).head?.map fun user =>
        (user.userId, ⟨registration.email, registration.password⟩)
    else none
  | _, _ => none

/-- A successful profile update: the id of the token, and what is to be updated. -/
def Answered.updated (svc : Service) (step : Answered) : Option (Int × Dto.UpdateUserRequest) :=
  match step.call.route, step.call.caller svc, step.call.profileUpdate svc with
  | .putUser, some data, .ok update => if step.response.success then some (data.id, update) else none
  | _, _, _ => none

def Credentials.update (update : Dto.UpdateUserRequest) (c : Credentials) : Credentials :=
  { email := update.email.getD c.email, password := update.password.getD c.password }

def Answered.credentials (svc : Service) (u : Int) (known : Option Credentials) (step : Answered) :
    Option Credentials :=
  match step.registered svc, step.updated svc with
  | some (id, new), _ => if id = u then some new else known
  | none, some (id, update) => if id = u then known.map (Credentials.update update) else known
  | none, none => known

/-- The current email of user `u` and the password set most recently. -/
def credentials (svc : Service) (u : Int) (steps : List Answered) : Option Credentials :=
  steps.foldl (Answered.credentials svc u) none

/-! ### What is stored of them -/

def HashOf (svc : Service) (password hash : String) : Prop :=
  ∃ urandom, generateHash svc.eks urandom password = .ok hash

/-- The row of user `u` holds the email and a hash of the password. -/
def StoredFor (svc : Service) (u : Int) (c : Credentials) (users : List User) : Prop :=
  ∃ x ∈ users, x.userId = u ∧ x.email = c.email ∧ HashOf svc c.password x.passwordHash

section
variable {svc : Service} {call : Call} {s : Store} {ms : Nat → Moment}

/-- An update without a password leaves the hash alone. -/
def Rehashed (svc : Service) (password hash : Option String) : Prop :=
  match password with
  | none => hash = none
  | some password => ∃ new, hash = some new ∧ HashOf svc password new

theorem Rehashed.of_hashed {urandom : Option (List UInt8)} {password hash : Option String}
    (hashed : password.mapM (generateHash svc.eks urandom) = .ok hash) : Rehashed svc password hash := by
  cases password with
  | none =>
    cases hashed
    rfl
  | some password =>
    obtain ⟨new, generated, hashed⟩ := checked_bind.mp hashed
    cases hashed
    exact ⟨new, rfl, urandom, generated⟩

/-- From `s` to `s'` the row of user `u` was updated as the request says. -/
def ProfileUpdated (svc : Service) (call : Call) (u : Int) (s s' : Store) : Prop :=
  ∃ update hash m rows, call.profileUpdate svc = .ok update ∧ Rehashed svc update.password hash ∧
    rows ≠ [] ∧
    Effect svc.loc m s (.updateUserById u update.username update.email hash update.bio update.image) rows s'

theorem update_succeeded {data : UserAuthData} (route : call.route = .putUser)
    (token : call.caller svc = some data) (success : (respond svc call ms s).1.success) :
    ProfileUpdated svc call data.id s (respond svc call ms s).2 := by
  obtain ⟨update, hash, own, request⟩ := ProfileRequest.of_success route success
  obtain rfl := Option.some.inj (request.caller.symm.trans token)
  obtain ⟨row, executed⟩ := request.executed success
  exact ⟨update, hash, ms 0, [row], request.parsed, .of_hashed request.hashed, nofun,
    Sql.exec_effect (by trivial) executed⟩

theorem StoredFor.mono {u : Int} {c : Credentials} {users users' : List User}
    (stored : StoredFor svc u c users) (kept : ∀ x ∈ users, x.userId = u → x ∈ users') :
    StoredFor svc u c users' := by
  obtain ⟨x, member, id, facts⟩ := stored
  exact ⟨x, kept x member id, id, facts⟩

theorem registered_none (other : call.route ≠ .postUsers ∨ ¬ (respond svc call ms s).1.success) :
    (served svc s call ms).registered svc = none := by
  unfold Answered.registered served
  split
  · rename_i route _
    rw [if_neg (other.resolve_left fun no => no route)]
  · rfl

theorem updated_none (other : call.route ≠ .putUser ∨ ¬ (respond svc call ms s).1.success) :
    (served svc s call ms).updated svc = none := by
  unfold Answered.updated served
  split
  · rename_i route _ _
    rw [if_neg (other.resolve_left fun no => no route)]
  · rfl

/-- The row of the user holds the new credentials, and the rows of the others are not touched. -/
theorem registration_stored {u : Int} {known : Option Credentials} (route : call.route = .postUsers)
    (success : (respond svc call ms s).1.success) (stored : ∀ c ∈ known, StoredFor svc u c s.users) :
    ∀ c ∈ (served svc s call ms).credentials svc u known,
      StoredFor svc u c (respond svc call ms s).2.users := by
  obtain ⟨registration, hash, request⟩ := RegisterRequest.of_success route success
  obtain ⟨userId, done⟩ := request.succeeded success
  obtain ⟨x, id, email, rfl, users, found⟩ := addNewUser_store done
  have new : (served svc s call ms).registered svc =
      some (x.userId, ⟨registration.email, registration.password⟩) := by
    unfold Answered.registered served
    simp only [route, request.parsed, success, if_true, found, List.head?_cons, Option.map_some]
  intro c current
  rw [Answered.credentials, new] at current
  dsimp only at current
  rw [users]
  split at current
  · rename_i same
    obtain rfl := Option.some.inj current
    exact ⟨x, List.mem_append_right _ (List.mem_singleton_self x), same, email, call.urandom, request.hashed⟩
  · exact (stored c current).mono fun x member _ => List.mem_append_left _ member

theorem updated_row {x : User} {c : Credentials} {update : Dto.UpdateUserRequest} {hash : Option String}
    (rehashed : Rehashed svc update.password hash) (email : x.email = c.email)
    (hashed : HashOf svc c.password x.passwordHash) :
    let y := x.update update.username update.email hash update.bio update.image
    y.email = (c.update update).email ∧ HashOf svc (c.update update).password y.passwordHash := by
  refine ⟨congrArg (update.email.getD ·) email, ?_⟩
  unfold Rehashed at rehashed
  unfold Credentials.update User.update
  split at rehashed
  · rename_i unchanged
    rw [unchanged, rehashed]
    exact hashed
  · rename_i password changed
    obtain ⟨new, rfl, hashed⟩ := rehashed
    rw [changed]
    exact hashed

theorem update_stored {u : Int} {known : Option Credentials} (h : Valid svc.loc s)
    (route : call.route = .putUser) (success : (respond svc call ms s).1.success)
    (stored : ∀ c ∈ known, StoredFor svc u c s.users) :
    ∀ c ∈ (served svc s call ms).credentials svc u known,
      StoredFor svc u c (respond svc call ms s).2.users := by
  obtain ⟨data, token⟩ := success_caller (by rw [route]; rfl) success
  obtain ⟨update, hash, m, rows, parsed, rehashed, some, effect⟩ := update_succeeded route token success
  cases effect with
  | updateUserById done =>
    rcases updateUserById_cases h.toConstraints done with ⟨none, _⟩ | ⟨x, member, id, _, after⟩
    · exact absurd none some
    · have changed : (served svc s call ms).updated svc = Option.some (data.id, update) := by
        unfold Answered.updated served
        simp only [route, token, parsed, success, if_true]
      intro c current
      rw [Answered.credentials, registered_none (.inl (by rw [route]; nofun)), changed] at current
      dsimp only at current
      rw [after]
      split at current
      · rename_i own
        obtain ⟨old, before, rfl⟩ := Option.map_eq_some_iff.mp current
        obtain ⟨y, mem, same, email, hashed⟩ := stored old before
        obtain rfl := user_eq h.toConstraints mem member (same.trans (own.symm.trans id.symm))
        refine ⟨_, List.mem_map_of_mem mem, ?_⟩
        rw [if_pos id]
        exact ⟨same, updated_row rehashed email hashed⟩
      · rename_i other
        refine (stored c current).mono fun y mem same => List.mem_map.mpr ⟨y, mem, if_neg ?_⟩
        rintro own
        exact other (own.symm.trans same)

theorem step_stored {u : Int} {known : Option Credentials} (h : Valid svc.loc s)
    (stored : ∀ c ∈ known, StoredFor svc u c s.users) :
    ∀ c ∈ (served svc s call ms).credentials svc u known,
      StoredFor svc u c (respond svc call ms s).2.users := by
  by_cases success : (respond svc call ms s).1.success
  · by_cases registering : call.route = .postUsers
    · exact registration_stored registering success stored
    · by_cases updating : call.route = .putUser
      · exact update_stored h updating success stored
      · rw [Answered.credentials, registered_none (.inl registering), updated_none (.inl updating),
          (respond_kept svc call ms s).users registering updating]
        exact stored
  · rw [Answered.credentials, registered_none (.inr success), updated_none (.inr success),
      failed_unchanged h success]
    exact stored

theorem credentials_stored {steps : List Answered} (run : Run svc steps s) {u : Int} :
    ∀ c ∈ credentials svc u steps, StoredFor svc u c s.users := by
  induction run with
  | empty => nofun
  | serve earlier call ms ih =>
    rw [credentials, List.foldl_append]
    exact step_stored earlier.valid ih

/-! ### Logging in -/

def Call.login (svc : Service) (call : Call) : Except Exn Dto.LoginRequest := do
  Handlers.UsersLogin.Post.parseRequest svc.json (← Value.member (some call.request.body) "user")

/-- A login request that passes validation. -/
structure LoginRequest (svc : Service) (call : Call) (email password : String) : Prop where
  route : call.route = .postUsersLogin
  parsed : call.login svc = .ok { email := email, password := password }

/-- The answer to a login of `user`, with a token for that user. -/
def loginResponse (svc : Service) (now : Int) (user : User) : Response :=
  ⟨200, .obj [("user", serializeUser
    { email := user.email, token := generateToken svc.jwt svc.jwtConfig now user.userId,
      username := user.username, bio := user.bio, image := user.image })]⟩

def LoggedIn (svc : Service) (call : Call) (u : Int) (s : Store) (response : Response) : Prop :=
  ∃ user ∈ s.users, user.userId = u ∧ response = loginResponse svc call.now user

theorem loginResponse_email {now : Int} {x y : User}
    (same : loginResponse svc now x = loginResponse svc now y) : x.email = y.email := by
  simp only [loginResponse, serializeUser, Response.mk.injEq, Json.obj.injEq, List.cons.injEq,
    Prod.mk.injEq, Json.str.injEq, true_and] at same
  exact same.1.1

theorem LoginRequest.serve_eq {email password : String} (login : LoginRequest svc call email password) :
    serve svc call = (do
      let res ← execute (.getUserByEmail email)
      if res.isEmpty then .throw (.forbidden "email" "invalid")
      else
        let user ← lift (asSingleRow res)
        if !validatePassword svc.eks password user.passwordHash then
          .throw (.forbidden "password" "invalid")
        else .pure (loginResponse svc call.now user)) := by
  have entered : serve svc call =
      Handlers.UsersLogin.Post.handleRequestJsonThrow svc call.now call.request := by
    unfold serve handler
    rw [login.route]
    rfl
  have parsed : (do
      let data ← Value.member (some call.request.body) "user"
      Handlers.UsersLogin.Post.parseRequest svc.json data) = .ok { email := email, password := password } :=
    login.parsed
  rw [entered, Handlers.UsersLogin.Post.handleRequestJsonThrow, parsed]
  rfl

/-- The user with the email is logged in when the hash accepts the password. -/
theorem LoginRequest.answer {email password : String} (login : LoginRequest svc call email password)
    (h : Valid svc.loc s) (ms : Nat → Moment) {x : User} (member : x ∈ s.users)
    (same : x.email = email) : (respond svc call ms s).1 =
      if validatePassword svc.eks password x.passwordHash then loginResponse svc call.now x
      else ⟨403, makeError "password" "invalid"⟩ := by
  have found : getUserByEmail s.toTables email = [x] := by
    rw [getUserByEmail, ← same]
    exact Relational.filter_key h.uniq_email member
  have text : (Sql.getUserByEmail email).texts.all storable := by
    simpa [Sql.texts, ← same] using (h.text_users x member).2
  have answer : (Sql.getUserByEmail email).exec svc.loc (ms 0) s = (.ok [x], s) := by
    rw [Sql.exec_storable text, ← found]
    rfl
  unfold respond
  rw [login.serve_eq, run_execute_ok answer]
  cases accepted : validatePassword svc.eks password x.passwordHash with
  | true => simp [asSingleRow, accepted, Prog.run, Response.ofExcept]
  | false => simp [asSingleRow, accepted, Prog.run, Response.ofExcept]

theorem LoginRequest.unknown {email password : String} (login : LoginRequest svc call email password)
    (ms : Nat → Moment) (absent : ∀ x ∈ s.users, x.email ≠ email) : ¬ (respond svc call ms s).1.success := by
  intro success
  have refused : OnSuccess svc s (serve svc call) fun _ => False := by
    rw [login.serve_eq]
    refine .execute fun m rows s' answer => ?_
    obtain ⟨rfl, rfl⟩ := Sql.exec_reading rfl answer
    have none : getUserByEmail s'.toTables email = [] := Relational.filter_key_nil absent
    rw [none]
    exact .throw
  exact refused.respond success

/-- A login succeeds for the user exactly with the current email and a password that agrees with the
one set on the first 72 bytes of their C strings. -/
theorem loggedIn_iff (h : Valid svc.loc s) {u : Int} {c : Credentials} (stored : StoredFor svc u c s.users)
    {email password : String} (separates : svc.eks.Separates (cString password) (cString c.password))
    (login : LoginRequest svc call email password) (ms : Nat → Moment) :
    LoggedIn svc call u s (respond svc call ms s).1 ↔
      email = c.email ∧ (cString password).take 72 = (cString c.password).take 72 := by
  obtain ⟨x, member, rfl, current, urandom, hashed⟩ := stored
  have accepts := validatePassword_iff separates hashed
  rw [← current]
  constructor
  · rintro ⟨y, mem, same, response⟩
    obtain rfl := user_eq h.toConstraints mem member same
    by_cases known : ∃ z ∈ s.users, z.email = email
    · obtain ⟨z, there, named⟩ := known
      have answer := login.answer h ms there named
      rw [response] at answer
      split at answer
      · rename_i accepted
        have one := Relational.key_inj h.uniq_email member there (loginResponse_email answer)
        rw [← one] at accepted named
        exact ⟨named.symm, accepts.mp accepted⟩
      · cases answer
    · have unknown : ∀ z ∈ s.users, z.email ≠ email := by simpa using known
      refine absurd ?_ (login.unknown ms unknown)
      rw [response]
      rfl
  · rintro ⟨named, agrees⟩
    refine ⟨x, member, rfl, ?_⟩
    rw [login.answer h ms member named.symm, if_pos (accepts.mpr agrees)]

/-- In every run, a login is decided as the current credentials say, unless the password differs from
the one set but agrees with it on the first 72 bytes of their C strings. -/
theorem login_correct_iff {steps : List Answered} (run : Run svc steps s) {u : Int} {c : Credentials}
    (known : credentials svc u steps = some c) {email password : String}
    (separates : svc.eks.Separates (cString password) (cString c.password))
    (login : LoginRequest svc call email password) (ms : Nat → Moment) :
    (LoggedIn svc call u s (respond svc call ms s).1 ↔ email = c.email ∧ password = c.password) ↔
      ¬ (email = c.email ∧ password ≠ c.password ∧
        (cString password).take 72 = (cString c.password).take 72) := by
  have stored := credentials_stored run c known
  rw [loggedIn_iff run.valid stored separates login ms]
  constructor
  · rintro exact ⟨named, differs, agrees⟩
    exact differs (exact.mp ⟨named, agrees⟩).2
  · intro exact
    constructor
    · rintro ⟨named, agrees⟩
      exact ⟨named, by_contra fun differs => exact ⟨named, differs, agrees⟩⟩
    · rintro ⟨named, rfl⟩
      exact ⟨named, rfl⟩

end

/-! ### A sample service that tells passwords apart -/

def wordDigits (w : UInt32) : List (Fin 64) :=
  [0, 1, 2, 3, 4, 5].map fun i => Fin.ofNat 64 (w.toNat / 64 ^ i)

theorem div_pow_digit {b n n' : Nat} (k : Nat) (next : n / b ^ (k + 1) = n' / b ^ (k + 1))
    (digit : n / b ^ k % b = n' / b ^ k % b) : n / b ^ k = n' / b ^ k := by
  rw [Nat.pow_succ, ← Nat.div_div_eq_div_mul, ← Nat.div_div_eq_div_mul] at next
  rw [← Nat.div_add_mod (n / b ^ k) b, ← Nat.div_add_mod (n' / b ^ k) b, next, digit]

theorem wordDigits_inj {w w' : UInt32} (same : wordDigits w = wordDigits w') : w = w' := by
  simp only [wordDigits, List.map_cons, List.map_nil, List.cons.injEq, Fin.ext_iff, Fin.val_ofNat] at same
  obtain ⟨d₀, d₁, d₂, d₃, d₄, d₅, _⟩ := same
  have small : ∀ w : UInt32, w.toNat / 64 ^ 6 = 0 := fun w =>
    Nat.div_eq_of_lt (Nat.lt_of_lt_of_le w.toNat_lt (by decide))
  have top := (small w).trans (small w').symm
  have same := div_pow_digit 0 (div_pow_digit 1 (div_pow_digit 2 (div_pow_digit 3 (div_pow_digit 4
    (div_pow_digit 5 top d₅) d₄) d₃) d₂) d₁) d₀
  rw [Nat.pow_zero, Nat.div_one, Nat.div_one] at same
  exact UInt32.toNat_inj.mp same

theorem flatMap_wordDigits_inj {words words' : List UInt32}
    (same : words.flatMap wordDigits = words'.flatMap wordDigits) : words = words' := by
  induction words generalizing words' with
  | nil =>
    cases words' with
    | nil => rfl
    | cons w' words' => cases same
  | cons w words ih =>
    cases words' with
    | nil => cases same
    | cons w' words' =>
      obtain ⟨first, rest⟩ := List.append_inj same rfl
      rw [wordDigits_inj first, ih rest]

/-- `sample`, with the expanded key for a digest. -/
def sampleBcrypt : Service :=
  { sample with eks := { digest := fun _ _ key => key.expanded.flatMap wordDigits } }

theorem sampleBcrypt_separates (key key' : List UInt8) : sampleBcrypt.eks.Separates key key' :=
  fun _ _ _ => ⟨flatMap_wordDigits_inj, congrArg (List.flatMap wordDigits)⟩

/-- 73 bytes, of which the last is the given one. -/
def samplePassword (last : Char) : String := String.ofList (List.replicate 72 'a' ++ [last])

def sampleRegistration : Call :=
  { route := .postUsers
    request :=
      { body := .obj [("user", .obj [("username", .str "anna"), ("email", .str "anna@mail.io"),
          ("password", .str (samplePassword 'b'))])] }
    urandom := some (List.replicate 16 0) }

def sampleRegistered : Answered := served sampleBcrypt Store.empty sampleRegistration fun _ => sampleMoment

theorem sampleRegistered_run : Run sampleBcrypt [sampleRegistered] sampleRegistered.after :=
  Run.empty.served sampleRegistration fun _ => sampleMoment

theorem sampleRegistered_credentials :
    credentials sampleBcrypt 1 [sampleRegistered] = some ⟨"anna@mail.io", samplePassword 'b'⟩ := by
  decide +kernel

theorem sampleLogin_request : LoginRequest sampleBcrypt (sampleLogin (samplePassword 'c')) "anna@mail.io"
    (samplePassword 'c') := ⟨rfl, by decide⟩

theorem login_correct_sample :
    let s := sampleRegistered.after
    (LoggedIn sampleBcrypt (sampleLogin (samplePassword 'c')) 1 s
        (respond sampleBcrypt (sampleLogin (samplePassword 'c')) (fun _ => sampleMoment) s).1 ↔
      "anna@mail.io" = "anna@mail.io" ∧ samplePassword 'c' = samplePassword 'b') ↔
    ¬ ("anna@mail.io" = "anna@mail.io" ∧ samplePassword 'c' ≠ samplePassword 'b' ∧
      (cString (samplePassword 'c')).take 72 = (cString (samplePassword 'b')).take 72) :=
  login_correct_iff sampleRegistered_run sampleRegistered_credentials (sampleBcrypt_separates _ _)
    sampleLogin_request fun _ => sampleMoment

theorem login_with_other_password :
    ∃ steps s c password, sampleBcrypt.eks.Separates (cString password) (cString c.password) ∧ Run sampleBcrypt steps s ∧
      credentials sampleBcrypt 1 steps = some c ∧
      LoginRequest sampleBcrypt (sampleLogin password) c.email password ∧ password ≠ c.password ∧
      LoggedIn sampleBcrypt (sampleLogin password) 1 s
        (respond sampleBcrypt (sampleLogin password) (fun _ => sampleMoment) s).1 := by
  have stored := credentials_stored sampleRegistered_run _ sampleRegistered_credentials
  have agrees : (cString (samplePassword 'c')).take 72 = (cString (samplePassword 'b')).take 72 := by
    decide
  have accepted := (loggedIn_iff sampleRegistered_run.valid stored (sampleBcrypt_separates _ _)
    sampleLogin_request fun _ => sampleMoment).mpr ⟨rfl, agrees⟩
  exact ⟨_, _, _, _, sampleBcrypt_separates _ _, sampleRegistered_run, sampleRegistered_credentials,
    sampleLogin_request, by decide, accepted⟩

end RealWorld
