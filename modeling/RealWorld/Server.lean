import RealWorld.Handlers.Articles
import RealWorld.Handlers.ArticleParts
import RealWorld.Handlers.Accounts
import RealWorld.Handlers.Outcomes
import RealWorld.Schema.Constraints

/-!
# The service

`static_config.yaml.in` routes each request to one of nineteen handlers, behind the authorization
check its `auth` section asks for. `serve` is the program of one request; requests of any number
of clients interleave statement by statement.
-/

namespace RealWorld
open Schema Transactional

/-- The handlers of `main.cpp`, by their component names. -/
inductive Route where
  | postUsersLogin
  | postUsers
  | getUser
  | putUser
  | getProfiles
  | postProfiles
  | deleteProfiles
  | getArticles
  | getArticlesFeed
  | getArticlesSlug
  | postArticles
  | putArticlesSlug
  | deleteArticlesSlug
  | postArticlesSlugComments
  | getArticlesSlugComments
  | deleteArticlesSlugComments
  | postArticlesSlugFavorite
  | deleteArticlesSlugFavorite
  | getTags
  deriving DecidableEq

/-- The `auth` section of a handler: absent, or with its `optional` flag. -/
def Route.auth : Route → Option Bool
  | .postUsersLogin | .postUsers | .getTags => none
  | .getProfiles | .getArticles | .getArticlesSlug | .getArticlesSlugComments => some true
  | _ => some false

/-- One request as it reaches the service, with the server clock and the random bytes the
service reads while it handles it. -/
structure Call where
  route : Route
  request : HttpRequest
  now : Int := 0
  urandom : Option (List UInt8) := none

/-- The handler of a route, entered with the data the authorization check attached. -/
def handler (svc : Service) (call : Call) (auth : Option UserAuthData) : Program Response :=
  match call.route with
  | .postUsersLogin => Handlers.UsersLogin.Post.handleRequestJsonThrow svc call.now call.request
  | .postUsers => Handlers.Users.Post.handleRequestJsonThrow svc call.now call.urandom call.request
  | .getUser => Handlers.User.Get.handleRequestJsonThrow auth
  | .putUser => Handlers.User.Put.handleRequestJsonThrow svc call.urandom call.request auth
  | .getProfiles => Handlers.Profiles.Get.handleRequestJsonThrow call.request auth
  | .postProfiles => Handlers.Profiles.Post.handleRequestJsonThrow call.request auth
  | .deleteProfiles => Handlers.Profiles.Del.handleRequestJsonThrow call.request auth
  | .getArticles => Handlers.Articles.Get.handleRequestJsonThrow svc call.request auth
  | .getArticlesFeed => Handlers.ArticlesFeed.Get.handleRequestJsonThrow svc call.request auth
  | .getArticlesSlug => Handlers.ArticlesSlug.Get.handleRequestJsonThrow svc call.request auth
  | .postArticles => Handlers.Articles.Post.handleRequestJsonThrow svc call.request auth
  | .putArticlesSlug => Handlers.ArticlesSlug.Put.handleRequestJsonThrow svc call.request auth
  | .deleteArticlesSlug => Handlers.ArticlesSlug.Del.handleRequestJsonThrow call.request auth
  | .postArticlesSlugComments =>
      Handlers.ArticlesSlugComments.Post.handleRequestJsonThrow svc call.request auth
  | .getArticlesSlugComments =>
      Handlers.ArticlesSlugComments.Get.handleRequestJsonThrow svc call.request auth
  | .deleteArticlesSlugComments =>
      Handlers.ArticlesSlugComments.Del.handleRequestJsonThrow call.request auth
  | .postArticlesSlugFavorite =>
      Handlers.ArticlesSlugFavorite.Post.handleRequestJsonThrow svc call.request auth
  | .deleteArticlesSlugFavorite =>
      Handlers.ArticlesSlugUnfavorite.Del.handleRequestJsonThrow svc call.request auth
  | .getTags => Handlers.Tags.Get.handleRequestJsonThrow

/-- The program of one request: the authorization check, then the handler. -/
def serve (svc : Service) (call : Call) : Program Response :=
  match call.route.auth with
  | none => handler svc call none
  | some isOptionalAuth =>
    match checkAuth svc.jwt svc.jwtConfig isOptionalAuth call.now call.request.authorization with
    | .error e => .throw e
    | .ok (.unauthorized reason) => .pure ⟨401, .str reason⟩
    | .ok (.passed data) => handler svc call data

/-- One request that no other request interferes with. -/
def respond (svc : Service) (call : Call) (ms : Nat → Moment) (s : Store) : Response × Store :=
  let outcome := (serve svc call).run (Sql.exec svc.loc) ms s
  (Response.ofExcept outcome.1, outcome.2)

section
variable {loc : DbLocale} {q : Sql} {f : List q.Row → Program Response} {ms : Nat → Moment} {s s' : Store}

theorem answer_ok {rows : List q.Row} (answer : q.exec loc (ms 0) s = (.ok rows, s')) :
    (Response.ofExcept ((execute q >>= f).run (Sql.exec loc) ms s).1, ((execute q >>= f).run (Sql.exec loc) ms s).2) =
      (Response.ofExcept ((f rows).run (Sql.exec loc) (fun n => ms (n + 1)) s').1,
        ((f rows).run (Sql.exec loc) (fun n => ms (n + 1)) s').2) := by
  rw [run_execute_ok answer]

theorem answer_error {e : DbError} (answer : q.exec loc (ms 0) s = (.error e, s')) :
    (Response.ofExcept ((execute q >>= f).run (Sql.exec loc) ms s).1, ((execute q >>= f).run (Sql.exec loc) ms s).2) =
      (Response.ofExcept (.error (.db e)), s') := by
  rw [run_execute_error answer]

end

/-- An exception is never answered as a success, so a success is what the handler answered. -/
theorem respond_success {svc : Service} {call : Call} {ms : Nat → Moment} {s : Store}
    (success : (respond svc call ms s).1.success) :
    (serve svc call).run (Sql.exec svc.loc) ms s =
      (.ok (respond svc call ms s).1, (respond svc call ms s).2) := by
  have answered : (Response.ofExcept ((serve svc call).run (Sql.exec svc.loc) ms s).1).success := success
  refine Prod.ext ?_ rfl
  cases outcome : ((serve svc call).run (Sql.exec svc.loc) ms s).1 with
  | ok response =>
    have reported : (respond svc call ms s).1 = response := congrArg Response.ofExcept outcome
    rw [reported]
  | error e =>
    rw [outcome] at answered
    exact absurd answered (Response.not_success_error e)

theorem OnSuccess.respond {svc : Service} {call : Call} {ms : Nat → Moment} {s : Store}
    {post : Store → Prop} (h : OnSuccess svc s (serve svc call) post)
    (success : (respond svc call ms s).1.success) : post (respond svc call ms s).2 := by
  refine h ms ?_
  rw [respond_success success]
  exact succeeds_ok.mpr success

def Requested (svc : Service) (p : Program Response) : Prop := ∃ call, p = serve svc call

abbrev Configuration := Config Sql Sql.Res Exn Response Store

abbrev Interleaving (svc : Service) :
    Configuration → List (Event Sql Sql.Res Store) → Configuration → Prop :=
  Trace (Sql.exec svc.loc) (Requested svc)

def ReachableConfig (svc : Service) (c : Configuration) : Prop :=
  ∃ es, Interleaving svc ⟨Store.empty, []⟩ es c

def Reachable (svc : Service) (s : Store) : Prop := ∃ c, ReachableConfig svc c ∧ c.store = s

theorem reachable_empty (svc : Service) : Reachable svc Store.empty :=
  ⟨⟨Store.empty, []⟩, ⟨[], .refl _⟩, rfl⟩

theorem Reachable.respond {svc : Service} {s : Store} (h : Reachable svc s) (call : Call)
    (ms : Nat → Moment) : Reachable svc (respond svc call ms s).2 := by
  obtain ⟨c, ⟨es, trace⟩, rfl⟩ := h
  have started : Requested svc (serve svc call) := ⟨call, rfl⟩
  obtain ⟨es', p', more⟩ : ∃ es' p', Interleaving svc c es' ⟨_, c.active ++ [p']⟩ :=
    Trace.serve started ms
  exact ⟨_, ⟨es ++ es', trace.append more⟩, rfl⟩

/-- In every interleaving each statement meets and leaves a valid store. -/
theorem ReachableConfig.valid {svc : Service} {c c' : Configuration} (h : ReachableConfig svc c)
    {es : List (Event Sql Sql.Res Store)} (trace : Interleaving svc c es c') :
    Valid svc.loc c.store ∧ Valid svc.loc c'.store ∧
      ∀ e ∈ es, Valid svc.loc e.before ∧ Valid svc.loc e.after := by
  have step : ∀ (q : Sql) (m : Moment) (s : Store), True → Valid svc.loc s →
      Valid svc.loc (q.exec svc.loc m s).2 := fun q _ _ _ valid => valid.exec q
  obtain ⟨es₀, start⟩ := h
  have issued : ∀ p : Program Response, p.All fun _ => True := .of_forall fun _ => trivial
  obtain ⟨before, _, _⟩ := start.invariant step (fun p _ => issued p) (by simp) (valid_empty svc.loc)
  obtain ⟨after, _, events⟩ := trace.invariant step (fun p _ => issued p) (fun p _ => issued p) before
  exact ⟨before, after, fun e member => (events e member).2⟩

theorem Reachable.valid {svc : Service} {s : Store} (h : Reachable svc s) : Valid svc.loc s := by
  obtain ⟨c, reachable, rfl⟩ := h
  exact (reachable.valid (.refl c)).1

/-- What every statement a request can issue keeps holds in every reachable store. -/
theorem Reachable.invariant {svc : Service} {s : Store} (h : Reachable svc s) {allowed : Sql → Prop}
    {inv : Store → Prop} (start : inv Store.empty) (issued : ∀ call, (serve svc call).All allowed)
    (step : ∀ (q : Sql) m s, allowed q → inv s → inv (q.exec svc.loc m s).2) : inv s := by
  obtain ⟨c, ⟨es, trace⟩, rfl⟩ := h
  have requested : ∀ p, Requested svc p → p.All allowed := by
    rintro _ ⟨call, rfl⟩
    exact issued call
  exact (trace.invariant step requested (by simp) start).1

/-! ### Who is calling -/

/-- The user whose token the request carries, as the authorization check finds it. -/
def Call.caller (svc : Service) (call : Call) : Option UserAuthData :=
  match checkAuth svc.jwt svc.jwtConfig false call.now call.request.authorization with
  | .ok (.passed data) => data
  | _ => none

theorem Call.caller_congr {svc : Service} {call call' : Call} (now : call.now = call'.now)
    (header : call.request.authorization = call'.request.authorization) : call.caller svc = call'.caller svc := by
  unfold Call.caller
  rw [now, header]

/-- A header that passes is read the same way whether or not authorization is optional. -/
theorem checkAuth_optional {jwt : JwtLib} {config : JWTConfig} {now : Int} {header : String}
    {isOptionalAuth : Bool} {data : UserAuthData} :
    checkAuth jwt config isOptionalAuth now header = .ok (.passed (some data)) ↔
      checkAuth jwt config false now header = .ok (.passed (some data)) := by
  unfold checkAuth
  split
  · cases isOptionalAuth <;> simp
  · rfl

theorem Call.caller_eq {svc : Service} {call : Call} {data : UserAuthData}
    (h : call.caller svc = some data) (isOptionalAuth : Bool) :
    checkAuth svc.jwt svc.jwtConfig isOptionalAuth call.now call.request.authorization =
      .ok (.passed (some data)) := by
  rw [checkAuth_optional]
  unfold Call.caller at h
  split at h
  · rename_i found
    rw [found, h]
  · cases h

/-- With a token of its own, a request to a route with an `auth` section enters the handler with
that token's data. -/
theorem serve_caller {svc : Service} {call : Call} {data : UserAuthData}
    (h : call.caller svc = some data) (guarded : call.route.auth.isSome) :
    serve svc call = handler svc call (some data) := by
  obtain ⟨isOptionalAuth, section_⟩ := Option.isSome_iff_exists.mp guarded
  simp only [serve, section_, Call.caller_eq h isOptionalAuth]

/-- A handler is entered without data, or with the data of the caller's own token; otherwise the
request ends before any statement. -/
theorem serve_cases (svc : Service) (call : Call) :
    (∃ reason, serve svc call = .pure ⟨401, .str reason⟩) ∨ (∃ e, serve svc call = .throw e) ∨
      (call.route.auth ≠ some false ∧ serve svc call = handler svc call none) ∨
      ∃ data, call.caller svc = some data ∧ serve svc call = handler svc call (some data) := by
  unfold serve
  split
  · rename_i open_
    exact .inr (.inr (.inl ⟨by simp [open_], rfl⟩))
  · rename_i isOptionalAuth section_
    split
    · exact .inr (.inl ⟨_, rfl⟩)
    · exact .inl ⟨_, rfl⟩
    · rename_i data passed
      cases data with
      | none =>
        refine .inr (.inr (.inl ⟨?_, rfl⟩))
        rw [section_]
        rintro ⟨⟩
        simp only [checkAuth] at passed
        split at passed
        · cases passed
        · split at passed
          · cases passed
          · split at passed
            · cases passed
            · split at passed
              · cases passed
              · split at passed
                · split at passed <;> cases passed
                · cases passed
      | some data =>
        refine .inr (.inr (.inr ⟨data, ?_, rfl⟩))
        simp only [Call.caller, checkAuth_optional.mp passed]

/-- A handler that is entered serves the user whose token the request carries, if it carries one. -/
theorem serve_entered (svc : Service) (call : Call) :
    (∃ reason, serve svc call = .pure ⟨401, .str reason⟩) ∨ (∃ e, serve svc call = .throw e) ∨
      serve svc call = handler svc call (call.caller svc) := by
  rcases serve_cases svc call with ⟨reason, same⟩ | ⟨e, same⟩ | ⟨_, same⟩ | ⟨data, token, same⟩
  · exact .inl ⟨reason, same⟩
  · exact .inr (.inl ⟨e, same⟩)
  · right
    right
    cases token : call.caller svc with
    | none => exact same
    | some data =>
      cases guarded : call.route.auth with
      | some isOptionalAuth => exact serve_caller token (by rw [guarded]; rfl)
      | none =>
        -- such a handler does not look at the token
        rw [same]
        unfold handler
        cases route : call.route <;> first | rfl | (rw [route] at guarded; cases guarded)
  · rw [token]
    exact .inr (.inr same)

theorem serve_rule {svc : Service} {call : Call} (holds : Program Response → Prop)
    (answered : ∀ response, holds (.pure response)) (thrown : ∀ e, holds (.throw e))
    (entered : ∀ auth, holds (handler svc call auth)) : holds (serve svc call) := by
  rcases serve_cases svc call with ⟨reason, same⟩ | ⟨e, same⟩ | ⟨_, same⟩ | ⟨data, _, same⟩
  · rw [same]
    exact answered _
  · rw [same]
    exact thrown e
  · rw [same]
    exact entered none
  · rw [same]
    exact entered (some data)

theorem success_caller {svc : Service} {call : Call} {ms : Nat → Moment} {s : Store}
    (guarded : call.route.auth = some false) (success : (respond svc call ms s).1.success) :
    ∃ data, call.caller svc = some data := by
  rcases serve_cases svc call with ⟨reason, same⟩ | ⟨e, same⟩ | ⟨unguarded, _⟩ | ⟨data, token, _⟩
  · unfold respond at success
    rw [same] at success
    cases success
  · unfold respond at success
    rw [same] at success
    exact absurd success (Response.not_success_error e)
  · exact absurd guarded unguarded
  · exact ⟨data, token⟩

end RealWorld
