import RealWorld.Handlers.Requests
import RealWorld.Handlers.Writes

/-!
# What a request stores of its body

The five statements that store texts store the texts of the request, a password as its hash.
-/

namespace RealWorld
open Schema Transactional

/-- A hash of the password in the body. -/
def Call.HashesPassword (svc : Service) (call : Call) (hash : String) : Prop :=
  ∃ password, call.supplied "user" "password" = some password ∧
    generateHash svc.eks call.urandom password = .ok hash

/-- Every text `q` stores is one the body of `call` supplies. -/
def Schema.Sql.StoresTextsOf (svc : Service) (call : Call) : Sql → Prop
  | .addNewArticle title _ description body _ tagList =>
      call.supplied "article" "title" = some title ∧ call.supplied "article" "description" = some description ∧
        call.supplied "article" "body" = some body ∧
          tagList = (call.suppliedList "article" "tagList").map (·.map toLower)
  | .updateArticleBySlug _ _ title _ description body =>
      call.supplied "article" "title" = title ∧ call.supplied "article" "description" = description ∧
        call.supplied "article" "body" = body
  | .addNewUser username email hash =>
      call.supplied "user" "username" = some username ∧ call.supplied "user" "email" = some email ∧
        call.HashesPassword svc hash
  | .updateUserById _ username email hash bio image =>
      call.supplied "user" "username" = username ∧ call.supplied "user" "email" = email ∧
        (∀ given ∈ hash, call.HashesPassword svc given) ∧ call.supplied "user" "bio" = bio ∧
          call.supplied "user" "image" = image
  | .addNewComment _ body _ => call.supplied "comment" "body" = some body
  | _ => True

/-- The parser of the route, if it has one, accepts the body. -/
def Call.Accepted (svc : Service) (call : Call) : Prop :=
  match call.route with
  | .postArticles => ∃ newArticle, Handlers.Articles.Post.parsed svc call.request = .ok newArticle
  | .putArticlesSlug => ∃ update, Handlers.ArticlesSlug.Put.parsed call.request = .ok update
  | .postArticlesSlugComments =>
      ∃ comment, Handlers.ArticlesSlugComments.Post.parsed svc call.request (call.caller svc) = .ok comment
  | .postUsers => ∃ registration, call.registration svc = .ok registration
  | .putUser => ∃ update, call.profileUpdate svc = .ok update
  | _ => True

/-- `q` is a statement for the body of `call`, which is accepted. -/
structure Schema.Sql.Submits (svc : Service) (call : Call) (q : Sql) : Prop where
  accepted : call.Accepted svc
  texts : q.StoresTextsOf svc call

section
variable {svc : Service} {call : Call} {object name text : String} {data : Value} {auth : Option UserAuthData}

theorem checkSizeOf_read {lib : JsonLib} {min max : Nat} (checked : checkSizeOf lib data name min max = .ok text) :
    ∃ value, data.member name = .ok value ∧ value.asString = .ok text := by
  unfold checkSizeOf at checked
  obtain ⟨present, _, checked⟩ := checked_bind.mp checked
  cases present with
  | false => cases checked
  | true =>
    obtain ⟨value, member, checked⟩ := checked_bind.mp checked
    obtain ⟨given, read, checked⟩ := checked_bind.mp checked
    obtain ⟨rfl, _⟩ := checkSize_ok checked
    exact ⟨value, member, read⟩

theorem Call.supplied_read (entered : Value.member (some call.request.body) object = .ok data)
    (read : ∃ value, data.member name = .ok value ∧ value.asString = .ok text) :
    call.supplied object name = some text := by
  obtain ⟨value, member, given⟩ := read
  exact Call.supplied_of entered member (asOptionalString_of given)

theorem Handlers.Articles.Post.parsed_texts {newArticle : Dto.NewArticleRequest}
    (accepted : parsed svc call.request = .ok newArticle) :
    call.supplied "article" "title" = some newArticle.title ∧
      call.supplied "article" "description" = some newArticle.description ∧
      call.supplied "article" "body" = some newArticle.body := by
  obtain ⟨data, entered, accepted⟩ := checked_bind.mp accepted
  obtain ⟨title, first, accepted⟩ := checked_bind.mp accepted
  obtain ⟨description, second, accepted⟩ := checked_bind.mp accepted
  obtain ⟨body, third, accepted⟩ := checked_bind.mp accepted
  obtain ⟨value, _, accepted⟩ := checked_bind.mp accepted
  obtain ⟨given, _, accepted⟩ := checked_bind.mp accepted
  obtain ⟨tagList, _, accepted⟩ := checked_bind.mp accepted
  cases accepted
  exact ⟨Call.supplied_read entered (checkSizeOf_read first), Call.supplied_read entered (checkSizeOf_read second),
    Call.supplied_read entered (checkSizeOf_read third)⟩

theorem Handlers.ArticlesSlugComments.Post.parsed_text {comment : Dto.NewCommentRequest}
    (accepted : parsed svc call.request auth = .ok comment) : call.supplied "comment" "body" = some comment.body := by
  obtain ⟨data, entered, accepted⟩ := checked_bind.mp accepted
  obtain ⟨user, _, accepted⟩ := checked_bind.mp accepted
  obtain ⟨body, checked, accepted⟩ := checked_bind.mp accepted
  cases accepted
  exact Call.supplied_read entered (checkSizeOf_read checked)

theorem Call.registration_texts {registration : Dto.RegistrationRequest} (accepted : call.registration svc = .ok registration) :
    call.supplied "user" "username" = some registration.username ∧
      call.supplied "user" "password" = some registration.password ∧
      call.supplied "user" "email" = some registration.email := by
  obtain ⟨data, entered, accepted⟩ := checked_bind.mp accepted
  obtain ⟨username, first, accepted⟩ := checked_bind.mp accepted
  obtain ⟨password, second, accepted⟩ := checked_bind.mp accepted
  obtain ⟨email, third, accepted⟩ := checked_bind.mp accepted
  cases accepted
  exact ⟨Call.supplied_read entered (checkSizeOf_read first), Call.supplied_read entered (checkSizeOf_read second),
    Call.supplied_read entered (validateEmail_read third)⟩

/-! ### The handlers -/

theorem Handlers.Articles.Post.submits (route : call.route = .postArticles) :
    Writes (Sql.Submits svc call) (Articles.Post.handleRequestJsonThrow svc call.request auth) := by
  apply writes_of
  intro newArticle slug data _ accepted _
  obtain ⟨title, description, body⟩ := parsed_texts accepted
  refine ⟨?_, title, description, body, parsed_supplied accepted⟩
  rw [Call.Accepted, route]
  exact ⟨newArticle, accepted⟩

theorem Handlers.ArticlesSlug.Put.submits (route : call.route = .putArticlesSlug) :
    Writes (Sql.Submits svc call) (ArticlesSlug.Put.handleRequestJsonThrow svc call.request auth) := by
  apply writes_of
  intro update newSlug data _ accepted _
  have given := parsed_supplied accepted
  refine ⟨?_, (congrArg (·.title) given).symm, (congrArg (·.description) given).symm, (congrArg (·.body) given).symm⟩
  rw [Call.Accepted, route]
  exact ⟨update, accepted⟩

theorem Handlers.ArticlesSlugComments.Post.submits (route : call.route = .postArticlesSlugComments) :
    Writes (Sql.Submits svc call)
      (ArticlesSlugComments.Post.handleRequestJsonThrow svc call.request (call.caller svc)) := by
  refine validated_writes fun comment accepted => .write ⟨?_, parsed_text accepted⟩ fun rows => .lift fun commentId => ?_
  · rw [Call.Accepted, route]
    exact ⟨comment, accepted⟩
  · exact .execute nofun fun res => .lift fun row => trivial

theorem Handlers.Users.Post.submits (route : call.route = .postUsers) : Writes (Sql.Submits svc call)
    (Users.Post.handleRequestJsonThrow svc call.now call.urandom call.request) := by
  refine validated_writes fun registration accepted => .bind (alreadyTaken_writes ?_) fun _ =>
    afterTry_reads fun _ => trivial
  obtain ⟨username, password, email⟩ := Call.registration_texts accepted
  have body : call.Accepted svc := by
    rw [Call.Accepted, route]
    exact ⟨registration, accepted⟩
  exact .lifted fun hash hashed => .write ⟨body, username, email, _, password, hashed⟩ fun rows => .lift fun _ => trivial

theorem Handlers.User.Put.submits (route : call.route = .putUser) :
    Writes (Sql.Submits svc call) (User.Put.handleRequestJsonThrow svc call.urandom call.request auth) := by
  refine validated_writes fun update accepted => getData_writes fun data _ => ?_
  have given := parsed_supplied accepted
  have body : call.Accepted svc := by
    rw [Call.Accepted, route]
    exact ⟨update, accepted⟩
  have statement : ∀ hash : Option String, (∀ text ∈ hash, call.HashesPassword svc text) →
      Writes (Sql.Submits svc call) (do
        let res ← execute (.updateUserById data.id update.username update.email hash update.bio
          update.image)
        if res.isEmpty then notFound
        else
          let row ← lift (asSingleRow res)
          currentUserResponse data row : Program Response) := by
    intro hash hashed
    refine .write ⟨body, (congrArg (·.username) given).symm, (congrArg (·.email) given).symm, hashed,
      (congrArg (·.bio) given).symm, (congrArg (·.image) given).symm⟩ fun rows => ?_
    split
    · trivial
    · exact .lift fun _ => trivial
  have password : call.supplied "user" "password" = update.password := (congrArg (·.password) given).symm
  cases supplied : update.password with
  | none => exact statement none nofun
  | some text =>
    refine .lifted fun hash hashed => statement hash fun stored member => ?_
    rw [supplied] at password
    refine ⟨text, password, ?_⟩
    cases made : generateHash svc.eks call.urandom text with
    | error e =>
      rw [made] at hashed
      cases hashed
    | ok made' =>
      rw [made] at hashed
      obtain rfl := Except.ok.inj hashed
      cases member
      rfl

/-- What a request writes, it writes with its own texts. -/
theorem serve_submits (svc : Service) (call : Call) : Writes (Sql.Submits svc call) (serve svc call) := by
  rcases serve_entered svc call with ⟨reason, same⟩ | ⟨e, same⟩ | entered
  · rw [same]
    trivial
  · rw [same]
    trivial
  · rw [entered]
    have textless : (∀ q : Sql, q.issuer = some call.route → q.Submits svc call) →
        Writes (Sql.Submits svc call) (handler svc call (call.caller svc)) :=
      fun h => (handler_writes svc call _).mono fun q issued => h q issued.issuer
    cases route : call.route with
    | postArticles =>
      rw [handler, route]
      exact Handlers.Articles.Post.submits route
    | putArticlesSlug =>
      rw [handler, route]
      exact Handlers.ArticlesSlug.Put.submits route
    | postArticlesSlugComments =>
      rw [handler, route]
      exact Handlers.ArticlesSlugComments.Post.submits route
    | postUsers =>
      rw [handler, route]
      exact Handlers.Users.Post.submits route
    | putUser =>
      rw [handler, route]
      exact Handlers.User.Put.submits route
    | _ =>
      apply textless
      intro q issued
      rw [route] at issued
      refine ⟨by rw [Call.Accepted, route]; trivial, ?_⟩
      cases q <;> first | trivial | cases issued

end

end RealWorld
