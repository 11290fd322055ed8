import RealWorld.Server

/-!
# Which statements a request writes with

Each request issues at most one writing statement, the one of its route, and issues it for the user
of its token. What it does before and after only reads.
-/

namespace RealWorld
open Schema Transactional

/-- The user on whose behalf a writing statement acts, the parameter every writing function but
`add_new_user` has. -/
def Schema.Sql.actor : Sql → Option Int
  | .addNewArticle _ _ _ _ authorId _ => some authorId
  | .follow follower _ | .unfollow follower _ => some follower
  | .updateArticleBySlug _ authorId _ _ _ _ | .deleteArticleBySlug _ authorId => some authorId
  | .updateUserById userId _ _ _ _ _ => some userId
  | .addNewComment _ _ userId => some userId
  | .deleteComment _ _ authorId => some authorId
  | .favoriteArticle _ userId | .unfavoriteArticle _ userId => some userId
  | _ => none

/-- The route whose handler issues a writing statement. -/
def Schema.Sql.issuer : Sql → Option Route
  | .addNewArticle .. => some .postArticles
  | .follow .. => some .postProfiles
  | .unfollow .. => some .deleteProfiles
  | .updateArticleBySlug .. => some .putArticlesSlug
  | .deleteArticleBySlug .. => some .deleteArticlesSlug
  | .addNewUser .. => some .postUsers
  | .updateUserById .. => some .putUser
  | .addNewComment .. => some .postArticlesSlugComments
  | .deleteComment .. => some .deleteArticlesSlugComments
  | .favoriteArticle .. => some .postArticlesSlugFavorite
  | .unfavoriteArticle .. => some .deleteArticlesSlugFavorite
  | _ => none

theorem Schema.Sql.writes_iff {q : Sql} : q.issuer.isSome ↔ q.writes := by
  cases q <;> simp [issuer, writes]

instance : DecidablePred Sql.writes := fun q => decidable_of_iff (q.issuer.isSome) Sql.writes_iff

/-- `q` is the write of `route`, for the user of `auth`. -/
structure Schema.Sql.IssuedBy (route : Route) (auth : Option UserAuthData) (q : Sql) : Prop where
  issuer : q.issuer = some route
  actor : q.actor = none ∨ q.actor = auth.map (·.id)

abbrev ReadsOnly {α : Type} (p : Program α) : Prop := p.All fun q => ¬ q.writes

/-- Writes at most once, with a statement satisfying `allowed`. -/
abbrev Writes {α : Type} (allowed : Sql → Prop) (p : Program α) : Prop := p.WritesOnce Sql.writes allowed

section
variable {α β : Type} {q : Sql} {allowed : Sql → Prop}

theorem all_execute {f : List q.Row → Program α} (issued : allowed q) (rest : ∀ rows, (f rows).All allowed) :
    (execute q >>= f).All allowed := by
  refine ⟨issued, fun r => ?_⟩
  cases r with
  | ok rows => exact rest rows
  | error e => trivial

theorem all_lift {x : Except Exn α} {f : α → Program β} (rest : ∀ a, x = .ok a → (f a).All allowed) :
    (lift x >>= f).All allowed := by
  cases x with
  | ok a => exact rest a rfl
  | error e => trivial

theorem ReadsOnly.execute {f : List q.Row → Program α} (reads : ¬ q.writes)
    (rest : ∀ rows, ReadsOnly (f rows)) : ReadsOnly (execute q >>= f) := all_execute reads rest

theorem ReadsOnly.lift {x : Except Exn α} {f : α → Program β} (rest : ∀ a, ReadsOnly (f a)) :
    ReadsOnly (lift x >>= f) := all_lift fun a _ => rest a

theorem ReadsOnly.ensures {loc : DbLocale} {s : Store} {p : Program α} (reads : ReadsOnly p)
    {post : Except Exn α → Store → Prop} (holds : ∀ r, post r s) : p.Ensures (Sql.exec loc) s post := by
  intro ms
  have same : (p.run (Sql.exec loc) ms s).2 = s :=
    Prog.run_reads (fun _ _ _ reading => Sql.exec_reads reading rfl) p reads ms s
  rw [same]
  exact holds _

theorem Writes.read {f : List q.Row → Program α} (reads : ¬ q.writes)
    (rest : ∀ rows, Writes allowed (f rows)) : Writes allowed (execute q >>= f) := by
  refine ⟨fun writing => absurd writing reads, fun _ r => ?_⟩
  cases r with
  | ok rows => exact rest rows
  | error e => trivial

theorem Writes.write {f : List q.Row → Program α} (issued : allowed q)
    (rest : ∀ rows, ReadsOnly (f rows)) : Writes allowed (execute q >>= f) := by
  constructor
  · refine fun _ => ⟨issued, fun r => ?_⟩
    cases r with
    | ok rows => exact rest rows
    | error e => trivial
  · intro _ r
    cases r with
    | ok rows => exact (rest rows).writesOnce
    | error e => trivial

theorem Writes.lift {x : Except Exn α} {f : α → Program β} (rest : ∀ a, Writes allowed (f a)) :
    Writes allowed (lift x >>= f) := by
  cases x with
  | ok a => exact rest a
  | error e => trivial

theorem Writes.lifted {x : Except Exn α} {f : α → Program β} (rest : ∀ a, x = .ok a → Writes allowed (f a)) :
    Writes allowed (RealWorld.lift x >>= f) := by
  cases x with
  | ok a => exact rest a rfl
  | error e => trivial

namespace Handlers

theorem validated_writes {parsed : Except Exn α} {handle : α → Program Response}
    (rest : ∀ a, parsed = .ok a → Writes allowed (handle a)) :
    Writes allowed (validated parsed handle) := by
  match parsed with
  | .ok a => exact rest a rfl
  | .error (.validation _ _) => trivial
  | .error (.forbidden _ _) | .error (.db _) | .error .resultSet | .error .json
  | .error .badLexicalCast | .error .noAuthData | .error .runtime => trivial

theorem all_validated {parsed : Except Exn α} {handle : α → Program Response}
    (rest : ∀ a, parsed = .ok a → (handle a).All allowed) : (validated parsed handle).All allowed := by
  match parsed with
  | .ok a => exact rest a rfl
  | .error (.validation _ _) => trivial
  | .error (.forbidden _ _) | .error (.db _) | .error .resultSet | .error .json
  | .error .badLexicalCast | .error .noAuthData | .error .runtime => trivial

theorem alreadyTaken_handled (fields : List (String × String)) (e : Exn) :
    (alreadyTaken fields (.throw e : Program (Response ⊕ α))).All allowed := by
  unfold alreadyTaken
  cases e with
  | db e =>
    cases e with
    | uniqueViolation constraint =>
      rw [Prog.tryCatch_throw]
      dsimp only
      split <;> trivial
    | _ => trivial
  | _ => trivial

theorem alreadyTaken_writes {fields : List (String × String)} {body : Program (Response ⊕ α)}
    (h : Writes allowed body) : Writes allowed (alreadyTaken fields body) :=
  h.tryCatch (alreadyTaken_handled fields)

theorem all_alreadyTaken {fields : List (String × String)} {body : Program (Response ⊕ α)}
    (h : body.All allowed) : (alreadyTaken fields body).All allowed :=
  h.tryCatch (alreadyTaken_handled fields)

theorem all_afterTry {result : Response ⊕ α} {rest : α → Program Response}
    (each : ∀ a, (rest a).All allowed) : (afterTry result rest).All allowed := by
  cases result with
  | inl response => trivial
  | inr a => exact each a

theorem afterTry_reads {result : Response ⊕ α} {rest : α → Program Response}
    (reads : ∀ a, ReadsOnly (rest a)) : ReadsOnly (afterTry result rest) := all_afterTry reads

theorem articleResponse_all {svc : Service} {res : List ArticleWithAuthorProfile} :
    (articleResponse svc res).All allowed :=
  all_lift fun _ _ => all_lift fun _ _ => trivial

theorem articleResponse_reads {svc : Service} {res : List ArticleWithAuthorProfile} :
    ReadsOnly (articleResponse svc res) := articleResponse_all

theorem articlesResponse_all {svc : Service} {res : List ArticleWithAuthorProfile} :
    (articlesResponse svc res).All allowed := all_lift fun _ _ => trivial

theorem articlesResponse_reads {svc : Service} {res : List ArticleWithAuthorProfile} :
    ReadsOnly (articlesResponse svc res) := articlesResponse_all

end Handlers

end

/-! ### The handlers -/

namespace Handlers

section
variable {svc : Service} {request : HttpRequest} {auth : Option UserAuthData} {data : UserAuthData}

theorem showArticle_reads {articleId userId : Int} : ReadsOnly (showArticle svc articleId userId) :=
  .execute nofun fun _ => articleResponse_reads

theorem getData_writes {α : Type} {allowed : Sql → Prop} {f : UserAuthData → Program α}
    (rest : ∀ data, auth = some data → Writes allowed (f data)) :
    Writes allowed (lift (getData auth) >>= f) := by
  cases auth with
  | none => trivial
  | some data => exact rest data rfl

/-- What holds of the statement of every request that passes its parser holds of what the handler writes. -/
theorem Articles.Post.writes_of {allowed : Sql → Prop}
    (issued : ∀ newArticle slug data, auth = some data →
      (do parseRequest svc.json (← Value.member (some request.body) "article")) = .ok newArticle →
      slugify svc.icu newArticle.title = .ok slug →
      allowed (.addNewArticle newArticle.title slug newArticle.description newArticle.body data.id newArticle.tagList)) :
    Writes allowed (Articles.Post.handleRequestJsonThrow svc request auth) := by
  refine validated_writes fun newArticle parsed => getData_writes fun data same => ?_
  refine .bind (alreadyTaken_writes ?_) fun _ => afterTry_reads fun _ => showArticle_reads
  refine .lifted fun slug slugged => .write ?_ fun rows => .lift fun _ => trivial
  exact issued newArticle slug data same parsed slugged

theorem Articles.Post.writes : Writes (Sql.IssuedBy .postArticles auth)
    (Articles.Post.handleRequestJsonThrow svc request auth) := by
  apply writes_of
  rintro newArticle slug data rfl _ _
  exact ⟨rfl, .inr rfl⟩

theorem ArticlesSlug.Put.writes_of {allowed : Sql → Prop}
    (issued : ∀ update newSlug data, auth = some data →
      (do parseRequest (← Value.member (some request.body) "article") request) = .ok update →
      update.title.mapM (slugify svc.icu) = .ok newSlug →
      allowed (.updateArticleBySlug update.slug data.id update.title newSlug update.description update.body)) :
    Writes allowed (ArticlesSlug.Put.handleRequestJsonThrow svc request auth) := by
  refine validated_writes fun update parsed => getData_writes fun data same => ?_
  refine .bind (alreadyTaken_writes ?_) fun _ => afterTry_reads fun _ => showArticle_reads
  have statement : ∀ newSlug, update.title.mapM (slugify svc.icu) = .ok newSlug → Writes allowed (do
      let res ← execute (.updateArticleBySlug update.slug data.id update.title newSlug update.description
        update.body)
      if res.isEmpty then return .inl ⟨404, .null⟩
      let articleId ← lift (asSingleRow res)
      return .inr articleId : Program (Response ⊕ Int)) := by
    refine fun newSlug slugged => .write (issued update newSlug data same parsed slugged) fun rows => ?_
    split
    · trivial
    · exact .lift fun _ => trivial
  cases given : update.title with
  | none =>
    rw [given] at statement
    exact statement none rfl
  | some title =>
    rw [given] at statement
    exact .lifted fun newSlug slugged => statement newSlug slugged

theorem ArticlesSlug.Put.writes : Writes (Sql.IssuedBy .putArticlesSlug auth)
    (ArticlesSlug.Put.handleRequestJsonThrow svc request auth) := by
  apply writes_of
  rintro update newSlug data rfl _ _
  exact ⟨rfl, .inr rfl⟩

theorem ArticlesSlug.Del.writes : Writes (Sql.IssuedBy .deleteArticlesSlug auth)
    (ArticlesSlug.Del.handleRequestJsonThrow request auth) := by
  refine getData_writes fun data same => .read nofun fun res => ?_
  subst same
  split
  · trivial
  · exact .write ⟨rfl, .inr rfl⟩ fun _ => trivial

theorem ArticlesSlugComments.Post.parseRequest_user {lib : JsonLib} {value : Value}
    {comment : Dto.NewCommentRequest}
    (parsed : ArticlesSlugComments.Post.parseRequest lib request value auth = .ok comment) :
    comment.slug = request.getPathArg "slug" ∧ ∃ data, auth = some data ∧ comment.userId = data.id := by
  cases auth with
  | none => cases parsed
  | some data =>
    simp only [ArticlesSlugComments.Post.parseRequest, getData] at parsed
    change (checkSizeOf lib value "body" 4 16384 >>= _) = _ at parsed
    cases body : checkSizeOf lib value "body" 4 16384 with
    | error e =>
      rw [body] at parsed
      cases parsed
    | ok text =>
      rw [body] at parsed
      obtain rfl := Except.ok.inj parsed
      exact ⟨rfl, data, rfl, rfl⟩

theorem ArticlesSlugComments.Post.writes : Writes (Sql.IssuedBy .postArticlesSlugComments auth)
    (ArticlesSlugComments.Post.handleRequestJsonThrow svc request auth) := by
  refine validated_writes fun comment parsed => ?_
  have user : comment.slug = request.getPathArg "slug" ∧
      ∃ data, auth = some data ∧ comment.userId = data.id := by
    cases member : Value.member (some request.body) "comment" with
    | error e =>
      rw [member] at parsed
      cases parsed
    | ok value =>
      rw [member] at parsed
      exact parseRequest_user parsed
  obtain ⟨_, data, rfl, same⟩ := user
  refine .write ⟨rfl, .inr (congrArg some same)⟩ fun rows => .lift fun commentId => ?_
  exact .execute nofun fun res => .lift fun row => trivial

theorem ArticlesSlugComments.Del.writes : Writes (Sql.IssuedBy .deleteArticlesSlugComments auth)
    (ArticlesSlugComments.Del.handleRequestJsonThrow request auth) := by
  refine .lift fun comment => getData_writes fun data same => .read nofun fun res => .lift fun found => ?_
  subst same
  split
  · trivial
  · exact .write ⟨rfl, .inr rfl⟩ fun _ => trivial

theorem markArticle_writes {route : Route} {write : String → Int → Sql}
    (issued : ∀ slug data, auth = some data → (write slug data.id).IssuedBy route auth) :
    Writes (Sql.IssuedBy route auth) (markArticle svc write request auth) := by
  refine .read nofun fun res => ?_
  split
  · trivial
  · refine getData_writes fun data same => .write (issued _ data same) fun _ => ?_
    exact .lift fun articleId => showArticle_reads

theorem markProfile_writes {route : Route} {write : Int → Int → Sql} {following : Bool}
    (issued : ∀ data followed, auth = some data → (write data.id followed).IssuedBy route auth) :
    Writes (Sql.IssuedBy route auth) (markProfile write following request auth) := by
  refine .read nofun fun res => ?_
  split
  · trivial
  · refine .lift fun user => getData_writes fun data same => ?_
    exact .write (issued data _ same) fun _ => trivial

theorem Users.Post.writes {now : Int} {urandom : Option (List UInt8)} :
    Writes (Sql.IssuedBy .postUsers auth) (Users.Post.handleRequestJsonThrow svc now urandom request) := by
  refine validated_writes fun registration _ => .bind (alreadyTaken_writes ?_) fun _ =>
    afterTry_reads fun _ => trivial
  exact .lift fun hash => .write ⟨rfl, .inl rfl⟩ fun rows => .lift fun _ => trivial

theorem User.Put.writes {urandom : Option (List UInt8)} : Writes (Sql.IssuedBy .putUser auth)
    (User.Put.handleRequestJsonThrow svc urandom request auth) := by
  refine validated_writes fun update _ => getData_writes fun data same => ?_
  subst same
  have statement : ∀ hash, Writes (Sql.IssuedBy .putUser (some data)) (do
      let res ← execute (.updateUserById data.id update.username update.email hash update.bio
        update.image)
      if res.isEmpty then notFound
      else
        let row ← lift (asSingleRow res)
        currentUserResponse data row : Program Response) := by
    refine fun hash => .write ⟨rfl, .inr rfl⟩ fun rows => ?_
    split
    · trivial
    · exact .lift fun _ => trivial
  cases update.password with
  | none => exact statement none
  | some password => exact .lift fun hash => statement hash

end

end Handlers

/-- Every handler writes at most once, with the statement of its route and for the user of the
token. -/
theorem handler_writes (svc : Service) (call : Call) (auth : Option UserAuthData) :
    Writes (Sql.IssuedBy call.route auth) (handler svc call auth) := by
  unfold handler
  cases call.route with
  | postUsersLogin =>
    refine Handlers.validated_writes fun login _ => .read nofun fun res => ?_
    split
    · trivial
    · refine .lift fun user => ?_
      split <;> trivial
  | postUsers => exact Handlers.Users.Post.writes
  | getUser =>
    refine .lift fun user => .read nofun fun res => ?_
    split
    · trivial
    · exact .lift fun _ => trivial
  | putUser => exact Handlers.User.Put.writes
  | getProfiles =>
    refine .read nofun fun res => ?_
    split
    · trivial
    · exact .lift fun _ => trivial
  | postProfiles => exact Handlers.markProfile_writes fun data followed same => ⟨rfl, .inr (same ▸ rfl)⟩
  | deleteProfiles => exact Handlers.markProfile_writes fun data followed same => ⟨rfl, .inr (same ▸ rfl)⟩
  | getArticles => exact .lift fun _ => .read nofun fun _ => Handlers.articlesResponse_reads.writesOnce
  | getArticlesFeed =>
    exact .lift fun _ => .lift fun _ => .read nofun fun _ => Handlers.articlesResponse_reads.writesOnce
  | getArticlesSlug =>
    refine .read nofun fun res => ?_
    split
    · trivial
    · exact Handlers.articleResponse_reads.writesOnce
  | postArticles => exact Handlers.Articles.Post.writes
  | putArticlesSlug => exact Handlers.ArticlesSlug.Put.writes
  | deleteArticlesSlug => exact Handlers.ArticlesSlug.Del.writes
  | postArticlesSlugComments => exact Handlers.ArticlesSlugComments.Post.writes
  | getArticlesSlugComments =>
    refine .read nofun fun res => ?_
    split <;> trivial
  | deleteArticlesSlugComments => exact Handlers.ArticlesSlugComments.Del.writes
  | postArticlesSlugFavorite =>
    exact Handlers.markArticle_writes fun slug data same => ⟨rfl, .inr (same ▸ rfl)⟩
  | deleteArticlesSlugFavorite =>
    exact Handlers.markArticle_writes fun slug data same => ⟨rfl, .inr (same ▸ rfl)⟩
  | getTags => exact .read nofun fun _ => .lift fun _ => trivial

/-- Two handlers write the texts of an article. -/
theorem handler_articleTexts {svc : Service} {call : Call} {auth : Option UserAuthData} {allowed : Sql → Prop}
    (others : ∀ q : Sql, q.issuer ≠ some .postArticles → q.issuer ≠ some .putArticlesSlug → allowed q)
    (post : Writes allowed (Handlers.Articles.Post.handleRequestJsonThrow svc call.request auth))
    (put : Writes allowed (Handlers.ArticlesSlug.Put.handleRequestJsonThrow svc call.request auth)) :
    Writes allowed (handler svc call auth) := by
  have elsewhere : call.route ≠ .postArticles → call.route ≠ .putArticlesSlug →
      Writes allowed (handler svc call auth) := by
    refine fun post put => (handler_writes svc call auth).mono fun q issued => others q ?_ ?_
    · rw [issued.issuer]
      exact fun same => post (Option.some.inj same)
    · rw [issued.issuer]
      exact fun same => put (Option.some.inj same)
  cases route : call.route with
  | postArticles =>
    unfold handler
    rw [route]
    exact post
  | putArticlesSlug =>
    unfold handler
    rw [route]
    exact put
  | _ => exact elsewhere (by rw [route]; nofun) (by rw [route]; nofun)

/-- What a request may write, from the header it came with: nothing without a handler entered, the
user of its token otherwise, and only registration without a token. -/
theorem serve_writes (svc : Service) (call : Call) :
    Writes (Sql.IssuedBy call.route (call.caller svc)) (serve svc call) := by
  rcases serve_cases svc call with ⟨r, same⟩ | ⟨e, same⟩ | ⟨unguarded, same⟩ | ⟨data, token, same⟩
  · rw [same]
    trivial
  · rw [same]
    trivial
  · rw [same]
    refine (handler_writes svc call none).mono fun q issued => ⟨issued.issuer, ?_⟩
    exact .inl (issued.actor.elim id id)
  · rw [same, token]
    exact handler_writes svc call (some data)

/-- A request that runs alone leaves every table as it was, or its one write has its effect. -/
theorem respond_effect (svc : Service) (call : Call) (ms : Nat → Moment) (s : Store) :
    (respond svc call ms s).2.toTables = s.toTables ∨
      ∃ q m rows, q.IssuedBy call.route (call.caller svc) ∧
        Effect svc.loc m s q rows (respond svc call ms s).2 := by
  have reads : ∀ (q : Sql) (m : Moment) (t : Store), ¬ q.writes → (q.exec svc.loc m t).2 = t :=
    fun q m t reading => Sql.exec_reads reading rfl
  rcases Prog.run_writesOnce reads _ (serve_writes svc call) ms s with same | ⟨q, m, _, issued, after⟩
  · exact .inl (congrArg Store.toTables same)
  · have final : q.exec svc.loc m s = ((q.exec svc.loc m s).1, (respond svc call ms s).2) :=
      Prod.ext rfl after.symm
    rcases Sql.exec_cases final with same | ⟨rows, _, _, effect⟩
    · exact .inl same
    · exact .inr ⟨q, m, rows, issued, effect⟩

/-! ### What the other routes leave alone -/

/-- The users and the two relations between users and articles change only through their own
routes. A delete of an article does not reach its favorites. -/
structure TablesKept (route : Route) (t t' : Tables) : Prop where
  users : route ≠ .postUsers → route ≠ .putUser → t'.users = t.users
  followers : route ≠ .postProfiles → route ≠ .deleteProfiles → t'.followers = t.followers
  favorites : route ≠ .postArticlesSlugFavorite → route ≠ .deleteArticlesSlugFavorite →
    t'.favorites = t.favorites

theorem TablesKept.of_eq {route : Route} {t t' : Tables} (users : t'.users = t.users)
    (followers : t'.followers = t.followers) (favorites : t'.favorites = t.favorites) :
    TablesKept route t t' := ⟨fun _ _ => users, fun _ _ => followers, fun _ _ => favorites⟩

theorem Schema.Effect.kept {loc : DbLocale} {m : Moment} {s s' : Store} {q : Sql} {rows : List q.Row}
    {route : Route} (effect : Effect loc m s q rows s') (issued : q.issuer = some route) :
    TablesKept route s.toTables s'.toTables := by
  cases effect with
  | addNewArticle done =>
    obtain ⟨_, links, _, store⟩ := addNewArticle_store done
    rw [store]
    exact .of_eq rfl rfl rfl
  | follow done =>
    obtain ⟨_, _, _, rfl⟩ := follow_ok.mp done
    cases issued
    exact ⟨fun _ _ => rfl, fun other => absurd rfl other, fun _ _ => rfl⟩
  | unfollow done =>
    obtain rfl := unfollow_ok.mp done
    cases issued
    exact ⟨fun _ _ => rfl, fun _ other => absurd rfl other, fun _ _ => rfl⟩
  | updateArticleBySlug done =>
    obtain ⟨_, _, rfl⟩ := updateArticleBySlug_ok.mp done
    exact .of_eq rfl rfl rfl
  | deleteArticleBySlug done =>
    obtain ⟨_, rfl⟩ := deleteArticleBySlug_ok.mp done
    exact .of_eq rfl rfl rfl
  | addNewUser done =>
    obtain ⟨_, _, _, _, _, _, _, rfl⟩ := insertUsers_ok.mp done
    cases issued
    exact ⟨fun other => absurd rfl other, fun _ _ => rfl, fun _ _ => rfl⟩
  | updateUserById done =>
    obtain ⟨_, _, rfl⟩ := updateUserById_ok.mp done
    cases issued
    exact ⟨fun _ other => absurd rfl other, fun _ _ => rfl, fun _ _ => rfl⟩
  | addNewComment done =>
    obtain ⟨_, _, _, _, _, _, _, _, rfl⟩ := addCommentToArticle_ok.mp done
    exact .of_eq rfl rfl rfl
  | deleteComment done =>
    obtain ⟨_, _, rfl⟩ := deleteComment_ok.mp done
    exact .of_eq rfl rfl rfl
  | favoriteArticle done =>
    obtain ⟨_, _, _, _, _, rfl⟩ := favoriteArticle_ok.mp done
    cases issued
    exact ⟨fun _ _ => rfl, fun _ _ => rfl, fun other => absurd rfl other⟩
  | unfavoriteArticle done =>
    obtain ⟨_, _, rfl⟩ := unfavoriteArticle_ok.mp done
    cases issued
    exact ⟨fun _ _ => rfl, fun _ _ => rfl, fun _ other => absurd rfl other⟩

theorem respond_kept (svc : Service) (call : Call) (ms : Nat → Moment) (s : Store) :
    TablesKept call.route s.toTables (respond svc call ms s).2.toTables := by
  rcases respond_effect svc call ms s with same | ⟨q, m, rows, issued, effect⟩
  · rw [same]
    exact .of_eq rfl rfl rfl
  · exact effect.kept issued.issuer

end RealWorld
