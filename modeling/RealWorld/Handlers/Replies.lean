import RealWorld.Handlers.Requests

/-!
# What a request answers when it runs alone

The statement a handler writes with decides the answer: an error becomes the refusal of the handler, and
what was stored is read back.
-/

namespace RealWorld
open Schema Transactional

namespace Handlers

/-- What a handler makes of an error of the statement in its `try` block. -/
def refusal (fields : List (String × String)) : DbError → Except Exn Response
  | .uniqueViolation constraint =>
    match fields.lookup constraint with
    | some field => .ok ⟨422, makeError field "has already been taken"⟩
    | none => .error (.db (.uniqueViolation constraint))
  | e => .error (.db e)

section
variable {α : Type} {fields : List (String × String)} {rest : α → Program Response}

theorem tried_throw (e : DbError) : (do
    let a ← alreadyTaken fields (.throw (.db e) : Program (Response ⊕ α))
    afterTry a rest) = lift (refusal fields e) := by
  cases e with
  | uniqueViolation constraint =>
    unfold alreadyTaken
    rw [Prog.tryCatch_throw]
    cases found : fields.lookup constraint <;> simp only [refusal, found] <;> rfl
  | _ => rfl

variable {loc : DbLocale} {ms : Nat → Moment} {s s' : Store} {q : Sql} {f : List q.Row → Program (Response ⊕ α)}

theorem run_tried_error {e : DbError} (answer : q.exec loc (ms 0) s = (.error e, s')) : (do
    let a ← alreadyTaken fields (execute q >>= f)
    afterTry a rest).run (Sql.exec loc) ms s = (refusal fields e, s') := by
  show (Prog.exec q _).run _ _ _ = _
  rw [Prog.run, answer]
  refine (congrArg (fun p : Program Response => p.run (Sql.exec loc) (fun n => ms (n + 1)) s')
    (@tried_throw α fields rest e)).trans ?_
  cases refusal fields e <;> rfl

theorem run_tried_ok {rows : List q.Row} (answer : q.exec loc (ms 0) s = (.ok rows, s')) {result : Response ⊕ α}
    (returned : f rows = .pure result) : (do
    let a ← alreadyTaken fields (execute q >>= f)
    afterTry a rest).run (Sql.exec loc) ms s =
      (afterTry result rest).run (Sql.exec loc) (fun n => ms (n + 1)) s' := by
  show (Prog.exec q _).run _ _ _ = _
  rw [Prog.run, answer]
  show (do
    let a ← alreadyTaken fields (f rows)
    afterTry a rest).run _ _ _ = _
  rw [returned]
  rfl

/-! ### A request that was answered among others -/

variable {i : Nat} {es : List (Event Sql Sql.Res Store)} {response : Response} {β : Type}

theorem lift_answered {x : Except Exn β} {f : β → Program Response}
    (h : Follows (Sql.exec loc) i (lift x >>= f) es (.pure response)) :
    ∃ b, x = .ok b ∧ Follows (Sql.exec loc) i (f b) es (.pure response) := by
  rcases follows_lift h with done | ⟨_, _, _, ended⟩
  · exact done
  · cases ended

theorem execute_answered {f : List q.Row → Program Response}
    (h : Follows (Sql.exec loc) i (execute q >>= f) es (.pure response)) :
    ∃ m s rows s' rest, q.exec loc m s = (.ok rows, s') ∧ es = ⟨i, q, s, .ok rows, s'⟩ :: rest ∧
      Follows (Sql.exec loc) i (f rows) rest (.pure response) := by
  rcases follows_execute h with ⟨_, ended⟩ | done | ⟨_, _, _, _, _, _, ended⟩
  · cases ended
  · exact done
  · cases ended

theorem validated_answered {parsed : Except Exn β} {handle : β → Program Response}
    (h : Follows (Sql.exec loc) i (validated parsed handle) es (.pure response)) (success : response.success) :
    ∃ b, parsed = .ok b ∧ Follows (Sql.exec loc) i (handle b) es (.pure response) := by
  unfold validated at h
  split at h
  · exact ⟨_, rfl, h⟩
  · obtain ⟨_, answered⟩ := Follows.of_pure h
    cases answered
    cases success
  · obtain ⟨_, ended⟩ := Follows.of_throw h
    cases ended

theorem refused_answered {e : DbError} (h : Follows (Sql.exec loc) i (lift (refusal fields e)) es (.pure response)) :
    ¬ response.success := by
  cases e with
  | uniqueViolation constraint =>
    unfold refusal at h
    dsimp only at h
    split at h
    · obtain ⟨_, answered⟩ := Follows.of_pure h
      cases answered
      nofun
    · cases (Follows.of_throw h).2
  | _ => cases (Follows.of_throw h).2

/-- Nor did a step of a `try` block throw. -/
theorem tried_lift_answered {x : Except Exn β} {g : β → Program (Response ⊕ α)} (h : Follows (Sql.exec loc) i (do
      let a ← alreadyTaken fields (lift x >>= g)
      afterTry a rest) es (.pure response)) (success : response.success) :
    ∃ b, x = .ok b ∧ Follows (Sql.exec loc) i (do
      let a ← alreadyTaken fields (g b)
      afterTry a rest) es (.pure response) := by
  cases x with
  | ok b => exact ⟨b, rfl, h⟩
  | error e =>
    cases e with
    | db e =>
      have refused : Follows (Sql.exec loc) i (do
          let a ← alreadyTaken fields (.throw (.db e) : Program (Response ⊕ α))
          afterTry a rest) es (.pure response) := h
      rw [tried_throw] at refused
      exact absurd success (refused_answered refused)
    | _ => cases (Follows.of_throw h).2

/-- Nor was it refused by the statement in a `try` block. -/
theorem tried_answered (h : Follows (Sql.exec loc) i (do
      let a ← alreadyTaken fields (execute q >>= f)
      afterTry a rest) es (.pure response)) (success : response.success) :
    ∃ m s rows s' others, q.exec loc m s = (.ok rows, s') ∧ es = ⟨i, q, s, .ok rows, s'⟩ :: others ∧
      Follows (Sql.exec loc) i (do
        let a ← alreadyTaken fields (f rows)
        afterTry a rest) others (.pure response) := by
  rcases Follows.of_exec h with ⟨_, ended⟩ | ⟨m, s, r, s', others, answer, rfl, follows⟩
  · cases ended
  · cases r with
    | ok rows => exact ⟨m, s, rows, s', others, answer, rfl, follows⟩
    | error e =>
      have refused : Follows (Sql.exec loc) i (do
          let a ← alreadyTaken fields (.throw (.db e) : Program (Response ⊕ α))
          afterTry a rest) others (.pure response) := follows
      rw [tried_throw] at refused
      exact absurd success (refused_answered refused)

end

end Handlers

/-! ### Reading an article -/

/-- The names of an article's tags, in the order of the list. -/
def tagNames (loc : DbLocale) (t : Tables) (articleId : Int) : List String :=
  (getArticleTagList loc t articleId).filterMap id

theorem mem_tagNames {loc : DbLocale} {t : Tables} {articleId : Int} {name : String} :
    name ∈ tagNames loc t articleId ↔ some name ∈ getArticleTagList loc t articleId := by
  unfold tagNames
  rw [List.mem_filterMap]
  exact ⟨fun ⟨_, member, same⟩ => same ▸ member, fun member => ⟨_, member, rfl⟩⟩

/-- The article `a` of the user `u` as a single view shows it to `viewer`. -/
def Schema.Article.model (loc : DbLocale) (t : Tables) (viewer : Option Int) (u : User) (a : Article) : ArticleModel :=
  { articleId := a.articleId, title := a.title, slug := a.slug, description := a.description, body := a.body,
    createdAt := a.createdAt, updatedAt := a.updatedAt, tagList := some (tagNames loc t a.articleId),
    favorited := isFavoritedArticle t a.articleId viewer,
    favoritesCount := (favoritesOf t a.articleId).length, author := u.profile t viewer }

theorem mapM_filterMap {α : Type} {options : List (Option α)} (all : ∀ o ∈ options, ∃ a, o = some a) :
    options.mapM id = some (options.filterMap id) := by
  induction options with
  | nil => rfl
  | cons o options ih =>
    obtain ⟨⟨a, rfl⟩, others⟩ := List.forall_mem_cons.mp all
    rw [List.mapM_cons, ih others]
    rfl

theorem map_filterMap {α : Type} {options : List (Option α)} (all : ∀ o ∈ options, ∃ a, o = some a) :
    (options.filterMap id).map some = options := by
  induction options with
  | nil => rfl
  | cons o options ih =>
    obtain ⟨⟨a, rfl⟩, others⟩ := List.forall_mem_cons.mp all
    exact congrArg (some a :: ·) (ih others)

section
variable {svc : Service} {s : Store} {a : Article}

theorem map_tagNames (h : Valid svc.loc s) (articleId : Int) :
    (tagNames svc.loc s.toTables articleId).map some = getArticleTagList svc.loc s.toTables articleId :=
  map_filterMap (getArticleTagList_named h.named articleId)

theorem read_shown (h : Valid svc.loc s) (viewer : Option Int) (u : User) :
    ArticleModel.read (a.shown svc.loc s.toTables (isFavoritedArticle s.toTables a.articleId viewer)
      (favoritesOf s.toTables a.articleId).length (u.profile s.toTables viewer)) =
        .ok (a.model svc.loc s.toTables viewer u) := by
  unfold ArticleModel.read Article.shown Article.select
  dsimp only
  rw [mapM_filterMap (getArticleTagList_named h.named a.articleId)]
  rfl

/-- The read with which three handlers end. -/
theorem run_showArticle (h : Valid svc.loc s) (member : a ∈ s.articles) (userId : Int) (ms : Nat → Moment) :
    ∃ u ∈ s.users, u.userId = a.authorId ∧
      (Handlers.showArticle svc a.articleId userId).run (Sql.exec svc.loc) ms s =
        (.ok ⟨200, articleBody svc (a.model svc.loc s.toTables (some userId) u)⟩, s) := by
  obtain ⟨u, mem, author, found⟩ := getArticleWithAuthorProfile_of h.toConstraints member (some userId)
  refine ⟨u, mem, author, ?_⟩
  have answer : (Sql.getArticleWithAuthorProfile a.articleId (some userId)).exec svc.loc (ms 0) s =
      (.ok (getArticleWithAuthorProfile svc.loc s.toTables a.articleId (some userId)), s) := rfl
  unfold Handlers.showArticle
  rw [run_execute_ok answer, found, articleResponse_single (read_shown h (some userId) u)]
  rfl

theorem run_getArticle (h : Valid svc.loc s) (member : a ∈ s.articles) {request : HttpRequest}
    (named : request.getPathArg "slug" = a.slug) (auth : Option UserAuthData) (ms : Nat → Moment) :
    ∃ u ∈ s.users, u.userId = a.authorId ∧
      (Handlers.ArticlesSlug.Get.handleRequestJsonThrow svc request auth).run (Sql.exec svc.loc) ms s =
        (.ok ⟨200, articleBody svc (a.model svc.loc s.toTables (auth.map (·.id)) u)⟩, s) := by
  obtain ⟨u, mem, author, found⟩ := getArticleWithAuthorProfile_of h.toConstraints member (auth.map (·.id))
  refine ⟨u, mem, author, ?_⟩
  have text : (Sql.getArticleWithAuthorProfileBySlug a.slug (auth.map (·.id))).texts.all storable := by
    simpa [Sql.texts] using h.text_articles a member
  have answer : (Sql.getArticleWithAuthorProfileBySlug a.slug (auth.map (·.id))).exec svc.loc (ms 0) s =
      (.ok (getArticleWithAuthorProfile svc.loc s.toTables a.articleId (auth.map (·.id))), s) := by
    rw [Sql.exec_storable text, ← getArticleWithAuthorProfileBySlug_of h.toConstraints member]
    rfl
  unfold Handlers.ArticlesSlug.Get.handleRequestJsonThrow
  rw [named, run_execute_ok answer, found]
  simp only [List.isEmpty_cons, Bool.false_eq_true, if_false]
  rw [articleResponse_single (read_shown h (auth.map (·.id)) u)]
  rfl

theorem getArticle_success (h : Valid svc.loc s) (member : a ∈ s.articles) {call : Call} {ms : Nat → Moment}
    (get : call.route = .getArticlesSlug) (named : call.request.getPathArg "slug" = a.slug)
    (success : (respond svc call ms s).1.success) : ∃ viewer, ∃ u ∈ s.users, u.userId = a.authorId ∧
      (respond svc call ms s).1 = ⟨200, articleBody svc (a.model svc.loc s.toTables viewer u)⟩ := by
  have shown : ∀ auth, serve svc call = handler svc call auth → ∃ viewer, ∃ u ∈ s.users, u.userId = a.authorId ∧
      (respond svc call ms s).1 = ⟨200, articleBody svc (a.model svc.loc s.toTables viewer u)⟩ := by
    intro auth entered
    obtain ⟨u, mem, author, ran⟩ := run_getArticle h member named auth ms
    refine ⟨auth.map (·.id), u, mem, author, ?_⟩
    unfold respond
    rw [entered, handler, get]
    exact congrArg (fun outcome => Response.ofExcept outcome.1) ran
  rcases serve_cases svc call with ⟨reason, same⟩ | ⟨e, same⟩ | ⟨_, entered⟩ | ⟨data, _, entered⟩
  · unfold respond at success
    rw [same] at success
    cases success
  · unfold respond at success
    rw [same] at success
    exact absurd success (Response.not_success_error e)
  · exact shown none entered
  · exact shown (some data) entered

end

/-- A `try` block entered with what is to be shown. -/
theorem ensures_known {α : Type} {svc : Service} {s : Store} {body : Program (Response ⊕ α)} {rest : α → Program Response}
    {fact : Prop} (known : fact) : body.Ensures (Sql.exec svc.loc) s fun r s' => match r with
      | .ok (.inr a) => (rest a).Ensures (Sql.exec svc.loc) s' fun r _ => Succeeds r → fact
      | .ok (.inl response) => Succeeds (.ok response) → fact
      | .error _ => True := by
  intro ms
  split
  · exact fun _ _ => known
  · exact fun _ => known
  · trivial

theorem refusal_unsuccessful (fields : List (String × String)) (e : DbError) :
    ¬ (Response.ofExcept (Handlers.refusal fields e)).success := by
  cases e with
  | uniqueViolation constraint =>
    unfold Handlers.refusal
    dsimp only
    split <;> nofun
  | _ => nofun

/-! ### Reading a response -/

/-- `["article"][name]` of a response. -/
def Response.articleText (r : Response) (name : String) : Except Exn String := do
  (← (← Value.member (some r.body) "article").member name).asString

/-- `["article"]["tagList"]` of a response. -/
def Response.articleTags (r : Response) : Except Exn (Option (List String)) := do
  (← (← Value.member (some r.body) "article").member "tagList").asOptionalStrings

theorem asOptionalStrings_array (texts : List String) :
    Value.asOptionalStrings (some (.arr (texts.map .str))) = .ok (some texts) := by
  have each : (texts.map Json.str).mapM (fun item => Value.asString (some item)) = .ok texts := by
    induction texts with
    | nil => rfl
    | cons text texts ih =>
      rw [List.map_cons, List.mapM_cons, ih]
      rfl
  show some <$> (texts.map Json.str).mapM (fun item => Value.asString (some item)) = _
  rw [each]
  rfl

theorem articleTags_model (svc : Service) (t : Tables) (viewer : Option Int) (u : User) (a : Article) :
    Response.articleTags ⟨200, articleBody svc (a.model svc.loc t viewer u)⟩ =
      .ok (some (tagNames svc.loc t a.articleId)) := asOptionalStrings_array _

/-! ### A new article -/

/-- A request for a new article that passes its parser, with the token of a user. -/
structure PublishRequest (svc : Service) (call : Call) (newArticle : Dto.NewArticleRequest) (slug : String)
    (caller : Int) : Prop where
  route : call.route = .postArticles
  parsed : Handlers.Articles.Post.parsed svc call.request = .ok newArticle
  slugged : slugify svc.icu newArticle.title = .ok slug
  caller : ∃ data, call.caller svc = some data ∧ data.id = caller

abbrev publishSql (newArticle : Dto.NewArticleRequest) (slug : String) (caller : Int) : Sql :=
  .addNewArticle newArticle.title slug newArticle.description newArticle.body caller newArticle.tagList

section
variable {svc : Service} {call : Call} {s s' : Store} {ms : Nat → Moment} {newArticle : Dto.NewArticleRequest}
  {slug : String} {caller : Int}

theorem PublishRequest.of_success (post : call.route = .postArticles) (success : (respond svc call ms s).1.success) :
    ∃ newArticle slug caller, PublishRequest svc call newArticle slug caller := by
  obtain ⟨data, token⟩ := success_caller (by rw [post]; rfl) success
  have accepted : OnSuccess svc s (serve svc call) fun _ =>
      ∃ newArticle slug caller, PublishRequest svc call newArticle slug caller := by
    rw [serve_caller token (by rw [post]; rfl), handler, post]
    refine .validated fun newArticle parsed => .lift fun user _ => ?_
    refine ensures_tried (fun _ => True) ?_ fun _ _ _ failed success => absurd success failed
    refine ensures_lift (fun slug slugged => ?_) fun _ _ => trivial
    exact ensures_known ⟨newArticle, slug, data.id, post, parsed, slugged, data, token, rfl⟩
  exact accepted.respond success

theorem PublishRequest.serve_eq (request : PublishRequest svc call newArticle slug caller) :
    serve svc call = (do
      let articleId ← Handlers.alreadyTaken [("uniq_slug", "slug")] (do
        let res ← execute (publishSql newArticle slug caller)
        let articleId ← lift (asSingleRow res)
        return .inr articleId)
      Handlers.afterTry articleId fun articleId => Handlers.showArticle svc articleId caller) := by
  obtain ⟨post, parsed, slugged, data, token, rfl⟩ := request
  rw [serve_caller token (by rw [post]; rfl), handler, post]
  unfold Handlers.Articles.Post.parsed at parsed
  simp only [Handlers.Articles.Post.handleRequestJsonThrow, parsed, Handlers.validated, Handlers.getData, lift_ok,
    slugged]
  rfl

theorem PublishRequest.refused (request : PublishRequest svc call newArticle slug caller) {e : DbError}
    (answer : (publishSql newArticle slug caller).exec svc.loc (ms 0) s = (.error e, s')) :
    respond svc call ms s = (Response.ofExcept (Handlers.refusal [("uniq_slug", "slug")] e), s') := by
  unfold respond
  rw [request.serve_eq, Handlers.run_tried_error answer]

/-- The row a new article is stored as. -/
def newRow (m : Moment) (newArticle : Dto.NewArticleRequest) (slug : String) (caller articleId : Int) : Article :=
  { articleId := articleId, title := newArticle.title, slug := slug, description := newArticle.description,
    body := newArticle.body, authorId := caller, createdAt := m.now, updatedAt := m.now }

theorem PublishRequest.stored (request : PublishRequest svc call newArticle slug caller) (h : Valid svc.loc s)
    {rows : List Int} (answer : (publishSql newArticle slug caller).exec svc.loc (ms 0) s = (.ok rows, s')) :
    ∃ articleId, addNewArticle (ms 0) newArticle.title slug newArticle.description newArticle.body caller
        newArticle.tagList s = .ok articleId s' ∧
      newRow (ms 0) newArticle slug caller articleId ∈ s'.articles ∧ ∃ u ∈ s'.users, u.userId = caller ∧
        respond svc call ms s = (⟨200, articleBody svc
          ((newRow (ms 0) newArticle slug caller articleId).model svc.loc s'.toTables (some caller) u)⟩, s') := by
  have valid : Valid svc.loc s' := by
    have kept := h.exec (m := ms 0) (publishSql newArticle slug caller)
    rwa [answer] at kept
  cases Sql.exec_effect (by trivial) answer with
  | @addNewArticle _ _ _ _ _ articleId _ _ done =>
    have member : newRow (ms 0) newArticle slug caller articleId ∈ s'.articles := by
      obtain ⟨_, links, _, store⟩ := addNewArticle_store done
      rw [store]
      exact List.mem_concat_self
    obtain ⟨u, mem, author, shown⟩ := run_showArticle valid member caller fun n => ms (n + 1)
    refine ⟨articleId, done, member, u, mem, author, ?_⟩
    unfold respond
    rw [request.serve_eq, Handlers.run_tried_ok answer rfl]
    exact congrArg (fun outcome => (Response.ofExcept outcome.1, outcome.2)) shown

theorem PublishRequest.executed (request : PublishRequest svc call newArticle slug caller)
    (success : (respond svc call ms s).1.success) :
    ∃ rows s', (publishSql newArticle slug caller).exec svc.loc (ms 0) s = (.ok rows, s') := by
  obtain ⟨r, s', executed⟩ : ∃ r s', (publishSql newArticle slug caller).exec svc.loc (ms 0) s = (r, s') := ⟨_, _, rfl⟩
  cases r with
  | error e =>
    rw [request.refused executed] at success
    exact absurd success (refusal_unsuccessful _ e)
  | ok rows => exact ⟨rows, s', executed⟩

theorem PublishRequest.texts (request : PublishRequest svc call newArticle slug caller)
    (success : (respond svc call ms s).1.success) : ∀ text ∈ (publishSql newArticle slug caller).texts, storable text := by
  obtain ⟨rows, s', executed⟩ := request.executed success
  exact List.all_eq_true.mp (Sql.exec_ok.mp executed).1

theorem PublishRequest.succeeded (request : PublishRequest svc call newArticle slug caller) (h : Valid svc.loc s)
    (success : (respond svc call ms s).1.success) :
    ∃ articleId, addNewArticle (ms 0) newArticle.title slug newArticle.description newArticle.body caller
        newArticle.tagList s = .ok articleId (respond svc call ms s).2 ∧
      newRow (ms 0) newArticle slug caller articleId ∈ (respond svc call ms s).2.articles ∧
      ∃ u ∈ (respond svc call ms s).2.users, u.userId = caller ∧ (respond svc call ms s).1 = ⟨200, articleBody svc
        ((newRow (ms 0) newArticle slug caller articleId).model svc.loc (respond svc call ms s).2.toTables
          (some caller) u)⟩ := by
  obtain ⟨rows, s', executed⟩ := request.executed success
  obtain ⟨articleId, done, member, u, mem, author, same⟩ := request.stored h executed
  rw [same]
  exact ⟨articleId, done, member, u, mem, author, rfl⟩

end

/-! ### An article update -/

/-- A request for an article update that passes its parser, with the token of a user. -/
structure EditRequest (svc : Service) (call : Call) (update : Dto.UpdateArticleRequest) (newSlug : Option String)
    (caller : Int) : Prop where
  route : call.route = .putArticlesSlug
  parsed : Handlers.ArticlesSlug.Put.parsed call.request = .ok update
  slugged : update.title.mapM (slugify svc.icu) = .ok newSlug
  caller : ∃ data, call.caller svc = some data ∧ data.id = caller

abbrev editSql (update : Dto.UpdateArticleRequest) (newSlug : Option String) (caller : Int) : Sql :=
  .updateArticleBySlug update.slug caller update.title newSlug update.description update.body

/-- The `try` block of the handler. -/
def editBlock (update : Dto.UpdateArticleRequest) (newSlug : Option String) (caller : Int) :
    Program (Response ⊕ Int) := do
  let res ← execute (editSql update newSlug caller)
  if res.isEmpty then return .inl ⟨404, .null⟩
  let articleId ← lift (asSingleRow res)
  return .inr articleId

section
variable {svc : Service} {call : Call} {s s' : Store} {ms : Nat → Moment} {update : Dto.UpdateArticleRequest}
  {newSlug : Option String} {caller : Int}

theorem EditRequest.of_success (put : call.route = .putArticlesSlug) (success : (respond svc call ms s).1.success) :
    ∃ update newSlug caller, EditRequest svc call update newSlug caller := by
  obtain ⟨data, token⟩ := success_caller (by rw [put]; rfl) success
  have accepted : OnSuccess svc s (serve svc call) fun _ =>
      ∃ update newSlug caller, EditRequest svc call update newSlug caller := by
    rw [serve_caller token (by rw [put]; rfl), handler, put]
    refine .validated fun update parsed => .lift fun user _ => ?_
    refine ensures_tried (fun _ => True) ?_ fun _ _ _ failed success => absurd success failed
    have requested : ∀ newSlug, update.title.mapM (slugify svc.icu) = .ok newSlug →
        EditRequest svc call update newSlug data.id :=
      fun newSlug slugged => ⟨put, parsed, slugged, data, token, rfl⟩
    cases given : update.title with
    | none =>
      exact ensures_known ⟨_, _, _, requested none (by rw [given]; rfl)⟩
    | some title =>
      refine ensures_lift (fun newSlug slugged => ?_) fun _ _ => trivial
      exact ensures_known ⟨_, _, _, requested newSlug (by rw [given]; exact slugged)⟩
  exact accepted.respond success

theorem EditRequest.serve_eq (request : EditRequest svc call update newSlug caller) :
    serve svc call = (do
      let articleId ← Handlers.alreadyTaken [("uniq_slug", "slug")] (editBlock update newSlug caller)
      Handlers.afterTry articleId fun articleId => Handlers.showArticle svc articleId caller) := by
  obtain ⟨put, parsed, slugged, data, token, rfl⟩ := request
  rw [serve_caller token (by rw [put]; rfl), handler, put]
  unfold Handlers.ArticlesSlug.Put.parsed at parsed
  simp only [Handlers.ArticlesSlug.Put.handleRequestJsonThrow, parsed, Handlers.validated, Handlers.getData, lift_ok]
  obtain ⟨oldSlug, title, description, body, tagList⟩ := update
  cases title with
  | none =>
    cases slugged
    rfl
  | some title =>
    obtain ⟨slug, same, slugged⟩ := checked_bind.mp slugged
    cases slugged
    simp only [same]
    rfl

theorem EditRequest.refused (request : EditRequest svc call update newSlug caller) {e : DbError}
    (answer : (editSql update newSlug caller).exec svc.loc (ms 0) s = (.error e, s')) :
    respond svc call ms s = (Response.ofExcept (Handlers.refusal [("uniq_slug", "slug")] e), s') := by
  unfold respond
  rw [request.serve_eq, editBlock, Handlers.run_tried_error answer]

theorem EditRequest.absent (request : EditRequest svc call update newSlug caller)
    (answer : (editSql update newSlug caller).exec svc.loc (ms 0) s = (.ok [], s')) :
    respond svc call ms s = (⟨404, .null⟩, s') := by
  unfold respond
  rw [request.serve_eq, editBlock, Handlers.run_tried_ok answer rfl]
  rfl

theorem EditRequest.stored (request : EditRequest svc call update newSlug caller) (h : Valid svc.loc s) {a : Article}
    (answer : (editSql update newSlug caller).exec svc.loc (ms 0) s = (.ok [a.articleId], s'))
    (member : a ∈ s'.articles) : ∃ u ∈ s'.users, u.userId = a.authorId ∧
      respond svc call ms s = (⟨200, articleBody svc (a.model svc.loc s'.toTables (some caller) u)⟩, s') := by
  have valid : Valid svc.loc s' := by
    have kept := h.exec (m := ms 0) (editSql update newSlug caller)
    rwa [answer] at kept
  obtain ⟨u, mem, author, shown⟩ := run_showArticle valid member caller fun n => ms (n + 1)
  refine ⟨u, mem, author, ?_⟩
  unfold respond
  rw [request.serve_eq, editBlock, Handlers.run_tried_ok answer rfl]
  exact congrArg (fun outcome => (Response.ofExcept outcome.1, outcome.2)) shown

/-- The row of `a` as the update leaves it. -/
abbrev editedRow (m : Moment) (update : Dto.UpdateArticleRequest) (newSlug : Option String) (a : Article) : Article :=
  a.update m update.title newSlug update.description update.body

theorem EditRequest.succeeded (request : EditRequest svc call update newSlug caller) (h : Valid svc.loc s)
    (success : (respond svc call ms s).1.success) :
    ∃ a ∈ s.articles, a.slug = update.slug ∧ a.authorId = caller ∧
      (∀ b ∈ s.articles, b.slug = newSlug.getD a.slug → b.articleId = a.articleId) ∧
      (respond svc call ms s).2 = { s with toTables := s.toTables.replaceArticle (editedRow (ms 0) update newSlug a) } ∧
      ∃ u ∈ s.users, u.userId = caller ∧ (respond svc call ms s).1 = ⟨200, articleBody svc
        ((editedRow (ms 0) update newSlug a).model svc.loc (respond svc call ms s).2.toTables (some caller) u)⟩ := by
  cases answer : ((editSql update newSlug caller).exec svc.loc (ms 0) s).1 with
  | error e =>
    rw [request.refused (Prod.ext answer rfl)] at success
    exact absurd success (refusal_unsuccessful _ e)
  | ok rows =>
    obtain ⟨s', executed⟩ : ∃ s', (editSql update newSlug caller).exec svc.loc (ms 0) s = (.ok rows, s') :=
      ⟨_, Prod.ext answer rfl⟩
    cases Sql.exec_effect (by trivial) executed with
    | updateArticleBySlug done =>
      by_cases owned : ∃ a ∈ s.articles, a.slug = update.slug ∧ a.authorId = caller
      · obtain ⟨a, member, slug, rfl⟩ := owned
        rw [← slug] at done
        obtain ⟨⟨_, _, free⟩, rfl, rfl⟩ := (updateArticleBySlug_own h.toConstraints member).mp done
        have stored := (mem_replaceArticle member (editedRow (ms 0) update newSlug a) rfl).mpr (.inl rfl)
        obtain ⟨u, mem, author, same⟩ := request.stored (a := editedRow (ms 0) update newSlug a) h executed stored
        exact ⟨a, member, slug, rfl, free, congrArg Prod.snd same, u, mem, author, by rw [same]⟩
      · cases done.symm.trans (updateArticleBySlug_unowned fun a member hit => owned ⟨a, member, hit⟩)
        rw [request.absent executed] at success
        cases success

end

end RealWorld
