import RealWorld.Handlers.Writes
import RealWorld.Runs
import RealWorld.Schema.Lists

/-!
# The following flag

Seven queries show the profile of a user to a viewer, and each passes the viewer on to `get_profile` or repeats its
condition. The test `_follower_id = NULL` is never TRUE, so for nobody as well the flag is what EXISTS finds in
`followers`.
-/

namespace RealWorld
open Schema Relational Transactional

/-- The argument that tells a query for whom it shows profiles; NULL is nobody. -/
def Schema.Sql.viewer : Sql → Option (Option Int)
  | .getProfileByUsername _ viewer | .getArticleWithAuthorProfileBySlug _ viewer | .getArticleWithAuthorProfile _ viewer
  | .getArticlesWithAuthorProfile _ _ _ viewer _ _ | .getCommentsFromArticle _ viewer | .getComment _ viewer => some viewer
  | .getFeed userId _ _ => some (some userId)
  | _ => none

/-- The article is written by `x`. -/
def ShowsAuthor (t : Tables) (x : User) (row : ArticleWithAuthorProfile) : Prop :=
  ∃ a ∈ t.articles, a.articleId = row.articleId ∧ a.authorId = x.userId

/-- The comment is written by `x`. -/
def ShowsCommenter (t : Tables) (x : User) (row : RealworldComment) : Prop :=
  ∃ c ∈ t.comments, c.commentId = row.commentId ∧ c.authorId = x.userId

/-- A row of the query shows `profile` for `x`. -/
def Schema.Sql.ShowsUser (t : Tables) (x : User) (profile : Profile) : (q : Sql) → q.Row → Prop
  | .getProfileByUsername .., row => row = profile ∧ x.username = row.username
  | .getArticleWithAuthorProfileBySlug .., row => row.author = profile ∧ ShowsAuthor t x row
  | .getArticleWithAuthorProfile .., row => row.author = profile ∧ ShowsAuthor t x row
  | .getArticlesWithAuthorProfile .., row => row.author = profile ∧ ShowsAuthor t x row
  | .getFeed .., row => row.author = profile ∧ ShowsAuthor t x row
  | .getCommentsFromArticle .., row => row.author = profile ∧ ShowsCommenter t x row
  | .getComment .., row => row.author = profile ∧ ShowsCommenter t x row
  | _, _ => False

section
variable {loc : DbLocale} {t : Tables} {viewer : Option Int} {x : User}

theorem isFollowing_iff {followed : Int} : isFollowing t viewer (some followed) = true ↔
    ∃ v, viewer = some v ∧ { follower := v, followed := followed : Follower } ∈ t.followers := by
  unfold isFollowing
  rw [List.any_eq_true]
  constructor
  · rintro ⟨⟨v, _⟩, member, same⟩
    simp only [isTrue_and, isTrue_eq, Bool.and_eq_true, decide_eq_true_eq, Option.some.injEq] at same
    obtain ⟨rfl, rfl⟩ := same
    exact ⟨v, rfl, member⟩
  · rintro ⟨v, rfl, member⟩
    exact ⟨_, member, by simp⟩

theorem isFollowing_nobody {followed : Option Int} : isFollowing t none followed = false := by
  simp [isFollowing]

theorem mem_getProfile {id : Int} {p : Profile} : p ∈ getProfile t id viewer ↔
    ∃ u ∈ t.users, u.userId = id ∧ p = u.profile t viewer := by
  unfold getProfile
  simp only [List.mem_map, List.mem_filter, decide_eq_true_eq, eq_none, caseWhen, isTrue_none, Bool.false_eq_true, if_false]
  constructor
  · rintro ⟨u, ⟨member, rfl⟩, rfl⟩
    exact ⟨u, member, rfl, rfl⟩
  · rintro ⟨u, member, rfl, rfl⟩
    exact ⟨u, ⟨member, rfl⟩, rfl⟩

theorem mem_getProfileByUsername {username : String} {p : Profile} (member : p ∈ getProfileByUsername loc t username viewer) :
    ∃ u ∈ t.users, p = u.profile t viewer := by
  unfold getProfileByUsername at member
  simp only [List.mem_map, List.mem_filter, eq_none, caseWhen, isTrue_none, Bool.false_eq_true, if_false] at member
  obtain ⟨u, ⟨stored, _⟩, rfl⟩ := member
  exact ⟨u, stored, rfl⟩

/-- The row shows the profile of the author of an article. -/
def ArticleAuthored (t : Tables) (viewer : Option Int) (row : ArticleWithAuthorProfile) : Prop :=
  ∃ a ∈ t.articles, a.articleId = row.articleId ∧ ∃ u ∈ t.users, u.userId = a.authorId ∧ row.author = u.profile t viewer

/-- The row shows the profile of the author of a comment. -/
def CommentAuthored (t : Tables) (viewer : Option Int) (row : RealworldComment) : Prop :=
  ∃ c ∈ t.comments, c.commentId = row.commentId ∧ ∃ u ∈ t.users, u.userId = c.authorId ∧ row.author = u.profile t viewer

theorem getArticleWithAuthorProfile_authored {id : Int} {row : ArticleWithAuthorProfile}
    (member : row ∈ getArticleWithAuthorProfile loc t id viewer) : ArticleAuthored t viewer row := by
  obtain ⟨a, found, shown⟩ := List.mem_flatMap.mp member
  obtain ⟨p, profile, rfl⟩ := List.mem_map.mp shown
  obtain ⟨u, user, author, rfl⟩ := mem_getProfile.mp profile
  exact ⟨a, (List.mem_filter.mp found).1, rfl, u, user, author, rfl⟩

theorem getArticleWithAuthorProfileBySlug_authored {slug : String} {row : ArticleWithAuthorProfile}
    (member : row ∈ getArticleWithAuthorProfileBySlug loc t slug viewer) : ArticleAuthored t viewer row := by
  unfold getArticleWithAuthorProfileBySlug at member
  split at member
  · cases member
  · exact getArticleWithAuthorProfile_authored member

theorem getComment_authored {id : Int} {row : RealworldComment} (member : row ∈ getComment t id viewer) :
    CommentAuthored t viewer row := by
  obtain ⟨c, found, shown⟩ := List.mem_flatMap.mp member
  obtain ⟨_, _, shown⟩ := List.mem_flatMap.mp shown
  obtain ⟨p, profile, rfl⟩ := List.mem_map.mp shown
  obtain ⟨u, user, author, rfl⟩ := mem_getProfile.mp profile
  exact ⟨c, (List.mem_filter.mp found).1, rfl, u, user, author, rfl⟩

theorem getCommentsFromArticle_authored {m : Moment} {slug : String} {row : RealworldComment}
    (member : row ∈ getCommentsFromArticle m t slug viewer) : CommentAuthored t viewer row := by
  obtain ⟨⟨c, a⟩, scanned, shown⟩ := List.mem_flatMap.mp member
  obtain ⟨p, profile, rfl⟩ := List.mem_map.mp shown
  obtain ⟨u, user, author, rfl⟩ := mem_getProfile.mp profile
  have joined := (List.mem_filter.mp ((m.scan_perm _).subset scanned)).1
  obtain ⟨c', stored, pair⟩ := List.mem_flatMap.mp joined
  obtain ⟨_, _, same⟩ := List.mem_map.mp pair
  cases same
  exact ⟨c, stored, rfl, u, user, author, rfl⟩

/-- `profile` is what `viewer` sees of the one user that `owner` describes. -/
def ShownOf (t : Tables) (viewer : Option Int) (owner : User → Prop) (profile : Profile) : Prop :=
  (∃ x ∈ t.users, owner x) ∧ ∀ x ∈ t.users, owner x → profile = x.profile t viewer

theorem ArticleAuthored.shown (h : Constraints loc t) {row : ArticleWithAuthorProfile} (authored : ArticleAuthored t viewer row) :
    ShownOf t viewer (fun x => ShowsAuthor t x row) row.author := by
  obtain ⟨a, member, same, u, user, author, shown⟩ := authored
  refine ⟨⟨u, user, a, member, same, author.symm⟩, ?_⟩
  rintro x stored ⟨b, mem, same', written⟩
  obtain rfl := article_eq h mem member (same'.trans same.symm)
  rw [shown, user_eq h user stored (author.trans written)]

theorem CommentAuthored.shown (h : Constraints loc t) {row : RealworldComment} (authored : CommentAuthored t viewer row) :
    ShownOf t viewer (fun x => ShowsCommenter t x row) row.author := by
  obtain ⟨c, member, same, u, user, author, shown⟩ := authored
  refine ⟨⟨u, user, c, member, same, author.symm⟩, ?_⟩
  rintro x stored ⟨d, mem, same', written⟩
  obtain rfl := key_inj h.pk_comments mem member (same'.trans same.symm)
  rw [shown, user_eq h user stored (author.trans written)]

/-- No two users have a name in common, whatever the case of its letters. -/
theorem getProfileByUsername_shown (h : Constraints loc t) {username : String} {p : Profile}
    (member : p ∈ getProfileByUsername loc t username viewer) :
    ShownOf t viewer (fun x => x.username = p.username) p := by
  obtain ⟨u, user, rfl⟩ := mem_getProfileByUsername member
  refine ⟨⟨u, user, rfl⟩, fun x stored same => ?_⟩
  rw [key_inj h.uniq_username stored user (congrArg loc.citextLower same)]

theorem ShownOf.shows {owner : User → Prop} {row : Profile} (shown : ShownOf t viewer owner row) :
    (∃ x ∈ t.users, ∃ profile, row = profile ∧ owner x) ∧
      ∀ x ∈ t.users, ∀ profile, row = profile ∧ owner x → profile = x.profile t viewer := by
  obtain ⟨⟨x, stored, owns⟩, all⟩ := shown
  exact ⟨⟨x, stored, row, rfl, owns⟩, fun y mem _ both => both.1 ▸ all y mem both.2⟩

end

section
variable {loc : DbLocale} {m : Moment} {s s' : Store} {q : Sql} {rows : List q.Row} {row : q.Row} {viewer : Option Int}

/-- Each row of the seven queries shows somebody, with the profile the viewer sees. -/
theorem Schema.Sql.shows_profile (h : Constraints loc s.toTables) (view : q.viewer = some viewer)
    (answer : q.exec loc m s = (.ok rows, s')) (member : row ∈ rows) :
    (∃ x ∈ s.users, ∃ profile, q.ShowsUser s.toTables x profile row) ∧
      ∀ x ∈ s.users, ∀ profile, q.ShowsUser s.toTables x profile row → profile = x.profile s.toTables viewer := by
  have answered := (Sql.exec_ok.mp answer).2
  cases q with
  | getProfileByUsername =>
    cases view
    cases answered
    exact (getProfileByUsername_shown h member).shows
  | getArticleWithAuthorProfileBySlug =>
    cases view
    cases answered
    exact ((getArticleWithAuthorProfileBySlug_authored member).shown h).shows
  | getArticleWithAuthorProfile =>
    cases view
    cases answered
    exact ((getArticleWithAuthorProfile_authored member).shown h).shows
  | getArticlesWithAuthorProfile =>
    cases view
    obtain ⟨a, mem, u, user, author, rfl⟩ := mem_getArticlesWithAuthorProfile h (congrArg Prod.fst answered) member
    exact (ArticleAuthored.shown h ⟨a, mem, rfl, u, user, author, rfl⟩).shows
  | getFeed =>
    cases view
    obtain ⟨a, mem, _, u, user, author, rfl⟩ := mem_getFeed h (congrArg Prod.fst answered) member
    exact (ArticleAuthored.shown h ⟨a, mem, rfl, u, user, author, rfl⟩).shows
  | getCommentsFromArticle =>
    cases view
    cases answered
    exact ((getCommentsFromArticle_authored member).shown h).shows
  | getComment =>
    cases view
    cases answered
    exact ((getComment_authored member).shown h).shows
  | _ => cases view

end

/-! ### Who the viewer is -/

/-- Whatever profiles the statement shows, it shows to `viewer`. -/
def Schema.Sql.ShownTo (viewer : Option Int) (q : Sql) : Prop := ∀ v, q.viewer = some v → v = viewer

namespace Handlers

variable {svc : Service} {request : HttpRequest} {auth : Option UserAuthData} {data : UserAuthData}

theorem showArticle_shownTo {articleId : Int} :
    (showArticle svc articleId data.id).All (Sql.ShownTo ((some data).map (·.id))) :=
  all_execute (fun _ same => (Option.some.inj same).symm) fun _ => articleResponse_all

theorem getData_shownTo {f : UserAuthData → Program Response}
    (rest : ∀ data, auth = some data → (f data).All (Sql.ShownTo (auth.map (·.id)))) :
    (lift (getData auth) >>= f).All (Sql.ShownTo (auth.map (·.id))) := by
  cases auth with
  | none => trivial
  | some data => exact rest data rfl

theorem Articles.Post.shownTo :
    (Articles.Post.handleRequestJsonThrow svc request auth).All (Sql.ShownTo (auth.map (·.id))) := by
  refine all_validated fun newArticle _ => getData_shownTo fun data same => ?_
  subst same
  refine .bind (all_alreadyTaken ?_) fun _ => all_afterTry fun _ => showArticle_shownTo
  exact all_lift fun _ _ => all_execute nofun fun _ => all_lift fun _ _ => trivial

theorem ArticlesSlug.Put.shownTo :
    (ArticlesSlug.Put.handleRequestJsonThrow svc request auth).All (Sql.ShownTo (auth.map (·.id))) := by
  refine all_validated fun update _ => getData_shownTo fun data same => ?_
  subst same
  refine .bind (all_alreadyTaken ?_) fun _ => all_afterTry fun _ => showArticle_shownTo
  have statement : ∀ title newSlug, (do
      let res ← execute (.updateArticleBySlug update.slug data.id title newSlug update.description update.body)
      if res.isEmpty then return .inl ⟨404, .null⟩
      let articleId ← lift (asSingleRow res)
      return .inr articleId : Program (Response ⊕ Int)).All (Sql.ShownTo ((some data).map (·.id))) := by
    refine fun title newSlug => all_execute nofun fun rows => ?_
    split
    · trivial
    · exact all_lift fun _ _ => trivial
  cases update.title with
  | none => exact statement none none
  | some title => exact all_lift fun newSlug _ => statement (some title) newSlug

theorem ArticlesSlugComments.Post.shownTo :
    (ArticlesSlugComments.Post.handleRequestJsonThrow svc request auth).All (Sql.ShownTo (auth.map (·.id))) := by
  refine all_validated fun comment parsed => ?_
  obtain ⟨value, _, accepted⟩ := checked_bind.mp parsed
  obtain ⟨_, data, rfl, same⟩ := parseRequest_user accepted
  refine all_execute nofun fun rows => all_lift fun commentId _ => ?_
  refine all_execute (fun v shown => ?_) fun _ => all_lift fun _ _ => trivial
  exact (Option.some.inj shown).symm.trans (congrArg some same)

theorem markArticle_shownTo {write : String → Int → Sql} (unseen : ∀ slug userId, (write slug userId).viewer = none) :
    (markArticle svc write request auth).All (Sql.ShownTo (auth.map (·.id))) := by
  refine all_execute nofun fun res => ?_
  split
  · trivial
  · refine getData_shownTo fun data same => ?_
    subst same
    refine all_execute (fun v shown => ?_) fun _ => all_lift fun _ _ => showArticle_shownTo
    rw [unseen] at shown
    cases shown

theorem markProfile_shownTo {write : Int → Int → Sql} {following : Bool}
    (unseen : ∀ follower followed, (write follower followed).viewer = none) :
    (markProfile write following request auth).All (Sql.ShownTo (auth.map (·.id))) := by
  refine all_execute nofun fun res => ?_
  split
  · trivial
  · refine all_lift fun user _ => getData_shownTo fun data _ => all_execute (fun v shown => ?_) fun _ => trivial
    rw [unseen] at shown
    cases shown

theorem User.Put.shownTo {urandom : Option (List UInt8)} :
    (User.Put.handleRequestJsonThrow svc urandom request auth).All (Sql.ShownTo (auth.map (·.id))) := by
  refine all_validated fun update _ => getData_shownTo fun data same => ?_
  have statement : ∀ hash, (do
      let res ← execute (.updateUserById data.id update.username update.email hash update.bio update.image)
      if res.isEmpty then notFound
      else
        let row ← lift (asSingleRow res)
        currentUserResponse data row : Program Response).All (Sql.ShownTo (auth.map (·.id))) := by
    refine fun hash => all_execute nofun fun rows => ?_
    split
    · trivial
    · exact all_lift fun _ _ => trivial
  cases update.password with
  | none => exact statement none
  | some password => exact all_lift fun hash _ => statement hash

end Handlers

theorem handler_shownTo (svc : Service) (call : Call) (auth : Option UserAuthData) :
    (handler svc call auth).All (Sql.ShownTo (auth.map (·.id))) := by
  unfold handler
  cases call.route with
  | postUsersLogin =>
    refine Handlers.all_validated fun login _ => all_execute nofun fun res => ?_
    split
    · trivial
    · refine all_lift fun user _ => ?_
      split <;> trivial
  | postUsers =>
    refine Handlers.all_validated fun registration _ => .bind (Handlers.all_alreadyTaken ?_) fun _ =>
      Handlers.all_afterTry fun _ => trivial
    exact all_lift fun hash _ => all_execute nofun fun rows => all_lift fun _ _ => trivial
  | getUser =>
    refine Handlers.getData_shownTo fun data _ => all_execute nofun fun res => ?_
    split
    · trivial
    · exact all_lift fun _ _ => trivial
  | putUser => exact Handlers.User.Put.shownTo
  | getProfiles =>
    refine all_execute (fun _ same => (Option.some.inj same).symm) fun res => ?_
    split
    · trivial
    · exact all_lift fun _ _ => trivial
  | postProfiles => exact Handlers.markProfile_shownTo fun _ _ => rfl
  | deleteProfiles => exact Handlers.markProfile_shownTo fun _ _ => rfl
  | getArticles =>
    exact all_lift fun _ _ => all_execute (fun _ same => (Option.some.inj same).symm) fun _ => Handlers.articlesResponse_all
  | getArticlesFeed =>
    refine all_lift fun _ _ => Handlers.getData_shownTo fun data same => ?_
    subst same
    exact all_execute (fun _ shown => (Option.some.inj shown).symm) fun _ => Handlers.articlesResponse_all
  | getArticlesSlug =>
    refine all_execute (fun _ same => (Option.some.inj same).symm) fun res => ?_
    split
    · trivial
    · exact Handlers.articleResponse_all
  | postArticles => exact Handlers.Articles.Post.shownTo
  | putArticlesSlug => exact Handlers.ArticlesSlug.Put.shownTo
  | deleteArticlesSlug =>
    refine Handlers.getData_shownTo fun data _ => all_execute nofun fun res => ?_
    split
    · trivial
    · exact all_execute nofun fun _ => trivial
  | postArticlesSlugComments => exact Handlers.ArticlesSlugComments.Post.shownTo
  | getArticlesSlugComments =>
    refine all_execute (fun _ same => (Option.some.inj same).symm) fun res => ?_
    split <;> trivial
  | deleteArticlesSlugComments =>
    refine all_lift fun comment _ => Handlers.getData_shownTo fun data _ => all_execute nofun fun res =>
      all_lift fun found _ => ?_
    split
    · trivial
    · exact all_execute nofun fun _ => trivial
  | postArticlesSlugFavorite => exact Handlers.markArticle_shownTo fun _ _ => rfl
  | deleteArticlesSlugFavorite => exact Handlers.markArticle_shownTo fun _ _ => rfl
  | getTags => exact all_execute nofun fun _ => all_lift fun _ _ => trivial

/-- Every profile a request is answered with is read for the user whose token it carries, or for nobody. -/
theorem serve_shownTo (svc : Service) (call : Call) :
    (serve svc call).All (Sql.ShownTo ((call.caller svc).map (·.id))) := by
  rcases serve_entered svc call with ⟨_, same⟩ | ⟨_, same⟩ | same
  · rw [same]
    trivial
  · rw [same]
    trivial
  · rw [same]
    exact handler_shownTo svc call _

/-- The flag shown for a user is whether the viewer follows that user, and false for nobody. Whatever a request
shows, it shows to the user whose token it carries, or to nobody. -/
theorem following_flag {svc : Service} {m : Moment} {s s' : Store} {q : Sql} {rows : List q.Row} {row : q.Row}
    {viewer : Option Int} (call : Call) (h : Constraints svc.loc s.toTables) (view : q.viewer = some viewer)
    (answer : q.exec svc.loc m s = (.ok rows, s')) (member : row ∈ rows) :
    ((∃ x ∈ s.users, ∃ profile, q.ShowsUser s.toTables x profile row) ∧
      ∀ x ∈ s.users, ∀ profile, q.ShowsUser s.toTables x profile row →
        (profile.following = true ↔
          ∃ v, viewer = some v ∧ { follower := v, followed := x.userId : Follower } ∈ s.followers) ∧
        (viewer = none → profile.following = false)) ∧
      (serve svc call).All (Sql.ShownTo ((call.caller svc).map (·.id))) := by
  obtain ⟨somebody, all⟩ := Sql.shows_profile h view answer member
  refine ⟨⟨somebody, fun x stored profile shown => ?_⟩, serve_shownTo svc call⟩
  rw [all x stored profile shown]
  refine ⟨isFollowing_iff, ?_⟩
  rintro rfl
  exact isFollowing_nobody

theorem following_flag_sample :
    ((∃ x ∈ samplePublished.users, ∃ profile,
      (Sql.getProfileByUsername "anna" (some 2)).ShowsUser samplePublished.toTables x profile
        ((sampleUser 1 "anna").profile samplePublished.toTables (some 2))) ∧
    ∀ x ∈ samplePublished.users, ∀ profile,
      (Sql.getProfileByUsername "anna" (some 2)).ShowsUser samplePublished.toTables x profile
        ((sampleUser 1 "anna").profile samplePublished.toTables (some 2)) →
      (profile.following = true ↔
        ∃ v, some (2 : Int) = some v ∧ { follower := v, followed := x.userId : Follower } ∈ samplePublished.followers) ∧
      (some (2 : Int) = none → profile.following = false)) ∧
    (serve sample (sampleCall .getProfiles 2 [("username", "anna")])).All (Sql.ShownTo
      (((sampleCall .getProfiles 2 [("username", "anna")]).caller sample).map (·.id))) :=
  have answer : (Sql.getProfileByUsername "anna" (some 2)).exec sample.loc sampleMoment samplePublished =
      (.ok [(sampleUser 1 "anna").profile samplePublished.toTables (some 2)], samplePublished) := by decide +kernel
  following_flag _ samplePublished_reachable.valid.toConstraints rfl answer (List.mem_singleton_self _)

end RealWorld
