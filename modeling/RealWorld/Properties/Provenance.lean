import RealWorld.Handlers.Marks
import RealWorld.Handlers.Singles
import RealWorld.Handlers.Submissions
import RealWorld.Properties.Slugs
import RealWorld.Transactional.Secrecy

/-!
# Where the stored rows come from

Whatever requests are sent and however their statements interleave, each row is made of what its owner's
requests supplied. Nobody else can put words in a user's mouth, or a password in front of an account.
-/

namespace RealWorld
open Schema Transactional

/-- One of the requests that were sent, to `route`, with a token of user `u` and a body that is accepted. -/
structure SentBy (svc : Service) (sent : Call → Prop) (route : Route) (u : Int) (call : Call) : Prop where
  sent : sent call
  route : call.route = route
  user : (call.caller svc).map (·.id) = some u
  accepted : call.Accepted svc

def Schema.Article.texts (a : Article) : List (String × String) :=
  [("title", a.title), ("description", a.description), ("body", a.body)]

def Schema.User.names (u : User) : List (String × String) := [("username", u.username), ("email", u.email)]

/-- A user's name, address and password come from one registration or from the user. -/
structure OwnAccount (svc : Service) (sent : Call → Prop) (registration : Call) (u : User) : Prop where
  registered : sent registration
  route : registration.route = .postUsers
  accepted : registration.Accepted svc
  names : ∀ field ∈ u.names, ∃ call, (call = registration ∨ SentBy svc sent .putUser u.userId call) ∧
    call.supplied "user" field.1 = some field.2
  password : ∃ call, (call = registration ∨ SentBy svc sent .putUser u.userId call) ∧
    call.HashesPassword svc u.passwordHash

/-- The name of the tag, in lower case as it is stored, is in the `tagList` of the request. -/
def Call.Tags (call : Call) (tag : Tag) : Prop :=
  ∃ names, call.suppliedList "article" "tagList" = some names ∧ ∃ name ∈ names, tag.name = some (toLower name)

/-- Each row is made of what its owner sent. A target that a request names is the one that was stored under this name
in one of the stores `met` meanwhile. -/
structure Authentic (svc : Service) (sent : Call → Prop) (met : Store → Prop) (t : Tables) : Prop where
  users : ∀ u ∈ t.users, ∃ registration, OwnAccount svc sent registration u
  bios : ∀ u ∈ t.users, ∀ bio ∈ u.bio, ∃ call, SentBy svc sent .putUser u.userId call ∧ call.supplied "user" "bio" = some bio
  images : ∀ u ∈ t.users, ∀ image ∈ u.image,
    ∃ call, SentBy svc sent .putUser u.userId call ∧ call.supplied "user" "image" = some image
  articles : ∀ a ∈ t.articles, ∀ field ∈ a.texts,
    ∃ call, (SentBy svc sent .postArticles a.authorId call ∨ SentBy svc sent .putArticlesSlug a.authorId call) ∧
      call.supplied "article" field.1 = some field.2
  slugs : Slugged svc.icu t
  tags : ∀ tag ∈ t.tags, ∃ u call, SentBy svc sent .postArticles u call ∧ call.Tags tag
  articleTags : ∀ l ∈ t.articleTags, ∃ a ∈ t.articles, a.articleId = l.articleId ∧ ∃ tag ∈ t.tags, tag.tagId = l.tagId ∧
    ∃ call, SentBy svc sent .postArticles a.authorId call ∧ call.Tags tag
  comments : ∀ c ∈ t.comments,
    ∃ call, SentBy svc sent .postArticlesSlugComments c.authorId call ∧ call.supplied "comment" "body" = some c.body
  followers : ∀ r ∈ t.followers, ∃ call, SentBy svc sent .postProfiles r.follower call ∧ ∃ s, met s ∧
    ∃ u ∈ getUserByUsername svc.loc s.toTables (call.request.getPathArg "username"), u.userId = r.followed
  favorites : ∀ f ∈ t.favorites, ∃ call, SentBy svc sent .postArticlesSlugFavorite f.userId call ∧ ∃ s, met s ∧
    ∃ a ∈ s.articles, a.slug = call.request.getPathArg "slug" ∧ a.articleId = f.articleId

/-- Where the request names a target, `q` is about what this name stands for, in one of the stores `met`. -/
def Schema.Sql.AimsAt (svc : Service) (met : Store → Prop) (call : Call) : Sql → Prop
  | .favoriteArticle slug _ => call.request.getPathArg "slug" = slug
  | .follow _ followed => ∃ s, met s ∧
      ∃ u ∈ Schema.getUserByUsername svc.loc s.toTables (call.request.getPathArg "username"), u.userId = followed
  | _ => True

/-- `q` is what a request that was sent writes: for the caller, with the texts of the body and for the target. -/
structure Schema.Sql.WrittenFor (svc : Service) (sent : Call → Prop) (met : Store → Prop) (call : Call) (q : Sql) :
    Prop where
  sent : sent call
  issued : q.IssuedBy call.route (call.caller svc)
  submits : q.Submits svc call
  slugs : q.Slugs svc.icu
  aims : q.AimsAt svc met call

section
variable {svc : Service} {sent : Call → Prop} {met : Store → Prop} {call : Call} {q : Sql} {t : Tables} {m : Moment} {s s' : Store}

theorem authentic_empty (svc : Service) (sent : Call → Prop) (met : Store → Prop) :
    Authentic svc sent met Store.empty.toTables := by
  constructor <;> exact nofun

theorem Schema.Sql.WrittenFor.sentBy (h : q.WrittenFor svc sent met call) {route : Route} {u : Int}
    (issuer : q.issuer = some route) (actor : q.actor = some u) : SentBy svc sent route u call := by
  refine ⟨h.sent, Option.some.inj (h.issued.issuer.symm.trans issuer), ?_, h.submits.accepted⟩
  rcases h.issued.actor with nobody | same
  · cases nobody.symm.trans actor
  · exact same.symm.trans actor

theorem Schema.Sql.WrittenFor.route (h : q.WrittenFor svc sent met call) {route : Route} (issuer : q.issuer = some route) :
    call.route = route := Option.some.inj (h.issued.issuer.symm.trans issuer)

/-! ### Each table -/

/-- A row that was there, or the new one. -/
theorem forall_mem_concat {α : Type} {rows : List α} {row : α} {holds : α → Prop} (old : ∀ r ∈ rows, holds r)
    (new : holds row) : ∀ r ∈ rows ++ [row], holds r := by
  intro r member
  rcases List.mem_append.mp member with stored | added
  · exact old r stored
  · rwa [List.mem_singleton.mp added]

/-- The names an insertion adds to `tags` are among those it is given. -/
theorem insertTags_named {names : List String} {holds : Tag → Prop} {u : Unit}
    (listed : ∀ tag : Tag, (∃ name ∈ names, tag.name = some name) → holds tag) (old : ∀ tag ∈ s.tags, holds tag)
    (done : insertTags names s = .ok u s') : ∀ tag ∈ s'.tags, holds tag := by
  induction names generalizing s with
  | nil =>
    obtain ⟨_, rfl⟩ := pure_ok.mp done
    exact old
  | cons name names ih =>
    obtain ⟨_, _, rest⟩ := insertTags_cons_ok.mp done
    refine ih (fun tag ⟨name', member, same⟩ => listed tag ⟨name', List.mem_cons_of_mem _ member, same⟩) ?_ rest
    unfold Store.insertTag
    dsimp only
    split
    · exact old
    · exact forall_mem_concat old (listed _ ⟨name, List.mem_cons_self, rfl⟩)

theorem insertTags_kept {names : List String} {u : Unit} (done : insertTags names s = .ok u s') :
    ∀ tag ∈ s.tags, tag ∈ s'.tags := by
  induction names generalizing s with
  | nil =>
    obtain ⟨_, rfl⟩ := pure_ok.mp done
    exact fun _ stored => stored
  | cons name names ih =>
    obtain ⟨_, _, rest⟩ := insertTags_cons_ok.mp done
    refine fun tag stored => ih rest tag ?_
    unfold Store.insertTag
    dsimp only
    split
    · exact stored
    · exact List.mem_append_left _ stored

/-- A text comes from a call of the kind `own` after an update by such a call: it is the old one or the supplied one. -/
theorem updated_text {own : Call → Prop} (mine : own call) {object name text : String} {supplied : Option String}
    (given : call.supplied object name = supplied) (old : ∃ call, own call ∧ call.supplied object name = some text) :
    ∃ call, own call ∧ call.supplied object name = some (supplied.getD text) := by
  cases supplied with
  | none => exact old
  | some new => exact ⟨call, mine, given⟩

theorem updated_option {own : Call → Prop} (mine : own call) {object name : String} {supplied stored : Option String}
    (given : call.supplied object name = supplied)
    (old : ∀ text ∈ stored, ∃ call, own call ∧ call.supplied object name = some text) :
    ∀ text ∈ supplied <|> stored, ∃ call, own call ∧ call.supplied object name = some text := by
  cases supplied with
  | none => simpa using old
  | some new =>
    intro text member
    obtain rfl : new = text := by simpa using member
    exact ⟨call, mine, given⟩

theorem Authentic.addNewArticle (h : Authentic svc sent met s.toTables) {title slug description body : String}
    {authorId articleId : Int} {tagList : Option (List String)}
    (written : (Sql.addNewArticle title slug description body authorId tagList).WrittenFor svc sent met call)
    (slugged : Slugged svc.icu s'.toTables)
    (done : Schema.addNewArticle m title slug description body authorId tagList s = .ok articleId s') :
    Authentic svc sent met s'.toTables := by
  obtain ⟨title', description', body', tags'⟩ := written.submits.texts
  have own : SentBy svc sent .postArticles authorId call := written.sentBy rfl rfl
  have listed : ∀ tag : Tag, (∃ name ∈ tagList.getD [], tag.name = some name) → call.Tags tag := by
    rintro tag ⟨name, member, same⟩
    cases supplied : call.suppliedList "article" "tagList" with
    | none =>
      rw [supplied] at tags'
      subst tags'
      cases member
    | some names =>
      rw [supplied] at tags'
      subst tags'
      obtain ⟨given, listed, rfl⟩ := List.mem_map.mp member
      exact ⟨names, supplied, given, listed, same⟩
  obtain ⟨s₁, s₂, first, second, third⟩ := addNewArticle_ok.mp done
  obtain ⟨_, _, _, _, _, _, rfl, rfl⟩ := insertArticles_ok.mp first
  have named : ∀ tag ∈ s₂.tags, ∃ u call, SentBy svc sent .postArticles u call ∧ call.Tags tag := by
    refine insertTags_named (fun tag given => ⟨authorId, call, own, listed tag given⟩) ?_ second
    exact h.tags
  have kept : ∀ tag ∈ s.tags, tag ∈ s₂.tags := fun tag held => insertTags_kept second tag held
  have frame := insertTags_frame second
  obtain ⟨_, _, _, rfl⟩ := insertArticleTags_ok.mp third
  rw [frame] at slugged ⊢
  exact { h with
    slugs := slugged
    tags := named
    articleTags := by
      intro l member
      rcases List.mem_append.mp member with old | new
      · obtain ⟨a, stored, sameId, tag, held, rest⟩ := h.articleTags l old
        exact ⟨a, List.mem_append_left _ stored, sameId, tag, kept tag held, rest⟩
      · obtain ⟨tag, hit, rfl⟩ := List.mem_map.mp new
        obtain ⟨held, given⟩ := List.mem_filter.mp hit
        refine ⟨_, List.mem_append_right _ (List.mem_singleton_self _), rfl, tag, held, rfl, call, own, ?_⟩
        exact listed tag (of_decide_eq_true given)
    articles := by
      refine forall_mem_concat h.articles fun field member => ⟨call, .inl own, ?_⟩
      simp only [Article.texts, List.mem_cons, List.not_mem_nil, or_false] at member
      rcases member with rfl | rfl | rfl
      · exact title'
      · exact description'
      · exact body' }

theorem Authentic.updateArticleBySlug (h : Authentic svc sent met s.toTables) {oldSlug : String} {authorId : Int}
    {title newSlug description body : Option String} {rows : List Int}
    (written : (Sql.updateArticleBySlug oldSlug authorId title newSlug description body).WrittenFor svc sent met call)
    (slugged : Slugged svc.icu s'.toTables)
    (done : Schema.updateArticleBySlug m oldSlug authorId title newSlug description body s = .ok rows s') :
    Authentic svc sent met s'.toTables := by
  obtain ⟨title', description', body'⟩ := written.submits.texts
  have own : SentBy svc sent .putArticlesSlug authorId call := written.sentBy rfl rfl
  obtain ⟨_, _, rfl⟩ := updateArticleBySlug_ok.mp done
  have linked : ∀ l ∈ s.articleTags, ∃ a ∈ s.articles.map (fun a =>
      if a.slug = oldSlug ∧ a.authorId = authorId then a.update m title newSlug description body else a),
      a.articleId = l.articleId ∧ ∃ tag ∈ s.tags, tag.tagId = l.tagId ∧
        ∃ call, SentBy svc sent .postArticles a.authorId call ∧ call.Tags tag := by
    intro l member
    obtain ⟨a, stored, sameId, rest⟩ := h.articleTags l member
    refine ⟨_, List.mem_map_of_mem stored, ?_⟩
    split
    · exact ⟨sameId, rest⟩
    · exact ⟨sameId, rest⟩
  refine { h with slugs := slugged, articleTags := linked, articles := fun a' member => ?_ }
  obtain ⟨a, stored, rfl⟩ := List.mem_map.mp member
  have old := h.articles a stored
  split
  · rename_i hit
    obtain ⟨_, rfl⟩ := hit
    intro field member'
    simp only [Article.texts, Article.update, List.mem_cons, List.not_mem_nil, or_false] at member'
    rcases member' with rfl | rfl | rfl
    · exact updated_text (.inr own) title' (old ("title", a.title) (by simp [Article.texts]))
    · exact updated_text (.inr own) description' (old ("description", a.description) (by simp [Article.texts]))
    · exact updated_text (.inr own) body' (old ("body", a.body) (by simp [Article.texts]))
  · exact old

theorem Authentic.addNewUser {loc : DbLocale} (h : Authentic svc sent met s.toTables) {username email hash : String} {userId : Int}
    (written : (Sql.addNewUser username email hash).WrittenFor svc sent met call)
    (done : Schema.addNewUser loc username email hash s = .ok userId s') : Authentic svc sent met s'.toTables := by
  obtain ⟨username', email', password⟩ := written.submits.texts
  obtain ⟨_, _, _, _, _, _, _, rfl⟩ := insertUsers_ok.mp done
  exact { h with
    users := by
      refine forall_mem_concat h.users ⟨call, written.sent, written.route rfl,
        written.submits.accepted, fun field member => ?_, call, .inl rfl, password⟩
      refine ⟨call, .inl rfl, ?_⟩
      simp only [User.names, List.mem_cons, List.not_mem_nil, or_false] at member
      rcases member with rfl | rfl
      · exact username'
      · exact email'
    bios := forall_mem_concat h.bios nofun
    images := forall_mem_concat h.images nofun }

theorem Authentic.updateUserById {loc : DbLocale} (h : Authentic svc sent met s.toTables) {userId : Int}
    {username email hash bio image : Option String} {rows : List RealworldUser}
    (written : (Sql.updateUserById userId username email hash bio image).WrittenFor svc sent met call)
    (done : Schema.updateUserById loc userId username email hash bio image s = .ok rows s') :
    Authentic svc sent met s'.toTables := by
  obtain ⟨username', email', password', bio', image'⟩ := written.submits.texts
  have own : SentBy svc sent .putUser userId call := written.sentBy rfl rfl
  obtain ⟨_, _, rfl⟩ := updateUserById_ok.mp done
  have cases_of : ∀ {holds : User → Prop}, (∀ u ∈ s.users, holds u) →
      (∀ u ∈ s.users, u.userId = userId → holds u → holds (u.update username email hash bio image)) →
      ∀ u' ∈ s.users.map (fun u => if u.userId = userId then u.update username email hash bio image else u), holds u' := by
    intro holds old new u' member
    obtain ⟨u, stored, rfl⟩ := List.mem_map.mp member
    split
    · rename_i hit
      exact new u stored hit (old u stored)
    · exact old u stored
  exact { h with
    users := by
      refine cases_of h.users fun u _ hit account => ?_
      obtain ⟨registration, sent', route, accepted, names, password⟩ := account
      subst hit
      refine ⟨registration, sent', route, accepted, fun field member => ?_, ?_⟩
      · simp only [User.names, User.update, List.mem_cons, List.not_mem_nil, or_false] at member
        rcases member with rfl | rfl
        · exact updated_text (.inr own) username' (names ("username", u.username) (by simp [User.names]))
        · exact updated_text (.inr own) email' (names ("email", u.email) (by simp [User.names]))
      · cases hash with
        | none => exact password
        | some stored => exact ⟨call, .inr own, password' stored rfl⟩
    bios := by
      refine cases_of h.bios fun u _ hit old => ?_
      subst hit
      exact updated_option own bio' old
    images := by
      refine cases_of h.images fun u _ hit old => ?_
      subst hit
      exact updated_option own image' old }

theorem Schema.Effect.authentic {loc : DbLocale} (h : Authentic svc sent met s.toTables) (here : met s)
    {rows : List q.Row} (written : q.WrittenFor svc sent met call) (effect : Effect loc m s q rows s') :
    Authentic svc sent met s'.toTables := by
  have slugged : Slugged svc.icu s'.toTables := h.slugs.effect written.slugs effect
  cases effect with
  | addNewArticle done => exact h.addNewArticle written slugged done
  | updateArticleBySlug done => exact h.updateArticleBySlug written slugged done
  | addNewUser done => exact h.addNewUser written done
  | updateUserById done => exact h.updateUserById written done
  | addNewComment done =>
    obtain ⟨_, _, articleId, _, _, _, _, _, rfl⟩ := addCommentToArticle_ok.mp done
    exact { h with comments := forall_mem_concat h.comments ⟨call, written.sentBy rfl rfl, written.submits.texts⟩ }
  | follow done =>
    obtain ⟨_, _, _, rfl⟩ := follow_ok.mp done
    obtain ⟨s₀, past, u, named, same⟩ := written.aims
    exact { h with
      followers := forall_mem_concat h.followers ⟨call, written.sentBy rfl rfl, s₀, past, u, named, same⟩ }
  | favoriteArticle done =>
    obtain ⟨articleId, found, _, _, _, rfl⟩ := favoriteArticle_ok.mp done
    obtain ⟨a, stored, slug, same⟩ := mem_articleIdsBySlug.mp (found ▸ List.mem_singleton_self articleId)
    have named : a.slug = call.request.getPathArg "slug" := slug.trans written.aims.symm
    exact { h with
      favorites := forall_mem_concat h.favorites ⟨call, written.sentBy rfl rfl, s, here, a, stored, named, same⟩ }
  -- the others only take rows away
  | unfollow done =>
    obtain rfl := unfollow_ok.mp done
    exact { h with followers := fun r member => h.followers r (List.mem_filter.mp member).1 }
  | unfavoriteArticle done =>
    obtain ⟨_, _, rfl⟩ := unfavoriteArticle_ok.mp done
    exact { h with favorites := fun f member => h.favorites f (List.mem_filter.mp member).1 }
  | deleteComment done =>
    obtain ⟨_, _, rfl⟩ := deleteComment_ok.mp done
    exact { h with comments := fun c member => h.comments c (List.mem_filter.mp member).1 }
  | deleteArticleBySlug done =>
    obtain ⟨_, rfl⟩ := deleteArticleBySlug_ok.mp done
    exact { h with
      slugs := slugged
      articleTags := by
        intro l member
        obtain ⟨old, kept⟩ := List.mem_filter.mp member
        obtain ⟨a, stored, same, rest⟩ := h.articleTags l old
        refine ⟨a, List.mem_filter.mpr ⟨stored, ?_⟩, same, rest⟩
        simp only [Bool.not_eq_true', decide_eq_false_iff_not]
        intro owned
        exact of_decide_eq_true kept (mem_ownedBySlug.mpr ⟨a, stored, owned, same⟩)
      articles := fun a member => h.articles a (List.mem_filter.mp member).1
      comments := fun c member => h.comments c (List.mem_filter.mp member).1 }

/-! ### What requests aim at -/

theorem aimsAt_of_issuer (favorites : call.route ≠ .postArticlesSlugFavorite) (follows : call.route ≠ .postProfiles)
    (issued : q.writes → q.issuer = some call.route) : q.AimsAt svc met call := by
  cases q with
  | favoriteArticle => exact absurd (Option.some.inj (issued trivial)).symm favorites
  | follow => exact absurd (Option.some.inj (issued trivial)).symm follows
  | _ => trivial

/-- A request to favorite names its article at the statement, one to follow has its user resolved by a query before. -/
theorem serve_aims (svc : Service) (met : Store → Prop) (call : Call) (s : Store) :
    (serve svc call).Finds (Sql.exec svc.loc) (fun _ s' => met s') (fun q _ _ => q.writes → q.AimsAt svc met call) s := by
  have others : (serve svc call).All (fun q => q.writes → q.AimsAt svc met call) → (serve svc call).Finds
      (Sql.exec svc.loc) (fun _ s' => met s') (fun q _ _ => q.writes → q.AimsAt svc met call) s :=
    fun all => .of_all all fun _ _ _ aims => aims
  by_cases favorites : call.route = .postArticlesSlugFavorite
  · rcases serve_cases svc call with ⟨reason, same⟩ | ⟨e, same⟩ | ⟨unguarded, _⟩ | ⟨data, token, _⟩
    · rw [same]
      trivial
    · rw [same]
      trivial
    · exact absurd (favorites ▸ rfl) unguarded
    · have request : FavoriteRequest svc call .add _ data.id := ⟨favorites, rfl, data, token, rfl⟩
      have aims : Writes (Sql.AimsAt svc met call) (serve svc call) := by
        rw [request.serve_eq]
        refine .read nofun fun res => ?_
        split
        · trivial
        · exact .write rfl fun _ => .lift fun _ => Handlers.showArticle_reads
      exact others aims.all
  by_cases follows : call.route = .postProfiles
  · rcases serve_cases svc call with ⟨reason, same⟩ | ⟨e, same⟩ | ⟨unguarded, _⟩ | ⟨data, token, _⟩
    · rw [same]
      trivial
    · rw [same]
      trivial
    · exact absurd (follows ▸ rfl) unguarded
    · have request : FollowRequest svc call .add _ data.id := ⟨follows, rfl, data, token, rfl⟩
      obtain ⟨profile, served⟩ := request.serve_eq
      rw [served]
      refine finds_execute (fun _ _ _ => nofun) fun m s₁ rows s₂ past answer => ?_
      obtain ⟨read, _⟩ := Sql.exec_reading rfl answer
      split
      · trivial
      · refine finds_lift fun user single => finds_execute (fun _ _ _ _ => ?_) fun _ _ _ _ _ _ => trivial
        have found : user ∈ getUserByUsername svc.loc s₁.toTables (call.request.getPathArg "username") := by
          rw [← read, asSingleRow_ok.mp single]
          exact List.mem_singleton_self user
        exact ⟨s₁, past, user, found, rfl⟩
  · refine others ((serve_writes svc call).all.mono fun q issued writing => ?_)
    exact aimsAt_of_issuer favorites follows fun writing => (issued writing).issuer

end

/-! ### Whole interleavings -/

/-- The requests that interleave are among those that were sent. -/
abbrev InterleavingOf (svc : Service) (sent : Call → Prop) :
    Configuration → List (Event Sql Sql.Res Store) → Configuration → Prop :=
  Trace (Sql.exec svc.loc) fun p => ∃ call, sent call ∧ p = serve svc call

/-- Every row of every store that the requests can lead to is made of what its owner sent. -/
theorem rows_authentic {svc : Service} {sent : Call → Prop} {c : Configuration} {es : List (Event Sql Sql.Res Store)}
    (run : InterleavingOf svc sent ⟨Store.empty, []⟩ es c) :
    Authentic svc sent (fun s => ∃ e ∈ es, e.before = s) c.store.toTables := by
  let met : Store → Prop := fun s => ∃ e ∈ es, e.before = s
  let written : Sql → Moment → Store → Prop := fun q _ _ => q.writes → ∃ call, q.WrittenFor svc sent met call
  have started : ∀ p s, (∃ call, sent call ∧ p = serve svc call) →
      p.Finds (Sql.exec svc.loc) (fun _ s' => met s') written s := by
    rintro _ s ⟨call, given, rfl⟩
    have issued := ((serve_writes svc call).all.and (serve_submits svc call).all).and (serve_slugs svc call)
    exact ((serve_aims svc met call s).and issued).mono fun q _ _ here writing =>
      ⟨call, given, here.1.1.1 writing, here.1.1.2 writing, here.1.2 writing, here.2 writing⟩
  have found := run.finds_met (fun e member => ⟨e, member, rfl⟩) (by simp) started
  have step : ∀ e ∈ es, Authentic svc sent met e.before.toTables → Authentic svc sent met e.after.toTables := by
    intro e member h
    obtain ⟨m, result, asked⟩ := found e member
    rcases Sql.exec_cases result with same | ⟨rows, _, writing, effect⟩
    · rwa [same]
    · obtain ⟨call, written⟩ := asked writing
      exact effect.authentic h ⟨e, member, rfl⟩ written
  exact run.keeps (fun s => Authentic svc sent met s.toTables) step (authentic_empty svc sent met)

/-- Requests of two users interleave; bert comments on the article of anna. -/
def sampleConversation : List (Move Call Moment) :=
  sampleSetup ++
    [.arrive (sampleCall .postArticlesSlugComments 2 [("slug", "hello-there")]
      (.obj [("comment", .obj [("body", .str "Well done")])])),
    .arrive (sampleProfile 1 [("bio", .str "I write")]), sampleStep 3, sampleStep 4, sampleStep 3]

def sampleConversed : List (Event Sql Sql.Res Store) × Configuration := sampleSchedule sampleConversation ⟨Store.empty, []⟩

theorem rows_authentic_sample :
    (sampleConversed.2.store.comments.map (fun c => (c.authorId, c.body)) = [(2, "Well done")] ∧
      sampleConversed.2.store.users.map (·.bio) = [some "I write", none]) ∧
    Authentic sample (· ∈ arrivals sampleConversation) (fun s => ∃ e ∈ sampleConversed.1, e.before = s)
      sampleConversed.2.store.toTables := by
  refine ⟨by decide +kernel, ?_⟩
  have run : InterleavingOf sample (· ∈ arrivals sampleConversation) ⟨Store.empty, []⟩ sampleConversed.1
      sampleConversed.2 := Config.perform_arrivals (fun call member => ⟨call, member, rfl⟩) _
  exact rows_authentic run

end RealWorld
