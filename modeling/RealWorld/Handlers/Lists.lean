import RealWorld.Handlers.Replies
import RealWorld.Schema.Lists
import RealWorld.Schema.TagLists

/-!
# What a request for a list answers

The articles that match are read in the order of one execution, a window is cut out of them, and each is serialized.
One tag without a name spoils the whole page.
-/

namespace RealWorld
open Schema Relational Transactional

/-! ### Reading a list -/

/-- The article `a` of the user `u` as a list shows it: never as a favorite. -/
def Schema.Article.listed (loc : DbLocale) (t : Tables) (viewer : Option Int) (favoritesCount : Int) (u : User)
    (a : Article) : ArticleModel :=
  { a.model loc t viewer u with favorited := false, favoritesCount := favoritesCount }

def articlesBody (svc : Service) (models : List ArticleModel) : Json :=
  .obj [("articles", .arr (models.map fun model => serializeArticle svc.json (Dto.Article.parse model))),
    ("articlesCount", .int models.length)]

/-- The response shows `viewer` the articles `rows`, in this order and each with its author, and counts them. -/
def Response.Shows (svc : Service) (t : Tables) (viewer : Option Int) (favoritesCount : Article → Int) (rows : List Article)
    (response : Response) : Prop :=
  ∃ author : Article → User, (∀ a ∈ rows, author a ∈ t.users ∧ (author a).userId = a.authorId) ∧
    response = ⟨200, articlesBody svc (rows.map fun a => a.listed svc.loc t viewer (favoritesCount a) (author a))⟩

/-- No tag of the article has a NULL for its name. -/
def TagsNamed (t : Tables) (a : Article) : Prop :=
  ∀ l ∈ t.articleTags, l.articleId = a.articleId → ∀ tag ∈ t.tags, tag.tagId = l.tagId → tag.name ≠ none

theorem mapM_ok {α β ε : Type} {f : α → Except ε β} {g : α → β} {rows : List α} (each : ∀ a ∈ rows, f a = .ok (g a)) :
    rows.mapM f = .ok (rows.map g) := by
  induction rows with
  | nil => rfl
  | cons a rows ih =>
    obtain ⟨here, others⟩ := List.forall_mem_cons.mp each
    rw [List.mapM_cons, here, ih others]
    rfl

theorem mapM_error {α β ε : Type} {f : α → Except ε β} {e : ε} {rows : List α} {a : α} (member : a ∈ rows)
    (fails : f a = .error e) (alike : ∀ b ∈ rows, ∀ e', f b = .error e' → e' = e) : rows.mapM f = .error e := by
  induction rows with
  | nil => cases member
  | cons b rows ih =>
    obtain ⟨here, others⟩ := List.forall_mem_cons.mp alike
    rw [List.mapM_cons]
    cases read : f b with
    | error e' =>
      obtain rfl := here e' read
      rfl
    | ok value =>
      rcases List.mem_cons.mp member with rfl | later
      · rw [fails] at read
        cases read
      · rw [ih later others]
        rfl

theorem mapM_none {α : Type} {options : List (Option α)} (missing : none ∈ options) : options.mapM id = none := by
  induction options with
  | nil => cases missing
  | cons o options ih =>
    rw [List.mapM_cons]
    cases o with
    | none => rfl
    | some a =>
      have later := (List.mem_cons.mp missing).resolve_left nofun
      rw [ih later]
      rfl

theorem Response.Shows.success {svc : Service} {t : Tables} {viewer : Option Int} {favoritesCount : Article → Int}
    {rows : List Article} {response : Response} (shows : response.Shows svc t viewer favoritesCount rows) :
    response.success := by
  obtain ⟨_, _, rfl⟩ := shows
  rfl

section
variable {svc : Service} {loc : DbLocale} {t : Tables} {a : Article} {viewer : Option Int} {u : User}

theorem tagsNamed_iff : TagsNamed t a ↔ ∀ o ∈ getArticleTagList loc t a.articleId, ∃ name, o = some name := by
  unfold TagsNamed
  constructor
  · intro named o member
    obtain ⟨l, linked, same, tag, stored, tagged, rfl⟩ := mem_getArticleTagList.mp member
    exact Option.ne_none_iff_exists'.mp (named l linked same tag stored tagged)
  · intro named l linked same tag stored tagged
    exact Option.ne_none_iff_exists'.mpr (named _ (mem_getArticleTagList.mpr ⟨l, linked, same, tag, stored, tagged, rfl⟩))

theorem tagsNamed_of (named : ∀ tag ∈ t.tags, ∃ name, tag.name = some name) : TagsNamed t a :=
  fun _ _ _ tag stored _ => Option.ne_none_iff_exists'.mpr (named tag stored)

theorem read_listed {count : Int} (named : TagsNamed t a) :
    ArticleModel.read (a.shown loc t (isFavoritedArticle t a.articleId) count (u.profile t viewer)) =
      .ok (a.listed loc t viewer count u) := by
  unfold ArticleModel.read Article.shown Article.select
  dsimp only
  rw [mapM_filterMap (tagsNamed_iff.mp named), isFavoritedArticle_none]
  rfl

theorem read_unnamed {count : Int} (unnamed : ¬ TagsNamed t a) :
    ArticleModel.read (a.shown loc t (isFavoritedArticle t a.articleId) count (u.profile t viewer)) = .error .resultSet := by
  have missing : none ∈ getArticleTagList loc t a.articleId := by
    by_contra present
    refine unnamed ((@tagsNamed_iff loc t a).mpr fun o member => Option.ne_none_iff_exists'.mp fun same => ?_)
    exact present (same ▸ member)
  unfold ArticleModel.read Article.shown Article.select
  dsimp only
  rw [mapM_none missing]

variable {favoritesCount : Article → Int} {author : Article → User} {page : List Article}

theorem articlesResponse_named (named : ∀ a ∈ page, TagsNamed t a) :
    Handlers.articlesResponse svc (listRows svc.loc t viewer favoritesCount author page) =
      .pure ⟨200, articlesBody svc (page.map fun a => a.listed svc.loc t viewer (favoritesCount a) (author a))⟩ := by
  have read : (listRows svc.loc t viewer favoritesCount author page).mapM ArticleModel.read =
      .ok (page.map fun a => a.listed svc.loc t viewer (favoritesCount a) (author a)) := by
    unfold listRows
    rw [List.mapM_map]
    exact mapM_ok fun a member => read_listed (named a member)
  unfold Handlers.articlesResponse
  rw [read]
  rfl

/-- One NULL among the tags of the page spoils the page. -/
theorem articlesResponse_unnamed (member : a ∈ page) (unnamed : ¬ TagsNamed t a) :
    Handlers.articlesResponse svc (listRows svc.loc t viewer favoritesCount author page) = .throw .resultSet := by
  have read : (listRows svc.loc t viewer favoritesCount author page).mapM ArticleModel.read = .error .resultSet := by
    unfold listRows
    rw [List.mapM_map]
    refine mapM_error member (read_unnamed unnamed) fun b _ e failed => ?_
    by_cases named : TagsNamed t b
    · rw [Function.comp_apply, read_listed named] at failed
      cases failed
    · rw [Function.comp_apply, read_unnamed named] at failed
      exact (Except.error.inj failed).symm
  unfold Handlers.articlesResponse
  rw [read]
  rfl

end

/-! ### The request -/

/-- The request is answered with the articles `page`, unless one of them has a tag without a name. -/
def AnswersPage (svc : Service) (call : Call) (ms : Nat → Moment) (s : Store) (viewer : Option Int)
    (favoritesCount : Article → Int) (page : List Article) : Prop :=
  ((∀ a ∈ page, TagsNamed s.toTables a) →
    (respond svc call ms s).1.Shows svc s.toTables viewer favoritesCount page) ∧
  ((∃ a ∈ page, ¬ TagsNamed s.toTables a) → (respond svc call ms s).1 = ⟨500, .null⟩) ∧
  (respond svc call ms s).2 = s

/-- A request for a list of articles that passes the authorization check and its parser. -/
structure ListRequest (svc : Service) (call : Call) (filters : Dto.ArticlesListRequest) : Prop where
  route : call.route = .getArticles
  authorized : ∃ auth, serve svc call = handler svc call auth
  parsed : Handlers.Articles.Get.parseRequest call.request = .ok filters

abbrev listSql (filters : Dto.ArticlesListRequest) (viewer : Option Int) : Sql :=
  .getArticlesWithAuthorProfile filters.tag filters.author filters.favorited viewer filters.limit filters.offset

section
variable {svc : Service} {call : Call} {s : Store} {ms : Nat → Moment} {q : Sql} {f : List q.Row → Program Response}
  {viewer : Option Int} {favoritesCount : Article → Int} {author : Article → User} {page : List Article}
  {rows : List q.Row} {filters : Dto.ArticlesListRequest} {m : Moment} {loc : DbLocale} {t : Tables}

theorem answersPage_of (served : serve svc call = execute q >>= f) (answer : q.exec svc.loc (ms 0) s = (.ok rows, s))
    (listed : f rows = Handlers.articlesResponse svc (listRows svc.loc s.toTables viewer favoritesCount author page))
    (authors : ∀ a ∈ page, author a ∈ s.users ∧ (author a).userId = a.authorId) :
    AnswersPage svc call ms s viewer favoritesCount page := by
  have ran : respond svc call ms s = (Response.ofExcept ((Handlers.articlesResponse svc
      (listRows svc.loc s.toTables viewer favoritesCount author page)).run (Sql.exec svc.loc) (fun n => ms (n + 1)) s).1,
      ((Handlers.articlesResponse svc
      (listRows svc.loc s.toTables viewer favoritesCount author page)).run (Sql.exec svc.loc) (fun n => ms (n + 1)) s).2) := by
    unfold respond
    rw [served, run_execute_ok answer, listed]
  refine ⟨fun named => ⟨author, authors, ?_⟩, ?_, ?_⟩
  · rw [ran, articlesResponse_named named]
    rfl
  · rintro ⟨a, member, unnamed⟩
    rw [ran, articlesResponse_unnamed member unnamed]
    rfl
  · by_cases named : ∀ a ∈ page, TagsNamed s.toTables a
    · rw [ran, articlesResponse_named named]
      rfl
    · simp only [not_forall] at named
      obtain ⟨a, member, unnamed⟩ := named
      rw [ran, articlesResponse_unnamed member unnamed]
      rfl

theorem AnswersPage.cases (answers : AnswersPage svc call ms s viewer favoritesCount page) :
    (respond svc call ms s).1.Shows svc s.toTables viewer favoritesCount page ∨ (respond svc call ms s).1 = ⟨500, .null⟩ := by
  obtain ⟨shown, failed, _⟩ := answers
  by_cases named : ∀ a ∈ page, TagsNamed s.toTables a
  · exact .inl (shown named)
  · simp only [not_forall] at named
    obtain ⟨a, member, unnamed⟩ := named
    exact .inr (failed ⟨a, member, unnamed⟩)

theorem ListRequest.serve_eq (request : ListRequest svc call filters) :
    serve svc call = execute (listSql filters ((call.caller svc).map (·.id))) >>= Handlers.articlesResponse svc := by
  have entered : ∀ auth, handler svc call auth =
      execute (listSql filters (auth.map (·.id))) >>= Handlers.articlesResponse svc := by
    intro auth
    unfold handler
    rw [request.route]
    dsimp only
    unfold Handlers.Articles.Get.handleRequestJsonThrow
    rw [request.parsed]
    rfl
  obtain ⟨auth, served⟩ := request.authorized
  rw [entered] at served
  rcases serve_entered svc call with ⟨_, same⟩ | ⟨_, same⟩ | same
  · rw [same] at served
    cases served
  · rw [same] at served
    cases served
  · rw [same, entered]

/-- One execution of the query answers with its window of the matching articles. -/
theorem ListRequest.answersPage (request : ListRequest svc call filters) (h : Constraints svc.loc s.toTables)
    (texts : filters.texts.all storable) (limit : 0 ≤ filters.limit.getD 20) (offset : 0 ≤ filters.offset.getD 0)
    (ms : Nat → Moment) :
    AnswersPage svc call ms s ((call.caller svc).map (·.id)) (favoritesCounts s.toTables)
      (window (filters.offset.getD 0).toNat (some (filters.limit.getD 20).toNat)
        (listedArticles svc.loc (ms 0) s.toTables filters)) := by
  obtain ⟨author, authors⟩ := exists_authors h
  have executed : (listSql filters ((call.caller svc).map (·.id))).exec svc.loc (ms 0) s =
      (.ok (listRows svc.loc s.toTables ((call.caller svc).map (·.id)) (favoritesCounts s.toTables) author
        (window (filters.offset.getD 0).toNat (some (filters.limit.getD 20).toNat)
          (listedArticles svc.loc (ms 0) s.toTables filters))), s) := by
    have bound : (listSql filters ((call.caller svc).map (·.id))).texts.all storable := texts
    have cut := @limitOffset_window ArticleWithAuthorProfile (some (filters.limit.getD 20)) (some (filters.offset.getD 0))
      offset limit
    rw [Sql.exec_storable bound]
    refine Prod.ext ((getArticlesWithAuthorProfile_rows h authors filters.limit filters.offset).trans ?_) rfl
    rw [cut, listRows, map_window]
    rfl
  refine answersPage_of request.serve_eq executed rfl fun a member => ?_
  have listed := (listedArticles_ordered h).perm.mem_iff.mp (mem_of_window member)
  exact authors a (List.mem_filter.mp listed).1

theorem ListRequest.unsent (request : ListRequest svc call filters) (texts : ¬ filters.texts.all storable)
    (ms : Nat → Moment) : respond svc call ms s = (⟨500, .null⟩, s) := by
  have unbound : ¬ (listSql filters ((call.caller svc).map (·.id))).texts.all storable := texts
  unfold respond
  rw [request.serve_eq, run_execute_error (Sql.exec_unstorable unbound)]
  rfl

end

end RealWorld
