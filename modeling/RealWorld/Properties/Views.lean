import RealWorld.Runs
import RealWorld.Schema.Lists

/-!
# Four views of one article

An article is shown by its id, by its slug, in the list of articles and in the feed. Each query
computes the flag and the count of favorites for itself.
-/

namespace RealWorld
open Schema

inductive ArticleView where
  | byId
  | bySlug
  | list (tag authorUsername favoritedByUser : Option String) (limit offset : Option Int)
  | feed (limit offset : Option Int)

/-- The rows a view answers `viewer` with when it is asked for `a`, or for many articles. -/
def ArticleView.rows (loc : DbLocale) (m : Moment) (t : Tables) (viewer : Int) (a : Article) :
    ArticleView → Except DbError (List ArticleWithAuthorProfile)
  | .byId => .ok (getArticleWithAuthorProfile loc t a.articleId (some viewer))
  | .bySlug => .ok (getArticleWithAuthorProfileBySlug loc t a.slug (some viewer))
  | .list tag authorUsername favoritedByUser limit offset =>
      getArticlesWithAuthorProfile loc m t tag authorUsername favoritedByUser (some viewer) limit offset
  | .feed limit offset => getFeed loc m t viewer limit offset

def ArticleView.Shows (view : ArticleView) (loc : DbLocale) (t : Tables) (viewer : Int) (a : Article)
    (row : ArticleWithAuthorProfile) : Prop :=
  ∃ m rows, view.rows loc m t viewer a = .ok rows ∧ row ∈ rows ∧ row.articleId = a.articleId

/-- The flag a view computes: only the two single views pass the viewer on. -/
def ArticleView.favorited (t : Tables) (viewer : Int) (a : Article) : ArticleView → Bool
  | .byId | .bySlug => decide ({ userId := viewer, articleId := a.articleId : Favorite } ∈ t.favorites)
  | .list .. | .feed .. => false

/-- The count a view computes: the feed counts every favorite there is. -/
def ArticleView.favoritesCount (t : Tables) (a : Article) : ArticleView → Nat
  | .byId | .bySlug | .list .. => (favoritesOf t a.articleId).length
  | .feed .. => t.favorites.length

section
variable {loc : DbLocale} {t : Tables} {a : Article} {viewer : Int} {row : ArticleWithAuthorProfile}

/-- What each view shows, and that the feed shows articles of followed authors only. -/
theorem ArticleView.Shows.eq (h : Constraints loc t) (member : a ∈ t.articles) {view : ArticleView}
    (shows : view.Shows loc t viewer a row) :
    (∃ u ∈ t.users, u.userId = a.authorId ∧
      row = a.shown loc t (view.favorited t viewer a) (view.favoritesCount t a)
        (u.profile t (some viewer))) ∧
      ((∃ limit offset, view = .feed limit offset) →
        { follower := viewer, followed := a.authorId : Follower } ∈ t.followers) := by
  obtain ⟨m, rows, answer, row_mem, same⟩ := shows
  cases view with
  | byId =>
    obtain rfl := Except.ok.inj answer
    obtain ⟨u, mem, author, found⟩ := getArticleWithAuthorProfile_of h member (some viewer)
    rw [found, List.mem_singleton, isFavoritedArticle_some] at row_mem
    exact ⟨⟨u, mem, author, row_mem⟩, by rintro ⟨_, _, ⟨⟩⟩⟩
  | bySlug =>
    obtain rfl := Except.ok.inj answer
    obtain ⟨u, mem, author, found⟩ := getArticleWithAuthorProfile_of h member (some viewer)
    rw [getArticleWithAuthorProfileBySlug_of h member, found, List.mem_singleton,
      isFavoritedArticle_some] at row_mem
    exact ⟨⟨u, mem, author, row_mem⟩, by rintro ⟨_, _, ⟨⟩⟩⟩
  | list tag authorUsername favoritedByUser limit offset =>
    obtain ⟨b, mem, u, author_mem, author, rfl⟩ := mem_getArticlesWithAuthorProfile h answer row_mem
    obtain rfl := article_eq h mem member same
    exact ⟨⟨u, author_mem, author, rfl⟩, by rintro ⟨_, _, ⟨⟩⟩⟩
  | feed limit offset =>
    obtain ⟨b, mem, follows, u, author_mem, author, rfl⟩ := mem_getFeed h answer row_mem
    obtain rfl := article_eq h mem member same
    exact ⟨⟨u, author_mem, author, rfl⟩, fun _ => follows⟩

end

/-! ### The favorited flag -/

/-- Whatever a view shows `viewer` for `a` carries the flag of the row in `favorites`. -/
def FavoritedAgrees (loc : DbLocale) (t : Tables) (viewer : Int) (a : Article) : Prop :=
  ∀ (view : ArticleView) row, view.Shows loc t viewer a row →
    (row.favorited = true ↔ { userId := viewer, articleId := a.articleId : Favorite } ∈ t.favorites)

/-- The list and the feed never show an article as favorited, so they are right about the articles
the viewer has not favorited, and about no others. -/
theorem favorited_agrees_of_valid {loc : DbLocale} {s : Store} (h : Valid loc s) {a : Article}
    (member : a ∈ s.articles) (viewer : Int) :
    FavoritedAgrees loc s.toTables viewer a ↔
      { userId := viewer, articleId := a.articleId : Favorite } ∉ s.favorites := by
  constructor
  · intro agrees favorite
    obtain ⟨rows, answer, row, row_mem, same⟩ := getArticlesWithAuthorProfile_complete (m := sampleMoment)
      h.toConstraints member (some viewer) h.articles_length
    have shows : (ArticleView.list none none none (some maxInt) none).Shows loc s.toTables viewer a row :=
      ⟨sampleMoment, rows, answer, row_mem, same⟩
    obtain ⟨⟨u, _, _, rfl⟩, _⟩ := shows.eq h.toConstraints member
    have flagged := (agrees _ _ shows).mpr favorite
    cases flagged
  · intro absent view row shows
    obtain ⟨⟨u, _, _, rfl⟩, _⟩ := shows.eq h.toConstraints member
    cases view <;> simp [Article.shown, Article.select, ArticleView.favorited, absent]

theorem favorited_agrees_iff {svc : Service} {s : Store} (reachable : Reachable svc s) {a : Article}
    (member : a ∈ s.articles) (viewer : Int) :
    FavoritedAgrees svc.loc s.toTables viewer a ↔
      { userId := viewer, articleId := a.articleId : Favorite } ∉ s.favorites :=
  favorited_agrees_of_valid reachable.valid member viewer

def sampleFavorited : Store := { samplePublished with favorites := [{ userId := 1, articleId := 1 }] }

theorem sampleFavorited_reachable : Reachable sample sampleFavorited := by
  have served : sampleServe [sampleCall .postArticlesSlugFavorite 1 [("slug", "hello-there")]]
      samplePublished = sampleFavorited := by decide +kernel
  exact served ▸ sampleServe_reachable samplePublished_reachable

theorem favorited_agrees_sample :
    FavoritedAgrees sample.loc sampleFavorited.toTables 1 sampleArticle ↔
      { userId := 1, articleId := sampleArticle.articleId : Favorite } ∉ sampleFavorited.favorites :=
  favorited_agrees_iff sampleFavorited_reachable (List.mem_singleton_self sampleArticle) 1

theorem favorited_disagrees : Reachable sample sampleFavorited ∧ sampleArticle ∈ sampleFavorited.articles ∧
    ¬ FavoritedAgrees sample.loc sampleFavorited.toTables 1 sampleArticle := by
  have favorite : { userId := 1, articleId := sampleArticle.articleId : Favorite } ∈
      sampleFavorited.favorites := by decide
  refine ⟨sampleFavorited_reachable, List.mem_singleton_self _, fun agrees => ?_⟩
  exact (favorited_agrees_of_valid sampleFavorited_reachable.valid
    (List.mem_singleton_self sampleArticle) 1).mp
    agrees favorite

/-! ### The count of favorites -/

theorem length_favoritesOf {loc : DbLocale} {t : Tables} (h : Constraints loc t) (articleId : Int) :
    (favoritesOf t articleId).length = (t.users.filter fun u =>
      { userId := u.userId, articleId := articleId : Favorite } ∈ t.favorites).length := by
  have same : ((favoritesOf t articleId).map (·.userId)).Perm ((t.users.filter fun u =>
      { userId := u.userId, articleId := articleId : Favorite } ∈ t.favorites).map (·.userId)) := by
    refine (List.perm_ext_iff_of_nodup ?_ ?_).mpr fun id => ?_
    · refine List.Nodup.map_on ?_ (h.pk_favorites.filter _)
      rintro ⟨_, _⟩ left ⟨_, _⟩ right rfl
      have first := of_decide_eq_true (List.mem_filter.mp left).2
      have second := of_decide_eq_true (List.mem_filter.mp right).2
      exact congrArg _ (first.trans second.symm)
    · exact h.pk_users.sublist (List.filter_sublist.map _)
    · simp only [List.mem_map, List.mem_filter, favoritesOf, decide_eq_true_eq]
      constructor
      · rintro ⟨⟨_, _⟩, ⟨member, rfl⟩, rfl⟩
        obtain ⟨u, mem, user⟩ := h.favorites_fk_user _ member
        exact ⟨u, ⟨mem, by rwa [user]⟩, user⟩
      · rintro ⟨u, ⟨_, member⟩, rfl⟩
        exact ⟨_, ⟨member, rfl⟩, rfl⟩
  simpa only [List.length_map] using same.length_eq

def sampleFollowed : Store :=
  { samplePublished with
    articles := [sampleArticle,
      { sampleArticle with articleId := 2, title := "Good bye", slug := "good-bye" }]
    articleTags := [{ articleId := 1, tagId := 1 }, { articleId := 2, tagId := 1 }]
    favorites := [{ userId := 2, articleId := 1 }, { userId := 2, articleId := 2 }]
    followers := [{ follower := 2, followed := 1 }]
    articlesSeq := 2
    tagsSeq := 2 }

theorem sampleFollowed_reachable : Reachable sample sampleFollowed := by
  have served : sampleServe [samplePublish 1 "Good bye",
      sampleCall .postArticlesSlugFavorite 2 [("slug", "hello-there")],
      sampleCall .postArticlesSlugFavorite 2 [("slug", "good-bye")],
      sampleCall .postProfiles 2 [("username", "anna")]] samplePublished = sampleFollowed := by
    decide +kernel
  exact served ▸ sampleServe_reachable samplePublished_reachable

/-- `row` is answered by one of the three functions that count the favorites of an article. -/
inductive CountedRow (loc : DbLocale) (t : Tables) (viewer : Option Int) (row : ArticleWithAuthorProfile) : Prop where
  | byId (id : Int) (member : row ∈ getArticleWithAuthorProfile loc t id viewer)
  | bySlug (slug : String) (member : row ∈ getArticleWithAuthorProfileBySlug loc t slug viewer)
  | listed (m : Moment) (tag authorUsername favoritedByUser : Option String) (limit offset : Option Int)
      (rows : List ArticleWithAuthorProfile)
      (answer : getArticlesWithAuthorProfile loc m t tag authorUsername favoritedByUser viewer limit offset = .ok rows)
      (member : row ∈ rows)

section
variable {loc : DbLocale} {t : Tables} {viewer : Option Int} {row : ArticleWithAuthorProfile}

theorem CountedRow.count (h : Constraints loc t) (counted : CountedRow loc t viewer row) :
    ∃ id, row.favoritesCount = (favoritesOf t id).length := by
  cases counted with
  | byId id member =>
    obtain ⟨_, _, shown⟩ := List.mem_flatMap.mp member
    obtain ⟨_, _, rfl⟩ := List.mem_map.mp shown
    exact ⟨id, rfl⟩
  | bySlug slug member =>
    unfold getArticleWithAuthorProfileBySlug at member
    split at member
    · cases member
    · rename_i id _
      obtain ⟨_, _, shown⟩ := List.mem_flatMap.mp member
      obtain ⟨_, _, rfl⟩ := List.mem_map.mp shown
      exact ⟨id, rfl⟩
  | listed m tag authorUsername favoritedByUser limit offset rows answer member =>
    obtain ⟨a, _, _, _, _, rfl⟩ := mem_getArticlesWithAuthorProfile h answer member
    exact ⟨a.articleId, rfl⟩

/-- Each favorite of an article is of another user, and the ids of users are numbers of an INT. -/
theorem length_favoritesOf_le (h : Constraints loc t) (serial : ∀ u ∈ t.users, 0 < u.userId ∧ u.userId ≤ maxInt)
    (articleId : Int) : ((favoritesOf t articleId).length : Int) ≤ maxInt := by
  have users : (t.users.length : Int) ≤ maxInt := Relational.length_le_of_numbered h.pk_users (by decide) serial
  have fewer := List.length_filter_le (fun u : User =>
    ({ userId := u.userId, articleId := articleId } : Favorite) ∈ t.favorites) t.users
  rw [length_favoritesOf h]
  omega

/-- No count that is answered is changed by its narrowing. -/
theorem favorites_count_fits (h : Constraints loc t) (serial : ∀ u ∈ t.users, 0 < u.userId ∧ u.userId ≤ maxInt)
    (counted : CountedRow loc t viewer row) :
    0 ≤ row.favoritesCount ∧ row.favoritesCount ≤ maxInt ∧
      ∀ model, ArticleModel.read row = .ok model → (Dto.Article.parse model).favoritesCount = row.favoritesCount := by
  obtain ⟨id, count⟩ := counted.count h
  have most := length_favoritesOf_le h serial id
  rw [← count] at most
  have least : 0 ≤ row.favoritesCount := by
    rw [count]
    exact Int.natCast_nonneg _
  refine ⟨least, most, fun model read => ?_⟩
  have same : model.favoritesCount = row.favoritesCount := by
    unfold ArticleModel.read at read
    split at read
    · cases read
    · obtain rfl := Except.ok.inj read
      rfl
  have narrowed : toInt32 model.favoritesCount = model.favoritesCount := by
    simp only [maxInt] at most
    apply toInt32_of_range <;> omega
  exact narrowed.trans same

end

theorem favorites_count_fits_sample :
    let row := sampleArticle.shown sample.loc sampleFollowed.toTables false 1
      ((sampleUser 1 "anna").profile sampleFollowed.toTables none)
    0 ≤ row.favoritesCount ∧ row.favoritesCount ≤ maxInt ∧
      ∀ model, ArticleModel.read row = .ok model → (Dto.Article.parse model).favoritesCount = row.favoritesCount := by
  intro row
  have counted : CountedRow sample.loc sampleFollowed.toTables none row := .byId 1 (by decide +kernel)
  exact favorites_count_fits sampleFollowed_reachable.valid.toConstraints (by decide) counted

end RealWorld
