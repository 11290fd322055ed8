import RealWorld.Dto
import RealWorld.Schema.Lookups

/-!
# The two lists of articles

Both queries select articles, sort them by `created_at` and answer with a row for each in a window of them. The order
of a scan, and so the order of articles of one moment, is left open.
-/

namespace RealWorld
open Schema Relational

/-! ### The articles that match -/

/-- The article has the tag, the author and the favorite that the request asks for. -/
def Schema.Article.Matches (loc : DbLocale) (t : Tables) (filters : Dto.ArticlesListRequest) (a : Article) : Prop :=
  (∀ tag ∈ filters.tag, ∃ l ∈ t.articleTags, l.articleId = a.articleId ∧
    ∃ row ∈ t.tags, row.tagId = l.tagId ∧ row.name = some tag) ∧
  (∀ name ∈ filters.author, ∃ u ∈ t.users, u.userId = a.authorId ∧
    loc.citextLower u.username = loc.citextLower name) ∧
  ∀ name ∈ filters.favorited, ∃ f ∈ t.favorites, f.articleId = a.articleId ∧
    ∃ u ∈ t.users, u.userId = f.userId ∧ loc.citextLower u.username = loc.citextLower name

instance (loc : DbLocale) (t : Tables) (filters : Dto.ArticlesListRequest) :
    DecidablePred (Article.Matches loc t filters) := fun a => by
  unfold Article.Matches
  infer_instance

def matching (loc : DbLocale) (t : Tables) (filters : Dto.ArticlesListRequest) : List Article :=
  t.articles.filter fun a => a.Matches loc t filters

def Dto.ArticlesListRequest.texts (filters : Dto.ArticlesListRequest) : List String :=
  [filters.tag, filters.author, filters.favorited].filterMap id

/-- The rows the query selects, with their authors. -/
def selectedArticles (loc : DbLocale) (t : Tables) (filters : Dto.ArticlesListRequest) : List (Article × User) :=
  (joinAuthors t).filter fun (a, u) =>
    isTrue (and (and
      (or (some filters.tag.isNone) (some (carriesTag t a filters.tag)))
      (or (some filters.author.isNone)
        (eq (some (loc.citextLower u.username)) (filters.author.map loc.citextLower))))
      (or (some filters.favorited.isNone) (some (favoritedByName loc t a filters.favorited))))

/-- The articles in the order in which one execution of the query lists them. -/
def listedArticles (loc : DbLocale) (m : Moment) (t : Tables) (filters : Dto.ArticlesListRequest) : List Article :=
  (byCreatedAtDesc (fun (a, _) => a.createdAt) (m.scan (selectedArticles loc t filters))).map (·.1)

section
variable {loc : DbLocale} {m : Moment} {t : Tables} {filters : Dto.ArticlesListRequest}

theorem joinAuthors_articles (h : Constraints loc t) : (joinAuthors t).map (·.1) = t.articles := by
  have single : ∀ a ∈ t.articles, ((t.users.filter fun u => a.authorId = u.userId).map fun u => (a, u)).map (·.1) = [a] := by
    intro a member
    obtain ⟨u, mem, author⟩ := h.fk_article_author a member
    have found := filter_key h.pk_users mem
    rw [← author]
    simp only [eq_comm (a := u.userId), found, List.map_singleton]
  unfold joinAuthors
  rw [List.map_flatMap, List.flatMap_congr single, List.flatMap_singleton']

theorem carriesTag_iff {a : Article} {tag : Option String} : (tag.isNone || carriesTag t a tag) = true ↔
    ∀ name ∈ tag, ∃ l ∈ t.articleTags, l.articleId = a.articleId ∧
      ∃ row ∈ t.tags, row.tagId = l.tagId ∧ row.name = some name := by
  cases tag with
  | none => simp
  | some name =>
    have named : ∀ row : Tag, isTrue (eq row.name (some name)) = decide (row.name = some name) := by
      intro row
      cases row.name with
      | none => rfl
      | some other => simp [eq_comm]
    simp [carriesTag, named]

theorem writtenBy_iff (h : Constraints loc t) {a : Article} {u : User} (member : u ∈ t.users)
    (author : u.userId = a.authorId) {username : Option String} :
    (username.isNone || decide (username.map loc.citextLower = some (loc.citextLower u.username))) = true ↔
      ∀ name ∈ username, ∃ v ∈ t.users, v.userId = a.authorId ∧
        loc.citextLower v.username = loc.citextLower name := by
  cases username with
  | none => simp
  | some name =>
    simp only [Option.isNone_some, Bool.false_or, Option.map_some, Option.some.injEq, decide_eq_true_eq, Option.mem_def,
      forall_eq']
    constructor
    · exact fun same => ⟨u, member, author, same.symm⟩
    · rintro ⟨v, stored, same, named⟩
      rw [user_eq h member stored (author.trans same.symm)]
      exact named.symm

theorem favoritedByName_iff {a : Article} {username : Option String} :
    (username.isNone || favoritedByName loc t a username) = true ↔
      ∀ name ∈ username, ∃ f ∈ t.favorites, f.articleId = a.articleId ∧
        ∃ u ∈ t.users, u.userId = f.userId ∧ loc.citextLower u.username = loc.citextLower name := by
  cases username with
  | none => simp
  | some name => simp [favoritedByName, eq_comm (a := loc.citextLower name)]

theorem selectedArticles_matching (h : Constraints loc t) :
    (selectedArticles loc t filters).map (·.1) = matching loc t filters := by
  have condition : ∀ p ∈ joinAuthors t, isTrue (and (and
      (or (some filters.tag.isNone) (some (carriesTag t p.1 filters.tag)))
      (or (some filters.author.isNone)
        (eq (some (loc.citextLower p.2.username)) (filters.author.map loc.citextLower))))
      (or (some filters.favorited.isNone) (some (favoritedByName loc t p.1 filters.favorited)))) =
      decide (p.1.Matches loc t filters) := by
    rintro ⟨a, u⟩ member
    obtain ⟨_, mem, author⟩ := mem_joinAuthors.mp member
    simp only [isTrue_and, isTrue_or, isTrue_some, isTrue_eq]
    rw [Bool.eq_iff_iff, decide_eq_true_eq, Bool.and_eq_true, Bool.and_eq_true, and_assoc, carriesTag_iff,
      writtenBy_iff h mem author, favoritedByName_iff]
    rfl
  unfold selectedArticles matching
  rw [List.filter_congr condition, ← joinAuthors_articles h, List.filter_map]
  rfl

/-! ### The order they are listed in -/

theorem matching_slugs (h : Constraints loc t) : ((matching loc t filters).map (·.slug)).Nodup :=
  h.uniq_slug.sublist (List.filter_sublist.map _)

theorem matching_nodup (h : Constraints loc t) : (matching loc t filters).Nodup := (matching_slugs h).of_map _

theorem listedArticles_ordered (h : Constraints loc t) :
    Ordered (·.createdAt) (matching loc t filters) (listedArticles loc m t filters) := by
  have sorted : Ordered (fun p : Article × User => p.1.createdAt) (m.scan (selectedArticles loc t filters))
      (byCreatedAtDesc (fun (a, _) => a.createdAt) (m.scan (selectedArticles loc t filters))) :=
    insertionSort_ordered _
  unfold listedArticles
  rw [← selectedArticles_matching h]
  exact ⟨(sorted.perm.trans (m.scan_perm _)).map _, List.pairwise_map.mpr sorted.descending⟩

theorem Schema.Moment.exists_scan {α : Type} {rows : List α} {order : List Nat}
    (arranges : order.Perm (List.range rows.length)) : ∃ m : Moment, m.scan rows = arrange order rows := by
  refine ⟨{ now := 0, order := fun n => if n = rows.length then order else List.range n, arranges := ?_ }, ?_⟩
  · intro n
    split
    · subst n
      exact arranges
    · exact .refl _
  · unfold Moment.scan
    dsimp only
    rw [if_pos rfl]

/-- PostgreSQL may list the matching articles in any order that the query allows. -/
theorem exists_listedArticles (h : Constraints loc t) {sorted : List Article}
    (ordered : Ordered (·.createdAt) (matching loc t filters) sorted) :
    ∃ m : Moment, listedArticles loc m t filters = sorted := by
  have perm := ordered.perm
  have descending := ordered.descending
  rw [← selectedArticles_matching h] at perm
  have distinct : ((selectedArticles loc t filters).map (·.1)).Nodup := selectedArticles_matching h ▸ matching_nodup h
  obtain ⟨order, arranges, rfl⟩ := exists_arrange distinct perm
  rw [List.length_map] at arranges
  obtain ⟨m, scanned⟩ : ∃ m : Moment, m.scan (selectedArticles loc t filters) = _ := Moment.exists_scan arranges
  refine ⟨m, ?_⟩
  rw [arrange_map, List.pairwise_map] at descending
  unfold listedArticles byCreatedAtDesc
  rw [scanned, descending.insertionSort_eq, arrange_map]

end

/-! ### The rows of a list -/

/-- The rows of a list, with the author and the count that belong to each article. -/
def listRows (loc : DbLocale) (t : Tables) (viewer : Option Int) (favoritesCount : Article → Int) (author : Article → User)
    (page : List Article) : List ArticleWithAuthorProfile :=
  page.map fun a => a.shown loc t (isFavoritedArticle t a.articleId) (favoritesCount a) ((author a).profile t viewer)

section
variable {loc : DbLocale} {t : Tables} {viewer : Option Int} {favoritesCount : Article → Int} {author : Article → User}
  {page : List Article}

theorem mem_listRows {row : ArticleWithAuthorProfile} : row ∈ listRows loc t viewer favoritesCount author page ↔
    ∃ a ∈ page, a.shown loc t false (favoritesCount a) ((author a).profile t viewer) = row := by
  unfold listRows
  simp only [isFavoritedArticle_none, List.mem_map]

end

/-- How many users have each article among their favorites. -/
def favoritesCounts (t : Tables) (a : Article) : Int := (favoritesOf t a.articleId).length

def unfiltered : Dto.ArticlesListRequest :=
  { tag := none, author := none, favorited := none, limit := none, offset := none }

section
variable {loc : DbLocale} {m : Moment} {t : Tables} {filters : Dto.ArticlesListRequest} {viewer : Option Int} {a : Article}

/-- The query lists the matching articles, and puts the defaults for a limit and an offset that are NULL. -/
theorem getArticlesWithAuthorProfile_rows (h : Constraints loc t) {author : Article → User}
    (authors : ∀ a ∈ t.articles, author a ∈ t.users ∧ (author a).userId = a.authorId) (limit offset : Option Int) :
    getArticlesWithAuthorProfile loc m t filters.tag filters.author filters.favorited viewer limit offset =
      limitOffset (some (limit.getD 20)) (some (offset.getD 0))
        (listRows loc t viewer (favoritesCounts t) author (listedArticles loc m t filters)) := by
  have stored : ∀ a ∈ listedArticles loc m t filters, author a ∈ t.users ∧ (author a).userId = a.authorId := fun a member =>
    authors a (List.mem_filter.mp ((listedArticles_ordered h).perm.mem_iff.mp member)).1
  unfold listRows
  rw [← flatMap_profiles h stored viewer fun a =>
    a.shown loc t (isFavoritedArticle t a.articleId) (favoritesCounts t a)]
  unfold listedArticles
  rw [List.flatMap_map]
  rfl

theorem mem_getArticlesWithAuthorProfile (h : Constraints loc t)
    {tag authorUsername favoritedByUser : Option String} {limit offset : Option Int}
    {rows : List ArticleWithAuthorProfile} {row : ArticleWithAuthorProfile}
    (answer : getArticlesWithAuthorProfile loc m t tag authorUsername favoritedByUser viewer limit
      offset = .ok rows) (member : row ∈ rows) :
    ∃ a ∈ t.articles, ∃ u ∈ t.users, u.userId = a.authorId ∧
      row = a.shown loc t false (favoritesOf t a.articleId).length (u.profile t viewer) := by
  obtain ⟨author, authors⟩ := exists_authors h
  have listed := @getArticlesWithAuthorProfile_rows loc m t
    { unfiltered with tag := tag, author := authorUsername, favorited := favoritedByUser } viewer h author authors limit offset
  obtain ⟨a, shown, rfl⟩ := mem_listRows.mp ((limitOffset_sublist (listed.symm.trans answer)).subset member)
  have stored := (List.mem_filter.mp ((listedArticles_ordered h).perm.mem_iff.mp shown)).1
  obtain ⟨user, same⟩ := authors a stored
  exact ⟨a, stored, author a, user, same, rfl⟩

theorem matching_unfiltered : matching loc t unfiltered = t.articles :=
  List.filter_eq_self.mpr fun _ _ => decide_eq_true ⟨nofun, nofun, nofun⟩

/-- Without filters and with room for every article the list leaves none out. -/
theorem getArticlesWithAuthorProfile_complete (h : Constraints loc t) (member : a ∈ t.articles) (viewer : Option Int)
    {limit : Int} (room : t.articles.length ≤ limit) :
    ∃ rows, getArticlesWithAuthorProfile loc m t none none none viewer (some limit) none = .ok rows ∧
      ∃ row ∈ rows, row.articleId = a.articleId := by
  obtain ⟨author, authors⟩ := exists_authors h
  have listed := @getArticlesWithAuthorProfile_rows loc m t unfiltered viewer h author authors (some limit) none
  have arranged := (@listedArticles_ordered loc m t unfiltered h).perm
  rw [matching_unfiltered] at arranged
  refine ⟨_, listed.trans (limitOffset_all rfl ?_), _, mem_listRows.mpr ⟨a, arranged.mem_iff.mpr member, rfl⟩, rfl⟩
  rintro _ ⟨⟩
  rw [listRows, List.length_map, arranged.length_eq]
  exact room

end

/-! ### The rows of the feed -/

/-- The articles whose author `userId` follows. -/
def followedArticles (t : Tables) (userId : Int) : List Article :=
  t.articles.filter fun a => { follower := userId, followed := a.authorId : Follower } ∈ t.followers

/-- The articles in the order in which one execution of the query lists them. -/
def feedArticles (m : Moment) (t : Tables) (userId : Int) : List Article :=
  byCreatedAtDesc (·.createdAt) (m.scan (followedArticles t userId))

section
variable {loc : DbLocale} {m : Moment} {t : Tables} {caller : Int} {a : Article}

theorem followedArticles_nodup (h : Constraints loc t) : (followedArticles t caller).Nodup :=
  (h.pk_articles.of_map _).filter _

theorem feedArticles_ordered : Ordered (·.createdAt) (followedArticles t caller) (feedArticles m t caller) := by
  have sorted : Ordered (·.createdAt) (m.scan (followedArticles t caller)) (feedArticles m t caller) :=
    insertionSort_ordered _
  exact ⟨sorted.perm.trans (m.scan_perm _), sorted.descending⟩

/-- PostgreSQL may list the followed articles in any order that the query allows. -/
theorem exists_feedArticles (h : Constraints loc t) {sorted : List Article}
    (ordered : Ordered (·.createdAt) (followedArticles t caller) sorted) :
    ∃ m : Moment, feedArticles m t caller = sorted := by
  obtain ⟨order, arranges, same⟩ := exists_arrange (followedArticles_nodup h) ordered.perm
  obtain ⟨m, scanned⟩ : ∃ m : Moment, m.scan (followedArticles t caller) = _ := Moment.exists_scan arranges
  refine ⟨m, ?_⟩
  unfold feedArticles byCreatedAtDesc
  rw [scanned, same]
  exact ordered.descending.insertionSort_eq

/-- The count of favorites compares a column with itself, and so counts all there are. -/
theorem getFeed_rows (h : Constraints loc t) {author : Article → User}
    (authors : ∀ a ∈ t.articles, author a ∈ t.users ∧ (author a).userId = a.authorId) (limit offset : Option Int) :
    getFeed loc m t caller limit offset = limitOffset limit offset
      (listRows loc t (some caller) (fun _ => t.favorites.length) author (feedArticles m t caller)) := by
  have stored : ∀ a ∈ feedArticles m t caller, author a ∈ t.users ∧ (author a).userId = a.authorId := fun a member =>
    authors a (List.mem_filter.mp (feedArticles_ordered.perm.mem_iff.mp member)).1
  have followed : (t.articles.filter fun a => a.authorId ∈ (t.followers.filter fun r => r.follower = caller).map (·.followed)) =
      followedArticles t caller := by
    refine List.filter_congr fun a _ => decide_eq_decide.mpr ?_
    simp only [List.mem_map, List.mem_filter, decide_eq_true_eq]
    constructor
    · rintro ⟨⟨_, _⟩, ⟨member, rfl⟩, rfl⟩
      exact member
    · exact fun member => ⟨_, ⟨member, rfl⟩, rfl⟩
  have all : (t.favorites.filter fun f => f.articleId = f.articleId) = t.favorites :=
    List.filter_eq_self.mpr (by simp)
  unfold listRows
  rw [← flatMap_profiles h stored (some caller) fun a =>
    a.shown loc t (isFavoritedArticle t a.articleId) t.favorites.length]
  unfold getFeed
  dsimp only
  rw [followed, all]
  rfl

theorem mem_getFeed (h : Constraints loc t) {limit offset : Option Int} {rows : List ArticleWithAuthorProfile}
    {row : ArticleWithAuthorProfile} (answer : getFeed loc m t caller limit offset = .ok rows) (member : row ∈ rows) :
    ∃ a ∈ t.articles, { follower := caller, followed := a.authorId : Follower } ∈ t.followers ∧
      ∃ u ∈ t.users, u.userId = a.authorId ∧
        row = a.shown loc t false t.favorites.length (u.profile t (some caller)) := by
  obtain ⟨author, authors⟩ := exists_authors h
  rw [getFeed_rows h authors] at answer
  obtain ⟨a, shown, rfl⟩ := mem_listRows.mp ((limitOffset_sublist answer).subset member)
  obtain ⟨stored, followed⟩ := List.mem_filter.mp (feedArticles_ordered.perm.mem_iff.mp shown)
  obtain ⟨user, same⟩ := authors a stored
  exact ⟨a, stored, of_decide_eq_true followed, author a, user, same, rfl⟩

end

end RealWorld
