import RealWorld.Properties.Paging

/-!
# What the two lists of articles show

`GET /api/articles` and `GET /api/articles/feed` sort, cut and serialize alike. The query of the first replaces a
limit that is NULL by 20; that of the second declares 20 as a default, which a NULL that is passed overrides.
-/

namespace RealWorld
open Schema Relational Transactional

/-! ### One page of either list -/

/-- The request is answered with the window of an arrangement of `articles`, and of any of them. -/
structure AnswersWindow (svc : Service) (call : Call) (s : Store) (viewer : Option Int) (favoritesCount : Article → Int)
    (articles : List Article) (offset : Nat) (limit : Option Nat) : Prop where
  each : ∀ ms, ∃ sorted, Ordered (·.createdAt) articles sorted ∧
    AnswersPage svc call ms s viewer favoritesCount (window offset limit sorted)
  any : ∀ sorted, Ordered (·.createdAt) articles sorted →
    ∃ ms, AnswersPage svc call ms s viewer favoritesCount (window offset limit sorted)

/-- Whenever the request is sent, its answer shows the window of some arrangement of `articles`, newest first, and the
store stays as it is. -/
def ShowsWindow (svc : Service) (call : Call) (s : Store) (viewer : Option Int) (favoritesCount : Article → Int)
    (articles : List Article) (offset : Nat) (limit : Option Nat) : Prop :=
  ∀ ms, (∃ sorted, Ordered (·.createdAt) articles sorted ∧
    (respond svc call ms s).1.Shows svc s.toTables viewer favoritesCount (window offset limit sorted)) ∧
    (respond svc call ms s).2 = s

section
variable {svc : Service} {call : Call} {s : Store} {viewer : Option Int} {favoritesCount : Article → Int}
  {page articles : List Article} {offset : Nat} {limit : Option Nat}

/-- One execution of a query lists the articles in some order, and may list them in any. -/
theorem AnswersWindow.of_executions {listed : Moment → List Article}
    (ordered : ∀ m, Ordered (·.createdAt) articles (listed m))
    (any : ∀ sorted, Ordered (·.createdAt) articles sorted → ∃ m, listed m = sorted)
    (page : ∀ ms, AnswersPage svc call ms s viewer favoritesCount (window offset limit (listed (ms 0)))) :
    AnswersWindow svc call s viewer favoritesCount articles offset limit where
  each ms := ⟨_, ordered (ms 0), page ms⟩
  any sorted arranged := by
    obtain ⟨m, rfl⟩ := any sorted arranged
    exact ⟨fun _ => m, page fun _ => m⟩

/-- A list is shown exactly when no article that can come into the window has a tag without a name. -/
theorem AnswersWindow.shows_iff (answers : AnswersWindow svc call s viewer favoritesCount articles offset limit) :
    ShowsWindow svc call s viewer favoritesCount articles offset limit ↔
      ∀ a ∈ articles, CanAppear (·.createdAt) offset limit articles a → TagsNamed s.toTables a := by
  constructor
  · intro shows a member appears
    by_contra unnamed
    obtain ⟨sorted, ordered, shown⟩ := appears.exists_ordered member
    obtain ⟨ms, _, failed, _⟩ := answers.any sorted ordered
    obtain ⟨⟨_, _, _, _, answered⟩, _⟩ := shows ms
    rw [failed ⟨a, shown, unnamed⟩] at answered
    cases answered
  · intro named ms
    obtain ⟨sorted, ordered, shown, _, unchanged⟩ := answers.each ms
    refine ⟨⟨sorted, ordered, shown fun a member => ?_⟩, unchanged⟩
    exact named a (ordered.perm.mem_iff.mp (mem_of_window member)) (ordered.canAppear member)

/-- What two answers show is as long when they are the same. -/
theorem Response.Shows.length_eq {response : Response} {page' : List Article}
    (shows : response.Shows svc s.toTables viewer favoritesCount page)
    (shows' : response.Shows svc s.toTables viewer favoritesCount page') : page.length = page'.length := by
  obtain ⟨_, _, answered⟩ := shows
  obtain ⟨_, _, answered'⟩ := shows'
  rw [answered] at answered'
  simp only [articlesBody, Response.mk.injEq, Json.obj.injEq, List.cons.injEq, Prod.mk.injEq, Json.int.injEq,
    List.length_map, true_and, and_true] at answered'
  exact Int.ofNat.inj answered'.2

/-- Without a limit the answer is too long as soon as there are more articles than a limit would allow. -/
theorem AnswersWindow.limited_iff {n : Nat}
    (answers : AnswersWindow svc call s viewer favoritesCount articles offset none) :
    ShowsWindow svc call s viewer favoritesCount articles offset (some n) ↔
      articles.length ≤ offset + n ∧
        ∀ a ∈ articles, CanAppear (·.createdAt) offset (some n) articles a → TagsNamed s.toTables a := by
  by_cases room : articles.length ≤ offset + n
  · have same : ∀ sorted, Ordered (·.createdAt) articles sorted → window offset (some n) sorted = window offset none sorted :=
      fun sorted ordered => window_unlimited (ordered.perm.length_eq ▸ room)
    have limited : AnswersWindow svc call s viewer favoritesCount articles offset (some n) := by
      constructor
      · intro ms
        obtain ⟨sorted, ordered, page⟩ := answers.each ms
        exact ⟨sorted, ordered, same sorted ordered ▸ page⟩
      · intro sorted ordered
        obtain ⟨ms, page⟩ := answers.any sorted ordered
        exact ⟨ms, same sorted ordered ▸ page⟩
    rw [limited.shows_iff]
    exact ⟨fun named => ⟨room, named⟩, fun both => both.2⟩
  · refine iff_of_false (fun shows => ?_) fun both => room both.1
    obtain ⟨sorted, ordered, page⟩ := answers.each fun _ => sampleMoment
    obtain ⟨⟨sorted', _, shown'⟩, _⟩ := shows fun _ => sampleMoment
    rcases page.cases with shown | failed
    · have lengths := shown.length_eq shown'
      have short : (window offset (some n) sorted').length ≤ n := length_window_le
      have size : (window offset none sorted).length = articles.length - offset := by
        rw [← ordered.perm.length_eq]
        exact List.length_drop
      omega
    · obtain ⟨_, _, answered⟩ := shown'
      rw [failed] at answered
      cases answered

end

/-! ### The list -/

section
variable {svc : Service} {call : Call} {s : Store} {filters : Dto.ArticlesListRequest} {viewer : Option Int}

theorem ListRequest.answers (request : ListRequest svc call filters) (h : Constraints svc.loc s.toTables)
    (texts : filters.texts.all storable) (limit : 0 ≤ filters.limit.getD 0) (offset : 0 ≤ filters.offset.getD 0) :
    AnswersWindow svc call s ((call.caller svc).map (·.id)) (favoritesCounts s.toTables)
      (matching svc.loc s.toTables filters) (filters.offset.getD 0).toNat (some (filters.limit.getD 20).toNat) := by
  have size : 0 ≤ filters.limit.getD 20 := by
    cases given : filters.limit with
    | none => decide
    | some n =>
      rw [given] at limit
      exact limit
  exact .of_executions (fun _ => listedArticles_ordered h) (fun _ => exists_listedArticles h)
    (request.answersPage h texts size offset)

theorem ShowsWindow.success {favoritesCount : Article → Int} {articles : List Article} {offset : Nat} {limit : Option Nat}
    (shows : ShowsWindow svc call s viewer favoritesCount articles offset limit) (ms : Nat → Moment) :
    (respond svc call ms s).1.success := by
  obtain ⟨⟨_, _, shown⟩, _⟩ := shows ms
  exact shown.success

/-- The list shows its page of the matching articles exactly when all filters are texts PostgreSQL can hold and no
article that can come on the page has a tag without a name. -/
theorem list_shows_iff (h : Constraints svc.loc s.toTables) (request : ListRequest svc call filters)
    (limit : 0 ≤ filters.limit.getD 0) (offset : 0 ≤ filters.offset.getD 0) :
    ShowsWindow svc call s ((call.caller svc).map (·.id)) (favoritesCounts s.toTables) (matching svc.loc s.toTables filters)
        (filters.offset.getD 0).toNat (some (filters.limit.getD 20).toNat) ↔
      filters.texts.all storable ∧ ∀ a ∈ matching svc.loc s.toTables filters,
        CanAppear (·.createdAt) (filters.offset.getD 0).toNat (some (filters.limit.getD 20).toNat)
          (matching svc.loc s.toTables filters) a → TagsNamed s.toTables a := by
  by_cases texts : filters.texts.all storable
  · rw [(request.answers h texts limit offset).shows_iff]
    exact ⟨fun named => ⟨texts, named⟩, fun both => both.2⟩
  · refine iff_of_false (fun shows => ?_) fun both => texts both.1
    have success := shows.success fun _ => sampleMoment
    rw [request.unsent texts] at success
    cases success

end

/-- `GET /api/articles` with these arguments. -/
def sampleList (args : List (String × String)) : Call := { route := .getArticles, request := { args := args } }

def sampleNews : Dto.ArticlesListRequest := { unfiltered with tag := some "news", limit := some 5 }

theorem list_shows_sample :
    ShowsWindow sample (sampleList [("tag", "news"), ("limit", "5")]) samplePublished none
        (favoritesCounts samplePublished.toTables) (matching sample.loc samplePublished.toTables sampleNews) 0 (some 5) ↔
      sampleNews.texts.all storable ∧ ∀ a ∈ matching sample.loc samplePublished.toTables sampleNews,
        CanAppear (·.createdAt) 0 (some 5) (matching sample.loc samplePublished.toTables sampleNews) a →
          TagsNamed samplePublished.toTables a :=
  list_shows_iff samplePublished_reachable.valid.toConstraints ⟨rfl, ⟨none, rfl⟩, rfl⟩ (by decide) (by decide)

/-- A tag that nobody has given a name. -/
def sampleNull : Store := { samplePublished with tags := [{ tagId := 1, name := none }] }

theorem sampleNull_constraints : Constraints sample.loc sampleNull.toTables := by
  constructor <;> decide

def nulTag : String := String.singleton (Char.ofNat 0)

/-- A filter with U+0000 is an internal error, and so is a page with an article that has a tag without a name. -/
theorem list_fails :
    (ListRequest sample (sampleList [("tag", nulTag)]) { unfiltered with tag := some nulTag } ∧
      Constraints sample.loc samplePublished.toTables ∧
      ¬ ShowsWindow sample (sampleList [("tag", nulTag)]) samplePublished none (favoritesCounts samplePublished.toTables)
        (matching sample.loc samplePublished.toTables { unfiltered with tag := some nulTag }) 0 (some 20)) ∧
    ListRequest sample (sampleList []) unfiltered ∧ Constraints sample.loc sampleNull.toTables ∧
      ¬ ShowsWindow sample (sampleList []) sampleNull none (favoritesCounts sampleNull.toTables)
        (matching sample.loc sampleNull.toTables unfiltered) 0 (some 20) := by
  have unsent : (respond sample (sampleList [("tag", nulTag)]) (fun _ => sampleMoment) samplePublished).1.status = 500 := by
    decide +kernel
  have unread : (respond sample (sampleList []) (fun _ => sampleMoment) sampleNull).1.status = 500 := by decide +kernel
  refine ⟨⟨⟨rfl, ⟨none, rfl⟩, rfl⟩, samplePublished_reachable.valid.toConstraints, fun shows => ?_⟩,
    ⟨rfl, ⟨none, rfl⟩, rfl⟩, sampleNull_constraints, fun shows => ?_⟩
  · exact absurd (unsent.symm.trans (shows.success fun _ => sampleMoment)) (by decide)
  · exact absurd (unread.symm.trans (shows.success fun _ => sampleMoment)) (by decide)

/-! ### The feed -/

/-- A request of `caller` for the feed that passes its parser. -/
structure FeedRequest (svc : Service) (call : Call) (filters : Dto.FeedRequest) (caller : Int) : Prop where
  route : call.route = .getArticlesFeed
  caller : ∃ data, call.caller svc = some data ∧ data.id = caller
  parsed : Handlers.ArticlesFeed.Get.parseRequest call.request = .ok filters

section
variable {svc : Service} {call : Call} {s : Store} {filters : Dto.FeedRequest} {m : Moment} {loc : DbLocale}
  {t : Tables} {caller : Int}

theorem FeedRequest.serve_eq (request : FeedRequest svc call filters caller) :
    serve svc call = execute (.getFeed caller filters.limit filters.offset) >>= Handlers.articlesResponse svc := by
  obtain ⟨data, token, rfl⟩ := request.caller
  rw [serve_caller token (by rw [request.route]; rfl), handler, request.route]
  dsimp only
  unfold Handlers.ArticlesFeed.Get.handleRequestJsonThrow
  rw [request.parsed]
  rfl

theorem FeedRequest.answers (request : FeedRequest svc call filters caller) (h : Constraints svc.loc s.toTables)
    (limit : 0 ≤ filters.limit.getD 0) (offset : 0 ≤ filters.offset.getD 0) :
    AnswersWindow svc call s (some caller) (fun _ => s.favorites.length) (followedArticles s.toTables caller)
      (filters.offset.getD 0).toNat (filters.limit.map Int.toNat) := by
  obtain ⟨author, authors⟩ := exists_authors h
  have executed : ∀ m : Moment, (Sql.getFeed caller filters.limit filters.offset).exec svc.loc m s =
      (.ok (listRows svc.loc s.toTables (some caller) (fun _ => s.favorites.length) author
        (window (filters.offset.getD 0).toNat (filters.limit.map Int.toNat) (feedArticles m s.toTables caller))), s) := by
    intro m
    refine Prod.ext ((getFeed_rows h authors filters.limit filters.offset).trans ?_) rfl
    rw [limitOffset_window offset limit, listRows, map_window]
    rfl
  refine .of_executions (fun _ => feedArticles_ordered) (fun _ => exists_feedArticles h) fun ms => ?_
  refine answersPage_of request.serve_eq (executed (ms 0)) rfl fun a member => ?_
  exact authors a (List.mem_filter.mp (feedArticles_ordered.perm.mem_iff.mp (mem_of_window member))).1

/-- The feed pages like the list exactly when the request gives a limit or twenty articles are enough, and no article that
can come on the page has a tag without a name. -/
theorem feed_shows_iff (h : Constraints svc.loc s.toTables) (request : FeedRequest svc call filters caller)
    (limit : 0 ≤ filters.limit.getD 0) (offset : 0 ≤ filters.offset.getD 0) :
    ShowsWindow svc call s (some caller) (fun _ => s.favorites.length) (followedArticles s.toTables caller)
        (filters.offset.getD 0).toNat (some (filters.limit.getD 20).toNat) ↔
      (filters.limit = none → (followedArticles s.toTables caller).length ≤ (filters.offset.getD 0).toNat + 20) ∧
      ∀ a ∈ followedArticles s.toTables caller,
        CanAppear (·.createdAt) (filters.offset.getD 0).toNat (some (filters.limit.getD 20).toNat)
          (followedArticles s.toTables caller) a → TagsNamed s.toTables a := by
  have answers := request.answers h limit offset
  cases given : filters.limit with
  | some n =>
    rw [given] at answers
    rw [Option.getD_some]
    exact answers.shows_iff.trans ⟨fun named => ⟨nofun, named⟩, fun both => both.2⟩
  | none =>
    rw [given] at answers
    rw [Option.getD_none]
    exact answers.limited_iff.trans (and_congr_left fun _ => ⟨fun room _ => room, fun room => room rfl⟩)

end

/-- Bert follows anna, who has published `n` articles. -/
def sampleProlific (n : Nat) : Store :=
  { samplePublished with
    articles := (List.range n).map fun k => { sampleArticle with articleId := k + 1, slug := k.repr }
    articleTags := []
    followers := [{ follower := 2, followed := 1 }]
    articlesSeq := n }

theorem sampleProlific_constraints : Constraints sample.loc (sampleProlific 21).toTables := by
  constructor <;> decide +kernel

def sampleFeed (args : List (String × String)) : Call :=
  let call := sampleCall .getArticlesFeed 2
  { call with request := { call.request with args := args } }

theorem feed_shows_sample :
    ShowsWindow sample (sampleFeed [("limit", "20")]) (sampleProlific 21) (some 2) (fun _ => 0)
        (followedArticles (sampleProlific 21).toTables 2) 0 (some 20) ↔
      (some 20 = (none : Option Int) → (followedArticles (sampleProlific 21).toTables 2).length ≤ 0 + 20) ∧
      ∀ a ∈ followedArticles (sampleProlific 21).toTables 2,
        CanAppear (·.createdAt) 0 (some 20) (followedArticles (sampleProlific 21).toTables 2) a →
          TagsNamed (sampleProlific 21).toTables a :=
  have request : FeedRequest sample (sampleFeed [("limit", "20")]) { limit := some 20, offset := none } 2 :=
    ⟨rfl, ⟨sampleData 2, by decide, rfl⟩, rfl⟩
  feed_shows_iff sampleProlific_constraints request (by decide) (by decide)

/-- Without a limit the feed shows all of twenty-one articles. -/
theorem feed_unlimited : Constraints sample.loc (sampleProlific 21).toTables ∧
    FeedRequest sample (sampleFeed []) { limit := none, offset := none } 2 ∧
    ¬ ShowsWindow sample (sampleFeed []) (sampleProlific 21) (some 2) (fun _ => (sampleProlific 21).favorites.length)
      (followedArticles (sampleProlific 21).toTables 2) 0 (some 20) := by
  have request : FeedRequest sample (sampleFeed []) { limit := none, offset := none } 2 :=
    ⟨rfl, ⟨sampleData 2, by decide, rfl⟩, rfl⟩
  have many : ¬ (followedArticles (sampleProlific 21).toTables 2).length ≤ 0 + 20 := by decide +kernel
  have answers := request.answers sampleProlific_constraints (by decide) (by decide)
  exact ⟨sampleProlific_constraints, request, fun shows => many (answers.limited_iff.mp shows).1⟩

end RealWorld
