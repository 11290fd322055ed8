import RealWorld.Properties.Comments
import RealWorld.Properties.Listing

/-!
# Numbers in requests

Three parsers convert strings of the request with `boost::lexical_cast`, and two statements take the numbers for
their `LIMIT` and `OFFSET`. What the conversion throws is not caught, nor is what PostgreSQL raises for a negative
number.
-/

namespace RealWorld
open Schema Relational Transactional

/-- The argument is missing or denotes an `std::int32_t`. -/
def Denotes (request : HttpRequest) (name : String) : Prop :=
  request.hasArg name → ∃ n, lexicalCastInt32 (request.getArg name) = .ok n

/-- The number that an argument denotes. -/
def HttpRequest.number (request : HttpRequest) (name : String) : Option Int :=
  if request.hasArg name then (lexicalCastInt32 (request.getArg name)).toOption else none

/-- The argument is missing or denotes an `std::int32_t` that is not negative. -/
def Countable (request : HttpRequest) (name : String) : Prop :=
  Denotes request name ∧ 0 ≤ (request.number name).getD 0

/-- What the arguments of a list ask for. -/
def HttpRequest.filters (request : HttpRequest) : Dto.ArticlesListRequest :=
  { tag := Handlers.textArg request "tag", author := Handlers.textArg request "author",
    favorited := Handlers.textArg request "favorited", limit := request.number "limit",
    offset := request.number "offset" }

/-- Whenever the request is sent, its outcome is a normal one or a client error. -/
def Handled (svc : Service) (call : Call) (s : Store) (normal : Response × Store → Prop) : Prop :=
  ∀ ms, normal (respond svc call ms s) ∨ (respond svc call ms s).1.clientError

/-- The answer shows the window of some arrangement of `articles`, newest first, and the store is still `s`. -/
def WindowShown (svc : Service) (s : Store) (viewer : Option Int) (favoritesCount : Article → Int) (articles : List Article)
    (offset : Nat) (limit : Option Nat) (outcome : Response × Store) : Prop :=
  (∃ sorted, Ordered (·.createdAt) articles sorted ∧
    outcome.1.Shows svc s.toTables viewer favoritesCount (window offset limit sorted)) ∧ outcome.2 = s

/-- The numbers are used to cut the list. -/
def ListAnswered (svc : Service) (call : Call) (s : Store) (outcome : Response × Store) : Prop :=
  Denotes call.request "limit" ∧ Denotes call.request "offset" ∧
    WindowShown svc s ((call.caller svc).map (·.id)) (favoritesCounts s.toTables)
      (matching svc.loc s.toTables call.request.filters) ((call.request.number "offset").getD 0).toNat
      (some ((call.request.number "limit").getD 20).toNat) outcome

/-- The numbers are used to cut the feed. -/
def FeedAnswered (svc : Service) (call : Call) (s : Store) (caller : Int) (outcome : Response × Store) : Prop :=
  Denotes call.request "limit" ∧ Denotes call.request "offset" ∧
    WindowShown svc s (some caller) (fun _ => s.favorites.length) (followedArticles s.toTables caller)
      ((call.request.number "offset").getD 0).toNat ((call.request.number "limit").map Int.toNat) outcome

/-- The number is used to delete a comment. -/
def DeletionAnswered (call : Call) (s : Store) (slug : String) (caller : Int) (outcome : Response × Store) : Prop :=
  ∃ id, lexicalCastInt32 (call.request.getPathArg "id") = .ok id ∧
    (∃ c ∈ s.comments, Deletable s.toTables id caller slug c) ∧
    outcome = (⟨200, .null⟩, { s with comments := s.comments.filter fun d => d.commentId ≠ id })

/-! ### The conversion -/

theorem lexicalCastInt32_cases (text : String) :
    (∃ n, lexicalCastInt32 text = .ok n) ∨ lexicalCastInt32 text = .error .badLexicalCast := by
  unfold lexicalCastInt32
  split
  dsimp only
  split
  · exact .inl ⟨_, rfl⟩
  · exact .inr rfl

section
variable {request : HttpRequest} {name : String}

theorem int32Arg_of (denotes : Denotes request name) :
    Handlers.int32Arg request name = .ok (request.number name) := by
  unfold Handlers.int32Arg HttpRequest.number
  by_cases given : request.hasArg name
  · obtain ⟨n, cast⟩ := denotes given
    rw [if_pos given, if_pos given, cast]
    rfl
  · rw [if_neg given, if_neg given]

theorem int32Arg_error (unread : ¬ Denotes request name) :
    Handlers.int32Arg request name = .error .badLexicalCast := by
  obtain ⟨given, none⟩ := Classical.not_imp.mp unread
  have failed := (lexicalCastInt32_cases (request.getArg name)).resolve_left none
  unfold Handlers.int32Arg
  rw [if_pos given, failed]
  rfl

section
variable {α : Type} {rest : Option Int → Option Int → Except Exn α}

/-- Both parsers read the limit first and then the offset. -/
theorem int32Args_of (denote : Denotes request "limit" ∧ Denotes request "offset") : (do
    let limit ← Handlers.int32Arg request "limit"
    let offset ← Handlers.int32Arg request "offset"
    rest limit offset) = rest (request.number "limit") (request.number "offset") := by
  rw [int32Arg_of denote.1, int32Arg_of denote.2]
  rfl

theorem int32Args_error (unread : ¬ (Denotes request "limit" ∧ Denotes request "offset")) : (do
    let limit ← Handlers.int32Arg request "limit"
    let offset ← Handlers.int32Arg request "offset"
    rest limit offset) = .error .badLexicalCast := by
  by_cases limit : Denotes request "limit"
  · rw [int32Arg_of limit, int32Arg_error fun offset => unread ⟨limit, offset⟩]
    rfl
  · rw [int32Arg_error limit]
    rfl

end

end

/-! ### What the numbers lead to -/

section
variable {svc : Service} {call : Call} {s : Store} {normal : Response × Store → Prop} {viewer : Option Int}
  {favoritesCount : Article → Int} {articles : List Article} {offset : Nat} {limit : Option Nat}

theorem not_handled (success : ∀ outcome, normal outcome → outcome.1.success)
    (failed : ∀ ms, (respond svc call ms s).1 = ⟨500, .null⟩) : ¬ Handled svc call s normal := by
  intro handled
  have here := failed fun _ => sampleMoment
  rcases handled fun _ => sampleMoment with answered | refused
  · have succeeded := success _ answered
    rw [here] at succeeded
    cases succeeded
  · rw [here] at refused
    exact Response.not_clientError_failure _ refused

theorem WindowShown.success {outcome : Response × Store}
    (shown : WindowShown svc s viewer favoritesCount articles offset limit outcome) : outcome.1.success := by
  obtain ⟨⟨_, _, shows⟩, _⟩ := shown
  exact shows.success

/-- A window that is answered at all is never refused, so it is handled when it is shown. -/
theorem AnswersWindow.handled_iff (answers : AnswersWindow svc call s viewer favoritesCount articles offset limit) :
    Handled svc call s (WindowShown svc s viewer favoritesCount articles offset limit) ↔
      ∀ a ∈ articles, CanAppear (·.createdAt) offset limit articles a → TagsNamed s.toTables a := by
  rw [← answers.shows_iff]
  constructor
  · intro handled ms
    rcases handled ms with shown | refused
    · exact shown
    · obtain ⟨sorted, ordered, page⟩ := answers.each ms
      rcases page.cases with shown | failed
      · exact ⟨⟨sorted, ordered, shown⟩, page.2.2⟩
      · rw [failed] at refused
        exact absurd refused (Response.not_clientError_failure _)
  · exact fun shows ms => .inl (shows ms)

theorem Handled.congr {other : Response × Store → Prop} (same : ∀ outcome, normal outcome ↔ other outcome) :
    Handled svc call s normal ↔ Handled svc call s other :=
  forall_congr' fun _ => or_congr_left (same _)

theorem ListRequest.negative {filters : Dto.ArticlesListRequest} (request : ListRequest svc call filters)
    (h : Constraints svc.loc s.toTables) (texts : filters.texts.all storable)
    (negative : filters.offset.getD 0 < 0 ∨ filters.limit.getD 0 < 0) (ms : Nat → Moment) :
    respond svc call ms s = (⟨500, .null⟩, s) := by
  obtain ⟨author, authors⟩ := exists_authors h
  have refused : (some (filters.offset.getD 0)).getD 0 < 0 ∨ (some (filters.limit.getD 20)).getD 0 < 0 := by
    refine negative.imp_right fun below => ?_
    cases given : filters.limit with
    | none =>
      rw [given] at below
      cases below
    | some n =>
      rw [given] at below
      exact below
  have executed : (listSql filters ((call.caller svc).map (·.id))).exec svc.loc (ms 0) s = (.error .invalidRowCount, s) := by
    rw [@Sql.exec_storable _ _ _ (listSql filters _) texts]
    refine Prod.ext ?_ rfl
    exact (getArticlesWithAuthorProfile_rows h authors filters.limit filters.offset).trans (limitOffset_refused refused _)
  unfold respond
  rw [request.serve_eq, run_execute_error executed]
  rfl

theorem FeedRequest.negative {filters : Dto.FeedRequest} {caller : Int} (request : FeedRequest svc call filters caller)
    (h : Constraints svc.loc s.toTables) (negative : filters.offset.getD 0 < 0 ∨ filters.limit.getD 0 < 0)
    (ms : Nat → Moment) : respond svc call ms s = (⟨500, .null⟩, s) := by
  obtain ⟨author, authors⟩ := exists_authors h
  have executed : (Sql.getFeed caller filters.limit filters.offset).exec svc.loc (ms 0) s =
      (.error .invalidRowCount, s) := by
    refine Prod.ext ?_ rfl
    exact (getFeed_rows h authors filters.limit filters.offset).trans (limitOffset_refused negative _)
  unfold respond
  rw [request.serve_eq, run_execute_error executed]
  rfl

/-- With numbers to cut by, the list is handled exactly if it can be shown. -/
theorem list_handled_iff (h : Constraints svc.loc s.toTables) (get : call.route = .getArticles)
    (authorized : ∃ auth, serve svc call = handler svc call auth) :
    Handled svc call s (ListAnswered svc call s) ↔ Countable call.request "limit" ∧ Countable call.request "offset" ∧
      call.request.filters.texts.all storable ∧ ∀ a ∈ matching svc.loc s.toTables call.request.filters,
        CanAppear (·.createdAt) ((call.request.number "offset").getD 0).toNat
          (some ((call.request.number "limit").getD 20).toNat) (matching svc.loc s.toTables call.request.filters) a →
          TagsNamed s.toTables a := by
  have success : ∀ outcome, ListAnswered svc call s outcome → outcome.1.success := fun _ answered => answered.2.2.success
  obtain ⟨auth, entered⟩ := authorized
  by_cases denote : Denotes call.request "limit" ∧ Denotes call.request "offset"
  · obtain ⟨limit, offset⟩ := denote
    have request : ListRequest svc call call.request.filters :=
      ⟨get, ⟨auth, entered⟩, int32Args_of ⟨limit, offset⟩⟩
    by_cases texts : call.request.filters.texts.all storable
    · by_cases counts : 0 ≤ (call.request.number "limit").getD 0 ∧ 0 ≤ (call.request.number "offset").getD 0
      · have shown := (request.answers h texts counts.1 counts.2).handled_iff
        rw [Handled.congr fun outcome => ⟨fun answered => answered.2.2, fun window => ⟨limit, offset, window⟩⟩]
        refine shown.trans ⟨fun named => ⟨⟨limit, counts.1⟩, ⟨offset, counts.2⟩, texts, named⟩, fun all => all.2.2.2⟩
      · refine iff_of_false (not_handled success fun ms => ?_) fun all => counts ⟨all.1.2, all.2.1.2⟩
        have negative : (call.request.number "offset").getD 0 < 0 ∨ (call.request.number "limit").getD 0 < 0 := by omega
        rw [request.negative h texts negative]
    · refine iff_of_false (not_handled success fun ms => ?_) fun all => texts all.2.2.1
      rw [request.unsent texts]
  · refine iff_of_false (not_handled success fun ms => ?_) fun all => denote ⟨all.1.1, all.2.1.1⟩
    unfold respond
    rw [entered, handler, get]
    dsimp only
    unfold Handlers.Articles.Get.handleRequestJsonThrow Handlers.Articles.Get.parseRequest
    rw [int32Args_error denote]
    rfl

theorem feed_handled_iff (h : Constraints svc.loc s.toTables) (feed : call.route = .getArticlesFeed) {caller : Int}
    (token : ∃ data, call.caller svc = some data ∧ data.id = caller) :
    Handled svc call s (FeedAnswered svc call s caller) ↔ Countable call.request "limit" ∧ Countable call.request "offset" ∧
      ∀ a ∈ followedArticles s.toTables caller,
        CanAppear (·.createdAt) ((call.request.number "offset").getD 0).toNat
          ((call.request.number "limit").map Int.toNat) (followedArticles s.toTables caller) a → TagsNamed s.toTables a := by
  have success : ∀ outcome, FeedAnswered svc call s caller outcome → outcome.1.success :=
    fun _ answered => answered.2.2.success
  by_cases denote : Denotes call.request "limit" ∧ Denotes call.request "offset"
  · obtain ⟨limit, offset⟩ := denote
    have request : FeedRequest svc call _ caller := ⟨feed, token, int32Args_of ⟨limit, offset⟩⟩
    by_cases counts : 0 ≤ (call.request.number "limit").getD 0 ∧ 0 ≤ (call.request.number "offset").getD 0
    · have shown := (request.answers h counts.1 counts.2).handled_iff
      rw [Handled.congr fun outcome => ⟨fun answered => answered.2.2, fun window => ⟨limit, offset, window⟩⟩]
      exact shown.trans ⟨fun named => ⟨⟨limit, counts.1⟩, ⟨offset, counts.2⟩, named⟩, fun all => all.2.2⟩
    · refine iff_of_false (not_handled success fun ms => ?_) fun all => counts ⟨all.1.2, all.2.1.2⟩
      have negative : (call.request.number "offset").getD 0 < 0 ∨ (call.request.number "limit").getD 0 < 0 := by omega
      rw [request.negative h negative]
  · refine iff_of_false (not_handled success fun ms => ?_) fun all => denote ⟨all.1.1, all.2.1.1⟩
    obtain ⟨data, token, rfl⟩ := token
    unfold respond
    rw [serve_caller token (by rw [feed]; rfl), handler, feed]
    dsimp only
    unfold Handlers.ArticlesFeed.Get.handleRequestJsonThrow Handlers.ArticlesFeed.Get.parseRequest
    rw [int32Args_error denote]
    rfl

theorem deletion_handled_iff (h : Constraints svc.loc s.toTables) {slug : String} {caller : Int}
    (addressed : SlugAddressed svc call .deleteArticlesSlugComments slug caller) :
    Handled svc call s (DeletionAnswered call s slug caller) ↔
      (∃ id, lexicalCastInt32 (call.request.getPathArg "id") = .ok id) ∧ storable slug := by
  have success : ∀ outcome, DeletionAnswered call s slug caller outcome → outcome.1.success := by
    rintro _ ⟨id, _, _, rfl⟩
    rfl
  rcases lexicalCastInt32_cases (call.request.getPathArg "id") with ⟨id, cast⟩ | failed
  · have request : CommentDeletion svc call id slug caller := ⟨addressed, cast⟩
    by_cases text : storable slug
    · refine iff_of_true (fun ms => ?_) ⟨⟨id, cast⟩, text⟩
      by_cases found : ∃ c ∈ s.comments, Deletable s.toTables id caller slug c
      · obtain ⟨c, stored, deletable⟩ := found
        exact .inl ⟨id, cast, ⟨c, stored, deletable⟩, request.deletes h text ms stored deletable⟩
      · right
        rw [request.misses h text ms fun c stored deletable => found ⟨c, stored, deletable⟩]
        exact ⟨(by decide : 400 ≤ 404), (by decide : 404 < 500)⟩
    · refine iff_of_false (not_handled success fun ms => ?_) fun both => text both.2
      rw [request.unsent text]
  · refine iff_of_false (not_handled success fun ms => ?_) fun both => ?_
    · obtain ⟨delete, _, data, token, _⟩ := addressed
      unfold respond
      rw [serve_caller token (by rw [delete]; rfl), handler, delete]
      dsimp only
      unfold Handlers.ArticlesSlugComments.Del.handleRequestJsonThrow Handlers.ArticlesSlugComments.Del.parseRequest
      rw [failed]
      rfl
    · obtain ⟨⟨id, cast⟩, _⟩ := both
      cases failed.symm.trans cast

/-- A list and a feed are handled exactly if the limit and the offset, where they are given, are numbers that are not
negative and the page can be read; the deletion of a comment exactly if its id is a number. A text that PostgreSQL cannot
hold is the other way to fail. -/
theorem numeric_arguments_handled_iff (svc : Service) {s : Store} (h : Constraints svc.loc s.toTables) :
    (∀ call, call.route = .getArticles → (∃ auth, serve svc call = handler svc call auth) →
      (Handled svc call s (ListAnswered svc call s) ↔ Countable call.request "limit" ∧ Countable call.request "offset" ∧
        call.request.filters.texts.all storable ∧ ∀ a ∈ matching svc.loc s.toTables call.request.filters,
          CanAppear (·.createdAt) ((call.request.number "offset").getD 0).toNat
            (some ((call.request.number "limit").getD 20).toNat) (matching svc.loc s.toTables call.request.filters) a →
            TagsNamed s.toTables a)) ∧
    (∀ call caller, call.route = .getArticlesFeed → (∃ data, call.caller svc = some data ∧ data.id = caller) →
      (Handled svc call s (FeedAnswered svc call s caller) ↔
        Countable call.request "limit" ∧ Countable call.request "offset" ∧
          ∀ a ∈ followedArticles s.toTables caller,
            CanAppear (·.createdAt) ((call.request.number "offset").getD 0).toNat
              ((call.request.number "limit").map Int.toNat) (followedArticles s.toTables caller) a →
              TagsNamed s.toTables a)) ∧
    ∀ call slug caller, SlugAddressed svc call .deleteArticlesSlugComments slug caller →
      (Handled svc call s (DeletionAnswered call s slug caller) ↔
        (∃ id, lexicalCastInt32 (call.request.getPathArg "id") = .ok id) ∧ storable slug) :=
  ⟨fun _ => list_handled_iff h, fun _ _ feed token => feed_handled_iff h feed token,
    fun _ _ _ => deletion_handled_iff h⟩

end

theorem sampleFeed_token (args : List (String × String)) :
    ∃ data, (sampleFeed args).caller sample = some data ∧ data.id = 2 := by
  have same := @Call.caller_congr sample (sampleFeed args) (sampleFeed []) rfl rfl
  exact ⟨sampleData 2, same.trans (by decide), rfl⟩

theorem numeric_arguments_handled_sample :
    let filters := { unfiltered with limit := some 5 }
    (Handled sample (sampleList [("limit", "5")]) samplePublished
        (ListAnswered sample (sampleList [("limit", "5")]) samplePublished) ↔
      Countable { args := [("limit", "5")] } "limit" ∧ Countable { args := [("limit", "5")] } "offset" ∧
        filters.texts.all storable ∧ ∀ a ∈ matching sampleLocale samplePublished.toTables filters,
          CanAppear (·.createdAt) 0 (some 5) (matching sampleLocale samplePublished.toTables filters) a →
            TagsNamed samplePublished.toTables a) ∧
    (Handled sample (sampleFeed [("offset", "1")]) samplePublished
        (FeedAnswered sample (sampleFeed [("offset", "1")]) samplePublished 2) ↔
      Countable (sampleFeed [("offset", "1")]).request "limit" ∧ Countable (sampleFeed [("offset", "1")]).request "offset" ∧
        ∀ a ∈ followedArticles samplePublished.toTables 2,
          CanAppear (·.createdAt) 1 none (followedArticles samplePublished.toTables 2) a →
            TagsNamed samplePublished.toTables a) ∧
    (Handled sample (sampleUncomment "hello-there") samplePublished
        (DeletionAnswered (sampleUncomment "hello-there") samplePublished "hello-there" 2) ↔
      (∃ id, lexicalCastInt32 (1 : Nat).repr = .ok id) ∧ storable "hello-there") := by
  obtain ⟨list, feed, deletion⟩ := numeric_arguments_handled_iff sample samplePublished_reachable.valid.toConstraints
  exact ⟨list _ rfl ⟨none, rfl⟩, feed _ 2 rfl (sampleFeed_token _),
    deletion _ _ 2 (sampleUncomment_request "hello-there").addressed⟩

/-- A limit that is no number, a negative one and an id that is no number are answered as failures of the server. -/
theorem numbers_escape :
    let request : HttpRequest := { pathArgs := [("slug", "hello-there"), ("id", "first")] }
    Constraints sample.loc samplePublished.toTables ∧
    ¬ Handled sample (sampleList [("limit", "ten")]) samplePublished
      (ListAnswered sample (sampleList [("limit", "ten")]) samplePublished) ∧
    ¬ Handled sample (sampleFeed [("limit", "-1")]) samplePublished
      (FeedAnswered sample (sampleFeed [("limit", "-1")]) samplePublished 2) ∧
    ¬ Handled sample (sampleCall .deleteArticlesSlugComments 2 request.pathArgs) samplePublished
      (DeletionAnswered (sampleCall .deleteArticlesSlugComments 2 request.pathArgs) samplePublished "hello-there" 2) := by
  intro request
  have h := samplePublished_reachable.valid.toConstraints
  have addressed : SlugAddressed sample (sampleCall .deleteArticlesSlugComments 2 request.pathArgs)
      .deleteArticlesSlugComments "hello-there" 2 := ⟨rfl, rfl, sampleData 2, by decide, rfl⟩
  refine ⟨h, fun handled => ?_, fun handled => ?_, fun handled => ?_⟩
  · obtain ⟨n, cast⟩ := ((list_handled_iff h rfl ⟨none, rfl⟩).mp handled).1.1 rfl
    have failed : lexicalCastInt32 "ten" = .error .badLexicalCast := by decide
    cases failed.symm.trans cast
  · have negative := ((feed_handled_iff h rfl (sampleFeed_token _)).mp handled).1.2
    exact absurd negative (by decide)
  · obtain ⟨⟨id, cast⟩, _⟩ := (deletion_handled_iff h addressed).mp handled
    have failed : lexicalCastInt32 "first" = .error .badLexicalCast := by decide
    cases failed.symm.trans cast

end RealWorld
