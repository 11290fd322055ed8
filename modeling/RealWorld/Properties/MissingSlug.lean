import RealWorld.Handlers.Marks
import RealWorld.Handlers.Replies
import RealWorld.Properties.Deletion

/-!
# Requests for an article that is not there

Eight handlers are addressed by a slug. Five look for the article, or for the comment in it, before
anything else, and the update learns from its write that it hit no row. The two handlers that list and
add comments do not ask whether there is an article.
-/

namespace RealWorld
open Schema Relational Transactional

/-- A request with a slug in its path, with the token of a user. -/
structure SlugAddressed (svc : Service) (call : Call) (route : Route) (slug : String) (caller : Int) : Prop where
  route : call.route = route
  slug : call.request.getPathArg "slug" = slug
  caller : ∃ data, call.caller svc = some data ∧ data.id = caller

/-- A valid request that is addressed by a slug, with the first statement its handler executes. -/
inductive SlugRequest (svc : Service) (call : Call) (slug : String) (caller : Int) : Sql → Prop where
  | get (addressed : SlugAddressed svc call .getArticlesSlug slug caller) :
      SlugRequest svc call slug caller (.getArticleWithAuthorProfileBySlug slug (some caller))
  | update {update : Dto.UpdateArticleRequest} {newSlug : Option String}
      (edit : EditRequest svc call update newSlug caller) (addressed : update.slug = slug) :
      SlugRequest svc call slug caller (editSql update newSlug caller)
  | delete (delete : DeleteArticle svc call slug caller) :
      SlugRequest svc call slug caller (.getArticleIdBySlug slug)
  | mark {mark : Mark} (favorite : FavoriteRequest svc call mark slug caller) :
      SlugRequest svc call slug caller (.getArticleIdBySlug slug)
  | listComments (addressed : SlugAddressed svc call .getArticlesSlugComments slug caller) :
      SlugRequest svc call slug caller (.getCommentsFromArticle slug (some caller))
  | addComment {comment : Dto.NewCommentRequest}
      (addressed : SlugAddressed svc call .postArticlesSlugComments slug caller)
      (parsed : Handlers.ArticlesSlugComments.Post.parsed svc call.request (call.caller svc) = .ok comment) :
      SlugRequest svc call slug caller (.addNewComment slug comment.body caller)
  | deleteComment {comment : Dto.DeleteCommentRequest}
      (addressed : SlugAddressed svc call .deleteArticlesSlugComments slug caller)
      (parsed : Handlers.ArticlesSlugComments.Del.parseRequest call.request = .ok comment) :
      SlugRequest svc call slug caller (.isCommentExist comment.id slug caller)

/-- The request is answered with 404 and leaves the store as it was. -/
def ReportsMissing (svc : Service) (call : Call) (ms : Nat → Moment) (s : Store) : Prop :=
  (respond svc call ms s).1.status = 404 ∧ (respond svc call ms s).2 = s

section
variable {svc : Service} {call : Call} {slug : String} {caller : Int} {s : Store} {ms : Nat → Moment} {q : Sql}
  {f : List q.Row → Program Response}

/-- A handler whose first statement finds nothing and changes nothing, if its texts can be sent. -/
theorem reportsMissing_lookup (served : serve svc call = execute q >>= f) {rows : List q.Row}
    (answer : q.body svc.loc (ms 0) s = (.ok rows, s)) (absent : f rows = Handlers.notFound) :
    ReportsMissing svc call ms s ↔ ∀ text ∈ q.texts, storable text := by
  unfold ReportsMissing respond
  rw [served, ← List.all_eq_true]
  by_cases texts : q.texts.all storable
  · rw [run_execute_ok ((Sql.exec_storable texts).trans answer), absent]
    exact iff_of_true ⟨rfl, rfl⟩ texts
  · rw [run_execute_error (Sql.exec_unstorable texts)]
    exact iff_of_false nofun texts

theorem getCommentsFromArticle_missing {m : Moment} {t : Tables} (missing : ∀ a ∈ t.articles, a.slug ≠ slug)
    (viewer : Option Int) : getCommentsFromArticle m t slug viewer = [] := by
  rw [List.eq_nil_iff_forall_not_mem]
  intro row listed
  obtain ⟨⟨c, a⟩, scanned, _⟩ := List.mem_flatMap.mp listed
  obtain ⟨joined, same⟩ := List.mem_filter.mp ((m.scan_perm _).subset scanned)
  obtain ⟨_, _, pair⟩ := List.mem_flatMap.mp joined
  obtain ⟨b, found, same'⟩ := List.mem_map.mp pair
  cases same'
  exact missing a (List.mem_filter.mp found).1 (of_decide_eq_true same)

theorem EditRequest.reportsMissing {update : Dto.UpdateArticleRequest} {newSlug : Option String}
    (edit : EditRequest svc call update newSlug caller) (missing : ∀ a ∈ s.articles, a.slug ≠ update.slug) :
    ReportsMissing svc call ms s ↔ ∀ text ∈ (editSql update newSlug caller).texts, storable text := by
  rw [← List.all_eq_true]
  by_cases texts : (editSql update newSlug caller).texts.all storable
  · have unhit : ∀ a ∈ s.articles, ¬ (a.slug = update.slug ∧ a.authorId = caller) :=
      fun a member hit => missing a member hit.1
    have none : ownedBySlug s.toTables update.slug caller = [] := by
      rw [List.eq_nil_iff_forall_not_mem]
      intro id owned
      obtain ⟨a, member, hit, _⟩ := mem_ownedBySlug.mp owned
      exact unhit a member hit
    have done : updateArticleBySlug (ms 0) update.slug caller update.title newSlug update.description update.body s =
        .ok [] s := by
      rw [updateArticleBySlug_ok, map_unhit unhit, none]
      exact ⟨fun a member hit => absurd hit (unhit a member), rfl, rfl⟩
    have answer : (editSql update newSlug caller).exec svc.loc (ms 0) s = (.ok [], s) :=
      (Sql.exec_storable texts).trans (atomically_ok.mpr done)
    rw [ReportsMissing, edit.absent answer]
    exact iff_of_true ⟨rfl, rfl⟩ texts
  · rw [ReportsMissing, edit.refused (Sql.exec_unstorable texts)]
    exact iff_of_false nofun texts

/-- Adding a comment fails: NULL is no article id. -/
theorem addComment_unreported {comment : Dto.NewCommentRequest}
    (addressed : SlugAddressed svc call .postArticlesSlugComments slug caller)
    (parsed : Handlers.ArticlesSlugComments.Post.parsed svc call.request (call.caller svc) = .ok comment)
    (missing : ∀ a ∈ s.articles, a.slug ≠ slug) : ¬ ReportsMissing svc call ms s := by
  obtain ⟨post, rfl, data, token, rfl⟩ := addressed
  rw [token] at parsed
  obtain ⟨value, _, read⟩ := checked_bind.mp parsed
  obtain ⟨slugged, _, same, user⟩ := Handlers.ArticlesSlugComments.Post.parseRequest_user read
  cases same
  have served : serve svc call = (do
      let res ← execute (.addNewComment comment.slug comment.body comment.userId)
      let commentId ← lift (asSingleRow res)
      showComment svc commentId comment.userId) := by
    rw [serve_caller token (by rw [post]; rfl), handler, post]
    unfold Handlers.ArticlesSlugComments.Post.parsed at parsed
    simp only [Handlers.ArticlesSlugComments.Post.handleRequestJsonThrow, parsed, Handlers.validated]
    rfl
  unfold ReportsMissing respond
  rw [served]
  cases answer : ((Sql.addNewComment comment.slug comment.body comment.userId).exec svc.loc (ms 0) s).1 with
  | error e =>
    rw [run_execute_error (Prod.ext answer rfl)]
    intro reported
    cases reported.1
  | ok rows =>
    have effect := Sql.exec_effect (by trivial) (Prod.ext answer rfl)
    cases effect with
    | addNewComment done =>
      obtain ⟨_, _, articleId, found, _⟩ := addCommentToArticle_ok.mp done
      rw [slugged, articleIdsBySlug_nil missing] at found
      cases found

/-- A list of comments that has none is answered with success, whether or not there is an article. -/
theorem listComments_unreported (addressed : SlugAddressed svc call .getArticlesSlugComments slug caller)
    (missing : ∀ a ∈ s.articles, a.slug ≠ slug) : ¬ ReportsMissing svc call ms s := by
  obtain ⟨get, rfl, data, token, rfl⟩ := addressed
  have served : serve svc call = Handlers.ArticlesSlugComments.Get.handleRequestJsonThrow svc call.request (some data) := by
    rw [serve_caller token (by rw [get]; rfl), handler, get]
  unfold ReportsMissing respond
  rw [served, Handlers.ArticlesSlugComments.Get.handleRequestJsonThrow]
  by_cases texts : (Sql.getCommentsFromArticle (call.request.getPathArg "slug") (some data.id)).texts.all storable
  · have answer : (Sql.getCommentsFromArticle (call.request.getPathArg "slug") (some data.id)).exec svc.loc (ms 0) s =
        (.ok [], s) := by
      rw [Sql.exec_storable texts, ← @getCommentsFromArticle_missing _ (ms 0) _ missing (some data.id)]
      rfl
    rw [Option.map_some, run_execute_ok answer]
    intro reported
    cases reported.1
  · rw [Option.map_some, run_execute_error (Sql.exec_unstorable texts)]
    intro reported
    cases reported.1

theorem isCommentExist_missing {loc : DbLocale} {m : Moment} (missing : ∀ a ∈ s.articles, a.slug ≠ slug) (id : Int) :
    (Sql.isCommentExist id slug caller).body loc m s = (.ok [false], s) := by
  have unmatched : s.comments.any (commentMatches id caller none) = false := by
    simp
  refine singleton_ok.mpr ⟨false, rfl, isCommentExist_ok.mpr ⟨none, ?_, unmatched.symm, rfl⟩⟩
  rw [articleIdsBySlug_nil missing]
  rfl

/-- The handler that deletes a comment looks for it first. -/
theorem SlugAddressed.deleteComment_serve {id : Int} (addressed : SlugAddressed svc call .deleteArticlesSlugComments slug caller)
    (cast : lexicalCastInt32 (call.request.getPathArg "id") = .ok id) : serve svc call = (do
      let res ← execute (.isCommentExist id slug caller)
      let exist ← lift (asSingleRow res)
      if !exist then Handlers.notFound
      else
        let _ ← execute (.deleteComment id slug caller)
        Handlers.ok .null) := by
  obtain ⟨delete, rfl, data, token, rfl⟩ := addressed
  have parsed : Handlers.ArticlesSlugComments.Del.parseRequest call.request =
      .ok { id := id, slug := call.request.getPathArg "slug" } := by
    unfold Handlers.ArticlesSlugComments.Del.parseRequest
    rw [cast]
    rfl
  rw [serve_caller token (by rw [delete]; rfl), handler, delete]
  simp only [Handlers.ArticlesSlugComments.Del.handleRequestJsonThrow, parsed]
  rfl

/-- What looks for the article, or for the comment in it, finds none. -/
theorem SlugRequest.lookup (missing : ∀ a ∈ s.articles, a.slug ≠ slug) (request : SlugRequest svc call slug caller q)
    (post : call.route ≠ .postArticlesSlugComments) (list : call.route ≠ .getArticlesSlugComments) :
    ReportsMissing svc call ms s ↔ ∀ text ∈ q.texts, storable text := by
  have none := articleIdsBySlug_nil missing
  have found : (Sql.getArticleIdBySlug slug).body svc.loc (ms 0) s = (.ok [], s) := congrArg (reading · s) none
  cases request with
  | get addressed =>
    obtain ⟨get, rfl, data, token, rfl⟩ := addressed
    have served : serve svc call = Handlers.ArticlesSlug.Get.handleRequestJsonThrow svc call.request (some data) := by
      rw [serve_caller token (by rw [get]; rfl), handler, get]
    have rows : getArticleWithAuthorProfileBySlug svc.loc s.toTables (call.request.getPathArg "slug") (some data.id) =
        [] := by
      rw [getArticleWithAuthorProfileBySlug, none]
      rfl
    exact reportsMissing_lookup served (congrArg (reading · s) rows) rfl
  | update edit addressed =>
    subst addressed
    exact edit.reportsMissing missing
  | delete delete => exact reportsMissing_lookup delete.serve_eq found rfl
  | mark favorite => exact reportsMissing_lookup favorite.serve_eq found rfl
  | listComments addressed => exact absurd addressed.route list
  | addComment addressed _ => exact absurd addressed.route post
  | deleteComment addressed parsed =>
    obtain ⟨id, cast, same⟩ := checked_bind.mp parsed
    cases same
    exact reportsMissing_lookup (addressed.deleteComment_serve cast) (isCommentExist_missing missing id) rfl

/-- The two handlers of comments that never look for the article. -/
theorem SlugRequest.unreported (missing : ∀ a ∈ s.articles, a.slug ≠ slug) (request : SlugRequest svc call slug caller q)
    (comments : call.route = .postArticlesSlugComments ∨ call.route = .getArticlesSlugComments) :
    ¬ ReportsMissing svc call ms s := by
  have elsewhere : ∀ {route : Route}, call.route = route → route = .postArticlesSlugComments ∨
      route = .getArticlesSlugComments := fun same => same ▸ comments
  cases request with
  | addComment addressed parsed => exact addComment_unreported addressed parsed missing
  | listComments addressed => exact listComments_unreported addressed missing
  | get addressed => exact absurd (elsewhere addressed.route) (by decide)
  | update edit _ => exact absurd (elsewhere edit.route) (by decide)
  | delete delete => exact absurd (elsewhere delete.route) (by decide)
  | @mark mark favorite => exact absurd (elsewhere favorite.route) (by cases mark <;> decide)
  | deleteComment addressed _ => exact absurd (elsewhere addressed.route) (by decide)

/-- A slug that no article has is reported with 404, unless comments are listed or added, or a text of the
request cannot be sent to the database. -/
theorem missing_slug_iff (missing : ∀ a ∈ s.articles, a.slug ≠ slug) (request : SlugRequest svc call slug caller q)
    (ms : Nat → Moment) : ReportsMissing svc call ms s ↔
      call.route ≠ .postArticlesSlugComments ∧ call.route ≠ .getArticlesSlugComments ∧
        ∀ text ∈ q.texts, storable text := by
  by_cases comments : call.route = .postArticlesSlugComments ∨ call.route = .getArticlesSlugComments
  · exact iff_of_false (request.unreported missing comments) fun all => comments.elim all.1 all.2.1
  · obtain ⟨post, list⟩ := not_or.mp comments
    rw [request.lookup missing post list]
    exact ⟨fun texts => ⟨post, list, texts⟩, fun all => all.2.2⟩

end

/-- Anna's request to the handler of `route` for an article that nobody has published. -/
def sampleMissing (route : Route) : Call := sampleCall route 1 [("slug", "good-bye")]

theorem missing_slug_sample :
    ReportsMissing sample (sampleMissing .getArticlesSlug) (fun _ => sampleMoment) samplePublished ↔
      (sampleMissing .getArticlesSlug).route ≠ .postArticlesSlugComments ∧
        (sampleMissing .getArticlesSlug).route ≠ .getArticlesSlugComments ∧
        ∀ text ∈ (Sql.getArticleWithAuthorProfileBySlug "good-bye" (some 1)).texts, storable text :=
  have missing : ∀ a ∈ samplePublished.articles, a.slug ≠ "good-bye" := by decide
  missing_slug_iff missing (.get ⟨rfl, rfl, sampleData 1, by decide, rfl⟩) _

/-- The comments of an article that nobody has published are listed with success. -/
theorem missing_slug_listed : Reachable sample samplePublished ∧ (∀ a ∈ samplePublished.articles, a.slug ≠ "good-bye") ∧
    SlugRequest sample (sampleMissing .getArticlesSlugComments) "good-bye" 1
      (.getCommentsFromArticle "good-bye" (some 1)) ∧
    ¬ ReportsMissing sample (sampleMissing .getArticlesSlugComments) (fun _ => sampleMoment) samplePublished := by
  have missing : ∀ a ∈ samplePublished.articles, a.slug ≠ "good-bye" := by decide
  have answered : (respond sample (sampleMissing .getArticlesSlugComments) (fun _ => sampleMoment)
      samplePublished).1.status = 200 := by decide
  refine ⟨samplePublished_reachable, missing, .listComments ⟨rfl, rfl, sampleData 1, by decide, rfl⟩, fun reported => ?_⟩
  exact absurd (answered.symm.trans reported.1) (by decide)

end RealWorld
