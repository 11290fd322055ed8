import RealWorld.Handlers.Replies
import RealWorld.Handlers.Writes
import RealWorld.Routing
import RealWorld.Runs

/-!
# Whether a new article can be opened

The answer to a new article names its slug. A request for the path with this slug finds the article
unless the path is another endpoint's or no endpoint's at all.
-/

namespace RealWorld
open Schema Transactional

/-- `["article"]["slug"]` of a response. -/
def Response.articleSlug (r : Response) : Except Exn String := do
  (← (← Value.member (some r.body) "article").member "slug").asString

theorem articleBody_slug (svc : Service) (model : ArticleModel) :
    Response.articleSlug ⟨200, articleBody svc model⟩ = .ok model.slug := rfl

/-- `a` is the article that a request created between `s` and `s'`, and `response` names its slug. -/
structure Published (svc : Service) (request : HttpRequest) (s s' : Store) (response : Response)
    (a : Article) : Prop where
  requested : ∃ newArticle, Handlers.Articles.Post.parsed svc request = .ok newArticle ∧
    a.title = newArticle.title ∧ slugify svc.icu newArticle.title = .ok a.slug
  stored : a ∈ s'.articles
  fresh : ∀ b ∈ s.articles, b.articleId ≠ a.articleId
  answered : response.articleSlug = .ok a.slug

/-- Without another request in between, an anonymous request for the path with `slug` is handled by
the get-article handler and answered with `a`. -/
def OpensArticle (svc : Service) (s : Store) (slug : String) (a : Article) : Prop :=
  ∃ pathArgs, dispatch .get (articlePath slug) = some (.getArticlesSlug, pathArgs) ∧
    ∃ row model, getArticleWithAuthorProfile svc.loc s.toTables a.articleId = [row] ∧
      ArticleModel.read row = .ok model ∧
      ∀ now ms, respond svc { route := .getArticlesSlug, request := { pathArgs := pathArgs }, now := now } ms s =
        (⟨200, articleBody svc model⟩, s)

section
variable {svc : Service} {s : Store}

/-- A request for a new article that succeeds has stored it and names its slug. -/
theorem PublishRequest.published {call : Call} {ms : Nat → Moment} {newArticle : Dto.NewArticleRequest} {slug : String}
    {caller : Int} (request : PublishRequest svc call newArticle slug caller) (h : Valid svc.loc s)
    (success : (respond svc call ms s).1.success) :
    ∃ a, Published svc call.request s (respond svc call ms s).2 (respond svc call ms s).1 a := by
  obtain ⟨articleId, done, member, u, _, _, answered⟩ := request.succeeded h success
  obtain ⟨next, _⟩ := addNewArticle_store done
  refine ⟨_, ⟨newArticle, request.parsed, rfl, request.slugged⟩, member, fun b stored taken => ?_, ?_⟩
  · have bounded := (h.serial_articles b stored).2
    have same : b.articleId = articleId := taken
    omega
  · rw [answered]
    exact articleBody_slug svc _

theorem opensArticle_iff (h : Valid svc.loc s) {a : Article} (member : a ∈ s.articles) :
    OpensArticle svc s a.slug a ↔ a.slug ≠ "" ∧ a.slug ≠ "feed" ∧ '/' ∉ a.slug.toList := by
  constructor
  · rintro ⟨pathArgs, dispatched, _⟩
    exact ((dispatch_articlePath a.slug pathArgs).mp dispatched).1
  · intro open_
    obtain ⟨u, mem, author, found⟩ := getArticleWithAuthorProfile_of h.toConstraints member none
    refine ⟨_, (dispatch_articlePath a.slug _).mpr ⟨open_, rfl⟩, _, _, found, read_shown h none u, fun now ms => ?_⟩
    have named : HttpRequest.getPathArg { pathArgs := [("slug", a.slug)] } "slug" = a.slug := rfl
    obtain ⟨v, stored, wrote, shown⟩ := run_getArticle h member named none ms
    obtain rfl : v = u := user_eq h.toConstraints stored mem (wrote.trans author.symm)
    exact congrArg (fun outcome => (Response.ofExcept outcome.1, outcome.2)) shown

end

/-- A request for a new article that succeeds has created one, and the path with the slug it answers
opens that article exactly when the slug is one non-empty segment other than `feed`. -/
theorem created_article_opens_iff {svc : Service} {s : Store} (reachable : Reachable svc s) {call : Call}
    (ms : Nat → Moment) (post : call.route = .postArticles)
    (success : (respond svc call ms s).1.success) :
    (∃ a, Published svc call.request s (respond svc call ms s).2 (respond svc call ms s).1 a) ∧
    ∀ a, Published svc call.request s (respond svc call ms s).2 (respond svc call ms s).1 a →
      (OpensArticle svc (respond svc call ms s).2 a.slug a ↔
        a.slug ≠ "" ∧ a.slug ≠ "feed" ∧ '/' ∉ a.slug.toList) := by
  constructor
  · obtain ⟨newArticle, slug, caller, request⟩ := PublishRequest.of_success post success
    exact request.published reachable.valid success
  · intro a published
    exact opensArticle_iff (reachable.respond call ms).valid published.stored

theorem created_article_opens_sample :
    (∃ a, Published sample (samplePublish 1 "News today").request samplePublished
      (respond sample (samplePublish 1 "News today") (fun _ => sampleMoment) samplePublished).2
      (respond sample (samplePublish 1 "News today") (fun _ => sampleMoment) samplePublished).1 a) ∧
    ∀ a, Published sample (samplePublish 1 "News today").request samplePublished
      (respond sample (samplePublish 1 "News today") (fun _ => sampleMoment) samplePublished).2
      (respond sample (samplePublish 1 "News today") (fun _ => sampleMoment) samplePublished).1 a →
      (OpensArticle sample
        (respond sample (samplePublish 1 "News today") (fun _ => sampleMoment) samplePublished).2 a.slug a ↔
        a.slug ≠ "" ∧ a.slug ≠ "feed" ∧ '/' ∉ a.slug.toList) :=
  created_article_opens_iff samplePublished_reachable (fun _ => sampleMoment) rfl (by decide +kernel)

/-- The path of an article titled "Feed" is the path of the feed. -/
theorem feed_article_closed :
    let call := samplePublish 1 "Feed"
    let answer := respond sample call (fun _ => sampleMoment) samplePublished
    Reachable sample samplePublished ∧ answer.1.success ∧ answer.1.articleSlug = .ok "feed" ∧
      ∀ a, ¬ OpensArticle sample answer.2 "feed" a := by
  intro call answer
  refine ⟨samplePublished_reachable, by decide +kernel, by decide +kernel, ?_⟩
  rintro a ⟨pathArgs, dispatched, _⟩
  exact ((dispatch_articlePath "feed" pathArgs).mp dispatched).1.2.1 rfl

end RealWorld
