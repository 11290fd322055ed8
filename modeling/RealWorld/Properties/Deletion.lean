import RealWorld.Runs
import RealWorld.Schema.Lookups

/-!
# Deleting an article

The handler looks for an article with the slug, then deletes the articles with the slug that the
caller wrote. The two conditions differ, and the delete fails while a favorite refers to the article.
-/

namespace RealWorld
open Schema Relational Transactional

/-- The tables without an article and without every row that refers to it. -/
def Schema.Tables.withoutArticle (t : Tables) (articleId : Int) : Tables :=
  { t with
    articles := t.articles.filter fun a => a.articleId ≠ articleId
    articleTags := t.articleTags.filter fun l => l.articleId ≠ articleId
    favorites := t.favorites.filter fun f => f.articleId ≠ articleId
    comments := t.comments.filter fun c => c.articleId ≠ articleId }

section
variable {loc : DbLocale} {s : Store} {a : Article}

theorem deleteArticleBySlug_own (h : Constraints loc s.toTables) (member : a ∈ s.articles)
    (unreferenced : ∀ f ∈ s.favorites, f.articleId ≠ a.articleId) :
    deleteArticleBySlug a.slug a.authorId s =
      .ok () { s with toTables := s.toTables.withoutArticle a.articleId } := by
  rw [deleteArticleBySlug_ok, ownedBySlug_own h member]
  refine ⟨fun f favorite => by simpa using unreferenced f favorite, ?_⟩
  have articles : s.articles.filter (fun b => !decide (b.slug = a.slug ∧ b.authorId = a.authorId)) =
      s.articles.filter fun b => b.articleId ≠ a.articleId := by
    refine List.filter_congr fun b mem => ?_
    rw [decide_eq_decide.mpr (hit_iff h member mem), decide_not]
  have favorites : s.favorites.filter (fun f => f.articleId ≠ a.articleId) = s.favorites :=
    List.filter_eq_self.mpr fun f favorite => decide_eq_true (unreferenced f favorite)
  simp only [Tables.withoutArticle, articles, favorites, List.mem_singleton]

theorem deleteArticleBySlug_other (h : Constraints loc s.toTables) (member : a ∈ s.articles)
    {caller : Int} (other : a.authorId ≠ caller) :
    deleteArticleBySlug a.slug caller s = .ok () s := by
  rw [deleteArticleBySlug_ok, ownedBySlug_other h member other]
  have unhit : ∀ b ∈ s.articles, ¬ (b.slug = a.slug ∧ b.authorId = caller) := by
    rintro b mem ⟨same, author⟩
    rw [key_inj h.uniq_slug mem member same] at author
    exact other author
  have articles : s.articles.filter (fun b => !decide (b.slug = a.slug ∧ b.authorId = caller)) =
      s.articles := by
    refine List.filter_eq_self.mpr fun b mem => ?_
    rw [Bool.not_eq_true', decide_eq_false_iff_not]
    exact unhit b mem
  refine ⟨fun f _ => List.not_mem_nil, ?_⟩
  simp only [articles, List.not_mem_nil, not_false_eq_true, decide_true, List.filter_true]

end

/-! ### The request -/

/-- A request to delete the article with the given slug, made with the token of a user. -/
structure DeleteArticle (svc : Service) (call : Call) (slug : String) (caller : Int) : Prop where
  route : call.route = .deleteArticlesSlug
  slug : call.request.getPathArg "slug" = slug
  caller : ∃ data, call.caller svc = some data ∧ data.id = caller

def sampleDelete (caller : Int) : Call := sampleCall .deleteArticlesSlug caller [("slug", "hello-there")]

theorem sampleDelete_anna : DeleteArticle sample (sampleDelete 1) "hello-there" 1 :=
  ⟨rfl, rfl, sampleData 1, by decide, rfl⟩

theorem sampleDelete_bert : DeleteArticle sample (sampleDelete 2) "hello-there" 2 :=
  ⟨rfl, rfl, sampleData 2, by decide, rfl⟩

section
variable {svc : Service} {call : Call} {slug : String} {caller : Int} {s : Store}

theorem DeleteArticle.serve_eq (delete : DeleteArticle svc call slug caller) :
    serve svc call = (do
      let res ← execute (.getArticleIdBySlug slug)
      if res.isEmpty then Handlers.notFound
      else
        let _ ← execute (.deleteArticleBySlug slug caller)
        Handlers.ok .null) := by
  obtain ⟨route, rfl, data, token, rfl⟩ := delete
  rw [serve_caller token (by rw [route]; rfl), handler, route]
  rfl

theorem getArticleIdBySlug_exec {loc : DbLocale} {m : Moment} (text : storable slug) :
    (Sql.getArticleIdBySlug slug).exec loc m s = (.ok (articleIdsBySlug s.toTables slug), s) := by
  rw [Sql.exec_storable (by simpa [Sql.texts] using text)]
  rfl

theorem DeleteArticle.absent (delete : DeleteArticle svc call slug caller) (ms : Nat → Moment)
    (absent : ∀ a ∈ s.articles, a.slug ≠ slug) :
    ¬ (respond svc call ms s).1.success ∧ (respond svc call ms s).2 = s := by
  unfold respond
  rw [delete.serve_eq]
  by_cases text : storable slug
  · have none : articleIdsBySlug s.toTables slug = [] := by
      rw [articleIdsBySlug, filter_key_nil absent, List.map_nil]
    rw [run_execute_ok (getArticleIdBySlug_exec text), none]
    refine ⟨fun success => ?_, rfl⟩
    cases success
  · have refused : (Sql.getArticleIdBySlug slug).exec svc.loc (ms 0) s =
        (.error .invalidByteSequence, s) :=
      Sql.exec_unstorable (by simpa [Sql.texts] using text)
    rw [run_execute_error refused]
    exact ⟨Response.not_success_error _, rfl⟩

/-- Some article has the slug: the answer is that of the delete statement. -/
theorem DeleteArticle.found (delete : DeleteArticle svc call slug caller) (h : Valid svc.loc s)
    (ms : Nat → Moment) {a : Article} (member : a ∈ s.articles) (same : a.slug = slug) :
    (∀ s', deleteArticleBySlug slug caller s = .ok () s' →
      respond svc call ms s = (⟨200, .null⟩, s')) ∧
    (∀ e, deleteArticleBySlug slug caller s = .error e s →
      ¬ (respond svc call ms s).1.success ∧ (respond svc call ms s).2 = s) := by
  have text : storable slug := same ▸ h.text_articles a member
  have one : articleIdsBySlug s.toTables slug = [a.articleId] :=
    same ▸ articleIdsBySlug_of h.toConstraints member
  have statement : (Sql.deleteArticleBySlug slug caller).exec svc.loc (ms 1) s =
      (Sql.deleteArticleBySlug slug caller).body svc.loc (ms 1) s :=
    Sql.exec_storable (by simpa [Sql.texts] using text)
  unfold respond
  rw [delete.serve_eq, run_execute_ok (getArticleIdBySlug_exec text), one]
  constructor
  · intro s' done
    have answer : (Sql.deleteArticleBySlug slug caller).exec svc.loc (ms 1) s = (.ok [()], s') :=
      statement.trans (singleton_ok.mpr ⟨(), rfl, done⟩)
    exact answer_ok answer
  · intro e failed
    have answer : (Sql.deleteArticleBySlug slug caller).exec svc.loc (ms 1) s = (.error e, s) := by
      rw [statement]
      exact singleton_error failed
    show ¬ (Response.ofExcept ((execute _ >>= _ : Program Response).run _ _ s).1).success ∧
      ((execute _ >>= _ : Program Response).run _ _ s).2 = s
    rw [run_execute_error answer]
    exact ⟨Response.not_success_error _, rfl⟩

/-- The author's delete removes the article with everything that refers to it, and nothing else,
unless some user has favorited the article; then it fails. -/
theorem delete_own_iff (reachable : Reachable svc s) {a : Article} (member : a ∈ s.articles)
    (delete : DeleteArticle svc call a.slug a.authorId) (ms : Nat → Moment) :
    (respond svc call ms s).1.success ∧
        (respond svc call ms s).2.toTables = s.toTables.withoutArticle a.articleId ↔
      ∀ f ∈ s.favorites, f.articleId ≠ a.articleId := by
  have h := reachable.valid
  obtain ⟨deleted, refused⟩ := delete.found h ms member rfl
  constructor
  · rintro ⟨success, _⟩
    by_contra referenced
    refine (refused _ (deleteArticleBySlug_error ?_)).1 success
    rw [ownedBySlug_own h.toConstraints member]
    simpa using referenced
  · intro unreferenced
    rw [deleted _ (deleteArticleBySlug_own h.toConstraints member unreferenced)]
    exact ⟨rfl, rfl⟩

theorem delete_own_sample :
    (respond sample (sampleDelete 1) (fun _ => sampleMoment) samplePublished).1.success ∧
        (respond sample (sampleDelete 1) (fun _ => sampleMoment) samplePublished).2.toTables =
          samplePublished.toTables.withoutArticle 1 ↔
      ∀ f ∈ samplePublished.favorites, f.articleId ≠ 1 :=
  delete_own_iff samplePublished_reachable (List.mem_singleton_self sampleArticle) sampleDelete_anna _

def sampleFavoredByOther : Store :=
  { samplePublished with favorites := [{ userId := 2, articleId := 1 }] }

theorem sampleFavoredByOther_reachable : Reachable sample sampleFavoredByOther := by
  have served : sampleServe [sampleCall .postArticlesSlugFavorite 2 [("slug", "hello-there")]]
      samplePublished = sampleFavoredByOther := by decide +kernel
  exact served ▸ sampleServe_reachable samplePublished_reachable

theorem delete_own_fails : Reachable sample sampleFavoredByOther ∧
    sampleArticle ∈ sampleFavoredByOther.articles ∧
    DeleteArticle sample (sampleDelete 1) sampleArticle.slug sampleArticle.authorId ∧
    ¬ ((respond sample (sampleDelete 1) (fun _ => sampleMoment) sampleFavoredByOther).1.success ∧
      (respond sample (sampleDelete 1) (fun _ => sampleMoment) sampleFavoredByOther).2.toTables =
        sampleFavoredByOther.toTables.withoutArticle 1) := by
  have failed : ¬ (respond sample (sampleDelete 1) (fun _ => sampleMoment)
      sampleFavoredByOther).1.success := by decide
  exact ⟨sampleFavoredByOther_reachable, List.mem_singleton_self _, sampleDelete_anna,
    fun done => failed done.1⟩

/-- What a client may conclude from the answer to a delete. -/
structure DeleteReported (slug : String) (caller : Int) (s : Store) (response : Response) (s' : Store) :
    Prop where
  success : response.success →
    (∃ a ∈ s.articles, a.slug = slug ∧ a.authorId = caller) ∧ ∀ a ∈ s'.articles, a.slug ≠ slug
  otherwise : ¬ (∃ a ∈ s.articles, a.slug = slug ∧ a.authorId = caller) →
    ¬ response.success ∧ s' = s

/-- The answer is right except to a caller who tries to delete another author's article: that
delete removes nothing and is reported as a success. -/
theorem delete_reported_iff (reachable : Reachable svc s) (delete : DeleteArticle svc call slug caller)
    (ms : Nat → Moment) :
    DeleteReported slug caller s (respond svc call ms s).1 (respond svc call ms s).2 ↔
      ∀ a ∈ s.articles, a.slug = slug → a.authorId = caller := by
  have h := reachable.valid
  constructor
  · intro reported a member same
    by_contra other
    obtain ⟨deleted, _⟩ := delete.found h ms member same
    subst same
    have answer := deleted s (deleteArticleBySlug_other h.toConstraints member other)
    obtain ⟨b, mem, slug, author⟩ := (reported.success (by rw [answer]; rfl)).1
    rw [key_inj h.uniq_slug mem member slug] at author
    exact other author
  · intro own
    rcases articleIdsBySlug_cases h.toConstraints slug with ⟨_, absent⟩ | ⟨a, member, same, _⟩
    · obtain ⟨failed, same⟩ := delete.absent ms absent
      exact ⟨fun success => absurd success failed, fun _ => ⟨failed, same⟩⟩
    · have author := own a member same
      subst same author
      refine ⟨fun success => ⟨⟨a, member, rfl, rfl⟩, ?_⟩, fun none => absurd ⟨a, member, rfl, rfl⟩ none⟩
      obtain ⟨deleted, refused⟩ := delete.found h ms member rfl
      by_cases unreferenced : ∀ f ∈ s.favorites, f.articleId ≠ a.articleId
      · rw [deleted _ (deleteArticleBySlug_own h.toConstraints member unreferenced)]
        intro b remaining slug
        obtain ⟨mem, other⟩ := List.mem_filter.mp remaining
        rw [key_inj h.uniq_slug mem member slug] at other
        simp at other
      · refine absurd success (refused _ (deleteArticleBySlug_error ?_)).1
        rw [ownedBySlug_own h.toConstraints member]
        simpa using unreferenced

theorem delete_reported_sample :
    DeleteReported "hello-there" 1 samplePublished
        (respond sample (sampleDelete 1) (fun _ => sampleMoment) samplePublished).1
        (respond sample (sampleDelete 1) (fun _ => sampleMoment) samplePublished).2 ↔
      ∀ a ∈ samplePublished.articles, a.slug = "hello-there" → a.authorId = 1 :=
  delete_reported_iff samplePublished_reachable sampleDelete_anna _

theorem delete_misreported : Reachable sample samplePublished ∧
    DeleteArticle sample (sampleDelete 2) "hello-there" 2 ∧
    ¬ DeleteReported "hello-there" 2 samplePublished
        (respond sample (sampleDelete 2) (fun _ => sampleMoment) samplePublished).1
        (respond sample (sampleDelete 2) (fun _ => sampleMoment) samplePublished).2 := by
  have success : (respond sample (sampleDelete 2) (fun _ => sampleMoment) samplePublished).1.success := by
    decide
  refine ⟨samplePublished_reachable, sampleDelete_bert, fun reported => ?_⟩
  obtain ⟨a, member, _, author⟩ := (reported.success success).1
  obtain rfl := List.mem_singleton.mp member
  cases author

end

end RealWorld
