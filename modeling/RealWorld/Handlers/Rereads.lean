import RealWorld.Handlers.Outcomes
import RealWorld.Schema.Lookups

/-!
# Reading back what was written

Three handlers end with `showArticle`, one with the new comment. Over a valid store such a read
succeeds as soon as the row is there: it has one author, and no tag in its list is NULL.
-/

namespace RealWorld
open Schema Transactional

theorem mapM_some {α : Type} {options : List (Option α)} (all : ∀ o ∈ options, ∃ a, o = some a) :
    ∃ values, options.mapM id = some values := by
  induction options with
  | nil => exact ⟨[], rfl⟩
  | cons o options ih =>
    obtain ⟨a, rfl⟩ := all o List.mem_cons_self
    have others : ∀ o ∈ options, ∃ a, o = some a := by
      intro o member
      exact all o (List.mem_cons_of_mem _ member)
    obtain ⟨values, rest⟩ := ih others
    refine ⟨a :: values, ?_⟩
    rw [List.mapM_cons, rest]
    rfl

theorem ArticleModel.read_ok {row : ArticleWithAuthorProfile}
    (named : ∀ o ∈ row.tagList, ∃ name, o = some name) : ∃ model, ArticleModel.read row = .ok model := by
  obtain ⟨tags, listed⟩ := mapM_some named
  unfold ArticleModel.read
  rw [listed]
  exact ⟨_, rfl⟩

section
variable {loc : DbLocale} {s : Store} {q : Sql}

/-- The write of a handler: it fails without a trace, or its effect is followed by `f`. -/
theorem ensures_write {α : Type} {f : List q.Row → Program α} {post : Except Exn α → Store → Prop}
    (h : Valid loc s) (writing : q.writes)
    (rest : ∀ m rows s', Valid loc s' → Effect loc m s q rows s' →
      (f rows).Ensures (Sql.exec loc) s' post)
    (failed : ∀ e s', s'.toTables = s.toTables → post (.error e) s') :
    (execute q >>= f).Ensures (Sql.exec loc) s post := by
  apply ensures_execute
  · intro m rows s' answer
    have valid := h.exec (m := m) q
    rw [answer] at valid
    exact rest m rows s' valid (Sql.exec_effect writing answer)
  · intro m e s' answer
    exact failed _ s' (Sql.exec_error answer)

end

def articleBody (svc : Service) (model : ArticleModel) : Json :=
  .obj [("article", serializeArticle svc.json (Dto.Article.parse model))]

section
variable {svc : Service} {s : Store}

theorem articleResponse_single {row : ArticleWithAuthorProfile} {model : ArticleModel}
    (read : ArticleModel.read row = .ok model) :
    Handlers.articleResponse svc [row] = .pure ⟨200, articleBody svc model⟩ := by
  unfold Handlers.articleResponse
  simp only [asSingleRow, lift_ok, Prog.pure_bind, read]
  rfl

theorem article_present (h : Valid svc.loc s) {a : Article} (member : a ∈ s.articles)
    (viewer : Option Int) :
    ∃ row model, getArticleWithAuthorProfile svc.loc s.toTables a.articleId viewer = [row] ∧
      row.articleId = a.articleId ∧ row.slug = a.slug ∧ ArticleModel.read row = .ok model := by
  obtain ⟨u, _, _, found⟩ := getArticleWithAuthorProfile_of h.toConstraints member viewer
  have named : ∀ o ∈ getArticleTagList svc.loc s.toTables a.articleId, ∃ name, o = some name :=
    getArticleTagList_named h.named a.articleId
  obtain ⟨model, read⟩ : ∃ model, ArticleModel.read (a.shown svc.loc s.toTables
      (isFavoritedArticle s.toTables a.articleId viewer)
      (favoritesOf s.toTables a.articleId).length (u.profile s.toTables viewer)) = .ok model :=
    ArticleModel.read_ok named
  exact ⟨_, model, found, rfl, rfl, read⟩

theorem showArticle_present (h : Valid svc.loc s) {articleId : Int}
    (present : ∃ a ∈ s.articles, a.articleId = articleId) (userId : Int) :
    ∃ row model, getArticleWithAuthorProfile svc.loc s.toTables articleId (some userId) = [row] ∧
      row.articleId = articleId ∧ ArticleModel.read row = .ok model := by
  obtain ⟨a, member, rfl⟩ := present
  obtain ⟨row, model, found, id, _, read⟩ := article_present h member (some userId)
  exact ⟨row, model, found, id, read⟩

theorem showArticle_succeeds (h : Valid svc.loc s) {articleId userId : Int}
    (present : ∃ a ∈ s.articles, a.articleId = articleId) :
    (Handlers.showArticle svc articleId userId).Ensures (Sql.exec svc.loc) s fun r _ => Succeeds r := by
  obtain ⟨row, model, found, _, read⟩ := showArticle_present h present userId
  apply ensures_execute
  · intro m rows s' answer
    obtain ⟨rfl, rfl⟩ := Sql.exec_reading rfl answer
    rw [found, articleResponse_single read]
    exact .pure ⟨_, rfl, rfl⟩
  · intro m e s' answer
    cases answer

/-- The comment handler ends by reading the new comment back. -/
def showComment (svc : Service) (commentId userId : Int) : Program Response := do
  let res ← execute (.getComment commentId (some userId))
  let row ← lift (asSingleRow res)
  Handlers.ok (.obj [("comment", serializeComment svc.json row)])

theorem showComment_succeeds (h : Valid svc.loc s) {commentId userId : Int}
    (present : ∃ c ∈ s.comments, c.commentId = commentId) :
    (showComment svc commentId userId).Ensures (Sql.exec svc.loc) s fun r _ => Succeeds r := by
  obtain ⟨c, member, rfl⟩ := present
  obtain ⟨row, found⟩ := getComment_of h.toConstraints member (some userId)
  apply ensures_execute
  · intro m rows s' answer
    obtain ⟨rfl, rfl⟩ := Sql.exec_reading rfl answer
    have one : asSingleRow (getComment s'.toTables c.commentId (some userId)) = .ok row :=
      asSingleRow_ok.mpr found
    rw [one]
    exact .pure ⟨_, rfl, rfl⟩
  · intro m e s' answer
    cases answer

end

end RealWorld
