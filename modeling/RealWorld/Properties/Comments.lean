import RealWorld.Properties.MissingSlug

/-!
# The comments of an article

They are listed by the slug of the article, in any order, and deleted by their id, their author and the slug.
-/

namespace RealWorld
open Schema Relational Transactional

def commentsOf (t : Tables) (a : Article) : List Comment := t.comments.filter fun c => c.articleId = a.articleId

/-- A request for the comments of an article that passes the authorization check. -/
structure CommentsRequest (svc : Service) (call : Call) (slug : String) : Prop where
  route : call.route = .getArticlesSlugComments
  slug : call.request.getPathArg "slug" = slug
  authorized : ∃ auth, serve svc call = handler svc call auth

/-- The answer is an object with the array of the comments of `a`, each once and with its author. -/
def CommentsListed (svc : Service) (call : Call) (ms : Nat → Moment) (s : Store) (a : Article) : Prop :=
  ∃ comments : List Comment, comments.Perm (commentsOf s.toTables a) ∧
    ∃ author : Comment → User, (∀ c ∈ comments, author c ∈ s.users ∧ (author c).userId = c.authorId) ∧
      respond svc call ms s = (⟨200, .obj [("comments", .arr (comments.map fun c => serializeComment svc.json
        (c.select ((author c).profile s.toTables ((call.caller svc).map (·.id))))))]⟩, s)

section
variable {loc : DbLocale} {t : Tables} {a : Article} {m : Moment}

/-- The join of the query keeps the comments of the one article that has the slug. -/
theorem joined_comments (h : Constraints loc t) (member : a ∈ t.articles) :
    ((t.comments.flatMap fun c => (t.articles.filter fun b => b.articleId = c.articleId).map fun b => (c, b)).filter
      fun (_, b) => b.slug = a.slug) = (commentsOf t a).map fun c => (c, a) := by
  have each : ∀ cs : List Comment, (∀ c ∈ cs, c ∈ t.comments) →
      ((cs.flatMap fun c => (t.articles.filter fun b => b.articleId = c.articleId).map fun b => (c, b)).filter
        fun (_, b) => b.slug = a.slug) = (cs.filter fun c => c.articleId = a.articleId).map fun c => (c, a) := by
    intro cs stored
    induction cs with
    | nil => rfl
    | cons c cs ih =>
      obtain ⟨here, others⟩ := List.forall_mem_cons.mp stored
      obtain ⟨b, mem, same⟩ := h.comments_fk_article c here
      have one : (t.articles.filter fun b => b.articleId = c.articleId) = [b] := by
        rw [← same]
        exact filter_key h.pk_articles mem
      rw [List.flatMap_cons, one, List.filter_append, ih others]
      by_cases own : c.articleId = a.articleId
      · obtain rfl := article_eq h mem member (same.trans own)
        rw [List.filter_cons_of_pos (by simpa using own)]
        simp
      · have other : b.slug ≠ a.slug := fun slug => own (key_inj h.uniq_slug mem member slug ▸ same.symm)
        rw [List.filter_cons_of_neg (by simpa using own)]
        simp [other]
  exact each t.comments fun _ stored => stored

theorem getCommentsFromArticle_rows (h : Constraints loc t) (member : a ∈ t.articles) {author : Comment → User}
    (authors : ∀ c ∈ t.comments, author c ∈ t.users ∧ (author c).userId = c.authorId) (viewer : Option Int) :
    getCommentsFromArticle m t a.slug viewer =
      (m.scan (commentsOf t a)).map fun c => c.select ((author c).profile t viewer) := by
  have stored : ∀ c ∈ m.scan (commentsOf t a), author c ∈ t.users ∧ (author c).userId = c.authorId := fun c mem =>
    authors c (List.mem_filter.mp ((m.scan_perm _).subset mem)).1
  have scanned : m.scan ((commentsOf t a).map fun c => (c, a)) = (m.scan (commentsOf t a)).map fun c => (c, a) := by
    unfold Moment.scan
    rw [List.length_map, arrange_map]
  rw [← flatMap_profiles h stored viewer Comment.select]
  unfold getCommentsFromArticle
  dsimp only
  rw [joined_comments h member, scanned, List.flatMap_map]

end

section
variable {svc : Service} {call : Call} {s : Store} {ms : Nat → Moment} {a : Article}

theorem CommentsRequest.serve_eq {slug : String} (request : CommentsRequest svc call slug) :
    serve svc call = Handlers.ArticlesSlugComments.Get.handleRequestJsonThrow svc call.request (call.caller svc) := by
  have entered : ∀ auth, handler svc call auth =
      Handlers.ArticlesSlugComments.Get.handleRequestJsonThrow svc call.request auth := by
    intro auth
    unfold handler
    rw [request.route]
  obtain ⟨auth, program⟩ := request.authorized
  rw [entered] at program
  rcases serve_entered svc call with ⟨_, same⟩ | ⟨_, same⟩ | same
  · rw [same] at program
    cases program
  · rw [same] at program
    cases program
  · rw [same, entered]

theorem CommentsRequest.respond_eq (request : CommentsRequest svc call a.slug) (h : Valid svc.loc s) (member : a ∈ s.articles) :
    respond svc call ms s =
      (if (getCommentsFromArticle (ms 0) s.toTables a.slug ((call.caller svc).map (·.id))).isEmpty then ⟨200, .null⟩
        else ⟨200, .obj [("comments", .arr ((getCommentsFromArticle (ms 0) s.toTables a.slug
          ((call.caller svc).map (·.id))).map (serializeComment svc.json)))]⟩, s) := by
  have text : (Sql.getCommentsFromArticle a.slug ((call.caller svc).map (·.id))).texts.all storable := by
    simpa [Sql.texts] using h.text_articles a member
  have answer : (Sql.getCommentsFromArticle a.slug ((call.caller svc).map (·.id))).exec svc.loc (ms 0) s =
      (.ok (getCommentsFromArticle (ms 0) s.toTables a.slug ((call.caller svc).map (·.id))), s) :=
    Sql.exec_storable text
  unfold respond
  rw [request.serve_eq, Handlers.ArticlesSlugComments.Get.handleRequestJsonThrow, request.slug, run_execute_ok answer]
  split <;> rfl

/-- The list is as claimed for every article that has a comment; for the others it is no object. -/
theorem comments_listed_iff (reachable : Reachable svc s) (member : a ∈ s.articles) (request : CommentsRequest svc call a.slug)
    (ms : Nat → Moment) : CommentsListed svc call ms s a ↔ ∃ c ∈ s.comments, c.articleId = a.articleId := by
  have valid := reachable.valid
  obtain ⟨author, authors⟩ := exists_users valid.comments_fk_author
  have rows := @getCommentsFromArticle_rows svc.loc s.toTables a (ms 0) valid.toConstraints member author authors
    ((call.caller svc).map (·.id))
  have perm : ((ms 0).scan (commentsOf s.toTables a)).Perm (commentsOf s.toTables a) := (ms 0).scan_perm _
  have answered := @CommentsRequest.respond_eq svc call s ms a request valid member
  rw [rows] at answered
  constructor
  · rintro ⟨comments, _, _, _, listed⟩
    by_contra none
    have empty : (ms 0).scan (commentsOf s.toTables a) = [] := by
      have nothing : commentsOf s.toTables a = [] := by
        refine List.filter_eq_nil_iff.mpr fun c stored own => none ⟨c, stored, of_decide_eq_true own⟩
      rw [nothing] at perm ⊢
      exact List.perm_nil.mp perm
    rw [empty, listed] at answered
    cases answered
  · rintro ⟨c, stored, own⟩
    have shown : c ∈ (ms 0).scan (commentsOf s.toTables a) :=
      perm.mem_iff.mpr (List.mem_filter.mpr ⟨stored, decide_eq_true own⟩)
    refine ⟨(ms 0).scan (commentsOf s.toTables a), perm, author, fun d mem => ?_, ?_⟩
    · exact authors d (List.mem_filter.mp (perm.subset mem)).1
    · rw [answered, if_neg, List.map_map]
      · rfl
      · intro empty
        rw [List.isEmpty_iff, List.map_eq_nil_iff] at empty
        rw [empty] at shown
        cases shown

end

/-- Bert has commented on the article of anna, and anna has answered. -/
def sampleCommented : Store :=
  { samplePublished with
    comments := [
      { commentId := 1, authorId := 2, articleId := 1, body := "Well done", createdAt := 0, updatedAt := 0 },
      { commentId := 2, authorId := 1, articleId := 1, body := "Thank you", createdAt := 0, updatedAt := 0 }]
    commentsSeq := 2 }

theorem sampleCommented_reachable : Reachable sample sampleCommented := by
  have served : sampleServe
      [sampleCall .postArticlesSlugComments 2 [("slug", "hello-there")] (.obj [("comment", .obj [("body", .str "Well done")])]),
        sampleCall .postArticlesSlugComments 1 [("slug", "hello-there")] (.obj [("comment", .obj [("body", .str "Thank you")])])]
      samplePublished = sampleCommented := by decide +kernel
  exact served ▸ sampleServe_reachable samplePublished_reachable

/-- `GET /api/articles/hello-there/comments`, of nobody. -/
def sampleComments : Call :=
  { route := .getArticlesSlugComments, request := { pathArgs := [("slug", "hello-there")] } }

theorem sampleComments_request : CommentsRequest sample sampleComments sampleArticle.slug := ⟨rfl, rfl, none, rfl⟩

theorem comments_listed_sample :
    CommentsListed sample sampleComments (fun _ => sampleMoment) sampleCommented sampleArticle ↔
      ∃ c ∈ sampleCommented.comments, c.articleId = sampleArticle.articleId :=
  comments_listed_iff sampleCommented_reachable (List.mem_singleton_self _) sampleComments_request _

/-- For an article without comments the member `comments` is missing. -/
theorem comments_null : Reachable sample samplePublished ∧ sampleArticle ∈ samplePublished.articles ∧
    CommentsRequest sample sampleComments sampleArticle.slug ∧
    ¬ CommentsListed sample sampleComments (fun _ => sampleMoment) samplePublished sampleArticle := by
  refine ⟨samplePublished_reachable, List.mem_singleton_self _, sampleComments_request, ?_⟩
  rintro ⟨comments, perm, _, _, listed⟩
  have null : respond sample sampleComments (fun _ => sampleMoment) samplePublished = (⟨200, .null⟩, samplePublished) := rfl
  rw [null] at listed
  cases listed

/-! ### Deleting a comment -/

/-- The comment `id` is one by `caller` on the article that has `slug`. -/
def Deletable (t : Tables) (id caller : Int) (slug : String) (c : Comment) : Prop :=
  c.commentId = id ∧ c.authorId = caller ∧ ∃ a ∈ t.articles, a.slug = slug ∧ a.articleId = c.articleId

instance (t : Tables) (id caller : Int) (slug : String) : DecidablePred (Deletable t id caller slug) := fun c => by
  unfold Deletable
  infer_instance

/-- A request of `caller` to delete the comment `id` of the article with `slug`. -/
structure CommentDeletion (svc : Service) (call : Call) (id : Int) (slug : String) (caller : Int) : Prop where
  addressed : SlugAddressed svc call .deleteArticlesSlugComments slug caller
  id : lexicalCastInt32 (call.request.getPathArg "id") = .ok id

section
variable {loc : DbLocale} {t : Tables} {s : Store} {m : Moment} {id caller : Int} {slug : String} {articleId : Option Int}

/-- The subquery of both statements finds no article or one. -/
theorem exists_articleId (h : Constraints loc t) (slug : String) :
    ∃ articleId : Option Int, articleIdsBySlug t slug = articleId.toList := by
  rcases articleIdsBySlug_cases h slug with ⟨none, _⟩ | ⟨a, _, _, one⟩
  · exact ⟨.none, none⟩
  · exact ⟨some a.articleId, one⟩

/-- The condition the two statements share. Without an article it is UNKNOWN. -/
theorem commentMatches_iff (found : articleIdsBySlug t slug = articleId.toList) {c : Comment} :
    commentMatches id caller articleId c = decide (Deletable t id caller slug c) := by
  rw [commentMatches_eq]
  refine decide_eq_decide.mpr (and_congr_right fun _ => and_congr_right fun _ => ?_)
  rw [← mem_articleIdsBySlug, found, Option.mem_toList]

theorem isCommentExist_exec (h : Constraints loc s.toTables) (text : storable slug) :
    (Sql.isCommentExist id slug caller).exec loc m s =
      (.ok [decide (∃ c ∈ s.comments, Deletable s.toTables id caller slug c)], s) := by
  obtain ⟨articleId, found⟩ := exists_articleId h slug
  have any : s.comments.any (commentMatches id caller articleId) =
      decide (∃ c ∈ s.comments, Deletable s.toTables id caller slug c) := by
    rw [Bool.eq_iff_iff, List.any_eq_true, decide_eq_true_eq]
    simp only [commentMatches_iff found, decide_eq_true_eq]
  rw [Sql.exec_storable (by simpa [Sql.texts] using text)]
  exact singleton_ok.mpr ⟨_, rfl, isCommentExist_ok.mpr ⟨articleId, found, any.symm, rfl⟩⟩

/-- The statement deletes the one row that the lookup has found. -/
theorem deleteComment_exec (h : Constraints loc s.toTables) (text : storable slug) {c : Comment} (stored : c ∈ s.comments)
    (deletable : Deletable s.toTables id caller slug c) :
    (Sql.deleteComment id slug caller).exec loc m s =
      (.ok [()], { s with comments := s.comments.filter fun d => d.commentId ≠ id }) := by
  obtain ⟨articleId, found⟩ := exists_articleId h slug
  have kept : (s.comments.filter fun d => !commentMatches id caller articleId d) =
      s.comments.filter fun d => d.commentId ≠ id := by
    refine List.filter_congr fun d member => ?_
    rw [commentMatches_iff found, Bool.eq_iff_iff]
    simp only [Bool.not_eq_true', decide_eq_false_iff_not, decide_eq_true_eq, not_iff_not]
    refine ⟨fun other => other.1, fun same => ?_⟩
    rwa [key_inj h.pk_comments member stored (same.trans deletable.1.symm)]
  rw [Sql.exec_storable (by simpa [Sql.texts] using text), ← kept]
  exact singleton_ok.mpr ⟨(), rfl, deleteComment_ok.mpr ⟨articleId, found, rfl⟩⟩

end

section
variable {svc : Service} {call : Call} {s : Store} {id caller : Int} {slug : String}

theorem CommentDeletion.deletes (request : CommentDeletion svc call id slug caller) (h : Constraints svc.loc s.toTables)
    (text : storable slug) (ms : Nat → Moment) {c : Comment} (stored : c ∈ s.comments)
    (deletable : Deletable s.toTables id caller slug c) : respond svc call ms s =
      (⟨200, .null⟩, { s with comments := s.comments.filter fun d => d.commentId ≠ id }) := by
  have lookup := @isCommentExist_exec _ s (ms 0) id caller slug h text
  rw [decide_eq_true ⟨c, stored, deletable⟩] at lookup
  unfold respond
  rw [request.addressed.deleteComment_serve request.id, run_execute_ok lookup]
  have deleted := @deleteComment_exec _ s (ms 1) id caller slug h text c stored deletable
  show (Response.ofExcept ((execute (.deleteComment id slug caller) >>= fun _ => Handlers.ok .null).run (Sql.exec svc.loc)
    (fun n => ms (n + 1)) s).1, ((execute (.deleteComment id slug caller) >>= fun _ => Handlers.ok .null).run (Sql.exec svc.loc)
    (fun n => ms (n + 1)) s).2) = _
  rw [run_execute_ok deleted]
  rfl

theorem CommentDeletion.misses (request : CommentDeletion svc call id slug caller) (h : Constraints svc.loc s.toTables)
    (text : storable slug) (ms : Nat → Moment) (none : ∀ c ∈ s.comments, ¬ Deletable s.toTables id caller slug c) :
    respond svc call ms s = (⟨404, .null⟩, s) := by
  have lookup := @isCommentExist_exec _ s (ms 0) id caller slug h text
  rw [decide_eq_false fun ⟨c, stored, deletable⟩ => none c stored deletable] at lookup
  unfold respond
  rw [request.addressed.deleteComment_serve request.id, run_execute_ok lookup]
  rfl

theorem CommentDeletion.unsent (request : CommentDeletion svc call id slug caller) (text : ¬ storable slug)
    (ms : Nat → Moment) : respond svc call ms s = (⟨500, .null⟩, s) := by
  have unbound : ¬ (Sql.isCommentExist id slug caller).texts.all storable := by simpa [Sql.texts] using text
  unfold respond
  rw [request.addressed.deleteComment_serve request.id, run_execute_error (Sql.exec_unstorable unbound)]
  rfl

/-- With a slug that PostgreSQL can hold the request deletes exactly the comment it names, if it is one by the caller on
the article with the slug, and finds nothing otherwise; without one it fails. -/
theorem comment_deletion (reachable : Reachable svc s) (request : CommentDeletion svc call id slug caller) (ms : Nat → Moment) :
    (storable slug → ((respond svc call ms s).1.success ↔ ∃ c ∈ s.comments, Deletable s.toTables id caller slug c) ∧
      (∀ c ∈ s.comments, Deletable s.toTables id caller slug c → respond svc call ms s =
        (⟨200, .null⟩, { s with comments := s.comments.filter fun d => d.commentId ≠ id })) ∧
      ((∀ c ∈ s.comments, ¬ Deletable s.toTables id caller slug c) → respond svc call ms s = (⟨404, .null⟩, s))) ∧
    (¬ storable slug → respond svc call ms s = (⟨500, .null⟩, s)) := by
  have h := reachable.valid.toConstraints
  refine ⟨fun text => ⟨?_, fun c => request.deletes h text ms, request.misses h text ms⟩, fun text => request.unsent text ms⟩
  constructor
  · intro success
    by_contra none
    rw [request.misses h text ms fun c stored deletable => none ⟨c, stored, deletable⟩] at success
    cases success
  · rintro ⟨c, stored, deletable⟩
    rw [request.deletes h text ms stored deletable]
    rfl

end

/-- `DELETE /api/articles/{slug}/comments/1`, of bert. -/
def sampleUncomment (slug : String) : Call := sampleCall .deleteArticlesSlugComments 2 [("slug", slug), ("id", (1 : Nat).repr)]

theorem sampleUncomment_request (slug : String) : CommentDeletion sample (sampleUncomment slug) 1 slug 2 := by
  have token : (sampleUncomment "").caller sample = some (sampleData 2) := by decide
  have same : (sampleUncomment slug).caller sample = (sampleUncomment "").caller sample := Call.caller_congr rfl rfl
  exact ⟨⟨rfl, rfl, sampleData 2, same.trans token, rfl⟩, lexicalCastInt32_repr (by decide)⟩

theorem comment_deletion_sample :
    (storable "hello-there" →
      ((respond sample (sampleUncomment "hello-there") (fun _ => sampleMoment) sampleCommented).1.success ↔
        ∃ c ∈ sampleCommented.comments, Deletable sampleCommented.toTables 1 2 "hello-there" c) ∧
      (∀ c ∈ sampleCommented.comments, Deletable sampleCommented.toTables 1 2 "hello-there" c →
        respond sample (sampleUncomment "hello-there") (fun _ => sampleMoment) sampleCommented =
          (⟨200, .null⟩, { sampleCommented with comments := sampleCommented.comments.filter fun d => d.commentId ≠ 1 })) ∧
      ((∀ c ∈ sampleCommented.comments, ¬ Deletable sampleCommented.toTables 1 2 "hello-there" c) →
        respond sample (sampleUncomment "hello-there") (fun _ => sampleMoment) sampleCommented =
          (⟨404, .null⟩, sampleCommented))) ∧
    (¬ storable "hello-there" → respond sample (sampleUncomment "hello-there") (fun _ => sampleMoment) sampleCommented =
      (⟨500, .null⟩, sampleCommented)) :=
  comment_deletion sampleCommented_reachable (sampleUncomment_request "hello-there") _

/-- No article has a slug with U+0000, and the answer is an internal error instead of 404. -/
theorem comment_deletion_fails : Reachable sample sampleCommented ∧
    CommentDeletion sample (sampleUncomment (String.singleton (Char.ofNat 0))) 1 (String.singleton (Char.ofNat 0)) 2 ∧
    (∀ c ∈ sampleCommented.comments, ¬ Deletable sampleCommented.toTables 1 2 (String.singleton (Char.ofNat 0)) c) ∧
    (respond sample (sampleUncomment (String.singleton (Char.ofNat 0))) (fun _ => sampleMoment) sampleCommented).1.status ≠ 404 := by
  refine ⟨sampleCommented_reachable, sampleUncomment_request _, by decide, ?_⟩
  rw [(sampleUncomment_request _).unsent (by decide)]
  decide

end RealWorld
