import RealWorld.Handlers.Rereads
import RealWorld.Handlers.Writes
import RealWorld.Runs
import RealWorld.Schema.TagLists

/-!
# After the write

Five handlers read back what their write left, in a later statement. No transaction spans the two,
so another client may have deleted the row by then, and only a delete can have.
-/

namespace RealWorld
open Schema Transactional

/-- What a request reads back. -/
inductive Written where
  | article (articleId : Int)
  | comment (commentId : Int)

def Written.Stored (w : Written) (s : Store) : Prop :=
  match w with
  | .article articleId => ∃ a ∈ s.articles, a.articleId = articleId
  | .comment commentId => ∃ c ∈ s.comments, c.commentId = commentId

/-- The statement that reads the row back. -/
def Written.query (userId : Int) : Written → Sql
  | .article articleId => .getArticleWithAuthorProfile articleId (some userId)
  | .comment commentId => .getComment commentId (some userId)

/-- The rest of the request once it has written. -/
def Written.readBack (svc : Service) (userId : Int) : Written → Program Response
  | .article articleId => Handlers.showArticle svc articleId userId
  | .comment commentId => showComment svc commentId userId

/-! ### Reading back -/

section
variable {svc : Service} {i : Nat} {es : List (Event Sql Sql.Res Store)} {p' : Program Response}

theorem Written.readBack_reads (w : Written) (userId : Int) : ReadsOnly (w.readBack svc userId) := by
  cases w with
  | article articleId => exact Handlers.showArticle_reads
  | comment commentId => exact .execute nofun fun _ => .lift fun _ => trivial

/-- One statement remains; it finds the row, or the row is gone. -/
theorem Written.readBack_exec (w : Written) (userId : Int) :
    ∃ next : (w.query userId).Res → Program Response, w.readBack svc userId = .exec (w.query userId) next ∧
      ∀ m s r s', Valid svc.loc s → (w.query userId).exec svc.loc m s = (r, s') →
        (∃ response, next r = .pure response ∧ response.success) ∨
          next r = .throw .resultSet ∧ ¬ w.Stored s := by
  cases w with
  | article articleId =>
    refine ⟨_, rfl, fun m s r s' valid answer => ?_⟩
    cases answer
    show (∃ response, Handlers.articleResponse svc
      (getArticleWithAuthorProfile svc.loc s.toTables articleId (some userId)) = _ ∧ _) ∨
        Handlers.articleResponse svc _ = _ ∧ _
    by_cases present : ∃ a ∈ s.articles, a.articleId = articleId
    · obtain ⟨row, model, found, _, same⟩ := showArticle_present valid present userId
      rw [found, articleResponse_single same]
      exact .inl ⟨_, rfl, rfl⟩
    · rw [getArticleWithAuthorProfile_absent (by simpa using present)]
      exact .inr ⟨rfl, present⟩
  | comment commentId =>
    refine ⟨_, rfl, fun m s r s' valid answer => ?_⟩
    cases answer
    show (∃ response, (lift (asSingleRow (getComment s.toTables commentId (some userId))) >>= _) = _ ∧ _) ∨
      (lift (asSingleRow _) >>= _) = _ ∧ _
    by_cases present : ∃ c ∈ s.comments, c.commentId = commentId
    · obtain ⟨c, member, rfl⟩ := present
      obtain ⟨row, found⟩ := getComment_of valid.toConstraints member (some userId)
      rw [asSingleRow_ok.mpr found]
      exact .inl ⟨_, rfl, rfl⟩
    · rw [getComment_absent (by simpa using present)]
      exact .inr ⟨rfl, present⟩

theorem Written.readBack_follows {w : Written} {userId : Int}
    (h : Follows (Sql.exec svc.loc) i (w.readBack svc userId) es p')
    (valid : ∀ e ∈ es, Valid svc.loc e.before) :
    (es = [] ∧ p' = w.readBack svc userId) ∨ ∃ read, es = [read] ∧ read.op = w.query userId ∧
      ((∃ response, p' = .pure response ∧ response.success) ∨
        p' = .throw .resultSet ∧ ¬ w.Stored read.before) := by
  obtain ⟨next, same, outcome⟩ := w.readBack_exec userId
  rw [same] at h ⊢
  rcases Follows.of_exec h with waiting | ⟨m, s, r, s', rest, answer, rfl, follows⟩
  · exact .inl waiting
  · right
    rcases outcome m s r s' (valid _ List.mem_cons_self) answer with ⟨response, ended, success⟩ | ⟨ended, gone⟩
    · rw [ended] at follows
      obtain ⟨rfl, rfl⟩ := Follows.of_pure follows
      exact ⟨_, rfl, rfl, .inl ⟨_, rfl, success⟩⟩
    · rw [ended] at follows
      obtain ⟨rfl, rfl⟩ := Follows.of_throw follows
      exact ⟨_, rfl, rfl, .inr ⟨rfl, gone⟩⟩

end

/-! ### What can be gone -/

def Schema.Sql.deletes : Sql → Prop
  | .deleteArticleBySlug .. | .deleteComment .. => True
  | _ => False

section
variable {loc : DbLocale} {m : Moment} {s s' : Store} {q : Sql}

theorem Schema.Effect.comment_stays {rows : List q.Row} (effect : Effect loc m s q rows s') (keeping : ¬ q.deletes) {c : Comment}
    (member : c ∈ s.comments) : c ∈ s'.comments := by
  cases effect with
  | addNewArticle done =>
    obtain ⟨_, links, _, store⟩ := addNewArticle_store done
    rw [store]
    exact member
  | updateArticleBySlug done =>
    obtain ⟨_, _, rfl⟩ := updateArticleBySlug_ok.mp done
    exact member
  | addNewComment done =>
    obtain ⟨_, _, articleId, _, _, _, _, _, rfl⟩ := addCommentToArticle_ok.mp done
    exact List.mem_append_left _ member
  | addNewUser done =>
    obtain ⟨_, _, _, _, _, _, _, rfl⟩ := insertUsers_ok.mp done
    exact member
  | updateUserById done =>
    obtain ⟨_, _, rfl⟩ := updateUserById_ok.mp done
    exact member
  | follow done =>
    obtain ⟨_, _, _, rfl⟩ := follow_ok.mp done
    exact member
  | unfollow done =>
    obtain rfl := unfollow_ok.mp done
    exact member
  | favoriteArticle done =>
    obtain ⟨_, _, _, _, _, rfl⟩ := favoriteArticle_ok.mp done
    exact member
  | unfavoriteArticle done =>
    obtain ⟨_, _, rfl⟩ := unfavoriteArticle_ok.mp done
    exact member
  | deleteArticleBySlug | deleteComment => exact absurd trivial keeping

theorem Written.kept {w : Written} {rows : List q.Row} (effect : Effect loc m s q rows s')
    (keeping : ¬ q.deletes) (stored : w.Stored s) : w.Stored s' := by
  cases w with
  | article articleId =>
    obtain ⟨a, member, rfl⟩ := stored
    refine effect.article_stays (fun deleting => keeping ?_) member
    cases q <;> first | exact deleting | cases deleting
  | comment commentId =>
    obtain ⟨c, member, same⟩ := stored
    exact ⟨c, effect.comment_stays keeping member, same⟩

theorem Written.Stored.of_tables {w : Written} (stored : w.Stored s) (same : s'.toTables = s.toTables) :
    w.Stored s' := by
  obtain ⟨t', q'⟩ := s'
  obtain rfl : t' = s.toTables := same
  cases w <;> exact stored

/-- Only a delete takes away what was stored. -/
theorem Written.lost_deletes {w : Written} (stored : w.Stored s) {r : q.Res}
    (answer : q.exec loc m s = (r, s')) (lost : ¬ w.Stored s') : q.deletes := by
  by_contra keeping
  rcases Sql.exec_cases answer with same | ⟨rows, _, _, effect⟩
  · exact lost (stored.of_tables same)
  · exact lost (kept effect keeping stored)

end

/-! ### The requests -/

/-- A statement that answered with a row. An update that matches no article answers with none. -/
def TookEffect (e : Event Sql Sql.Res Store) : Prop := ∃ rows, e.answer = .ok rows ∧ rows ≠ []

instance : DecidablePred TookEffect := fun e => match answered : e.answer with
  | .ok rows => decidable_of_iff (rows.isEmpty = false) <| by
      unfold TookEffect
      rw [answered]
      cases rows <;> simp
  | .error _ => isFalse <| by
      rintro ⟨_, ok, _⟩
      cases answered.symm.trans ok

/-- `told` is where the request of the write learns which row to read back for `userId`: it is the row written, or
the article that the slug of a favorite was looked up for. -/
inductive Tells (i : Nat) : (write told : Event Sql Sql.Res Store) → Written → (userId : Int) → Prop where
  | created {title slug description body : String} {userId : Int} {tagList : Option (List String)} {id : Int}
      {s s' : Store} : Tells i ⟨i, .addNewArticle title slug description body userId tagList, s, .ok [id], s'⟩
        ⟨i, .addNewArticle title slug description body userId tagList, s, .ok [id], s'⟩ (.article id) userId
  | updated {slug : String} {userId : Int} {title newSlug description body : Option String} {id : Int}
      {s s' : Store} : Tells i ⟨i, .updateArticleBySlug slug userId title newSlug description body, s, .ok [id], s'⟩
        ⟨i, .updateArticleBySlug slug userId title newSlug description body, s, .ok [id], s'⟩ (.article id) userId
  | commented {slug body : String} {userId id : Int} {s s' : Store} :
      Tells i ⟨i, .addNewComment slug body userId, s, .ok [id], s'⟩ ⟨i, .addNewComment slug body userId, s, .ok [id], s'⟩
        (.comment id) userId
  | favorited {slug : String} {userId id : Int} {rows : List Unit} {s₀ s s' : Store} :
      Tells i ⟨i, .favoriteArticle slug userId, s, .ok rows, s'⟩ ⟨i, .getArticleIdBySlug slug, s₀, .ok [id], s₀⟩
        (.article id) userId
  | unfavorited {slug : String} {userId id : Int} {rows : List Unit} {s₀ s s' : Store} :
      Tells i ⟨i, .unfavoriteArticle slug userId, s, .ok rows, s'⟩ ⟨i, .getArticleIdBySlug slug, s₀, .ok [id], s₀⟩
        (.article id) userId

/-- Once a write of `p` has taken effect, what is left of `p` reads back the row it was told of, which was stored
then. -/
def Rereads (svc : Service) (p : Program Response) : Prop :=
  ∀ i es p', Follows (Sql.exec svc.loc) i p es p' →
    (∀ e ∈ es, Valid svc.loc e.before ∧ Valid svc.loc e.after) →
    ∀ e ∈ es, e.op.writes → TookEffect e →
      ∃ front rest w userId, es = front ++ e :: rest ∧
        Follows (Sql.exec svc.loc) i (Written.readBack svc userId w) rest p' ∧
        ∃ told ∈ front ++ [e], Tells i e told w userId ∧ w.Stored told.after

namespace Handlers

section
variable {svc : Service} {request : HttpRequest} {auth : Option UserAuthData} {α : Type} {q : Sql}

theorem rereads_reads {p : Program Response} (reads : ReadsOnly p) : Rereads svc p := by
  intro i es p' follows _ e member writing _
  exact absurd writing (follows.issued reads e member).2

theorem rereads_lift {x : Except Exn α} {f : α → Program Response}
    (rest : ∀ a, x = .ok a → Rereads svc (f a)) : Rereads svc (lift x >>= f) := by
  cases x with
  | ok a => exact rest a rfl
  | error e => exact rereads_reads trivial

theorem rereads_validated {parsed : Except Exn α} {handle : α → Program Response}
    (rest : ∀ a, parsed = .ok a → Rereads svc (handle a)) : Rereads svc (validated parsed handle) := by
  unfold validated
  split
  · exact rest _ rfl
  · exact rereads_reads trivial
  · exact rereads_reads trivial

theorem rereads_write {next : q.Res → Program Response}
    (done : ∀ i m s rows s', Valid svc.loc s → Effect svc.loc m s q rows s' → rows ≠ [] →
      ∃ w userId, next (.ok rows) = Written.readBack svc userId w ∧ w.Stored s' ∧
        Tells i ⟨i, q, s, .ok rows, s'⟩ ⟨i, q, s, .ok rows, s'⟩ w userId)
    (reads : ∀ r, ReadsOnly (next r)) : Rereads svc (.exec q next) := by
  intro i es p' follows valid e member writing effect
  rcases follows.of_exec with ⟨rfl, _⟩ | ⟨m, s, r, s', rest, answer, rfl, continued⟩
  · cases member
  · rcases List.mem_cons.mp member with rfl | later
    · obtain ⟨rows, rfl, some⟩ : ∃ rows : List q.Row, r = .ok rows ∧ rows ≠ [] := effect
      obtain ⟨w, userId, same, stored, tells⟩ :=
        done i m s rows s' (valid _ List.mem_cons_self).1 (Sql.exec_effect writing answer) some
      rw [same] at continued
      exact ⟨[], rest, w, userId, rfl, continued, _, List.mem_singleton_self _, tells, stored⟩
    · exact absurd writing (continued.issued (reads r) e later).2

/-- A write inside a `try` block, with the article read back after the block. -/
theorem rereads_tried {fields : List (String × String)} {f : List q.Row → Program (Response ⊕ Int)}
    {userId : Int}
    (done : ∀ i m s rows s', Valid svc.loc s → Effect svc.loc m s q rows s' → rows ≠ [] →
      ∃ articleId, f rows = .pure (.inr articleId) ∧ (∃ a ∈ s'.articles, a.articleId = articleId) ∧
        Tells i ⟨i, q, s, .ok rows, s'⟩ ⟨i, q, s, .ok rows, s'⟩ (.article articleId) userId)
    (reads : ∀ rows, ReadsOnly (f rows)) :
    Rereads svc (do
      let articleId ← alreadyTaken fields (execute q >>= f)
      afterTry articleId fun articleId => showArticle svc articleId userId) := by
  refine rereads_write (q := q) (fun i m s rows s' h effect some => ?_) fun r => ?_
  · obtain ⟨articleId, same, stored, tells⟩ := done i m s rows s' h effect some
    refine ⟨.article articleId, userId, ?_, stored, tells⟩
    show (alreadyTaken fields (f rows) >>= _) = _
    rw [same]
    rfl
  · refine .bind ?_ fun _ => afterTry_reads fun _ => showArticle_reads
    cases r with
    | ok rows => exact all_alreadyTaken (reads rows)
    | error e => exact alreadyTaken_handled fields (.db e)

/-- The block starts with a step that may throw before anything is written. -/
theorem rereads_tried_lift {β : Type} {fields : List (String × String)} {x : Except Exn β}
    {f : β → Program (Response ⊕ Int)} {userId : Int}
    (rest : ∀ b, x = .ok b → Rereads svc (do
      let articleId ← alreadyTaken fields (f b)
      afterTry articleId fun articleId => showArticle svc articleId userId)) :
    Rereads svc (do
      let articleId ← alreadyTaken fields (lift x >>= f)
      afterTry articleId fun articleId => showArticle svc articleId userId) := by
  cases x with
  | ok b => exact rest b rfl
  | error e =>
    exact rereads_reads (.bind (alreadyTaken_handled fields e) fun _ =>
      afterTry_reads fun _ => showArticle_reads)

theorem Articles.Post.rereads : Rereads svc (handleRequestJsonThrow svc request auth) := by
  refine rereads_validated fun newArticle _ => rereads_lift fun user _ => ?_
  refine rereads_tried_lift fun slug _ => ?_
  refine rereads_tried (fun i m s rows s' _ effect _ => ?_) fun rows => .lift fun _ => trivial
  cases effect with
  | addNewArticle done =>
    obtain ⟨_, links, _, store⟩ := addNewArticle_store done
    rw [store]
    exact ⟨_, rfl, ⟨_, List.mem_concat_self, rfl⟩, .created⟩

theorem ArticlesSlug.Put.rereads : Rereads svc (handleRequestJsonThrow svc request auth) := by
  refine rereads_validated fun update _ => rereads_lift fun user _ => ?_
  have statement : ∀ title newSlug, Rereads svc (do
      let articleId ← alreadyTaken [("uniq_slug", "slug")] do
        let res ← execute (.updateArticleBySlug update.slug user.id title newSlug update.description
          update.body)
        if res.isEmpty then return .inl ⟨404, .null⟩
        let articleId ← lift (asSingleRow res)
        return .inr articleId
      afterTry articleId fun articleId => showArticle svc articleId user.id) := by
    intro title newSlug
    refine rereads_tried (fun i m s rows s' h effect some => ?_) fun rows => ?_
    · cases effect with
      | updateArticleBySlug done =>
        rcases updateArticleBySlug_cases h.toConstraints done with ⟨none, _⟩ | ⟨a, member, rfl⟩
        · exact absurd none some
        · exact ⟨a.articleId, rfl, ⟨a, member, rfl⟩, .updated⟩
    · split
      · trivial
      · exact .lift fun _ => trivial
  cases update.title with
  | none => exact statement none none
  | some title => exact rereads_tried_lift fun newSlug _ => statement (some title) newSlug

theorem ArticlesSlugComments.Post.rereads : Rereads svc (handleRequestJsonThrow svc request auth) := by
  refine rereads_validated fun comment _ => ?_
  refine rereads_write (fun i m s rows s' _ effect _ => ?_) fun r => ?_
  · cases effect with
    | addNewComment done =>
      obtain ⟨_, _, articleId, _, _, _, _, rfl, rfl⟩ := addCommentToArticle_ok.mp done
      exact ⟨.comment _, comment.userId, rfl, ⟨_, List.mem_concat_self, rfl⟩, .commented⟩
  · cases r with
    | ok rows =>
      refine .lift fun commentId => ?_
      exact Written.readBack_reads (.comment commentId) comment.userId
    | error e => trivial

/-- The favorite and the unfavorite handler read back the article they found at first. -/
theorem markArticle_rereads {write : String → Int → Sql}
    (tells : ∀ {i slug userId rows id s₀ s s'}, Tells i ⟨i, write slug userId, s, .ok rows, s'⟩
      ⟨i, .getArticleIdBySlug slug, s₀, .ok [id], s₀⟩ (.article id) userId) :
    Rereads svc (markArticle svc write request auth) := by
  intro i es p' follows valid e member writing effect
  rcases follows_execute follows with ⟨rfl, _⟩ | ⟨_, _, ids, s, rest, answer, rfl, resolved⟩ |
    ⟨_, _, _, _, _, rfl, _⟩
  · cases member
  · obtain ⟨rfl, rfl⟩ := Sql.exec_reading rfl answer
    have here : e ∈ rest := (List.mem_cons.mp member).resolve_left (by rintro rfl; exact writing)
    split at resolved
    · obtain ⟨rfl, _⟩ := Follows.of_pure resolved
      cases here
    · rename_i found
      rcases follows_lift resolved with ⟨user, _, marking⟩ | ⟨_, _, rfl, _⟩
      · have shows : ∀ res : List Int, ReadsOnly (do
            let articleId ← lift (asSingleRow res)
            showArticle svc articleId user.id) := by
          intro res
          exact .lift fun articleId => showArticle_reads
        rcases follows_execute marking with ⟨rfl, _⟩ | ⟨_, _, rows, _, later, _, rfl, shown⟩ |
          ⟨_, _, _, _, _, rfl, _⟩
        · cases here
        · rcases List.mem_cons.mp here with rfl | after
          · have h := (valid _ List.mem_cons_self).1.toConstraints
            rcases articleIdsBySlug_cases h (request.getPathArg "slug") with
              ⟨none, _⟩ | ⟨a, stored, _, one⟩
            · exact absurd (List.isEmpty_iff.mpr none) found
            · have single : asSingleRow (getArticleIdBySlug s.toTables (request.getPathArg "slug")) =
                  .ok a.articleId := asSingleRow_ok.mpr one
              rw [single] at shown
              have found : getArticleIdBySlug s.toTables (request.getPathArg "slug") = [a.articleId] := one
              rw [found]
              exact ⟨[_], later, .article a.articleId, user.id, rfl, shown, _, List.mem_cons_self, tells, a, stored, rfl⟩
          · exact absurd writing (shown.issued (shows _) e after).2
        · obtain rfl := List.mem_singleton.mp here
          obtain ⟨_, refused, _⟩ := effect
          cases refused
      · cases here
  · obtain rfl := List.mem_singleton.mp member
    cases writing

end

end Handlers

def Route.rereads : Route → Bool
  | .postArticles | .putArticlesSlug | .postArticlesSlugComments | .postArticlesSlugFavorite
  | .deleteArticlesSlugFavorite => true
  | _ => false

theorem deletes_elsewhere {q : Sql} {route : Route} {auth : Option UserAuthData} (deletes : q.deletes)
    (issued : q.writes → q.IssuedBy route auth) : ¬ route.rereads := by
  cases q with
  | deleteArticleBySlug =>
    cases (issued trivial).issuer
    nofun
  | deleteComment =>
    cases (issued trivial).issuer
    nofun
  | _ => cases deletes

theorem serve_rereads {svc : Service} {call : Call} (route : call.route.rereads) :
    Rereads svc (serve svc call) := by
  apply serve_rule (Rereads svc)
  · intro response
    exact Handlers.rereads_reads trivial
  · intro e
    exact Handlers.rereads_reads trivial
  · intro auth
    unfold handler
    cases same : call.route with
    | postArticles => exact Handlers.Articles.Post.rereads
    | putArticlesSlug => exact Handlers.ArticlesSlug.Put.rereads
    | postArticlesSlugComments => exact Handlers.ArticlesSlugComments.Post.rereads
    | postArticlesSlugFavorite => exact Handlers.markArticle_rereads .favorited
    | deleteArticlesSlugFavorite => exact Handlers.markArticle_rereads .unfavorited
    | _ =>
      rw [same] at route
      cases route

/-- Between `told` and `read`, two statements of one client, another client deleted the row that `read` looks for. -/
def DeletedBetween (es : List (Event Sql Sql.Res Store)) (told read : Event Sql Sql.Res Store) (w : Written) : Prop :=
  ∃ front between rest, es = front ++ told :: (between ++ read :: rest) ∧
    ∃ d ∈ between, d.client ≠ read.client ∧ d.op.deletes ∧ w.Stored d.before ∧ ¬ w.Stored d.after

/-- A row that was stored after `told` and is gone when `read` executes was deleted in between. A client
whose route reads back deletes nothing itself. -/
theorem deleted_between {svc : Service} {call : Call} {c c' : Configuration}
    {es : List (Event Sql Sql.Res Store)} {i : Nat} {p' : Program Response}
    (trace : Interleaving svc c es c') (route : call.route.rereads)
    (follows : Follows (Sql.exec svc.loc) i (serve svc call) (es.filter fun f => f.client = i) p')
    {told read : Event Sql Sql.Res Store} (pair : [told, read].Sublist (es.filter fun f => f.client = i))
    {w : Written} (stored : w.Stored told.after) (gone : ¬ w.Stored read.before) :
    DeletedBetween es told read w := by
  have client : read.client = i := of_decide_eq_true (List.mem_filter.mp (pair.subset (by simp))).2
  obtain ⟨front, between, rest, same, d, inside, held, lost⟩ :=
    trace.ended_between (pair.trans List.filter_sublist) stored gone
  have event : d ∈ es := by
    rw [same]
    simp [inside]
  obtain ⟨m, answer⟩ := trace.executed d event
  have deletes := Written.lost_deletes held answer lost
  have elsewhere : d.client ≠ read.client := by
    intro own
    have mine : d ∈ es.filter fun f => f.client = i := List.mem_filter.mpr ⟨event, by simpa using own.trans client⟩
    exact deletes_elsewhere deletes (follows.issued (serve_writes svc call).all d mine).2 route
  exact ⟨front, between, rest, same, d, inside, elsewhere, deletes, held, lost⟩

/-- Client `i` goes on from its write `e`: it has only the row `w` left to read back, or it has looked for that row
and answered with success, or failed because another client deleted the row before it was read. -/
def GoesOn (svc : Service) (es : List (Event Sql Sql.Res Store)) (c' : Configuration) (i : Nat)
    (e told : Event Sql Sql.Res Store) (w : Written) (userId : Int) : Prop :=
  c'.active[i]? = some (w.readBack svc userId) ∨
    ∃ read, [e, read].Sublist es ∧ read.client = i ∧ read.op = w.query userId ∧
      ((∃ response, c'.active[i]? = some (.pure response) ∧ response.success) ∨
        c'.active[i]? = some (.throw .resultSet) ∧ DeletedBetween es told read w)

/-- In every interleaving, a request whose write took effect was told a row, by the write or by the lookup before
it, and goes on with that row. -/
theorem write_then_success {svc : Service} {call : Call} {c c' : Configuration}
    {es : List (Event Sql Sql.Res Store)} {i : Nat} (reachable : ReachableConfig svc c)
    (trace : Interleaving svc c es c') (arrived : c.active[i]? = some (serve svc call))
    (route : call.route.rereads) {e : Event Sql Sql.Res Store} (member : e ∈ es) (own : e.client = i)
    (writing : e.op.writes) (effect : TookEffect e) :
    ∃ told w userId, (told = e ∨ [told, e].Sublist es) ∧ Tells i e told w userId ∧ GoesOn svc es c' i e told w userId := by
  obtain ⟨p', there, follows⟩ := trace.follows arrived
  have valid := (reachable.valid trace).2.2
  have mine : ∀ f ∈ es.filter fun f => f.client = i,
      Valid svc.loc f.before ∧ Valid svc.loc f.after := by
    intro f listed
    exact valid f (List.mem_filter.mp listed).1
  have listed : e ∈ es.filter fun f => f.client = i := List.mem_filter.mpr ⟨member, by simpa using own⟩
  obtain ⟨front, rest, w, userId, split, reading, told, before, tells, stored⟩ :=
    serve_rereads route i _ p' follows mine e listed writing effect
  have validRest : ∀ f ∈ rest, Valid svc.loc f.before := by
    intro f later
    refine (mine f ?_).1
    rw [split]
    exact List.mem_append_right _ (List.mem_cons_of_mem _ later)
  have order : told = e ∨ [told, e].Sublist es := by
    rcases List.mem_append.mp before with earlier | here
    · right
      refine .trans ?_ (List.filter_sublist (p := fun f => f.client = i))
      rw [split]
      exact (List.singleton_sublist.mpr earlier).append (List.singleton_sublist.mpr List.mem_cons_self)
    · exact .inl (List.mem_singleton.mp here)
  refine ⟨told, w, userId, order, tells, ?_⟩
  unfold GoesOn
  rw [there]
  rcases Written.readBack_follows reading validRest with ⟨_, rfl⟩ | ⟨read, rfl, query, outcome⟩
  · exact .inl rfl
  · have pair : ∀ x ∈ front ++ [e], [x, read].Sublist (es.filter fun f => f.client = i) := by
      intro x earlier
      rw [split, List.append_cons]
      exact (List.singleton_sublist.mpr earlier).append (.refl [read])
    have after := (pair e (List.mem_append_right _ (List.mem_singleton_self e))).trans List.filter_sublist
    have client : read.client = i :=
      of_decide_eq_true (List.mem_filter.mp ((pair told before).subset (by simp))).2
    refine .inr ⟨read, after, client, query, ?_⟩
    rcases outcome with ⟨response, rfl, success⟩ | ⟨rfl, gone⟩
    · exact .inl ⟨response, rfl, success⟩
    · exact .inr ⟨rfl, deleted_between trace route follows (pair told before) stored gone⟩

def sampleComment : Call :=
  sampleCall .postArticlesSlugComments 2 [("slug", "hello-there")]
    (.obj [("comment", .obj [("body", .str "Good to know")])])

/-- The comment is stored, the author deletes the article with it, the comment is read back. -/
def sampleDeletion : List (Move Call Moment) :=
  [sampleStep 3, .arrive (sampleCall .deleteArticlesSlug 1 [("slug", "hello-there")]), sampleStep 4,
    sampleStep 4, sampleStep 3]

theorem sampleComment_written (moves : List (Move Call Moment))
    (written : (sampleSchedule moves (sampleArrived sampleComment)).1.any
      (fun e => decide (e.client = 3 ∧ e.op.writes ∧ TookEffect e)) = true) :
    ∃ e ∈ (sampleSchedule moves (sampleArrived sampleComment)).1,
      e.client = 3 ∧ e.op.writes ∧ TookEffect e := by
  obtain ⟨e, member, facts⟩ := List.any_eq_true.mp written
  exact ⟨e, member, of_decide_eq_true facts⟩

theorem write_then_success_sample :
    let schedule := sampleSchedule [sampleStep 3, sampleStep 3] (sampleArrived sampleComment)
    ∃ e ∈ schedule.1, ∃ told w userId, (told = e ∨ [told, e].Sublist schedule.1) ∧ Tells 3 e told w userId ∧
      GoesOn sample schedule.1 schedule.2 3 e told w userId := by
  obtain ⟨e, member, client, writing, effect⟩ :=
    sampleComment_written [sampleStep 3, sampleStep 3] (by decide +kernel)
  refine ⟨e, member, ?_⟩
  exact write_then_success (sampleArrived_reachable _) (sampleSchedule_trace _ _)
    (sampleArrived_active sampleComment) (by decide) member client writing effect

theorem comment_written_then_failed :
    ∃ es c', ReachableConfig sample (sampleArrived sampleComment) ∧
      Interleaving sample (sampleArrived sampleComment) es c' ∧
      (sampleArrived sampleComment).active[3]? = some (serve sample sampleComment) ∧
      (∃ e ∈ es, e.client = 3 ∧ e.op.writes ∧ TookEffect e) ∧
      c'.active[3]? = some (.throw .resultSet) := by
  have written := sampleComment_written sampleDeletion (by decide +kernel)
  have failed : ((sampleSchedule sampleDeletion (sampleArrived sampleComment)).2.outcome 3).any
      (fun result => result.casesOn (fun e => decide (e = .resultSet)) fun _ => false) = true := by decide +kernel
  obtain ⟨result, found, same⟩ := (Option.any_eq_true _ _).mp failed
  cases result with
  | ok response => cases same
  | error e =>
    obtain rfl := of_decide_eq_true same
    exact ⟨_, _, sampleArrived_reachable _, sampleSchedule_trace _ _, sampleArrived_active _, written,
      Config.outcome_error.mp found⟩

end RealWorld
