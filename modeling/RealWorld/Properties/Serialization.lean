import RealWorld.Handlers.Marks
import RealWorld.Handlers.Singles
import RealWorld.Properties.Comments
import RealWorld.Properties.Identities
import RealWorld.Properties.Repeated
import RealWorld.Runs

/-!
# Interleaved requests and requests one at a time

No transaction spans the statements of a request. Still every store that any number of interleaved
requests can leave is one that requests answered one after the other leave, with the same writes in the
same order.
-/

namespace RealWorld
open Schema Transactional

/-- The same request, except that the route may name another resource. -/
def Call.SameButPath (call call' : Call) : Prop :=
  call' = { call with request := { call.request with pathArgs := call'.request.pathArgs } }

/-- Answered alone at `s`, the request does to the store what `q` does, and if that is anything at all then its one
write is `q`, with the same answer. -/
def DoesAlone (svc : Service) (call : Call) (ms : Nat → Moment) (q : Sql) (m : Moment) (s : Store) : Prop :=
  (respond svc call ms s).2 = (q.exec svc.loc m s).2 ∧ ((q.exec svc.loc m s).2 ≠ s →
    (serve svc call).writesAlone (Sql.exec svc.loc) Sql.writes ms s = [⟨q, (q.exec svc.loc m s).1⟩])

/-- If `q` is the write of a request, one like it does the same when it is answered alone at `s`. -/
def AnsweredAlone (svc : Service) (call : Call) (q : Sql) (m : Moment) (s : Store) : Prop :=
  q.writes → Valid svc.loc s → ∃ call' ms, call.SameButPath call' ∧ DoesAlone svc call' ms q m s

/-- From `s` on, and whatever other requests do, every write of `p` is one a request makes alone. -/
abbrev Accountable (svc : Service) (call : Call) (p : Program Response) (s : Store) : Prop :=
  p.Finds (Sql.exec svc.loc) (Store.Later svc.loc) (AnsweredAlone svc call) s

section
variable {svc : Service} {call call' : Call} {p : Program Response} {s : Store} {q : Sql} {α β : Type}

theorem Call.SameButPath.refl (call : Call) : call.SameButPath call := rfl

theorem Call.SameButPath.route (same : call.SameButPath call') : call'.route = call.route := by
  rw [same]

theorem Call.SameButPath.caller (same : call.SameButPath call') : call'.caller svc = call.caller svc := by
  apply Call.caller_congr
  · rw [same]
  · rw [same]

/-! ### Requests that write with their first statement -/

theorem accountable_first (h : FirstWrites Sql.writes (serve svc call)) : Accountable svc call (serve svc call) s := by
  have reads : ∀ (q : Sql) m s, ¬ q.writes → (q.exec svc.loc m s).2 = s := fun q _ _ reading => Sql.exec_reads reading rfl
  refine Prog.Finds.mono (h.finds reads) fun q m s alone writing _ => ?_
  obtain ⟨left, wrote⟩ := alone writing
  exact ⟨call, fun _ => m, .refl call, left, fun _ => wrote⟩

namespace Handlers

variable {request : HttpRequest} {auth : Option UserAuthData}

theorem Articles.Post.first : FirstWrites Sql.writes (Articles.Post.handleRequestJsonThrow svc request auth) := by
  refine validated_first fun newArticle => .lift fun data => ?_
  refine .bind (alreadyTaken_first ?_) fun _ => afterTry_reads fun _ => showArticle_reads
  exact .lift fun slug => .write fun rows => ReadsOnly.lift fun _ => trivial

theorem ArticlesSlug.Put.first : FirstWrites Sql.writes (ArticlesSlug.Put.handleRequestJsonThrow svc request auth) := by
  refine validated_first fun update => .lift fun data => ?_
  refine .bind (alreadyTaken_first ?_) fun _ => afterTry_reads fun _ => showArticle_reads
  have statement : ∀ newSlug, FirstWrites Sql.writes (do
      let res ← execute (.updateArticleBySlug update.slug data.id update.title newSlug update.description
        update.body)
      if res.isEmpty then return .inl ⟨404, .null⟩
      let articleId ← RealWorld.lift (asSingleRow res)
      return .inr articleId : Program (Response ⊕ Int)) := by
    refine fun newSlug => .write fun rows => ?_
    split
    · trivial
    · exact ReadsOnly.lift fun _ => trivial
  cases given : update.title with
  | none =>
    rw [given] at statement
    exact statement none
  | some title =>
    rw [given] at statement
    exact .lift fun newSlug => statement newSlug

theorem ArticlesSlugComments.Post.first :
    FirstWrites Sql.writes (ArticlesSlugComments.Post.handleRequestJsonThrow svc request auth) := by
  refine validated_first fun comment => .write fun rows => ReadsOnly.lift fun commentId => ?_
  exact ReadsOnly.execute nofun fun res => .lift fun row => trivial

end Handlers

end

/-! ### Statements whose target is gone -/

section
variable {loc : DbLocale} {m : Moment} {s : Store} {q : Sql}

theorem Schema.Sql.exec_idle (undrawn : ¬ q.draws) (writes : q.writes)
    (idle : ∀ rows s', Effect loc m s q rows s' → s' = s) : (q.exec loc m s).2 = s := by
  cases answer : (q.exec loc m s).1 with
  | ok rows => exact idle rows _ (Sql.exec_effect writes (Prod.ext answer rfl))
  | error e => exact Sql.exec_refused undrawn (Prod.ext answer rfl)

theorem Mark.favorite_idle {mark : Mark} {slug : String} {caller : Int} (missing : articleIdsBySlug s.toTables slug = []) :
    ((mark.favorite slug caller).exec loc m s).2 = s := by
  apply Sql.exec_idle (mark.favorite_undrawn slug caller) (mark.favorite_writes slug caller)
  intro rows s' effect
  cases mark with
  | add => cases effect with
    | favoriteArticle inserted =>
      obtain ⟨articleId, found, _⟩ := favoriteArticle_ok.mp inserted
      cases missing.symm.trans found
  | remove => cases effect with
    | unfavoriteArticle deleted =>
      obtain ⟨articleId, found, rfl⟩ := unfavoriteArticle_ok.mp deleted
      rw [missing] at found
      cases articleId with
      | none => simp
      | some id => cases found

theorem deleteArticleBySlug_idle {slug : String} {authorId : Int} (missing : articleIdsBySlug s.toTables slug = []) :
    ((Sql.deleteArticleBySlug slug authorId).exec loc m s).2 = s := by
  have writes : (Sql.deleteArticleBySlug slug authorId).writes := trivial
  apply Sql.exec_idle id writes
  intro rows s' effect
  cases effect with
  | deleteArticleBySlug deleted =>
    obtain ⟨_, rfl⟩ := deleteArticleBySlug_ok.mp deleted
    have absent : ∀ a ∈ s.articles, a.slug ≠ slug := by
      intro a member same
      have found := mem_articleIdsBySlug.mpr ⟨a, member, same, rfl⟩
      rw [missing] at found
      cases found
    have none : ownedBySlug s.toTables slug authorId = [] := by
      apply List.eq_nil_iff_forall_not_mem.mpr
      intro id owned
      obtain ⟨a, member, hit, _⟩ := mem_ownedBySlug.mp owned
      exact absent a member hit.1
    have kept : (s.articles.filter fun a => !decide (a.slug = slug ∧ a.authorId = authorId)) = s.articles := by
      apply List.filter_eq_self.mpr
      intro a member
      simp [absent a member]
    rw [none, kept]
    simp

theorem deleteComment_idle {commentId : Int} {slug : String} {authorId : Int}
    (missing : ¬ ∃ c ∈ s.comments, Deletable s.toTables commentId authorId slug c) :
    ((Sql.deleteComment commentId slug authorId).exec loc m s).2 = s := by
  have writes : (Sql.deleteComment commentId slug authorId).writes := trivial
  apply Sql.exec_idle id writes
  intro rows s' effect
  cases effect with
  | deleteComment deleted =>
    obtain ⟨articleId, found, rfl⟩ := deleteComment_ok.mp deleted
    have kept : (s.comments.filter fun c => !commentMatches commentId authorId articleId c) = s.comments := by
      apply List.filter_eq_self.mpr
      intro c member
      have unmatched : ¬ Deletable s.toTables commentId authorId slug c := fun hit => missing ⟨c, member, hit⟩
      simpa only [commentMatches_iff found, Bool.not_eq_true', decide_eq_false_iff_not] using unmatched
    rw [kept]

end

/-! ### Requests that read before they write -/

section
variable {svc : Service} {call call' : Call} {s : Store} {q q₀ : Sql} {α β : Type} {ms : Nat → Moment} {m : Moment}

theorem Accountable.read {f : List q.Row → Program Response} (reads : ¬ q.writes)
    (rest : ∀ s₁ m rows, s.Later svc.loc s₁ → q.exec svc.loc m s₁ = (.ok rows, s₁) → Accountable svc call (f rows) s₁) :
    Accountable svc call (execute q >>= f) s := by
  refine finds_execute (fun _ _ _ writing => absurd writing reads) fun m s₁ rows s₂ moved answer => ?_
  obtain rfl : s₂ = s₁ := Sql.exec_reads reads answer
  exact rest s₂ m rows moved answer

theorem Accountable.write {f : List q.Row → Program Response} (reads : ∀ rows, ReadsOnly (f rows))
    (alone : ∀ m s₁, s.Later svc.loc s₁ → Valid svc.loc s₁ →
      ∃ call', call.SameButPath call' ∧ DoesAlone svc call' (fun _ => m) q m s₁) :
    Accountable svc call (execute q >>= f) s := by
  refine finds_execute (fun m s₁ moved _ valid => ?_) fun _ _ rows _ _ _ => ?_
  · obtain ⟨call', same, answered⟩ := alone m s₁ moved valid
    exact ⟨call', fun _ => m, same, answered⟩
  · exact .of_all (reads rows) fun _ _ _ reading writing => absurd writing reading

theorem DoesAlone.nothing (left : (respond svc call ms s).2 = s) (idle : (q.exec svc.loc m s).2 = s) :
    DoesAlone svc call ms q m s :=
  ⟨left.trans idle.symm, fun changed => absurd idle changed⟩

/-- Alone, such a request does what its second statement does. -/
theorem doesAlone_second {f : List q₀.Row → Program Response} {rows : List q₀.Row} {g : List q.Row → Program Response}
    (served : serve svc call = execute q₀ >>= f) (answer : q₀.exec svc.loc m s = (.ok rows, s)) (reading : ¬ q₀.writes)
    (next : f rows = execute q >>= g) (writes : q.writes) (reads : ∀ rows, ReadsOnly (g rows)) :
    DoesAlone svc call (fun _ => m) q m s := by
  have first : (execute q₀ >>= f).run (Sql.exec svc.loc) (fun _ => m) s =
      (f rows).run (Sql.exec svc.loc) (fun _ => m) s := run_execute_ok answer
  have wrote : (execute q₀ >>= f).writesAlone (Sql.exec svc.loc) Sql.writes (fun _ => m) s =
      (f rows).writesAlone (Sql.exec svc.loc) Sql.writes (fun _ => m) s := by
    rw [execute, Prog.exec_bind, Prog.writesAlone_read reading, answer, Prog.pure_bind]
  unfold DoesAlone respond
  rw [served, first, wrote, next]
  cases written : q.exec svc.loc m s with
  | mk answer s' =>
    cases answer with
    | ok rows' =>
      have second : (execute q >>= g).run (Sql.exec svc.loc) (fun _ => m) s =
          (g rows').run (Sql.exec svc.loc) (fun _ => m) s' := run_execute_ok written
      refine ⟨?_, fun _ => ?_⟩
      · rw [second]
        exact Prog.run_reads (fun _ _ _ reading => Sql.exec_reads reading rfl) _ (reads rows') _ _
      · rw [execute, Prog.exec_bind, Prog.writesAlone_exec writes, written, Prog.pure_bind,
          Prog.writesAlone_reads (reads rows')]
    | error e =>
      have second : (execute q >>= g).run (Sql.exec svc.loc) (fun _ => m) s = (.error (.db e), s') :=
        run_execute_error written
      refine ⟨?_, fun _ => ?_⟩
      · rw [second]
      · rw [execute, Prog.exec_bind, Prog.writesAlone_exec writes, written]
        rfl

theorem respond_ended {f : List q₀.Row → Program Response} {rows : List q₀.Row}
    (served : serve svc call = execute q₀ >>= f) (answer : q₀.exec svc.loc m s = (.ok rows, s))
    (ended : ReadsOnly (f rows)) : (respond svc call (fun _ => m) s).2 = s := by
  have first : (execute q₀ >>= f).run (Sql.exec svc.loc) (fun _ => m) s =
      (f rows).run (Sql.exec svc.loc) (fun _ => m) s := run_execute_ok answer
  unfold respond
  rw [served, first]
  exact Prog.run_reads (fun _ _ _ reading => Sql.exec_reads reading rfl) _ ended _ s

theorem respond_unread {f : List q₀.Row → Program Response} {e : DbError}
    (served : serve svc call = execute q₀ >>= f) (answer : q₀.exec svc.loc m s = (.error e, s)) :
    (respond svc call (fun _ => m) s).2 = s := by
  have first : (execute q₀ >>= f).run (Sql.exec svc.loc) (fun _ => m) s = (.error (.db e), s) :=
    run_execute_error answer
  unfold respond
  rw [served, first]

end

/-! ### Every request -/

section
variable {svc : Service} {call : Call} {s : Store} {mark : Mark} {slug username : String} {caller : Int}
  {data : UserAuthData} {m : Moment}

theorem FavoriteRequest.accountable (request : FavoriteRequest svc call mark slug caller) :
    Accountable svc call (serve svc call) s := by
  have served := request.serve_eq
  have reads : ∀ res : List Int, ReadsOnly (do
      let articleId ← RealWorld.lift (asSingleRow res)
      Handlers.showArticle svc articleId caller : Program Response) := fun res => .lift fun _ => Handlers.showArticle_reads
  rw [served]
  refine .read id fun s₁ _ rows _ _ => ?_
  split
  · trivial
  · refine .write (fun _ => reads rows) fun m s₂ _ valid => ⟨call, .refl call, ?_⟩
    by_cases text : storable slug
    · have answer : (Sql.getArticleIdBySlug slug).exec svc.loc m s₂ = (.ok (articleIdsBySlug s₂.toTables slug), s₂) :=
        getArticleIdBySlug_exec text
      by_cases missing : articleIdsBySlug s₂.toTables slug = []
      · exact .nothing (respond_ended served answer (by rw [missing]; trivial)) (Mark.favorite_idle missing)
      · have present : ¬ (articleIdsBySlug s₂.toTables slug).isEmpty := by simpa using missing
        exact doesAlone_second served answer id (if_neg present) (mark.favorite_writes slug caller) fun _ => reads _
    · have unbound : ¬ (Sql.getArticleIdBySlug slug).texts.all storable := by simpa [Sql.texts] using text
      have refused : ((mark.favorite slug caller).exec svc.loc m s₂).2 = s₂ := by
        rw [Sql.exec_unstorable (by cases mark <;> exact unbound)]
      exact .nothing (respond_unread served (Sql.exec_unstorable unbound)) refused

/-- The name may have been changed since it was resolved. The row it was resolved to is still there, under
some name. -/
theorem FollowRequest.accountable (request : FollowRequest svc call mark username caller) :
    Accountable svc call (serve svc call) s := by
  obtain ⟨profile, served⟩ := request.serve_eq
  rw [served]
  refine .read id fun s₁ m₁ rows _ answer => ?_
  split
  · trivial
  · refine finds_lift fun user single => Accountable.write (fun _ => trivial) fun m s₂ moved valid => ?_
    obtain ⟨read, _⟩ := Sql.exec_reading rfl answer
    have stored : user ∈ s₁.users := by
      have found : user ∈ getUserByUsername svc.loc s₁.toTables username := by
        rw [← read, asSingleRow_ok.mp single]
        exact List.mem_singleton_self user
      exact (List.mem_filter.mp found).1
    obtain ⟨x, member, same⟩ := moved.users user.userId ⟨user, stored, rfl⟩
    let call' : Call := { call with request := { call.request with pathArgs := [("username", x.username)] } }
    have path : call.SameButPath call' := rfl
    have request' : FollowRequest svc call' mark x.username caller := by
      refine ⟨request.route, ?_, ?_⟩
      · simp [call', HttpRequest.getPathArg]
      · rw [path.caller]
        exact request.caller
    obtain ⟨profile', served'⟩ := request'.serve_eq
    refine ⟨call', path, ?_⟩
    have found : (Sql.getUserByUsername x.username).exec svc.loc m s₂ = (.ok [x], s₂) :=
      getUserByUsername_exec valid (valid.text_users x member).1 member rfl
    rw [← same]
    exact doesAlone_second served' found id rfl (mark.follow_writes caller x.userId) fun _ => trivial

theorem deleteArticle_accountable (route : call.route = .deleteArticlesSlug) (token : call.caller svc = some data) :
    Accountable svc call (serve svc call) s := by
  have served : serve svc call = (do
      let res ← execute (.getArticleIdBySlug (call.request.getPathArg "slug"))
      if res.isEmpty then Handlers.notFound
      else
        let _ ← execute (.deleteArticleBySlug (call.request.getPathArg "slug") data.id)
        Handlers.ok .null) := by
    rw [serve_caller token (by rw [route]; rfl), handler, route]
    rfl
  generalize call.request.getPathArg "slug" = slug at served
  rw [served]
  refine .read id fun s₁ _ rows _ _ => ?_
  split
  · trivial
  · refine .write (fun _ => trivial) fun m s₂ _ valid => ⟨call, .refl call, ?_⟩
    by_cases text : storable slug
    · have answer : (Sql.getArticleIdBySlug slug).exec svc.loc m s₂ = (.ok (articleIdsBySlug s₂.toTables slug), s₂) :=
        getArticleIdBySlug_exec text
      by_cases missing : articleIdsBySlug s₂.toTables slug = []
      · exact .nothing (respond_ended served answer (by rw [missing]; trivial)) (deleteArticleBySlug_idle missing)
      · have present : ¬ (articleIdsBySlug s₂.toTables slug).isEmpty := by simpa using missing
        have writes : (Sql.deleteArticleBySlug slug data.id).writes := trivial
        exact doesAlone_second served answer id (if_neg present) writes fun _ => trivial
    · have unbound : ¬ (Sql.getArticleIdBySlug slug).texts.all storable := by simpa [Sql.texts] using text
      have refused : ((Sql.deleteArticleBySlug slug data.id).exec svc.loc m s₂).2 = s₂ :=
        congrArg Prod.snd (@Sql.exec_unstorable _ m s₂ (.deleteArticleBySlug slug data.id) unbound)
      exact .nothing (respond_unread served (Sql.exec_unstorable unbound)) refused

theorem deleteComment_accountable (route : call.route = .deleteArticlesSlugComments) (token : call.caller svc = some data) :
    Accountable svc call (serve svc call) s := by
  have served : serve svc call = (do
      let comment ← RealWorld.lift (Handlers.ArticlesSlugComments.Del.parseRequest call.request)
      let res ← execute (.isCommentExist comment.id comment.slug data.id)
      let exist ← RealWorld.lift (asSingleRow res)
      if !exist then Handlers.notFound
      else
        let _ ← execute (.deleteComment comment.id comment.slug data.id)
        Handlers.ok .null) := by
    rw [serve_caller token (by rw [route]; rfl), handler, route]
    rfl
  cases parsed : Handlers.ArticlesSlugComments.Del.parseRequest call.request with
  | error e =>
    rw [served, parsed]
    trivial
  | ok comment =>
    rw [parsed] at served
    obtain ⟨id, slug⟩ := comment
    rw [served]
    refine Accountable.read (fun writes => writes) fun s₁ _ rows _ _ => finds_lift fun exist _ => ?_
    split
    · trivial
    · refine Accountable.write (fun _ => trivial) fun m s₂ _ valid => ⟨call, .refl call, ?_⟩
      by_cases text : storable slug
      · have answer : (Sql.isCommentExist id slug data.id).exec svc.loc m s₂ =
            (.ok [decide (∃ c ∈ s₂.comments, Deletable s₂.toTables id data.id slug c)], s₂) :=
          isCommentExist_exec valid.toConstraints text
        by_cases present : ∃ c ∈ s₂.comments, Deletable s₂.toTables id data.id slug c
        · rw [decide_eq_true present] at answer
          have writes : (Sql.deleteComment id slug data.id).writes := trivial
          exact doesAlone_second served answer (fun writes => writes) rfl writes fun _ => trivial
        · rw [decide_eq_false present] at answer
          exact .nothing (respond_ended served answer trivial) (deleteComment_idle present)
      · have unbound : ¬ (Sql.isCommentExist id slug data.id).texts.all storable := by simpa [Sql.texts] using text
        have refused : ((Sql.deleteComment id slug data.id).exec svc.loc m s₂).2 = s₂ :=
          congrArg Prod.snd (@Sql.exec_unstorable _ m s₂ (.deleteComment id slug data.id) unbound)
        exact .nothing (respond_unread served (Sql.exec_unstorable unbound)) refused

/-- Only a registration writes for nobody. -/
theorem handler_unauthorized (guarded : call.route ≠ .postUsers) : ReadsOnly (handler svc call none) := by
  refine (handler_writes svc call none).all.mono fun q issued writing => ?_
  obtain ⟨issuer, actor⟩ := issued writing
  have nobody : q.actor = none := actor.elim id id
  cases q with
  | addNewUser => exact guarded (Option.some.inj issuer).symm
  | addNewArticle | follow | unfollow | updateArticleBySlug | deleteArticleBySlug | updateUserById | addNewComment
  | deleteComment | favoriteArticle | unfavoriteArticle => cases nobody
  | _ => cases writing

theorem handler_accountable (entered : serve svc call = handler svc call (call.caller svc)) :
    Accountable svc call (serve svc call) s := by
  have first : FirstWrites Sql.writes (handler svc call (call.caller svc)) → Accountable svc call (serve svc call) s :=
    fun h => accountable_first (entered ▸ h)
  cases token : call.caller svc with
  | none =>
    rw [token] at first
    by_cases registers : call.route = .postUsers
    · apply first
      rw [handler, registers]
      exact Handlers.Users.Post.single.first
    · exact first (.inl (handler_unauthorized registers))
  | some data =>
    have caller : ∃ data', call.caller svc = some data' ∧ data'.id = data.id := ⟨data, token, rfl⟩
    have unwritten : (∀ q : Sql, q.issuer ≠ some call.route) → Accountable svc call (serve svc call) s := by
      refine fun unissued => first (.inl ((handler_writes svc call _).all.mono fun q issued writing => ?_))
      exact unissued q (issued writing).issuer
    rw [token] at first
    cases route : call.route with
    | postUsers =>
      apply first
      rw [handler, route]
      exact Handlers.Users.Post.single.first
    | putUser =>
      apply first
      rw [handler, route]
      exact Handlers.User.Put.single.first
    | postArticles =>
      apply first
      rw [handler, route]
      exact Handlers.Articles.Post.first
    | putArticlesSlug =>
      apply first
      rw [handler, route]
      exact Handlers.ArticlesSlug.Put.first
    | postArticlesSlugComments =>
      apply first
      rw [handler, route]
      exact Handlers.ArticlesSlugComments.Post.first
    | postProfiles =>
      have request : FollowRequest svc call .add _ data.id := ⟨route, rfl, caller⟩
      exact request.accountable
    | deleteProfiles =>
      have request : FollowRequest svc call .remove _ data.id := ⟨route, rfl, caller⟩
      exact request.accountable
    | postArticlesSlugFavorite =>
      have request : FavoriteRequest svc call .add _ data.id := ⟨route, rfl, caller⟩
      exact request.accountable
    | deleteArticlesSlugFavorite =>
      have request : FavoriteRequest svc call .remove _ data.id := ⟨route, rfl, caller⟩
      exact request.accountable
    | deleteArticlesSlug => exact deleteArticle_accountable route token
    | deleteArticlesSlugComments => exact deleteComment_accountable route token
    | _ =>
      apply unwritten
      intro q
      rw [route]
      cases q <;> (intro issued; cases issued)

theorem serve_accountable (svc : Service) (call : Call) (s : Store) : Accountable svc call (serve svc call) s := by
  rcases serve_entered svc call with ⟨reason, same⟩ | ⟨e, same⟩ | entered
  · rw [same]
    trivial
  · rw [same]
    trivial
  · exact handler_accountable entered

end

/-! ### Whole interleavings -/

/-- A request answered alone has made the write of `e`: for the same user, between the same stores, and, where they
are not one and the same, with the same statement and the same answer of the database. -/
structure AccountsFor (svc : Service) (step : Answered) (e : Event Sql Sql.Res Store) : Prop where
  before : step.before = e.before
  after : step.after = e.after
  issued : e.op.IssuedBy step.call.route (step.call.caller svc)
  executed : ∃ ms, step = served svc e.before step.call ms ∧ (e.after ≠ e.before →
    (serve svc step.call).writesAlone (Sql.exec svc.loc) Sql.writes ms e.before = [⟨e.op, e.answer⟩])

section
variable {svc : Service} {c : Configuration} {es : List (Event Sql Sql.Res Store)}

/-- The writes of an interleaving that starts where requests answered one after the other have led go on with
such requests. -/
theorem serialized_after {earlier : List Answered} {s : Store} (before : Run svc earlier s)
    (run : Interleaving svc ⟨s, []⟩ es c) : ∃ steps, Run svc (earlier ++ steps) c.store ∧
      List.Forall₂ (AccountsFor svc) steps (es.filter fun e => e.op.writes) := by
  have valid : ∀ e ∈ es, Valid svc.loc e.before := by
    have step : ∀ (q : Sql) (m : Moment) (s : Store), True → Valid svc.loc s → Valid svc.loc (q.exec svc.loc m s).2 :=
      fun q _ _ _ valid => valid.exec q
    have issued : ∀ p : Program Response, p.All fun _ => True := .of_forall fun _ => trivial
    obtain ⟨_, _, events⟩ := run.invariant step (fun p _ => issued p) (by simp) before.valid
    intro e member
    exact (events e member).2.1
  -- each statement is one its request may write with, and one a request makes alone
  let backed : Sql → Moment → Store → Prop := fun q m s =>
    q.writes → ∃ call, q.IssuedBy call.route (call.caller svc) ∧ AnsweredAlone svc call q m s
  have started : ∀ p s, Requested svc p → p.Finds (Sql.exec svc.loc) (Store.Later svc.loc) backed s := by
    rintro _ s ⟨call, rfl⟩
    have issued := (serve_writes svc call).all
    exact ((serve_accountable svc call s).and issued).mono fun q m s both writing => ⟨call, both.1 writing, both.2⟩
  have found := run.finds (later_guaranteed svc.loc) (by simp) started
  have reads : ∀ e ∈ es, ¬ e.op.writes → e.after = e.before := by
    intro e member reading
    obtain ⟨m, result, _⟩ := found e member
    exact Sql.exec_reads reading result
  have write : ∀ steps e, e ∈ es → e.op.writes → Run svc steps e.before →
      ∃ step, AccountsFor svc step e ∧ Run svc (steps ++ [step]) e.after := by
    intro steps e member writing earlier
    obtain ⟨m, result, asked⟩ := found e member
    obtain ⟨call, issued, alone⟩ := asked writing
    obtain ⟨call', ms, same, answered, wrote⟩ := alone writing (valid e member)
    rw [result] at answered wrote
    have after : (respond svc call' ms e.before).2 = e.after := answered
    refine ⟨served svc e.before call' ms, ⟨rfl, after, ?_, ms, rfl, wrote⟩, after ▸ earlier.serve call' ms⟩
    show e.op.IssuedBy call'.route (call'.caller svc)
    rw [same.route, same.caller]
    exact issued
  exact run.accounted reads write before

/-- The writes of an interleaving are those of requests answered one after the other. -/
theorem interleavings_serialize (run : Interleaving svc ⟨Store.empty, []⟩ es c) :
    ∃ steps, Run svc steps c.store ∧ List.Forall₂ (AccountsFor svc) steps (es.filter fun e => e.op.writes) :=
  serialized_after .empty run

end

/-- anna asks to follow bert, who takes another name before she is made to follow him. -/
def sampleRenaming : List (Move Call Moment) :=
  [.arrive (sampleRegister "anna"), sampleStep 0, .arrive (sampleRegister "bert"), sampleStep 1,
    .arrive (sampleCall .postProfiles 1 [("username", "bert")]), sampleStep 2,
    .arrive (sampleProfile 2 [("username", .str "carl")]), sampleStep 3, sampleStep 2]

def sampleRenamed : List (Event Sql Sql.Res Store) × Configuration := sampleSchedule sampleRenaming ⟨Store.empty, []⟩

theorem interleavings_serialize_sample :
    (sampleRenamed.2.store.users.map (·.username) = ["anna", "carl"] ∧
      sampleRenamed.2.store.followers = [{ follower := 1, followed := 2 }]) ∧
    ∃ steps, Run sample steps sampleRenamed.2.store ∧
      List.Forall₂ (AccountsFor sample) steps (sampleRenamed.1.filter fun e => e.op.writes) := by
  refine ⟨by decide +kernel, ?_⟩
  have run : Interleaving sample ⟨Store.empty, []⟩ sampleRenamed.1 sampleRenamed.2 := sampleSchedule_trace sampleRenaming _
  exact interleavings_serialize run

end RealWorld
