import RealWorld.Handlers.Rereads
import RealWorld.Handlers.Writes
import RealWorld.Runs

/-!
# A request that fails changes no table

A handler writes with one statement, which fails as a whole. What it does afterwards, when nothing
interferes, finds the row it wrote and cannot fail.
-/

namespace RealWorld
open Schema Transactional

/-- A request started in `s` succeeded or left its tables alone. -/
def Atomic (s : Store) (r : Except Exn Response) (s' : Store) : Prop :=
  Succeeds r ∨ s'.toTables = s.toTables

section
variable {loc : DbLocale} {s : Store} {q : Sql}

theorem atomic_read {f : List q.Row → Program Response} (reads : ¬ q.writes)
    (rest : ∀ m rows, q.exec loc m s = (.ok rows, s) → (f rows).Ensures (Sql.exec loc) s (Atomic s)) :
    (execute q >>= f).Ensures (Sql.exec loc) s (Atomic s) := by
  apply ensures_execute
  · intro m rows s' answer
    obtain rfl := Sql.exec_reads reads answer
    exact rest m rows answer
  · intro m e s' answer
    exact .inr (Sql.exec_error answer)

end

namespace Handlers

section
variable {svc : Service} {s : Store} {request : HttpRequest} {auth : Option UserAuthData}

theorem validated_atomic {α : Type} {parsed : Except Exn α} {handle : α → Program Response}
    (rest : ∀ a, parsed = .ok a → (handle a).Ensures (Sql.exec svc.loc) s (Atomic s)) :
    (validated parsed handle).Ensures (Sql.exec svc.loc) s (Atomic s) :=
  ensures_validated parsed rest fun _ _ => .inr rfl

theorem lift_atomic {α : Type} {x : Except Exn α} {f : α → Program Response}
    (rest : ∀ a, x = .ok a → (f a).Ensures (Sql.exec svc.loc) s (Atomic s)) :
    (lift x >>= f).Ensures (Sql.exec svc.loc) s (Atomic s) :=
  ensures_lift rest fun _ _ => .inr rfl

/-- What holds after the `try` block: without an answer `rest` succeeds, otherwise nothing changed. -/
def Tried (svc : Service) (s : Store) {α : Type} (rest : α → Program Response) :
    Except Exn (Response ⊕ α) → Store → Prop
  | .ok (.inr a), s' => (rest a).Ensures (Sql.exec svc.loc) s' fun r _ => Succeeds r
  | .ok (.inl _), s' => s'.toTables = s.toTables
  | .error _, s' => s'.toTables = s.toTables

theorem alreadyTaken_atomic {α : Type} {fields : List (String × String)}
    {body : Program (Response ⊕ α)} {rest : α → Program Response}
    (h : body.Ensures (Sql.exec svc.loc) s (Tried svc s rest)) :
    (do
      let a ← alreadyTaken fields body
      afterTry a rest).Ensures (Sql.exec svc.loc) s (Atomic s) := by
  refine ensures_tried (fun s' => s'.toTables = s.toTables) (h.mono fun r s' tried => ?_) fun _ _ same _ => .inr same
  match r with
  | .ok (.inr a) =>
    have succeeds : (rest a).Ensures (Sql.exec svc.loc) s' fun r _ => Succeeds r := tried
    exact succeeds.mono fun _ _ success => .inl success
  | .ok (.inl response) => exact .inr tried
  | .error e => exact tried

theorem Articles.Post.atomic (h : Valid svc.loc s) :
    (Articles.Post.handleRequestJsonThrow svc request auth).Ensures (Sql.exec svc.loc) s (Atomic s) := by
  refine validated_atomic fun newArticle _ => lift_atomic fun user _ => alreadyTaken_atomic ?_
  refine ensures_lift (fun slug _ => ensures_write h trivial ?_ fun _ _ same => same) fun _ _ => rfl
  intro m rows s' valid effect
  cases effect with
  | addNewArticle done =>
    obtain ⟨_, links, _, store⟩ := addNewArticle_store done
    refine .pure (showArticle_succeeds valid ?_)
    rw [store]
    exact ⟨_, List.mem_concat_self, rfl⟩

theorem ArticlesSlug.Put.atomic (h : Valid svc.loc s) :
    (ArticlesSlug.Put.handleRequestJsonThrow svc request auth).Ensures (Sql.exec svc.loc) s (Atomic s) := by
  refine validated_atomic fun update _ => lift_atomic fun user _ => alreadyTaken_atomic ?_
  have statement : ∀ title newSlug, (do
      let res ← execute (.updateArticleBySlug update.slug user.id title newSlug update.description
        update.body)
      if res.isEmpty then return .inl ⟨404, .null⟩
      let articleId ← lift (asSingleRow res)
      return .inr articleId : Program (Response ⊕ Int)).Ensures (Sql.exec svc.loc) s
        (Tried svc s fun articleId => showArticle svc articleId user.id) := by
    intro title newSlug
    refine ensures_write h trivial ?_ fun _ _ same => same
    intro m rows s' valid effect
    cases effect with
    | updateArticleBySlug done =>
      rcases updateArticleBySlug_cases h.toConstraints done with ⟨rfl, rfl⟩ | ⟨a, member, rfl⟩
      · exact .pure rfl
      · exact .pure (showArticle_succeeds valid ⟨a, member, rfl⟩)
  cases update.title with
  | none => exact statement none none
  | some title => exact ensures_lift (fun newSlug _ => statement _ newSlug) fun _ _ => rfl

theorem ArticlesSlug.Del.atomic (h : Valid svc.loc s) :
    (ArticlesSlug.Del.handleRequestJsonThrow request auth).Ensures (Sql.exec svc.loc) s (Atomic s) := by
  refine lift_atomic fun user _ => atomic_read nofun fun _ res _ => ?_
  split
  · exact .pure (.inr rfl)
  · refine ensures_write h trivial ?_ fun _ _ same => .inr same
    intro m rows s' _ _
    exact .pure (.inl ⟨_, rfl, rfl⟩)

theorem ArticlesSlugComments.Post.atomic (h : Valid svc.loc s) :
    (ArticlesSlugComments.Post.handleRequestJsonThrow svc request auth).Ensures (Sql.exec svc.loc) s
      (Atomic s) := by
  refine validated_atomic fun comment _ => ensures_write h trivial ?_ fun _ _ same => .inr same
  intro m rows s' valid effect
  cases effect with
  | addNewComment done =>
    obtain ⟨_, _, _, _, _, _, _, rfl, rfl⟩ := addCommentToArticle_ok.mp done
    refine Prog.Ensures.mono (showComment_succeeds valid ?_) fun _ _ success => .inl success
    exact ⟨_, List.mem_concat_self, rfl⟩

theorem ArticlesSlugComments.Del.atomic (h : Valid svc.loc s) :
    (ArticlesSlugComments.Del.handleRequestJsonThrow request auth).Ensures (Sql.exec svc.loc) s
      (Atomic s) := by
  refine lift_atomic fun comment _ => lift_atomic fun user _ => atomic_read nofun fun _ res _ => ?_
  refine lift_atomic fun found _ => ?_
  split
  · exact .pure (.inr rfl)
  · refine ensures_write h trivial ?_ fun _ _ same => .inr same
    intro m rows s' _ _
    exact .pure (.inl ⟨_, rfl, rfl⟩)

/-- Marking an article changes no article, so the one the slug was resolved to is still there. -/
theorem markArticle_atomic (h : Valid svc.loc s) {write : String → Int → Sql}
    (writing : ∀ slug userId, (write slug userId).writes)
    (kept : ∀ {slug userId m rows s'}, Effect svc.loc m s (write slug userId) rows s' →
      s'.articles = s.articles) :
    (markArticle svc write request auth).Ensures (Sql.exec svc.loc) s (Atomic s) := by
  refine atomic_read nofun fun m res answer => ?_
  split
  · exact .pure (.inr rfl)
  · refine lift_atomic fun user _ => ensures_write h (writing _ _) ?_ fun _ _ same => .inr same
    intro m rows s' valid effect
    have found : articleIdsBySlug s.toTables (request.getPathArg "slug") = res := by
      have body := (Sql.exec_ok.mp answer).2
      exact Except.ok.inj (Prod.mk.inj body).1
    rcases articleIdsBySlug_cases h.toConstraints (request.getPathArg "slug") with
      ⟨none, _⟩ | ⟨a, member, _, one⟩
    · rw [none] at found
      subst found
      contradiction
    · rw [one] at found
      subst found
      have present : ∃ b ∈ s'.articles, b.articleId = a.articleId := by
        rw [kept effect]
        exact ⟨a, member, rfl⟩
      exact (showArticle_succeeds valid present).mono fun _ _ success => .inl success

theorem markProfile_atomic (h : Valid svc.loc s) {write : Int → Int → Sql} {following : Bool}
    (writing : ∀ follower followed, (write follower followed).writes) :
    (markProfile write following request auth).Ensures (Sql.exec svc.loc) s (Atomic s) := by
  refine atomic_read nofun fun m res _ => ?_
  split
  · exact .pure (.inr rfl)
  · refine lift_atomic fun user _ => lift_atomic fun caller _ => ?_
    refine ensures_write h (writing _ _) ?_ fun _ _ same => .inr same
    intro m rows s' _ _
    exact .pure (.inl ⟨_, rfl, rfl⟩)

theorem Users.Post.atomic (h : Valid svc.loc s) {now : Int} {urandom : Option (List UInt8)} :
    (Users.Post.handleRequestJsonThrow svc now urandom request).Ensures (Sql.exec svc.loc) s
      (Atomic s) := by
  refine validated_atomic fun registration _ => alreadyTaken_atomic ?_
  refine ensures_lift (fun hash _ => ensures_write h trivial ?_ fun _ _ same => same) fun _ _ => rfl
  intro m rows s' _ effect
  cases effect with
  | addNewUser done =>
    have answered : ∀ body, (ok body).Ensures (Sql.exec svc.loc) s' fun r _ => Succeeds r := by
      intro body
      exact .pure ⟨_, rfl, rfl⟩
    exact .pure (answered _)

theorem User.Put.atomic (h : Valid svc.loc s) {urandom : Option (List UInt8)} :
    (User.Put.handleRequestJsonThrow svc urandom request auth).Ensures (Sql.exec svc.loc) s
      (Atomic s) := by
  refine validated_atomic fun update _ => lift_atomic fun user _ => ?_
  have statement : ∀ hash, (do
      let res ← execute (.updateUserById user.id update.username update.email hash update.bio
        update.image)
      if res.isEmpty then notFound
      else
        let row ← lift (asSingleRow res)
        currentUserResponse user row : Program Response).Ensures (Sql.exec svc.loc) s (Atomic s) := by
    intro hash
    refine ensures_write h trivial ?_ fun _ _ same => .inr same
    intro m rows s' valid effect
    cases effect with
    | updateUserById done =>
      rcases updateUserById_cases h.toConstraints done with ⟨rfl, rfl⟩ | ⟨u, _, _, rfl, _⟩
      · exact .pure (.inr rfl)
      · exact .pure (.inl ⟨_, rfl, rfl⟩)
  cases update.password with
  | none => exact statement none
  | some password => exact lift_atomic fun hash _ => statement _

end

end Handlers

/-- A route that is no statement's issuer only reads. -/
theorem reading_atomic {svc : Service} {s : Store} {call : Call} {auth : Option UserAuthData}
    (unissued : ∀ q : Sql, q.issuer ≠ some call.route) :
    (handler svc call auth).Ensures (Sql.exec svc.loc) s (Atomic s) := by
  intro ms
  have reads : ∀ (q : Sql) (m : Moment) (t : Store), ¬ q.writes → (q.exec svc.loc m t).2 = t :=
    fun q m t reading => Sql.exec_reads reading rfl
  rcases Prog.run_writesOnce reads _ (handler_writes svc call auth) ms s with
    same | ⟨q, _, _, issued, _⟩
  · rw [same]
    exact .inr rfl
  · exact absurd issued.issuer (unissued q)

theorem handler_atomic {svc : Service} {s : Store} (h : Valid svc.loc s) (call : Call)
    (auth : Option UserAuthData) :
    (handler svc call auth).Ensures (Sql.exec svc.loc) s (Atomic s) := by
  have reading : (∀ q : Sql, q.issuer ≠ some call.route) →
      (handler svc call auth).Ensures (Sql.exec svc.loc) s (Atomic s) := reading_atomic
  unfold handler at reading ⊢
  cases route : call.route with
  | postUsers => exact Handlers.Users.Post.atomic h
  | putUser => exact Handlers.User.Put.atomic h
  | postProfiles => exact Handlers.markProfile_atomic h fun _ _ => trivial
  | deleteProfiles => exact Handlers.markProfile_atomic h fun _ _ => trivial
  | postArticles => exact Handlers.Articles.Post.atomic h
  | putArticlesSlug => exact Handlers.ArticlesSlug.Put.atomic h
  | deleteArticlesSlug => exact Handlers.ArticlesSlug.Del.atomic h
  | postArticlesSlugComments => exact Handlers.ArticlesSlugComments.Post.atomic h
  | deleteArticlesSlugComments => exact Handlers.ArticlesSlugComments.Del.atomic h
  | postArticlesSlugFavorite =>
    refine Handlers.markArticle_atomic h (fun _ _ => trivial) fun effect => ?_
    cases effect with
    | favoriteArticle done =>
      obtain ⟨_, _, _, _, _, rfl⟩ := favoriteArticle_ok.mp done
      rfl
  | deleteArticlesSlugFavorite =>
    refine Handlers.markArticle_atomic h (fun _ _ => trivial) fun effect => ?_
    cases effect with
    | unfavoriteArticle done =>
      obtain ⟨_, _, rfl⟩ := unfavoriteArticle_ok.mp done
      rfl
  | _ =>
    rw [route] at reading
    exact reading fun q => by cases q <;> nofun

theorem serve_atomic {svc : Service} {s : Store} (h : Valid svc.loc s) (call : Call) :
    (serve svc call).Ensures (Sql.exec svc.loc) s (Atomic s) := by
  refine serve_rule (fun p => p.Ensures (Sql.exec svc.loc) s (Atomic s)) ?_ ?_ (handler_atomic h call)
  · intro response
    exact .pure (.inr rfl)
  · intro e
    exact .throw (.inr rfl)

theorem failed_unchanged {svc : Service} {s : Store} (h : Valid svc.loc s) {call : Call}
    {ms : Nat → Moment} (failed : ¬ (respond svc call ms s).1.success) :
    (respond svc call ms s).2.toTables = s.toTables := by
  rcases serve_atomic h call ms with ⟨response, answer, success⟩ | same
  · have reported : (respond svc call ms s).1 = response := congrArg Response.ofExcept answer
    rw [reported] at failed
    exact absurd success failed
  · exact same

/-- Without a success every table is as it was before the request. -/
theorem failure_atomicity {svc : Service} {s : Store} (reachable : Reachable svc s) (call : Call)
    (ms : Nat → Moment) (failed : ¬ (respond svc call ms s).1.success) :
    (respond svc call ms s).2.toTables = s.toTables := failed_unchanged reachable.valid failed

theorem failure_atomicity_sample :
    let call := samplePublish 2 "Hello there"
    (respond sample call (fun _ => sampleMoment) samplePublished).2.toTables = samplePublished.toTables := by
  intro call
  have failed : ¬ (respond sample call (fun _ => sampleMoment) samplePublished).1.success := by
    decide
  exact failure_atomicity samplePublished_reachable call _ failed

end RealWorld
