import RealWorld.Handlers.Writes
import RealWorld.Transactional.Serial

/-!
# Requests of one statement

Ten of the handlers execute one statement at most: those that only read, login, registration and the update
of a profile.
-/

namespace RealWorld
open Schema Transactional

/-- Nothing behind the first statement is one of `writes`. -/
abbrev FirstWrites {α : Type} (writes : Sql → Prop) (p : Program α) : Prop := p.WritesFirst writes

/-- One statement at most. -/
abbrev Single {α : Type} (p : Program α) : Prop := FirstWrites (fun _ => True) p

section
variable {writes : Sql → Prop} {q : Sql} {α β : Type} {p : Program α}

theorem Single.first (h : Single p) : FirstWrites writes p := by
  rcases h with none | ⟨q, next, rfl, none⟩
  · exact .inl (none.mono fun _ never => absurd trivial never)
  · exact .inr ⟨q, next, rfl, fun r => (none r).mono fun _ never => absurd trivial never⟩

theorem FirstWrites.write {f : List q.Row → Program α} (rest : ∀ rows, (f rows).All fun q => ¬ writes q) :
    FirstWrites writes (execute q >>= f) := by
  refine .inr ⟨q, _, rfl, fun r => ?_⟩
  cases r with
  | ok rows => exact rest rows
  | error e => trivial

theorem FirstWrites.lift {x : Except Exn β} {f : β → Program α} (rest : ∀ b, FirstWrites writes (f b)) :
    FirstWrites writes (RealWorld.lift x >>= f) := by
  cases x with
  | ok b => exact rest b
  | error e => exact .inl trivial

/-! ### Statements where they are executed -/

section
variable {loc : DbLocale} {rely : Store → Store → Prop} {pre : Sql → Moment → Store → Prop} {s : Store}

theorem finds_execute {f : List q.Row → Program α} (first : ∀ m s₁, rely s s₁ → pre q m s₁)
    (rest : ∀ m s₁ rows s₂, rely s s₁ → q.exec loc m s₁ = (.ok rows, s₂) → (f rows).Finds (Sql.exec loc) rely pre s₂) :
    (execute q >>= f).Finds (Sql.exec loc) rely pre s := by
  intro m s₁ moved
  refine ⟨first m s₁ moved, ?_⟩
  cases answer : (q.exec loc m s₁).1 with
  | ok rows => exact rest m s₁ rows _ moved (Prod.ext answer rfl)
  | error e => trivial

theorem finds_lift {x : Except Exn β} {f : β → Program α}
    (rest : ∀ b, x = .ok b → (f b).Finds (Sql.exec loc) rely pre s) :
    (RealWorld.lift x >>= f).Finds (Sql.exec loc) rely pre s := by
  cases x with
  | ok b => exact rest b rfl
  | error e => trivial

end

namespace Handlers

theorem validated_first {parsed : Except Exn α} {handle : α → Program Response}
    (rest : ∀ a, FirstWrites writes (handle a)) : FirstWrites writes (validated parsed handle) := by
  unfold validated
  split
  · exact rest _
  · exact .inl trivial
  · exact .inl trivial

theorem alreadyTaken_first {fields : List (String × String)} {body : Program (Response ⊕ α)}
    (h : FirstWrites writes body) : FirstWrites writes (alreadyTaken fields body) :=
  h.tryCatch (alreadyTaken_handled fields)

end Handlers

end

namespace Handlers

section
variable {svc : Service} {request : HttpRequest} {auth : Option UserAuthData}

theorem Users.Post.single {now : Int} {urandom : Option (List UInt8)} :
    Single (Users.Post.handleRequestJsonThrow svc now urandom request) := by
  refine validated_first fun registration => .bind (alreadyTaken_first ?_) fun _ => all_afterTry fun _ => trivial
  exact .lift fun hash => .write fun rows => all_lift fun _ _ => trivial

theorem UsersLogin.Post.single {now : Int} : Single (UsersLogin.Post.handleRequestJsonThrow svc now request) := by
  refine validated_first fun login => .write fun rows => ?_
  split
  · trivial
  · refine all_lift fun user _ => ?_
    split
    · trivial
    · trivial

theorem User.Get.single : Single (User.Get.handleRequestJsonThrow auth) := by
  refine .lift fun user => .write fun rows => ?_
  split
  · trivial
  · exact all_lift fun _ _ => trivial

theorem User.Put.single {urandom : Option (List UInt8)} :
    Single (User.Put.handleRequestJsonThrow svc urandom request auth) := by
  refine validated_first fun update => .lift fun data => ?_
  have statement : ∀ hash, Single (do
      let res ← execute (.updateUserById data.id update.username update.email hash update.bio
        update.image)
      if res.isEmpty then notFound
      else
        let row ← RealWorld.lift (asSingleRow res)
        currentUserResponse data row : Program Response) := by
    refine fun hash => .write fun rows => ?_
    split
    · trivial
    · exact all_lift fun _ _ => trivial
  cases update.password with
  | none => exact statement none
  | some password => exact .lift fun hash => statement hash

theorem Profiles.Get.single : Single (Profiles.Get.handleRequestJsonThrow request auth) := by
  refine .write fun rows => ?_
  split
  · trivial
  · exact all_lift fun _ _ => trivial

theorem Articles.Get.single : Single (Articles.Get.handleRequestJsonThrow svc request auth) :=
  .lift fun _ => .write fun _ => articlesResponse_all

theorem ArticlesFeed.Get.single : Single (ArticlesFeed.Get.handleRequestJsonThrow svc request auth) :=
  .lift fun _ => .lift fun _ => .write fun _ => articlesResponse_all

theorem ArticlesSlug.Get.single : Single (ArticlesSlug.Get.handleRequestJsonThrow svc request auth) := by
  refine .write fun rows => ?_
  split
  · trivial
  · exact articleResponse_all

theorem ArticlesSlugComments.Get.single :
    Single (ArticlesSlugComments.Get.handleRequestJsonThrow svc request auth) := by
  refine .write fun rows => ?_
  split
  · trivial
  · trivial

theorem Tags.Get.single : Single Tags.Get.handleRequestJsonThrow := .write fun _ => all_lift fun _ _ => trivial

end

end Handlers

def Route.single : Route → Bool
  | .postUsersLogin | .postUsers | .getUser | .putUser | .getProfiles | .getArticles | .getArticlesFeed
  | .getArticlesSlug | .getArticlesSlugComments | .getTags => true
  | _ => false

theorem handler_single {svc : Service} {call : Call} (single : call.route.single) (auth : Option UserAuthData) :
    Single (handler svc call auth) := by
  unfold handler
  cases route : call.route with
  | postUsersLogin => exact Handlers.UsersLogin.Post.single
  | postUsers => exact Handlers.Users.Post.single
  | getUser => exact Handlers.User.Get.single
  | putUser => exact Handlers.User.Put.single
  | getProfiles => exact Handlers.Profiles.Get.single
  | getArticles => exact Handlers.Articles.Get.single
  | getArticlesFeed => exact Handlers.ArticlesFeed.Get.single
  | getArticlesSlug => exact Handlers.ArticlesSlug.Get.single
  | getArticlesSlugComments => exact Handlers.ArticlesSlugComments.Get.single
  | getTags => exact Handlers.Tags.Get.single
  | _ =>
    rw [route] at single
    cases single

theorem serve_single {svc : Service} {call : Call} (single : call.route.single) : Single (serve svc call) := by
  rcases serve_cases svc call with ⟨r, same⟩ | ⟨e, same⟩ | ⟨_, same⟩ | ⟨data, _, same⟩
  · rw [same]
    exact .inl trivial
  · rw [same]
    exact .inl trivial
  · rw [same]
    exact handler_single single none
  · rw [same]
    exact handler_single single (some data)

end RealWorld
