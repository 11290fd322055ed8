import RealWorld.Schema.Masked
import RealWorld.Server
import RealWorld.Transactional.Secrecy

/-!
# Handlers and the password hashes they read

Four handlers besides the login load whole rows of `users`. None of them lets the hash decide what it
does or answers.
-/

namespace RealWorld
open Schema Transactional

/-- Answers to `q` that show the same apart from hashes. -/
def Schema.Sql.Alike (q : Sql) (r r' : q.Res) : Prop := q.maskAnswer r = q.maskAnswer r'

abbrev Hides {α : Type} (p : Program α) : Prop := p.Secret Sql.Alike

section
variable {α β : Type} {q : Sql}

theorem Hides.execute {f : List q.Row → Program α} (hidden : ¬ q.showsUsers) (rest : ∀ rows, Hides (f rows)) :
    Hides (execute q >>= f) := by
  refine .exec fun r r' same => ?_
  unfold Sql.Alike at same
  rw [Sql.maskAnswer_eq hidden, Sql.maskAnswer_eq hidden] at same
  subst same
  cases r with
  | ok rows => exact rest rows
  | error e => exact .throw _

/-- What follows a statement that shows users does not look at their hashes. -/
theorem Hides.users {f : List q.Row → Program α} (blind : ∀ rows, f (rows.map q.maskRow) = f rows)
    (rest : ∀ rows, Hides (f rows)) : Hides (RealWorld.execute q >>= f) := by
  refine .exec fun r r' same => ?_
  cases r with
  | ok rows =>
    cases r' with
    | ok rows' =>
      have masked : rows.map q.maskRow = rows'.map q.maskRow := Except.ok.inj same
      have equal : f rows = f rows' := by rw [← blind rows, ← blind rows', masked]
      show Prog.Agree Sql.Alike (f rows) (f rows')
      rw [equal]
      exact rest rows'
    | error e => cases same
  | error e =>
    cases r' with
    | ok rows' => cases same
    | error e' =>
      obtain rfl := Except.error.inj same
      exact .throw _

theorem Hides.pure {a : α} : Hides (Prog.pure a : Program α) := Prog.Agree.pure a

theorem Hides.throw {e : Exn} : Hides (Prog.throw e : Program α) := Prog.Agree.throw e

theorem Hides.lift {x : Except Exn α} {f : α → Program β} (rest : ∀ a, Hides (f a)) : Hides (lift x >>= f) := by
  cases x with
  | ok a => exact rest a
  | error e => exact .throw

/-- A handler that takes one row, or none, and makes the same of a row whose hash is blanked. -/
theorem Hides.user {absent : Program α} {shown : q.Row → Program α} (blind : ∀ row, shown (q.maskRow row) = shown row)
    (none : Hides absent) (rest : ∀ row, Hides (shown row)) :
    Hides (RealWorld.execute q >>= fun res => if res.isEmpty then absent else RealWorld.lift (asSingleRow res) >>= shown) := by
  refine .users (fun rows => ?_) fun rows => ?_
  · match rows with
    | [] => rfl
    | [row] => exact blind row
    | _ :: _ :: _ => rfl
  · split
    · exact none
    · exact .lift rest

namespace Handlers

theorem validated_hides {parsed : Except Exn α} {handle : α → Program Response} (rest : ∀ a, Hides (handle a)) :
    Hides (validated parsed handle) := by
  unfold validated
  split
  · exact rest _
  · exact .pure
  · exact .throw

theorem alreadyTaken_hides {fields : List (String × String)} {body : Program (Response ⊕ α)} (h : Hides body) :
    Hides (alreadyTaken fields body) := by
  refine Prog.Agree.tryCatch h fun e => ?_
  split
  · split
    · exact .pure _
    · exact .throw _
  · exact .throw _

theorem afterTry_hides {result : Response ⊕ α} {rest : α → Program Response} (h : ∀ a, Hides (rest a)) :
    Hides (afterTry result rest) := by
  cases result with
  | inl response => exact .pure
  | inr a => exact h a

section
variable {svc : Service} {request : HttpRequest} {auth : Option UserAuthData}

theorem articleResponse_hides {res : List ArticleWithAuthorProfile} : Hides (articleResponse svc res) :=
  .lift fun _ => .lift fun _ => .pure

theorem articlesResponse_hides {res : List ArticleWithAuthorProfile} : Hides (articlesResponse svc res) :=
  .lift fun _ => .pure

theorem showArticle_hides {articleId userId : Int} : Hides (showArticle svc articleId userId) :=
  .execute nofun fun _ => articleResponse_hides

theorem Users.Post.hides {now : Int} {urandom : Option (List UInt8)} :
    Hides (Users.Post.handleRequestJsonThrow svc now urandom request) := by
  refine validated_hides fun registration => .bind (alreadyTaken_hides ?_) fun _ => afterTry_hides fun _ => .pure
  exact .lift fun hash => .execute nofun fun rows => .lift fun _ => .pure

theorem User.Get.hides : Hides (User.Get.handleRequestJsonThrow auth) := by
  exact .lift fun user => .user (fun _ => rfl) .pure fun _ => .pure

theorem User.Put.hides {urandom : Option (List UInt8)} :
    Hides (User.Put.handleRequestJsonThrow svc urandom request auth) := by
  refine validated_hides fun update => .lift fun user => ?_
  have statement : ∀ hash, Hides (do
      let res ← execute (.updateUserById user.id update.username update.email hash update.bio update.image)
      if res.isEmpty then notFound
      else
        let row ← lift (asSingleRow res)
        currentUserResponse user row : Program Response) := by
    exact fun hash => .user (fun _ => rfl) .pure fun _ => .pure
  cases update.password with
  | none => exact statement none
  | some password => exact .lift fun hash => statement hash

theorem markProfile_hides {write : Int → Int → Sql} {following : Bool}
    (hidden : ∀ follower followed, ¬ (write follower followed).showsUsers) :
    Hides (markProfile write following request auth) := by
  refine .user (fun _ => rfl) .pure fun user => ?_
  exact .lift fun caller => .execute (hidden _ _) fun _ => .pure

theorem markArticle_hides {write : String → Int → Sql} (hidden : ∀ slug userId, ¬ (write slug userId).showsUsers) :
    Hides (markArticle svc write request auth) := by
  refine .execute nofun fun rows => ?_
  split
  · exact .pure
  · exact .lift fun user => .execute (hidden _ _) fun _ => .lift fun articleId => showArticle_hides

theorem Articles.Post.hides : Hides (Articles.Post.handleRequestJsonThrow svc request auth) := by
  refine validated_hides fun newArticle => .lift fun user => .bind (alreadyTaken_hides ?_) fun _ =>
    afterTry_hides fun _ => showArticle_hides
  exact .lift fun slug => .execute nofun fun rows => .lift fun _ => .pure

theorem ArticlesSlug.Put.hides : Hides (ArticlesSlug.Put.handleRequestJsonThrow svc request auth) := by
  refine validated_hides fun update => .lift fun user => .bind (alreadyTaken_hides ?_) fun _ =>
    afterTry_hides fun _ => showArticle_hides
  have statement : ∀ title newSlug, Hides (do
      let res ← execute (.updateArticleBySlug update.slug user.id title newSlug update.description update.body)
      if res.isEmpty then return .inl ⟨404, .null⟩
      let articleId ← lift (asSingleRow res)
      return .inr articleId : Program (Response ⊕ Int)) := by
    refine fun title newSlug => .execute nofun fun rows => ?_
    split
    · exact .pure
    · exact .lift fun _ => .pure
  cases update.title with
  | none => exact statement none none
  | some title => exact .lift fun newSlug => statement (some title) newSlug

end

end Handlers

end

theorem handler_hides {svc : Service} {call : Call} (other : call.route ≠ .postUsersLogin) (auth : Option UserAuthData) :
    Hides (handler svc call auth) := by
  unfold handler
  cases route : call.route with
  | postUsersLogin => exact absurd route other
  | postUsers => exact Handlers.Users.Post.hides
  | getUser => exact Handlers.User.Get.hides
  | putUser => exact Handlers.User.Put.hides
  | getProfiles =>
    refine .execute nofun fun rows => ?_
    split
    · exact .pure
    · exact .lift fun _ => .pure
  | postProfiles => exact Handlers.markProfile_hides nofun
  | deleteProfiles => exact Handlers.markProfile_hides nofun
  | getArticles => exact .lift fun _ => .execute nofun fun _ => Handlers.articlesResponse_hides
  | getArticlesFeed => exact .lift fun _ => .lift fun _ => .execute nofun fun _ => Handlers.articlesResponse_hides
  | getArticlesSlug =>
    refine .execute nofun fun rows => ?_
    split
    · exact .pure
    · exact Handlers.articleResponse_hides
  | postArticles => exact Handlers.Articles.Post.hides
  | putArticlesSlug => exact Handlers.ArticlesSlug.Put.hides
  | deleteArticlesSlug =>
    refine .lift fun user => .execute nofun fun rows => ?_
    split
    · exact .pure
    · exact .execute nofun fun _ => .pure
  | postArticlesSlugComments =>
    refine Handlers.validated_hides fun comment => .execute nofun fun rows => .lift fun commentId => ?_
    exact .execute nofun fun rows => .lift fun row => .pure
  | getArticlesSlugComments =>
    refine .execute nofun fun rows => ?_
    split <;> exact .pure
  | deleteArticlesSlugComments =>
    refine .lift fun comment => .lift fun user => .execute nofun fun rows => .lift fun found => ?_
    split
    · exact .pure
    · exact .execute nofun fun _ => .pure
  | postArticlesSlugFavorite => exact Handlers.markArticle_hides nofun
  | deleteArticlesSlugFavorite => exact Handlers.markArticle_hides nofun
  | getTags => exact .execute nofun fun rows => .lift fun _ => .pure

theorem serve_hides {svc : Service} {call : Call} (other : call.route ≠ .postUsersLogin) : Hides (serve svc call) :=
  serve_rule Hides (fun _ => .pure) (fun _ => .throw) (handler_hides other)

end RealWorld
