import RealWorld.Common.Bcrypt
import RealWorld.Dto
import RealWorld.Transactional.Interleaving

/-!
# What every handler uses

A handler is a `Program`: it executes statements on the database one at a time, each in its own
transaction, and answers or throws.
-/

namespace RealWorld
open Schema Transactional

structure Service where
  loc : DbLocale
  json : JsonLib
  icu : Icu
  jwt : JwtLib
  jwtConfig : JWTConfig
  eks : Eksblowfish

/-- `server::http::HttpRequest`, with the body parsed as JSON. -/
structure HttpRequest where
  authorization : String := ""
  pathArgs : List (String × String) := []
  args : List (String × String) := []
  body : Json := .null

namespace HttpRequest

def getPathArg (request : HttpRequest) (name : String) : String :=
  (request.pathArgs.lookup name).getD ""

def hasArg (request : HttpRequest) (name : String) : Bool := (request.args.lookup name).isSome

def getArg (request : HttpRequest) (name : String) : String := (request.args.lookup name).getD ""

end HttpRequest

abbrev Program := Prog Sql Sql.Res Exn

/-- `cluster_->Execute`. The slaves that reading handlers address are taken to be up to date. -/
def execute (q : Sql) : Program (List q.Row) :=
  .exec q fun
    | .ok rows => .pure rows
    | .error e => .throw (.db e)

/-- A step of a handler that does not touch the database. -/
def lift {α : Type} : Except Exn α → Program α
  | .ok a => .pure a
  | .error e => .throw e

@[simp] theorem lift_ok {α : Type} (a : α) : lift (.ok a) = .pure a := rfl

@[simp] theorem lift_error {α : Type} (e : Exn) : (lift (.error e) : Program α) = .throw e := rfl

/-! ### One statement of a handler that runs alone -/

section
variable {loc : DbLocale} {s : Store} {q : Sql} {α β : Type} {f : List q.Row → Program α}
  {post : Except Exn α → Store → Prop}

theorem ensures_execute
    (done : ∀ m rows s', q.exec loc m s = (.ok rows, s') → (f rows).Ensures (Sql.exec loc) s' post)
    (failed : ∀ m e s', q.exec loc m s = (.error e, s') → post (.error (.db e)) s') :
    (execute q >>= f).Ensures (Sql.exec loc) s post := by
  apply Prog.Ensures.exec
  intro m
  cases answer : (q.exec loc m s).1 with
  | ok rows => exact done m rows _ (Prod.ext answer rfl)
  | error e => exact .throw (failed m e _ (Prod.ext answer rfl))

theorem ensures_lift {x : Except Exn β} {f : β → Program α}
    (done : ∀ a, x = .ok a → (f a).Ensures (Sql.exec loc) s post)
    (failed : ∀ e, x = .error e → post (.error e) s) :
    (lift x >>= f).Ensures (Sql.exec loc) s post := by
  cases x with
  | ok a => exact done a rfl
  | error e => exact .throw (failed e rfl)

end

section
variable {loc : DbLocale} {ms : Nat → Moment} {s s' : Store} {q : Sql} {α : Type}
  {f : List q.Row → Program α}

theorem run_execute_ok {rows : List q.Row} (answer : q.exec loc (ms 0) s = (.ok rows, s')) :
    (execute q >>= f).run (Sql.exec loc) ms s =
      (f rows).run (Sql.exec loc) (fun n => ms (n + 1)) s' := by
  rw [execute, Prog.exec_bind, Prog.run, answer, Prog.pure_bind]

theorem run_execute_error {e : DbError} (answer : q.exec loc (ms 0) s = (.error e, s')) :
    (execute q >>= f).run (Sql.exec loc) ms s = (.error (.db e), s') := by
  rw [execute, Prog.exec_bind, Prog.run, answer, Prog.throw_bind, Prog.run]

end

/-! ### One statement of a handler among those of other clients -/

section
variable {loc : DbLocale} {i : Nat} {q : Sql} {α β : Type} {es : List (Event Sql Sql.Res Store)}
  {p' : Program α}

theorem follows_execute {f : List q.Row → Program α}
    (h : Follows (Sql.exec loc) i (execute q >>= f) es p') :
    (es = [] ∧ p' = execute q >>= f) ∨
      (∃ m s rows s' rest, q.exec loc m s = (.ok rows, s') ∧ es = ⟨i, q, s, .ok rows, s'⟩ :: rest ∧
        Follows (Sql.exec loc) i (f rows) rest p') ∨
      ∃ m s e s', q.exec loc m s = (.error e, s') ∧ es = [⟨i, q, s, .error e, s'⟩] ∧
        p' = .throw (.db e) := by
  rcases Follows.of_exec h with waiting | ⟨m, s, r, s', rest, answer, rfl, follows⟩
  · exact .inl waiting
  · cases r with
    | ok rows => exact .inr (.inl ⟨m, s, rows, s', rest, answer, rfl, follows⟩)
    | error e =>
      obtain ⟨rfl, rfl⟩ := Follows.of_throw follows
      exact .inr (.inr ⟨m, s, e, s', answer, rfl, rfl⟩)

theorem follows_lift {x : Except Exn β} {f : β → Program α}
    (h : Follows (Sql.exec loc) i (lift x >>= f) es p') :
    (∃ a, x = .ok a ∧ Follows (Sql.exec loc) i (f a) es p') ∨
      ∃ e, x = .error e ∧ es = [] ∧ p' = .throw e := by
  cases x with
  | ok a => exact .inl ⟨a, rfl, h⟩
  | error e => exact .inr ⟨e, rfl, Follows.of_throw h⟩

end

namespace Handlers

/-- `request_context.GetData<auth::UserAuthData>("user_auth_data")`. -/
def getData : Option UserAuthData → Except Exn UserAuthData
  | some data => .ok data
  | none => .error .noAuthData

def ok (body : Json) : Program Response := .pure ⟨200, body⟩

def notFound : Program Response := .pure ⟨404, .null⟩

/-- `try { request = ParseRequest(..) } catch (const errors::ValidationError&)`. -/
def validated {α : Type} (parsed : Except Exn α) (handle : α → Program Response) : Program Response :=
  match parsed with
  | .ok request => handle request
  | .error (.validation field msg) => .pure ⟨422, makeError field msg⟩
  | .error e => .throw e

/-- The handling of `UniqueViolation`: a constraint among `fields` is answered with 422 for its
field, any other is thrown on. `Sum.inl` is a return from inside the `try` block. -/
def alreadyTaken {α : Type} (fields : List (String × String)) (body : Program (Response ⊕ α)) :
    Program (Response ⊕ α) :=
  tryCatch body fun
    | .db (.uniqueViolation constraint) =>
      match fields.lookup constraint with
      | some field => .pure (.inl ⟨422, makeError field "has already been taken"⟩)
      | none => .throw (.db (.uniqueViolation constraint))
    | e => .throw e

def afterTry {α : Type} (result : Response ⊕ α) (rest : α → Program Response) : Program Response :=
  match result with
  | .inl response => .pure response
  | .inr a => rest a

/-- `builder["article"] = Article::Parse(res.AsSingleRow<ArticleWithAuthorProfile>())`. -/
def articleResponse (svc : Service) (res : List ArticleWithAuthorProfile) : Program Response := do
  let row ← lift (asSingleRow res)
  let model ← lift (ArticleModel.read row)
  ok (.obj [("article", serializeArticle svc.json (Dto.Article.parse model))])

/-- Three handlers end by reading an article back and answering with it. -/
def showArticle (svc : Service) (articleId userId : Int) : Program Response := do
  let res ← execute (.getArticleWithAuthorProfile articleId (some userId))
  articleResponse svc res

def articlesResponse (svc : Service) (res : List ArticleWithAuthorProfile) : Program Response := do
  let models ← lift (res.mapM ArticleModel.read)
  ok (.obj [("articles", .arr (models.map fun model => serializeArticle svc.json (Dto.Article.parse model))),
    ("articlesCount", .int models.length)])

/-- `request.HasArg(name)` and `boost::lexical_cast<std::int32_t>` of the argument. -/
def int32Arg (request : HttpRequest) (name : String) : Except Exn (Option Int) :=
  if request.hasArg name then some <$> lexicalCastInt32 (request.getArg name) else .ok none

def textArg (request : HttpRequest) (name : String) : Option String :=
  if request.hasArg name then some (request.getArg name) else none

/-- `if (field = data[..].As<std::optional<std::string>>(); field) CheckSize(*field, ..)`. -/
def checkOptional (value : Option String) (name : String) (min max : Nat) : Except Exn (Option String) :=
  match value with
  | none => .ok none
  | some text => some <$> checkSize text name min max

/-- `std::for_each(tag_list, CheckSize and to_lower)`. -/
def checkTagList (tagList : Option (List String)) : Except Exn (Option (List String)) :=
  match tagList with
  | none => .ok none
  | some tags => some <$> tags.mapM fun tag => do
    let tag ← checkSize tag "tagList" 2 256
    return toLower tag

end Handlers

end RealWorld
