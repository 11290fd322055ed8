import RealWorld.Server

/-!
# Handlers and the user data they read

`GetData` throws when the authorization check attached nothing. No other step of a handler fails
for that reason, so where the data is, or is not asked for, the exception does not occur.
-/

namespace RealWorld
open Schema Transactional

/-! ### Computations -/

/-- A computation that does not fail for want of user data. -/
def Present {α : Type} (x : Except Exn α) : Prop := x ≠ .error .noAuthData

section
variable {α β : Type} {x : Except Exn α}

theorem Present.ok {a : α} : Present (.ok a) := nofun

theorem Present.error {e : Exn} (other : e ≠ .noAuthData) : Present (.error e : Except Exn α) :=
  fun same => other (Except.error.inj same)

theorem Present.bind {f : α → Except Exn β} (first : Present x) (rest : ∀ a, Present (f a)) :
    Present (x >>= f) := by
  cases x with
  | ok a => exact rest a
  | error e => exact .error fun same => first (same ▸ rfl)

theorem Present.map {f : α → β} (h : Present x) : Present (f <$> x) := by
  cases x with
  | ok a => exact .ok
  | error e => exact .error fun same => h (same ▸ rfl)

theorem Present.mapM {f : α → Except Exn β} (each : ∀ a, Present (f a)) (items : List α) :
    Present (items.mapM f) := by
  induction items with
  | nil => exact .ok
  | cons a items ih =>
    rw [List.mapM_cons]
    exact .bind (each a) fun _ => .bind ih fun _ => .ok

theorem member_present (data : Value) (key : String) : Present (data.member key) := by
  unfold Value.member
  split <;> nofun

theorem asString_present (data : Value) : Present data.asString := by
  unfold Value.asString
  split <;> nofun

theorem asOptionalString_present (data : Value) : Present data.asOptionalString := by
  unfold Value.asOptionalString
  split <;> nofun

theorem asOptionalStrings_present (data : Value) : Present data.asOptionalStrings := by
  unfold Value.asOptionalStrings
  split
  · exact .ok
  · exact .ok
  · exact .map (.mapM (fun _ => asString_present _) _)
  · exact .error nofun

theorem checkSize_present (value name : String) (min max : Nat) : Present (checkSize value name min max) := by
  unfold checkSize
  split <;> nofun

theorem lexicalCastInt32_present (s : String) : Present (lexicalCastInt32 s) := by
  unfold lexicalCastInt32
  split
  dsimp only
  split <;> nofun

theorem slugify_present (icu : Icu) (title : String) : Present (slugify icu title) := by
  unfold slugify
  split <;> nofun

theorem generateHash_present (eks : Eksblowfish) (urandom : Option (List UInt8)) (password : String) :
    Present (generateHash eks urandom password) := by
  unfold generateHash
  split
  · nofun
  · split <;> nofun

theorem asSingleRow_present (rows : List α) : Present (asSingleRow rows) := by
  unfold asSingleRow
  split <;> nofun

theorem read_present (row : ArticleWithAuthorProfile) : Present (ArticleModel.read row) := by
  unfold ArticleModel.read
  split <;> nofun

theorem readStrings_present (rows : List (Option String)) : Present (readStrings rows) := by
  unfold readStrings
  split <;> nofun

end

section
variable {lib : JsonLib} (json : Present lib.hasMemberOfMissing)
include json

theorem hasMember_present (data : Value) (key : String) : Present (data.hasMember lib key) := by
  unfold Value.hasMember
  split
  · exact json
  all_goals nofun

theorem validateEmail_present (data : Value) (name : String) : Present (validateEmail lib data name) := by
  refine .bind (hasMember_present json data name) fun found => ?_
  split
  · exact .error nofun
  refine .bind (member_present data name) fun _ => .bind (asString_present _) fun email => ?_
  cases email.isEmpty <;> cases emailPattern.accepts (utf8 email) <;> nofun

theorem checkSizeOf_present (data : Value) (name : String) (min max : Nat) :
    Present (checkSizeOf lib data name min max) := by
  refine .bind (hasMember_present json data name) fun found => ?_
  split
  · exact .error nofun
  refine .bind (member_present data name) fun _ => .bind (asString_present _) fun text => ?_
  exact checkSize_present text name min max

end

namespace Handlers

theorem checkOptional_present (value : Option String) (name : String) (min max : Nat) :
    Present (checkOptional value name min max) := by
  cases value with
  | none => exact .ok
  | some text => exact .map (checkSize_present text name min max)

theorem optionalField_present {α : Type} {data : Value} {name : String} {min max : Nat}
    {f : Option String → Except Exn α} (rest : ∀ value, Present (f value)) : Present (do
      let value ← (← data.member name).asOptionalString
      let checked ← checkOptional value name min max
      f checked) :=
  .bind (member_present data name) fun _ => .bind (asOptionalString_present _) fun value =>
    .bind (checkOptional_present value name min max) rest

theorem checkTagList_present (tagList : Option (List String)) : Present (checkTagList tagList) := by
  cases tagList with
  | none => exact .ok
  | some tags => exact .map (.mapM (fun tag => .bind (checkSize_present tag _ _ _) fun _ => .ok) tags)

theorem int32Arg_present (request : HttpRequest) (name : String) : Present (int32Arg request name) := by
  unfold int32Arg
  split
  · exact .map (lexicalCastInt32_present _)
  · exact .ok

end Handlers

/-! ### Programs -/

/-- `p` does not fail for want of user data, whatever the database answers. -/
abbrev Attended {α : Type} (p : Program α) : Prop := p.ThrowsOnly (· ≠ .noAuthData)

section
variable {α β : Type}

theorem Attended.execute {q : Sql} {f : List q.Row → Program α} (rest : ∀ rows, Attended (f rows)) :
    Attended (execute q >>= f) := by
  intro r
  cases r with
  | ok rows => exact rest rows
  | error e => nofun

theorem Attended.lift {x : Except Exn α} {f : α → Program β} (present : Present x)
    (rest : ∀ a, Attended (f a)) : Attended (lift x >>= f) := by
  cases x with
  | ok a => exact rest a
  | error e =>
    show e ≠ .noAuthData
    exact fun same => present (same ▸ rfl)

namespace Handlers

theorem validated_attended {parsed : Except Exn α} {handle : α → Program Response}
    (present : Present parsed) (rest : ∀ a, Attended (handle a)) :
    Attended (validated parsed handle) := by
  unfold validated
  split
  · exact rest _
  · trivial
  · show _ ≠ Exn.noAuthData
    exact fun same => present (same ▸ rfl)

theorem alreadyTaken_attended {fields : List (String × String)} {body : Program (Response ⊕ α)}
    (h : Attended body) : Attended (alreadyTaken fields body) := by
  refine .tryCatch h fun e other => ?_
  split
  · split
    · trivial
    · nofun
  · exact other

theorem afterTry_attended {result : Response ⊕ α} {rest : α → Program Response}
    (h : ∀ a, Attended (rest a)) : Attended (afterTry result rest) := by
  cases result with
  | inl response => trivial
  | inr a => exact h a

section
variable {svc : Service} {request : HttpRequest} {auth : Option UserAuthData} {data : UserAuthData}

theorem articleResponse_attended {res : List ArticleWithAuthorProfile} :
    Attended (articleResponse svc res) :=
  .lift (asSingleRow_present res) fun row => .lift (read_present row) fun _ => trivial

theorem articlesResponse_attended {res : List ArticleWithAuthorProfile} :
    Attended (articlesResponse svc res) := .lift (.mapM read_present res) fun _ => trivial

theorem showArticle_attended {articleId userId : Int} : Attended (showArticle svc articleId userId) :=
  .execute fun _ => articleResponse_attended

theorem Articles.Post.attended (json : Present svc.json.hasMemberOfMissing) :
    Attended (Articles.Post.handleRequestJsonThrow svc request (some data)) := by
  refine validated_attended ?_ fun newArticle => .lift .ok fun user => .bind (alreadyTaken_attended ?_)
    fun _ => afterTry_attended fun _ => showArticle_attended
  · refine .bind (member_present _ _) fun value => ?_
    refine .bind (checkSizeOf_present json _ _ _ _) fun _ => .bind (checkSizeOf_present json _ _ _ _) fun _ => ?_
    refine .bind (checkSizeOf_present json _ _ _ _) fun _ => .bind (member_present _ _) fun _ => ?_
    exact .bind (asOptionalStrings_present _) fun _ => .bind (checkTagList_present _) fun _ => .ok
  · exact .lift (slugify_present _ _) fun slug => .execute fun rows =>
      .lift (asSingleRow_present rows) fun _ => trivial

theorem ArticlesSlug.Put.attended :
    Attended (ArticlesSlug.Put.handleRequestJsonThrow svc request (some data)) := by
  refine validated_attended ?_ fun update => .lift .ok fun user => .bind (alreadyTaken_attended ?_)
    fun _ => afterTry_attended fun _ => showArticle_attended
  · refine .bind (member_present _ _) fun value => ?_
    refine optionalField_present fun title => optionalField_present fun description => ?_
    refine optionalField_present fun body => ?_
    refine .bind (member_present _ _) fun _ => .bind (asOptionalStrings_present _) fun _ => ?_
    refine .bind (checkTagList_present _) fun tagList => ?_
    split <;> nofun
  · have statement : ∀ title newSlug, Attended (do
        let res ← execute (.updateArticleBySlug update.slug user.id title newSlug update.description
          update.body)
        if res.isEmpty then return .inl ⟨404, .null⟩
        let articleId ← lift (asSingleRow res)
        return .inr articleId : Program (Response ⊕ Int)) := by
      refine fun title newSlug => .execute fun rows => ?_
      split
      · trivial
      · exact .lift (asSingleRow_present rows) fun _ => trivial
    cases update.title with
    | none => exact statement none none
    | some title => exact .lift (.map (slugify_present _ _)) fun newSlug => statement (some title) newSlug

theorem ArticlesSlugComments.Post.attended (json : Present svc.json.hasMemberOfMissing) :
    Attended (ArticlesSlugComments.Post.handleRequestJsonThrow svc request (some data)) := by
  refine validated_attended ?_ fun comment => .execute fun rows => ?_
  · exact .bind (member_present _ _) fun value => .bind .ok fun user =>
      .bind (checkSizeOf_present json _ _ _ _) fun _ => .ok
  · exact .lift (asSingleRow_present rows) fun _ => .execute fun rows =>
      .lift (asSingleRow_present rows) fun _ => trivial

theorem ArticlesSlugComments.Del.attended :
    Attended (ArticlesSlugComments.Del.handleRequestJsonThrow request (some data)) := by
  refine .lift (.bind (lexicalCastInt32_present _) fun _ => .ok) fun comment => .lift .ok fun user => ?_
  refine .execute fun rows => .lift (asSingleRow_present rows) fun found => ?_
  split
  · trivial
  · exact .execute fun _ => trivial

theorem markArticle_attended {write : String → Int → Sql} :
    Attended (markArticle svc write request (some data)) := by
  refine .execute fun rows => ?_
  split
  · trivial
  · exact .lift .ok fun user => .execute fun _ => .lift (asSingleRow_present rows) fun _ =>
      showArticle_attended

theorem markProfile_attended {write : Int → Int → Sql} {following : Bool} :
    Attended (markProfile write following request (some data)) := by
  refine .execute fun rows => ?_
  split
  · trivial
  · exact .lift (asSingleRow_present rows) fun _ => .lift .ok fun _ => .execute fun _ => trivial

theorem Users.Post.attended (json : Present svc.json.hasMemberOfMissing) {now : Int}
    {urandom : Option (List UInt8)} :
    Attended (Users.Post.handleRequestJsonThrow svc now urandom request) := by
  refine validated_attended ?_ fun registration => .bind (alreadyTaken_attended ?_)
    fun _ => afterTry_attended fun _ => trivial
  · refine .bind (member_present _ _) fun value => .bind (checkSizeOf_present json _ _ _ _) fun _ => ?_
    exact .bind (checkSizeOf_present json _ _ _ _) fun _ => .bind (validateEmail_present json _ _) fun _ => .ok
  · exact .lift (generateHash_present _ _ _) fun hash => .execute fun rows =>
      .lift (asSingleRow_present rows) fun _ => trivial

theorem UsersLogin.Post.attended (json : Present svc.json.hasMemberOfMissing) {now : Int} :
    Attended (UsersLogin.Post.handleRequestJsonThrow svc now request) := by
  refine validated_attended ?_ fun login => .execute fun rows => ?_
  · refine .bind (member_present _ _) fun value => .bind (validateEmail_present json _ _) fun _ => ?_
    exact .bind (checkSizeOf_present json _ _ _ _) fun _ => .ok
  · split
    · nofun
    · refine .lift (asSingleRow_present rows) fun user => ?_
      split
      · nofun
      · trivial

theorem User.Put.attended (json : Present svc.json.hasMemberOfMissing) {urandom : Option (List UInt8)} :
    Attended (User.Put.handleRequestJsonThrow svc urandom request (some data)) := by
  refine validated_attended ?_ fun update => .lift .ok fun user => ?_
  · refine .bind (member_present _ _) fun value => ?_
    have email : ∀ value given, Present (User.Put.checkOptionalEmail svc.json value given) := by
      intro value given
      cases given with
      | none => exact .ok
      | some text => exact .map (validateEmail_present json _ _)
    refine .bind (member_present _ _) fun _ => .bind (asOptionalString_present _) fun _ => ?_
    refine .bind (email _ _) fun email => ?_
    refine optionalField_present fun username => optionalField_present fun password => ?_
    refine optionalField_present fun bio => optionalField_present fun image => ?_
    split <;> nofun
  · have statement : ∀ hash, Attended (do
        let res ← execute (.updateUserById user.id update.username update.email hash update.bio
          update.image)
        if res.isEmpty then notFound
        else
          let row ← lift (asSingleRow res)
          currentUserResponse user row : Program Response) := by
      refine fun hash => .execute fun rows => ?_
      split
      · trivial
      · exact .lift (asSingleRow_present rows) fun _ => trivial
    cases update.password with
    | none => exact statement none
    | some password => exact .lift (.map (generateHash_present _ _ _)) fun hash => statement hash

end

end Handlers

end

/-- A handler whose route does not require authorization reads no user data, and every other handler
is content with the data of a token. -/
theorem handler_attended {svc : Service} (json : Present svc.json.hasMemberOfMissing) {call : Call}
    {auth : Option UserAuthData} (furnished : auth.isSome ∨ call.route.auth ≠ some false) :
    Attended (handler svc call auth) := by
  have data : call.route.auth = some false → ∃ data, auth = some data := by
    intro required
    exact Option.isSome_iff_exists.mp (furnished.resolve_right (absurd required))
  unfold handler
  cases route : call.route with
  | postUsersLogin => exact Handlers.UsersLogin.Post.attended json
  | postUsers => exact Handlers.Users.Post.attended json
  | getTags => exact .execute fun rows => .lift (readStrings_present rows) fun _ => trivial
  | getProfiles =>
    refine .execute fun rows => ?_
    split
    · trivial
    · exact .lift (asSingleRow_present rows) fun _ => trivial
  | getArticles =>
    refine .lift (.bind (Handlers.int32Arg_present _ _) fun _ =>
      .bind (Handlers.int32Arg_present _ _) fun _ => .ok) fun _ => ?_
    exact .execute fun _ => Handlers.articlesResponse_attended
  | getArticlesSlug =>
    refine .execute fun rows => ?_
    split
    · trivial
    · exact Handlers.articleResponse_attended
  | getArticlesSlugComments =>
    refine .execute fun rows => ?_
    split <;> trivial
  | getUser =>
    obtain ⟨data, rfl⟩ := data (route ▸ rfl)
    refine .lift .ok fun user => .execute fun rows => ?_
    split
    · trivial
    · exact .lift (asSingleRow_present rows) fun _ => trivial
  | putUser =>
    obtain ⟨data, rfl⟩ := data (route ▸ rfl)
    exact Handlers.User.Put.attended json
  | postProfiles =>
    obtain ⟨data, rfl⟩ := data (route ▸ rfl)
    exact Handlers.markProfile_attended
  | deleteProfiles =>
    obtain ⟨data, rfl⟩ := data (route ▸ rfl)
    exact Handlers.markProfile_attended
  | getArticlesFeed =>
    obtain ⟨data, rfl⟩ := data (route ▸ rfl)
    refine .lift (.bind (Handlers.int32Arg_present _ _) fun _ =>
      .bind (Handlers.int32Arg_present _ _) fun _ => .ok) fun _ => ?_
    exact .lift .ok fun _ => .execute fun _ => Handlers.articlesResponse_attended
  | postArticles =>
    obtain ⟨data, rfl⟩ := data (route ▸ rfl)
    exact Handlers.Articles.Post.attended json
  | putArticlesSlug =>
    obtain ⟨data, rfl⟩ := data (route ▸ rfl)
    exact Handlers.ArticlesSlug.Put.attended
  | deleteArticlesSlug =>
    obtain ⟨data, rfl⟩ := data (route ▸ rfl)
    refine .lift .ok fun user => .execute fun rows => ?_
    split
    · trivial
    · exact .execute fun _ => trivial
  | postArticlesSlugComments =>
    obtain ⟨data, rfl⟩ := data (route ▸ rfl)
    exact Handlers.ArticlesSlugComments.Post.attended json
  | deleteArticlesSlugComments =>
    obtain ⟨data, rfl⟩ := data (route ▸ rfl)
    exact Handlers.ArticlesSlugComments.Del.attended
  | postArticlesSlugFavorite =>
    obtain ⟨data, rfl⟩ := data (route ▸ rfl)
    exact Handlers.markArticle_attended
  | deleteArticlesSlugFavorite =>
    obtain ⟨data, rfl⟩ := data (route ▸ rfl)
    exact Handlers.markArticle_attended

end RealWorld
