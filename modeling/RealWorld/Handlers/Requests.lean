import RealWorld.Handlers.Rereads
import RealWorld.Server

/-!
# Requests that pass their parser

Five handlers parse a body before the one statement they write with. A request of each kind is what
`ParseRequest` makes of the body, together with what the handler computes of it before the statement.
-/

namespace RealWorld
open Schema Transactional

/-! ### Accepted bodies -/

/-- The body of a request for a new article, as `ParseRequest` accepts it. -/
def Handlers.Articles.Post.parsed (svc : Service) (request : HttpRequest) :
    Except Exn Dto.NewArticleRequest := do
  parseRequest svc.json (← Value.member (some request.body) "article")

/-- The body of a request for an article update, as `ParseRequest` accepts it. -/
def Handlers.ArticlesSlug.Put.parsed (request : HttpRequest) : Except Exn Dto.UpdateArticleRequest := do
  parseRequest (← Value.member (some request.body) "article") request

/-- The body of a request for a new comment, as `ParseRequest` accepts it. -/
def Handlers.ArticlesSlugComments.Post.parsed (svc : Service) (request : HttpRequest) (auth : Option UserAuthData) :
    Except Exn Dto.NewCommentRequest := do
  parseRequest svc.json request (← Value.member (some request.body) "comment") auth

def Call.registration (svc : Service) (call : Call) : Except Exn Dto.RegistrationRequest := do
  Handlers.Users.Post.parseRequest svc.json (← Value.member (some call.request.body) "user")

def Call.profileUpdate (svc : Service) (call : Call) : Except Exn Dto.UpdateUserRequest := do
  Handlers.User.Put.parseRequest svc.json (← Value.member (some call.request.body) "user")

/-! ### What a body supplies -/

/-- `request_json[object][name]`. -/
def Call.field (call : Call) (object name : String) : Except Exn Value := do
  (← Value.member (some call.request.body) object).member name

/-- The text a body supplies for a field. An absent field and a null one supply none. -/
def Call.supplied (call : Call) (object name : String) : Option String :=
  (do (← call.field object name).asOptionalString : Except Exn (Option String)).toOption.join

def Call.suppliedList (call : Call) (object name : String) : Option (List String) :=
  (do (← call.field object name).asOptionalStrings : Except Exn (Option (List String))).toOption.join

section
variable {call : Call} {object name : String} {data value : Value}

theorem Call.supplied_of {given : Option String} (entered : Value.member (some call.request.body) object = .ok data)
    (member : data.member name = .ok value) (read : value.asOptionalString = .ok given) :
    call.supplied object name = given := by
  have found : (do (← call.field object name).asOptionalString : Except Exn (Option String)) = .ok given :=
    checked_bind.mpr ⟨value, checked_bind.mpr ⟨data, entered, member⟩, read⟩
  unfold Call.supplied
  rw [found]
  rfl

theorem Call.suppliedList_of {given : Option (List String)}
    (entered : Value.member (some call.request.body) object = .ok data) (member : data.member name = .ok value)
    (read : value.asOptionalStrings = .ok given) : call.suppliedList object name = given := by
  have found : (do (← call.field object name).asOptionalStrings : Except Exn (Option (List String))) = .ok given :=
    checked_bind.mpr ⟨value, checked_bind.mpr ⟨data, entered, member⟩, read⟩
  unfold Call.suppliedList
  rw [found]
  rfl

theorem asOptionalString_of {text : String} (read : value.asString = .ok text) :
    value.asOptionalString = .ok (some text) := by
  match value with
  | some (.str _) =>
    obtain rfl := Except.ok.inj read
    rfl

end

/-! ### What the checks pass on -/

theorem checkOptional_value {value checked : Option String} {name : String} {min max : Nat}
    (accepted : Handlers.checkOptional value name min max = .ok checked) : checked = value := by
  cases value with
  | none =>
    cases accepted
    rfl
  | some given =>
    rw [Handlers.checkOptional, map_eq_pure_bind] at accepted
    obtain ⟨text, sized, accepted⟩ := checked_bind.mp accepted
    cases accepted
    rw [(checkSize_ok sized).1]

theorem loweredTags_value {tags lowered : List String}
    (each : (tags.mapM fun tag => do
      let tag ← checkSize tag "tagList" 2 256
      return toLower tag : Except Exn (List String)) = .ok lowered) :
    lowered = tags.map toLower ∧ ∀ tag ∈ tags, 2 < tag.length ∧ tag.length < 256 := by
  induction tags generalizing lowered with
  | nil =>
    cases each
    exact ⟨rfl, nofun⟩
  | cons tag tags ih =>
    rw [List.mapM_cons] at each
    obtain ⟨first, here, each⟩ := checked_bind.mp each
    obtain ⟨rest, others, each⟩ := checked_bind.mp each
    cases each
    obtain ⟨text, sized, here⟩ := checked_bind.mp here
    cases here
    obtain ⟨rfl, sizes⟩ := ih others
    obtain ⟨rfl, size⟩ := checkSize_ok sized
    exact ⟨rfl, List.forall_mem_cons.mpr ⟨size, sizes⟩⟩

theorem checkTagList_value {value checked : Option (List String)}
    (accepted : Handlers.checkTagList value = .ok checked) : checked = value.map (·.map toLower) := by
  cases value with
  | none =>
    cases accepted
    rfl
  | some tags =>
    rw [Handlers.checkTagList, map_eq_pure_bind] at accepted
    obtain ⟨lowered, each, accepted⟩ := checked_bind.mp accepted
    cases accepted
    rw [(loweredTags_value each).1]
    rfl

theorem validateEmail_read {lib : JsonLib} {data : Value} {name email : String}
    (checked : validateEmail lib data name = .ok email) :
    ∃ value, data.member name = .ok value ∧ value.asString = .ok email := by
  unfold validateEmail at checked
  obtain ⟨present, _, checked⟩ := checked_bind.mp checked
  cases present with
  | false => cases checked
  | true =>
    obtain ⟨value, member, checked⟩ := checked_bind.mp checked
    obtain ⟨given, read, checked⟩ := checked_bind.mp checked
    dsimp only at checked
    split at checked
    · cases checked
    · split at checked
      · cases checked
        exact ⟨value, member, read⟩
      · cases checked

/-- The parser has read the address before it validates the member. -/
theorem checkOptionalEmail_value {lib : JsonLib} {data value : Value} {given checked : Option String}
    (member : data.member "email" = .ok value) (read : value.asOptionalString = .ok given)
    (accepted : Handlers.User.Put.checkOptionalEmail lib data given = .ok checked) : checked = given := by
  cases given with
  | none =>
    cases accepted
    rfl
  | some text =>
    rw [Handlers.User.Put.checkOptionalEmail, map_eq_pure_bind] at accepted
    obtain ⟨email, validated, accepted⟩ := checked_bind.mp accepted
    cases accepted
    obtain ⟨value', member', read'⟩ := validateEmail_read validated
    obtain rfl := Except.ok.inj (member.symm.trans member')
    exact Except.ok.inj ((asOptionalString_of read').symm.trans read)

theorem Handlers.Articles.Post.parsed_supplied {svc : Service} {call : Call} {newArticle : Dto.NewArticleRequest}
    (accepted : parsed svc call.request = .ok newArticle) :
    newArticle.tagList = (call.suppliedList "article" "tagList").map (·.map toLower) := by
  obtain ⟨data, entered, accepted⟩ := checked_bind.mp accepted
  obtain ⟨_, _, accepted⟩ := checked_bind.mp accepted
  obtain ⟨_, _, accepted⟩ := checked_bind.mp accepted
  obtain ⟨_, _, accepted⟩ := checked_bind.mp accepted
  obtain ⟨value, member, accepted⟩ := checked_bind.mp accepted
  obtain ⟨given, read, accepted⟩ := checked_bind.mp accepted
  obtain ⟨tagList, tagged, accepted⟩ := checked_bind.mp accepted
  cases accepted
  rw [Call.suppliedList_of entered member read]
  exact checkTagList_value tagged

theorem optionalField_supplied {call : Call} {object name : String} {data : Value} {min max : Nat} {α : Type}
    {f : Option String → Except Exn α} {b : α} (entered : Value.member (some call.request.body) object = .ok data)
    (accepted : (do
      let value ← (← data.member name).asOptionalString
      let checked ← Handlers.checkOptional value name min max
      f checked) = .ok b) : f (call.supplied object name) = .ok b := by
  obtain ⟨value, member, accepted⟩ := checked_bind.mp accepted
  obtain ⟨given, read, accepted⟩ := checked_bind.mp accepted
  obtain ⟨checked, sized, accepted⟩ := checked_bind.mp accepted
  rw [Call.supplied_of entered member read]
  rwa [checkOptional_value sized] at accepted

theorem Handlers.ArticlesSlug.Put.parsed_supplied {call : Call} {update : Dto.UpdateArticleRequest}
    (accepted : parsed call.request = .ok update) :
    update =
      { slug := call.request.getPathArg "slug", title := call.supplied "article" "title",
        description := call.supplied "article" "description", body := call.supplied "article" "body",
        tagList := (call.suppliedList "article" "tagList").map (·.map toLower) } := by
  obtain ⟨data, entered, accepted⟩ := checked_bind.mp accepted
  have title := optionalField_supplied entered accepted
  have description := optionalField_supplied entered title
  have body := optionalField_supplied entered description
  obtain ⟨value, member, accepted⟩ := checked_bind.mp body
  obtain ⟨given, read, accepted⟩ := checked_bind.mp accepted
  obtain ⟨tagList, tagged, accepted⟩ := checked_bind.mp accepted
  rw [Call.suppliedList_of entered member read, ← checkTagList_value tagged]
  dsimp only at accepted
  split at accepted
  · cases accepted
  · exact (Except.ok.inj accepted).symm

theorem Handlers.User.Put.parsed_supplied {svc : Service} {call : Call} {update : Dto.UpdateUserRequest}
    (accepted : call.profileUpdate svc = .ok update) :
    update =
      { email := call.supplied "user" "email", username := call.supplied "user" "username",
        password := call.supplied "user" "password", bio := call.supplied "user" "bio",
        image := call.supplied "user" "image" } := by
  obtain ⟨data, entered, accepted⟩ := checked_bind.mp accepted
  obtain ⟨value, member, accepted⟩ := checked_bind.mp accepted
  obtain ⟨given, read, accepted⟩ := checked_bind.mp accepted
  obtain ⟨email, checked, accepted⟩ := checked_bind.mp accepted
  have username := optionalField_supplied entered accepted
  have password := optionalField_supplied entered username
  have bio := optionalField_supplied entered password
  have image := optionalField_supplied entered bio
  rw [Call.supplied_of entered member read, ← checkOptionalEmail_value member read checked]
  dsimp only at image
  split at image
  · cases image
  · exact (Except.ok.inj image).symm

end RealWorld
