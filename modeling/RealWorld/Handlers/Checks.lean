import RealWorld.Common.Emails
import RealWorld.Handlers.Requests

/-!
# What an accepted body satisfies

Every field of a request has passed the validator that its parser names for it.
-/

namespace RealWorld
open Schema Transactional

/-- `CheckSize` accepts the text. -/
def Within (min max : Nat) (text : String) : Prop := min < text.length ∧ text.length < max

instance (min max : Nat) (text : String) : Decidable (Within min max text) :=
  inferInstanceAs (Decidable (min < text.length ∧ text.length < max))

structure Dto.RegistrationRequest.Checked (registration : RegistrationRequest) : Prop where
  username : Within 2 20 registration.username
  password : Within 5 100 registration.password
  email : EmailValid registration.email

structure Dto.LoginRequest.Checked (login : LoginRequest) : Prop where
  email : EmailValid login.email
  password : Within 5 100 login.password

structure Dto.UpdateUserRequest.Checked (update : UpdateUserRequest) : Prop where
  email : ∀ email ∈ update.email, EmailValid email
  username : ∀ username ∈ update.username, Within 2 20 username
  password : ∀ password ∈ update.password, Within 5 100 password
  bio : ∀ bio ∈ update.bio, Within 3 65535 bio
  image : ∀ image ∈ update.image, Within 3 255 image

structure Dto.NewArticleRequest.Checked (newArticle : NewArticleRequest) : Prop where
  title : Within 3 256 newArticle.title
  description : Within 5 8192 newArticle.description
  body : Within 5 65535 newArticle.body
  tagList : ∀ tag ∈ newArticle.tagList.getD [], Within 2 256 tag

/-- The bound of the title is one less than that of a new article. -/
structure Dto.UpdateArticleRequest.Checked (update : UpdateArticleRequest) : Prop where
  title : ∀ title ∈ update.title, Within 3 255 title
  description : ∀ description ∈ update.description, Within 5 8192 description
  body : ∀ body ∈ update.body, Within 5 65535 body
  tagList : ∀ tag ∈ update.tagList.getD [], Within 2 256 tag

structure Dto.NewCommentRequest.Checked (comment : NewCommentRequest) : Prop where
  body : Within 4 16384 comment.body

/-! ### The validators -/

theorem checkOptional_checked {value checked : Option String} {name : String} {min max : Nat}
    (accepted : Handlers.checkOptional value name min max = .ok checked) : ∀ text ∈ checked, Within min max text := by
  cases value with
  | none =>
    cases accepted
    nofun
  | some given =>
    rw [Handlers.checkOptional, map_eq_pure_bind] at accepted
    obtain ⟨text, sized, accepted⟩ := checked_bind.mp accepted
    cases accepted
    rintro _ ⟨⟩
    exact (checkSize_ok sized).2

/-- Lower-casing keeps the length, so a tag keeps within the bounds it was checked for. -/
theorem checkTagList_checked {value checked : Option (List String)}
    (accepted : Handlers.checkTagList value = .ok checked) : ∀ tag ∈ checked.getD [], Within 2 256 tag := by
  cases value with
  | none =>
    cases accepted
    nofun
  | some tags =>
    rw [Handlers.checkTagList, map_eq_pure_bind] at accepted
    obtain ⟨lowered, each, accepted⟩ := checked_bind.mp accepted
    cases accepted
    obtain ⟨rfl, sizes⟩ := loweredTags_value each
    intro tag member
    obtain ⟨given, mem, rfl⟩ := List.mem_map.mp member
    unfold Within
    rw [toLower_length]
    exact sizes given mem

theorem validateEmail_checked {lib : JsonLib} {data : Value} {name email : String}
    (checked : validateEmail lib data name = .ok email) : EmailValid email := by
  unfold validateEmail at checked
  obtain ⟨present, _, checked⟩ := checked_bind.mp checked
  cases present with
  | false => cases checked
  | true =>
    obtain ⟨value, _, checked⟩ := checked_bind.mp checked
    obtain ⟨given, _, checked⟩ := checked_bind.mp checked
    dsimp only at checked
    split at checked
    · cases checked
    · split at checked
      · rename_i accepted
        cases checked
        exact accepted
      · cases checked

theorem checkOptionalEmail_checked {lib : JsonLib} {data : Value} {value checked : Option String}
    (accepted : Handlers.User.Put.checkOptionalEmail lib data value = .ok checked) :
    ∀ email ∈ checked, EmailValid email := by
  cases value with
  | none =>
    cases accepted
    nofun
  | some given =>
    rw [Handlers.User.Put.checkOptionalEmail, map_eq_pure_bind] at accepted
    obtain ⟨email, checked, accepted⟩ := checked_bind.mp accepted
    cases accepted
    rintro _ ⟨⟩
    exact validateEmail_checked checked

/-! ### What they accept -/

theorem checkOptional_of {text name : String} {min max : Nat} (within : Within min max text) :
    Handlers.checkOptional (some text) name min max = .ok (some text) := by
  have sized : checkSize text name min max = .ok text := if_pos within
  unfold Handlers.checkOptional
  dsimp only
  rw [sized]
  rfl

theorem loweredTags_of {tags : List String} (within : ∀ tag ∈ tags, Within 2 256 tag) : (tags.mapM fun tag => do
    let tag ← checkSize tag "tagList" 2 256
    return toLower tag : Except Exn (List String)) = .ok (tags.map toLower) := by
  induction tags with
  | nil => rfl
  | cons tag tags ih =>
    obtain ⟨here, others⟩ := List.forall_mem_cons.mp within
    have sized : checkSize tag "tagList" 2 256 = .ok tag := if_pos here
    rw [List.mapM_cons, ih others, sized]
    rfl

theorem checkTagList_of {tags : List String} (within : ∀ tag ∈ tags, Within 2 256 tag) :
    Handlers.checkTagList (some tags) = .ok (some (tags.map toLower)) := by
  unfold Handlers.checkTagList
  dsimp only
  rw [loweredTags_of within]
  rfl

/-! ### The parsers -/

section
variable {α : Type} {data : Value} {name : String} {min max : Nat} {b : α}

theorem optionalField_checked {f : Option String → Except Exn α} (accepted : (do
      let value ← (← data.member name).asOptionalString
      let checked ← Handlers.checkOptional value name min max
      f checked) = .ok b) : ∃ checked : Option String, (∀ text ∈ checked, Within min max text) ∧ f checked = .ok b := by
  obtain ⟨_, _, accepted⟩ := checked_bind.mp accepted
  obtain ⟨_, _, accepted⟩ := checked_bind.mp accepted
  obtain ⟨checked, sized, accepted⟩ := checked_bind.mp accepted
  exact ⟨checked, checkOptional_checked sized, accepted⟩

theorem tagListField_checked {f : Option (List String) → Except Exn α} (accepted : (do
      let value ← (← data.member name).asOptionalStrings
      let checked ← Handlers.checkTagList value
      f checked) = .ok b) :
    ∃ checked : Option (List String), (∀ tag ∈ checked.getD [], Within 2 256 tag) ∧ f checked = .ok b := by
  obtain ⟨_, _, accepted⟩ := checked_bind.mp accepted
  obtain ⟨_, _, accepted⟩ := checked_bind.mp accepted
  obtain ⟨checked, sized, accepted⟩ := checked_bind.mp accepted
  exact ⟨checked, checkTagList_checked sized, accepted⟩

end

namespace Handlers
variable {lib : JsonLib} {data : Value}

theorem Users.Post.parseRequest_checked {registration : Dto.RegistrationRequest}
    (accepted : parseRequest lib data = .ok registration) : registration.Checked := by
  obtain ⟨username, named, accepted⟩ := checked_bind.mp accepted
  obtain ⟨password, secret, accepted⟩ := checked_bind.mp accepted
  obtain ⟨email, addressed, accepted⟩ := checked_bind.mp accepted
  cases accepted
  exact ⟨checkSizeOf_ok named, checkSizeOf_ok secret, validateEmail_checked addressed⟩

theorem UsersLogin.Post.parseRequest_checked {login : Dto.LoginRequest}
    (accepted : parseRequest lib data = .ok login) : login.Checked := by
  obtain ⟨email, addressed, accepted⟩ := checked_bind.mp accepted
  obtain ⟨password, secret, accepted⟩ := checked_bind.mp accepted
  cases accepted
  exact ⟨validateEmail_checked addressed, checkSizeOf_ok secret⟩

theorem User.Put.parseRequest_checked {update : Dto.UpdateUserRequest}
    (accepted : parseRequest lib data = .ok update) : update.Checked := by
  obtain ⟨_, _, accepted⟩ := checked_bind.mp accepted
  obtain ⟨_, _, accepted⟩ := checked_bind.mp accepted
  obtain ⟨email, addressed, accepted⟩ := checked_bind.mp accepted
  obtain ⟨username, named, accepted⟩ := optionalField_checked accepted
  obtain ⟨password, secret, accepted⟩ := optionalField_checked accepted
  obtain ⟨bio, told, accepted⟩ := optionalField_checked accepted
  obtain ⟨image, shown, accepted⟩ := optionalField_checked accepted
  dsimp only at accepted
  split at accepted
  · cases accepted
  · cases accepted
    exact ⟨checkOptionalEmail_checked addressed, named, secret, told, shown⟩

theorem Articles.Post.parseRequest_checked {newArticle : Dto.NewArticleRequest}
    (accepted : parseRequest lib data = .ok newArticle) : newArticle.Checked := by
  obtain ⟨title, titled, accepted⟩ := checked_bind.mp accepted
  obtain ⟨description, described, accepted⟩ := checked_bind.mp accepted
  obtain ⟨body, written, accepted⟩ := checked_bind.mp accepted
  obtain ⟨tagList, tagged, accepted⟩ := tagListField_checked accepted
  cases accepted
  exact ⟨checkSizeOf_ok titled, checkSizeOf_ok described, checkSizeOf_ok written, tagged⟩

theorem ArticlesSlug.Put.parseRequest_checked {request : HttpRequest} {update : Dto.UpdateArticleRequest}
    (accepted : parseRequest data request = .ok update) : update.Checked := by
  obtain ⟨title, titled, accepted⟩ := optionalField_checked accepted
  obtain ⟨description, described, accepted⟩ := optionalField_checked accepted
  obtain ⟨body, written, accepted⟩ := optionalField_checked accepted
  obtain ⟨tagList, tagged, accepted⟩ := tagListField_checked accepted
  dsimp only at accepted
  split at accepted
  · cases accepted
  · cases accepted
    exact ⟨titled, described, written, tagged⟩

theorem ArticlesSlugComments.Post.parseRequest_checked {request : HttpRequest} {auth : Option UserAuthData}
    {comment : Dto.NewCommentRequest} (accepted : parseRequest lib request data auth = .ok comment) :
    comment.Checked := by
  obtain ⟨_, _, accepted⟩ := checked_bind.mp accepted
  obtain ⟨body, written, accepted⟩ := checked_bind.mp accepted
  cases accepted
  exact ⟨checkSizeOf_ok written⟩

theorem Articles.Post.parsed_checked {svc : Service} {request : HttpRequest} {newArticle : Dto.NewArticleRequest}
    (accepted : parsed svc request = .ok newArticle) : newArticle.Checked := by
  obtain ⟨data, _, accepted⟩ := checked_bind.mp accepted
  exact parseRequest_checked accepted

theorem ArticlesSlug.Put.parsed_checked {request : HttpRequest} {update : Dto.UpdateArticleRequest}
    (accepted : parsed request = .ok update) : update.Checked := by
  obtain ⟨data, _, accepted⟩ := checked_bind.mp accepted
  exact parseRequest_checked accepted

end Handlers

end RealWorld
