import RealWorld.Common.Jwt

/-!
# `models/` and `dto/`

The rows as the driver reads them, the objects the API answers with and their JSON.
-/

namespace RealWorld
open Schema

/-! ### Reading result sets -/

/-- `res.AsSingleRow<T>()` insists on exactly one row. -/
def asSingleRow {α : Type} : List α → Except Exn α
  | [row] => .ok row
  | _ => .error .resultSet

theorem asSingleRow_ok {α : Type} {rows : List α} {row : α} :
    asSingleRow rows = .ok row ↔ rows = [row] := by
  match rows with
  | [] => exact ⟨nofun, nofun⟩
  | [_] => simp [asSingleRow]
  | _ :: _ :: _ => exact ⟨nofun, nofun⟩

/-- `models::ArticleWithAuthorProfile`. -/
structure ArticleModel where
  articleId : Int
  title : String
  slug : String
  description : String
  body : String
  createdAt : Int
  updatedAt : Int
  tagList : Option (List String)
  favorited : Bool
  favoritesCount : Int
  author : Profile

/-- A NULL inside the tag array does not convert to `std::string`. -/
def ArticleModel.read (row : ArticleWithAuthorProfile) : Except Exn ArticleModel :=
  match row.tagList.mapM id with
  | none => .error .resultSet
  | some tags => .ok
    { articleId := row.articleId, title := row.title, slug := row.slug,
      description := row.description, body := row.body, createdAt := row.createdAt,
      updatedAt := row.updatedAt, tagList := some tags, favorited := row.favorited,
      favoritesCount := row.favoritesCount, author := row.author }

/-- `res.AsSetOf<std::string>()`. -/
def readStrings (rows : List (Option String)) : Except Exn (List String) :=
  match rows.mapM id with
  | none => .error .resultSet
  | some strings => .ok strings

/-! ### Data transfer objects -/

namespace Dto

structure Article where
  slug : String
  title : String
  description : String
  body : String
  tagList : Option (List String)
  createdAt : Int
  updatedAt : Int
  favoritesCount : Int
  favorited : Bool
  profile : Profile

/-- `favorites_count_` narrows from 64 to 32 bits. -/
def Article.parse (model : ArticleModel) : Article :=
  { slug := model.slug, title := model.title, description := model.description,
    body := model.body, tagList := model.tagList, createdAt := model.createdAt,
    updatedAt := model.updatedAt, favoritesCount := toInt32 model.favoritesCount,
    favorited := model.favorited, profile := model.author }

structure User where
  email : String
  token : String
  username : String
  bio : Option String := none
  image : Option String := none

structure NewArticleRequest where
  title : String
  description : String
  body : String
  tagList : Option (List String)
  deriving DecidableEq

structure ArticlesListRequest where
  tag : Option String
  author : Option String
  favorited : Option String
  limit : Option Int
  offset : Option Int

structure FeedRequest where
  limit : Option Int
  offset : Option Int

structure UpdateArticleRequest where
  slug : String
  title : Option String
  description : Option String
  body : Option String
  tagList : Option (List String)

structure RegistrationRequest where
  username : String
  password : String
  email : String
  deriving DecidableEq

structure LoginRequest where
  email : String
  password : String
  deriving DecidableEq

structure UpdateUserRequest where
  email : Option String
  username : Option String
  password : Option String
  bio : Option String
  image : Option String

structure NewCommentRequest where
  body : String
  slug : String
  userId : Int

structure DeleteCommentRequest where
  id : Int
  slug : String

end Dto

/-! ### Serialization -/

def optionalText : Option String → Json
  | some text => .str text
  | none => .null

def serializeProfile (data : Profile) : Json :=
  .obj [("username", .str data.username), ("bio", optionalText data.bio),
    ("image", optionalText data.image), ("following", .bool data.following)]

def serializeUser (data : Dto.User) : Json :=
  .obj [("email", .str data.email), ("token", .str data.token), ("username", .str data.username),
    ("bio", optionalText data.bio), ("image", optionalText data.image)]

def serializeArticle (lib : JsonLib) (data : Dto.Article) : Json :=
  .obj [("slug", .str data.slug), ("title", .str data.title),
    ("description", .str data.description), ("body", .str data.body),
    ("tagList", .arr ((data.tagList.getD []).map .str)),
    ("createdAt", .str (lib.timePoint data.createdAt)),
    ("updatedAt", .str (lib.timePoint data.updatedAt)),
    ("favoritesCount", .int data.favoritesCount), ("favorited", .bool data.favorited),
    ("author", serializeProfile data.profile)]

/-- `dto::Comment` has the fields of the row it is parsed from. -/
def serializeComment (lib : JsonLib) (data : RealworldComment) : Json :=
  .obj [("id", .int data.commentId), ("createdAt", .str (lib.timePoint data.createdAt)),
    ("updatedAt", .str (lib.timePoint data.updatedAt)), ("body", .str data.body),
    ("author", serializeProfile data.author)]

end RealWorld
