import Mathlib.Data.List.Sort
import RealWorld.Schema.Tables

/-!
# The reading functions of `db_1.sql`

Each stored function that only reads, as the relational expression of its query. An argument
that a caller may leave NULL is an `Option`. A set-returning function in a select list
multiplies the row by its results, hence `flatMap`.
-/

namespace RealWorld.Schema
open Relational

structure Profile where
  username : String
  bio : Option String
  image : Option String
  following : Bool
  deriving DecidableEq

/-- The composite type `realworld.realworld_user`. -/
abbrev RealworldUser := User

structure RealworldComment where
  commentId : Int
  createdAt : Int
  updatedAt : Int
  body : String
  author : Profile
  deriving DecidableEq

/-- The composite type `realworld.article_with_author_profile`. Its `tag_list` is an array of
`tags.name` and may hold NULL. -/
structure ArticleWithAuthorProfile where
  articleId : Int
  title : String
  slug : String
  description : String
  body : String
  createdAt : Int
  updatedAt : Int
  tagList : List (Option String)
  favorited : Bool
  favoritesCount : Int
  author : Profile
  deriving DecidableEq

/-- The select list the four article views share, over the parts each computes for itself. -/
def Article.select (a : Article) (tagList : List (Option String)) (favorited : Bool)
    (favoritesCount : Int) (author : Profile) : ArticleWithAuthorProfile :=
  { articleId := a.articleId, title := a.title, slug := a.slug, description := a.description,
    body := a.body, createdAt := a.createdAt, updatedAt := a.updatedAt, tagList := tagList,
    favorited := favorited, favoritesCount := favoritesCount, author := author }

/-- `(SELECT article_id FROM realworld.articles WHERE slug = _slug)`. -/
def articleIdsBySlug (t : Tables) (slug : String) : List Int :=
  (t.articles.filter fun a => a.slug = slug).map (·.articleId)

def getArticleIdBySlug (t : Tables) (slug : String) : List Int := articleIdsBySlug t slug

def isFollowing (t : Tables) (follower followed : Option Int) : Bool :=
  t.followers.any fun r =>
    isTrue (and (eq (some r.follower) follower) (eq (some r.followed) followed))

def isFavoritedArticle (t : Tables) (articleId : Int) (userId : Option Int := none) : Bool :=
  t.favorites.any fun f =>
    isTrue (and (eq (some f.userId) userId) (eq (some f.articleId) (some articleId)))

/-- `_follower_id = NULL` is UNKNOWN for every follower, so the ELSE branch is always taken. -/
def getProfile (t : Tables) (id : Int) (followerId : Option Int := none) : List Profile :=
  (t.users.filter fun u => u.userId = id).map fun u =>
    { username := u.username, bio := u.bio, image := u.image,
      following := caseWhen (eq followerId none) false (isFollowing t followerId (some id)) }

/-- `ORDER BY name ASC` puts NULL last. -/
def nameLe (loc : DbLocale) : Option String → Option String → Bool
  | some a, some b => loc.collateLe a b
  | _, none => true
  | none, some _ => false

def getArticleTagList (loc : DbLocale) (t : Tables) (articleId : Int) : List (Option String) :=
  let names := (t.articleTags.filter fun l => l.articleId = articleId).flatMap fun l =>
    (t.tags.filter fun tag => tag.tagId = l.tagId).map (·.name)
  names.insertionSort fun a b => nameLe loc a b

def getArticleWithAuthorProfile (loc : DbLocale) (t : Tables) (id : Int)
    (followerId : Option Int := none) : List ArticleWithAuthorProfile :=
  (t.articles.filter fun a => a.articleId = id).flatMap fun a =>
    (getProfile t a.authorId followerId).map fun author =>
      a.select (getArticleTagList loc t id)
        (isFavoritedArticle t id followerId)
        (t.favorites.filter fun f => f.articleId = id).length
        author

/-- The id is selected into a variable first, which takes the first row or stays NULL. -/
def getArticleWithAuthorProfileBySlug (loc : DbLocale) (t : Tables) (slug : String)
    (followerId : Option Int := none) : List ArticleWithAuthorProfile :=
  match (articleIdsBySlug t slug).head? with
  | none => []
  | some articleId =>
    (t.articles.filter fun a => a.articleId = articleId).flatMap fun a =>
      (getProfile t a.authorId followerId).map fun author =>
        a.select (getArticleTagList loc t articleId)
          (isFavoritedArticle t articleId followerId)
          (t.favorites.filter fun f => f.articleId = articleId).length
          author

/-- `LIMIT limit OFFSET offset`; a NULL limit is no limit and a NULL offset is zero. -/
def limitOffset {α : Type} (limit offset : Option Int) (rows : List α) : Except DbError (List α) :=
  if offset.getD 0 < 0 ∨ limit.getD 0 < 0 then .error .invalidRowCount
  else
    let rest := rows.drop (offset.getD 0).toNat
    .ok (match limit with
      | none => rest
      | some n => rest.take n.toNat)

/-- `ORDER BY created_at DESC` of rows scanned in any order. -/
def byCreatedAtDesc {α : Type} (createdAt : α → Int) (rows : List α) : List α :=
  rows.insertionSort fun x y => createdAt y ≤ createdAt x

/-- `article_id IN (SELECT article_id FROM article_tags INNER JOIN tags .. WHERE name = _tag)`. -/
def carriesTag (t : Tables) (a : Article) (tag : Option String) : Bool :=
  t.articleTags.any fun l => l.articleId = a.articleId &&
    t.tags.any fun tg => tg.tagId = l.tagId && isTrue (eq tg.name tag)

/-- `article_id IN (SELECT article_id FROM favorites INNER JOIN users .. WHERE username = ..)`. -/
def favoritedByName (loc : DbLocale) (t : Tables) (a : Article) (username : Option String) : Bool :=
  t.favorites.any fun f => f.articleId = a.articleId &&
    t.users.any fun u => u.userId = f.userId &&
      isTrue (eq (some (loc.citextLower u.username)) (username.map loc.citextLower))

/-- The query counts favorites by article but asks `is_favorited_article` without a user. -/
def getArticlesWithAuthorProfile (loc : DbLocale) (m : Moment) (t : Tables) (tag : Option String)
    (authorUsername favoritedByUser : Option String) (userId limit offset : Option Int) :
    Except DbError (List ArticleWithAuthorProfile) :=
  let joined := t.articles.flatMap fun a =>
    (t.users.filter fun u => a.authorId = u.userId).map fun u => (a, u)
  let selected := joined.filter fun (a, u) =>
    isTrue (and (and
      (or (some tag.isNone) (some (carriesTag t a tag)))
      (or (some authorUsername.isNone)
        (eq (some (loc.citextLower u.username)) (authorUsername.map loc.citextLower))))
      (or (some favoritedByUser.isNone) (some (favoritedByName loc t a favoritedByUser))))
  let sorted := byCreatedAtDesc (fun (a, _) => a.createdAt) (m.scan selected)
  limitOffset (some (limit.getD 20)) (some (offset.getD 0)) <| sorted.flatMap fun (a, _) =>
    (getProfile t a.authorId userId).map fun author =>
      a.select (getArticleTagList loc t a.articleId)
        (isFavoritedArticle t a.articleId)
        (t.favorites.filter fun f => f.articleId = a.articleId).length
        author

/-- In the counting subquery `article_id = article_id` both names are the inner column. -/
def getFeed (loc : DbLocale) (m : Moment) (t : Tables) (userId : Int) (limit offset : Option Int) :
    Except DbError (List ArticleWithAuthorProfile) :=
  let followed := (t.followers.filter fun r => r.follower = userId).map (·.followed)
  let selected := t.articles.filter fun a => a.authorId ∈ followed
  let sorted := byCreatedAtDesc (·.createdAt) (m.scan selected)
  limitOffset limit offset <| sorted.flatMap fun a =>
    (getProfile t a.authorId (some userId)).map fun author =>
      a.select (getArticleTagList loc t a.articleId)
        (isFavoritedArticle t a.articleId)
        (t.favorites.filter fun f => f.articleId = f.articleId).length
        author

/-- The select list of the two comment queries. -/
def Comment.select (c : Comment) (author : Profile) : RealworldComment :=
  { commentId := c.commentId, createdAt := c.createdAt, updatedAt := c.updatedAt, body := c.body,
    author := author }

def getComment (t : Tables) (commentId : Int) (userId : Option Int := none) :
    List RealworldComment :=
  (t.comments.filter fun c => c.commentId = commentId).flatMap fun c =>
    (t.articles.filter fun a => a.articleId = c.articleId).flatMap fun _ =>
      (getProfile t c.authorId userId).map c.select

def getCommentsFromArticle (m : Moment) (t : Tables) (slug : String)
    (userId : Option Int := none) : List RealworldComment :=
  let joined := t.comments.flatMap fun c =>
    (t.articles.filter fun a => a.articleId = c.articleId).map fun a => (c, a)
  (m.scan (joined.filter fun (_, a) => a.slug = slug)).flatMap fun (c, _) =>
    (getProfile t c.authorId userId).map c.select

def getProfileByUsername (loc : DbLocale) (t : Tables) (username : String)
    (followerId : Option Int := none) : List Profile :=
  (t.users.filter fun u => loc.citextLower u.username = loc.citextLower username).map fun u =>
    { username := u.username, bio := u.bio, image := u.image,
      following := caseWhen (eq followerId none) false
        (isFollowing t followerId (some u.userId)) }

def getTags (m : Moment) (t : Tables) : List (Option String) :=
  m.scan <| t.articleTags.flatMap fun l =>
    (t.tags.filter fun tag => tag.tagId = l.tagId).map (·.name)

def getUserByEmail (t : Tables) (email : String) : List RealworldUser :=
  t.users.filter fun u => u.email = email

def getUserById (t : Tables) (userId : Int) : List RealworldUser :=
  t.users.filter fun u => u.userId = userId

def getUserByUsername (loc : DbLocale) (t : Tables) (username : String) : List RealworldUser :=
  t.users.filter fun u => loc.citextLower u.username = loc.citextLower username

end RealWorld.Schema
