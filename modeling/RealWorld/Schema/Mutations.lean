import RealWorld.Schema.Queries

/-!
# The writing functions of `db_1.sql`

Each stored function that writes, statement by statement: column defaults are drawn, widths are
checked, the table is replaced and the declared constraints are checked in the order of their
declaration, which is the order PostgreSQL checks them in.
-/

namespace RealWorld.Schema
open Relational

def insertUsers (loc : DbLocale) (username email hash : String) : Txn Int := do
  let userId ← nextval .users
  varchar 255 email
  varchar 255 hash
  let s ← get
  let user : User := { userId := userId, username := username, email := email, passwordHash := hash }
  let users := s.users ++ [user]
  unique "pk_users" (users.map (·.userId))
  unique "uniq_username" (users.map fun u => loc.citextLower u.username)
  unique "uniq_email" (users.map (·.email))
  set { s with users := users }
  return userId

def addNewUser (loc : DbLocale) (username email hash : String) : Txn Int :=
  insertUsers loc username email hash

def insertArticles (m : Moment) (title slug description body : String) (authorId : Int) : Txn Int := do
  let articleId ← nextval .articles
  varchar 255 title
  varchar 255 slug
  let s ← get
  let article : Article :=
    { articleId := articleId, title := title, slug := slug, description := description, body := body,
      authorId := authorId, createdAt := m.now, updatedAt := m.now }
  let articles := s.articles ++ [article]
  unique "pk_articles" (articles.map (·.articleId))
  unique "uniq_slug" (articles.map (·.slug))
  foreignKey "fk_article_author" (∃ u ∈ s.users, u.userId = authorId)
  set { s with articles := articles }
  return articleId

/-- `INSERT INTO realworld.tags(name) SELECT unnest(_tag_list) ON CONFLICT DO NOTHING`, one row
at a time; a row that conflicts has drawn its id already. -/
def insertTags : List String → Txn Unit
  | [] => pure ()
  | name :: names => do
    let tagId ← nextval .tags
    varchar 255 name
    let s ← get
    set <| if ∃ tag ∈ s.tags, tag.tagId = tagId ∨ tag.name = some name then s
      else { s with tags := s.tags ++ [{ tagId := tagId, name := some name }] }
    insertTags names

/-- `INSERT INTO realworld.article_tags` of the tags whose name is in the list. -/
def insertArticleTags (articleId : Int) (tagList : List String) : Txn Unit := do
  let s ← get
  let links := (s.tags.filter fun tag => ∃ name ∈ tagList, tag.name = some name).map fun tag =>
    { articleId := articleId, tagId := tag.tagId : ArticleTag }
  let articleTags := s.articleTags ++ links
  unique "pk_article_tags" articleTags
  foreignKey "fk_article" (∀ l ∈ links, ∃ a ∈ s.articles, a.articleId = l.articleId)
  foreignKey "fk_tag" (∀ l ∈ links, ∃ tag ∈ s.tags, tag.tagId = l.tagId)
  set { s with articleTags := articleTags }

/-- A NULL tag list unnests to no rows and `name = ANY (NULL)` is never TRUE. -/
def addNewArticle (m : Moment) (title slug description body : String) (authorId : Int)
    (tagList : Option (List String)) : Txn Int := do
  let newArticleId ← insertArticles m title slug description body authorId
  insertTags (tagList.getD [])
  insertArticleTags newArticleId (tagList.getD [])
  return newArticleId

def addCommentToArticle (m : Moment) (slug body : String) (userId : Int) : Txn Int := do
  let commentId ← nextval .comments
  varchar 16384 body
  let s ← get
  let articleId ← notNull "article_id" (← scalar (articleIdsBySlug s.toTables slug))
  let comment : Comment :=
    { commentId := commentId, authorId := userId, articleId := articleId, body := body,
      createdAt := m.now, updatedAt := m.now }
  let comments := s.comments ++ [comment]
  unique "pk_comments" (comments.map (·.commentId))
  foreignKey "fk_article" (∃ a ∈ s.articles, a.articleId = articleId)
  foreignKey "fk_author" (∃ u ∈ s.users, u.userId = userId)
  set { s with comments := comments }
  return commentId

/-- `article_tags` and `comments` cascade; the foreign key of `favorites` has no action, so a
favorite of a deleted article makes the statement fail. -/
def deleteArticleBySlug (slug : String) (authorId : Int) : Txn Unit := do
  let s ← get
  let hit : Article → Bool := fun a => a.slug = slug ∧ a.authorId = authorId
  let deleted := (s.articles.filter hit).map (·.articleId)
  foreignKey "fk_article" (∀ f ∈ s.favorites, f.articleId ∉ deleted)
  set { s with
    articles := s.articles.filter fun a => !hit a
    articleTags := s.articleTags.filter fun l => l.articleId ∉ deleted
    comments := s.comments.filter fun c => c.articleId ∉ deleted }

/-- The condition `delete_comment` and `is_comment_exist` share. -/
def commentMatches (commentId authorId : Int) (articleId : Option Int) (c : Comment) : Bool :=
  isTrue (and (and (eq (some c.commentId) (some commentId)) (eq (some c.authorId) (some authorId)))
    (eq (some c.articleId) articleId))

def deleteComment (commentId : Int) (slug : String) (authorId : Int) : Txn Unit := do
  let s ← get
  let articleId ← scalar (articleIdsBySlug s.toTables slug)
  set { s with comments := s.comments.filter fun c => !commentMatches commentId authorId articleId c }

def isCommentExist (commentId : Int) (slug : String) (authorId : Int) : Txn Bool := do
  let s ← get
  let articleId ← scalar (articleIdsBySlug s.toTables slug)
  return s.comments.any (commentMatches commentId authorId articleId)

def favoriteArticle (slug : String) (userId : Int) : Txn Unit := do
  let s ← get
  let articleId ← notNull "article_id" (← scalar (articleIdsBySlug s.toTables slug))
  let favorite : Favorite := { userId := userId, articleId := articleId }
  let favorites := s.favorites ++ [favorite]
  unique "pk_favorites" favorites
  foreignKey "fk_user" (∃ u ∈ s.users, u.userId = userId)
  foreignKey "fk_article" (∃ a ∈ s.articles, a.articleId = articleId)
  set { s with favorites := favorites }

def unfavoriteArticle (slug : String) (userId : Int) : Txn Unit := do
  let s ← get
  let articleId ← scalar (articleIdsBySlug s.toTables slug)
  let hit : Favorite → Bool := fun f =>
    isTrue (and (eq (some f.userId) (some userId)) (eq (some f.articleId) articleId))
  set { s with favorites := s.favorites.filter fun f => !hit f }

def follow (follower followed : Int) : Txn Unit := do
  let s ← get
  let row : Follower := { follower := follower, followed := followed }
  let followers := s.followers ++ [row]
  unique "pk_followers" followers
  foreignKey "fk_follower" (∃ u ∈ s.users, u.userId = follower)
  foreignKey "fk_followed" (∃ u ∈ s.users, u.userId = followed)
  set { s with followers := followers }

def unfollow (follower followed : Int) : Txn Unit := do
  let s ← get
  set { s with followers := s.followers.filter fun r => ¬ (r.follower = follower ∧ r.followed = followed) }

/-- `SET title = COALESCE(_title, title), ..`. -/
def Article.update (m : Moment) (title newSlug description body : Option String) (a : Article) : Article :=
  { a with
    title := title.getD a.title
    slug := newSlug.getD a.slug
    description := description.getD a.description
    body := body.getD a.body
    updatedAt := m.now }

def updateArticleBySlug (m : Moment) (oldSlug : String) (authorId : Int)
    (title newSlug description body : Option String) : Txn (List Int) := do
  let s ← get
  let hit : Article → Bool := fun a => a.slug = oldSlug ∧ a.authorId = authorId
  let articles := s.articles.map fun a =>
    if hit a then a.update m title newSlug description body else a
  (s.articles.filter hit).forM fun a => do
    varchar 255 (title.getD a.title)
    varchar 255 (newSlug.getD a.slug)
    unique "uniq_slug" (articles.map (·.slug))
  set { s with articles := articles }
  return (s.articles.filter hit).map (·.articleId)

/-- `SET username = COALESCE(_username, username), ..`. -/
def User.update (username email passwordHash bio image : Option String) (u : User) : User :=
  { u with
    username := username.getD u.username
    email := email.getD u.email
    passwordHash := passwordHash.getD u.passwordHash
    bio := bio <|> u.bio
    image := image <|> u.image }

def updateUserById (loc : DbLocale) (userId : Int) (username email passwordHash bio image : Option String) :
    Txn (List RealworldUser) := do
  let s ← get
  let updated := (s.users.filter fun u => u.userId = userId).map
    (User.update username email passwordHash bio image)
  let users := s.users.map fun u =>
    if u.userId = userId then u.update username email passwordHash bio image else u
  updated.forM fun u => do
    varchar 255 u.email
    varchar 255 u.passwordHash
    varchar 255 (u.image.getD "")
    unique "uniq_username" (users.map fun u => loc.citextLower u.username)
    unique "uniq_email" (users.map (·.email))
  set { s with users := users }
  return updated

end RealWorld.Schema
