import RealWorld.Handlers.Base

/-!
# `articles_slug_comments.cpp`, `articles_slug_favorite.cpp`, `articles_slug_unfavorite.cpp` and `tags.cpp`
-/

namespace RealWorld.Handlers
open Schema Transactional

namespace ArticlesSlugComments.Get

/-- Without a comment the handler returns an empty value before it builds the array. -/
def handleRequestJsonThrow (svc : Service) (request : HttpRequest) (auth : Option UserAuthData) :
    Program Response := do
  let slug := request.getPathArg "slug"
  let res ← execute (.getCommentsFromArticle slug (auth.map (·.id)))
  if res.isEmpty then ok .null
  else ok (.obj [("comments", .arr (res.map (serializeComment svc.json)))])

end ArticlesSlugComments.Get

namespace ArticlesSlugComments.Post

def parseRequest (lib : JsonLib) (request : HttpRequest) (data : Value) (auth : Option UserAuthData) :
    Except Exn Dto.NewCommentRequest := do
  let user ← getData auth
  let body ← checkSizeOf lib data "body" 4 16384
  return { body := body, slug := request.getPathArg "slug", userId := user.id }

def handleRequestJsonThrow (svc : Service) (request : HttpRequest) (auth : Option UserAuthData) :
    Program Response :=
  validated (do parseRequest svc.json request (← Value.member (some request.body) "comment") auth)
    fun comment => do
      let res ← execute (.addNewComment comment.slug comment.body comment.userId)
      let commentId ← lift (asSingleRow res)
      let res ← execute (.getComment commentId (some comment.userId))
      let row ← lift (asSingleRow res)
      ok (.obj [("comment", serializeComment svc.json row)])

end ArticlesSlugComments.Post

namespace ArticlesSlugComments.Del

def parseRequest (request : HttpRequest) : Except Exn Dto.DeleteCommentRequest := do
  let id ← lexicalCastInt32 (request.getPathArg "id")
  return { id := id, slug := request.getPathArg "slug" }

def handleRequestJsonThrow (request : HttpRequest) (auth : Option UserAuthData) : Program Response := do
  let comment ← lift (parseRequest request)
  let user ← lift (getData auth)
  let res ← execute (.isCommentExist comment.id comment.slug user.id)
  let exist ← lift (asSingleRow res)
  if !exist then notFound
  else
    let _ ← execute (.deleteComment comment.id comment.slug user.id)
    ok .null

end ArticlesSlugComments.Del

/-- The favorite and the unfavorite handler: the slug is resolved to the id of the article that
is shown, then the write resolves it once more. -/
def markArticle (svc : Service) (write : (slug : String) → (userId : Int) → Sql) (request : HttpRequest)
    (auth : Option UserAuthData) : Program Response := do
  let slug := request.getPathArg "slug"
  let res ← execute (.getArticleIdBySlug slug)
  if res.isEmpty then notFound
  else
    let user ← lift (getData auth)
    let _ ← execute (write slug user.id)
    let articleId ← lift (asSingleRow res)
    showArticle svc articleId user.id

namespace ArticlesSlugFavorite.Post

def handleRequestJsonThrow (svc : Service) : HttpRequest → Option UserAuthData → Program Response :=
  markArticle svc .favoriteArticle

end ArticlesSlugFavorite.Post

namespace ArticlesSlugUnfavorite.Del

def handleRequestJsonThrow (svc : Service) : HttpRequest → Option UserAuthData → Program Response :=
  markArticle svc .unfavoriteArticle

end ArticlesSlugUnfavorite.Del

namespace Tags.Get

def handleRequestJsonThrow : Program Response := do
  let res ← execute .getTags
  let tags ← lift (readStrings res)
  ok (.obj [("tags", .arr (tags.map .str))])

end Tags.Get

end RealWorld.Handlers
