import RealWorld.Handlers.Base

/-!
# `articles.cpp`, `articles_feed.cpp` and `articles_slug.cpp`
-/

namespace RealWorld.Handlers
open Schema Transactional

namespace Articles.Get

def parseRequest (request : HttpRequest) : Except Exn Dto.ArticlesListRequest := do
  let limit ← int32Arg request "limit"
  let offset ← int32Arg request "offset"
  return { tag := textArg request "tag", favorited := textArg request "favorited",
           author := textArg request "author", limit := limit, offset := offset }

def handleRequestJsonThrow (svc : Service) (request : HttpRequest) (auth : Option UserAuthData) :
    Program Response := do
  let filters ← lift (parseRequest request)
  let res ← execute (.getArticlesWithAuthorProfile filters.tag filters.author filters.favorited
    (auth.map (·.id)) filters.limit filters.offset)
  articlesResponse svc res

end Articles.Get

namespace Articles.Post

def parseRequest (lib : JsonLib) (data : Value) : Except Exn Dto.NewArticleRequest := do
  let title ← checkSizeOf lib data "title" 3 256
  let description ← checkSizeOf lib data "description" 5 8192
  let body ← checkSizeOf lib data "body" 5 65535
  let tagList ← checkTagList (← (← data.member "tagList").asOptionalStrings)
  return { title := title, description := description, body := body, tagList := tagList }

def handleRequestJsonThrow (svc : Service) (request : HttpRequest) (auth : Option UserAuthData) :
    Program Response :=
  validated (do parseRequest svc.json (← Value.member (some request.body) "article")) fun newArticle => do
    let user ← lift (getData auth)
    let articleId ← alreadyTaken [("uniq_slug", "slug")] do
      let slug ← lift (slugify svc.icu newArticle.title)
      let res ← execute (.addNewArticle newArticle.title slug newArticle.description newArticle.body
        user.id newArticle.tagList)
      let articleId ← lift (asSingleRow res)
      return .inr articleId
    afterTry articleId fun articleId => showArticle svc articleId user.id

end Articles.Post

namespace ArticlesFeed.Get

def parseRequest (request : HttpRequest) : Except Exn Dto.FeedRequest := do
  let limit ← int32Arg request "limit"
  let offset ← int32Arg request "offset"
  return { limit := limit, offset := offset }

def handleRequestJsonThrow (svc : Service) (request : HttpRequest) (auth : Option UserAuthData) :
    Program Response := do
  let filters ← lift (parseRequest request)
  let user ← lift (getData auth)
  let res ← execute (.getFeed user.id filters.limit filters.offset)
  articlesResponse svc res

end ArticlesFeed.Get

namespace ArticlesSlug.Get

def handleRequestJsonThrow (svc : Service) (request : HttpRequest) (auth : Option UserAuthData) :
    Program Response := do
  let slug := request.getPathArg "slug"
  let res ← execute (.getArticleWithAuthorProfileBySlug slug (auth.map (·.id)))
  if res.isEmpty then notFound else articleResponse svc res

end ArticlesSlug.Get

namespace ArticlesSlug.Put

def parseRequest (data : Value) (request : HttpRequest) : Except Exn Dto.UpdateArticleRequest := do
  let title ← checkOptional (← (← data.member "title").asOptionalString) "title" 3 255
  let description ← checkOptional (← (← data.member "description").asOptionalString) "description" 5 8192
  let body ← checkOptional (← (← data.member "body").asOptionalString) "body" 5 65535
  let tagList ← checkTagList (← (← data.member "tagList").asOptionalStrings)
  if title.isNone && description.isNone && body.isNone && tagList.isNone then
    throw (.validation "article" "cannot be empty")
  return { slug := request.getPathArg "slug", title := title, description := description,
           body := body, tagList := tagList }

def handleRequestJsonThrow (svc : Service) (request : HttpRequest) (auth : Option UserAuthData) :
    Program Response :=
  validated (do parseRequest (← Value.member (some request.body) "article") request) fun update => do
    let user ← lift (getData auth)
    let articleId ← alreadyTaken [("uniq_slug", "slug")] do
      let newSlug ← match update.title with
        | some title => lift (some <$> slugify svc.icu title)
        | none => pure none
      let res ← execute (.updateArticleBySlug update.slug user.id update.title newSlug
        update.description update.body)
      if res.isEmpty then return .inl ⟨404, .null⟩
      let articleId ← lift (asSingleRow res)
      return .inr articleId
    afterTry articleId fun articleId => showArticle svc articleId user.id

end ArticlesSlug.Put

namespace ArticlesSlug.Del

def handleRequestJsonThrow (request : HttpRequest) (auth : Option UserAuthData) : Program Response := do
  let slug := request.getPathArg "slug"
  let user ← lift (getData auth)
  let res ← execute (.getArticleIdBySlug slug)
  if res.isEmpty then notFound
  else
    let _ ← execute (.deleteArticleBySlug slug user.id)
    ok .null

end ArticlesSlug.Del

end RealWorld.Handlers
