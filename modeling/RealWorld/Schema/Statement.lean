import RealWorld.Schema.Mutations

/-!
# The statements of `sql.hpp`

`Sql` has one constructor for each query text the handlers execute. `Sql.exec` runs the stored
function the text selects; one statement is one atomic transaction.
-/

namespace RealWorld.Schema

inductive Sql where
  | addNewArticle (title slug description body : String) (authorId : Int)
      (tagList : Option (List String))
  | follow (follower followed : Int)
  | unfollow (follower followed : Int)
  | getProfileByUsername (username : String) (followerId : Option Int)
  | updateArticleBySlug (oldSlug : String) (authorId : Int)
      (title newSlug description body : Option String)
  | deleteArticleBySlug (slug : String) (authorId : Int)
  | getArticleWithAuthorProfileBySlug (slug : String) (followerId : Option Int)
  | getArticleWithAuthorProfile (id : Int) (followerId : Option Int)
  | getArticlesWithAuthorProfile (tag authorUsername favoritedByUser : Option String)
      (userId limit offset : Option Int)
  | getFeed (userId : Int) (limit offset : Option Int)
  | addNewUser (username email hash : String)
  | getUserByEmail (email : String)
  | getUserByUsername (username : String)
  | getUserById (userId : Int)
  | updateUserById (userId : Int) (username email passwordHash bio image : Option String)
  | getCommentsFromArticle (slug : String) (userId : Option Int)
  | addNewComment (slug body : String) (userId : Int)
  | deleteComment (commentId : Int) (slug : String) (authorId : Int)
  | getComment (commentId : Int) (userId : Option Int)
  | favoriteArticle (slug : String) (userId : Int)
  | unfavoriteArticle (slug : String) (userId : Int)
  | getTags
  | getArticleIdBySlug (slug : String)
  | isCommentExist (commentId : Int) (slug : String) (authorId : Int)

/-- The row type of a statement's result set. A VOID function yields one row without a value. -/
@[reducible] def Sql.Row : Sql → Type
  | .addNewArticle .. | .updateArticleBySlug .. | .addNewUser .. | .addNewComment ..
  | .getArticleIdBySlug .. => Int
  | .follow .. | .unfollow .. | .deleteArticleBySlug .. | .deleteComment .. | .favoriteArticle ..
  | .unfavoriteArticle .. => Unit
  | .getProfileByUsername .. => Profile
  | .getArticleWithAuthorProfileBySlug .. | .getArticleWithAuthorProfile ..
  | .getArticlesWithAuthorProfile .. | .getFeed .. => ArticleWithAuthorProfile
  | .getUserByEmail .. | .getUserByUsername .. | .getUserById .. | .updateUserById .. => RealworldUser
  | .getCommentsFromArticle .. | .getComment .. => RealworldComment
  | .getTags => Option String
  | .isCommentExist .. => Bool

abbrev Sql.Res (q : Sql) : Type := Except DbError (List q.Row)

/-- The text parameters a statement binds. -/
def Sql.texts : Sql → List String
  | .addNewArticle title slug description body _ tagList =>
      [title, slug, description, body] ++ tagList.getD []
  | .follow .. | .unfollow .. | .getArticleWithAuthorProfile .. | .getFeed .. | .getUserById ..
  | .getComment .. | .getTags => []
  | .getProfileByUsername text _ | .deleteArticleBySlug text _
  | .getArticleWithAuthorProfileBySlug text _ | .getUserByEmail text | .getUserByUsername text
  | .getCommentsFromArticle text _ | .deleteComment _ text _ | .favoriteArticle text _
  | .unfavoriteArticle text _ | .getArticleIdBySlug text | .isCommentExist _ text _ => [text]
  | .updateArticleBySlug oldSlug _ title newSlug description body =>
      oldSlug :: [title, newSlug, description, body].filterMap id
  | .getArticlesWithAuthorProfile tag authorUsername favoritedByUser _ _ _ =>
      [tag, authorUsername, favoritedByUser].filterMap id
  | .addNewUser username email hash => [username, email, hash]
  | .updateUserById _ username email passwordHash bio image =>
      [username, email, passwordHash, bio, image].filterMap id
  | .addNewComment slug body _ => [slug, body]

/-- PostgreSQL text cannot hold U+0000. -/
def storable (text : String) : Bool := !text.toList.contains (Char.ofNat 0)

def reading {α : Type} (rows : List α) (s : Store) : Except DbError (List α) × Store := (.ok rows, s)

/-- The statement once its parameters are bound. -/
def Sql.body (loc : DbLocale) (m : Moment) (s : Store) : (q : Sql) → q.Res × Store
  | .addNewArticle title slug description body authorId tagList =>
      atomically (List.singleton <$> Schema.addNewArticle m title slug description body authorId tagList) s
  | .follow follower followed => atomically (List.singleton <$> Schema.follow follower followed) s
  | .unfollow follower followed => atomically (List.singleton <$> Schema.unfollow follower followed) s
  | .getProfileByUsername username followerId =>
      reading (Schema.getProfileByUsername loc s.toTables username followerId) s
  | .updateArticleBySlug oldSlug authorId title newSlug description body =>
      atomically (Schema.updateArticleBySlug m oldSlug authorId title newSlug description body) s
  | .deleteArticleBySlug slug authorId =>
      atomically (List.singleton <$> Schema.deleteArticleBySlug slug authorId) s
  | .getArticleWithAuthorProfileBySlug slug followerId =>
      reading (Schema.getArticleWithAuthorProfileBySlug loc s.toTables slug followerId) s
  | .getArticleWithAuthorProfile id followerId =>
      reading (Schema.getArticleWithAuthorProfile loc s.toTables id followerId) s
  | .getArticlesWithAuthorProfile tag authorUsername favoritedByUser userId limit offset =>
      (Schema.getArticlesWithAuthorProfile loc m s.toTables tag authorUsername favoritedByUser userId
        limit offset, s)
  | .getFeed userId limit offset => (Schema.getFeed loc m s.toTables userId limit offset, s)
  | .addNewUser username email hash =>
      atomically (List.singleton <$> Schema.addNewUser loc username email hash) s
  | .getUserByEmail email => reading (Schema.getUserByEmail s.toTables email) s
  | .getUserByUsername username => reading (Schema.getUserByUsername loc s.toTables username) s
  | .getUserById userId => reading (Schema.getUserById s.toTables userId) s
  | .updateUserById userId username email passwordHash bio image =>
      atomically (Schema.updateUserById loc userId username email passwordHash bio image) s
  | .getCommentsFromArticle slug userId =>
      reading (Schema.getCommentsFromArticle m s.toTables slug userId) s
  | .addNewComment slug body userId =>
      atomically (List.singleton <$> Schema.addCommentToArticle m slug body userId) s
  | .deleteComment commentId slug authorId =>
      atomically (List.singleton <$> Schema.deleteComment commentId slug authorId) s
  | .getComment commentId userId => reading (Schema.getComment s.toTables commentId userId) s
  | .favoriteArticle slug userId => atomically (List.singleton <$> Schema.favoriteArticle slug userId) s
  | .unfavoriteArticle slug userId =>
      atomically (List.singleton <$> Schema.unfavoriteArticle slug userId) s
  | .getTags => reading (Schema.getTags m s.toTables) s
  | .getArticleIdBySlug slug => reading (Schema.getArticleIdBySlug s.toTables slug) s
  | .isCommentExist commentId slug authorId =>
      atomically (List.singleton <$> Schema.isCommentExist commentId slug authorId) s

/-- One `Execute`, as a whole: the functions of the schema read one store and one `NOW()`, and commit before any
other statement. What becomes of creations whose rows are written in turns is told in `Schema.Concurrent`. -/
def Sql.exec (loc : DbLocale) (q : Sql) (m : Moment) (s : Store) : q.Res × Store :=
  if q.texts.all storable then q.body loc m s else (.error .invalidByteSequence, s)

def Sql.writes : Sql → Prop
  | .addNewArticle .. | .follow .. | .unfollow .. | .updateArticleBySlug ..
  | .deleteArticleBySlug .. | .addNewUser .. | .updateUserById .. | .addNewComment ..
  | .deleteComment .. | .favoriteArticle .. | .unfavoriteArticle .. => True
  | _ => False

end RealWorld.Schema
