import RealWorld.Schema.Statement

/-!
# What each statement does to the store

One lemma for each writing function says when it succeeds and which store it leaves. `Effect`
collects them: a statement that changes a table is one of eleven, and no other code has to unfold
a stored function to know what became of the tables.
-/

namespace RealWorld.Schema
open Relational

variable {loc : DbLocale} {m : Moment} {s s' : Store}

theorem insertUsers_ok {username email hash : String} {userId : Int} :
    insertUsers loc username email hash s = .ok userId s' ↔
      s.usersSeq < maxInt ∧ email.length ≤ 255 ∧ hash.length ≤ 255 ∧
      (let users := s.users ++
        [{ userId := s.usersSeq + 1, username := username, email := email, passwordHash := hash : User }]
       (users.map (·.userId)).Nodup ∧ (users.map fun u => loc.citextLower u.username).Nodup ∧
       (users.map (·.email)).Nodup ∧ userId = s.usersSeq + 1 ∧
       s' = { s with users := users, usersSeq := s.usersSeq + 1 }) := by
  simp only [insertUsers, nextval_bind_ok, varchar_bind_ok, get_bind_ok, unique_bind_ok, set_bind_ok,
    pure_ok]
  rfl

theorem insertArticles_ok {title slug description body : String} {authorId articleId : Int} :
    insertArticles m title slug description body authorId s = .ok articleId s' ↔
      s.articlesSeq < maxInt ∧ title.length ≤ 255 ∧ slug.length ≤ 255 ∧
      (let articles := s.articles ++
        [{ articleId := s.articlesSeq + 1, title := title, slug := slug, description := description,
           body := body, authorId := authorId, createdAt := m.now, updatedAt := m.now : Article }]
       (articles.map (·.articleId)).Nodup ∧ (articles.map (·.slug)).Nodup ∧
       (∃ u ∈ s.users, u.userId = authorId) ∧ articleId = s.articlesSeq + 1 ∧
       s' = { s with articles := articles, articlesSeq := s.articlesSeq + 1 }) := by
  simp only [insertArticles, nextval_bind_ok, varchar_bind_ok, get_bind_ok, unique_bind_ok,
    foreignKey_bind_ok, set_bind_ok, pure_ok]
  rfl

def Store.insertTag (s : Store) (name : String) : Store :=
  { s with
    tags := if ∃ tag ∈ s.tags, tag.tagId = s.tagsSeq + 1 ∨ tag.name = some name then s.tags
      else s.tags ++ [{ tagId := s.tagsSeq + 1, name := some name }]
    tagsSeq := s.tagsSeq + 1 }

theorem insertTags_cons_ok {name : String} {names : List String} {u : Unit} :
    insertTags (name :: names) s = .ok u s' ↔
      s.tagsSeq < maxInt ∧ name.length ≤ 255 ∧ insertTags names (s.insertTag name) = .ok u s' := by
  simp only [insertTags, nextval_bind_ok, varchar_bind_ok, get_bind_ok, set_bind_ok]
  refine and_congr_right fun _ => and_congr_right fun _ => ?_
  have row : (if ∃ tag ∈ s.tags, tag.tagId = s.tagsSeq + 1 ∨ tag.name = some name then
      { s with tagsSeq := s.tagsSeq + 1 }
    else { s with tags := s.tags ++ [{ tagId := s.tagsSeq + 1, name := some name }],
                  tagsSeq := s.tagsSeq + 1 }) = s.insertTag name := by
    unfold Store.insertTag
    split <;> rfl
  rw [← row]
  rfl

/-- Drawing an id for every name must not exhaust the sequence. -/
theorem insertTags_ok {names : List String} {u : Unit} (bounded : s.tagsSeq ≤ maxInt) :
    insertTags names s = .ok u s' ↔
      s.tagsSeq + names.length ≤ maxInt ∧ (∀ name ∈ names, name.length ≤ 255) ∧
        s' = names.foldl Store.insertTag s := by
  induction names generalizing s with
  | nil => simp [insertTags, pure_ok, bounded]
  | cons name names ih =>
    have drawn : (s.insertTag name).tagsSeq = s.tagsSeq + 1 := rfl
    rw [insertTags_cons_ok, List.foldl_cons, List.forall_mem_cons, List.length_cons]
    constructor
    · rintro ⟨below, fits, rest⟩
      obtain ⟨room, all, rfl⟩ := (ih (by rw [drawn]; omega)).mp rest
      rw [drawn] at room
      exact ⟨by omega, ⟨fits, all⟩, rfl⟩
    · rintro ⟨room, ⟨fits, all⟩, rfl⟩
      refine ⟨by omega, fits, (ih (by rw [drawn]; omega)).mpr ⟨?_, all, rfl⟩⟩
      rw [drawn]
      omega

theorem insertTags_frame {names : List String} {u : Unit} (done : insertTags names s = .ok u s') :
    s' = { s with tags := s'.tags, tagsSeq := s'.tagsSeq } := by
  induction names generalizing s with
  | nil =>
    obtain ⟨_, rfl⟩ := pure_ok.mp done
    rfl
  | cons name names ih =>
    obtain ⟨_, _, rest⟩ := insertTags_cons_ok.mp done
    rw [ih rest]
    rfl

theorem insertArticleTags_ok {articleId : Int} {tagList : List String} {u : Unit} :
    insertArticleTags articleId tagList s = .ok u s' ↔
      (let links := (s.tags.filter fun tag => ∃ name ∈ tagList, tag.name = some name).map fun tag =>
        { articleId := articleId, tagId := tag.tagId : ArticleTag }
       (s.articleTags ++ links).Nodup ∧ (∀ l ∈ links, ∃ a ∈ s.articles, a.articleId = l.articleId) ∧
       (∀ l ∈ links, ∃ tag ∈ s.tags, tag.tagId = l.tagId) ∧
       s' = { s with articleTags := s.articleTags ++ links }) := by
  simp only [insertArticleTags, get_bind_ok, unique_bind_ok, foreignKey_bind_ok, set_ok]

theorem insertArticleTags_store {articleId : Int} {tagList : List String} {u : Unit}
    (done : insertArticleTags articleId tagList s = .ok u s') :
    ∃ links : List ArticleTag, (∀ l ∈ links, l.articleId = articleId) ∧
      s' = { s with articleTags := s.articleTags ++ links } := by
  obtain ⟨_, _, _, rfl⟩ := insertArticleTags_ok.mp done
  refine ⟨_, fun l member => ?_, rfl⟩
  obtain ⟨tag, _, rfl⟩ := List.mem_map.mp member
  rfl

theorem addNewArticle_ok {title slug description body : String} {authorId articleId : Int}
    {tagList : Option (List String)} :
    addNewArticle m title slug description body authorId tagList s = .ok articleId s' ↔
      ∃ s₁ s₂, insertArticles m title slug description body authorId s = .ok articleId s₁ ∧
        insertTags (tagList.getD []) s₁ = .ok () s₂ ∧
        insertArticleTags articleId (tagList.getD []) s₂ = .ok () s' := by
  simp only [addNewArticle, bind_ok, pure_ok]
  constructor
  · rintro ⟨_, s₁, first, ⟨⟩, s₂, second, ⟨⟩, _, third, rfl, rfl⟩
    exact ⟨s₁, s₂, first, second, third⟩
  · rintro ⟨s₁, s₂, first, second, third⟩
    exact ⟨articleId, s₁, first, (), s₂, second, (), s', third, rfl, rfl⟩

theorem addNewArticle_store {title slug description body : String} {authorId articleId : Int}
    {tagList : Option (List String)}
    (done : addNewArticle m title slug description body authorId tagList s = .ok articleId s') :
    articleId = s.articlesSeq + 1 ∧ ∃ links : List ArticleTag, (∀ l ∈ links, l.articleId = articleId) ∧
      s' = { s with
        articles := s.articles ++
          [{ articleId := articleId, title := title, slug := slug, description := description,
             body := body, authorId := authorId, createdAt := m.now, updatedAt := m.now }]
        tags := s'.tags
        articleTags := s.articleTags ++ links
        articlesSeq := articleId
        tagsSeq := s'.tagsSeq } := by
  obtain ⟨s₁, s₂, first, second, third⟩ := addNewArticle_ok.mp done
  obtain ⟨_, _, _, _, _, _, rfl, rfl⟩ := insertArticles_ok.mp first
  have tagged := insertTags_frame second
  obtain ⟨links, linked, rfl⟩ := insertArticleTags_store third
  exact ⟨rfl, links, linked,
    congrArg (fun t : Store => { t with articleTags := t.articleTags ++ links }) tagged⟩

theorem addCommentToArticle_ok {slug body : String} {userId commentId : Int} :
    addCommentToArticle m slug body userId s = .ok commentId s' ↔
      s.commentsSeq < maxInt ∧ body.length ≤ 16384 ∧
      ∃ articleId, articleIdsBySlug s.toTables slug = [articleId] ∧
      (let comments := s.comments ++
        [{ commentId := s.commentsSeq + 1, authorId := userId, articleId := articleId, body := body,
           createdAt := m.now, updatedAt := m.now : Comment }]
       (comments.map (·.commentId)).Nodup ∧ (∃ a ∈ s.articles, a.articleId = articleId) ∧
       (∃ u ∈ s.users, u.userId = userId) ∧ commentId = s.commentsSeq + 1 ∧
       s' = { s with comments := comments, commentsSeq := s.commentsSeq + 1 }) := by
  simp only [addCommentToArticle, nextval_bind_ok, varchar_bind_ok, get_bind_ok, scalar_bind_ok,
    notNull_bind_ok, unique_bind_ok, foreignKey_bind_ok, set_bind_ok, pure_ok]
  refine and_congr_right fun _ => and_congr_right fun _ => ?_
  constructor
  · rintro ⟨_, found, articleId, rfl, rest⟩
    exact ⟨articleId, found, rest⟩
  · rintro ⟨articleId, found, rest⟩
    exact ⟨some articleId, found, articleId, rfl, rest⟩

/-- The ids of the articles `delete_article_by_slug` removes and `update_article_by_slug` updates. -/
def ownedBySlug (t : Tables) (slug : String) (authorId : Int) : List Int :=
  (t.articles.filter fun a => a.slug = slug ∧ a.authorId = authorId).map (·.articleId)

theorem mem_ownedBySlug {t : Tables} {slug : String} {authorId id : Int} :
    id ∈ ownedBySlug t slug authorId ↔
      ∃ a ∈ t.articles, (a.slug = slug ∧ a.authorId = authorId) ∧ a.articleId = id := by
  simp [ownedBySlug, and_assoc]

theorem deleteArticleBySlug_ok {slug : String} {authorId : Int} {u : Unit} :
    deleteArticleBySlug slug authorId s = .ok u s' ↔
      (let deleted := ownedBySlug s.toTables slug authorId
       (∀ f ∈ s.favorites, f.articleId ∉ deleted) ∧
       s' = { s with
              articles := s.articles.filter fun a => !decide (a.slug = slug ∧ a.authorId = authorId)
              articleTags := s.articleTags.filter fun l => l.articleId ∉ deleted
              comments := s.comments.filter fun c => c.articleId ∉ deleted }) := by
  simp only [deleteArticleBySlug, get_bind_ok, foreignKey_bind_ok, set_ok]
  rfl

/-- The favorites of an article keep it from being deleted. -/
theorem deleteArticleBySlug_error {slug : String} {authorId : Int}
    (referenced : ¬ ∀ f ∈ s.favorites, f.articleId ∉ ownedBySlug s.toTables slug authorId) :
    deleteArticleBySlug slug authorId s = .error (.foreignKeyViolation "fk_article") s := by
  have refused : foreignKey "fk_article" (∀ f ∈ s.favorites,
      f.articleId ∉ ownedBySlug s.toTables slug authorId) = throw (.foreignKeyViolation "fk_article") :=
    if_neg referenced
  show (foreignKey "fk_article" (∀ f ∈ s.favorites,
    f.articleId ∉ ownedBySlug s.toTables slug authorId) >>= _) s = _
  rw [refused]
  rfl

@[simp] theorem commentMatches_eq {commentId authorId : Int} {articleId : Option Int} {c : Comment} :
    commentMatches commentId authorId articleId c =
      decide (c.commentId = commentId ∧ c.authorId = authorId ∧ articleId = some c.articleId) := by
  simp [commentMatches, Bool.and_assoc, eq_comm]

theorem deleteComment_ok {commentId : Int} {slug : String} {authorId : Int} {u : Unit} :
    deleteComment commentId slug authorId s = .ok u s' ↔
      ∃ articleId : Option Int, articleIdsBySlug s.toTables slug = articleId.toList ∧
        s' = { s with comments := s.comments.filter fun c =>
                 !commentMatches commentId authorId articleId c } := by
  simp only [deleteComment, get_bind_ok, scalar_bind_ok, set_ok]

theorem isCommentExist_ok {commentId : Int} {slug : String} {authorId : Int} {found : Bool} :
    isCommentExist commentId slug authorId s = .ok found s' ↔
      ∃ articleId : Option Int, articleIdsBySlug s.toTables slug = articleId.toList ∧
        found = s.comments.any (commentMatches commentId authorId articleId) ∧ s' = s := by
  simp only [isCommentExist, get_bind_ok, scalar_bind_ok, pure_ok]

theorem favoriteArticle_ok {slug : String} {userId : Int} {u : Unit} :
    favoriteArticle slug userId s = .ok u s' ↔
      ∃ articleId, articleIdsBySlug s.toTables slug = [articleId] ∧
        (let favorites := s.favorites ++ [{ userId := userId, articleId := articleId : Favorite }]
         favorites.Nodup ∧ (∃ u ∈ s.users, u.userId = userId) ∧
         (∃ a ∈ s.articles, a.articleId = articleId) ∧ s' = { s with favorites := favorites }) := by
  simp only [favoriteArticle, get_bind_ok, scalar_bind_ok, notNull_bind_ok, unique_bind_ok,
    foreignKey_bind_ok, set_ok]
  constructor
  · rintro ⟨_, found, articleId, rfl, rest⟩
    exact ⟨articleId, found, rest⟩
  · rintro ⟨articleId, found, rest⟩
    exact ⟨some articleId, found, articleId, rfl, rest⟩

theorem unfavoriteArticle_ok {slug : String} {userId : Int} {u : Unit} :
    unfavoriteArticle slug userId s = .ok u s' ↔
      ∃ articleId : Option Int, articleIdsBySlug s.toTables slug = articleId.toList ∧
        s' = { s with favorites := s.favorites.filter fun f =>
                 !decide (f.userId = userId ∧ articleId = some f.articleId) } := by
  simp only [unfavoriteArticle, get_bind_ok, scalar_bind_ok, set_ok, isTrue_and, isTrue_eq,
    Option.some.injEq, Bool.decide_and, eq_comm (a := userId)]

theorem follow_ok {follower followed : Int} {u : Unit} :
    follow follower followed s = .ok u s' ↔
      (let followers := s.followers ++ [{ follower := follower, followed := followed : Follower }]
       followers.Nodup ∧ (∃ u ∈ s.users, u.userId = follower) ∧
       (∃ u ∈ s.users, u.userId = followed) ∧ s' = { s with followers := followers }) := by
  simp only [follow, get_bind_ok, unique_bind_ok, foreignKey_bind_ok, set_ok]

theorem unfollow_ok {follower followed : Int} {u : Unit} :
    unfollow follower followed s = .ok u s' ↔
      s' = { s with followers := s.followers.filter fun r =>
               ¬ (r.follower = follower ∧ r.followed = followed) } := by
  simp only [unfollow, get_bind_ok, set_ok]

theorem updateArticleBySlug_ok {oldSlug : String} {authorId : Int}
    {title newSlug description body : Option String} {rows : List Int} :
    updateArticleBySlug m oldSlug authorId title newSlug description body s = .ok rows s' ↔
      (let articles := s.articles.map fun a =>
        if a.slug = oldSlug ∧ a.authorId = authorId then a.update m title newSlug description body else a
       (∀ a ∈ s.articles, a.slug = oldSlug ∧ a.authorId = authorId →
         (title.getD a.title).length ≤ 255 ∧ (newSlug.getD a.slug).length ≤ 255 ∧
           (articles.map (·.slug)).Nodup) ∧
       rows = ownedBySlug s.toTables oldSlug authorId ∧ s' = { s with articles := articles }) := by
  simp only [updateArticleBySlug, get_bind_ok]
  rw [forM_bind_ok fun a t => by
    simp only [varchar_bind_ok, unique_ok, ← and_assoc]
    exact Iff.rfl]
  simp only [set_bind_ok, pure_ok, List.mem_filter, and_imp, decide_eq_true_eq, and_assoc]
  rfl

theorem updateUserById_ok {userId : Int} {username email passwordHash bio image : Option String}
    {rows : List RealworldUser} :
    updateUserById loc userId username email passwordHash bio image s = .ok rows s' ↔
      (let update := User.update username email passwordHash bio image
       let updated := (s.users.filter fun u => u.userId = userId).map update
       let users := s.users.map fun u => if u.userId = userId then update u else u
       (∀ u ∈ updated, u.email.length ≤ 255 ∧ u.passwordHash.length ≤ 255 ∧
         (u.image.getD "").length ≤ 255 ∧ (users.map fun u => loc.citextLower u.username).Nodup ∧
         (users.map (·.email)).Nodup) ∧
       rows = updated ∧ s' = { s with users := users }) := by
  simp only [updateUserById, get_bind_ok]
  rw [forM_bind_ok fun u t => by
    simp only [varchar_bind_ok, unique_bind_ok, unique_ok, ← and_assoc]
    exact Iff.rfl]
  simp only [set_bind_ok, pure_ok, and_assoc]

/-! ### Statements -/

/-- The effect of a statement that writes: the rows it answers and the store it leaves. -/
inductive Effect (loc : DbLocale) (m : Moment) (s : Store) : (q : Sql) → List q.Row → Store → Prop where
  | addNewArticle {title slug description body : String} {authorId articleId : Int}
      {tagList : Option (List String)} {s' : Store}
      (done : Schema.addNewArticle m title slug description body authorId tagList s = .ok articleId s') :
      Effect loc m s (.addNewArticle title slug description body authorId tagList) [articleId] s'
  | follow {follower followed : Int} {s' : Store}
      (done : Schema.follow follower followed s = .ok () s') :
      Effect loc m s (.follow follower followed) [()] s'
  | unfollow {follower followed : Int} {s' : Store}
      (done : Schema.unfollow follower followed s = .ok () s') :
      Effect loc m s (.unfollow follower followed) [()] s'
  | updateArticleBySlug {oldSlug : String} {authorId : Int}
      {title newSlug description body : Option String} {rows : List Int} {s' : Store}
      (done : Schema.updateArticleBySlug m oldSlug authorId title newSlug description body s = .ok rows s') :
      Effect loc m s (.updateArticleBySlug oldSlug authorId title newSlug description body) rows s'
  | deleteArticleBySlug {slug : String} {authorId : Int} {s' : Store}
      (done : Schema.deleteArticleBySlug slug authorId s = .ok () s') :
      Effect loc m s (.deleteArticleBySlug slug authorId) [()] s'
  | addNewUser {username email hash : String} {userId : Int} {s' : Store}
      (done : Schema.addNewUser loc username email hash s = .ok userId s') :
      Effect loc m s (.addNewUser username email hash) [userId] s'
  | updateUserById {userId : Int} {username email passwordHash bio image : Option String}
      {rows : List RealworldUser} {s' : Store}
      (done : Schema.updateUserById loc userId username email passwordHash bio image s = .ok rows s') :
      Effect loc m s (.updateUserById userId username email passwordHash bio image) rows s'
  | addNewComment {slug body : String} {userId commentId : Int} {s' : Store}
      (done : Schema.addCommentToArticle m slug body userId s = .ok commentId s') :
      Effect loc m s (.addNewComment slug body userId) [commentId] s'
  | deleteComment {commentId : Int} {slug : String} {authorId : Int} {s' : Store}
      (done : Schema.deleteComment commentId slug authorId s = .ok () s') :
      Effect loc m s (.deleteComment commentId slug authorId) [()] s'
  | favoriteArticle {slug : String} {userId : Int} {s' : Store}
      (done : Schema.favoriteArticle slug userId s = .ok () s') :
      Effect loc m s (.favoriteArticle slug userId) [()] s'
  | unfavoriteArticle {slug : String} {userId : Int} {s' : Store}
      (done : Schema.unfavoriteArticle slug userId s = .ok () s') :
      Effect loc m s (.unfavoriteArticle slug userId) [()] s'

theorem singleton_ok {α : Type} {t : Txn α} {rows : List α} :
    atomically (List.singleton <$> t) s = (.ok rows, s') ↔ ∃ a, rows = [a] ∧ t s = .ok a s' := by
  rw [atomically_ok, map_eq_pure_bind, bind_ok]
  simp only [pure_ok]
  constructor
  · rintro ⟨a, _, done, rfl, rfl⟩
    exact ⟨a, rfl, done⟩
  · rintro ⟨a, rfl, done⟩
    exact ⟨a, s', done, rfl, rfl⟩

theorem singleton_error {α : Type} {t : Txn α} {e : DbError} (failed : t s = .error e s') :
    atomically (List.singleton <$> t) s = (.error e, { s with toSequences := s'.toSequences }) := by
  have mapped : (List.singleton <$> t) s = .error e s' := by
    rw [map_eq_pure_bind]
    show EStateM.bind t _ s = _
    rw [EStateM.bind, failed]
  rw [atomically, mapped]

theorem Sql.exec_ok {q : Sql} {rows : List q.Row} :
    q.exec loc m s = (.ok rows, s') ↔ q.texts.all storable ∧ q.body loc m s = (.ok rows, s') := by
  unfold Sql.exec
  split
  · rename_i bound
    simp [bound]
  · rename_i unbound
    simp [unbound]

theorem Sql.exec_storable {q : Sql} (texts : q.texts.all storable) :
    q.exec loc m s = q.body loc m s := if_pos texts

theorem Sql.exec_unstorable {q : Sql} (texts : ¬ q.texts.all storable) :
    q.exec loc m s = (.error .invalidByteSequence, s) := if_neg texts

theorem Sql.exec_reading {q : Sql} {rows res : List q.Row} (query : q.body loc m s = reading rows s)
    (succeeded : q.exec loc m s = (.ok res, s')) : res = rows ∧ s' = s := by
  have result := (Sql.exec_ok.mp succeeded).2
  rw [query] at result
  cases result
  exact ⟨rfl, rfl⟩

theorem Sql.exec_effect {q : Sql} {rows : List q.Row} (writing : q.writes)
    (succeeded : q.exec loc m s = (.ok rows, s')) : Effect loc m s q rows s' := by
  have result := (Sql.exec_ok.mp succeeded).2
  cases q with
  | addNewArticle =>
    obtain ⟨_, rfl, done⟩ := singleton_ok.mp result
    exact .addNewArticle done
  | follow =>
    obtain ⟨_, rfl, done⟩ := singleton_ok.mp result
    exact .follow done
  | unfollow =>
    obtain ⟨_, rfl, done⟩ := (singleton_ok (t := Schema.unfollow _ _)).mp result
    exact .unfollow done
  | updateArticleBySlug => exact .updateArticleBySlug (atomically_ok.mp result)
  | deleteArticleBySlug =>
    obtain ⟨_, rfl, done⟩ := singleton_ok.mp result
    exact .deleteArticleBySlug done
  | addNewUser =>
    obtain ⟨_, rfl, done⟩ := singleton_ok.mp result
    exact .addNewUser done
  | updateUserById => exact .updateUserById (atomically_ok.mp result)
  | addNewComment =>
    obtain ⟨_, rfl, done⟩ := singleton_ok.mp result
    exact .addNewComment done
  | deleteComment =>
    obtain ⟨_, rfl, done⟩ := singleton_ok.mp result
    exact .deleteComment done
  | favoriteArticle =>
    obtain ⟨_, rfl, done⟩ := singleton_ok.mp result
    exact .favoriteArticle done
  | unfavoriteArticle =>
    obtain ⟨_, rfl, done⟩ := singleton_ok.mp result
    exact .unfavoriteArticle done
  | _ => cases writing

theorem Sql.exec_error {q : Sql} {e : DbError} (failed : q.exec loc m s = (.error e, s')) :
    s'.toTables = s.toTables := by
  obtain rfl : (q.exec loc m s).2 = s' := congrArg Prod.snd failed
  have raised : (q.exec loc m s).1 = .error e := congrArg Prod.fst failed
  unfold Sql.exec at raised ⊢
  split
  · rename_i bound
    rw [if_pos bound] at raised
    cases q <;> first | rfl | exact atomically_error raised
  · rfl

theorem isCommentExist_after (commentId : Int) (slug : String) (authorId : Int) :
    Txn.after (isCommentExist commentId slug authorId) s = s :=
  after_reading (t := get) rfl fun _ => after_reading scalar_after fun _ => rfl

theorem Sql.exec_reads {q : Sql} {r : q.Res} (reads : ¬ q.writes) (answer : q.exec loc m s = (r, s')) :
    s' = s := by
  obtain rfl : (q.exec loc m s).2 = s' := congrArg Prod.snd answer
  unfold Sql.exec
  split
  · cases q with
    | isCommentExist commentId slug authorId =>
      exact atomically_of_after (after_map.trans (isCommentExist_after commentId slug authorId))
    | _ => first | rfl | exact absurd trivial reads
  · rfl

/-- A statement leaves every table as it was, or it is a writing statement that has its effect. -/
theorem Sql.exec_cases {q : Sql} {r : q.Res} (answer : q.exec loc m s = (r, s')) :
    s'.toTables = s.toTables ∨ ∃ rows, r = .ok rows ∧ q.writes ∧ Effect loc m s q rows s' := by
  by_cases writing : q.writes
  · cases r with
    | ok rows => exact .inr ⟨rows, rfl, writing, Sql.exec_effect writing answer⟩
    | error e => exact .inl (Sql.exec_error answer)
  · exact .inl (congrArg Store.toTables (Sql.exec_reads writing answer))

/-! ### Statements that leave a table alone -/

def Sql.changesUsers : Sql → Prop
  | .addNewUser .. | .updateUserById .. => True
  | _ => False

/-- The statements that change an article or its tags. -/
def Sql.changesArticles : Sql → Prop
  | .addNewArticle .. | .updateArticleBySlug .. | .deleteArticleBySlug .. => True
  | _ => False

theorem Effect.users_kept {q : Sql} {rows : List q.Row} (effect : Effect loc m s q rows s')
    (other : ¬ q.changesUsers) : s'.users = s.users := by
  cases effect with
  | addNewArticle done =>
    obtain ⟨_, links, _, store⟩ := addNewArticle_store done
    rw [store]
  | follow done =>
    obtain ⟨_, _, _, rfl⟩ := follow_ok.mp done
    rfl
  | unfollow done =>
    obtain rfl := unfollow_ok.mp done
    rfl
  | updateArticleBySlug done =>
    obtain ⟨_, _, rfl⟩ := updateArticleBySlug_ok.mp done
    rfl
  | deleteArticleBySlug done =>
    obtain ⟨_, rfl⟩ := deleteArticleBySlug_ok.mp done
    rfl
  | addNewUser _ => exact absurd trivial other
  | updateUserById _ => exact absurd trivial other
  | addNewComment done =>
    obtain ⟨_, _, _, _, _, _, _, _, rfl⟩ := addCommentToArticle_ok.mp done
    rfl
  | deleteComment done =>
    obtain ⟨_, _, rfl⟩ := deleteComment_ok.mp done
    rfl
  | favoriteArticle done =>
    obtain ⟨_, _, _, _, _, rfl⟩ := favoriteArticle_ok.mp done
    rfl
  | unfavoriteArticle done =>
    obtain ⟨_, _, rfl⟩ := unfavoriteArticle_ok.mp done
    rfl

theorem Effect.articles_kept {q : Sql} {rows : List q.Row} (effect : Effect loc m s q rows s')
    (other : ¬ q.changesArticles) :
    s'.articles = s.articles ∧ s'.articleTags = s.articleTags ∧ s'.tags = s.tags := by
  cases effect with
  | addNewArticle _ => exact absurd trivial other
  | follow done =>
    obtain ⟨_, _, _, rfl⟩ := follow_ok.mp done
    exact ⟨rfl, rfl, rfl⟩
  | unfollow done =>
    obtain rfl := unfollow_ok.mp done
    exact ⟨rfl, rfl, rfl⟩
  | updateArticleBySlug _ => exact absurd trivial other
  | deleteArticleBySlug _ => exact absurd trivial other
  | addNewUser done =>
    obtain ⟨_, _, _, _, _, _, _, rfl⟩ := insertUsers_ok.mp done
    exact ⟨rfl, rfl, rfl⟩
  | updateUserById done =>
    obtain ⟨_, _, rfl⟩ := updateUserById_ok.mp done
    exact ⟨rfl, rfl, rfl⟩
  | addNewComment done =>
    obtain ⟨_, _, _, _, _, _, _, _, rfl⟩ := addCommentToArticle_ok.mp done
    exact ⟨rfl, rfl, rfl⟩
  | deleteComment done =>
    obtain ⟨_, _, rfl⟩ := deleteComment_ok.mp done
    exact ⟨rfl, rfl, rfl⟩
  | favoriteArticle done =>
    obtain ⟨_, _, _, _, _, rfl⟩ := favoriteArticle_ok.mp done
    exact ⟨rfl, rfl, rfl⟩
  | unfavoriteArticle done =>
    obtain ⟨_, _, rfl⟩ := unfavoriteArticle_ok.mp done
    exact ⟨rfl, rfl, rfl⟩

end RealWorld.Schema
