import RealWorld.Schema.Sequences

/-!
# The declared constraints hold of every store

`Constraints` states the keys of `db_1.sql` by their names. `Valid` adds what no constraint declares
but every statement keeps: ids come from their sequence, tags are named, and the texts that rows are
looked up by can be sent as parameters.
-/

namespace RealWorld.Schema
open Relational

structure Constraints (loc : DbLocale) (t : Tables) : Prop where
  pk_users : (t.users.map (·.userId)).Nodup
  uniq_username : (t.users.map fun u => loc.citextLower u.username).Nodup
  uniq_email : (t.users.map (·.email)).Nodup
  pk_articles : (t.articles.map (·.articleId)).Nodup
  uniq_slug : (t.articles.map (·.slug)).Nodup
  fk_article_author : ∀ a ∈ t.articles, ∃ u ∈ t.users, u.userId = a.authorId
  pk_tags : (t.tags.map (·.tagId)).Nodup
  /-- A NULL name is distinct from every other. -/
  uniq_name : (t.tags.filterMap (·.name)).Nodup
  pk_article_tags : t.articleTags.Nodup
  article_tags_fk_article : ∀ l ∈ t.articleTags, ∃ a ∈ t.articles, a.articleId = l.articleId
  article_tags_fk_tag : ∀ l ∈ t.articleTags, ∃ tag ∈ t.tags, tag.tagId = l.tagId
  pk_favorites : t.favorites.Nodup
  favorites_fk_user : ∀ f ∈ t.favorites, ∃ u ∈ t.users, u.userId = f.userId
  favorites_fk_article : ∀ f ∈ t.favorites, ∃ a ∈ t.articles, a.articleId = f.articleId
  pk_followers : t.followers.Nodup
  fk_follower : ∀ r ∈ t.followers, ∃ u ∈ t.users, u.userId = r.follower
  fk_followed : ∀ r ∈ t.followers, ∃ u ∈ t.users, u.userId = r.followed
  pk_comments : (t.comments.map (·.commentId)).Nodup
  comments_fk_article : ∀ c ∈ t.comments, ∃ a ∈ t.articles, a.articleId = c.articleId
  comments_fk_author : ∀ c ∈ t.comments, ∃ u ∈ t.users, u.userId = c.authorId

structure Valid (loc : DbLocale) (s : Store) : Prop extends Constraints loc s.toTables where
  serial_users : ∀ u ∈ s.users, 0 < u.userId ∧ u.userId ≤ s.usersSeq
  serial_articles : ∀ a ∈ s.articles, 0 < a.articleId ∧ a.articleId ≤ s.articlesSeq
  serial_tags : ∀ tag ∈ s.tags, 0 < tag.tagId ∧ tag.tagId ≤ s.tagsSeq
  serial_comments : ∀ c ∈ s.comments, 0 < c.commentId ∧ c.commentId ≤ s.commentsSeq
  started : ∀ serial, 0 ≤ s.last serial
  ended : ∀ serial, s.last serial ≤ maxInt
  named : ∀ tag ∈ s.tags, ∃ name, tag.name = some name
  text_users : ∀ u ∈ s.users, storable u.username ∧ storable u.email
  text_articles : ∀ a ∈ s.articles, storable a.slug

theorem valid_empty (loc : DbLocale) : Valid loc Store.empty := by
  constructor
  · constructor <;> simp [Store.empty]
  all_goals first
    | simp [Store.empty]; done
    | intro serial; cases serial <;> decide

section
variable {loc : DbLocale} {m : Moment} {s s' : Store}

/-- Where every tag is named, the names differ as the column has them. -/
theorem Valid.tag_names (h : Valid loc s) : (s.tags.map (·.name)).Nodup := by
  have named : s.tags.map (·.name) = (s.tags.filterMap (·.name)).map some := by
    rw [List.map_filterMap, ← List.filterMap_eq_map]
    refine List.filterMap_congr fun tag member => ?_
    obtain ⟨name, same⟩ := h.named tag member
    rw [Function.comp_apply, same]
    rfl
  rw [named]
  exact h.uniq_name.map (Option.some_injective _)

theorem uniq_name_of {tags : List Tag} (names : (tags.map (·.name)).Nodup) : (tags.filterMap (·.name)).Nodup := by
  have held := names.filterMap (f := id) fun _ _ _ left right => left.trans right.symm
  rwa [List.filterMap_map] at held

theorem Valid.draw (h : Valid loc s) (same : s'.toTables = s.toTables)
    (drawn : s.toSequences.Drawn s'.toSequences) : Valid loc s' := by
  have users := drawn.grown .users
  have articles := drawn.grown .articles
  have tags := drawn.grown .tags
  have comments := drawn.grown .comments
  obtain ⟨t', q'⟩ := s'
  obtain rfl : t' = s.toTables := same
  exact { h with
    serial_users := fun u member => ⟨(h.serial_users u member).1, (h.serial_users u member).2.trans users⟩
    serial_articles := fun a member =>
      ⟨(h.serial_articles a member).1, (h.serial_articles a member).2.trans articles⟩
    serial_tags := fun tag member =>
      ⟨(h.serial_tags tag member).1, (h.serial_tags tag member).2.trans tags⟩
    serial_comments := fun c member =>
      ⟨(h.serial_comments c member).1, (h.serial_comments c member).2.trans comments⟩
    started := fun serial => (h.started serial).trans (drawn.grown serial)
    ended := fun serial => drawn.bounded serial (h.ended serial) }

theorem Valid.withUsers (h : Valid loc s) {users : List User}
    (pk_users : (users.map (·.userId)).Nodup)
    (uniq_username : (users.map fun u => loc.citextLower u.username).Nodup)
    (uniq_email : (users.map (·.email)).Nodup)
    (kept : ∀ u ∈ s.users, ∃ u' ∈ users, u'.userId = u.userId)
    (serial_users : ∀ u ∈ users, 0 < u.userId ∧ u.userId ≤ s.usersSeq)
    (text_users : ∀ u ∈ users, storable u.username ∧ storable u.email) :
    Valid loc { s with users := users } := by
  have moved : ∀ {id : Int}, (∃ u ∈ s.users, u.userId = id) → ∃ u ∈ users, u.userId = id := by
    rintro _ ⟨u, member, rfl⟩
    exact kept u member
  exact { h with
    pk_users := pk_users
    uniq_username := uniq_username
    uniq_email := uniq_email
    fk_article_author := fun a member => moved (h.fk_article_author a member)
    favorites_fk_user := fun f member => moved (h.favorites_fk_user f member)
    fk_follower := fun r member => moved (h.fk_follower r member)
    fk_followed := fun r member => moved (h.fk_followed r member)
    comments_fk_author := fun c member => moved (h.comments_fk_author c member)
    serial_users := serial_users
    text_users := text_users }

theorem Valid.withArticles (h : Valid loc s) {articles : List Article}
    (pk_articles : (articles.map (·.articleId)).Nodup)
    (uniq_slug : (articles.map (·.slug)).Nodup)
    (fk_article_author : ∀ a ∈ articles, ∃ u ∈ s.users, u.userId = a.authorId)
    (kept : ∀ a ∈ s.articles, ∃ a' ∈ articles, a'.articleId = a.articleId)
    (serial_articles : ∀ a ∈ articles, 0 < a.articleId ∧ a.articleId ≤ s.articlesSeq)
    (text_articles : ∀ a ∈ articles, storable a.slug) :
    Valid loc { s with articles := articles } := by
  have moved : ∀ {id : Int}, (∃ a ∈ s.articles, a.articleId = id) →
      ∃ a ∈ articles, a.articleId = id := by
    rintro _ ⟨a, member, rfl⟩
    exact kept a member
  exact { h with
    pk_articles := pk_articles
    uniq_slug := uniq_slug
    fk_article_author := fk_article_author
    article_tags_fk_article := fun l member => moved (h.article_tags_fk_article l member)
    favorites_fk_article := fun f member => moved (h.favorites_fk_article f member)
    comments_fk_article := fun c member => moved (h.comments_fk_article c member)
    serial_articles := serial_articles
    text_articles := text_articles }

theorem Valid.insertUsers (h : Valid loc s) {username email hash : String} {userId : Int}
    (text : storable username ∧ storable email)
    (done : insertUsers loc username email hash s = .ok userId s') : Valid loc s' := by
  obtain ⟨room, _, _, pk, name, mail, _, rfl⟩ := insertUsers_ok.mp done
  have drawn : Valid loc { s with usersSeq := s.usersSeq + 1 } :=
    h.draw rfl (advance_drawn .users room)
  refine drawn.withUsers pk name mail (fun u member => ⟨u, by simp [member], rfl⟩) ?_ ?_
  · rw [List.forall_mem_append, List.forall_mem_singleton]
    have start := h.started .users
    refine ⟨drawn.serial_users, ?_, le_rfl⟩
    exact Int.lt_add_one_of_le start
  · rw [List.forall_mem_append, List.forall_mem_singleton]
    exact ⟨h.text_users, text⟩

theorem Valid.insertArticles (h : Valid loc s) {title slug description body : String}
    {authorId articleId : Int} (text : storable slug)
    (done : insertArticles m title slug description body authorId s = .ok articleId s') :
    Valid loc s' := by
  obtain ⟨room, _, _, pk, uniq, author, _, rfl⟩ := insertArticles_ok.mp done
  have drawn : Valid loc { s with articlesSeq := s.articlesSeq + 1 } :=
    h.draw rfl (advance_drawn .articles room)
  refine drawn.withArticles pk uniq ?_ (fun a member => ⟨a, by simp [member], rfl⟩) ?_ ?_
  · rw [List.forall_mem_append, List.forall_mem_singleton]
    exact ⟨h.fk_article_author, author⟩
  · rw [List.forall_mem_append, List.forall_mem_singleton]
    have start := h.started .articles
    refine ⟨drawn.serial_articles, ?_, le_rfl⟩
    exact Int.lt_add_one_of_le start
  · rw [List.forall_mem_append, List.forall_mem_singleton]
    exact ⟨h.text_articles, text⟩

theorem Valid.insertTag (h : Valid loc s) (room : s.tagsSeq < maxInt) (name : String) :
    Valid loc (s.insertTag name) := by
  have drawn : Valid loc { s with tagsSeq := s.tagsSeq + 1 } :=
    h.draw rfl (advance_drawn .tags room)
  unfold Store.insertTag
  split
  · exact drawn
  · rename_i fresh
    have start := h.started .tags
    exact { drawn with
      pk_tags := nodup_map_concat h.pk_tags fun tag member same =>
        fresh ⟨tag, member, .inl same⟩
      uniq_name := uniq_name_of <| nodup_map_concat h.tag_names fun tag member same =>
        fresh ⟨tag, member, .inr same⟩
      article_tags_fk_tag := fun l member => by
        obtain ⟨tag, mem, same⟩ := h.article_tags_fk_tag l member
        exact ⟨tag, List.mem_append_left _ mem, same⟩
      serial_tags := by
        rw [List.forall_mem_append, List.forall_mem_singleton]
        exact ⟨drawn.serial_tags, Int.lt_add_one_of_le start, le_rfl⟩
      named := by
        rw [List.forall_mem_append, List.forall_mem_singleton]
        exact ⟨h.named, name, rfl⟩ }

theorem Valid.insertTags (h : Valid loc s) {names : List String} {u : Unit}
    (done : insertTags names s = .ok u s') : Valid loc s' := by
  induction names generalizing s with
  | nil =>
    obtain ⟨_, rfl⟩ := pure_ok.mp done
    exact h
  | cons name names ih =>
    obtain ⟨room, _, rest⟩ := insertTags_cons_ok.mp done
    exact ih (h.insertTag room name) rest

theorem Valid.insertArticleTags (h : Valid loc s) {articleId : Int} {tagList : List String} {u : Unit}
    (done : insertArticleTags articleId tagList s = .ok u s') : Valid loc s' := by
  obtain ⟨pk, article, tag, rfl⟩ := insertArticleTags_ok.mp done
  exact { h with
    pk_article_tags := pk
    article_tags_fk_article := List.forall_mem_append.mpr ⟨h.article_tags_fk_article, article⟩
    article_tags_fk_tag := List.forall_mem_append.mpr ⟨h.article_tags_fk_tag, tag⟩ }

theorem Valid.addCommentToArticle (h : Valid loc s) {slug body : String} {userId commentId : Int}
    (done : addCommentToArticle m slug body userId s = .ok commentId s') : Valid loc s' := by
  obtain ⟨room, _, articleId, _, pk, article, author, _, rfl⟩ := addCommentToArticle_ok.mp done
  have drawn : Valid loc { s with commentsSeq := s.commentsSeq + 1 } :=
    h.draw rfl (advance_drawn .comments room)
  have start := h.started .comments
  exact { drawn with
    pk_comments := pk
    comments_fk_article := by
      rw [List.forall_mem_append, List.forall_mem_singleton]
      exact ⟨h.comments_fk_article, article⟩
    comments_fk_author := by
      rw [List.forall_mem_append, List.forall_mem_singleton]
      exact ⟨h.comments_fk_author, author⟩
    serial_comments := by
      rw [List.forall_mem_append, List.forall_mem_singleton]
      exact ⟨drawn.serial_comments, Int.lt_add_one_of_le start, le_rfl⟩ }

/-- Deleting articles: the cascades remove what referenced them, and no favorite did. -/
theorem Valid.deleteArticleBySlug (h : Valid loc s) {slug : String} {authorId : Int} {u : Unit}
    (done : deleteArticleBySlug slug authorId s = .ok u s') : Valid loc s' := by
  obtain ⟨unreferenced, rfl⟩ := deleteArticleBySlug_ok.mp done
  have survives : ∀ {id : Int}, id ∉ ownedBySlug s.toTables slug authorId →
      (∃ a ∈ s.articles, a.articleId = id) →
      ∃ a ∈ s.articles.filter fun a => !decide (a.slug = slug ∧ a.authorId = authorId),
        a.articleId = id := by
    rintro _ outside ⟨a, member, rfl⟩
    refine ⟨a, List.mem_filter.mpr ⟨member, ?_⟩, rfl⟩
    rw [Bool.not_eq_true', decide_eq_false_iff_not]
    exact fun hit => outside (mem_ownedBySlug.mpr ⟨a, member, hit, rfl⟩)
  exact { h with
    pk_articles := h.pk_articles.sublist (List.filter_sublist.map _)
    uniq_slug := h.uniq_slug.sublist (List.filter_sublist.map _)
    fk_article_author := fun a member => h.fk_article_author a (List.mem_filter.mp member).1
    pk_article_tags := h.pk_article_tags.filter _
    article_tags_fk_article := fun l member => by
      obtain ⟨member, outside⟩ := List.mem_filter.mp member
      exact survives (of_decide_eq_true outside) (h.article_tags_fk_article l member)
    article_tags_fk_tag := fun l member => h.article_tags_fk_tag l (List.mem_filter.mp member).1
    favorites_fk_article := fun f member =>
      survives (unreferenced f member) (h.favorites_fk_article f member)
    pk_comments := h.pk_comments.sublist (List.filter_sublist.map _)
    comments_fk_article := fun c member => by
      obtain ⟨member, outside⟩ := List.mem_filter.mp member
      exact survives (of_decide_eq_true outside) (h.comments_fk_article c member)
    comments_fk_author := fun c member => h.comments_fk_author c (List.mem_filter.mp member).1
    serial_articles := fun a member => h.serial_articles a (List.mem_filter.mp member).1
    serial_comments := fun c member => h.serial_comments c (List.mem_filter.mp member).1
    text_articles := fun a member => h.text_articles a (List.mem_filter.mp member).1 }

theorem Valid.filterComments (h : Valid loc s) (keep : Comment → Bool) :
    Valid loc { s with comments := s.comments.filter keep } :=
  { h with
    pk_comments := h.pk_comments.sublist (List.filter_sublist.map _)
    comments_fk_article := fun c member => h.comments_fk_article c (List.mem_filter.mp member).1
    comments_fk_author := fun c member => h.comments_fk_author c (List.mem_filter.mp member).1
    serial_comments := fun c member => h.serial_comments c (List.mem_filter.mp member).1 }

theorem Valid.favoriteArticle (h : Valid loc s) {slug : String} {userId : Int} {u : Unit}
    (done : favoriteArticle slug userId s = .ok u s') : Valid loc s' := by
  obtain ⟨articleId, _, pk, user, article, rfl⟩ := favoriteArticle_ok.mp done
  exact { h with
    pk_favorites := pk
    favorites_fk_user := List.forall_mem_append.mpr
      ⟨h.favorites_fk_user, List.forall_mem_singleton.mpr user⟩
    favorites_fk_article := List.forall_mem_append.mpr
      ⟨h.favorites_fk_article, List.forall_mem_singleton.mpr article⟩ }

theorem Valid.unfavoriteArticle (h : Valid loc s) {slug : String} {userId : Int} {u : Unit}
    (done : unfavoriteArticle slug userId s = .ok u s') : Valid loc s' := by
  obtain ⟨_, _, rfl⟩ := unfavoriteArticle_ok.mp done
  exact { h with
    pk_favorites := h.pk_favorites.filter _
    favorites_fk_user := fun f member => h.favorites_fk_user f (List.mem_filter.mp member).1
    favorites_fk_article := fun f member => h.favorites_fk_article f (List.mem_filter.mp member).1 }

theorem Valid.follow (h : Valid loc s) {follower followed : Int} {u : Unit}
    (done : follow follower followed s = .ok u s') : Valid loc s' := by
  obtain ⟨pk, fk, fk', rfl⟩ := follow_ok.mp done
  exact { h with
    pk_followers := pk
    fk_follower := List.forall_mem_append.mpr ⟨h.fk_follower, List.forall_mem_singleton.mpr fk⟩
    fk_followed := List.forall_mem_append.mpr ⟨h.fk_followed, List.forall_mem_singleton.mpr fk'⟩ }

theorem Valid.unfollow (h : Valid loc s) {follower followed : Int} {u : Unit}
    (done : unfollow follower followed s = .ok u s') : Valid loc s' := by
  obtain rfl := unfollow_ok.mp done
  exact { h with
    pk_followers := h.pk_followers.filter _
    fk_follower := fun r member => h.fk_follower r (List.mem_filter.mp member).1
    fk_followed := fun r member => h.fk_followed r (List.mem_filter.mp member).1 }

theorem map_unhit {α : Type} {hit : α → Prop} [DecidablePred hit] {change : α → α} {rows : List α}
    (unhit : ∀ r ∈ rows, ¬ hit r) : rows.map (fun r => if hit r then change r else r) = rows :=
  (List.map_congr_left fun r member => if_neg (unhit r member)).trans (List.map_id' rows)

/-- The updated articles keep their ids and authors; without a hit nothing changes. -/
theorem Valid.updateArticleBySlug (h : Valid loc s) {oldSlug : String} {authorId : Int}
    {title newSlug description body : Option String} {rows : List Int}
    (text : ∀ slug ∈ newSlug, storable slug)
    (done : updateArticleBySlug m oldSlug authorId title newSlug description body s = .ok rows s') :
    Valid loc s' := by
  obtain ⟨checked, _, rfl⟩ := updateArticleBySlug_ok.mp done
  have ids : ∀ a : Article, (if a.slug = oldSlug ∧ a.authorId = authorId then
      a.update m title newSlug description body else a).articleId = a.articleId := by
    intro a
    split <;> rfl
  have authors : ∀ a : Article, (if a.slug = oldSlug ∧ a.authorId = authorId then
      a.update m title newSlug description body else a).authorId = a.authorId := by
    intro a
    split <;> rfl
  refine h.withArticles ?_ ?_ ?_ ?_ ?_ ?_
  · rw [List.map_map]
    simpa only [Function.comp_def, ids] using h.pk_articles
  · by_cases hit : ∃ a ∈ s.articles, a.slug = oldSlug ∧ a.authorId = authorId
    · obtain ⟨a, member, hit⟩ := hit
      exact (checked a member hit).2.2
    · have same : s.articles.map (fun a => if a.slug = oldSlug ∧ a.authorId = authorId then
          a.update m title newSlug description body else a) = s.articles :=
        map_unhit fun a member here => hit ⟨a, member, here⟩
      rw [same]
      exact h.uniq_slug
  · rw [List.forall_mem_map]
    intro a member
    rw [authors]
    exact h.fk_article_author a member
  · exact fun a member => ⟨_, List.mem_map_of_mem member, ids a⟩
  · rw [List.forall_mem_map]
    intro a member
    rw [ids]
    exact h.serial_articles a member
  · rw [List.forall_mem_map]
    intro a member
    split
    · cases newSlug with
      | none => exact h.text_articles a member
      | some slug => exact text slug rfl
    · exact h.text_articles a member

/-- The updated user keeps its id; without such a user nothing changes. -/
theorem Valid.updateUserById (h : Valid loc s) {userId : Int}
    {username email passwordHash bio image : Option String} {rows : List RealworldUser}
    (text : ∀ text ∈ [username, email].filterMap id, storable text)
    (done : updateUserById loc userId username email passwordHash bio image s = .ok rows s') :
    Valid loc s' := by
  obtain ⟨checked, _, rfl⟩ := updateUserById_ok.mp done
  by_cases hit : ∃ u ∈ s.users, u.userId = userId
  · have ids : ∀ u : User, (if u.userId = userId then
        u.update username email passwordHash bio image else u).userId = u.userId := by
      intro u
      split <;> rfl
    obtain ⟨u, member, same⟩ := hit
    obtain ⟨_, _, _, uniqName, uniqMail⟩ := checked _
      (List.mem_map_of_mem (List.mem_filter.mpr ⟨member, decide_eq_true same⟩))
    refine h.withUsers ?_ uniqName uniqMail ?_ ?_ ?_
    · rw [List.map_map]
      simpa only [Function.comp_def, ids] using h.pk_users
    · exact fun u member => ⟨_, List.mem_map_of_mem member, ids u⟩
    · rw [List.forall_mem_map]
      intro u member
      rw [ids]
      exact h.serial_users u member
    · rw [List.forall_mem_map]
      intro u member
      obtain ⟨name, mail⟩ := h.text_users u member
      split
      · constructor
        · cases username with
          | none => exact name
          | some new => exact text new (by simp)
        · cases email with
          | none => exact mail
          | some new => exact text new (by simp)
      · exact ⟨name, mail⟩
  · rw [map_unhit fun u member here => hit ⟨u, member, here⟩]
    exact h

theorem Valid.effect (h : Valid loc s) {q : Sql} {rows : List q.Row} (texts : q.texts.all storable)
    (effect : Effect loc m s q rows s') : Valid loc s' := by
  rw [List.all_eq_true] at texts
  cases effect with
  | addNewArticle done =>
    obtain ⟨s₁, s₂, first, second, third⟩ := addNewArticle_ok.mp done
    exact ((h.insertArticles (texts _ (by simp [Sql.texts])) first).insertTags second).insertArticleTags third
  | follow done => exact h.follow done
  | unfollow done => exact h.unfollow done
  | updateArticleBySlug done =>
    refine h.updateArticleBySlug (fun slug given => texts slug ?_) done
    obtain rfl := given
    simp [Sql.texts]
  | deleteArticleBySlug done => exact h.deleteArticleBySlug done
  | addNewUser done =>
    exact h.insertUsers ⟨texts _ (by simp [Sql.texts]), texts _ (by simp [Sql.texts])⟩ done
  | updateUserById done =>
    refine h.updateUserById (fun text given => texts text ?_) done
    simp only [Sql.texts, List.mem_filterMap, List.mem_cons, List.not_mem_nil, or_false] at given ⊢
    obtain ⟨o, here | here, same⟩ := given
    · exact ⟨o, .inl here, same⟩
    · exact ⟨o, .inr (.inl here), same⟩
  | addNewComment done => exact h.addCommentToArticle done
  | deleteComment done =>
    obtain ⟨_, _, rfl⟩ := deleteComment_ok.mp done
    exact h.filterComments _
  | favoriteArticle done => exact h.favoriteArticle done
  | unfavoriteArticle done => exact h.unfavoriteArticle done

/-- Every statement keeps the store valid, whether it succeeds or fails. -/
theorem Valid.exec (h : Valid loc s) (q : Sql) : Valid loc (q.exec loc m s).2 := by
  by_cases writing : q.writes
  · cases answer : (q.exec loc m s).1 with
    | error e => exact h.draw (Sql.exec_error (Prod.ext answer rfl)) (Sql.exec_draws q)
    | ok rows =>
      have done : q.exec loc m s = (.ok rows, (q.exec loc m s).2) := Prod.ext answer rfl
      exact h.effect (Sql.exec_ok.mp done).1 (Sql.exec_effect writing done)
  · have same : (q.exec loc m s).2 = s := Sql.exec_reads writing rfl
    rwa [same]

end

end RealWorld.Schema
