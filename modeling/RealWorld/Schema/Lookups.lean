import RealWorld.Relational.Paging
import RealWorld.Schema.Constraints

/-!
# What the queries answer over valid tables

The keys make every lookup find one row or none, so each view of an article is a function of the
article. Orders of scans and of equal sort keys are left open.
-/

namespace RealWorld.Schema
open Relational

variable {loc : DbLocale} {m : Moment} {t : Tables}

/-! ### Users and profiles -/

/-- The profile of `u` as `viewer` sees it. -/
def User.profile (t : Tables) (viewer : Option Int) (u : User) : Profile :=
  { username := u.username, bio := u.bio, image := u.image,
    following := isFollowing t viewer (some u.userId) }

theorem user_eq (h : Constraints loc t) {u v : User} (left : u ∈ t.users) (right : v ∈ t.users)
    (same : u.userId = v.userId) : u = v := key_inj h.pk_users left right same

theorem article_eq (h : Constraints loc t) {a b : Article} (left : a ∈ t.articles)
    (right : b ∈ t.articles) (same : a.articleId = b.articleId) : a = b :=
  key_inj h.pk_articles left right same

theorem getProfile_of (h : Constraints loc t) {u : User} (member : u ∈ t.users) (viewer : Option Int) :
    getProfile t u.userId viewer = [u.profile t viewer] := by
  rw [getProfile, filter_key h.pk_users member]
  simp [User.profile, caseWhen]

theorem getProfile_author (h : Constraints loc t) {a : Article} (member : a ∈ t.articles)
    (viewer : Option Int) : ∃ u ∈ t.users, u.userId = a.authorId ∧
      getProfile t a.authorId viewer = [u.profile t viewer] := by
  obtain ⟨u, mem, same⟩ := h.fk_article_author a member
  exact ⟨u, mem, same, same ▸ getProfile_of h mem viewer⟩

/-- A registration stores one more user, whom the email finds. -/
theorem addNewUser_store {s s' : Store} {username email hash : String} {userId : Int}
    (done : addNewUser loc username email hash s = .ok userId s') :
    ∃ x : User, x.userId = userId ∧ x.email = email ∧ x.passwordHash = hash ∧
      s'.users = s.users ++ [x] ∧ getUserByEmail s'.toTables email = [x] := by
  obtain ⟨_, _, _, _, _, emails, rfl, rfl⟩ := insertUsers_ok.mp done
  refine ⟨_, rfl, rfl, rfl, rfl, ?_⟩
  exact filter_key emails List.mem_concat_self

theorem updateUserById_cases {s s' : Store} (h : Constraints loc s.toTables) {userId : Int}
    {username email passwordHash bio image : Option String} {rows : List RealworldUser}
    (done : updateUserById loc userId username email passwordHash bio image s = .ok rows s') :
    (rows = [] ∧ s' = s) ∨ ∃ u ∈ s.users, u.userId = userId ∧
      rows = [u.update username email passwordHash bio image] ∧
      s' = { s with users := s.users.map fun v =>
               if v.userId = userId then v.update username email passwordHash bio image else v } := by
  obtain ⟨_, rfl, rfl⟩ := updateUserById_ok.mp done
  rcases filter_key_cases h.pk_users userId with ⟨none, absent⟩ | ⟨u, member, same, one⟩
  · left
    rw [map_unhit absent]
    exact ⟨by rw [none]; rfl, rfl⟩
  · exact .inr ⟨u, member, same, by rw [one]; rfl, rfl⟩

/-! ### Articles by slug and by id -/

theorem articleIdsBySlug_of (h : Constraints loc t) {a : Article} (member : a ∈ t.articles) :
    articleIdsBySlug t a.slug = [a.articleId] := by
  rw [articleIdsBySlug, filter_key h.uniq_slug member, List.map_singleton]

theorem mem_articleIdsBySlug {slug : String} {id : Int} :
    id ∈ articleIdsBySlug t slug ↔ ∃ a ∈ t.articles, a.slug = slug ∧ a.articleId = id := by
  simp [articleIdsBySlug, and_assoc]

theorem articleIdsBySlug_nil {slug : String} (missing : ∀ a ∈ t.articles, a.slug ≠ slug) : articleIdsBySlug t slug = [] := by
  rw [articleIdsBySlug, filter_key_nil missing, List.map_nil]

theorem articleIdsBySlug_cases (h : Constraints loc t) (slug : String) :
    (articleIdsBySlug t slug = [] ∧ ∀ a ∈ t.articles, a.slug ≠ slug) ∨
      ∃ a ∈ t.articles, a.slug = slug ∧ articleIdsBySlug t slug = [a.articleId] := by
  obtain ⟨none, absent⟩ | ⟨a, member, same, _⟩ := filter_key_cases h.uniq_slug slug
  · exact .inl ⟨by rw [articleIdsBySlug, none, List.map_nil], absent⟩
  · exact .inr ⟨a, member, same, same ▸ articleIdsBySlug_of h member⟩

/-! ### Articles by slug and author -/

theorem hit_iff (h : Constraints loc t) {a : Article} (member : a ∈ t.articles) {b : Article} (mem : b ∈ t.articles) :
    b.slug = a.slug ∧ b.authorId = a.authorId ↔ b.articleId = a.articleId := by
  constructor
  · rintro ⟨same, _⟩
    rw [key_inj h.uniq_slug mem member same]
  · intro same
    rw [article_eq h mem member same]
    exact ⟨rfl, rfl⟩

theorem filter_hit (h : Constraints loc t) {a : Article} (member : a ∈ t.articles) :
    (t.articles.filter fun b => b.slug = a.slug ∧ b.authorId = a.authorId) = [a] := by
  rw [← filter_key h.pk_articles member]
  exact List.filter_congr fun b mem => decide_eq_decide.mpr (hit_iff h member mem)

theorem ownedBySlug_own (h : Constraints loc t) {a : Article} (member : a ∈ t.articles) :
    ownedBySlug t a.slug a.authorId = [a.articleId] := by
  rw [ownedBySlug, filter_hit h member, List.map_singleton]

theorem ownedBySlug_other (h : Constraints loc t) {a : Article} (member : a ∈ t.articles) {caller : Int}
    (other : a.authorId ≠ caller) : ownedBySlug t a.slug caller = [] := by
  rw [List.eq_nil_iff_forall_not_mem]
  intro id owned
  obtain ⟨b, mem, ⟨same, author⟩, _⟩ := mem_ownedBySlug.mp owned
  rw [key_inj h.uniq_slug mem member same] at author
  exact other author

/-- The tables with `a'` in the place of the article that has its id. -/
def Tables.replaceArticle (t : Tables) (a' : Article) : Tables :=
  { t with articles := t.articles.map fun b => if b.articleId = a'.articleId then a' else b }

theorem mem_replaceArticle {a : Article} (member : a ∈ t.articles) (a' : Article) (same : a'.articleId = a.articleId)
    {b : Article} :
    b ∈ (t.replaceArticle a').articles ↔ b = a' ∨ b ∈ t.articles ∧ b.articleId ≠ a.articleId := by
  unfold Tables.replaceArticle
  rw [same]
  exact mem_map_key member

/-- The author's update changes the one article, if what it becomes fits and its slug is free. -/
theorem updateArticleBySlug_own {s s' : Store} (h : Constraints loc s.toTables) {a : Article} (member : a ∈ s.articles)
    {title newSlug description body : Option String} {rows : List Int} :
    updateArticleBySlug m a.slug a.authorId title newSlug description body s = .ok rows s' ↔
      ((title.getD a.title).length ≤ 255 ∧ (newSlug.getD a.slug).length ≤ 255 ∧
        ∀ b ∈ s.articles, b.slug = newSlug.getD a.slug → b.articleId = a.articleId) ∧ rows = [a.articleId] ∧
      s' = { s with toTables := s.toTables.replaceArticle (a.update m title newSlug description body) } := by
  have replaced : (s.articles.map fun b => if b.slug = a.slug ∧ b.authorId = a.authorId then
      b.update m title newSlug description body else b) =
      (s.toTables.replaceArticle (a.update m title newSlug description body)).articles := by
    refine .trans (List.map_congr_left fun b mem => ?_)
      (map_key_congr h.pk_articles member (Article.update m title newSlug description body))
    exact if_congr (hit_iff h member mem) rfl rfl
  have free := nodup_map_replace h.pk_articles h.uniq_slug member
    (show (a.update m title newSlug description body).articleId = a.articleId from rfl)
  rw [updateArticleBySlug_ok, replaced, ownedBySlug_own h member]
  refine and_congr_left fun _ => ?_
  constructor
  · intro fits
    obtain ⟨long, wide, distinct⟩ := fits a member ⟨rfl, rfl⟩
    exact ⟨long, wide, free.mp distinct⟩
  · rintro ⟨long, wide, distinct⟩ b mem hit
    obtain rfl := article_eq h mem member ((hit_iff h member mem).mp hit)
    exact ⟨long, wide, free.mpr distinct⟩

/-- Nothing is updated for a caller who wrote no article with the slug. -/
theorem updateArticleBySlug_unowned {s : Store} {oldSlug : String} {authorId : Int}
    {title newSlug description body : Option String}
    (unowned : ∀ a ∈ s.articles, ¬ (a.slug = oldSlug ∧ a.authorId = authorId)) :
    updateArticleBySlug m oldSlug authorId title newSlug description body s = .ok [] s := by
  rw [updateArticleBySlug_ok, map_unhit unowned]
  refine ⟨fun a member hit => absurd hit (unowned a member), ?_, rfl⟩
  rw [ownedBySlug, List.filter_eq_nil_iff.mpr, List.map_nil]
  simpa using unowned

theorem updateArticleBySlug_cases {s s' : Store} (h : Constraints loc s.toTables) {oldSlug : String}
    {authorId : Int} {title newSlug description body : Option String} {rows : List Int}
    (done : updateArticleBySlug m oldSlug authorId title newSlug description body s = .ok rows s') :
    (rows = [] ∧ s' = s) ∨ ∃ a ∈ s'.articles, rows = [a.articleId] := by
  by_cases owned : ∃ a ∈ s.articles, a.slug = oldSlug ∧ a.authorId = authorId
  · obtain ⟨a, member, rfl, rfl⟩ := owned
    obtain ⟨_, rfl, rfl⟩ := (updateArticleBySlug_own h member).mp done
    exact .inr ⟨_, (mem_replaceArticle member (a.update m title newSlug description body) rfl).mpr (.inl rfl), rfl⟩
  · have none := done.symm.trans (updateArticleBySlug_unowned fun a member hit => owned ⟨a, member, hit⟩)
    cases none
    exact .inl ⟨rfl, rfl⟩

/-! ### Views of one article -/

theorem isFavoritedArticle_some (articleId userId : Int) :
    isFavoritedArticle t articleId (some userId) =
      decide ({ userId := userId, articleId := articleId : Favorite } ∈ t.favorites) := by
  rw [isFavoritedArticle, Bool.eq_iff_iff, List.any_eq_true, decide_eq_true_eq]
  constructor
  · rintro ⟨f, member, same⟩
    simp only [isTrue_and, isTrue_eq, Bool.and_eq_true, decide_eq_true_eq, Option.some.injEq] at same
    rwa [same.1, same.2]
  · intro member
    exact ⟨_, member, by simp⟩

/-- Without a user the condition is UNKNOWN for every row. -/
theorem isFavoritedArticle_none (articleId : Int) : isFavoritedArticle t articleId = false := by
  simp [isFavoritedArticle]

/-- An article as a view shows it: its columns and its tags, author and count of favorites. -/
def Article.shown (loc : DbLocale) (t : Tables) (a : Article) (favorited : Bool) (favoritesCount : Int)
    (author : Profile) : ArticleWithAuthorProfile :=
  a.select (getArticleTagList loc t a.articleId) favorited favoritesCount author

def favoritesOf (t : Tables) (articleId : Int) : List Favorite :=
  t.favorites.filter fun f => f.articleId = articleId

theorem getArticleWithAuthorProfile_of (h : Constraints loc t) {a : Article} (member : a ∈ t.articles)
    (viewer : Option Int) : ∃ u ∈ t.users, u.userId = a.authorId ∧
      getArticleWithAuthorProfile loc t a.articleId viewer =
        [a.shown loc t (isFavoritedArticle t a.articleId viewer) (favoritesOf t a.articleId).length
          (u.profile t viewer)] := by
  obtain ⟨u, mem, author, profile⟩ := getProfile_author h member viewer
  refine ⟨u, mem, author, ?_⟩
  rw [getArticleWithAuthorProfile, filter_key h.pk_articles member, List.flatMap_singleton, profile]
  rfl

theorem getArticleWithAuthorProfile_absent {id : Int} (absent : ∀ a ∈ t.articles, a.articleId ≠ id)
    (viewer : Option Int) : getArticleWithAuthorProfile loc t id viewer = [] := by
  rw [getArticleWithAuthorProfile, filter_key_nil absent, List.flatMap_nil]

theorem getArticleWithAuthorProfile_id {id : Int} {viewer : Option Int} {row : ArticleWithAuthorProfile}
    (member : row ∈ getArticleWithAuthorProfile loc t id viewer) : row.articleId = id := by
  obtain ⟨a, found, shown⟩ := List.mem_flatMap.mp member
  obtain ⟨_, _, rfl⟩ := List.mem_map.mp shown
  exact of_decide_eq_true (List.mem_filter.mp found).2

theorem getArticleWithAuthorProfileBySlug_of (h : Constraints loc t) {a : Article}
    (member : a ∈ t.articles) (viewer : Option Int) :
    getArticleWithAuthorProfileBySlug loc t a.slug viewer =
      getArticleWithAuthorProfile loc t a.articleId viewer := by
  simp only [getArticleWithAuthorProfileBySlug, articleIdsBySlug_of h member, List.head?_cons,
    getArticleWithAuthorProfile]

theorem getArticleTagList_named (named : ∀ tag ∈ t.tags, ∃ name, tag.name = some name)
    (articleId : Int) : ∀ o ∈ getArticleTagList loc t articleId, ∃ name, o = some name := by
  intro o member
  have listed := (List.perm_insertionSort _ _).subset member
  simp only [List.mem_flatMap, List.mem_map, List.mem_filter] at listed
  obtain ⟨_, _, tag, ⟨mem, _⟩, rfl⟩ := listed
  exact named tag mem

/-! ### Comments -/

theorem getComment_of (h : Constraints loc t) {c : Comment} (member : c ∈ t.comments)
    (viewer : Option Int) : ∃ row, getComment t c.commentId viewer = [row] := by
  obtain ⟨a, mem, article⟩ := h.comments_fk_article c member
  obtain ⟨u, user, author⟩ := h.comments_fk_author c member
  have found : t.articles.filter (fun b => b.articleId = c.articleId) = [a] := by
    rw [← article]
    exact filter_key h.pk_articles mem
  refine ⟨c.select (u.profile t viewer), ?_⟩
  rw [getComment, filter_key h.pk_comments member, List.flatMap_singleton, found,
    List.flatMap_singleton, ← author, getProfile_of h user, List.map_singleton]

theorem getComment_absent {id : Int} (absent : ∀ c ∈ t.comments, c.commentId ≠ id)
    (viewer : Option Int) : getComment t id viewer = [] := by
  rw [getComment, filter_key_nil absent, List.flatMap_nil]

/-! ### Lists of articles -/

theorem limitOffset_sublist {α : Type} {limit offset : Option Int} {rows taken : List α}
    (h : limitOffset limit offset rows = .ok taken) : taken.Sublist rows := by
  unfold limitOffset at h
  split at h
  · cases h
  · obtain rfl := Except.ok.inj h
    cases limit with
    | none => exact List.drop_sublist _ _
    | some n => exact (List.take_sublist _ _).trans (List.drop_sublist _ _)

theorem limitOffset_all {α : Type} {limit offset : Option Int} {rows : List α}
    (start : offset.getD 0 = 0) (enough : ∀ n ∈ limit, (rows.length : Int) ≤ n) :
    limitOffset limit offset rows = .ok rows := by
  unfold limitOffset
  rw [start]
  cases limit with
  | none => simp
  | some n =>
    have bound := enough n rfl
    rw [if_neg (by simp only [Option.getD_some]; omega)]
    simp only [Int.toNat_zero, List.drop_zero]
    rw [List.take_of_length_le (by omega)]

/-- `articles INNER JOIN users ON author_id = user_id` pairs each article with its author. -/
def joinAuthors (t : Tables) : List (Article × User) :=
  t.articles.flatMap fun a => (t.users.filter fun u => a.authorId = u.userId).map fun u => (a, u)

theorem mem_joinAuthors {a : Article} {u : User} :
    (a, u) ∈ joinAuthors t ↔ a ∈ t.articles ∧ u ∈ t.users ∧ u.userId = a.authorId := by
  simp [joinAuthors, eq_comm]

theorem exists_users {α : Type} {rows : List α} {userId : α → Int}
    (refers : ∀ r ∈ rows, ∃ u ∈ t.users, u.userId = userId r) :
    ∃ author : α → User, ∀ r ∈ rows, author r ∈ t.users ∧ (author r).userId = userId r := by
  have nobody : User := { userId := 0, username := "", email := "", passwordHash := "" }
  have each : ∀ r, ∃ u : User, r ∈ rows → u ∈ t.users ∧ u.userId = userId r := by
    intro r
    by_cases member : r ∈ rows
    · obtain ⟨u, mem, author⟩ := refers r member
      exact ⟨u, fun _ => ⟨mem, author⟩⟩
    · exact ⟨nobody, fun stored => absurd stored member⟩
  choose author found using each
  exact ⟨author, found⟩

theorem exists_authors (h : Constraints loc t) :
    ∃ author : Article → User, ∀ a ∈ t.articles, author a ∈ t.users ∧ (author a).userId = a.authorId :=
  exists_users h.fk_article_author

/-- A select list with a profile in it has one row for each row it is applied to. -/
theorem flatMap_profiles {α β : Type} (h : Constraints loc t) {author : α → User} {rows : List α} {userId : α → Int}
    (authors : ∀ r ∈ rows, author r ∈ t.users ∧ (author r).userId = userId r) (viewer : Option Int)
    (part : α → Profile → β) :
    (rows.flatMap fun r => (getProfile t (userId r) viewer).map (part r)) =
      rows.map fun r => part r ((author r).profile t viewer) := by
  have single : ∀ r ∈ rows, (getProfile t (userId r) viewer).map (part r) = [part r ((author r).profile t viewer)] := by
    intro r member
    obtain ⟨mem, same⟩ := authors r member
    rw [← same, getProfile_of h mem, List.map_singleton]
  rw [List.flatMap_congr single]
  exact List.map_eq_flatMap.symm

theorem limitOffset_window {α : Type} {limit offset : Option Int} (start : 0 ≤ offset.getD 0) (size : 0 ≤ limit.getD 0)
    (rows : List α) :
    limitOffset limit offset rows = .ok (window (offset.getD 0).toNat (limit.map Int.toNat) rows) := by
  unfold limitOffset
  rw [if_neg (by omega)]
  cases limit <;> rfl

theorem limitOffset_refused {α : Type} {limit offset : Option Int} (negative : offset.getD 0 < 0 ∨ limit.getD 0 < 0)
    (rows : List α) : limitOffset limit offset rows = .error .invalidRowCount := if_pos negative

/-! ### How many rows there can be -/

/-- Ids come from a sequence of INT, so no more articles than its values. -/
theorem Valid.articles_length {s : Store} (h : Valid loc s) : (s.articles.length : Int) ≤ maxInt :=
  (length_le_of_numbered h.pk_articles (h.started .articles) h.serial_articles).trans (h.ended .articles)

end RealWorld.Schema
