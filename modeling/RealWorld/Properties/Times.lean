import RealWorld.Relational.Stamped
import RealWorld.Runs
import RealWorld.Transactional.Rely

/-!
# The times of articles and comments

`NOW()` stamps articles and comments. Where the clock of the database never goes back, the stamps tell the
order in which things were created, and whether an article has changed since it was last seen.

This is so of statements that are executed one after the other. `NOW()` is the time a statement begins, and its ids
are drawn later: of two creations that overlap, as in `Schema.Concurrent`, the one that began first can draw the
larger id.
-/

namespace RealWorld
open Schema Transactional Relational

/-- The store with the time of its last statement. -/
abbrev TimedStore := Store × Int

/-- A statement is executed as a whole some time after the last one: it begins, draws its ids and commits at one
moment. -/
def Schema.Sql.execLater (loc : DbLocale) (q : Sql) (w : Nat × Moment) (x : TimedStore) : q.Res × TimedStore :=
  let m : Moment := { w.2 with now := x.2 + w.1 }
  ((q.exec loc m x.1).1, (q.exec loc m x.1).2, m.now)

abbrev TimedConfiguration := Config Sql Sql.Res Exn Response TimedStore

abbrev TimedInterleaving (svc : Service) :
    TimedConfiguration → List (Event Sql Sql.Res TimedStore) → TimedConfiguration → Prop :=
  Trace (Sql.execLater svc.loc) (Requested svc)

abbrev ArticlesStamped (now : Int) (articles : List Article) : Prop :=
  Stamped (·.articleId) (·.createdAt) (·.updatedAt) now articles

abbrev CommentsStamped (now : Int) (comments : List Comment) : Prop :=
  Stamped (·.commentId) (·.createdAt) (·.updatedAt) now comments

structure Dated (t : Tables) (now : Int) : Prop where
  articles : ArticlesStamped now t.articles
  comments : CommentsStamped now t.comments
  unedited : ∀ c ∈ t.comments, c.updatedAt = c.createdAt
  replies : ∀ c ∈ t.comments, ∀ a ∈ t.articles, a.articleId = c.articleId → a.createdAt ≤ c.createdAt

/-- From one moment to a later one. -/
structure Later (x x' : TimedStore) : Prop where
  clock : x.2 ≤ x'.2
  sequences : x.1.toSequences.Drawn x'.1.toSequences
  articles : Since (·.articleId) (·.createdAt) (·.updatedAt) x.1.articlesSeq x.2 x.1.articles x'.1.articles
  comments : Since (·.commentId) (·.createdAt) (·.updatedAt) x.1.commentsSeq x.2 x.1.comments x'.1.comments

theorem dated_empty (now : Int) : Dated Store.empty.toTables now := ⟨.nil, .nil, nofun, nofun⟩

theorem Later.trans {x x' x'' : TimedStore} (first : Later x x') (second : Later x' x'') : Later x x'' where
  clock := first.clock.trans second.clock
  sequences := first.sequences.trans second.sequences
  articles := first.articles.trans (first.sequences.grown .articles) first.clock second.articles
  comments := first.comments.trans (first.sequences.grown .comments) first.clock second.comments

section
variable {loc : DbLocale} {m : Moment} {s s' : Store} {now : Int}

theorem Later.same (valid : Valid loc s) (later : now ≤ m.now) (drawn : s.toSequences.Drawn s'.toSequences)
    (articles : s'.articles = s.articles) (comments : s'.comments = s.comments) : Later (s, now) (s', m.now) where
  clock := later
  sequences := drawn
  articles := by
    show Since _ _ _ s.articlesSeq now s.articles s'.articles
    rw [articles]
    exact .refl fun a member => (valid.serial_articles a member).2
  comments := by
    show Since _ _ _ s.commentsSeq now s.comments s'.comments
    rw [comments]
    exact .refl fun c member => (valid.serial_comments c member).2

theorem Dated.same (dated : Dated s.toTables now) (later : now ≤ m.now) (articles : s'.articles = s.articles)
    (comments : s'.comments = s.comments) : Dated s'.toTables m.now where
  articles := articles ▸ dated.articles.mono later
  comments := comments ▸ dated.comments.mono later
  unedited := comments ▸ dated.unedited
  replies := articles ▸ comments ▸ dated.replies

/-- What one statement does to the times. -/
def KeepsTime (s : Store) (now : Int) (s' : Store) (now' : Int) : Prop := Dated s'.toTables now' ∧ Later (s, now) (s', now')

theorem KeepsTime.same (valid : Valid loc s) (dated : Dated s.toTables now) (later : now ≤ m.now)
    (drawn : s.toSequences.Drawn s'.toSequences) (articles : s'.articles = s.articles)
    (comments : s'.comments = s.comments) : KeepsTime s now s' m.now :=
  ⟨dated.same later articles comments, .same valid later drawn articles comments⟩

section
variable (valid : Valid loc s) (dated : Dated s.toTables now) (later : now ≤ m.now)
include valid dated later

theorem addNewArticle_times {title slug description body : String} {authorId articleId : Int}
    {tagList : Option (List String)} (drawn : s.toSequences.Drawn s'.toSequences)
    (done : addNewArticle m title slug description body authorId tagList s = .ok articleId s') :
    KeepsTime s now s' m.now := by
  obtain ⟨fresh, links, linked, store⟩ := addNewArticle_store done
  have articles := congrArg (fun t : Store => t.articles) store
  have comments := congrArg (fun t : Store => t.comments) store
  have below : ∀ a ∈ s.articles, a.articleId < articleId := by
    intro a member
    have bound := (valid.serial_articles a member).2
    omega
  have same : Later (s, now) (s, m.now) := .same valid later (.refl _) rfl rfl
  constructor
  · constructor
    · rw [articles]
      exact (dated.articles.mono later).append below rfl rfl
    · rw [comments]
      exact dated.comments.mono later
    · rw [comments]
      exact dated.unedited
    · rw [articles, comments]
      intro c member a stored own
      rcases List.mem_append.mp stored with old | new
      · exact dated.replies c member a old own
      · obtain ⟨b, mem, commented⟩ := valid.comments_fk_article c member
        have known := below b mem
        rw [List.mem_singleton.mp new] at own
        have new : articleId = c.articleId := own
        omega
  · refine ⟨later, drawn, ?_, ?_⟩
    · show Since _ _ _ s.articlesSeq now s.articles s'.articles
      rw [articles]
      refine .append (fun a member => (valid.serial_articles a member).2) ?_ later
      show s.articlesSeq < articleId
      omega
    · show Since _ _ _ s.commentsSeq now s.comments s'.comments
      rw [comments]
      exact same.comments

theorem updateArticleBySlug_times {oldSlug : String} {authorId : Int} {title newSlug description body : Option String}
    {rows : List Int} (done : updateArticleBySlug m oldSlug authorId title newSlug description body s = .ok rows s') :
    KeepsTime s now s' m.now := by
  obtain ⟨_, _, rfl⟩ := updateArticleBySlug_ok.mp done
  have same : Later (s, now) (s, m.now) := .same valid later (.refl _) rfl rfl
  have keyed : ∀ a : Article, (if a.slug = oldSlug ∧ a.authorId = authorId then
      a.update m title newSlug description body else a).articleId = a.articleId := by
    intro a
    split <;> rfl
  have create : ∀ a : Article, (if a.slug = oldSlug ∧ a.authorId = authorId then
      a.update m title newSlug description body else a).createdAt = a.createdAt := by
    intro a
    split <;> rfl
  have update : ∀ a : Article, (if a.slug = oldSlug ∧ a.authorId = authorId then
        a.update m title newSlug description body else a) = a ∨
      (if a.slug = oldSlug ∧ a.authorId = authorId then
        a.update m title newSlug description body else a).updatedAt = m.now := by
    intro a
    split
    · exact .inr rfl
    · exact .inl rfl
  constructor
  · refine ⟨(dated.articles.mono later).map keyed create update, dated.comments.mono later, dated.unedited, ?_⟩
    intro c member a' stored own
    obtain ⟨a, old, rfl⟩ := List.mem_map.mp stored
    rw [create]
    exact dated.replies c member a old ((keyed a).symm.trans own)
  · refine ⟨later, .refl _, ?_, same.comments⟩
    refine .map (fun a member => (valid.serial_articles a member).2) keyed create fun a => ?_
    exact (update a).imp_right fun changed => by rw [changed]; exact later

theorem deleteArticleBySlug_times {slug : String} {authorId : Int} {u : Unit}
    (done : deleteArticleBySlug slug authorId s = .ok u s') : KeepsTime s now s' m.now := by
  obtain ⟨_, rfl⟩ := deleteArticleBySlug_ok.mp done
  constructor
  · refine ⟨(dated.articles.mono later).sublist List.filter_sublist,
      (dated.comments.mono later).sublist List.filter_sublist, ?_, ?_⟩
    · intro c member
      exact dated.unedited c (List.mem_filter.mp member).1
    · intro c member a stored
      exact dated.replies c (List.mem_filter.mp member).1 a (List.mem_filter.mp stored).1
  · exact ⟨later, .refl _, .sublist (fun a member => (valid.serial_articles a member).2) List.filter_sublist,
      .sublist (fun c member => (valid.serial_comments c member).2) List.filter_sublist⟩

theorem addComment_times {slug body : String} {userId commentId : Int} (drawn : s.toSequences.Drawn s'.toSequences)
    (done : addCommentToArticle m slug body userId s = .ok commentId s') : KeepsTime s now s' m.now := by
  obtain ⟨_, _, articleId, _, _, _, _, _, rfl⟩ := addCommentToArticle_ok.mp done
  have same : Later (s, now) (s, m.now) := .same valid later (.refl _) rfl rfl
  constructor
  · refine ⟨dated.articles.mono later, ?_, ?_, ?_⟩
    · refine (dated.comments.mono later).append (fun c member => ?_) rfl rfl
      exact Int.lt_add_one_of_le (valid.serial_comments c member).2
    · exact List.forall_mem_append.mpr ⟨dated.unedited, List.forall_mem_singleton.mpr rfl⟩
    · intro c member a stored own
      rcases List.mem_append.mp member with old | new
      · exact dated.replies c old a stored own
      · have times := dated.articles.times a stored
        rw [List.mem_singleton.mp new]
        show a.createdAt ≤ m.now
        omega
  · refine ⟨later, drawn, same.articles, ?_⟩
    exact .append (fun c member => (valid.serial_comments c member).2) (Int.lt_add_one_of_le le_rfl) later

theorem deleteComment_times {commentId : Int} {slug : String} {authorId : Int} {u : Unit}
    (done : deleteComment commentId slug authorId s = .ok u s') : KeepsTime s now s' m.now := by
  obtain ⟨_, _, rfl⟩ := deleteComment_ok.mp done
  have same : Later (s, now) (s, m.now) := .same valid later (.refl _) rfl rfl
  constructor
  · refine ⟨dated.articles.mono later, (dated.comments.mono later).sublist List.filter_sublist, ?_, ?_⟩
    · intro c member
      exact dated.unedited c (List.mem_filter.mp member).1
    · intro c member
      exact dated.replies c (List.mem_filter.mp member).1
  · exact ⟨later, .refl _, same.articles,
      .sublist (fun c member => (valid.serial_comments c member).2) List.filter_sublist⟩

theorem Schema.Effect.times {q : Sql} {rows : List q.Row} (drawn : s.toSequences.Drawn s'.toSequences)
    (effect : Effect loc m s q rows s') : KeepsTime s now s' m.now := by
  cases effect with
  | addNewArticle done => exact addNewArticle_times valid dated later drawn done
  | updateArticleBySlug done => exact updateArticleBySlug_times valid dated later done
  | deleteArticleBySlug done => exact deleteArticleBySlug_times valid dated later done
  | addNewComment done => exact addComment_times valid dated later drawn done
  | deleteComment done => exact deleteComment_times valid dated later done
  | follow done =>
    obtain ⟨_, _, _, rfl⟩ := follow_ok.mp done
    exact .same valid dated later drawn rfl rfl
  | unfollow done =>
    obtain rfl := unfollow_ok.mp done
    exact .same valid dated later drawn rfl rfl
  | favoriteArticle done =>
    obtain ⟨_, _, _, _, _, rfl⟩ := favoriteArticle_ok.mp done
    exact .same valid dated later drawn rfl rfl
  | unfavoriteArticle done =>
    obtain ⟨_, _, rfl⟩ := unfavoriteArticle_ok.mp done
    exact .same valid dated later drawn rfl rfl
  | addNewUser done =>
    obtain ⟨_, _, _, _, _, _, _, rfl⟩ := insertUsers_ok.mp done
    exact .same valid dated later drawn rfl rfl
  | updateUserById done =>
    obtain ⟨_, _, rfl⟩ := updateUserById_ok.mp done
    exact .same valid dated later drawn rfl rfl

theorem Schema.Sql.exec_times (q : Sql) : KeepsTime s now (q.exec loc m s).2 m.now := by
  have drawn : s.toSequences.Drawn (q.exec loc m s).2.toSequences := Sql.exec_draws q
  have executed : q.exec loc m s = ((q.exec loc m s).1, (q.exec loc m s).2) := rfl
  rcases Sql.exec_cases executed with same | ⟨rows, _, _, effect⟩
  · exact .same valid dated later drawn (congrArg Tables.articles same) (congrArg Tables.comments same)
  · exact effect.times valid dated later drawn

end

end
theorem timed_guaranteed (loc : DbLocale) : Guaranteed (Sql.execLater loc) fun x x' =>
    Valid loc x.1 ∧ Dated x.1.toTables x.2 → Valid loc x'.1 ∧ Dated x'.1.toTables x'.2 ∧ Later x x' where
  refl x before := by
    obtain ⟨valid, dated⟩ := before
    exact ⟨valid, dated, .same valid (m := { sampleMoment with now := x.2 }) le_rfl (.refl _) rfl rfl⟩
  trans first second before := by
    obtain ⟨valid, dated, step⟩ := first before
    obtain ⟨valid', dated', step'⟩ := second ⟨valid, dated⟩
    exact ⟨valid', dated', step.trans step'⟩
  step q w x before := by
    obtain ⟨valid, dated⟩ := before
    exact ⟨valid.exec q, Sql.exec_times valid dated (Int.le_add_of_nonneg_right (Int.natCast_nonneg w.1)) q⟩

/-- At every moment of an interleaving the stamps are in the order of the ids, and no comment is older than its
article. By a later moment an article whose time is before the earlier one is what it was, and what has a new id
was created since. -/
theorem times_tell {svc : Service} {start : Int} {c c' : TimedConfiguration} {es es' : List (Event Sql Sql.Res TimedStore)}
    (first : TimedInterleaving svc ⟨(Store.empty, start), []⟩ es c) (run : TimedInterleaving svc c es' c') :
    Dated c'.store.1.toTables c'.store.2 ∧ Later c.store c'.store := by
  have before : Valid svc.loc Store.empty ∧ Dated Store.empty.toTables start := ⟨valid_empty svc.loc, dated_empty start⟩
  obtain ⟨valid, dated, _⟩ := first.within (timed_guaranteed svc.loc) before
  obtain ⟨_, dated', later⟩ := run.within (timed_guaranteed svc.loc) ⟨valid, dated⟩
  exact ⟨dated', later⟩

/-! ### A sample -/

def sampleTick (elapsed client : Nat) : Move Call (Nat × Moment) := .exec client (elapsed, sampleMoment)

def sampleTimed (moves : List (Move Call (Nat × Moment))) (c : TimedConfiguration) :
    List (Event Sql Sql.Res TimedStore) × TimedConfiguration :=
  c.perform (Sql.execLater sample.loc) (serve sample) moves

theorem sampleTimed_trace (moves : List (Move Call (Nat × Moment))) (c : TimedConfiguration) :
    TimedInterleaving sample c (sampleTimed moves c).1 (sampleTimed moves c).2 :=
  Config.perform_trace _ _ (fun call => ⟨call, rfl⟩) moves c

/-- anna publishes at 5 and edits at 8. -/
def sampleEarly : TimedConfiguration :=
  (sampleTimed [.arrive (sampleRegister "anna"), sampleTick 3 0, .arrive (samplePublish 1 "Hello there"), sampleTick 2 1,
    sampleTick 0 1] ⟨(Store.empty, 0), []⟩).2

def sampleStampedEdit : Call :=
  sampleCall .putArticlesSlug 1 [("slug", "hello-there")] (.obj [("article", .obj [("body", .str "Other content")])])

def sampleLate : List (Event Sql Sql.Res TimedStore) × TimedConfiguration :=
  sampleTimed [.arrive sampleStampedEdit, sampleTick 3 2] sampleEarly

theorem times_tell_sample :
    (sampleEarly.store.1.articles.map fun a => (a.createdAt, a.updatedAt)) = [(5, 5)] ∧
      (sampleLate.2.store.1.articles.map fun a => (a.createdAt, a.updatedAt)) = [(5, 8)] ∧
      Dated sampleLate.2.store.1.toTables sampleLate.2.store.2 ∧ Later sampleEarly.store sampleLate.2.store := by
  refine ⟨by decide +kernel, by decide +kernel, ?_⟩
  have first : TimedInterleaving sample ⟨(Store.empty, 0), []⟩ _ sampleEarly := sampleTimed_trace _ _
  have run : TimedInterleaving sample sampleEarly sampleLate.1 sampleLate.2 := sampleTimed_trace _ _
  exact times_tell first run

end RealWorld
