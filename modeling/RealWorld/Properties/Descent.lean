import RealWorld.Relational.Descent
import RealWorld.Runs
import RealWorld.Schema.TagLists
import RealWorld.Transactional.Rely

/-!
# What an id stands for

Clients hold ids and slugs across requests while others rename, edit and delete. Between any two moments of
any interleaving an id stands for the same thing or for nothing: a user stays, an article keeps its author, its
creation time and its tags until it is deleted, a comment and a tag never change.
-/

namespace RealWorld
open Schema Transactional Relational

/-- What a title, a text or a new slug does not make another article. -/
def Schema.Article.Same (a a' : Article) : Prop := a.authorId = a'.authorId ∧ a.createdAt = a'.createdAt

structure Schema.Store.Precedes (s s' : Store) : Prop where
  sequences : s.toSequences.Drawn s'.toSequences
  users : Descends (·.userId) (fun _ _ => True) s.usersSeq s.users s'.users
  usersKept : ∀ u ∈ s.users, ∃ u' ∈ s'.users, u'.userId = u.userId
  articles : Descends (·.articleId) Article.Same s.articlesSeq s.articles s'.articles
  comments : Descends (·.commentId) Eq s.commentsSeq s.comments s'.comments
  tags : Descends (·.tagId) Eq s.tagsSeq s.tags s'.tags
  tagsKept : s.tags ⊆ s'.tags
  articleTags : ∀ l : ArticleTag, l.articleId ≤ s.articlesSeq → (∃ a' ∈ s'.articles, a'.articleId = l.articleId) →
    (l ∈ s'.articleTags ↔ l ∈ s.articleTags)

section
variable {loc : DbLocale} {m : Moment} {s s' s'' : Store}

theorem Schema.Article.Same.refl (a : Article) : a.Same a := ⟨rfl, rfl⟩

theorem Schema.Article.Same.trans {a b c : Article} (first : a.Same b) (second : b.Same c) : a.Same c :=
  ⟨first.1.trans second.1, first.2.trans second.2⟩

theorem Schema.Store.Precedes.refl (s : Store) : s.Precedes s where
  sequences := .refl _
  users := .refl (fun _ => trivial) _ _
  usersKept u member := ⟨u, member, rfl⟩
  articles := .refl Article.Same.refl _ _
  comments := .refl (fun _ => rfl) _ _
  tags := .refl (fun _ => rfl) _ _
  tagsKept _ member := member
  articleTags _ _ _ := .rfl

theorem Schema.Store.Precedes.trans (first : s.Precedes s') (second : s'.Precedes s'') : s.Precedes s'' where
  sequences := first.sequences.trans second.sequences
  users := first.users.trans (fun _ _ _ _ _ => trivial) (first.sequences.grown .users) second.users
  usersKept u member := by
    obtain ⟨u', member', same⟩ := first.usersKept u member
    obtain ⟨u'', member'', same'⟩ := second.usersKept u' member'
    exact ⟨u'', member'', same'.trans same⟩
  articles := first.articles.trans (fun _ _ _ => .trans) (first.sequences.grown .articles) second.articles
  comments := first.comments.trans (fun _ _ _ => Eq.trans) (first.sequences.grown .comments) second.comments
  tags := first.tags.trans (fun _ _ _ => Eq.trans) (first.sequences.grown .tags) second.tags
  tagsKept _ member := second.tagsKept (first.tagsKept member)
  articleTags l old := by
    rintro ⟨a'', member'', same⟩
    have grown : l.articleId ≤ s'.articlesSeq := old.trans (first.sequences.grown .articles)
    obtain ⟨a', member', same', _⟩ := second.articles a'' member'' (same.le.trans grown)
    exact (second.articleTags l grown ⟨a'', member'', same⟩).trans
      (first.articleTags l old ⟨a', member', same'.trans same⟩)

/-- A statement that fails may still have drawn from a sequence. -/
theorem Schema.Store.Precedes.drawn (same : s'.toTables = s.toTables) (drawn : s.toSequences.Drawn s'.toSequences) :
    s.Precedes s' := by
  obtain ⟨t', q'⟩ := s'
  obtain rfl : t' = s.toTables := same
  exact { Store.Precedes.refl s with sequences := drawn }

theorem addNewArticle_precedes (h : Valid loc s) {title slug description body : String} {authorId articleId : Int}
    {tagList : Option (List String)} (text : storable slug) (drawn : s.toSequences.Drawn s'.toSequences)
    (done : addNewArticle m title slug description body authorId tagList s = .ok articleId s') : s.Precedes s' := by
  obtain ⟨⟨gained, tags, names⟩, _⟩ := addNewArticle_tagged h text done
  obtain ⟨fresh, links, linked, store⟩ := addNewArticle_store done
  have users := congrArg (fun t : Store => t.users) store
  have articles := congrArg (fun t : Store => t.articles) store
  have comments := congrArg (fun t : Store => t.comments) store
  have articleTags : s'.articleTags = s.articleTags ++ links := congrArg (fun t : Store => t.articleTags) store
  have base := Store.Precedes.refl s
  exact {
    sequences := drawn
    users := by
      rw [users]
      exact base.users
    usersKept := by
      rw [users]
      exact base.usersKept
    articles := by
      rw [articles]
      refine .append Article.Same.refl fun a new => ?_
      rw [List.mem_singleton.mp new]
      show s.articlesSeq < articleId
      omega
    comments := by
      rw [comments]
      exact base.comments
    tags := by
      rw [tags]
      exact .append (fun _ => rfl) names.fresh
    tagsKept := by
      rw [tags]
      exact List.subset_append_left _ _
    articleTags := fun l old _ => by
      rw [articleTags, List.mem_append]
      refine or_iff_left fun new => ?_
      have own := linked l new
      omega }

theorem deleteArticleBySlug_precedes {slug : String} {authorId : Int} {u : Unit}
    (h : Valid loc s) (done : deleteArticleBySlug slug authorId s = .ok u s') : s.Precedes s' := by
  obtain ⟨_, rfl⟩ := deleteArticleBySlug_ok.mp done
  exact { Store.Precedes.refl s with
    articles := .sublist Article.Same.refl List.filter_sublist
    comments := .sublist (fun _ => rfl) List.filter_sublist
    articleTags := fun l _ remains => by
      obtain ⟨a, kept, same⟩ := remains
      obtain ⟨member, unhit⟩ := List.mem_filter.mp kept
      rw [List.mem_filter, decide_eq_true_eq]
      refine and_iff_left fun owned => ?_
      obtain ⟨b, mem, hit, same'⟩ := mem_ownedBySlug.mp owned
      rw [article_eq h.toConstraints member mem (same.trans same'.symm), Bool.not_eq_true',
        decide_eq_false_iff_not] at unhit
      exact unhit hit }

theorem Schema.Effect.precedes (h : Valid loc s) {q : Sql} {rows : List q.Row} (texts : q.texts.all storable)
    (drawn : s.toSequences.Drawn s'.toSequences) (effect : Effect loc m s q rows s') : s.Precedes s' := by
  have base := Store.Precedes.refl s
  cases effect with
  | addNewArticle done =>
    have text := List.all_eq_true.mp texts
    exact addNewArticle_precedes h (text _ (by simp [Sql.texts])) drawn done
  | follow done =>
    obtain ⟨_, _, _, rfl⟩ := follow_ok.mp done
    exact { base with }
  | unfollow done =>
    obtain rfl := unfollow_ok.mp done
    exact { base with }
  | favoriteArticle done =>
    obtain ⟨_, _, _, _, _, rfl⟩ := favoriteArticle_ok.mp done
    exact { base with }
  | unfavoriteArticle done =>
    obtain ⟨_, _, rfl⟩ := unfavoriteArticle_ok.mp done
    exact { base with }
  | updateArticleBySlug done =>
    obtain ⟨_, _, rfl⟩ := updateArticleBySlug_ok.mp done
    exact { base with
      articles := by
        refine .map (fun a => ?_) fun a _ => ?_
        · split <;> rfl
        · split
          · exact ⟨rfl, rfl⟩
          · exact .refl a
      articleTags := fun _ _ _ => .rfl }
  | deleteArticleBySlug done => exact deleteArticleBySlug_precedes h done
  | addNewUser done =>
    obtain ⟨_, _, _, _, _, _, _, rfl⟩ := insertUsers_ok.mp done
    exact { base with
      sequences := drawn
      users := .append (fun _ => trivial) fun u new => by
        rw [List.mem_singleton.mp new]
        exact Int.lt_add_one_of_le le_rfl
      usersKept := fun u member => ⟨u, List.mem_append_left _ member, rfl⟩ }
  | updateUserById done =>
    obtain ⟨_, _, rfl⟩ := updateUserById_ok.mp done
    exact { base with
      users := by
        refine .map (fun u => ?_) fun _ _ => trivial
        split <;> rfl
      usersKept := fun u member => by
        refine ⟨_, List.mem_map_of_mem member, ?_⟩
        split <;> rfl }
  | addNewComment done =>
    obtain ⟨_, _, articleId, _, _, _, _, _, rfl⟩ := addCommentToArticle_ok.mp done
    exact { base with
      sequences := drawn
      comments := .append (fun _ => rfl) fun c new => by
        rw [List.mem_singleton.mp new]
        exact Int.lt_add_one_of_le le_rfl }
  | deleteComment done =>
    obtain ⟨_, _, rfl⟩ := deleteComment_ok.mp done
    exact { base with comments := .sublist (fun _ => rfl) List.filter_sublist }

theorem Schema.Sql.exec_precedes (h : Valid loc s) (q : Sql) : s.Precedes (q.exec loc m s).2 := by
  have drawn : s.toSequences.Drawn (q.exec loc m s).2.toSequences := Sql.exec_draws q
  have executed : q.exec loc m s = ((q.exec loc m s).1, (q.exec loc m s).2) := rfl
  rcases Sql.exec_cases executed with same | ⟨rows, answered, _, effect⟩
  · exact .drawn same drawn
  · rw [answered] at executed
    have texts := (Sql.exec_ok.mp executed).1
    exact effect.precedes h texts drawn

end

theorem precedes_guaranteed (loc : DbLocale) :
    Guaranteed (Sql.exec loc) fun s s' => Valid loc s → Valid loc s' ∧ s.Precedes s' where
  refl s valid := ⟨valid, .refl s⟩
  trans first second valid := by
    obtain ⟨valid', before⟩ := first valid
    obtain ⟨valid'', after⟩ := second valid'
    exact ⟨valid'', before.trans after⟩
  step q _ _ valid := ⟨valid.exec q, Sql.exec_precedes valid q⟩

/-- What is stored at one moment of any interleaving, seen from any later one. -/
theorem ids_stand_for {svc : Service} {c c' : Configuration} {es : List (Event Sql Sql.Res Store)}
    (reachable : ReachableConfig svc c) (run : Interleaving svc c es c') : c.store.Precedes c'.store := by
  obtain ⟨valid, _⟩ := reachable.valid run
  exact (run.within (precedes_guaranteed svc.loc) valid).2

/-- anna deletes her article and publishes another one under the same title. -/
def sampleRepublishing : List (Move Call Moment) :=
  [.arrive (sampleCall .deleteArticlesSlug 1 [("slug", "hello-there")]), sampleStep 3, sampleStep 3,
    .arrive (samplePublish 1 "Hello there"), sampleStep 4]

def sampleRepublished : List (Event Sql Sql.Res Store) × Configuration := sampleSchedule sampleRepublishing samplePrepared

/-- The slug names an article again, but no id that was in use does. -/
theorem ids_stand_for_sample :
    samplePrepared.store.articles.map (fun a => (a.articleId, a.slug)) = [(1, "hello-there")] ∧
      sampleRepublished.2.store.articles.map (fun a => (a.articleId, a.slug)) = [(2, "hello-there")] ∧
      samplePrepared.store.Precedes sampleRepublished.2.store := by
  refine ⟨by decide +kernel, by decide +kernel, ?_⟩
  have reachable : ReachableConfig sample samplePrepared := ⟨_, sampleSchedule_trace sampleSetup ⟨Store.empty, []⟩⟩
  have run : Interleaving sample samplePrepared sampleRepublished.1 sampleRepublished.2 :=
    sampleSchedule_trace sampleRepublishing samplePrepared
  exact ids_stand_for reachable run

end RealWorld
