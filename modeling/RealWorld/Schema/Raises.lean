import RealWorld.Schema.Lookups
import RealWorld.Schema.Widths

/-!
# Which errors a statement raises

The checks of a stored function run in order, and the first that fails decides the error. Where only
violations of some constraints are expected, every other check has to hold.
-/

namespace RealWorld.Schema
open Relational

/-- Started from `s`, the transaction fails with an error in `expected` if it fails at all. -/
def RaisesOnly (expected : DbError → Prop) {α : Type} (t : Txn α) (s : Store) : Prop :=
  ∀ e s', t s = .error e s' → expected e

/-- Whatever the moment, the statement fails with an error in `expected` if it fails at all. -/
def Sql.RaisesOnly (expected : DbError → Prop) (loc : DbLocale) (s : Store) (q : Sql) : Prop :=
  ∀ m e s', q.exec loc m s = (.error e, s') → expected e

/-- A violation of one of these UNIQUE constraints. -/
def Taken (constraints : List String) : DbError → Prop
  | .uniqueViolation constraint => constraint ∈ constraints
  | _ => False

instance (constraints : List String) : DecidablePred (Taken constraints) := fun
  | .uniqueViolation constraint => inferInstanceAs (Decidable (constraint ∈ constraints))
  | .foreignKeyViolation _ | .notNullViolation _ | .stringDataRightTruncation | .invalidByteSequence
  | .cardinalityViolation | .invalidRowCount | .sequenceExhausted => inferInstanceAs (Decidable False)

section
variable {expected : DbError → Prop} {α β : Type} {s : Store}

theorem raisesOnly_pure {a : α} : RaisesOnly expected (pure a : Txn α) s := by
  intro e s' failed
  cases failed

theorem raisesOnly_final_set {t : Store} : RaisesOnly expected (set t : Txn PUnit) s := by
  intro e s' failed
  cases failed

/-- After a step that succeeds the rest decides. -/
theorem raisesOnly_after {t : Txn α} {f : α → Txn β} {a : α} {s₁ : Store} (done : t s = .ok a s₁) :
    RaisesOnly expected (t >>= f) s ↔ RaisesOnly expected (f a) s₁ := by
  unfold RaisesOnly
  rw [bind_of_ok done]

theorem raisesOnly_failed {t : Txn α} {f : α → Txn β} {e : DbError} {s₁ : Store}
    (failed : t s = .error e s₁) : RaisesOnly expected (t >>= f) s ↔ expected e := by
  unfold RaisesOnly
  rw [bind_of_error failed]
  constructor
  · exact fun h => h e s₁ rfl
  · intro isExpected e' s' same
    cases same
    exact isExpected

theorem raisesOnly_bind {t : Txn α} {f : α → Txn β} : RaisesOnly expected (t >>= f) s ↔
    RaisesOnly expected t s ∧ ∀ a s₁, t s = .ok a s₁ → RaisesOnly expected (f a) s₁ := by
  cases result : t s with
  | ok a s₁ =>
    rw [raisesOnly_after result]
    constructor
    · intro rest
      constructor
      · intro e s' failed
        rw [result] at failed
        cases failed
      · intro b s₂ same
        cases same
        exact rest
    · exact fun h => h.2 a s₁ rfl
  | error e s₁ =>
    rw [raisesOnly_failed result]
    constructor
    · intro isExpected
      refine ⟨fun e' s' failed => ?_, nofun⟩
      rw [result] at failed
      cases failed
      exact isExpected
    · exact fun h => h.1 e s₁ result

theorem raisesOnly_throw_bind {e : DbError} {f : α → Txn β} :
    RaisesOnly expected (throw e >>= f) s ↔ expected e := raisesOnly_failed rfl

theorem raisesOnly_get {f : Store → Txn β} :
    RaisesOnly expected (get >>= f) s ↔ RaisesOnly expected (f s) s := Iff.rfl

theorem raisesOnly_set {t : Store} {f : PUnit → Txn β} :
    RaisesOnly expected (set t >>= f) s ↔ RaisesOnly expected (f ()) t := Iff.rfl

theorem raisesOnly_check {holds : Prop} [Decidable holds] {e : DbError} (unexpected : ¬ expected e)
    {f : Unit → Txn β} : RaisesOnly expected ((if holds then pure () else throw e : Txn Unit) >>= f) s ↔
      holds ∧ RaisesOnly expected (f ()) s := by
  by_cases held : holds
  · rw [if_pos held]
    exact ⟨fun rest => ⟨held, rest⟩, fun h => h.2⟩
  · rw [if_neg held, raisesOnly_throw_bind]
    exact ⟨fun isExpected => absurd isExpected unexpected, fun h => absurd h.1 held⟩

/-- A check whose failure is expected ends the function early. -/
theorem raisesOnly_check_expected {holds : Prop} [Decidable holds] {e : DbError} (isExpected : expected e)
    {f : Unit → Txn β} : RaisesOnly expected ((if holds then pure () else throw e : Txn Unit) >>= f) s ↔
      (holds → RaisesOnly expected (f ()) s) := by
  by_cases held : holds
  · rw [if_pos held]
    exact ⟨fun rest _ => rest, fun h => h held⟩
  · rw [if_neg held, raisesOnly_throw_bind]
    exact ⟨fun _ here => absurd here held, fun _ => isExpected⟩

theorem raisesOnly_nextval (unexpected : ¬ expected .sequenceExhausted) {serial : Serial} {f : Int → Txn β} :
    RaisesOnly expected (nextval serial >>= f) s ↔ s.last serial < maxInt ∧
      RaisesOnly expected (f (s.last serial + 1)) { s with toSequences := s.toSequences.advance serial } := by
  by_cases below : s.last serial < maxInt
  · rw [raisesOnly_after (if_pos below)]
    exact ⟨fun rest => ⟨below, rest⟩, fun h => h.2⟩
  · rw [raisesOnly_failed (if_neg below)]
    exact ⟨fun isExpected => absurd isExpected unexpected, fun h => absurd h.1 below⟩

theorem atomically_raisesOnly {t : Txn α} :
    (∀ e s', atomically t s = (.error e, s') → expected e) ↔ RaisesOnly expected t s := by
  unfold atomically RaisesOnly
  cases t s with
  | ok a s₁ => exact ⟨fun _ => nofun, fun _ => nofun⟩
  | error e₁ s₁ =>
    constructor
    · rintro h e s' ⟨⟩
      exact h e₁ _ rfl
    · rintro h e s' ⟨⟩
      exact h e₁ _ rfl

theorem singleton_raisesOnly {t : Txn α} :
    (∀ e s', atomically (List.singleton <$> t) s = (.error e, s') → expected e) ↔
      RaisesOnly expected t s := by
  have done : ∀ a s₁, RaisesOnly expected (pure (List.singleton a) : Txn (List α)) s₁ :=
    fun _ _ => raisesOnly_pure
  rw [atomically_raisesOnly, map_eq_pure_bind, raisesOnly_bind, and_iff_left fun a s₁ _ => done a s₁]

theorem RaisesOnly.bind {t : Txn α} {f : α → Txn β} (first : RaisesOnly expected t s)
    (rest : ∀ a s₁, RaisesOnly expected (f a) s₁) : RaisesOnly expected (t >>= f) s :=
  raisesOnly_bind.mpr ⟨first, fun a s₁ _ => rest a s₁⟩

theorem RaisesOnly.get_bind {f : Store → Txn β} (rest : RaisesOnly expected (f s) s) :
    RaisesOnly expected (get >>= f) s := rest

theorem RaisesOnly.nextval_bind {serial : Serial} {f : Int → Txn β} (isExpected : expected .sequenceExhausted)
    (rest : RaisesOnly expected (f (s.last serial + 1)) { s with toSequences := s.toSequences.advance serial }) :
    RaisesOnly expected (nextval serial >>= f) s := by
  refine raisesOnly_bind.mpr ⟨fun e s' failed => ?_, fun a s₁ done => ?_⟩
  · unfold nextval at failed
    split at failed
    · cases failed
    · cases failed
      exact isExpected
  · unfold nextval at done
    split at done
    · cases done
      exact rest
    · cases done

theorem RaisesOnly.held {holds : Prop} [Decidable holds] {e : DbError} (here : holds) :
    RaisesOnly expected (if holds then pure () else throw e : Txn Unit) s := by
  rw [if_pos here]
  exact raisesOnly_pure

theorem RaisesOnly.check {holds : Prop} [Decidable holds] {e : DbError} (fails : ¬ holds → expected e) :
    RaisesOnly expected (if holds then pure () else throw e : Txn Unit) s := by
  intro e' s' failed
  split at failed
  · cases failed
  · rename_i broken
    cases failed
    exact fails broken

theorem RaisesOnly.notNull {column : String} {o : Option α} (isExpected : expected (.notNullViolation column)) :
    RaisesOnly expected (notNull column o) s := by
  intro e s' failed
  cases o with
  | none =>
    cases failed
    exact isExpected
  | some a => cases failed

theorem RaisesOnly.scalar {rows : List α} (isExpected : expected .cardinalityViolation) :
    RaisesOnly expected (scalar rows) s := by
  intro e s' failed
  match rows with
  | [] => cases failed
  | [_] => cases failed
  | _ :: _ :: _ =>
    cases failed
    exact isExpected

theorem RaisesOnly.forM {rows : List α} {check : α → Txn PUnit} (each : ∀ r s, RaisesOnly expected (check r) s) :
    RaisesOnly expected (rows.forM check) s := by
  induction rows generalizing s with
  | nil => exact raisesOnly_pure
  | cons r rows ih =>
    rw [List.forM_eq_forM, List.forM_cons]
    exact .bind (each r s) fun _ _ => ih

theorem raisesOnly_last_check {holds : Prop} [Decidable holds] {e : DbError}
    (isExpected : expected e) : RaisesOnly expected (if holds then pure () else throw e : Txn Unit) s := by
  intro e' s' failed
  split at failed
  · cases failed
  · cases failed
    exact isExpected

end

/-! ### Tags and their links -/

section
variable {expected : DbError → Prop} {s : Store}

theorem insertTags_errors (exhausted : expected .sequenceExhausted) (wide : expected .stringDataRightTruncation)
    {names : List String} : RaisesOnly expected (insertTags names) s := by
  induction names generalizing s with
  | nil => exact raisesOnly_pure
  | cons name names ih =>
    refine .nextval_bind exhausted <| .bind (raisesOnly_last_check wide) fun _ _ => ?_
    exact .get_bind <| .bind raisesOnly_final_set fun _ _ => ih

theorem insertArticleTags_errors (linked : expected (.uniqueViolation "pk_article_tags"))
    (article : expected (.foreignKeyViolation "fk_article")) (tag : expected (.foreignKeyViolation "fk_tag"))
    {articleId : Int} {tagList : List String} : RaisesOnly expected (insertArticleTags articleId tagList) s :=
  .get_bind <| .bind (raisesOnly_last_check linked) fun _ _ => .bind (raisesOnly_last_check article) fun _ _ =>
    .bind (raisesOnly_last_check tag) fun _ _ => raisesOnly_final_set

end

/-! ### A new article -/

section
variable {loc : DbLocale} {m : Moment} {s s' : Store} {title slug description body : String}
  {authorId : Int}

theorem insertArticles_raisesOnly (h : Valid loc s) :
    RaisesOnly (Taken ["uniq_slug"]) (insertArticles m title slug description body authorId) s ↔
      s.articlesSeq < maxInt ∧ title.length ≤ 255 ∧ slug.length ≤ 255 ∧
        ((∀ a ∈ s.articles, a.slug ≠ slug) → ∃ u ∈ s.users, u.userId = authorId) := by
  have fresh : ∀ a ∈ s.articles, a.articleId ≠ s.articlesSeq + 1 := by
    intro a member
    have bounded := (h.serial_articles a member).2
    omega
  simp only [insertArticles, varchar, unique, foreignKey]
  rw [raisesOnly_nextval (by decide), raisesOnly_check (by decide), raisesOnly_check (by decide),
    raisesOnly_get, raisesOnly_check (by decide), raisesOnly_check_expected (by decide),
    raisesOnly_check (by decide), raisesOnly_set]
  dsimp only
  rw [nodup_map_concat_iff h.pk_articles, nodup_map_concat_iff h.uniq_slug]
  refine and_congr_right fun _ => and_congr_right fun _ => and_congr_right fun _ => ?_
  constructor
  · exact fun checks free => (checks.2 free).1
  · exact fun author => ⟨fresh, fun free => ⟨author free, raisesOnly_pure⟩⟩

/-- The id of an article that is refused for its slug has been drawn. -/
theorem addNewArticle_taken (h : Valid loc s) (room : s.articlesSeq < maxInt) (fitsTitle : title.length ≤ 255)
    (fitsSlug : slug.length ≤ 255) (taken : ∃ a ∈ s.articles, a.slug = slug) {tagList : Option (List String)} :
    addNewArticle m title slug description body authorId tagList s =
      .error (.uniqueViolation "uniq_slug") { s with articlesSeq := s.articlesSeq + 1 } := by
  have fresh : ∀ a ∈ s.articles, a.articleId ≠ s.articlesSeq + 1 := by
    intro a member
    have bounded := (h.serial_articles a member).2
    omega
  refine bind_of_error ?_
  have drawn : nextval .articles s = .ok (s.articlesSeq + 1) { s with articlesSeq := s.articlesSeq + 1 } := if_pos room
  refine (bind_of_ok drawn).trans ?_
  refine (bind_of_ok (check_pass fitsTitle)).trans ((bind_of_ok (check_pass fitsSlug)).trans ?_)
  refine (bind_of_ok (check_pass (nodup_map_concat h.pk_articles fresh))).trans (bind_of_error (check_fail ?_))
  obtain ⟨a, member, same⟩ := taken
  exact fun distinct => (nodup_map_concat_iff h.uniq_slug).mp distinct a member same

theorem insertTags_raisesOnly {names : List String} (bounded : s.tagsSeq ≤ maxInt) :
    RaisesOnly (Taken ["uniq_slug"]) (insertTags names) s ↔
      s.tagsSeq + names.length ≤ maxInt ∧ ∀ name ∈ names, name.length ≤ 255 := by
  induction names generalizing s with
  | nil => simp [insertTags, raisesOnly_pure, bounded]
  | cons name names ih =>
    simp only [insertTags, varchar]
    rw [raisesOnly_nextval (by decide), raisesOnly_check (by decide), raisesOnly_get, raisesOnly_set,
      List.forall_mem_cons, List.length_cons]
    dsimp only
    have next : ∀ t : Store, t.tagsSeq = s.tagsSeq + 1 →
        (s.tagsSeq < maxInt ∧ name.length ≤ 255 ∧ RaisesOnly (Taken ["uniq_slug"]) (insertTags names) t ↔
          s.tagsSeq + (names.length + 1 : Nat) ≤ maxInt ∧ name.length ≤ 255 ∧
            ∀ name ∈ names, name.length ≤ 255) := by
      intro t drawn
      constructor
      · rintro ⟨below, fits, rest⟩
        obtain ⟨room, all⟩ := (ih (by omega)).mp rest
        exact ⟨by omega, fits, all⟩
      · rintro ⟨room, fits, all⟩
        exact ⟨by omega, fits, (ih (by omega)).mpr ⟨by omega, all⟩⟩
    split <;> exact next _ rfl

/-- The links of a new article: nothing can be linked to its id yet. -/
theorem insertArticleTags_raises {expected : DbError → Prop} (h : Constraints loc s.toTables) {articleId : Int}
    {tagList : List String} (present : ∃ a ∈ s.articles, a.articleId = articleId)
    (unlinked : ∀ l ∈ s.articleTags, l.articleId ≠ articleId) :
    RaisesOnly expected (insertArticleTags articleId tagList) s := by
  let links := (s.tags.filter fun tag => ∃ name ∈ tagList, tag.name = some name).map fun tag =>
    { articleId := articleId, tagId := tag.tagId : ArticleTag }
  have pk : (s.articleTags ++ links).Nodup := by
    rw [List.nodup_append]
    refine ⟨h.pk_article_tags, ?_, ?_⟩
    · have ids : ((s.tags.filter fun tag => ∃ name ∈ tagList, tag.name = some name).map (·.tagId)).Nodup :=
        h.pk_tags.sublist (List.filter_sublist.map _)
      refine List.Nodup.of_map (·.tagId) ?_
      rw [List.map_map]
      exact ids
    · intro l old l' new same
      obtain ⟨tag, _, rfl⟩ := List.mem_map.mp new
      exact unlinked l old (same ▸ rfl)
  have article : ∀ l ∈ links, ∃ a ∈ s.articles, a.articleId = l.articleId := by
    intro l member
    obtain ⟨tag, _, rfl⟩ := List.mem_map.mp member
    exact present
  have tag : ∀ l ∈ links, ∃ tag ∈ s.tags, tag.tagId = l.tagId := by
    intro l member
    obtain ⟨tag, mem, rfl⟩ := List.mem_map.mp member
    exact ⟨tag, (List.mem_filter.mp mem).1, rfl⟩
  have done : insertArticleTags articleId tagList s = .ok () { s with articleTags := s.articleTags ++ links } :=
    insertArticleTags_ok.mpr ⟨pk, article, tag, rfl⟩
  intro e s' failed
  rw [done] at failed
  cases failed

/-- Once the article is stored, only its tags can be refused. -/
theorem tagNewArticle_raisesOnly (h : Valid loc s) (text : storable slug) {articleId : Int}
    (stored : insertArticles m title slug description body authorId s = .ok articleId s') (names : List String) :
    RaisesOnly (Taken ["uniq_slug"]) (do
      insertTags names
      insertArticleTags articleId names
      return articleId) s' ↔
      s.tagsSeq + names.length ≤ maxInt ∧ ∀ name ∈ names, name.length ≤ 255 := by
  have valid := h.insertArticles text stored
  obtain ⟨_, _, _, _, _, _, rfl, rfl⟩ := insertArticles_ok.mp stored
  rw [raisesOnly_bind, insertTags_raisesOnly (valid.ended .tags)]
  refine and_iff_left fun _ s₂ tagged => ?_
  have kept := insertTags_frame tagged
  have articles := congrArg (fun t : Store => t.articles) kept
  have articleTags := congrArg (fun t : Store => t.articleTags) kept
  refine raisesOnly_bind.mpr ⟨insertArticleTags_raises (valid.insertTags tagged).toConstraints ?_ ?_,
    fun _ _ _ => raisesOnly_pure⟩
  · rw [articles]
    exact ⟨_, List.mem_concat_self, rfl⟩
  · rw [articleTags]
    intro l member same
    obtain ⟨a, mem, id⟩ := h.article_tags_fk_article l member
    have bounded := (h.serial_articles a mem).2
    omega

/-- A new article is stored or its slug is taken, if the ids suffice, the texts fit and the author is
there. -/
theorem addNewArticle_raisesOnly (h : Valid loc s) (text : storable slug) {tagList : Option (List String)} :
    RaisesOnly (Taken ["uniq_slug"]) (addNewArticle m title slug description body authorId tagList) s ↔
      s.articlesSeq < maxInt ∧ title.length ≤ 255 ∧ slug.length ≤ 255 ∧
        ((∀ a ∈ s.articles, a.slug ≠ slug) → (∃ u ∈ s.users, u.userId = authorId) ∧
          s.tagsSeq + (tagList.getD []).length ≤ maxInt ∧ ∀ tag ∈ tagList.getD [], tag.length ≤ 255) := by
  rw [addNewArticle, raisesOnly_bind, insertArticles_raisesOnly h]
  have fresh : ∀ a ∈ s.articles, a.articleId ≠ s.articlesSeq + 1 := by
    intro a member
    have bounded := (h.serial_articles a member).2
    omega
  constructor
  · rintro ⟨⟨room, fitsTitle, fitsSlug, author⟩, tagged⟩
    refine ⟨room, fitsTitle, fitsSlug, fun free => ⟨author free, ?_⟩⟩
    obtain ⟨s₁, stored⟩ : ∃ s₁, insertArticles m title slug description body authorId s =
        .ok (s.articlesSeq + 1) s₁ :=
      ⟨_, insertArticles_ok.mpr ⟨room, fitsTitle, fitsSlug, nodup_map_concat h.pk_articles fresh,
        nodup_map_concat h.uniq_slug free, author free, rfl, rfl⟩⟩
    exact (tagNewArticle_raisesOnly h text stored _).mp (tagged _ _ stored)
  · rintro ⟨room, fitsTitle, fitsSlug, rest⟩
    refine ⟨⟨room, fitsTitle, fitsSlug, fun free => (rest free).1⟩, fun articleId s₁ stored => ?_⟩
    refine (tagNewArticle_raisesOnly h text stored _).mpr (rest ?_).2
    obtain ⟨_, _, _, _, distinct, _⟩ := insertArticles_ok.mp stored
    exact (nodup_map_concat_iff h.uniq_slug).mp distinct

/-- A slug that is free is not what a new article is refused for. -/
theorem addNewArticle_free (h : Valid loc s) (free : ∀ a ∈ s.articles, a.slug ≠ slug) {tagList : Option (List String)} :
    RaisesOnly (· ≠ .uniqueViolation "uniq_slug") (addNewArticle m title slug description body authorId tagList) s := by
  refine .bind (.nextval_bind nofun ?_) fun _ _ => .bind (insertTags_errors nofun nofun) fun _ _ =>
    .bind (insertArticleTags_errors (by decide) nofun nofun) fun _ _ => raisesOnly_pure
  refine (raisesOnly_check_expected nofun).mpr fun _ => (raisesOnly_check_expected nofun).mpr fun _ => .get_bind ?_
  refine .bind (raisesOnly_last_check (by decide)) fun _ _ => .bind (.held (nodup_map_concat h.uniq_slug free)) fun _ _ => ?_
  exact .bind (raisesOnly_last_check nofun) fun _ _ => .bind raisesOnly_final_set fun _ _ => raisesOnly_pure

theorem addNewArticle_ids {articleId : Int} {tagList : Option (List String)} (h : Valid loc s)
    (done : addNewArticle m title slug description body authorId tagList s = .ok articleId s') :
    s.articlesSeq < maxInt ∧ (∀ a ∈ s.articles, a.slug ≠ slug) ∧ (∃ u ∈ s.users, u.userId = authorId) ∧
      s.tagsSeq + (tagList.getD []).length ≤ maxInt := by
  obtain ⟨s₁, s₂, first, second, _⟩ := addNewArticle_ok.mp done
  obtain ⟨room, _, _, _, distinct, author, rfl, rfl⟩ := insertArticles_ok.mp first
  exact ⟨room, (nodup_map_concat_iff h.uniq_slug).mp distinct, author, ((insertTags_ok (by exact h.ended .tags)).mp second).1⟩

/-! ### Updates and registration -/

/-- An update of at most one row: its checks decide. -/
theorem raisesOnly_row {expected : DbError → Prop} {α β : Type} {row : Option α} {check : α → Txn PUnit}
    {t : Store} {b : β} : RaisesOnly expected (do
      row.toList.forM check
      set t
      return b) s ↔ ∀ a, row = some a → RaisesOnly expected (check a) s := by
  have rest : ∀ s₁, RaisesOnly expected (do set t; return b : Txn β) s₁ := fun _ => raisesOnly_pure
  rw [raisesOnly_bind, and_iff_left fun _ s₁ _ => rest s₁]
  cases row with
  | none => exact ⟨nofun, fun _ => raisesOnly_pure⟩
  | some a =>
    show RaisesOnly expected (check a >>= fun _ => pure PUnit.unit) s ↔ _
    have done : ∀ s₁, RaisesOnly expected (pure PUnit.unit : Txn PUnit) s₁ := fun _ => raisesOnly_pure
    rw [raisesOnly_bind, and_iff_left fun _ s₁ _ => done s₁]
    constructor
    · rintro fits _ ⟨⟩
      exact fits
    · exact fun all => all a rfl

theorem updateArticleBySlug_raisesOnly (h : Constraints loc s.toTables) {oldSlug : String}
    {title newSlug description body : Option String} :
    RaisesOnly (Taken ["uniq_slug"])
      (updateArticleBySlug m oldSlug authorId title newSlug description body) s ↔
      ∀ a ∈ s.articles, a.slug = oldSlug ∧ a.authorId = authorId →
        (title.getD a.title).length ≤ 255 ∧ (newSlug.getD a.slug).length ≤ 255 := by
  obtain ⟨row, rows, hits⟩ : ∃ row : Option Article,
      (s.articles.filter fun a => a.slug = oldSlug ∧ a.authorId = authorId) = row.toList ∧
        ∀ a, row = some a ↔ a ∈ s.articles ∧ a.slug = oldSlug ∧ a.authorId = authorId := by
    have listed : ∀ row : Option Article,
        (s.articles.filter fun a => a.slug = oldSlug ∧ a.authorId = authorId) = row.toList →
        ∀ a, row = some a ↔ a ∈ s.articles ∧ a.slug = oldSlug ∧ a.authorId = authorId := by
      intro row rows a
      rw [← Option.mem_toList, ← rows, List.mem_filter, decide_eq_true_eq]
    by_cases hit : ∃ a ∈ s.articles, a.slug = oldSlug ∧ a.authorId = authorId
    · obtain ⟨a, member, rfl, rfl⟩ := hit
      exact ⟨some a, filter_hit h member, listed _ (filter_hit h member)⟩
    · have none : (s.articles.filter fun a => a.slug = oldSlug ∧ a.authorId = authorId) = [] :=
        List.filter_eq_nil_iff.mpr fun a member here => hit ⟨a, member, of_decide_eq_true here⟩
      exact ⟨Option.none, none, listed _ none⟩
  unfold updateArticleBySlug
  rw [raisesOnly_get]
  dsimp only
  rw [rows, raisesOnly_row]
  have checks : ∀ a : Article, RaisesOnly (Taken ["uniq_slug"]) (do
      varchar 255 (title.getD a.title)
      varchar 255 (newSlug.getD a.slug)
      unique "uniq_slug" ((s.articles.map fun a =>
        if decide (a.slug = oldSlug ∧ a.authorId = authorId) then a.update m title newSlug description body
        else a).map (·.slug))) s ↔
      (title.getD a.title).length ≤ 255 ∧ (newSlug.getD a.slug).length ≤ 255 := by
    intro a
    simp only [varchar, unique]
    rw [raisesOnly_check (by decide), raisesOnly_check (by decide)]
    exact and_congr_right fun _ => and_iff_left (raisesOnly_last_check (by decide))
  constructor
  · intro fits a member hit
    exact (checks a).mp (fits a ((hits a).mpr ⟨member, hit⟩))
  · intro fits a here
    obtain ⟨member, hit⟩ := (hits a).mp here
    exact (checks a).mpr (fits a member hit)

theorem insertUsers_raisesOnly (h : Valid loc s) {username email hash : String} :
    RaisesOnly (Taken ["uniq_username", "uniq_email"]) (insertUsers loc username email hash) s ↔
      s.usersSeq < maxInt ∧ email.length ≤ 255 ∧ hash.length ≤ 255 := by
  have fresh : ∀ u ∈ s.users, u.userId ≠ s.usersSeq + 1 := by
    intro u member
    have bounded := (h.serial_users u member).2
    omega
  simp only [insertUsers, varchar, unique]
  rw [raisesOnly_nextval (by decide), raisesOnly_check (by decide), raisesOnly_check (by decide),
    raisesOnly_get, raisesOnly_check (by decide), raisesOnly_check_expected (by decide),
    raisesOnly_check_expected (by decide), raisesOnly_set]
  dsimp only
  rw [nodup_map_concat_iff h.pk_users]
  exact and_congr_right fun _ => and_congr_right fun _ =>
    and_iff_left ⟨fresh, fun _ _ => raisesOnly_pure⟩

theorem updateUserById_raisesOnly (h : Constraints loc s.toTables) {userId : Int}
    {username email passwordHash bio image : Option String} :
    RaisesOnly (Taken ["uniq_username", "uniq_email"])
      (updateUserById loc userId username email passwordHash bio image) s ↔
      ∀ u ∈ s.users, u.userId = userId → (email.getD u.email).length ≤ 255 ∧
        (passwordHash.getD u.passwordHash).length ≤ 255 ∧ ((image <|> u.image).getD "").length ≤ 255 := by
  obtain ⟨row, rows⟩ : ∃ row : Option User, (s.users.filter fun u => u.userId = userId) = row.toList := by
    rcases filter_key_cases h.pk_users userId with ⟨none, _⟩ | ⟨u, _, _, one⟩
    · exact ⟨Option.none, none⟩
    · exact ⟨some u, one⟩
  have hits : ∀ u, row = some u ↔ u ∈ s.users ∧ u.userId = userId := by
    intro u
    rw [← Option.mem_toList, ← rows, List.mem_filter, decide_eq_true_eq]
  have mapped : row.toList.map (User.update username email passwordHash bio image) =
      (row.map (User.update username email passwordHash bio image)).toList := by
    cases row <;> rfl
  unfold updateUserById
  rw [raisesOnly_get]
  dsimp only
  rw [rows, mapped, raisesOnly_row]
  have checks : ∀ u : User, RaisesOnly (Taken ["uniq_username", "uniq_email"]) (do
      varchar 255 u.email
      varchar 255 u.passwordHash
      varchar 255 (u.image.getD "")
      unique "uniq_username" ((s.users.map fun u =>
        if u.userId = userId then u.update username email passwordHash bio image else u).map fun u =>
          loc.citextLower u.username)
      unique "uniq_email" ((s.users.map fun u =>
        if u.userId = userId then u.update username email passwordHash bio image else u).map (·.email))) s ↔
      u.email.length ≤ 255 ∧ u.passwordHash.length ≤ 255 ∧ (u.image.getD "").length ≤ 255 := by
    intro u
    simp only [varchar, unique]
    rw [raisesOnly_check (by decide), raisesOnly_check (by decide), raisesOnly_check (by decide),
      raisesOnly_check_expected (by decide)]
    exact and_congr_right fun _ => and_congr_right fun _ =>
      and_iff_left fun _ => raisesOnly_last_check (by decide)
  constructor
  · intro fits u member same
    refine (checks (u.update username email passwordHash bio image)).mp (fits _ ?_)
    rw [(hits u).mpr ⟨member, same⟩]
    rfl
  · intro fits v here
    obtain ⟨u, found, rfl⟩ := Option.map_eq_some_iff.mp here
    obtain ⟨member, same⟩ := (hits u).mp found
    exact (checks _).mpr (fits u member same)

end

end RealWorld.Schema
