import RealWorld.Properties.Tagging

/-!
# New articles start clean

An id comes from a sequence that no statement sets back, and whatever refers to an article refers to one that is
stored. So nothing is left of an earlier article, not even of one with the same slug.
-/

namespace RealWorld
open Schema Relational Transactional

/-- The stored article has just been created: nobody has marked it or commented on it, and its tags are `names`. -/
structure StartsClean (t : Tables) (a : Article) (names : List String) : Prop where
  stored : a ∈ t.articles
  untouched : a.createdAt = a.updatedAt
  unfavorited : ∀ f ∈ t.favorites, f.articleId ≠ a.articleId
  uncommented : ∀ c ∈ t.comments, c.articleId ≠ a.articleId
  tagged : Linked t a.articleId names

section
variable {loc : DbLocale} {m : Moment} {s s' : Store} {t : Tables} {a : Article} {names : List String}

/-- The id of a new article is past every id that a row can refer to. -/
theorem addNewArticle_clean (h : Valid loc s) {title slug description body : String} {authorId articleId : Int}
    {tagList : Option (List String)} (text : storable slug)
    (done : addNewArticle m title slug description body authorId tagList s = .ok articleId s') :
    ∃ a, s'.articles = s.articles ++ [a] ∧ a.articleId = articleId ∧ a.slug = slug ∧
      StartsClean s'.toTables a (tagList.getD []) := by
  obtain ⟨_, linked⟩ := addNewArticle_tagged h text done
  obtain ⟨fresh, links, _, store⟩ := addNewArticle_store done
  have articles := congrArg (fun t : Store => t.articles) store
  have favorites : s'.favorites = s.favorites := by rw [store]
  have comments : s'.comments = s.comments := by rw [store]
  have past : ∀ b ∈ s.articles, b.articleId ≠ articleId := by
    intro b member
    have bounded := (h.serial_articles b member).2
    omega
  refine ⟨_, articles, rfl, rfl, ?_, rfl, fun f member same => ?_, fun c member same => ?_, linked⟩
  · rw [articles]
    exact List.mem_concat_self
  · obtain ⟨b, stored, refers⟩ := h.favorites_fk_article f (favorites ▸ member)
    exact past b stored (refers.trans same)
  · obtain ⟨b, stored, refers⟩ := h.comments_fk_article c (comments ▸ member)
    exact past b stored (refers.trans same)

theorem StartsClean.favoritesOf (clean : StartsClean t a names) : favoritesOf t a.articleId = [] :=
  List.filter_eq_nil_iff.mpr fun f member => by simpa using clean.unfavorited f member

theorem StartsClean.isFavoritedArticle (clean : StartsClean t a names) (viewer : Option Int) :
    isFavoritedArticle t a.articleId viewer = false := by
  cases viewer with
  | none => exact isFavoritedArticle_none _
  | some userId =>
    rw [isFavoritedArticle_some, decide_eq_false_iff_not]
    exact fun member => clean.unfavorited _ member rfl

/-- Every single view of the article shows no favorites, and there is no comment to show. -/
theorem StartsClean.views (h : Constraints loc t) (clean : StartsClean t a names) (viewer : Option Int) :
    (∃ u ∈ t.users, u.userId = a.authorId ∧
      getArticleWithAuthorProfile loc t a.articleId viewer = [a.shown loc t false 0 (u.profile t viewer)] ∧
      getArticleWithAuthorProfileBySlug loc t a.slug viewer = [a.shown loc t false 0 (u.profile t viewer)]) ∧
    ∀ m : Moment, getCommentsFromArticle m t a.slug viewer = [] := by
  obtain ⟨u, mem, author, shown⟩ := getArticleWithAuthorProfile_of h clean.stored viewer
  rw [clean.favoritesOf, clean.isFavoritedArticle] at shown
  refine ⟨⟨u, mem, author, shown, (getArticleWithAuthorProfileBySlug_of h clean.stored viewer).trans shown⟩, fun m => ?_⟩
  rw [List.eq_nil_iff_forall_not_mem]
  intro row listed
  obtain ⟨⟨c, b⟩, scanned, _⟩ := List.mem_flatMap.mp listed
  obtain ⟨joined, slug⟩ := List.mem_filter.mp ((m.scan_perm _).subset scanned)
  obtain ⟨_, stored, pair⟩ := List.mem_flatMap.mp joined
  obtain ⟨b, found, same⟩ := List.mem_map.mp pair
  cases same
  obtain ⟨member, refers⟩ := List.mem_filter.mp found
  rw [key_inj h.uniq_slug member clean.stored (of_decide_eq_true slug)] at refers
  exact clean.uncommented c stored (of_decide_eq_true refers).symm

end

/-! ### Values of sequences -/

/-- The ids in the table that a sequence numbers. -/
def Schema.Serial.ids (t : Tables) : Serial → List Int
  | .users => t.users.map (·.userId)
  | .articles => t.articles.map (·.articleId)
  | .tags => t.tags.map (·.tagId)
  | .comments => t.comments.map (·.commentId)

/-- `id` is one of the values that the statement draws. -/
def DrawnBy (e : Event Sql Sql.Res Store) (serial : Serial) (id : Int) : Prop :=
  e.before.last serial < id ∧ id ≤ e.after.last serial

section
variable {loc : DbLocale} {m : Moment} {s s' : Store} {q : Sql} {rows : List q.Row} {serial : Serial} {id : Int}

theorem Schema.Valid.ids_drawn (h : Valid loc s) (member : id ∈ serial.ids s.toTables) : id ≤ s.last serial := by
  cases serial with
  | users =>
    obtain ⟨u, stored, rfl⟩ := List.mem_map.mp member
    exact (h.serial_users u stored).2
  | articles =>
    obtain ⟨a, stored, rfl⟩ := List.mem_map.mp member
    exact (h.serial_articles a stored).2
  | tags =>
    obtain ⟨tag, stored, rfl⟩ := List.mem_map.mp member
    exact (h.serial_tags tag stored).2
  | comments =>
    obtain ⟨c, stored, rfl⟩ := List.mem_map.mp member
    exact (h.serial_comments c stored).2

theorem Schema.Effect.ids_kept (undrawn : ¬ q.draws) (effect : Effect loc m s q rows s')
    (member : id ∈ serial.ids s'.toTables) : id ∈ serial.ids s.toTables := by
  cases effect with
  | addNewUser | addNewArticle | addNewComment => exact absurd trivial undrawn
  | follow done =>
    obtain ⟨_, _, _, rfl⟩ := follow_ok.mp done
    cases serial <;> exact member
  | unfollow done =>
    obtain rfl := unfollow_ok.mp done
    cases serial <;> exact member
  | favoriteArticle done =>
    obtain ⟨_, _, _, _, _, rfl⟩ := favoriteArticle_ok.mp done
    cases serial <;> exact member
  | unfavoriteArticle done =>
    obtain ⟨_, _, rfl⟩ := unfavoriteArticle_ok.mp done
    cases serial <;> exact member
  | updateArticleBySlug done =>
    obtain ⟨_, _, rfl⟩ := updateArticleBySlug_ok.mp done
    cases serial with
    | articles =>
      obtain ⟨_, updated, rfl⟩ := List.mem_map.mp member
      obtain ⟨r, stored, rfl⟩ := List.mem_map.mp updated
      refine List.mem_map.mpr ⟨r, stored, ?_⟩
      split <;> rfl
    | _ => exact member
  | updateUserById done =>
    obtain ⟨_, _, rfl⟩ := updateUserById_ok.mp done
    cases serial with
    | users =>
      obtain ⟨_, updated, rfl⟩ := List.mem_map.mp member
      obtain ⟨r, stored, rfl⟩ := List.mem_map.mp updated
      refine List.mem_map.mpr ⟨r, stored, ?_⟩
      split <;> rfl
    | _ => exact member
  | deleteArticleBySlug done =>
    obtain ⟨_, rfl⟩ := deleteArticleBySlug_ok.mp done
    cases serial with
    | articles | comments => exact (List.filter_sublist.map _).subset member
    | _ => exact member
  | deleteComment done =>
    obtain ⟨_, _, rfl⟩ := deleteComment_ok.mp done
    cases serial with
    | comments => exact (List.filter_sublist.map _).subset member
    | _ => exact member

/-- An id that a statement adds to a table is past all that were drawn before. -/
theorem Schema.Effect.ids_fresh (h : Valid loc s) (texts : q.texts.all storable) (effect : Effect loc m s q rows s')
    (member : id ∈ serial.ids s'.toTables) : id ∈ serial.ids s.toTables ∨ s.last serial < id := by
  have next : ∀ {drawn : Int}, id ∈ serial.ids s.toTables ++ [drawn] → s.last serial < drawn →
      id ∈ serial.ids s.toTables ∨ s.last serial < id := by
    intro drawn added past
    refine (List.mem_append.mp added).imp_right fun new => ?_
    rwa [List.mem_singleton.mp new]
  by_cases draws : q.draws
  · cases effect with
    | addNewUser done =>
      obtain ⟨_, _, _, _, _, _, rfl, rfl⟩ := insertUsers_ok.mp done
      cases serial with
      | users => exact next (by simpa [Serial.ids, Sequences.last] using member) (Int.lt_add_one_of_le le_rfl)
      | _ => exact .inl member
    | addNewArticle done =>
      have text := List.all_eq_true.mp texts
      obtain ⟨⟨gained, tags, names⟩, _⟩ := addNewArticle_tagged h (text _ (by simp [Sql.texts])) done
      obtain ⟨fresh, links, _, store⟩ := addNewArticle_store done
      cases serial with
      | users =>
        rw [store] at member
        exact .inl member
      | comments =>
        rw [store] at member
        exact .inl member
      | articles =>
        rw [store] at member
        exact next (by simpa [Serial.ids] using member) (fresh ▸ Int.lt_add_one_of_le le_rfl)
      | tags =>
        simp only [Serial.ids, tags, List.map_append, List.mem_append] at member ⊢
        refine member.imp_right fun new => ?_
        obtain ⟨tag, added, rfl⟩ := List.mem_map.mp new
        exact names.fresh tag added
    | addNewComment done =>
      obtain ⟨_, _, _, _, _, _, _, rfl, rfl⟩ := addCommentToArticle_ok.mp done
      cases serial with
      | comments => exact next (by simpa [Serial.ids, Sequences.last] using member) (Int.lt_add_one_of_le le_rfl)
      | _ => exact .inl member
    | _ => cases draws
  · exact .inl (effect.ids_kept draws member)

end

section
variable {svc : Service} {c c' : Configuration} {es : List (Event Sql Sql.Res Store)} {e : Event Sql Sql.Res Store}

theorem draws_guaranteed (loc : DbLocale) : Guaranteed (Sql.exec loc) fun s s' => s.toSequences.Drawn s'.toSequences where
  refl _ := .refl _
  trans first second := first.trans second
  step q _ _ := Sql.exec_draws q

theorem new_id_drawn (reachable : ReachableConfig svc c) (run : Interleaving svc c es c') (member : e ∈ es) {serial : Serial}
    {id : Int} (present : id ∈ serial.ids e.after.toTables) (absent : id ∉ serial.ids e.before.toTables) :
    DrawnBy e serial id := by
  obtain ⟨_, _, events⟩ := reachable.valid run
  obtain ⟨before, after⟩ := events e member
  obtain ⟨m, executed⟩ := run.executed e member
  refine ⟨?_, after.ids_drawn present⟩
  rcases Sql.exec_cases executed with same | ⟨rows, answered, _, effect⟩
  · exact absurd (same ▸ present) absent
  · rw [answered] at executed
    exact (effect.ids_fresh before (Sql.exec_ok.mp executed).1 present).resolve_left absent

/-- Between two events of a run no value of a sequence is drawn twice, and no id that has gone comes back. -/
def NeverReused (es : List (Event Sql Sql.Res Store)) : Prop :=
  es.Pairwise fun e e' => ∀ serial id, (DrawnBy e serial id → ¬ DrawnBy e' serial id) ∧
    (id ∈ serial.ids e.after.toTables → id ∉ serial.ids e'.before.toTables → id ∉ serial.ids e'.after.toTables)

theorem never_reused (reachable : ReachableConfig svc c) (run : Interleaving svc c es c') : NeverReused es := by
  obtain ⟨_, _, events⟩ := reachable.valid run
  refine (run.pairwise (draws_guaranteed svc.loc)).2.imp_of_mem fun {e e'} member member' since serial id => ?_
  have grown := since.grown serial
  constructor
  · intro first second
    have consumed := first.2
    have fresh := second.1
    omega
  · intro was gone again
    have consumed := (events e member).2.ids_drawn was
    have fresh := (new_id_drawn reachable run member' again gone).1
    omega

end

/-! ### The request for a new article -/

/-- What a creation returns and leaves behind. -/
def CreatesClean (svc : Service) (call : Call) (response : Response) (s s' : Store) : Prop :=
  ∃ (a : Article) (model : ArticleModel), s'.articles = s.articles ++ [a] ∧ StartsClean s'.toTables a call.loweredTags ∧
    response = ⟨200, articleBody svc model⟩ ∧ model.articleId = a.articleId ∧ model.favoritesCount = 0 ∧
    model.favorited = false ∧ model.createdAt = model.updatedAt ∧
    (∃ tags, model.tagList = some tags ∧ ∀ tag, tag ∈ tags ↔ tag ∈ call.loweredTags) ∧
    ∀ viewer, (∃ u ∈ s'.users, u.userId = a.authorId ∧
      getArticleWithAuthorProfile svc.loc s'.toTables a.articleId viewer = [a.shown svc.loc s'.toTables false 0 (u.profile s'.toTables viewer)] ∧
      getArticleWithAuthorProfileBySlug svc.loc s'.toTables a.slug viewer = [a.shown svc.loc s'.toTables false 0 (u.profile s'.toTables viewer)]) ∧
      ∀ m : Moment, getCommentsFromArticle m s'.toTables a.slug viewer = []

section
variable {svc : Service} {call : Call} {s : Store} {ms : Nat → Moment} {newArticle : Dto.NewArticleRequest} {slug : String}
  {caller : Int}

theorem PublishRequest.createsClean (request : PublishRequest svc call newArticle slug caller) (reachable : Reachable svc s)
    (success : (respond svc call ms s).1.success) :
    CreatesClean svc call (respond svc call ms s).1 s (respond svc call ms s).2 := by
  have valid := (reachable.respond call ms).valid
  have text : storable slug := request.texts success slug (by simp [Sql.texts])
  obtain ⟨articleId, done, _, u, _, _, answered⟩ := request.succeeded reachable.valid success
  obtain ⟨a, articles, same, _, clean⟩ := addNewArticle_clean reachable.valid text done
  rw [request.loweredTags] at clean
  have favorites := clean.favoritesOf
  have flag := clean.isFavoritedArticle (some caller)
  have tags := clean.tagged
  rw [same] at favorites flag tags
  refine ⟨a, _, articles, clean, answered, same.symm, ?_, flag, rfl, ⟨_, rfl, fun tag => tags.mem_tagNames valid⟩,
    clean.views valid.toConstraints⟩
  show ((favoritesOf _ articleId).length : Int) = 0
  rw [favorites]
  rfl

end

/-- In every run an article that is created starts clean, both where its row is stored and in the answer to a request that
nobody interferes with, and no value of a sequence is used twice. -/
theorem new_articles_start_clean {svc : Service} {c : Configuration} {es : List (Event Sql Sql.Res Store)}
    (run : Interleaving svc ⟨Store.empty, []⟩ es c) :
    (∀ call ms, call.route = .postArticles → (respond svc call ms c.store).1.success →
      CreatesClean svc call (respond svc call ms c.store).1 c.store (respond svc call ms c.store).2) ∧
    (∀ i title slug description body authorId tagList articleId s s',
      (⟨i, .addNewArticle title slug description body authorId tagList, s, .ok [articleId], s'⟩ : Event Sql Sql.Res Store) ∈ es →
        ∃ a, s'.articles = s.articles ++ [a] ∧ a.articleId = articleId ∧ a.slug = slug ∧
          StartsClean s'.toTables a (tagList.getD [])) ∧
    NeverReused es ∧
    ∀ e ∈ es, ∀ serial id, id ∈ serial.ids e.after.toTables → id ∉ serial.ids e.before.toTables → DrawnBy e serial id := by
  have start : ReachableConfig svc ⟨Store.empty, []⟩ := ⟨[], .refl _⟩
  refine ⟨fun call ms post success => ?_, ?_, never_reused start run, fun e member serial id present absent =>
    new_id_drawn start run member present absent⟩
  · obtain ⟨newArticle, slug, caller, request⟩ := PublishRequest.of_success post success
    exact request.createsClean ⟨c, ⟨es, run⟩, rfl⟩ success
  · intro i title slug description body authorId tagList articleId s s' member
    obtain ⟨_, _, events⟩ := start.valid run
    obtain ⟨m, executed⟩ := run.executed _ member
    have text := List.all_eq_true.mp (Sql.exec_ok.mp executed).1
    cases Sql.exec_effect (by trivial) executed with
    | addNewArticle done =>
      exact addNewArticle_clean (events _ member).1 (text _ (by simp [Sql.texts])) done

/-- The article of anna is commented on by bert and deleted. -/
def sampleRemoval : List (Move Call Moment) :=
  sampleSetup ++
    [.arrive (sampleCall .postArticlesSlugComments 2 [("slug", "hello-there")]
      (.obj [("comment", .obj [("body", .str "Well done")])])), sampleStep 3, sampleStep 3,
    .arrive (sampleCall .deleteArticlesSlug 1 [("slug", "hello-there")]), sampleStep 4, sampleStep 4]

def sampleDeleted : List (Event Sql Sql.Res Store) × Configuration := sampleSchedule sampleRemoval ⟨Store.empty, []⟩

/-- Its slug is free again, and what is published under it has nothing of it. -/
theorem new_articles_start_clean_sample :
    (sampleDeleted.2.store.articles = [] ∧ sampleDeleted.2.store.articlesSeq = 1 ∧ sampleDeleted.2.store.commentsSeq = 1) ∧
    CreatesClean sample (samplePublish 1 "Hello there")
      (respond sample (samplePublish 1 "Hello there") (fun _ => sampleMoment) sampleDeleted.2.store).1 sampleDeleted.2.store
      (respond sample (samplePublish 1 "Hello there") (fun _ => sampleMoment) sampleDeleted.2.store).2 ∧
    NeverReused sampleDeleted.1 := by
  have run : Interleaving sample ⟨Store.empty, []⟩ sampleDeleted.1 sampleDeleted.2 := sampleSchedule_trace sampleRemoval _
  have gone : sampleDeleted.2.store.articles = [] ∧ sampleDeleted.2.store.articlesSeq = 1 ∧
      sampleDeleted.2.store.commentsSeq = 1 := by decide +kernel
  have success : (respond sample (samplePublish 1 "Hello there") (fun _ => sampleMoment) sampleDeleted.2.store).1.success := by
    decide +kernel
  generalize sampleDeleted = deleted at *
  obtain ⟨creates, _, reused, _⟩ := new_articles_start_clean run
  exact ⟨gone, creates _ _ rfl success, reused⟩

end RealWorld
