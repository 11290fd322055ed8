import RealWorld.Handlers.Replies
import RealWorld.Properties.Reachability
import RealWorld.Schema.TagLists

/-!
# Updating an article

An update rewrites the columns it was given and nothing else. The tag list of the request is read and
checked, but no statement stores it.
-/

namespace RealWorld
open Schema Relational Transactional

/-! ### What an update shows -/

/-- The response shows what `call` supplies of the article, and of `a` in `s` what it does not. -/
structure UpdateShown (svc : Service) (call : Call) (s : Store) (a : Article) (response : Response) : Prop where
  title : response.articleText "title" = .ok ((call.supplied "article" "title").getD a.title)
  description : response.articleText "description" = .ok ((call.supplied "article" "description").getD a.description)
  body : response.articleText "body" = .ok ((call.supplied "article" "body").getD a.body)
  tagList : ∃ tags, response.articleTags = .ok (some tags) ∧
    match call.suppliedList "article" "tagList" with
    | none => tags = tagNames svc.loc s.toTables a.articleId
    | some given => ∀ tag, tag ∈ tags ↔ tag ∈ given.map toLower

/-- The response to the update shows it, and so does every later view of the article while its row stays. -/
structure UpdateTakesEffect (svc : Service) (call : Call) (ms : Nat → Moment) (s : Store) (a : Article) : Prop where
  returned : UpdateShown svc call s a (respond svc call ms s).1
  viewed : ∀ a' ∈ (respond svc call ms s).2.articles, a'.articleId = a.articleId →
    ∀ c es c', Interleaving svc c es c' → c.store = (respond svc call ms s).2 → a' ∈ c'.store.articles →
      ∀ (view : Call) (ms' : Nat → Moment), view.route = .getArticlesSlug →
        view.request.getPathArg "slug" = a'.slug → (respond svc view ms' c'.store).1.success →
          UpdateShown svc call s a (respond svc view ms' c'.store).1

/-- A tag list that is supplied is the one that the article has. -/
def KeepsTags (svc : Service) (call : Call) (s : Store) (a : Article) : Prop :=
  ∀ given, call.suppliedList "article" "tagList" = some given →
    ∀ tag, tag ∈ tagNames svc.loc s.toTables a.articleId ↔ tag ∈ given.map toLower

/-- A request to update the article. Only one of its author succeeds. -/
structure UpdatesArticle (call : Call) (a : Article) : Prop where
  route : call.route = .putArticlesSlug
  slug : call.request.getPathArg "slug" = a.slug

/-- The row of `a` with the columns that `call` supplies. -/
def suppliedRow (m : Moment) (call : Call) (newSlug : Option String) (a : Article) : Article :=
  a.update m (call.supplied "article" "title") newSlug (call.supplied "article" "description")
    (call.supplied "article" "body")

section
variable {svc : Service} {call : Call} {ms : Nat → Moment} {s : Store} {a : Article}

/-- The statement replaces the row of the article by one with the columns supplied. -/
theorem UpdatesArticle.succeeded (updates : UpdatesArticle call a) (h : Valid svc.loc s) (member : a ∈ s.articles)
    (success : (respond svc call ms s).1.success) :
    ∃ newSlug, (call.supplied "article" "title").mapM (slugify svc.icu) = .ok newSlug ∧
      (∀ b ∈ s.articles, b.slug = newSlug.getD a.slug → b.articleId = a.articleId) ∧
      (respond svc call ms s).2 =
        { s with toTables := s.toTables.replaceArticle (suppliedRow (ms 0) call newSlug a) } ∧
      ∃ u ∈ s.users, u.userId = a.authorId ∧ (respond svc call ms s).1 = ⟨200, articleBody svc
        ((suppliedRow (ms 0) call newSlug a).model svc.loc
          (s.toTables.replaceArticle (suppliedRow (ms 0) call newSlug a)) (some a.authorId) u)⟩ := by
  obtain ⟨update, newSlug, caller, request⟩ := EditRequest.of_success updates.route success
  have supplied := Handlers.ArticlesSlug.Put.parsed_supplied request.parsed
  obtain ⟨b, mem, addressed, rfl, free, stored, u, user, author, answered⟩ := request.succeeded h success
  have slugged := request.slugged
  subst supplied
  obtain rfl := key_inj h.uniq_slug mem member (addressed.trans updates.slug)
  rw [stored] at answered
  exact ⟨newSlug, slugged, free, stored, u, user, author, answered⟩

theorem updateShown_iff (t : Tables) (viewer : Option Int) (u : User) {newSlug : Option String} {m : Moment}
    (tags : getArticleTagList svc.loc t a.articleId = getArticleTagList svc.loc s.toTables a.articleId) :
    UpdateShown svc call s a
      ⟨200, articleBody svc ((suppliedRow m call newSlug a).model svc.loc t viewer u)⟩ ↔ KeepsTags svc call s a := by
  have shown : tagNames svc.loc t a.articleId = tagNames svc.loc s.toTables a.articleId :=
    congrArg (List.filterMap id) tags
  have listed := articleTags_model svc t viewer u (suppliedRow m call newSlug a)
  constructor
  · rintro ⟨_, _, _, tags, answered, same⟩ given supplied
    cases listed.symm.trans answered
    rw [supplied] at same
    exact shown ▸ same
  · intro keeps
    refine ⟨rfl, rfl, rfl, _, listed, ?_⟩
    split
    · exact shown
    · rename_i given supplied
      exact (congrArg (fun tags => ∀ tag, tag ∈ tags ↔ tag ∈ given.map toLower) shown).mpr (keeps given supplied)

/-- An update shows what it was supplied, at once and later, exactly if it does not change the tags. -/
theorem article_update_takes_effect_iff (reachable : Reachable svc s) (member : a ∈ s.articles)
    (updates : UpdatesArticle call a) (success : (respond svc call ms s).1.success) :
    UpdateTakesEffect svc call ms s a ↔ KeepsTags svc call s a := by
  have h := reachable.valid
  obtain ⟨newSlug, _, _, stored, u, _, _, answered⟩ := updates.succeeded h member success
  have returned := @updateShown_iff svc call s a (s.toTables.replaceArticle (suppliedRow (ms 0) call newSlug a))
    (some a.authorId) u newSlug (ms 0) rfl
  constructor
  · intro effect
    have shown := effect.returned
    rw [answered] at shown
    exact returned.mp shown
  · intro keeps
    refine ⟨answered ▸ returned.mpr keeps, fun a' mem same c es c' run start stays view ms' get slug viewed => ?_⟩
    have valid := (reachable.respond call ms).valid
    have tables : (respond svc call ms s).2.toTables = s.toTables.replaceArticle (suppliedRow (ms 0) call newSlug a) := by
      rw [stored]
    rcases (mem_replaceArticle member (suppliedRow (ms 0) call newSlug a) rfl).mp (tables ▸ mem) with rfl | ⟨_, other⟩
    · have kept : TagsKept svc.loc c.store c'.store := run.within (tagsStay_guaranteed svc.loc) (start ▸ valid)
      obtain ⟨viewer, v, _, _, shown⟩ := getArticle_success kept.valid stays get slug viewed
      rw [shown]
      have tags : getArticleTagList svc.loc c'.store.toTables a.articleId =
          getArticleTagList svc.loc c.store.toTables a.articleId :=
        kept.tags (suppliedRow (ms 0) call newSlug a) stays (start ▸ (valid.serial_articles _ mem).2)
      rw [start, tables] at tags
      exact (updateShown_iff c'.store.toTables viewer v tags).mpr keeps
    · exact absurd same other

end

def sampleEdit (fields : List (String × Json)) : Call :=
  sampleCall .putArticlesSlug 1 [("slug", "hello-there")] (.obj [("article", .obj fields)])

theorem article_update_takes_effect_sample :
    UpdateTakesEffect sample (sampleEdit [("title", .str "News today")]) (fun _ => sampleMoment) samplePublished
        sampleArticle ↔
      KeepsTags sample (sampleEdit [("title", .str "News today")]) samplePublished sampleArticle :=
  article_update_takes_effect_iff samplePublished_reachable (List.mem_singleton_self sampleArticle) ⟨rfl, rfl⟩
    (by decide +kernel)

/-- An update of the tags alone is answered with the tags the article had. -/
theorem article_tags_not_updated :
    let call := sampleEdit [("tagList", .arr [.str "sport"])]
    Reachable sample samplePublished ∧ sampleArticle ∈ samplePublished.articles ∧ UpdatesArticle call sampleArticle ∧
      (respond sample call (fun _ => sampleMoment) samplePublished).1.success ∧
      ¬ UpdateTakesEffect sample call (fun _ => sampleMoment) samplePublished sampleArticle := by
  intro call
  refine ⟨samplePublished_reachable, List.mem_singleton_self _, ⟨rfl, rfl⟩, by decide +kernel, fun effect => ?_⟩
  obtain ⟨tags, shown, same⟩ := effect.returned.tagList
  have answered : (respond sample call (fun _ => sampleMoment) samplePublished).1.articleTags = .ok (some ["news"]) := by
    decide +kernel
  have supplied : call.suppliedList "article" "tagList" = some ["sport"] := by decide +kernel
  cases answered.symm.trans shown
  rw [supplied] at same
  exact absurd ((same "news").mp List.mem_cons_self) (by decide)

/-! ### What an update leaves alone -/

/-- Between `s` and `s'` only the row of `a` has changed, to `a'`, and the slugs resolve accordingly. -/
structure UpdateFrame (loc : DbLocale) (s s' : Store) (a a' : Article) : Prop where
  articleId : a'.articleId = a.articleId
  authorId : a'.authorId = a.authorId
  createdAt : a'.createdAt = a.createdAt
  articles : ∀ b, b ∈ s'.articles ↔ b = a' ∨ b ∈ s.articles ∧ b.articleId ≠ a.articleId
  tables : s'.toTables = { s.toTables with articles := s'.articles }
  favoritesCount : (favoritesOf s'.toTables a.articleId).length = (favoritesOf s.toTables a.articleId).length
  favorited : ∀ viewer, isFavoritedArticle s'.toTables a.articleId viewer = isFavoritedArticle s.toTables a.articleId viewer
  comments : ∀ m viewer, getCommentsFromArticle m s'.toTables a'.slug viewer = getCommentsFromArticle m s.toTables a.slug viewer
  resolves : getArticleIdBySlug s'.toTables a'.slug = [a.articleId] ∧
    ∀ viewer, ∃ row, getArticleWithAuthorProfileBySlug loc s'.toTables a'.slug viewer = [row] ∧
      row.articleId = a.articleId
  freed : a'.slug ≠ a.slug → getArticleIdBySlug s'.toTables a.slug = [] ∧
    ∀ viewer, getArticleWithAuthorProfileBySlug loc s'.toTables a.slug viewer = []

section
variable {loc : DbLocale} {t : Tables} {a a' : Article}

/-- What becomes of the row `b` when `a'` replaces the row with its id. -/
def Schema.Article.replacedBy (a' b : Article) : Article := if b.articleId = a'.articleId then a' else b

theorem Schema.Article.replacedBy_articleId (a' b : Article) : (a'.replacedBy b).articleId = b.articleId := by
  unfold Schema.Article.replacedBy
  split
  · rename_i here
    exact here.symm
  · rfl

/-- The new slug is the slug of the replaced row alone. -/
theorem Schema.Article.replacedBy_slug_iff (h : Constraints loc t) (member : a ∈ t.articles) (same : a'.articleId = a.articleId)
    (free : ∀ b ∈ t.articles, b.slug = a'.slug → b.articleId = a.articleId) {b : Article} (mem : b ∈ t.articles) :
    (a'.replacedBy b).slug = a'.slug ↔ b.slug = a.slug := by
  unfold Schema.Article.replacedBy
  split
  · rename_i here
    rw [article_eq h mem member (here.trans same)]
    exact iff_of_true rfl rfl
  · rename_i other
    refine iff_of_false (fun taken => other ((free b mem taken).trans same.symm)) fun taken => ?_
    exact other ((congrArg Article.articleId (key_inj h.uniq_slug mem member taken)).trans same.symm)

/-- The comments of an article are found under whatever slug it has. -/
theorem comments_replaceArticle (h : Constraints loc t) (member : a ∈ t.articles) (same : a'.articleId = a.articleId)
    (free : ∀ b ∈ t.articles, b.slug = a'.slug → b.articleId = a.articleId) (m : Moment) (viewer : Option Int) :
    getCommentsFromArticle m (t.replaceArticle a') a'.slug viewer = getCommentsFromArticle m t a.slug viewer := by
  let joined := t.comments.flatMap fun c => (t.articles.filter fun b => b.articleId = c.articleId).map fun b => (c, b)
  have joined' : (t.comments.flatMap fun c =>
      ((t.articles.map a'.replacedBy).filter fun b => b.articleId = c.articleId).map fun b => (c, b)) =
        joined.map fun p => (p.1, a'.replacedBy p.2) := by
    rw [List.map_flatMap]
    refine List.flatMap_congr fun c _ => ?_
    rw [List.filter_map, List.map_map, List.map_map]
    simp only [Function.comp_def, Article.replacedBy_articleId]
  have found : (joined.map fun p => (p.1, a'.replacedBy p.2)).filter (fun p => p.2.slug = a'.slug) =
      (joined.filter fun p => p.2.slug = a.slug).map fun p => (p.1, a'.replacedBy p.2) := by
    rw [List.filter_map]
    refine congrArg _ (List.filter_congr fun p mem => decide_eq_decide.mpr ?_)
    obtain ⟨c, _, pair⟩ := List.mem_flatMap.mp mem
    obtain ⟨b, stored, rfl⟩ := List.mem_map.mp pair
    exact Article.replacedBy_slug_iff h member same free (List.mem_filter.mp stored).1
  show (m.scan ((t.comments.flatMap fun c =>
      ((t.articles.map a'.replacedBy).filter fun b => b.articleId = c.articleId).map fun b => (c, b)).filter
        fun p => p.2.slug = a'.slug)).flatMap (fun p => (getProfile t p.1.authorId viewer).map p.1.select) = _
  rw [joined', found]
  unfold Moment.scan
  rw [List.length_map, arrange_map, List.flatMap_map]
  rfl

theorem articleIdsBySlug_freed (h : Constraints loc t) (member : a ∈ t.articles) (same : a'.articleId = a.articleId)
    (changed : a'.slug ≠ a.slug) : articleIdsBySlug (t.replaceArticle a') a.slug = [] := by
  refine articleIdsBySlug_nil fun b stored taken => ?_
  rcases (mem_replaceArticle member a' same).mp stored with rfl | ⟨mem, other⟩
  · exact changed taken
  · exact other (congrArg Article.articleId (key_inj h.uniq_slug mem member taken))

end

/-- An update changes one row, and the article is found under its new slug with everything it had. -/
theorem article_update_frame {svc : Service} {s : Store} (reachable : Reachable svc s) {a : Article} (member : a ∈ s.articles)
    {call : Call} (updates : UpdatesArticle call a) {ms : Nat → Moment} (success : (respond svc call ms s).1.success) :
    ∃ a', UpdateFrame svc.loc s (respond svc call ms s).2 a a' := by
  have h := reachable.valid.toConstraints
  obtain ⟨newSlug, _, free, stored, _⟩ := updates.succeeded reachable.valid member success
  have valid := (reachable.respond call ms).valid.toConstraints
  rw [stored] at valid ⊢
  have mem := (mem_replaceArticle member (suppliedRow (ms 0) call newSlug a) rfl).mpr (.inl rfl)
  refine ⟨suppliedRow (ms 0) call newSlug a, ?_⟩
  exact {
    articleId := rfl
    authorId := rfl
    createdAt := rfl
    articles := fun b => mem_replaceArticle member (suppliedRow (ms 0) call newSlug a) rfl
    tables := rfl
    favoritesCount := rfl
    favorited := fun _ => rfl
    comments := comments_replaceArticle h member rfl free
    resolves := by
      refine ⟨articleIdsBySlug_of valid mem, fun viewer => ?_⟩
      obtain ⟨u, _, _, found⟩ := getArticleWithAuthorProfile_of valid mem viewer
      exact ⟨_, (getArticleWithAuthorProfileBySlug_of valid mem viewer).trans found, rfl⟩
    freed := by
      intro changed
      have none : articleIdsBySlug (s.toTables.replaceArticle (suppliedRow (ms 0) call newSlug a)) a.slug = [] :=
        articleIdsBySlug_freed h member rfl changed
      refine ⟨none, fun viewer => ?_⟩
      simp only [getArticleWithAuthorProfileBySlug, none, List.head?_nil] }

theorem article_update_frame_sample : ∃ a', UpdateFrame sampleLocale samplePublished
    (respond sample (sampleEdit [("title", .str "News today")]) (fun _ => sampleMoment) samplePublished).2
    sampleArticle a' :=
  article_update_frame samplePublished_reachable (List.mem_singleton_self sampleArticle) ⟨rfl, rfl⟩ (by decide +kernel)

end RealWorld
