import RealWorld.Handlers.Replies
import RealWorld.Properties.Storable
import RealWorld.Schema.UserKeys

/-!
# Slugs that are taken

Two requests give an article a slug, and both read the refusal of a taken slug off the constraint that the
database names. A creation that is refused has drawn an id, and ids can run out.
-/

namespace RealWorld
open Schema Relational Transactional

def slugTaken : Response := ⟨422, makeError "slug" "has already been taken"⟩

/-- What the answer to a creation says about the slug of its title. -/
structure CreationReported (svc : Service) (call : Call) (ms : Nat → Moment) (s : Store)
    (newArticle : Dto.NewArticleRequest) (slug : String) (caller : Int) : Prop where
  taken : (respond svc call ms s).1 = slugTaken ↔ s.articlesSeq < maxInt ∧ ∃ a ∈ s.articles, a.slug = slug
  stored : (respond svc call ms s).1.success ↔ (∀ a ∈ s.articles, a.slug ≠ slug) ∧ s.articlesSeq < maxInt ∧
    s.tagsSeq + (newArticle.tagList.getD []).length ≤ maxInt ∧ s.hasUser caller
  unchanged : (respond svc call ms s).1 = slugTaken →
    (respond svc call ms s).2 = { s with articlesSeq := s.articlesSeq + 1 }

/-- What the answer to an update says about the slug it addresses and the slug of its title. -/
structure EditReported (svc : Service) (call : Call) (ms : Nat → Moment) (s : Store)
    (update : Dto.UpdateArticleRequest) (caller : Int) : Prop where
  absent : (respond svc call ms s).1 = ⟨404, .null⟩ ↔ ∀ a ∈ s.articles, ¬ (a.slug = update.slug ∧ a.authorId = caller)
  taken : (respond svc call ms s).1 = slugTaken ↔ ∃ a ∈ s.articles, (a.slug = update.slug ∧ a.authorId = caller) ∧
    ∃ title ∈ update.title, ∃ b ∈ s.articles, slugify svc.icu title = .ok b.slug ∧ b.articleId ≠ a.articleId
  stored : (respond svc call ms s).1.success ∨ (respond svc call ms s).1 = ⟨404, .null⟩ ∨
    (respond svc call ms s).1 = slugTaken
  unchanged : ¬ (respond svc call ms s).1.success → (respond svc call ms s).2 = s

section
variable {svc : Service} {s : Store} {call : Call} {ms : Nat → Moment}

/-! ### Creations -/

section
variable {newArticle : Dto.NewArticleRequest} {slug : String} {caller : Int}

theorem slugRefusal_iff {e : DbError} :
    Response.ofExcept (Handlers.refusal [("uniq_slug", "slug")] e) = slugTaken ↔ e = .uniqueViolation "uniq_slug" := by
  cases e with
  | uniqueViolation constraint =>
    rw [DbError.uniqueViolation.injEq]
    by_cases same : constraint = "uniq_slug"
    · subst same
      exact iff_of_true rfl rfl
    · have other : [("uniq_slug", "slug")].lookup constraint = none := by
        rw [List.lookup_cons, beq_false_of_ne same]
        rfl
      rw [Handlers.refusal, other]
      refine iff_of_false (fun taken => ?_) same
      cases taken
  | _ =>
    refine iff_of_false (fun taken => ?_) fun same => ?_
    · cases taken
    · cases same

/-- Which error the statement of a creation raises for its slug. -/
theorem publish_error_iff (h : Valid svc.loc s) (texts : ∀ text ∈ (publishSql newArticle slug caller).texts, storable text)
    (fitsTitle : newArticle.title.length ≤ 255) (fitsSlug : slug.length ≤ 255) {m : Moment} {e : DbError} {s' : Store}
    (failed : (publishSql newArticle slug caller).exec svc.loc m s = (.error e, s')) :
    e = .uniqueViolation "uniq_slug" ↔ s.articlesSeq < maxInt ∧ ∃ a ∈ s.articles, a.slug = slug := by
  rw [Sql.exec_storable (List.all_eq_true.mpr texts)] at failed
  constructor
  · rintro rfl
    constructor
    · by_contra ended
      have exhausted : addNewArticle m newArticle.title slug newArticle.description newArticle.body caller
          newArticle.tagList s = .error .sequenceExhausted s := bind_of_error (bind_of_error (if_neg ended))
      cases failed.symm.trans (singleton_error exhausted)
    · by_contra absent
      refine singleton_raisesOnly.mpr (addNewArticle_free h fun a member same => ?_) _ _ failed rfl
      exact absent ⟨a, member, same⟩
  · rintro ⟨room, taken⟩
    cases failed.symm.trans (singleton_error (addNewArticle_taken h room fitsTitle fitsSlug taken))
    rfl

theorem PublishRequest.reported (request : PublishRequest svc call newArticle slug caller) (h : Valid svc.loc s)
    (texts : ∀ text ∈ (publishSql newArticle slug caller).texts, storable text) (fitsSlug : slug.length ≤ 255)
    (ms : Nat → Moment) : CreationReported svc call ms s newArticle slug caller := by
  obtain ⟨fitsTitle, fitTags⟩ := Handlers.Articles.Post.parsed_sizes request.parsed
  have text : storable slug := texts slug (by simp [Sql.texts])
  obtain ⟨r, s', executed⟩ : ∃ r s', (publishSql newArticle slug caller).exec svc.loc (ms 0) s = (r, s') := ⟨_, _, rfl⟩
  cases r with
  | ok rows =>
    obtain ⟨_, done, _, u, _, _, same⟩ := request.stored h executed
    obtain ⟨room, free, author, tagRoom⟩ := addNewArticle_ids h done
    have success : (respond svc call ms s).1.success := by rw [same]; rfl
    have answered : (respond svc call ms s).1 ≠ slugTaken := by
      intro taken
      rw [same] at taken
      cases taken
    refine ⟨iff_of_false answered ?_, iff_of_true success ⟨free, room, tagRoom, author⟩, fun refused => absurd refused answered⟩
    rintro ⟨_, a, member, taken⟩
    exact free a member taken
  | error e =>
    have same := request.refused executed
    have failed : ¬ (respond svc call ms s).1.success := by
      rw [same]
      exact refusal_unsuccessful _ e
    have taken : (respond svc call ms s).1 = slugTaken ↔ s.articlesSeq < maxInt ∧ ∃ a ∈ s.articles, a.slug = slug := by
      rw [same, slugRefusal_iff]
      exact publish_error_iff h texts fitsTitle fitsSlug executed
    refine ⟨taken, iff_of_false failed ?_, fun refused => ?_⟩
    · rintro ⟨free, room, tagRoom, author⟩
      rw [Sql.exec_storable (List.all_eq_true.mpr texts)] at executed
      have taken := singleton_raisesOnly.mpr ((addNewArticle_raisesOnly h text).mpr
        ⟨room, fitsTitle, fitsSlug, fun _ => ⟨author, tagRoom, fitTags⟩⟩) e s' executed
      have free := singleton_raisesOnly.mpr (addNewArticle_free h free) e s' executed
      cases e with
      | uniqueViolation constraint => exact free (congrArg _ (List.mem_singleton.mp taken))
      | _ => cases taken
    · obtain ⟨room, present⟩ := taken.mp refused
      rw [Sql.exec_storable (List.all_eq_true.mpr texts)] at executed
      cases executed.symm.trans (singleton_error (addNewArticle_taken h room fitsTitle fitsSlug present))
      rw [same]

end

/-! ### Updates -/

section
variable {update : Dto.UpdateArticleRequest} {newSlug : Option String} {caller : Int}

theorem newSlug_taken (request : EditRequest svc call update newSlug caller) {a : Article} :
    (∃ title ∈ update.title, ∃ b ∈ s.articles, slugify svc.icu title = .ok b.slug ∧ b.articleId ≠ a.articleId) ↔
      ∃ slug ∈ newSlug, ∃ b ∈ s.articles, b.slug = slug ∧ b.articleId ≠ a.articleId := by
  have slugged := request.slugged
  cases given : update.title with
  | none =>
    rw [given] at slugged
    cases slugged
    exact iff_of_false nofun nofun
  | some title =>
    rw [given] at slugged
    obtain ⟨slug, same, slugged⟩ := checked_bind.mp slugged
    cases slugged
    constructor
    · rintro ⟨_, ⟨⟩, b, member, slugged, other⟩
      exact ⟨slug, rfl, b, member, Except.ok.inj (slugged.symm.trans same), other⟩
    · rintro ⟨_, ⟨⟩, b, member, rfl, other⟩
      exact ⟨title, rfl, b, member, same, other⟩

/-- The author's update is stored if it keeps its slug or asks for one that no other article has. -/
theorem EditRequest.free_stored {a : Article} (request : EditRequest svc call update newSlug a.authorId)
    (reachable : Reachable svc s) (fitsSlug : ∀ slug ∈ newSlug, slug.length ≤ 255) (member : a ∈ s.articles)
    (same : a.slug = update.slug) (free : ∀ slug ∈ newSlug, ∀ b ∈ s.articles, b.slug = slug → b.articleId = a.articleId)
    (m : Moment) : ∃ s', updateArticleBySlug m update.slug a.authorId update.title newSlug update.description update.body s =
      .ok [a.articleId] s' := by
  have h := reachable.valid.toConstraints
  obtain ⟨storedTitle, storedSlug⟩ := reachable.fits.articles a member
  have fits := getD_fits (Handlers.ArticlesSlug.Put.parsed_sizes request.parsed) storedTitle
  rw [← same]
  refine ⟨_, (updateArticleBySlug_own h member).mpr ⟨⟨fits, getD_fits fitsSlug storedSlug, fun b mem taken => ?_⟩, rfl, rfl⟩⟩
  cases newSlug with
  | none => rw [key_inj h.uniq_slug mem member taken]
  | some slug => exact free slug rfl b mem taken

/-- The article that the update addresses is the only one it can address. -/
theorem addressed_taken (h : Constraints svc.loc s.toTables) {a : Article}
    (request : EditRequest svc call update newSlug a.authorId) (member : a ∈ s.articles) (same : a.slug = update.slug) :
    (∃ b ∈ s.articles, (b.slug = update.slug ∧ b.authorId = a.authorId) ∧ ∃ title ∈ update.title,
      ∃ b' ∈ s.articles, slugify svc.icu title = .ok b'.slug ∧ b'.articleId ≠ b.articleId) ↔
      ∃ slug ∈ newSlug, ∃ b ∈ s.articles, b.slug = slug ∧ b.articleId ≠ a.articleId := by
  rw [← newSlug_taken request]
  constructor
  · rintro ⟨b, mem, ⟨addressed, _⟩, rest⟩
    rwa [key_inj h.uniq_slug mem member (addressed.trans same.symm)] at rest
  · exact fun rest => ⟨a, member, ⟨same, rfl⟩, rest⟩

theorem EditRequest.reported_absent (request : EditRequest svc call update newSlug caller)
    (texts : ∀ text ∈ (editSql update newSlug caller).texts, storable text)
    (unowned : ∀ a ∈ s.articles, ¬ (a.slug = update.slug ∧ a.authorId = caller)) :
    EditReported svc call ms s update caller := by
  have bound := @Sql.exec_storable svc.loc (ms 0) s _ (List.all_eq_true.mpr texts)
  have same := request.absent (bound.trans (atomically_ok.mpr (updateArticleBySlug_unowned unowned)))
  refine ⟨iff_of_true (congrArg Prod.fst same) unowned, iff_of_false ?_ ?_, .inr (.inl (congrArg Prod.fst same)),
    fun _ => congrArg Prod.snd same⟩
  · rw [same]
    nofun
  · rintro ⟨a, member, hit, _⟩
    exact unowned a member hit

theorem EditRequest.reported_owned {a : Article} (request : EditRequest svc call update newSlug a.authorId)
    (reachable : Reachable svc s) (texts : ∀ text ∈ (editSql update newSlug a.authorId).texts, storable text)
    (fitsSlug : ∀ slug ∈ newSlug, slug.length ≤ 255) (member : a ∈ s.articles) (addressed : a.slug = update.slug) :
    EditReported svc call ms s update a.authorId := by
  have h := reachable.valid
  have bound := @Sql.exec_storable svc.loc (ms 0) s _ (List.all_eq_true.mpr texts)
  have present : ¬ ∀ b ∈ s.articles, ¬ (b.slug = update.slug ∧ b.authorId = a.authorId) :=
    fun none => none a member ⟨addressed, rfl⟩
  have others := addressed_taken h.toConstraints request member addressed
  obtain ⟨r, s', executed⟩ : ∃ r s', (editSql update newSlug a.authorId).exec svc.loc (ms 0) s = (r, s') := ⟨_, _, rfl⟩
  cases r with
  | ok rows =>
    have done := atomically_ok.mp (bound.symm.trans executed)
    rw [← addressed] at done
    obtain ⟨⟨_, _, free⟩, rfl, rfl⟩ := (updateArticleBySlug_own h.toConstraints member).mp done
    have stored := (mem_replaceArticle member (editedRow (ms 0) update newSlug a) rfl).mpr (.inl rfl)
    obtain ⟨u, _, _, same⟩ := request.stored (a := editedRow (ms 0) update newSlug a) h executed stored
    have success : (respond svc call ms s).1.success := by rw [same]; rfl
    refine ⟨iff_of_false ?_ present, iff_of_false ?_ fun taken => ?_, .inl success, absurd success⟩
    · rw [same]
      nofun
    · rw [same]
      nofun
    · obtain ⟨slug, given, b, mem, taken, other⟩ := others.mp taken
      rw [Option.mem_def.mp given] at free
      exact other (free b mem taken)
  | error e =>
    have raises := (updateArticleBySlug_storable_iff reachable (Handlers.ArticlesSlug.Put.parsed_sizes request.parsed)).mpr
      ⟨texts, fun _ => fitsSlug⟩ (ms 0) e s' executed
    cases e with
    | uniqueViolation constraint =>
      obtain rfl := List.mem_singleton.mp raises
      obtain rfl := Sql.exec_refused (by exact id) executed
      have same : respond svc call ms s' = (slugTaken, s') := request.refused executed
      refine ⟨iff_of_false ?_ present, iff_of_true (congrArg Prod.fst same) (others.mpr ?_),
        .inr (.inr (congrArg Prod.fst same)), fun _ => congrArg Prod.snd same⟩
      · rw [same]
        nofun
      · by_contra free
        obtain ⟨t, done⟩ := request.free_stored reachable fitsSlug member addressed (fun text given b mem taken =>
          by_contra fun other => free ⟨text, given, b, mem, taken, other⟩) (ms 0)
        cases (bound.symm.trans executed).symm.trans (atomically_ok.mpr done)
    | _ => cases raises

theorem EditRequest.reported (request : EditRequest svc call update newSlug caller) (reachable : Reachable svc s)
    (texts : ∀ text ∈ (editSql update newSlug caller).texts, storable text) (fitsSlug : ∀ slug ∈ newSlug, slug.length ≤ 255)
    (ms : Nat → Moment) : EditReported svc call ms s update caller := by
  by_cases owned : ∃ a ∈ s.articles, a.slug = update.slug ∧ a.authorId = caller
  · obtain ⟨a, member, addressed, rfl⟩ := owned
    exact request.reported_owned reachable texts fitsSlug member addressed
  · exact request.reported_absent texts fun a member hit => owned ⟨a, member, hit⟩

end

/-- Of requests whose texts and slug fit their columns: a creation is refused with 422 exactly for a slug that
is taken, as long as an id is left to draw, and is stored if ids are left for it and its tags and the caller has
a row; an update is refused exactly if the caller has no article with its slug or another one has the new slug. -/
theorem slug_conflicts_reported (reachable : Reachable svc s) (call : Call) (ms : Nat → Moment) :
    (∀ newArticle slug caller, PublishRequest svc call newArticle slug caller →
      (∀ text ∈ (publishSql newArticle slug caller).texts, storable text) → slug.length ≤ 255 →
        CreationReported svc call ms s newArticle slug caller) ∧
    (∀ update newSlug caller, EditRequest svc call update newSlug caller →
      (∀ text ∈ (editSql update newSlug caller).texts, storable text) → (∀ slug ∈ newSlug, slug.length ≤ 255) →
        EditReported svc call ms s update caller) :=
  ⟨fun _ _ _ request texts fits => request.reported reachable.valid texts fits ms,
    fun _ _ _ request texts fits => request.reported reachable texts fits ms⟩

end

theorem samplePublish_request (title slug : String) (size : 3 < title.length ∧ title.length < 256)
    (slugged : slugify sampleIcu title = .ok slug) : PublishRequest sample (samplePublish 1 title)
      { title := title, description := "Example", body := "Content", tagList := some ["news"] } slug 1 := by
  have same := @Call.caller_congr sample (samplePublish 1 title) (samplePublish 1 "") rfl rfl
  have token : (samplePublish 1 title).caller sample = some (sampleData 1) := same.trans (by decide)
  exact ⟨rfl, samplePublish_accepted sample 1 size, slugged, sampleData 1, token, rfl⟩

/-- Two articles of one author. -/
def sampleBoth : Store :=
  { samplePublished with
    articles := [sampleArticle, { sampleArticle with articleId := 2, title := "Good bye", slug := "good-bye" }]
    articleTags := [{ articleId := 1, tagId := 1 }, { articleId := 2, tagId := 1 }]
    articlesSeq := 2
    tagsSeq := 2 }

theorem sampleBoth_reachable : Reachable sample sampleBoth := by
  have served : sampleServe [samplePublish 1 "Good bye"] samplePublished = sampleBoth := by decide +kernel
  exact served ▸ sampleServe_reachable samplePublished_reachable

def sampleRetitle : Call :=
  sampleCall .putArticlesSlug 1 [("slug", "hello-there")] (.obj [("article", .obj [("title", .str "Good bye")])])

def sampleUpdate : Dto.UpdateArticleRequest :=
  { slug := "hello-there", title := some "Good bye", description := none, body := none, tagList := none }

theorem sampleRetitle_request : EditRequest sample sampleRetitle sampleUpdate (some "good-bye") 1 := by
  have slugged : slugify sampleIcu "Good bye" = .ok "good-bye" := by decide
  have mapped : (some "Good bye").mapM (slugify sampleIcu) = .ok (some "good-bye") := by
    show some <$> slugify sampleIcu "Good bye" = _
    rw [slugged]
    rfl
  have parsed : Handlers.ArticlesSlug.Put.parsed sampleRetitle.request = .ok sampleUpdate := rfl
  exact ⟨rfl, parsed, mapped, sampleData 1, by decide, rfl⟩

/-- Retitling the one article to the title of the other is refused. -/
theorem slug_conflicts_sample :
    CreationReported sample (samplePublish 1 "Good bye") (fun _ => sampleMoment) samplePublished
      { title := "Good bye", description := "Example", body := "Content", tagList := some ["news"] } "good-bye" 1 ∧
    EditReported sample sampleRetitle (fun _ => sampleMoment) sampleBoth sampleUpdate 1 ∧
    respond sample sampleRetitle (fun _ => sampleMoment) sampleBoth = (slugTaken, sampleBoth) := by
  have created := (slug_conflicts_reported samplePublished_reachable (samplePublish 1 "Good bye") fun _ => sampleMoment).1
    _ _ _ (samplePublish_request "Good bye" "good-bye" (by decide) (by decide)) (by decide) (by decide)
  have edited := (slug_conflicts_reported sampleBoth_reachable sampleRetitle fun _ => sampleMoment).2
    _ _ _ sampleRetitle_request (by decide) (by decide)
  have own : ∃ a ∈ sampleBoth.articles, (a.slug = "hello-there" ∧ a.authorId = 1) ∧ ∃ title ∈ sampleUpdate.title,
      ∃ b ∈ sampleBoth.articles, slugify sample.icu title = .ok b.slug ∧ b.articleId ≠ a.articleId :=
    ⟨sampleArticle, List.mem_cons_self, ⟨rfl, rfl⟩, "Good bye", rfl, _, List.mem_cons_of_mem _ List.mem_cons_self,
      by decide, by decide⟩
  have refused := edited.taken.mpr own
  refine ⟨created, edited, Prod.ext refused (edited.unchanged ?_)⟩
  rw [refused]
  nofun

/-! ### Ids that run out -/

/-- The sample store after creations that were refused: article ids up to `n` have been drawn. -/
def sampleDrawn (n : Int) : Store := { samplePublished with articlesSeq := n }

theorem sampleDrawn_step {n : Int} (valid : Valid sampleLocale (sampleDrawn n)) (room : n < maxInt) :
    (respond sample (samplePublish 1 "Hello there") (fun _ => sampleMoment) (sampleDrawn n)).2 = sampleDrawn (n + 1) := by
  have request := samplePublish_request "Hello there" "hello-there" (by decide) (by decide)
  have reported := request.reported (s := sampleDrawn n) valid (by decide) (by decide) fun _ => sampleMoment
  exact reported.unchanged (reported.taken.mpr ⟨room, sampleArticle, List.mem_singleton_self _, rfl⟩)

theorem sampleDrawn_reachable (k : Nat) (bound : 1 + (k : Int) ≤ maxInt) : Reachable sample (sampleDrawn (1 + k)) := by
  induction k with
  | zero => exact samplePublished_reachable
  | succ k ih =>
    have earlier := ih (by omega)
    have next := earlier.respond (samplePublish 1 "Hello there") fun _ => sampleMoment
    rwa [sampleDrawn_step earlier.valid (by omega), Int.add_assoc] at next

/-- After enough refused creations a free slug is answered with neither success nor 422. -/
theorem free_slug_refused : ∃ s newArticle, Reachable sample s ∧
    PublishRequest sample (samplePublish 1 "Good bye") newArticle "good-bye" 1 ∧ s.hasUser 1 ∧
    (∀ text ∈ (publishSql newArticle "good-bye" 1).texts, storable text) ∧ "good-bye".length ≤ 255 ∧
    (∀ a ∈ s.articles, a.slug ≠ "good-bye") ∧
    (respond sample (samplePublish 1 "Good bye") (fun _ => sampleMoment) s).1.status = 500 := by
  have reachable := sampleDrawn_reachable 2147483646 (by decide)
  exact ⟨sampleDrawn maxInt, _, reachable, samplePublish_request "Good bye" "good-bye" (by decide) (by decide),
    ⟨sampleUser 1 "anna", List.mem_cons_self, rfl⟩, by decide, by decide, by decide, by decide +kernel⟩

end RealWorld
