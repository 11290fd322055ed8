import RealWorld.Handlers.Checks
import RealWorld.Properties.Reachability
import RealWorld.Schema.Raises

/-!
# Which accepted articles the database refuses

`ParseRequest` checks some lengths of a request; the database checks the width of its columns, that
texts are free of U+0000, that sequences have values left and that referenced rows exist. Where the
two differ the statement raises an error no handler expects.
-/

namespace RealWorld
open Schema Transactional

/-- The first statement of a request, and with it the only one that writes. -/
def Issues (svc : Service) (call : Call) (q : Sql) : Prop := ∃ next, serve svc call = .exec q next

section
variable {expected : DbError → Prop} {loc : DbLocale} {s : Store} {q : Sql}

/-- A text with U+0000 is refused before the statement runs. -/
theorem Schema.Sql.raisesOnly_iff (unexpected : ¬ expected .invalidByteSequence) :
    q.RaisesOnly expected loc s ↔ (∀ text ∈ q.texts, storable text) ∧
      ∀ m, ∀ e s', q.body loc m s = (.error e, s') → expected e := by
  unfold RaisesOnly
  by_cases texts : q.texts.all storable
  · simp only [Sql.exec_storable texts]
    exact ⟨fun h => ⟨List.all_eq_true.mp texts, h⟩, fun h => h.2⟩
  · simp only [Sql.exec_unstorable texts]
    constructor
    · exact fun h => absurd (h sampleMoment _ s rfl) unexpected
    · exact fun h => absurd (List.all_eq_true.mpr h.1) texts

end

/-! ### What `ParseRequest` guarantees -/

theorem Handlers.Articles.Post.parsed_sizes {svc : Service} {request : HttpRequest}
    {newArticle : Dto.NewArticleRequest} (accepted : parsed svc request = .ok newArticle) :
    newArticle.title.length ≤ 255 ∧ ∀ tag ∈ newArticle.tagList.getD [], tag.length ≤ 255 := by
  have checked := parsed_checked accepted
  exact ⟨Nat.le_of_lt_succ checked.title.2, fun tag member => Nat.le_of_lt_succ (checked.tagList tag member).2⟩

theorem Handlers.ArticlesSlug.Put.parsed_sizes {request : HttpRequest} {update : Dto.UpdateArticleRequest}
    (accepted : parsed request = .ok update) : ∀ title ∈ update.title, title.length ≤ 255 := by
  intro text member
  exact Nat.le_of_lt ((parsed_checked accepted).title text member).2

/-- The texts already stored fit their columns. -/
theorem Reachable.fits {svc : Service} {s : Store} (h : Reachable svc s) : Fits s.toTables := by
  have start : Fits Store.empty.toTables := ⟨nofun, nofun⟩
  have step : ∀ (q : Sql) m s, True → Fits s.toTables → Fits (q.exec svc.loc m s).2.toTables :=
    fun q _ _ _ fits => fits.exec q
  exact h.invariant start (fun _ => Prog.All.of_forall (fun _ => trivial) _) step

/-- What an update leaves in a column satisfies what the supplied and the stored text do. -/
theorem getD_holds {holds : String → Prop} {supplied : Option String} {stored : String}
    (given : ∀ text ∈ supplied, holds text) (kept : holds stored) : holds (supplied.getD stored) := by
  cases supplied with
  | none => exact kept
  | some text => exact given text rfl

theorem getD_fits {supplied : Option String} {stored : String} {width : Nat} (given : ∀ text ∈ supplied, text.length ≤ width)
    (fits : stored.length ≤ width) : (supplied.getD stored).length ≤ width :=
  @getD_holds (fun text => text.length ≤ width) _ _ given fits

/-! ### Articles -/

section
variable {svc : Service} {s : Store} {call : Call} {data : UserAuthData}

theorem PublishRequest.issues {newArticle : Dto.NewArticleRequest} {slug : String} {caller : Int}
    (request : PublishRequest svc call newArticle slug caller) : Issues svc call (publishSql newArticle slug caller) := by
  unfold Issues
  rw [request.serve_eq]
  exact ⟨_, rfl⟩

theorem EditRequest.issues {update : Dto.UpdateArticleRequest} {newSlug : Option String} {caller : Int}
    (request : EditRequest svc call update newSlug caller) : Issues svc call (editSql update newSlug caller) := by
  unfold Issues
  rw [request.serve_eq]
  exact ⟨_, rfl⟩

theorem addNewArticle_storable_iff (reachable : Reachable svc s) {title slug description body : String}
    {authorId : Int} {tagList : Option (List String)} (fitsTitle : title.length ≤ 255)
    (fitTags : ∀ tag ∈ tagList.getD [], tag.length ≤ 255) :
    (Sql.addNewArticle title slug description body authorId tagList).RaisesOnly (Taken ["uniq_slug"]) svc.loc s ↔
      (∀ text ∈ (Sql.addNewArticle title slug description body authorId tagList).texts, storable text) ∧
        s.articlesSeq < maxInt ∧ slug.length ≤ 255 ∧
          ((∀ a ∈ s.articles, a.slug ≠ slug) →
            (∃ u ∈ s.users, u.userId = authorId) ∧ s.tagsSeq + (tagList.getD []).length ≤ maxInt) := by
  rw [Sql.raisesOnly_iff (by decide)]
  refine and_congr_right fun texts => ?_
  have text : storable slug := texts slug (by simp [Sql.texts])
  constructor
  · intro raises
    obtain ⟨room, _, fitsSlug, rest⟩ :=
      (addNewArticle_raisesOnly reachable.valid text).mp (singleton_raisesOnly.mp (raises sampleMoment))
    exact ⟨room, fitsSlug, fun free => ⟨(rest free).1, (rest free).2.1⟩⟩
  · rintro ⟨room, fitsSlug, rest⟩ m
    refine singleton_raisesOnly.mpr ((addNewArticle_raisesOnly reachable.valid text).mpr ?_)
    exact ⟨room, fitsTitle, fitsSlug, fun free => ⟨(rest free).1, (rest free).2, fitTags⟩⟩

theorem updateArticleBySlug_storable_iff (reachable : Reachable svc s) {oldSlug : String} {authorId : Int}
    {title newSlug description body : Option String} (fitsTitle : ∀ text ∈ title, text.length ≤ 255) :
    (Sql.updateArticleBySlug oldSlug authorId title newSlug description body).RaisesOnly
        (Taken ["uniq_slug"]) svc.loc s ↔
      (∀ text ∈ (Sql.updateArticleBySlug oldSlug authorId title newSlug description body).texts, storable text) ∧
        ((∃ a ∈ s.articles, a.slug = oldSlug ∧ a.authorId = authorId) →
          ∀ slug ∈ newSlug, slug.length ≤ 255) := by
  rw [Sql.raisesOnly_iff (by decide)]
  refine and_congr_right fun _ => ?_
  constructor
  · rintro raises ⟨a, member, hit⟩ slug rfl
    have fits := (updateArticleBySlug_raisesOnly reachable.valid.toConstraints).mp
      (atomically_raisesOnly.mp (raises sampleMoment)) a member hit
    exact fits.2
  · intro fitsSlug m
    refine atomically_raisesOnly.mpr ((updateArticleBySlug_raisesOnly reachable.valid.toConstraints).mpr ?_)
    intro a member hit
    obtain ⟨storedTitle, storedSlug⟩ := reachable.fits.articles a member
    exact ⟨getD_fits fitsTitle storedTitle, getD_fits (fitsSlug ⟨a, member, hit⟩) storedSlug⟩

/-- The statement of an accepted article fails with nothing but a taken slug exactly when the texts are
free of U+0000, the slug of the title fits its column, ids are left and the author is there. -/
theorem articles_storable_iff (reachable : Reachable svc s) (token : call.caller svc = some data) :
    (call.route = .postArticles → ∀ newArticle slug,
      Handlers.Articles.Post.parsed svc call.request = .ok newArticle →
      slugify svc.icu newArticle.title = .ok slug →
      let q := Sql.addNewArticle newArticle.title slug newArticle.description newArticle.body data.id
        newArticle.tagList
      Issues svc call q ∧
        (q.RaisesOnly (Taken ["uniq_slug"]) svc.loc s ↔
          (∀ text ∈ q.texts, storable text) ∧ s.articlesSeq < maxInt ∧ slug.length ≤ 255 ∧
            ((∀ a ∈ s.articles, a.slug ≠ slug) → (∃ u ∈ s.users, u.userId = data.id) ∧
              s.tagsSeq + (newArticle.tagList.getD []).length ≤ maxInt))) ∧
    (call.route = .putArticlesSlug → ∀ update newSlug,
      Handlers.ArticlesSlug.Put.parsed call.request = .ok update →
      update.title.mapM (slugify svc.icu) = .ok newSlug →
      let q := Sql.updateArticleBySlug update.slug data.id update.title newSlug update.description update.body
      Issues svc call q ∧
        (q.RaisesOnly (Taken ["uniq_slug"]) svc.loc s ↔
          (∀ text ∈ q.texts, storable text) ∧
            ((∃ a ∈ s.articles, a.slug = update.slug ∧ a.authorId = data.id) →
              ∀ slug ∈ newSlug, slug.length ≤ 255))) := by
  constructor
  · intro post newArticle slug accepted slugged q
    obtain ⟨fitsTitle, fitTags⟩ := Handlers.Articles.Post.parsed_sizes accepted
    exact ⟨PublishRequest.issues ⟨post, accepted, slugged, data, token, rfl⟩,
      addNewArticle_storable_iff reachable fitsTitle fitTags⟩
  · intro put update newSlug accepted slugged q
    exact ⟨EditRequest.issues ⟨put, accepted, slugged, data, token, rfl⟩,
      updateArticleBySlug_storable_iff reachable (Handlers.ArticlesSlug.Put.parsed_sizes accepted)⟩

end

/-- The Latin-ASCII rule that writes two letters for one. -/
def sampleLatinAscii : List Char → List Char := List.flatMap fun c => if c = 'ß' then ['s', 's'] else [c]

def sampleExpanding : Service := { sample with icu := { sampleIcu with latinAscii := sampleLatinAscii } }

theorem samplePublish_accepted (svc : Service) (caller : Int) {title : String}
    (size : 3 < title.length ∧ title.length < 256) :
    Handlers.Articles.Post.parsed svc (samplePublish caller title).request =
      .ok { title := title, description := "Example", body := "Content", tagList := some ["news"] } := by
  have sized : checkSize title "title" 3 256 = .ok title := if_pos size
  have described : checkSize "Example" "description" 5 8192 = .ok "Example" := by decide
  have written : checkSize "Content" "body" 5 65535 = .ok "Content" := by decide
  have tagged : Handlers.checkTagList (some ["news"]) = .ok (some ["news"]) := by decide
  refine checked_bind.mpr ⟨_, rfl, checked_bind.mpr ⟨title, sized, ?_⟩⟩
  refine checked_bind.mpr ⟨_, described, checked_bind.mpr ⟨_, written, ?_⟩⟩
  exact checked_bind.mpr ⟨_, rfl, checked_bind.mpr ⟨_, rfl, checked_bind.mpr ⟨_, tagged, rfl⟩⟩⟩

def sampleLongTitle : String := String.ofList (List.replicate 128 'ß')

def sampleLongSlug : String := String.ofList (List.replicate 256 's')

theorem sampleLongTitle_slug : slugify sampleExpanding.icu sampleLongTitle = .ok sampleLongSlug := by
  have letters : transliterate sampleExpanding.icu (List.replicate 128 'ß') = List.replicate 256 's' := by
    decide +kernel
  have transliterated : transliterate sampleExpanding.icu sampleLongTitle.toList = List.replicate 256 's' :=
    (congrArg (transliterate sampleExpanding.icu) String.toList_ofList).trans letters
  exact congrArg (fun text => Except.ok (String.ofList text)) transliterated

def sampleAuthor : Store := (respond sampleExpanding (sampleRegister "anna") (fun _ => sampleMoment) Store.empty).2

theorem sampleAuthor_reachable : Reachable sampleExpanding sampleAuthor :=
  (reachable_empty sampleExpanding).respond _ _

theorem articles_storable_sample :
    let q := Sql.addNewArticle "Good bye" "good-bye" "Example" "Content" 1 (some ["news"])
    Issues sample (samplePublish 1 "Good bye") q ∧
      (q.RaisesOnly (Taken ["uniq_slug"]) sample.loc samplePublished ↔
        (∀ text ∈ q.texts, storable text) ∧ samplePublished.articlesSeq < maxInt ∧ "good-bye".length ≤ 255 ∧
          ((∀ a ∈ samplePublished.articles, a.slug ≠ "good-bye") →
            (∃ u ∈ samplePublished.users, u.userId = 1) ∧
              samplePublished.tagsSeq + (["news"].length : Nat) ≤ maxInt)) :=
  have token : (samplePublish 1 "Good bye").caller sample = some (sampleData 1) := by decide
  (articles_storable_iff samplePublished_reachable token).1 rfl _ _
    (samplePublish_accepted sample 1 (by decide)) (by decide)

/-- A title of 128 letters is accepted; its slug of 256 letters is refused by the database. -/
theorem long_slug_refused :
    let call := samplePublish 1 sampleLongTitle
    Reachable sampleExpanding sampleAuthor ∧
      (∃ newArticle, Handlers.Articles.Post.parsed sampleExpanding call.request = .ok newArticle) ∧
      ∃ q, Issues sampleExpanding call q ∧
        ¬ q.RaisesOnly (Taken ["uniq_slug"]) sampleExpanding.loc sampleAuthor := by
  have token : (samplePublish 1 sampleLongTitle).caller sampleExpanding = some (sampleData 1) := by
    decide
  have size : sampleLongTitle.length = 128 := String.length_ofList.trans List.length_replicate
  have accepted := @samplePublish_accepted sampleExpanding 1 sampleLongTitle (by omega)
  refine ⟨sampleAuthor_reachable, ⟨_, accepted⟩, _,
    PublishRequest.issues ⟨rfl, accepted, sampleLongTitle_slug, _, token, rfl⟩, ?_⟩
  intro raises
  obtain ⟨_, _, fits, _⟩ := (addNewArticle_storable_iff sampleAuthor_reachable
    (Handlers.Articles.Post.parsed_sizes accepted).1 (Handlers.Articles.Post.parsed_sizes accepted).2).mp raises
  have length : sampleLongSlug.length = 256 := String.length_ofList.trans List.length_replicate
  omega

end RealWorld
