import RealWorld.Properties.ArticleUpdate
import RealWorld.Properties.SlugConflicts
import RealWorld.Properties.Slugs

/-!
# Resubmitting an article

What creation accepts is stored, and what is stored is returned. An update that supplies it again passes its
parser unless the title has the one length that only creation accepts.
-/

namespace RealWorld
open Schema Relational Transactional

/-! ### What is stored has been checked -/

/-- The texts of an article have passed the checks of creation and the encoding of the database. -/
structure Schema.Article.Checked (a : Article) : Prop where
  title : Within 3 256 a.title
  description : Within 5 8192 a.description
  body : Within 5 65535 a.body
  texts : ∀ text ∈ [a.title, a.description, a.body], storable text

structure ArticlesChecked (t : Tables) : Prop where
  articles : ∀ a ∈ t.articles, a.Checked
  tags : ∀ tag ∈ t.tags, ∀ name, tag.name = some name → Within 2 256 name

/-- A statement that stores texts of an article stores checked ones. -/
def Schema.Sql.Checked : Sql → Prop
  | .addNewArticle title _ description body _ tagList =>
      ({ title, description, body, tagList } : Dto.NewArticleRequest).Checked
  | .updateArticleBySlug slug _ title _ description body =>
      ({ slug, title, description, body, tagList := none } : Dto.UpdateArticleRequest).Checked
  | _ => True

theorem handler_checked (svc : Service) (call : Call) (auth : Option UserAuthData) :
    Writes Sql.Checked (handler svc call auth) := by
  apply handler_articleTexts
  · intro q post put
    cases q with
    | addNewArticle => exact absurd rfl post
    | updateArticleBySlug => exact absurd rfl put
    | _ => trivial
  · apply Handlers.Articles.Post.writes_of
    intro newArticle slug data _ parsed _
    exact Handlers.Articles.Post.parsed_checked parsed
  · apply Handlers.ArticlesSlug.Put.writes_of
    intro update newSlug data _ parsed _
    have checked := Handlers.ArticlesSlug.Put.parsed_checked parsed
    exact ⟨checked.title, checked.description, checked.body, nofun⟩

section
variable {loc : DbLocale} {m : Moment} {s s' : Store}

theorem Schema.Article.Checked.update {a : Article} (h : a.Checked) {oldSlug : String} {authorId : Int}
    {title newSlug description body : Option String}
    (checked : (Sql.updateArticleBySlug oldSlug authorId title newSlug description body).Checked)
    (texts : ∀ text ∈ (Sql.updateArticleBySlug oldSlug authorId title newSlug description body).texts, storable text) :
    (a.update m title newSlug description body).Checked := by
  have supplied : ∀ column ∈ [title, newSlug, description, body], ∀ text ∈ column, storable text := by
    intro column member text given
    apply texts
    exact List.mem_cons_of_mem _ (List.mem_filterMap.mpr ⟨column, member, given⟩)
  have stored := h.texts
  simp only [List.forall_mem_cons] at supplied stored
  obtain ⟨wide, _, described, written, _⟩ := supplied
  constructor
  · exact getD_holds (fun text given => ⟨(checked.title text given).1, Nat.lt_succ_of_lt (checked.title text given).2⟩)
      h.title
  · exact getD_holds checked.description h.description
  · exact getD_holds checked.body h.body
  · simp only [List.forall_mem_cons]
    exact ⟨getD_holds wide stored.1, getD_holds described stored.2.1, getD_holds written stored.2.2.1, stored.2.2.2⟩

theorem ArticlesChecked.effect {q : Sql} {rows : List q.Row} (h : ArticlesChecked s.toTables) (valid : Valid loc s)
    (checked : q.Checked) (texts : ∀ text ∈ q.texts, storable text) (effect : Effect loc m s q rows s') :
    ArticlesChecked s'.toTables := by
  by_cases changes : q.changesArticles
  · cases effect with
    | addNewArticle done =>
      rename_i title slug description body authorId articleId tagList
      obtain ⟨⟨gained, tags, _, listed, _⟩, _⟩ := addNewArticle_tagged valid (texts slug (by simp [Sql.texts])) done
      obtain ⟨_, links, _, store⟩ := addNewArticle_store done
      have articles := congrArg (fun t : Store => t.articles) store
      constructor
      · rw [articles]
        refine List.forall_mem_append.mpr ⟨h.articles, List.forall_mem_singleton.mpr ?_⟩
        refine ⟨checked.title, checked.description, checked.body, fun text member => texts text ?_⟩
        simp only [List.mem_cons, List.not_mem_nil, or_false] at member
        rcases member with rfl | rfl | rfl <;> simp [Sql.texts]
      · rw [tags]
        refine List.forall_mem_append.mpr ⟨h.tags, fun tag member name named => ?_⟩
        obtain ⟨given, wanted, same⟩ := listed tag member
        cases same.symm.trans named
        exact checked.tagList _ wanted
    | updateArticleBySlug done =>
      obtain ⟨_, _, rfl⟩ := updateArticleBySlug_ok.mp done
      refine ⟨List.forall_mem_map.mpr fun a member => ?_, h.tags⟩
      split
      · exact (h.articles a member).update checked texts
      · exact h.articles a member
    | deleteArticleBySlug done =>
      obtain ⟨_, rfl⟩ := deleteArticleBySlug_ok.mp done
      exact ⟨fun a member => h.articles a (List.mem_filter.mp member).1, h.tags⟩
    | _ => cases changes
  · obtain ⟨articles, _, tags⟩ := effect.articles_kept changes
    exact ⟨articles ▸ h.articles, tags ▸ h.tags⟩

theorem ArticlesChecked.exec (q : Sql) (m : Moment) (s : Store) (checked : q.writes → q.Checked)
    (h : Valid loc s ∧ ArticlesChecked s.toTables) :
    Valid loc (q.exec loc m s).2 ∧ ArticlesChecked (q.exec loc m s).2.toTables := by
  refine ⟨h.1.exec q, ?_⟩
  have answer : q.exec loc m s = ((q.exec loc m s).1, (q.exec loc m s).2) := rfl
  rcases Sql.exec_cases answer with same | ⟨rows, succeeded, writes, effect⟩
  · rw [same]
    exact h.2
  · have texts := (Sql.exec_ok.mp (Prod.ext succeeded rfl)).1
    exact h.2.effect h.1 (checked writes) (List.all_eq_true.mp texts) effect

end

theorem Reachable.articlesChecked {svc : Service} {s : Store} (h : Reachable svc s) : ArticlesChecked s.toTables := by
  have issued : ∀ call, (serve svc call).All fun q => q.writes → q.Checked := fun call =>
    serve_rule (fun p => p.All fun q => q.writes → q.Checked) (fun _ => trivial) (fun _ => trivial)
      fun auth => (handler_checked svc call auth).all
  have start : Valid svc.loc Store.empty ∧ ArticlesChecked Store.empty.toTables :=
    ⟨valid_empty svc.loc, nofun, nofun⟩
  exact (h.invariant start issued ArticlesChecked.exec).2

theorem Reachable.slugged {svc : Service} {s : Store} (h : Reachable svc s) : Slugged svc.icu s.toTables :=
  h.invariant nofun (serve_slugs svc) Slugged.exec

/-! ### The request -/

/-- `["article"][name]` of a response. -/
def Response.articleField (r : Response) (name : String) : Except Exn Value := do
  (← Value.member (some r.body) "article").member name

/-- The response shows the article `a` of `s`: it answers a view of the article, or the creation or the update
that left `s`. -/
inductive Returned (svc : Service) (s : Store) (a : Article) : Response → Prop where
  | viewed {view : Call} {ms : Nat → Moment} (get : view.route = .getArticlesSlug)
      (slug : view.request.getPathArg "slug" = a.slug) (success : (respond svc view ms s).1.success) :
      Returned svc s a (respond svc view ms s).1
  | written {before : Store} {call : Call} {ms : Nat → Moment} (reachable : Reachable svc before)
      (route : call.route = .postArticles ∨ call.route = .putArticlesSlug) (left : (respond svc call ms before).2 = s)
      (success : (respond svc call ms before).1.success)
      (named : (respond svc call ms before).1.articleSlug = .ok a.slug) : Returned svc s a (respond svc call ms before).1

/-- A request by the author of `a`, to its slug, with the fields that `returned` shows of it. -/
structure Resubmits (svc : Service) (call : Call) (a : Article) (returned : Response) : Prop where
  route : call.route = .putArticlesSlug
  slug : call.request.getPathArg "slug" = a.slug
  author : ∃ data, call.caller svc = some data ∧ data.id = a.authorId
  fields : ∀ name ∈ ["title", "description", "body", "tagList"], call.field "article" name = returned.articleField name

/-- The request succeeds, and the article has the title, slug, description, body and tags it had. -/
structure ResubmissionKept (svc : Service) (call : Call) (ms : Nat → Moment) (s : Store) (a : Article) : Prop where
  success : (respond svc call ms s).1.success
  article : ∃ a' ∈ (respond svc call ms s).2.articles, a'.articleId = a.articleId ∧ a'.title = a.title ∧
    a'.slug = a.slug ∧ a'.description = a.description ∧ a'.body = a.body
  tagList : getArticleTagList svc.loc (respond svc call ms s).2.toTables a.articleId =
    getArticleTagList svc.loc s.toTables a.articleId

section
variable {svc : Service} {s : Store} {a : Article} {returned : Response} {call : Call} {ms : Nat → Moment}

theorem Returned.model (shown : Returned svc s a returned) (h : Valid svc.loc s) (member : a ∈ s.articles) :
    ∃ viewer u, returned = ⟨200, articleBody svc (a.model svc.loc s.toTables viewer u)⟩ := by
  cases shown with
  | viewed get slug success =>
    obtain ⟨viewer, u, _, _, shown⟩ := getArticle_success h member get slug success
    exact ⟨viewer, u, shown⟩
  | @written before call ms reachable route left success named =>
    obtain ⟨b, stored, viewer, u, answered⟩ : ∃ b ∈ s.articles, ∃ viewer u, (respond svc call ms before).1 =
        ⟨200, articleBody svc (b.model svc.loc s.toTables viewer u)⟩ := by
      subst left
      rcases route with post | put
      · obtain ⟨newArticle, slug, caller, request⟩ := PublishRequest.of_success post success
        obtain ⟨articleId, _, stored, u, _, _, answered⟩ := request.succeeded reachable.valid success
        exact ⟨_, stored, _, u, answered⟩
      · obtain ⟨update, newSlug, caller, request⟩ := EditRequest.of_success put success
        obtain ⟨b, mem, _, _, _, replaced, u, _, _, answered⟩ := request.succeeded reachable.valid success
        have stored := (mem_replaceArticle mem (editedRow (ms 0) update newSlug b) rfl).mpr (.inl rfl)
        exact ⟨_, replaced ▸ stored, _, u, answered⟩
    rw [answered, articleBody_slug] at named
    obtain rfl := key_inj h.uniq_slug stored member (Except.ok.inj named)
    exact ⟨viewer, u, answered⟩

/-- What a successful creation answers shows the article it created. -/
theorem PublishRequest.shows_created {newArticle : Dto.NewArticleRequest} {slug : String} {caller : Int}
    (request : PublishRequest svc call newArticle slug caller) (reachable : Reachable svc s)
    (success : (respond svc call ms s).1.success) :
    ∃ a ∈ (respond svc call ms s).2.articles, a.title = newArticle.title ∧ a.slug = slug ∧ a.authorId = caller ∧
      Returned svc (respond svc call ms s).2 a (respond svc call ms s).1 := by
  obtain ⟨articleId, _, member, u, _, _, answered⟩ := request.succeeded reachable.valid success
  refine ⟨_, member, rfl, rfl, rfl, .written reachable (.inl request.route) rfl success ?_⟩
  rw [answered]
  exact articleBody_slug svc _

/-- What the request supplies are the columns of the article and its tags. -/
theorem Resubmits.supplied (resubmits : Resubmits svc call a returned) (shown : Returned svc s a returned)
    (h : Valid svc.loc s) (member : a ∈ s.articles) :
    call.field "article" "title" = .ok (some (.str a.title)) ∧
    call.field "article" "description" = .ok (some (.str a.description)) ∧
    call.field "article" "body" = .ok (some (.str a.body)) ∧
    call.field "article" "tagList" = .ok (some (.arr ((tagNames svc.loc s.toTables a.articleId).map .str))) := by
  obtain ⟨viewer, u, rfl⟩ := shown.model h member
  have fields := resubmits.fields
  simp only [List.forall_mem_cons] at fields
  obtain ⟨title, description, body, tagList, _⟩ := fields
  exact ⟨title, description, body, tagList⟩

theorem Handlers.ArticlesSlug.Put.parsed_of {title description body : String} {tags : List String}
    (titled : call.field "article" "title" = .ok (some (.str title)))
    (described : call.field "article" "description" = .ok (some (.str description)))
    (written : call.field "article" "body" = .ok (some (.str body)))
    (tagged : call.field "article" "tagList" = .ok (some (.arr (tags.map .str)))) (wide : Within 3 255 title)
    (long : Within 5 8192 description) (full : Within 5 65535 body) (each : ∀ tag ∈ tags, Within 2 256 tag) :
    parsed call.request = .ok
      { slug := call.request.getPathArg "slug", title := some title, description := some description,
        body := some body, tagList := some (tags.map toLower) } := by
  obtain ⟨data, entered, titled⟩ := checked_bind.mp titled
  have there : ∀ {name value}, call.field "article" name = .ok value → data.member name = .ok value := by
    intro name value found
    obtain ⟨data', entered', member⟩ := checked_bind.mp found
    rwa [Except.ok.inj (entered.symm.trans entered')]
  refine checked_bind.mpr ⟨data, entered, ?_⟩
  refine checked_bind.mpr ⟨_, titled, checked_bind.mpr ⟨_, rfl, checked_bind.mpr ⟨_, checkOptional_of wide, ?_⟩⟩⟩
  refine checked_bind.mpr ⟨_, there described, checked_bind.mpr ⟨_, rfl, checked_bind.mpr ⟨_, checkOptional_of long, ?_⟩⟩⟩
  refine checked_bind.mpr ⟨_, there written, checked_bind.mpr ⟨_, rfl, checked_bind.mpr ⟨_, checkOptional_of full, ?_⟩⟩⟩
  exact checked_bind.mpr ⟨_, there tagged, checked_bind.mpr ⟨_, asOptionalStrings_array tags,
    checked_bind.mpr ⟨_, checkTagList_of each, rfl⟩⟩⟩

/-- A resubmission that succeeds has a title that an update accepts. -/
theorem Resubmits.title_of_success (resubmits : Resubmits svc call a returned) (shown : Returned svc s a returned)
    (h : Valid svc.loc s) (member : a ∈ s.articles) (success : (respond svc call ms s).1.success) :
    Within 3 255 a.title := by
  obtain ⟨update, newSlug, caller, request⟩ := EditRequest.of_success resubmits.route success
  obtain ⟨titled, _⟩ := resubmits.supplied shown h member
  obtain ⟨data, entered, titled⟩ := checked_bind.mp titled
  have checked := Handlers.ArticlesSlug.Put.parsed_checked request.parsed
  have given : update.title = some a.title := by
    rw [Handlers.ArticlesSlug.Put.parsed_supplied request.parsed]
    exact Call.supplied_of entered titled rfl
  exact checked.title _ given

theorem Resubmits.edits (resubmits : Resubmits svc call a returned) (shown : Returned svc s a returned)
    (reachable : Reachable svc s) (member : a ∈ s.articles) (short : a.title.length ≠ 255) :
    EditRequest svc call
      { slug := a.slug, title := some a.title, description := some a.description, body := some a.body,
        tagList := some ((tagNames svc.loc s.toTables a.articleId).map toLower) } (some a.slug) a.authorId := by
  obtain ⟨titled, described, written, tagged⟩ := resubmits.supplied shown reachable.valid member
  have checked := reachable.articlesChecked.articles a member
  have wide : Within 3 255 a.title := ⟨checked.title.1, Nat.lt_of_le_of_ne (Nat.le_of_lt_succ checked.title.2) short⟩
  have each : ∀ tag ∈ tagNames svc.loc s.toTables a.articleId, Within 2 256 tag := by
    intro tag listed
    obtain ⟨_, _, _, row, stored, _, named⟩ := mem_getArticleTagList.mp (mem_tagNames.mp listed)
    exact reachable.articlesChecked.tags row stored tag named
  have parsed := Handlers.ArticlesSlug.Put.parsed_of titled described written tagged wide checked.description
    checked.body each
  rw [resubmits.slug] at parsed
  have slugged : (some a.title).mapM (slugify svc.icu) = .ok (some a.slug) := by
    rw [Option.mapM_some, reachable.slugged a member]
    rfl
  exact ⟨resubmits.route, parsed, slugged, resubmits.author⟩

/-- The statement stores the columns it found. -/
theorem resubmission_stored (reachable : Reachable svc s) (member : a ∈ s.articles) (m : Moment) :
    (Sql.updateArticleBySlug a.slug a.authorId (some a.title) (some a.slug) (some a.description) (some a.body)).exec
      svc.loc m s = (.ok [a.articleId], { s with toTables := s.toTables.replaceArticle { a with updatedAt := m.now } }) := by
  have h := reachable.valid
  obtain ⟨fitsTitle, fitsSlug⟩ := reachable.fits.articles a member
  have stored := (reachable.articlesChecked.articles a member).texts
  have texts : ∀ text ∈ [a.slug, a.title, a.slug, a.description, a.body], storable text := by
    have slug := h.text_articles a member
    simp only [List.forall_mem_cons] at stored ⊢
    exact ⟨slug, stored.1, slug, stored.2⟩
  apply Sql.exec_ok.mpr
  refine ⟨List.all_eq_true.mpr texts, atomically_ok.mpr ?_⟩
  apply (updateArticleBySlug_own h.toConstraints member).mpr
  refine ⟨⟨fitsTitle, fitsSlug, fun b mem same => ?_⟩, rfl, rfl⟩
  rw [key_inj h.uniq_slug mem member same]

/-- The author's resubmission of what was returned succeeds and leaves the article as it was exactly if the title
has not the length that an update refuses and a creation accepts. -/
theorem resubmission_kept_iff (reachable : Reachable svc s) (member : a ∈ s.articles)
    (shown : Returned svc s a returned) (resubmits : Resubmits svc call a returned) (ms : Nat → Moment) :
    ResubmissionKept svc call ms s a ↔ a.title.length ≠ 255 := by
  have h := reachable.valid
  constructor
  · intro kept
    have within := resubmits.title_of_success shown h member kept.success
    exact Nat.ne_of_lt within.2
  · intro short
    have request := resubmits.edits shown reachable member short
    have executed := resubmission_stored reachable member (ms 0)
    have stored := (mem_replaceArticle member { a with updatedAt := (ms 0).now } rfl).mpr (.inl rfl)
    obtain ⟨u, _, _, same⟩ := request.stored (a := { a with updatedAt := (ms 0).now }) h executed stored
    constructor
    · rw [same]
      rfl
    · rw [same]
      exact ⟨_, stored, rfl, rfl, rfl, rfl, rfl⟩
    · rw [same]
      rfl

end

/-! ### Samples -/

/-- The user 1 sends back what `r` answered. -/
def sampleResubmit (slug : String) (r : Response) : Call := sampleCall .putArticlesSlug 1 [("slug", slug)] r.body

theorem sampleResubmit_resubmits {a : Article} {slug : String} (same : a.slug = slug) (author : a.authorId = 1)
    (r : Response) : Resubmits sample (sampleResubmit slug r) a r := by
  have header := @Call.caller_congr sample (sampleResubmit slug r) (samplePublish 1 "") rfl rfl
  have token : (sampleResubmit slug r).caller sample = some (sampleData 1) := header.trans (by decide)
  exact ⟨rfl, same.symm, ⟨sampleData 1, token, author.symm⟩, fun _ _ => rfl⟩

def sampleViewed : Response :=
  (respond sample { route := .getArticlesSlug, request := { pathArgs := [("slug", "hello-there")] } }
    (fun _ => sampleMoment) samplePublished).1

theorem resubmission_kept_sample :
    ResubmissionKept sample (sampleResubmit "hello-there" sampleViewed) (fun _ => sampleMoment) samplePublished
      sampleArticle ↔ sampleArticle.title.length ≠ 255 :=
  resubmission_kept_iff samplePublished_reachable (List.mem_singleton_self _)
    (.viewed rfl rfl (by decide +kernel)) (sampleResubmit_resubmits rfl rfl _) _

def sampleWidest : String := String.ofList (List.replicate 255 'a')

theorem sampleWidest_length : sampleWidest.length = 255 := String.length_ofList.trans List.length_replicate

theorem sampleWidest_slug : slugify sampleIcu sampleWidest = .ok sampleWidest := by
  have letters : transliterate sampleIcu (List.replicate 255 'a') = List.replicate 255 'a' := by decide +kernel
  have transliterated : transliterate sampleIcu sampleWidest.toList = List.replicate 255 'a' :=
    (congrArg (transliterate sampleIcu) String.toList_ofList).trans letters
  exact congrArg (fun text => Except.ok (String.ofList text)) transliterated

/-- The answer to a new article with the widest title, and the store it leaves. -/
def sampleWide : Response × Store :=
  respond sample (samplePublish 1 sampleWidest) (fun _ => sampleMoment) samplePublished

theorem sampleWide_success : sampleWide.1.success := by
  have request := samplePublish_request sampleWidest sampleWidest (by rw [sampleWidest_length]; decide) sampleWidest_slug
  have texts : ∀ text ∈ [sampleWidest, sampleWidest, "Example", "Content", "news"], storable text := by
    have wide : storable sampleWidest := by
      unfold storable sampleWidest
      rw [String.toList_ofList]
      decide +kernel
    simp only [List.forall_mem_cons]
    exact ⟨wide, wide, by decide, by decide, by decide, nofun⟩
  have reported := request.reported samplePublished_reachable.valid texts (Nat.le_of_eq sampleWidest_length)
    fun _ => sampleMoment
  apply reported.stored.mpr
  refine ⟨fun a member same => ?_, by decide, by decide, ⟨sampleUser 1 "anna", List.mem_cons_self, rfl⟩⟩
  obtain rfl := List.mem_singleton.mp member
  have length := congrArg String.length same
  rw [sampleWidest_length] at length
  exact absurd length (by decide)

/-- An article with a title of 255 letters is created, and what the creation returned is refused. -/
theorem widest_title_refused : ∃ a ∈ sampleWide.2.articles, Reachable sample sampleWide.2 ∧
    Returned sample sampleWide.2 a sampleWide.1 ∧
    Resubmits sample (sampleResubmit sampleWidest sampleWide.1) a sampleWide.1 ∧
    ¬ ResubmissionKept sample (sampleResubmit sampleWidest sampleWide.1) (fun _ => sampleMoment) sampleWide.2 a := by
  have request := samplePublish_request sampleWidest sampleWidest (by rw [sampleWidest_length]; decide) sampleWidest_slug
  have reachable : Reachable sample sampleWide.2 := samplePublished_reachable.respond _ _
  have success := sampleWide_success
  unfold sampleWide at success reachable ⊢
  obtain ⟨a, member, title, same, author, shown⟩ := request.shows_created samplePublished_reachable success
  have resubmits := sampleResubmit_resubmits same author
  refine ⟨a, member, reachable, shown, resubmits _, fun kept => ?_⟩
  have within := (resubmits _).title_of_success shown reachable.valid member kept.success
  rw [title, Within, sampleWidest_length] at within
  exact absurd within.2 (by decide)

end RealWorld
