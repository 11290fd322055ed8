import RealWorld.Handlers.Replies
import RealWorld.Properties.Paging
import RealWorld.Properties.Reachability
import RealWorld.Schema.TagLists

/-!
# The tags of a new article

The list is lowered in place, inserted with a tolerance for conflicts, linked by membership and read back in
order. The list of articles compares the tag of its filter with the stored names as it stands.
-/

namespace RealWorld
open Schema Relational Transactional

/-- The names that a request for a new article asks for. -/
def Call.loweredTags (call : Call) : List String := ((call.suppliedList "article" "tagList").getD []).map toLower

/-- The response lists the names asked for in order, and the tables hold them and everything else as before. -/
structure TagListStored (svc : Service) (call : Call) (s s' : Store) (response : Response) : Prop where
  returned : ∃ tags, response.articleTags = .ok (some tags) ∧ tags.Nodup ∧
    tags.Pairwise (fun a b => svc.loc.collateLe a b) ∧ ∀ tag, tag ∈ tags ↔ tag ∈ call.loweredTags
  gained : ∃ gained, s'.tags = s.tags ++ gained ∧ ∀ o, o ∈ gained.map (·.name) ↔
    ∃ name ∈ call.loweredTags, o = some name ∧ o ∉ s.tags.map (·.name)
  unique : (s'.tags.map (·.name)).Nodup
  others : ∀ a ∈ s.articles, a ∈ s'.articles ∧
    getArticleTagList svc.loc s'.toTables a.articleId = getArticleTagList svc.loc s.toTables a.articleId

section
variable {svc : Service} {call : Call} {s : Store} {ms : Nat → Moment}

theorem tagNames_nodup (h : Valid svc.loc s) (articleId : Int) : (tagNames svc.loc s.toTables articleId).Nodup := by
  have distinct := nodup_getArticleTagList h articleId
  rw [← map_tagNames h] at distinct
  exact distinct.of_map _

theorem tagNames_sorted (h : Valid svc.loc s) (collates : svc.loc.Collates) (articleId : Int) :
    (tagNames svc.loc s.toTables articleId).Pairwise fun a b => svc.loc.collateLe a b := by
  have sorted := collates.sorted s.toTables articleId
  rw [← map_tagNames h] at sorted
  exact List.pairwise_map.mp sorted

theorem Schema.Linked.mem_tagNames {articleId : Int} {names : List String} (linked : Linked s.toTables articleId names)
    (h : Valid svc.loc s) {name : String} : name ∈ tagNames svc.loc s.toTables articleId ↔ name ∈ names := by
  rw [RealWorld.mem_tagNames, (linked.perm h).mem_iff, List.mem_map]
  simp

section
variable {newArticle : Dto.NewArticleRequest} {slug : String} {caller : Int}

theorem PublishRequest.loweredTags (request : PublishRequest svc call newArticle slug caller) :
    newArticle.tagList.getD [] = call.loweredTags := by
  rw [Handlers.Articles.Post.parsed_supplied request.parsed]
  unfold Call.loweredTags
  cases call.suppliedList "article" "tagList" <;> rfl

theorem PublishRequest.tagged (request : PublishRequest svc call newArticle slug caller) (reachable : Reachable svc s)
    (success : (respond svc call ms s).1.success) :
    ∃ articleId gained,
      (respond svc call ms s).2.articles = s.articles ++ [newRow (ms 0) newArticle slug caller articleId] ∧
      (respond svc call ms s).2.tags = s.tags ++ gained ∧ TagsGained s call.loweredTags gained ∧
      Linked (respond svc call ms s).2.toTables articleId call.loweredTags ∧
      TagsKept svc.loc s (respond svc call ms s).2 ∧
      (respond svc call ms s).1.articleTags = .ok (some (tagNames svc.loc (respond svc call ms s).2.toTables articleId)) := by
  have text : storable slug := request.texts success slug (by simp [Sql.texts])
  obtain ⟨articleId, done, _, u, _, _, answered⟩ := request.succeeded reachable.valid success
  obtain ⟨⟨gained, tags, names⟩, linked⟩ := addNewArticle_tagged reachable.valid text done
  obtain ⟨_, links, _, store⟩ := addNewArticle_store done
  rw [request.loweredTags] at names linked
  refine ⟨articleId, gained, ?_, tags, names, linked, .added reachable.valid (reachable.respond call ms).valid text done, ?_⟩
  · exact congrArg (fun t : Store => t.articles) store
  · rw [answered]
    exact articleTags_model svc _ _ u _

end

/-- The tag list of a new article is the sorted list of the lower-cased names without repetitions, `tags` gains
the names it lacked, and the lists of the other articles stay. -/
theorem new_article_tags (reachable : Reachable svc s) (collates : svc.loc.Collates) (post : call.route = .postArticles)
    (success : (respond svc call ms s).1.success) :
    TagListStored svc call s (respond svc call ms s).2 (respond svc call ms s).1 := by
  obtain ⟨newArticle, slug, caller, request⟩ := PublishRequest.of_success post success
  obtain ⟨articleId, gained, articles, tags, names, linked, kept, answered⟩ := request.tagged reachable success
  have valid := kept.valid
  refine ⟨⟨_, answered, ?_, ?_, ?_⟩, ⟨gained, tags, ?_⟩, valid.tag_names, fun a member => ?_⟩
  · exact tagNames_nodup valid articleId
  · exact tagNames_sorted valid collates articleId
  · exact fun _ => linked.mem_tagNames valid
  · exact names.names (tags ▸ valid.tag_names)
  · have stored : a ∈ (respond svc call ms s).2.articles := articles ▸ List.mem_append_left _ member
    exact ⟨stored, kept.tags a stored (reachable.valid.serial_articles a member).2⟩

end

/-- Anna publishes a second article. -/
def sampleTagged (tags : List String) : Call :=
  sampleCall .postArticles 1 [] (.obj [("article", .obj [("title", .str "Good bye"), ("description", .str "Example"),
    ("body", .str "Content"), ("tagList", .arr (tags.map .str))])])

def sampleCreated (tags : List String) : Store := sampleServe [sampleTagged tags] samplePublished

theorem sampleLocale_collates : sampleLocale.Collates where
  total a b := by
    simpa [sampleLocale] using String.le_total a b
  trans a b c first second := by
    simp only [sampleLocale, decide_eq_true_eq] at *
    exact String.le_trans first second

theorem new_article_tags_sample :
    let call := sampleTagged ["Sport", "news", "sport"]
    TagListStored sample call samplePublished (sampleCreated ["Sport", "news", "sport"])
      (respond sample call (fun _ => sampleMoment) samplePublished).1 :=
  new_article_tags samplePublished_reachable sampleLocale_collates rfl (by decide +kernel)

/-! ### Asking for a tag -/

section
variable {svc : Service} {call : Call} {s : Store} {ms : Nat → Moment}

/-- `GET /api/articles?tag=tag` with no other filter, and with room for all articles of `s` on its page. -/
structure TagRequest (svc : Service) (view : Call) (filters : Dto.ArticlesListRequest) (tag : String) (s : Store) : Prop where
  request : ListRequest svc view filters
  tag : filters.tag = some tag
  author : filters.author = none
  favorited : filters.favorited = none
  offset : filters.offset.getD 0 = 0
  limit : (s.articles.length : Int) ≤ filters.limit.getD 20

theorem TagRequest.matches_iff {view : Call} {filters : Dto.ArticlesListRequest} {tag : String}
    (request : TagRequest svc view filters tag s) {a : Article} :
    a.Matches svc.loc s.toTables filters ↔ some tag ∈ getArticleTagList svc.loc s.toTables a.articleId := by
  unfold Article.Matches
  rw [request.tag, request.author, request.favorited, mem_getArticleTagList]
  simp

/-- As long as no article is deleted, the new one is there and has the tags of its request. -/
theorem PublishRequest.tags_stay {newArticle : Dto.NewArticleRequest} {slug : String} {caller : Int}
    (published : PublishRequest svc call newArticle slug caller) (reachable : Reachable svc s)
    (success : (respond svc call ms s).1.success) {a : Article} (created : a ∈ (respond svc call ms s).2.articles)
    (new : a ∉ s.articles) {c c' : Configuration} {es : List (Event Sql Sql.Res Store)} (run : Interleaving svc c es c')
    (start : c.store = (respond svc call ms s).2) (undeleted : ∀ e ∈ es, ¬ e.op.deletesArticles) :
    Valid svc.loc c'.store ∧ ∃ a' ∈ c'.store.articles, a'.articleId = a.articleId ∧
      ∀ name, some name ∈ getArticleTagList svc.loc c'.store.toTables a'.articleId ↔ name ∈ call.loweredTags := by
  obtain ⟨articleId, gained, articles, _, _, linked, before, _⟩ := published.tagged reachable success
  have same : a.articleId = articleId := by
    rw [articles] at created
    rw [List.mem_singleton.mp ((List.mem_append.mp created).resolve_left new)]
    rfl
  obtain ⟨a', stays, kept⟩ := run.kept (fun t => ∃ a' ∈ t.articles, a'.articleId = a.articleId)
    (fun _ _ _ other => Sql.exec_article_stays other) undeleted ⟨a, start ▸ created, rfl⟩
  have later : TagsKept svc.loc c.store c'.store := run.within (tagsStay_guaranteed svc.loc) (start ▸ before.valid)
  have drawn : a'.articleId ≤ c.store.articlesSeq := by
    rw [start, kept]
    exact (before.valid.serial_articles a created).2
  have tags := later.tags a' stays drawn
  rw [kept, same, start] at tags
  refine ⟨later.valid, a', stays, kept, fun name => ?_⟩
  rw [kept, same, tags, ← mem_tagNames]
  exact linked.mem_tagNames before.valid

theorem TagRequest.shows {view : Call} {filters : Dto.ArticlesListRequest} {tag : String}
    (request : TagRequest svc view filters tag s) (valid : Valid svc.loc s) (text : storable tag) (ms : Nat → Moment) :
    (respond svc view ms s).1.success ∧ ∀ a ∈ s.articles, a.slug ∈ (respond svc view ms s).1.slugs ↔
      some tag ∈ getArticleTagList svc.loc s.toTables a.articleId := by
  have texts : filters.texts.all storable := by
    unfold Dto.ArticlesListRequest.texts
    rw [request.tag, request.author, request.favorited]
    simp [text]
  have room : ((matching svc.loc s.toTables filters).length : Int) ≤ filters.limit.getD 20 :=
    (Int.ofNat_le.mpr (List.length_filter_le _ _)).trans request.limit
  obtain ⟨shown, listed⟩ := request.request.shows_matching valid texts request.offset room
  exact ⟨shown, fun a member => (listed a member).trans request.matches_iff⟩

/-- In every run without a deletion after it, the new article is listed under a tag of its request exactly if
lower-casing leaves the tag as it is. -/
theorem tag_filter_agrees_iff (reachable : Reachable svc s) (post : call.route = .postArticles)
    (success : (respond svc call ms s).1.success) {a : Article} (created : a ∈ (respond svc call ms s).2.articles)
    (new : a ∉ s.articles) {given : List String} (supplied : call.suppliedList "article" "tagList" = some given)
    {tag : String} (accepted : tag ∈ given) {c c' : Configuration} {es : List (Event Sql Sql.Res Store)}
    (run : Interleaving svc c es c') (start : c.store = (respond svc call ms s).2) (undeleted : ∀ e ∈ es, ¬ e.op.deletesArticles)
    {view : Call} {filters : Dto.ArticlesListRequest} (request : TagRequest svc view filters tag c'.store)
    (ms' : Nat → Moment) :
    (respond svc view ms' c'.store).1.success ∧ ∃ a' ∈ c'.store.articles, a'.articleId = a.articleId ∧
      (a'.slug ∈ (respond svc view ms' c'.store).1.slugs ↔ toLower tag = tag) := by
  obtain ⟨newArticle, slug, caller, published⟩ := PublishRequest.of_success post success
  obtain ⟨valid, a', stays, kept, tags⟩ := published.tags_stay reachable success created new run start undeleted
  have lowered : call.loweredTags = given.map toLower := by
    unfold Call.loweredTags
    rw [supplied]
    rfl
  have text : storable tag := by
    have wanted : toLower tag ∈ newArticle.tagList.getD [] := by
      rw [published.loweredTags, lowered]
      exact List.mem_map_of_mem accepted
    rw [← storable_toLower]
    exact published.texts success _ (List.mem_append_right _ wanted)
  obtain ⟨shown, listed⟩ := request.shows valid text ms'
  refine ⟨shown, a', stays, kept, ?_⟩
  rw [listed a' stays, tags, lowered, List.mem_map]
  constructor
  · rintro ⟨first, _, rfl⟩
    exact toLower_toLower first
  · exact fun unchanged => ⟨tag, accepted, unchanged⟩

end

def sampleSecond : Article :=
  { articleId := 2, title := "Good bye", slug := "good-bye", description := "Example", body := "Content",
    authorId := 1, createdAt := 0, updatedAt := 0 }

/-- `GET /api/articles?tag=tag`. -/
def sampleTagPage (tag : String) : Call := { route := .getArticles, request := { args := [("tag", tag)] } }

theorem sampleTagPage_request {tag : String} {s : Store} (room : (s.articles.length : Int) ≤ 20) :
    TagRequest sample (sampleTagPage tag) { unfiltered with tag := some tag } tag s where
  request := ⟨rfl, ⟨none, rfl⟩, rfl⟩
  tag := rfl
  author := rfl
  favorited := rfl
  offset := rfl
  limit := room

theorem sampleCreated_articles : (sampleCreated ["sport"]).articles = [sampleArticle, sampleSecond] ∧
    (sampleCreated ["News"]).articles = [sampleArticle, sampleSecond] := by decide +kernel

theorem tag_filter_agrees_sample :
    (respond sample (sampleTagPage "sport") (fun _ => sampleMoment) (sampleCreated ["sport"])).1.success ∧
      ∃ a' ∈ (sampleCreated ["sport"]).articles, a'.articleId = 2 ∧
        (a'.slug ∈ (respond sample (sampleTagPage "sport") (fun _ => sampleMoment) (sampleCreated ["sport"])).1.slugs ↔
          toLower "sport" = "sport") := by
  have room : ((sampleCreated ["sport"]).articles.length : Int) ≤ 20 := by
    rw [sampleCreated_articles.1]
    decide
  have success : (respond sample (sampleTagged ["sport"]) (fun _ => sampleMoment) samplePublished).1.success := by
    decide +kernel
  have created : sampleCreated ["sport"] =
      (respond sample (sampleTagged ["sport"]) (fun _ => sampleMoment) samplePublished).2 := rfl
  have second : sampleSecond ∈
      (respond sample (sampleTagged ["sport"]) (fun _ => sampleMoment) samplePublished).2.articles := by
    rw [← created, sampleCreated_articles.1]
    exact List.mem_cons_of_mem _ List.mem_cons_self
  have supplied : (sampleTagged ["sport"]).suppliedList "article" "tagList" = some ["sport"] := by decide +kernel
  generalize sampleCreated ["sport"] = after at *
  exact tag_filter_agrees_iff samplePublished_reachable rfl success second (by decide) supplied List.mem_cons_self
    (.refl ⟨after, []⟩) created (List.forall_mem_nil _) (sampleTagPage_request room) _

/-- An article published with the tag News is not listed under it. -/
theorem tag_filter_misses :
    Reachable sample samplePublished ∧
      (respond sample (sampleTagged ["News"]) (fun _ => sampleMoment) samplePublished).1.success ∧
      (sampleTagged ["News"]).suppliedList "article" "tagList" = some ["News"] ∧
      (sampleCreated ["News"]).articles = [sampleArticle, sampleSecond] ∧
      TagRequest sample (sampleTagPage "News") { unfiltered with tag := some "News" } "News" (sampleCreated ["News"]) ∧
      (respond sample (sampleTagPage "News") (fun _ => sampleMoment) (sampleCreated ["News"])).1.success ∧
      (respond sample (sampleTagPage "News") (fun _ => sampleMoment) (sampleCreated ["News"])).1.slugs = [] := by
  have stored := sampleCreated_articles.2
  have room : ((sampleCreated ["News"]).articles.length : Int) ≤ 20 := by
    rw [stored]
    decide
  have success : (respond sample (sampleTagged ["News"]) (fun _ => sampleMoment) samplePublished).1.success := by
    decide +kernel
  have supplied : (sampleTagged ["News"]).suppliedList "article" "tagList" = some ["News"] := by decide +kernel
  have shown : (respond sample (sampleTagPage "News") (fun _ => sampleMoment) (sampleCreated ["News"])).1.success ∧
      (respond sample (sampleTagPage "News") (fun _ => sampleMoment) (sampleCreated ["News"])).1.slugs = [] := by
    decide +kernel
  exact ⟨samplePublished_reachable, success, supplied, stored, sampleTagPage_request room, shown⟩

/-! ### The list of all tags -/

/-- Some article of `t` has a tag of this name. -/
def Carried (t : Tables) (name : String) : Prop :=
  ∃ a ∈ t.articles, ∃ l ∈ t.articleTags, l.articleId = a.articleId ∧
    ∃ tag ∈ t.tags, tag.tagId = l.tagId ∧ tag.name = some name

/-- The answer lists each name that an article carries once, and no other name. -/
def TagsListed (svc : Service) (call : Call) (ms : Nat → Moment) (s : Store) : Prop :=
  ∃ names : List String, respond svc call ms s = (⟨200, .obj [("tags", .arr (names.map .str))]⟩, s) ∧
    names.Nodup ∧ ∀ name, name ∈ names ↔ Carried s.toTables name

/-- The rows that `get_tags` joins: one for each row of `article_tags`. -/
def linkedNames (t : Tables) : List (Option String) :=
  t.articleTags.flatMap fun l => (t.tags.filter fun tag => tag.tagId = l.tagId).map (·.name)

section
variable {svc : Service} {call : Call} {s : Store} {ms : Nat → Moment} {loc : DbLocale} {t : Tables}

theorem mem_linkedNames {o : Option String} : o ∈ linkedNames t ↔
    ∃ l ∈ t.articleTags, ∃ tag ∈ t.tags, tag.tagId = l.tagId ∧ tag.name = o := by
  simp only [linkedNames, List.mem_flatMap, List.mem_map, List.mem_filter, decide_eq_true_eq, and_assoc]

theorem linkedNames_named (h : Valid loc s) : ∀ o ∈ linkedNames s.toTables, ∃ name, o = some name := by
  intro o member
  obtain ⟨_, _, tag, stored, _, rfl⟩ := mem_linkedNames.mp member
  exact h.named tag stored

/-- Every link belongs to an article that is still there. -/
theorem carried_iff (h : Constraints loc t) {name : String} : Carried t name ↔ some name ∈ linkedNames t := by
  rw [mem_linkedNames]
  constructor
  · rintro ⟨_, _, l, linked, _, named⟩
    exact ⟨l, linked, named⟩
  · rintro ⟨l, linked, named⟩
    obtain ⟨a, member, same⟩ := h.article_tags_fk_article l linked
    exact ⟨a, member, l, linked, same.symm, named⟩

/-- Without DISTINCT a name is repeated as soon as two articles have its tag. -/
theorem nodup_linkedNames (h : Valid loc s) : (linkedNames s.toTables).Nodup ↔
    ∀ l ∈ s.articleTags, ∀ l' ∈ s.articleTags, l.tagId = l'.tagId → l = l' := by
  unfold linkedNames
  rw [List.nodup_flatMap]
  constructor
  · rintro ⟨_, apart⟩ l member l' member' same
    by_contra different
    have symm : Std.Symm (Function.onFun List.Disjoint fun l : ArticleTag =>
        (s.tags.filter fun tag => tag.tagId = l.tagId).map (·.name)) := ⟨fun _ _ h _ left right => h right left⟩
    obtain ⟨tag, stored, tagged⟩ := h.article_tags_fk_tag l member
    have listed : tag ∈ s.tags.filter fun tag => tag.tagId = l.tagId :=
      List.mem_filter.mpr ⟨stored, decide_eq_true tagged⟩
    have listed' : tag ∈ s.tags.filter fun tag => tag.tagId = l'.tagId :=
      List.mem_filter.mpr ⟨stored, decide_eq_true (tagged.trans same)⟩
    exact apart.forall member member' different (List.mem_map_of_mem listed) (List.mem_map_of_mem listed')
  · intro single
    refine ⟨fun l _ => h.tag_names.sublist (List.filter_sublist.map _), ?_⟩
    refine h.pk_article_tags.imp_of_mem fun {l l'} member member' different => ?_
    intro name left right
    obtain ⟨tag, found, rfl⟩ := List.mem_map.mp left
    obtain ⟨tag', found', named⟩ := List.mem_map.mp right
    obtain ⟨stored, same⟩ := List.mem_filter.mp found
    obtain ⟨stored', same'⟩ := List.mem_filter.mp found'
    obtain rfl := key_inj h.tag_names stored' stored named
    exact different (single l member l' member' ((of_decide_eq_true same).symm.trans (of_decide_eq_true same')))

theorem respond_tags (h : Valid svc.loc s) (tags : call.route = .getTags) : respond svc call ms s =
    (⟨200, .obj [("tags", .arr ((((ms 0).scan (linkedNames s.toTables)).filterMap id).map .str))]⟩, s) := by
  have named : ∀ o ∈ (ms 0).scan (linkedNames s.toTables), ∃ name, o = some name := fun o member =>
    linkedNames_named h o (((ms 0).scan_perm _).subset member)
  have served : serve svc call = Handlers.Tags.Get.handleRequestJsonThrow := by
    simp only [serve, handler, tags, Route.auth]
  have answer : Sql.getTags.exec svc.loc (ms 0) s = (.ok ((ms 0).scan (linkedNames s.toTables)), s) := rfl
  have read : readStrings ((ms 0).scan (linkedNames s.toTables)) =
      .ok (((ms 0).scan (linkedNames s.toTables)).filterMap id) := by
    unfold readStrings
    rw [mapM_filterMap named]
  unfold respond
  rw [served, Handlers.Tags.Get.handleRequestJsonThrow, run_execute_ok answer, read]
  rfl

/-- The names of the answer are the rows of one scan. -/
theorem map_scannedNames (h : Valid loc s) (m : Moment) :
    ((m.scan (linkedNames s.toTables)).filterMap id).map some = m.scan (linkedNames s.toTables) :=
  map_filterMap fun o member => linkedNames_named h o ((m.scan_perm _).subset member)

theorem TagsListed.nodup (h : Valid svc.loc s) (tags : call.route = .getTags) (listed : TagsListed svc call ms s) :
    (linkedNames s.toTables).Nodup := by
  obtain ⟨names, answered, distinct, _⟩ := listed
  rw [respond_tags h tags] at answered
  have same : ((ms 0).scan (linkedNames s.toTables)).filterMap id = names := by
    simp only [Prod.mk.injEq, Response.mk.injEq, Json.obj.injEq, List.cons.injEq, Json.arr.injEq, and_true,
      true_and] at answered
    exact List.map_injective_iff.mpr (fun _ _ same => Json.str.inj same) answered
  rw [← ((ms 0).scan_perm _).nodup_iff, ← map_scannedNames h, same]
  exact distinct.map (Option.some_injective _)

/-- The list of tags is a set exactly when no two articles have a tag in common. -/
theorem tags_listed_iff (reachable : Reachable svc s) (tags : call.route = .getTags) (ms : Nat → Moment) :
    TagsListed svc call ms s ↔ ∀ l ∈ s.articleTags, ∀ l' ∈ s.articleTags, l.tagId = l'.tagId → l = l' := by
  have valid := reachable.valid
  rw [← nodup_linkedNames valid]
  refine ⟨fun listed => listed.nodup valid tags, fun distinct => ⟨_, respond_tags valid tags, ?_, fun name => ?_⟩⟩
  · rw [← ((ms 0).scan_perm _).nodup_iff, ← map_scannedNames valid] at distinct
    exact distinct.of_map _
  · have scanned : some name ∈ (ms 0).scan (linkedNames s.toTables) ↔ some name ∈ linkedNames s.toTables :=
      ((ms 0).scan_perm _).mem_iff
    rw [carried_iff valid.toConstraints, ← scanned, List.mem_filterMap]
    simp

end

def sampleTags : Call := { route := .getTags, request := {} }

theorem tags_listed_sample : TagsListed sample sampleTags (fun _ => sampleMoment) samplePublished ↔
    ∀ l ∈ samplePublished.articleTags, ∀ l' ∈ samplePublished.articleTags, l.tagId = l'.tagId → l = l' :=
  tags_listed_iff samplePublished_reachable rfl _

/-- Two articles have the tag news, and the answer lists it twice. -/
theorem tags_repeat : Reachable sample sampleTied ∧
    (respond sample sampleTags (fun _ => sampleMoment) sampleTied).1.success ∧
    ¬ TagsListed sample sampleTags (fun _ => sampleMoment) sampleTied := by
  have shared : ¬ (linkedNames sampleTied.toTables).Nodup := by decide +kernel
  have success : (respond sample sampleTags (fun _ => sampleMoment) sampleTied).1.success := by decide +kernel
  have reachable := sampleTied_reachable
  generalize sampleTied = tied at *
  exact ⟨reachable, success, fun listed => shared (listed.nodup reachable.valid rfl)⟩

end RealWorld
