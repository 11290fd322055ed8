import Mathlib.Data.List.Dedup
import RealWorld.Schema.Lookups
import RealWorld.Transactional.Rely

/-!
# Tag lists

A new article is linked to the tags of its list, and no statement changes the tags of an article that stays.
-/

namespace RealWorld.Schema
open Relational Transactional

/-- The article is linked to the tags of `names` and to no others. -/
structure Linked (t : Tables) (articleId : Int) (names : List String) : Prop where
  present : ∀ name ∈ names, ∃ tag ∈ t.tags, tag.name = some name
  exact : ∀ tagId, { articleId := articleId, tagId := tagId : ArticleTag } ∈ t.articleTags ↔
    ∃ tag ∈ t.tags, tag.tagId = tagId ∧ ∃ name ∈ names, tag.name = some name

section
variable {loc : DbLocale} {t : Tables} {articleId : Int} {names : List String}

theorem mem_getArticleTagList {o : Option String} : o ∈ getArticleTagList loc t articleId ↔
    ∃ l ∈ t.articleTags, l.articleId = articleId ∧ ∃ tag ∈ t.tags, tag.tagId = l.tagId ∧ tag.name = o := by
  unfold getArticleTagList
  rw [(List.perm_insertionSort _ _).mem_iff]
  simp only [List.mem_flatMap, List.mem_map, List.mem_filter, decide_eq_true_eq, and_assoc]

theorem nodup_getArticleTagList {s : Store} (h : Valid loc s) (articleId : Int) :
    (getArticleTagList loc s.toTables articleId).Nodup := by
  unfold getArticleTagList
  rw [(List.perm_insertionSort _ _).nodup_iff, List.nodup_flatMap]
  constructor
  · intro l _
    exact h.tag_names.sublist (List.filter_sublist.map _)
  · refine (h.pk_article_tags.filter _).imp_of_mem fun {l l'} member member' different => ?_
    intro name listed listed'
    simp only [List.mem_map, List.mem_filter, decide_eq_true_eq] at member member' listed listed'
    obtain ⟨tag, ⟨mem, same⟩, rfl⟩ := listed
    obtain ⟨tag', ⟨mem', same'⟩, named⟩ := listed'
    obtain rfl := key_inj h.tag_names mem' mem named
    refine different ?_
    cases l
    cases l'
    simp_all

/-- The collation behind ORDER BY on text compares any two texts, and transitively. -/
structure DbLocale.Collates (loc : DbLocale) : Prop where
  total : ∀ a b, loc.collateLe a b ∨ loc.collateLe b a
  trans : ∀ a b c, loc.collateLe a b → loc.collateLe b c → loc.collateLe a c

theorem DbLocale.Collates.sorted (collates : loc.Collates) (t : Tables) (articleId : Int) :
    (getArticleTagList loc t articleId).Pairwise fun a b => nameLe loc a b := by
  have total : Std.Total fun a b : Option String => nameLe loc a b = true := by
    refine ⟨fun a b => ?_⟩
    rcases a with _ | a <;> rcases b with _ | b
    · exact .inl rfl
    · exact .inr rfl
    · exact .inl rfl
    · exact collates.total a b
  have trans : IsTrans (Option String) fun a b => nameLe loc a b = true := by
    refine ⟨fun a b c first second => ?_⟩
    rcases c with _ | c
    · cases a <;> rfl
    · rcases b with _ | b
      · cases second
      · rcases a with _ | a
        · cases first
        · exact collates.trans a b c first second
  exact List.pairwise_insertionSort _ _

theorem Linked.perm {s : Store} (h : Linked s.toTables articleId names) (valid : Valid loc s) :
    (getArticleTagList loc s.toTables articleId).Perm (names.dedup.map some) := by
  refine (List.perm_ext_iff_of_nodup (nodup_getArticleTagList valid articleId)
    (names.nodup_dedup.map (Option.some_injective _))).mpr fun o => ?_
  rw [mem_getArticleTagList, List.mem_map]
  constructor
  · rintro ⟨⟨_, tagId⟩, member, rfl, tag, mem, same, rfl⟩
    obtain ⟨tag', mem', same', name, listed, named⟩ := (h.exact tagId).mp member
    obtain rfl := key_inj valid.pk_tags mem mem' (same.trans same'.symm)
    exact ⟨name, List.mem_dedup.mpr listed, named.symm⟩
  · rintro ⟨name, listed, rfl⟩
    have wanted := List.mem_dedup.mp listed
    obtain ⟨tag, mem, named⟩ := h.present name wanted
    exact ⟨_, (h.exact tag.tagId).mpr ⟨tag, mem, rfl, name, wanted, named⟩, rfl, tag, mem, rfl, named⟩

end

/-! ### New tags -/

section
variable {loc : DbLocale} {m : Moment} {s s' : Store}

theorem insertTag_tags (h : Valid loc s) (name : String) :
    (∃ tag ∈ s.tags, tag.name = some name) ∧ (s.insertTag name).tags = s.tags ∨
      (s.insertTag name).tags = s.tags ++ [{ tagId := s.tagsSeq + 1, name := some name }] := by
  unfold Store.insertTag
  split
  · rename_i conflict
    obtain ⟨tag, member, same | named⟩ := conflict
    · have bounded := (h.serial_tags tag member).2
      omega
    · exact .inl ⟨⟨tag, member, named⟩, rfl⟩
  · exact .inr rfl

/-- What a list of names adds to `tags`. -/
structure TagsGained (s : Store) (names : List String) (gained : List Tag) : Prop where
  fresh : ∀ tag ∈ gained, s.tagsSeq < tag.tagId
  listed : ∀ tag ∈ gained, ∃ name ∈ names, tag.name = some name
  present : ∀ name ∈ names, ∃ tag ∈ s.tags ++ gained, tag.name = some name

/-- As names stay unique, what is gained are the names that were lacking. -/
theorem TagsGained.names {names : List String} {gained : List Tag} (h : TagsGained s names gained)
    (unique : ((s.tags ++ gained).map (·.name)).Nodup) (o : Option String) :
    o ∈ gained.map (·.name) ↔ ∃ name ∈ names, o = some name ∧ o ∉ s.tags.map (·.name) := by
  rw [List.map_append] at unique
  constructor
  · intro new
    obtain ⟨tag, member, rfl⟩ := List.mem_map.mp new
    obtain ⟨name, wanted, named⟩ := h.listed tag member
    exact ⟨name, wanted, named, fun known => List.disjoint_of_nodup_append unique known new⟩
  · rintro ⟨name, wanted, rfl, lacking⟩
    obtain ⟨tag, member, named⟩ := h.present name wanted
    rw [← named] at lacking ⊢
    rcases List.mem_append.mp member with known | new
    · exact absurd (List.mem_map_of_mem known) lacking
    · exact List.mem_map_of_mem new

theorem insertTags_gained (h : Valid loc s) {names : List String} {u : Unit} (done : insertTags names s = .ok u s') :
    ∃ gained, s'.tags = s.tags ++ gained ∧ TagsGained s names gained := by
  induction names generalizing s with
  | nil =>
    obtain ⟨_, rfl⟩ := pure_ok.mp done
    exact ⟨[], (List.append_nil _).symm, nofun, nofun, nofun⟩
  | cons name names ih =>
    obtain ⟨room, _, rest⟩ := insertTags_cons_ok.mp done
    obtain ⟨gained, tags, ids, named, present⟩ := ih (h.insertTag room name) rest
    have later : ∀ tag ∈ gained, s.tagsSeq < tag.tagId := fun tag member =>
      (Int.lt_add_one_of_le le_rfl).trans (ids tag member)
    have listed : ∀ tag ∈ gained, ∃ name' ∈ name :: names, tag.name = some name' := fun tag member => by
      obtain ⟨name', mem, same⟩ := named tag member
      exact ⟨name', List.mem_cons_of_mem _ mem, same⟩
    rcases insertTag_tags h name with ⟨⟨tag, known, same⟩, kept⟩ | added
    · rw [kept] at tags present
      exact ⟨gained, tags, later, listed,
        List.forall_mem_cons.mpr ⟨⟨tag, List.mem_append_left _ known, same⟩, present⟩⟩
    · rw [added, List.append_assoc, List.singleton_append] at tags present
      refine ⟨_, tags, List.forall_mem_cons.mpr ⟨Int.lt_add_one_of_le le_rfl, later⟩,
        List.forall_mem_cons.mpr ⟨⟨name, List.mem_cons_self, rfl⟩, listed⟩, List.forall_mem_cons.mpr ⟨?_, present⟩⟩
      exact ⟨_, List.mem_append_right _ List.mem_cons_self, rfl⟩

/-- What a successful `add_new_article` leaves, up to ids drawn from the sequence of `tags`. -/
theorem addNewArticle_tagged (h : Valid loc s) {title slug description body : String} {authorId articleId : Int}
    {tagList : Option (List String)} (text : storable slug)
    (done : addNewArticle m title slug description body authorId tagList s = .ok articleId s') :
    (∃ gained, s'.tags = s.tags ++ gained ∧ TagsGained s (tagList.getD []) gained) ∧
      Linked s'.toTables articleId (tagList.getD []) := by
  obtain ⟨s₁, s₂, first, second, third⟩ := addNewArticle_ok.mp done
  have valid := h.insertArticles text first
  obtain ⟨_, _, _, _, _, _, rfl, rfl⟩ := insertArticles_ok.mp first
  obtain ⟨gained, tags, fresh, listed, present⟩ := insertTags_gained valid second
  have links := congrArg (fun t : Store => t.articleTags) (insertTags_frame second)
  obtain ⟨_, _, _, rfl⟩ := insertArticleTags_ok.mp third
  refine ⟨⟨gained, tags, fresh, listed, present⟩, fun name member => ?_, fun tagId => ?_⟩
  · exact tags ▸ present name member
  · have unlinked : ({ articleId := s.articlesSeq + 1, tagId := tagId } : ArticleTag) ∉ s₂.articleTags := by
      intro member
      obtain ⟨a, mem, same⟩ := h.article_tags_fk_article _ (links ▸ member)
      have bounded := (h.serial_articles a mem).2
      have next : a.articleId = s.articlesSeq + 1 := same
      omega
    rw [List.mem_append, or_iff_right unlinked]
    simp only [List.mem_map, List.mem_filter, decide_eq_true_eq, ArticleTag.mk.injEq, true_and]
    constructor
    · rintro ⟨tag, ⟨member, name, wanted, named⟩, same⟩
      exact ⟨tag, member, same, name, wanted, named⟩
    · rintro ⟨tag, member, same, name, wanted, named⟩
      exact ⟨tag, ⟨member, name, wanted, named⟩, same⟩

/-! ### Articles that stay -/

/-- What a later store has kept of the articles of `s`: those that are still there have their tags. -/
structure TagsKept (loc : DbLocale) (s s' : Store) : Prop where
  valid : Valid loc s'
  drawn : s.articlesSeq ≤ s'.articlesSeq
  known : ∀ a ∈ s'.articles, a.articleId ≤ s.articlesSeq → ∃ b ∈ s.articles, b.articleId = a.articleId
  tags : ∀ a ∈ s'.articles, a.articleId ≤ s.articlesSeq →
    getArticleTagList loc s'.toTables a.articleId = getArticleTagList loc s.toTables a.articleId

theorem getArticleTagList_congr {t t' : Tables} {articleId : Int}
    (links : t'.articleTags.filter (fun l => l.articleId = articleId) = t.articleTags.filter fun l => l.articleId = articleId)
    (tags : ∀ l ∈ t.articleTags, t'.tags.filter (fun tag => tag.tagId = l.tagId) = t.tags.filter fun tag => tag.tagId = l.tagId) :
    getArticleTagList loc t' articleId = getArticleTagList loc t articleId := by
  unfold getArticleTagList
  rw [links]
  refine congrArg _ (List.flatMap_congr fun l member => ?_)
  rw [tags l (List.mem_filter.mp member).1]

theorem TagsKept.of_rows (valid : Valid loc s') (drawn : s.articlesSeq ≤ s'.articlesSeq)
    (known : ∀ a ∈ s'.articles, a.articleId ≤ s.articlesSeq → ∃ b ∈ s.articles, b.articleId = a.articleId)
    (links : s'.articleTags = s.articleTags) (tags : s'.tags = s.tags) : TagsKept loc s s' :=
  ⟨valid, drawn, known, fun _ _ _ => getArticleTagList_congr (by rw [links]) fun _ _ => by rw [tags]⟩

theorem TagsKept.added (h : Valid loc s) (valid : Valid loc s') {title slug description body : String}
    {authorId articleId : Int} {tagList : Option (List String)} (text : storable slug)
    (done : addNewArticle m title slug description body authorId tagList s = .ok articleId s') : TagsKept loc s s' := by
  obtain ⟨⟨gained, tags, fresh, _, _⟩, _⟩ := addNewArticle_tagged h text done
  obtain ⟨rfl, links, own, store⟩ := addNewArticle_store done
  have articles := congrArg (fun t : Store => t.articles) store
  have linked : s'.articleTags = s.articleTags ++ links := congrArg (fun t : Store => t.articleTags) store
  have drawn : s'.articlesSeq = s.articlesSeq + 1 := congrArg (fun t : Store => t.articlesSeq) store
  refine ⟨valid, by omega, fun a member old => ?_, fun a member old => getArticleTagList_congr ?_ fun l member => ?_⟩
  · rw [articles] at member
    rcases List.mem_append.mp member with stored | new
    · exact ⟨a, stored, rfl⟩
    · rw [List.mem_singleton.mp new] at old
      have next : s.articlesSeq + 1 ≤ s.articlesSeq := old
      omega
  · rw [linked]
    refine filter_key_append fun l new => ?_
    rw [own l new]
    omega
  · obtain ⟨tag, mem, same⟩ := h.article_tags_fk_tag l member
    have bounded := (h.serial_tags tag mem).2
    rw [tags]
    refine filter_key_append fun tag' new => ?_
    have later := fresh tag' new
    omega

theorem TagsKept.deleted (h : Valid loc s) {slug : String} {authorId : Int} {u : Unit}
    (done : deleteArticleBySlug slug authorId s = .ok u s') : TagsKept loc s s' := by
  have valid := h.deleteArticleBySlug done
  obtain ⟨_, rfl⟩ := deleteArticleBySlug_ok.mp done
  refine ⟨valid, le_rfl, fun a member _ => ⟨a, (List.mem_filter.mp member).1, rfl⟩, fun a member _ => ?_⟩
  refine getArticleTagList_congr ?_ fun _ _ => rfl
  obtain ⟨stored, stays⟩ := List.mem_filter.mp member
  rw [List.filter_filter]
  refine List.filter_congr fun l _ => ?_
  by_cases own : l.articleId = a.articleId
  · have outside : a.articleId ∉ ownedBySlug s.toTables slug authorId := fun owned => by
      obtain ⟨b, mem, hit, same⟩ := mem_ownedBySlug.mp owned
      obtain rfl := article_eq h.toConstraints mem stored same
      rw [decide_eq_true hit] at stays
      cases stays
    rw [own, decide_eq_true outside, Bool.and_true]
  · rw [decide_eq_false own, Bool.false_and]

theorem Effect.tagsKept {q : Sql} {rows : List q.Row} (effect : Effect loc m s q rows s')
    (texts : ∀ text ∈ q.texts, storable text) (h : Valid loc s) (drawn : s.articlesSeq ≤ s'.articlesSeq)
    (valid : Valid loc s') : TagsKept loc s s' := by
  by_cases changes : q.changesArticles
  · cases effect with
    | addNewArticle done => exact .added h valid (texts _ (by simp [Sql.texts])) done
    | updateArticleBySlug done =>
      obtain ⟨_, _, rfl⟩ := updateArticleBySlug_ok.mp done
      refine .of_rows valid drawn (fun a member _ => ?_) rfl rfl
      obtain ⟨b, mem, rfl⟩ := List.mem_map.mp member
      refine ⟨b, mem, ?_⟩
      split <;> rfl
    | deleteArticleBySlug done => exact .deleted h done
    | _ => cases changes
  · obtain ⟨articles, links, tags⟩ := effect.articles_kept changes
    exact .of_rows valid drawn (fun a member _ => ⟨a, articles ▸ member, rfl⟩) links tags

def Sql.deletesArticles : Sql → Prop
  | .deleteArticleBySlug .. => True
  | _ => False

theorem Effect.article_stays {q : Sql} {rows : List q.Row} (effect : Effect loc m s q rows s') (other : ¬ q.deletesArticles)
    {a : Article} (member : a ∈ s.articles) : ∃ a' ∈ s'.articles, a'.articleId = a.articleId := by
  by_cases changes : q.changesArticles
  · cases effect with
    | addNewArticle done =>
      obtain ⟨_, _, _, store⟩ := addNewArticle_store done
      rw [store]
      exact ⟨a, List.mem_append_left _ member, rfl⟩
    | updateArticleBySlug done =>
      obtain ⟨_, _, rfl⟩ := updateArticleBySlug_ok.mp done
      refine ⟨_, List.mem_map_of_mem member, ?_⟩
      split <;> rfl
    | deleteArticleBySlug _ => exact absurd trivial other
    | _ => cases changes
  · exact ⟨a, (effect.articles_kept changes).1 ▸ member, rfl⟩

/-- Only a delete takes away an article. -/
theorem Sql.exec_article_stays {q : Sql} (other : ¬ q.deletesArticles) {articleId : Int}
    (stored : ∃ a ∈ s.articles, a.articleId = articleId) : ∃ a ∈ (q.exec loc m s).2.articles, a.articleId = articleId := by
  rcases Sql.exec_cases (Prod.mk.eta (p := q.exec loc m s)).symm with same | ⟨rows, _, _, effect⟩
  · rwa [same]
  · obtain ⟨a, member, rfl⟩ := stored
    exact effect.article_stays other member

/-- Whatever is executed, an article that is still there has its tags. -/
def Store.TagsStay (loc : DbLocale) (s s' : Store) : Prop := Valid loc s → TagsKept loc s s'

theorem tagsStay_guaranteed (loc : DbLocale) : Guaranteed (Sql.exec loc) (Store.TagsStay loc) where
  refl s h := .of_rows h le_rfl (fun a member _ => ⟨a, member, rfl⟩) rfl rfl
  trans {s₁ s₂ s₃} first second h := by
    obtain ⟨valid, drawn, known, tags⟩ := first h
    obtain ⟨valid', drawn', known', tags'⟩ := second valid
    refine ⟨valid', drawn.trans drawn', fun a member old => ?_, fun a member old => ?_⟩
    · obtain ⟨b, mem, same⟩ := known' a member (old.trans drawn)
      rw [← same] at old ⊢
      exact known b mem old
    · obtain ⟨b, mem, same⟩ := known' a member (old.trans drawn)
      rw [tags' a member (old.trans drawn)]
      rw [← same] at old ⊢
      exact tags b mem old
  step q m s h := by
    have drawn := (@Sql.exec_draws loc m s q).grown .articles
    rcases Sql.exec_cases (Prod.mk.eta (p := q.exec loc m s)).symm with same | ⟨rows, answer, _, effect⟩
    · have rows := congrArg Tables.articles same
      exact .of_rows (h.exec q) drawn (fun a member _ => ⟨a, rows ▸ member, rfl⟩) (congrArg Tables.articleTags same)
        (congrArg Tables.tags same)
    · have texts := (Sql.exec_ok.mp (Prod.ext answer rfl : q.exec loc m s = (.ok rows, _))).1
      exact effect.tagsKept (List.all_eq_true.mp texts) h drawn (h.exec q)

end

end RealWorld.Schema
