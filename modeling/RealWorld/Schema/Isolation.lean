import RealWorld.Schema.Concurrent
import RealWorld.Schema.TagLists

/-!
# What concurrent calls keep

Every transaction sees a valid store, no two open transactions have inserted one key, and a transaction
that has passed its second statement sees every tag of its list.
-/

namespace RealWorld.Schema
open Relational

/-- The rows of two transactions meet in no key. -/
structure Pending.Apart (p q : Pending) : Prop where
  slugs : ∀ a ∈ p.articles, ∀ b ∈ q.articles, a.slug ≠ b.slug
  articleIds : ∀ a ∈ p.articles, ∀ b ∈ q.articles, a.articleId ≠ b.articleId
  names : ∀ tag ∈ p.tags, ∀ tag' ∈ q.tags, tag.name ≠ tag'.name
  tagIds : ∀ tag ∈ p.tags, ∀ tag' ∈ q.tags, tag.tagId ≠ tag'.tagId
  links : ∀ l ∈ p.articleTags, ∀ l' ∈ q.articleTags, l ≠ l'

/-- The rows of a transaction that has stored its article and the tags `behind`, over the committed
tables `c`. -/
structure Session.Tagged (c : Tables) (t : Session) (articleId : Int) (behind : List String) : Prop where
  article : t.pending.articles = [t.creation.article articleId]
  visible : ∀ name ∈ behind, ∃ tag ∈ (c.with t.pending).tags, tag.name = some name
  inserted : ∀ tag ∈ t.pending.tags, ∃ name ∈ behind, tag.name = some name

def Session.Progress (c : Tables) (t : Session) : Prop :=
  match t.stage with
  | .begun | .aborted => t.pending = {}
  | .tagging articleId ahead =>
      t.pending.articleTags = [] ∧ ∃ behind, t.creation.names = behind ++ ahead ∧ t.Tagged c articleId behind
  | .linked articleId =>
      (∀ l ∈ t.pending.articleTags, l.articleId = articleId) ∧ t.Tagged c articleId t.creation.names ∧
        Linked (c.with t.pending) articleId t.creation.names
  | .committed articleId =>
      t.pending = {} ∧ t.creation.article articleId ∈ c.articles ∧ Linked c articleId t.creation.names

structure Session.Sound (loc : DbLocale) (s : Store) (t : Session) : Prop where
  valid : Valid loc (s.with t.pending)
  progress : t.Progress s.toTables

structure Database.Sound (loc : DbLocale) (d : Database) : Prop where
  valid : Valid loc d.committed
  sessions : ∀ {i : Nat} {t : Session}, d.sessions[i]? = some t → t.Sound loc d.committed
  apart : ∀ {i j : Nat} {t u : Session}, d.sessions[i]? = some t → d.sessions[j]? = some u → i ≠ j →
    t.pending.Apart u.pending

section
variable {p q : Pending}

theorem Pending.Apart.symm (h : p.Apart q) : q.Apart p where
  slugs b right a left := (h.slugs a left b right).symm
  articleIds b right a left := (h.articleIds a left b right).symm
  names tag right tag' left := (h.names tag' left tag right).symm
  tagIds tag right tag' left := (h.tagIds tag' left tag right).symm
  links l right l' left := (h.links l' left l right).symm

theorem Pending.Apart.empty (q : Pending) : Pending.Apart {} q := ⟨nofun, nofun, nofun, nofun, nofun⟩

theorem Pending.Apart.addArticle (h : p.Apart q) {a : Article} (slugs : ∀ b ∈ q.articles, a.slug ≠ b.slug)
    (ids : ∀ b ∈ q.articles, a.articleId ≠ b.articleId) : (p.addArticle a).Apart q :=
  { h with
    slugs := List.forall_mem_append.mpr ⟨h.slugs, List.forall_mem_singleton.mpr slugs⟩
    articleIds := List.forall_mem_append.mpr ⟨h.articleIds, List.forall_mem_singleton.mpr ids⟩ }

theorem Pending.Apart.addTag (h : p.Apart q) {tag : Tag} (names : ∀ tag' ∈ q.tags, tag.name ≠ tag'.name)
    (ids : ∀ tag' ∈ q.tags, tag.tagId ≠ tag'.tagId) : (p.addTag tag).Apart q :=
  { h with
    names := List.forall_mem_append.mpr ⟨h.names, List.forall_mem_singleton.mpr names⟩
    tagIds := List.forall_mem_append.mpr ⟨h.tagIds, List.forall_mem_singleton.mpr ids⟩ }

theorem Pending.Apart.link (h : p.Apart q) {links : List ArticleTag}
    (apart : ∀ l ∈ links, ∀ l' ∈ q.articleTags, l ≠ l') : (p.link links).Apart q :=
  { h with links := List.forall_mem_append.mpr ⟨h.links, apart⟩ }

end

/-! ### Two views of one committed store -/

theorem nodup_merge {α : Type} {rows left right : List α} (h : (rows ++ left).Nodup)
    (h' : (rows ++ right).Nodup) (apart : ∀ a ∈ left, ∀ b ∈ right, a ≠ b) :
    ((rows ++ left) ++ right).Nodup := by
  rw [List.nodup_append] at h' ⊢
  refine ⟨h, h'.2.1, fun a member b member' => ?_⟩
  rcases List.mem_append.mp member with old | new
  · exact h'.2.2 a old b member'
  · exact apart a new b member'

theorem nodup_map_merge {α κ : Type} {key : α → κ} {rows left right : List α}
    (h : ((rows ++ left).map key).Nodup) (h' : ((rows ++ right).map key).Nodup)
    (apart : ∀ a ∈ left, ∀ b ∈ right, key a ≠ key b) : (((rows ++ left) ++ right).map key).Nodup := by
  rw [List.map_append] at h h'
  rw [List.map_append, List.map_append]
  refine nodup_merge h h' ?_
  intro _ member _ member'
  obtain ⟨a, listed, rfl⟩ := List.mem_map.mp member
  obtain ⟨b, listed', rfl⟩ := List.mem_map.mp member'
  exact apart a listed b listed'

theorem apart_of_nodup_map {α κ : Type} {key : α → κ} {rows more : List α}
    (unique : ((rows ++ more).map key).Nodup) : ∀ a ∈ rows, ∀ b ∈ more, key a ≠ key b := by
  rw [List.map_append, List.nodup_append] at unique
  exact fun a old b new => unique.2.2 _ (List.mem_map_of_mem old) _ (List.mem_map_of_mem new)

section
variable {loc : DbLocale} {s : Store} {p q : Pending}

theorem Valid.merge (h : Valid loc (s.with p)) (h' : Valid loc (s.with q)) (apart : p.Apart q) :
    Valid loc ((s.with p).with q) := by
  have moved : ∀ {α : Type} {rows left right : List α} {holds : α → Prop},
      (∃ r ∈ rows ++ right, holds r) → ∃ r ∈ (rows ++ left) ++ right, holds r := by
    rintro α rows left right holds ⟨r, member, held⟩
    exact ⟨r, by grind, held⟩
  have kept : ∀ {α : Type} {rows left right : List α} {holds : α → Prop},
      (∃ r ∈ rows ++ left, holds r) → ∃ r ∈ (rows ++ left) ++ right, holds r := by
    rintro α rows left right holds ⟨r, member, held⟩
    exact ⟨r, List.mem_append_left _ member, held⟩
  exact { h with
    pk_articles := nodup_map_merge h.pk_articles h'.pk_articles apart.articleIds
    uniq_slug := nodup_map_merge h.uniq_slug h'.uniq_slug apart.slugs
    fk_article_author := List.forall_mem_append.mpr
      ⟨h.fk_article_author, fun a member => h'.fk_article_author a (List.mem_append_right _ member)⟩
    pk_tags := nodup_map_merge h.pk_tags h'.pk_tags apart.tagIds
    uniq_name := uniq_name_of (nodup_map_merge h.tag_names h'.tag_names apart.names)
    pk_article_tags := nodup_merge h.pk_article_tags h'.pk_article_tags apart.links
    article_tags_fk_article := List.forall_mem_append.mpr
      ⟨fun l member => kept (h.article_tags_fk_article l member),
        fun l member => moved (h'.article_tags_fk_article l (List.mem_append_right _ member))⟩
    article_tags_fk_tag := List.forall_mem_append.mpr
      ⟨fun l member => kept (h.article_tags_fk_tag l member),
        fun l member => moved (h'.article_tags_fk_tag l (List.mem_append_right _ member))⟩
    favorites_fk_article := fun f member => kept (h.favorites_fk_article f member)
    comments_fk_article := fun c member => kept (h.comments_fk_article c member)
    serial_articles := List.forall_mem_append.mpr
      ⟨h.serial_articles, fun a member => h'.serial_articles a (List.mem_append_right _ member)⟩
    serial_tags := List.forall_mem_append.mpr
      ⟨h.serial_tags, fun tag member => h'.serial_tags tag (List.mem_append_right _ member)⟩
    named := List.forall_mem_append.mpr
      ⟨h.named, fun tag member => h'.named tag (List.mem_append_right _ member)⟩
    text_articles := List.forall_mem_append.mpr
      ⟨h.text_articles, fun a member => h'.text_articles a (List.mem_append_right _ member)⟩ }

theorem Valid.drawn (h : Valid loc (s.with p)) {seq : Sequences} (drawn : s.toSequences.Drawn seq) :
    Valid loc ((s.drawn seq).with p) := h.draw rfl drawn

/-- Further rows of other names and other articles do not change the links of an article. -/
theorem Linked.grow {t t' : Tables} {articleId : Int} {names : List String} (h : Linked t articleId names)
    (tags : List Tag) (links : List ArticleTag) (grown : ∀ tag, tag ∈ t'.tags ↔ tag ∈ t.tags ∨ tag ∈ tags)
    (linked : ∀ l, l ∈ t'.articleTags ↔ l ∈ t.articleTags ∨ l ∈ links)
    (fresh : ∀ tag ∈ tags, ∀ old ∈ t.tags, tag.name ≠ old.name) (others : ∀ l ∈ links, l.articleId ≠ articleId) :
    Linked t' articleId names where
  present name member := by
    obtain ⟨tag, mem, same⟩ := h.present name member
    exact ⟨tag, (grown tag).mpr (.inl mem), same⟩
  exact tagId := by
    rw [linked, or_iff_left fun new => others _ new rfl, h.exact]
    constructor
    · rintro ⟨tag, mem, rest⟩
      exact ⟨tag, (grown tag).mpr (.inl mem), rest⟩
    · rintro ⟨tag, mem, same, name, listed, named⟩
      rcases (grown tag).mp mem with old | new
      · exact ⟨tag, old, same, name, listed, named⟩
      · obtain ⟨other, mem', named'⟩ := h.present name listed
        exact absurd (named.trans named'.symm) (fresh tag new other mem')

end

/-! ### One step -/

section
variable {loc : DbLocale} {d d' : Database} {i j : Nat} {t u : Session}

theorem Database.sessions_set {t' : Session} {sessions : List Session} (here : sessions[i]? = some t) :
    (sessions.set i t')[j]? = some u ↔ (j = i ∧ u = t') ∨ (j ≠ i ∧ sessions[j]? = some u) := by
  obtain ⟨bound, _⟩ := List.getElem?_eq_some_iff.mp here
  rw [List.getElem?_set]
  by_cases same : j = i
  · subst same
    simp [bound, eq_comm]
  · simp [same, Ne.symm same]

/-- The other transactions see the new numbering and nothing else. -/
theorem Session.Sound.drawn {s : Store} {seq : Sequences} (h : t.Sound loc s) (drawn : s.toSequences.Drawn seq) :
    t.Sound loc (s.drawn seq) := ⟨h.valid.drawn drawn, h.progress⟩

theorem Database.Sound.put (h : d.Sound loc) (here : d.sessions[i]? = some t) {seq : Sequences}
    (drawn : d.committed.toSequences.Drawn seq) {t' : Session} (sound : t'.Sound loc (d.committed.drawn seq))
    (apart : ∀ j u, j ≠ i → d.sessions[j]? = some u → t'.pending.Apart u.pending) :
    (d.put i seq t').Sound loc where
  valid := h.valid.draw rfl drawn
  sessions := by
    intro j u found
    rcases (sessions_set here).mp found with ⟨rfl, rfl⟩ | ⟨_, old⟩
    · exact sound
    · exact (h.sessions old).drawn drawn
  apart := by
    intro j k u v found found' different
    rcases (sessions_set here).mp found with ⟨rfl, rfl⟩ | ⟨other, old⟩
    · rcases (sessions_set here).mp found' with ⟨rfl, rfl⟩ | ⟨other', old'⟩
      · exact absurd rfl different
      · exact apart k v other' old'
    · rcases (sessions_set here).mp found' with ⟨rfl, rfl⟩ | ⟨other', old'⟩
      · exact (apart j u other old).symm
      · exact h.apart old old' different

theorem Database.free_of_blocked (free : d.blocked i = false) (here : d.sessions[i]? = some t) {key : Key}
    (next : t.next = some key) (other : j ≠ i) (found : d.sessions[j]? = some u) :
    u.pending.holds key = false := by
  obtain ⟨bound, _⟩ := List.getElem?_eq_some_iff.mp found
  have notWaiting : d.waitsFor i j = false := by
    have all := List.any_eq_false.mp free j (List.mem_range.mpr bound)
    exact Bool.eq_false_iff.mpr all
  unfold waitsFor at notWaiting
  rw [here, Option.bind_some, next, found] at notWaiting
  simpa [Ne.symm other] using notWaiting

theorem Session.Progress.begun {c : Tables} (h : t.Progress c) (begun : t.stage = .begun) : t.pending = {} := by
  unfold Session.Progress at h
  rwa [begun] at h

theorem Session.Progress.tagging {c : Tables} (h : t.Progress c) {articleId : Int} {ahead : List String}
    (tagging : t.stage = .tagging articleId ahead) :
    t.pending.articleTags = [] ∧ ∃ behind, t.creation.names = behind ++ ahead ∧ t.Tagged c articleId behind := by
  unfold Session.Progress at h
  rwa [tagging] at h

theorem Session.Progress.linked {c : Tables} (h : t.Progress c) {articleId : Int} (linked : t.stage = .linked articleId) :
    (∀ l ∈ t.pending.articleTags, l.articleId = articleId) ∧ t.Tagged c articleId t.creation.names ∧
      Linked (c.with t.pending) articleId t.creation.names := by
  unfold Session.Progress at h
  rwa [linked] at h

/-- The id of a row another transaction has inserted was drawn before. -/
theorem Database.Sound.serial (h : d.Sound loc) (found : d.sessions[j]? = some u) :
    (∀ b ∈ u.pending.articles, b.articleId ≤ d.committed.articlesSeq) ∧
      ∀ tag ∈ u.pending.tags, tag.tagId ≤ d.committed.tagsSeq := by
  have valid := (h.sessions found).valid
  exact ⟨fun b member => (valid.serial_articles b (List.mem_append_right _ member)).2,
    fun tag member => (valid.serial_tags tag (List.mem_append_right _ member)).2⟩

theorem Database.Sound.article (h : d.Sound loc) (here : d.sessions[i]? = some t) (free : d.blocked i = false)
    (begun : t.stage = .begun)
    (stored : insertArticles t.creation.moment t.creation.title t.creation.slug t.creation.description
      t.creation.body t.creation.authorId (d.committed.with t.pending) =
      .ok (d.committed.articlesSeq + 1)
        ((d.committed.drawn (d.committed.toSequences.advance .articles)).with
          (t.pending.addArticle (t.creation.article (d.committed.articlesSeq + 1))))) :
    (d.put i (d.committed.toSequences.advance .articles)
      { t with
        stage := .tagging (d.committed.articlesSeq + 1) t.creation.names
        pending := t.pending.addArticle (t.creation.article (d.committed.articlesSeq + 1)) }).Sound loc := by
  have room := (insertArticles_ok.mp stored).1
  have text : storable t.creation.slug := List.all_eq_true.mp t.creation.bound _ (by simp [Sql.texts])
  have empty := (h.sessions here).progress.begun begun
  refine h.put here (advance_drawn .articles room) ⟨(h.sessions here).valid.insertArticles text stored, ?_⟩ ?_
  · refine ⟨?_, [], rfl, ?_, fun name member => absurd member List.not_mem_nil, ?_⟩
    · rw [empty]
      rfl
    · rw [empty]
      rfl
    · rw [empty]
      exact fun name member => absurd member List.not_mem_nil
  · intro j u other found
    have notHeld : u.pending.holds (.slug t.creation.slug) = false :=
      free_of_blocked free here (by unfold Session.next; rw [begun]) other found
    refine (h.apart here found (Ne.symm other)).addArticle (fun b member same => ?_) fun b member same => ?_
    · have differs := List.any_eq_false.mp notHeld b member
      exact differs (decide_eq_true same.symm)
    · have drawn := (h.serial found).1 b member
      have new : b.articleId = d.committed.articlesSeq + 1 := same.symm
      omega

/-- A tag the transaction now sees is one more it is done with. -/
theorem Session.Tagged.more {c : Tables} {articleId : Int} {behind : List String} (h : t.Tagged c articleId behind)
    {name : String} (seen : ∃ tag ∈ (c.with t.pending).tags, tag.name = some name) :
    t.Tagged c articleId (behind ++ [name]) where
  article := h.article
  visible := List.forall_mem_append.mpr ⟨h.visible, List.forall_mem_singleton.mpr seen⟩
  inserted tag member := by
    obtain ⟨name', listed, same⟩ := h.inserted tag member
    exact ⟨name', List.mem_append_left _ listed, same⟩

theorem Database.Sound.tag (h : d.Sound loc) (here : d.sessions[i]? = some t) (free : d.blocked i = false)
    {articleId : Int} {name : String} {names : List String} (tagging : t.stage = .tagging articleId (name :: names))
    (room : d.committed.tagsSeq < maxInt)
    (fresh : ¬ ∃ tag ∈ (d.committed.with t.pending).tags,
      tag.tagId = d.committed.tagsSeq + 1 ∨ tag.name = some name) :
    (d.put i (d.committed.toSequences.advance .tags)
      { t with
        stage := .tagging articleId names
        pending := t.pending.addTag { tagId := d.committed.tagsSeq + 1, name := some name } }).Sound loc := by
  have valid := (h.sessions here).valid.insertTag room name
  rw [insertTag_with, if_neg fresh] at valid
  obtain ⟨unlinked, behind, split, tagged⟩ := (h.sessions here).progress.tagging tagging
  refine h.put here (advance_drawn .tags room) ⟨valid, ?_⟩ ?_
  · refine ⟨unlinked, behind ++ [name], by simpa using split, tagged.article, ?_, ?_⟩
    · have more : ∀ tag ∈ (d.committed.with t.pending).tags, tag ∈ ((d.committed.toTables).with
          (t.pending.addTag { tagId := d.committed.tagsSeq + 1, name := some name })).tags := by
        intro tag member
        rcases List.mem_append.mp member with old | new
        · exact List.mem_append_left _ old
        · exact List.mem_append_right _ (List.mem_append_left _ new)
      refine List.forall_mem_append.mpr ⟨fun name' member => ?_, List.forall_mem_singleton.mpr ?_⟩
      · obtain ⟨tag, mem, same⟩ := tagged.visible name' member
        exact ⟨tag, more tag mem, same⟩
      · exact ⟨_, List.mem_append_right _ List.mem_concat_self, rfl⟩
    · refine List.forall_mem_append.mpr ⟨fun tag member => ?_, List.forall_mem_singleton.mpr ?_⟩
      · obtain ⟨name', listed, same⟩ := tagged.inserted tag member
        exact ⟨name', List.mem_append_left _ listed, same⟩
      · exact ⟨name, List.mem_concat_self, rfl⟩
  · intro j u other found
    have notHeld : u.pending.holds (.tag name) = false :=
      free_of_blocked free here (by unfold Session.next; rw [tagging]) other found
    refine (h.apart here found (Ne.symm other)).addTag (fun tag member same => ?_) fun tag member same => ?_
    · have differs := List.any_eq_false.mp notHeld tag member
      exact differs (decide_eq_true same.symm)
    · have drawn := (h.serial found).2 tag member
      have new : tag.tagId = d.committed.tagsSeq + 1 := same.symm
      omega

theorem Database.Sound.skip (h : d.Sound loc) (here : d.sessions[i]? = some t)
    {articleId : Int} {name : String} {names : List String} (tagging : t.stage = .tagging articleId (name :: names))
    (room : d.committed.tagsSeq < maxInt)
    (clash : ∃ tag ∈ (d.committed.with t.pending).tags,
      tag.tagId = d.committed.tagsSeq + 1 ∨ tag.name = some name) :
    (d.put i (d.committed.toSequences.advance .tags) { t with stage := .tagging articleId names }).Sound loc := by
  have sound := h.sessions here
  obtain ⟨unlinked, behind, split, tagged⟩ := sound.progress.tagging tagging
  have seen : ∃ tag ∈ (d.committed.toTables.with t.pending).tags, tag.name = some name := by
    obtain ⟨tag, member, sameId | sameName⟩ := clash
    · have drawn := (sound.valid.serial_tags tag member).2
      have last : tag.tagId ≤ d.committed.tagsSeq := drawn
      omega
    · exact ⟨tag, member, sameName⟩
  have more := tagged.more seen
  refine h.put here (advance_drawn .tags room) ⟨sound.valid.drawn (advance_drawn .tags room), ?_⟩ ?_
  · exact ⟨unlinked, behind ++ [name], by simpa using split, more.article, more.visible, more.inserted⟩
  · intro j u other found
    have apart : t.pending.Apart u.pending := h.apart here found (Ne.symm other)
    exact apart

/-- The links a transaction has inserted are those of its own article. -/
theorem Session.Progress.owned {c : Tables} (h : t.Progress c) :
    ∀ l ∈ t.pending.articleTags, ∃ a ∈ t.pending.articles, a.articleId = l.articleId := by
  intro l member
  cases at_ : t.stage with
  | begun =>
    rw [h.begun at_] at member
    cases member
  | tagging articleId ahead =>
    rw [(h.tagging at_).1] at member
    cases member
  | linked articleId =>
    obtain ⟨own, tagged, _⟩ := h.linked at_
    rw [tagged.article, own l member]
    exact ⟨_, List.mem_singleton_self _, rfl⟩
  | committed articleId =>
    unfold Session.Progress at h
    rw [at_] at h
    rw [h.1] at member
    cases member
  | aborted =>
    unfold Session.Progress at h
    rw [at_] at h
    rw [h] at member
    cases member

/-- No committed link refers to the article of an open transaction. -/
theorem Database.Sound.unlinked (h : d.Sound loc) (here : d.sessions[i]? = some t) {a : Article}
    (own : a ∈ t.pending.articles) : ∀ l ∈ d.committed.articleTags, l.articleId ≠ a.articleId := by
  intro l member same
  obtain ⟨b, stored, linked⟩ := h.valid.article_tags_fk_article l member
  exact apart_of_nodup_map (h.sessions here).valid.pk_articles b stored a own (linked.trans same)

/-- The link statement sees every tag of the list, and no link of the article is there yet. -/
theorem Database.Sound.link (h : d.Sound loc) (here : d.sessions[i]? = some t) {articleId : Int}
    (tagged : t.stage = .tagging articleId [])
    (done : insertArticleTags articleId t.creation.names (d.committed.with t.pending) =
      .ok () (d.committed.with (t.pending.link (t.creation.links (d.committed.with t.pending).toTables articleId)))) :
    (d.put i d.committed.toSequences
      { t with
        stage := .linked articleId
        pending := t.pending.link
          (t.creation.links (d.committed.with t.pending).toTables articleId) }).Sound loc := by
  have sound := h.sessions here
  obtain ⟨none, behind, split, seen⟩ := sound.progress.tagging tagged
  rw [List.append_nil] at split
  subst split
  have own : t.creation.article articleId ∈ t.pending.articles := by
    rw [seen.article]
    exact List.mem_singleton_self _
  have listed : ∀ l, l ∈ t.creation.links (d.committed.with t.pending).toTables articleId ↔
      l.articleId = articleId ∧ ∃ tag ∈ (d.committed.with t.pending).tags, tag.tagId = l.tagId ∧
        ∃ name ∈ t.creation.names, tag.name = some name := by
    intro l
    unfold Creation.links
    rw [List.mem_map]
    constructor
    · rintro ⟨tag, member, rfl⟩
      rw [List.mem_filter, decide_eq_true_eq] at member
      exact ⟨rfl, tag, member.1, rfl, member.2⟩
    · rintro ⟨same, tag, member, sameTag, named⟩
      refine ⟨tag, List.mem_filter.mpr ⟨member, decide_eq_true named⟩, ?_⟩
      rw [← same, sameTag]
  refine h.put here (.refl _) ⟨sound.valid.insertArticleTags done, ?_⟩ ?_
  · refine ⟨?_, ⟨seen.article, seen.visible, seen.inserted⟩, seen.visible, fun tagId => ?_⟩
    · intro l member
      rcases List.mem_append.mp member with old | new
      · rw [none] at old
        cases old
      · exact ((listed l).mp new).1
    · constructor
      · intro member
        rcases List.mem_append.mp member with old | mine
        · exact absurd rfl (h.unlinked here own _ old)
        rcases List.mem_append.mp mine with old | new
        · rw [none] at old
          cases old
        · exact ((listed _).mp new).2
      · intro named
        exact List.mem_append_right _ (List.mem_append_right _ ((listed _).mpr ⟨rfl, named⟩))
  · intro j u other found
    refine (h.apart here found (Ne.symm other)).link fun l member l' member' same => ?_
    obtain ⟨b, stored, linked⟩ := (h.sessions found).progress.owned l' member'
    refine (h.apart here found (Ne.symm other)).articleIds _ own b stored ?_
    rw [linked, ← same]
    exact ((listed l).mp member).1.symm

theorem Database.Sound.fail (h : d.Sound loc) (here : d.sessions[i]? = some t) {seq : Sequences}
    (drawn : d.committed.toSequences.Drawn seq) : (d.put i seq t.aborted).Sound loc := by
  refine h.put here drawn ⟨?_, rfl⟩ fun j u other found => .empty _
  have nothing : (d.committed.drawn seq).with t.aborted.pending = d.committed.drawn seq := Store.with_empty
  rw [nothing]
  exact h.valid.draw rfl drawn

/-- What another transaction has done stands when `p` is committed. -/
theorem Session.Sound.commit {s : Store} {p : Pending} (h : t.Sound loc s) (view : Valid loc (s.with p))
    (apart : p.Apart t.pending) (owned : ∀ l ∈ p.articleTags, ∃ a ∈ p.articles, a.articleId = l.articleId) :
    t.Sound loc (s.with p) := by
  have wider : ∀ {tag q}, tag ∈ (s.toTables.with q).tags → tag ∈ ((s.toTables.with p).with q).tags := by
    intro tag q member
    rcases List.mem_append.mp member with old | new
    · exact List.mem_append_left _ (List.mem_append_left _ old)
    · exact List.mem_append_right _ new
  have tagged : ∀ {articleId behind}, t.Tagged s.toTables articleId behind →
      t.Tagged (s.toTables.with p) articleId behind := by
    intro articleId behind seen
    refine ⟨seen.article, fun name member => ?_, seen.inserted⟩
    obtain ⟨tag, mem, same⟩ := seen.visible name member
    exact ⟨tag, wider mem, same⟩
  refine ⟨view.merge h.valid apart, ?_⟩
  have progress := h.progress
  unfold Session.Progress at progress ⊢
  split at progress
  · exact progress
  · exact progress
  · obtain ⟨unlinked, behind, split, seen⟩ := progress
    exact ⟨unlinked, behind, split, tagged seen⟩
  · rename_i articleId _
    obtain ⟨own, seen, links⟩ := progress
    refine ⟨own, tagged seen, links.grow p.tags p.articleTags ?_ ?_ ?_ ?_⟩
    · intro tag
      show tag ∈ (s.tags ++ p.tags) ++ t.pending.tags ↔ tag ∈ s.tags ++ t.pending.tags ∨ tag ∈ p.tags
      grind
    · intro l
      show l ∈ (s.articleTags ++ p.articleTags) ++ t.pending.articleTags ↔
        l ∈ s.articleTags ++ t.pending.articleTags ∨ l ∈ p.articleTags
      grind
    · intro tag new old member same
      rcases List.mem_append.mp member with committed | pending
      · exact apart_of_nodup_map view.tag_names old committed tag new same.symm
      · exact apart.names tag new old pending same
    · intro l new same
      obtain ⟨a, mine, linked⟩ := owned l new
      have theirs : t.creation.article articleId ∈ t.pending.articles := by
        rw [seen.article]
        exact List.mem_singleton_self _
      exact apart.articleIds a mine _ theirs (linked.trans same)
  · obtain ⟨empty, stored, links⟩ := progress
    refine ⟨empty, List.mem_append_left _ stored, links.grow p.tags p.articleTags ?_ ?_ ?_ ?_⟩
    · exact fun tag => List.mem_append
    · exact fun l => List.mem_append
    · exact fun tag new old member same => apart_of_nodup_map view.tag_names old member tag new same.symm
    · intro l new same
      obtain ⟨a, mine, linked⟩ := owned l new
      exact apart_of_nodup_map view.pk_articles _ stored a mine (linked.trans same).symm

theorem Database.Sound.commit (h : d.Sound loc) (here : d.sessions[i]? = some t) {articleId : Int}
    (linked : t.stage = .linked articleId) :
    Database.Sound loc
      { committed := d.committed.with t.pending, sessions := d.sessions.set i (t.committed articleId) } where
  valid := (h.sessions here).valid
  sessions := by
    intro j u found
    rcases (sessions_set here).mp found with ⟨rfl, rfl⟩ | ⟨other, old⟩
    · obtain ⟨_, tagged, links⟩ := (h.sessions here).progress.linked linked
      have valid : Valid loc ((d.committed.with t.pending).with (t.committed articleId).pending) := by
        rw [show (t.committed articleId).pending = {} from rfl, Store.with_empty]
        exact (h.sessions here).valid
      refine ⟨valid, rfl, ?_, links⟩
      refine List.mem_append_right _ ?_
      rw [tagged.article]
      exact List.mem_singleton_self _
    · exact (h.sessions old).commit (h.sessions here).valid (h.apart here old (Ne.symm other))
        (h.sessions here).progress.owned
  apart := by
    intro j k u v found found' different
    rcases (sessions_set here).mp found with ⟨rfl, rfl⟩ | ⟨other, old⟩
    · exact .empty _
    · rcases (sessions_set here).mp found' with ⟨rfl, rfl⟩ | ⟨other', old'⟩
      · exact (Pending.Apart.empty _).symm
      · exact h.apart old old' different

theorem Database.Sound.step (h : d.Sound loc) (step : d.Step d') : d'.Sound loc := by
  obtain ⟨i, t, here, moved⟩ := step.moved
  cases moved with
  | article free begun stored => exact h.article here free begun stored
  | tag free tagging room fresh => exact h.tag here free tagging room fresh
  | skip free tagging room clash => exact h.skip here tagging room clash
  | link tagged done => exact h.link here tagged done
  | commit linked => exact h.commit here linked
  | fail isOpen drawn => exact h.fail here drawn

theorem Database.Sound.start {s : Store} (valid : Valid loc s) (creations : List Creation) :
    (Database.start s creations).Sound loc := by
  have begun : ∀ {i : Nat} {t : Session}, (Database.start s creations).sessions[i]? = some t →
      ∃ c, t = { creation := c } := by
    intro i t found
    obtain ⟨c, member, rfl⟩ := List.mem_map.mp (List.mem_of_getElem? found)
    exact ⟨c, rfl⟩
  refine ⟨valid, fun found => ?_, fun found _ _ => ?_⟩
  · obtain ⟨c, rfl⟩ := begun found
    exact ⟨(Store.with_empty (s := s)).symm ▸ valid, rfl⟩
  · obtain ⟨c, rfl⟩ := begun found
    exact .empty _

/-- The run lemma: whatever the interleaving, it holds throughout. -/
theorem Database.Reach.sound {s : Store} (valid : Valid loc s) {creations : List Creation}
    (run : (Database.start s creations).Reach d) : d.Sound loc := by
  induction run with
  | refl => exact .start valid creations
  | tail _ last ih => exact ih.step last

end

end RealWorld.Schema
