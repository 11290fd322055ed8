import RealWorld.Handlers.Writes
import RealWorld.Runs

/-!
# The slug of an article is the slug of its title

Title and slug are two columns that two optional arguments replace. Both handlers that write them
compute one from the other, so the columns agree in every store.
-/

namespace RealWorld
open Schema Transactional

/-- Every article carries the slug of its title. -/
def Slugged (icu : Icu) (t : Tables) : Prop := ∀ a ∈ t.articles, slugify icu a.title = .ok a.slug

/-- A statement that replaces a title or a slug replaces both, and the slug is that of the title. -/
def Schema.Sql.Slugs (icu : Icu) : Sql → Prop
  | .addNewArticle title slug _ _ _ _ => slugify icu title = .ok slug
  | .updateArticleBySlug _ _ title newSlug _ _ =>
      (title = none ∧ newSlug = none) ∨
        ∃ text slug, title = some text ∧ newSlug = some slug ∧ slugify icu text = .ok slug
  | _ => True

section
variable {loc : DbLocale} {icu : Icu} {m : Moment} {s s' : Store}

theorem Slugged.update {oldSlug : String} {authorId : Int} {title newSlug description body : Option String}
    {rows : List Int} (h : Slugged icu s.toTables)
    (slugs : (Sql.updateArticleBySlug oldSlug authorId title newSlug description body).Slugs icu)
    (done : updateArticleBySlug m oldSlug authorId title newSlug description body s = .ok rows s') :
    Slugged icu s'.toTables := by
  obtain ⟨_, _, rfl⟩ := updateArticleBySlug_ok.mp done
  intro b member
  obtain ⟨a, mem, rfl⟩ := List.mem_map.mp member
  have old := h a mem
  split
  · rcases slugs with ⟨rfl, rfl⟩ | ⟨text, slug, rfl, rfl, same⟩
    · exact old
    · exact same
  · exact old

theorem Slugged.effect {q : Sql} {rows : List q.Row} (h : Slugged icu s.toTables) (slugs : q.Slugs icu)
    (effect : Effect loc m s q rows s') : Slugged icu s'.toTables := by
  by_cases changes : q.changesArticles
  · cases effect with
    | addNewArticle done =>
      obtain ⟨_, links, _, store⟩ := addNewArticle_store done
      rw [store]
      exact List.forall_mem_append.mpr ⟨h, List.forall_mem_singleton.mpr slugs⟩
    | updateArticleBySlug done => exact h.update slugs done
    | deleteArticleBySlug done =>
      obtain ⟨_, rfl⟩ := deleteArticleBySlug_ok.mp done
      intro a member
      exact h a (List.mem_filter.mp member).1
    | _ => cases changes
  · intro a member
    exact h a ((effect.articles_kept changes).1 ▸ member)

theorem Slugged.exec (q : Sql) (m : Moment) (s : Store) (slugs : q.writes → q.Slugs icu)
    (h : Slugged icu s.toTables) : Slugged icu (q.exec loc m s).2.toTables := by
  have answer : q.exec loc m s = ((q.exec loc m s).1, (q.exec loc m s).2) := rfl
  rcases Sql.exec_cases answer with same | ⟨rows, _, writes, effect⟩
  · rwa [same]
  · exact h.effect (slugs writes) effect

end

/-! ### What the handlers issue -/

theorem handler_slugs (svc : Service) (call : Call) (auth : Option UserAuthData) :
    Writes (Sql.Slugs svc.icu) (handler svc call auth) := by
  apply handler_articleTexts
  · intro q post put
    cases q with
    | addNewArticle => exact absurd rfl post
    | updateArticleBySlug => exact absurd rfl put
    | _ => trivial
  · exact Handlers.Articles.Post.writes_of fun _ _ _ _ _ slugged => slugged
  · apply Handlers.ArticlesSlug.Put.writes_of
    intro update newSlug _ _ _ slugged
    cases given : update.title with
    | none =>
      rw [given] at slugged
      cases slugged
      exact .inl ⟨rfl, rfl⟩
    | some title =>
      rw [given] at slugged
      obtain ⟨slug, same, slugged⟩ := checked_bind.mp slugged
      cases slugged
      exact .inr ⟨title, slug, rfl, rfl, same⟩

theorem serve_slugs (svc : Service) (call : Call) :
    (serve svc call).All fun q => q.writes → q.Slugs svc.icu :=
  serve_rule (fun p => p.All fun q => q.writes → q.Slugs svc.icu) (fun _ => trivial) (fun _ => trivial)
    fun auth => (handler_slugs svc call auth).all

/-- Every article of a reachable store carries the slug of its title, so titles with one slug belong
to one article; and every request keeps it so, whatever it answers. -/
theorem slug_invariant (svc : Service) :
    (∀ s, Reachable svc s → Slugged svc.icu s.toTables ∧
      ∀ a ∈ s.articles, ∀ b ∈ s.articles, slugify svc.icu a.title = slugify svc.icu b.title → a = b) ∧
    ∀ (call : Call) (ms : Nat → Moment) (s : Store), Slugged svc.icu s.toTables →
      Slugged svc.icu (respond svc call ms s).2.toTables := by
  have step : ∀ (q : Sql) m s, (q.writes → q.Slugs svc.icu) → Slugged svc.icu s.toTables →
      Slugged svc.icu (q.exec svc.loc m s).2.toTables := Slugged.exec
  constructor
  · intro s reachable
    have slugged : Slugged svc.icu s.toTables := reachable.invariant nofun (serve_slugs svc) step
    refine ⟨slugged, fun a left b right same => ?_⟩
    rw [slugged a left, slugged b right] at same
    exact Relational.key_inj reachable.valid.uniq_slug left right (Except.ok.inj same)
  · intro call ms s slugged
    exact Prog.run_preserves step _ (serve_slugs svc call) ms slugged

theorem slug_invariant_sample :
    Slugged sample.icu samplePublished.toTables ∧
      ∀ a ∈ samplePublished.articles, ∀ b ∈ samplePublished.articles,
        slugify sample.icu a.title = slugify sample.icu b.title → a = b :=
  (slug_invariant sample).1 samplePublished samplePublished_reachable

end RealWorld
