import RealWorld.Runs
import RealWorld.Schema.Isolation

/-!
# The tags of articles created at the same time

However many calls of `add_new_article` run at once and wherever they end, a committed article has the
tags of its list, and no name is stored twice.
-/

namespace RealWorld.Schema
open Relational

/-- The rows of `tags`, committed or not. -/
def Database.tags (d : Database) : List Tag := d.committed.tags ++ d.sessions.flatMap (·.pending.tags)

section
variable {loc : DbLocale} {s : Store} {d d' : Database}

theorem Database.Sound.tags_nodup (h : d.Sound loc) : (d.tags.map (·.name)).Nodup := by
  have own : ∀ {t}, t ∈ d.sessions → ((d.committed.tags ++ t.pending.tags).map (·.name)).Nodup := by
    intro t member
    obtain ⟨i, found⟩ := List.mem_iff_getElem?.mp member
    exact (h.sessions found).valid.tag_names
  unfold Database.tags
  rw [List.map_append, List.nodup_append, List.map_flatMap]
  refine ⟨h.valid.tag_names, List.nodup_flatMap.mpr ⟨fun t member => ?_, ?_⟩, ?_⟩
  · have both := own member
    rw [List.map_append, List.nodup_append] at both
    exact both.2.1
  · rw [List.pairwise_iff_getElem]
    intro i j bound bound' less name listed listed'
    obtain ⟨tag, mem, rfl⟩ := List.mem_map.mp listed
    obtain ⟨tag', mem', same⟩ := List.mem_map.mp listed'
    exact (h.apart (List.getElem?_eq_getElem bound) (List.getElem?_eq_getElem bound') (Nat.ne_of_lt less)).names
      tag mem tag' mem' same.symm
  · intro name listed name' listed' same
    obtain ⟨tag, mem, rfl⟩ := List.mem_map.mp listed
    obtain ⟨t, member, inserted⟩ := List.mem_flatMap.mp listed'
    obtain ⟨tag', mem', rfl⟩ := List.mem_map.mp inserted
    exact apart_of_nodup_map (own member) tag mem tag' mem' same

/-- In every state that concurrent calls reach, a committed article shows each name of its list once and
no other, and no two rows of `tags` have one name. -/
theorem concurrent_tags (valid : Valid loc s) {creations : List Creation}
    (run : (Database.start s creations).Reach d) :
    (∀ (i : Nat) (t : Session) articleId, d.sessions[i]? = some t → t.stage = .committed articleId →
      creations[i]? = some t.creation ∧ t.creation.article articleId ∈ d.committed.articles ∧
        (getArticleTagList loc d.committed.toTables articleId).Perm (t.creation.names.dedup.map some)) ∧
    (d.tags.map (·.name)).Nodup := by
  have sound := run.sound valid
  refine ⟨fun i t articleId found committed => ?_, sound.tags_nodup⟩
  have progress := (sound.sessions found).progress
  unfold Session.Progress at progress
  rw [committed] at progress
  obtain ⟨_, stored, linked⟩ := progress
  refine ⟨?_, stored, linked.perm sound.valid⟩
  rw [← run.creations, List.getElem?_map, found]
  rfl

end

def sampleCreation (title slug : String) (names : List String)
    (bound : (Sql.addNewArticle title slug "Example" "Content" 1 (some names)).texts.all storable) : Creation :=
  { title := title, slug := slug, description := "Example", body := "Content", authorId := 1,
    tagList := some names, moment := sampleMoment, bound := bound }

def sampleCreations : List Creation :=
  [sampleCreation "Good bye" "good-bye" ["a", "b", "a"] (by decide),
    sampleCreation "Good day" "good-day" ["b", "c"] (by decide),
    sampleCreation "Good night" "good-night" ["c"] (by decide)]

/-- Call 0 waits for the tag of call 1, which waits for that of call 2 until call 2 is rolled back. -/
def sampleActs : List Act :=
  [.advance 0, .advance 1, .advance 2, .advance 0, .advance 1, .advance 2, .abort 2, .advance 1, .advance 1,
    .advance 1, .advance 0, .advance 0, .advance 0, .advance 0]

theorem sampleActs_run : ((Database.start samplePublished sampleCreations).perform sampleActs).isSome := by
  decide +kernel

def sampleConcurrent : Database :=
  ((Database.start samplePublished sampleCreations).perform sampleActs).get sampleActs_run

example : sampleConcurrent.committed.articles.map (·.articleId) = [1, 3, 2] ∧
    getArticleTagList sampleLocale sampleConcurrent.committed.toTables 2 = [some "a", some "b"] := by
  decide +kernel

theorem concurrent_tags_sample :
    (∀ (i : Nat) (t : Session) articleId, sampleConcurrent.sessions[i]? = some t →
      t.stage = .committed articleId →
      sampleCreations[i]? = some t.creation ∧ t.creation.article articleId ∈ sampleConcurrent.committed.articles ∧
        (getArticleTagList sampleLocale sampleConcurrent.committed.toTables articleId).Perm
          (t.creation.names.dedup.map some)) ∧
    (sampleConcurrent.tags.map (·.name)).Nodup :=
  concurrent_tags samplePublished_reachable.valid
    (Database.perform_reach (Option.some_get sampleActs_run).symm)

end RealWorld.Schema
