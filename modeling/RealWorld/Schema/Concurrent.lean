import Mathlib.Logic.Relation
import RealWorld.Schema.Raises

/-!
# Concurrent calls of `add_new_article`

Each call is a transaction at READ COMMITTED. A statement sees the rows committed before it and those
of its own transaction; tags go in one row at a time. An insertion of a key that another open
transaction has inserted waits until that transaction ends.
-/

namespace RealWorld.Schema
open Relational

/-- The parameters of one call, which could be bound, and the start of its transaction. -/
structure Creation where
  title : String
  slug : String
  description : String
  body : String
  authorId : Int
  tagList : Option (List String)
  moment : Moment
  bound : (Sql.addNewArticle title slug description body authorId tagList).texts.all storable

def Creation.sql (c : Creation) : Sql :=
  .addNewArticle c.title c.slug c.description c.body c.authorId c.tagList

def Creation.names (c : Creation) : List String := c.tagList.getD []

/-- How far a transaction has come. -/
inductive Stage where
  | begun
  | tagging (articleId : Int) (names : List String)
  | linked (articleId : Int)
  | committed (articleId : Int)
  | aborted

/-- The rows a transaction has inserted and not committed. -/
structure Pending where
  articles : List Article := []
  tags : List Tag := []
  articleTags : List ArticleTag := []

structure Session where
  creation : Creation
  stage : Stage := .begun
  pending : Pending := {}

structure Database where
  committed : Store
  sessions : List Session

def Tables.with (t : Tables) (p : Pending) : Tables :=
  { t with
    articles := t.articles ++ p.articles
    tags := t.tags ++ p.tags
    articleTags := t.articleTags ++ p.articleTags }

/-- What a transaction with the rows `p` sees of the committed store `s`. -/
def Store.with (s : Store) (p : Pending) : Store := { s with toTables := s.toTables.with p }

/-- The rows of `view` that are not committed in `s`. -/
def Pending.of (s view : Store) : Pending :=
  { articles := view.articles.drop s.articles.length
    tags := view.tags.drop s.tags.length
    articleTags := view.articleTags.drop s.articleTags.length }

/-- The unique keys on which one call can wait for another. Ids come from the shared sequences and do
not meet. -/
inductive Key where
  | slug (slug : String)
  | tag (name : String)
  deriving DecidableEq

def Pending.holds (p : Pending) : Key → Bool
  | .slug slug => p.articles.any fun a => a.slug = slug
  | .tag name => p.tags.any fun tag => tag.name = some name

/-- The key that the next row of a transaction has. -/
def Session.next (t : Session) : Option Key :=
  match t.stage with
  | .begun => some (.slug t.creation.slug)
  | .tagging _ (name :: _) => some (.tag name)
  | _ => none

/-- Transaction `i` has to wait for transaction `j`. -/
def Database.waitsFor (d : Database) (i j : Nat) : Bool :=
  i ≠ j && match d.sessions[i]?.bind Session.next, d.sessions[j]? with
    | some key, some other => other.pending.holds key
    | _, _ => false

def Database.blocked (d : Database) (i : Nat) : Bool :=
  (List.range d.sessions.length).any (d.waitsFor i)

/-- What a transaction does next: the insertion of the article, that of one tag, or the insertion of
all links. -/
def Session.statement (t : Session) : Option (Txn Stage) :=
  match t.stage with
  | .begun => some do
      let articleId ← insertArticles t.creation.moment t.creation.title t.creation.slug
        t.creation.description t.creation.body t.creation.authorId
      return .tagging articleId t.creation.names
  | .tagging articleId (name :: names) => some do
      insertTags [name]
      return .tagging articleId names
  | .tagging articleId [] => some do
      insertArticleTags articleId t.creation.names
      return .linked articleId
  | _ => none

def Session.isOpen (t : Session) : Bool :=
  match t.stage with
  | .committed _ | .aborted => false
  | _ => true

/-- `s` after values were drawn. -/
def Store.drawn (s : Store) (q : Sequences) : Store := { s with toSequences := q }

/-- The database after a step of transaction `i`. -/
def Database.put (d : Database) (i : Nat) (q : Sequences) (t : Session) : Database :=
  { committed := d.committed.drawn q, sessions := d.sessions.set i t }

def Session.aborted (t : Session) : Session := { t with stage := .aborted, pending := {} }

def Session.committed (t : Session) (articleId : Int) : Session :=
  { t with stage := .committed articleId, pending := {} }

/-- Transaction `i` goes on, if it need not wait. An error aborts it, and ids drawn stay drawn; a call
that has returned is committed. A row that waits has drawn its id before, here it draws it when it goes
on, which changes nothing but the numbering. -/
def Database.advance (d : Database) (i : Nat) : Option Database :=
  if d.blocked i then none
  else
    match d.sessions[i]? with
    | none => none
    | some t =>
      match t.statement with
      | some statement =>
        match statement (d.committed.with t.pending) with
        | .ok stage view =>
            some (d.put i view.toSequences { t with stage := stage, pending := .of d.committed view })
        | .error _ view => some (d.put i view.toSequences t.aborted)
      | none =>
        match t.stage with
        | .linked articleId =>
            some { committed := d.committed.with t.pending, sessions := d.sessions.set i (t.committed articleId) }
        | _ => none

/-- Transaction `i` is rolled back from outside: the client is gone, or a deadlock is resolved. -/
def Database.abort (d : Database) (i : Nat) : Option Database :=
  match d.sessions[i]? with
  | none => none
  | some t => if t.isOpen then some (d.put i d.committed.toSequences t.aborted) else none

inductive Act where
  | advance (i : Nat)
  | abort (i : Nat)

def Database.act (d : Database) : Act → Option Database
  | .advance i => d.advance i
  | .abort i => d.abort i

def Database.perform (d : Database) (acts : List Act) : Option Database := acts.foldlM Database.act d

def Database.Step (d d' : Database) : Prop := ∃ a, d.act a = some d'

abbrev Database.Reach : Database → Database → Prop := Relation.ReflTransGen Database.Step

/-- Concurrent calls on the committed store `s`, none of which has done anything yet. -/
def Database.start (s : Store) (creations : List Creation) : Database :=
  { committed := s, sessions := creations.map fun c => { creation := c } }

/-! ### What a step does -/

section
variable {s : Store} {p : Pending} {d d' : Database} {i : Nat}

@[simp] theorem Store.with_empty : s.with {} = s := by
  simp [Store.with, Tables.with]

@[simp] theorem Pending.of_with {q : Sequences} : Pending.of s ((s.drawn q).with p) = p := by
  simp [Pending.of, Store.with, Tables.with, Store.drawn]

/-- The row a call stores under the id `articleId`. -/
def Creation.article (c : Creation) (articleId : Int) : Article :=
  { articleId := articleId, title := c.title, slug := c.slug, description := c.description, body := c.body,
    authorId := c.authorId, createdAt := c.moment.now, updatedAt := c.moment.now }

def Creation.links (c : Creation) (t : Tables) (articleId : Int) : List ArticleTag :=
  (t.tags.filter fun tag => ∃ name ∈ c.names, tag.name = some name).map fun tag =>
    { articleId := articleId, tagId := tag.tagId }

def Pending.addArticle (p : Pending) (a : Article) : Pending := { p with articles := p.articles ++ [a] }

def Pending.addTag (p : Pending) (tag : Tag) : Pending := { p with tags := p.tags ++ [tag] }

def Pending.link (p : Pending) (links : List ArticleTag) : Pending :=
  { p with articleTags := p.articleTags ++ links }

/-- Every way transaction `i`, whose state is `t`, can have moved. -/
inductive Database.Moved (d : Database) (i : Nat) (t : Session) : Database → Prop where
  | article (free : d.blocked i = false) (begun : t.stage = .begun)
      (stored : insertArticles t.creation.moment t.creation.title t.creation.slug t.creation.description
        t.creation.body t.creation.authorId (d.committed.with t.pending) =
        .ok (d.committed.articlesSeq + 1)
          ((d.committed.drawn (d.committed.toSequences.advance .articles)).with
            (t.pending.addArticle (t.creation.article (d.committed.articlesSeq + 1))))) :
      Moved d i t (d.put i (d.committed.toSequences.advance .articles)
        { t with
          stage := .tagging (d.committed.articlesSeq + 1) t.creation.names
          pending := t.pending.addArticle (t.creation.article (d.committed.articlesSeq + 1)) })
  | tag {articleId : Int} {name : String} {names : List String} (free : d.blocked i = false)
      (tagging : t.stage = .tagging articleId (name :: names)) (room : d.committed.tagsSeq < maxInt)
      (fresh : ¬ ∃ tag ∈ (d.committed.with t.pending).tags,
        tag.tagId = d.committed.tagsSeq + 1 ∨ tag.name = some name) :
      Moved d i t (d.put i (d.committed.toSequences.advance .tags)
        { t with
          stage := .tagging articleId names
          pending := t.pending.addTag { tagId := d.committed.tagsSeq + 1, name := some name } })
  | skip {articleId : Int} {name : String} {names : List String} (free : d.blocked i = false)
      (tagging : t.stage = .tagging articleId (name :: names)) (room : d.committed.tagsSeq < maxInt)
      (clash : ∃ tag ∈ (d.committed.with t.pending).tags,
        tag.tagId = d.committed.tagsSeq + 1 ∨ tag.name = some name) :
      Moved d i t (d.put i (d.committed.toSequences.advance .tags)
        { t with stage := .tagging articleId names })
  | link {articleId : Int} (tagged : t.stage = .tagging articleId [])
      (done : insertArticleTags articleId t.creation.names (d.committed.with t.pending) =
        .ok () (d.committed.with (t.pending.link (t.creation.links (d.committed.with t.pending).toTables articleId)))) :
      Moved d i t (d.put i d.committed.toSequences
        { t with
          stage := .linked articleId
          pending := t.pending.link (t.creation.links (d.committed.with t.pending).toTables articleId) })
  | commit {articleId : Int} (linked : t.stage = .linked articleId) :
      Moved d i t
        { committed := d.committed.with t.pending, sessions := d.sessions.set i (t.committed articleId) }
  | fail {q : Sequences} (isOpen : t.isOpen) (drawn : d.committed.toSequences.Drawn q) :
      Moved d i t (d.put i q t.aborted)

theorem Session.statement_begun {t : Session} (begun : t.stage = .begun) : t.statement = some do
    let articleId ← insertArticles t.creation.moment t.creation.title t.creation.slug
      t.creation.description t.creation.body t.creation.authorId
    return .tagging articleId t.creation.names := by
  unfold statement
  rw [begun]

theorem Session.statement_tagging {t : Session} {articleId : Int} {name : String} {names : List String}
    (tagging : t.stage = .tagging articleId (name :: names)) : t.statement = some do
      insertTags [name]
      return .tagging articleId names := by
  unfold statement
  rw [tagging]

theorem Session.statement_tagged {t : Session} {articleId : Int} (tagged : t.stage = .tagging articleId []) :
    t.statement = some do
      insertArticleTags articleId t.creation.names
      return .linked articleId := by
  unfold statement
  rw [tagged]

theorem Session.statement_draws {t : Session} {statement : Txn Stage} (next : t.statement = some statement) :
    Draws statement s := by
  unfold Session.statement at next
  split at next
  · cases next
    exact .bind insertArticles_draws fun _ _ _ => .pure
  · cases next
    exact .bind insertTags_draws fun _ _ _ => .pure
  · cases next
    exact .bind insertArticleTags_draws fun _ _ _ => .pure
  · cases next

theorem Session.open_of_statement {t : Session} (next : t.statement.isSome) : t.isOpen := by
  unfold Session.statement at next
  unfold Session.isOpen
  split at next <;> simp_all

theorem insertArticles_with {c : Creation} {articleId : Int} {view : Store}
    (stored : insertArticles c.moment c.title c.slug c.description c.body c.authorId (s.with p) =
      .ok articleId view) :
    articleId = s.articlesSeq + 1 ∧ view = (s.drawn (s.toSequences.advance .articles)).with
      (p.addArticle (c.article (s.articlesSeq + 1))) := by
  obtain ⟨_, _, _, _, _, _, rfl, rfl⟩ := insertArticles_ok.mp stored
  refine ⟨rfl, ?_⟩
  simp only [Store.with, Tables.with, Store.drawn, Pending.addArticle, List.append_assoc]
  rfl

theorem insertTag_with {name : String} : (s.with p).insertTag name =
    (s.drawn (s.toSequences.advance .tags)).with
      (if ∃ tag ∈ (s.with p).tags, tag.tagId = s.tagsSeq + 1 ∨ tag.name = some name then p
        else p.addTag { tagId := s.tagsSeq + 1, name := some name }) := by
  unfold Store.insertTag
  have seq : (s.with p).tagsSeq = s.tagsSeq := rfl
  rw [seq]
  split
  · rfl
  · simp only [Store.with, Tables.with, Store.drawn, Pending.addTag, List.append_assoc]
    rfl

theorem insertArticleTags_with {c : Creation} {articleId : Int} {view : Store} {u : Unit}
    (done : insertArticleTags articleId c.names (s.with p) = .ok u view) :
    view = s.with (p.link (c.links (s.with p).toTables articleId)) := by
  obtain ⟨_, _, _, rfl⟩ := insertArticleTags_ok.mp done
  simp only [Store.with, Tables.with, Pending.link, Creation.links, List.append_assoc]

/-- A statement that succeeds inserts the article, one tag or the links. -/
theorem Database.moved_of_statement {t : Session} (free : d.blocked i = false) {statement : Txn Stage}
    (next : t.statement = some statement) {stage : Stage} {view : Store}
    (ok : statement (d.committed.with t.pending) = .ok stage view) :
    d.Moved i t (d.put i view.toSequences { t with stage := stage, pending := .of d.committed view }) := by
  cases at_ : t.stage with
  | begun =>
    rw [Session.statement_begun at_] at next
    cases next
    obtain ⟨articleId, view', stored, rest⟩ := bind_ok.mp ok
    obtain ⟨rfl, rfl⟩ := pure_ok.mp rest
    obtain ⟨rfl, rfl⟩ := insertArticles_with stored
    rw [Pending.of_with]
    exact .article free at_ stored
  | tagging articleId names =>
    cases names with
    | nil =>
      rw [Session.statement_tagged at_] at next
      cases next
      obtain ⟨_, view', done, rest⟩ := bind_ok.mp ok
      obtain ⟨rfl, rfl⟩ := pure_ok.mp rest
      obtain rfl := insertArticleTags_with done
      have pending := @Pending.of_with d.committed
        (t.pending.link (t.creation.links (d.committed.with t.pending).toTables articleId)) d.committed.toSequences
      rw [show d.committed.drawn d.committed.toSequences = d.committed from rfl] at pending
      rw [pending]
      exact .link at_ done
    | cons name names =>
      rw [Session.statement_tagging at_] at next
      cases next
      obtain ⟨_, view', tagged, rest⟩ := bind_ok.mp ok
      obtain ⟨rfl, rfl⟩ := pure_ok.mp rest
      obtain ⟨room, _, last⟩ := insertTags_cons_ok.mp tagged
      obtain ⟨_, rfl⟩ := pure_ok.mp last
      rw [insertTag_with, Pending.of_with]
      split
      · rename_i clash
        exact .skip free at_ room clash
      · rename_i fresh
        exact .tag free at_ room fresh
  | linked articleId =>
    unfold Session.statement at next
    rw [at_] at next
    cases next
  | committed articleId =>
    unfold Session.statement at next
    rw [at_] at next
    cases next
  | aborted =>
    unfold Session.statement at next
    rw [at_] at next
    cases next

theorem Database.advance_cases (done : d.advance i = some d') :
    ∃ t, d.sessions[i]? = some t ∧ d.Moved i t d' := by
  unfold advance at done
  split at done
  · cases done
  · rename_i notBlocked
    have free : d.blocked i = false := Bool.eq_false_iff.mpr notBlocked
    split at done
    · cases done
    · rename_i t here
      refine ⟨t, here, ?_⟩
      split at done
      · rename_i statement next
        split at done
        · rename_i stage view ok
          cases done
          exact moved_of_statement free next ok
        · rename_i view failed
          cases done
          have drawn := Session.statement_draws (s := d.committed.with t.pending) next
          unfold Draws Txn.after at drawn
          rw [failed] at drawn
          exact .fail (Session.open_of_statement (by rw [next]; rfl)) drawn
      · split at done
        · rename_i articleId linked
          cases done
          exact .commit linked
        · cases done

theorem Database.Step.moved (step : d.Step d') : ∃ i t, d.sessions[i]? = some t ∧ d.Moved i t d' := by
  obtain ⟨a, done⟩ := step
  cases a with
  | advance i => exact ⟨i, advance_cases done⟩
  | abort i =>
    unfold Database.act Database.abort at done
    dsimp only at done
    split at done
    · cases done
    · rename_i t here
      split at done
      · rename_i isOpen
        cases done
        exact ⟨i, t, here, .fail isOpen (.refl _)⟩
      · cases done

theorem Database.perform_reach {acts : List Act} (done : d.perform acts = some d') : d.Reach d' := by
  unfold perform at done
  induction acts generalizing d with
  | nil =>
    cases done
    exact .refl
  | cons a acts ih =>
    rw [List.foldlM_cons] at done
    obtain ⟨d₁, first, rest⟩ := Option.bind_eq_some_iff.mp done
    exact .head ⟨a, first⟩ (ih rest)

theorem Database.Step.creations (step : d.Step d') : d'.sessions.map (·.creation) = d.sessions.map (·.creation) := by
  obtain ⟨i, t, here, moved⟩ := step.moved
  have set : ∀ t' : Session, t'.creation = t.creation →
      (d.sessions.set i t').map (·.creation) = d.sessions.map (·.creation) := by
    intro t' same
    obtain ⟨bound, rfl⟩ := List.getElem?_eq_some_iff.mp here
    rw [List.map_set, same]
    refine List.ext_getElem (by simp) fun j left right => ?_
    rw [List.getElem_set]
    split
    · rename_i at_
      subst at_
      simp
    · rfl
  cases moved <;> exact set _ rfl

theorem Database.Reach.creations {creations : List Creation} (run : (Database.start s creations).Reach d) :
    d.sessions.map (·.creation) = creations := by
  induction run with
  | refl => simp [Database.start, Function.comp_def]
  | tail _ last ih => rw [last.creations, ih]

end

end RealWorld.Schema
