import RealWorld.Relational.Rows

/-!
# Tables and transactions of `db_1.sql`

The seven tables of the schema `realworld` with their sequences, and `Txn`, the effect of a
stored function: it reads and replaces the tables, draws from sequences and may raise an error.
Declared constraints are checked where PostgreSQL checks them, by `unique`, `foreignKey`,
`notNull` and `varchar`.
-/

namespace RealWorld.Schema
open Relational

structure User where
  userId : Int
  username : String
  email : String
  passwordHash : String
  bio : Option String := none
  image : Option String := none
  deriving DecidableEq

structure Article where
  articleId : Int
  title : String
  slug : String
  description : String
  body : String
  authorId : Int
  createdAt : Int
  updatedAt : Int
  deriving DecidableEq

/-- `tags.name` is the one nullable key column of the schema. -/
structure Tag where
  tagId : Int
  name : Option String
  deriving DecidableEq

structure ArticleTag where
  articleId : Int
  tagId : Int
  deriving DecidableEq

structure Favorite where
  userId : Int
  articleId : Int
  deriving DecidableEq

structure Follower where
  follower : Int
  followed : Int
  deriving DecidableEq

structure Comment where
  commentId : Int
  authorId : Int
  articleId : Int
  body : String
  createdAt : Int
  updatedAt : Int
  deriving DecidableEq

structure Tables where
  users : List User := []
  articles : List Article := []
  tags : List Tag := []
  articleTags : List ArticleTag := []
  favorites : List Favorite := []
  followers : List Follower := []
  comments : List Comment := []
  deriving DecidableEq

/-- The last value drawn from the sequence behind each SERIAL column. -/
structure Sequences where
  usersSeq : Int := 0
  articlesSeq : Int := 0
  tagsSeq : Int := 0
  commentsSeq : Int := 0
  deriving DecidableEq

structure Store extends Tables, Sequences
  deriving DecidableEq

/-- The database right after `db_1.sql` has created the schema. -/
def Store.empty : Store := { toTables := {}, toSequences := {} }

/-- What a statement depends on besides its arguments and the store: `NOW()` and the order in
which an unsorted scan of `n` rows delivers them. -/
structure Moment where
  now : Int
  order : Nat → List Nat
  arranges : ∀ n, (order n).Perm (List.range n)

def Moment.scan {α : Type} (m : Moment) (rows : List α) : List α := arrange (m.order rows.length) rows

theorem Moment.scan_perm {α : Type} (m : Moment) (rows : List α) : (m.scan rows).Perm rows :=
  arrange_perm (m.arranges rows.length)

/-- The database locale: case folding of CITEXT and the collation behind ORDER BY on text. -/
structure DbLocale where
  citextLower : String → String
  collateLe : String → String → Bool

/-- Errors PostgreSQL raises, with the constraint or column the server message names. -/
inductive DbError where
  | uniqueViolation (constraint : String)
  | foreignKeyViolation (constraint : String)
  | notNullViolation (column : String)
  | stringDataRightTruncation
  | invalidByteSequence
  | cardinalityViolation
  | invalidRowCount
  | sequenceExhausted
  deriving DecidableEq

abbrev Txn := EStateM DbError Store

/-- The largest value of INT, where a SERIAL sequence ends. -/
def maxInt : Int := 2147483647

inductive Serial where
  | users | articles | tags | comments

def Sequences.last (s : Sequences) : Serial → Int
  | .users => s.usersSeq
  | .articles => s.articlesSeq
  | .tags => s.tagsSeq
  | .comments => s.commentsSeq

def Sequences.advance (s : Sequences) : Serial → Sequences
  | .users => { s with usersSeq := s.usersSeq + 1 }
  | .articles => { s with articlesSeq := s.articlesSeq + 1 }
  | .tags => { s with tagsSeq := s.tagsSeq + 1 }
  | .comments => { s with commentsSeq := s.commentsSeq + 1 }

/-- The DEFAULT of a SERIAL column. -/
def nextval (serial : Serial) : Txn Int := fun s =>
  if s.last serial < maxInt then
    .ok (s.last serial + 1) { s with toSequences := s.toSequences.advance serial }
  else .error .sequenceExhausted s

/-- Storing a text in a VARCHAR(width) column. PostgreSQL cuts an excess that is all blanks, but no
slug and no validated text too long for its column ends in blanks, so an excess is an error. -/
def varchar (width : Nat) (text : String) : Txn Unit :=
  if text.length ≤ width then pure () else throw .stringDataRightTruncation

/-- A UNIQUE or PRIMARY KEY constraint, checked against the rows the statement leaves. -/
def unique {κ : Type} [DecidableEq κ] (constraint : String) (keys : List κ) : Txn Unit :=
  if keys.Nodup then pure () else throw (.uniqueViolation constraint)

def foreignKey (constraint : String) (holds : Prop) [Decidable holds] : Txn Unit :=
  if holds then pure () else throw (.foreignKeyViolation constraint)

def notNull {α : Type} (column : String) : Option α → Txn α
  | some a => pure a
  | none => throw (.notNullViolation column)

/-- A scalar subquery: NULL without a row, an error with more than one. -/
def scalar {α : Type} : List α → Txn (Option α)
  | [] => pure none
  | [a] => pure (some a)
  | _ => throw .cardinalityViolation

/-- A statement is one transaction. When it fails its changes to tables are undone; values drawn
from sequences stay drawn. -/
def atomically {α : Type} (t : Txn α) (s : Store) : Except DbError α × Store :=
  match t s with
  | .ok a s' => (.ok a, s')
  | .error e s' => (.error e, { s with toSequences := s'.toSequences })

/-- The store a transaction leaves, whether it succeeds or fails. -/
def Txn.after {α : Type} (t : Txn α) (s : Store) : Store :=
  match t s with
  | .ok _ s' => s'
  | .error _ s' => s'

section
variable {α β : Type} {s : Store}

theorem after_bind {t : Txn α} {f : α → Txn β} :
    Txn.after (t >>= f) s = match t s with
      | .ok a s₁ => Txn.after (f a) s₁
      | .error _ s₁ => s₁ := by
  show (match EStateM.bind t f s with | .ok _ s' => s' | .error _ s' => s') = _
  unfold EStateM.bind
  cases t s <;> rfl

theorem after_map {t : Txn α} {f : α → β} : Txn.after (f <$> t) s = Txn.after t s := by
  rw [map_eq_pure_bind, after_bind]
  unfold Txn.after
  cases t s <;> rfl

theorem after_reading {t : Txn α} {f : α → Txn β} (same : Txn.after t s = s)
    (rest : ∀ a, Txn.after (f a) s = s) : Txn.after (t >>= f) s = s := by
  unfold Txn.after at same
  rw [after_bind]
  cases result : t s with
  | ok a s₁ =>
    rw [result] at same
    obtain rfl : s₁ = s := same
    exact rest a
  | error e s₁ =>
    rw [result] at same
    exact same

theorem check_after {holds : Prop} [Decidable holds] {e : DbError} :
    Txn.after (if holds then pure () else throw e : Txn Unit) s = s := by
  split <;> rfl

theorem notNull_after {column : String} {o : Option α} : Txn.after (notNull column o) s = s := by
  cases o <;> rfl

theorem scalar_after {rows : List α} : Txn.after (scalar rows) s = s := by
  match rows with
  | [] => rfl
  | [_] => rfl
  | _ :: _ :: _ => rfl

theorem forM_after {rows : List α} {check : α → Txn PUnit} (each : ∀ r, Txn.after (check r) s = s) :
    Txn.after (rows.forM check) s = s := by
  induction rows with
  | nil => rfl
  | cons r rows ih =>
    rw [List.forM_eq_forM, List.forM_cons]
    exact after_reading (each r) fun _ => ih

theorem atomically_of_after {t : Txn α} (same : Txn.after t s = s) : (atomically t s).2 = s := by
  unfold Txn.after at same
  unfold atomically
  cases result : t s with
  | ok a s' =>
    rw [result] at same
    exact same
  | error e s' =>
    rw [result] at same
    obtain rfl : s' = s := same
    rfl

theorem atomically_sequences {t : Txn α} :
    (atomically t s).2.toSequences = (Txn.after t s).toSequences := by
  unfold atomically Txn.after
  cases t s <;> rfl

end

/-! ### What each step of a transaction does when it succeeds -/

section
variable {α β : Type} {s s' : Store} {b : β}

theorem bind_ok {t : Txn α} {f : α → Txn β} :
    (t >>= f) s = .ok b s' ↔ ∃ a s₁, t s = .ok a s₁ ∧ f a s₁ = .ok b s' := by
  show EStateM.bind t f s = _ ↔ _
  unfold EStateM.bind
  cases t s <;> simp

theorem bind_of_ok {t : Txn α} {f : α → Txn β} {a : α} {s₁ : Store} (done : t s = .ok a s₁) : (t >>= f) s = f a s₁ := by
  show EStateM.bind t f s = _
  rw [EStateM.bind, done]

theorem bind_of_error {t : Txn α} {f : α → Txn β} {e : DbError} {s₁ : Store} (failed : t s = .error e s₁) :
    (t >>= f) s = .error e s₁ := by
  show EStateM.bind t f s = _
  rw [EStateM.bind, failed]

theorem pure_ok {a b : α} : (pure a : Txn α) s = .ok b s' ↔ b = a ∧ s' = s := by
  show EStateM.Result.ok a s = _ ↔ _
  rw [EStateM.Result.ok.injEq]
  exact and_congr eq_comm eq_comm

theorem throw_ok {e : DbError} : ¬ (throw e : Txn β) s = .ok b s' := by
  intro h
  cases h

theorem set_ok {t : Store} {u : PUnit} : (set t : Txn PUnit) s = .ok u s' ↔ s' = t := by
  show EStateM.Result.ok PUnit.unit t = _ ↔ _
  rw [EStateM.Result.ok.injEq]
  exact ⟨fun h => h.2.symm, fun h => ⟨rfl, h.symm⟩⟩

theorem check_ok {holds : Prop} [Decidable holds] {e : DbError} {u : Unit} :
    (if holds then pure () else throw e : Txn Unit) s = .ok u s' ↔ holds ∧ s' = s := by
  split
  · rename_i held
    rw [pure_ok]
    exact ⟨fun h => ⟨held, h.2⟩, fun h => ⟨rfl, h.2⟩⟩
  · rename_i failed
    exact ⟨fun h => absurd h throw_ok, fun h => absurd h.1 failed⟩

theorem check_pass {holds : Prop} [Decidable holds] {e : DbError} (held : holds) :
    (if holds then pure () else throw e : Txn Unit) s = .ok () s := by
  rw [if_pos held]
  rfl

theorem check_fail {holds : Prop} [Decidable holds] {e : DbError} (failed : ¬ holds) :
    (if holds then pure () else throw e : Txn Unit) s = .error e s := by
  rw [if_neg failed]
  rfl

theorem unique_ok {κ : Type} [DecidableEq κ] {constraint : String} {keys : List κ} {u : Unit} :
    unique constraint keys s = .ok u s' ↔ keys.Nodup ∧ s' = s := check_ok

theorem get_bind_ok {f : Store → Txn β} : (get >>= f) s = .ok b s' ↔ f s s = .ok b s' := Iff.rfl

theorem set_bind_ok {t : Store} {f : PUnit → Txn β} :
    (set t >>= f) s = .ok b s' ↔ f () t = .ok b s' := Iff.rfl

theorem nextval_bind_ok {serial : Serial} {f : Int → Txn β} :
    (nextval serial >>= f) s = .ok b s' ↔ s.last serial < maxInt ∧
      f (s.last serial + 1) { s with toSequences := s.toSequences.advance serial } = .ok b s' := by
  rw [bind_ok, nextval]
  split
  · rename_i below
    simp [below]
  · rename_i ended
    simp [ended]

theorem check_bind_ok {holds : Prop} [Decidable holds] {e : DbError} {f : Unit → Txn β} :
    ((if holds then pure () else throw e : Txn Unit) >>= f) s = .ok b s' ↔
      holds ∧ f () s = .ok b s' := by
  simp only [bind_ok, check_ok]
  constructor
  · rintro ⟨_, _, ⟨held, rfl⟩, rest⟩
    exact ⟨held, rest⟩
  · rintro ⟨held, rest⟩
    exact ⟨(), s, ⟨held, rfl⟩, rest⟩

theorem varchar_bind_ok {width : Nat} {text : String} {f : Unit → Txn β} :
    (varchar width text >>= f) s = .ok b s' ↔ text.length ≤ width ∧ f () s = .ok b s' := check_bind_ok

theorem unique_bind_ok {κ : Type} [DecidableEq κ] {constraint : String} {keys : List κ}
    {f : Unit → Txn β} :
    (unique constraint keys >>= f) s = .ok b s' ↔ keys.Nodup ∧ f () s = .ok b s' := check_bind_ok

theorem foreignKey_bind_ok {constraint : String} {holds : Prop} [Decidable holds] {f : Unit → Txn β} :
    (foreignKey constraint holds >>= f) s = .ok b s' ↔ holds ∧ f () s = .ok b s' := check_bind_ok

theorem notNull_bind_ok {column : String} {o : Option α} {f : α → Txn β} :
    (notNull column o >>= f) s = .ok b s' ↔ ∃ a, o = some a ∧ f a s = .ok b s' := by
  cases o with
  | none =>
    constructor
    · intro h
      cases h
    · rintro ⟨_, ⟨⟩, _⟩
  | some a =>
    constructor
    · intro h
      exact ⟨a, rfl, h⟩
    · rintro ⟨_, ⟨⟩, h⟩
      exact h

theorem scalar_bind_ok {rows : List α} {f : Option α → Txn β} :
    (scalar rows >>= f) s = .ok b s' ↔ ∃ o : Option α, rows = o.toList ∧ f o s = .ok b s' := by
  constructor
  · intro h
    match rows with
    | [] => exact ⟨none, rfl, h⟩
    | [a] => exact ⟨some a, rfl, h⟩
    | a :: c :: rows => cases h
  · rintro ⟨o, rfl, h⟩
    cases o with
    | none => exact h
    | some a => exact h

theorem forM_bind_ok {rows : List α} {check : α → Txn PUnit} {fits : α → Prop} {f : PUnit → Txn β}
    (each : ∀ r t, check r s = .ok () t ↔ fits r ∧ t = s) :
    (rows.forM check >>= f) s = .ok b s' ↔ (∀ r ∈ rows, fits r) ∧ f () s = .ok b s' := by
  have checks : ∀ t, rows.forM check s = .ok () t ↔ (∀ r ∈ rows, fits r) ∧ t = s := by
    induction rows with
    | nil =>
      intro t
      rw [List.forM_eq_forM, List.forM_nil, pure_ok]
      simp
    | cons r rows ih =>
      intro t
      rw [List.forM_eq_forM, List.forM_cons, bind_ok, List.forall_mem_cons]
      constructor
      · rintro ⟨_, _, first, rest⟩
        obtain ⟨fit, rfl⟩ := (each r _).mp first
        obtain ⟨fits, rfl⟩ := (ih _).mp rest
        exact ⟨⟨fit, fits⟩, rfl⟩
      · rintro ⟨⟨fit, fits⟩, rfl⟩
        exact ⟨(), _, (each r _).mpr ⟨fit, rfl⟩, (ih _).mpr ⟨fits, rfl⟩⟩
  rw [bind_ok]
  constructor
  · rintro ⟨_, _, first, rest⟩
    obtain ⟨fits, rfl⟩ := (checks _).mp first
    exact ⟨fits, rest⟩
  · rintro ⟨fits, rest⟩
    exact ⟨(), s, (checks s).mpr ⟨fits, rfl⟩, rest⟩

end

theorem atomically_ok {α : Type} {t : Txn α} {s s' : Store} {a : α} :
    atomically t s = (.ok a, s') ↔ t s = .ok a s' := by
  unfold atomically
  cases t s <;> simp

theorem atomically_error {α : Type} {t : Txn α} {s : Store} {e : DbError}
    (h : (atomically t s).1 = .error e) : (atomically t s).2.toTables = s.toTables := by
  unfold atomically at h ⊢
  cases result : t s with
  | ok a s' => rw [result] at h; cases h
  | error e' s' => rfl

end RealWorld.Schema
