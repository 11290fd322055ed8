import RealWorld.Schema.Effects

/-!
# Sequences

Values drawn from a sequence stay drawn, also when the statement that drew them fails. No statement
sets a sequence back or moves it past the largest INT.
-/

namespace RealWorld.Schema
open Relational

variable {loc : DbLocale} {m : Moment} {s : Store}

/-- Between two stores values were drawn, and only values of an INT. -/
structure Sequences.Drawn (before after : Sequences) : Prop where
  grown : ∀ serial, before.last serial ≤ after.last serial
  bounded : ∀ serial, before.last serial ≤ maxInt → after.last serial ≤ maxInt

theorem Sequences.Drawn.refl (q : Sequences) : q.Drawn q := ⟨fun _ => le_rfl, fun _ h => h⟩

theorem Sequences.Drawn.trans {a b c : Sequences} (first : a.Drawn b) (second : b.Drawn c) :
    a.Drawn c :=
  ⟨fun serial => (first.grown serial).trans (second.grown serial),
    fun serial h => second.bounded serial (first.bounded serial h)⟩

theorem advance_drawn {q : Sequences} (serial : Serial) (below : q.last serial < maxInt) :
    q.Drawn (q.advance serial) := by
  constructor
  · intro other
    cases serial <;> cases other <;> simp only [Sequences.advance, Sequences.last] <;> omega
  · intro other
    cases serial <;> cases other <;> simp only [Sequences.advance, Sequences.last] at below ⊢ <;> omega

/-- `t`, started from `s`, only draws. -/
def Draws {α : Type} (t : Txn α) (s : Store) : Prop :=
  s.toSequences.Drawn (Txn.after t s).toSequences

section
variable {α β : Type}

theorem Draws.of_after {t : Txn α} (same : Txn.after t s = s) : Draws t s := by
  unfold Draws
  rw [same]
  exact .refl _

theorem Draws.pure {a : α} : Draws (pure a) s := .refl _

theorem Draws.set {t : Store} (same : t.toSequences = s.toSequences) : Draws (set t) s := by
  show s.toSequences.Drawn t.toSequences
  rw [same]
  exact .refl _

theorem Draws.nextval {serial : Serial} : Draws (nextval serial) s := by
  unfold Draws Txn.after Schema.nextval
  by_cases below : s.last serial < maxInt
  · rw [if_pos below]
    exact advance_drawn serial below
  · rw [if_neg below]
    exact .refl _

theorem Draws.bind {t : Txn α} {f : α → Txn β} (first : Draws t s)
    (rest : ∀ a s₁, t s = .ok a s₁ → Draws (f a) s₁) : Draws (t >>= f) s := by
  unfold Draws Txn.after at first
  unfold Draws
  rw [after_bind]
  cases result : t s with
  | ok a s₁ =>
    rw [result] at first
    exact first.trans (rest a s₁ result)
  | error e s₁ =>
    rw [result] at first
    exact first

theorem Draws.get_bind {f : Store → Txn β} (rest : Draws (f s) s) : Draws (get >>= f) s := rest

theorem Draws.reading {t : Txn α} {f : α → Txn β} (same : Txn.after t s = s)
    (rest : ∀ a, Draws (f a) s) : Draws (t >>= f) s := by
  refine .bind (.of_after same) fun a s₁ done => ?_
  have stayed : s₁ = s := by
    unfold Txn.after at same
    rw [done] at same
    exact same
  rw [stayed]
  exact rest a

end

/-- `t`, started from `s`, draws nothing. -/
def Undrawn {α : Type} (t : Txn α) (s : Store) : Prop := (Txn.after t s).toSequences = s.toSequences

section
variable {α β : Type}

theorem Undrawn.of_after {t : Txn α} (same : Txn.after t s = s) : Undrawn t s := congrArg Store.toSequences same

theorem Undrawn.replaced {t : Store} (same : t.toSequences = s.toSequences) : Undrawn (set t) s := same

theorem Undrawn.replaced_return {t : Store} {b : β} (same : t.toSequences = s.toSequences) :
    Undrawn (do set t; return b) s := same

theorem Undrawn.get_bind {f : Store → Txn β} (rest : Undrawn (f s) s) : Undrawn (get >>= f) s := rest

theorem Undrawn.reading {t : Txn α} {f : α → Txn β} (same : Txn.after t s = s)
    (rest : ∀ a, Undrawn (f a) s) : Undrawn (t >>= f) s := by
  unfold Txn.after at same
  unfold Undrawn
  rw [after_bind]
  cases result : t s with
  | ok a s₁ =>
    rw [result] at same
    obtain rfl : s₁ = s := same
    exact rest a
  | error e s₁ =>
    rw [result] at same
    exact congrArg Store.toSequences same

end

theorem insertUsers_draws {username email hash : String} :
    Draws (insertUsers loc username email hash) s := by
  refine .bind .nextval fun _ _ _ => ?_
  refine .reading check_after fun _ => .reading check_after fun _ => .get_bind ?_
  refine .reading check_after fun _ => .reading check_after fun _ => .reading check_after fun _ => ?_
  exact .bind (.set rfl) fun _ _ _ => .pure

theorem insertArticles_draws {title slug description body : String} {authorId : Int} :
    Draws (insertArticles m title slug description body authorId) s := by
  refine .bind .nextval fun _ _ _ => ?_
  refine .reading check_after fun _ => .reading check_after fun _ => .get_bind ?_
  refine .reading check_after fun _ => .reading check_after fun _ => .reading check_after fun _ => ?_
  exact .bind (.set rfl) fun _ _ _ => .pure

theorem insertTags_draws {names : List String} : Draws (insertTags names) s := by
  induction names generalizing s with
  | nil => exact .pure
  | cons name names ih =>
    refine .bind .nextval fun _ _ _ => .reading check_after fun _ => .get_bind ?_
    exact .bind (.set (by split <;> rfl)) fun _ _ _ => ih

theorem insertArticleTags_draws {articleId : Int} {tagList : List String} :
    Draws (insertArticleTags articleId tagList) s := by
  refine .get_bind ?_
  refine .reading check_after fun _ => .reading check_after fun _ => .reading check_after fun _ => ?_
  exact .set rfl

theorem addNewArticle_draws {title slug description body : String} {authorId : Int}
    {tagList : Option (List String)} :
    Draws (addNewArticle m title slug description body authorId tagList) s := by
  refine .bind insertArticles_draws fun _ _ _ => .bind insertTags_draws fun _ _ _ => ?_
  exact .bind insertArticleTags_draws fun _ _ _ => .pure

theorem addCommentToArticle_draws {slug body : String} {userId : Int} :
    Draws (addCommentToArticle m slug body userId) s := by
  refine .bind .nextval fun _ _ _ => .reading check_after fun _ => .get_bind ?_
  refine .reading scalar_after fun _ => .reading notNull_after fun _ => ?_
  refine .reading check_after fun _ => .reading check_after fun _ => .reading check_after fun _ => ?_
  exact .bind (.set rfl) fun _ _ _ => .pure

theorem deleteArticleBySlug_undrawn {slug : String} {authorId : Int} :
    Undrawn (deleteArticleBySlug slug authorId) s :=
  .get_bind (.reading check_after fun _ => .replaced rfl)

theorem deleteComment_undrawn {commentId : Int} {slug : String} {authorId : Int} :
    Undrawn (deleteComment commentId slug authorId) s :=
  .get_bind (.reading scalar_after fun _ => .replaced rfl)

theorem favoriteArticle_undrawn {slug : String} {userId : Int} : Undrawn (favoriteArticle slug userId) s := by
  refine .get_bind (.reading scalar_after fun _ => .reading notNull_after fun _ => ?_)
  refine .reading check_after fun _ => .reading check_after fun _ => .reading check_after fun _ => ?_
  exact .replaced rfl

theorem unfavoriteArticle_undrawn {slug : String} {userId : Int} : Undrawn (unfavoriteArticle slug userId) s :=
  .get_bind (.reading scalar_after fun _ => .replaced rfl)

theorem follow_undrawn {follower followed : Int} : Undrawn (follow follower followed) s := by
  refine .get_bind ?_
  refine .reading check_after fun _ => .reading check_after fun _ => .reading check_after fun _ => ?_
  exact .replaced rfl

theorem unfollow_undrawn {follower followed : Int} : Undrawn (unfollow follower followed) s := .get_bind (.replaced rfl)

theorem updateArticleBySlug_undrawn {oldSlug : String} {authorId : Int}
    {title newSlug description body : Option String} :
    Undrawn (updateArticleBySlug m oldSlug authorId title newSlug description body) s := by
  refine .get_bind (.reading (forM_after fun a => ?_) fun _ => .replaced_return rfl)
  exact after_reading check_after fun _ => after_reading check_after fun _ => check_after

theorem updateUserById_undrawn {userId : Int} {username email passwordHash bio image : Option String} :
    Undrawn (updateUserById loc userId username email passwordHash bio image) s := by
  refine .get_bind (.reading (forM_after fun u => ?_) fun _ => .replaced_return rfl)
  refine after_reading check_after fun _ => after_reading check_after fun _ => ?_
  exact after_reading check_after fun _ => after_reading check_after fun _ => check_after

/-- The statements that insert a row with an id. -/
def Sql.draws : Sql → Prop
  | .addNewArticle .. | .addNewUser .. | .addNewComment .. => True
  | _ => False

theorem Sql.body_undrawn {q : Sql} (undrawn : ¬ q.draws) : (q.body loc m s).2.toSequences = s.toSequences := by
  have transaction : ∀ {α : Type} {t : Txn α}, Undrawn t s → (atomically t s).2.toSequences = s.toSequences :=
    fun same => by rw [atomically_sequences, same]
  have single : ∀ {α : Type} {t : Txn α}, Undrawn t s →
      (atomically (List.singleton <$> t) s).2.toSequences = s.toSequences :=
    fun same => by rw [atomically_sequences, after_map, same]
  cases q with
  | addNewArticle | addNewUser | addNewComment => exact absurd trivial undrawn
  | follow => exact single follow_undrawn
  | unfollow => exact single (unfollow_undrawn ..)
  | updateArticleBySlug => exact transaction updateArticleBySlug_undrawn
  | deleteArticleBySlug => exact single deleteArticleBySlug_undrawn
  | updateUserById => exact transaction updateUserById_undrawn
  | deleteComment => exact single deleteComment_undrawn
  | favoriteArticle => exact single favoriteArticle_undrawn
  | unfavoriteArticle => exact single unfavoriteArticle_undrawn
  | isCommentExist => exact single (.of_after (isCommentExist_after ..))
  | _ => rfl

theorem Sql.body_draws (q : Sql) : s.toSequences.Drawn (q.body loc m s).2.toSequences := by
  have single : ∀ {α : Type} {t : Txn α}, Draws t s →
      s.toSequences.Drawn (atomically (List.singleton <$> t) s).2.toSequences := fun draws => by
    rw [atomically_sequences, after_map]
    exact draws
  by_cases draws : q.draws
  · cases q with
    | addNewArticle => exact single addNewArticle_draws
    | addNewUser => exact single insertUsers_draws
    | addNewComment => exact single addCommentToArticle_draws
    | _ => cases draws
  · rw [Sql.body_undrawn draws]
    exact .refl _

theorem Sql.exec_draws (q : Sql) : s.toSequences.Drawn (q.exec loc m s).2.toSequences := by
  unfold Sql.exec
  split
  · exact Sql.body_draws q
  · exact .refl _

/-- A statement that inserts no row with an id leaves no trace when it fails. -/
theorem Sql.exec_refused {q : Sql} (undrawn : ¬ q.draws) {e : DbError} {s' : Store}
    (failed : q.exec loc m s = (.error e, s')) : s' = s := by
  have tables := Sql.exec_error failed
  have sequences : s'.toSequences = s.toSequences := by
    rw [show s' = (q.exec loc m s).2 from (congrArg Prod.snd failed).symm]
    unfold Sql.exec
    split
    · exact Sql.body_undrawn undrawn
    · rfl
  cases s'
  cases s
  cases tables
  cases sequences
  rfl

end RealWorld.Schema
