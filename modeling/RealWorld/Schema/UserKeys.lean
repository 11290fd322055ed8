import RealWorld.Schema.Raises

/-!
# References to users

Five foreign keys of `db_1.sql` refer to `users`. No statement deletes a user or changes an id, so a
reference to a user that was stored once can never be refused again.
-/

namespace RealWorld.Schema
open Relational

/-- The foreign keys that refer to `users`, by the names they are declared with. -/
def userKeys : List String := ["fk_article_author", "fk_user", "fk_follower", "fk_followed", "fk_author"]

/-- A violation of one of them. -/
def Dangling : DbError → Prop
  | .foreignKeyViolation constraint => constraint ∈ userKeys
  | _ => False

instance : DecidablePred Dangling := fun
  | .foreignKeyViolation constraint => inferInstanceAs (Decidable (constraint ∈ userKeys))
  | .uniqueViolation _ | .notNullViolation _ | .stringDataRightTruncation | .invalidByteSequence
  | .cardinalityViolation | .invalidRowCount | .sequenceExhausted => inferInstanceAs (Decidable False)

def Tables.hasUser (t : Tables) (id : Int) : Prop := ∃ u ∈ t.users, u.userId = id

/-- The ids a statement stores in columns that refer to `users`. -/
def Sql.userIds : Sql → List Int
  | .addNewArticle _ _ _ _ authorId _ => [authorId]
  | .follow follower followed => [follower, followed]
  | .addNewComment _ _ userId | .favoriteArticle _ userId => [userId]
  | _ => []

/-! ### Users stay -/

section
variable {loc : DbLocale} {m : Moment} {s s' : Store} {id : Int}

theorem Tables.hasUser_update {t : Tables} {userId : Int} {username email passwordHash bio image : Option String}
    (h : t.hasUser id) :
    { t with users := t.users.map fun u => if u.userId = userId then u.update username email passwordHash bio image
                                            else u : Tables }.hasUser id := by
  obtain ⟨u, member, rfl⟩ := h
  refine ⟨_, List.mem_map_of_mem member, ?_⟩
  split <;> rfl

theorem Effect.hasUser {q : Sql} {rows : List q.Row} (effect : Effect loc m s q rows s') (h : s.hasUser id) :
    s'.hasUser id := by
  by_cases changes : q.changesUsers
  · cases effect with
    | addNewUser done =>
      obtain ⟨u, member, same⟩ := h
      obtain ⟨_, _, _, _, users, _⟩ := addNewUser_store done
      exact ⟨u, users ▸ List.mem_append_left _ member, same⟩
    | updateUserById done =>
      obtain ⟨_, _, rfl⟩ := updateUserById_ok.mp done
      exact Tables.hasUser_update h
    | _ => cases changes
  · obtain ⟨u, member, same⟩ := h
    exact ⟨u, effect.users_kept changes ▸ member, same⟩

theorem Sql.exec_hasUser (q : Sql) (h : s.hasUser id) : (q.exec loc m s).2.hasUser id := by
  rcases Sql.exec_cases (Prod.mk.eta (p := q.exec loc m s)).symm with same | ⟨rows, _, _, effect⟩
  · rw [same]
    exact h
  · exact effect.hasUser h

end

/-! ### Which statements can be refused for a user -/

/-- The transaction fails, if it does, for another reason than a missing user. -/
abbrev Attached {α : Type} (t : Txn α) (s : Store) : Prop := RaisesOnly (fun e => ¬ Dangling e) t s

section
variable {loc : DbLocale} {m : Moment} {s : Store}

theorem insertTags_attached {names : List String} : Attached (insertTags names) s :=
  insertTags_errors nofun nofun

theorem insertArticleTags_attached {articleId : Int} {tagList : List String} :
    Attached (insertArticleTags articleId tagList) s :=
  insertArticleTags_errors nofun (by decide) (by decide)

/-- The ids are drawn and the widths checked before the tables are read, which they leave alone. -/
theorem insertArticles_attached {title slug description body : String} {authorId : Int} (author : s.hasUser authorId) :
    Attached (insertArticles m title slug description body authorId) s := by
  refine .nextval_bind nofun <| (raisesOnly_check_expected nofun).mpr fun _ =>
    (raisesOnly_check_expected nofun).mpr fun _ => .get_bind ?_
  exact .bind (raisesOnly_last_check nofun) fun _ _ => .bind (raisesOnly_last_check nofun) fun _ _ =>
    .bind (.held author) fun _ _ => .bind raisesOnly_final_set fun _ _ => raisesOnly_pure

theorem addNewArticle_attached {title slug description body : String} {authorId : Int}
    {tagList : Option (List String)} (author : s.hasUser authorId) :
    Attached (addNewArticle m title slug description body authorId tagList) s :=
  .bind (insertArticles_attached author) fun _ _ => .bind insertTags_attached fun _ _ =>
    .bind insertArticleTags_attached fun _ _ => raisesOnly_pure

theorem addCommentToArticle_attached {slug body : String} {userId : Int} (user : s.hasUser userId) :
    Attached (addCommentToArticle m slug body userId) s := by
  refine .nextval_bind nofun <| (raisesOnly_check_expected nofun).mpr fun _ => .get_bind ?_
  refine .bind (.scalar nofun) fun _ _ => .bind (.notNull nofun) fun _ _ => ?_
  exact .bind (raisesOnly_last_check nofun) fun _ _ => .bind (raisesOnly_last_check (by decide)) fun _ _ =>
    .bind (.held user) fun _ _ => .bind raisesOnly_final_set fun _ _ => raisesOnly_pure

theorem deleteArticleBySlug_attached {slug : String} {authorId : Int} :
    Attached (deleteArticleBySlug slug authorId) s :=
  .get_bind <| .bind (raisesOnly_last_check (by decide)) fun _ _ => raisesOnly_final_set

theorem deleteComment_attached {commentId : Int} {slug : String} {authorId : Int} :
    Attached (deleteComment commentId slug authorId) s :=
  .get_bind <| .bind (.scalar nofun) fun _ _ => raisesOnly_final_set

theorem isCommentExist_attached {commentId : Int} {slug : String} {authorId : Int} :
    Attached (isCommentExist commentId slug authorId) s :=
  .get_bind <| .bind (.scalar nofun) fun _ _ => raisesOnly_pure

theorem favoriteArticle_attached {slug : String} {userId : Int} (user : s.hasUser userId) :
    Attached (favoriteArticle slug userId) s := by
  refine .get_bind <| .bind (.scalar nofun) fun _ _ => .bind (.notNull nofun) fun _ _ => ?_
  exact .bind (raisesOnly_last_check nofun) fun _ _ => .bind (.held user) fun _ _ =>
    .bind (raisesOnly_last_check (by decide)) fun _ _ => raisesOnly_final_set

theorem unfavoriteArticle_attached {slug : String} {userId : Int} : Attached (unfavoriteArticle slug userId) s :=
  .get_bind <| .bind (.scalar nofun) fun _ _ => raisesOnly_final_set

theorem follow_attached {follower followed : Int} (here : s.hasUser follower) (there : s.hasUser followed) :
    Attached (follow follower followed) s :=
  .get_bind <| .bind (raisesOnly_last_check nofun) fun _ _ => .bind (.held here) fun _ _ =>
    .bind (.held there) fun _ _ => raisesOnly_final_set

theorem unfollow_attached {follower followed : Int} : Attached (unfollow follower followed) s :=
  .get_bind raisesOnly_final_set

theorem updateArticleBySlug_attached {oldSlug : String} {authorId : Int}
    {title newSlug description body : Option String} :
    Attached (updateArticleBySlug m oldSlug authorId title newSlug description body) s := by
  refine .get_bind <| .bind (.forM fun a s => ?_) fun _ _ => .bind raisesOnly_final_set fun _ _ => raisesOnly_pure
  exact .bind (raisesOnly_last_check nofun) fun _ _ => .bind (raisesOnly_last_check nofun) fun _ _ =>
    raisesOnly_last_check nofun

theorem addNewUser_attached {username email hash : String} : Attached (addNewUser loc username email hash) s := by
  refine .nextval_bind nofun <| .bind (raisesOnly_last_check nofun) fun _ _ =>
    .bind (raisesOnly_last_check nofun) fun _ _ => .get_bind ?_
  exact .bind (raisesOnly_last_check nofun) fun _ _ => .bind (raisesOnly_last_check nofun) fun _ _ =>
    .bind (raisesOnly_last_check nofun) fun _ _ => .bind raisesOnly_final_set fun _ _ => raisesOnly_pure

theorem updateUserById_attached {userId : Int} {username email passwordHash bio image : Option String} :
    Attached (updateUserById loc userId username email passwordHash bio image) s := by
  refine .get_bind <| .bind (.forM fun u s => ?_) fun _ _ => .bind raisesOnly_final_set fun _ _ => raisesOnly_pure
  exact .bind (raisesOnly_last_check nofun) fun _ _ => .bind (raisesOnly_last_check nofun) fun _ _ =>
    .bind (raisesOnly_last_check nofun) fun _ _ => .bind (raisesOnly_last_check nofun) fun _ _ =>
    raisesOnly_last_check nofun

theorem limitOffset_attached {α : Type} {limit offset : Option Int} {rows : List α} {e : DbError}
    (failed : limitOffset limit offset rows = .error e) : ¬ Dangling e := by
  unfold limitOffset at failed
  split at failed
  · cases failed
    nofun
  · cases failed

/-- A statement that names stored users only is not refused for a missing one. -/
theorem Sql.exec_attached {q : Sql} (known : ∀ id ∈ q.userIds, s.hasUser id) :
    q.RaisesOnly (fun e => ¬ Dangling e) loc s := by
  intro m e s' failed
  by_cases texts : q.texts.all storable
  · rw [Sql.exec_storable texts] at failed
    cases q with
    | addNewArticle => exact singleton_raisesOnly.mpr (addNewArticle_attached (known _ List.mem_cons_self)) e s' failed
    | follow =>
      obtain ⟨here, there⟩ := List.forall_mem_cons.mp known
      exact singleton_raisesOnly.mpr (follow_attached here (there _ List.mem_cons_self)) e s' failed
    | unfollow => exact singleton_raisesOnly.mpr unfollow_attached e s' failed
    | updateArticleBySlug => exact atomically_raisesOnly.mpr updateArticleBySlug_attached e s' failed
    | deleteArticleBySlug => exact singleton_raisesOnly.mpr deleteArticleBySlug_attached e s' failed
    | getArticlesWithAuthorProfile => exact limitOffset_attached (congrArg Prod.fst failed)
    | getFeed => exact limitOffset_attached (congrArg Prod.fst failed)
    | addNewUser => exact singleton_raisesOnly.mpr addNewUser_attached e s' failed
    | updateUserById => exact atomically_raisesOnly.mpr updateUserById_attached e s' failed
    | addNewComment =>
      exact singleton_raisesOnly.mpr (addCommentToArticle_attached (known _ List.mem_cons_self)) e s' failed
    | deleteComment => exact singleton_raisesOnly.mpr deleteComment_attached e s' failed
    | favoriteArticle =>
      exact singleton_raisesOnly.mpr (favoriteArticle_attached (known _ List.mem_cons_self)) e s' failed
    | unfavoriteArticle => exact singleton_raisesOnly.mpr unfavoriteArticle_attached e s' failed
    | isCommentExist => exact singleton_raisesOnly.mpr isCommentExist_attached e s' failed
    | _ => cases failed
  · rw [Sql.exec_unstorable texts] at failed
    cases failed
    nofun

end

end RealWorld.Schema
