import RealWorld.Handlers.Writes
import RealWorld.Runs
import RealWorld.Schema.Lookups

/-!
# Whose rows a request may change

A token lets its user change the rows that belong to that user. Articles belong to their author with
their tag links, favorites and follows to the user who made them, comments to their author unless the
author of the article deletes it.
-/

namespace RealWorld
open Schema

/-- Between two states nothing changed that belongs to someone other than user `u`, and nothing was
created for someone else. Only registration adds a row of `users`. -/
structure OwnershipFrame (route : Route) (u : Int) (t t' : Tables) : Prop where
  users : ∀ x ∈ t.users, x.userId ≠ u → x ∈ t'.users
  newUsers : ∀ x ∈ t'.users, x.userId ≠ u → x ∈ t.users ∨ route = .postUsers
  articles : ∀ a, a.authorId ≠ u → (a ∈ t'.articles ↔ a ∈ t.articles)
  articleTags : ∀ a ∈ t.articles, a.authorId ≠ u → ∀ l, l.articleId = a.articleId →
    (l ∈ t'.articleTags ↔ l ∈ t.articleTags)
  favorites : ∀ f, f.userId ≠ u → (f ∈ t'.favorites ↔ f ∈ t.favorites)
  followers : ∀ r, r.follower ≠ u → (r ∈ t'.followers ↔ r ∈ t.followers)
  newComments : ∀ c ∈ t'.comments, c.authorId ≠ u → c ∈ t.comments
  comments : ∀ c ∈ t.comments, c.authorId ≠ u → c ∈ t'.comments ∨
    ∃ a ∈ t.articles, a.authorId = u ∧ a.articleId = c.articleId ∧
      ∀ b ∈ t'.articles, b.articleId ≠ c.articleId

theorem OwnershipFrame.refl (route : Route) (u : Int) (t : Tables) : OwnershipFrame route u t t where
  users := fun _ member _ => member
  newUsers := fun _ member _ => .inl member
  articles := fun _ _ => .rfl
  articleTags := fun _ _ _ _ _ => .rfl
  favorites := fun _ _ => .rfl
  followers := fun _ _ => .rfl
  newComments := fun _ member _ => member
  comments := fun _ member _ => .inl member

/-- Registration appends one row with a new id. -/
def Registered (t t' : Tables) : Prop :=
  ∃ x : User, (∀ y ∈ t.users, y.userId ≠ x.userId) ∧ t' = { t with users := t.users ++ [x] }

theorem Registered.frame {t t' : Tables} (h : Registered t t') (u : Int) :
    OwnershipFrame .postUsers u t t' := by
  obtain ⟨x, _, rfl⟩ := h
  exact { OwnershipFrame.refl .postUsers u t with
    users := fun y member _ => List.mem_append_left _ member
    newUsers := fun _ _ _ => .inr rfl }

section
variable {loc : DbLocale} {m : Moment} {s s' : Store} {route : Route}

theorem mem_append_other {α : Type} {rows : List α} {row new : α} (other : row ≠ new) :
    row ∈ rows ++ [new] ↔ row ∈ rows := by
  simp [other]

theorem addNewArticle_owned (h : Valid loc s) {title slug description body : String}
    {authorId articleId : Int} {tagList : Option (List String)}
    (done : addNewArticle m title slug description body authorId tagList s = .ok articleId s') :
    OwnershipFrame route authorId s.toTables s'.toTables := by
  obtain ⟨fresh, links, linked, store⟩ := addNewArticle_store done
  rw [store]
  exact { OwnershipFrame.refl route authorId s.toTables with
    articles := fun a other => mem_append_other fun same => other (same ▸ rfl)
    articleTags := fun a member other l same => by
      have bounded := (h.serial_articles a member).2
      have unlinked : l ∉ links := fun new => by
        have same' := linked l new
        omega
      simp [unlinked]
    comments := fun _ member _ => .inl member }

theorem updateArticleBySlug_owned {oldSlug : String} {authorId : Int}
    {title newSlug description body : Option String} {rows : List Int}
    (done : updateArticleBySlug m oldSlug authorId title newSlug description body s = .ok rows s') :
    OwnershipFrame route authorId s.toTables s'.toTables := by
  obtain ⟨_, _, rfl⟩ := updateArticleBySlug_ok.mp done
  exact { OwnershipFrame.refl route authorId s.toTables with
    articles := fun a other => by
      rw [List.mem_map]
      constructor
      · rintro ⟨b, member, rfl⟩
        split at other
        · rename_i hit
          exact absurd hit.2 other
        · rename_i unhit
          rwa [if_neg unhit]
      · exact fun member => ⟨a, member, if_neg fun hit => other hit.2⟩
    comments := fun _ member _ => .inl member }

theorem deleteArticleBySlug_owned (h : Valid loc s) {slug : String} {authorId : Int} {u : Unit}
    (done : deleteArticleBySlug slug authorId s = .ok u s') :
    OwnershipFrame route authorId s.toTables s'.toTables := by
  obtain ⟨_, rfl⟩ := deleteArticleBySlug_ok.mp done
  exact { OwnershipFrame.refl route authorId s.toTables with
    articles := fun a other => by
      rw [List.mem_filter, Bool.not_eq_true', decide_eq_false_iff_not]
      exact and_iff_left fun hit => other hit.2
    articleTags := fun a member other l same => by
      rw [List.mem_filter, decide_eq_true_eq, same]
      refine and_iff_left fun owned => ?_
      obtain ⟨b, mem, ⟨_, author⟩, same'⟩ := mem_ownedBySlug.mp owned
      rw [article_eq h.toConstraints mem member same'] at author
      exact other author
    newComments := fun c member _ => (List.mem_filter.mp member).1
    comments := fun c member _ => by
      rw [List.mem_filter, decide_eq_true_eq]
      by_cases owned : c.articleId ∈ ownedBySlug s.toTables slug authorId
      · obtain ⟨a, mem, hit, same⟩ := mem_ownedBySlug.mp owned
        refine .inr ⟨a, mem, hit.2, same, fun b kept same' => ?_⟩
        obtain ⟨mem', unhit⟩ := List.mem_filter.mp kept
        rw [article_eq h.toConstraints mem' mem (same'.trans same.symm), Bool.not_eq_true',
          decide_eq_false_iff_not] at unhit
        exact unhit hit
      · exact .inl ⟨member, owned⟩ }

theorem deleteComment_owned {commentId : Int} {slug : String} {authorId : Int} {u : Unit}
    (done : deleteComment commentId slug authorId s = .ok u s') :
    OwnershipFrame route authorId s.toTables s'.toTables := by
  obtain ⟨articleId, _, rfl⟩ := deleteComment_ok.mp done
  exact { OwnershipFrame.refl route authorId s.toTables with
    newComments := fun c member _ => (List.mem_filter.mp member).1
    comments := fun c member other => by
      left
      rw [List.mem_filter, commentMatches_eq, Bool.not_eq_true', decide_eq_false_iff_not]
      exact ⟨member, fun hit => other hit.2.1⟩ }

theorem updateUserById_owned {userId : Int} {username email passwordHash bio image : Option String}
    {rows : List RealworldUser}
    (done : updateUserById loc userId username email passwordHash bio image s = .ok rows s') :
    OwnershipFrame route userId s.toTables s'.toTables := by
  obtain ⟨_, _, rfl⟩ := updateUserById_ok.mp done
  exact { OwnershipFrame.refl route userId s.toTables with
    users := fun x member other => List.mem_map.mpr ⟨x, member, if_neg other⟩
    newUsers := fun x member other => by
      obtain ⟨y, mem, rfl⟩ := List.mem_map.mp member
      split at other
      · rename_i hit
        exact absurd hit other
      · rename_i unhit
        rw [if_neg unhit]
        exact .inl mem }

/-- A writing statement changes only what belongs to its actor. -/
theorem Schema.Effect.owned (h : Valid loc s) {q : Sql} {rows : List q.Row} (effect : Effect loc m s q rows s')
    {u : Int} (actor : q.actor = some u) : OwnershipFrame route u s.toTables s'.toTables := by
  cases effect with
  | addNewArticle done =>
    obtain rfl := Option.some.inj actor
    exact addNewArticle_owned h done
  | follow done =>
    obtain rfl := Option.some.inj actor
    obtain ⟨_, _, _, rfl⟩ := follow_ok.mp done
    exact { OwnershipFrame.refl route _ s.toTables with
      followers := fun r other => mem_append_other fun same => other (same ▸ rfl) }
  | unfollow done =>
    obtain rfl := Option.some.inj actor
    obtain rfl := unfollow_ok.mp done
    exact { OwnershipFrame.refl route _ s.toTables with
      followers := fun r other => by
        rw [List.mem_filter, decide_eq_true_eq]
        exact and_iff_left fun hit => other hit.1 }
  | updateArticleBySlug done =>
    obtain rfl := Option.some.inj actor
    exact updateArticleBySlug_owned done
  | deleteArticleBySlug done =>
    obtain rfl := Option.some.inj actor
    exact deleteArticleBySlug_owned h done
  | addNewUser done => cases actor
  | updateUserById done =>
    obtain rfl := Option.some.inj actor
    exact updateUserById_owned done
  | addNewComment done =>
    obtain rfl := Option.some.inj actor
    obtain ⟨_, _, articleId, _, _, _, _, _, rfl⟩ := addCommentToArticle_ok.mp done
    exact { OwnershipFrame.refl route _ s.toTables with
      newComments := fun c member other => by
        refine (mem_append_other ?_).mp member
        rintro rfl
        exact other rfl
      comments := fun c member _ => .inl (List.mem_append_left _ member) }
  | deleteComment done =>
    obtain rfl := Option.some.inj actor
    exact deleteComment_owned done
  | favoriteArticle done =>
    obtain rfl := Option.some.inj actor
    obtain ⟨_, _, _, _, _, rfl⟩ := favoriteArticle_ok.mp done
    exact { OwnershipFrame.refl route _ s.toTables with
      favorites := fun f other => mem_append_other fun same => other (same ▸ rfl) }
  | unfavoriteArticle done =>
    obtain rfl := Option.some.inj actor
    obtain ⟨_, _, rfl⟩ := unfavoriteArticle_ok.mp done
    exact { OwnershipFrame.refl route _ s.toTables with
      favorites := fun f other => by
        rw [List.mem_filter, Bool.not_eq_true', decide_eq_false_iff_not]
        exact and_iff_left fun hit => other hit.1 }

theorem addNewUser_registered (h : Valid loc s) {username email hash : String} {userId : Int}
    (done : addNewUser loc username email hash s = .ok userId s') :
    Registered s.toTables s'.toTables := by
  obtain ⟨_, _, _, _, _, _, _, rfl⟩ := insertUsers_ok.mp done
  refine ⟨_, fun y member => ?_, rfl⟩
  have bounded := (h.serial_users y member).2
  dsimp only
  omega

end

/-- With a token a request changes only what belongs to its user; without one it can only register
a user. -/
theorem ownership_frame {svc : Service} {s : Store} (reachable : Reachable svc s) (call : Call)
    (ms : Nat → Moment) :
    (∀ data, call.caller svc = some data →
      OwnershipFrame call.route data.id s.toTables (respond svc call ms s).2.toTables) ∧
    (call.caller svc = none → (respond svc call ms s).2.toTables = s.toTables ∨
      call.route = .postUsers ∧ Registered s.toTables (respond svc call ms s).2.toTables) := by
  have h := reachable.valid
  rcases respond_effect svc call ms s with same | ⟨q, m, rows, issued, effect⟩
  · rw [same]
    exact ⟨fun data _ => .refl _ _ _, fun _ => .inl rfl⟩
  · rcases Option.eq_none_or_eq_some q.actor with none | ⟨u, actor⟩
    · have registered : call.route = .postUsers ∧
          Registered s.toTables (respond svc call ms s).2.toTables := by
        cases effect with
        | addNewUser done => exact ⟨(Option.some.inj issued.issuer).symm, addNewUser_registered h done⟩
        | _ => cases none
      refine ⟨fun data _ => ?_, fun _ => .inr registered⟩
      rw [registered.1]
      exact registered.2.frame data.id
    · have token : call.caller svc = none → False := fun missing => by
        have actors := issued.actor
        rw [missing, actor] at actors
        cases actors <;> contradiction
      refine ⟨fun data present => effect.owned h ?_, fun missing => (token missing).elim⟩
      have actors := issued.actor
      rw [present, actor] at actors
      rw [actor]
      exact actors.elim nofun id

theorem ownership_frame_sample :
    let call := sampleCall .deleteArticlesSlug 1 [("slug", "hello-there")]
    OwnershipFrame .deleteArticlesSlug 1 samplePublished.toTables
      (respond sample call (fun _ => sampleMoment) samplePublished).2.toTables := by
  intro call
  have token : call.caller sample = some (sampleData 1) := by decide
  exact (ownership_frame samplePublished_reachable call _).1 _ token

end RealWorld
