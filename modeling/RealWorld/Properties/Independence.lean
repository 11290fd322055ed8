import RealWorld.Properties.Repeated
import RealWorld.Transactional.Locality
import Mathlib.Data.List.Nodup
import Mathlib.Data.Set.Basic

/-!
# Social requests of different users are independent

A follow, unfollow, favorite or unfavorite request sees and changes only the rows of its caller in the two relations,
besides what no such request changes. So requests of different users can be answered in either order.
-/

namespace RealWorld
open Schema Relational Transactional

/-- The ids that a user follows and has as favorites, and the store apart from the two relations. -/
@[ext] structure SocialView where
  rest : Store
  followed : Set Int
  favorites : Set Int

def socialView (user : Int) (s : Store) : SocialView where
  rest := { s with followers := [], favorites := [] }
  followed := {id | ({ follower := user, followed := id } : Follower) ∈ s.followers}
  favorites := {id | ({ userId := user, articleId := id } : Favorite) ∈ s.favorites}

/-- The ids after one of them is added or removed. -/
def Mark.edited (mark : Mark) (id : Int) (ids : Set Int) : Set Int :=
  {other | if other = id then mark = .add else other ∈ ids}

/-- An id can be added by a known user, once; it can be removed by anyone at any time. -/
def Mark.Allowed (mark : Mark) (known : Prop) (id : Int) (ids : Set Int) : Prop := mark = .add → known ∧ id ∉ ids

open Classical in
/-- Follow or unfollow the user with the name. -/
noncomputable def SocialView.follow (loc : DbLocale) (mark : Mark) (username : String) (caller : Int) (v : SocialView) :
    Bool × SocialView :=
  match if storable username then getUserByUsername loc v.rest.toTables username else [] with
  | [x] =>
      if mark.Allowed (v.rest.hasUser caller) x.userId v.followed
      then (true, { v with followed := mark.edited x.userId v.followed }) else (false, v)
  | _ => (false, v)

open Classical in
/-- Favorite or unfavorite the article with the slug. -/
noncomputable def SocialView.favorite (mark : Mark) (slug : String) (caller : Int) (v : SocialView) : Bool × SocialView :=
  match articleIdsBySlug v.rest.toTables slug with
  | [id] =>
      if mark.Allowed (v.rest.hasUser caller) id v.favorites
      then (true, { v with favorites := mark.edited id v.favorites }) else (false, v)
  | _ => (false, v)

/-- A request leads, with success or without, from a reachable store to another. -/
def Answers (svc : Service) (call : Call) (s : Store) (success : Bool) (s' : Store) : Prop :=
  Reachable svc s ∧ ∃ ms, success = decide (respond svc call ms s).1.success ∧ s' = (respond svc call ms s).2

/-! ### The writes -/

section
variable {svc : Service} {call : Call} {s t : Store} {mark : Mark} {slug username : String} {caller followed id : Int}
  {m : Moment}

theorem follow_views {rows : List (mark.follow caller followed).Row}
    (done : Effect svc.loc m s (mark.follow caller followed) rows t) (user : Int) :
    socialView user t = if user = caller
      then { socialView caller s with followed := mark.edited followed (socialView caller s).followed }
      else socialView user s := by
  have stored := follow_stored done
  obtain ⟨followers, rfl⟩ : ∃ followers, t = { s with followers := followers } := by
    cases mark with
    | add => cases done with
      | follow inserted =>
        obtain ⟨_, _, _, rfl⟩ := follow_ok.mp inserted
        exact ⟨_, rfl⟩
    | remove => cases done with
      | unfollow deleted => exact ⟨_, unfollow_ok.mp deleted⟩
  split
  · rename_i own
    subst own
    refine SocialView.ext rfl (Set.ext fun other => ?_) rfl
    simpa [Mark.edited, socialView] using stored ⟨user, other⟩
  · rename_i others
    refine SocialView.ext rfl (Set.ext fun other => ?_) rfl
    simpa [others, socialView] using stored ⟨user, other⟩

theorem favorite_views {rows : List (mark.favorite slug caller).Row} (found : articleIdsBySlug s.toTables slug = [id])
    (done : Effect svc.loc m s (mark.favorite slug caller) rows t) (user : Int) :
    socialView user t = if user = caller
      then { socialView caller s with favorites := mark.edited id (socialView caller s).favorites }
      else socialView user s := by
  have stored := favorite_stored done
  rw [found] at stored
  obtain ⟨favorites, rfl⟩ : ∃ favorites, t = { s with favorites := favorites } := by
    cases mark with
    | add => cases done with
      | favoriteArticle inserted =>
        obtain ⟨_, _, _, _, _, rfl⟩ := favoriteArticle_ok.mp inserted
        exact ⟨_, rfl⟩
    | remove => cases done with
      | unfavoriteArticle deleted =>
        obtain ⟨_, _, rfl⟩ := unfavoriteArticle_ok.mp deleted
        exact ⟨_, rfl⟩
  split
  · rename_i own
    subst own
    refine SocialView.ext rfl rfl (Set.ext fun other => ?_)
    simpa [Mark.edited, socialView] using stored ⟨user, other⟩
  · rename_i others
    refine SocialView.ext rfl rfl (Set.ext fun other => ?_)
    simpa [others, socialView] using stored ⟨user, other⟩

/-! ### The requests -/

open Classical in
/-- A request that answers its write acts on the view of the caller as the write does. -/
theorem AnswersWrite.acts {q : Sql} {answer : Store → Response} (answers : AnswersWrite svc call q m answer s)
    (undrawn : ¬ q.draws) {allowed : Prop} {next : SocialView}
    (executes : (∃ rows t, q.exec svc.loc m s = (.ok rows, t)) ↔ allowed)
    (views : ∀ rows t, q.exec svc.loc m s = (.ok rows, t) →
      ∀ user, socialView user t = if user = caller then next else socialView user s) (ms : Nat → Moment) :
    (if allowed then (true, next) else (false, socialView caller s)) =
        (decide (respond svc call ms s).1.success, socialView caller (respond svc call ms s).2) ∧
      ∀ other, other ≠ caller → socialView other (respond svc call ms s).2 = socialView other s := by
  obtain ⟨r, t, executed⟩ : ∃ r t, q.exec svc.loc m s = (r, t) := ⟨_, _, rfl⟩
  cases r with
  | ok rows =>
    have view := views rows t executed
    rw [if_pos (executes.mp ⟨rows, t, executed⟩), answers.stored ms rows t executed]
    constructor
    · have success : (answer t).success := answers.success t
      rw [view caller, if_pos rfl]
      exact congrArg (·, next) (decide_eq_true success).symm
    · intro other distinct
      rw [view other, if_neg distinct]
  | error e =>
    have failed : ¬ allowed := by
      intro allows
      obtain ⟨rows, t', done⟩ := executes.mpr allows
      exact nomatch executed.symm.trans done
    obtain rfl := Sql.exec_refused undrawn executed
    rw [if_neg failed, answers.refused ms e _ executed]
    exact ⟨rfl, fun _ _ => rfl⟩

theorem FollowRequest.acts (request : FollowRequest svc call mark username caller) :
    Local socialView (SocialView.follow svc.loc mark username caller) caller (Answers svc call) := by
  rintro s _ _ ⟨reachable, ms, rfl, rfl⟩
  have h := reachable.valid
  unfold SocialView.follow
  by_cases found : storable username ∧ ∃ x ∈ s.users, svc.loc.citextLower x.username = svc.loc.citextLower username
  · obtain ⟨text, x, member, same⟩ := found
    have one : getUserByUsername svc.loc (socialView caller s).rest.toTables username = [x] := by
      rw [getUserByUsername, ← same]
      exact filter_key h.uniq_username member
    obtain ⟨response, answers⟩ := @FollowRequest.answersWrite _ _ _ _ _ (ms 0) request x text
    rw [if_pos text, one]
    refine (answers s h member same).acts (mark.follow_undrawn _ _) (follow_executes h member)
      (fun rows t done user => ?_) ms
    exact follow_views (follow_exec.mp done) user
  · have none : (if storable username then getUserByUsername svc.loc (socialView caller s).rest.toTables username
        else []) = [] := by
      split
      · rename_i text
        exact filter_key_nil fun x member same => found ⟨text, x, member, same⟩
      · rfl
    obtain ⟨response, failed, still⟩ := request.absent fun text x member same => found ⟨text, x, member, same⟩
    rw [none, still ms, decide_eq_false failed]
    exact ⟨rfl, fun _ _ => rfl⟩

theorem FavoriteRequest.acts (request : FavoriteRequest svc call mark slug caller) :
    Local socialView (SocialView.favorite mark slug caller) caller (Answers svc call) := by
  rintro s _ _ ⟨reachable, ms, rfl, rfl⟩
  have h := reachable.valid
  unfold SocialView.favorite
  have rest : articleIdsBySlug (socialView caller s).rest.toTables slug = articleIdsBySlug s.toTables slug := rfl
  rcases articleIdsBySlug_cases h.toConstraints slug with ⟨none, missing⟩ | ⟨a, member, rfl, one⟩
  · obtain ⟨response, failed, still⟩ := request.absent missing
    rw [rest, none, still ms, decide_eq_false failed]
    exact ⟨rfl, fun _ _ => rfl⟩
  · obtain ⟨u, user, author⟩ := h.fk_article_author a member
    have answers := @FavoriteRequest.answersWrite _ _ _ _ _ _ (ms 0) request h a member rfl u user author
    rw [rest, one]
    refine answers.acts (mark.favorite_undrawn _ _) (favorite_executes h member) (fun rows t done user => ?_) ms
    exact favorite_views one ((favorite_exec (h.text_articles a member)).mp done) user

end

/-! ### The order of two requests -/

/-- A request of the user to follow, unfollow, favorite or unfavorite, whatever its target. -/
inductive SocialRequest (svc : Service) (call : Call) (caller : Int) : Prop where
  | follow {mark : Mark} {username : String} (request : FollowRequest svc call mark username caller)
  | favorite {mark : Mark} {slug : String} (request : FavoriteRequest svc call mark slug caller)

/-- The same rows in every table, and the same sequences. A table has no order. -/
structure Schema.Store.SameRows (s t : Store) : Prop where
  users : s.users.Perm t.users
  articles : s.articles.Perm t.articles
  tags : s.tags.Perm t.tags
  articleTags : s.articleTags.Perm t.articleTags
  favorites : s.favorites.Perm t.favorites
  followers : s.followers.Perm t.followers
  comments : s.comments.Perm t.comments
  sequences : s.toSequences = t.toSequences

section
variable {svc : Service} {call : Call} {s t : Store} {caller : Int}

theorem SocialRequest.acts (request : SocialRequest svc call caller) :
    ∃ act, Local socialView act caller (Answers svc call) := by
  cases request with
  | follow request => exact ⟨_, request.acts⟩
  | favorite request => exact ⟨_, request.acts⟩

/-- Stores that no user's view tells apart hold the same rows. -/
theorem sameRows_of_views {loc : DbLocale} (hs : Valid loc s) (ht : Valid loc t)
    (same : ∀ user, socialView user s = socialView user t) : s.SameRows t := by
  have rest : (socialView 0 s).rest = (socialView 0 t).rest := congrArg SocialView.rest (same 0)
  have table {α : Type} (column : Store → List α) (kept : column (socialView 0 s).rest = column s)
      (kept' : column (socialView 0 t).rest = column t) : (column s).Perm (column t) :=
    .of_eq (kept.symm.trans ((congrArg column rest).trans kept'))
  constructor
  · exact table (·.users) rfl rfl
  · exact table (·.articles) rfl rfl
  · exact table (·.tags) rfl rfl
  · exact table (·.articleTags) rfl rfl
  · refine (List.perm_ext_iff_of_nodup hs.pk_favorites ht.pk_favorites).mpr fun f => ?_
    exact Set.ext_iff.mp (congrArg SocialView.favorites (same f.userId)) f.articleId
  · refine (List.perm_ext_iff_of_nodup hs.pk_followers ht.pk_followers).mpr fun r => ?_
    exact Set.ext_iff.mp (congrArg SocialView.followed (same r.follower)) r.followed
  · exact table (·.comments) rfl rfl
  · have sequences := congrArg Store.toSequences rest
    exact sequences

end

/-- Social requests of two users, answered one after the other, leave the same rows in either order, and each succeeds
in one order if it does in the other. -/
theorem social_commute {svc : Service} {s : Store} (reachable : Reachable svc s) {a b : Call} {u v : Int}
    (first : SocialRequest svc a u) (second : SocialRequest svc b v) (distinct : u ≠ v) (ms ms' ns ns' : Nat → Moment) :
    let ra := respond svc a ms s
    let rab := respond svc b ms' ra.2
    let rb := respond svc b ns s
    let rba := respond svc a ns' rb.2
    rab.2.SameRows rba.2 ∧ (ra.1.success ↔ rba.1.success) ∧ (rb.1.success ↔ rab.1.success) := by
  intro ra rab rb rba
  obtain ⟨act, acts⟩ := first.acts
  obtain ⟨act', acts'⟩ := second.acts
  have ab := reachable.respond a ms
  have ba := reachable.respond b ns
  obtain ⟨views, same, same'⟩ := acts.commute acts' distinct ⟨reachable, ms, rfl, rfl⟩ ⟨ab, ms', rfl, rfl⟩
    ⟨reachable, ns, rfl, rfl⟩ ⟨ba, ns', rfl, rfl⟩
  refine ⟨sameRows_of_views (ab.respond b ms').valid (ba.respond a ns').valid views, ?_, ?_⟩
  · exact decide_eq_decide.mp same
  · exact (decide_eq_decide.mp same').symm

/-- Both users favorite the one article. -/
def sampleOwnFavorite : Call := sampleCall .postArticlesSlugFavorite 1 [("slug", "hello-there")]

theorem sampleOwnFavorite_request : FavoriteRequest sample sampleOwnFavorite .add "hello-there" 1 :=
  ⟨rfl, rfl, sampleData 1, by decide, rfl⟩

theorem social_commute_sample :
    let ms : Nat → Moment := fun _ => sampleMoment
    let ra := respond sample sampleOwnFavorite ms samplePublished
    let rab := respond sample sampleFavorite ms ra.2
    let rb := respond sample sampleFavorite ms samplePublished
    let rba := respond sample sampleOwnFavorite ms rb.2
    rab.2.SameRows rba.2 ∧ (ra.1.success ↔ rba.1.success) ∧ (rb.1.success ↔ rab.1.success) :=
  social_commute samplePublished_reachable (.favorite sampleOwnFavorite_request) (.favorite sampleFavorite_request)
    (by decide) _ _ _ _

end RealWorld
