import RealWorld.Handlers.Writes
import RealWorld.Schema.Lookups

/-!
# Favorites and follows

Two pairs of requests add or remove one row of a relation: favorite and unfavorite a row of
`favorites`, follow and unfollow a row of `followers`.
-/

namespace RealWorld
open Schema Transactional

inductive Mark where
  | add
  | remove
  deriving DecidableEq

namespace Mark

def favoriteRoute : Mark → Route
  | .add => .postArticlesSlugFavorite
  | .remove => .deleteArticlesSlugFavorite

def favorite : Mark → (slug : String) → (userId : Int) → Sql
  | .add => .favoriteArticle
  | .remove => .unfavoriteArticle

def followRoute : Mark → Route
  | .add => .postProfiles
  | .remove => .deleteProfiles

def follow : Mark → (follower followed : Int) → Sql
  | .add => .follow
  | .remove => .unfollow

theorem favorite_writes (mark : Mark) (slug : String) (caller : Int) :
    (mark.favorite slug caller).writes := by
  cases mark <;> trivial

theorem follow_writes (mark : Mark) (caller followed : Int) : (mark.follow caller followed).writes := by
  cases mark <;> trivial

/-! No row of the two relations has a number. -/

theorem favorite_undrawn (mark : Mark) (slug : String) (caller : Int) : ¬ (mark.favorite slug caller).draws := by
  cases mark <;> exact id

theorem follow_undrawn (mark : Mark) (caller followed : Int) : ¬ (mark.follow caller followed).draws := by
  cases mark <;> exact id

end Mark

/-! ### The statements -/

section
variable {loc : DbLocale} {m : Moment} {mark : Mark} {slug : String} {caller : Int} {before after : Store}

/-- The write decides about the caller's row for the article with the slug and keeps the others. -/
theorem favorite_stored {rows : List (mark.favorite slug caller).Row}
    (done : Effect loc m before (mark.favorite slug caller) rows after) (f : Favorite) :
    f ∈ after.favorites ↔
      if f.userId = caller ∧ f.articleId ∈ articleIdsBySlug before.toTables slug then mark = .add
      else f ∈ before.favorites := by
  cases mark with
  | add =>
    have inserted : favoriteArticle slug caller before = .ok () after := by
      cases done with
      | favoriteArticle inserted => exact inserted
    obtain ⟨articleId, found, _, _, _, rfl⟩ := favoriteArticle_ok.mp inserted
    simp only [found, List.mem_append, List.mem_singleton]
    obtain ⟨userId, id⟩ := f
    split
    · rename_i hit
      obtain ⟨rfl, rfl⟩ := hit
      simp
    · rename_i unhit
      simp only [Favorite.mk.injEq, unhit, or_false]
  | remove =>
    have deleted : unfavoriteArticle slug caller before = .ok () after := by
      cases done with
      | unfavoriteArticle deleted => exact deleted
    obtain ⟨articleId, found, rfl⟩ := unfavoriteArticle_ok.mp deleted
    simp only [found, List.mem_filter, Bool.not_eq_true', decide_eq_false_iff_not, Option.mem_toList]
    split
    · rename_i hit
      exact iff_of_false (fun stored => stored.2 hit) nofun
    · rename_i unhit
      exact and_iff_left unhit

theorem favorite_fresh {rows : List (Sql.favoriteArticle slug caller).Row}
    (done : Effect loc m before (.favoriteArticle slug caller) rows after) {f : Favorite}
    (own : f.userId = caller) (here : f.articleId ∈ articleIdsBySlug before.toTables slug) :
    f ∉ before.favorites := by
  cases done with
  | favoriteArticle inserted =>
    obtain ⟨articleId, found, fresh, _⟩ := favoriteArticle_ok.mp inserted
    obtain ⟨userId, id⟩ := f
    obtain rfl : userId = caller := own
    obtain rfl : id = articleId := by simpa [found] using here
    exact (Relational.nodup_concat_iff.mp fresh).1

theorem follow_stored {followed : Int} {rows : List (mark.follow caller followed).Row}
    (done : Effect loc m before (mark.follow caller followed) rows after) (r : Follower) :
    r ∈ after.followers ↔
      if r.follower = caller ∧ r.followed = followed then mark = .add else r ∈ before.followers := by
  cases mark with
  | add =>
    have inserted : Schema.follow caller followed before = .ok () after := by
      cases done with
      | follow inserted => exact inserted
    obtain ⟨_, _, _, rfl⟩ := follow_ok.mp inserted
    rw [List.mem_append, List.mem_singleton]
    obtain ⟨follower, followed'⟩ := r
    split
    · rename_i hit
      obtain ⟨rfl, rfl⟩ := hit
      simp
    · rename_i unhit
      simp only [Follower.mk.injEq, unhit, or_false]
  | remove =>
    have deleted : Schema.unfollow caller followed before = .ok () after := by
      cases done with
      | unfollow deleted => exact deleted
    obtain rfl := unfollow_ok.mp deleted
    rw [List.mem_filter, decide_eq_true_eq]
    split
    · rename_i hit
      exact iff_of_false (fun stored => stored.2 hit) nofun
    · rename_i unhit
      exact and_iff_left unhit

end

/-! ### The requests -/

/-- A request to favorite or unfavorite the article with the given slug, with the token of a user. -/
structure FavoriteRequest (svc : Service) (call : Call) (mark : Mark) (slug : String) (caller : Int) :
    Prop where
  route : call.route = mark.favoriteRoute
  slug : call.request.getPathArg "slug" = slug
  caller : ∃ data, call.caller svc = some data ∧ data.id = caller

/-- A request to follow or unfollow the user with the given name, with the token of a user. -/
structure FollowRequest (svc : Service) (call : Call) (mark : Mark) (username : String) (caller : Int) :
    Prop where
  route : call.route = mark.followRoute
  username : call.request.getPathArg "username" = username
  caller : ∃ data, call.caller svc = some data ∧ data.id = caller

section
variable {svc : Service} {call : Call} {mark : Mark} {slug username : String} {caller : Int}

theorem FavoriteRequest.serve_eq (request : FavoriteRequest svc call mark slug caller) :
    serve svc call = (do
      let res ← execute (.getArticleIdBySlug slug)
      if res.isEmpty then Handlers.notFound
      else
        let _ ← execute (mark.favorite slug caller)
        let articleId ← lift (asSingleRow res)
        Handlers.showArticle svc articleId caller) := by
  obtain ⟨route, rfl, data, token, rfl⟩ := request
  rw [serve_caller token (by rw [route]; cases mark <;> rfl), handler, route]
  cases mark <;> rfl

theorem FollowRequest.serve_eq (request : FollowRequest svc call mark username caller) :
    ∃ profile : RealworldUser → Json, serve svc call = (do
      let res ← execute (.getUserByUsername username)
      if res.isEmpty then Handlers.notFound
      else
        let user ← lift (asSingleRow res)
        let _ ← execute (mark.follow caller user.userId)
        Handlers.ok (profile user)) := by
  obtain ⟨route, rfl, data, token, rfl⟩ := request
  rw [serve_caller token (by rw [route]; cases mark <;> rfl), handler, route]
  cases mark with
  | add =>
    refine ⟨fun user => .obj [("profile", serializeProfile
      { username := user.username, bio := user.bio, image := user.image, following := true })], rfl⟩
  | remove =>
    refine ⟨fun user => .obj [("profile", serializeProfile
      { username := user.username, bio := user.bio, image := user.image, following := false })], rfl⟩

end

end RealWorld
