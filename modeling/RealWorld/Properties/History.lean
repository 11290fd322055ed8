import RealWorld.Handlers.Marks
import RealWorld.Properties.Failures
import RealWorld.Transactional.LastWins

/-!
# Followers and favorites as histories

A request names its target by a username or a slug, which later requests may change, while the row
it writes holds ids. After any run the two relations are what the latest successful requests about
each pair of ids made of them.
-/

namespace RealWorld
open Schema Transactional

/-- The step is a successful request to follow (or unfollow) by the follower of `r`, and the name it
gives resolved to the followed user. -/
structure Answered.Followed (svc : Service) (step : Answered) (r : Follower) (mark : Mark) : Prop where
  request : ∃ username, FollowRequest svc step.call mark username r.follower ∧
    ∃ user ∈ step.before.users, svc.loc.citextLower user.username = svc.loc.citextLower username ∧
      user.userId = r.followed
  success : step.response.success

/-- The step is a successful request to favorite (or unfavorite) by the user of `f`, and the slug it
gives resolved to the article. -/
structure Answered.Favorited (svc : Service) (step : Answered) (f : Favorite) (mark : Mark) : Prop where
  request : ∃ slug, FavoriteRequest svc step.call mark slug f.userId ∧
    ∃ a ∈ step.before.articles, a.slug = slug ∧ a.articleId = f.articleId
  success : step.response.success

/-! ### Requests that mark -/

section
variable {svc : Service} {call : Call} {mark : Mark} {slug username : String} {caller : Int} {s : Store}
  {ms : Nat → Moment}

theorem FollowRequest.succeeded (request : FollowRequest svc call mark username caller)
    (success : (respond svc call ms s).1.success) :
    ∃ user ∈ s.users, svc.loc.citextLower user.username = svc.loc.citextLower username ∧
      ∃ m rows, Effect svc.loc m s (mark.follow caller user.userId) rows (respond svc call ms s).2 := by
  have marked : OnSuccess svc s (serve svc call) fun s' =>
      ∃ user ∈ s.users, svc.loc.citextLower user.username = svc.loc.citextLower username ∧
        ∃ m rows, Effect svc.loc m s (mark.follow caller user.userId) rows s' := by
    obtain ⟨profile, same⟩ := request.serve_eq
    rw [same]
    refine .execute fun m rows s' answer => ?_
    obtain ⟨rfl, rfl⟩ := Sql.exec_reading rfl answer
    split
    · exact .failed nofun
    · refine .lift fun user single => ?_
      have found : user ∈ getUserByUsername svc.loc s'.toTables username := by
        rw [asSingleRow_ok.mp single]
        exact List.mem_singleton_self user
      obtain ⟨member, named⟩ := List.mem_filter.mp found
      refine .execute fun m rows s'' done => ?_
      have effect := Sql.exec_effect (mark.follow_writes caller user.userId) done
      exact .done ⟨user, member, of_decide_eq_true named, m, rows, effect⟩
  exact marked.respond success

theorem FavoriteRequest.succeeded (request : FavoriteRequest svc call mark slug caller)
    (success : (respond svc call ms s).1.success) :
    ∃ m rows, Effect svc.loc m s (mark.favorite slug caller) rows (respond svc call ms s).2 := by
  have marked : OnSuccess svc s (serve svc call) fun s' =>
      ∃ m rows, Effect svc.loc m s (mark.favorite slug caller) rows s' := by
    rw [request.serve_eq]
    refine .execute fun m rows s' answer => ?_
    obtain ⟨rfl, rfl⟩ := Sql.exec_reading rfl answer
    split
    · exact .failed nofun
    · refine .execute fun m rows s'' done => ?_
      have effect := Sql.exec_effect (mark.favorite_writes slug caller) done
      have shows : ReadsOnly (do
          let articleId ← lift (asSingleRow (getArticleIdBySlug s'.toTables slug))
          Handlers.showArticle svc articleId caller) :=
        .lift fun articleId => Handlers.showArticle_reads
      exact shows.ensures fun _ _ => ⟨m, rows, effect⟩
  exact marked.respond success

end

/-! ### One request -/

theorem Mark.followRoute_inj {a b : Mark} (same : a.followRoute = b.followRoute) : a = b := by
  cases a <;> cases b <;> first | rfl | cases same

theorem Mark.favoriteRoute_inj {a b : Mark} (same : a.favoriteRoute = b.favoriteRoute) : a = b := by
  cases a <;> cases b <;> first | rfl | cases same

section
variable {svc : Service} {s : Store}

theorem followers_evolve (h : Valid svc.loc s) (call : Call) (ms : Nat → Moment) :
    Evolves (Answered.Followed svc) .add (served svc s call ms) (· ∈ s.followers)
      (· ∈ (respond svc call ms s).2.followers) := by
  by_cases success : (respond svc call ms s).1.success
  · by_cases marking : ∃ mark : Mark, call.route = mark.followRoute
    · obtain ⟨mark, route⟩ := marking
      obtain ⟨data, token⟩ := success_caller (by rw [route]; cases mark <;> rfl) success
      have request : FollowRequest svc call mark (call.request.getPathArg "username") data.id :=
        ⟨route, rfl, data, token, rfl⟩
      obtain ⟨user, member, named, m, rows, effect⟩ := request.succeeded success
      have marks : ∀ r b, Answered.Followed svc (served svc s call ms) r b ↔
          b = mark ∧ r.follower = data.id ∧ r.followed = user.userId := by
        intro r b
        constructor
        · rintro ⟨⟨_, ⟨route', rfl, data', token', same⟩, user', member', named', id⟩, _⟩
          obtain rfl := Option.some.inj (token.symm.trans token')
          have one : user' = user :=
            Relational.key_inj h.uniq_username member' member (named'.trans named.symm)
          exact ⟨Mark.followRoute_inj (route'.symm.trans route), same.symm, one ▸ id.symm⟩
        · rintro ⟨rfl, follower, followed⟩
          exact ⟨⟨_, follower ▸ request, user, member, named, followed.symm⟩, success⟩
      intro r
      dsimp only
      rw [follow_stored effect r]
      simp only [marks]
      split
      · rename_i hit
        simp [hit, eq_comm]
      · rename_i unhit
        simp [unhit]
    · refine .of_unmarked (fun r b marked => ?_) fun r => ?_
      · obtain ⟨_, request, _⟩ := marked.request
        exact marking ⟨b, request.route⟩
      · rw [(respond_kept svc call ms s).followers (fun route => marking ⟨.add, route⟩)
          fun route => marking ⟨.remove, route⟩]
  · refine .of_unmarked (fun r b marked => success marked.success) fun r => ?_
    rw [failed_unchanged h success]

theorem favorites_evolve (h : Valid svc.loc s) (call : Call) (ms : Nat → Moment) :
    Evolves (Answered.Favorited svc) .add (served svc s call ms) (· ∈ s.favorites)
      (· ∈ (respond svc call ms s).2.favorites) := by
  by_cases success : (respond svc call ms s).1.success
  · by_cases marking : ∃ mark : Mark, call.route = mark.favoriteRoute
    · obtain ⟨mark, route⟩ := marking
      obtain ⟨data, token⟩ := success_caller (by rw [route]; cases mark <;> rfl) success
      have request : FavoriteRequest svc call mark (call.request.getPathArg "slug") data.id :=
        ⟨route, rfl, data, token, rfl⟩
      obtain ⟨m, rows, effect⟩ := request.succeeded success
      have marks : ∀ f b, Answered.Favorited svc (served svc s call ms) f b ↔
          b = mark ∧ f.userId = data.id ∧
            f.articleId ∈ articleIdsBySlug s.toTables (call.request.getPathArg "slug") := by
        intro f b
        rw [mem_articleIdsBySlug]
        constructor
        · rintro ⟨⟨_, ⟨route', rfl, data', token', same⟩, found⟩, _⟩
          obtain rfl := Option.some.inj (token.symm.trans token')
          exact ⟨Mark.favoriteRoute_inj (route'.symm.trans route), same.symm, found⟩
        · rintro ⟨rfl, user, found⟩
          exact ⟨⟨_, user ▸ request, found⟩, success⟩
      intro f
      dsimp only
      rw [favorite_stored effect f]
      simp only [marks]
      split
      · rename_i hit
        simp [hit, eq_comm]
      · rename_i unhit
        simp [unhit]
    · refine .of_unmarked (fun f b marked => ?_) fun f => ?_
      · obtain ⟨_, request, _⟩ := marked.request
        exact marking ⟨b, request.route⟩
      · rw [(respond_kept svc call ms s).favorites (fun route => marking ⟨.add, route⟩)
          fun route => marking ⟨.remove, route⟩]
  · refine .of_unmarked (fun f b marked => success marked.success) fun f => ?_
    rw [failed_unchanged h success]

end

/-- In every run, `followers` and `favorites` hold what the latest successful requests about each
pair made of them. -/
theorem relations_last_wins {svc : Service} {steps : List Answered} {s : Store}
    (run : Run svc steps s) :
    (∀ r, r ∈ s.followers ↔ Latest (Answered.Followed svc) steps r .add) ∧
      ∀ f, f ∈ s.favorites ↔ Latest (Answered.Favorited svc) steps f .add := by
  induction run with
  | empty =>
    exact ⟨fun r => iff_of_false List.not_mem_nil not_latest_nil,
      fun f => iff_of_false List.not_mem_nil not_latest_nil⟩
  | serve earlier call ms ih =>
    have h := earlier.valid
    exact ⟨(followers_evolve h call ms).latest ih.1, (favorites_evolve h call ms).latest ih.2⟩

theorem relations_last_wins_sample :
    let calls := [sampleRegister "anna", sampleRegister "bert", samplePublish 1 "Hello there",
      sampleCall .postProfiles 2 [("username", "anna")],
      sampleCall .postArticlesSlugFavorite 2 [("slug", "hello-there")],
      sampleCall .deleteArticlesSlugFavorite 2 [("slug", "hello-there")]]
    let s := sampleServe calls Store.empty
    (s.followers = [⟨2, 1⟩] ∧ s.favorites = []) ∧
      (∀ r, r ∈ s.followers ↔ Latest (Answered.Followed sample) (sampleSteps calls Store.empty) r .add) ∧
        ∀ f, f ∈ s.favorites ↔
          Latest (Answered.Favorited sample) (sampleSteps calls Store.empty) f .add := by
  intro calls s
  have stored : s.followers = [⟨2, 1⟩] ∧ s.favorites = [] := by decide +kernel
  have run : Run sample ([] ++ sampleSteps calls Store.empty) s := sampleSteps_run .empty
  exact ⟨stored, relations_last_wins run⟩

end RealWorld
