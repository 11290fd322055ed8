import RealWorld.Handlers.Marks
import RealWorld.Handlers.Rereads
import RealWorld.Runs

/-!
# Favorites among other requests

The favorite and the unfavorite handler resolve the slug to the article they will show, then the
write resolves it once more. Other requests may rename, delete and create articles in between.
-/

namespace RealWorld
open Schema Transactional

/-! ### What the write changes -/

section
variable {loc : DbLocale} {m : Moment} {mark : Mark} {slug : String} {caller : Int} {before after : Store}
  {rows : List (mark.favorite slug caller).Row}

/-- The rows of `favorites` in which two stores differ. -/
def Changed (before after : Store) (f : Favorite) : Prop :=
  ¬ (f ∈ before.favorites ↔ f ∈ after.favorites)

theorem favorite_changed (done : Effect loc m before (mark.favorite slug caller) rows after)
    (f : Favorite) : Changed before after f ↔
      f.userId = caller ∧ f.articleId ∈ articleIdsBySlug before.toTables slug ∧
        (mark = .remove → f ∈ before.favorites) := by
  have stored := favorite_stored done f
  unfold Changed
  split at stored
  · rename_i hit
    rw [stored]
    cases mark with
    | add =>
      have fresh := favorite_fresh done hit.1 hit.2
      simp [fresh, hit]
    | remove => simp [hit]
  · rename_i unhit
    rw [stored]
    exact iff_of_false (fun differs => differs .rfl) fun changed => unhit ⟨changed.1, changed.2.1⟩

/-- The write touched at most the caller's row for the article the response shows. -/
def Reported (before after : Store) (caller shown : Int) : Prop :=
  ∀ f, Changed before after f → f = { userId := caller, articleId := shown }

/-- When the write executes, the article with the slug had it already when the slug was resolved,
or there is no row of it to remove. -/
def Unmoved (mark : Mark) (slug : String) (caller : Int) (resolved before : Store) : Prop :=
  ∀ a ∈ before.articles, a.slug = slug →
    (∃ b ∈ resolved.articles, b.slug = slug ∧ b.articleId = a.articleId) ∨
      (mark = .remove ∧ { userId := caller, articleId := a.articleId } ∉ before.favorites)

theorem reported_iff (done : Effect loc m before (mark.favorite slug caller) rows after)
    {resolved : Store} {shown : Int} (found : articleIdsBySlug resolved.toTables slug = [shown]) :
    Reported before after caller shown ↔ Unmoved mark slug caller resolved before := by
  have named : ∀ id, (∃ b ∈ resolved.articles, b.slug = slug ∧ b.articleId = id) ↔ id = shown := by
    intro id
    rw [← mem_articleIdsBySlug (t := resolved.toTables), found, List.mem_singleton]
  constructor
  · intro reported a member same
    rw [named]
    by_contra moved
    obtain ⟨other, marked⟩ := not_or.mp moved
    have here : a.articleId ∈ articleIdsBySlug before.toTables slug :=
      mem_articleIdsBySlug.mpr ⟨a, member, same, rfl⟩
    have changed := (favorite_changed done { userId := caller, articleId := a.articleId }).mpr
      ⟨rfl, here, fun removing => by_contra fun absent => marked ⟨removing, absent⟩⟩
    exact other (congrArg Favorite.articleId (reported _ changed))
  · intro unmoved f changed
    obtain ⟨own, here, stored⟩ := (favorite_changed done f).mp changed
    obtain ⟨a, member, same, id⟩ := mem_articleIdsBySlug.mp here
    obtain ⟨userId, articleId⟩ := f
    obtain rfl : userId = caller := own
    obtain rfl : a.articleId = articleId := id
    rcases unmoved a member same with known | ⟨removing, absent⟩
    · rw [(named _).mp known]
    · exact absurd (stored removing) absent

end

/-! ### The request -/

/-- How client `i` answered a request to mark an article: in `resolved` the slug belonged to the
article `shown`, the write turned `before` into `after`, and the response shows `shown`. -/
def Marked (svc : Service) (mark : Mark) (slug : String) (caller : Int) (i : Nat)
    (es : List (Event Sql Sql.Res Store)) (response : Response) (resolved before after : Store)
    (shown : Int) : Prop :=
  ∃ rows read row model,
    es.filter (fun e => e.client = i) =
      [⟨i, .getArticleIdBySlug slug, resolved, .ok [shown], resolved⟩,
       ⟨i, mark.favorite slug caller, before, .ok rows, after⟩,
       ⟨i, .getArticleWithAuthorProfile shown (some caller), read, .ok [row], read⟩] ∧
    row.articleId = shown ∧ ArticleModel.read row = .ok model ∧ response = ⟨200, articleBody svc model⟩

section
variable {svc : Service} {call : Call} {mark : Mark} {slug : String} {caller : Int}
  {c c' : Configuration} {es : List (Event Sql Sql.Res Store)} {i : Nat} {response : Response}

theorem showArticle_answered {articleId userId : Int}
    (h : Follows (Sql.exec svc.loc) i (Handlers.showArticle svc articleId userId) es (.pure response)) :
    ∃ read row model,
      es = [⟨i, .getArticleWithAuthorProfile articleId (some userId), read, .ok [row], read⟩] ∧
        row.articleId = articleId ∧ ArticleModel.read row = .ok model ∧
          response = ⟨200, articleBody svc model⟩ := by
  rcases follows_execute h with ⟨_, ended⟩ | ⟨_, _, res, read, _, answer, rfl, follows⟩ |
    ⟨_, _, _, _, _, _, ended⟩
  · cases ended
  · obtain ⟨rfl, rfl⟩ := Sql.exec_reading rfl answer
    rcases follows_lift follows with ⟨row, single, follows⟩ | ⟨_, _, _, ended⟩
    · rcases follows_lift follows with ⟨model, same, follows⟩ | ⟨_, _, _, ended⟩
      · obtain ⟨rfl, answered⟩ := Follows.of_pure follows
        have one := asSingleRow_ok.mp single
        have id : row.articleId = articleId :=
          getArticleWithAuthorProfile_id (one ▸ List.mem_singleton_self row)
        cases answered
        exact ⟨read, row, model, by rw [one], id, same, rfl⟩
      · cases ended
    · cases ended
  · cases ended

theorem FavoriteRequest.marked (request : FavoriteRequest svc call mark slug caller)
    (trace : Interleaving svc c es c') (arrived : c.active[i]? = some (serve svc call))
    (answered : c'.active[i]? = some (.pure response)) (success : response.success) :
    ∃ resolved before after shown, Marked svc mark slug caller i es response resolved before after shown ∧
      articleIdsBySlug resolved.toTables slug = [shown] ∧
      ∃ m rows, Effect svc.loc m before (mark.favorite slug caller) rows after := by
  obtain ⟨p', there, follows⟩ := trace.follows arrived
  obtain rfl : .pure response = p' := Option.some.inj (answered.symm.trans there)
  rw [request.serve_eq] at follows
  rcases follows_execute follows with ⟨_, ended⟩ | ⟨_, _, ids, resolved, _, resolve, first, follows⟩ |
    ⟨_, _, _, _, _, _, ended⟩
  · cases ended
  · obtain ⟨rfl, rfl⟩ := Sql.exec_reading rfl resolve
    split at follows
    · obtain ⟨_, ended⟩ := Follows.of_pure follows
      cases ended
      cases success
    · rcases follows_execute follows with ⟨_, ended⟩ | ⟨m, before, rows, after, _, written, second, follows⟩ |
        ⟨_, _, _, _, _, _, ended⟩
      · cases ended
      · rcases follows_lift follows with ⟨shown, single, follows⟩ | ⟨_, _, _, ended⟩
        · obtain ⟨read, row, model, rfl, id, same, body⟩ := showArticle_answered follows
          have one : articleIdsBySlug resolved.toTables slug = [shown] := asSingleRow_ok.mp single
          refine ⟨resolved, before, after, shown, ⟨rows, read, row, model, ?_, id, same, body⟩, one, m,
            rows, Sql.exec_effect (mark.favorite_writes slug caller) written⟩
          rw [first, second, asSingleRow_ok.mp single]
        · cases ended
      · cases ended
  · cases ended

/-- In every interleaving, a favorite or unfavorite request that answers with success wrote the row
of the article it shows, unless the slug had moved to another article before the write. -/
theorem mark_reports_iff (trace : Interleaving svc c es c')
    (arrived : c.active[i]? = some (serve svc call)) (request : FavoriteRequest svc call mark slug caller)
    (answered : c'.active[i]? = some (.pure response)) (success : response.success) :
    ∃ resolved before after shown,
      Marked svc mark slug caller i es response resolved before after shown ∧
        (Reported before after caller shown ↔ Unmoved mark slug caller resolved before) := by
  obtain ⟨resolved, before, after, shown, marked, found, _, _, done⟩ :=
    request.marked trace arrived answered success
  exact ⟨resolved, before, after, shown, marked, reported_iff done found⟩

end

def sampleFavorite : Call := sampleCall .postArticlesSlugFavorite 2 [("slug", "hello-there")]

theorem sampleFavorite_request : FavoriteRequest sample sampleFavorite .add "hello-there" 2 :=
  ⟨rfl, rfl, sampleData 2, by decide, rfl⟩

/-- Bert's request runs to its end, and after its first statement the author renames the article
and publishes another one under the old title. -/
def sampleRace : List (Move Call Moment) :=
  [sampleStep 3,
    .arrive (sampleCall .putArticlesSlug 1 [("slug", "hello-there")]
      (.obj [("article", .obj [("title", .str "Good bye")])])), sampleStep 4, sampleStep 4,
    .arrive (samplePublish 1 "Hello there"), sampleStep 5, sampleStep 5, sampleStep 3, sampleStep 3]

def sampleAlone : List (Move Call Moment) := [sampleStep 3, sampleStep 3, sampleStep 3]

theorem sampleFavorite_answered (moves : List (Move Call Moment))
    (answered : ((sampleSchedule moves (sampleArrived sampleFavorite)).2.outcome 3).any
      (fun result => match result with
        | .ok response => decide response.success
        | .error _ => false) = true) :
    ∃ response, (sampleSchedule moves (sampleArrived sampleFavorite)).2.active[3]? =
      some (.pure response) ∧ response.success := by
  obtain ⟨result, found, success⟩ := (Option.any_eq_true _ _).mp answered
  cases result with
  | ok response => exact ⟨response, Config.outcome_ok.mp found, of_decide_eq_true success⟩
  | error e => cases success

theorem mark_reports_sample :
    ∃ response resolved before after shown,
      Marked sample .add "hello-there" 2 3
        (sampleSchedule sampleAlone (sampleArrived sampleFavorite)).1 response resolved before after
        shown ∧ (Reported before after 2 shown ↔ Unmoved .add "hello-there" 2 resolved before) := by
  obtain ⟨response, answered, success⟩ := sampleFavorite_answered sampleAlone (by decide +kernel)
  exact ⟨response, mark_reports_iff (sampleSchedule_trace _ _) (sampleArrived_active _)
    sampleFavorite_request answered success⟩

/-- Bert is shown article 1 and has favorited article 2. -/
theorem favorite_misreported :
    ∃ es c' response resolved before after shown,
      ReachableConfig sample (sampleArrived sampleFavorite) ∧
      Interleaving sample (sampleArrived sampleFavorite) es c' ∧
      (sampleArrived sampleFavorite).active[3]? = some (serve sample sampleFavorite) ∧
      FavoriteRequest sample sampleFavorite .add "hello-there" 2 ∧
      c'.active[3]? = some (.pure response) ∧ response.success ∧
      Marked sample .add "hello-there" 2 3 es response resolved before after shown ∧
      ¬ Reported before after 2 shown := by
  obtain ⟨response, answered, success⟩ := sampleFavorite_answered sampleRace (by decide +kernel)
  obtain ⟨resolved, before, after, shown, marked, found, _⟩ := sampleFavorite_request.marked
    (sampleSchedule_trace _ _) (sampleArrived_active _) answered success
  refine ⟨_, _, response, resolved, before, after, shown, sampleArrived_reachable _,
    sampleSchedule_trace _ _, sampleArrived_active _, sampleFavorite_request, answered, success, marked, ?_⟩
  have observed : (((sampleSchedule sampleRace (sampleArrived sampleFavorite)).1.filter
      fun e => e.client = 3).map fun e =>
        (articleIdsBySlug e.before.toTables "hello-there", e.before.favorites, e.after.favorites)) =
      [([1], [], []), ([2], [], [⟨2, 2⟩]), ([2], [⟨2, 2⟩], [⟨2, 2⟩])] := by decide +kernel
  obtain ⟨rows, read, row, model, statements, _⟩ := marked
  rw [statements] at observed
  simp only [List.map_cons, List.cons.injEq, Prod.mk.injEq, found] at observed
  obtain ⟨⟨⟨rfl, _⟩, _⟩, ⟨_, none, one⟩, _⟩ := observed
  intro reported
  have changed : Changed before after ⟨2, 2⟩ := by
    rw [Changed, none, one]
    decide
  exact absurd (reported _ changed) (by decide)

end RealWorld
