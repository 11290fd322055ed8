import RealWorld.Handlers.Marks
import RealWorld.Handlers.Replies
import RealWorld.Properties.Deletion
import RealWorld.Properties.Marking
import RealWorld.Schema.UserKeys

/-!
# Requests that are sent twice

Four requests add or remove one row of a relation. Removing a row that is gone already is a success like
the first time; adding one that is there already violates a primary key, which no handler catches.
-/

namespace RealWorld
open Schema Relational Transactional

/-- Sent twice in a row, the request has the same answer and leaves the same store as sent once. -/
def Repeats (svc : Service) (call : Call) (ms ms' : Nat → Moment) (s : Store) : Prop :=
  respond svc call ms' (respond svc call ms s).2 = respond svc call ms s

/-- From `s` the answer is that of the write `q`, at whatever moment it executes. -/
structure AnswersWrite (svc : Service) (call : Call) (q : Sql) (m : Moment) (answer : Store → Response) (s : Store) :
    Prop where
  refused : ∀ ms e t, q.exec svc.loc m s = (.error e, t) → respond svc call ms s = (⟨500, .null⟩, t)
  stored : ∀ ms rows t, q.exec svc.loc m s = (.ok rows, t) → respond svc call ms s = (answer t, t)
  success : ∀ t, (answer t).status = 200

section
variable {svc : Service} {call : Call} {s : Store} {q : Sql} {m : Moment} {answer : Store → Response}

theorem repeats_still {response : Response} (still : ∀ ms, respond svc call ms s = (response, s)) (ms ms' : Nat → Moment) :
    Repeats svc call ms ms' s := by
  rw [Repeats, still ms, still ms']

theorem repeats_iff_write (undrawn : ¬ q.draws) (here : AnswersWrite svc call q m answer s)
    (there : ∀ rows t, q.exec svc.loc m s = (.ok rows, t) → AnswersWrite svc call q m answer t) (ms ms' : Nat → Moment) :
    Repeats svc call ms ms' s ↔
      ∀ rows t, q.exec svc.loc m s = (.ok rows, t) → ∃ rows', q.exec svc.loc m t = (.ok rows', t) := by
  unfold Repeats
  obtain ⟨r, t, first⟩ : ∃ r t, q.exec svc.loc m s = (r, t) := ⟨_, _, rfl⟩
  cases r with
  | error e =>
    obtain rfl := Sql.exec_refused undrawn first
    rw [here.refused ms e _ first, here.refused ms' e _ first]
    exact iff_of_true rfl fun rows t done => nomatch first.symm.trans done
  | ok rows =>
    have again := there rows t first
    obtain ⟨r', t', second⟩ : ∃ r t', q.exec svc.loc m t = (r, t') := ⟨_, _, rfl⟩
    rw [here.stored ms rows t first]
    cases r' with
    | error e =>
      rw [again.refused ms' e t' second]
      refine iff_of_false (fun same => ?_) fun repeated => ?_
      · have status : 500 = (answer t).status := congrArg (fun outcome => outcome.1.status) same
        rw [again.success t] at status
        cases status
      · obtain ⟨_, done⟩ := repeated rows t first
        exact nomatch second.symm.trans done
    | ok rows' =>
      rw [again.stored ms' rows' t' second]
      constructor
      · intro same rows₁ t₁ other
        cases first.symm.trans other
        have stays : t' = t := congrArg Prod.snd same
        exact ⟨rows', stays ▸ second⟩
      · intro repeated
        obtain ⟨_, done⟩ := repeated rows t first
        cases second.symm.trans done
        rfl

end

/-! ### Favorites -/

section
variable {svc : Service} {call : Call} {s : Store} {mark : Mark} {slug : String} {caller : Int} {m : Moment}

theorem favorite_exec (text : storable slug) {rows : List (mark.favorite slug caller).Row} {t : Store} :
    (mark.favorite slug caller).exec svc.loc m s = (.ok rows, t) ↔ Effect svc.loc m s (mark.favorite slug caller) rows t := by
  constructor
  · exact Sql.exec_effect (mark.favorite_writes slug caller)
  · intro effect
    have texts : (mark.favorite slug caller).texts.all storable := by cases mark <;> simpa [Mark.favorite, Sql.texts] using text
    rw [Sql.exec_storable texts]
    cases mark with
    | add => cases effect with
      | favoriteArticle done => exact singleton_ok.mpr ⟨(), rfl, done⟩
    | remove => cases effect with
      | unfavoriteArticle done => exact singleton_ok.mpr ⟨(), rfl, done⟩

theorem favorite_kept (h : Valid svc.loc s) {rows : List (mark.favorite slug caller).Row} {t : Store}
    (done : (mark.favorite slug caller).exec svc.loc m s = (.ok rows, t)) :
    Valid svc.loc t ∧ t.articles = s.articles ∧ t.users = s.users := by
  have effect := Sql.exec_effect (mark.favorite_writes slug caller) done
  have valid := h.exec (m := m) (mark.favorite slug caller)
  rw [done] at valid
  exact ⟨valid, (effect.articles_kept (by cases mark <;> exact id)).1, effect.users_kept (by cases mark <;> exact id)⟩

theorem FavoriteRequest.answersWrite (request : FavoriteRequest svc call mark slug caller) (h : Valid svc.loc s)
    {a : Article} (member : a ∈ s.articles) (same : a.slug = slug) {u : User} (user : u ∈ s.users)
    (author : u.userId = a.authorId) : AnswersWrite svc call (mark.favorite slug caller) m
      (fun t => ⟨200, articleBody svc (a.model svc.loc t.toTables (some caller) u)⟩) s := by
  have text : storable slug := same ▸ h.text_articles a member
  have one : articleIdsBySlug s.toTables slug = [a.articleId] := same ▸ articleIdsBySlug_of h.toConstraints member
  have steady : ∀ m', (mark.favorite slug caller).exec svc.loc m' s = (mark.favorite slug caller).exec svc.loc m s := by
    intro m'
    cases mark <;> rfl
  refine ⟨fun ms e t failed => ?_, fun ms rows t done => ?_, fun _ => rfl⟩
  · unfold respond
    rw [request.serve_eq, run_execute_ok (getArticleIdBySlug_exec text), one]
    exact answer_error ((steady _).trans failed)
  · obtain ⟨valid, articles, users⟩ := favorite_kept h done
    obtain ⟨v, known, wrote, shown⟩ := run_showArticle valid (articles ▸ member) caller fun n => ms (n + 2)
    obtain rfl : v = u := user_eq h.toConstraints (users ▸ known) user (wrote.trans author.symm)
    unfold respond
    rw [request.serve_eq, run_execute_ok (getArticleIdBySlug_exec text), one]
    refine (answer_ok ((steady _).trans done)).trans ?_
    exact congrArg (fun outcome => (Response.ofExcept outcome.1, outcome.2)) shown

/-- A favorite is added by a user who does not have it; it can always be removed. -/
theorem favorite_executes (h : Valid svc.loc s) {a : Article} (member : a ∈ s.articles) :
    (∃ rows t, (mark.favorite a.slug caller).exec svc.loc m s = (.ok rows, t)) ↔
      (mark = .add → s.hasUser caller ∧ ({ userId := caller, articleId := a.articleId } : Favorite) ∉ s.favorites) := by
  have text := h.text_articles a member
  have one := articleIdsBySlug_of h.toConstraints member
  cases mark with
  | add =>
    constructor
    · rintro ⟨rows, t, done⟩ _
      cases (@favorite_exec _ _ .add _ _ _ text _ _).mp done with
      | favoriteArticle inserted =>
        obtain ⟨_, found, distinct, user, _, _⟩ := favoriteArticle_ok.mp inserted
        cases one.symm.trans found
        exact ⟨user, (nodup_concat_iff.mp distinct).1⟩
    · intro allowed
      obtain ⟨user, fresh⟩ := allowed rfl
      have distinct := nodup_concat_iff.mpr ⟨fresh, h.pk_favorites⟩
      have inserted : favoriteArticle a.slug caller s =
          .ok () { s with favorites := s.favorites ++ [{ userId := caller, articleId := a.articleId }] } :=
        favoriteArticle_ok.mpr ⟨a.articleId, one, distinct, user, ⟨a, member, rfl⟩, rfl⟩
      exact ⟨[()], _, (@favorite_exec _ _ .add _ _ _ text _ _).mpr (.favoriteArticle inserted)⟩
  | remove =>
    refine iff_of_true ?_ nofun
    obtain ⟨t, deleted⟩ : ∃ t, unfavoriteArticle a.slug caller s = .ok () t :=
      ⟨_, unfavoriteArticle_ok.mpr ⟨some a.articleId, one, rfl⟩⟩
    exact ⟨[()], t, (@favorite_exec _ _ .remove _ _ _ text _ _).mpr (.unfavoriteArticle deleted)⟩

theorem favorite_repeats (h : Valid svc.loc s) {a : Article} (member : a ∈ s.articles) :
    (∀ rows t, (mark.favorite a.slug caller).exec svc.loc m s = (.ok rows, t) →
      ∃ rows', (mark.favorite a.slug caller).exec svc.loc m t = (.ok rows', t)) ↔
    ¬ (mark = .add ∧ s.hasUser caller ∧ ({ userId := caller, articleId := a.articleId } : Favorite) ∉ s.favorites) := by
  constructor
  · rintro repeated ⟨rfl, added⟩
    obtain ⟨rows, t, done⟩ := (@favorite_executes _ _ .add _ m h a member).mpr fun _ => added
    obtain ⟨rows', again⟩ := repeated rows t done
    obtain ⟨valid, articles, _⟩ := favorite_kept h done
    obtain ⟨_, absent⟩ := (@favorite_executes _ _ .add _ m valid a (articles ▸ member)).mp ⟨rows', t, again⟩ rfl
    refine absent ((favorite_stored (Sql.exec_effect (by trivial) done) _).mpr ?_)
    rw [if_pos ⟨rfl, mem_articleIdsBySlug.mpr ⟨a, member, rfl, rfl⟩⟩]
  · intro old rows t done
    cases mark with
    | add =>
      have added := (@favorite_executes _ _ .add _ m h a member).mp ⟨rows, t, done⟩ rfl
      exact absurd ⟨rfl, added⟩ old
    | remove =>
      have text := h.text_articles a member
      cases (@favorite_exec _ _ .remove _ _ _ text _ _).mp done with
      | unfavoriteArticle deleted =>
        obtain ⟨id, found, rfl⟩ := unfavoriteArticle_ok.mp deleted
        refine ⟨[()], (@favorite_exec _ _ .remove _ _ _ text _ _).mpr (.unfavoriteArticle ?_)⟩
        refine unfavoriteArticle_ok.mpr ⟨id, found, ?_⟩
        simp only [List.filter_filter, Bool.and_self]

theorem FavoriteRequest.absent (request : FavoriteRequest svc call mark slug caller)
    (missing : ∀ a ∈ s.articles, a.slug ≠ slug) :
    ∃ response, ¬ response.success ∧ ∀ ms, respond svc call ms s = (response, s) := by
  unfold respond
  rw [request.serve_eq]
  by_cases text : storable slug
  · refine ⟨⟨404, .null⟩, by decide, fun ms => ?_⟩
    rw [run_execute_ok (getArticleIdBySlug_exec text), articleIdsBySlug, filter_key_nil missing]
    rfl
  · refine ⟨⟨500, .null⟩, by decide, fun ms => ?_⟩
    rw [run_execute_error (Sql.exec_unstorable (by simpa [Sql.texts] using text))]
    rfl

/-- A favorite or unfavorite request can be sent twice unless it makes the article a favorite. -/
theorem favorite_repeats_iff (h : Valid svc.loc s) (request : FavoriteRequest svc call mark slug caller)
    (ms ms' : Nat → Moment) : Repeats svc call ms ms' s ↔
      ¬ (mark = .add ∧ s.hasUser caller ∧ ∃ a ∈ s.articles, a.slug = slug ∧
        ({ userId := caller, articleId := a.articleId } : Favorite) ∉ s.favorites) := by
  rcases articleIdsBySlug_cases h.toConstraints slug with ⟨_, missing⟩ | ⟨a, member, rfl, _⟩
  · obtain ⟨response, _, still⟩ := request.absent missing
    refine iff_of_true (repeats_still still ms ms') ?_
    rintro ⟨_, _, a, member, same, _⟩
    exact missing a member same
  · obtain ⟨u, user, author⟩ := h.fk_article_author a member
    have again : ∀ rows t, (mark.favorite a.slug caller).exec svc.loc (ms 0) s = (.ok rows, t) →
        AnswersWrite svc call (mark.favorite a.slug caller) (ms 0)
          (fun t => ⟨200, articleBody svc (a.model svc.loc t.toTables (some caller) u)⟩) t := by
      intro rows t done
      obtain ⟨valid, articles, users⟩ := favorite_kept h done
      exact request.answersWrite valid (articles ▸ member) rfl (users ▸ user) author
    rw [repeats_iff_write (mark.favorite_undrawn _ _) (request.answersWrite h member rfl user author) again,
      favorite_repeats h member]
    refine not_congr (and_congr_right fun _ => and_congr_right fun _ => ?_)
    constructor
    · exact fun fresh => ⟨a, member, rfl, fresh⟩
    · rintro ⟨b, mem, same, fresh⟩
      rwa [key_inj h.uniq_slug mem member same] at fresh

end

/-! ### Follows -/

section
variable {svc : Service} {call : Call} {s : Store} {mark : Mark} {username : String} {caller followed : Int} {m : Moment}

theorem follow_exec {rows : List (mark.follow caller followed).Row} {t : Store} :
    (mark.follow caller followed).exec svc.loc m s = (.ok rows, t) ↔
      Effect svc.loc m s (mark.follow caller followed) rows t := by
  constructor
  · exact Sql.exec_effect (mark.follow_writes caller followed)
  · intro effect
    have texts : (mark.follow caller followed).texts.all storable := by cases mark <;> rfl
    rw [Sql.exec_storable texts]
    cases mark with
    | add => cases effect with
      | follow done => exact singleton_ok.mpr ⟨(), rfl, done⟩
    | remove => cases effect with
      | unfollow done => exact (@singleton_ok _ _ _ (Schema.unfollow caller followed) _).mpr ⟨(), rfl, done⟩

theorem follow_kept (h : Valid svc.loc s) {rows : List (mark.follow caller followed).Row} {t : Store}
    (done : (mark.follow caller followed).exec svc.loc m s = (.ok rows, t)) :
    Valid svc.loc t ∧ t.users = s.users := by
  have effect := Sql.exec_effect (mark.follow_writes caller followed) done
  have valid := h.exec (m := m) (mark.follow caller followed)
  rw [done] at valid
  exact ⟨valid, effect.users_kept (by cases mark <;> exact id)⟩

theorem getUserByUsername_exec {x : User} (h : Valid svc.loc s) (text : storable username) (member : x ∈ s.users)
    (same : svc.loc.citextLower x.username = svc.loc.citextLower username) :
    (Sql.getUserByUsername username).exec svc.loc m s = (.ok [x], s) := by
  have found : getUserByUsername svc.loc s.toTables username = [x] := by
    rw [getUserByUsername, ← same]
    exact filter_key h.uniq_username member
  rw [Sql.exec_storable (by simpa [Sql.texts] using text), ← found]
  rfl

/-- The profile of the answer is built from the row that was read. -/
theorem FollowRequest.answersWrite (request : FollowRequest svc call mark username caller) {x : User}
    (text : storable username) : ∃ response, ∀ t, Valid svc.loc t → x ∈ t.users →
      svc.loc.citextLower x.username = svc.loc.citextLower username →
      AnswersWrite svc call (mark.follow caller x.userId) m (fun _ => response) t := by
  obtain ⟨profile, served⟩ := request.serve_eq
  have steady : ∀ m' t, (mark.follow caller x.userId).exec svc.loc m' t = (mark.follow caller x.userId).exec svc.loc m t := by
    intro m' t
    cases mark <;> rfl
  refine ⟨⟨200, profile x⟩, fun s h member same => ⟨fun ms e t failed => ?_, fun ms rows t done => ?_, fun _ => rfl⟩⟩
  · unfold respond
    rw [served, run_execute_ok (getUserByUsername_exec h text member same)]
    exact answer_error ((steady _ s).trans failed)
  · unfold respond
    rw [served, run_execute_ok (getUserByUsername_exec h text member same)]
    exact answer_ok ((steady _ s).trans done)

theorem follow_executes (h : Valid svc.loc s) {x : User} (member : x ∈ s.users) :
    (∃ rows t, (mark.follow caller x.userId).exec svc.loc m s = (.ok rows, t)) ↔
      (mark = .add → s.hasUser caller ∧ ({ follower := caller, followed := x.userId } : Follower) ∉ s.followers) := by
  cases mark with
  | add =>
    constructor
    · rintro ⟨rows, t, done⟩ _
      cases (@follow_exec _ _ .add _ _ _ _ _).mp done with
      | follow inserted =>
        obtain ⟨distinct, user, _, _⟩ := follow_ok.mp inserted
        exact ⟨user, (nodup_concat_iff.mp distinct).1⟩
    · intro allowed
      obtain ⟨user, fresh⟩ := allowed rfl
      refine ⟨_, _, (@follow_exec _ _ .add _ _ _ [()] _).mpr (.follow (follow_ok.mpr ⟨?_, user, ⟨x, member, rfl⟩, rfl⟩))⟩
      exact nodup_concat_iff.mpr ⟨fresh, h.pk_followers⟩
  | remove =>
    refine iff_of_true ?_ nofun
    exact ⟨_, _, (@follow_exec _ _ .remove _ _ _ [()] _).mpr (.unfollow (unfollow_ok.mpr rfl))⟩

theorem follow_repeats (h : Valid svc.loc s) {x : User} (member : x ∈ s.users) :
    (∀ rows t, (mark.follow caller x.userId).exec svc.loc m s = (.ok rows, t) →
      ∃ rows', (mark.follow caller x.userId).exec svc.loc m t = (.ok rows', t)) ↔
    ¬ (mark = .add ∧ s.hasUser caller ∧ ({ follower := caller, followed := x.userId } : Follower) ∉ s.followers) := by
  constructor
  · rintro repeated ⟨rfl, added⟩
    obtain ⟨rows, t, done⟩ := (@follow_executes _ _ .add _ m h x member).mpr fun _ => added
    obtain ⟨rows', again⟩ := repeated rows t done
    obtain ⟨valid, users⟩ := follow_kept h done
    obtain ⟨_, absent⟩ := (@follow_executes _ _ .add _ m valid x (users ▸ member)).mp ⟨rows', t, again⟩ rfl
    refine absent ((follow_stored (Sql.exec_effect (by trivial) done) _).mpr ?_)
    rw [if_pos ⟨rfl, rfl⟩]
  · intro old rows t done
    cases mark with
    | add =>
      have added := (@follow_executes _ _ .add _ m h x member).mp ⟨rows, t, done⟩ rfl
      exact absurd ⟨rfl, added⟩ old
    | remove =>
      cases (@follow_exec _ _ .remove _ _ _ _ _).mp done with
      | unfollow deleted =>
        obtain rfl := unfollow_ok.mp deleted
        refine ⟨[()], (@follow_exec _ _ .remove _ _ _ _ _).mpr (.unfollow (unfollow_ok.mpr ?_))⟩
        simp only [List.filter_filter, Bool.and_self]

theorem FollowRequest.absent (request : FollowRequest svc call mark username caller)
    (missing : storable username → ∀ x ∈ s.users, svc.loc.citextLower x.username ≠ svc.loc.citextLower username) :
    ∃ response, ¬ response.success ∧ ∀ ms, respond svc call ms s = (response, s) := by
  obtain ⟨profile, served⟩ := request.serve_eq
  unfold respond
  rw [served]
  by_cases text : storable username
  · have none : ∀ m, (Sql.getUserByUsername username).exec svc.loc m s = (.ok [], s) := by
      intro m
      rw [Sql.exec_storable (by simpa [Sql.texts] using text), ← @filter_key_nil _ _ _ _ _ _ (missing text)]
      rfl
    refine ⟨⟨404, .null⟩, by decide, fun ms => ?_⟩
    rw [run_execute_ok (none _)]
    rfl
  · refine ⟨⟨500, .null⟩, by decide, fun ms => ?_⟩
    rw [run_execute_error (Sql.exec_unstorable (by simpa [Sql.texts] using text))]
    rfl

/-- A follow or unfollow request can be sent twice unless it makes the caller a follower. -/
theorem follow_repeats_iff (h : Valid svc.loc s) (request : FollowRequest svc call mark username caller)
    (ms ms' : Nat → Moment) : Repeats svc call ms ms' s ↔
      ¬ (mark = .add ∧ s.hasUser caller ∧ storable username ∧ ∃ x ∈ s.users,
        svc.loc.citextLower x.username = svc.loc.citextLower username ∧
        ({ follower := caller, followed := x.userId } : Follower) ∉ s.followers) := by
  by_cases found : storable username ∧ ∃ x ∈ s.users, svc.loc.citextLower x.username = svc.loc.citextLower username
  · obtain ⟨text, x, member, same⟩ := found
    obtain ⟨response, answers⟩ := @FollowRequest.answersWrite _ _ _ _ _ (ms 0) request x text
    have again : ∀ rows t, (mark.follow caller x.userId).exec svc.loc (ms 0) s = (.ok rows, t) →
        AnswersWrite svc call (mark.follow caller x.userId) (ms 0) (fun _ => response) t := by
      intro rows t done
      obtain ⟨valid, users⟩ := follow_kept h done
      exact answers t valid (users ▸ member) same
    rw [repeats_iff_write (mark.follow_undrawn _ _) (answers s h member same) again, follow_repeats h member]
    refine not_congr (and_congr_right fun _ => and_congr_right fun _ => ?_)
    constructor
    · exact fun fresh => ⟨text, x, member, same, fresh⟩
    · rintro ⟨_, y, mem, same', fresh⟩
      rwa [key_inj h.uniq_username mem member (same'.trans same.symm)] at fresh
  · obtain ⟨response, _, still⟩ := request.absent fun text x member same => found ⟨text, x, member, same⟩
    refine iff_of_true (repeats_still still ms ms') ?_
    rintro ⟨_, _, text, x, member, same, _⟩
    exact found ⟨text, x, member, same⟩

end

/-- A follow, unfollow, favorite or unfavorite request can be sent twice exactly unless it adds a row. -/
theorem social_repeats_iff {svc : Service} {s : Store} (reachable : Reachable svc s) {call : Call} {mark : Mark} {caller : Int}
    (ms ms' : Nat → Moment) :
    (∀ slug, FavoriteRequest svc call mark slug caller → (Repeats svc call ms ms' s ↔
      ¬ (mark = .add ∧ s.hasUser caller ∧ ∃ a ∈ s.articles, a.slug = slug ∧
        ({ userId := caller, articleId := a.articleId } : Favorite) ∉ s.favorites))) ∧
    ∀ username, FollowRequest svc call mark username caller → (Repeats svc call ms ms' s ↔
      ¬ (mark = .add ∧ s.hasUser caller ∧ storable username ∧ ∃ x ∈ s.users,
        svc.loc.citextLower x.username = svc.loc.citextLower username ∧
        ({ follower := caller, followed := x.userId } : Follower) ∉ s.followers)) :=
  ⟨fun _ request => favorite_repeats_iff reachable.valid request ms ms',
    fun _ request => follow_repeats_iff reachable.valid request ms ms'⟩

theorem social_repeats_sample :
    Repeats sample sampleFavorite (fun _ => sampleMoment) (fun _ => sampleMoment) samplePublished ↔
      ¬ (Mark.add = .add ∧ samplePublished.hasUser 2 ∧ ∃ a ∈ samplePublished.articles, a.slug = "hello-there" ∧
        ({ userId := 2, articleId := a.articleId } : Favorite) ∉ samplePublished.favorites) :=
  (social_repeats_iff samplePublished_reachable _ _).1 "hello-there" sampleFavorite_request

/-- Bert favorites the article twice and is told of an internal error the second time. -/
theorem favorite_not_repeated : Reachable sample samplePublished ∧
    FavoriteRequest sample sampleFavorite .add "hello-there" 2 ∧
    ¬ Repeats sample sampleFavorite (fun _ => sampleMoment) (fun _ => sampleMoment) samplePublished := by
  refine ⟨samplePublished_reachable, sampleFavorite_request, fun repeated => ?_⟩
  have first : (respond sample sampleFavorite (fun _ => sampleMoment) samplePublished).1.status = 200 := by decide +kernel
  have second : (respond sample sampleFavorite (fun _ => sampleMoment)
      (respond sample sampleFavorite (fun _ => sampleMoment) samplePublished).2).1.status = 500 := by decide +kernel
  rw [show respond _ _ _ _ = _ from repeated, first] at second
  cases second

end RealWorld
