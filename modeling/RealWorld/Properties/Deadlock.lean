import RealWorld.Properties.ConcurrentTags
import RealWorld.Schema.Waiting

/-!
# When two new articles deadlock

Two calls of `add_new_article` can come to wait for each other when they begin with different ones of
the new tags they share.
-/

namespace RealWorld.Schema
open Relational Transactional

/-- The first new tag of a call that the other call has too. -/
def Creation.firstShared (s : Store) (c other : Creation) : Option String :=
  c.names.find? fun name => name ∈ other.names ∧ ¬ ∃ tag ∈ s.tags, tag.name = some name

/-- Both calls have slugs of their own, and they come to a different one of their new tags first. -/
structure Crossed (s : Store) (a b : Creation) : Prop where
  slugs : a.slug ≠ b.slug
  free : ∀ x ∈ s.articles, x.slug ≠ a.slug ∧ x.slug ≠ b.slug
  tags : a.firstShared s b ≠ b.firstShared s a

def Creation.function (c : Creation) : Txn Int :=
  addNewArticle c.moment c.title c.slug c.description c.body c.authorId c.tagList

/-- The calls succeed when one is served after the other. -/
def Succeed (s : Store) (a b : Creation) : Prop :=
  ∃ articleId articleId' s₁ s₂, a.function s = .ok articleId s₁ ∧ b.function s₁ = .ok articleId' s₂

instance (s : Store) (a b : Creation) : Decidable (Crossed s a b) :=
  decidable_of_iff (a.slug ≠ b.slug ∧ (∀ x ∈ s.articles, x.slug ≠ a.slug ∧ x.slug ≠ b.slug) ∧
    a.firstShared s b ≠ b.firstShared s a)
    ⟨fun h => ⟨h.1, h.2.1, h.2.2⟩, fun h => ⟨h.slugs, h.free, h.tags⟩⟩

instance (s : Store) (a b : Creation) : Decidable (Succeed s a b) :=
  match first : a.function s with
  | .error _ _ => .isFalse fun ⟨_, _, _, _, first', _⟩ => nomatch first.symm.trans first'
  | .ok _ s₁ =>
    match second : b.function s₁ with
    | .ok _ s₂ => .isTrue ⟨_, _, s₁, s₂, first, second⟩
    | .error _ _ => .isFalse fun ⟨_, _, _, _, first', second'⟩ => by
        obtain ⟨rfl, rfl⟩ := EStateM.Result.ok.inj (first.symm.trans first')
        exact nomatch second.symm.trans second'

section
variable {loc : DbLocale} {s s' : Store} {d : Database} {i j : Nat} {t : Session} {key : Key} {a b c other : Creation}

/-! ### The keys on which two calls meet -/

def keysOf (creations : List Creation) (i : Nat) : List Key := (creations[i]?.map Creation.keys).getD []

theorem Database.holdings_start {creations : List Creation} :
    (Database.start s creations).holdings = Holdings.start s.hasKey (keysOf creations) := by
  unfold holdings Holdings.start Database.start keysOf
  congr 1
  funext i
  rw [List.getElem?_map]
  cases creations[i]? with
  | none => rfl
  | some c => exact Session.party_begun rfl

theorem firstShared_eq_some {name : String} : c.firstShared s other = some name ↔
    IsFirst (fun name => name ∈ other.names ∧ ¬ s.hasKey (.tag name)) c.names name := by
  unfold Creation.firstShared
  rw [← isFirst_iff_find?]
  refine isFirst_congr fun name _ => ?_
  rw [decide_eq_true_eq]
  rfl

theorem firstShared_none_iff : c.firstShared s other = none ↔
    ∀ name ∈ c.names, name ∈ other.names → s.hasKey (.tag name) := by
  unfold Creation.firstShared
  rw [List.find?_eq_none]
  refine forall₂_congr fun name _ => ?_
  rw [decide_eq_true_eq, not_and, not_not]
  rfl

/-- Calls of different slugs meet at a tag first. -/
theorem isFirst_keys (different : c.slug ≠ other.slug) :
    IsFirst (fun k => k ∈ c.keys ∧ k ∈ other.keys ∧ ¬ s.hasKey k) c.keys key ↔
      ∃ name, key = .tag name ∧ c.firstShared s other = some name := by
  have notSlug : ¬ (Key.slug c.slug ∈ other.keys ∧ ¬ s.hasKey (.slug c.slug)) := by
    rintro ⟨member, _⟩
    simp [Creation.keys, different] at member
  have drop : IsFirst (fun k => k ∈ c.keys ∧ k ∈ other.keys ∧ ¬ s.hasKey k) c.keys key ↔
      IsFirst (fun k => k ∈ other.keys ∧ ¬ s.hasKey k) (.slug c.slug :: c.names.map .tag) key :=
    isFirst_congr fun k member => and_iff_right member
  rw [drop, isFirst_cons_of_not (p := fun k => k ∈ other.keys ∧ ¬ s.hasKey k) notSlug, isFirst_map]
  refine exists_congr fun name => and_congr_right fun _ => ?_
  rw [firstShared_eq_some]
  refine isFirst_congr fun name _ => ?_
  simp [Creation.keys]

theorem firstShared_ne_iff : a.firstShared s b ≠ b.firstShared s a ↔
    ∃ x y, x ≠ y ∧ a.firstShared s b = some x ∧ b.firstShared s a = some y := by
  have both : ∀ {c other : Creation} {name}, c.firstShared s other = some name →
      other.firstShared s c ≠ none := by
    intro c other name found none
    obtain ⟨front, back, same, ⟨listed, new⟩, _⟩ := firstShared_eq_some.mp found
    exact new (firstShared_none_iff.mp none name listed (by rw [same]; simp))
  constructor
  · intro different
    cases left : a.firstShared s b with
    | none =>
      cases right : b.firstShared s a with
      | none => exact absurd (left.trans right.symm) different
      | some y => exact absurd left (both right)
    | some x =>
      cases right : b.firstShared s a with
      | none => exact absurd right (both left)
      | some y => exact ⟨x, y, fun same => different (by rw [left, right, same]), rfl, rfl⟩
  · rintro ⟨x, y, different, left, right⟩ same
    rw [left, right] at same
    exact different (Option.some.inj same)

/-! ### A deadlock -/

/-- A transaction that keeps another waiting has stored its article. -/
theorem Session.Sound.holds_slug (h : t.Sound loc s) (held : t.pending.holds key = true) :
    t.pending.holds (.slug t.creation.slug) = true := by
  obtain ⟨p, under, behind, _⟩ := h.holds_iff.mp held
  have own : ∀ {articleId names}, t.Tagged s.toTables articleId names →
      t.pending.holds (.slug t.creation.slug) = true := by
    intro articleId names tagged
    unfold Pending.holds
    rw [tagged.article]
    simp [Creation.article]
  have progress := h.progress
  cases at_ : t.stage with
  | begun =>
    rw [party_begun at_] at under
    cases under
    cases behind
  | tagging articleId names =>
    obtain ⟨_, _, _, tagged⟩ := progress.tagging at_
    exact own tagged
  | linked articleId => exact own (progress.linked at_).2.1
  | committed articleId =>
    rw [party_closed (by unfold isOpen; rw [at_])] at under
    cases under
  | aborted =>
    rw [party_closed (by unfold isOpen; rw [at_])] at under
    cases under

theorem Database.Sound.holds_slug (h : d.Sound loc) (waiting : d.holdings.WaitsFor i j) :
    ∃ t, d.sessions[j]? = some t ∧ d.holdings.Holds j (.slug t.creation.slug) := by
  obtain ⟨_, _, _, _, _, held⟩ := waiting
  obtain ⟨t, found, inserted⟩ := h.holds_iff.mp held
  exact ⟨t, found, h.holds_iff.mpr ⟨t, found, (h.sessions found).holds_slug inserted⟩⟩

theorem crossed_of_deadlock (valid : Valid loc s) (run : (Database.start s [a, b]).Reach d)
    (forward : d.waitsFor 0 1) (backward : d.waitsFor 1 0) : Crossed s a b := by
  have sound := run.sound valid
  have reach := run.holdings valid
  rw [Database.holdings_start] at reach
  have kept := reach.sound
  replace forward := sound.waitsFor_iff.mp forward
  replace backward := sound.waitsFor_iff.mp backward
  -- both have stored their articles, so their slugs are new and different
  obtain ⟨t, here, holds⟩ := sound.holds_slug backward
  obtain ⟨u, here', holds'⟩ := sound.holds_slug forward
  have creations := run.creations
  obtain rfl : t.creation = a := by
    have first := congrArg (·[0]?) creations
    simpa [here] using first
  obtain rfl : u.creation = b := by
    have second := congrArg (·[1]?) creations
    simpa [here'] using second
  have free : ∀ {i} {c : Creation}, d.holdings.Holds i (.slug c.slug) → ∀ x ∈ s.articles, x.slug ≠ c.slug := by
    rintro i c ⟨_, _, _, new⟩ x member same
    exact new (kept.kept _ ⟨x, member, same⟩)
  have slugs : t.creation.slug ≠ u.creation.slug := by
    intro same
    rw [same] at holds
    exact absurd (kept.exclusive holds holds') (by decide)
  -- and neither of them has ended, so that nothing was committed meanwhile
  have fresh : ∀ k, d.holdings.settled k → s.hasKey k := by
    intro k settled
    refine (kept.gained k settled).resolve_right ?_
    rintro ⟨i, ended, member⟩
    obtain ⟨_, _, _, _, first, _⟩ := forward
    obtain ⟨_, _, _, _, second, _⟩ := backward
    match i with
    | 0 => simp [first] at ended
    | 1 => simp [second] at ended
    | i + 2 => simp [keysOf] at member
  obtain ⟨f, g, different, first, second⟩ := kept.waits_first fresh forward backward
  obtain ⟨x, rfl, left⟩ := (isFirst_keys slugs).mp first
  obtain ⟨y, rfl, right⟩ := (isFirst_keys (Ne.symm slugs)).mp second
  refine ⟨slugs, fun x member => ⟨free holds x member, free holds' x member⟩, ?_⟩
  exact firstShared_ne_iff.mpr ⟨x, y, fun same => different (congrArg Key.tag same), left, right⟩

/-! ### How to get there -/

theorem foldl_insertTag_tagsSeq {names : List String} :
    (names.foldl Store.insertTag s).tagsSeq = s.tagsSeq + names.length := by
  induction names generalizing s with
  | nil => simp
  | cons name names ih =>
    have one : (s.insertTag name).tagsSeq = s.tagsSeq + 1 := rfl
    rw [List.foldl_cons, ih, one, List.length_cons]
    omega

theorem Creation.function_ok {articleId : Int} (bounded : s.tagsSeq ≤ maxInt) (done : c.function s = .ok articleId s') :
    c.Fits s.toTables ∧ s.articlesSeq + 1 ≤ maxInt ∧ s.tagsSeq + c.names.length ≤ maxInt ∧
      s'.articlesSeq = s.articlesSeq + 1 ∧ s'.tagsSeq = s.tagsSeq + c.names.length ∧ s'.users = s.users ∧
      s'.articles = s.articles ++ [c.article articleId] := by
  obtain ⟨s₁, s₂, stored, tagged, linked⟩ := addNewArticle_ok.mp done
  obtain ⟨room, title, slug, _, distinct, author, rfl, rfl⟩ := insertArticles_ok.mp stored
  have frame := insertTags_frame tagged
  obtain ⟨roomTags, names, rfl⟩ := (insertTags_ok (by exact bounded)).mp tagged
  obtain ⟨_, _, _, rfl⟩ := insertArticleTags_ok.mp linked
  have free := apart_of_nodup_map distinct
  refine ⟨⟨title, slug, names, author, fun x member => free x member _ (List.mem_singleton_self _)⟩, room, roomTags,
    ?_, foldl_insertTag_tagsSeq, ?_, ?_⟩
  · exact congrArg (·.articlesSeq) frame
  · exact congrArg (·.users) frame
  · exact congrArg (·.articles) frame

theorem Succeed.ready (valid : Valid loc s) (succeed : Succeed s a b) : (Database.start s [a, b]).Ready := by
  obtain ⟨articleId, articleId', s₁, s₂, first, second⟩ := succeed
  obtain ⟨fits, roomArticles, roomTags, drawnArticles, drawnTags, users, articles⟩ :=
    Creation.function_ok (valid.ended .tags) first
  obtain ⟨fits', roomArticles', roomTags', _⟩ := Creation.function_ok (drawnTags ▸ roomTags) second
  have earlier : b.Fits s.toTables :=
    { fits' with
      author := users ▸ fits'.author
      free := fun x member => fits'.free x (by rw [articles]; exact List.mem_append_left _ member) }
  constructor
  · intro t member
    rcases List.mem_map.mp member with ⟨c, listed, rfl⟩
    rcases List.mem_pair.mp listed with rfl | rfl
    · exact fits
    · exact earlier
  · intro serial
    have ended := valid.ended serial
    cases serial <;> simp [Database.start, Session.draws, Sequences.last] at ended ⊢ <;> omega

theorem deadlock_of_crossed (valid : Valid loc s) (succeed : Succeed s a b) (crossed : Crossed s a b) :
    ∃ d, (Database.start s [a, b]).Reach d ∧ d.waitsFor 0 1 ∧ d.waitsFor 1 0 := by
  obtain ⟨x, y, different, left, right⟩ := firstShared_ne_iff.mp crossed.tags
  have first : IsFirst (Holdings.Contested s.hasKey (keysOf [a, b]) 0 1) (keysOf [a, b] 0) (.tag x) :=
    (isFirst_keys crossed.slugs).mpr ⟨x, rfl, left⟩
  have second : IsFirst (Holdings.Contested s.hasKey (keysOf [a, b]) 1 0) (keysOf [a, b] 1) (.tag y) :=
    (isFirst_keys (Ne.symm crossed.slugs)).mpr ⟨y, rfl, right⟩
  have keys : Key.tag x ≠ Key.tag y := fun same => different (Key.tag.inj same)
  obtain ⟨held, run, forward, backward⟩ := Holdings.wait_reachable (by decide) keys first second
  rw [← Database.holdings_start] at run
  obtain ⟨d, reached, _, sound, rfl⟩ := (succeed.ready valid).takes (.start valid _) run
  exact ⟨d, reached, sound.waitsFor_iff.mpr forward, sound.waitsFor_iff.mpr backward⟩

/-- Two calls come to wait for each other only if they are crossed, and if they are and could both
succeed one after the other, they can. -/
theorem creations_deadlock (valid : Valid loc s) (a b : Creation) :
    (∀ d, (Database.start s [a, b]).Reach d → d.waitsFor 0 1 → d.waitsFor 1 0 → Crossed s a b) ∧
    (Succeed s a b → Crossed s a b →
      ∃ d, (Database.start s [a, b]).Reach d ∧ d.waitsFor 0 1 ∧ d.waitsFor 1 0) :=
  ⟨fun _ run forward backward => crossed_of_deadlock valid run forward backward,
    fun succeed crossed => deadlock_of_crossed valid succeed crossed⟩

end

def sampleFirst : Creation := sampleCreation "Good bye" "good-bye" ["x", "y"] (by decide)

def sampleSecond : Creation := sampleCreation "Good day" "good-day" ["y", "x"] (by decide)

theorem creations_deadlock_sample :
    ∃ d, (Database.start samplePublished [sampleFirst, sampleSecond]).Reach d ∧ d.waitsFor 0 1 ∧ d.waitsFor 1 0 :=
  (creations_deadlock samplePublished_reachable.valid sampleFirst sampleSecond).2 (by decide +kernel)
    (by decide +kernel)

/-- Each call stores its article and its first tag. -/
def sampleCross : List Act := [.advance 0, .advance 1, .advance 0, .advance 1]

/-- Nothing keeps calls from waiting for each other: one has inserted `x`, the other `y`. -/
theorem deadlock_reached : ¬ ∀ (loc : DbLocale) (s : Store), Valid loc s → ∀ (a b : Creation) (d : Database),
    (Database.start s [a, b]).Reach d → ¬ (d.waitsFor 0 1 ∧ d.waitsFor 1 0) := by
  intro never
  have waits : ∃ d, (Database.start samplePublished [sampleFirst, sampleSecond]).perform sampleCross = some d ∧
      d.waitsFor 0 1 ∧ d.waitsFor 1 0 := by
    have run : ((Database.start samplePublished [sampleFirst, sampleSecond]).perform sampleCross).any
        (fun d => d.waitsFor 0 1 ∧ d.waitsFor 1 0) = true := by decide +kernel
    simpa [Option.any_eq_true] using run
  obtain ⟨d, done, forward, backward⟩ := waits
  exact never sampleLocale samplePublished samplePublished_reachable.valid sampleFirst sampleSecond d
    (Database.perform_reach done) ⟨forward, backward⟩

end RealWorld.Schema
