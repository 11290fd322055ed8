import RealWorld.Schema.Widths

/-!
# What does not depend on a stored password hash

`masked` blanks every `password_hash`. A statement run on a masked store answers and leaves what it
answers and leaves on the store itself, apart from the hashes.
-/

namespace RealWorld.Schema
open Relational

def User.masked (u : User) : User := { u with passwordHash := "" }

def Tables.masked (t : Tables) : Tables := { t with users := t.users.map User.masked }

def Store.masked (s : Store) : Store := { s with toTables := s.toTables.masked }

/-- Statements whose rows are whole rows of `users` show them without the hash. -/
def Sql.maskRow : (q : Sql) → q.Row → q.Row
  | .getUserByEmail _, u | .getUserByUsername _, u | .getUserById _, u | .updateUserById .., u => User.masked u
  | _, row => row

def Sql.maskAnswer (q : Sql) (r : q.Res) : q.Res := r.map (List.map q.maskRow)

def Sql.showsUsers : Sql → Prop
  | .getUserByEmail _ | .getUserByUsername _ | .getUserById _ | .updateUserById .. => True
  | _ => False

section
variable {loc : DbLocale} {m : Moment} {s : Store} {t : Tables}

@[simp] theorem User.masked_masked (u : User) : u.masked.masked = u.masked := rfl

@[simp] theorem Store.masked_masked : s.masked.masked = s.masked := by
  simp [Store.masked, Tables.masked, Function.comp_def]

theorem Sql.maskAnswer_eq {q : Sql} (hidden : ¬ q.showsUsers) (r : q.Res) : q.maskAnswer r = r := by
  have row : q.maskRow = id := by
    cases q <;> first | rfl | exact absurd trivial hidden
  unfold maskAnswer
  rw [row, List.map_id_fun]
  cases r <;> rfl

/-! ### Reading -/

theorem getProfile_masked (id : Int) (viewer : Option Int) : getProfile t.masked id viewer = getProfile t id viewer := by
  simp only [getProfile, Tables.masked, List.filter_map, List.map_map]
  rfl

theorem getArticleWithAuthorProfile_masked (id : Int) (viewer : Option Int) :
    getArticleWithAuthorProfile loc t.masked id viewer = getArticleWithAuthorProfile loc t id viewer := by
  simp only [getArticleWithAuthorProfile, getProfile_masked]
  rfl

theorem getArticleWithAuthorProfileBySlug_masked (slug : String) (viewer : Option Int) :
    getArticleWithAuthorProfileBySlug loc t.masked slug viewer =
      getArticleWithAuthorProfileBySlug loc t slug viewer := by
  simp only [getArticleWithAuthorProfileBySlug, getProfile_masked]
  rfl

theorem getFeed_masked {userId : Int} {limit offset : Option Int} :
    getFeed loc m t.masked userId limit offset = getFeed loc m t userId limit offset := by
  simp only [getFeed, getProfile_masked]
  rfl

theorem getComment_masked (commentId : Int) (viewer : Option Int) :
    getComment t.masked commentId viewer = getComment t commentId viewer := by
  simp only [getComment, getProfile_masked]
  rfl

theorem getCommentsFromArticle_masked (slug : String) (viewer : Option Int) :
    getCommentsFromArticle m t.masked slug viewer = getCommentsFromArticle m t slug viewer := by
  simp only [getCommentsFromArticle, getProfile_masked]
  rfl

theorem getProfileByUsername_masked (username : String) (viewer : Option Int) :
    getProfileByUsername loc t.masked username viewer = getProfileByUsername loc t username viewer := by
  simp only [getProfileByUsername, Tables.masked, List.filter_map, List.map_map]
  rfl

theorem favoritedByName_masked (a : Article) (username : Option String) :
    favoritedByName loc t.masked a username = favoritedByName loc t a username := by
  simp only [favoritedByName, Tables.masked, List.any_map]
  rfl

theorem Moment.scan_map {α β : Type} (f : α → β) (rows : List α) : m.scan (rows.map f) = (m.scan rows).map f := by
  unfold Moment.scan
  rw [List.length_map, arrange_map]

theorem byCreatedAtDesc_map {α β : Type} {createdAt : α → Int} {createdAt' : β → Int} (f : α → β)
    (same : ∀ a, createdAt' (f a) = createdAt a) (rows : List α) :
    byCreatedAtDesc createdAt' (rows.map f) = (byCreatedAtDesc createdAt rows).map f := by
  unfold byCreatedAtDesc
  refine (List.map_insertionSort _ _ f rows fun a _ b _ => ?_).symm
  rw [same, same]

theorem getArticlesWithAuthorProfile_masked {tag authorUsername favoritedByUser : Option String}
    {viewer limit offset : Option Int} :
    getArticlesWithAuthorProfile loc m t.masked tag authorUsername favoritedByUser viewer limit offset =
      getArticlesWithAuthorProfile loc m t tag authorUsername favoritedByUser viewer limit offset := by
  let mask : Article × User → Article × User := fun p => (p.1, p.2.masked)
  have joined : (t.masked.articles.flatMap fun a =>
      (t.masked.users.filter fun u => a.authorId = u.userId).map fun u => (a, u)) =
      (t.articles.flatMap fun a => (t.users.filter fun u => a.authorId = u.userId).map fun u => (a, u)).map mask := by
    rw [List.map_flatMap]
    refine List.flatMap_congr fun a _ => ?_
    simp only [Tables.masked, List.filter_map, List.map_map]
    rfl
  unfold getArticlesWithAuthorProfile
  simp only [joined, List.filter_map, Moment.scan_map, favoritedByName_masked, getProfile_masked]
  rw [byCreatedAtDesc_map mask (fun _ => rfl), List.flatMap_map]
  rfl

theorem getUserByEmail_masked (email : String) :
    getUserByEmail t.masked email = (getUserByEmail t email).map User.masked := by
  simp only [getUserByEmail, Tables.masked, List.filter_map]
  rfl

theorem getUserById_masked (userId : Int) :
    getUserById t.masked userId = (getUserById t userId).map User.masked := by
  simp only [getUserById, Tables.masked, List.filter_map]
  rfl

theorem getUserByUsername_masked (username : String) :
    getUserByUsername loc t.masked username = (getUserByUsername loc t username).map User.masked := by
  simp only [getUserByUsername, Tables.masked, List.filter_map]
  rfl

theorem users_masked (holds : Int → Prop) :
    (∃ u ∈ t.masked.users, holds u.userId) ↔ ∃ u ∈ t.users, holds u.userId := by
  simp [Tables.masked, User.masked]

end

/-! ### Writing -/

def maskResult {α : Type} (f : α → α) : EStateM.Result DbError Store α → EStateM.Result DbError Store α
  | .ok a s => .ok (f a) s.masked
  | .error e s => .error e s.masked

/-- `t'` on the masked store does what `t` does on the store. -/
def Masks {α : Type} (t' t : Txn α) (s : Store) : Prop := t' s.masked = maskResult id (t s)

/-- As `Masks`, apart from the hashes that are stored meanwhile and those in the value. -/
def MasksUpTo {α : Type} (f : α → α) (t' t : Txn α) (s : Store) : Prop :=
  maskResult f (t' s.masked) = maskResult f (t s)

section
variable {α β : Type} {s : Store} {t t' : Txn α} {f f' : α → Txn β} {g : β → β}

theorem Masks.upTo (h : Masks t' t s) : MasksUpTo id t' t s := by
  unfold MasksUpTo
  rw [h]
  cases t s <;> simp [maskResult]

theorem Masks.pure {a : α} : Masks (pure a) (pure a) s := rfl

theorem Masks.bind (first : Masks t' t s) (rest : ∀ a s₁, Masks (f' a) (f a) s₁) : Masks (t' >>= f') (t >>= f) s := by
  show EStateM.bind t' f' s.masked = maskResult id (EStateM.bind t f s)
  unfold EStateM.bind
  rw [show t' s.masked = _ from first]
  cases t s with
  | ok a s₁ => exact rest a s₁
  | error e s₁ => rfl

theorem MasksUpTo.bind (first : Masks t' t s) (rest : ∀ a s₁, MasksUpTo g (f' a) (f a) s₁) :
    MasksUpTo g (t' >>= f') (t >>= f) s := by
  show maskResult g (EStateM.bind t' f' s.masked) = maskResult g (EStateM.bind t f s)
  unfold EStateM.bind
  rw [show t' s.masked = _ from first]
  cases t s with
  | ok a s₁ => exact rest a s₁
  | error e s₁ => simp [maskResult]

theorem Masks.get_bind {f f' : Store → Txn β} (rest : Masks (f' s.masked) (f s) s) :
    Masks (get >>= f') (get >>= f) s := rest

theorem MasksUpTo.get_bind {f f' : Store → Txn β} (rest : MasksUpTo g (f' s.masked) (f s) s) :
    MasksUpTo g (get >>= f') (get >>= f) s := rest

theorem Masks.check {holds holds' : Prop} [Decidable holds] [Decidable holds'] {e : DbError}
    (same : holds' ↔ holds) :
    Masks (if holds' then Pure.pure () else throw e) (if holds then Pure.pure () else throw e) s := by
  unfold Masks
  by_cases held : holds
  · rw [if_pos held, if_pos (same.mpr held)]
    rfl
  · rw [if_neg held, if_neg (mt same.mp held)]
    rfl

theorem Masks.varchar {width : Nat} {text : String} : Masks (varchar width text) (varchar width text) s := .check .rfl

theorem Masks.unique {κ : Type} [DecidableEq κ] {constraint : String} {keys keys' : List κ} (same : keys' = keys) :
    Masks (unique constraint keys') (unique constraint keys) s := .check (by rw [same])

theorem Masks.foreignKey {constraint : String} {holds holds' : Prop} [Decidable holds] [Decidable holds']
    (same : holds' ↔ holds) : Masks (foreignKey constraint holds') (foreignKey constraint holds) s := .check same

theorem Masks.nextval {serial : Serial} : Masks (nextval serial) (nextval serial) s := by
  unfold Masks Schema.nextval
  have last : s.masked.last serial = s.last serial := rfl
  rw [last]
  split <;> rfl

theorem Masks.notNull {column : String} {o : Option α} : Masks (notNull column o) (notNull column o) s := by
  cases o <;> rfl

theorem Masks.scalar {rows : List α} : Masks (scalar rows) (scalar rows) s := by
  match rows with
  | [] => rfl
  | [_] => rfl
  | _ :: _ :: _ => rfl

theorem Masks.forM {rows : List α} {check check' : α → Txn PUnit} (each : ∀ r ∈ rows, ∀ s, Masks (check' r) (check r) s) :
    Masks (rows.forM check') (rows.forM check) s := by
  induction rows generalizing s with
  | nil => rfl
  | cons r rows ih =>
    rw [List.forM_eq_forM, List.forM_cons, List.forM_cons]
    obtain ⟨first, rest⟩ := List.forall_mem_cons.mp each
    exact .bind (first s) fun _ _ => ih rest

end

section
variable {loc : DbLocale} {m : Moment} {s : Store}

theorem insertArticles_masks {title slug description body : String} {authorId : Int} :
    Masks (insertArticles m title slug description body authorId) (insertArticles m title slug description body authorId) s := by
  refine .bind .nextval fun articleId s₁ => .bind .varchar fun _ s₂ => .bind .varchar fun _ s₃ => .get_bind ?_
  refine .bind (.unique rfl) fun _ _ => .bind (.unique rfl) fun _ _ => ?_
  exact .bind (.foreignKey (users_masked (· = authorId))) fun _ _ => .bind rfl fun _ _ => .pure

theorem insertTags_masks {names : List String} : Masks (insertTags names) (insertTags names) s := by
  induction names generalizing s with
  | nil => exact .pure
  | cons name names ih =>
    refine .bind .nextval fun tagId s₁ => .bind .varchar fun _ s₂ => .get_bind (.bind ?_ fun _ _ => ih)
    have tags : s₂.masked.tags = s₂.tags := rfl
    rw [tags]
    by_cases clash : ∃ tag ∈ s₂.tags, tag.tagId = tagId ∨ tag.name = some name
    · rw [if_pos clash, if_pos clash]
      rfl
    · rw [if_neg clash, if_neg clash]
      rfl

theorem insertArticleTags_masks {articleId : Int} {tagList : List String} :
    Masks (insertArticleTags articleId tagList) (insertArticleTags articleId tagList) s := by
  refine .get_bind (.bind (.unique rfl) fun _ _ => .bind (.foreignKey .rfl) fun _ _ => ?_)
  exact .bind (.foreignKey .rfl) fun _ _ => rfl

theorem addNewArticle_masks {title slug description body : String} {authorId : Int} {tagList : Option (List String)} :
    Masks (addNewArticle m title slug description body authorId tagList)
      (addNewArticle m title slug description body authorId tagList) s :=
  .bind insertArticles_masks fun _ _ => .bind insertTags_masks fun _ _ => .bind insertArticleTags_masks fun _ _ => .pure

theorem addCommentToArticle_masks {slug body : String} {userId : Int} :
    Masks (addCommentToArticle m slug body userId) (addCommentToArticle m slug body userId) s := by
  refine .bind .nextval fun commentId s₁ => .bind .varchar fun _ s₂ => .get_bind (.bind .scalar fun _ _ => ?_)
  refine .bind .notNull fun articleId _ => .bind (.unique rfl) fun _ _ => .bind (.foreignKey .rfl) fun _ _ => ?_
  exact .bind (.foreignKey (users_masked (· = userId))) fun _ _ => .bind rfl fun _ _ => .pure

theorem deleteArticleBySlug_masks {slug : String} {authorId : Int} :
    Masks (deleteArticleBySlug slug authorId) (deleteArticleBySlug slug authorId) s :=
  .get_bind (.bind (.foreignKey .rfl) fun _ _ => rfl)

theorem deleteComment_masks {commentId : Int} {slug : String} {authorId : Int} :
    Masks (deleteComment commentId slug authorId) (deleteComment commentId slug authorId) s :=
  .get_bind (.bind .scalar fun _ _ => rfl)

theorem isCommentExist_masks {commentId : Int} {slug : String} {authorId : Int} :
    Masks (isCommentExist commentId slug authorId) (isCommentExist commentId slug authorId) s :=
  .get_bind (.bind .scalar fun _ _ => rfl)

theorem favoriteArticle_masks {slug : String} {userId : Int} :
    Masks (favoriteArticle slug userId) (favoriteArticle slug userId) s := by
  refine .get_bind (.bind .scalar fun _ _ => .bind .notNull fun articleId _ => .bind (.unique rfl) fun _ _ => ?_)
  exact .bind (.foreignKey (users_masked (· = userId))) fun _ _ => .bind (.foreignKey .rfl) fun _ _ => rfl

theorem unfavoriteArticle_masks {slug : String} {userId : Int} :
    Masks (unfavoriteArticle slug userId) (unfavoriteArticle slug userId) s :=
  .get_bind (.bind .scalar fun _ _ => rfl)

theorem follow_masks {follower followed : Int} : Masks (follow follower followed) (follow follower followed) s := by
  refine .get_bind (.bind (.unique rfl) fun _ _ => .bind (.foreignKey (users_masked (· = follower))) fun _ _ => ?_)
  exact .bind (.foreignKey (users_masked (· = followed))) fun _ _ => rfl

theorem unfollow_masks {follower followed : Int} : Masks (unfollow follower followed) (unfollow follower followed) s :=
  .get_bind rfl

theorem updateArticleBySlug_masks {oldSlug : String} {authorId : Int} {title newSlug description body : Option String} :
    Masks (updateArticleBySlug m oldSlug authorId title newSlug description body)
      (updateArticleBySlug m oldSlug authorId title newSlug description body) s := by
  refine .get_bind (.bind (.forM fun a _ s₁ => ?_) fun _ _ => .bind rfl fun _ _ => .pure)
  exact .bind .varchar fun _ _ => .bind .varchar fun _ _ => .unique rfl

/-- The new row shows its hash in the store only. -/
theorem addNewUser_masks {username email hash : String} :
    MasksUpTo id (addNewUser loc username email hash) (addNewUser loc username email hash) s := by
  have names : ∀ {κ : Type} (key : User → κ) (users : List User) (u : User), (∀ u, key u.masked = key u) →
      (users.map User.masked ++ [u]).map key = (users ++ [u]).map key := by
    intro κ key users u same
    rw [List.map_append, List.map_append, List.map_map]
    exact congrArg (· ++ [key u]) (List.map_congr_left fun u _ => same u)
  refine .bind .nextval fun userId s₁ => .bind .varchar fun _ s₂ => .bind .varchar fun _ s₃ => .get_bind ?_
  refine .bind (.unique (names _ _ _ fun _ => rfl)) fun _ s₄ => .bind (.unique (names _ _ _ fun _ => rfl)) fun _ s₅ => ?_
  refine .bind (.unique (names _ _ _ fun _ => rfl)) fun _ s₆ => ?_
  show EStateM.Result.ok _ _ = EStateM.Result.ok _ _
  simp [Store.masked, Tables.masked, Function.comp_def]

/-- An update stores the hash it is given, or the old hash again, which fits its column. -/
theorem updateUserById_masks (fits : ∀ u ∈ s.users, u.passwordHash.length ≤ 255) {userId : Int}
    {username email passwordHash bio image : Option String} :
    MasksUpTo (List.map User.masked) (updateUserById loc userId username email passwordHash bio image)
      (updateUserById loc userId username email passwordHash bio image) s := by
  let update := User.update username email passwordHash bio image
  let rows := fun users : List User => users.map fun u => if u.userId = userId then update u else u
  have hits : (s.masked.users.filter fun u => u.userId = userId) =
      (s.users.filter fun u => u.userId = userId).map User.masked := by
    simp only [Store.masked, Tables.masked, List.filter_map]
    rfl
  have keys : ∀ {κ : Type} (key : User → κ), (∀ u, key u = key u.masked) →
      (rows s.masked.users).map key = (rows s.users).map key := by
    intro κ key same
    simp only [rows, Store.masked, Tables.masked, List.map_map]
    refine List.map_congr_left fun u _ => ?_
    show key (if u.userId = userId then update u.masked else u.masked) = key (if u.userId = userId then update u else u)
    split
    · exact (same _).trans (same (update u)).symm
    · exact (same u).symm
  let check : List User → User → Txn Unit := fun users u => do
    varchar 255 u.email
    varchar 255 u.passwordHash
    varchar 255 (u.image.getD "")
    unique "uniq_username" (users.map fun u => loc.citextLower u.username)
    unique "uniq_email" (users.map (·.email))
  have checked : Masks (((s.masked.users.filter fun u => u.userId = userId).map update).forM (check (rows s.masked.users)))
      (((s.users.filter fun u => u.userId = userId).map update).forM (check (rows s.users))) s := by
    rw [hits, List.map_map, List.forM_eq_forM, List.forM_map, List.forM_map]
    refine .forM fun u member s₁ => ?_
    have width : (update u.masked).passwordHash.length ≤ 255 ↔ (update u).passwordHash.length ≤ 255 := by
      have old := fits u (List.mem_filter.mp member).1
      cases passwordHash with
      | none => simp [update, User.update, User.masked, old]
      | some hash => rfl
    refine .bind .varchar fun _ _ => .bind (.check width) fun _ _ => .bind .varchar fun _ _ => ?_
    exact .bind (.unique (keys _ fun _ => rfl)) fun _ _ => .unique (keys _ fun _ => rfl)
  refine .get_bind (.bind checked fun _ s₁ => ?_)
  have stored : (rows s.masked.users).map User.masked = (rows s.users).map User.masked :=
    keys _ fun _ => rfl
  have shown : ((s.masked.users.filter fun u => u.userId = userId).map update).map User.masked =
      ((s.users.filter fun u => u.userId = userId).map update).map User.masked := by
    rw [hits, List.map_map, List.map_map, List.map_map]
    rfl
  show EStateM.Result.ok _ _ = EStateM.Result.ok _ _
  refine congrArg₂ EStateM.Result.ok shown ?_
  exact congrArg (fun users => { s with users := users : Store }) stored

end

/-! ### Statements -/

/-- The outcomes of a statement on two stores show the same apart from hashes. -/
structure Sql.SameUpToHash (q : Sql) (x x' : q.Res × Store) : Prop where
  answer : q.maskAnswer x.1 = q.maskAnswer x'.1
  store : x.2.masked = x'.2.masked

section
variable {loc : DbLocale} {m : Moment} {s s' : Store} {α β : Type}

theorem atomically_map {t : Txn α} {f : α → β} :
    atomically (f <$> t) s = ((atomically t s).1.map f, (atomically t s).2) := by
  rw [map_eq_pure_bind]
  unfold atomically
  cases result : t s with
  | ok a s' =>
    have done : (t >>= fun a => pure (f a)) s = .ok (f a) s' := bind_ok.mpr ⟨a, s', result, rfl⟩
    rw [done]
    rfl
  | error e s' =>
    have failed : (t >>= fun a => pure (f a)) s = .error e s' := by
      show EStateM.bind t _ s = _
      unfold EStateM.bind
      rw [result]
    rw [failed]
    rfl

theorem atomically_masks {f : α → α} {t : Txn α} (h : MasksUpTo f t t s) :
    (atomically t s.masked).1.map f = (atomically t s).1.map f ∧
      (atomically t s.masked).2.masked = (atomically t s).2.masked := by
  unfold MasksUpTo at h
  unfold atomically
  cases left : t s.masked with
  | ok a s₁ =>
    cases right : t s with
    | ok b s₂ =>
      rw [left, right] at h
      obtain ⟨value, store⟩ := EStateM.Result.ok.inj h
      exact ⟨congrArg Except.ok value, store⟩
    | error e s₂ =>
      rw [left, right] at h
      cases h
  | error e s₁ =>
    cases right : t s with
    | ok b s₂ =>
      rw [left, right] at h
      cases h
    | error e' s₂ =>
      rw [left, right] at h
      obtain ⟨rfl, store⟩ := EStateM.Result.error.inj h
      have drawn : s₁.masked.toSequences = s₂.masked.toSequences := congrArg Store.toSequences store
      refine ⟨rfl, ?_⟩
      show ({ s.masked with toSequences := s₁.toSequences } : Store).masked =
        ({ s with toSequences := s₂.toSequences } : Store).masked
      rw [show s₁.toSequences = s₂.toSequences from drawn]
      exact congrArg (fun t : Store => { t with toSequences := s₂.toSequences }) Store.masked_masked

theorem Sql.SameUpToHash.of_eq {q : Sql} {x x' : q.Res × Store} (answer : x.1 = x'.1)
    (store : x.2.masked = x'.2.masked) : q.SameUpToHash x x' := ⟨congrArg q.maskAnswer answer, store⟩

theorem Except.map_id_eq {ε : Type} (r : Except ε α) : r.map id = r := by cases r <;> rfl

theorem Sql.SameUpToHash.returned (q : Sql) {t : Txn (List q.Row)} (h : Masks t t s) :
    q.SameUpToHash (atomically t s.masked) (atomically t s) := by
  obtain ⟨answer, store⟩ := atomically_masks h.upTo
  rw [Except.map_id_eq, Except.map_id_eq] at answer
  exact .of_eq answer store

theorem Sql.SameUpToHash.written (q : Sql) {t : Txn q.Row} (h : MasksUpTo id t t s) :
    q.SameUpToHash (atomically (List.singleton <$> t) s.masked) (atomically (List.singleton <$> t) s) := by
  obtain ⟨answer, store⟩ := atomically_masks h
  rw [Except.map_id_eq, Except.map_id_eq] at answer
  rw [atomically_map, atomically_map]
  exact .of_eq (congrArg (Except.map List.singleton) answer) store

theorem Sql.SameUpToHash.read (q : Sql) {rows rows' : List q.Row} (same : rows.map q.maskRow = rows'.map q.maskRow) :
    q.SameUpToHash (reading rows s.masked) (reading rows' s) := ⟨congrArg Except.ok same, Store.masked_masked⟩

theorem map_masked_masked (users : List User) : (users.map User.masked).map User.masked = users.map User.masked := by
  rw [List.map_map]
  rfl

theorem Sql.body_masked (fits : ∀ u ∈ s.users, u.passwordHash.length ≤ 255) (q : Sql) :
    q.SameUpToHash (q.body loc m s.masked) (q.body loc m s) := by
  cases q with
  | addNewArticle title slug description body authorId tagList =>
    exact .written (.addNewArticle title slug description body authorId tagList) addNewArticle_masks.upTo
  | follow a b => exact .written (.follow a b) follow_masks.upTo
  | unfollow a b => exact .written (.unfollow a b) unfollow_masks.upTo
  | getProfileByUsername => exact .of_eq (congrArg Except.ok (getProfileByUsername_masked _ _)) Store.masked_masked
  | updateArticleBySlug oldSlug authorId title newSlug description body =>
    exact .returned (.updateArticleBySlug oldSlug authorId title newSlug description body) updateArticleBySlug_masks
  | deleteArticleBySlug slug authorId => exact .written (.deleteArticleBySlug slug authorId) deleteArticleBySlug_masks.upTo
  | getArticleWithAuthorProfileBySlug =>
    exact .of_eq (congrArg Except.ok (getArticleWithAuthorProfileBySlug_masked _ _)) Store.masked_masked
  | getArticleWithAuthorProfile =>
    exact .of_eq (congrArg Except.ok (getArticleWithAuthorProfile_masked _ _)) Store.masked_masked
  | getArticlesWithAuthorProfile => exact .of_eq getArticlesWithAuthorProfile_masked Store.masked_masked
  | getFeed => exact .of_eq getFeed_masked Store.masked_masked
  | addNewUser username email hash => exact .written (.addNewUser username email hash) addNewUser_masks
  | getUserByEmail email =>
    refine .read (.getUserByEmail email) ?_
    exact (congrArg (List.map User.masked) (getUserByEmail_masked email)).trans (map_masked_masked _)
  | getUserByUsername username =>
    refine .read (.getUserByUsername username) ?_
    exact (congrArg (List.map User.masked) (getUserByUsername_masked username)).trans (map_masked_masked _)
  | getUserById userId =>
    refine .read (.getUserById userId) ?_
    exact (congrArg (List.map User.masked) (getUserById_masked userId)).trans (map_masked_masked _)
  | updateUserById =>
    obtain ⟨answer, store⟩ := atomically_masks (updateUserById_masks fits)
    exact ⟨answer, store⟩
  | getCommentsFromArticle =>
    exact .of_eq (congrArg Except.ok (getCommentsFromArticle_masked _ _)) Store.masked_masked
  | addNewComment slug body userId => exact .written (.addNewComment slug body userId) addCommentToArticle_masks.upTo
  | deleteComment id slug authorId => exact .written (.deleteComment id slug authorId) deleteComment_masks.upTo
  | getComment => exact .of_eq (congrArg Except.ok (getComment_masked _ _)) Store.masked_masked
  | favoriteArticle slug userId => exact .written (.favoriteArticle slug userId) favoriteArticle_masks.upTo
  | unfavoriteArticle slug userId => exact .written (.unfavoriteArticle slug userId) unfavoriteArticle_masks.upTo
  | getTags => exact .of_eq rfl Store.masked_masked
  | getArticleIdBySlug => exact .of_eq rfl Store.masked_masked
  | isCommentExist id slug authorId => exact .written (.isCommentExist id slug authorId) isCommentExist_masks.upTo

theorem Sql.exec_masked (fits : ∀ u ∈ s.users, u.passwordHash.length ≤ 255) (q : Sql) :
    q.SameUpToHash (q.exec loc m s.masked) (q.exec loc m s) := by
  unfold Sql.exec
  split
  · exact Sql.body_masked fits q
  · exact .of_eq rfl Store.masked_masked

/-- Two stores of the schema that are equal apart from the hashes of their users. -/
structure EqualUpToHash (s s' : Store) : Prop where
  fits : Fits s.toTables
  fits' : Fits s'.toTables
  same : s.masked = s'.masked

theorem EqualUpToHash.exec (h : EqualUpToHash s s') (q : Sql) :
    q.maskAnswer (q.exec loc m s).1 = q.maskAnswer (q.exec loc m s').1 ∧
      EqualUpToHash (q.exec loc m s).2 (q.exec loc m s').2 := by
  have left : q.SameUpToHash (q.exec loc m s.masked) (q.exec loc m s) :=
    Sql.exec_masked (fun u member => (h.fits.users u member).passwordHash) q
  have right : q.SameUpToHash (q.exec loc m s'.masked) (q.exec loc m s') :=
    Sql.exec_masked (fun u member => (h.fits'.users u member).passwordHash) q
  rw [h.same] at left
  exact ⟨left.answer.symm.trans right.answer, h.fits.exec q, h.fits'.exec q, left.store.symm.trans right.store⟩

end

end RealWorld.Schema
