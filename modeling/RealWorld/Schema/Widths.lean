import RealWorld.Schema.Constraints

/-!
# Stored texts fit their columns

The widths of the VARCHAR columns that later statements read back: an update that leaves a column
alone stores its old value again and checks it again.
-/

namespace RealWorld.Schema
open Relational

def Article.Fits (a : Article) : Prop := a.title.length ≤ 255 ∧ a.slug.length ≤ 255

/-- `password_hash` is a column of its own width; it is kept apart from the columns a response shows. -/
structure User.Fits (u : User) : Prop where
  email : u.email.length ≤ 255
  passwordHash : u.passwordHash.length ≤ 255
  image : (u.image.getD "").length ≤ 255

structure Fits (t : Tables) : Prop where
  users : ∀ u ∈ t.users, u.Fits
  articles : ∀ a ∈ t.articles, a.Fits

section
variable {loc : DbLocale} {m : Moment} {s s' : Store}

theorem Fits.insertUsers (h : Fits s.toTables) {username email hash : String} {userId : Int}
    (done : insertUsers loc username email hash s = .ok userId s') : Fits s'.toTables := by
  obtain ⟨_, mail, width, _, _, _, _, rfl⟩ := insertUsers_ok.mp done
  have new : User.Fits { userId := s.usersSeq + 1, username := username, email := email, passwordHash := hash } :=
    ⟨mail, width, Nat.zero_le 255⟩
  exact ⟨List.forall_mem_append.mpr ⟨h.users, List.forall_mem_singleton.mpr new⟩, h.articles⟩

theorem Fits.addNewArticle (h : Fits s.toTables) {title slug description body : String}
    {authorId articleId : Int} {tagList : Option (List String)}
    (done : addNewArticle m title slug description body authorId tagList s = .ok articleId s') :
    Fits s'.toTables := by
  obtain ⟨_, _, first, _, _⟩ := addNewArticle_ok.mp done
  obtain ⟨_, fitsTitle, fitsSlug, _⟩ := insertArticles_ok.mp first
  obtain ⟨_, links, _, store⟩ := addNewArticle_store done
  rw [store]
  exact ⟨h.users, List.forall_mem_append.mpr
    ⟨h.articles, List.forall_mem_singleton.mpr ⟨fitsTitle, fitsSlug⟩⟩⟩

theorem Fits.updateArticleBySlug (h : Fits s.toTables) {oldSlug : String} {authorId : Int}
    {title newSlug description body : Option String} {rows : List Int}
    (done : updateArticleBySlug m oldSlug authorId title newSlug description body s = .ok rows s') :
    Fits s'.toTables := by
  obtain ⟨checked, _, rfl⟩ := updateArticleBySlug_ok.mp done
  refine ⟨h.users, List.forall_mem_map.mpr fun a member => ?_⟩
  split
  · rename_i hit
    obtain ⟨fitsTitle, fitsSlug, _⟩ := checked a member hit
    exact ⟨fitsTitle, fitsSlug⟩
  · exact h.articles a member

theorem Fits.updateUserById (h : Fits s.toTables) {userId : Int}
    {username email passwordHash bio image : Option String} {rows : List RealworldUser}
    (done : updateUserById loc userId username email passwordHash bio image s = .ok rows s') :
    Fits s'.toTables := by
  obtain ⟨checked, _, rfl⟩ := updateUserById_ok.mp done
  refine ⟨List.forall_mem_map.mpr fun u member => ?_, h.articles⟩
  split
  · rename_i hit
    have found : u ∈ s.users.filter fun v => v.userId = userId :=
      List.mem_filter.mpr ⟨member, decide_eq_true hit⟩
    obtain ⟨mail, width, picture, _⟩ := checked _ (List.mem_map_of_mem found)
    exact ⟨mail, width, picture⟩
  · exact h.users u member

theorem Fits.effect (h : Fits s.toTables) {q : Sql} {rows : List q.Row}
    (effect : Effect loc m s q rows s') : Fits s'.toTables := by
  refine ⟨?_, ?_⟩
  · by_cases changes : q.changesUsers
    · cases effect with
      | addNewUser done => exact (h.insertUsers done).users
      | updateUserById done => exact (h.updateUserById done).users
      | _ => cases changes
    · exact effect.users_kept changes ▸ h.users
  · by_cases changes : q.changesArticles
    · cases effect with
      | addNewArticle done => exact (h.addNewArticle done).articles
      | updateArticleBySlug done => exact (h.updateArticleBySlug done).articles
      | deleteArticleBySlug done =>
        obtain ⟨_, rfl⟩ := deleteArticleBySlug_ok.mp done
        exact fun a member => h.articles a (List.mem_filter.mp member).1
      | _ => cases changes
    · exact (effect.articles_kept changes).1 ▸ h.articles

theorem Fits.exec (h : Fits s.toTables) (q : Sql) : Fits (q.exec loc m s).2.toTables := by
  have answer : q.exec loc m s = ((q.exec loc m s).1, (q.exec loc m s).2) := rfl
  rcases Sql.exec_cases answer with same | ⟨rows, _, _, effect⟩
  · rwa [same]
  · exact h.effect effect

end

end RealWorld.Schema
