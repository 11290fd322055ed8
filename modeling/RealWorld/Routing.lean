import RealWorld.Server
import RealWorld.Text.Separator

/-!
# From the request line to the handler

The endpoints of `static_config.yaml.in`, and the rules of the server for them as far as they are assumed here: a
path that an endpoint fixes goes to that endpoint, and only then are the paths with arguments tried, where an argument
stands for one segment that is not empty. What else the server makes of a path, as one that ends in a slash, is
not told.
-/

namespace RealWorld
open Text

inductive Method where
  | get | post | put | delete
  deriving DecidableEq

/-- One segment of a configured path: a text, or an argument in braces. -/
inductive Segment where
  | fixed (text : String)
  | argument (name : String)
  deriving DecidableEq

structure Endpoint where
  method : Method
  path : List Segment
  route : Route
  deriving DecidableEq

/-- `monitor` and `ping` endpoints left aside. -/
def endpoints : List Endpoint :=
  [⟨.post, [.fixed "api", .fixed "users", .fixed "login"], .postUsersLogin⟩,
    ⟨.post, [.fixed "api", .fixed "users"], .postUsers⟩,
    ⟨.get, [.fixed "api", .fixed "user"], .getUser⟩,
    ⟨.put, [.fixed "api", .fixed "user"], .putUser⟩,
    ⟨.get, [.fixed "api", .fixed "profiles", .argument "username"], .getProfiles⟩,
    ⟨.post, [.fixed "api", .fixed "profiles", .argument "username", .fixed "follow"], .postProfiles⟩,
    ⟨.delete, [.fixed "api", .fixed "profiles", .argument "username", .fixed "follow"], .deleteProfiles⟩,
    ⟨.get, [.fixed "api", .fixed "articles"], .getArticles⟩,
    ⟨.get, [.fixed "api", .fixed "articles", .fixed "feed"], .getArticlesFeed⟩,
    ⟨.get, [.fixed "api", .fixed "articles", .argument "slug"], .getArticlesSlug⟩,
    ⟨.post, [.fixed "api", .fixed "articles"], .postArticles⟩,
    ⟨.put, [.fixed "api", .fixed "articles", .argument "slug"], .putArticlesSlug⟩,
    ⟨.delete, [.fixed "api", .fixed "articles", .argument "slug"], .deleteArticlesSlug⟩,
    ⟨.post, [.fixed "api", .fixed "articles", .argument "slug", .fixed "comments"],
      .postArticlesSlugComments⟩,
    ⟨.get, [.fixed "api", .fixed "articles", .argument "slug", .fixed "comments"],
      .getArticlesSlugComments⟩,
    ⟨.delete, [.fixed "api", .fixed "articles", .argument "slug", .fixed "comments", .argument "id"],
      .deleteArticlesSlugComments⟩,
    ⟨.post, [.fixed "api", .fixed "articles", .argument "slug", .fixed "favorite"],
      .postArticlesSlugFavorite⟩,
    ⟨.delete, [.fixed "api", .fixed "articles", .argument "slug", .fixed "favorite"],
      .deleteArticlesSlugFavorite⟩,
    ⟨.get, [.fixed "api", .fixed "tags"], .getTags⟩]

/-- The arguments a path supplies if it has the configured form. -/
def matchPath : List Segment → List String → Option (List (String × String))
  | [], [] => some []
  | .fixed text :: path, part :: parts => if part = text then matchPath path parts else none
  | .argument name :: path, part :: parts =>
    if part = "" then none else ((name, part) :: ·) <$> matchPath path parts
  | _, _ => none

def Endpoint.isFixed (e : Endpoint) : Bool := e.path.all fun | .fixed _ => true | .argument _ => false

def segments (path : String) : List String :=
  match split '/' path.toList with
  | [] :: parts => parts.map String.ofList
  | _ => []

def Endpoint.handles (e : Endpoint) (method : Method) (path : String) :
    Option (Route × List (String × String)) :=
  if e.method = method then (e.route, ·) <$> matchPath e.path (segments path) else none

/-- The handler of a request and the arguments of its path, by these rules. -/
def dispatch (method : Method) (path : String) : Option (Route × List (String × String)) :=
  (endpoints.filter (·.isFixed) ++ endpoints.filter (!·.isFixed)).findSome? (·.handles method path)

/-! ### The path of an article -/

def articlePath (slug : String) : String := "/api/articles/" ++ slug

theorem segments_articlePath (slug : String) :
    segments (articlePath slug) = "api" :: "articles" :: (split '/' slug.toList).map String.ofList := by
  have parts : split '/' (articlePath slug).toList =
      [] :: "api".toList :: "articles".toList :: split '/' slug.toList := by
    rw [articlePath, String.toList_append]
    show split '/' ([] ++ '/' :: ("api".toList ++ '/' :: ("articles".toList ++ '/' :: slug.toList))) = _
    rw [split_append (by decide), split_append (by decide), split_append (by decide)]
  rw [segments, parts]
  simp

theorem dispatch_feed : dispatch .get (articlePath "feed") = some (.getArticlesFeed, []) := by
  decide

/-- A path with the slug as its last segment reaches the article's handler unless it is the path of
the feed. -/
theorem dispatch_articlePath (slug : String) (pathArgs : List (String × String)) :
    dispatch .get (articlePath slug) = some (.getArticlesSlug, pathArgs) ↔
      (slug ≠ "" ∧ slug ≠ "feed" ∧ '/' ∉ slug.toList) ∧ pathArgs = [("slug", slug)] := by
  constructor
  · intro dispatched
    have only : ∀ e ∈ endpoints, e.route = .getArticlesSlug →
        e.path = [.fixed "api", .fixed "articles", .argument "slug"] := by decide
    have elsewhere : slug ≠ "feed" := by
      rintro rfl
      rw [dispatch_feed] at dispatched
      cases dispatched
    obtain ⟨e, member, handled⟩ := List.exists_of_findSome?_eq_some dispatched
    have listed : e ∈ endpoints := by
      rcases List.mem_append.mp member with fixed | other
      · exact (List.mem_filter.mp fixed).1
      · exact (List.mem_filter.mp other).1
    unfold Endpoint.handles at handled
    split at handled
    · obtain ⟨args, matched, same⟩ := Option.map_eq_some_iff.mp handled
      obtain ⟨route, rfl⟩ := Prod.mk.inj same
      rw [only e listed route, segments_articlePath] at matched
      cases parts : split '/' slug.toList with
      | nil =>
        rw [parts] at matched
        cases matched
      | cons part rest =>
        rw [parts] at matched
        cases rest with
        | cons _ _ =>
          simp [matchPath] at matched
        | nil =>
          obtain ⟨free, rfl⟩ := split_singleton.mp parts
          simp only [matchPath, if_true, List.map_cons, List.map_nil, String.ofList_toList] at matched
          split at matched
          · cases matched
          · rename_i nonempty
            exact ⟨⟨nonempty, elsewhere, free⟩, (Option.some.inj matched).symm⟩
    · cases handled
  · rintro ⟨⟨nonempty, elsewhere, free⟩, rfl⟩
    have parts : segments (articlePath slug) = ["api", "articles", slug] := by
      rw [segments_articlePath, split_free free, List.map_singleton, String.ofList_toList]
    simp [dispatch, endpoints, Endpoint.isFixed, Endpoint.handles, parts, matchPath, nonempty, elsewhere]

end RealWorld
