import RealWorld.Handlers.Lists
import RealWorld.Runs

/-!
# The pages of the list of articles

`GET /api/articles` sorts by `created_at` alone. Articles of one moment come in any order, anew for each
page.
-/

namespace RealWorld
open Schema Relational Transactional

/-- The slugs of the articles a response shows. -/
def Json.slug : Json → Option String
  | .obj members =>
    match members.lookup "slug" with
    | some (.str slug) => some slug
    | _ => none
  | _ => none

def Response.slugs (r : Response) : List String :=
  match r.body with
  | .obj members =>
    match members.lookup "articles" with
    | some (.arr articles) => articles.filterMap Json.slug
    | _ => []
  | _ => []

/-- Requests for one page each, with `limit = n`, the offsets `0`, `n`, `2 * n` and so on as far as an
`std::int32_t` goes, and the same filters, that pass the authorization check. -/
structure PageRequests (svc : Service) (filters : Dto.ArticlesListRequest) (n : Nat) (calls : Nat → Call) : Prop where
  route : ∀ k, (calls k).route = .getArticles
  authorized : ∀ k, ∃ auth, serve svc (calls k) = handler svc (calls k) auth
  parsed : ∀ k, (k * n : Nat) ≤ maxInt → Handlers.Articles.Get.parseRequest (calls k).request =
    .ok { filters with limit := some n, offset := some (k * n : Nat) }

/-- However PostgreSQL arranges what `ORDER BY` leaves open on each page, enough pages can be asked for, and any
number of pages that have room for all matching articles answer, and show each of these once and nothing else. -/
def PagesPartition (svc : Service) (s : Store) (filters : Dto.ArticlesListRequest) (n : Nat) (calls : Nat → Call) : Prop :=
  (∃ K, (matching svc.loc s.toTables filters).length ≤ K * n ∧ ∀ k < K, (k * n : Nat) ≤ maxInt) ∧
  ∀ (ms : Nat → Nat → Moment) (K : Nat), (matching svc.loc s.toTables filters).length ≤ K * n →
    (∀ k < K, (k * n : Nat) ≤ maxInt) →
    (∀ k < K, (respond svc (calls k) (ms k) s).1.success) ∧
      ((List.range K).flatMap fun k => (respond svc (calls k) (ms k) s).1.slugs).Perm
        ((matching svc.loc s.toTables filters).map (·.slug))

section
variable {svc : Service} {s : Store} {filters : Dto.ArticlesListRequest} {n k : Nat} {calls : Nat → Call} {ms : Nat → Moment}

theorem Response.Shows.slugs {t : Tables} {viewer : Option Int} {favoritesCount : Article → Int} {rows : List Article}
    {response : Response} (shows : response.Shows svc t viewer favoritesCount rows) :
    response.slugs = rows.map (·.slug) := by
  obtain ⟨author, _, rfl⟩ := shows
  show ((rows.map _).map fun model => serializeArticle svc.json (Dto.Article.parse model)).filterMap Json.slug = _
  rw [List.map_map, List.filterMap_map]
  exact congrFun List.filterMap_eq_map rows

theorem ListRequest.page {call : Call} {ms : Nat → Moment} (h : Constraints svc.loc s.toTables)
    (request : ListRequest svc call filters) (texts : filters.texts.all storable) (limit : filters.limit.getD 20 = n)
    (offset : filters.offset.getD 0 = (k * n : Nat)) :
    AnswersPage svc call ms s ((call.caller svc).map (·.id)) (favoritesCounts s.toTables)
      (page n k (listedArticles svc.loc (ms 0) s.toTables filters)) := by
  have answers := request.answersPage h texts (limit ▸ Int.natCast_nonneg n) (offset ▸ Int.natCast_nonneg (k * n)) ms
  rw [limit, offset] at answers
  exact answers

/-- A page with room for all matching articles shows exactly these. -/
theorem ListRequest.shows_matching {call : Call} {ms : Nat → Moment} (valid : Valid svc.loc s)
    (request : ListRequest svc call filters) (texts : filters.texts.all storable) (start : filters.offset.getD 0 = 0)
    (room : ((matching svc.loc s.toTables filters).length : Int) ≤ filters.limit.getD 20) :
    (respond svc call ms s).1.success ∧ ∀ a ∈ s.articles,
      a.slug ∈ (respond svc call ms s).1.slugs ↔ a.Matches svc.loc s.toTables filters := by
  have listed := @listedArticles_ordered svc.loc (ms 0) s.toTables filters valid.toConstraints
  obtain ⟨n, limit⟩ := Int.eq_ofNat_of_zero_le ((Int.natCast_nonneg _).trans room)
  have whole : Relational.page n 0 (listedArticles svc.loc (ms 0) s.toTables filters) =
      listedArticles svc.loc (ms 0) s.toTables filters := by
    unfold Relational.page
    rw [Nat.zero_mul, List.drop_zero, List.take_of_length_le]
    rw [listed.perm.length_eq]
    omega
  obtain ⟨shown, _⟩ := request.page (k := 0) valid.toConstraints texts limit (by rw [start, Nat.zero_mul]; rfl)
  have shows := shown fun a _ => tagsNamed_of valid.named
  refine ⟨shows.success, fun a member => ?_⟩
  rw [shows.slugs, whole, (listed.perm.map _).mem_iff, List.mem_map]
  unfold matching
  constructor
  · rintro ⟨b, found, same⟩
    obtain ⟨stored, hit⟩ := List.mem_filter.mp found
    rw [← key_inj valid.uniq_slug stored member same]
    exact of_decide_eq_true hit
  · exact fun hit => ⟨a, List.mem_filter.mpr ⟨member, decide_eq_true hit⟩, rfl⟩

theorem PageRequests.list (pages : PageRequests svc filters n calls) (fits : (k * n : Nat) ≤ maxInt) :
    ListRequest svc (calls k) { filters with limit := some n, offset := some (k * n : Nat) } :=
  ⟨pages.route k, pages.authorized k, pages.parsed k fits⟩

theorem PageRequests.page (h : Constraints svc.loc s.toTables) (pages : PageRequests svc filters n calls)
    (texts : filters.texts.all storable) (fits : (k * n : Nat) ≤ maxInt) :
    AnswersPage svc (calls k) ms s (((calls k).caller svc).map (·.id)) (favoritesCounts s.toTables)
      (page n k (listedArticles svc.loc (ms 0) s.toTables filters)) := by
  have answers := @ListRequest.page svc s _ n k (calls k) ms h (pages.list fits) texts rfl rfl
  exact answers

theorem PageRequests.refused (pages : PageRequests svc filters n calls) (texts : ¬ filters.texts.all storable)
    (fits : (k * n : Nat) ≤ maxInt) : ¬ (respond svc (calls k) ms s).1.success := by
  rw [(pages.list fits).unsent texts]
  exact nofun

theorem perm_matching (h : Constraints svc.loc s.toTables) {listed : List Article} (stored : ∀ a ∈ listed, a ∈ s.articles)
    (perm : (listed.map (·.slug)).Perm ((matching svc.loc s.toTables filters).map (·.slug))) :
    listed.Perm (matching svc.loc s.toTables filters) := by
  have distinct := perm.nodup_iff.mpr (matching_slugs h)
  refine (List.perm_ext_iff_of_nodup (distinct.of_map _) (matching_nodup h)).mpr fun a => ?_
  have slugs := perm.mem_iff (a := a.slug)
  rw [List.mem_map, List.mem_map] at slugs
  have same : ∀ {b}, b ∈ s.articles → a ∈ s.articles → b.slug = a.slug → b = a :=
    fun left right => key_inj h.uniq_slug left right
  constructor
  · intro member
    obtain ⟨b, found, named⟩ := slugs.mp ⟨a, member, rfl⟩
    exact same (List.mem_filter.mp found).1 (stored a member) named ▸ found
  · intro member
    obtain ⟨b, found, named⟩ := slugs.mpr ⟨a, member, rfl⟩
    exact same (stored b found) (List.mem_filter.mp member).1 named ▸ found

/-- The pages with an offset that an `std::int32_t` holds have room for `length` articles. -/
def Reaches (n length : Nat) : Prop := length ≤ (maxInt.toNat / n + 1) * n

instance (n length : Nat) : Decidable (Reaches n length) := Nat.decLe _ _

theorem reaches_iff (positive : 0 < n) {length : Nat} :
    (∃ K, length ≤ K * n ∧ ∀ k < K, ((k * n : Nat) : Int) ≤ maxInt) ↔ Reaches n length := by
  have fits_iff : ∀ k, ((k * n : Nat) : Int) ≤ maxInt ↔ k ≤ maxInt.toNat / n := by
    intro k
    rw [Nat.le_div_iff_mul_le positive]
    have range : (0 : Int) ≤ maxInt := by decide
    omega
  constructor
  · rintro ⟨K, enough, fits⟩
    refine enough.trans (Nat.mul_le_mul_right n ?_)
    cases K with
    | zero => exact Nat.zero_le _
    | succ K => exact Nat.succ_le_succ ((fits_iff K).mp (fits K (Nat.lt_succ_self K)))
  · exact fun room => ⟨_, room, fun k below => (fits_iff k).mpr (Nat.le_of_lt_succ below)⟩

/-- In a store that requests lead to there are no more articles than ids. -/
theorem Schema.Valid.reaches (valid : Valid svc.loc s) (positive : 0 < n) :
    Reaches n (matching svc.loc s.toTables filters).length := by
  have fewer : (matching svc.loc s.toTables filters).length ≤ s.articles.length := List.length_filter_le _ _
  have all := valid.articles_length
  have next : maxInt.toNat < (maxInt.toNat / n + 1) * n := Nat.lt_mul_of_div_lt (Nat.lt_succ_self _) positive
  have range : (0 : Int) ≤ maxInt := by decide
  unfold Reaches
  omega

/-! ### When the pages are a partition -/

section
variable (partition : PagesPartition svc s filters n calls) (pages : PageRequests svc filters n calls)
include partition pages

theorem PagesPartition.storable : filters.texts.all storable := by
  obtain ⟨⟨K, enough, fits⟩, each⟩ := partition
  -- the first page can be asked for, also where nothing matches
  have room : (matching svc.loc s.toTables filters).length ≤ (K + 1) * n := enough.trans (Nat.mul_le_mul_right n (Nat.le_succ K))
  by_contra refused
  have start : ((0 * n : Nat) : Int) ≤ maxInt := by
    rw [Nat.zero_mul]
    decide
  cases K with
  | zero =>
    have only : ∀ k < 1, ((k * n : Nat) : Int) ≤ maxInt := fun k below => Nat.lt_one_iff.mp below ▸ start
    exact pages.refused refused start ((each (fun _ _ => sampleMoment) 1 room only).1 0 Nat.one_pos)
  | succ K =>
    exact pages.refused refused start ((each (fun _ _ => sampleMoment) _ enough fits).1 0 (Nat.succ_pos K))

variable (h : Constraints svc.loc s.toTables) (positive : 0 < n)
include h positive

/-- Every matching article comes on a page, and a page with a tag that has no name is refused. -/
theorem PagesPartition.named : ∀ a ∈ matching svc.loc s.toTables filters, TagsNamed s.toTables a := by
  intro a member
  have texts := partition.storable pages
  obtain ⟨⟨K, enough, fits⟩, each⟩ := partition
  have ordered := @listedArticles_ordered svc.loc sampleMoment s.toTables filters h
  obtain ⟨i, here⟩ := List.mem_iff_getElem?.mp (ordered.perm.mem_iff.mpr member)
  obtain ⟨bound, _⟩ := List.getElem?_eq_some_iff.mp here
  rw [ordered.perm.length_eq] at bound
  have below : i / n < K := Nat.div_lt_of_lt_mul (Nat.mul_comm K n ▸ bound.trans_le enough)
  have answers : AnswersPage svc (calls (i / n)) (fun _ => sampleMoment) s _ _ _ := pages.page h texts (fits _ below)
  obtain ⟨_, failed, _⟩ := answers
  by_contra unnamed
  have success := (each (fun _ _ => sampleMoment) K enough fits).1 _ below
  rw [failed ⟨a, (mem_page positive).mpr ⟨i, here, rfl⟩, unnamed⟩] at success
  cases success

theorem PagesPartition.unsplit : Unsplit (·.createdAt) n (matching svc.loc s.toTables filters) := by
  have texts := partition.storable pages
  have named := partition.named pages h positive
  obtain ⟨⟨K, enough, fits⟩, each⟩ := partition
  refine unsplit_of_pages positive (matching_nodup h) enough fun sorted ordered => ?_
  choose m listed using fun k => exists_listedArticles h (ordered k)
  have shown := (each (fun k _ => m k) _ enough fits).2
  have onPage : ∀ {k a}, a ∈ page n k (sorted k) → a ∈ matching svc.loc s.toTables filters := fun {k a} here =>
    (ordered k).perm.mem_iff.mp ((List.drop_sublist _ _).subset ((List.take_sublist _ _).subset here))
  refine perm_matching h ?_ ?_
  · intro a member
    obtain ⟨k, _, here⟩ := List.mem_flatMap.mp member
    exact (List.mem_filter.mp (onPage here)).1
  · rw [List.map_flatMap]
    refine .trans (.of_eq (List.flatMap_congr fun k member => ?_)) shown
    have answers : AnswersPage svc (calls k) (fun _ => m k) s _ _ _ := pages.page h texts (fits k (List.mem_range.mp member))
    obtain ⟨shows, _⟩ := answers
    rw [listed] at shows
    exact (shows fun a here => named a (onPage here)).slugs.symm

end

theorem PageRequests.partition (h : Constraints svc.loc s.toTables) (positive : 0 < n)
    (pages : PageRequests svc filters n calls) (texts : filters.texts.all Schema.storable)
    (reaches : Reaches n (matching svc.loc s.toTables filters).length)
    (named : ∀ a ∈ matching svc.loc s.toTables filters, TagsNamed s.toTables a)
    (unsplit : Unsplit (·.createdAt) n (matching svc.loc s.toTables filters)) :
    PagesPartition svc s filters n calls := by
  refine ⟨(reaches_iff positive).mpr reaches, fun ms K enough fits => ?_⟩
  have shown : ∀ k < K, (respond svc (calls k) (ms k) s).1.Shows svc s.toTables (((calls k).caller svc).map (·.id))
      (favoritesCounts s.toTables) (Relational.page n k (listedArticles svc.loc (ms k 0) s.toTables filters)) := by
    intro k below
    refine (pages.page h texts (fits k below)).1 fun a member => named a ?_
    have whole := (List.drop_sublist _ _).subset ((List.take_sublist _ _).subset member)
    exact (listedArticles_ordered h).perm.mem_iff.mp whole
  refine ⟨fun k below => (shown k below).success, ?_⟩
  have each : ∀ k ∈ List.range K, (respond svc (calls k) (ms k) s).1.slugs =
      (Relational.page n k (listedArticles svc.loc (ms k 0) s.toTables filters)).map (·.slug) := fun k member =>
    (shown k (List.mem_range.mp member)).slugs
  rw [List.flatMap_congr each, ← List.map_flatMap]
  exact (unsplit.pages positive (matching_nodup h) enough fun k => listedArticles_ordered h).map _

/-- The pages partition the matching articles exactly when all filters are texts PostgreSQL can hold, no matching
article has a tag without a name, the offsets reach them all and those of any one moment are on one page. -/
theorem pages_partition_iff (h : Constraints svc.loc s.toTables) (positive : 0 < n)
    (pages : PageRequests svc filters n calls) :
    PagesPartition svc s filters n calls ↔
      filters.texts.all storable ∧ (∀ a ∈ matching svc.loc s.toTables filters, TagsNamed s.toTables a) ∧
        Reaches n (matching svc.loc s.toTables filters).length ∧
        Unsplit (·.createdAt) n (matching svc.loc s.toTables filters) := by
  constructor
  · intro partition
    exact ⟨partition.storable pages, partition.named pages h positive, (reaches_iff positive).mp partition.1,
      partition.unsplit pages h positive⟩
  · rintro ⟨texts, named, reaches, unsplit⟩
    exact pages.partition h positive texts reaches named unsplit

end

/-- Two articles of one moment. -/
def sampleTied : Store := sampleServe [samplePublish 2 "Good bye"] samplePublished

theorem sampleTied_reachable : Reachable sample sampleTied := sampleServe_reachable samplePublished_reachable

/-- `GET /api/articles?limit=n&offset=k*n`. -/
def samplePage (n k : Nat) : Call :=
  { route := .getArticles, request := { args := [("limit", n.repr), ("offset", (k * n).repr)] } }

theorem samplePage_requests {n : Nat} (fits : n ≤ 2147483647) : PageRequests sample unfiltered n (samplePage n) where
  route _ := rfl
  authorized _ := ⟨none, rfl⟩
  parsed k offset := by
    have range : k * n ≤ 2147483647 := Int.ofNat_le.mp offset
    have limit : Handlers.int32Arg (samplePage n k).request "limit" = .ok (some n) :=
      congrArg (some <$> ·) (lexicalCastInt32_repr fits)
    have offset : Handlers.int32Arg (samplePage n k).request "offset" = .ok (some (k * n : Nat)) :=
      congrArg (some <$> ·) (lexicalCastInt32_repr range)
    unfold Handlers.Articles.Get.parseRequest
    rw [limit, offset]
    rfl

theorem pages_partition_sample : PagesPartition sample sampleTied unfiltered 2 (samplePage 2) :=
  (pages_partition_iff sampleTied_reachable.valid.toConstraints (by decide) (samplePage_requests (by decide))).mpr
    ⟨by decide, fun _ _ => tagsNamed_of sampleTied_reachable.valid.named, sampleTied_reachable.valid.reaches (by decide),
      by decide +kernel⟩

def sampleReversed : Moment := ⟨0, fun n => (List.range n).reverse, fun _ => List.reverse_perm _⟩

/-- One at a time, the first article is shown twice and the second never. -/
theorem pages_repeat : Reachable sample sampleTied ∧ PageRequests sample unfiltered 1 (samplePage 1) ∧
    ¬ PagesPartition sample sampleTied unfiltered 1 (samplePage 1) := by
  refine ⟨sampleTied_reachable, samplePage_requests (by decide), fun partition => ?_⟩
  let ms : Nat → Nat → Moment := fun k _ => if k = 0 then sampleMoment else sampleReversed
  have shown := (partition.2 ms 2 (by decide +kernel) (by decide)).2
  have twice : ((List.range 2).flatMap fun k => (respond sample (samplePage 1 k) (ms k) sampleTied).1.slugs) =
      ["hello-there", "hello-there"] := by decide +kernel
  rw [twice] at shown
  exact absurd shown (by decide +kernel)

end RealWorld
