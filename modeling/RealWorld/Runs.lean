import RealWorld.Server

/-!
# Runs

Requests served one after the other from the empty schema, and a small service to run them on.
-/

namespace RealWorld
open Schema Transactional

structure Answered where
  call : Call
  before : Store
  response : Response
  after : Store

/-- What `svc` makes of `call` in `s`. -/
def served (svc : Service) (s : Store) (call : Call) (ms : Nat → Moment) : Answered :=
  ⟨call, s, (respond svc call ms s).1, (respond svc call ms s).2⟩

/-- `Run svc steps s`: the requests `steps`, in this order, lead from the empty schema to `s`. -/
inductive Run (svc : Service) : List Answered → Store → Prop where
  | empty : Run svc [] Store.empty
  | serve {steps : List Answered} {s : Store} (earlier : Run svc steps s) (call : Call)
      (ms : Nat → Moment) : Run svc (steps ++ [served svc s call ms]) (respond svc call ms s).2

theorem Run.served {svc : Service} {steps : List Answered} {s : Store} (earlier : Run svc steps s)
    (call : Call) (ms : Nat → Moment) :
    Run svc (steps ++ [served svc s call ms]) (served svc s call ms).after := earlier.serve call ms

theorem Run.reachable {svc : Service} {steps : List Answered} {s : Store} (h : Run svc steps s) :
    Reachable svc s := by
  induction h with
  | empty => exact reachable_empty svc
  | serve _ call ms ih => exact ih.respond call ms

theorem Run.valid {svc : Service} {steps : List Answered} {s : Store} (h : Run svc steps s) :
    Valid svc.loc s := h.reachable.valid

/-! ### A sample service

ASCII stands for the locale and for ICU, a token is the character of its id, and passwords are not
told apart. -/

def sampleLocale : DbLocale where
  citextLower := toLower
  collateLe a b := decide (a ≤ b)

def sampleIcu : Icu where
  createFromRules := true
  anyLatin := id
  nonspacingMark _ := false
  punctuation c := ['!', '\'', ',', '-', '.', '?'].contains c
  symbol c := ['$', '+', '<', '=', '>'].contains c
  latinAscii := id
  lower := List.map Char.toLower
  separator c := c = ' '

def sampleJwt : JwtLib where
  sign _ _ id := String.ofList [Char.ofNat id.toNat]
  decode text := match text.toList with
    | [c] => some { token := text, expiresAt := none, issuedAt := none, notBefore := none, id := some c.toNat }
    | _ => none
  signedWith _ _ := true

def sample : Service where
  loc := sampleLocale
  json := { hasMemberOfMissing := .ok false, timePoint := fun t => toString t }
  icu := sampleIcu
  jwt := sampleJwt
  jwtConfig := { secretKey := "key", tokenExpirationTime := 3600 }
  eks := { digest := fun _ _ _ => [] }

def sampleMoment : Moment := ⟨0, List.range, fun _ => .refl _⟩

def sampleCall (route : Route) (caller : Int) (pathArgs : List (String × String) := [])
    (body : Json := .null) : Call :=
  { route := route
    request :=
      { authorization := "Token " ++ sampleJwt.sign "" 0 caller, pathArgs := pathArgs, body := body } }

def sampleData (caller : Int) : UserAuthData :=
  { id := caller
    token :=
      { token := sampleJwt.sign "" 0 caller, expiresAt := none, issuedAt := none, notBefore := none,
        id := some caller } }

def sampleRegister (username : String) : Call :=
  { route := .postUsers
    request :=
      { body := .obj [("user", .obj [("username", .str username), ("email", .str (username ++ "@mail.io")),
          ("password", .str "secret")])] }
    urandom := some (List.replicate 16 0) }

def sampleLogin (password : String) : Call :=
  { route := .postUsersLogin
    request :=
      { body := .obj [("user", .obj [("email", .str "anna@mail.io"), ("password", .str password)])] } }

def samplePublish (caller : Int) (title : String) : Call :=
  sampleCall .postArticles caller [] (.obj [("article", .obj [("title", .str title),
    ("description", .str "Example"), ("body", .str "Content"), ("tagList", .arr [.str "news"])])])

def sampleProfile (caller : Int) (fields : List (String × Json)) : Call :=
  sampleCall .putUser caller [] (.obj [("user", .obj fields)])

def sampleServe (calls : List Call) (s : Store) : Store :=
  calls.foldl (fun s call => (respond sample call (fun _ => sampleMoment) s).2) s

theorem sampleServe_reachable {calls : List Call} {s : Store} (h : Reachable sample s) :
    Reachable sample (sampleServe calls s) := by
  unfold sampleServe
  induction calls generalizing s with
  | nil => exact h
  | cons call calls ih => exact ih (h.respond call _)

def sampleSteps : List Call → Store → List Answered
  | [], _ => []
  | call :: calls, s =>
    let step := served sample s call fun _ => sampleMoment
    step :: sampleSteps calls step.after

theorem sampleSteps_run {calls : List Call} {steps : List Answered} {s : Store}
    (earlier : Run sample steps s) : Run sample (steps ++ sampleSteps calls s) (sampleServe calls s) := by
  induction calls generalizing steps s with
  | nil => simpa [sampleSteps, sampleServe] using earlier
  | cons call calls ih =>
    have next := ih (earlier.serve call fun _ => sampleMoment)
    rwa [List.append_assoc, List.singleton_append] at next

def sampleUser (userId : Int) (username : String) : User :=
  { userId := userId, username := username, email := username ++ "@mail.io"
    passwordHash := "$2a$12$......................" }

def sampleArticle : Article :=
  { articleId := 1, title := "Hello there", slug := "hello-there", description := "Example",
    body := "Content", authorId := 1, createdAt := 0, updatedAt := 0 }

/-- Two users, one of whom published an article. -/
def samplePublished : Store :=
  { users := [sampleUser 1 "anna", sampleUser 2 "bert"], articles := [sampleArticle]
    tags := [{ tagId := 1, name := some "news" }], articleTags := [{ articleId := 1, tagId := 1 }]
    usersSeq := 2, articlesSeq := 1, tagsSeq := 1 }

theorem samplePublished_reachable : Reachable sample samplePublished := by
  have served : sampleServe [sampleRegister "anna", sampleRegister "bert",
      samplePublish 1 "Hello there"] Store.empty = samplePublished := by decide +kernel
  exact served ▸ sampleServe_reachable (reachable_empty sample)

/-! ### Sample schedules -/

def sampleStep (client : Nat) : Move Call Moment := .exec client sampleMoment

/-- What the sample service does when its requests are scheduled by `moves`. -/
def sampleSchedule (moves : List (Move Call Moment)) (c : Configuration) :
    List (Event Sql Sql.Res Store) × Configuration :=
  c.perform (Sql.exec sample.loc) (serve sample) moves

theorem sampleSchedule_trace (moves : List (Move Call Moment)) (c : Configuration) :
    Interleaving sample c (sampleSchedule moves c).1 (sampleSchedule moves c).2 :=
  Config.perform_trace _ _ (fun call => ⟨call, rfl⟩) moves c

def sampleSetup : List (Move Call Moment) :=
  [.arrive (sampleRegister "anna"), sampleStep 0, .arrive (sampleRegister "bert"), sampleStep 1,
    .arrive (samplePublish 1 "Hello there"), sampleStep 2, sampleStep 2]

/-- Clients 0, 1 and 2 have registered the two users and published the article of
`samplePublished`. -/
def samplePrepared : Configuration := (sampleSchedule sampleSetup ⟨Store.empty, []⟩).2

/-- Client 3 has just sent `call`. -/
def sampleArrived (call : Call) : Configuration :=
  ⟨samplePrepared.store, samplePrepared.active ++ [serve sample call]⟩

theorem sampleArrived_reachable (call : Call) : ReachableConfig sample (sampleArrived call) := by
  have prepared : Interleaving sample ⟨Store.empty, []⟩ _ samplePrepared :=
    sampleSchedule_trace sampleSetup ⟨Store.empty, []⟩
  have arrival : Interleaving sample samplePrepared [] (sampleArrived call) :=
    .arrive _ ⟨call, rfl⟩ (.refl _)
  exact ⟨_, prepared.append arrival⟩

theorem sampleArrived_active (call : Call) :
    (sampleArrived call).active[3]? = some (serve sample call) := by
  have clients : samplePrepared.active.length = 3 := by decide +kernel
  unfold sampleArrived
  rw [← clients]
  exact List.getElem?_concat_length

end RealWorld
