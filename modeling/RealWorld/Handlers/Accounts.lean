import RealWorld.Handlers.Base

/-!
# `users.cpp`, `users_login.cpp`, `user.cpp` and `profiles.cpp`
-/

namespace RealWorld.Handlers
open Schema Transactional

namespace Users.Post

def parseRequest (lib : JsonLib) (data : Value) : Except Exn Dto.RegistrationRequest := do
  let username ← checkSizeOf lib data "username" 2 20
  let password ← checkSizeOf lib data "password" 5 100
  let email ← validateEmail lib data "email"
  return { username := username, password := password, email := email }

def handleRequestJsonThrow (svc : Service) (now : Int) (urandom : Option (List UInt8))
    (request : HttpRequest) : Program Response :=
  validated (do parseRequest svc.json (← Value.member (some request.body) "user")) fun registration => do
    let userId ← alreadyTaken [("uniq_username", "username"), ("uniq_email", "email")] do
      let passwordHash ← lift (generateHash svc.eks urandom registration.password)
      let res ← execute (.addNewUser registration.username registration.email passwordHash)
      let userId ← lift (asSingleRow res)
      return .inr userId
    afterTry userId fun userId =>
      ok (.obj [("user", serializeUser
        { email := registration.email, token := generateToken svc.jwt svc.jwtConfig now userId,
          username := registration.username })])

end Users.Post

namespace UsersLogin.Post

def parseRequest (lib : JsonLib) (data : Value) : Except Exn Dto.LoginRequest := do
  let email ← validateEmail lib data "email"
  let password ← checkSizeOf lib data "password" 5 100
  return { email := email, password := password }

def handleRequestJsonThrow (svc : Service) (now : Int) (request : HttpRequest) : Program Response :=
  validated (do parseRequest svc.json (← Value.member (some request.body) "user")) fun login => do
    let res ← execute (.getUserByEmail login.email)
    if res.isEmpty then .throw (.forbidden "email" "invalid")
    else
      let user ← lift (asSingleRow res)
      if !validatePassword svc.eks login.password user.passwordHash then
        .throw (.forbidden "password" "invalid")
      else
        ok (.obj [("user", serializeUser
          { email := user.email, token := generateToken svc.jwt svc.jwtConfig now user.userId,
            username := user.username, bio := user.bio, image := user.image })])

end UsersLogin.Post

/-- The user object with the token the request came with. -/
def currentUserResponse (auth : UserAuthData) (user : RealworldUser) : Program Response :=
  ok (.obj [("user", serializeUser
    { email := user.email, token := auth.token.token, username := user.username, bio := user.bio,
      image := user.image })])

namespace User.Get

def handleRequestJsonThrow (auth : Option UserAuthData) : Program Response := do
  let user ← lift (getData auth)
  let res ← execute (.getUserById user.id)
  if res.isEmpty then notFound
  else
    let row ← lift (asSingleRow res)
    currentUserResponse user row

end User.Get

namespace User.Put

def checkOptionalEmail (lib : JsonLib) (data : Value) (value : Option String) : Except Exn (Option String) :=
  match value with
  | none => .ok none
  | some _ => some <$> validateEmail lib data "email"

def parseRequest (lib : JsonLib) (data : Value) : Except Exn Dto.UpdateUserRequest := do
  let email ← checkOptionalEmail lib data (← (← data.member "email").asOptionalString)
  let username ← checkOptional (← (← data.member "username").asOptionalString) "username" 2 20
  let password ← checkOptional (← (← data.member "password").asOptionalString) "password" 5 100
  let bio ← checkOptional (← (← data.member "bio").asOptionalString) "bio" 3 65535
  let image ← checkOptional (← (← data.member "image").asOptionalString) "image" 3 255
  if email.isNone && username.isNone && password.isNone && bio.isNone && image.isNone then
    throw (.validation "user" "cannot be empty")
  return { email := email, username := username, password := password, bio := bio, image := image }

def handleRequestJsonThrow (svc : Service) (urandom : Option (List UInt8)) (request : HttpRequest)
    (auth : Option UserAuthData) : Program Response :=
  validated (do parseRequest svc.json (← Value.member (some request.body) "user")) fun update => do
    let user ← lift (getData auth)
    let passwordHash ← match update.password with
      | some password => lift (some <$> generateHash svc.eks urandom password)
      | none => pure none
    let res ← execute (.updateUserById user.id update.username update.email passwordHash update.bio
      update.image)
    if res.isEmpty then notFound
    else
      let row ← lift (asSingleRow res)
      currentUserResponse user row

end User.Put

namespace Profiles.Get

def handleRequestJsonThrow (request : HttpRequest) (auth : Option UserAuthData) : Program Response := do
  let username := request.getPathArg "username"
  let res ← execute (.getProfileByUsername username (auth.map (·.id)))
  if res.isEmpty then notFound
  else
    let profile ← lift (asSingleRow res)
    ok (.obj [("profile", serializeProfile profile)])

end Profiles.Get

/-- The follow and the unfollow handler: the write takes the id the name was resolved to, and the
profile is built from the row read before the write. -/
def markProfile (write : (follower followed : Int) → Sql) (following : Bool) (request : HttpRequest)
    (auth : Option UserAuthData) : Program Response := do
  let username := request.getPathArg "username"
  let res ← execute (.getUserByUsername username)
  if res.isEmpty then notFound
  else
    let user ← lift (asSingleRow res)
    let caller ← lift (getData auth)
    let _ ← execute (write caller.id user.userId)
    ok (.obj [("profile", serializeProfile
      { username := user.username, bio := user.bio, image := user.image, following := following })])

namespace Profiles.Post

def handleRequestJsonThrow : HttpRequest → Option UserAuthData → Program Response :=
  markProfile .follow true

end Profiles.Post

namespace Profiles.Del

def handleRequestJsonThrow : HttpRequest → Option UserAuthData → Program Response :=
  markProfile .unfollow false

end Profiles.Del

end RealWorld.Handlers
