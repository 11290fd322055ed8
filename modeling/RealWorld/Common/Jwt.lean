import Mathlib.Algebra.Ring.Int.Defs
import RealWorld.Common.Utils

/-!
# `common/jwt.cpp` and `handlers/auth/auth.cpp`

Tokens and the authorization check in front of the handlers. Times of the server clock are
nanoseconds since the epoch; `exp` is kept in whole seconds.
-/

namespace RealWorld

/-- A token whose three parts could be decoded. A claim is `none` when the payload lacks it. -/
structure DecodedToken where
  token : String
  expiresAt : Option Int
  issuedAt : Option Int
  notBefore : Option Int
  id : Option Int
  deriving DecidableEq

/-- The parts of jwt-cpp behind `JWTManager`: building and signing a token of the payload
`{"exp": .., "id": ..}`, parsing a token, and the HS256 signature check. -/
structure JwtLib where
  sign : (key : String) → (exp id : Int) → String
  decode : String → Option DecodedToken
  signedWith : (key : String) → DecodedToken → Bool

structure JWTConfig where
  secretKey : String
  tokenExpirationTime : Int

def nanosPerSecond : Int := 1000000000

def IsInt64 (n : Int) : Prop := -2 ^ 63 ≤ n ∧ n < 2 ^ 63

instance (n : Int) : Decidable (IsInt64 n) := inferInstanceAs (Decidable (_ ∧ _))

/-- What 64 bits keep of a number. -/
def toInt64 (n : Int) : Int := n.bmod (2 ^ 64)

/-- Seconds in the unit of `std::chrono::system_clock`, as `from_time_t` converts them: 64 bits of it. -/
def nanoseconds (seconds : Int) : Int := toInt64 (seconds * nanosPerSecond)

/-- The `exp` claim of a token generated at time `now`. `to_time_t` rounds towards zero. -/
def expirySecond (config : JWTConfig) (now : Int) : Int :=
  (toInt64 (now + nanoseconds config.tokenExpirationTime)).tdiv nanosPerSecond

/-- `JWTManager::GenerateToken` at time `now`. -/
def generateToken (jwt : JwtLib) (config : JWTConfig) (now id : Int) : String :=
  jwt.sign config.secretKey (expirySecond config now) id

/-- The three time claims of a verifier without leeway, each where the token has it. -/
def DecodedToken.inTime (token : DecodedToken) (now : Int) : Bool :=
  token.expiresAt.all (fun exp => now ≤ nanoseconds exp) &&
  token.issuedAt.all (fun iat => nanoseconds iat ≤ now) &&
  token.notBefore.all (fun nbf => nanoseconds nbf ≤ now)

/-- `JWTManager::VerifyToken` at time `now`. -/
def verifyToken (jwt : JwtLib) (config : JWTConfig) (now : Int) (token : DecodedToken) : Bool :=
  jwt.signedWith config.secretKey token && token.inTime now

structure UserAuthData where
  id : Int
  token : DecodedToken
  deriving DecidableEq

/-- `static_cast<std::int32_t>`. -/
def toInt32 (n : Int) : Int := n.bmod (2 ^ 32)

theorem toInt32_of_range {n : Int} (low : -2 ^ 31 ≤ n) (high : n < 2 ^ 31) : toInt32 n = n := by
  unfold toInt32
  rw [Int.bmod_def]
  omega

/-- The outcomes of `CheckAuth`: passed, with the data it attached, or rejected with 401. -/
inductive AuthCheckResult where
  | passed (data : Option UserAuthData)
  | unauthorized (reason : String)

/-- `AuthChecker::CheckAuth` on the value of the Authorization header. The token is read as a C
string, up to a NUL. Reading the id claim is outside the `try`, so a verified token without it makes
an exception escape. -/
def checkAuth (jwt : JwtLib) (config : JWTConfig) (isOptionalAuth : Bool) (now : Int)
    (authValue : String) : Except Exn AuthCheckResult :=
  if authValue.isEmpty then
    if isOptionalAuth then .ok (.passed none) else .ok (.unauthorized "Missing authorization token")
  else
    match authValue.toList.span (· ≠ ' ') with
    | (_, []) => .ok (.unauthorized "Missing authorization token")
    | (scheme, _ :: rest) =>
      if String.ofList scheme ≠ "Token" then .ok (.unauthorized "Missing authorization token")
      else
        let token := String.ofList (rest.takeWhile (· ≠ Char.ofNat 0))
        match jwt.decode token with
        | none => .ok (.unauthorized "Invalid token")
        | some decoded =>
          if verifyToken jwt config now decoded then
            match decoded.id with
            | some id => .ok (.passed (some { id := toInt32 id, token := decoded }))
            | none => .error .runtime
          else .ok (.unauthorized "Invalid token")

end RealWorld
