import RealWorld.Common.Base64
import RealWorld.Common.Picojson

/-!
# `jwt-cpp/jwt.h`

The builder, the decoder and the verifier behind `JWTManager`, with HS256 as the one algorithm. The MAC
itself is left to OpenSSL.
-/

namespace RealWorld.JwtCpp
open Base64 Picojson

abbrev Claims (lib : Doubles) := List (List UInt8 × Picojson.Value lib)

/-- `HMAC` with SHA-256: the key and the data. -/
abbrev Hmac := List UInt8 → List UInt8 → List UInt8

section
variable {lib : Doubles}

def getClaim (name : String) (claims : Claims lib) : Option (Picojson.Value lib) :=
  (claims.find? fun claim => claim.1 = characters name).map (·.2)

def setClaim (name : String) (v : Picojson.Value lib) (claims : Claims lib) : Claims lib :=
  setMember (characters name) v claims

/-- `map_of_claims::parse_claims`. -/
def parseClaims (text : List UInt8) : Option (Claims lib) :=
  match parseText text with
  | some (.object members) => some members
  | _ => none

/-! ### `decoded_jwt` -/

structure DecodedJwt (lib : Doubles) where
  headerBase64 : List UInt8
  payloadBase64 : List UInt8
  signature : List UInt8
  headerClaims : Claims lib
  payloadClaims : Claims lib

/-- The text in front of the first dot and the text behind it. -/
def splitDot (text : List UInt8) : Option (List UInt8 × List UInt8) :=
  match text.span (· ≠ 0x2E) with
  | (front, _ :: rest) => some (front, rest)
  | (_, []) => none

def decode (token : List UInt8) : Option (DecodedJwt lib) := do
  let (headerBase64, rest) ← splitDot token
  let (payloadBase64, signatureBase64) ← splitDot rest
  let header ← decodePadded headerBase64
  let payload ← decodePadded payloadBase64
  let signature ← decodePadded signatureBase64
  return {
    headerBase64 := headerBase64
    payloadBase64 := payloadBase64
    signature := signature
    headerClaims := ← parseClaims header
    payloadClaims := ← parseClaims payload }

/-! ### `builder` -/

def sign (hmac : Hmac) (key : List UInt8) (headerClaims payloadClaims : Claims lib) : List UInt8 :=
  let header := match getClaim "alg" headerClaims with
    | some _ => headerClaims
    | none => setClaim "alg" (.string (characters "HS256")) headerClaims
  let token := encodeTrimmed (Picojson.Value.object header).serialize ++
    0x2E :: encodeTrimmed (Picojson.Value.object payloadClaims).serialize
  token ++ 0x2E :: encodeTrimmed (hmac key token)

/-- The token `JWTManager::GenerateToken` builds. -/
def create (lib : Doubles) (hmac : Hmac) (key : List UInt8) (exp id : Int) : List UInt8 :=
  let headerClaims : Claims lib := setClaim "typ" (.string (characters "JWT")) []
  let payloadClaims : Claims lib := setClaim "id" (.int64 id) (setClaim "exp" (.int64 exp) [])
  sign hmac key headerClaims payloadClaims

/-! ### `verifier` -/

/-- `hmacsha::verify`: all characters both have are compared, then the sizes. -/
def sameSignature (res signature : List UInt8) : Bool :=
  (res.zip signature).all (fun c => c.1 == c.2) && res.length == signature.length

/-- The algorithm and the signature. `get_algorithm` throws where there is none. -/
def signedWith (hmac : Hmac) (key : List UInt8) (jwt : DecodedJwt lib) : Bool :=
  match getClaim "alg" jwt.headerClaims with
  | some (.string alg) =>
    alg == characters "HS256" && sameSignature (hmac key (jwt.headerBase64 ++ 0x2E :: jwt.payloadBase64)) jwt.signature
  | _ => false

/-- `basic_claim::as_date` in seconds. -/
def asDate : Picojson.Value lib → Option Int
  | .number f => some (lib.round f)
  | .int64 n => some n
  | _ => none

/-- A date claim: absent, or a date. Anything else throws. -/
def dateClaim (name : String) (jwt : DecodedJwt lib) : Option (Option Int) :=
  match getClaim name jwt.payloadClaims with
  | none => some none
  | some v => (asDate v).map some

/-- `get_payload_claim("id").as_integer()`. -/
def idClaim (jwt : DecodedJwt lib) : Option Int :=
  match getClaim "id" jwt.payloadClaims with
  | some (.int64 n) => some n
  | _ => none

end

/-- The token with the claims the service reads. Without three dates or their absence the verifier
throws, and the token is refused as one that cannot be decoded. -/
def read (lib : Doubles) (text : String) : Option DecodedToken := do
  let jwt : DecodedJwt lib ← decode (utf8 text)
  return {
    token := text
    expiresAt := ← dateClaim "exp" jwt
    issuedAt := ← dateClaim "iat" jwt
    notBefore := ← dateClaim "nbf" jwt
    id := idClaim jwt }

def verifies (lib : Doubles) (hmac : Hmac) (key text : String) : Bool :=
  match (decode (utf8 text) : Option (DecodedJwt lib)) with
  | some jwt => signedWith hmac (utf8 key) jwt
  | none => false

def asciiText (bytes : List UInt8) : String := String.ofList (bytes.map fun b => Char.ofNat b.toNat)

end RealWorld.JwtCpp

namespace RealWorld

/-- The library itself. -/
def jwtCpp (lib : Picojson.Doubles) (hmac : JwtCpp.Hmac) : JwtLib where
  sign key exp id := JwtCpp.asciiText (JwtCpp.create lib hmac (utf8 key) exp id)
  decode text := JwtCpp.read lib text
  signedWith key decoded := JwtCpp.verifies lib hmac key decoded.token

end RealWorld
