import RealWorld.Bytes.Words
import RealWorld.Common.JwtCpp
import RealWorld.Common.PicojsonText
import RealWorld.Text.Utf8

/-!
# The text of a token

What the builder writes is decoded to the claims that were set. A token is ASCII, and its signature is the
MAC of the two parts in front of it.
-/

namespace RealWorld.JwtCpp
open Base64 Picojson

/-! ### ASCII -/

def Ascii (bytes : List UInt8) : Prop := ∀ b ∈ bytes, b < 0x80

theorem Ascii.append {bytes bytes' : List UInt8} (ascii : Ascii bytes) (ascii' : Ascii bytes') :
    Ascii (bytes ++ bytes') := by
  intro b member
  exact (List.mem_append.mp member).elim (ascii b) (ascii' b)

theorem Ascii.dot {bytes : List UInt8} (ascii : Ascii bytes) : Ascii (0x2E :: bytes) :=
  List.forall_mem_cons.mpr ⟨by decide, ascii⟩

theorem symbol_ascii : ∀ d : Fin 64, symbol d < 0x80 ∧ symbol d ≠ 0x2E ∧ symbol d ≠ 0 := by decide +kernel

theorem encodeTrimmed_ascii (bin : List UInt8) : Ascii (encodeTrimmed bin) := by
  rw [encodeTrimmed_eq]
  intro b member
  obtain ⟨d, _, rfl⟩ := List.mem_map.mp member
  exact (symbol_ascii d).1

theorem dot_encodeTrimmed (bin : List UInt8) : 0x2E ∉ encodeTrimmed bin := by
  rw [encodeTrimmed_eq]
  intro member
  obtain ⟨d, _, same⟩ := List.mem_map.mp member
  exact (symbol_ascii d).2.1 same

theorem encodeTrimmed_nul (bin : List UInt8) : 0 ∉ encodeTrimmed bin := by
  rw [encodeTrimmed_eq]
  intro member
  obtain ⟨d, _, same⟩ := List.mem_map.mp member
  exact (symbol_ascii d).2.2 same

theorem utf8EncodeChar_ascii {b : UInt8} (ascii : b < 0x80) : String.utf8EncodeChar (Char.ofNat b.toNat) = [b] := by
  have small : b.toNat < 0x80 := ascii
  have code : (Char.ofNat b.toNat).val.toNat = b.toNat := by
    have valid : b.toNat.isValidChar := .inl (by omega)
    rw [Char.ofNat, dif_pos valid]
    rfl
  unfold String.utf8EncodeChar
  simp only [code]
  rw [if_pos (by omega), UInt8.ofNat_toNat]

theorem utf8_asciiText {bytes : List UInt8} (ascii : Ascii bytes) : utf8 (asciiText bytes) = bytes := by
  rw [utf8_toList, asciiText, String.toList_ofList]
  induction bytes with
  | nil => rfl
  | cons b bytes ih =>
    obtain ⟨first, rest⟩ := List.forall_mem_cons.mp ascii
    rw [List.map_cons, List.flatMap_cons, utf8EncodeChar_ascii first, ih rest]
    rfl

theorem asciiText_nul {bytes : List UInt8} (ascii : Ascii bytes) (free : 0 ∉ bytes) :
    Char.ofNat 0 ∉ (asciiText bytes).toList := by
  intro nul
  have zero := utf8_nul nul
  rw [utf8_asciiText ascii] at zero
  exact free zero

/-! ### The three parts -/

theorem splitDot_append {front : List UInt8} (free : 0x2E ∉ front) (rest : List UInt8) :
    splitDot (front ++ 0x2E :: rest) = some (front, rest) := by
  unfold splitDot
  rw [Text.span_split free]

theorem splitDot_some {text front rest : List UInt8} (split : splitDot text = some (front, rest)) :
    text = front ++ 0x2E :: rest := by
  unfold splitDot at split
  rcases Text.span_cases 0x2E text with ⟨_, same⟩ | ⟨front', rest', _, whole, same⟩
  · rw [same] at split
    cases split
  · rw [same] at split
    obtain ⟨rfl, rfl⟩ := Prod.mk.inj (Option.some.inj split)
    exact whole

section
variable {lib : Doubles}

/-- The parts of a token that is decoded. -/
theorem decode_parts {token : List UInt8} {jwt : DecodedJwt lib} (decoded : decode token = some jwt) :
    ∃ signatureBase64, token = jwt.headerBase64 ++ 0x2E :: (jwt.payloadBase64 ++ 0x2E :: signatureBase64) ∧
      decodePadded signatureBase64 = some jwt.signature ∧
      (decodePadded jwt.headerBase64).bind parseClaims = some jwt.headerClaims ∧
      (decodePadded jwt.payloadBase64).bind parseClaims = some jwt.payloadClaims := by
  unfold decode at decoded
  simp only [bind, Option.bind_eq_some_iff, Prod.exists] at decoded
  obtain ⟨headerBase64, rest, first, payloadBase64, signatureBase64, second, header, readHeader, payload,
    readPayload, signature, readSignature, headerClaims, parsedHeader, payloadClaims, parsedPayload, same⟩ := decoded
  obtain rfl := Option.some.inj same
  refine ⟨signatureBase64, ?_, readSignature, ?_, ?_⟩
  · rw [splitDot_some first, splitDot_some second]
  · exact Option.bind_eq_some_iff.mpr ⟨header, readHeader, parsedHeader⟩
  · exact Option.bind_eq_some_iff.mpr ⟨payload, readPayload, parsedPayload⟩

theorem sameSignature_iff {res signature : List UInt8} : sameSignature res signature = true ↔ res = signature := by
  unfold sameSignature
  rw [Bool.and_eq_true_iff, beq_iff_eq, List.all_eq_true]
  simp only [beq_iff_eq]
  constructor
  · rintro ⟨same, sizes⟩
    exact (Bytes.zip_same sizes).mp same
  · rintro rfl
    exact ⟨(Bytes.zip_same rfl).mpr rfl, rfl⟩

theorem idClaim_some {jwt : DecodedJwt lib} {n : Int} (read : idClaim jwt = some n) :
    getClaim "id" jwt.payloadClaims = some (.int64 n) := by
  unfold idClaim at read
  split at read
  · rename_i m claimed
    rw [claimed, Option.some.inj read]
  · cases read

/-! ### The tokens of the service -/

def headerClaims (lib : Doubles) : Claims lib :=
  [(characters "alg", .string (characters "HS256")), (characters "typ", .string (characters "JWT"))]

def payloadClaims (lib : Doubles) (exp id : Int) : Claims lib :=
  [(characters "exp", .int64 exp), (characters "id", .int64 id)]

/-- The part of a token that is signed. -/
def signingInput (lib : Doubles) (exp id : Int) : List UInt8 :=
  encodeTrimmed (Picojson.Value.object (headerClaims lib)).serialize ++
    0x2E :: encodeTrimmed (Picojson.Value.object (payloadClaims lib exp id)).serialize

theorem create_eq (hmac : Hmac) (key : List UInt8) (exp id : Int) :
    create lib hmac key exp id = signingInput lib exp id ++ 0x2E :: encodeTrimmed (hmac key (signingInput lib exp id)) :=
  rfl

theorem signingInput_ascii (exp id : Int) : Ascii (signingInput lib exp id) :=
  (encodeTrimmed_ascii _).append (encodeTrimmed_ascii _).dot

theorem signingInput_nul (exp id : Int) : 0 ∉ signingInput lib exp id := by
  simp [signingInput, encodeTrimmed_nul]

theorem create_ascii (hmac : Hmac) (key : List UInt8) (exp id : Int) : Ascii (create lib hmac key exp id) := by
  rw [create_eq]
  exact (signingInput_ascii exp id).append (encodeTrimmed_ascii _).dot

theorem parseClaims_serialize {claims : Claims lib} (plain : (Picojson.Value.object claims).Plain)
    (shallow : (Picojson.Value.object claims).depth ≤ defaultMaxDepths) :
    parseClaims (Picojson.Value.object claims).serialize = some claims := by
  unfold parseClaims
  rw [parseText_serialize plain, if_pos shallow]

theorem headerClaims_parse : parseClaims (Picojson.Value.object (headerClaims lib)).serialize = some (headerClaims lib) := by
  apply parseClaims_serialize
  · exact ⟨by show List.Pairwise _ [characters "alg", characters "typ"]; decide, trivial, trivial, trivial⟩
  · show (1 : Nat) ≤ 100
    decide

theorem payloadClaims_parse {exp id : Int} (rangeExp : IsInt64 exp) (rangeId : IsInt64 id) :
    parseClaims (Picojson.Value.object (payloadClaims lib exp id)).serialize = some (payloadClaims lib exp id) := by
  apply parseClaims_serialize
  · exact ⟨by show List.Pairwise _ [characters "exp", characters "id"]; decide, rangeExp, rangeId, trivial⟩
  · show (1 : Nat) ≤ 100
    decide

theorem decodePadded_encodeTrimmed (bin : List UInt8) : decodePadded (encodeTrimmed bin) = some bin := by
  apply decodePadded_iff.mpr
  refine ⟨Sextets.digits bin, (Sextets.bytes_digits bin).symm, .inl ⟨encodeTrimmed_eq bin, ?_⟩⟩
  rw [Sextets.length_digits]
  omega

/-- The first two parts of a token of the service, with a signature behind them. -/
def signedJwt (lib : Doubles) (exp id : Int) (signature : List UInt8) : DecodedJwt lib where
  headerBase64 := encodeTrimmed (Picojson.Value.object (headerClaims lib)).serialize
  payloadBase64 := encodeTrimmed (Picojson.Value.object (payloadClaims lib exp id)).serialize
  signature := signature
  headerClaims := headerClaims lib
  payloadClaims := payloadClaims lib exp id

theorem decode_signed {exp id : Int} (rangeExp : IsInt64 exp) (rangeId : IsInt64 id) (base : List UInt8) :
    decode (signingInput lib exp id ++ 0x2E :: base) = (decodePadded base).map (signedJwt lib exp id) := by
  unfold decode
  conv_lhs => rw [signingInput, List.append_assoc, List.cons_append]
  simp only [splitDot_append (dot_encodeTrimmed _), decodePadded_encodeTrimmed, headerClaims_parse,
    payloadClaims_parse rangeExp rangeId, Option.bind_eq_bind, Option.bind_some]
  cases decodePadded base with
  | none => rfl
  | some signature => rfl

/-- A token of the service is decoded to what it was made of. -/
theorem decode_create (hmac : Hmac) (key : List UInt8) {exp id : Int} (rangeExp : IsInt64 exp) (rangeId : IsInt64 id) :
    decode (create lib hmac key exp id) = some (signedJwt lib exp id (hmac key (signingInput lib exp id))) := by
  rw [create_eq, decode_signed rangeExp rangeId, decodePadded_encodeTrimmed]
  rfl

theorem getClaim_alg : getClaim "alg" (headerClaims lib) = some (.string (characters "HS256")) := rfl

end

/-! ### The library -/

section
variable (lib : Doubles) (hmac : Hmac) {key : String} {exp id : Int}

theorem jwtCpp_utf8 : utf8 ((jwtCpp lib hmac).sign key exp id) = create lib hmac (utf8 key) exp id :=
  utf8_asciiText (create_ascii hmac (utf8 key) exp id)

theorem signedJwt_read {text : String} {signature : List UInt8}
    (parsed : decode (utf8 text) = some (signedJwt lib exp id signature)) (key : String) :
    (jwtCpp lib hmac).decode text = some { (jwtCpp lib hmac).signed key exp id with token := text } := by
  show read lib text = _
  unfold read
  rw [parsed]
  rfl

theorem signedJwt_verifies {text : String} {signature : List UInt8}
    (parsed : decode (utf8 text) = some (signedJwt lib exp id signature)) (key : String) :
    verifies lib hmac key text = true ↔ hmac (utf8 key) (signingInput lib exp id) = signature := by
  rw [verifies, parsed]
  simp only [signedWith, signedJwt, getClaim_alg, beq_self_eq_true, Bool.true_and, sameSignature_iff]
  rfl

theorem jwtCpp_checks (key : String) (decoded : DecodedToken) :
    (jwtCpp lib hmac).signedWith key decoded = verifies lib hmac key decoded.token := rfl

theorem jwtCpp_parsed (rangeExp : IsInt64 exp) (rangeId : IsInt64 id) :
    decode (utf8 ((jwtCpp lib hmac).sign key exp id)) =
      some (signedJwt lib exp id (hmac (utf8 key) (signingInput lib exp id))) := by
  rw [jwtCpp_utf8]
  exact decode_create hmac (utf8 key) rangeExp rangeId

theorem jwtCpp_decode (rangeExp : IsInt64 exp) (rangeId : IsInt64 id) :
    (jwtCpp lib hmac).decode ((jwtCpp lib hmac).sign key exp id) = some ((jwtCpp lib hmac).signed key exp id) :=
  signedJwt_read lib hmac (jwtCpp_parsed lib hmac rangeExp rangeId) key

/-- The signature of a token verifies under the keys with the same MAC of it. -/
theorem jwtCpp_signedWith (rangeExp : IsInt64 exp) (rangeId : IsInt64 id) (key' : String) :
    (jwtCpp lib hmac).signedWith key' ((jwtCpp lib hmac).signed key exp id) = true ↔
      hmac (utf8 key') (signingInput lib exp id) = hmac (utf8 key) (signingInput lib exp id) := by
  have token : ((jwtCpp lib hmac).signed key exp id).token = (jwtCpp lib hmac).sign key exp id := rfl
  rw [jwtCpp_checks, token]
  exact signedJwt_verifies lib hmac (jwtCpp_parsed lib hmac rangeExp rangeId) key'

theorem create_nul (key : List UInt8) (exp id : Int) : 0 ∉ create lib hmac key exp id := by
  rw [create_eq]
  simp [encodeTrimmed_nul, signingInput_nul]

theorem jwtCpp_nul (key : String) (exp id : Int) : Char.ofNat 0 ∉ ((jwtCpp lib hmac).sign key exp id).toList :=
  asciiText_nul (create_ascii hmac (utf8 key) exp id) (create_nul lib hmac (utf8 key) exp id)

theorem read_some {token : String} {decoded : DecodedToken} (found : read lib token = some decoded) :
    ∃ jwt : DecodedJwt lib, decode (utf8 token) = some jwt ∧ decoded.token = token ∧
      dateClaim "exp" jwt = some decoded.expiresAt ∧ dateClaim "iat" jwt = some decoded.issuedAt ∧
      dateClaim "nbf" jwt = some decoded.notBefore ∧ decoded.id = idClaim jwt := by
  unfold read at found
  simp only [bind, Option.bind_eq_some_iff] at found
  obtain ⟨jwt, parsed, exp, expires, iat, issued, nbf, starts, same⟩ := found
  obtain rfl := Option.some.inj same
  exact ⟨jwt, parsed, rfl, expires, issued, starts, rfl⟩

theorem jwtCpp_lawful (key : String) : (jwtCpp lib hmac).Lawful key where
  decode_sign _ _ rangeExp rangeId := jwtCpp_decode lib hmac rangeExp rangeId
  signedWith_sign _ _ rangeExp rangeId := (jwtCpp_signedWith lib hmac rangeExp rangeId key).mpr rfl
  no_nul := jwtCpp_nul lib hmac key
  decode_token text decoded found := by
    obtain ⟨_, _, same, _⟩ := read_some lib found
    exact same

/-- What verifies carries the algorithm and the MAC of its own first two parts. -/
theorem verifies_mac {text : String} {jwt : DecodedJwt lib} (parsed : decode (utf8 text) = some jwt)
    (verified : verifies lib hmac key text = true) :
    ∃ signatureBase64, utf8 text = jwt.headerBase64 ++ 0x2E :: (jwt.payloadBase64 ++ 0x2E :: signatureBase64) ∧
      decodePadded signatureBase64 = some (hmac (utf8 key) (jwt.headerBase64 ++ 0x2E :: jwt.payloadBase64)) ∧
      getClaim "alg" jwt.headerClaims = some (.string (characters "HS256")) := by
  obtain ⟨signatureBase64, parts, signature, _⟩ := decode_parts parsed
  unfold verifies at verified
  rw [parsed] at verified
  simp only [signedWith] at verified
  split at verified
  · rename_i alg named
    obtain ⟨algorithm, same⟩ := Bool.and_eq_true_iff.mp verified
    rw [sameSignature_iff] at same
    rw [← same] at signature
    rw [beq_iff_eq.mp algorithm] at named
    exact ⟨signatureBase64, parts, signature, named⟩
  · cases verified

/-! ### The signature of a token -/

/-- The check of what `GenerateToken` signs, with any text as the signature. -/
theorem checkToken_input {config : JWTConfig} {text : String} {base : List UInt8} (rangeExp : IsInt64 exp)
    (rangeId : IsInt64 id) (bytes : utf8 text = signingInput lib exp id ++ 0x2E :: base) (now : Int) :
    checkToken (jwtCpp lib hmac) config now text =
      .ok (if decodePadded base = some (hmac (utf8 config.secretKey) (signingInput lib exp id)) ∧ now ≤ nanoseconds exp then
        .passed (some ⟨toInt32 id, { (jwtCpp lib hmac).signed config.secretKey exp id with token := text }⟩)
      else .unauthorized "Invalid token") := by
  have parsed := @decode_signed lib exp id rangeExp rangeId base
  rw [← bytes] at parsed
  cases found : decodePadded base with
  | none =>
    rw [found] at parsed
    have unread : (jwtCpp lib hmac).decode text = none := by
      show read lib text = none
      rw [read, parsed]
      rfl
    have unsigned : ¬ (none = some (hmac (utf8 config.secretKey) (signingInput lib exp id)) ∧ now ≤ nanoseconds exp) := by
      intro both
      cases both.1
    rw [checkToken, unread, if_neg unsigned]
  | some mac =>
    rw [found] at parsed
    have decoded := signedJwt_read lib hmac parsed config.secretKey
    have signature := signedJwt_verifies lib hmac parsed config.secretKey
    have verified : verifyToken (jwtCpp lib hmac) config now
        { (jwtCpp lib hmac).signed config.secretKey exp id with token := text } = true ↔
          some mac = some (hmac (utf8 config.secretKey) (signingInput lib exp id)) ∧ now ≤ nanoseconds exp := by
      rw [verifyToken, Bool.and_eq_true, jwtCpp_checks, signature, Option.some_inj, eq_comm]
      simp [JwtLib.signed, DecodedToken.inTime]
    rw [checkToken, decoded]
    simp only [verified]
    split <;> rfl

/-- `text` is `token` but for the two bits of its last digit that are of no byte. -/
def SameToken (token text : String) : Prop :=
  ∃ (front : List UInt8) (d : Fin 16) (low : Fin 4),
    utf8 token = front ++ [symbol (4 * d)] ∧ utf8 text = front ++ [symbol (4 * d + low)]

theorem SameToken.no_nul {text : String} (same : SameToken ((jwtCpp lib hmac).sign key exp id) text) :
    Char.ofNat 0 ∉ text.toList := by
  obtain ⟨front, d, low, token, here⟩ := same
  have clean := create_nul lib hmac (utf8 key) exp id
  rw [← jwtCpp_utf8, token, List.mem_append, not_or] at clean
  intro nul
  have zero := utf8_nul nul
  rw [here, List.mem_append] at zero
  refine zero.elim clean.1 fun last => ?_
  exact (symbol_ascii ⟨4 * d + low, by omega⟩).2.2 (List.mem_singleton.mp last).symm

theorem symbol_high : ∀ d d' : Fin 16, symbol (4 * d) = symbol (4 * d') → d = d' := by decide +kernel

section
variable (size : (hmac (utf8 key) (signingInput lib exp id)).length = 32)
include size

theorem sameToken_iff {text : String} {base : List UInt8}
    (bytes : utf8 text = signingInput lib exp id ++ 0x2E :: base) :
    SameToken ((jwtCpp lib hmac).sign key exp id) text ↔
      decodePadded base = some (hmac (utf8 key) (signingInput lib exp id)) := by
  obtain ⟨front, d, issued, texts⟩ := decodePadded_texts
    (show (hmac (utf8 key) (signingInput lib exp id)).length % 3 = 2 by rw [size])
  have token : utf8 ((jwtCpp lib hmac).sign key exp id) =
      signingInput lib exp id ++ 0x2E :: front ++ [symbol (4 * d)] := by
    rw [jwtCpp_utf8, create_eq, issued, List.append_assoc]
    rfl
  rw [texts]
  unfold SameToken
  rw [token, bytes]
  constructor
  · rintro ⟨front', d', low, same, here⟩
    obtain ⟨rfl, last⟩ := List.append_inj' same rfl
    have digit := symbol_high d d' (List.singleton_inj.mp last)
    have whole : 0x2E :: base = 0x2E :: (front ++ [symbol (4 * d' + low)]) := by
      rw [List.append_assoc, List.append_cancel_left_eq] at here
      exact here
    exact ⟨low, digit ▸ (List.cons_inj_right _).mp whole⟩
  · rintro ⟨low, rfl⟩
    refine ⟨_, d, low, rfl, ?_⟩
    rw [List.append_assoc]
    rfl

theorem SameToken.input {text : String} (same : SameToken ((jwtCpp lib hmac).sign key exp id) text) :
    ∃ base, utf8 text = signingInput lib exp id ++ 0x2E :: base := by
  obtain ⟨front, d, issued, _⟩ := decodePadded_texts
    (show (hmac (utf8 key) (signingInput lib exp id)).length % 3 = 2 by rw [size])
  obtain ⟨front', d', low, token, here⟩ := same
  rw [jwtCpp_utf8, create_eq, issued, ← List.cons_append, ← List.append_assoc] at token
  obtain ⟨rfl, _⟩ := List.append_inj' token rfl
  exact ⟨front ++ [symbol (4 * d' + low)], by rw [here, List.append_assoc, List.cons_append]⟩

end

end

end RealWorld.JwtCpp

namespace RealWorld

/-- A library without doubles, and the MAC under the key `secret` of the token for the id 1 that expires at 3600. -/
def sampleDoubles : Picojson.Doubles := ⟨Unit, fun _ => none, fun _ => 0, fun _ => []⟩

def sampleHmac : JwtCpp.Hmac := fun _ _ =>
  [0xC6, 0x6E, 0x27, 0x9C, 0x6D, 0x70, 0x96, 0x59, 0x2B, 0x88, 0xF6, 0x26, 0x81, 0xB5, 0x8F, 0x4F,
   0x83, 0xEA, 0x2F, 0xC7, 0x7C, 0x85, 0xEA, 0x38, 0x4A, 0xDE, 0x2A, 0xE5, 0x9E, 0x20, 0x4D, 0x15]

def sampleJwtConfig : JWTConfig := ⟨"secret", 3600⟩

end RealWorld
