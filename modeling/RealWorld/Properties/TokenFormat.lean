import RealWorld.Common.JwtText
import RealWorld.Common.PicojsonGrammar

/-!
# Tokens as `jwt-cpp` writes and reads them

The encodings of a token are read back, the tokens of the service pass the authorization check until they
expire, and nothing passes it without the MAC of what it says.
-/

namespace RealWorld
open Picojson

/-- Base64url: encoding is undone with fills and without. Decoding accepts digits in all lengths but those
of one more than whole groups, and two explicit fills after two digits of a last group. -/
theorem base64url_codec (bin base : List UInt8) :
    Base64.decode (Base64.encode bin) = some bin ∧
      Base64.decodePadded (Base64.encodeTrimmed bin) = some bin ∧
      ∀ out, Base64.decodePadded base = some out ↔
        ∃ ds, out = Sextets.bytes ds ∧ (base = Base64.symbols ds ∧ ds.length % 4 ≠ 1 ∨
          base = Base64.symbols ds ++ Base64.padding 2 ∧ ds.length % 4 = 2) := by
  refine ⟨?_, JwtCpp.decodePadded_encodeTrimmed bin, fun out => Base64.decodePadded_iff⟩
  apply Base64.decode_iff.mpr
  refine ⟨Sextets.digits bin, (3 - bin.length % 3) % 3, by omega, ?_, ?_, (Sextets.bytes_digits bin).symm⟩
  · rw [Sextets.length_digits]
    have cases : bin.length % 3 = 0 ∨ bin.length % 3 = 1 ∨ bin.length % 3 = 2 := by omega
    rcases cases with rest | rest | rest
    all_goals
      rw [rest]
      omega
  · rw [Base64.encode_eq, Base64.fills_eq]

/-- Objects around each other under empty keys. -/
def Picojson.Value.nested {lib : Doubles} : Nat → Picojson.Value lib
  | 0 => .object []
  | n + 1 => .object [([], nested n)]

theorem nested_plain {lib : Doubles} (n : Nat) : (Value.nested n : Picojson.Value lib).Plain ∧
    (Value.nested n : Picojson.Value lib).depth = 1 := by
  induction n with
  | zero => exact ⟨⟨List.Pairwise.nil, trivial⟩, rfl⟩
  | succ n ih =>
    refine ⟨⟨List.pairwise_singleton .., ih.1, trivial⟩, ?_⟩
    show max 1 (max (Value.nested n).depth 0) = 1
    rw [ih.2]
    rfl

/-- A value without doubles is read back from its text if it is at most 100 levels deep, and refused otherwise. The
levels around a part of it are the arrays, and one more if an object stands inside the last of them: 100 arrays around
`{}` are refused. However many objects stand around each other, they are one level; the parser is taken to have the
stack for them. -/
theorem picojson_round_trip (lib : Doubles) :
    (∀ v : Picojson.Value lib, v.Plain →
      parseText v.serialize = if v.depth ≤ defaultMaxDepths then some v else none) ∧
      ∀ n, parseText (Value.nested n : Picojson.Value lib).serialize = some (Value.nested n : Picojson.Value lib) := by
  refine ⟨fun v plain => parseText_serialize plain, ?_⟩
  intro n
  obtain ⟨plain, depth⟩ := @nested_plain lib n
  rw [parseText_serialize plain, if_pos (depth ▸ by decide)]

/-- What the parser accepts: the texts its grammar derives a value of, however much of them it leaves. The
value keeps the ranges and the order of its type and at most 100 levels of arrays, and without doubles its own
text is accepted again. -/
theorem picojson_accepts {lib : Doubles} (text : List UInt8) (v : Picojson.Value lib) :
    (parseText text = some v ↔ ∃ rest, Reads defaultMaxDepths .value text v rest) ∧
      (parseText text = some v → v.Formed (fun f => ∃ numStr, lib.strtod numStr = some f) ∧ v.depth ≤ defaultMaxDepths ∧
        (v.Plain → parseText v.serialize = some v)) := by
  refine ⟨parseText_iff, fun found => ?_⟩
  obtain ⟨rest, reads⟩ := parseText_iff.mp found
  obtain ⟨formed, shallow⟩ := reads.formed trivial
  refine ⟨formed, shallow, fun plain => ?_⟩
  rw [parseText_serialize plain]
  exact if_pos shallow

/-- An object, and a text that is left. -/
theorem picojson_accepts_sample : ∃ v rest,
    Reads defaultMaxDepths .value (utf8 "\x7b\"a\": [1]\x7d ?") (v : Picojson.Value sampleDoubles) rest ∧
      v.depth ≤ defaultMaxDepths ∧ parseText v.serialize = some v := by
  let v : Picojson.Value sampleDoubles := .object [(utf8 "a", .array [.int64 1])]
  have found : parseText (utf8 "\x7b\"a\": [1]\x7d ?") = some v := by rfl
  have plain : v.Plain := by
    refine ⟨List.pairwise_singleton .., ?_, trivial⟩
    have ranged : IsInt64 1 := by decide
    exact ⟨ranged, trivial⟩
  obtain ⟨accepted, kept⟩ := picojson_accepts (utf8 "\x7b\"a\": [1]\x7d ?") v
  obtain ⟨rest, reads⟩ := accepted.mp found
  obtain ⟨_, depth, again⟩ := kept found
  exact ⟨v, rest, reads, depth, again plain⟩

section
variable (lib : Doubles) (hmac : JwtCpp.Hmac) {config : JWTConfig}

/-- A token of the service passes with its id until it expires, whatever the MAC is. -/
theorem issued_token {issued id : Int} (rangeId : IsInt64 id) (isOptionalAuth : Bool) (now : Int) :
    checkAuth (jwtCpp lib hmac) config isOptionalAuth now
        ("Token " ++ generateToken (jwtCpp lib hmac) config issued id) =
      .ok (if now ≤ expirySecond config issued * nanosPerSecond then
        .passed (some ⟨toInt32 id, (jwtCpp lib hmac).signed config.secretKey (expirySecond config issued) id⟩)
      else .unauthorized "Invalid token") := by
  have second := expirySecond_inClock config issued
  have clean : Char.ofNat 0 ∉ (generateToken (jwtCpp lib hmac) config issued id).toList :=
    JwtCpp.jwtCpp_nul lib hmac config.secretKey (expirySecond config issued) id
  have bytes : utf8 (generateToken (jwtCpp lib hmac) config issued id) = _ :=
    (JwtCpp.jwtCpp_utf8 lib hmac).trans (JwtCpp.create_eq hmac (utf8 config.secretKey) (expirySecond config issued) id)
  rw [checkAuth_carried clean (.inl rfl), JwtCpp.checkToken_input lib hmac second.range rangeId bytes,
    JwtCpp.decodePadded_encodeTrimmed, second.nanoseconds]
  simp only [true_and]
  rfl

theorem issued_token_sample :
    IsInt64 1 ∧ checkAuth (jwtCpp sampleDoubles sampleHmac) sampleJwtConfig false 1000000000
        ("Token " ++ generateToken (jwtCpp sampleDoubles sampleHmac) sampleJwtConfig 0 1) =
      .ok (.passed (some ⟨1, (jwtCpp sampleDoubles sampleHmac).signed "secret" 3600 1⟩)) :=
  ⟨by decide, issued_token sampleDoubles sampleHmac (show IsInt64 1 by decide) false 1000000000⟩

/-- Where the MAC has 32 bytes, four texts in the place of the signature pass, and the others are refused. -/
theorem issued_texts {exp id : Int} (rangeExp : IsInt64 exp) (rangeId : IsInt64 id)
    (size : (hmac (utf8 config.secretKey) (JwtCpp.signingInput lib exp id)).length = 32) :
    ∃ (front : List UInt8) (d : Fin 16),
      utf8 ((jwtCpp lib hmac).sign config.secretKey exp id) =
        JwtCpp.signingInput lib exp id ++ 0x2E :: (front ++ [Base64.symbol (4 * d)]) ∧
      ∀ (isOptionalAuth : Bool) (now : Int) (signature : String),
        let text := JwtCpp.asciiText (JwtCpp.signingInput lib exp id ++ [0x2E]) ++ untilNul signature.toList
        checkAuth (jwtCpp lib hmac) config isOptionalAuth now
            ("Token " ++ (JwtCpp.asciiText (JwtCpp.signingInput lib exp id ++ [0x2E]) ++ signature)) =
          .ok (if now ≤ nanoseconds exp ∧
              ∃ low : Fin 4, utf8 (untilNul signature.toList) = front ++ [Base64.symbol (4 * d + low)] then
            .passed (some ⟨toInt32 id, { (jwtCpp lib hmac).signed config.secretKey exp id with token := text }⟩)
          else .unauthorized "Invalid token") := by
  obtain ⟨front, d, issued, texts⟩ := Base64.decodePadded_texts
    (show (hmac (utf8 config.secretKey) (JwtCpp.signingInput lib exp id)).length % 3 = 2 by rw [size])
  refine ⟨front, d, ?_, fun isOptionalAuth now signature => ?_⟩
  · rw [JwtCpp.jwtCpp_utf8, JwtCpp.create_eq, issued]
  intro text
  have ascii : JwtCpp.Ascii (JwtCpp.signingInput lib exp id ++ [0x2E]) :=
    (JwtCpp.signingInput_ascii exp id).append (List.forall_mem_singleton.mpr (by decide))
  have free : Char.ofNat 0 ∉ (JwtCpp.asciiText (JwtCpp.signingInput lib exp id ++ [0x2E])).toList := by
    apply JwtCpp.asciiText_nul ascii
    simp [JwtCpp.signingInput_nul]
  have bytes : utf8 text = JwtCpp.signingInput lib exp id ++ 0x2E :: utf8 (untilNul signature.toList) := by
    rw [utf8_append, JwtCpp.utf8_asciiText ascii, List.append_assoc]
    rfl
  have whole : untilNul (JwtCpp.asciiText (JwtCpp.signingInput lib exp id ++ [0x2E]) ++ signature).toList = text :=
    untilNul_append free signature
  obtain ⟨clean, carried⟩ := untilNul_eq.mp whole
  rw [checkAuth_carried clean carried, JwtCpp.checkToken_input lib hmac rangeExp rangeId bytes]
  simp only [texts, and_comm]

theorem issued_texts_sample :
    IsInt64 3600 ∧ IsInt64 1 ∧
      (sampleHmac (utf8 "secret") (JwtCpp.signingInput sampleDoubles 3600 1)).length = 32 ∧
      ∃ (front : List UInt8) (d : Fin 16),
        utf8 ((jwtCpp sampleDoubles sampleHmac).sign "secret" 3600 1) =
          JwtCpp.signingInput sampleDoubles 3600 1 ++ 0x2E :: (front ++ [Base64.symbol (4 * d)]) ∧
        ∀ (isOptionalAuth : Bool) (now : Int) (signature : String),
          let text := JwtCpp.asciiText (JwtCpp.signingInput sampleDoubles 3600 1 ++ [0x2E]) ++ untilNul signature.toList
          checkAuth (jwtCpp sampleDoubles sampleHmac) sampleJwtConfig isOptionalAuth now
              ("Token " ++ (JwtCpp.asciiText (JwtCpp.signingInput sampleDoubles 3600 1 ++ [0x2E]) ++ signature)) =
            .ok (if now ≤ nanoseconds 3600 ∧
                ∃ low : Fin 4, utf8 (untilNul signature.toList) = front ++ [Base64.symbol (4 * d + low)] then
              .passed (some ⟨toInt32 1, { (jwtCpp sampleDoubles sampleHmac).signed "secret" 3600 1 with token := text }⟩)
            else .unauthorized "Invalid token") :=
  ⟨by decide, by decide, rfl, @issued_texts sampleDoubles sampleHmac sampleJwtConfig 3600 1 (by decide) (by decide) rfl⟩

/-- Whoever passes with an identity has sent a token whose third part is the MAC, under the server's key,
of the two parts in front of it. Its header names HS256, its claims give the id, and the times they give, in the
nanoseconds of the clock, allow this moment. -/
theorem accepted_token {isOptionalAuth : Bool} {now : Int} {header : String} {data : UserAuthData}
    (accepted : checkAuth (jwtCpp lib hmac) config isOptionalAuth now header = .ok (.passed (some data))) :
    ∃ text, header = "Token " ++ text ∧ ∃ jwt : JwtCpp.DecodedJwt lib, ∃ signatureBase64,
      JwtCpp.decode (utf8 (untilNul text.toList)) = some jwt ∧
      utf8 (untilNul text.toList) = jwt.headerBase64 ++ 0x2E :: (jwt.payloadBase64 ++ 0x2E :: signatureBase64) ∧
      Base64.decodePadded signatureBase64 =
        some (hmac (utf8 config.secretKey) (jwt.headerBase64 ++ 0x2E :: jwt.payloadBase64)) ∧
      JwtCpp.getClaim "alg" jwt.headerClaims = some (.string (Base64.characters "HS256")) ∧
      (∃ id, JwtCpp.getClaim "id" jwt.payloadClaims = some (.int64 id) ∧ data.id = toInt32 id) ∧
      (∀ exp, JwtCpp.dateClaim "exp" jwt = some (some exp) → now ≤ nanoseconds exp) ∧
      (∀ iat, JwtCpp.dateClaim "iat" jwt = some (some iat) → nanoseconds iat ≤ now) ∧
      ∀ nbf, JwtCpp.dateClaim "nbf" jwt = some (some nbf) → nanoseconds nbf ≤ now := by
  rcases checkAuth_cases (jwtCpp lib hmac) config isOptionalAuth now header with
    rfl | ⟨_, _, rejected⟩ | ⟨text, same, checked⟩
  · cases isOptionalAuth with
    | true => cases accepted
    | false => cases accepted
  · rw [rejected] at accepted
    cases accepted
  · refine ⟨text, same, ?_⟩
    rw [checked] at accepted
    obtain ⟨found, signature, inTime, id, claimed, same⟩ := checkToken_passed accepted
    obtain ⟨jwt, parsed, token, expires, issued, starts, read⟩ := JwtCpp.read_some lib found
    have verified : JwtCpp.verifies lib hmac config.secretKey (untilNul text.toList) = true := token ▸ signature
    obtain ⟨signatureBase64, parts, mac, named⟩ := JwtCpp.verifies_mac lib hmac parsed verified
    simp only [DecodedToken.inTime, Bool.and_eq_true] at inTime
    obtain ⟨⟨unexpired, past⟩, started⟩ := inTime
    refine ⟨jwt, signatureBase64, parsed, parts, mac, named, ⟨id, ?_, same⟩, ?_, ?_, ?_⟩
    · rw [claimed] at read
      exact JwtCpp.idClaim_some read.symm
    · intro exp date
      rw [date] at expires
      rw [← Option.some.inj expires] at unexpired
      exact of_decide_eq_true unexpired
    · intro iat date
      rw [date] at issued
      rw [← Option.some.inj issued] at past
      exact of_decide_eq_true past
    · intro nbf date
      rw [date] at starts
      rw [← Option.some.inj starts] at started
      exact of_decide_eq_true started

theorem accepted_token_sample :
    ∃ text, "Token " ++ generateToken (jwtCpp sampleDoubles sampleHmac) sampleJwtConfig 0 1 = "Token " ++ text ∧
      ∃ jwt : JwtCpp.DecodedJwt sampleDoubles, ∃ signatureBase64,
      JwtCpp.decode (utf8 (untilNul text.toList)) = some jwt ∧
      utf8 (untilNul text.toList) = jwt.headerBase64 ++ 0x2E :: (jwt.payloadBase64 ++ 0x2E :: signatureBase64) ∧
      Base64.decodePadded signatureBase64 =
        some (sampleHmac (utf8 "secret") (jwt.headerBase64 ++ 0x2E :: jwt.payloadBase64)) ∧
      JwtCpp.getClaim "alg" jwt.headerClaims = some (.string (Base64.characters "HS256")) ∧
      (∃ id, JwtCpp.getClaim "id" jwt.payloadClaims = some (.int64 id) ∧ 1 = toInt32 id) ∧
      (∀ exp, JwtCpp.dateClaim "exp" jwt = some (some exp) → 1000000000 ≤ nanoseconds exp) ∧
      (∀ iat, JwtCpp.dateClaim "iat" jwt = some (some iat) → nanoseconds iat ≤ 1000000000) ∧
      ∀ nbf, JwtCpp.dateClaim "nbf" jwt = some (some nbf) → nanoseconds nbf ≤ 1000000000 := by
  have lawful := JwtCpp.jwtCpp_lawful sampleDoubles sampleHmac "secret"
  have passed : checkAuth (jwtCpp sampleDoubles sampleHmac) sampleJwtConfig false 1000000000
      ("Token " ++ generateToken (jwtCpp sampleDoubles sampleHmac) sampleJwtConfig 0 1) =
        .ok (.passed (some ⟨1, (jwtCpp sampleDoubles sampleHmac).signed "secret" 3600 1⟩)) :=
    @checkAuth_generated _ sampleJwtConfig _ _ _ lawful 0 1 (by decide) (.inl rfl) (by decide)
  exact accepted_token sampleDoubles sampleHmac passed

end

end RealWorld
