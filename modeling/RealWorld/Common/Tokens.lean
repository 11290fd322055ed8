import RealWorld.Common.Jwt
import RealWorld.Text.Separator

/-!
# Which headers the authorization check accepts

The check reads one token of a header, and accepts those of `GenerateToken` until they expire.
-/

namespace RealWorld
open Text

/-! ### Times -/

theorem toInt64_range (n : Int) : IsInt64 (toInt64 n) := by
  unfold IsInt64 toInt64
  rw [Int.bmod_def]
  omega

theorem toInt64_of_range {n : Int} (range : IsInt64 n) : toInt64 n = n := by
  unfold IsInt64 at range
  unfold toInt64
  rw [Int.bmod_def]
  omega

/-- The seconds that the clock can tell: 292 years from the epoch, to either side. -/
def InClock (seconds : Int) : Prop := IsInt64 (seconds * nanosPerSecond)

instance (seconds : Int) : Decidable (InClock seconds) := inferInstanceAs (Decidable (IsInt64 _))

theorem InClock.nanoseconds {seconds : Int} (range : InClock seconds) :
    nanoseconds seconds = seconds * nanosPerSecond := toInt64_of_range range

theorem InClock.range {seconds : Int} (range : InClock seconds) : IsInt64 seconds := by
  unfold InClock IsInt64 nanosPerSecond at range
  unfold IsInt64
  omega

theorem expirySecond_inClock (config : JWTConfig) (now : Int) : InClock (expirySecond config now) := by
  have range := toInt64_range (now + nanoseconds config.tokenExpirationTime)
  unfold InClock expirySecond IsInt64
  unfold IsInt64 at range
  generalize toInt64 (now + nanoseconds config.tokenExpirationTime) = n at range
  have size : (n.tdiv 1000000000).natAbs = n.natAbs / 1000000000 := Int.natAbs_tdiv n 1000000000
  unfold nanosPerSecond
  omega

theorem expirySecond_range (config : JWTConfig) (now : Int) : IsInt64 (expirySecond config now) :=
  (expirySecond_inClock config now).range

/-! ### Tokens -/

/-- The token of `GenerateToken` once decoded: it carries the two claims that were set. -/
def JwtLib.signed (jwt : JwtLib) (key : String) (exp id : Int) : DecodedToken :=
  { token := jwt.sign key exp id, expiresAt := some exp, issuedAt := none, notBefore := none,
    id := some id }

@[simp] theorem JwtLib.signed_inTime {jwt : JwtLib} {key : String} {exp id now : Int} (range : InClock exp) :
    (jwt.signed key exp id).inTime now = decide (now ≤ exp * nanosPerSecond) := by
  simp [JwtLib.signed, DecodedToken.inTime, range.nanoseconds]

/-- What the service relies on of jwt-cpp for its own tokens. -/
structure JwtLib.Lawful (jwt : JwtLib) (key : String) : Prop where
  decode_sign : ∀ exp id, IsInt64 exp → IsInt64 id → jwt.decode (jwt.sign key exp id) = some (jwt.signed key exp id)
  signedWith_sign : ∀ exp id, IsInt64 exp → IsInt64 id → jwt.signedWith key (jwt.signed key exp id) = true
  no_nul : ∀ exp id, Char.ofNat 0 ∉ (jwt.sign key exp id).toList
  decode_token : ∀ text decoded, jwt.decode text = some decoded → decoded.token = text

/-- The header is read as carrying `token`: what follows a NUL after it is not looked at. -/
def Carries (header token : String) : Prop :=
  header = "Token " ++ token ∨ ∃ rest, header = "Token " ++ token ++ "\x00" ++ rest

section
variable {jwt : JwtLib} {config : JWTConfig} {isOptionalAuth : Bool} {now : Int} {header : String}

/-- The part of the check behind the scheme. -/
def checkToken (jwt : JwtLib) (config : JWTConfig) (now : Int) (token : String) :
    Except Exn AuthCheckResult :=
  match jwt.decode token with
  | none => .ok (.unauthorized "Invalid token")
  | some decoded =>
    if verifyToken jwt config now decoded then
      match decoded.id with
      | some id => .ok (.passed (some { id := toInt32 id, token := decoded }))
      | none => .error .runtime
    else .ok (.unauthorized "Invalid token")

def untilNul (text : List Char) : String := String.ofList (text.takeWhile (· ≠ Char.ofNat 0))

/-- A header is empty, or has no scheme `Token` and is rejected, or its token is checked. -/
theorem checkAuth_cases (jwt : JwtLib) (config : JWTConfig) (isOptionalAuth : Bool) (now : Int)
    (header : String) :
    header = "" ∨
      (header ≠ "" ∧ (∀ text, header ≠ "Token " ++ text) ∧ checkAuth jwt config isOptionalAuth now header =
        .ok (.unauthorized "Missing authorization token")) ∨
      ∃ text, header = "Token " ++ text ∧ checkAuth jwt config isOptionalAuth now header =
        checkToken jwt config now (untilNul text.toList) := by
  by_cases empty : header = ""
  · exact .inl empty
  have present : header.isEmpty = false := by simpa using empty
  have unsplit : ∀ text, ("Token " ++ text).toList = "Token".toList ++ ' ' :: text.toList := by
    intro text
    rw [String.toList_append]
    rfl
  have scheme_free : ' ' ∉ "Token".toList := by decide
  unfold checkAuth
  rw [present]
  simp only [Bool.false_eq_true, if_false]
  rcases span_cases ' ' header.toList with ⟨free, same⟩ | ⟨scheme, rest, free, split, same⟩
  · refine .inr (.inl ⟨empty, fun text carried => free ?_, by rw [same]⟩)
    rw [carried, unsplit]
    simp
  · rw [same]
    by_cases token : String.ofList scheme = "Token"
    · right; right
      refine ⟨String.ofList rest, ?_, ?_⟩
      · apply String.toList_inj.mp
        rw [unsplit, split, ← token]
        simp
      · have read : untilNul (String.ofList rest).toList = String.ofList (rest.takeWhile (· ≠ Char.ofNat 0)) := by
          rw [untilNul, String.toList_ofList]
        rw [read]
        exact if_neg (not_not_intro token)
    · refine .inr (.inl ⟨empty, fun text carried => token ?_, by simp only [ne_eq, token, not_false_eq_true, if_true]⟩)
      rw [carried, unsplit, span_split scheme_free] at same
      rw [← (Prod.mk.inj same).1, String.ofList_toList]

theorem sign_inj (lawful : jwt.Lawful config.secretKey) {id id' exp exp' : Int} (range : IsInt64 id)
    (range' : IsInt64 id') (rangeExp : IsInt64 exp) (rangeExp' : IsInt64 exp')
    (same : jwt.sign config.secretKey exp id = jwt.sign config.secretKey exp' id') : id = id' := by
  have decoded := lawful.decode_sign exp id rangeExp range
  rw [same, lawful.decode_sign exp' id' rangeExp' range'] at decoded
  have ids : id' = id := Option.some.inj (congrArg DecodedToken.id (Option.some.inj decoded))
  exact ids.symm

theorem generateToken_inj (lawful : jwt.Lawful config.secretKey) {id id' : Int} (range : IsInt64 id)
    (range' : IsInt64 id') (same : generateToken jwt config now id = generateToken jwt config now id') : id = id' :=
  sign_inj lawful range range' (expirySecond_range config now) (expirySecond_range config now) same

/-- A token whose signature verifies passes with its id as long as its times allow. -/
theorem checkToken_inTime {token : String} {decoded : DecodedToken} {id : Int} (found : jwt.decode token = some decoded)
    (signature : jwt.signedWith config.secretKey decoded = true) (claimed : decoded.id = some id)
    (inTime : decoded.inTime now = true) :
    checkToken jwt config now token = .ok (.passed (some ⟨toInt32 id, decoded⟩)) := by
  have verified : verifyToken jwt config now decoded = true := by
    rw [verifyToken, signature, inTime]
    rfl
  rw [checkToken, found]
  simp only [verified, claimed, if_true]

theorem checkToken_passed {token : String} {data : UserAuthData}
    (passed : checkToken jwt config now token = .ok (.passed (some data))) :
    jwt.decode token = some data.token ∧ jwt.signedWith config.secretKey data.token = true ∧
      data.token.inTime now = true ∧ ∃ id, data.token.id = some id ∧ data.id = toInt32 id := by
  unfold checkToken at passed
  split at passed
  · cases passed
  · rename_i decoded found
    split at passed
    · rename_i verified
      obtain ⟨signature, inTime⟩ := Bool.and_eq_true_iff.mp verified
      split at passed
      · rename_i id claimed
        cases passed
        exact ⟨found, signature, inTime, id, claimed, rfl⟩
      · cases passed
    · cases passed

theorem untilNul_append {front : String} (free : Char.ofNat 0 ∉ front.toList) (rest : String) :
    untilNul (front ++ rest).toList = front ++ untilNul rest.toList := by
  have kept : ∀ c ∈ front.toList, decide (c ≠ Char.ofNat 0) = true := by
    intro c member
    exact decide_eq_true fun same => free (same ▸ member)
  apply String.toList_inj.mp
  rw [untilNul, untilNul, String.toList_ofList, String.toList_append, String.toList_append, String.toList_ofList,
    List.takeWhile_append_of_pos kept]

theorem untilNul_eq {text token : String} : untilNul text.toList = token ↔
    Char.ofNat 0 ∉ token.toList ∧ Carries ("Token " ++ text) token := by
  have split : text.toList.takeWhile (· ≠ Char.ofNat 0) = token.toList ↔ _ := takeWhile_split
  have whole : untilNul text.toList = token ↔
      text.toList.takeWhile (· ≠ Char.ofNat 0) = token.toList := by
    rw [← String.toList_inj, untilNul, String.toList_ofList]
  rw [whole, split]
  refine and_congr_right fun _ => or_congr ?_ ?_
  · rw [String.toList_inj, String.append_right_inj]
  · constructor
    · rintro ⟨back, same⟩
      refine ⟨String.ofList back, ?_⟩
      rw [String.append_assoc, String.append_assoc, String.append_right_inj, ← String.toList_inj, same]
      simp
    · rintro ⟨rest, same⟩
      rw [String.append_assoc, String.append_assoc, String.append_right_inj] at same
      refine ⟨rest.toList, ?_⟩
      rw [same]
      simp

/-- The token behind the scheme, up to a NUL, decides about a header that carries it. -/
theorem checkAuth_carried {token : String} (free : Char.ofNat 0 ∉ token.toList) (carried : Carries header token) :
    checkAuth jwt config isOptionalAuth now header = checkToken jwt config now token := by
  obtain ⟨text, split⟩ : ∃ text, header = "Token " ++ text := by
    rcases carried with same | ⟨rest, same⟩
    · exact ⟨_, same⟩
    · exact ⟨_, by rw [same, String.append_assoc, String.append_assoc]⟩
  rcases checkAuth_cases jwt config isOptionalAuth now header with rfl | ⟨_, schemeless, _⟩ | ⟨found, same, checked⟩
  · have parts := congrArg String.toList split
    simp at parts
  · exact absurd split (schemeless text)
  · rw [same] at carried
    rw [checked, untilNul_eq.mpr ⟨free, carried⟩]

theorem checkAuth_generated (lawful : jwt.Lawful config.secretKey) {issued id : Int} (range : IsInt64 id)
    (carried : Carries header (generateToken jwt config issued id))
    (unexpired : now ≤ expirySecond config issued * nanosPerSecond) :
    checkAuth jwt config isOptionalAuth now header = .ok (.passed (some
      ⟨toInt32 id, jwt.signed config.secretKey (expirySecond config issued) id⟩)) := by
  have second := expirySecond_inClock config issued
  rw [checkAuth_carried (lawful.no_nul _ _) carried]
  apply checkToken_inTime (lawful.decode_sign _ id second.range range) (lawful.signedWith_sign _ id second.range range) rfl
  rw [JwtLib.signed_inTime second]
  exact decide_eq_true unexpired

/-- What passes with an id is a header that carries the token the id is read from. -/
theorem checkAuth_passed {data : UserAuthData}
    (passed : checkAuth jwt config isOptionalAuth now header = .ok (.passed (some data))) :
    ∃ token, Char.ofNat 0 ∉ token.toList ∧ Carries header token ∧
      checkToken jwt config now token = .ok (.passed (some data)) := by
  rcases checkAuth_cases jwt config isOptionalAuth now header with rfl | ⟨_, _, rejected⟩ | ⟨text, rfl, checked⟩
  · cases isOptionalAuth with
    | true => cases passed
    | false => cases passed
  · rw [rejected] at passed
    cases passed
  · obtain ⟨free, carried⟩ := untilNul_eq.mp (rfl : untilNul text.toList = _)
    exact ⟨untilNul text.toList, free, carried, checked ▸ passed⟩

theorem checkToken_anonymous {token : String} : checkToken jwt config now token ≠ .ok (.passed none) := by
  unfold checkToken
  split
  · nofun
  · split
    · split <;> nofun
    · nofun

/-- Only the empty header passes without an id. -/
theorem checkAuth_anonymous :
    checkAuth jwt config isOptionalAuth now header = .ok (.passed none) ↔ header = "" ∧ isOptionalAuth = true := by
  constructor
  · intro passed
    rcases checkAuth_cases jwt config isOptionalAuth now header with rfl | ⟨_, _, rejected⟩ | ⟨text, rfl, checked⟩
    · cases isOptionalAuth with
      | true => exact ⟨rfl, rfl⟩
      | false => cases passed
    · rw [rejected] at passed
      cases passed
    · rw [checked] at passed
      exact absurd passed checkToken_anonymous
  · rintro ⟨rfl, rfl⟩
    rfl

/-- The exception that escapes is that of a verified token without an id. -/
theorem checkAuth_error {e : Exn} (failed : checkAuth jwt config isOptionalAuth now header = .error e) :
    e = .runtime := by
  rcases checkAuth_cases jwt config isOptionalAuth now header with rfl | ⟨_, _, rejected⟩ | ⟨text, rfl, checked⟩
  · cases isOptionalAuth <;> cases failed
  · rw [rejected] at failed
    cases failed
  · rw [checked] at failed
    unfold checkToken at failed
    split at failed
    · cases failed
    · split at failed
      · split at failed
        · cases failed
        · cases failed
          rfl
      · cases failed

end

end RealWorld
