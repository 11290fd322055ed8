import RealWorld.Handlers.UserReplies
import RealWorld.Properties.Credentials
import RealWorld.Properties.Storable

/-!
# Which accepted users the database refuses

The length of an address is not checked before the database checks it, and no text but the address is
checked for U+0000.
-/

namespace RealWorld
open Schema Transactional Text

/-- The digest of `BF_crypt` has 31 characters. -/
def Eksblowfish.Encodes (eks : Eksblowfish) : Prop :=
  ∀ cost salt key, (eks.digest cost salt key).length = 31

theorem generateHash_stored {eks : Eksblowfish} (encodes : eks.Encodes) {urandom : Option (List UInt8)}
    {password hash : String} (ok : generateHash eks urandom password = .ok hash) :
    hash.length ≤ 255 ∧ storable hash := by
  obtain ⟨⟨cost, salt, key, length⟩, digits⟩ := generateHash_text ok
  rw [encodes] at length
  constructor
  · omega
  · have noNul : Char.ofNat 0 ∉ settingPrefix ∧ Char.ofNat 0 ∉ bfItoa64 := by decide
    have free : Char.ofNat 0 ∉ hash.toList := fun nul => (digits _ nul).elim noNul.1 noNul.2
    simpa [storable] using free

theorem EmailValid.storable {email : String} (valid : EmailValid email) : storable email := by
  have free : Char.ofNat 0 ∉ email.toList := fun nul => emailPattern_nonzero.accepts valid 0 (utf8_nul nul) rfl
  simpa [Schema.storable] using free

theorem Handlers.Users.Post.parsed_email {svc : Service} {call : Call} {registration : Dto.RegistrationRequest}
    (accepted : call.registration svc = .ok registration) : storable registration.email := by
  obtain ⟨data, _, accepted⟩ := checked_bind.mp accepted
  exact (parseRequest_checked accepted).email.storable

theorem Handlers.User.Put.parsed_sizes {svc : Service} {call : Call} {update : Dto.UpdateUserRequest}
    (accepted : call.profileUpdate svc = .ok update) :
    (∀ email ∈ update.email, storable email) ∧ ∀ image ∈ update.image, image.length ≤ 255 := by
  obtain ⟨data, _, accepted⟩ := checked_bind.mp accepted
  have checked := parseRequest_checked accepted
  exact ⟨fun email member => (checked.email email member).storable,
    fun image member => Nat.le_of_lt (checked.image image member).2⟩

section
variable {svc : Service} {s : Store} {call : Call}

theorem RegisterRequest.issues {registration : Dto.RegistrationRequest} {hash : String}
    (request : RegisterRequest svc call registration hash) : Issues svc call (registerSql registration hash) := by
  unfold Issues
  rw [request.serve_eq]
  exact ⟨_, rfl⟩

theorem ProfileRequest.issues {update : Dto.UpdateUserRequest} {hash : Option String} {data : UserAuthData}
    (request : ProfileRequest svc call update hash data) : Issues svc call (profileSql update hash data.id) := by
  unfold Issues
  rw [request.serve_eq]
  exact ⟨_, rfl⟩

theorem addNewUser_storable_iff (reachable : Reachable svc s) {username email hash : String}
    (fitsHash : hash.length ≤ 255 ∧ storable hash) (mail : storable email) :
    (Sql.addNewUser username email hash).RaisesOnly (Taken ["uniq_username", "uniq_email"]) svc.loc s ↔
      storable username ∧ s.usersSeq < maxInt ∧ email.length ≤ 255 := by
  have texts : (∀ text ∈ (Sql.addNewUser username email hash).texts, storable text) ↔ storable username := by
    simp [Sql.texts, mail, fitsHash.2]
  rw [Sql.raisesOnly_iff (by decide), texts]
  refine and_congr_right fun _ => ?_
  constructor
  · intro raises
    obtain ⟨room, fits, _⟩ :=
      (insertUsers_raisesOnly reachable.valid).mp (singleton_raisesOnly.mp (raises sampleMoment))
    exact ⟨room, fits⟩
  · rintro ⟨room, fits⟩ _
    exact singleton_raisesOnly.mpr ((insertUsers_raisesOnly reachable.valid).mpr ⟨room, fits, fitsHash.1⟩)

theorem texts_given {options : List (Option String)} :
    (∀ text ∈ options.filterMap id, storable text) ↔ ∀ o ∈ options, ∀ text ∈ o, storable text := by
  simp only [List.mem_filterMap, id]
  exact ⟨fun all o given text same => all text ⟨o, given, same⟩,
    fun all text ⟨o, given, same⟩ => all o given text same⟩

theorem updateUserById_storable_iff (reachable : Reachable svc s) {userId : Int}
    {username email hash bio image : Option String} (fitsHash : ∀ text ∈ hash, text.length ≤ 255 ∧ storable text)
    (mail : ∀ text ∈ email, storable text) (fitsImage : ∀ text ∈ image, text.length ≤ 255) :
    (Sql.updateUserById userId username email hash bio image).RaisesOnly
        (Taken ["uniq_username", "uniq_email"]) svc.loc s ↔
      (∀ text ∈ [username, bio, image].filterMap id, storable text) ∧
        ((∃ u ∈ s.users, u.userId = userId) → ∀ text ∈ email, text.length ≤ 255) := by
  have texts : (∀ text ∈ (Sql.updateUserById userId username email hash bio image).texts, storable text) ↔
      ∀ text ∈ [username, bio, image].filterMap id, storable text := by
    rw [Sql.texts, texts_given, texts_given]
    simp only [List.forall_mem_cons]
    constructor
    · rintro ⟨name, _, _, rest⟩
      exact ⟨name, rest⟩
    · rintro ⟨name, rest⟩
      exact ⟨name, mail, fun text given => (fitsHash text given).2, rest⟩
  rw [Sql.raisesOnly_iff (by decide), texts]
  refine and_congr_right fun _ => ?_
  constructor
  · rintro raises ⟨u, member, same⟩ text rfl
    have fits := (updateUserById_raisesOnly reachable.valid.toConstraints).mp
      (atomically_raisesOnly.mp (raises sampleMoment)) u member same
    exact fits.1
  · intro fitsEmail m
    refine atomically_raisesOnly.mpr ((updateUserById_raisesOnly reachable.valid.toConstraints).mpr ?_)
    intro u member same
    have stored := reachable.fits.users u member
    refine ⟨?_, ?_, ?_⟩
    · exact getD_fits (fitsEmail ⟨u, member, same⟩) stored.email
    · exact getD_fits (fun text given => (fitsHash text given).1) stored.passwordHash
    · cases image with
      | none => exact stored.image
      | some text => exact fitsImage text rfl

/-- The statement of an accepted user fails with nothing but a taken name or address exactly when the
address fits its column, the other texts are free of U+0000 and ids are left. -/
theorem users_storable_iff (reachable : Reachable svc s) (encodes : svc.eks.Encodes) :
    (call.route = .postUsers → ∀ registration hash, call.registration svc = .ok registration →
      generateHash svc.eks call.urandom registration.password = .ok hash →
      let q := Sql.addNewUser registration.username registration.email hash
      Issues svc call q ∧
        (q.RaisesOnly (Taken ["uniq_username", "uniq_email"]) svc.loc s ↔
          storable registration.username ∧ s.usersSeq < maxInt ∧ registration.email.length ≤ 255)) ∧
    (call.route = .putUser → ∀ data, call.caller svc = some data → ∀ update hash,
      call.profileUpdate svc = .ok update →
      update.password.mapM (generateHash svc.eks call.urandom) = .ok hash →
      let q := Sql.updateUserById data.id update.username update.email hash update.bio update.image
      Issues svc call q ∧
        (q.RaisesOnly (Taken ["uniq_username", "uniq_email"]) svc.loc s ↔
          (∀ text ∈ [update.username, update.bio, update.image].filterMap id, storable text) ∧
            ((∃ u ∈ s.users, u.userId = data.id) → ∀ email ∈ update.email, email.length ≤ 255))) := by
  constructor
  · intro post registration hash accepted hashed q
    exact ⟨RegisterRequest.issues ⟨post, accepted, hashed⟩,
      addNewUser_storable_iff reachable (generateHash_stored encodes hashed)
        (Handlers.Users.Post.parsed_email accepted)⟩
  · intro put data token update hash accepted hashed q
    obtain ⟨mail, fitsImage⟩ := Handlers.User.Put.parsed_sizes accepted
    have fitsHash : ∀ text ∈ hash, text.length ≤ 255 ∧ storable text := by
      cases given : update.password with
      | none =>
        rw [given] at hashed
        cases hashed
        nofun
      | some password =>
        rw [given] at hashed
        obtain ⟨text, same, hashed⟩ := checked_bind.mp hashed
        cases hashed
        rintro _ ⟨⟩
        exact generateHash_stored encodes same
    exact ⟨ProfileRequest.issues ⟨put, accepted, hashed, token⟩,
      updateUserById_storable_iff reachable fitsHash mail fitsImage⟩

end

/-- `sample`, with digests of the length bcrypt gives them. -/
def sampleDigest : Service := { sample with eks := { digest := fun _ _ _ => List.replicate 31 ⟨0, by decide⟩ } }

theorem sampleDigest_encodes : sampleDigest.eks.Encodes := fun _ _ _ => rfl

def sampleHash : String := String.ofList ("$2a$12$".toList ++ List.replicate 53 '.')

theorem users_storable_sample : Issues sampleDigest (sampleRegister "anna") (.addNewUser "anna" "anna@mail.io" sampleHash) ∧
    ((Sql.addNewUser "anna" "anna@mail.io" sampleHash).RaisesOnly (Taken ["uniq_username", "uniq_email"])
        sampleDigest.loc Store.empty ↔
      storable "anna" ∧ Store.empty.usersSeq < maxInt ∧ "anna@mail.io".length ≤ 255) :=
  (users_storable_iff (reachable_empty sampleDigest) sampleDigest_encodes).1 rfl
    { username := "anna", password := "secret", email := "anna@mail.io" } sampleHash
    (by decide) (by decide)

def sampleRegisterMail (email : String) : Call :=
  { route := .postUsers
    request :=
      { body := .obj [("user", .obj [("username", .str "anna"), ("email", .str email),
          ("password", .str "secret")])] }
    urandom := some (List.replicate 16 0) }

theorem sampleRegisterMail_accepted {email : String} (given : email.isEmpty = false)
    (matched : emailPattern.accepts (utf8 email) = true) : (sampleRegisterMail email).registration sampleDigest =
      .ok { username := "anna", password := "secret", email := email } := by
  have user : checkSize "anna" "username" 2 20 = .ok "anna" := by decide
  have password : checkSize "secret" "password" 5 100 = .ok "secret" := by decide
  have checked : (do
      if email.isEmpty then throw (.validation "email" "cannot be empty")
      if emailPattern.accepts (utf8 email) then return email
      throw (.validation "email" "invalid") : Except Exn String) = .ok email := by
    rw [given, matched]
    rfl
  exact checked_bind.mpr ⟨_, rfl, checked_bind.mpr ⟨_, user, checked_bind.mpr ⟨_, password,
    checked_bind.mpr ⟨_, checked, rfl⟩⟩⟩⟩

def sampleLongEmail : String := String.ofList (['a', '@', 'b', '.'] ++ List.replicate 252 'c')

theorem sampleLongEmail_length : sampleLongEmail.length = 256 := by
  refine String.length_ofList.trans ?_
  rw [List.length_append, List.length_replicate]
  rfl

theorem sampleLongEmail_accepted : (sampleRegisterMail sampleLongEmail).registration sampleDigest =
    .ok { username := "anna", password := "secret", email := sampleLongEmail } := by
  have letters : ∀ n, (List.replicate n 'c').flatMap String.utf8EncodeChar = List.replicate n 99 := by
    intro n
    induction n with
    | zero => rfl
    | succ n ih =>
      rw [List.replicate_succ, List.flatMap_cons, ih]
      rfl
  have bytes : utf8 sampleLongEmail = [97, 64, 98, 46] ++ List.replicate 252 99 := by
    refine (utf8_toList _).trans ?_
    refine (congrArg (List.flatMap String.utf8EncodeChar) String.toList_ofList).trans ?_
    rw [List.flatMap_append, letters]
    rfl
  have matched : emailPattern.accepts ([97, 64, 98, 46] ++ List.replicate 252 99) = true :=
    emailPattern_iff.mpr (by decide +kernel)
  refine sampleRegisterMail_accepted ?_ ((congrArg emailPattern.accepts bytes).trans matched)
  rw [String.isEmpty_eq_false_iff]
  intro same
  have length := sampleLongEmail_length
  rw [same] at length
  cases length

/-- An address of 256 characters is accepted, and refused by the database. -/
theorem long_email_refused :
    let call := sampleRegisterMail sampleLongEmail
    Reachable sampleDigest Store.empty ∧ (∃ registration, call.registration sampleDigest = .ok registration) ∧
      ∃ q, Issues sampleDigest call q ∧
        ¬ q.RaisesOnly (Taken ["uniq_username", "uniq_email"]) sampleDigest.loc Store.empty := by
  have hashed : generateHash sampleDigest.eks (sampleRegisterMail sampleLongEmail).urandom "secret" =
      .ok sampleHash := by decide
  refine ⟨reachable_empty _, ⟨_, sampleLongEmail_accepted⟩, _,
    RegisterRequest.issues ⟨rfl, sampleLongEmail_accepted, hashed⟩, ?_⟩
  intro raises
  have fits : sampleLongEmail.length ≤ 255 := ((addNewUser_storable_iff (reachable_empty sampleDigest)
    (generateHash_stored sampleDigest_encodes hashed)
    (Handlers.Users.Post.parsed_email sampleLongEmail_accepted)).mp raises).2.2
  have length := sampleLongEmail_length
  omega

end RealWorld
