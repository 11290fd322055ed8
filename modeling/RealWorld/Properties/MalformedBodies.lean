import RealWorld.Handlers.Checks
import RealWorld.Properties.Credentials
import RealWorld.Runs

/-!
# Malformed bodies

Six parsers read the fields of a JSON object one after the other. A field that fails its check ends the parse with
a 422, a field of a type that the check cannot read ends it with an exception that nobody catches, and the fields
after either are not read.
-/

namespace RealWorld
open Schema Transactional

/-- One check of a parser: of a text that must be there, of one that may, or of a list of texts that may. -/
inductive FieldCheck where
  | required (name : String) (valid : String → Prop)
  | optional (name : String) (valid : String → Prop)
  | optionalList (name : String) (valid : String → Prop)

/-- `check` can read its field of `data`, whether or not it accepts what it reads. A null is read as an absent
optional field, never as a text that is required. -/
def FieldCheck.Readable (lib : JsonLib) (data : Value) : FieldCheck → Prop
  | .required name _ => (data = none → lib.hasMemberOfMissing = .ok false) ∧
      ∃ value, data.member name = .ok value ∧ (value = none ∨ ∃ text, value = some (.str text))
  | .optional name _ => ∃ value, data.member name = .ok value ∧
      (value = none ∨ value = some .null ∨ ∃ text, value = some (.str text))
  | .optionalList name _ => ∃ value, data.member name = .ok value ∧
      (value = none ∨ value = some .null ∨ ∃ texts : List String, value = some (.arr (texts.map .str)))

/-- The field passes `check`. -/
def FieldCheck.Passes (data : Value) : FieldCheck → Prop
  | .required name valid => ∃ text, data.member name = .ok (some (.str text)) ∧ valid text
  | .optional name valid => ∀ text, data.member name = .ok (some (.str text)) → valid text
  | .optionalList name valid => ∀ texts : List String, data.member name = .ok (some (.arr (texts.map .str))) →
      ∀ text ∈ texts, valid text

/-- Every field up to the first that does not pass can be read. -/
def Legible (lib : JsonLib) (data : Value) : List FieldCheck → Prop
  | [] => True
  | check :: checks => check.Readable lib data ∧ (check.Passes data → Legible lib data checks)

/-! The checks of each parser, in its order. -/

def registrationChecks : List FieldCheck :=
  [.required "username" (Within 2 20), .required "password" (Within 5 100), .required "email" EmailValid]

def loginChecks : List FieldCheck := [.required "email" EmailValid, .required "password" (Within 5 100)]

def profileChecks : List FieldCheck :=
  [.optional "email" EmailValid, .optional "username" (Within 2 20), .optional "password" (Within 5 100),
    .optional "bio" (Within 3 65535), .optional "image" (Within 3 255)]

def newArticleChecks : List FieldCheck :=
  [.required "title" (Within 3 256), .required "description" (Within 5 8192), .required "body" (Within 5 65535),
    .optionalList "tagList" (Within 2 256)]

def articleUpdateChecks : List FieldCheck :=
  [.optional "title" (Within 3 255), .optional "description" (Within 5 8192), .optional "body" (Within 5 65535),
    .optionalList "tagList" (Within 2 256)]

def commentChecks : List FieldCheck := [.required "body" (Within 4 16384)]

/-- The object in which the body of a route has its fields, and what its parser checks of them. -/
def Route.bodyChecks : Route → Option (String × List FieldCheck)
  | .postUsers => some ("user", registrationChecks)
  | .postUsersLogin => some ("user", loginChecks)
  | .putUser => some ("user", profileChecks)
  | .postArticles => some ("article", newArticleChecks)
  | .putArticlesSlug => some ("article", articleUpdateChecks)
  | .postArticlesSlugComments => some ("comment", commentChecks)
  | _ => none

/-- The handler obtains a request whose fields satisfy their validators. -/
def Obtains (svc : Service) (call : Call) : Prop :=
  match call.route with
  | .postUsers => ∃ registration, call.registration svc = .ok registration ∧ registration.Checked
  | .postUsersLogin => ∃ login, call.login svc = .ok login ∧ login.Checked
  | .putUser => ∃ update, call.profileUpdate svc = .ok update ∧ update.Checked
  | .postArticles => ∃ newArticle, Handlers.Articles.Post.parsed svc call.request = .ok newArticle ∧ newArticle.Checked
  | .putArticlesSlug => ∃ update, Handlers.ArticlesSlug.Put.parsed call.request = .ok update ∧ update.Checked
  | .postArticlesSlugComments => ∃ comment,
      Handlers.ArticlesSlugComments.Post.parsed svc call.request (call.caller svc) = .ok comment ∧ comment.Checked
  | _ => False

/-! ### One check -/

/-- What a check makes of its field. -/
inductive FieldCheck.Step {α : Type} (lib : JsonLib) (data : Value) (check : FieldCheck) : Except Exn α → Prop where
  | passed (a : α) (readable : check.Readable lib data) (passes : check.Passes data) : Step lib data check (.ok a)
  | refused (field msg : String) (readable : check.Readable lib data) (fails : ¬ check.Passes data) :
      Step lib data check (.error (.validation field msg))
  | illegible (unreadable : ¬ check.Readable lib data) : Step lib data check (.error .json)

/-- What a parser that needs `legible` makes of a body. -/
inductive Parses {α : Type} (legible : Prop) : Except Exn α → Prop where
  | accepted (a : α) (holds : legible) : Parses legible (.ok a)
  | refused (field msg : String) (holds : legible) : Parses legible (.error (.validation field msg))
  | illegible (fails : ¬ legible) : Parses legible (.error .json)

section
variable {lib : JsonLib} {data : Value} {check : FieldCheck} {checks : List FieldCheck} {α β : Type}

theorem FieldCheck.Step.bind {x : Except Exn α} {f : α → Except Exn β} (step : check.Step lib data x)
    (rest : ∀ a, Parses (Legible lib data checks) (f a)) : Parses (Legible lib data (check :: checks)) (x >>= f) := by
  cases step with
  | passed a readable passes =>
    have legible : Legible lib data (check :: checks) ↔ Legible lib data checks :=
      ⟨fun h => h.2 passes, fun h => ⟨readable, fun _ => h⟩⟩
    have next := rest a
    rwa [← legible] at next
  | refused field msg readable fails => exact .refused field msg ⟨readable, fun passes => absurd passes fails⟩
  | illegible unreadable => exact .illegible fun legible => unreadable legible.1

/-- The same where the parser binds the field before its check. -/
theorem FieldCheck.Step.bind_read {γ : Type} {name : String} {read : Value → Except Exn γ}
    {checked : γ → Except Exn α} {f : α → Except Exn β}
    (step : check.Step lib data (do checked (← read (← data.member name))))
    (rest : ∀ a, Parses (Legible lib data checks) (f a)) : Parses (Legible lib data (check :: checks)) (do
      let value ← read (← data.member name)
      let a ← checked value
      f a) := by
  have bound := step.bind rest
  rwa [bind_assoc, funext fun value => bind_assoc (read value) checked f] at bound

end

/-! ### The validators -/

section
variable {lib : JsonLib} {data : Value} {name : String} {valid : String → Prop}

theorem member_cases (data : Value) (name : String) :
    data.member name = .error .json ∨ ∃ value, data.member name = .ok value := by
  unfold Value.member
  split
  · exact .inr ⟨_, rfl⟩
  · exact .inr ⟨_, rfl⟩
  · exact .inr ⟨_, rfl⟩
  · exact .inl rfl

theorem member_obj (members : List (String × Json)) :
    Value.member (some (.obj members)) name = .ok ((members.find? fun m => m.1 = name).map (·.2)) := rfl

theorem hasMember_obj (members : List (String × Json)) :
    Value.hasMember lib (some (.obj members)) name = .ok (members.find? fun m => m.1 = name).isSome := by
  unfold Value.hasMember
  rw [List.isSome_find?]

theorem unreadable_text {json : Json} (member : data.member name = .ok (some json)) (other : ∀ text, json ≠ .str text) :
    ¬ (FieldCheck.required name valid).Readable lib data := by
  rintro ⟨_, _, same, rfl | ⟨text, rfl⟩⟩
  · cases member.symm.trans same
  · exact other text (Option.some.inj (Except.ok.inj (member.symm.trans same)))

/-- The text of a field that must be there. -/
def requiredText (lib : JsonLib) (data : Value) (name : String) : Except Exn String := do
  if !(← data.hasMember lib name) then throw (.validation name "required")
  (← data.member name).asString

theorem requiredText_obj (members : List (String × Json)) : requiredText lib (some (.obj members)) name =
    match members.find? fun m => m.1 = name with
    | none => .error (.validation name "required")
    | some m => Value.asString (some m.2) := by
  unfold requiredText
  rw [hasMember_obj, member_obj]
  cases members.find? fun m => m.1 = name <;> rfl

/-- What reading a text that must be there comes to. -/
inductive RequiredText (lib : JsonLib) (data : Value) (name : String) (readable : Prop) : Except Exn String → Prop where
  | absent (h : readable) (member : data.member name = .ok none) :
      RequiredText lib data name readable (.error (.validation name "required"))
  | read (text : String) (h : readable) (member : data.member name = .ok (some (.str text))) :
      RequiredText lib data name readable (.ok text)
  | illegible (h : ¬ readable) : RequiredText lib data name readable (.error .json)

theorem requiredText_cases (throws : ∀ e, lib.hasMemberOfMissing = .error e → e = .json) (valid : String → Prop) :
    RequiredText lib data name ((FieldCheck.required name valid).Readable lib data) (requiredText lib data name) := by
  match data with
  | none =>
    unfold requiredText Value.hasMember
    cases missing : lib.hasMemberOfMissing with
    | error e =>
      obtain rfl := throws e missing
      exact .illegible fun readable => nomatch missing.symm.trans (readable.1 rfl)
    | ok present =>
      cases present with
      | false => exact .absent ⟨fun _ => missing, none, rfl, .inl rfl⟩ rfl
      | true => exact .illegible fun readable => nomatch missing.symm.trans (readable.1 rfl)
  | some .null => exact .absent ⟨nofun, none, rfl, .inl rfl⟩ rfl
  | some (.bool _) | some (.int _) | some (.str _) | some (.arr _) => exact .illegible fun ⟨_, _, same, _⟩ => nomatch same
  | some (.obj members) =>
    have member := @member_obj name members
    rw [requiredText_obj]
    cases found : members.find? fun m => m.1 = name with
    | none =>
      rw [found] at member
      exact .absent ⟨nofun, none, member, .inl rfl⟩ member
    | some entry =>
      rw [found] at member
      obtain ⟨key, json⟩ := entry
      cases json with
      | str text => exact .read text ⟨nofun, some (.str text), member, .inr ⟨text, rfl⟩⟩ member
      | _ => exact .illegible (unreadable_text member nofun)

theorem required_step (throws : ∀ e, lib.hasMemberOfMissing = .error e → e = .json) {check : String → Except Exn String}
    (accepts : ∀ text, valid text → check text = .ok text)
    (refuses : ∀ text, ¬ valid text → ∃ field msg, check text = .error (.validation field msg)) :
    (FieldCheck.required name valid).Step lib data (do check (← requiredText lib data name)) := by
  have cases_ := @requiredText_cases lib data name throws valid
  generalize requiredText lib data name = x at cases_ ⊢
  cases cases_ with
  | absent readable member =>
    refine .refused name "required" readable ?_
    rintro ⟨text, same, _⟩
    cases member.symm.trans same
  | read text readable member =>
    show FieldCheck.Step lib data _ (check text)
    by_cases holds : valid text
    · rw [accepts text holds]
      exact .passed text readable ⟨text, member, holds⟩
    · obtain ⟨field, msg, refused⟩ := refuses text holds
      rw [refused]
      refine .refused field msg readable ?_
      rintro ⟨other, same, holds'⟩
      cases member.symm.trans same
      exact holds holds'
  | illegible unreadable => exact .illegible unreadable

theorem optional_step {check : Option String → Except Exn (Option String)} (absent : check none = .ok none)
    (accepts : ∀ text, data.member name = .ok (some (.str text)) → valid text → check (some text) = .ok (some text))
    (refuses : ∀ text, data.member name = .ok (some (.str text)) → ¬ valid text →
      ∃ field msg, check (some text) = .error (.validation field msg)) :
    (FieldCheck.optional name valid).Step lib data (do check (← (← data.member name).asOptionalString)) := by
  rcases member_cases data name with failed | ⟨value, member⟩
  · rw [failed]
    refine .illegible ?_
    rintro ⟨_, same, _⟩
    cases failed.symm.trans same
  · rw [member]
    match value with
    | none =>
      show FieldCheck.Step lib data _ (check none)
      rw [absent]
      exact .passed none ⟨none, member, .inl rfl⟩ fun _ same => nomatch member.symm.trans same
    | some .null =>
      show FieldCheck.Step lib data _ (check none)
      rw [absent]
      exact .passed none ⟨_, member, .inr (.inl rfl)⟩ fun _ same => nomatch member.symm.trans same
    | some (.str text) =>
      show FieldCheck.Step lib data _ (check (some text))
      have readable : (FieldCheck.optional name valid).Readable lib data := ⟨_, member, .inr (.inr ⟨text, rfl⟩)⟩
      by_cases holds : valid text
      · rw [accepts text member holds]
        refine .passed (some text) readable fun other same => ?_
        cases member.symm.trans same
        exact holds
      · obtain ⟨field, msg, refused⟩ := refuses text member holds
        rw [refused]
        exact .refused field msg readable fun passes => holds (passes text member)
    | some (.bool _) | some (.int _) | some (.arr _) | some (.obj _) =>
      refine .illegible ?_
      rintro ⟨_, same, rfl | rfl | ⟨_, rfl⟩⟩ <;> cases member.symm.trans same

theorem checkSize_refused {text : String} {min max : Nat} (outside : ¬ Within min max text) :
    ∃ field msg, checkSize text name min max = .error (.validation field msg) := ⟨_, _, if_neg outside⟩

theorem checkSizeOf_step (throws : ∀ e, lib.hasMemberOfMissing = .error e → e = .json) (min max : Nat) :
    (FieldCheck.required name (Within min max)).Step lib data (checkSizeOf lib data name min max) := by
  have step := @required_step lib data name (Within min max) throws (fun text => checkSize text name min max)
    (fun _ within => if_pos within) fun _ outside => checkSize_refused outside
  have same : checkSizeOf lib data name min max = (do checkSize (← requiredText lib data name) name min max) := by
    unfold checkSizeOf requiredText
    rw [bind_assoc]
    refine congrArg (data.hasMember lib name >>= ·) (funext fun present => ?_)
    cases present with
    | false => rfl
    | true => exact (bind_assoc (data.member name) _ _).symm
  rwa [same]

theorem validateEmail_eq (lib : JsonLib) (data : Value) (name : String) :
    validateEmail lib data name = (do validateText name (← requiredText lib data name)) := by
  unfold validateEmail requiredText
  rw [bind_assoc]
  refine congrArg (data.hasMember lib name >>= ·) (funext fun present => ?_)
  cases present with
  | false => rfl
  | true => exact (bind_assoc (data.member name) _ _).symm

theorem validateEmail_step (throws : ∀ e, lib.hasMemberOfMissing = .error e → e = .json) :
    (FieldCheck.required name EmailValid).Step lib data (validateEmail lib data name) := by
  rw [validateEmail_eq]
  exact required_step throws (fun _ valid => validateText_of valid) fun _ invalid => validateText_refused invalid

theorem checkOptional_step (min max : Nat) : (FieldCheck.optional name (Within min max)).Step lib data
    (do Handlers.checkOptional (← (← data.member name).asOptionalString) name min max) := by
  refine optional_step rfl (fun text _ within => checkOptional_of within) fun text _ outside => ?_
  obtain ⟨field, msg, refused⟩ := @checkSize_refused name text min max outside
  refine ⟨field, msg, ?_⟩
  unfold Handlers.checkOptional
  dsimp only
  rw [refused]
  rfl

/-- The parser has read the address already when it validates the member. -/
theorem checkOptionalEmail_step (throws : ∀ e, lib.hasMemberOfMissing = .error e → e = .json) :
    (FieldCheck.optional "email" EmailValid).Step lib data
      (do Handlers.User.Put.checkOptionalEmail lib data (← (← data.member "email").asOptionalString)) := by
  have validated : ∀ text, data.member "email" = .ok (some (.str text)) →
      Handlers.User.Put.checkOptionalEmail lib data (some text) = some <$> validateText "email" text := by
    intro text member
    have cases_ := @requiredText_cases lib data "email" throws EmailValid
    have read : requiredText lib data "email" = .ok text := by
      generalize requiredText lib data "email" = x at cases_ ⊢
      cases cases_ with
      | absent _ absent => cases member.symm.trans absent
      | read other _ same =>
        cases member.symm.trans same
        rfl
      | illegible unreadable =>
        refine absurd ⟨fun missing => ?_, _, member, .inr ⟨text, rfl⟩⟩ unreadable
        rw [missing] at member
        cases member
    show some <$> validateEmail lib data "email" = _
    rw [validateEmail_eq, read]
    rfl
  refine optional_step rfl (fun text member valid => ?_) fun text member invalid => ?_
  · rw [validated text member, validateText_of valid]
    rfl
  · obtain ⟨field, msg, refused⟩ := @validateText_refused "email" text invalid
    refine ⟨field, msg, ?_⟩
    rw [validated text member, refused]
    rfl

/-- The elements of an array are all texts, or one is not and reading them throws. -/
theorem mapM_asString_cases (items : List Json) : (∃ texts : List String, items = texts.map .str) ∨
    (¬ ∃ texts : List String, items = texts.map .str) ∧
      items.mapM (fun item => Value.asString (some item)) = .error .json := by
  induction items with
  | nil => exact .inl ⟨[], rfl⟩
  | cons item items ih =>
    cases item with
    | str text =>
      rcases ih with ⟨texts, rfl⟩ | ⟨other, failed⟩
      · exact .inl ⟨text :: texts, rfl⟩
      · refine .inr ⟨?_, ?_⟩
        · rintro ⟨_ | ⟨_, texts⟩, same⟩
          · cases same
          · exact other ⟨texts, (List.cons.inj same).2⟩
        · rw [List.mapM_cons, failed]
          rfl
    | _ =>
      refine .inr ⟨?_, ?_⟩
      · rintro ⟨_ | ⟨_, texts⟩, same⟩ <;> cases same
      · rw [List.mapM_cons]
        rfl

theorem checkTagList_refused {tags : List String} (outside : ¬ ∀ tag ∈ tags, Within 2 256 tag) :
    ∃ field msg, Handlers.checkTagList (some tags) = .error (.validation field msg) := by
  have each : ∃ field msg, (tags.mapM fun tag => do
      let tag ← checkSize tag "tagList" 2 256
      return toLower tag : Except Exn (List String)) = .error (.validation field msg) := by
    induction tags with
    | nil => exact absurd nofun outside
    | cons tag tags ih =>
      rw [List.mapM_cons]
      by_cases here : Within 2 256 tag
      · have sized : checkSize tag "tagList" 2 256 = .ok tag := if_pos here
        obtain ⟨field, msg, failed⟩ := ih fun others => outside (List.forall_mem_cons.mpr ⟨here, others⟩)
        refine ⟨field, msg, ?_⟩
        rw [sized, failed]
        rfl
      · obtain ⟨field, msg, refused⟩ := @checkSize_refused "tagList" tag 2 256 here
        refine ⟨field, msg, ?_⟩
        rw [refused]
        rfl
  obtain ⟨field, msg, failed⟩ := each
  refine ⟨field, msg, ?_⟩
  unfold Handlers.checkTagList
  dsimp only
  rw [failed]
  rfl

theorem map_str_inj {texts others : List String} (same : texts.map Json.str = others.map .str) : texts = others :=
  List.map_injective_iff.mpr (fun _ _ => Json.str.inj) same

theorem checkTagList_step : (FieldCheck.optionalList name (Within 2 256)).Step lib data
    (do Handlers.checkTagList (← (← data.member name).asOptionalStrings)) := by
  rcases member_cases data name with failed | ⟨value, member⟩
  · rw [failed]
    refine .illegible ?_
    rintro ⟨_, same, _⟩
    cases failed.symm.trans same
  · rw [member]
    match value with
    | none => exact .passed none ⟨none, member, .inl rfl⟩ fun _ same => nomatch member.symm.trans same
    | some .null => exact .passed none ⟨_, member, .inr (.inl rfl)⟩ fun _ same => nomatch member.symm.trans same
    | some (.arr items) =>
      rcases mapM_asString_cases items with ⟨texts, rfl⟩ | ⟨other, failed⟩
      · have read := asOptionalStrings_array texts
        show FieldCheck.Step lib data _ (Value.asOptionalStrings _ >>= _)
        rw [read]
        have readable : (FieldCheck.optionalList name (Within 2 256)).Readable lib data :=
          ⟨_, member, .inr (.inr ⟨texts, rfl⟩)⟩
        show FieldCheck.Step lib data _ (Handlers.checkTagList (some texts))
        by_cases within : ∀ tag ∈ texts, Within 2 256 tag
        · rw [checkTagList_of within]
          refine .passed _ readable fun others same => ?_
          have arrays := Option.some.inj (Except.ok.inj (member.symm.trans same))
          rwa [← map_str_inj (Json.arr.inj arrays)]
        · obtain ⟨field, msg, refused⟩ := checkTagList_refused within
          rw [refused]
          exact .refused field msg readable fun passes => within (passes texts member)
      · show FieldCheck.Step lib data _ ((some <$> items.mapM fun item => Value.asString (some item)) >>= _)
        rw [failed]
        refine .illegible ?_
        rintro ⟨_, same, rfl | rfl | ⟨texts, rfl⟩⟩
        · cases member.symm.trans same
        · cases member.symm.trans same
        · exact other ⟨texts, Json.arr.inj (Option.some.inj (Except.ok.inj (member.symm.trans same)))⟩
    | some (.bool _) | some (.int _) | some (.str _) | some (.obj _) =>
      refine .illegible ?_
      rintro ⟨_, same, rfl | rfl | ⟨_, rfl⟩⟩ <;> cases member.symm.trans same

end

/-! ### The parsers -/

namespace Handlers

section
variable {lib : JsonLib} {data : Value}

theorem Users.Post.parses (throws : ∀ e, lib.hasMemberOfMissing = .error e → e = .json) :
    Parses (Legible lib data registrationChecks) (parseRequest lib data) := by
  apply (checkSizeOf_step throws 2 20).bind fun username => ?_
  apply (checkSizeOf_step throws 5 100).bind fun password => ?_
  apply (validateEmail_step throws).bind fun email => ?_
  exact .accepted _ trivial

theorem UsersLogin.Post.parses (throws : ∀ e, lib.hasMemberOfMissing = .error e → e = .json) :
    Parses (Legible lib data loginChecks) (parseRequest lib data) := by
  apply (validateEmail_step throws).bind fun email => ?_
  apply (checkSizeOf_step throws 5 100).bind fun password => ?_
  exact .accepted _ trivial

/-- The last check of an update: some field has been given. -/
theorem parses_given {α : Type} {a : α} (given : Bool) (field msg : String) : Parses (Legible lib data []) (do
    if given then throw (.validation field msg)
    return a : Except Exn α) := by
  cases given with
  | true => exact .refused field msg trivial
  | false => exact .accepted a trivial

theorem User.Put.parses (throws : ∀ e, lib.hasMemberOfMissing = .error e → e = .json) :
    Parses (Legible lib data profileChecks) (parseRequest lib data) := by
  apply (checkOptionalEmail_step throws).bind_read fun email => ?_
  apply (checkOptional_step 2 20).bind_read fun username => ?_
  apply (checkOptional_step 5 100).bind_read fun password => ?_
  apply (checkOptional_step 3 65535).bind_read fun bio => ?_
  apply (checkOptional_step 3 255).bind_read fun image => ?_
  exact parses_given _ _ _

theorem Articles.Post.parses (throws : ∀ e, lib.hasMemberOfMissing = .error e → e = .json) :
    Parses (Legible lib data newArticleChecks) (parseRequest lib data) := by
  apply (checkSizeOf_step throws 3 256).bind fun title => ?_
  apply (checkSizeOf_step throws 5 8192).bind fun description => ?_
  apply (checkSizeOf_step throws 5 65535).bind fun body => ?_
  apply checkTagList_step.bind_read fun tagList => ?_
  exact .accepted _ trivial

theorem ArticlesSlug.Put.parses (request : HttpRequest) :
    Parses (Legible lib data articleUpdateChecks) (parseRequest data request) := by
  apply (checkOptional_step 3 255).bind_read fun title => ?_
  apply (checkOptional_step 5 8192).bind_read fun description => ?_
  apply (checkOptional_step 5 65535).bind_read fun body => ?_
  apply checkTagList_step.bind_read fun tagList => ?_
  exact parses_given _ _ _

theorem ArticlesSlugComments.Post.parses (throws : ∀ e, lib.hasMemberOfMissing = .error e → e = .json)
    (request : HttpRequest) (user : UserAuthData) :
    Parses (Legible lib data commentChecks) (parseRequest lib request data (some user)) := by
  apply (checkSizeOf_step throws 4 16384).bind fun body => ?_
  exact .accepted _ trivial

end

end Handlers

section
variable {svc : Service} {call : Call} {s : Store} {ms : Nat → Moment}

/-- What becomes of a handler whose parser needs `legible`. -/
theorem Parses.answered {α : Type} {legible : Prop} {good : α → Prop} {parsed given : Except Exn α}
    {handle : α → Program Response} (parses : Parses legible parsed) (same : given = parsed)
    (sound : ∀ {a}, parsed = .ok a → good a) (serves : serve svc call = Handlers.validated given handle)
    (ms : Nat → Moment) (s : Store) :
    (∃ a, given = .ok a ∧ good a) ∨ (respond svc call ms s).1.clientError ↔ legible := by
  subst same
  unfold respond
  rw [serves]
  cases parses with
  | accepted a holds => exact iff_of_true (.inl ⟨a, rfl, sound rfl⟩) holds
  | refused field msg holds =>
    exact iff_of_true (.inr ⟨(by decide : 400 ≤ 422), (by decide : 422 < 500)⟩) holds
  | illegible fails =>
    refine iff_of_false ?_ fails
    rintro (⟨_, ⟨⟩, _⟩ | refused)
    exact Response.not_clientError_failure _ refused

/-- An object that is sent to a handler leads to a request with valid fields or to a client error exactly if each
field that the parser comes to has a type that it can read. -/
theorem bodies_handled_iff {object : String} {checks : List FieldCheck} {members : List (String × Json)}
    (reads : call.route.bodyChecks = some (object, checks)) (body : call.request.body = .obj members)
    (entered : call.route.auth = none ∨ ∃ data, call.caller svc = some data)
    (throws : ∀ e, svc.json.hasMemberOfMissing = .error e → e = .json) (ms : Nat → Moment) (s : Store) :
    Obtains svc call ∨ (respond svc call ms s).1.clientError ↔
      Legible svc.json ((members.find? fun m => m.1 = object).map (·.2)) checks := by
  have open_ : call.route.auth = none → serve svc call = handler svc call none := by
    intro auth
    unfold serve
    rw [auth]
  have guarded : call.route.auth = some false → ∃ data, call.caller svc = some data ∧
      serve svc call = handler svc call (some data) := by
    intro auth
    rcases entered with none | ⟨data, token⟩
    · cases auth.symm.trans none
    · exact ⟨data, token, serve_caller token (by rw [auth]; rfl)⟩
  unfold handler at open_ guarded
  unfold Obtains
  cases route : call.route with
  | postUsers =>
    rw [route] at reads open_
    cases reads
    refine (Handlers.Users.Post.parses throws).answered ?_ Handlers.Users.Post.parseRequest_checked (open_ rfl) ms s
    rw [body]
    rfl
  | postUsersLogin =>
    rw [route] at reads open_
    cases reads
    refine (Handlers.UsersLogin.Post.parses throws).answered ?_ Handlers.UsersLogin.Post.parseRequest_checked (open_ rfl) ms s
    rw [body]
    rfl
  | putUser =>
    rw [route] at reads guarded
    cases reads
    obtain ⟨data, token, serves⟩ := guarded rfl
    refine (Handlers.User.Put.parses throws).answered ?_ Handlers.User.Put.parseRequest_checked serves ms s
    rw [body]
    rfl
  | postArticles =>
    rw [route] at reads guarded
    cases reads
    obtain ⟨data, token, serves⟩ := guarded rfl
    refine (Handlers.Articles.Post.parses throws).answered ?_ Handlers.Articles.Post.parseRequest_checked serves ms s
    rw [body]
    rfl
  | putArticlesSlug =>
    rw [route] at reads guarded
    cases reads
    obtain ⟨data, token, serves⟩ := guarded rfl
    refine (Handlers.ArticlesSlug.Put.parses call.request).answered ?_ Handlers.ArticlesSlug.Put.parseRequest_checked
      serves ms s
    rw [body]
    rfl
  | postArticlesSlugComments =>
    rw [route] at reads guarded
    cases reads
    obtain ⟨data, token, serves⟩ := guarded rfl
    rw [token]
    refine (Handlers.ArticlesSlugComments.Post.parses throws call.request data).answered ?_
      Handlers.ArticlesSlugComments.Post.parseRequest_checked serves ms s
    rw [body]
    rfl
  | _ =>
    rw [route] at reads
    cases reads

end

/-- A registration with an object of these members. -/
def sampleBody (members : List (String × Json)) : Call := { route := .postUsers, request := { body := .obj members } }

theorem bodies_handled_sample :
    let members := [("user", .obj [("username", .str "anna"), ("password", .null)])]
    Obtains sample (sampleBody members) ∨
        (respond sample (sampleBody members) (fun _ => sampleMoment) Store.empty).1.clientError ↔
      Legible sample.json ((members.find? fun m => m.1 = "user").map (·.2)) registrationChecks := by
  intro members
  have throws : ∀ e, sample.json.hasMemberOfMissing = .error e → e = .json := by
    intro e failed
    cases failed
  exact bodies_handled_iff rfl rfl (.inl rfl) throws _ _

/-- A number in place of the user is answered as a failure of the server. -/
theorem numeric_user_escapes :
    let call := sampleBody [("user", .int 5)]
    (respond sample call (fun _ => sampleMoment) Store.empty).1.status = 500 ∧
      ¬ (Obtains sample call ∨ (respond sample call (fun _ => sampleMoment) Store.empty).1.clientError) := by
  intro call
  have failed : (respond sample call (fun _ => sampleMoment) Store.empty).1.status = 500 := by decide
  refine ⟨failed, ?_⟩
  rintro (⟨_, accepted, _⟩ | ⟨_, below⟩)
  · cases accepted
  · rw [failed] at below
    exact absurd below (by decide)

end RealWorld
