import RealWorld.Schema.Statement

/-!
# `formats::json` values and `common/errors.cpp`

JSON documents as the handlers read and build them, the exceptions that can leave a handler and
the error body of the API.
-/

namespace RealWorld
open Schema

/-- A JSON document. No handler reads a number, so integers are the only numbers kept: any other number is, like them,
a value of the wrong type. -/
inductive Json where
  | null
  | bool (b : Bool)
  | int (n : Int)
  | str (s : String)
  | arr (items : List Json)
  | obj (members : List (String × Json))

/-- Everything that may be thrown out of a handler. -/
inductive Exn where
  | validation (field msg : String)
  | forbidden (field msg : String)
  | db (e : DbError)
  | resultSet
  | json
  | badLexicalCast
  | noAuthData
  | runtime
  deriving DecidableEq

/-- What the code takes from the JSON library beyond its documented behaviour: `HasMember` of a
missing value, and the text a time point is serialized to. -/
structure JsonLib where
  hasMemberOfMissing : Except Exn Bool
  timePoint : Int → String

/-- `formats::json::Value`: a document, or the missing value an absent member yields. -/
abbrev Value := Option Json

namespace Value

/-- `data[key]`. -/
def member (data : Value) (key : String) : Except Exn Value :=
  match data with
  | none | some .null => .ok none
  | some (.obj members) => .ok ((members.find? fun m => m.1 = key).map (·.2))
  | some _ => .error .json

def hasMember (lib : JsonLib) (data : Value) (key : String) : Except Exn Bool :=
  match data with
  | none => lib.hasMemberOfMissing
  | some .null => .ok false
  | some (.obj members) => .ok (members.any fun m => m.1 = key)
  | some _ => .error .json

def asString : Value → Except Exn String
  | some (.str s) => .ok s
  | _ => .error .json

def asOptionalString : Value → Except Exn (Option String)
  | none | some .null => .ok none
  | some (.str s) => .ok (some s)
  | some _ => .error .json

def asOptionalStrings : Value → Except Exn (Option (List String))
  | none | some .null => .ok none
  | some (.arr items) => some <$> items.mapM fun item => asString (some item)
  | some _ => .error .json

end Value

theorem checked_bind {α β : Type} {x : Except Exn α} {f : α → Except Exn β} {b : β} :
    x >>= f = .ok b ↔ ∃ a, x = .ok a ∧ f a = .ok b := by
  cases x with
  | error e => exact ⟨nofun, fun ⟨_, failed, _⟩ => nomatch failed⟩
  | ok a => exact ⟨fun accepted => ⟨a, rfl, accepted⟩, fun ⟨_, same, accepted⟩ => Except.ok.inj same ▸ accepted⟩

def makeError (field msg : String) : Json :=
  .obj [("errors", .obj [(field, .arr [.str msg])])]

structure Response where
  status : Nat
  body : Json

/-- What the client sees: the response, or what the server makes of an escaping exception.
`ValidationError` derives from the client error code and `ForbiddenError` from 403. -/
def Response.ofExcept : Except Exn Response → Response
  | .ok response => response
  | .error (.validation field msg) => ⟨400, makeError field msg⟩
  | .error (.forbidden field msg) => ⟨403, makeError field msg⟩
  | .error _ => ⟨500, .null⟩

def Response.success (r : Response) : Prop := r.status = 200

instance (r : Response) : Decidable r.success := inferInstanceAs (Decidable (r.status = 200))

/-- A status from 400 to 499. -/
def Response.clientError (r : Response) : Prop := 400 ≤ r.status ∧ r.status < 500

theorem Response.not_clientError_failure (body : Json) : ¬ (⟨500, body⟩ : Response).clientError :=
  fun below => Nat.lt_irrefl 500 below.2

theorem Response.not_success_error (e : Exn) : ¬ (Response.ofExcept (.error e)).success := by
  cases e <;> nofun

end RealWorld
