import Mathlib.Data.List.Basic
import RealWorld.Common.Tokens

/-!
# `picojson.h`

The values of a token, how they are written without indentation and how they are read. Numbers that are
no 64-bit integers are left to the C library.
-/

namespace RealWorld.Picojson

/-- `strtod` on a whole text (none also where the result is no finite number, which `value(double)` throws at),
`std::round` and the format of `value::to_str`. -/
structure Doubles where
  Double : Type
  strtod : List UInt8 → Option Double
  round : Double → Int
  toStr : Double → List UInt8

/-- An object is a `std::map`: its members are kept in the order of their keys. -/
inductive Value (lib : Doubles) where
  | null
  | boolean (b : Bool)
  | int64 (n : Int)
  | number (f : lib.Double)
  | string (s : List UInt8)
  | array (items : List (Value lib))
  | object (members : List (List UInt8 × Value lib))

variable {lib : Doubles}

def char (c : Char) : UInt8 := c.toUInt8

/-! ### Writing -/

def hexDigit (n : Nat) : UInt8 := if n < 10 then UInt8.ofNat (0x30 + n) else UInt8.ofNat (0x57 + n)

/-- `serialize_str_char`. -/
def serializeChar (c : UInt8) : List UInt8 :=
  if c = 0x22 then [0x5C, 0x22]
  else if c = 0x5C then [0x5C, 0x5C]
  else if c = 0x2F then [0x5C, 0x2F]
  else if c = 0x08 then [0x5C, 0x62]
  else if c = 0x0C then [0x5C, 0x66]
  else if c = 0x0A then [0x5C, 0x6E]
  else if c = 0x0D then [0x5C, 0x72]
  else if c = 0x09 then [0x5C, 0x74]
  else if c < 0x20 ∨ c = 0x7F then [0x5C, 0x75, 0x30, 0x30, hexDigit (c.toNat / 16), hexDigit (c.toNat % 16)]
  else [c]

def serializeStr (s : List UInt8) : List UInt8 := 0x22 :: (s.flatMap serializeChar ++ [0x22])

def decimal (n : Int) : List Char := (if n < 0 then ['-'] else []) ++ Nat.toDigits 10 n.natAbs

/-- `%" PRId64`. -/
def printInt64 (n : Int) : List UInt8 := (decimal n).map char

mutual

/-- `value::_serialize` with indent -1. -/
def Value.serialize : Value lib → List UInt8
  | .null => [0x6E, 0x75, 0x6C, 0x6C]
  | .boolean true => [0x74, 0x72, 0x75, 0x65]
  | .boolean false => [0x66, 0x61, 0x6C, 0x73, 0x65]
  | .int64 n => printInt64 n
  | .number f => lib.toStr f
  | .string s => serializeStr s
  | .array items => 0x5B :: (serializeItems items ++ [0x5D])
  | .object members => 0x7B :: (serializeMembers members ++ [0x7D])

def serializeItems : List (Value lib) → List UInt8
  | [] => []
  | [v] => v.serialize
  | v :: w :: items => v.serialize ++ 0x2C :: serializeItems (w :: items)

def serializeMembers : List (List UInt8 × Value lib) → List UInt8
  | [] => []
  | [(key, v)] => serializeStr key ++ 0x3A :: v.serialize
  | (key, v) :: m :: members => serializeStr key ++ 0x3A :: (v.serialize ++ 0x2C :: serializeMembers (m :: members))

end

/-! ### Reading

The input is what `getc` has yet to return. Each function gives what it read and the rest, or nothing if
it fails. -/

abbrev Input := List UInt8

def isSpace (c : UInt8) : Bool := c == 0x20 || c == 0x09 || c == 0x0A || c == 0x0D

def skipWs (input : Input) : Input := input.dropWhile isSpace

def expect (expected : UInt8) (input : Input) : Option Input :=
  match skipWs input with
  | c :: rest => if c = expected then some rest else none
  | [] => none

/-- `input::match`. -/
def matchText : List UInt8 → Input → Option Input
  | [], input => some input
  | p :: pattern, c :: rest => if c = p then matchText pattern rest else none
  | _ :: _, [] => none

def hexValue (c : UInt8) : Option Nat :=
  if 0x30 ≤ c ∧ c ≤ 0x39 then some (c.toNat - 0x30)
  else if 0x41 ≤ c ∧ c ≤ 0x46 then some (c.toNat - 0x37)
  else if 0x61 ≤ c ∧ c ≤ 0x66 then some (c.toNat - 0x57)
  else none

def parseQuadhex : Input → Option (Nat × Input)
  | a :: b :: c :: d :: rest => do
    let (a, b, c, d) := (← hexValue a, ← hexValue b, ← hexValue c, ← hexValue d)
    return (((a * 16 + b) * 16 + c) * 16 + d, rest)
  | _ => none

/-- The bytes `_parse_codepoint` pushes. -/
def encodeCodepoint (ch : Nat) : List UInt8 :=
  if ch < 0x80 then [UInt8.ofNat ch]
  else if ch < 0x800 then [UInt8.ofNat (0xC0 + ch / 64), UInt8.ofNat (0x80 + ch % 64)]
  else if ch < 0x10000 then
    [UInt8.ofNat (0xE0 + ch / 4096), UInt8.ofNat (0x80 + ch / 64 % 64), UInt8.ofNat (0x80 + ch % 64)]
  else [UInt8.ofNat (0xF0 + ch / 262144), UInt8.ofNat (0x80 + ch / 4096 % 64),
    UInt8.ofNat (0x80 + ch / 64 % 64), UInt8.ofNat (0x80 + ch % 64)]

def parseCodepoint (input : Input) : Option (List UInt8 × Input) := do
  let (ch, rest) ← parseQuadhex input
  if 0xD800 ≤ ch ∧ ch ≤ 0xDFFF then
    if 0xDC00 ≤ ch then none
    else
      let rest ← matchText [0x5C, 0x75] rest
      let (second, rest) ← parseQuadhex rest
      if 0xDC00 ≤ second ∧ second ≤ 0xDFFF then
        return (encodeCodepoint ((ch - 0xD800) * 1024 + (second - 0xDC00) + 0x10000), rest)
      else none
  else return (encodeCodepoint ch, rest)

/-- What follows a backslash in a string. -/
def parseEscape : Input → Option (List UInt8 × Input)
  | [] => none
  | c :: rest =>
    if c = 0x22 ∨ c = 0x5C ∨ c = 0x2F then some ([c], rest)
    else if c = 0x62 then some ([0x08], rest)
    else if c = 0x66 then some ([0x0C], rest)
    else if c = 0x6E then some ([0x0A], rest)
    else if c = 0x72 then some ([0x0D], rest)
    else if c = 0x74 then some ([0x09], rest)
    else if c = 0x75 then parseCodepoint rest
    else none

/-- `_parse_string`, behind the opening quote. The fuel bounds the turns of the loop. -/
def parseString : Nat → Input → Option (List UInt8 × Input)
  | 0, _ => none
  | _ + 1, [] => none
  | fuel + 1, c :: rest =>
    if c < 0x20 then none
    else if c = 0x22 then some ([], rest)
    else if c = 0x5C then do
      let (out, rest) ← parseEscape rest
      let (s, rest) ← parseString fuel rest
      return (out ++ s, rest)
    else do
      let (s, rest) ← parseString fuel rest
      return (c :: s, rest)

def isDigit (c : UInt8) : Bool := 0x30 ≤ c && c ≤ 0x39

/-- The characters `_parse_number` takes, `.` as in the C locale. -/
def isNumberChar (c : UInt8) : Bool :=
  isDigit c || c == 0x2B || c == 0x2D || c == 0x65 || c == 0x45 || c == 0x2E

def splitSign : List UInt8 → Bool × List UInt8
  | 0x2D :: digits => (true, digits)
  | digits => (false, digits)

/-- `strtoimax` where it reads all of a text that starts with a digit or `-`, without overflow. -/
def strtoimax (numStr : List UInt8) : Option Int :=
  let (negative, digits) := splitSign numStr
  if digits.isEmpty || !digits.all isDigit then none
  else
    let n : Nat := digits.foldl (fun n c => n * 10 + (c.toNat - 0x30)) 0
    let i : Int := if negative then -n else n
    if IsInt64 i then some i else none

def parseNumber (numStr : List UInt8) : Option (Value lib) :=
  match strtoimax numStr with
  | some n => some (.int64 n)
  | none => (lib.strtod numStr).map .number

/-- `object::operator[]` and the assignment through it. -/
def setMember (key : List UInt8) (v : Value lib) :
    List (List UInt8 × Value lib) → List (List UInt8 × Value lib)
  | [] => [(key, v)]
  | (k, w) :: members =>
    if key < k then (key, v) :: (k, w) :: members
    else if key = k then (key, v) :: members
    else (k, w) :: setMember key v members

mutual

/-- `_parse` with a `default_parse_context`. The fuel bounds the depth of the calls. -/
def parse : Nat → (depths : Nat) → Input → Option (Value lib × Input)
  | 0, _, _ => none
  | fuel + 1, depths, input =>
    match skipWs input with
    | [] => none
    | c :: rest =>
      if c = 0x6E then (matchText [0x75, 0x6C, 0x6C] rest).map (Value.null, ·)
      else if c = 0x66 then (matchText [0x61, 0x6C, 0x73, 0x65] rest).map (Value.boolean false, ·)
      else if c = 0x74 then (matchText [0x72, 0x75, 0x65] rest).map (Value.boolean true, ·)
      else if c = 0x22 then (parseString fuel rest).map fun (s, rest) => (Value.string s, rest)
      else if c = 0x5B then
        if depths = 0 then none
        else match expect 0x5D rest with
          | some rest => some (Value.array [], rest)
          | none => parseItems fuel (depths - 1) [] rest
      else if c = 0x7B then
        -- `parse_object_start` does not count the level
        if depths = 0 then none
        else match expect 0x7D rest with
          | some rest => some (Value.object [], rest)
          | none => parseMembers fuel depths [] rest
      else if isDigit c || c == 0x2D then
        (parseNumber ((c :: rest).takeWhile isNumberChar)).map (·, (c :: rest).dropWhile isNumberChar)
      else none

/-- The loop of `_parse_array`. -/
def parseItems : Nat → (depths : Nat) → List (Value lib) → Input → Option (Value lib × Input)
  | 0, _, _, _ => none
  | fuel + 1, depths, items, input => do
    let (v, rest) ← parse fuel depths input
    match expect 0x2C rest with
    | some rest => parseItems fuel depths (items ++ [v]) rest
    | none => (expect 0x5D rest).map (Value.array (items ++ [v]), ·)

/-- The loop of `_parse_object`. -/
def parseMembers : Nat → (depths : Nat) → List (List UInt8 × Value lib) → Input → Option (Value lib × Input)
  | 0, _, _, _ => none
  | fuel + 1, depths, members, input => do
    let rest ← expect 0x22 input
    let (key, rest) ← parseString fuel rest
    let rest ← expect 0x3A rest
    let (v, rest) ← parse fuel depths rest
    match expect 0x2C rest with
    | some rest => parseMembers fuel depths (setMember key v members) rest
    | none => (expect 0x7D rest).map (Value.object (setMember key v members), ·)

end

def defaultMaxDepths : Nat := 100

/-- `picojson::parse`: what follows the value is not looked at. -/
def parseText (text : List UInt8) : Option (Value lib) :=
  (parse (text.length + 1) defaultMaxDepths text).map (·.1)

end RealWorld.Picojson
