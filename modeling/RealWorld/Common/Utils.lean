import RealWorld.Common.Errors
import RealWorld.Text.Regex

/-!
# `common/utils.cpp` and `common/slugify.cpp`

The validators the request parsers share, and the slug of a title.
-/

namespace RealWorld
open Text

/-- `\w` in the C locale. -/
def isWordByte (b : UInt8) : Bool :=
  (48 ≤ b && b ≤ 57) || (65 ≤ b && b ≤ 90) || b == 95 || (97 ≤ b && b ≤ 122)

/-- `(\w+)(\.|_)?(\w*)@(\w+)(\.(\w+))+`. -/
def emailPattern : Regex UInt8 :=
  let word := Regex.chars isWordByte
  let byte (c : Char) := Regex.chars fun b => b == c.toUInt8
  .seq (.plus word) (.seq (.opt (.alt (byte '.') (byte '_'))) (.seq (.star word)
    (.seq (byte '@') (.seq (.plus word) (.plus (.seq (byte '.') (.plus word)))))))

def utf8 (s : String) : List UInt8 := s.toUTF8.data.toList

theorem utf8_toList (s : String) : utf8 s = s.toList.flatMap String.utf8EncodeChar := by
  unfold utf8
  conv_lhs => rw [← String.ofList_toList (s := s)]
  simp [String.toUTF8, String.ofList, List.utf8Encode]

theorem utf8_append (s t : String) : utf8 (s ++ t) = utf8 s ++ utf8 t := by
  rw [utf8_toList, utf8_toList, utf8_toList, String.toList_append, List.flatMap_append]

theorem utf8_nul {s : String} (nul : Char.ofNat 0 ∈ s.toList) : 0 ∈ utf8 s := by
  rw [utf8_toList]
  exact List.mem_flatMap.mpr ⟨_, nul, by decide⟩

/-- An address that matches is made of word characters, `.`, `_` and `@`. -/
theorem emailPattern_nonzero : emailPattern.Over (· ≠ 0) := by
  have word : ∀ c, isWordByte c = true → c ≠ 0 := by
    rintro c isWord rfl
    cases isWord
  have byte : ∀ d : UInt8, d ≠ 0 → ∀ c, (c == d) = true → c ≠ 0 := by
    intro d nonzero c same
    rwa [beq_iff_eq.mp same]
  exact ⟨⟨word, word⟩, ⟨⟨byte _ (by decide), byte _ (by decide)⟩, trivial⟩, word, byte _ (by decide),
    ⟨word, word⟩, ⟨byte _ (by decide), word, word⟩, byte _ (by decide), word, word⟩

def validateEmail (lib : JsonLib) (data : Value) (name : String) : Except Exn String := do
  if !(← data.hasMember lib name) then throw (.validation name "required")
  let email ← (← data.member name).asString
  if email.isEmpty then throw (.validation name "cannot be empty")
  if emailPattern.accepts (utf8 email) then return email
  throw (.validation name "invalid")

/-- `CheckSize` of a string: lengths count code points. -/
def checkSize (value name : String) (min max : Nat) : Except Exn String :=
  if min < value.length ∧ value.length < max then .ok value
  else .error (.validation name
    ("must be longer than " ++ toString min ++ " characters and less than " ++ toString max))

theorem checkSize_ok {value name text : String} {min max : Nat}
    (checked : checkSize value name min max = .ok text) : text = value ∧ min < text.length ∧ text.length < max := by
  unfold checkSize at checked
  split at checked
  · rename_i range
    obtain rfl := Except.ok.inj checked
    exact ⟨rfl, range⟩
  · cases checked

/-- `CheckSize` of a member of a JSON object. -/
def checkSizeOf (lib : JsonLib) (data : Value) (name : String) (min max : Nat) : Except Exn String := do
  if !(← data.hasMember lib name) then throw (.validation name "required")
  let str ← (← data.member name).asString
  checkSize str name min max

theorem checkSizeOf_ok {lib : JsonLib} {data : Value} {name text : String} {min max : Nat}
    (checked : checkSizeOf lib data name min max = .ok text) : min < text.length ∧ text.length < max := by
  unfold checkSizeOf at checked
  obtain ⟨present, _, checked⟩ := checked_bind.mp checked
  cases present with
  | false => cases checked
  | true =>
    obtain ⟨value, _, checked⟩ := checked_bind.mp checked
    obtain ⟨str, _, checked⟩ := checked_bind.mp checked
    exact (checkSize_ok checked).2

/-- `boost::algorithm::to_lower` in the C locale. -/
def toLower (s : String) : String := String.ofList (s.toList.map Char.toLower)

theorem toLower_length (s : String) : (toLower s).length = s.length := by
  simp [toLower, ← String.length_toList]

/-- Only the capitals of ASCII are lower-cased. -/
theorem lower_cases (c : Char) :
    c.toLower = c ∨ 65 ≤ c.toNat ∧ c.toNat ≤ 90 ∧ c.toLower.toNat = c.toNat + 32 := by
  by_cases capital : c.val ≥ 'A'.val ∧ c.val ≤ 'Z'.val
  · have lower : c.toLower.val = c.val + ('a'.val - 'A'.val) := by
      unfold Char.toLower
      rw [dif_pos capital]
    have least : 65 ≤ c.toNat := UInt32.le_iff_toNat_le.mp capital.1
    have most : c.toNat ≤ 90 := UInt32.le_iff_toNat_le.mp capital.2
    refine .inr ⟨least, most, ?_⟩
    rw [← Char.toNat_val, lower, UInt32.toNat_add]
    exact Nat.mod_eq_of_lt (Nat.add_lt_add_right (Nat.lt_of_le_of_lt most (by decide)) 32)
  · exact .inl (dif_neg capital)

theorem lower_lower (c : Char) : c.toLower.toLower = c.toLower := by
  rcases lower_cases c with same | ⟨least, _, lower⟩
  · rw [same, same]
  · rcases lower_cases c.toLower with same | ⟨_, most, _⟩
    · exact same
    · omega

theorem lower_null {c : Char} : c.toLower = Char.ofNat 0 ↔ c = Char.ofNat 0 := by
  rcases lower_cases c with same | ⟨least, _, lower⟩
  · rw [same]
  · refine iff_of_false (fun null => ?_) (fun null => ?_)
    · rw [null] at lower
      have zero : (Char.ofNat 0).toNat = 0 := rfl
      omega
    · rw [null] at least
      exact absurd least (by decide)

theorem toLower_toLower (s : String) : toLower (toLower s) = toLower s := by
  unfold toLower
  rw [String.toList_ofList, List.map_map]
  exact congrArg String.ofList (List.map_congr_left fun c _ => lower_lower c)

theorem storable_toLower (s : String) : Schema.storable (toLower s) = Schema.storable s := by
  unfold Schema.storable toLower
  rw [String.toList_ofList]
  simp [lower_null]

/-- `boost::lexical_cast<std::int32_t>`: an optional sign and decimal digits, in range. -/
def lexicalCastInt32 (s : String) : Except Exn Int :=
  let (sign, digits) : Int × List Char := match s.toList with
    | '-' :: ds => (-1, ds)
    | '+' :: ds => (1, ds)
    | ds => (1, ds)
  let n := sign * (digits.foldl (fun n d => 10 * n + (d.toNat - '0'.toNat)) 0 : Nat)
  if digits ≠ [] ∧ digits.all Char.isDigit ∧ -2147483648 ≤ n ∧ n ≤ 2147483647 then .ok n
  else .error .badLexicalCast

theorem lexicalCastInt32_repr {n : Nat} (fits : n ≤ 2147483647) : lexicalCastInt32 n.repr = .ok n := by
  have digits : ∀ d ∈ Nat.toDigits 10 n, d.isDigit := fun d member =>
    Nat.isDigit_of_mem_toDigits (by decide) (by decide) member
  have value : (Nat.toDigits 10 n).foldl (fun n d => 10 * n + (d.toNat - '0'.toNat)) 0 = n := by
    rw [← Nat.ofDigitChars_eq_foldl]
    exact Nat.ofDigitChars_ten_toDigits
  unfold lexicalCastInt32
  rw [Nat.toList_repr]
  split
  rename_i sign ds split
  have unsigned : sign = 1 ∧ ds = Nat.toDigits 10 n := by
    split at split
    · rename_i first
      have minus := digits '-' (by rw [first]; exact List.mem_cons_self)
      exact absurd minus (by decide)
    · rename_i first
      have plus := digits '+' (by rw [first]; exact List.mem_cons_self)
      exact absurd plus (by decide)
    · cases split
      exact ⟨rfl, rfl⟩
  obtain ⟨rfl, rfl⟩ := unsigned
  dsimp only
  rw [value, if_pos ⟨Nat.toDigits_ne_nil, List.all_eq_true.mpr digits, by omega, by omega⟩, Int.one_mul]

/-- The ICU transforms and character sets that the rules of `Slugify` name. `createFromRules` is
whether the rules compile with status `U_ZERO_ERROR`. -/
structure Icu where
  createFromRules : Bool
  anyLatin : List Char → List Char
  nonspacingMark : Char → Bool
  punctuation : Char → Bool
  symbol : Char → Bool
  latinAscii : List Char → List Char
  lower : List Char → List Char
  separator : Char → Bool

/-- The rule `' ' {' '} > ;`: a blank is deleted when the text already rewritten, here `done`
in reverse, ends in a blank. -/
def collapseBlanks : (done : List Char) → List Char → List Char
  | done, [] => done.reverse
  | done, c :: cs =>
      if done.head? = some ' ' ∧ c = ' ' then collapseBlanks done cs else collapseBlanks (c :: done) cs

def transliterate (icu : Icu) (text : List Char) : List Char :=
  let text := icu.anyLatin text
  let text := text.filter fun c => !icu.nonspacingMark c
  let text := text.filter fun c => !icu.punctuation c
  let text := text.filter fun c => !icu.symbol c
  let text := icu.latinAscii text
  let text := icu.lower text
  let text := collapseBlanks [] text
  text.map fun c => if icu.separator c then '-' else c

def slugify (icu : Icu) (str : String) : Except Exn String :=
  if icu.createFromRules then .ok (String.ofList (transliterate icu str.toList)) else .error .runtime

end RealWorld
