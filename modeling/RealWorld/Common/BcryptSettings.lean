import RealWorld.Bytes.Sextets
import RealWorld.Common.Bcrypt

/-!
# The settings `BF_crypt` accepts

A setting names a revision, a cost and 22 digits of salt. What comes out is the setting once more, the
bits of its last digit that no byte takes cleared, and the digest.
-/

namespace RealWorld

/-! ### Digits -/

def itoa64s (ds : List (Fin 64)) : List Char := ds.map fun d : Fin 64 => itoa64 d

@[simp] theorem length_itoa64s (ds : List (Fin 64)) : (itoa64s ds).length = ds.length := List.length_map ..

theorem atoi64_fin : ∀ d : Fin 64, atoi64 (itoa64 d) = some d.val := by decide +kernel

theorem atoi64_some {c : Char} {n : Nat} (found : atoi64 c = some n) : ∃ d : Fin 64, d.val = n ∧ c = itoa64 d := by
  obtain ⟨small, here, _⟩ := List.findIdx?_eq_some_iff_getElem.mp (show bfItoa64.findIdx? (· == c) = some n from found)
  refine ⟨⟨n, small⟩, rfl, ?_⟩
  rw [itoa64, List.getD_eq_getElem?_getD, List.getElem?_eq_getElem small, Option.getD_some]
  exact (beq_iff_eq.mp here).symm

theorem bfEncode_eq (bytes : List UInt8) : bfEncode bytes = itoa64s (Sextets.digits bytes) := by
  induction bytes using bfEncode.induct with
  | case1 => rfl
  | case2 a =>
    have small := a.toNat_lt
    simp only [bfEncode, Sextets.digits, itoa64s, List.map_cons, List.map_nil]
    rw [Sextets.digit_val (by omega), Sextets.digit_val (by omega)]
  | case3 a b =>
    have small := a.toNat_lt
    have small' := b.toNat_lt
    simp only [bfEncode, Sextets.digits, itoa64s, List.map_cons, List.map_nil]
    rw [Sextets.digit_val (by omega), Sextets.digit_val (by omega), Sextets.digit_val (by omega)]
  | case4 a b c rest ih =>
    have small := a.toNat_lt
    have small' := b.toNat_lt
    have small'' := c.toNat_lt
    simp only [bfEncode, ih, Sextets.digits, itoa64s, List.map_cons]
    rw [Sextets.digit_val (by omega), Sextets.digit_val (by omega), Sextets.digit_val (by omega),
      Sextets.digit_val (by omega)]

/-- `BF_decode` reads whole groups and a last group of two digits, as 16 bytes leave. -/
theorem bfDecode_itoa64s {ds : List (Fin 64)} (even : ds.length % 2 = 0) :
    bfDecode (itoa64s ds) = some ((Sextets.bytes ds).map (·.toNat)) := by
  induction ds using Sextets.bytes.induct with
  | case1 d1 d2 d3 d4 rest ih =>
    simp only [List.length_cons] at even
    simp only [itoa64s, List.map_cons, bfDecode_block, atoi64_fin, Sextets.bytes]
    have tail := ih (by omega)
    unfold itoa64s at tail
    rw [tail, Sextets.toNat_eq (by omega), Sextets.toNat_eq (by omega), Sextets.toNat_eq (by omega)]
    rfl
  | case2 d1 d2 d3 => simp at even
  | case3 d1 d2 =>
    simp only [itoa64s, List.map_cons, List.map_nil, bfDecode_pair, atoi64_fin, Sextets.bytes]
    rw [Sextets.toNat_eq (by omega)]
    rfl
  | case4 d => simp at even
  | case5 => rfl

theorem bfDecode_some : ∀ {cs : List Char} {bytes : List Nat}, bfDecode cs = some bytes →
    ∃ ds : List (Fin 64), cs = itoa64s ds ∧ ds.length % 2 = 0
  | c1 :: c2 :: c3 :: c4 :: rest, bytes, decoded => by
    simp only [bfDecode_block, bind, Option.bind_eq_some_iff] at decoded
    obtain ⟨_, first, _, second, _, third, _, fourth, bytes, others, _⟩ := decoded
    obtain ⟨d1, _, rfl⟩ := atoi64_some first
    obtain ⟨d2, _, rfl⟩ := atoi64_some second
    obtain ⟨d3, _, rfl⟩ := atoi64_some third
    obtain ⟨d4, _, rfl⟩ := atoi64_some fourth
    obtain ⟨ds, rfl, even⟩ := bfDecode_some others
    refine ⟨d1 :: d2 :: d3 :: d4 :: ds, rfl, ?_⟩
    simp only [List.length_cons]
    omega
  | [c1, c2], bytes, decoded => by
    simp only [bfDecode_pair, bind, Option.bind_eq_some_iff] at decoded
    obtain ⟨_, first, _, second, _⟩ := decoded
    obtain ⟨d1, _, rfl⟩ := atoi64_some first
    obtain ⟨d2, _, rfl⟩ := atoi64_some second
    exact ⟨[d1, d2], rfl, by simp⟩
  | [], _, _ => ⟨[], rfl, by simp⟩
  | [_], _, decoded => by cases decoded
  | [_, _, _], _, decoded => by cases decoded

/-! ### Settings -/

/-- What `BF_crypt` reads of a setting it accepts. -/
structure Setting where
  subtype : Char
  tens : Char
  ones : Char
  digits : List (Fin 64)
  flags : UInt32
  known : flagsBySubtype subtype = some flags
  decimal : '0' ≤ tens ∧ tens ≤ '3' ∧ '0' ≤ ones ∧ ones ≤ '9'
  cost_range : 4 ≤ (tens.toNat - '0'.toNat) * 10 + (ones.toNat - '0'.toNat) ∧
    (tens.toNat - '0'.toNat) * 10 + (ones.toNat - '0'.toNat) ≤ 31
  length : digits.length = 22

namespace Setting
variable (setting : Setting)

def cost : Nat := (setting.tens.toNat - '0'.toNat) * 10 + (setting.ones.toNat - '0'.toNat)

def header : List Char := ['$', '2', setting.subtype, '$', setting.tens, setting.ones, '$']

def text : List Char := setting.header ++ itoa64s setting.digits

/-- The 16 bytes the digits stand for. -/
def salt : List UInt8 := Sextets.bytes setting.digits

theorem length_salt : setting.salt.length = 16 := by
  rw [salt, Sextets.length_bytes, setting.length]

theorem length_canonical : (Sextets.digits setting.salt).length = 22 := by
  rw [Sextets.length_digits, setting.length_salt]

/-- The setting that `BF_crypt` writes in front of the digest. -/
def canonical : Setting where
  __ := setting
  digits := Sextets.digits setting.salt
  length := setting.length_canonical

/-- The hash of `key` under the setting. -/
def hash (eks : Eksblowfish) (key : List UInt8) : List Char :=
  setting.canonical.text ++
    itoa64s (eks.digest setting.cost (setting.salt.map (·.toNat)) (bfSetKey key setting.flags))

theorem length_text : setting.text.length = 29 := by
  rw [text, List.length_append, length_itoa64s, setting.length]
  rfl

theorem canonical_salt : setting.canonical.salt = setting.salt := Sextets.bytes_digits setting.salt

theorem canonical_hash (eks : Eksblowfish) (key : List UInt8) :
    setting.canonical.hash eks key = setting.hash eks key := by
  have again : setting.canonical.canonical.text = setting.canonical.text := by
    show setting.header ++ itoa64s (Sextets.digits setting.canonical.salt) = _
    rw [canonical_salt]
    rfl
  unfold hash
  rw [again, canonical_salt]
  rfl

end Setting

section
variable {eks : Eksblowfish} {key : List UInt8} {text out : List Char}

/-- The last digit of the salt, whose four low bits no byte takes. -/
theorem Setting.canonical_text (setting : Setting) : ∃ front : List (Fin 64), ∃ d : Fin 64,
    front.length = 21 ∧ setting.digits = front ++ [d] ∧
      setting.canonical.text = setting.header ++ itoa64s front ++ [itoa64 (d / 16 * 16)] := by
  have nonempty : setting.digits ≠ [] := by
    intro none
    have length := setting.length
    rw [none] at length
    cases length
  obtain ⟨front, d, split⟩ : ∃ front d, setting.digits = front ++ [d] :=
    ⟨_, _, (List.dropLast_append_getLast nonempty).symm⟩
  have length : front.length = 21 := by
    have whole := setting.length
    rw [split, List.length_append] at whole
    exact Nat.succ.inj whole
  refine ⟨front, d, length, split, ?_⟩
  show setting.header ++ itoa64s (Sextets.digits setting.salt) = _
  rw [salt, Sextets.digits_bytes, split, Sextets.cleared_pair (by omega), itoa64s, List.map_append,
    List.map_singleton, Sextets.digit_val (by omega), List.append_assoc]
  rfl

/-- `BF_crypt` behind the prefix. -/
theorem bfCrypt_header {subtype tens ones : Char} {rest : List Char} :
    bfCrypt eks key (['$', '2', subtype, '$', tens, ones, '$'] ++ rest) = (do
      let flags ← flagsBySubtype subtype
      let cost := (tens.toNat - '0'.toNat) * 10 + (ones.toNat - '0'.toNat)
      if ¬ ('0' ≤ tens ∧ tens ≤ '3' ∧ '0' ≤ ones ∧ ones ≤ '9' ∧ cost ≤ 31 ∧ 4 ≤ cost) then none
      let salt ← bfDecode (rest.take 22)
      let last ← atoi64 (rest.getD 21 ' ')
      return ['$', '2', subtype, '$', tens, ones, '$'] ++ rest.take 21 ++
        itoa64 (last / 16 * 16) :: itoa64s (eks.digest cost salt (bfSetKey key flags))) := rfl

theorem Setting.crypt (setting : Setting) (rest : List Char) :
    bfCrypt eks key (setting.text ++ rest) = some (setting.hash eks key) := by
  obtain ⟨front, d, length, split, canonical⟩ := setting.canonical_text
  have digits : itoa64s setting.digits = itoa64s front ++ [itoa64 d] := by
    rw [split]
    exact List.map_append
  have salted : (itoa64s setting.digits ++ rest).take 22 = itoa64s setting.digits :=
    List.take_left' (by rw [length_itoa64s, setting.length])
  have cut : (itoa64s setting.digits ++ rest).take 21 = itoa64s front := by
    rw [digits, List.append_assoc]
    exact List.take_left' (by rw [length_itoa64s, length])
  have last : (itoa64s setting.digits ++ rest).getD 21 ' ' = itoa64 d := by
    rw [digits]
    simp [length]
  have range : '0' ≤ setting.tens ∧ setting.tens ≤ '3' ∧ '0' ≤ setting.ones ∧ setting.ones ≤ '9' ∧
      setting.cost ≤ 31 ∧ 4 ≤ setting.cost := by
    obtain ⟨low, high, low', high'⟩ := setting.decimal
    exact ⟨low, high, low', high', setting.cost_range.2, setting.cost_range.1⟩
  have text : setting.text ++ rest = setting.header ++ (itoa64s setting.digits ++ rest) := List.append_assoc ..
  rw [text, header, bfCrypt_header, salted, cut, last, atoi64_fin, setting.known, hash, canonical,
    bfDecode_itoa64s (by rw [setting.length])]
  show (if ¬ ('0' ≤ setting.tens ∧ setting.tens ≤ '3' ∧ '0' ≤ setting.ones ∧ setting.ones ≤ '9' ∧
      setting.cost ≤ 31 ∧ 4 ≤ setting.cost) then none else _) = _
  rw [if_neg (not_not_intro range)]
  simp [header, cost, salt]

theorem bfCrypt_some (hashed : bfCrypt eks key text = some out) :
    ∃ setting : Setting, ∃ rest, text = setting.text ++ rest ∧ out = setting.hash eks key := by
  suffices found : ∃ setting : Setting, ∃ rest, text = setting.text ++ rest by
    obtain ⟨setting, rest, rfl⟩ := found
    rw [setting.crypt] at hashed
    exact ⟨setting, rest, rfl, (Option.some.inj hashed).symm⟩
  have headed : ∃ subtype tens ones rest, text = ['$', '2', subtype, '$', tens, ones, '$'] ++ rest := by
    unfold bfCrypt at hashed
    split at hashed
    · rename_i subtype tens ones front
      refine ⟨subtype, tens, ones, text.drop 7, ?_⟩
      rw [← front, List.take_append_drop]
    · cases hashed
  obtain ⟨subtype, tens, ones, rest, rfl⟩ := headed
  rw [bfCrypt_header] at hashed
  simp only [bind, Option.bind_eq_some_iff] at hashed
  obtain ⟨flags, known, hashed⟩ := hashed
  split at hashed
  · simp at hashed
  · rename_i range
    obtain ⟨salt, decoded, hashed⟩ := Option.bind_eq_some_iff.mp hashed
    obtain ⟨last, lastDigit, _⟩ := Option.bind_eq_some_iff.mp hashed
    obtain ⟨ds, digits, _⟩ := bfDecode_some decoded
    have long : 22 ≤ rest.length := by
      by_contra short
      have blank : atoi64 ' ' = none := by decide
      rw [List.getD_eq_default _ _ (by omega), blank] at lastDigit
      cases lastDigit
    have length : ds.length = 22 := by
      rw [← length_itoa64s, ← digits, List.length_take]
      omega
    obtain ⟨low, high, low', high', most, least⟩ := not_not.mp range
    refine ⟨⟨subtype, tens, ones, ds, flags, known, ⟨low, high, low', high'⟩, ⟨least, most⟩, length⟩, rest.drop 22, ?_⟩
    show _ = (['$', '2', subtype, '$', tens, ones, '$'] ++ itoa64s ds) ++ rest.drop 22
    rw [List.append_assoc, ← digits, List.take_append_drop]

end

end RealWorld
