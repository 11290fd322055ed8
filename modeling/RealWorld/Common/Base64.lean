import Mathlib.Data.List.Basic
import RealWorld.Bytes.Sextets

/-!
# `jwt-cpp/base.h`

Base64url as the tokens use it: encoding and trimming, padding and decoding. The padding is written
`%3d`, three characters for each digit that is missing.
-/

namespace RealWorld.Base64

def characters (text : String) : List UInt8 := text.toList.map (·.toUInt8)

/-- `alphabet::base64url`. -/
def data : List UInt8 := characters "ABCDEFGHIJKLMNOPQRSTUVWXYZabcdefghijklmnopqrstuvwxyz0123456789-_"

def fill : List UInt8 := characters "%3d"

def symbol (i : Nat) : UInt8 := data.getD (i &&& 0x3F) 0

/-- `alphabet::index`, which throws on other characters. -/
def index (symbol : UInt8) : Option Nat := data.idxOf? symbol

def encode : List UInt8 → List UInt8
  | a :: b :: c :: bin =>
      let triple := (a.toNat <<< 16) + (b.toNat <<< 8) + c.toNat
      symbol (triple >>> 18) :: symbol (triple >>> 12) :: symbol (triple >>> 6) :: symbol triple :: encode bin
  | [a, b] =>
      let triple := (a.toNat <<< 16) + (b.toNat <<< 8)
      [symbol (triple >>> 18), symbol (triple >>> 12), symbol (triple >>> 6)] ++ fill
  | [a] =>
      let triple := a.toNat <<< 16
      [symbol (triple >>> 18), symbol (triple >>> 12)] ++ fill ++ fill
  | [] => []

/-- The number of fills at the end of a text that is given backwards. -/
def countPadding : List UInt8 → Nat
  | 0x64 :: 0x33 :: 0x25 :: base => countPadding base + 1
  | _ => 0

def octet (n : Nat) : UInt8 := UInt8.ofNat (n &&& 0xFF)

/-- The text in front of the padding. Its length decides how many digits the last group has. -/
def decodeGroups : List UInt8 → Option (List UInt8)
  | a :: b :: c :: d :: base => do
    let (a, b, c, d) := (← index a, ← index b, ← index c, ← index d)
    let triple := (a <<< 18) + (b <<< 12) + (c <<< 6) + d
    return octet (triple >>> 16) :: octet (triple >>> 8) :: octet triple :: (← decodeGroups base)
  | [a, b, c] => do
    let triple := (← index a) <<< 18 + (← index b) <<< 12 ||| (← index c) <<< 6
    return [octet (triple >>> 16), octet (triple >>> 8)]
  | [a, b] => do
    let triple := (← index a) <<< 18 + (← index b) <<< 12
    return [octet (triple >>> 16)]
  | [_] => none
  | [] => some []

/-- `none` is an exception: too much fill, an incorrect size or a character out of the alphabet. -/
def decode (base : List UInt8) : Option (List UInt8) :=
  let count := countPadding base.reverse
  let size := base.length - 3 * count
  if count > 2 then none
  else if (size + count) % 4 ≠ 0 then none
  else decodeGroups (base.take size)

def pad (base : List UInt8) : List UInt8 :=
  match base.length % 4 with
  | 1 => base ++ (fill ++ fill ++ fill)
  | 2 => base ++ (fill ++ fill)
  | 3 => base ++ fill
  | _ => base

/-- Up to the first fill, or the whole text. -/
def trim : List UInt8 → List UInt8
  | [] => []
  | c :: base => if fill.isPrefixOf (c :: base) then [] else c :: trim base

/-- The token side: `trim` after `encode`, and `decode` after `pad`. -/
def encodeTrimmed (bin : List UInt8) : List UInt8 := trim (encode bin)

def decodePadded (base : List UInt8) : Option (List UInt8) := decode (pad base)

example : encode (characters "Man") = characters "TWFu" ∧ encodeTrimmed (characters "Ma") = characters "TWE" ∧
    decodePadded (characters "TQ") = some (characters "M") ∧ decodePadded (characters "TWE%3d") = none := by
  decide +kernel

/-! ### Digits -/

/-- The text of a list of digits. -/
def symbols (ds : List (Fin 64)) : List UInt8 := ds.map fun d : Fin 64 => symbol d

@[simp] theorem length_symbols (ds : List (Fin 64)) : (symbols ds).length = ds.length := List.length_map ..

theorem index_symbol : ∀ d : Fin 64, index (symbol d) = some d.val := by decide +kernel

theorem index_some {c : UInt8} {n : Nat} (found : index c = some n) : ∃ d : Fin 64, d.val = n ∧ c = symbol d := by
  obtain ⟨small, here, _⟩ := List.findIdx?_eq_some_iff_getElem.mp (show data.findIdx? (· == c) = some n from found)
  have size : data.length = 64 := by decide
  refine ⟨⟨n, size ▸ small⟩, rfl, ?_⟩
  have low : n &&& 0x3F = n := by
    rw [show (0x3F : Nat) = 2 ^ 6 - 1 by decide, Nat.and_two_pow_sub_one_eq_mod]
    exact Nat.mod_eq_of_lt (by omega)
  show c = data.getD (n &&& 0x3F) 0
  rw [low, List.getD_eq_getElem?_getD, List.getElem?_eq_getElem small, Option.getD_some]
  exact (beq_iff_eq.mp here).symm

theorem symbol_eq {n m : Nat} (small : m < 64) (same : n % 64 = m) : symbol n = symbol (Sextets.digit m) := by
  have low : ∀ k : Nat, k &&& 0x3F = k % 64 := fun k => Nat.and_two_pow_sub_one_eq_mod k 6
  unfold symbol
  rw [low, low, Sextets.digit_val small, same, Nat.mod_eq_of_lt small]

/-- The fills of an encoded text. -/
def fills : Nat → List UInt8
  | 1 => fill ++ fill
  | 2 => fill
  | _ => []

/-- The digits of three bytes. -/
theorem symbol_triple {a b c : Nat} (high : a < 256) (middle : b < 256) (low : c < 256) :
    symbol (((a <<< 16) + (b <<< 8) + c) >>> 18) = symbol (Sextets.digit (a / 4)) ∧
      symbol (((a <<< 16) + (b <<< 8) + c) >>> 12) = symbol (Sextets.digit (a % 4 * 16 + b / 16)) ∧
      symbol (((a <<< 16) + (b <<< 8) + c) >>> 6) = symbol (Sextets.digit (b % 16 * 4 + c / 64)) ∧
      symbol ((a <<< 16) + (b <<< 8) + c) = symbol (Sextets.digit (c % 64)) := by
  simp only [Nat.shiftRight_eq_div_pow, Nat.shiftLeft_eq]
  refine ⟨symbol_eq ?_ ?_, symbol_eq ?_ ?_, symbol_eq ?_ ?_, symbol_eq ?_ ?_⟩
  all_goals omega

theorem encode_eq (bin : List UInt8) : encode bin = symbols (Sextets.digits bin) ++ fills (bin.length % 3) := by
  induction bin using encode.induct with
  | case1 a b c bin ih =>
    have tail : (a :: b :: c :: bin).length % 3 = bin.length % 3 := by
      simp only [List.length_cons]
      omega
    obtain ⟨first, second, third, fourth⟩ := symbol_triple a.toNat_lt b.toNat_lt c.toNat_lt
    rw [encode, ih, Sextets.digits, tail, first, second, third, fourth]
    rfl
  | case2 a b =>
    obtain ⟨first, second, third, _⟩ := symbol_triple a.toNat_lt b.toNat_lt (show 0 < 256 by decide)
    rw [Nat.add_zero] at first second third
    rw [encode, Sextets.digits, first, second, third]
    simp [symbols, fills]
  | case3 a =>
    obtain ⟨first, second, _, _⟩ := symbol_triple a.toNat_lt (show 0 < 256 by decide) (show 0 < 256 by decide)
    rw [Nat.zero_shiftLeft, Nat.add_zero] at first second
    rw [encode, Sextets.digits, first, second]
    simp [symbols, fills]
  | case4 => rfl

/-! ### What the decoder accepts -/

theorem octet_eq {n m : Nat} (same : n % 256 = m % 256) : octet n = UInt8.ofNat m := by
  have low : n &&& 0xFF = n % 256 := Nat.and_two_pow_sub_one_eq_mod n 8
  apply UInt8.toNat_inj.mp
  rw [octet, low]
  show n % 256 % 256 = m % 256
  rw [Nat.mod_mod, same]

/-- The bytes of four digits. -/
theorem octet_triple {a b c d : Nat} (third : c < 64) (fourth : d < 64) :
    octet (((a <<< 18) + (b <<< 12) + (c <<< 6) + d) >>> 16) = UInt8.ofNat (a * 4 + b / 16) ∧
      octet (((a <<< 18) + (b <<< 12) + (c <<< 6) + d) >>> 8) = UInt8.ofNat (b % 16 * 16 + c / 4) ∧
      octet ((a <<< 18) + (b <<< 12) + (c <<< 6) + d) = UInt8.ofNat (c % 4 * 64 + d) := by
  simp only [Nat.shiftRight_eq_div_pow, Nat.shiftLeft_eq]
  refine ⟨octet_eq ?_, octet_eq ?_, octet_eq ?_⟩
  all_goals omega

theorem or_eq_add {a b c : Nat} (small : c < 64) :
    (a <<< 18 + b <<< 12 ||| c <<< 6) = a <<< 18 + b <<< 12 + c <<< 6 := by
  have high : a <<< 18 + b <<< 12 = 2 ^ 12 * (a * 2 ^ 6 + b) := by
    simp only [Nat.shiftLeft_eq]
    omega
  have low : c <<< 6 < 2 ^ 12 := by
    simp only [Nat.shiftLeft_eq]
    omega
  rw [high, Nat.two_pow_add_eq_or_of_lt low]

theorem decodeGroups_symbols {ds : List (Fin 64)} (whole : ds.length % 4 ≠ 1) :
    decodeGroups (symbols ds) = some (Sextets.bytes ds) := by
  induction ds using Sextets.bytes.induct with
  | case1 d1 d2 d3 d4 rest ih =>
    simp only [List.length_cons] at whole
    obtain ⟨first, second, third⟩ := @octet_triple d1 d2 _ _ d3.isLt d4.isLt
    have tail := ih (by omega)
    unfold symbols at tail
    simp only [symbols, List.map_cons, decodeGroups, index_symbol, Sextets.bytes, tail]
    show some (octet _ :: octet _ :: octet _ :: _) = _
    rw [first, second, third]
  | case2 d1 d2 d3 =>
    obtain ⟨first, second, _⟩ := @octet_triple d1 d2 _ _ d3.isLt (show 0 < 64 by decide)
    rw [Nat.add_zero] at first second
    simp only [symbols, List.map_cons, List.map_nil, decodeGroups, index_symbol, Sextets.bytes]
    show some [octet ((d1.val <<< 18 + d2.val <<< 12 ||| d3.val <<< 6) >>> 16),
      octet ((d1.val <<< 18 + d2.val <<< 12 ||| d3.val <<< 6) >>> 8)] = _
    rw [or_eq_add d3.isLt, first, second]
  | case3 d1 d2 =>
    obtain ⟨first, _, _⟩ := @octet_triple d1 d2 _ _ (show 0 < 64 by decide) (show 0 < 64 by decide)
    rw [Nat.zero_shiftLeft, Nat.add_zero] at first
    simp only [symbols, List.map_cons, List.map_nil, decodeGroups, index_symbol, Sextets.bytes]
    show some [octet ((d1.val <<< 18 + d2.val <<< 12) >>> 16)] = _
    rw [first]
  | case4 d => simp at whole
  | case5 => rfl

theorem decodeGroups_some : ∀ {base bin : List UInt8}, decodeGroups base = some bin →
    ∃ ds : List (Fin 64), base = symbols ds ∧ ds.length % 4 ≠ 1
  | a :: b :: c :: d :: base, bin, decoded => by
    simp only [decodeGroups, bind, Option.bind_eq_some_iff] at decoded
    obtain ⟨_, first, _, second, _, third, _, fourth, bin, others, _⟩ := decoded
    obtain ⟨d1, _, rfl⟩ := index_some first
    obtain ⟨d2, _, rfl⟩ := index_some second
    obtain ⟨d3, _, rfl⟩ := index_some third
    obtain ⟨d4, _, rfl⟩ := index_some fourth
    obtain ⟨ds, rfl, whole⟩ := decodeGroups_some others
    refine ⟨d1 :: d2 :: d3 :: d4 :: ds, rfl, ?_⟩
    simp only [List.length_cons]
    omega
  | [a, b, c], bin, decoded => by
    simp only [decodeGroups, bind, Option.bind_eq_some_iff] at decoded
    obtain ⟨_, first, _, second, _, third, _⟩ := decoded
    obtain ⟨d1, _, rfl⟩ := index_some first
    obtain ⟨d2, _, rfl⟩ := index_some second
    obtain ⟨d3, _, rfl⟩ := index_some third
    exact ⟨[d1, d2, d3], rfl, by simp⟩
  | [a, b], bin, decoded => by
    simp only [decodeGroups, bind, Option.bind_eq_some_iff] at decoded
    obtain ⟨_, first, _, second, _⟩ := decoded
    obtain ⟨d1, _, rfl⟩ := index_some first
    obtain ⟨d2, _, rfl⟩ := index_some second
    exact ⟨[d1, d2], rfl, by simp⟩
  | [_], _, decoded => by cases decoded
  | [], _, _ => ⟨[], rfl, by simp⟩

/-! ### Padding -/

/-- `k` fills. -/
def padding : Nat → List UInt8
  | 0 => []
  | k + 1 => fill ++ padding k

theorem padding_add (k j : Nat) : padding (k + j) = padding k ++ padding j := by
  induction k with
  | zero => rw [Nat.zero_add]; rfl
  | succ k ih => rw [Nat.succ_add, padding, padding, ih, List.append_assoc]

@[simp] theorem length_padding (k : Nat) : (padding k).length = 3 * k := by
  induction k with
  | zero => rfl
  | succ k ih =>
    rw [padding, List.length_append, ih, Nat.mul_succ, Nat.add_comm]
    rfl

theorem fills_eq (n : Nat) : fills (n % 3) = padding ((3 - n % 3) % 3) := by
  have cases : n % 3 = 0 ∨ n % 3 = 1 ∨ n % 3 = 2 := by omega
  rcases cases with none | one | two
  · rw [none]; rfl
  · rw [one]; rfl
  · rw [two]; rfl

theorem pad_eq (base : List UInt8) : pad base = base ++ padding ((4 - base.length % 4) % 4) := by
  have cases : base.length % 4 = 0 ∨ base.length % 4 = 1 ∨ base.length % 4 = 2 ∨ base.length % 4 = 3 := by omega
  unfold pad
  rcases cases with rest | rest | rest | rest
  all_goals
    rw [rest]
    simp [padding]

/-- A fill starts with a character that is no digit. -/
theorem percent_symbols (ds : List (Fin 64)) : 0x25 ∉ symbols ds := by
  intro member
  obtain ⟨d, _, same⟩ := List.mem_map.mp member
  have other : ∀ d : Fin 64, symbol d ≠ 0x25 := by decide +kernel
  exact other d same

theorem percent_padding {k : Nat} (some : k ≠ 0) : 0x25 ∈ padding k := by
  cases k with
  | zero => exact absurd rfl some
  | succ k => exact List.mem_append_left _ (by decide)

theorem countPadding_free {base : List UInt8} (free : 0x25 ∉ base) : countPadding base = 0 := by
  unfold countPadding
  split
  · exact absurd (by simp) free
  · rfl

theorem countPadding_padding {base : List UInt8} (free : 0x25 ∉ base) (k : Nat) :
    countPadding (base ++ padding k).reverse = k := by
  induction k with
  | zero =>
    rw [padding, List.append_nil]
    exact countPadding_free (by simpa using free)
  | succ k ih =>
    rw [padding_add, ← List.append_assoc, List.reverse_append]
    show countPadding (base ++ padding k).reverse + 1 = k + 1
    rw [ih]

theorem countPadding_split (base : List UInt8) :
    ∃ front, base = front ++ padding (countPadding base.reverse) := by
  have backwards : ∀ back : List UInt8, ∃ front, back.reverse = front ++ padding (countPadding back) := by
    intro back
    induction back using countPadding.induct with
    | case1 back ih =>
      obtain ⟨front, same⟩ := ih
      refine ⟨front, ?_⟩
      rw [countPadding, padding_add, ← List.append_assoc, ← same]
      simp only [List.reverse_cons, List.append_assoc]
      rfl
    | case2 back other =>
      refine ⟨back.reverse, ?_⟩
      rw [countPadding]
      · exact (List.append_nil _).symm
      · exact other
  obtain ⟨front, same⟩ := backwards base.reverse
  rw [List.reverse_reverse] at same
  exact ⟨front, same⟩

/-- A text is decoded when digits and at most two fills make whole groups of four. -/
theorem decode_iff {base bin : List UInt8} : decode base = some bin ↔
    ∃ ds k, k ≤ 2 ∧ (ds.length + k) % 4 = 0 ∧ base = symbols ds ++ padding k ∧ bin = Sextets.bytes ds := by
  obtain ⟨front, split⟩ := countPadding_split base
  have size : base.length - 3 * countPadding base.reverse = front.length := by
    conv_lhs => rw [split, List.length_append, length_padding]
    rw [← split]
    omega
  have cut : base.take front.length = front := by
    conv_lhs => rw [split]
    exact List.take_left' rfl
  unfold decode
  simp only [size, cut]
  constructor
  · intro decoded
    split at decoded
    · cases decoded
    split at decoded
    · cases decoded
    rename_i few whole
    obtain ⟨ds, rfl, digits⟩ := decodeGroups_some decoded
    rw [length_symbols] at whole
    rw [decodeGroups_symbols digits] at decoded
    exact ⟨ds, _, by omega, not_not.mp whole, split, (Option.some.inj decoded).symm⟩
  · rintro ⟨ds, k, few, whole, same, rfl⟩
    have count : countPadding base.reverse = k := by
      rw [same]
      exact countPadding_padding (percent_symbols ds) k
    rw [count] at split ⊢
    have digits : front = symbols ds := List.append_cancel_right (split.symm.trans same)
    rw [digits, length_symbols, if_neg (by omega), if_neg (not_not_intro whole)]
    exact decodeGroups_symbols (by omega)

/-- Decoding after padding: the digits may come without fills, or with both where one byte is left over. -/
theorem decodePadded_iff {base bin : List UInt8} : decodePadded base = some bin ↔
    ∃ ds, bin = Sextets.bytes ds ∧ (base = symbols ds ∧ ds.length % 4 ≠ 1 ∨
      base = symbols ds ++ padding 2 ∧ ds.length % 4 = 2) := by
  unfold decodePadded
  rw [pad_eq, decode_iff]
  constructor
  · rintro ⟨ds, k, few, whole, same, rfl⟩
    refine ⟨ds, rfl, ?_⟩
    have enough : (4 - base.length % 4) % 4 ≤ k := by
      by_contra more
      obtain ⟨m, split⟩ := Nat.exists_eq_add_of_lt (not_le.mp more)
      rw [split, Nat.add_assoc, Nat.add_comm, padding_add, ← List.append_assoc] at same
      have digits := List.append_cancel_right same
      apply percent_symbols ds
      rw [← digits]
      exact List.mem_append_right _ (percent_padding (by omega))
    obtain ⟨m, split⟩ := Nat.exists_eq_add_of_le enough
    rw [split, Nat.add_comm, padding_add, ← List.append_assoc] at same
    have digits := List.append_cancel_right same
    have lengths := congrArg List.length digits
    rw [List.length_append, length_symbols, length_padding] at lengths
    have cases : m = 0 ∨ m = 2 := by omega
    rcases cases with rfl | rfl
    · exact .inl ⟨by rw [digits, padding, List.append_nil], by omega⟩
    · exact .inr ⟨digits, by omega⟩
  · rintro ⟨ds, rfl, ⟨rfl, whole⟩ | ⟨rfl, pair⟩⟩
    · exact ⟨ds, _, by rw [length_symbols]; omega, by rw [length_symbols]; omega, rfl, rfl⟩
    · refine ⟨ds, 2, by omega, by omega, ?_, rfl⟩
      have none : (4 - (symbols ds ++ padding 2).length % 4) % 4 = 0 := by
        rw [List.length_append, length_symbols, length_padding]
        omega
      rw [none]
      exact List.append_nil _

theorem trim_symbols (ds : List (Fin 64)) (k : Nat) : trim (symbols ds ++ padding k) = symbols ds := by
  induction ds with
  | nil =>
    cases k with
    | zero => rfl
    | succ k => rfl
  | cons d ds ih =>
    have other : symbol d ≠ 0x25 := fun same => percent_symbols [d] (same ▸ List.mem_cons_self)
    have unfilled : fill.isPrefixOf (symbol d :: (symbols ds ++ padding k)) = false := by
      show ((0x25 : UInt8) == symbol d && _) = false
      rw [beq_false_of_ne other.symm]
      rfl
    show trim (symbol d :: (symbols ds ++ padding k)) = symbol d :: symbols ds
    rw [trim, unfilled, ih]
    rfl

theorem encodeTrimmed_eq (bin : List UInt8) : encodeTrimmed bin = symbols (Sextets.digits bin) := by
  rw [encodeTrimmed, encode_eq, fills_eq, trim_symbols]

/-- Two bytes behind whole groups leave two bits of the last digit free, and each choice of them is read. -/
theorem decodePadded_texts {bin : List UInt8} (two : bin.length % 3 = 2) :
    ∃ (front : List UInt8) (d : Fin 16), encodeTrimmed bin = front ++ [symbol (4 * d)] ∧
      ∀ base, decodePadded base = some bin ↔ ∃ low : Fin 4, base = front ++ [symbol (4 * d + low)] := by
  have size : (Sextets.digits bin).length % 4 = 3 := by
    rw [Sextets.length_digits]
    omega
  obtain ⟨front, last, split⟩ : ∃ front last, Sextets.digits bin = front ++ [last] :=
    ⟨_, _, (List.dropLast_concat_getLast (List.ne_nil_of_length_pos (by omega))).symm⟩
  have even : front.length % 4 = 2 := by
    rw [split, List.length_append, List.length_singleton] at size
    omega
  have clear : last.val / 4 * 4 = last.val := by
    have same := Sextets.digits_bytes (Sextets.digits bin)
    rw [Sextets.bytes_digits, split, Sextets.cleared_triple even, List.append_cancel_left_eq] at same
    have value := congrArg Fin.val (List.singleton_inj.mp same)
    rw [Sextets.digit_val (by omega)] at value
    exact value.symm
  have whole : bin = Sextets.bytes (front ++ [last]) := by rw [← split, Sextets.bytes_digits]
  refine ⟨symbols front, ⟨last.val / 4, by omega⟩, ?_, fun base => ?_⟩
  · rw [encodeTrimmed_eq, split, symbols, List.map_append, List.map_singleton, Nat.mul_comm, clear]
    rfl
  rw [decodePadded_iff]
  constructor
  · rintro ⟨ds, same, ⟨rfl, grouped⟩ | ⟨_, pair⟩⟩
    · have size' := congrArg List.length same
      rw [Sextets.length_bytes] at size'
      obtain ⟨front', d, rfl⟩ : ∃ front' d, ds = front' ++ [d] :=
        ⟨_, _, (List.dropLast_concat_getLast (List.ne_nil_of_length_pos (by omega))).symm⟩
      rw [List.length_append, List.length_singleton] at size' grouped
      obtain ⟨rfl, high⟩ := (Sextets.bytes_triple even (by omega) last d).mp (whole.symm.trans same)
      refine ⟨⟨d.val % 4, by omega⟩, ?_⟩
      rw [symbols, List.map_append, List.map_singleton]
      show _ = symbols _ ++ [symbol (4 * (last.val / 4) + d.val % 4)]
      rw [show 4 * (last.val / 4) + d.val % 4 = d.val by omega]
      rfl
    · have size' := congrArg List.length same
      rw [Sextets.length_bytes] at size'
      omega
  · rintro ⟨low, rfl⟩
    have digit : (Sextets.digit (4 * (last.val / 4) + low.val)).val = 4 * (last.val / 4) + low.val :=
      Sextets.digit_val (by omega)
    refine ⟨front ++ [Sextets.digit (4 * (last.val / 4) + low.val)], ?_, .inl ⟨?_, ?_⟩⟩
    · exact whole.trans ((Sextets.bytes_triple even even _ _).mpr ⟨rfl, by omega⟩)
    · rw [symbols, symbols, List.map_append, List.map_singleton, digit]
    · rw [List.length_append, List.length_singleton]
      omega

end RealWorld.Base64
