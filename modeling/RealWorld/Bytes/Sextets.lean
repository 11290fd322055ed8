import Mathlib.Data.Fin.Basic
import Mathlib.Data.Nat.Bitwise

/-!
# Bytes as digits of six bits

Three bytes are four digits. A last group of one byte or two takes two digits or three, and the bits
the last digit has left are zero. Reading the digits back ignores those bits.
-/

namespace Sextets

/-- The six low bits of `n`. -/
def digit (n : Nat) : Fin 64 := ⟨n % 64, Nat.mod_lt n (by decide)⟩

theorem digit_val {n : Nat} (small : n < 64) : (digit n).val = n := Nat.mod_eq_of_lt small

def digits : List UInt8 → List (Fin 64)
  | [] => []
  | [a] => [digit (a.toNat / 4), digit (a.toNat % 4 * 16)]
  | [a, b] => [digit (a.toNat / 4), digit (a.toNat % 4 * 16 + b.toNat / 16), digit (b.toNat % 16 * 4)]
  | a :: b :: c :: rest =>
      digit (a.toNat / 4) :: digit (a.toNat % 4 * 16 + b.toNat / 16) ::
        digit (b.toNat % 16 * 4 + c.toNat / 64) :: digit (c.toNat % 64) :: digits rest

/-- The bytes of whole groups and of a last group of two digits or three. -/
def bytes : List (Fin 64) → List UInt8
  | d1 :: d2 :: d3 :: d4 :: rest =>
      UInt8.ofNat (d1 * 4 + d2 / 16) :: UInt8.ofNat (d2 % 16 * 16 + d3 / 4) ::
        UInt8.ofNat (d3 % 4 * 64 + d4) :: bytes rest
  | [d1, d2, d3] => [UInt8.ofNat (d1 * 4 + d2 / 16), UInt8.ofNat (d2 % 16 * 16 + d3 / 4)]
  | [d1, d2] => [UInt8.ofNat (d1 * 4 + d2 / 16)]
  | [_] => []
  | [] => []

/-- The digits with the bits that no byte takes cleared. -/
def cleared : List (Fin 64) → List (Fin 64)
  | d1 :: d2 :: d3 :: d4 :: rest => d1 :: d2 :: d3 :: d4 :: cleared rest
  | [d1, d2, d3] => [d1, d2, digit (d3 / 4 * 4)]
  | [d1, d2] => [d1, digit (d2 / 16 * 16)]
  | [_] => []
  | [] => []

theorem ofNat_eq {n : Nat} {b : UInt8} (same : n = b.toNat) : UInt8.ofNat n = b := by
  rw [same, UInt8.ofNat_toNat]

theorem toNat_eq {n : Nat} (small : n < 256) : (UInt8.ofNat n).toNat = n := Nat.mod_eq_of_lt small

theorem digit_eq {n : Nat} {d : Fin 64} (same : n = d.val) : digit n = d := by
  apply Fin.ext
  rw [digit_val (by omega), same]

theorem bytes_digits (bs : List UInt8) : bytes (digits bs) = bs := by
  induction bs using digits.induct with
  | case1 => rfl
  | case2 a =>
    have small := a.toNat_lt
    rw [digits, bytes, digit_val (by omega), digit_val (by omega), ofNat_eq (b := a) (by omega)]
  | case3 a b =>
    have small := a.toNat_lt
    have small' := b.toNat_lt
    rw [digits, bytes, digit_val (by omega), digit_val (by omega), digit_val (by omega), ofNat_eq (b := a) (by omega),
      ofNat_eq (b := b) (by omega)]
  | case4 a b c rest ih =>
    have small := a.toNat_lt
    have small' := b.toNat_lt
    have small'' := c.toNat_lt
    rw [digits, bytes, ih, digit_val (by omega), digit_val (by omega), digit_val (by omega), digit_val (by omega),
      ofNat_eq (b := a) (by omega), ofNat_eq (b := b) (by omega), ofNat_eq (b := c) (by omega)]

theorem digits_bytes (ds : List (Fin 64)) : digits (bytes ds) = cleared ds := by
  induction ds using bytes.induct with
  | case1 d1 d2 d3 d4 rest ih =>
    rw [bytes, digits, cleared, ih, toNat_eq (by omega), toNat_eq (by omega), toNat_eq (by omega),
      digit_eq (d := d1) (by omega), digit_eq (d := d2) (by omega), digit_eq (d := d3) (by omega),
      digit_eq (d := d4) (by omega)]
  | case2 d1 d2 d3 =>
    rw [bytes, digits, cleared, toNat_eq (by omega), toNat_eq (by omega), digit_eq (d := d1) (by omega),
      digit_eq (d := d2) (by omega), show (d2.val % 16 * 16 + d3.val / 4) % 16 * 4 = d3.val / 4 * 4 by omega]
  | case3 d1 d2 =>
    rw [bytes, digits, cleared, toNat_eq (by omega), digit_eq (d := d1) (by omega),
      show (d1.val * 4 + d2.val / 16) % 4 * 16 = d2.val / 16 * 16 by omega]
  | case4 d => rfl
  | case5 => rfl

theorem length_digits (bs : List UInt8) : (digits bs).length = (4 * bs.length + 2) / 3 := by
  induction bs using digits.induct with
  | case1 => rfl
  | case2 a => simp [digits]
  | case3 a b => simp [digits]
  | case4 a b c rest ih =>
    simp only [digits, List.length_cons, ih]
    omega

theorem length_bytes (ds : List (Fin 64)) : (bytes ds).length = ds.length * 3 / 4 := by
  induction ds using bytes.induct with
  | case1 d1 d2 d3 d4 rest ih =>
    simp only [bytes, List.length_cons, ih]
    omega
  | case2 d1 d2 d3 => simp [bytes]
  | case3 d1 d2 => simp [bytes]
  | case4 d => simp [bytes]
  | case5 => rfl

theorem cleared_pair {front : List (Fin 64)} (odd : front.length % 4 = 1) (d : Fin 64) :
    cleared (front ++ [d]) = front ++ [digit (d / 16 * 16)] := by
  induction front using bytes.induct with
  | case1 d1 d2 d3 d4 rest ih =>
    simp only [List.length_cons] at odd
    simp only [List.cons_append, cleared]
    rw [ih (by omega)]
  | case2 d1 d2 d3 => simp at odd
  | case3 d1 d2 => simp at odd
  | case4 d1 => rfl
  | case5 => simp at odd

theorem cleared_triple {front : List (Fin 64)} (two : front.length % 4 = 2) (d : Fin 64) :
    cleared (front ++ [d]) = front ++ [digit (d / 4 * 4)] := by
  induction front using bytes.induct with
  | case1 d1 d2 d3 d4 rest ih =>
    simp only [List.length_cons] at two
    simp only [List.cons_append, cleared]
    rw [ih (by omega)]
  | case2 d1 d2 d3 => simp at two
  | case3 d1 d2 => rfl
  | case4 d1 => simp at two
  | case5 => simp at two

theorem digits_injective : Function.Injective digits := by
  intro bs bs' same
  rw [← bytes_digits bs, same, bytes_digits]

/-- Behind a digit pair the third digit counts without its two low bits. -/
theorem bytes_triple {front front' : List (Fin 64)} (two : front.length % 4 = 2) (two' : front'.length % 4 = 2)
    (d d' : Fin 64) : bytes (front ++ [d]) = bytes (front' ++ [d']) ↔ front = front' ∧ d.val / 4 = d'.val / 4 := by
  rw [← digits_injective.eq_iff, digits_bytes, digits_bytes, cleared_triple two, cleared_triple two']
  constructor
  · intro same
    obtain ⟨fronts, lasts⟩ := List.append_inj' same rfl
    have value := congrArg Fin.val (List.singleton_inj.mp lasts)
    rw [digit_val (by omega), digit_val (by omega)] at value
    exact ⟨fronts, by omega⟩
  · rintro ⟨rfl, high⟩
    rw [high]

end Sextets
