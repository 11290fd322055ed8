import Mathlib.Data.List.Basic

/-!
# Bytes of encoded characters

An ASCII character is its own byte. The bytes of every other one lie between `0x80` and `0xf7`.
-/

namespace Text

theorem utf8EncodeChar_byte {c : Char} {b : UInt8} (member : b ∈ String.utf8EncodeChar c) :
    (b.toNat = c.toNat ∧ c.toNat < 0x80) ∨ (0x80 ≤ b.toNat ∧ b.toNat ≤ 0xf7 ∧ 0x80 ≤ c.toNat) := by
  have tail : ∀ {n : Nat}, 0x80 ≤ n → n ≤ 0xf7 → 0x80 ≤ (UInt8.ofNat n).toNat ∧ (UInt8.ofNat n).toNat ≤ 0xf7 := by
    intro n low high
    have same : (UInt8.ofNat n).toNat = n := Nat.mod_eq_of_lt (by omega)
    omega
  have code : c.toNat = c.val.toNat := rfl
  unfold String.utf8EncodeChar at member
  simp only at member
  split at member
  · left
    obtain rfl := List.mem_singleton.mp member
    have same : (UInt8.ofNat c.val.toNat).toNat = c.val.toNat := Nat.mod_eq_of_lt (by omega)
    omega
  right
  suffices range : 0x80 ≤ b.toNat ∧ b.toNat ≤ 0xf7 by omega
  split at member
  · simp only [List.mem_cons, List.not_mem_nil, or_false] at member
    rcases member with rfl | rfl
    all_goals exact tail (by omega) (by omega)
  split at member
  · simp only [List.mem_cons, List.not_mem_nil, or_false] at member
    rcases member with rfl | rfl | rfl
    all_goals exact tail (by omega) (by omega)
  · simp only [List.mem_cons, List.not_mem_nil, or_false] at member
    rcases member with rfl | rfl | rfl | rfl
    all_goals exact tail (by omega) (by omega)

end Text
