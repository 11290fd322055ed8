import Mathlib.Data.Nat.Bitwise

/-!
# Bytes packed into words

A 32-bit word is filled byte by byte from the high end. Up to four bytes fit, and the word then
determines them.
-/

namespace Bytes

/-- One more byte at the low end of `w`. -/
def push (w : UInt32) (b : UInt8) : UInt32 := w <<< 8 ||| b.toUInt32

theorem push_toNat {w : UInt32} (room : w.toNat < 256 ^ 3) (b : UInt8) :
    (push w b).toNat = w.toNat * 256 + b.toNat := by
  have low : b.toNat < 2 ^ 8 := b.toNat_lt
  have high : w.toNat <<< 8 % 2 ^ 32 = w.toNat * 256 := by
    rw [Nat.shiftLeft_eq]
    exact Nat.mod_eq_of_lt (by omega)
  rw [push, UInt32.toNat_or, UInt32.toNat_shiftLeft, UInt8.toNat_toUInt32]
  show w.toNat <<< 8 % 2 ^ 32 ||| b.toNat = _
  rw [high, Nat.mul_comm]
  exact (Nat.two_pow_add_eq_or_of_lt low w.toNat).symm

theorem push_inj {w w' : UInt32} {b b' : UInt8} (room : w.toNat < 256 ^ 3) (room' : w'.toNat < 256 ^ 3)
    (same : push w b = push w' b') : w = w' ∧ b = b' := by
  have sum := congrArg UInt32.toNat same
  rw [push_toNat room, push_toNat room'] at sum
  have low := b.toNat_lt
  have low' := b'.toNat_lt
  exact ⟨UInt32.toNat_inj.mp (by omega), UInt8.toNat_inj.mp (by omega)⟩

theorem or_eq_zero {a b : UInt32} : a ||| b = 0 ↔ a = 0 ∧ b = 0 := by
  rw [← UInt32.toNat_inj, ← UInt32.toNat_inj, ← UInt32.toNat_inj, UInt32.toNat_or]
  exact Nat.or_eq_zero_iff

/-- Strings of one length are one where they agree in every place. -/
theorem zip_same {str1 str2 : List UInt8} (length : str1.length = str2.length) :
    (∀ u ∈ str1.zip str2, u.1 = u.2) ↔ str1 = str2 := by
  induction str1 generalizing str2 with
  | nil =>
    obtain rfl := List.length_eq_zero_iff.mp length.symm
    exact iff_of_true (List.forall_mem_nil _) rfl
  | cons c1 str1 ih =>
    cases str2 with
    | nil => cases length
    | cons c2 str2 => rw [List.zip_cons_cons, List.forall_mem_cons, ih (Nat.succ.inj length), List.cons.injEq]

/-- The word of a list of at most four bytes. -/
def word (bytes : List UInt8) : UInt32 := bytes.foldl push 0

theorem foldl_push_inj {bytes bytes' : List UInt8} (length : bytes.length = bytes'.length) {k : Nat}
    (fits : k + bytes.length ≤ 4) {w w' : UInt32} (room : w.toNat < 256 ^ k) (room' : w'.toNat < 256 ^ k)
    (same : bytes.foldl push w = bytes'.foldl push w') : w = w' ∧ bytes = bytes' := by
  induction bytes generalizing bytes' k w w' with
  | nil =>
    obtain rfl := List.length_eq_zero_iff.mp length.symm
    exact ⟨same, rfl⟩
  | cons b bytes ih =>
    cases bytes' with
    | nil => cases length
    | cons b' bytes' =>
      rw [List.length_cons] at fits
      have bound : 256 ^ k ≤ 256 ^ 3 := Nat.pow_le_pow_right (by omega) (by omega)
      have grown : ∀ {v : UInt32} (c : UInt8), v.toNat < 256 ^ k → (push v c).toNat < 256 ^ (k + 1) := by
        intro v c small
        have low := c.toNat_lt
        rw [push_toNat (by omega), Nat.pow_succ]
        omega
      obtain ⟨pushed, rfl⟩ := ih (Nat.succ.inj length) (k := k + 1) (by omega) (grown b room)
        (grown b' room') same
      obtain ⟨rfl, rfl⟩ := push_inj (by omega) (by omega) pushed
      exact ⟨rfl, rfl⟩

theorem word_inj {bytes bytes' : List UInt8} (length : bytes.length = 4) (length' : bytes'.length = 4) :
    word bytes = word bytes' ↔ bytes = bytes' := by
  refine ⟨fun same => ?_, congrArg word⟩
  have zero : (0 : UInt32).toNat < 256 ^ 0 := by decide
  exact (foldl_push_inj (length.trans length'.symm) (by omega) zero zero same).2

end Bytes
