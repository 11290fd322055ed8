import Mathlib.Algebra.Order.Ring.Nat
import Mathlib.Data.List.Basic
import Mathlib.Data.Nat.Bitwise
import RealWorld.Bytes.Words

/-!
# Words filled with sign-extended bytes

A byte from `0x80` on, read as a signed character, brings 24 ones along, which stay in the word above it.
Such a word is the word of other bytes: those in front of a high byte have become `0xff`.
-/

namespace Bytes

/-- A signed character as a word. -/
def signExtend (b : UInt8) : UInt32 := if b < 0x80 then b.toUInt32 else 0xffffff00 ||| b.toUInt32

def pushSigned (w : UInt32) (b : UInt8) : UInt32 := w <<< 8 ||| signExtend b

def signedWord (bytes : List UInt8) : UInt32 := bytes.foldl pushSigned 0

/-- Some byte has its high bit set. -/
def HasHigh (bytes : List UInt8) : Prop := ∃ b ∈ bytes, 0x80 ≤ b

instance (bytes : List UInt8) : Decidable (HasHigh bytes) := inferInstanceAs (Decidable (∃ b ∈ bytes, _))

/-- The bytes a word shows after sign extension. -/
def overwritten : List UInt8 → List UInt8
  | [] => []
  | b :: rest => (if HasHigh rest then 0xff else b) :: overwritten rest

@[simp] theorem length_overwritten (bytes : List UInt8) : (overwritten bytes).length = bytes.length := by
  induction bytes with
  | nil => rfl
  | cons b rest ih => rw [overwritten, List.length_cons, ih, List.length_cons]

theorem hasHigh_cons {b : UInt8} {rest : List UInt8} : HasHigh (b :: rest) ↔ 0x80 ≤ b ∨ HasHigh rest := by
  unfold HasHigh
  simp

theorem push_toNat_mod (w : UInt32) (b : UInt8) : (push w b).toNat = w.toNat * 256 % 2 ^ 32 + b.toNat := by
  have low : b.toNat < 2 ^ 8 := b.toNat_lt
  have high : w.toNat <<< 8 % 2 ^ 32 = 2 ^ 8 * (w.toNat % 2 ^ 24) := by
    rw [Nat.shiftLeft_eq]
    omega
  rw [push, UInt32.toNat_or, UInt32.toNat_shiftLeft, UInt8.toNat_toUInt32]
  show w.toNat <<< 8 % 2 ^ 32 ||| b.toNat = _
  rw [high, ← Nat.two_pow_add_eq_or_of_lt low]
  omega

/-- Four bytes leave nothing of what the word held before. -/
theorem foldl_push {bytes : List UInt8} (length : bytes.length = 4) (w : UInt32) :
    bytes.foldl push w = word bytes := by
  obtain ⟨a, b, c, d, rfl⟩ : ∃ a b c d, bytes = [a, b, c, d] := by
    cases bytes with
    | nil => cases length
    | cons a rest =>
      obtain ⟨b, c, d, rfl⟩ := List.length_eq_three.mp (Nat.succ.inj length)
      exact ⟨a, b, c, d, rfl⟩
  apply UInt32.toNat_inj.mp
  show (push (push (push (push w a) b) c) d).toNat = (push (push (push (push 0 a) b) c) d).toNat
  simp only [push_toNat_mod, UInt32.toNat_zero]
  omega

theorem pushSigned_low {b : UInt8} (low : ¬ 0x80 ≤ b) (w : UInt32) : pushSigned w b = push w b := by
  rw [pushSigned, signExtend, if_pos (UInt8.not_le.mp low), push]

theorem pushSigned_high {b : UInt8} (high : 0x80 ≤ b) (w : UInt32) : pushSigned w b = push 0xffffffff b := by
  rw [pushSigned, signExtend, if_neg (UInt8.not_lt.mpr high), push, ← UInt32.or_assoc]
  congr 1
  apply UInt32.toBitVec_inj.mp
  apply BitVec.eq_of_getLsbD_eq
  intro i bound
  have ones : ∀ i < 32, 8 ≤ i → (4294967040#32).getLsbD i = true := by decide
  have above : i < 32 → 8 ≤ i → w.toBitVec.getLsbD (i - 8) = true → (4294967040#32).getLsbD i = true :=
    fun _ shifted _ => ones i bound shifted
  simpa using above

theorem foldl_pushSigned (bytes : List UInt8) (w : UInt32) :
    bytes.foldl pushSigned w = (overwritten bytes).foldl push (if HasHigh bytes then 0xffffffff else w) := by
  induction bytes generalizing w with
  | nil => rfl
  | cons b rest ih =>
    rw [List.foldl_cons, ih, overwritten, List.foldl_cons]
    by_cases tail : HasHigh rest
    · rw [if_pos tail, if_pos tail, if_pos (hasHigh_cons.mpr (.inr tail))]
      rfl
    rw [if_neg tail, if_neg tail]
    by_cases high : 0x80 ≤ b
    · rw [if_pos (hasHigh_cons.mpr (.inl high)), pushSigned_high high]
    · rw [if_neg (mt hasHigh_cons.mp (not_or.mpr ⟨high, tail⟩)), pushSigned_low high]

theorem signedWord_eq {bytes : List UInt8} (length : bytes.length = 4) :
    signedWord bytes = word (overwritten bytes) := by
  rw [signedWord, foldl_pushSigned]
  exact foldl_push (by rw [length_overwritten, length]) _

/-! ### Which bytes are overwritten -/

theorem hasHigh_overwritten {bytes : List UInt8} : HasHigh (overwritten bytes) ↔ HasHigh bytes := by
  induction bytes with
  | nil => exact Iff.rfl
  | cons b rest ih =>
    rw [overwritten, hasHigh_cons, hasHigh_cons, ih]
    by_cases tail : HasHigh rest
    · exact iff_of_true (.inr tail) (.inr tail)
    · rw [if_neg tail]

theorem overwritten_overwritten (bytes : List UInt8) : overwritten (overwritten bytes) = overwritten bytes := by
  induction bytes with
  | nil => rfl
  | cons b rest ih =>
    rw [overwritten, overwritten, ih, if_congr hasHigh_overwritten rfl rfl]
    split <;> rfl

/-- Without a high byte behind the first nothing is overwritten. -/
theorem overwritten_low {bytes : List UInt8} (low : ¬ HasHigh bytes.tail) : overwritten bytes = bytes := by
  have whole : ∀ {bytes : List UInt8}, ¬ HasHigh bytes → overwritten bytes = bytes := by
    intro bytes low
    induction bytes with
    | nil => rfl
    | cons b rest ih =>
      have tail := mt (fun high => hasHigh_cons.mpr (.inr high)) low
      rw [overwritten, if_neg tail, ih tail]
  cases bytes with
  | nil => rfl
  | cons b rest =>
    rw [List.tail_cons] at low
    rw [overwritten, if_neg low]
    exact congrArg (b :: ·) (whole low)

theorem hasHigh_tail_overwritten {bytes : List UInt8} :
    HasHigh (overwritten bytes).tail ↔ HasHigh bytes.tail := by
  cases bytes with
  | nil => exact Iff.rfl
  | cons b rest => exact hasHigh_overwritten

/-- Bytes that overwriting leaves alone although one is high begin with `0xff`. -/
theorem ff_of_overwritten {bytes : List UInt8} (same : overwritten bytes = bytes) (high : HasHigh bytes.tail) :
    0xff ∈ bytes := by
  cases bytes with
  | nil => exact absurd high (by simp [HasHigh])
  | cons b rest =>
    rw [List.tail_cons] at high
    rw [overwritten, if_pos high] at same
    rw [← (List.cons.inj same).1]
    exact List.mem_cons_self

theorem pushSigned_bit (w : UInt32) (b : UInt8) : pushSigned w b &&& 0x80 = if 0x80 ≤ b then 0x80 else 0 := by
  have bit : ∀ w : UInt32, (push w b &&& 0x80).toNat = if 0x80 ≤ b then 0x80 else 0 := by
    intro w
    have low := b.toNat_lt
    rw [UInt32.toNat_and, push_toNat_mod]
    show (w.toNat * 256 % 2 ^ 32 + b.toNat) &&& 2 ^ 7 = _
    rw [Nat.and_two_pow, Nat.testBit_eq_decide_div_mod_eq]
    by_cases high : 0x80 ≤ b
    · have least : 0x80 ≤ b.toNat := high
      rw [if_pos high, decide_eq_true (by omega)]
      rfl
    · have most : ¬ 0x80 ≤ b.toNat := high
      rw [if_neg high, decide_eq_false (by omega)]
      rfl
  apply UInt32.toNat_inj.mp
  by_cases high : 0x80 ≤ b
  · rw [pushSigned_high high, bit, if_pos high, if_pos high]
    rfl
  · rw [pushSigned_low high, bit, if_neg high, if_neg high]
    rfl

end Bytes
