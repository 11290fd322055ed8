import RealWorld.Bytes.Words
import RealWorld.Common.BcryptSettings
import RealWorld.Text.Utf8

/-!
# What `bcrypt_checkpw` compares

The comparison collects the differences of all characters and finds none exactly when the two C
strings are one.
-/

namespace RealWorld
open Text

/-! ### The comparison -/

theorem foldl_or_eq_zero {us : List (UInt8 × UInt8)} {ret : UInt32} :
    us.foldl (fun ret u => ret ||| (u.1 ^^^ u.2).toUInt32) ret = 0 ↔ ret = 0 ∧ ∀ u ∈ us, u.1 = u.2 := by
  induction us generalizing ret with
  | nil => simp
  | cons u us ih =>
    have same : (u.1 ^^^ u.2).toUInt32 = 0 ↔ u.1 = u.2 := by
      rw [← UInt8.xor_eq_zero_iff, ← UInt32.toNat_inj, ← UInt8.toNat_inj, UInt8.toNat_toUInt32]
      rfl
    rw [List.foldl_cons, ih, Bytes.or_eq_zero, same, List.forall_mem_cons, and_assoc]

theorem timingSafeStrcmp_eq_zero {str1 str2 : List UInt8} : timingSafeStrcmp str1 str2 = 0 ↔ str1 = str2 := by
  unfold timingSafeStrcmp
  split
  · rename_i lengths
    exact iff_of_false (by decide) fun same => lengths (congrArg List.length same)
  · rename_i lengths
    rw [foldl_or_eq_zero, Bytes.zip_same (not_not.mp lengths)]
    exact and_iff_right rfl

/-! ### C strings -/

theorem utf8_injective : Function.Injective utf8 := by
  intro s t same
  have arrays : s.toUTF8.data = t.toUTF8.data := Array.toList_inj.mp same
  exact String.toByteArray_inj.mp (ByteArray.ext arrays)

theorem utf8_nonzero {s : String} (free : Char.ofNat 0 ∉ s.toList) : ∀ b ∈ utf8 s, b ≠ 0 := by
  rintro b member rfl
  rw [utf8_toList] at member
  obtain ⟨c, inside, byte⟩ := List.mem_flatMap.mp member
  rcases utf8EncodeChar_byte byte with ⟨code, _⟩ | ⟨low, _⟩
  · have nul : c = Char.ofNat 0 := Char.toNat_inj.mp code.symm
    exact free (nul ▸ inside)
  · cases low

theorem cString_eq {s : String} (free : Char.ofNat 0 ∉ s.toList) : cString s = utf8 s := by
  apply List.takeWhile_eq_self_iff.mpr
  intro b member
  simpa using utf8_nonzero free b member

end RealWorld
