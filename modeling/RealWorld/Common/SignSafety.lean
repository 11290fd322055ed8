import RealWorld.Bytes.SignExtension
import RealWorld.Common.KeyExpansion
import RealWorld.Text.Utf8

/-!
# The safety measure of `BF_set_key`

Revision `x` sign-extends the bytes of a key. Revision `a` does not, but gives up agreement with the
other revisions where its words are those a sign extension leaves.
-/

namespace RealWorld
open Bytes

/-! ### The words of the scan -/

/-- The bytes of the next `n` words. -/
def wordBytes (key : List UInt8) : Nat → List UInt8 → List (List UInt8)
  | 0, _ => []
  | n + 1, ptr => scanned key 4 ptr :: wordBytes key n ((nextPtr key)^[4] ptr)

/-- The bytes of the 18 words of a key. -/
def keyBytes (key : List UInt8) : List (List UInt8) := wordBytes key 18 key

section
variable {key : List UInt8} {n : Nat} {ptr : List UInt8} {k : KeyScan}

theorem length_wordBytes {bytes : List UInt8} (member : bytes ∈ wordBytes key n ptr) : bytes.length = 4 := by
  induction n generalizing ptr with
  | zero => cases member
  | succ n ih =>
    rcases List.mem_cons.mp member with rfl | later
    · exact length_scanned ..
    · exact ih later

theorem length_keyBytes (key : List UInt8) : ∀ bytes ∈ keyBytes key, bytes.length = 4 :=
  fun _ => length_wordBytes

theorem keyWords_tmp0 : (keyWords key n k).map (·.tmp0) = (wordBytes key n k.ptr).map word := by
  induction n generalizing k with
  | zero => rfl
  | succ n ih => rw [keyWords, wordBytes, List.map_cons, List.map_cons, ih, word_tmp0, word_ptr]

theorem word_tmp1 (key : List UInt8) (k : KeyScan) :
    (k.word key).tmp1 = signedWord (scanned key 4 k.ptr) := rfl

theorem keyWords_tmp1 : (keyWords key n k).map (·.tmp1) = (wordBytes key n k.ptr).map (word ∘ overwritten) := by
  induction n generalizing k with
  | zero => rfl
  | succ n ih =>
    rw [keyWords, wordBytes, List.map_cons, List.map_cons, ih, word_tmp1, word_ptr,
      signedWord_eq (length_scanned ..)]
    rfl

theorem raise_flag {sign w w' w'' : UInt32} {b c d : UInt8} :
    sign ||| (pushSigned w b &&& 0x80) ||| (pushSigned w' c &&& 0x80) ||| (pushSigned w'' d &&& 0x80) =
      if HasHigh [b, c, d] then sign ||| 0x80 else sign := by
  have listed : HasHigh [b, c, d] ↔ 0x80 ≤ b ∨ 0x80 ≤ c ∨ 0x80 ≤ d := by
    unfold HasHigh
    simp
  have twice : sign ||| 0x80 ||| 0x80 = sign ||| 0x80 := by rw [UInt32.or_assoc, UInt32.or_self]
  rw [pushSigned_bit, pushSigned_bit, pushSigned_bit, if_congr listed rfl rfl]
  by_cases first : 0x80 ≤ b
  all_goals by_cases second : 0x80 ≤ c
  all_goals by_cases third : 0x80 ≤ d
  all_goals simp only [first, second, third, if_true, if_false, or_true, or_false, UInt32.or_zero, twice]

/-- A word raises the flag for a high byte behind its first. -/
theorem word_sign (key : List UInt8) (k : KeyScan) :
    (k.word key).sign = if HasHigh (scanned key 4 k.ptr).tail then k.sign ||| 0x80 else k.sign :=
  raise_flag

/-- Some word of a key is sign-extended behind its first byte. -/
def SignExtends (words : List (List UInt8)) : Prop := ∃ bytes ∈ words, HasHigh bytes.tail

instance (words : List (List UInt8)) : Decidable (SignExtends words) :=
  inferInstanceAs (Decidable (∃ bytes ∈ words, _))

theorem signExtends_cons {bytes : List UInt8} {words : List (List UInt8)} :
    SignExtends (bytes :: words) ↔ HasHigh bytes.tail ∨ SignExtends words := by
  unfold SignExtends
  simp

theorem keyWords_sign :
    ((keyWords key n k).getLast?.map (·.sign)).getD k.sign =
      if SignExtends (wordBytes key n k.ptr) then k.sign ||| 0x80 else k.sign := by
  induction n generalizing k with
  | zero => rw [if_neg (by simp [SignExtends, wordBytes])]; rfl
  | succ n ih =>
    have last : ((keyWords key (n + 1) k).getLast?.map (·.sign)).getD k.sign =
        ((keyWords key n (k.word key)).getLast?.map (·.sign)).getD (k.word key).sign := by
      rw [keyWords, List.getLast?_cons]
      cases (keyWords key n (k.word key)).getLast? with
      | none => rfl
      | some last => rfl
    rw [last, ih, word_sign, word_ptr, wordBytes]
    by_cases first : HasHigh (scanned key 4 k.ptr).tail
    · rw [if_pos first, if_pos (signExtends_cons.mpr (.inl first)), UInt32.or_assoc, UInt32.or_self, ite_self]
    · rw [if_neg first, if_congr (signExtends_cons.trans (or_iff_right first)) rfl rfl]

/-! ### The deviation -/

theorem foldl_diff {words : List KeyScan} {d : UInt32} :
    words.foldl (fun d k => d ||| (k.tmp0 ^^^ k.tmp1)) d = 0 ↔ d = 0 ∧ words.map (·.tmp0) = words.map (·.tmp1) := by
  induction words generalizing d with
  | nil => simp
  | cons k words ih =>
    rw [List.foldl_cons, ih, or_eq_zero, UInt32.xor_eq_zero_iff, List.map_cons, List.map_cons, List.cons.injEq,
      and_assoc]

/-- What the sixteen folded bits leave of the safety bit. -/
theorem safety_bit (d : UInt32) :
    ~~~(((d ||| d >>> 16) &&& 0xffff) + 0xffff) &&& 0x10000 = if d = 0 then 0x10000 else 0 := by
  have size := d.toNat_lt
  have folded : ((d ||| d >>> 16) &&& 0xffff).toNat = d.toNat % 2 ^ 16 ||| d.toNat / 2 ^ 16 := by
    rw [UInt32.toNat_and, UInt32.toNat_or, UInt32.toNat_shiftRight]
    show (d.toNat ||| d.toNat >>> 16) &&& (2 ^ 16 - 1) = _
    rw [Nat.and_two_pow_sub_one_eq_mod, Nat.or_mod_two_pow, Nat.shiftRight_eq_div_pow,
      Nat.mod_eq_of_lt (a := d.toNat / 2 ^ 16) (by omega)]
  have zero : ((d ||| d >>> 16) &&& 0xffff).toNat = 0 ↔ d = 0 := by
    rw [folded, Nat.or_eq_zero_iff, ← UInt32.toNat_inj, UInt32.toNat_zero]
    omega
  have small : ((d ||| d >>> 16) &&& 0xffff).toNat < 2 ^ 16 := by
    rw [folded]
    exact Nat.or_lt_two_pow (by omega) (by omega)
  revert zero small
  generalize (d ||| d >>> 16) &&& 0xffff = x
  intro zero small
  apply UInt32.toNat_inj.mp
  have sum : (x + 0xffff).toNat = x.toNat + 0xffff := by
    rw [UInt32.toNat_add]
    exact Nat.mod_eq_of_lt (by show x.toNat + 0xffff < 2 ^ 32; omega)
  rw [UInt32.toNat_and, UInt32.toNat_not, sum]
  show (UInt32.size - 1 - (x.toNat + 0xffff)) &&& 2 ^ 16 = _
  rw [Nat.and_two_pow, Nat.testBit_eq_decide_div_mod_eq]
  have size : UInt32.size = 2 ^ 32 := rfl
  by_cases none : d = 0
  · have nothing := zero.mpr none
    rw [if_pos none, decide_eq_true (by omega)]
    rfl
  · have something := mt zero.mp none
    rw [if_neg none, decide_eq_false (by omega)]
    rfl

/-- The words are sign-extended, yet to themselves. -/
def Deviates (words : List (List UInt8)) : Prop := SignExtends words ∧ ∀ bytes ∈ words, overwritten bytes = bytes

instance (words : List (List UInt8)) : Decidable (Deviates words) := inferInstanceAs (Decidable (_ ∧ _))

theorem map_overwritten {words : List (List UInt8)} (lengths : ∀ bytes ∈ words, bytes.length = 4) :
    words.map word = words.map (word ∘ overwritten) ↔ ∀ bytes ∈ words, overwritten bytes = bytes := by
  rw [List.map_inj_left]
  apply forall₂_congr
  intro bytes member
  rw [Function.comp_apply, word_inj (lengths bytes member) (by rw [length_overwritten, lengths bytes member])]
  exact eq_comm

theorem safety_cases (flags : UInt32) : (flags &&& 2) <<< 15 = 0 ∨ (flags &&& 2) <<< 15 = 0x10000 := by
  have masked : (flags &&& 2).toNat = (flags.toNat.testBit 1).toNat * 2 ^ 1 := by
    rw [UInt32.toNat_and]
    exact Nat.and_two_pow flags.toNat 1
  cases bit : flags.toNat.testBit 1 with
  | false =>
    rw [bit] at masked
    have zero : flags &&& 2 = 0 := UInt32.toNat_inj.mp masked
    exact .inl (by rw [zero]; rfl)
  | true =>
    rw [bit] at masked
    have two : flags &&& 2 = 2 := UInt32.toNat_inj.mp masked
    exact .inr (by rw [two]; rfl)

theorem deviation {words : List (List UInt8)} {d : UInt32} (flags : UInt32)
    (diff : d = 0 ↔ ∀ bytes ∈ words, overwritten bytes = bytes) :
    (if SignExtends words then 0x80 else 0 : UInt32) <<< 9 &&&
        (~~~(((d ||| d >>> 16) &&& 0xffff) + 0xffff) &&& (flags &&& 2) <<< 15) =
      if Deviates words then (flags &&& 2) <<< 15 else 0 := by
  rcases safety_cases flags with unmeasured | measured
  · rw [unmeasured, UInt32.and_zero, UInt32.and_zero, ite_self]
  have deviates : Deviates words ↔ SignExtends words ∧ d = 0 := and_congr_right fun _ => diff.symm
  rw [measured, safety_bit, if_congr deviates rfl rfl]
  by_cases extended : SignExtends words
  all_goals by_cases none : d = 0
  all_goals
    simp only [extended, none, and_self, and_true, and_false, if_true, if_false]
    rfl

/-- `BF_set_key` in terms of the bytes it scans. -/
theorem bfSetKey_eq (key : List UInt8) (flags : UInt32) :
    let expanded := (keyBytes key).map fun bytes => if flags &&& 1 = 0 then word bytes else word (overwritten bytes)
    bfSetKey key flags = {
      expanded := expanded
      initial := (List.zipWith (· ^^^ ·) bfInitStateP expanded).modifyHead
        (· ^^^ if Deviates (keyBytes key) then (flags &&& 2) <<< 15 else 0) } := by
  intro expanded
  have tmp0 : (keyWords key 18 { ptr := key }).map (·.tmp0) = (keyBytes key).map word := keyWords_tmp0
  have tmp1 : (keyWords key 18 { ptr := key }).map (·.tmp1) = (keyBytes key).map (word ∘ overwritten) := keyWords_tmp1
  have words : (keyWords key 18 { ptr := key }).map (fun k => if flags &&& 1 = 0 then k.tmp0 else k.tmp1) =
      expanded := by
    by_cases bug : flags &&& 1 = 0
    · simpa only [expanded, bug, if_true] using tmp0
    · simp only [expanded, bug, if_false]
      exact tmp1
  have sign : ((keyWords key 18 { ptr := key }).getLast?.map (·.sign)).getD 0 =
      if SignExtends (keyBytes key) then 0x80 else 0 := by
    have raised := @keyWords_sign key 18 { ptr := key }
    rwa [UInt32.zero_or] at raised
  have diff : (keyWords key 18 { ptr := key }).foldl (fun d k => d ||| (k.tmp0 ^^^ k.tmp1)) 0 = 0 ↔
      ∀ bytes ∈ keyBytes key, overwritten bytes = bytes := by
    rw [foldl_diff, tmp0, tmp1, map_overwritten (length_keyBytes key)]
    exact and_iff_right rfl
  unfold bfSetKey
  simp only [words, sign]
  congr 3
  funext w
  exact congrArg (w ^^^ ·) (deviation flags diff)

theorem map_word_inj {words words' : List (List UInt8)} (lengths : ∀ bytes ∈ words, bytes.length = 4)
    (lengths' : ∀ bytes ∈ words', bytes.length = 4) (same : words.map word = words'.map word) : words = words' := by
  induction words generalizing words' with
  | nil => exact (List.map_eq_nil_iff.mp same.symm).symm
  | cons bytes words ih =>
    cases words' with
    | nil => cases same
    | cons bytes' words' =>
      rw [List.map_cons, List.map_cons, List.cons.injEq] at same
      rw [List.forall_mem_cons] at lengths lengths'
      rw [(word_inj lengths.1 lengths'.1).mp same.1, ih lengths.2 lengths'.2 same.2]

/-- The words of a key without NUL determine its first 72 bytes. -/
theorem keyBytes_iff {key' : List UInt8} (nonzero : ∀ b ∈ key, b ≠ 0) (nonzero' : ∀ b ∈ key', b ≠ 0) :
    keyBytes key = keyBytes key' ↔ key.take 72 = key'.take 72 := by
  have words : (keyBytes key).map word = (keyBytes key').map word ↔ key.take 72 = key'.take 72 := by
    have tmp0 : ∀ key, (keyBytes key).map word = (keyWords key 18 { ptr := key }).map (·.tmp0) :=
      fun key => (@keyWords_tmp0 key 18 { ptr := key }).symm
    rw [tmp0, tmp0, keyWords_iff]
    exact scanned_iff nonzero nonzero'
  rw [← words]
  exact ⟨congrArg _, map_word_inj (length_keyBytes key) (length_keyBytes key')⟩

/-- The scan meets the bytes of the key and the NUL behind them. -/
theorem mem_scanned {b : UInt8} (inside : ∀ c ∈ ptr, c ∈ key) (member : b ∈ scanned key n ptr) : b ∈ key ∨ b = 0 := by
  induction n generalizing ptr with
  | zero => cases member
  | succ n ih =>
    rcases List.mem_cons.mp member with rfl | later
    · cases ptr with
      | nil => exact .inr rfl
      | cons c ptr => exact .inl (inside c List.mem_cons_self)
    · apply ih _ later
      unfold nextPtr
      split
      · exact fun c here => here
      · exact fun c here => inside c (List.mem_of_mem_tail here)

theorem flatten_wordBytes : (wordBytes key n ptr).flatten = scanned key (4 * n) ptr := by
  induction n generalizing ptr with
  | zero => rfl
  | succ n ih => rw [wordBytes, List.flatten_cons, ih, Nat.mul_succ, Nat.add_comm (4 * n), scanned_add]

theorem mem_keyBytes {bytes : List UInt8} {b : UInt8} (member : bytes ∈ keyBytes key) (byte : b ∈ bytes) :
    b ∈ key ∨ b = 0 := by
  have flat : b ∈ (keyBytes key).flatten := List.mem_flatten.mpr ⟨bytes, member, byte⟩
  rw [keyBytes, flatten_wordBytes] at flat
  exact mem_scanned (fun c here => here) flat

/-- Revision `a` deviates only for keys with a byte `0xff`. -/
theorem Deviates.ff {words : List (List UInt8)} (deviates : Deviates words) : ∃ bytes ∈ words, 0xff ∈ bytes := by
  obtain ⟨⟨bytes, member, high⟩, fixed⟩ := deviates
  exact ⟨bytes, member, ff_of_overwritten (fixed bytes member) high⟩

theorem modifyHead_xor {ws : List UInt32} (nonempty : ws ≠ []) {a b : UInt32} :
    ws.modifyHead (· ^^^ a) = ws.modifyHead (· ^^^ b) ↔ a = b := by
  cases ws with
  | nil => exact absurd rfl nonempty
  | cons w ws =>
    rw [List.modifyHead_cons, List.modifyHead_cons, List.cons.injEq, UInt32.xor_right_inj]
    exact and_iff_left rfl

end

end RealWorld
