import RealWorld.Common.BcryptSettings
import RealWorld.Common.Blowfish
import RealWorld.Common.SignSafety

/-!
# The revisions of bcrypt

Which keys the correct revision with its safety measure shares with the sign-extending one, and which
it treats differently from the plain correct one.
-/

namespace RealWorld
open Bytes

theorem bfSetKey_congr {key key' : List UInt8} (flags : UInt32) (same : keyBytes key = keyBytes key') :
    bfSetKey key flags = bfSetKey key' flags := by
  rw [bfSetKey_eq key, bfSetKey_eq key', same]

section
variable {key key' : List UInt8}

/-- The correct words, with the first deviating. -/
theorem bfSetKey_safe (key : List UInt8) :
    bfSetKey key 2 = {
      expanded := (keyBytes key).map word
      initial := (List.zipWith (· ^^^ ·) bfInitStateP ((keyBytes key).map word)).modifyHead
        (· ^^^ if Deviates (keyBytes key) then 0x10000 else 0) } := bfSetKey_eq key 2

theorem bfSetKey_plain (key : List UInt8) :
    bfSetKey key 4 = {
      expanded := (keyBytes key).map word
      initial := (List.zipWith (· ^^^ ·) bfInitStateP ((keyBytes key).map word)).modifyHead (· ^^^ 0) } := by
  rw [bfSetKey_eq key 4]
  simp only [show (4 : UInt32) &&& 1 = 0 by decide, show ((4 : UInt32) &&& 2) <<< 15 = 0 by decide, if_true, ite_self]

theorem bfSetKey_extended (key : List UInt8) :
    bfSetKey key 1 = {
      expanded := ((keyBytes key).map overwritten).map word
      initial := (List.zipWith (· ^^^ ·) bfInitStateP (((keyBytes key).map overwritten).map word)).modifyHead
        (· ^^^ 0) } := by
  rw [bfSetKey_eq key 1, List.map_map]
  simp only [show ((1 : UInt32) &&& 2) <<< 15 = 0 by decide, ite_self]
  rfl

theorem initial_nonempty (words : List UInt8 → UInt32) :
    List.zipWith (· ^^^ ·) bfInitStateP ((keyBytes key).map words) ≠ [] := List.cons_ne_nil _ _

theorem map_overwritten_low {words : List (List UInt8)} (benign : ¬ SignExtends words) :
    words.map overwritten = words := by
  conv_rhs => rw [← List.map_id words]
  apply List.map_congr_left
  intro bytes member
  exact overwritten_low fun high => benign ⟨bytes, member, high⟩

theorem signExtends_overwritten {words : List (List UInt8)} :
    SignExtends (words.map overwritten) ↔ SignExtends words := by
  unfold SignExtends
  simp only [List.mem_map, exists_exists_and_eq_and, hasHigh_tail_overwritten]

/-- The two revisions meet in keys whose words no sign extension touches. -/
theorem safe_eq_extended :
    bfSetKey key 2 = bfSetKey key' 1 ↔ keyBytes key = keyBytes key' ∧ ¬ SignExtends (keyBytes key) := by
  rw [bfSetKey_safe, bfSetKey_extended, BFKey.mk.injEq]
  constructor
  · rintro ⟨expanded, initial⟩
    have lengths : ∀ bytes ∈ (keyBytes key').map overwritten, bytes.length = 4 := by
      simpa using length_keyBytes key'
    have shown := map_word_inj (length_keyBytes key) lengths expanded
    have fixed : ∀ bytes ∈ keyBytes key, overwritten bytes = bytes := by
      rw [shown]
      simpa using fun bytes _ => overwritten_overwritten bytes
    rw [← shown, modifyHead_xor (initial_nonempty word)] at initial
    have benign : ¬ SignExtends (keyBytes key) := by
      intro extended
      rw [if_pos ⟨extended, fixed⟩] at initial
      exact absurd initial (by decide)
    rw [shown, signExtends_overwritten] at benign
    rw [map_overwritten_low benign] at shown
    exact ⟨shown, shown ▸ benign⟩
  · rintro ⟨same, benign⟩
    rw [← same, map_overwritten_low benign, if_neg fun deviates => benign deviates.1]
    exact ⟨rfl, rfl⟩

theorem safe_eq_safe : bfSetKey key 2 = bfSetKey key' 2 ↔ keyBytes key = keyBytes key' := by
  refine ⟨?_, bfSetKey_congr 2⟩
  rw [bfSetKey_safe, bfSetKey_safe, BFKey.mk.injEq]
  rintro ⟨expanded, _⟩
  exact map_word_inj (length_keyBytes key) (length_keyBytes key') expanded

theorem safe_eq_plain : bfSetKey key 2 = bfSetKey key 4 ↔ ¬ Deviates (keyBytes key) := by
  rw [bfSetKey_safe, bfSetKey_plain, BFKey.mk.injEq, modifyHead_xor (initial_nonempty word)]
  by_cases deviates : Deviates (keyBytes key)
  · rw [if_pos deviates]
    exact iff_of_false (fun same => absurd same.2 (by decide)) (not_not_intro deviates)
  · rw [if_neg deviates]
    exact iff_of_true ⟨rfl, rfl⟩ deviates

theorem deviates_ff (deviates : Deviates (keyBytes key)) : 0xff ∈ key := by
  obtain ⟨bytes, member, byte⟩ := deviates.ff
  exact (mem_keyBytes member byte).resolve_right (by decide)

/-- For keys without NUL, the safe revision agrees with the sign-extending one only on a common prefix
of 72 bytes that no sign extension touches, and on its own keys it tells just these prefixes apart. The
plain revision differs from it only for keys with a byte `0xff`. -/
theorem safety_measure (nonzero : ∀ b ∈ key, b ≠ 0) (nonzero' : ∀ b ∈ key', b ≠ 0) :
    (bfSetKey key 2 = bfSetKey key' 1 ↔ key.take 72 = key'.take 72 ∧ ¬ SignExtends (keyBytes key)) ∧
      (bfSetKey key 2 = bfSetKey key' 2 ↔ key.take 72 = key'.take 72) ∧
      (bfSetKey key 2 = bfSetKey key 4 ↔ ¬ Deviates (keyBytes key)) ∧ (Deviates (keyBytes key) → 0xff ∈ key) := by
  rw [safe_eq_extended, safe_eq_safe, keyBytes_iff nonzero nonzero']
  exact ⟨Iff.rfl, Iff.rfl, safe_eq_plain, deviates_ff⟩

end

/-- The key of the self-test in `_crypt_blowfish_rn`. -/
def selfTestKey : List UInt8 := [0xff, 0xa3, 0x33, 0x34, 0xff, 0xff, 0xff, 0xa3, 0x33, 0x34, 0x35]

theorem safety_measure_sample : bfSetKey selfTestKey 2 ≠ bfSetKey selfTestKey 1 ∧ 0xff ∈ selfTestKey := by
  have nonzero : ∀ b ∈ selfTestKey, b ≠ 0 := by decide +kernel
  have deviates : Deviates (keyBytes selfTestKey) := by decide +kernel
  obtain ⟨extended, _, _, ff⟩ := safety_measure nonzero nonzero
  exact ⟨fun same => (extended.mp same).2 deviates.1, ff deviates⟩

example : (bfSetKey selfTestKey 2).initial.head? = some (0xdb9c59bc ^^^ 0x10000) ∧
    (bfSetKey selfTestKey 4).expanded.getLast? = some 0x33343500 ∧
    (bfSetKey selfTestKey 2).expanded = (bfSetKey selfTestKey 4).expanded := by decide

/-! ### Passwords -/

/-- UTF-8 has no byte `0xff`. -/
theorem cString_ff (password : String) : 0xff ∉ cString password := by
  intro member
  have encoded : 0xff ∈ utf8 password := (List.takeWhile_prefix _).subset member
  rw [utf8_toList] at encoded
  obtain ⟨c, _, byte⟩ := List.mem_flatMap.mp encoded
  rcases Text.utf8EncodeChar_byte byte with ⟨code, ascii⟩ | ⟨_, high, _⟩
  · rw [← code] at ascii
    exact absurd ascii (by decide)
  · exact absurd high (by decide)

theorem bfSetKey_password (password : String) : bfSetKey (cString password) 2 = bfSetKey (cString password) 4 :=
  safe_eq_plain.mpr fun deviates => cString_ff password (deviates_ff deviates)

theorem Setting.flags_cases (setting : Setting) (correct : setting.subtype ≠ 'x') :
    setting.flags = 2 ∨ setting.flags = 4 := by
  have known := setting.known
  unfold flagsBySubtype at known
  split at known
  · exact .inl (Option.some.inj known).symm
  · exact .inr (Option.some.inj known).symm
  · exact absurd ‹_› correct
  · exact .inr (Option.some.inj known).symm
  · cases known

theorem Setting.drop_hash (setting : Setting) (eks : Eksblowfish) (key : List UInt8) :
    (setting.hash eks key).drop 29 =
      itoa64s (eks.digest setting.cost (setting.salt.map (·.toNat)) (bfSetKey key setting.flags)) :=
  List.drop_left' setting.canonical.length_text

/-- Under one cost and salt a password has one digest, whichever of the correct revisions is asked for. -/
theorem revisions_agree (eks : Eksblowfish) (password : String) {setting setting' : Setting}
    (correct : setting.subtype ≠ 'x') (correct' : setting'.subtype ≠ 'x') (cost : setting.cost = setting'.cost)
    (salt : setting.salt = setting'.salt) :
    (setting.hash eks (cString password)).drop 29 = (setting'.hash eks (cString password)).drop 29 := by
  have keys : ∀ {setting : Setting}, setting.subtype ≠ 'x' →
      bfSetKey (cString password) setting.flags = bfSetKey (cString password) 4 := by
    intro setting correct
    rcases setting.flags_cases correct with safe | plain
    · rw [safe, bfSetKey_password]
    · rw [plain]
  rw [setting.drop_hash, setting'.drop_hash, keys correct, keys correct', cost, salt]

theorem twelve_decimal : '0' ≤ '1' ∧ '1' ≤ '3' ∧ '0' ≤ '2' ∧ '2' ≤ '9' := by decide

theorem twelve_range : 4 ≤ ('1'.toNat - '0'.toNat) * 10 + ('2'.toNat - '0'.toNat) ∧
    ('1'.toNat - '0'.toNat) * 10 + ('2'.toNat - '0'.toNat) ≤ 31 := by decide

/-- A setting of cost 12 and a salt of zeros. -/
def zeroSetting (subtype : Char) (flags : UInt32) (known : flagsBySubtype subtype = some flags) : Setting where
  subtype := subtype
  tens := '1'
  ones := '2'
  digits := List.replicate 22 (Sextets.digit 0)
  flags := flags
  known := known
  decimal := twelve_decimal
  cost_range := twelve_range
  length := List.length_replicate

theorem revisions_agree_sample :
    ((zeroSetting 'a' 2 rfl).hash bfEksblowfish (cString "secret")).drop 29 =
      ((zeroSetting 'y' 4 rfl).hash bfEksblowfish (cString "secret")).drop 29 :=
  revisions_agree bfEksblowfish "secret" (by decide) (by decide) rfl rfl

end RealWorld
