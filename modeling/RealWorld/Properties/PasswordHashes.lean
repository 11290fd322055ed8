import RealWorld.Common.BlowfishBlocks
import RealWorld.Common.Checkpw
import RealWorld.Common.KeyExpansion
import RealWorld.Properties.Revisions
import RealWorld.Properties.StorableUsers

/-!
# Hashes of passwords

What `libbcrypt` puts into a hash, and which passwords it then accepts, whatever the rounds do.
-/

namespace RealWorld

/-! ### The check against a stored hash -/

section
variable {eks : Eksblowfish} {password hash : String}

theorem Setting.hash_free (setting : Setting) (key : List UInt8) : Char.ofNat 0 ∉ setting.hash eks key := by
  have digits : ∀ ds, Char.ofNat 0 ∉ itoa64s ds := by
    intro ds nul
    obtain ⟨d, _, same⟩ := List.mem_map.mp nul
    have nonzero : ∀ d : Fin 64, itoa64 d ≠ Char.ofNat 0 := by decide +kernel
    exact nonzero d same
  have header : Char.ofNat 0 ∉ setting.header := by
    have subtype : setting.subtype ≠ Char.ofNat 0 := by
      intro nul
      have known := setting.known
      rw [nul] at known
      cases known
    have tens : setting.tens ≠ Char.ofNat 0 := by
      intro nul
      exact absurd (nul ▸ setting.decimal.1) (by decide)
    have ones : setting.ones ≠ Char.ofNat 0 := by
      intro nul
      exact absurd (nul ▸ setting.decimal.2.2.1) (by decide)
    unfold Setting.header
    simp [subtype.symm, tens.symm, ones.symm]
  unfold Setting.hash Setting.text
  simp only [List.mem_append, not_or]
  exact ⟨⟨header, digits _⟩, digits _⟩

theorem validatePassword_some :
    validatePassword eks password hash = true ↔ bfCrypt eks (cString password) hash.toList = some hash.toList := by
  unfold validatePassword
  split
  · rename_i failed
    rw [failed]
    simp
  · rename_i outhash hashed
    rw [hashed, decide_eq_true_eq, Option.some.injEq, eq_comm]

theorem bcryptCheckpw_error :
    bcryptCheckpw eks (cString password) hash = -1 ↔ bfCrypt eks (cString password) hash.toList = none := by
  unfold bcryptCheckpw
  split
  · rename_i failed
    exact iff_of_true rfl failed
  · rename_i outhash hashed
    rw [hashed]
    apply iff_of_false
    · omega
    · exact Option.some_ne_none outhash

theorem bcryptCheckpw_accepts (stored : Char.ofNat 0 ∉ hash.toList) :
    bcryptCheckpw eks (cString password) hash = 0 ↔
      bfCrypt eks (cString password) hash.toList = some hash.toList := by
  unfold bcryptCheckpw
  split
  · rename_i failed
    rw [failed]
    exact iff_of_false (by decide) (Option.some_ne_none _).symm
  · rename_i outhash hashed
    obtain ⟨setting, rest, _, rfl⟩ := bfCrypt_some hashed
    have free : Char.ofNat 0 ∉ (String.ofList (setting.hash eks (cString password))).toList := by
      rw [String.toList_ofList]
      exact setting.hash_free _
    have differences : ∀ ret : UInt32, (ret.toNat : Int) = 0 ↔ ret = 0 := by
      intro ret
      rw [Int.natCast_eq_zero, ← UInt32.toNat_inj]
      rfl
    rw [hashed, Option.some.injEq, cString_eq stored, cString_eq free, differences, timingSafeStrcmp_eq_zero,
      utf8_injective.eq_iff, ← String.toList_inj, String.toList_ofList, eq_comm]

/-- A text is hashed exactly when it starts with a setting. -/
theorem bfCrypt_none {key : List UInt8} {text : List Char} :
    bfCrypt eks key text = none ↔ ¬ ∃ setting : Setting, setting.text <+: text := by
  constructor
  · rintro failed ⟨setting, rest, rfl⟩
    rw [setting.crypt] at failed
    cases failed
  · intro missing
    by_contra hashed
    obtain ⟨out, hashed⟩ := Option.ne_none_iff_exists'.mp hashed
    obtain ⟨setting, rest, rfl, _⟩ := bfCrypt_some hashed
    exact missing ⟨setting, rest, rfl⟩

/-- Hashing again under a hash gives that hash. -/
theorem bfCrypt_again {key : List UInt8} {text out : List Char} (hashed : bfCrypt eks key text = some out) :
    bfCrypt eks key out = some out := by
  obtain ⟨setting, rest, _, rfl⟩ := bfCrypt_some hashed
  conv_lhs => rw [Setting.hash, setting.canonical.crypt]
  rw [setting.canonical_hash]

/-- `bcrypt_checkpw` fails on a text that starts with no setting. It accepts a text that is a hash of
the password under some setting, and no other text. -/
theorem checkpw_outcomes (stored : Char.ofNat 0 ∉ hash.toList) :
    (bcryptCheckpw eks (cString password) hash = -1 ↔ ¬ ∃ setting : Setting, setting.text <+: hash.toList) ∧
      (bcryptCheckpw eks (cString password) hash = 0 ↔
        ∃ setting, bfCrypt eks (cString password) setting = some hash.toList) ∧
      (validatePassword eks password hash = true ↔ bcryptCheckpw eks (cString password) hash = 0) := by
  refine ⟨bcryptCheckpw_error.trans bfCrypt_none, ?_, validatePassword_some.trans (bcryptCheckpw_accepts stored).symm⟩
  rw [bcryptCheckpw_accepts stored]
  constructor
  · intro hashed
    exact ⟨hash.toList, hashed⟩
  · rintro ⟨setting, hashed⟩
    exact bfCrypt_again hashed

end

/-- The hash of `secret` under a salt of zeros. -/
def sampleStored : String := String.ofList ((zeroSetting 'a' 2 rfl).hash bfEksblowfish (cString "secret"))

theorem checkpw_outcomes_sample :
    bcryptCheckpw bfEksblowfish (cString "secret") sampleStored ≠ -1 ∧
      bcryptCheckpw bfEksblowfish (cString "secret") sampleStored = 0 ∧
      validatePassword bfEksblowfish "secret" sampleStored = true ∧
      bcryptCheckpw bfEksblowfish (cString "secret") "secret" = -1 := by
  have text : sampleStored.toList = (zeroSetting 'a' 2 rfl).hash bfEksblowfish (cString "secret") := String.toList_ofList
  have stored : Char.ofNat 0 ∉ sampleStored.toList := text ▸ Setting.hash_free _ _
  have unset : ¬ ∃ setting : Setting, setting.text <+: "secret".toList := by
    rintro ⟨setting, rest, starts⟩
    cases starts
  obtain ⟨failed, accepted, valid⟩ := @checkpw_outcomes bfEksblowfish "secret" sampleStored stored
  have hashed := @Setting.crypt bfEksblowfish (cString "secret") (zeroSetting 'a' 2 rfl) []
  have zero := accepted.mpr ⟨_, hashed.trans (congrArg some text.symm)⟩
  refine ⟨?_, zero, valid.mpr zero, ?_⟩
  · intro error
    exact failed.mp error ⟨_, _, text.symm⟩
  · exact (checkpw_outcomes (by decide)).1.mpr unset

/-! ### The digest -/

theorem length_bfOutput (cost : Nat) (salt : List Nat) (key : BFKey) : (bfOutput cost salt key).length = 24 := by
  unfold bfOutput bfBlocks
  simp [bfMagicW, bfSwapped]

theorem bfEksblowfish_encodes : bfEksblowfish.Encodes := by
  intro cost salt key
  show (Sextets.digits ((bfOutput cost salt key).take 23)).length = 31
  rw [Sextets.length_digits, List.length_take, length_bfOutput]
  rfl

/-- Whatever the cost, the salt and the password, the schedule ends with 18 subkeys and full boxes.
Under them `BF_ENCRYPT` is a permutation that the subkeys in reverse order undo, so the three blocks of
the output are different and lead back to the magic words. -/
theorem digest_blocks (cost : Nat) (salt : List Nat) (key : List UInt8) (flags : UInt32) :
    let ctx := bfSchedule cost (saltWords salt) (bfSetKey key flags)
    ctx.Sized ∧ Function.Bijective (bfEncrypt ctx) ∧ (∀ block, bfEncrypt ctx.reversed (bfEncrypt ctx block) = block) ∧
      (bfBlocks ctx).Nodup ∧ (bfBlocks ctx).map (bfEncrypt ctx.reversed)^[64] = bfMagicW := by
  intro ctx
  have sized : ctx.Sized := bfSchedule_sized cost (saltWords salt) (length_initial key flags)
  have undone : Function.LeftInverse (bfEncrypt ctx.reversed) (bfEncrypt ctx) := bfEncrypt_reversed sized.p
  have bijective : Function.Bijective (bfEncrypt ctx) := bfEncrypt_bijective sized.p
  refine ⟨sized, bijective, undone, ?_, ?_⟩
  · have different : bfMagicW.Nodup := by decide
    exact different.map (bijective.injective.iterate 64)
  · unfold bfBlocks
    rw [List.map_map, (undone.iterate 64).comp_eq_id, List.map_id]


/-! ### Generated hashes -/

/-- The setting `bcrypt_gensalt` makes of 16 random bytes. -/
def generatedSetting {input : List UInt8} (length : input.length = 16) : Setting where
  subtype := 'a'
  tens := '1'
  ones := '2'
  digits := Sextets.digits input
  flags := 2
  known := rfl
  decimal := twelve_decimal
  cost_range := twelve_range
  length := by rw [Sextets.length_digits, length]

theorem bcryptGensalt_eq {input : List UInt8} (length : input.length = 16) :
    bcryptGensalt 12 (some input) = some (generatedSetting length).text := by
  show (if input.length = 16 then some (settingPrefix ++ bfEncode input) else none) = _
  rw [if_pos length, bfEncode_eq]
  rfl

theorem generateHash_eq {eks : Eksblowfish} {input : List UInt8} (length : input.length = 16) (password : String) :
    generateHash eks (some input) password =
      .ok (String.ofList ((generatedSetting length).hash eks (cString password))) := by
  have hashed : bfCrypt eks (cString password) (generatedSetting length).text =
      some ((generatedSetting length).hash eks (cString password)) := by
    have crypt := @Setting.crypt eks (cString password) (generatedSetting length) []
    rwa [List.append_nil] at crypt
  unfold generateHash
  rw [bcryptGensalt_eq length]
  simp only [hashed]

section
variable {input : List UInt8} (length : input.length = 16)

theorem generated_text :
    (generatedSetting length).canonical.text = settingPrefix ++ itoa64s (Sextets.digits input) := by
  have salt : (generatedSetting length).salt = input := Sextets.bytes_digits input
  show settingPrefix ++ itoa64s (Sextets.digits (generatedSetting length).salt) = _
  rw [salt]

/-- The digits behind the prefix: 22 of salt and 31 of digest. -/
theorem generated_parts (key : List UInt8) : ∃ digest : List (Fin 64), digest.length = 31 ∧
    (generatedSetting length).hash bfEksblowfish key =
      settingPrefix ++ itoa64s (Sextets.digits input ++ digest) := by
  let setting := generatedSetting length
  refine ⟨bfEksblowfish.digest setting.cost (setting.salt.map (·.toNat)) (bfSetKey key setting.flags), ?_, ?_⟩
  · exact bfEksblowfish_encodes ..
  rw [Setting.hash, generated_text, itoa64s, itoa64s, itoa64s, List.map_append, List.append_assoc]

theorem generated_congr {key key' : List UInt8} (same : keyBytes key = keyBytes key') :
    (generatedSetting length).hash bfEksblowfish key = (generatedSetting length).hash bfEksblowfish key' := by
  rw [Setting.hash, Setting.hash, bfSetKey_congr _ same]

end

theorem itoa64s_digits (ds : List (Fin 64)) : ∀ c ∈ itoa64s ds, c ∈ bfItoa64 := by
  intro c member
  obtain ⟨d, _, rfl⟩ := List.mem_map.mp member
  have encoded : ∀ d : Fin 64, itoa64 d ∈ bfItoa64 := by decide +kernel
  exact encoded d

theorem bcryptGensalt_none {urandom : Option (List UInt8)}
    (missing : ∀ input, urandom = some input → input.length ≠ 16) : bcryptGensalt 12 urandom = none := by
  cases urandom with
  | none => rfl
  | some input => exact if_neg (missing input rfl)

/-- Hashing fails only for want of 16 random bytes. The hash has 60 characters, the salt can be read
back from it, and it accepts every password that agrees with its own on 72 bytes. -/
theorem generated_hash (password : String) (urandom : Option (List UInt8)) :
    (∀ input, urandom = some input → input.length = 16 →
      ∃ hash, generateHash bfEksblowfish urandom password = .ok hash ∧ hash.length = 60 ∧
        hash.toList.take 7 = settingPrefix ∧ (∀ c ∈ hash.toList.drop 7, c ∈ bfItoa64) ∧
        bfDecode ((hash.toList.drop 7).take 22) = some (input.map (·.toNat)) ∧
        ∀ tried, (cString tried).take 72 = (cString password).take 72 →
          validatePassword bfEksblowfish tried hash = true) ∧
      ((∀ input, urandom = some input → input.length ≠ 16) →
        generateHash bfEksblowfish urandom password = .error .runtime) := by
  constructor
  · rintro input rfl length
    refine ⟨_, generateHash_eq length password, ?_⟩
    obtain ⟨digest, digested, text⟩ := generated_parts length (cString password)
    have salted : (Sextets.digits input).length = 22 := by rw [Sextets.length_digits, length]
    have body : ((generatedSetting length).hash bfEksblowfish (cString password)).drop 7 =
        itoa64s (Sextets.digits input ++ digest) := by
      rw [text]
      rfl
    rw [← String.length_toList, String.toList_ofList]
    refine ⟨?_, ?_, ?_, ?_, ?_⟩
    · rw [text, List.length_append, length_itoa64s, List.length_append, salted, digested]
      rfl
    · rw [text]
      rfl
    · rw [body]
      exact itoa64s_digits _
    · rw [body, itoa64s, List.map_append, List.take_left' (by rw [List.length_map, salted])]
      exact (bfDecode_itoa64s (by rw [salted])).trans (by rw [Sextets.bytes_digits])
    · intro tried same
      rw [validatePassword_some, String.toList_ofList]
      have keys := (keyBytes_iff (cString_nonzero tried) (cString_nonzero password)).mpr same
      rw [← generated_congr length keys]
      exact bfCrypt_again ((generatedSetting length).crypt [])
  · intro missing
    unfold generateHash
    rw [bcryptGensalt_none missing]

theorem generated_hash_sample :
    (∃ hash, generateHash bfEksblowfish (some (List.replicate 16 0)) "secret" = .ok hash ∧ hash.length = 60 ∧
      hash.toList.take 7 = settingPrefix ∧ validatePassword bfEksblowfish "secret" hash = true) ∧
    generateHash bfEksblowfish none "secret" = .error .runtime := by
  constructor
  · obtain ⟨hash, hashed, length, front, _, _, accepts⟩ := (generated_hash "secret" (some (List.replicate 16 0))).1 _ rfl rfl
    exact ⟨hash, hashed, length, front, accepts "secret" rfl⟩
  · exact (generated_hash "secret" none).2 nofun

end RealWorld
