import Mathlib.Data.List.TakeWhile
import RealWorld.Bytes.Words
import RealWorld.Common.Bcrypt

/-!
# What a bcrypt hash remembers of a password

`BF_set_key` reads the C string over and over, its NUL included, until 72 bytes are filled. They
determine the first 72 bytes of the string and no more.
-/

namespace RealWorld

/-! ### The bytes of the expanded key -/

/-- Where the scan over `key` goes on after the byte at `ptr`. -/
def nextPtr (key ptr : List UInt8) : List UInt8 := if ptr.headD 0 = 0 then key else ptr.tail

/-- The next `n` bytes of the scan. -/
def scanned (key : List UInt8) : Nat → List UInt8 → List UInt8
  | 0, _ => []
  | n + 1, ptr => ptr.headD 0 :: scanned key n (nextPtr key ptr)

@[simp] theorem length_scanned (key : List UInt8) (n : Nat) (ptr : List UInt8) :
    (scanned key n ptr).length = n := by
  induction n generalizing ptr with
  | zero => rfl
  | succ n ih => rw [scanned, List.length_cons, ih]

theorem scanned_add (key : List UInt8) (m n : Nat) (ptr : List UInt8) :
    scanned key (m + n) ptr = scanned key m ptr ++ scanned key n ((nextPtr key)^[m] ptr) := by
  induction m generalizing ptr with
  | zero => rw [Nat.zero_add]; rfl
  | succ m ih =>
    rw [Nat.add_right_comm, scanned, scanned, ih, Function.iterate_succ_apply]
    rfl

theorem word_tmp0 (key : List UInt8) (k : KeyScan) :
    (k.word key).tmp0 = Bytes.word (scanned key 4 k.ptr) := rfl

theorem word_ptr (key : List UInt8) (k : KeyScan) : (k.word key).ptr = (nextPtr key)^[4] k.ptr := rfl

theorem keyWords_iff {key key' : List UInt8} {n : Nat} {k k' : KeyScan} :
    (keyWords key n k).map (·.tmp0) = (keyWords key' n k').map (·.tmp0) ↔
      scanned key (4 * n) k.ptr = scanned key' (4 * n) k'.ptr := by
  induction n generalizing k k' with
  | zero => exact iff_of_true rfl rfl
  | succ n ih =>
    rw [keyWords, keyWords, List.map_cons, List.map_cons, List.cons.injEq, ih, word_tmp0, word_tmp0,
      word_ptr, word_ptr, Bytes.word_inj (length_scanned ..) (length_scanned ..), Nat.mul_succ,
      Nat.add_comm (4 * n), scanned_add, scanned_add]
    constructor
    · rintro ⟨first, rest⟩
      rw [first, rest]
    · intro same
      exact List.append_inj same (by simp)

/-! ### Keys without NUL -/

section
variable {key key' ptr : List UInt8} {n : Nat}

/-- The first NUL of the scan ends the string. -/
theorem takeWhile_scanned (nonzero : ∀ b ∈ ptr, b ≠ 0) :
    (scanned key n ptr).takeWhile (· ≠ 0) = ptr.take n := by
  induction n generalizing ptr with
  | zero => rfl
  | succ n ih =>
    cases ptr with
    | nil => rfl
    | cons b ptr =>
      have here : b ≠ 0 := nonzero b List.mem_cons_self
      have next : nextPtr key (b :: ptr) = ptr := if_neg here
      rw [scanned, next, List.headD_cons, List.takeWhile_cons_of_pos (by simpa using here),
        ih fun c member => nonzero c (List.mem_cons_of_mem b member), List.take_succ_cons]

theorem scanned_long (nonzero : ∀ b ∈ ptr, b ≠ 0) (long : n ≤ ptr.length) :
    scanned key n ptr = ptr.take n := by
  have cut : (scanned key n ptr).takeWhile (· ≠ 0) = ptr.take n := takeWhile_scanned nonzero
  have prefixed := List.takeWhile_prefix (l := scanned key n ptr) fun b => decide (b ≠ 0)
  rw [cut] at prefixed
  refine (prefixed.eq_of_length ?_).symm
  rw [List.length_take, length_scanned]
  omega

/-- The 72 bytes of a scan determine 72 bytes of the string. -/
theorem scanned_iff (nonzero : ∀ b ∈ key, b ≠ 0) (nonzero' : ∀ b ∈ key', b ≠ 0) :
    scanned key n key = scanned key' n key' ↔ key.take n = key'.take n := by
  constructor
  · intro same
    have cut : (scanned key n key).takeWhile (· ≠ 0) = key.take n := takeWhile_scanned nonzero
    rw [← cut, same, takeWhile_scanned nonzero']
  · intro same
    have lengths := congrArg List.length same
    rw [List.length_take, List.length_take] at lengths
    by_cases short : key.length < n
    · rw [List.take_of_length_le (by omega), List.take_of_length_le (by omega)] at same
      rw [same]
    · rw [scanned_long nonzero (by omega), scanned_long nonzero' (by omega), same]

theorem expanded_iff (nonzero : ∀ b ∈ key, b ≠ 0) (nonzero' : ∀ b ∈ key', b ≠ 0) :
    (bfSetKey key 2).expanded = (bfSetKey key' 2).expanded ↔ key.take 72 = key'.take 72 := by
  have words : ∀ key, (bfSetKey key 2).expanded = (keyWords key 18 { ptr := key }).map (·.tmp0) :=
    fun _ => rfl
  rw [words, words, keyWords_iff]
  exact scanned_iff nonzero nonzero'

end

theorem cString_nonzero (s : String) : ∀ b ∈ cString s, b ≠ 0 := by
  intro b member
  simpa using List.mem_takeWhile_imp member

/-! ### Hashes -/

/-- The two keys give the same hash under one salt exactly when `BF_set_key` expands them to the same
72 bytes. -/
def Eksblowfish.Separates (eks : Eksblowfish) (key key' : List UInt8) : Prop :=
  ∀ cost salt flags, eks.digest cost salt (bfSetKey key flags) =
    eks.digest cost salt (bfSetKey key' flags) ↔
      (bfSetKey key flags).expanded = (bfSetKey key' flags).expanded

theorem itoa64_inj : ∀ d d' : Fin 64, itoa64 d = itoa64 d' → d = d' := by decide +kernel

/-- The salt `bcrypt_gensalt` makes, after its prefix `$2a$12$`. The last of its characters holds
two bits. -/
def GeneratedSalt (salt : List Char) : Prop :=
  ∃ front : List Char, front.length = 21 ∧ ∃ digit < 4, salt = front ++ [itoa64 (digit * 16)]

theorem bfEncode_salt {input : List UInt8} (length : input.length = 16) :
    GeneratedSalt (bfEncode input) := by
  match input, length with
  | [a, b, c, d, e, f, g, h, i, j, k, l, m, n, o, p], _ =>
    exact ⟨(bfEncode [a, b, c, d, e, f, g, h, i, j, k, l, m, n, o, p]).take 21, rfl, p.toNat % 4,
      Nat.mod_lt _ (by decide), rfl⟩

def settingPrefix : List Char := ['$', '2', 'a', '$', '1', '2', '$']

theorem bcryptGensalt_ok {urandom : Option (List UInt8)} {setting : List Char}
    (ok : bcryptGensalt 12 urandom = some setting) :
    ∃ salt, GeneratedSalt salt ∧ setting = settingPrefix ++ salt := by
  cases urandom with
  | none => cases ok
  | some input =>
    change (if input.length = 16 then some (settingPrefix ++ bfEncode input) else none) = _ at ok
    split at ok
    · rename_i length
      exact ⟨bfEncode input, bfEncode_salt length, (Option.some.inj ok).symm⟩
    · cases ok

theorem atoi64_itoa64 : ∀ digit < 4, atoi64 (itoa64 (digit * 16)) = some (digit * 16) := by decide

/-- With such a salt `BF_crypt` puts the digest after the setting, whatever follows the salt. -/
theorem bfCrypt_generated {eks : Eksblowfish} {key : List UInt8} {salt : List Char}
    (generated : GeneratedSalt salt) (rest : List Char) :
    bfCrypt eks key (settingPrefix ++ (salt ++ rest)) = (bfDecode salt).map fun bytes =>
      settingPrefix ++ (salt ++ (eks.digest 12 bytes (bfSetKey key 2)).map fun d : Fin 64 => itoa64 d) := by
  obtain ⟨front, length, digit, small, rfl⟩ := generated
  have salted : ((front ++ [itoa64 (digit * 16)]) ++ rest).take 22 = front ++ [itoa64 (digit * 16)] :=
    List.take_left' (by simp [length])
  have cut : (front ++ [itoa64 (digit * 16)] ++ rest).take 21 = front := by
    rw [List.append_assoc]
    exact List.take_left' length
  have last : (front ++ [itoa64 (digit * 16)] ++ rest).getD 21 ' ' = itoa64 (digit * 16) := by
    simp [length]
  show (do
    let bytes ← bfDecode (((front ++ [itoa64 (digit * 16)]) ++ rest).take 22)
    let last ← atoi64 ((front ++ [itoa64 (digit * 16)] ++ rest).getD 21 ' ')
    let digest := (eks.digest 12 bytes (bfSetKey key 2)).map fun d : Fin 64 => itoa64 d
    return settingPrefix ++ (front ++ [itoa64 (digit * 16)] ++ rest).take 21 ++
      itoa64 (last / 16 * 16) :: digest) = _
  rw [salted, cut, last, atoi64_itoa64 digit small]
  cases bfDecode (front ++ [itoa64 (digit * 16)]) with
  | none => rfl
  | some bytes => simp

theorem generateHash_ok {eks : Eksblowfish} {urandom : Option (List UInt8)} {password hash : String}
    (ok : generateHash eks urandom password = .ok hash) :
    ∃ salt bytes, GeneratedSalt salt ∧ bfDecode salt = some bytes ∧
      hash.toList = settingPrefix ++
        (salt ++ (eks.digest 12 bytes (bfSetKey (cString password) 2)).map fun d : Fin 64 => itoa64 d) := by
  unfold generateHash at ok
  split at ok
  · cases ok
  · rename_i setting found
    obtain ⟨salt, generated, rfl⟩ := bcryptGensalt_ok found
    rw [← List.append_nil salt, bfCrypt_generated generated] at ok
    cases decoded : bfDecode salt with
    | none =>
      rw [decoded] at ok
      cases ok
    | some bytes =>
      rw [decoded] at ok
      obtain rfl := Except.ok.inj ok
      exact ⟨salt, bytes, generated, decoded, String.toList_ofList⟩

theorem atoi64_digit {c : Char} {n : Nat} (found : atoi64 c = some n) : c ∈ bfItoa64 := by
  rw [atoi64, List.idxOf?] at found
  by_contra absent
  rw [List.findIdx?_eq_none_iff.mpr] at found
  · cases found
  · intro d member
    simpa using fun same : d = c => absent (same ▸ member)

theorem bfDecode_digits : ∀ {cs : List Char} {bytes : List Nat}, bfDecode cs = some bytes → ∀ c ∈ cs, c ∈ bfItoa64
  | c1 :: c2 :: c3 :: c4 :: rest, bytes, decoded => by
    simp only [bfDecode_block, bind, Option.bind_eq_some_iff] at decoded
    obtain ⟨_, first, _, second, _, third, _, fourth, bytes, others, _⟩ := decoded
    simp only [List.forall_mem_cons]
    exact ⟨atoi64_digit first, atoi64_digit second, atoi64_digit third, atoi64_digit fourth, bfDecode_digits others⟩
  | [c1, c2], bytes, decoded => by
    simp only [bfDecode_pair, bind, Option.bind_eq_some_iff] at decoded
    obtain ⟨_, first, _, second, _⟩ := decoded
    simp only [List.forall_mem_cons]
    exact ⟨atoi64_digit first, atoi64_digit second, List.forall_mem_nil _⟩
  | [], _, _ => List.forall_mem_nil _
  | [_], _, decoded => by cases decoded
  | [_, _, _], _, decoded => by cases decoded

/-- A hash is 29 characters of setting and the digest, digits throughout but for the prefix. -/
theorem generateHash_text {eks : Eksblowfish} {urandom : Option (List UInt8)} {password hash : String}
    (ok : generateHash eks urandom password = .ok hash) :
    (∃ cost salt key, hash.length = 29 + (eks.digest cost salt key).length) ∧
      ∀ c ∈ hash.toList, c ∈ settingPrefix ∨ c ∈ bfItoa64 := by
  obtain ⟨salt, bytes, ⟨front, length, digit, _, rfl⟩, decoded, stored⟩ := generateHash_ok ok
  have encoded : ∀ d : Fin 64, itoa64 d ∈ bfItoa64 := by decide +kernel
  constructor
  · refine ⟨12, bytes, bfSetKey (cString password) 2, ?_⟩
    rw [← String.length_toList, stored]
    simp [settingPrefix, length]
    omega
  · rw [stored]
    intro c member
    rcases List.mem_append.mp member with prefixed | member
    · exact .inl prefixed
    rcases List.mem_append.mp member with salted | digested
    · exact .inr (bfDecode_digits decoded c salted)
    · obtain ⟨d, _, rfl⟩ := List.mem_map.mp digested
      exact .inr (encoded d)

/-- A hash accepts the passwords that agree with its own on 72 bytes of their C strings. -/
theorem validatePassword_iff {eks : Eksblowfish} {urandom : Option (List UInt8)} {password hash tried : String}
    (separates : eks.Separates (cString tried) (cString password)) (ok : generateHash eks urandom password = .ok hash) :
    validatePassword eks tried hash = true ↔
      (cString tried).take 72 = (cString password).take 72 := by
  obtain ⟨salt, bytes, generated, decoded, stored⟩ := generateHash_ok ok
  unfold validatePassword
  rw [stored, bfCrypt_generated generated, decoded]
  simp only [Option.map_some, decide_eq_true_eq, List.append_cancel_left_eq]
  rw [List.map_inj_right itoa64_inj, eq_comm, separates 12 bytes 2, expanded_iff (cString_nonzero _)
    (cString_nonzero _)]

end RealWorld
