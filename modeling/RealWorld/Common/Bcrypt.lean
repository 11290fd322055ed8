import RealWorld.Common.Utils

/-!
# `libbcrypt`

Hashing and checking of passwords: the C wrapper around `BF_crypt`, with the key expansion
`BF_set_key` in full. The Eksblowfish rounds between the expanded key and the encoded digest are
the parameter `Eksblowfish`.
-/

namespace RealWorld

/-- The characters of a C string: up to the first NUL byte. -/
def cString (s : String) : List UInt8 := (utf8 s).takeWhile (· ≠ 0)

/-! ### `BF_set_key` -/

/-- The local variables of the scan over the key. `ptr` is the part of the C string still ahead,
empty when `*ptr` is the terminating NUL. -/
structure KeyScan where
  ptr : List UInt8
  tmp0 : UInt32 := 0
  tmp1 : UInt32 := 0
  sign : UInt32 := 0

/-- `(BF_word_signed)(signed char)b`. -/
def signedByte (b : UInt8) : UInt32 := if b < 0x80 then b.toUInt32 else 0xffffff00 ||| b.toUInt32

/-- One byte of a word. After the NUL the scan starts over at `key`. -/
def KeyScan.byte (key : List UInt8) (k : KeyScan) (j : Nat) : KeyScan :=
  let b := k.ptr.headD 0
  let tmp1 := k.tmp1 <<< 8 ||| signedByte b
  { ptr := if b = 0 then key else k.ptr.tail
    tmp0 := k.tmp0 <<< 8 ||| b.toUInt32
    tmp1 := tmp1
    sign := if j = 0 then k.sign else k.sign ||| (tmp1 &&& 0x80) }

def KeyScan.word (key : List UInt8) (k : KeyScan) : KeyScan :=
  [0, 1, 2, 3].foldl (KeyScan.byte key) { k with tmp0 := 0, tmp1 := 0 }

/-- The states of the scan after each of the next `n` words. -/
def keyWords (key : List UInt8) : Nat → KeyScan → List KeyScan
  | 0, _ => []
  | n + 1, k => k.word key :: keyWords key n (k.word key)

def bfInitStateP : List UInt32 :=
  [0x243f6a88, 0x85a308d3, 0x13198a2e, 0x03707344, 0xa4093822, 0x299f31d0, 0x082efa98, 0xec4e6c89,
   0x452821e6, 0x38d01377, 0xbe5466cf, 0x34e90c6c, 0xc0ac29b7, 0xc97c50dd, 0x3f84d5b5, 0xb5470917,
   0x9216d5d9, 0x8979fb1b]

/-- The two arrays `BF_set_key` fills: 18 words, 72 bytes, of expanded key each. -/
structure BFKey where
  expanded : List UInt32
  initial : List UInt32

def bfSetKey (key : List UInt8) (flags : UInt32) : BFKey :=
  let bug := flags &&& 1
  let safety := (flags &&& 2) <<< 15
  let words := keyWords key 18 { ptr := key }
  let sign := (words.getLast?.map (·.sign)).getD 0
  let diff := words.foldl (fun d k => d ||| (k.tmp0 ^^^ k.tmp1)) 0
  let expanded := words.map fun k => if bug = 0 then k.tmp0 else k.tmp1
  let initial := List.zipWith (· ^^^ ·) bfInitStateP expanded
  let diff := ((diff ||| diff >>> 16) &&& 0xffff) + 0xffff
  let sign := (sign <<< 9) &&& (~~~diff &&& safety)
  { expanded := expanded, initial := initial.modifyHead (· ^^^ sign) }

/-! ### `BF_crypt` and the salt -/

def bfItoa64 : List Char :=
  "./ABCDEFGHIJKLMNOPQRSTUVWXYZabcdefghijklmnopqrstuvwxyz0123456789".toList

def itoa64 (digit : Nat) : Char := bfItoa64.getD digit '.'

/-- `BF_safe_atoi64`, the inverse of the table `BF_itoa64`. -/
def atoi64 (c : Char) : Option Nat := bfItoa64.idxOf? c

/-- `BF_encode`: six bits a character. -/
def bfEncode : List UInt8 → List Char
  | [] => []
  | [a] => [itoa64 (a.toNat / 4), itoa64 (a.toNat % 4 * 16)]
  | [a, b] => [itoa64 (a.toNat / 4), itoa64 (a.toNat % 4 * 16 + b.toNat / 16), itoa64 (b.toNat % 16 * 4)]
  | a :: b :: c :: rest =>
      itoa64 (a.toNat / 4) :: itoa64 (a.toNat % 4 * 16 + b.toNat / 16) ::
        itoa64 (b.toNat % 16 * 4 + c.toNat / 64) :: itoa64 (c.toNat % 64) :: bfEncode rest

/-- `BF_decode`, which ignores the low bits the last character cannot hold. -/
def bfDecode : List Char → Option (List Nat)
  | c1 :: c2 :: c3 :: c4 :: rest => do
    let (d1, d2, d3, d4) := (← atoi64 c1, ← atoi64 c2, ← atoi64 c3, ← atoi64 c4)
    let bytes ← bfDecode rest
    return (d1 * 4 + d2 / 16) :: (d2 % 16 * 16 + d3 / 4) :: (d3 % 4 * 64 + d4) :: bytes
  | [c1, c2] => do return [(← atoi64 c1) * 4 + (← atoi64 c2) / 16]
  | [] => some []
  | _ => none

theorem bfDecode_block {c1 c2 c3 c4 : Char} {rest : List Char} : bfDecode (c1 :: c2 :: c3 :: c4 :: rest) = (do
    let (d1, d2, d3, d4) := (← atoi64 c1, ← atoi64 c2, ← atoi64 c3, ← atoi64 c4)
    let bytes ← bfDecode rest
    return (d1 * 4 + d2 / 16) :: (d2 % 16 * 16 + d3 / 4) :: (d3 % 4 * 64 + d4) :: bytes) := rfl

theorem bfDecode_pair {c1 c2 : Char} :
    bfDecode [c1, c2] = (do return [(← atoi64 c1) * 4 + (← atoi64 c2) / 16]) := rfl

/-- The Eksblowfish rounds on the expanded key, with `2 ^ cost` rounds and the 16 salt bytes, and
the 31 base-64 digits `BF_encode` makes of their output. -/
structure Eksblowfish where
  digest : (cost : Nat) → (salt : List Nat) → BFKey → List (Fin 64)

/-- `flags_by_subtype`: the revisions of the algorithm a setting may name. -/
def flagsBySubtype : Char → Option UInt32
  | 'a' => some 2
  | 'b' => some 4
  | 'x' => some 1
  | 'y' => some 4
  | _ => none

/-- `BF_crypt` on a setting `$2<subtype>$<two digits>$<22 characters of salt>`, of which only
these 29 characters are read. `none` is EINVAL. -/
def bfCrypt (eks : Eksblowfish) (key : List UInt8) (setting : List Char) : Option (List Char) :=
  match setting.take 7 with
  | ['$', '2', subtype, '$', tens, ones, '$'] => do
    let flags ← flagsBySubtype subtype
    let cost := (tens.toNat - '0'.toNat) * 10 + (ones.toNat - '0'.toNat)
    if ¬ ('0' ≤ tens ∧ tens ≤ '3' ∧ '0' ≤ ones ∧ ones ≤ '9' ∧ cost ≤ 31 ∧ 4 ≤ cost) then none
    let salt ← bfDecode ((setting.drop 7).take 22)
    let last ← atoi64 (setting.getD 28 ' ')
    let digest := (eks.digest cost salt (bfSetKey key flags)).map fun d : Fin 64 => itoa64 d
    return setting.take 28 ++ itoa64 (last / 16 * 16) :: digest
  | _ => none

/-- `bcrypt_gensalt`: 16 bytes of `/dev/urandom`, which may fail to be read. -/
def bcryptGensalt (factor : Nat) (urandom : Option (List UInt8)) : Option (List Char) :=
  let workf := if factor < 4 ∨ factor > 31 then 12 else factor
  match urandom with
  | some input =>
    if input.length = 16 then
      some (['$', '2', 'a', '$', Char.ofNat (48 + workf / 10), Char.ofNat (48 + workf % 10), '$'] ++
        bfEncode input)
    else none
  | none => none

def generateHash (eks : Eksblowfish) (urandom : Option (List UInt8)) (password : String) : Except Exn String :=
  match bcryptGensalt 12 urandom with
  | none => .error .runtime
  | some salt =>
    match bfCrypt eks (cString password) salt with
    | none => .error .runtime
    | some hash => .ok (String.ofList hash)

/-- `timing_safe_strcmp`: the differences of all characters are collected before any is looked at. -/
def timingSafeStrcmp (str1 str2 : List UInt8) : UInt32 :=
  if str1.length ≠ str2.length then 1
  else (str1.zip str2).foldl (fun ret u => ret ||| (u.1 ^^^ u.2).toUInt32) 0

def bcryptCheckpw (eks : Eksblowfish) (passwd : List UInt8) (hash : String) : Int :=
  match bfCrypt eks passwd hash.toList with
  | none => -1
  | some outhash => (timingSafeStrcmp (cString hash) (cString (String.ofList outhash))).toNat

/-- `BCrypt::validatePassword`: hash with the stored hash as the setting and compare. -/
def validatePassword (eks : Eksblowfish) (password hash : String) : Bool :=
  match bfCrypt eks (cString password) hash.toList with
  | none => false
  | some outhash => hash.toList = outhash

end RealWorld
