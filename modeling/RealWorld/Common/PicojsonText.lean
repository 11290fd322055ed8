import RealWorld.Common.Picojson

/-!
# Reading back what `picojson` writes

Each kind of value is read back from its text, whatever follows. A number ends where a character follows
that no number contains.
-/

namespace RealWorld.Picojson

variable {lib : Doubles}

/-! ### Strings -/

theorem hexValue_hexDigit : ∀ n < 16, hexValue (hexDigit n) = some n := by decide

/-- A control character, as `\u00` and two digits. -/
theorem parseCodepoint_control {c : UInt8} (ascii : c < 0x80) (rest : Input) :
    parseCodepoint (0x30 :: 0x30 :: hexDigit (c.toNat / 16) :: hexDigit (c.toNat % 16) :: rest) = some ([c], rest) := by
  have small : c.toNat < 0x80 := ascii
  have zero : hexValue 0x30 = some 0 := by decide
  have value : ((0 * 16 + 0) * 16 + c.toNat / 16) * 16 + c.toNat % 16 = c.toNat := by omega
  have quad : parseQuadhex (0x30 :: 0x30 :: hexDigit (c.toNat / 16) :: hexDigit (c.toNat % 16) :: rest) =
      some (c.toNat, rest) := by
    simp only [parseQuadhex, zero, hexValue_hexDigit _ (show c.toNat / 16 < 16 by omega),
      hexValue_hexDigit _ (show c.toNat % 16 < 16 by omega)]
    exact congrArg (fun n => some (n, rest)) value
  have encoded : encodeCodepoint c.toNat = [c] := by
    rw [encodeCodepoint, if_pos small, UInt8.ofNat_toNat]
  unfold parseCodepoint
  rw [quad]
  show (if 0xD800 ≤ c.toNat ∧ c.toNat ≤ 0xDFFF then _ else _) = _
  rw [if_neg (by omega), encoded]
  rfl

theorem parseString_escape {text tail : Input} {c : UInt8} (read : parseEscape (text ++ tail) = some ([c], tail))
    (fuel : Nat) : parseString (fuel + 1) (0x5C :: text ++ tail) =
      (parseString fuel tail).map fun (s, rest) => (c :: s, rest) := by
  rw [List.cons_append, parseString, if_neg (by decide), if_neg (by decide), if_pos rfl, read]
  cases tailed : parseString fuel tail with
  | none => simp [tailed]
  | some found => simp [tailed]

theorem parseString_char (fuel : Nat) (c : UInt8) (tail : Input) :
    parseString (fuel + 1) (serializeChar c ++ tail) =
      (parseString fuel tail).map fun (s, rest) => (c :: s, rest) := by
  unfold serializeChar
  -- the eight characters with an escape of their own
  iterate 8
    split
    · rename_i same
      rw [same]
      exact parseString_escape rfl fuel
  split
  · rename_i control
    have ascii : c < 0x80 := by
      rcases control with low | del
      · exact UInt8.lt_trans low (by decide)
      · rw [del]
        decide
    have read : parseEscape ([0x75, 0x30, 0x30, hexDigit (c.toNat / 16), hexDigit (c.toNat % 16)] ++ tail) =
        some ([c], tail) := parseCodepoint_control ascii tail
    exact parseString_escape read fuel
  · rename_i quote backslash _ _ _ _ _ _ control
    rw [List.singleton_append, parseString, if_neg fun low => control (.inl low), if_neg quote, if_neg backslash]
    cases parseString fuel tail with
    | none => rfl
    | some found => rfl

theorem parseString_chars (s : List UInt8) {fuel : Nat} (enough : s.length < fuel) (rest : Input) :
    parseString fuel (s.flatMap serializeChar ++ 0x22 :: rest) = some (s, rest) := by
  induction s generalizing fuel with
  | nil =>
    obtain ⟨fuel, rfl⟩ := Nat.exists_eq_succ_of_ne_zero (Nat.ne_of_gt enough)
    rfl
  | cons c s ih =>
    obtain ⟨fuel, rfl⟩ := Nat.exists_eq_succ_of_ne_zero (show fuel ≠ 0 by omega)
    rw [List.flatMap_cons, List.append_assoc, parseString_char, ih (Nat.succ_lt_succ_iff.mp enough)]
    rfl

theorem length_serializeChar (c : UInt8) : 1 ≤ (serializeChar c).length := by
  unfold serializeChar
  repeat' split
  all_goals simp

/-- The text of a string is longer than the string. -/
theorem length_serializeStr (s : List UInt8) : s.length + 2 ≤ (serializeStr s).length := by
  have chars : s.length ≤ (s.flatMap serializeChar).length := by
    induction s with
    | nil => exact Nat.le_refl 0
    | cons c s ih =>
      have one := length_serializeChar c
      rw [List.flatMap_cons, List.length_append, List.length_cons]
      omega
  simp only [serializeStr, List.length_cons, List.length_append, List.length_nil]
  omega

/-! ### Numbers -/

/-- No number goes on here. -/
def Stops (rest : Input) : Prop := ∀ c ∈ rest.head?, isNumberChar c = false

theorem char_toNat {c : Char} (ascii : c.toNat < 256) : (char c).toNat = c.toNat := Nat.mod_eq_of_lt ascii

theorem isDigit_char {c : Char} (digit : c.isDigit = true) : isDigit (char c) = true ∧ (char c).toNat = c.toNat := by
  obtain ⟨low, high⟩ := Bool.and_eq_true_iff.mp digit
  have least : 48 ≤ c.toNat := of_decide_eq_true low
  have most : c.toNat ≤ 57 := of_decide_eq_true high
  have same := @char_toNat c (by omega)
  refine ⟨?_, same⟩
  unfold isDigit
  rw [Bool.and_eq_true_iff]
  constructor
  · exact decide_eq_true (show 48 ≤ (char c).toNat by omega)
  · exact decide_eq_true (show (char c).toNat ≤ 57 by omega)

theorem foldl_digits {cs : List Char} (digits : ∀ c ∈ cs, c.isDigit = true) (n : Nat) :
    (cs.map char).foldl (fun n c => n * 10 + (c.toNat - 0x30)) n = Nat.ofDigitChars 10 cs n := by
  induction cs generalizing n with
  | nil => simp
  | cons c cs ih =>
    rw [List.forall_mem_cons] at digits
    rw [List.map_cons, List.foldl_cons, ih digits.2, Nat.ofDigitChars_cons, (isDigit_char digits.1).2, Nat.mul_comm]
    rfl

theorem splitSign_digits {cs : List UInt8} (digits : cs.all isDigit = true) : splitSign cs = (false, cs) := by
  unfold splitSign
  split
  · cases digits
  · rfl

/-- The digits of an integer, without the sign. -/
theorem digits_of (n : Nat) : ((Nat.toDigits 10 n).map char).all isDigit = true ∧
    (Nat.toDigits 10 n).map char ≠ [] ∧
    ((Nat.toDigits 10 n).map char).foldl (fun n c => n * 10 + (c.toNat - 0x30)) 0 = n := by
  have digits : ∀ c ∈ Nat.toDigits 10 n, c.isDigit = true := fun c member =>
    Nat.isDigit_of_mem_toDigits (by decide) (by decide) member
  refine ⟨?_, by simp, ?_⟩
  · rw [List.all_eq_true]
    intro c member
    obtain ⟨d, digit, rfl⟩ := List.mem_map.mp member
    exact (isDigit_char (digits d digit)).1
  · rw [foldl_digits digits, Nat.ofDigitChars_ten_toDigits]

theorem printInt64_eq (n : Int) : printInt64 n =
    if n < 0 then 0x2D :: (Nat.toDigits 10 n.natAbs).map char else (Nat.toDigits 10 n.natAbs).map char := by
  unfold printInt64 decimal
  split
  · rfl
  · rfl

theorem strtoimax_printInt64 {n : Int} (range : IsInt64 n) : strtoimax (printInt64 n) = some n := by
  obtain ⟨digits, some, value⟩ := digits_of n.natAbs
  have sign : splitSign (printInt64 n) = (decide (n < 0), (Nat.toDigits 10 n.natAbs).map char) := by
    rw [printInt64_eq]
    by_cases negative : n < 0
    · rw [if_pos negative, decide_eq_true negative]
      rfl
    · rw [if_neg negative, decide_eq_false negative]
      exact splitSign_digits digits
  have whole : (if decide (n < 0) = true then -(n.natAbs : Int) else (n.natAbs : Int)) = n := by
    by_cases negative : n < 0
    · rw [if_pos (decide_eq_true negative)]
      omega
    · rw [if_neg (by simpa using negative)]
      omega
  have filled : ((Nat.toDigits 10 n.natAbs).map char).isEmpty = false := by simp
  unfold strtoimax
  rw [sign]
  simp only [filled, digits, value, whole, range, Bool.not_true, Bool.or_self, Bool.false_eq_true, if_true, if_false]

theorem printInt64_chars (n : Int) : ∀ c ∈ printInt64 n, isNumberChar c = true := by
  obtain ⟨digits, _, _⟩ := digits_of n.natAbs
  have number : ∀ c, isDigit c = true → isNumberChar c = true := by
    intro c digit
    unfold isNumberChar
    rw [digit]
    rfl
  intro c member
  rw [printInt64_eq] at member
  split at member
  · rcases List.mem_cons.mp member with rfl | member
    · rfl
    · exact number c (List.all_eq_true.mp digits c member)
  · exact number c (List.all_eq_true.mp digits c member)

theorem span_number {text rest : Input} (number : ∀ c ∈ text, isNumberChar c = true) (stops : Stops rest) :
    (text ++ rest).takeWhile isNumberChar = text ∧ (text ++ rest).dropWhile isNumberChar = rest := by
  have ends : rest.takeWhile isNumberChar = [] ∧ rest.dropWhile isNumberChar = rest := by
    cases rest with
    | nil => exact ⟨rfl, rfl⟩
    | cons c rest =>
      have last : isNumberChar c = false := stops c rfl
      simp [last]
  rw [List.takeWhile_append_of_pos number, List.dropWhile_append_of_pos number, ends.1, ends.2, List.append_nil]
  exact ⟨rfl, rfl⟩

/-- The first character of an integer. -/
theorem printInt64_head (n : Int) : ∃ c text, printInt64 n = c :: text ∧ (isDigit c || c == 0x2D) = true := by
  obtain ⟨digits, some, _⟩ := digits_of n.natAbs
  rw [printInt64_eq]
  split
  · exact ⟨_, _, rfl, rfl⟩
  · obtain ⟨c, text, split⟩ := List.exists_cons_of_ne_nil some
    rw [split] at digits ⊢
    refine ⟨c, text, rfl, ?_⟩
    rw [(List.all_cons.symm.trans digits |> Bool.and_eq_true_iff.mp).1]
    rfl

/-! ### Values -/

mutual

/-- A value within its types. The members of an object stand in the order of the map. -/
def Value.Formed (double : lib.Double → Prop) : Value lib → Prop
  | .null => True
  | .boolean _ => True
  | .int64 n => IsInt64 n
  | .number f => double f
  | .string _ => True
  | .array items => ItemsFormed double items
  | .object members => (members.map (·.1)).Pairwise (· < ·) ∧ MembersFormed double members

def ItemsFormed (double : lib.Double → Prop) : List (Value lib) → Prop
  | [] => True
  | v :: items => v.Formed double ∧ ItemsFormed double items

def MembersFormed (double : lib.Double → Prop) : List (List UInt8 × Value lib) → Prop
  | [] => True
  | (_, v) :: members => v.Formed double ∧ MembersFormed double members

end

/-- A value without doubles. -/
abbrev Value.Plain (v : Value lib) : Prop := v.Formed fun _ => False

abbrev ItemsPlain (items : List (Value lib)) : Prop := ItemsFormed (fun _ => False) items

abbrev MembersPlain (members : List (List UInt8 × Value lib)) : Prop := MembersFormed (fun _ => False) members

mutual

/-- What a value needs of `depths_`: a level for each array around the innermost, and one for an object
however deep the objects nest. -/
def Value.depth : Value lib → Nat
  | .null => 0
  | .boolean _ => 0
  | .int64 _ => 0
  | .number _ => 0
  | .string _ => 0
  | .array items => itemsDepth items + 1
  | .object members => max 1 (membersDepth members)

def itemsDepth : List (Value lib) → Nat
  | [] => 0
  | v :: items => max v.depth (itemsDepth items)

def membersDepth : List (List UInt8 × Value lib) → Nat
  | [] => 0
  | (_, v) :: members => max v.depth (membersDepth members)

end

theorem skipWs_cons {c : UInt8} (dark : isSpace c = false) (rest : Input) : skipWs (c :: rest) = c :: rest := by
  rw [skipWs, List.dropWhile_cons_of_neg (by rw [dark]; decide)]

theorem expect_here {c : UInt8} (dark : isSpace c = false) (rest : Input) : expect c (c :: rest) = some rest := by
  rw [expect, skipWs_cons dark]
  exact if_pos rfl

theorem expect_other {c d : UInt8} (dark : isSpace d = false) (other : d ≠ c) (rest : Input) :
    expect c (d :: rest) = none := by
  rw [expect, skipWs_cons dark]
  exact if_neg other

/-- The first character of a number begins nothing else. -/
theorem number_start {c : UInt8} (start : (isDigit c || c == 0x2D) = true) :
    isSpace c = false ∧ c ∉ [0x6E, 0x66, 0x74, 0x22, 0x5B, 0x7B, 0x5D] := by
  constructor
  · by_contra space
    have cases : c = 0x20 ∨ c = 0x09 ∨ c = 0x0A ∨ c = 0x0D := by
      simpa only [isSpace, Bool.not_eq_false, Bool.or_eq_true, beq_iff_eq, or_assoc] using space
    rcases cases with rfl | rfl | rfl | rfl
    all_goals exact absurd start (by decide)
  · intro member
    simp only [List.mem_cons, List.not_mem_nil, or_false] at member
    rcases member with rfl | rfl | rfl | rfl | rfl | rfl | rfl
    all_goals exact absurd start (by decide)

/-- How a value begins: neither with a space nor with a closing bracket. -/
theorem serialize_head {v : Value lib} (plain : v.Plain) :
    ∃ c text, v.serialize = c :: text ∧ isSpace c = false ∧ c ≠ 0x5D := by
  cases v with
  | null => exact ⟨_, _, rfl, by decide, by decide⟩
  | boolean b =>
    cases b with
    | true => exact ⟨_, _, rfl, by decide, by decide⟩
    | false => exact ⟨_, _, rfl, by decide, by decide⟩
  | int64 n =>
    obtain ⟨c, text, split, start⟩ := printInt64_head n
    obtain ⟨dark, other⟩ := number_start start
    exact ⟨c, text, split, dark, fun same => other (by rw [same]; decide)⟩
  | number f => exact plain.elim
  | string s => exact ⟨_, _, rfl, by decide, by decide⟩
  | array items => exact ⟨_, _, rfl, by decide, by decide⟩
  | object members => exact ⟨_, _, rfl, by decide, by decide⟩

section
variable {fuel depths : Nat} {rest : Input}

theorem parse_null : parse (fuel + 1) depths (0x6E :: rest) =
    (matchText [0x75, 0x6C, 0x6C] rest).map ((Value.null : Value lib), ·) := rfl

theorem parse_false : parse (fuel + 1) depths (0x66 :: rest) =
    (matchText [0x61, 0x6C, 0x73, 0x65] rest).map ((Value.boolean false : Value lib), ·) := rfl

theorem parse_true : parse (fuel + 1) depths (0x74 :: rest) =
    (matchText [0x72, 0x75, 0x65] rest).map ((Value.boolean true : Value lib), ·) := rfl

theorem parse_string : parse (fuel + 1) depths (0x22 :: rest) =
    (parseString fuel rest).map fun (s, rest) => ((Value.string s : Value lib), rest) := rfl

theorem parse_array : (parse (fuel + 1) depths (0x5B :: rest) : Option (Value lib × Input)) =
    if depths = 0 then none
    else match expect 0x5D rest with
      | some rest => some (Value.array [], rest)
      | none => parseItems fuel (depths - 1) [] rest := rfl

theorem parse_object : (parse (fuel + 1) depths (0x7B :: rest) : Option (Value lib × Input)) =
    if depths = 0 then none
    else match expect 0x7D rest with
      | some rest => some (Value.object [], rest)
      | none => parseMembers fuel depths [] rest := rfl

theorem parse_number {c : UInt8} (start : (isDigit c || c == 0x2D) = true) :
    (parse (fuel + 1) depths (c :: rest) : Option (Value lib × Input)) =
      (parseNumber ((c :: rest).takeWhile isNumberChar)).map (·, (c :: rest).dropWhile isNumberChar) := by
  obtain ⟨dark, other⟩ := number_start start
  simp only [List.mem_cons, List.not_mem_nil, or_false, not_or] at other
  obtain ⟨null, no, yes, quote, bracket, brace, _⟩ := other
  rw [parse, skipWs_cons dark]
  show (if c = 0x6E then _ else _) = _
  rw [if_neg null, if_neg no, if_neg yes, if_neg quote, if_neg bracket, if_neg brace, if_pos start]

theorem parse_int64 {n : Int} (range : IsInt64 n) (stops : Stops rest) :
    parse (fuel + 1) depths (printInt64 n ++ rest) = some ((Value.int64 n : Value lib), rest) := by
  obtain ⟨c, text, split, start⟩ := printInt64_head n
  obtain ⟨taken, dropped⟩ := span_number (printInt64_chars n) stops
  rw [split, List.cons_append] at taken dropped ⊢
  rw [parse_number start, taken, dropped, ← split, parseNumber, strtoimax_printInt64 range]
  rfl

end

/-! ### The whole text -/

/-- A key behind all others is added at the end. -/
theorem setMember_last {key : List UInt8} {v : Value lib} {members : List (List UInt8 × Value lib)}
    (last : ∀ k ∈ members.map (·.1), k < key) : setMember key v members = members ++ [(key, v)] := by
  induction members with
  | nil => rfl
  | cons m members ih =>
    rw [List.map_cons, List.forall_mem_cons] at last
    obtain ⟨before, rest⟩ := last
    have after : ¬ key < m.1 := List.lt_asymm before
    have other : key ≠ m.1 := fun same => List.lt_irrefl _ (same ▸ before)
    show (if key < m.1 then _ else if key = m.1 then _ else m :: setMember key v members) = _
    rw [if_neg after, if_neg other, ih rest]
    rfl

theorem stops_comma (rest : Input) : Stops (0x2C :: rest) := by
  rintro c ⟨⟩
  rfl

theorem stops_bracket (rest : Input) : Stops (0x5D :: rest) := by
  rintro c ⟨⟩
  rfl

theorem stops_brace (rest : Input) : Stops (0x7D :: rest) := by
  rintro c ⟨⟩
  rfl

section
variable {fuel depths : Nat} {v : Value lib} {tail : Input}

/-- One turn of the loop over items. -/
theorem parseItems_step
    (read : parse fuel depths (v.serialize ++ tail) = if v.depth ≤ depths then some (v, tail) else none)
    (before : List (Value lib)) :
    parseItems (fuel + 1) depths before (v.serialize ++ tail) =
      if v.depth ≤ depths then
        match expect 0x2C tail with
        | some rest => parseItems fuel depths (before ++ [v]) rest
        | none => (expect 0x5D tail).map (Value.array (before ++ [v]), ·)
      else none := by
  rw [parseItems, read]
  split <;> rfl

/-- One turn of the loop over members. -/
theorem parseMembers_step
    (read : parse fuel depths (v.serialize ++ tail) = if v.depth ≤ depths then some (v, tail) else none)
    {key : List UInt8} (enough : key.length < fuel) (before : List (List UInt8 × Value lib)) :
    parseMembers (fuel + 1) depths before (serializeStr key ++ 0x3A :: (v.serialize ++ tail)) =
      if v.depth ≤ depths then
        match expect 0x2C tail with
        | some rest => parseMembers fuel depths (setMember key v before) rest
        | none => (expect 0x7D tail).map (Value.object (setMember key v before), ·)
      else none := by
  have quoted : serializeStr key ++ 0x3A :: (v.serialize ++ tail) =
      0x22 :: (key.flatMap serializeChar ++ 0x22 :: 0x3A :: (v.serialize ++ tail)) := by
    rw [serializeStr, List.cons_append, List.append_assoc]
    rfl
  rw [quoted, parseMembers, expect_here (by decide)]
  simp only [Option.bind_eq_bind, Option.bind_some, parseString_chars key enough,
    expect_here (show isSpace 0x3A = false by decide), read]
  split <;> rfl

end

/-- The keys in the map come before the next one. -/
theorem keys_before {before members : List (List UInt8 × Value lib)} {key : List UInt8} {v : Value lib}
    (sorted : ((before ++ (key, v) :: members).map (·.1)).Pairwise (· < ·)) :
    ∀ k ∈ before.map (·.1), k < key := by
  rw [List.map_append, List.map_cons, List.pairwise_append] at sorted
  intro k member
  exact sorted.2.2 k member key List.mem_cons_self

theorem items_head {v : Value lib} (plain : v.Plain) (items : List (Value lib)) (rest : Input) :
    expect 0x5D (serializeItems (v :: items) ++ 0x5D :: rest) = none := by
  obtain ⟨c, text, split, dark, other⟩ := serialize_head plain
  cases items with
  | nil =>
    rw [serializeItems, split]
    exact expect_other dark other _
  | cons w items =>
    rw [serializeItems, split]
    exact expect_other dark other _

theorem members_head (m : List UInt8 × Value lib) (members : List (List UInt8 × Value lib)) (rest : Input) :
    expect 0x7D (serializeMembers (m :: members) ++ 0x7D :: rest) = none := by
  cases members with
  | nil => exact expect_other (by decide) (by decide) _
  | cons m' members => exact expect_other (by decide) (by decide) _

mutual

/-- A plain value is read back from its text, and what follows is left, unless it nests too deep. -/
theorem parse_serialize : ∀ (v : Value lib) {fuel depths : Nat} {rest : Input}, v.Plain →
    v.serialize.length < fuel → Stops rest →
      parse fuel depths (v.serialize ++ rest) = if v.depth ≤ depths then some (v, rest) else none
  | .null, fuel + 1, depths, rest, _, _, _ => (if_pos (Nat.zero_le depths)).symm
  | .boolean true, fuel + 1, depths, rest, _, _, _ => (if_pos (Nat.zero_le depths)).symm
  | .boolean false, fuel + 1, depths, rest, _, _, _ => (if_pos (Nat.zero_le depths)).symm
  | .int64 n, fuel + 1, depths, rest, plain, _, stops =>
    (parse_int64 plain stops).trans (if_pos (Nat.zero_le depths)).symm
  | .number f, fuel, depths, rest, plain, _, _ => plain.elim
  | .string s, fuel + 1, depths, rest, _, enough, _ => by
    have chars := length_serializeStr s
    rw [Value.serialize] at enough
    rw [Value.serialize, serializeStr, List.cons_append, parse_string, List.append_assoc]
    show (parseString fuel (s.flatMap serializeChar ++ 0x22 :: rest)).map _ = _
    rw [parseString_chars s (by omega)]
    exact (if_pos (Nat.zero_le depths)).symm
  | .array items, fuel + 1, depths, rest, plain, enough, _ => by
    rw [Value.serialize, List.length_cons, List.length_append] at enough
    rw [Value.serialize, List.cons_append, List.append_assoc, parse_array, Value.depth]
    by_cases none : depths = 0
    · rw [if_pos none, if_neg (by omega)]
    rw [if_neg none]
    cases items with
    | nil =>
      rw [itemsDepth, if_pos (by omega)]
      rfl
    | cons v items =>
      have more := items_head plain.1 items rest
      have read := @parseItems_serialize (v :: items) (List.cons_ne_nil v items) fuel (depths - 1) [] rest plain
        (Nat.lt_of_succ_lt_succ enough)
      show (match expect 0x5D (serializeItems (v :: items) ++ 0x5D :: rest) with
        | some rest => some (Value.array [], rest)
        | Option.none => parseItems fuel (depths - 1) [] (serializeItems (v :: items) ++ 0x5D :: rest)) = _
      rw [more]
      exact read.trans (if_congr (by omega) rfl rfl)
  | .object members, fuel + 1, depths, rest, plain, enough, _ => by
    rw [Value.serialize, List.length_cons, List.length_append] at enough
    rw [Value.serialize, List.cons_append, List.append_assoc, parse_object, Value.depth]
    by_cases none : depths = 0
    · rw [if_pos none, if_neg (by omega)]
    rw [if_neg none]
    cases members with
    | nil =>
      rw [membersDepth, if_pos (by omega)]
      rfl
    | cons m members =>
      have more := members_head m members rest
      have read := @parseMembers_serialize (m :: members) (List.cons_ne_nil m members) fuel depths [] rest plain.2
        plain.1 (Nat.lt_of_succ_lt_succ enough)
      show (match expect 0x7D (serializeMembers (m :: members) ++ 0x7D :: rest) with
        | some rest => some (Value.object [], rest)
        | Option.none => parseMembers fuel depths [] (serializeMembers (m :: members) ++ 0x7D :: rest)) = _
      rw [more]
      exact read.trans (if_congr (by omega) rfl rfl)

/-- The loop over the items, behind those it has read. -/
theorem parseItems_serialize : ∀ (items : List (Value lib)), items ≠ [] →
    ∀ {fuel depths : Nat} {before : List (Value lib)} {rest : Input}, ItemsPlain items →
      (serializeItems items).length + 1 < fuel →
        parseItems fuel depths before (serializeItems items ++ 0x5D :: rest) =
          if itemsDepth items ≤ depths then some (.array (before ++ items), rest) else none
  | [], nonempty, _, _, _, _, _, _ => absurd rfl nonempty
  | [v], _, fuel + 1, depths, before, rest, plain, enough => by
    rw [serializeItems] at enough
    have read := @parse_serialize v fuel depths (0x5D :: rest) plain.1 (by omega) (stops_bracket rest)
    rw [serializeItems, parseItems_step read, expect_other (by decide) (by decide), expect_here (by decide),
      itemsDepth, itemsDepth, Nat.max_zero]
    rfl
  | v :: w :: items, _, fuel + 1, depths, before, rest, plain, enough => by
    rw [serializeItems, List.length_append, List.length_cons] at enough
    have read := @parse_serialize v fuel depths (0x2C :: (serializeItems (w :: items) ++ 0x5D :: rest)) plain.1
      (by omega) (stops_comma _)
    have others := @parseItems_serialize (w :: items) (List.cons_ne_nil w items) fuel depths (before ++ [v]) rest
      plain.2 (by omega)
    rw [List.append_assoc] at others
    rw [serializeItems, List.append_assoc, List.cons_append, parseItems_step read, expect_here (by decide), itemsDepth]
    simp only [others, Nat.max_le]
    rw [← ite_and]
    rfl

/-- The loop over the members. A key comes behind those in the map already. -/
theorem parseMembers_serialize : ∀ (members : List (List UInt8 × Value lib)), members ≠ [] →
    ∀ {fuel depths : Nat} {before : List (List UInt8 × Value lib)} {rest : Input}, MembersPlain members →
      ((before ++ members).map (·.1)).Pairwise (· < ·) → (serializeMembers members).length + 1 < fuel →
        parseMembers fuel depths before (serializeMembers members ++ 0x7D :: rest) =
          if membersDepth members ≤ depths then some (.object (before ++ members), rest) else none
  | [], nonempty, _, _, _, _, _, _, _ => absurd rfl nonempty
  | [(key, v)], _, fuel + 1, depths, before, rest, plain, sorted, enough => by
    have keys := length_serializeStr key
    rw [serializeMembers, List.length_append, List.length_cons] at enough
    have read := @parse_serialize v fuel depths (0x7D :: rest) plain.1 (by omega) (stops_brace rest)
    rw [serializeMembers, List.append_assoc, List.cons_append, parseMembers_step read (by omega),
      expect_other (by decide) (by decide), expect_here (by decide), setMember_last (keys_before sorted),
      membersDepth, membersDepth, Nat.max_zero]
    rfl
  | (key, v) :: m :: members, _, fuel + 1, depths, before, rest, plain, sorted, enough => by
    have keys := length_serializeStr key
    rw [serializeMembers, List.length_append, List.length_cons, List.length_append, List.length_cons] at enough
    have read := @parse_serialize v fuel depths (0x2C :: (serializeMembers (m :: members) ++ 0x7D :: rest)) plain.1
      (by omega) (stops_comma _)
    have later : ((before ++ [(key, v)] ++ m :: members).map (·.1)).Pairwise (· < ·) := by
      rw [List.append_assoc]
      exact sorted
    have others := @parseMembers_serialize (m :: members) (List.cons_ne_nil m members) fuel depths
      (before ++ [(key, v)]) rest plain.2 later (by omega)
    rw [List.append_assoc] at others
    rw [serializeMembers, List.append_assoc, List.cons_append, List.append_assoc, List.cons_append,
      parseMembers_step read (by omega), expect_here (by decide), setMember_last (keys_before sorted), membersDepth]
    simp only [others, Nat.max_le]
    rw [← ite_and]
    rfl

end

/-- Of the entry point's 100 levels only arrays use more than one. -/
theorem parseText_serialize {v : Value lib} (plain : v.Plain) :
    parseText v.serialize = if v.depth ≤ defaultMaxDepths then some v else none := by
  have read := @parse_serialize lib v (v.serialize.length + 1) defaultMaxDepths [] plain (Nat.lt_succ_self _)
    (by rintro c ⟨⟩)
  rw [List.append_nil] at read
  rw [parseText, read]
  split <;> rfl

end RealWorld.Picojson
