import RealWorld.Common.PicojsonText

/-!
# What `picojson` accepts

The grammar behind the parser, as derivations without fuel. The parser finds a value just when there is a
derivation of it, and what is derived is well formed.
-/

namespace RealWorld.Picojson

variable {lib : Doubles}

/-! ### Derivations -/

/-- The rest of a string, behind its opening quote. -/
inductive StringReads : Input → List UInt8 → Input → Prop
  | quote {rest : Input} : StringReads (0x22 :: rest) [] rest
  | escape {input mid rest : Input} {out s : List UInt8} (read : parseEscape input = some (out, mid)) :
    StringReads mid s rest → StringReads (0x5C :: input) (out ++ s) rest
  | char {c : UInt8} {input rest : Input} {s : List UInt8} (printed : ¬ c < 0x20) (unquoted : c ≠ 0x22)
    (unescaped : c ≠ 0x5C) : StringReads input s rest → StringReads (c :: input) (c :: s) rest

/-- A key and its colon. -/
def KeyReads (input : Input) (key : List UInt8) (rest : Input) : Prop :=
  ∃ quoted behind, expect 0x22 input = some quoted ∧ StringReads quoted key behind ∧ expect 0x3A behind = some rest

/-- Where the parser stands: in front of a value, or in a loop, with what the loop has read. -/
inductive Phrase (lib : Doubles) where
  | value
  | items (before : List (Value lib))
  | members (before : List (List UInt8 × Value lib))

def Phrase.parse : Phrase lib → Nat → (depths : Nat) → Input → Option (Value lib × Input)
  | .value, fuel, depths, input => Picojson.parse fuel depths input
  | .items before, fuel, depths, input => parseItems fuel depths before input
  | .members before, fuel, depths, input => parseMembers fuel depths before input

inductive Reads : (depths : Nat) → Phrase lib → Input → Value lib → Input → Prop
  | null {depths : Nat} {input tail rest : Input} (start : skipWs input = 0x6E :: tail)
    (word : matchText [0x75, 0x6C, 0x6C] tail = some rest) : Reads depths .value input .null rest
  | no {depths : Nat} {input tail rest : Input} (start : skipWs input = 0x66 :: tail)
    (word : matchText [0x61, 0x6C, 0x73, 0x65] tail = some rest) : Reads depths .value input (.boolean false) rest
  | yes {depths : Nat} {input tail rest : Input} (start : skipWs input = 0x74 :: tail)
    (word : matchText [0x72, 0x75, 0x65] tail = some rest) : Reads depths .value input (.boolean true) rest
  | string {depths : Nat} {input tail rest : Input} {s : List UInt8} (start : skipWs input = 0x22 :: tail)
    (chars : StringReads tail s rest) : Reads depths .value input (.string s) rest
  | number {depths : Nat} {input tail : Input} {c : UInt8} {v : Value lib} (start : skipWs input = c :: tail)
    (digit : (isDigit c || c == 0x2D) = true) (value : parseNumber ((c :: tail).takeWhile isNumberChar) = some v) :
    Reads depths .value input v ((c :: tail).dropWhile isNumberChar)
  | noItems {depths : Nat} {input tail rest : Input} (start : skipWs input = 0x5B :: tail)
    (stop : expect 0x5D tail = some rest) : Reads (depths + 1) .value input (.array []) rest
  | array {depths : Nat} {input tail rest : Input} {v : Value lib} (start : skipWs input = 0x5B :: tail) :
    Reads depths (.items []) tail v rest → Reads (depths + 1) .value input v rest
  | noMembers {depths : Nat} {input tail rest : Input} (start : skipWs input = 0x7B :: tail)
    (stop : expect 0x7D tail = some rest) : Reads (depths + 1) .value input (.object []) rest
  | object {depths : Nat} {input tail rest : Input} {v : Value lib} (start : skipWs input = 0x7B :: tail) :
    Reads (depths + 1) (.members []) tail v rest → Reads (depths + 1) .value input v rest
  | lastItem {depths : Nat} {input mid rest : Input} {v : Value lib} {before : List (Value lib)} :
    Reads depths .value input v mid → expect 0x5D mid = some rest →
      Reads depths (.items before) input (.array (before ++ [v])) rest
  | item {depths : Nat} {input mid more rest : Input} {v w : Value lib} {before : List (Value lib)} :
    Reads depths .value input v mid → expect 0x2C mid = some more →
      Reads depths (.items (before ++ [v])) more w rest → Reads depths (.items before) input w rest
  | lastMember {depths : Nat} {input tail mid rest : Input} {key : List UInt8} {v : Value lib}
    {before : List (List UInt8 × Value lib)} : KeyReads input key tail → Reads depths .value tail v mid →
      expect 0x7D mid = some rest → Reads depths (.members before) input (.object (setMember key v before)) rest
  | member {depths : Nat} {input tail mid more rest : Input} {key : List UInt8} {v w : Value lib}
    {before : List (List UInt8 × Value lib)} : KeyReads input key tail → Reads depths .value tail v mid →
      expect 0x2C mid = some more → Reads depths (.members (setMember key v before)) more w rest →
        Reads depths (.members before) input w rest

/-! ### What the parser finds -/

section
variable {input rest : Input} {c : UInt8}

theorem skipWs_length (input : Input) : (skipWs input).length ≤ input.length :=
  (List.dropWhile_suffix isSpace).length_le

theorem expect_some (found : expect c input = some rest) : skipWs input = c :: rest := by
  unfold expect at found
  split at found
  · rename_i d tail start
    split at found
    · rename_i same
      rw [start, same, Option.some.inj found]
    · cases found
  · cases found

theorem expect_length (found : expect c input = some rest) : rest.length < input.length := by
  have bound := skipWs_length input
  rw [expect_some found, List.length_cons] at bound
  omega

theorem expect_none {d : UInt8} (found : expect c input = some rest) (other : c ≠ d) : expect d input = none := by
  rw [expect, expect_some found]
  exact if_neg other

theorem matchText_length {pattern : List UInt8} (found : matchText pattern input = some rest) :
    rest.length ≤ input.length := by
  induction pattern generalizing input with
  | nil => exact (Option.some.inj found ▸ Nat.le_refl _)
  | cons p pattern ih =>
    cases input with
    | nil => cases found
    | cons d input =>
      simp only [matchText] at found
      split at found
      · exact Nat.le_succ_of_le (ih found)
      · cases found

theorem parseQuadhex_length {n : Nat} (found : parseQuadhex input = some (n, rest)) :
    rest.length < input.length := by
  unfold parseQuadhex at found
  split at found
  · simp only [bind, Option.bind_eq_some_iff] at found
    obtain ⟨_, _, _, _, _, _, _, _, same⟩ := found
    cases same
    simp only [List.length_cons]
    omega
  · cases found

theorem parseCodepoint_length {out : List UInt8} (found : parseCodepoint input = some (out, rest)) :
    rest.length < input.length := by
  unfold parseCodepoint at found
  simp only [bind, Option.bind_eq_some_iff, Prod.exists] at found
  obtain ⟨ch, mid, first, found⟩ := found
  have shorter := parseQuadhex_length first
  split at found
  · split at found
    · cases found
    · simp only [Option.bind_eq_some_iff, Prod.exists] at found
      obtain ⟨behind, slash, second, after, low, found⟩ := found
      have step := matchText_length slash
      have step' := parseQuadhex_length low
      split at found
      · obtain ⟨_, rfl⟩ := Prod.mk.inj (Option.some.inj found)
        omega
      · cases found
  · cases found
    exact shorter

theorem parseEscape_length {out : List UInt8} (found : parseEscape input = some (out, rest)) :
    rest.length < input.length := by
  cases input with
  | nil => cases found
  | cons c input =>
    simp only [parseEscape] at found
    iterate 6
      split at found
      · cases found
        exact Nat.lt_succ_self _
    split at found
    · exact Nat.lt_succ_of_lt (parseCodepoint_length found)
    · cases found

end

section
variable {input rest : Input} {s key : List UInt8}

/-- Some characters are taken, and more fuel than there are of them is enough. -/
def Found {α : Type} (parse : Nat → Option (α × Input)) (input : Input) (a : α) (rest : Input) : Prop :=
  rest.length < input.length ∧ ∀ fuel, input.length < fuel + rest.length → parse fuel = some (a, rest)

theorem Found.turn {α : Type} {parse : Nat → Option (α × Input)} {a : α} (shorter : rest.length < input.length)
    (found : ∀ fuel, input.length ≤ fuel + rest.length → parse (fuel + 1) = some (a, rest)) :
    Found parse input a rest := by
  refine ⟨shorter, fun fuel enough => ?_⟩
  cases fuel with
  | zero => omega
  | succ fuel => exact found fuel (by omega)

theorem stringReads_of_parse {fuel : Nat} (found : parseString fuel input = some (s, rest)) :
    StringReads input s rest := by
  induction fuel generalizing input s with
  | zero => cases found
  | succ fuel ih =>
    cases input with
    | nil => cases found
    | cons c input =>
      simp only [parseString] at found
      split at found
      · cases found
      rename_i printed
      split at found
      · rename_i quote
        obtain ⟨rfl, rfl⟩ := Prod.mk.inj (Option.some.inj found)
        exact quote ▸ .quote
      rename_i unquoted
      simp only [bind, pure] at found
      split at found
      · rename_i slash
        simp only [Option.bind_eq_some_iff, Prod.exists] at found
        obtain ⟨out, mid, read, s', rest', found, same⟩ := found
        obtain ⟨rfl, rfl⟩ := Prod.mk.inj (Option.some.inj same)
        exact slash ▸ .escape read (ih found)
      · rename_i unescaped
        simp only [Option.bind_eq_some_iff, Prod.exists] at found
        obtain ⟨s', rest', found, same⟩ := found
        obtain ⟨rfl, rfl⟩ := Prod.mk.inj (Option.some.inj same)
        exact .char printed unquoted unescaped (ih found)

/-- A turn of the loop takes a character at least. -/
theorem StringReads.enough (reads : StringReads input s rest) : Found (parseString · input) input s rest := by
  induction reads with
  | quote => exact .turn (Nat.lt_succ_self _) fun _ _ => rfl
  | escape read _ ih =>
    obtain ⟨shorter, found⟩ := ih
    have step := parseEscape_length read
    refine .turn (by simp only [List.length_cons]; omega) fun fuel enough => ?_
    rw [List.length_cons] at enough
    rw [parseString, if_neg (by decide), if_neg (by decide), if_pos rfl, read]
    simp only [bind, Option.bind_some, found fuel (by omega)]
    rfl
  | char printed unquoted unescaped _ ih =>
    obtain ⟨shorter, found⟩ := ih
    refine .turn (by simp only [List.length_cons]; omega) fun fuel enough => ?_
    rw [List.length_cons] at enough
    rw [parseString, if_neg printed, if_neg unquoted, if_neg unescaped]
    simp only [bind, Option.bind_some, found fuel (by omega)]
    rfl

theorem KeyReads.enough (reads : KeyReads input key rest) : rest.length < input.length ∧
    ∀ fuel, input.length ≤ fuel + rest.length → ∃ quoted behind, expect 0x22 input = some quoted ∧
      parseString fuel quoted = some (key, behind) ∧ expect 0x3A behind = some rest := by
  obtain ⟨quoted, behind, quote, chars, colon⟩ := reads
  obtain ⟨shorter, found⟩ := chars.enough
  have first := expect_length quote
  have last := expect_length colon
  refine ⟨by omega, ?_⟩
  intro fuel enough
  exact ⟨quoted, behind, quote, found fuel (by omega), colon⟩

end

section
variable {depths fuel : Nat} {phrase : Phrase lib} {input rest : Input} {v : Value lib}

theorem value_reads {c : UInt8} {tail : Input} (start : skipWs input = c :: tail)
    (items : ∀ {depths tail}, parseItems fuel depths [] tail = some (v, rest) → Reads depths (.items []) tail v rest)
    (members : ∀ {depths tail}, parseMembers fuel depths [] tail = some (v, rest) →
      Reads depths (.members []) tail v rest)
    (found : parse (fuel + 1) depths input = some (v, rest)) : Reads depths .value input v rest := by
  rw [parse, start] at found
  simp only at found
  split at found
  · rename_i same
    obtain ⟨_, word, same'⟩ := Option.map_eq_some_iff.mp found
    obtain ⟨rfl, rfl⟩ := Prod.mk.inj same'
    exact .null (same ▸ start) word
  split at found
  · rename_i same
    obtain ⟨_, word, same'⟩ := Option.map_eq_some_iff.mp found
    obtain ⟨rfl, rfl⟩ := Prod.mk.inj same'
    exact .no (same ▸ start) word
  split at found
  · rename_i same
    obtain ⟨_, word, same'⟩ := Option.map_eq_some_iff.mp found
    obtain ⟨rfl, rfl⟩ := Prod.mk.inj same'
    exact .yes (same ▸ start) word
  split at found
  · rename_i same
    obtain ⟨⟨s, _⟩, chars, same'⟩ := Option.map_eq_some_iff.mp found
    obtain ⟨rfl, rfl⟩ := Prod.mk.inj same'
    exact .string (same ▸ start) (stringReads_of_parse chars)
  split at found
  · rename_i same
    cases depths with
    | zero => cases found
    | succ depths =>
      rw [if_neg (Nat.succ_ne_zero depths)] at found
      split at found
      · rename_i stop
        obtain ⟨rfl, rfl⟩ := Prod.mk.inj (Option.some.inj found)
        exact .noItems (same ▸ start) stop
      · exact .array (same ▸ start) (items found)
  split at found
  · rename_i same
    cases depths with
    | zero => cases found
    | succ depths =>
      rw [if_neg (Nat.succ_ne_zero depths)] at found
      split at found
      · rename_i stop
        obtain ⟨rfl, rfl⟩ := Prod.mk.inj (Option.some.inj found)
        exact .noMembers (same ▸ start) stop
      · exact .object (same ▸ start) (members found)
  split at found
  · rename_i digit
    obtain ⟨_, value, same⟩ := Option.map_eq_some_iff.mp found
    obtain ⟨rfl, rfl⟩ := Prod.mk.inj same
    exact .number start digit value
  · cases found

/-- By the fuel: each call is made with less of it. -/
theorem reads_of_parse (found : phrase.parse fuel depths input = some (v, rest)) : Reads depths phrase input v rest := by
  induction fuel generalizing depths phrase input v rest with
  | zero => cases phrase <;> cases found
  | succ fuel ih =>
    cases phrase with
    | value =>
      cases start : skipWs input with
      | nil =>
        rw [Phrase.parse, parse, start] at found
        cases found
      | cons c tail =>
        exact value_reads start (fun found => @ih _ (.items []) _ _ _ found)
          (fun found => @ih _ (.members []) _ _ _ found) found
    | items before =>
      simp only [Phrase.parse, parseItems, bind, Option.bind_eq_some_iff, Prod.exists] at found
      obtain ⟨w, mid, first, found⟩ := found
      have head : Reads depths .value input w mid := @ih _ .value _ _ _ first
      split at found
      · rename_i comma
        exact .item head comma (@ih _ (.items _) _ _ _ found)
      · obtain ⟨_, stop, same⟩ := Option.map_eq_some_iff.mp found
        obtain ⟨rfl, rfl⟩ := Prod.mk.inj same
        exact .lastItem head stop
    | members before =>
      simp only [Phrase.parse, parseMembers, bind, Option.bind_eq_some_iff, Prod.exists] at found
      obtain ⟨quoted, quote, key, behind, chars, tail, colon, w, mid, first, found⟩ := found
      have named : KeyReads input key tail := ⟨quoted, behind, quote, stringReads_of_parse chars, colon⟩
      have head : Reads depths .value tail w mid := @ih _ .value _ _ _ first
      split at found
      · rename_i comma
        exact .member named head comma (@ih _ (.members _) _ _ _ found)
      · obtain ⟨_, stop, same⟩ := Option.map_eq_some_iff.mp found
        obtain ⟨rfl, rfl⟩ := Prod.mk.inj same
        exact .lastMember named head stop

end

/-! ### What is derived -/

section
variable {depths : Nat} {phrase : Phrase lib} {input rest : Input} {v : Value lib}

theorem parse_skipWs {tail : Input} {c : UInt8} (start : skipWs input = c :: tail) (fuel depths : Nat) :
    (parse (fuel + 1) depths input : Option (Value lib × Input)) = parse (fuel + 1) depths (c :: tail) := by
  have dark : isSpace c = false := by
    have head := List.head?_dropWhile_not isSpace input
    rw [show input.dropWhile isSpace = c :: tail from start] at head
    simpa using head
  rw [parse, parse, start, skipWs_cons dark]

/-- No value begins with a closing bracket. -/
theorem Reads.items_start {before : List (Value lib)} (reads : Reads depths (.items before) input v rest) :
    expect 0x5D input = none := by
  have value : ∀ {v : Value lib} {rest : Input}, Reads depths .value input v rest → expect 0x5D input = none := by
    intro v rest reads
    rw [expect]
    cases reads with
    | null start | no start | yes start | string start | noItems start | array start | noMembers start | object start =>
      rw [start]
      exact if_neg (by decide)
    | number start digit =>
      rw [start]
      exact if_neg fun same => (number_start digit).2 (by rw [same]; decide)
  cases reads with
  | lastItem head => exact value head
  | item head => exact value head

theorem Reads.members_start {before : List (List UInt8 × Value lib)}
    (reads : Reads depths (.members before) input v rest) : expect 0x7D input = none := by
  cases reads with
  | lastMember named | member named =>
    obtain ⟨quoted, _, quote, _⟩ := named
    exact expect_none quote (by decide)

/-! What follows is found with more fuel than it takes characters, if each of its parts is. -/

theorem found_value {c : UInt8} {tail : Input} (start : skipWs input = c :: tail) (last : rest.length ≤ tail.length)
    (found : ∀ fuel, tail.length < fuel + rest.length → parse (fuel + 1) depths (c :: tail) = some (v, rest)) :
    Found (parse · depths input) input v rest := by
  have first := skipWs_length input
  rw [start, List.length_cons] at first
  refine .turn (by omega) fun fuel enough => ?_
  rw [parse_skipWs start]
  exact found fuel (by omega)

theorem found_word {c : UInt8} {tail : Input} {pattern : List UInt8} (start : skipWs input = c :: tail)
    (word : matchText pattern tail = some rest)
    (branch : ∀ fuel, parse (fuel + 1) depths (c :: tail) = (matchText pattern tail).map (v, ·)) :
    Found (parse · depths input) input v rest := by
  refine found_value start (matchText_length word) fun fuel _ => ?_
  rw [branch, word]
  rfl

theorem found_string {s : List UInt8} {tail : Input} (start : skipWs input = 0x22 :: tail) (chars : StringReads tail s rest) :
    Found (parse · depths input) input (.string s : Value lib) rest := by
  obtain ⟨shorter, found⟩ := chars.enough
  refine found_value start (Nat.le_of_lt shorter) fun fuel enough => ?_
  have read : parseString fuel tail = some (s, rest) := found fuel (by omega)
  rw [parse_string, read]
  rfl

theorem found_number {c : UInt8} {tail : Input} (start : skipWs input = c :: tail)
    (digit : (isDigit c || c == 0x2D) = true) (value : parseNumber ((c :: tail).takeWhile isNumberChar) = some v) :
    Found (parse · depths input) input v ((c :: tail).dropWhile isNumberChar) := by
  have number : isNumberChar c = true := by
    rcases Bool.or_eq_true_iff.mp digit with digit | minus
    · unfold isNumberChar
      rw [digit]
      rfl
    · rw [beq_iff_eq.mp minus]
      rfl
  have last := (List.dropWhile_suffix (l := tail) isNumberChar).length_le
  rw [List.dropWhile_cons_of_pos number]
  refine found_value start last fun fuel _ => ?_
  rw [parse_number digit, value, List.dropWhile_cons_of_pos number]
  rfl

section
variable {tail : Input}

theorem found_array (start : skipWs input = 0x5B :: tail) (open_ : expect 0x5D tail = none)
    (items : Found (parseItems · depths [] tail) tail v rest) : Found (parse · (depths + 1) input) input v rest := by
  refine found_value start (Nat.le_of_lt items.1) fun fuel enough => ?_
  rw [parse_array, if_neg (Nat.succ_ne_zero _), open_]
  exact items.2 fuel (by omega)

theorem found_object (start : skipWs input = 0x7B :: tail) (open_ : expect 0x7D tail = none)
    (members : Found (parseMembers · (depths + 1) [] tail) tail v rest) :
    Found (parse · (depths + 1) input) input v rest := by
  refine found_value start (Nat.le_of_lt members.1) fun fuel enough => ?_
  rw [parse_object, if_neg (Nat.succ_ne_zero _), open_]
  exact members.2 fuel (by omega)

variable {mid more : Input} {w : Value lib} {before : List (Value lib)}

theorem found_lastItem (head : Found (parse · depths input) input v mid) (stop : expect 0x5D mid = some rest) :
    Found (parseItems · depths before input) input (.array (before ++ [v])) rest := by
  have last := expect_length stop
  obtain ⟨shorter, found⟩ := head
  refine .turn (by omega) fun fuel enough => ?_
  have read : parse fuel depths input = some (v, mid) := found fuel (by omega)
  rw [parseItems, read]
  simp only [bind, Option.bind_some, expect_none stop (show (0x5D : UInt8) ≠ 0x2C by decide), stop]
  rfl

theorem found_item (head : Found (parse · depths input) input v mid) (comma : expect 0x2C mid = some more)
    (others : Found (parseItems · depths (before ++ [v]) more) more w rest) :
    Found (parseItems · depths before input) input w rest := by
  have step := expect_length comma
  obtain ⟨shorter, found⟩ := head
  obtain ⟨shorter', found'⟩ := others
  refine .turn (by omega) fun fuel enough => ?_
  have read : parse fuel depths input = some (v, mid) := found fuel (by omega)
  rw [parseItems, read]
  simp only [bind, Option.bind_some, comma]
  exact found' fuel (by omega)

variable {key : List UInt8} {earlier : List (List UInt8 × Value lib)}

theorem found_lastMember (named : KeyReads input key tail) (head : Found (parse · depths tail) tail v mid)
    (stop : expect 0x7D mid = some rest) :
    Found (parseMembers · depths earlier input) input (.object (setMember key v earlier)) rest := by
  have last := expect_length stop
  obtain ⟨shorter, found⟩ := head
  obtain ⟨shorter', named⟩ := named.enough
  refine .turn (by omega) fun fuel enough => ?_
  obtain ⟨quoted, behind, quote, chars, colon⟩ := named fuel (by omega)
  have read : parse fuel depths tail = some (v, mid) := found fuel (by omega)
  rw [parseMembers, quote]
  simp only [bind, Option.bind_some, chars, colon, read, expect_none stop (show (0x7D : UInt8) ≠ 0x2C by decide), stop]
  rfl

theorem found_member (named : KeyReads input key tail) (head : Found (parse · depths tail) tail v mid)
    (comma : expect 0x2C mid = some more)
    (others : Found (parseMembers · depths (setMember key v earlier) more) more w rest) :
    Found (parseMembers · depths earlier input) input w rest := by
  have step := expect_length comma
  obtain ⟨shorter, found⟩ := head
  obtain ⟨shorter', found'⟩ := others
  obtain ⟨shorter'', named⟩ := named.enough
  refine .turn (by omega) fun fuel enough => ?_
  obtain ⟨quoted, behind, quote, chars, colon⟩ := named fuel (by omega)
  have read : parse fuel depths tail = some (v, mid) := found fuel (by omega)
  rw [parseMembers, quote]
  simp only [bind, Option.bind_some, chars, colon, read, comma]
  exact found' fuel (by omega)

end

/-- By the derivation: one lemma for each of its rules. -/
theorem Reads.enough (reads : Reads depths phrase input v rest) :
    Found (fun fuel => phrase.parse fuel depths input) input v rest := by
  induction reads with
  | null start word => exact found_word start word fun _ => parse_null
  | no start word => exact found_word start word fun _ => parse_false
  | yes start word => exact found_word start word fun _ => parse_true
  | string start chars => exact found_string start chars
  | number start digit value => exact found_number start digit value
  | noItems start stop =>
    refine found_value start (Nat.le_of_lt (expect_length stop)) fun fuel _ => ?_
    rw [parse_array, if_neg (Nat.succ_ne_zero _), stop]
  | array start reads ih => exact found_array start reads.items_start ih
  | noMembers start stop =>
    refine found_value start (Nat.le_of_lt (expect_length stop)) fun fuel _ => ?_
    rw [parse_object, if_neg (Nat.succ_ne_zero _), stop]
  | object start reads ih => exact found_object start reads.members_start ih
  | lastItem _ stop ih => exact found_lastItem ih stop
  | item _ comma _ ih ih' => exact found_item ih comma ih'
  | lastMember named _ stop ih => exact found_lastMember named ih stop
  | member named _ comma _ ih ih' => exact found_member named ih comma ih'

end

/-! ### What is well formed -/

section
variable {double : lib.Double → Prop} {items : List (Value lib)} {members : List (List UInt8 × Value lib)}
  {key : List UInt8} {v : Value lib}

theorem itemsFormed_iff : ItemsFormed double items ↔ ∀ v ∈ items, v.Formed double := by
  induction items with
  | nil => exact iff_of_true trivial nofun
  | cons v items ih => rw [List.forall_mem_cons, ItemsFormed, ih]

theorem membersFormed_iff : MembersFormed double members ↔ ∀ m ∈ members, m.2.Formed double := by
  induction members with
  | nil => exact iff_of_true trivial nofun
  | cons m members ih => rw [List.forall_mem_cons, MembersFormed, ih]

theorem itemsDepth_le {n : Nat} : itemsDepth items ≤ n ↔ ∀ v ∈ items, v.depth ≤ n := by
  induction items with
  | nil => exact iff_of_true (Nat.zero_le n) nofun
  | cons v items ih => rw [List.forall_mem_cons, itemsDepth, Nat.max_le, ih]

theorem membersDepth_le {n : Nat} : membersDepth members ≤ n ↔ ∀ m ∈ members, m.2.depth ≤ n := by
  induction members with
  | nil => exact iff_of_true (Nat.zero_le n) nofun
  | cons m members ih => rw [List.forall_mem_cons, membersDepth, Nat.max_le, ih]

theorem mem_setMember {m : List UInt8 × Value lib} (member : m ∈ setMember key v members) :
    m = (key, v) ∨ m ∈ members := by
  induction members with
  | nil => exact .inl (List.mem_singleton.mp member)
  | cons m' members ih =>
    simp only [setMember] at member
    split at member
    · exact List.mem_cons.mp member
    split at member
    · exact (List.mem_cons.mp member).imp_right (List.mem_cons_of_mem _)
    · rcases List.mem_cons.mp member with rfl | member
      · exact .inr List.mem_cons_self
      · exact (ih member).imp_right (List.mem_cons_of_mem _)

/-- The map stays in the order of its keys. -/
theorem setMember_sorted (sorted : (members.map (·.1)).Pairwise (· < ·)) :
    ((setMember key v members).map (·.1)).Pairwise (· < ·) := by
  induction members with
  | nil => exact List.pairwise_singleton ..
  | cons m members ih =>
    rw [List.map_cons, List.pairwise_cons] at sorted
    obtain ⟨least, rest⟩ := sorted
    simp only [setMember]
    split
    · rename_i before
      refine List.pairwise_cons.mpr ⟨?_, List.pairwise_cons.mpr ⟨least, rest⟩⟩
      intro k member
      rcases List.mem_cons.mp member with rfl | member
      · exact before
      · exact List.lt_trans before (least k member)
    split
    · rename_i same
      exact List.pairwise_cons.mpr ⟨same ▸ least, rest⟩
    · rename_i after other
      have behind : m.1 < key := by
        rcases List.le_iff_lt_or_eq.mp (List.not_lt.mp after) with less | same
        · exact less
        · exact absurd same.symm other
      refine List.pairwise_cons.mpr ⟨?_, ih rest⟩
      intro k member
      obtain ⟨m', stored, rfl⟩ := List.mem_map.mp member
      rcases mem_setMember stored with rfl | stored
      · exact behind
      · exact least _ (List.mem_map_of_mem stored)

/-- What a loop has read so far. -/
def Phrase.Formed (double : lib.Double → Prop) (depths : Nat) : Phrase lib → Prop
  | .value => True
  | .items before => ∀ v ∈ before, v.Formed double ∧ v.depth ≤ depths
  | .members before => 1 ≤ depths ∧ (before.map (·.1)).Pairwise (· < ·) ∧
    ∀ m ∈ before, m.2.Formed double ∧ m.2.depth ≤ depths

/-- The levels of what a phrase leads to. The loop over items runs one level below its array. -/
def Phrase.levels : Phrase lib → Nat → Nat
  | .items _, depths => depths + 1
  | _, depths => depths

theorem parseNumber_formed {text : List UInt8} (found : parseNumber text = some v) :
    v.Formed (fun f => ∃ numStr, lib.strtod numStr = some f) ∧ v.depth = 0 := by
  unfold parseNumber at found
  split at found
  · rename_i n read
    obtain rfl := Option.some.inj found
    refine ⟨?_, rfl⟩
    simp only [strtoimax] at read
    split at read
    · cases read
    · obtain ⟨range, same⟩ := Option.ite_none_right_eq_some.mp read
      exact Option.some.inj same ▸ range
  · obtain ⟨f, read, rfl⟩ := Option.map_eq_some_iff.mp found
    exact ⟨⟨text, read⟩, rfl⟩

end

/-- What is derived keeps the ranges of its integers, the order of its keys and the limit on its arrays. -/
theorem Reads.formed {depths : Nat} {phrase : Phrase lib} {input rest : Input} {v : Value lib}
    (reads : Reads depths phrase input v rest)
    (before : phrase.Formed (fun f => ∃ numStr, lib.strtod numStr = some f) depths) :
    v.Formed (fun f => ∃ numStr, lib.strtod numStr = some f) ∧ v.depth ≤ phrase.levels depths := by
  induction reads with
  | null | no | yes | string => exact ⟨trivial, Nat.zero_le _⟩
  | number _ _ value =>
    obtain ⟨formed, flat⟩ := parseNumber_formed value
    exact ⟨formed, flat ▸ Nat.zero_le _⟩
  | noItems => exact ⟨trivial, Nat.succ_le_succ (Nat.zero_le _)⟩
  | array _ _ ih => exact ih nofun
  | noMembers => exact ⟨⟨List.Pairwise.nil, trivial⟩, Nat.succ_le_succ (Nat.zero_le _)⟩
  | object _ _ ih => exact ih ⟨Nat.succ_le_succ (Nat.zero_le _), List.Pairwise.nil, nofun⟩
  | lastItem _ _ ih =>
    have all := List.forall_mem_append.mpr ⟨before, List.forall_mem_singleton.mpr (ih trivial)⟩
    refine ⟨itemsFormed_iff.mpr fun w member => (all w member).1, ?_⟩
    exact Nat.succ_le_succ (itemsDepth_le.mpr fun w member => (all w member).2)
  | item _ _ _ ih ih' =>
    exact ih' (List.forall_mem_append.mpr ⟨before, List.forall_mem_singleton.mpr (ih trivial)⟩)
  | lastMember _ _ _ ih =>
    obtain ⟨level, sorted, formed⟩ := before
    obtain ⟨head, shallow⟩ := ih trivial
    refine ⟨⟨setMember_sorted sorted, membersFormed_iff.mpr fun m member => ?_⟩,
      Nat.max_le.mpr ⟨level, membersDepth_le.mpr fun m member => ?_⟩⟩
    · rcases mem_setMember member with rfl | member
      · exact head
      · exact (formed m member).1
    · rcases mem_setMember member with rfl | member
      · exact shallow
      · exact (formed m member).2
  | member _ _ _ _ ih ih' =>
    obtain ⟨level, sorted, formed⟩ := before
    refine ih' ⟨level, setMember_sorted sorted, fun m member => ?_⟩
    rcases mem_setMember member with rfl | member
    · exact ih trivial
    · exact formed m member

/-- The entry point finds what some derivation leads to. -/
theorem parseText_iff {text : List UInt8} {v : Value lib} :
    parseText text = some v ↔ ∃ rest, Reads defaultMaxDepths .value text v rest := by
  unfold parseText
  rw [Option.map_eq_some_iff]
  constructor
  · rintro ⟨⟨v, rest⟩, found, rfl⟩
    have read : Phrase.value.parse (text.length + 1) defaultMaxDepths text = some (v, rest) := found
    exact ⟨rest, reads_of_parse read⟩
  · rintro ⟨rest, reads⟩
    have read : Phrase.value.parse (text.length + 1) defaultMaxDepths text = some (v, rest) :=
      reads.enough.2 (text.length + 1) (by omega)
    exact ⟨(v, rest), read, rfl⟩

end RealWorld.Picojson
