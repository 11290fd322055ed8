import RealWorld.Common.Utils

/-!
# Which addresses `ValidateEmail` accepts

The underscore is a separator of the pattern and a character of words, so only a point separates anything in the part
before the `@`.
-/

namespace RealWorld
open Text

/-- `ValidateEmail` accepts the address. An empty one does not match the pattern. -/
def EmailValid (email : String) : Prop := emailPattern.accepts (utf8 email) = true

/-! ### The grammar -/

def point : UInt8 := '.'.toUInt8

def atSign : UInt8 := '@'.toUInt8

/-- A word character, and after it word characters with at most one point anywhere. -/
def LocalPart : List UInt8 → Prop
  | [] => False
  | b :: bs => isWordByte b = true ∧ (∀ c ∈ bs, isWordByte c = true ∨ c = point) ∧ bs.count point ≤ 1

/-- Two words or more with points between them. -/
def DomainPart (bytes : List UInt8) : Prop :=
  2 ≤ (split point bytes).length ∧ ∀ part ∈ split point bytes, part ≠ [] ∧ ∀ b ∈ part, isWordByte b = true

/-- One `@`, with a local part before it and a domain after it. -/
def EmailGrammar (bytes : List UInt8) : Prop :=
  bytes.count atSign = 1 ∧ LocalPart (bytes.takeWhile (· ≠ atSign)) ∧ DomainPart (bytes.dropWhile (· ≠ atSign)).tail

instance : DecidablePred LocalPart
  | [] => instDecidableFalse
  | b :: bs => inferInstanceAs (Decidable (isWordByte b = true ∧ (∀ c ∈ bs, isWordByte c = true ∨ c = point) ∧ _))

instance : DecidablePred DomainPart := fun bytes => inferInstanceAs (Decidable (2 ≤ (split point bytes).length ∧
  ∀ part ∈ split point bytes, part ≠ [] ∧ ∀ b ∈ part, isWordByte b = true))

instance : DecidablePred EmailGrammar := fun bytes => inferInstanceAs (Decidable (bytes.count atSign = 1 ∧
  LocalPart (bytes.takeWhile (· ≠ atSign)) ∧ DomainPart (bytes.dropWhile (· ≠ atSign)).tail))

section
variable {bytes front back : List UInt8}

/-- What stands before the `@` in the pattern: `(\w+)(\.|_)?(\w*)`. -/
def localPattern : Regex UInt8 :=
  .seq (.plus (.chars isWordByte)) (.seq (.opt (.alt (.chars (· == point)) (.chars (· == '_'.toUInt8))))
    (.star (.chars isWordByte)))

/-- What stands after it: `(\w+)(\.(\w+))+`. -/
def domainPattern : Regex UInt8 :=
  .seq (.plus (.chars isWordByte)) (.plus (.seq (.chars (· == point)) (.plus (.chars isWordByte))))

theorem mem_emailPattern : bytes ∈ emailPattern.language ↔
    ∃ front ∈ localPattern.language, ∃ back ∈ domainPattern.language, bytes = front ++ atSign :: back := by
  have grouped : emailPattern.language =
      localPattern.language * (Regex.seq (.chars (· == atSign)) domainPattern).language := by
    simp only [emailPattern, localPattern, domainPattern, Regex.language, mul_assoc]
    rfl
  rw [grouped, Language.mem_mul]
  constructor
  · rintro ⟨front, before, _, after, rfl⟩
    obtain ⟨back, member, rfl⟩ := Regex.mem_led.mp after
    exact ⟨front, before, back, member, rfl⟩
  · rintro ⟨front, before, back, after, rfl⟩
    exact ⟨front, before, _, Regex.mem_led.mpr ⟨back, after, rfl⟩, rfl⟩

theorem mem_localPattern : front ∈ localPattern.language ↔ LocalPart front := by
  have free : ∀ {bs : List UInt8}, (∀ b ∈ bs, isWordByte b = true) → point ∉ bs := by
    intro bs each member
    exact absurd (each point member) (by decide)
  have word : ∀ {b}, isWordByte b = true ∨ b = point → b ≠ point → isWordByte b = true :=
    fun either other => either.resolve_right other
  simp only [localPattern, Regex.mem_seq, Regex.mem_opt, Regex.mem_alt, Regex.mem_plus_chars, Regex.mem_star_chars]
  constructor
  · rintro ⟨first, ⟨filled, words⟩, _, ⟨middle, separated, last, words', rfl⟩, rfl⟩
    have between : (∀ c ∈ middle, isWordByte c = true ∨ c = point) ∧ middle.count point ≤ 1 := by
      rcases separated with (⟨c, same, rfl⟩ | ⟨c, same, rfl⟩) | rfl
      · obtain rfl := beq_iff_eq.mp same
        decide +kernel
      · obtain rfl := beq_iff_eq.mp same
        decide +kernel
      · decide +kernel
    cases first with
    | nil => exact absurd rfl filled
    | cons b bs =>
      obtain ⟨here, others⟩ := List.forall_mem_cons.mp words
      rw [List.cons_append]
      refine ⟨here, ?_, ?_⟩
      · rw [List.forall_mem_append, List.forall_mem_append]
        exact ⟨fun c member => .inl (others c member), between.1, fun c member => .inl (words' c member)⟩
      · rw [List.count_append, List.count_append, List.count_eq_zero.mpr (free others),
          List.count_eq_zero.mpr (free words')]
        omega
  · cases front with
    | nil => exact False.elim
    | cons b bs =>
      rintro ⟨here, each, once⟩
      by_cases member : point ∈ bs
      · obtain ⟨before, after, rfl, free⟩ := List.eq_append_cons_of_mem member
        obtain ⟨words, words'⟩ := List.forall_mem_append.mp each
        have free' : point ∉ after := by
          rw [List.count_append, List.count_cons_self] at once
          exact List.count_eq_zero.mp (by omega)
        have first : ∀ c ∈ b :: before, isWordByte c = true :=
          List.forall_mem_cons.mpr ⟨here, fun c mem => word (words c mem) fun same => free (same ▸ mem)⟩
        have last : ∀ c ∈ after, isWordByte c = true := fun c mem =>
          word (words' c (List.mem_cons_of_mem _ mem)) fun same => free' (same ▸ mem)
        exact ⟨b :: before, ⟨List.cons_ne_nil _ _, first⟩, point :: after,
          ⟨[point], .inl (.inl ⟨point, by decide, rfl⟩), after, last, rfl⟩, rfl⟩
      · have words : ∀ c ∈ b :: bs, isWordByte c = true :=
          List.forall_mem_cons.mpr ⟨here, fun c mem => word (each c mem) fun same => member (same ▸ mem)⟩
        exact ⟨b :: bs, ⟨List.cons_ne_nil _ _, words⟩, [], ⟨[], .inr rfl, [], nofun, rfl⟩, List.append_nil _⟩

theorem mem_domainPattern : back ∈ domainPattern.language ↔ DomainPart back := Regex.mem_separated (by decide)

/-- Neither part has room for an `@`. -/
theorem LocalPart.free (part : LocalPart front) : atSign ∉ front := by
  cases front with
  | nil => exact part.elim
  | cons b bs =>
    obtain ⟨here, each, _⟩ := part
    intro member
    rcases List.mem_cons.mp member with rfl | member
    · exact absurd here (by decide)
    · exact absurd (each atSign member) (by decide)

theorem DomainPart.free (part : DomainPart back) : atSign ∉ back := by
  obtain ⟨first, parts, parted, joined⟩ := split_parts point back
  obtain ⟨_, each⟩ := part
  rw [parted] at each
  obtain ⟨⟨_, here⟩, others⟩ := List.forall_mem_cons.mp each
  rw [joined, List.mem_append, List.mem_flatMap]
  rintro (member | ⟨q, stored, member⟩)
  · exact absurd (here atSign member) (by decide)
  · rcases List.mem_cons.mp member with same | member
    · exact absurd same (by decide)
    · exact absurd ((others q stored).2 atSign member) (by decide)

theorem emailPattern_iff : emailPattern.accepts bytes = true ↔ EmailGrammar bytes := by
  have parts : ∀ {front back : List UInt8}, atSign ∉ front →
      (front ++ atSign :: back).takeWhile (· ≠ atSign) = front ∧
        ((front ++ atSign :: back).dropWhile (· ≠ atSign)).tail = back := by
    intro front back free
    have cut := @span_split _ _ atSign front back free
    rw [List.span_eq_takeWhile_dropWhile] at cut
    obtain ⟨before, after⟩ := Prod.mk.inj cut
    exact ⟨before, by rw [after, List.tail_cons]⟩
  rw [Regex.accepts_iff, mem_emailPattern]
  simp only [mem_localPattern, mem_domainPattern]
  constructor
  · rintro ⟨front, before, back, after, rfl⟩
    obtain ⟨taken, dropped⟩ := @parts front back before.free
    unfold EmailGrammar
    rw [taken, dropped, List.count_append, List.count_cons_self, List.count_eq_zero.mpr before.free,
      List.count_eq_zero.mpr after.free]
    exact ⟨rfl, before, after⟩
  · rintro ⟨once, before, after⟩
    have member : atSign ∈ bytes := List.count_pos_iff.mp (by omega)
    obtain ⟨front, back, rfl, free⟩ := List.eq_append_cons_of_mem member
    obtain ⟨taken, dropped⟩ := @parts front back free
    rw [taken] at before
    rw [dropped] at after
    exact ⟨front, before, back, after, rfl⟩

end

/-! ### The validator -/

section
variable {name email : String}

/-- `ValidateEmail` of a text. -/
def validateText (name email : String) : Except Exn String := do
  if email.isEmpty then throw (.validation name "cannot be empty")
  if emailPattern.accepts (utf8 email) then return email
  throw (.validation name "invalid")

theorem validateText_of (valid : EmailValid email) : validateText name email = .ok email := by
  have filled : email.isEmpty = false := by
    by_contra empty
    rw [Bool.not_eq_false, String.isEmpty_iff] at empty
    have none : emailPattern.accepts (utf8 "") = false := by decide
    rw [EmailValid, empty, none] at valid
    cases valid
  unfold EmailValid at valid
  unfold validateText
  rw [filled, valid]
  rfl

theorem validateText_refused (invalid : ¬ EmailValid email) :
    ∃ field msg, validateText name email = .error (.validation field msg) := by
  unfold EmailValid at invalid
  unfold validateText
  cases email.isEmpty with
  | true => exact ⟨_, _, rfl⟩
  | false =>
    rw [if_neg invalid]
    exact ⟨_, _, rfl⟩

theorem validateEmail_text {lib : JsonLib} {data : Value} (present : data.hasMember lib name = .ok true)
    (member : data.member name = .ok (some (.str email))) : validateEmail lib data name = validateText name email := by
  unfold validateEmail
  rw [present, member]
  rfl

end

/-- An address passes the two tests of `ValidateEmail`, and is returned by it, exactly if the grammar has it. -/
theorem validateEmail_grammar :
    (∀ bytes : List UInt8, bytes ≠ [] ∧ emailPattern.accepts bytes = true ↔ EmailGrammar bytes) ∧
    ∀ (lib : JsonLib) (data : Value) (name email : String), data.hasMember lib name = .ok true →
      data.member name = .ok (some (.str email)) →
      (EmailGrammar (utf8 email) → validateEmail lib data name = .ok email) ∧
      (¬ EmailGrammar (utf8 email) → ∃ field msg, validateEmail lib data name = .error (.validation field msg)) := by
  constructor
  · intro bytes
    rw [emailPattern_iff]
    refine and_iff_right_of_imp ?_
    rintro grammar rfl
    exact absurd grammar (by decide)
  · intro lib data name email present member
    rw [validateEmail_text present member, ← emailPattern_iff]
    exact ⟨validateText_of, validateText_refused⟩

/-- An underscore may stand anywhere, a point once. -/
theorem validateEmail_grammar_sample :
    let data : Value := some (.obj [("email", .str "_a_b.c@mail.io")])
    validateEmail { hasMemberOfMissing := .ok false, timePoint := fun _ => "" } data "email" = .ok "_a_b.c@mail.io" :=
  (validateEmail_grammar.2 _ _ _ _ (by decide) rfl).1 (by decide +kernel)

end RealWorld
