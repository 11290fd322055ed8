import Mathlib.Computability.Language
import RealWorld.Text.Separator

/-!
# Regular expressions

Expressions over character classes, full matching by derivatives, and the language that it decides.
-/

namespace Text

inductive Regex (α : Type) where
  | never
  | empty
  | chars (p : α → Bool)
  | alt (r r' : Regex α)
  | seq (r r' : Regex α)
  | star (r : Regex α)

namespace Regex
open scoped Computability
variable {α : Type}

def plus (r : Regex α) : Regex α := seq r (star r)

def opt (r : Regex α) : Regex α := alt r empty

def nullable : Regex α → Bool
  | never => false
  | empty => true
  | chars _ => false
  | alt r r' => r.nullable || r'.nullable
  | seq r r' => r.nullable && r'.nullable
  | star _ => true

/-- What must still match after the character `c`. -/
def deriv (c : α) : Regex α → Regex α
  | never => never
  | empty => never
  | chars p => if p c then empty else never
  | alt r r' => alt (r.deriv c) (r'.deriv c)
  | seq r r' =>
      if r.nullable then alt (seq (r.deriv c) r') (r'.deriv c) else seq (r.deriv c) r'
  | star r => seq (r.deriv c) (star r)

def accepts (r : Regex α) : List α → Bool
  | [] => r.nullable
  | c :: cs => (r.deriv c).accepts cs

/-! ### The language of an expression -/

/-- The texts that an expression describes. -/
def language : Regex α → Language α
  | never => 0
  | empty => 1
  | chars p => {cs | ∃ c, p c = true ∧ cs = [c]}
  | alt r r' => r.language + r'.language
  | seq r r' => r.language * r'.language
  | star r => r.language∗

variable {p : α → Bool} {r r' : Regex α} {c : α} {cs : List α} {L M : Language α}

theorem mem_chars : cs ∈ (chars p).language ↔ ∃ c, p c = true ∧ cs = [c] := Iff.rfl

theorem mem_alt : cs ∈ (alt r r').language ↔ cs ∈ r.language ∨ cs ∈ r'.language := Iff.rfl

theorem mem_seq : cs ∈ (seq r r').language ↔ ∃ front ∈ r.language, ∃ back ∈ r'.language, front ++ back = cs := Iff.rfl

theorem mem_opt : cs ∈ (opt r).language ↔ cs ∈ r.language ∨ cs = [] := Iff.rfl

theorem nullable_iff : r.nullable = true ↔ [] ∈ r.language := by
  induction r with
  | never => exact iff_of_false nofun (Language.notMem_zero [])
  | empty => exact iff_of_true rfl Language.nil_mem_one
  | chars q =>
    refine iff_of_false nofun ?_
    rintro ⟨_, _, ⟨⟩⟩
  | alt r r' ih ih' => rw [nullable, Bool.or_eq_true, ih, ih', mem_alt]
  | seq r r' ih ih' =>
    rw [nullable, Bool.and_eq_true, ih, ih', mem_seq]
    constructor
    · exact fun both => ⟨[], both.1, [], both.2, rfl⟩
    · rintro ⟨front, first, back, second, joined⟩
      obtain ⟨rfl, rfl⟩ := List.append_eq_nil_iff.mp joined
      exact ⟨first, second⟩
  | star r _ => exact iff_of_true rfl (Language.nil_mem_kstar _)

/-- The first character of a product belongs to its first factor, unless that is the empty text. -/
theorem cons_mem_mul : c :: cs ∈ L * M ↔
    (∃ front, c :: front ∈ L ∧ ∃ back ∈ M, front ++ back = cs) ∨ [] ∈ L ∧ c :: cs ∈ M := by
  rw [Language.mem_mul]
  constructor
  · rintro ⟨_ | ⟨d, front⟩, first, back, second, joined⟩
    · rw [List.nil_append] at joined
      exact .inr ⟨first, joined ▸ second⟩
    · obtain ⟨rfl, rest⟩ := List.cons.inj joined
      exact .inl ⟨front, first, back, second, rest⟩
  · rintro (⟨front, first, back, second, rfl⟩ | ⟨first, second⟩)
    · exact ⟨c :: front, first, back, second, rfl⟩
    · exact ⟨[], first, c :: cs, second, rfl⟩

theorem cons_mem_kstar : c :: cs ∈ L∗ ↔ ∃ front, c :: front ∈ L ∧ ∃ back ∈ L∗, front ++ back = cs := by
  constructor
  · intro member
    obtain ⟨parts, joined, each⟩ := Language.mem_kstar_iff_exists_nonempty.mp member
    cases parts with
    | nil => cases joined
    | cons part parts =>
      obtain ⟨⟨first, filled⟩, others⟩ := List.forall_mem_cons.mp each
      cases part with
      | nil => exact absurd rfl filled
      | cons d front =>
        obtain ⟨rfl, rest⟩ := List.cons.inj joined
        exact ⟨front, first, parts.flatten, Language.join_mem_kstar fun part mem => (others part mem).1, rest.symm⟩
  · rintro ⟨front, first, back, ⟨parts, rfl, each⟩, rfl⟩
    exact ⟨(c :: front) :: parts, rfl, List.forall_mem_cons.mpr ⟨first, each⟩⟩

theorem mem_deriv : cs ∈ (r.deriv c).language ↔ c :: cs ∈ r.language := by
  induction r generalizing cs with
  | never => exact Iff.rfl
  | empty => exact iff_of_false (Language.notMem_zero cs) nofun
  | chars q =>
    rw [deriv, mem_chars]
    split
    · rename_i here
      constructor
      · rintro rfl
        exact ⟨c, here, rfl⟩
      · rintro ⟨_, _, same⟩
        exact (List.cons.inj same).2
    · rename_i here
      refine iff_of_false (Language.notMem_zero cs) ?_
      rintro ⟨d, there, same⟩
      exact here ((List.cons.inj same).1 ▸ there)
  | alt r r' ih ih' => rw [deriv, mem_alt, mem_alt, ih, ih']
  | seq r r' ih ih' =>
    have product : cs ∈ (seq (r.deriv c) r').language ↔
        ∃ front, c :: front ∈ r.language ∧ ∃ back ∈ r'.language, front ++ back = cs := by
      simp only [mem_seq, ih]
    rw [deriv, language, cons_mem_mul, ← nullable_iff]
    split
    · rename_i nullable
      rw [mem_alt, product, ih', nullable]
      simp only [true_and]
    · rename_i notNullable
      rw [product]
      exact (or_iff_left fun both => notNullable both.1).symm
  | star r ih =>
    rw [deriv, mem_seq, language, cons_mem_kstar]
    simp only [ih]

theorem accepts_iff : r.accepts cs = true ↔ cs ∈ r.language := by
  induction cs generalizing r with
  | nil => exact nullable_iff
  | cons c cs ih => rw [accepts, ih, mem_deriv]

theorem mem_plus : cs ∈ (plus r).language ↔
    ∃ parts, parts ≠ [] ∧ cs = parts.flatten ∧ ∀ part ∈ parts, part ∈ r.language := by
  constructor
  · rintro ⟨front, first, _, ⟨parts, rfl, each⟩, rfl⟩
    exact ⟨front :: parts, List.cons_ne_nil _ _, rfl, List.forall_mem_cons.mpr ⟨first, each⟩⟩
  · rintro ⟨parts, filled, rfl, each⟩
    cases parts with
    | nil => exact absurd rfl filled
    | cons part parts =>
      obtain ⟨first, others⟩ := List.forall_mem_cons.mp each
      exact ⟨part, first, parts.flatten, Language.join_mem_kstar others, rfl⟩

theorem mem_star_chars : cs ∈ (star (chars p)).language ↔ ∀ c ∈ cs, p c = true := by
  constructor
  · rintro ⟨parts, rfl, each⟩ c member
    obtain ⟨part, mem, here⟩ := List.mem_flatten.mp member
    obtain ⟨d, accepted, rfl⟩ := each part mem
    rwa [List.mem_singleton.mp here]
  · intro each
    induction cs with
    | nil => exact Language.nil_mem_kstar _
    | cons c cs ih =>
      obtain ⟨first, others⟩ := List.forall_mem_cons.mp each
      exact cons_mem_kstar.mpr ⟨[], ⟨c, first, rfl⟩, cs, ih others, rfl⟩

theorem mem_plus_chars : cs ∈ (plus (chars p)).language ↔ cs ≠ [] ∧ ∀ c ∈ cs, p c = true := by
  cases cs with
  | nil =>
    refine iff_of_false ?_ fun both => both.1 rfl
    rintro ⟨front, ⟨_, _, rfl⟩, _, _, ⟨⟩⟩
  | cons c cs =>
    rw [plus, mem_seq]
    constructor
    · rintro ⟨_, ⟨d, first, rfl⟩, back, second, joined⟩
      obtain ⟨rfl, rfl⟩ := List.cons.inj joined
      exact ⟨List.cons_ne_nil _ _, List.forall_mem_cons.mpr ⟨first, mem_star_chars.mp second⟩⟩
    · rintro ⟨_, each⟩
      obtain ⟨first, others⟩ := List.forall_mem_cons.mp each
      exact ⟨[c], ⟨c, first, rfl⟩, cs, mem_star_chars.mpr others, rfl⟩

/-! ### Parts led by a separator -/

section
variable [DecidableEq α] {sep : α}

theorem mem_led : cs ∈ (seq (chars (· == sep)) r).language ↔ ∃ part ∈ r.language, cs = sep :: part := by
  rw [mem_seq]
  constructor
  · rintro ⟨_, ⟨d, same, rfl⟩, part, member, rfl⟩
    exact ⟨part, member, by rw [beq_iff_eq.mp same]; rfl⟩
  · rintro ⟨part, member, rfl⟩
    exact ⟨[sep], ⟨sep, beq_self_eq_true sep, rfl⟩, part, member, rfl⟩

theorem mem_plus_led : cs ∈ (plus (seq (chars (· == sep)) r)).language ↔
    ∃ parts, parts ≠ [] ∧ cs = parts.flatMap (sep :: ·) ∧ ∀ part ∈ parts, part ∈ r.language := by
  rw [mem_plus]
  constructor
  · rintro ⟨leds, filled, rfl, each⟩
    have led : ∀ l ∈ leds, l.tail ∈ r.language ∧ sep :: l.tail = l := by
      intro l member
      obtain ⟨part, described, rfl⟩ := mem_led.mp (each l member)
      exact ⟨described, rfl⟩
    refine ⟨leds.map List.tail, fun none => filled (List.map_eq_nil_iff.mp none), ?_, ?_⟩
    · rw [List.flatMap_map, List.flatMap_def, List.map_congr_left fun l member => (led l member).2, List.map_id']
    · exact List.forall_mem_map.mpr fun l member => (led l member).1
  · rintro ⟨parts, filled, rfl, each⟩
    refine ⟨parts.map (sep :: ·), fun none => filled (List.map_eq_nil_iff.mp none), List.flatMap_def, ?_⟩
    exact List.forall_mem_map.mpr fun part member => mem_led.mpr ⟨part, each part member, rfl⟩

/-- Words joined by separators are what splitting finds, two words or more. -/
theorem mem_separated (apart : p sep = false) :
    cs ∈ (seq (plus (chars p)) (plus (seq (chars (· == sep)) (plus (chars p))))).language ↔
      2 ≤ (split sep cs).length ∧ ∀ part ∈ split sep cs, part ≠ [] ∧ ∀ c ∈ part, p c = true := by
  have free : ∀ {part}, (part ≠ [] ∧ ∀ c ∈ part, p c = true) → sep ∉ part := by
    intro part good member
    have accepted := good.2 sep member
    rw [apart] at accepted
    cases accepted
  simp only [mem_seq, mem_plus_led, mem_plus_chars]
  constructor
  · rintro ⟨first, good, _, ⟨parts, filled, rfl, each⟩, rfl⟩
    rw [split_join (free good) fun part member => free (each part member)]
    refine ⟨?_, List.forall_mem_cons.mpr ⟨good, each⟩⟩
    have some := List.length_pos_iff.mpr filled
    rw [List.length_cons]
    omega
  · obtain ⟨first, parts, parted, joined⟩ := split_parts sep cs
    rw [parted]
    rintro ⟨two, good⟩
    obtain ⟨here, others⟩ := List.forall_mem_cons.mp good
    refine ⟨first, here, _, ⟨parts, ?_, rfl, others⟩, joined.symm⟩
    rintro rfl
    exact Nat.not_succ_le_self 1 two

end

/-! ### The characters of an accepted text -/

/-- The classes of `r` contain only characters satisfying `p`. -/
def Over (p : α → Prop) : Regex α → Prop
  | never | empty => True
  | chars q => ∀ c, q c = true → p c
  | alt r r' | seq r r' => r.Over p ∧ r'.Over p
  | star r => r.Over p

theorem Over.accepts {q : α → Prop} (covered : r.Over q) (accepted : r.accepts cs = true) : ∀ c ∈ cs, q c := by
  rw [accepts_iff] at accepted
  induction r generalizing cs with
  | never => exact absurd accepted (Language.notMem_zero cs)
  | empty =>
    obtain rfl := (Language.mem_one cs).mp accepted
    nofun
  | chars p =>
    obtain ⟨c, here, rfl⟩ := accepted
    exact List.forall_mem_singleton.mpr (covered c here)
  | alt r r' ih ih' => exact accepted.elim (ih covered.1) (ih' covered.2)
  | seq r r' ih ih' =>
    obtain ⟨front, first, back, second, rfl⟩ := accepted
    exact List.forall_mem_append.mpr ⟨ih covered.1 first, ih' covered.2 second⟩
  | star r ih =>
    obtain ⟨parts, rfl, each⟩ := accepted
    intro c member
    obtain ⟨part, mem, here⟩ := List.mem_flatten.mp member
    exact ih covered (each part mem) c here

end Regex

end Text
