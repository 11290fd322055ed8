import RealWorld.Common.Utils
import RealWorld.Text.Runs

/-!
# Slugs of ASCII titles

On ASCII the transforms that the rules of `Slugify` name are known. The rule that deletes blanks reads its own output;
what it leaves is the text with each run of blanks made one.
-/

namespace RealWorld
open Text

/-- `[:Punctuation:]` on ASCII. -/
def asciiPunctuation (c : Char) : Bool :=
  ['!', '"', '#', '%', '&', '\x27', '(', ')', '*', ',', '-', '.', '/', ':', ';', '?', '@', '[', '\\', ']', '_',
    '\x7b', '\x7d'].contains c

/-- `[:Symbol:]` on ASCII. -/
def asciiSymbol (c : Char) : Bool := ['$', '+', '<', '=', '>', '^', '\x60', '|', '~'].contains c

def isAscii (c : Char) : Bool := decide (c.toNat < 128)

/-- The rules compile, and on ASCII ICU does what its documentation says. -/
structure Icu.Ascii (icu : Icu) : Prop where
  compiles : icu.createFromRules = true
  anyLatin : ∀ text, text.all isAscii → icu.anyLatin text = text
  nonspacingMark : ∀ c, isAscii c → icu.nonspacingMark c = false
  punctuation : ∀ c, isAscii c → icu.punctuation c = asciiPunctuation c
  symbol : ∀ c, isAscii c → icu.symbol c = asciiSymbol c
  latinAscii : ∀ text, text.all isAscii → icu.latinAscii text = text
  lower : ∀ text, text.all isAscii → icu.lower text = text.map Char.toLower
  separator : ∀ c, isAscii c → icu.separator c = (c == ' ')

theorem isAscii_forall {P : Char → Prop} (all : ∀ n < 128, P (Char.ofNat n)) {c : Char} (ascii : isAscii c) : P c := by
  have own := all c.toNat (of_decide_eq_true ascii)
  rwa [Char.ofNat_toNat] at own

theorem lower_ascii {c : Char} (ascii : isAscii c) :
    isAscii c.toLower ∧ c.toLower.isUpper = false ∧ (asciiPunctuation c = false → asciiPunctuation c.toLower = false) :=
  isAscii_forall (P := fun c => isAscii c.toLower ∧ c.toLower.isUpper = false ∧
    (asciiPunctuation c = false → asciiPunctuation c.toLower = false)) (by decide) ascii

/-! ### The deletion of blanks -/

section
variable {done run rest : List Char}

theorem collapseBlanks_kept (kept : ∀ c ∈ run, (c == ' ') = false) :
    collapseBlanks done (run ++ rest) = collapseBlanks (run.reverse ++ done) rest := by
  induction run generalizing done with
  | nil => rfl
  | cons c run ih =>
    have own : ¬ (done.head? = some ' ' ∧ c = ' ') := fun blank =>
      ne_of_beq_false (kept c List.mem_cons_self) blank.2
    rw [List.cons_append, collapseBlanks, if_neg own, ih fun d member => kept d (List.mem_cons_of_mem _ member)]
    rw [List.reverse_cons, List.append_assoc]
    rfl

theorem collapseBlanks_deleted (blank : ∀ c ∈ run, (c == ' ') = true) (after : done.head? = some ' ') :
    collapseBlanks done (run ++ rest) = collapseBlanks done rest := by
  induction run with
  | nil => rfl
  | cons c run ih =>
    have own : c = ' ' := beq_iff_eq.mp (blank c List.mem_cons_self)
    rw [List.cons_append, collapseBlanks, if_pos ⟨after, own⟩]
    exact ih fun d member => blank d (List.mem_cons_of_mem _ member)

/-- The rule deletes all of a run of blanks but the first, as long as the text before does not end in one. -/
theorem collapseBlanks_runs {text : List Char} (apart : done.head? = some ' ' → text.head? ≠ some ' ') :
    collapseBlanks done text = done.reverse ++ replaceRuns (· == ' ') ' ' text := by
  induction text using runs_induction (· == ' ') generalizing done with
  | nil => exact (List.append_nil _).symm
  | cons c run rest alike ends ih =>
    rw [replaceRuns_append alike ends]
    cases own : c == ' ' with
    | true =>
      obtain rfl := beq_iff_eq.mp own
      have first : ¬ (done.head? = some ' ' ∧ (' ' : Char) = ' ') := fun blank => apart blank.1 rfl
      have blanks : ∀ d ∈ run, (d == ' ') = true := fun d member => alike d (List.mem_cons_of_mem _ member)
      rw [List.cons_append, collapseBlanks, if_neg first, collapseBlanks_deleted blanks rfl, ih]
      · simp
      · intro _ next
        exact ends ' ' next rfl
    | false =>
      have kept : ∀ d ∈ c :: run, (d == ' ') = false := fun d member => (alike d member).trans own
      rw [collapseBlanks_kept kept, ih]
      · simp
      · intro last _
        rw [List.head?_append, List.head?_reverse, List.getLast?_cons] at last
        have member := List.mem_of_mem_getLast? (List.getLast?_cons (a := c) (l := run))
        have blank := kept _ member
        rw [Option.some.inj last] at blank
        cases blank

end

/-- The text without punctuation and symbols, in lower case. -/
def Icu.bare (icu : Icu) (text : List Char) : List Char :=
  ((text.filter fun c => !icu.punctuation c).filter fun c => !icu.symbol c).map Char.toLower

section
variable {icu : Icu} {text : List Char}

theorem Icu.Ascii.mem_bare (ascii : icu.Ascii) (within : text.all isAscii) {c : Char} (member : c ∈ icu.bare text) :
    isAscii c ∧ c.isUpper = false ∧ asciiPunctuation c = false := by
  obtain ⟨d, kept, rfl⟩ := List.mem_map.mp member
  obtain ⟨unpunctuated, _⟩ := List.mem_filter.mp kept
  obtain ⟨mem, out⟩ := List.mem_filter.mp unpunctuated
  have own := List.all_eq_true.mp within d mem
  obtain ⟨within', small, mark⟩ := lower_ascii own
  refine ⟨within', small, mark ?_⟩
  rw [← ascii.punctuation d own]
  exact (Bool.not_eq_true' _).mp out

/-- On ASCII the passes up to the lower-casing leave the bare text. -/
theorem Icu.Ascii.transliterate_bare (ascii : icu.Ascii) (within : text.all isAscii) :
    transliterate icu text = replaceRuns (· == ' ') '-' (icu.bare text) := by
  have unmarked : text.filter (fun c => !icu.nonspacingMark c) = text := by
    apply List.filter_eq_self.mpr
    intro c member
    rw [ascii.nonspacingMark c (List.all_eq_true.mp within c member)]
    rfl
  have kept : ((text.filter fun c => !icu.punctuation c).filter fun c => !icu.symbol c).all isAscii := by
    apply List.all_eq_true.mpr
    intro c member
    exact List.all_eq_true.mp within c (List.mem_of_mem_filter (List.mem_of_mem_filter member))
  have collapsed : ∀ c ∈ replaceRuns (· == ' ') ' ' (icu.bare text), icu.separator c = (c == ' ') := by
    intro c member
    apply ascii.separator
    rcases mem_replaceRuns member with rfl | ⟨mem, _⟩
    · decide
    · exact (ascii.mem_bare within mem).1
  have replaced : (replaceRuns (· == ' ') ' ' (icu.bare text)).map (fun c => if icu.separator c then '-' else c) =
      (replaceRuns (· == ' ') ' ' (icu.bare text)).map fun c => if c == ' ' then '-' else c := by
    apply List.map_congr_left
    intro c member
    rw [collapsed c member]
  unfold transliterate
  dsimp only
  rw [ascii.anyLatin _ within, unmarked, ascii.latinAscii _ kept, ascii.lower _ kept, collapseBlanks_runs]
  · exact replaced.trans (map_replaceRuns rfl)
  · intro blank
    cases blank

/-- On ASCII the slug is the title without punctuation and symbols, in lower case, with each run of blanks replaced by
one `-`. So no two `-` are adjacent, no capital, blank or other punctuation is left, and the rest of the bare title is
kept in order. -/
theorem slugify_ascii (ascii : icu.Ascii) {s : String} (within : s.toList.all isAscii) :
    ∃ slug, slugify icu s = .ok slug ∧ slug.toList = replaceRuns (· == ' ') '-' (icu.bare s.toList) ∧
      ¬ ['-', '-'] <:+: slug.toList ∧
      (∀ c ∈ slug.toList, c.isUpper = false ∧ c ≠ ' ' ∧ (icu.punctuation c → c = '-')) ∧
      slug.toList.filter (· ≠ '-') = (icu.bare s.toList).filter (· ≠ ' ') := by
  have fresh : '-' ∉ icu.bare s.toList := by
    intro member
    obtain ⟨_, _, out⟩ := ascii.mem_bare within member
    cases out
  have reference : (String.ofList (transliterate icu s.toList)).toList =
      replaceRuns (· == ' ') '-' (icu.bare s.toList) :=
    String.toList_ofList.trans (ascii.transliterate_bare within)
  refine ⟨String.ofList (transliterate icu s.toList), if_pos ascii.compiles, reference, ?_, ?_, ?_⟩
  · rw [reference]
    exact replaceRuns_apart fresh
  · intro c member
    rw [reference] at member
    rcases mem_replaceRuns member with rfl | ⟨mem, solid⟩
    · exact ⟨rfl, by decide, fun _ => rfl⟩
    · obtain ⟨own, small, out⟩ := ascii.mem_bare within mem
      refine ⟨small, ne_of_beq_false solid, fun punctuation => ?_⟩
      rw [ascii.punctuation c own, out] at punctuation
      cases punctuation
  · rw [reference, filter_replaceRuns fresh]
    apply List.filter_congr
    intro c _
    by_cases blank : c = ' '
    · simp [blank]
    · simp [blank]

end

/-! ### A sample -/

/-- ICU with the sets and transforms of ASCII. -/
def sampleAsciiIcu : Icu where
  createFromRules := true
  anyLatin := id
  nonspacingMark _ := false
  punctuation := asciiPunctuation
  symbol := asciiSymbol
  latinAscii := id
  lower := List.map Char.toLower
  separator c := c == ' '

theorem sampleAsciiIcu_ascii : sampleAsciiIcu.Ascii where
  compiles := rfl
  anyLatin _ _ := rfl
  nonspacingMark _ _ := rfl
  punctuation _ _ := rfl
  symbol _ _ := rfl
  latinAscii _ _ := rfl
  lower _ _ := rfl
  separator _ _ := rfl

/-- Two blanks become adjacent when the `&` between them is removed. -/
theorem slugify_ascii_sample :
    ∃ slug, slugify sampleAsciiIcu "Rock & Roll" = .ok slug ∧
      slug.toList = replaceRuns (· == ' ') '-' (sampleAsciiIcu.bare "Rock & Roll".toList) ∧
      ¬ ['-', '-'] <:+: slug.toList ∧
      (∀ c ∈ slug.toList, c.isUpper = false ∧ c ≠ ' ' ∧ (sampleAsciiIcu.punctuation c → c = '-')) ∧
      slug.toList.filter (· ≠ '-') = (sampleAsciiIcu.bare "Rock & Roll".toList).filter (· ≠ ' ') :=
  slugify_ascii sampleAsciiIcu_ascii (by decide)

example : slugify sampleAsciiIcu "Rock & Roll" = .ok "rock-roll" := by decide

end RealWorld
