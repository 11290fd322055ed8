import Mathlib.Data.List.SplitBy
import Mathlib.Data.List.TakeWhile

/-!
# Runs of a text

Maximal runs of characters that a class tells alike, and what becomes of a text when each run of the class is replaced
by one character.
-/

namespace Text

variable {α : Type} {p : α → Bool} {c : α} {run rest text : List α}

/-- The maximal runs of characters that are all in the class `p` or all outside it. -/
def runs (p : α → Bool) (text : List α) : List (List α) := text.splitBy fun a b => p a == p b

theorem runs_append (alike : ∀ d ∈ c :: run, p d = p c) (ends : ∀ d ∈ rest.head?, p d ≠ p c) :
    runs p (c :: run ++ rest) = (c :: run) :: runs p rest := by
  have one : (c :: run).splitBy (fun a b => p a == p b) = [c :: run] := by
    apply List.splitBy_of_isChain (List.cons_ne_nil c run)
    apply List.Pairwise.isChain
    apply List.pairwise_of_forall_mem_list
    intro a first b second
    rw [alike a first, alike b second]
    exact beq_self_eq_true _
  unfold runs
  rw [List.splitBy_append, one]
  · rfl
  · intro a last b next
    rw [alike a (List.mem_of_mem_getLast? last)]
    exact beq_false_of_ne fun same => ends b next same.symm

theorem runs_induction (p : α → Bool) {motive : List α → Prop} (nil : motive [])
    (cons : ∀ c run rest, (∀ d ∈ c :: run, p d = p c) → (∀ d ∈ rest.head?, p d ≠ p c) → motive rest →
      motive (c :: run ++ rest)) (text : List α) : motive text := by
  induction size : text.length using Nat.strong_induction_on generalizing text with
  | h n ih =>
    cases text with
    | nil => exact nil
    | cons c text =>
      have shorter : (text.dropWhile fun d => p d == p c).length < n := by
        have fewer := (List.dropWhile_sublist (l := text) fun d => p d == p c).length_le
        rw [← size, List.length_cons]
        omega
      have alike : ∀ d ∈ c :: text.takeWhile fun d => p d == p c, p d = p c := by
        refine List.forall_mem_cons.mpr ⟨rfl, fun d member => ?_⟩
        have passed := List.mem_takeWhile_imp member
        exact beq_iff_eq.mp passed
      have ends : ∀ d ∈ (text.dropWhile fun d => p d == p c).head?, p d ≠ p c := by
        intro d member
        have stopped := List.head?_dropWhile_not (fun d => p d == p c) text
        rw [Option.mem_def.mp member] at stopped
        exact ne_of_beq_false stopped
      have step := cons c _ _ alike ends (ih _ shorter _ rfl)
      rwa [List.cons_append, List.takeWhile_append_dropWhile] at step

/-! ### Replacing runs -/

/-- The text with `r` in place of each run of the class. -/
def replaceRuns (p : α → Bool) (r : α) (text : List α) : List α :=
  (runs p text).flatMap fun run => if run.any p then [r] else run

section
variable {r : α}

theorem replaceRuns_append (alike : ∀ d ∈ c :: run, p d = p c) (ends : ∀ d ∈ rest.head?, p d ≠ p c) :
    replaceRuns p r (c :: run ++ rest) = (if p c then [r] else c :: run) ++ replaceRuns p r rest := by
  have same : (c :: run).any p = p c := by
    cases inside : p c with
    | true => exact List.any_eq_true.mpr ⟨c, List.mem_cons_self, inside⟩
    | false =>
      apply List.any_eq_false.mpr
      intro d member
      rw [alike d member, inside]
      exact Bool.false_ne_true
  unfold replaceRuns
  rw [runs_append alike ends, List.flatMap_cons, same]

theorem mem_replaceRuns {d : α} (member : d ∈ replaceRuns p r text) : d = r ∨ d ∈ text ∧ p d = false := by
  induction text using runs_induction p with
  | nil => cases member
  | cons c run rest alike ends ih =>
    rw [replaceRuns_append alike ends, List.mem_append] at member
    rcases member with here | later
    · split at here
      · exact .inl (List.mem_singleton.mp here)
      · rename_i outside
        exact .inr ⟨List.mem_append_left _ here, (alike d here).trans (Bool.eq_false_iff.mpr outside)⟩
    · exact (ih later).imp_right fun both => ⟨List.mem_append_right _ both.1, both.2⟩

/-- Replacing runs within their class first makes no difference. -/
theorem map_replaceRuns {d : α} (inside : p d = true) :
    (replaceRuns p d text).map (fun c => if p c then r else c) = replaceRuns p r text := by
  induction text using runs_induction p with
  | nil => rfl
  | cons c run rest alike ends ih =>
    rw [replaceRuns_append alike ends, replaceRuns_append alike ends, List.map_append, ih]
    congr 1
    cases own : p c with
    | true => rw [if_pos rfl, if_pos rfl, List.map_singleton, if_pos inside]
    | false =>
      have kept : ∀ e ∈ c :: run, (if p e then r else e) = e := by
        intro e member
        rw [alike e member, own]
        rfl
      exact (List.map_congr_left kept).trans (List.map_id _)

/-- Apart from the replacements the text is what it was without its runs. -/
theorem filter_replaceRuns [DecidableEq α] (fresh : r ∉ text) :
    (replaceRuns p r text).filter (· ≠ r) = text.filter fun d => !p d := by
  induction text using runs_induction p with
  | nil => rfl
  | cons c run rest alike ends ih =>
    obtain ⟨here, later⟩ := not_or.mp (mt List.mem_append.mpr fresh)
    have same : (c :: run).filter (fun d => !p d) = (c :: run).filter fun _ => !p c := by
      apply List.filter_congr
      intro d member
      rw [alike d member]
    rw [replaceRuns_append alike ends, List.filter_append, List.filter_append, ih later, same]
    congr 1
    cases inside : p c with
    | true => simp
    | false =>
      have others : ∀ d ∈ c :: run, decide (d ≠ r) = true := fun d member =>
        decide_eq_true fun same => here (same ▸ member)
      exact (List.filter_eq_self.mpr others).trans (List.filter_true _).symm

/-- A replacement at the front stands for a run at the front. -/
theorem head?_replaceRuns (fresh : r ∉ text) (first : (replaceRuns p r text).head? = some r) :
    ∃ c, text.head? = some c ∧ p c = true := by
  induction text using runs_induction p with
  | nil => cases first
  | cons c run rest alike ends ih =>
    refine ⟨c, rfl, ?_⟩
    rw [replaceRuns_append alike ends] at first
    by_contra outside
    rw [if_neg outside] at first
    obtain rfl := Option.some.inj first
    exact fresh List.mem_cons_self

theorem replaceRuns_apart (fresh : r ∉ text) : ¬ [r, r] <:+: replaceRuns p r text := by
  have apart : (replaceRuns p r text).IsChain fun a b => ¬ (a = r ∧ b = r) := by
    induction text using runs_induction p with
    | nil => exact List.isChain_nil
    | cons c run rest alike ends ih =>
      obtain ⟨here, later⟩ := not_or.mp (mt List.mem_append.mpr fresh)
      rw [replaceRuns_append alike ends]
      cases inside : p c with
      | true =>
        apply (ih later).cons
        rintro b next ⟨_, rfl⟩
        obtain ⟨d, starts, within⟩ := head?_replaceRuns later next
        exact ends d starts (within.trans inside.symm)
      | false =>
        have others : ∀ d ∈ c :: run, d ≠ r := fun d member same => here (same ▸ member)
        refine List.isChain_append.mpr ⟨?_, ih later, fun a last b _ both => ?_⟩
        · apply List.Pairwise.isChain
          exact List.pairwise_of_forall_mem_list fun a first b _ both => others a first both.1
        · exact others a (List.mem_of_mem_getLast? last) both.1
  intro adjacent
  have pair := apart.infix adjacent
  exact List.isChain_pair.mp pair ⟨rfl, rfl⟩

end

end Text
