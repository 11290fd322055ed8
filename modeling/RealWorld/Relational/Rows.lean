import Mathlib.Data.List.Nodup
import Mathlib.Data.List.Perm.Basic

/-!
# Tables as lists of rows

Three-valued conditions, lookups through a unique key, and the arbitrary order in which an
unsorted scan delivers its rows.
-/

namespace Relational

/-! ### Three-valued logic -/

/-- The truth value of a condition that may compare with NULL; `none` is UNKNOWN. -/
abbrev Truth := Option Bool

def eq {α : Type} [DecidableEq α] : Option α → Option α → Truth
  | some a, some b => some (a = b)
  | _, _ => none

def and : Truth → Truth → Truth
  | some false, _ | _, some false => some false
  | some true, some true => some true
  | _, _ => none

def or : Truth → Truth → Truth
  | some true, _ | _, some true => some true
  | some false, some false => some false
  | _, _ => none

/-- A WHERE clause keeps a row only if its condition is TRUE. -/
def isTrue (t : Truth) : Bool := t == some true

/-- `CASE WHEN c THEN yes ELSE no END`: UNKNOWN takes the ELSE branch. -/
def caseWhen {α : Type} (c : Truth) (yes no : α) : α := if isTrue c then yes else no

@[simp] theorem isTrue_some (b : Bool) : isTrue (some b) = b := by cases b <;> rfl

@[simp] theorem isTrue_none : isTrue none = false := rfl

@[simp] theorem isTrue_eq {α : Type} [DecidableEq α] (a : α) (b : Option α) :
    isTrue (eq (some a) b) = decide (b = some a) := by
  cases b with
  | none => rfl
  | some b => simp [eq, eq_comm]

@[simp] theorem eq_none {α : Type} [DecidableEq α] (a : Option α) : eq a none = none := by
  cases a <;> rfl

@[simp] theorem isTrue_and (t u : Truth) : isTrue (and t u) = (isTrue t && isTrue u) := by
  rcases t with _ | _ | _ <;> rcases u with _ | _ | _ <;> rfl

@[simp] theorem isTrue_or (t u : Truth) : isTrue (or t u) = (isTrue t || isTrue u) := by
  rcases t with _ | _ | _ <;> rcases u with _ | _ | _ <;> rfl

/-! ### Unique keys -/

section
variable {α κ : Type} {key : α → κ} {rows : List α}

theorem key_inj (unique : (rows.map key).Nodup) {r r' : α} (h : r ∈ rows) (h' : r' ∈ rows)
    (same : key r = key r') : r = r' := List.inj_on_of_nodup_map unique h h' same

theorem nodup_concat_iff {r : α} : (rows ++ [r]).Nodup ↔ r ∉ rows ∧ rows.Nodup := by
  rw [← List.concat_eq_append, List.nodup_concat]

theorem nodup_map_concat_iff (unique : (rows.map key).Nodup) {row : α} :
    ((rows ++ [row]).map key).Nodup ↔ ∀ r ∈ rows, key r ≠ key row := by
  rw [List.map_append, List.map_singleton, nodup_concat_iff, List.mem_map, not_exists]
  simp only [not_and]
  exact and_iff_left unique

theorem nodup_map_concat (unique : (rows.map key).Nodup) {row : α} (fresh : ∀ r ∈ rows, key r ≠ key row) :
    ((rows ++ [row]).map key).Nodup :=
  (nodup_map_concat_iff unique).mpr fresh

/-- Rows that have different numbers up to `n` are at most `n`. -/
theorem length_le_of_numbered {number : α → Int} (unique : (rows.map number).Nodup) {n : Int} (start : 0 ≤ n)
    (numbered : ∀ r ∈ rows, 0 < number r ∧ number r ≤ n) : (rows.length : Int) ≤ n := by
  have numbers : rows.map number ⊆ (List.range n.toNat).map fun k => ((k : Nat) : Int) + 1 := by
    intro k member
    obtain ⟨r, stored, rfl⟩ := List.mem_map.mp member
    obtain ⟨positive, bounded⟩ := numbered r stored
    refine List.mem_map.mpr ⟨(number r - 1).toNat, List.mem_range.mpr ?_, ?_⟩ <;> omega
  have count := unique.length_le_of_subset numbers
  rw [List.length_map, List.length_map, List.length_range] at count
  omega

variable [DecidableEq κ]

theorem filter_key (unique : (rows.map key).Nodup) {r : α} (member : r ∈ rows) :
    rows.filter (fun x => key x = key r) = [r] := by
  induction rows with
  | nil => cases member
  | cons x rows ih =>
    rw [List.map_cons, List.nodup_cons] at unique
    have others : ∀ y ∈ rows, key y ≠ key x := fun y hy same =>
      unique.1 (same ▸ List.mem_map_of_mem hy)
    rcases List.mem_cons.mp member with rfl | later
    · rw [List.filter_cons_of_pos (by simp), List.filter_eq_nil_iff.mpr (by simpa using others)]
    · rw [List.filter_cons_of_neg (by simpa using (others r later).symm), ih unique.2 later]

theorem filter_key_nil {k : κ} (absent : ∀ r ∈ rows, key r ≠ k) :
    rows.filter (fun x => key x = k) = [] :=
  List.filter_eq_nil_iff.mpr (by simpa using absent)

theorem filter_key_append {more : List α} {k : κ} (others : ∀ r ∈ more, key r ≠ k) :
    (rows ++ more).filter (fun x => key x = k) = rows.filter fun x => key x = k := by
  rw [List.filter_append, filter_key_nil others, List.append_nil]

/-- Selecting by a unique key finds no row or exactly one. -/
theorem filter_key_cases (unique : (rows.map key).Nodup) (k : κ) :
    (rows.filter (fun x => key x = k) = [] ∧ ∀ r ∈ rows, key r ≠ k) ∨
      ∃ r ∈ rows, key r = k ∧ rows.filter (fun x => key x = k) = [r] := by
  by_cases present : ∃ r ∈ rows, key r = k
  · obtain ⟨r, member, rfl⟩ := present
    exact .inr ⟨r, member, rfl, filter_key unique member⟩
  · have absent : ∀ r ∈ rows, key r ≠ k := fun r member same => present ⟨r, member, same⟩
    exact .inl ⟨filter_key_nil absent, absent⟩

theorem mem_map_key {r : α} (member : r ∈ rows) {r' x : α} :
    x ∈ rows.map (fun y => if key y = key r then r' else y) ↔ x = r' ∨ x ∈ rows ∧ key x ≠ key r := by
  rw [List.mem_map]
  constructor
  · rintro ⟨y, mem, rfl⟩
    split
    · exact .inl rfl
    · rename_i other
      exact .inr ⟨mem, other⟩
  · rintro (rfl | ⟨mem, other⟩)
    · exact ⟨r, member, if_pos rfl⟩
    · exact ⟨x, mem, if_neg other⟩

theorem map_key_congr (unique : (rows.map key).Nodup) {r : α} (member : r ∈ rows) (change : α → α) :
    rows.map (fun x => if key x = key r then change x else x) = rows.map fun x => if key x = key r then change r else x := by
  refine List.map_congr_left fun x mem => ?_
  split
  · rename_i same
    rw [key_inj unique mem member same]
  · rfl

/-- Replacing the row of one key keeps another column unique if no other row has the new value. -/
theorem nodup_map_replace {ι : Type} {field : α → ι} {r r' : α} (unique : (rows.map key).Nodup)
    (distinct : (rows.map field).Nodup) (member : r ∈ rows) (same : key r' = key r) :
    ((rows.map fun x => if key x = key r' then r' else x).map field).Nodup ↔
      ∀ x ∈ rows, field x = field r' → key x = key r' := by
  have replaced : ∀ x, field (if key x = key r' then r' else x) = if key x = key r' then field r' else field x :=
    fun x => apply_ite field _ _ _
  rw [List.map_map, List.nodup_map_iff_inj_on (unique.of_map key)]
  simp only [Function.comp_apply, replaced]
  constructor
  · intro injective x mem taken
    by_contra other
    refine other (congrArg key (injective x mem r member ?_) |>.trans same.symm)
    rw [if_neg other, if_pos same.symm, taken]
  · intro free x mem y mem' both
    by_cases here : key x = key r' <;> by_cases there : key y = key r'
    · exact key_inj unique mem mem' (here.trans there.symm)
    · rw [if_pos here, if_neg there] at both
      exact absurd (free y mem' both.symm) there
    · rw [if_neg here, if_pos there] at both
      exact absurd (free x mem both) here
    · rw [if_neg here, if_neg there] at both
      exact key_inj distinct mem mem' both

end

/-! ### The order of a scan -/

/-- The rows at the given positions. -/
def arrange {α : Type} (order : List Nat) (rows : List α) : List α :=
  order.filterMap fun n => rows[n]?

theorem arrange_range {α : Type} (rows : List α) :
    arrange (List.range rows.length) rows = rows := by
  induction rows with
  | nil => rfl
  | cons r rows ih =>
    rw [arrange, List.length_cons, List.range_succ_eq_map, List.filterMap_cons]
    simp only [List.getElem?_cons_zero, List.filterMap_map, Function.comp_def,
      List.getElem?_cons_succ]
    exact congrArg (r :: ·) ih

theorem arrange_perm {α : Type} {order : List Nat} {rows : List α}
    (h : order.Perm (List.range rows.length)) : (arrange order rows).Perm rows := by
  have moved := h.filterMap fun n => rows[n]?
  exact moved.trans (.of_eq (arrange_range rows))

theorem arrange_map {α β : Type} {f : α → β} {order : List Nat} {rows : List α} :
    arrange order (rows.map f) = (arrange order rows).map f := by
  unfold arrange
  rw [List.map_filterMap]
  simp only [List.getElem?_map]

/-- A scan may deliver different rows in any order. -/
theorem exists_arrange {α : Type} {rows scanned : List α} (distinct : rows.Nodup) (perm : scanned.Perm rows) :
    ∃ order, order.Perm (List.range rows.length) ∧ arrange order rows = scanned := by
  classical
  have positions : rows.map rows.idxOf = List.range rows.length := by
    refine List.ext_getElem (by simp) fun i bound _ => ?_
    rw [List.length_map] at bound
    rw [List.getElem_map, List.getElem_range, distinct.idxOf_getElem]
  refine ⟨scanned.map rows.idxOf, positions ▸ perm.map _, ?_⟩
  have found : ∀ a ∈ scanned, rows[rows.idxOf a]? = some a := fun a member =>
    List.getElem?_idxOf (perm.mem_iff.mp member)
  unfold arrange
  rw [List.filterMap_map]
  exact (List.filterMap_congr found).trans List.filterMap_some

end Relational
