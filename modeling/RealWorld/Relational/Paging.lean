import Mathlib.Data.List.Pairwise
import Mathlib.Data.List.Sort
import RealWorld.Relational.Rows

/-!
# Pages of a sorted result

`ORDER BY key DESC` leaves open how rows of one key are arranged, each time anew. The pages of such a
result partition the rows when no group of rows of one key crosses from one page to the next, and only
then.
-/

namespace Relational

/-- Page `k` of `n` rows. -/
def page {α : Type} (n k : Nat) (rows : List α) : List α := (rows.drop (k * n)).take n

section
variable {α : Type} (key : α → Int) (n : Nat) (rows : List α)

/-- The rows that come before those with the key of `a`. -/
def before (a : α) : Nat := rows.countP fun b => key a < key b

def alike (a : α) : Nat := rows.countP fun b => key b = key a

/-- The first and the last of the rows with one key are on one page. -/
def Unsplit : Prop := ∀ a ∈ rows, before key rows a / n = (before key rows a + alike key rows a - 1) / n

instance : Decidable (Unsplit key n rows) := List.decidableBAll _ rows

/-- What `ORDER BY key DESC` can make of `rows`. -/
structure Ordered (sorted : List α) : Prop where
  perm : sorted.Perm rows
  descending : sorted.Pairwise fun a b => key b ≤ key a

end

/-- The rows from position `offset` on, `limit` of them if there is a limit. -/
def window {α : Type} (offset : Nat) (limit : Option Nat) (rows : List α) : List α :=
  match limit with
  | none => rows.drop offset
  | some n => (rows.drop offset).take n

/-- `a` is in the window for some arrangement of `rows`. -/
def CanAppear {α : Type} (key : α → Int) (offset : Nat) (limit : Option Nat) (rows : List α) (a : α) : Prop :=
  ∃ i, offset ≤ i ∧ (∀ n ∈ limit, i < offset + n) ∧ before key rows a ≤ i ∧ i < before key rows a + alike key rows a

section
variable {α : Type} {key : α → Int} {n k : Nat} {rows sorted : List α} {a : α} {i : Nat}

theorem Ordered.position (h : Ordered key rows sorted) (here : sorted[i]? = some a) :
    before key rows a ≤ i ∧ i < before key rows a + alike key rows a := by
  obtain ⟨bound, rfl⟩ := List.getElem?_eq_some_iff.mp here
  obtain ⟨front, back, same, size⟩ : ∃ front back, sorted = front ++ sorted[i] :: back ∧ front.length = i :=
    ⟨sorted.take i, sorted.drop (i + 1), by simp, by simp; omega⟩
  generalize sorted[i] = a at same
  have descending := h.descending
  rw [same, List.pairwise_append, List.pairwise_cons] at descending
  obtain ⟨_, ⟨later, _⟩, earlier⟩ := descending
  have above : ∀ b ∈ front, key a ≤ key b := fun b member => earlier b member a List.mem_cons_self
  have none : back.countP (fun b => key a < key b) = 0 := by
    rw [List.countP_eq_zero]
    intro b member
    simpa using later b member
  have counted : before key rows a = front.countP fun b => key a < key b := by
    unfold before
    rw [← h.perm.countP_eq, same, List.countP_append, List.countP_cons, none]
    simp
  have ties : front.countP (fun b => key b = key a) + 1 ≤ alike key rows a := by
    unfold alike
    rw [← h.perm.countP_eq, same, List.countP_append, List.countP_cons]
    simp
  -- of the rows in front, those that do not come before have the key of `a`
  have split := List.length_eq_countP_add_countP (fun b => decide (key a < key b)) (l := front)
  have rest : front.countP (fun b => ¬ decide (key a < key b)) = front.countP fun b => key b = key a := by
    refine List.countP_congr fun b member => ?_
    have le := above b member
    simp only [decide_eq_true_eq]
    omega
  omega

theorem mem_page (positive : 0 < n) : a ∈ page n k rows ↔ ∃ i, rows[i]? = some a ∧ i / n = k := by
  unfold page
  rw [List.mem_iff_getElem?]
  constructor
  · rintro ⟨j, here⟩
    rw [List.getElem?_take, List.getElem?_drop] at here
    split at here
    · refine ⟨k * n + j, here, ?_⟩
      rw [Nat.add_comm, Nat.add_mul_div_right _ _ positive, Nat.div_eq_of_lt ‹_›, Nat.zero_add]
    · cases here
  · rintro ⟨i, here, rfl⟩
    refine ⟨i % n, ?_⟩
    rw [List.getElem?_take, if_pos (Nat.mod_lt _ positive), List.getElem?_drop, Nat.mul_comm, Nat.div_add_mod, here]

theorem nodup_page (distinct : rows.Nodup) : (page n k rows).Nodup :=
  distinct.sublist ((List.take_sublist _ _).trans (List.drop_sublist _ _))

/-- A page holds whole groups, the same whatever the arrangement. -/
theorem Ordered.page_perm (h : Ordered key rows sorted) (positive : 0 < n) (distinct : rows.Nodup)
    (unsplit : Unsplit key n rows) : (page n k sorted).Perm (rows.filter fun a => before key rows a / n = k) := by
  refine (List.perm_ext_iff_of_nodup (nodup_page (h.perm.nodup_iff.mpr distinct)) (distinct.filter _)).mpr fun a => ?_
  rw [mem_page positive, List.mem_filter, decide_eq_true_eq]
  have same : ∀ {i}, sorted[i]? = some a → i / n = before key rows a / n := by
    intro i here
    obtain ⟨first, last⟩ := h.position here
    have whole := unsplit a (h.perm.mem_iff.mp (List.mem_of_getElem? here))
    refine Nat.le_antisymm ?_ (Nat.div_le_div_right first)
    rw [whole]
    exact Nat.div_le_div_right (by omega)
  constructor
  · rintro ⟨i, here, rfl⟩
    exact ⟨h.perm.mem_iff.mp (List.mem_of_getElem? here), (same here).symm⟩
  · rintro ⟨member, rfl⟩
    obtain ⟨i, here⟩ := List.mem_iff_getElem?.mp (h.perm.mem_iff.mpr member)
    exact ⟨i, here, same here⟩

theorem flatMap_filter_perm {K : Nat} {f : α → Nat} (distinct : rows.Nodup) (below : ∀ a ∈ rows, f a < K) :
    ((List.range K).flatMap fun k => rows.filter fun a => f a = k).Perm rows := by
  refine (List.perm_ext_iff_of_nodup ?_ distinct).mpr fun a => ?_
  · refine List.nodup_flatMap.mpr ⟨fun k _ => distinct.filter _, List.nodup_range.imp fun different => ?_⟩
    intro a left right
    simp only [List.mem_filter, decide_eq_true_eq] at left right
    exact different (left.2.symm.trans right.2)
  · simp only [List.mem_flatMap, List.mem_range, List.mem_filter, decide_eq_true_eq]
    constructor
    · rintro ⟨_, _, member, _⟩
      exact member
    · intro member
      exact ⟨f a, below a member, member, rfl⟩

theorem Ordered.before_lt (h : Ordered key rows sorted) (member : a ∈ rows) : before key rows a < rows.length := by
  obtain ⟨i, here⟩ := List.mem_iff_getElem?.mp (h.perm.mem_iff.mpr member)
  obtain ⟨bound, _⟩ := List.getElem?_eq_some_iff.mp here
  rw [h.perm.length_eq] at bound
  exact Nat.lt_of_le_of_lt (h.position here).1 bound

/-- Where no group is split, the pages of any arrangements partition the rows. -/
theorem Unsplit.pages (unsplit : Unsplit key n rows) (positive : 0 < n) (distinct : rows.Nodup) {K : Nat}
    (enough : rows.length ≤ K * n) {sorted : Nat → List α} (h : ∀ k, Ordered key rows (sorted k)) :
    ((List.range K).flatMap fun k => page n k (sorted k)).Perm rows := by
  have each : ((List.range K).flatMap fun k => page n k (sorted k)).Perm
      ((List.range K).flatMap fun k => rows.filter fun a => before key rows a / n = k) :=
    List.Perm.flatMap_left _ fun k _ => (h k).page_perm positive distinct unsplit
  refine each.trans (flatMap_filter_perm distinct fun a member => ?_)
  exact Nat.div_lt_of_lt_mul (Nat.mul_comm K n ▸ ((h 0).before_lt member).trans_le enough)

/-! ### How a group can be split -/

theorem insertionSort_ordered (rows : List α) :
    Ordered key rows (rows.insertionSort fun a b => key b ≤ key a) := by
  have total : Std.Total fun a b : α => key b ≤ key a := ⟨fun a b => Int.le_total (key b) (key a)⟩
  have trans : IsTrans α fun a b => key b ≤ key a := ⟨fun _ _ _ first second => Int.le_trans second first⟩
  exact ⟨List.perm_insertionSort _ _, List.pairwise_insertionSort _ _⟩

/-- A group can stand in any order between the rows before it and the rows after it. -/
theorem exists_ordered {front back : List α} (group : (front ++ a :: back).Perm (rows.filter fun b => key b = key a)) :
    ∃ sorted, Ordered key rows sorted ∧ sorted[before key rows a + front.length]? = some a := by
  obtain ⟨up, upOrdered⟩ : ∃ up, Ordered key (rows.filter fun b => key a < key b) up := ⟨_, insertionSort_ordered _⟩
  obtain ⟨down, downOrdered⟩ : ∃ down, Ordered key (rows.filter fun b => key b < key a) down :=
    ⟨_, insertionSort_ordered _⟩
  have above : ∀ b ∈ up, key a < key b := fun b member => by
    simpa using (List.mem_filter.mp (upOrdered.perm.mem_iff.mp member)).2
  have level : ∀ b ∈ front ++ a :: back, key b = key a := fun b member => by
    simpa using (List.mem_filter.mp (group.mem_iff.mp member)).2
  have under : ∀ b ∈ down, key b < key a := fun b member => by
    simpa using (List.mem_filter.mp (downOrdered.perm.mem_iff.mp member)).2
  refine ⟨up ++ ((front ++ a :: back) ++ down), ⟨?_, ?_⟩, ?_⟩
  · have parts := (upOrdered.perm.append (group.append downOrdered.perm))
    refine parts.trans ?_
    have notAbove := List.filter_append_perm (fun b => decide (key a < key b)) rows
    have notLevel := List.filter_append_perm (fun b => decide (key b = key a))
      (rows.filter fun b => !decide (key a < key b))
    refine .trans (.append_left _ ?_) notAbove
    refine .trans (.of_eq ?_) notLevel
    rw [List.filter_filter, List.filter_filter]
    congr 1 <;> refine List.filter_congr fun b _ => ?_
    · by_cases same : key b = key a <;> simp [same]
    · rcases Int.lt_trichotomy (key b) (key a) with less | same | more
      · simp [less, Int.ne_of_lt less, Int.le_of_lt less]
      · simp [same]
      · simp [Int.not_lt.mpr (Int.le_of_lt more), more]
  · refine List.pairwise_append.mpr ⟨upOrdered.descending, List.pairwise_append.mpr ⟨?_, downOrdered.descending, ?_⟩, ?_⟩
    · exact List.pairwise_of_forall_mem_list fun b left c right => by rw [level b left, level c right]
    · intro b left c right
      rw [level b left]
      exact Int.le_of_lt (under c right)
    · intro b left c right
      refine Int.le_of_lt (Int.lt_of_le_of_lt ?_ (above b left))
      rcases List.mem_append.mp right with same | less
      · rw [level c same]
      · exact Int.le_of_lt (under c less)
  · have size : up.length = before key rows a := by
      rw [upOrdered.perm.length_eq, before, List.countP_eq_length_filter]
    rw [← size, List.getElem?_append_right (by omega), Nat.add_sub_cancel_left, List.append_assoc,
      List.getElem?_append_right (Nat.le_refl _), Nat.sub_self]
    rfl

/-! ### Windows -/

section
variable {offset : Nat} {limit : Option Nat}

theorem mem_window : a ∈ window offset limit rows ↔ ∃ i, offset ≤ i ∧ (∀ n ∈ limit, i < offset + n) ∧ rows[i]? = some a := by
  have dropped : ∀ j, (rows.drop offset)[j]? = rows[offset + j]? := fun j => List.getElem?_drop
  cases limit with
  | none =>
    unfold window
    rw [List.mem_iff_getElem?]
    constructor
    · rintro ⟨j, here⟩
      exact ⟨offset + j, Nat.le_add_right _ _, nofun, dropped j ▸ here⟩
    · rintro ⟨i, from_, _, here⟩
      obtain ⟨j, rfl⟩ := Nat.exists_eq_add_of_le from_
      exact ⟨j, (dropped j).trans here⟩
  | some n =>
    unfold window
    rw [List.mem_iff_getElem?]
    constructor
    · rintro ⟨j, here⟩
      rw [List.getElem?_take] at here
      split at here
      · rename_i below
        refine ⟨offset + j, Nat.le_add_right _ _, ?_, dropped j ▸ here⟩
        rintro _ ⟨⟩
        omega
      · cases here
    · rintro ⟨i, from_, upTo, here⟩
      obtain ⟨j, rfl⟩ := Nat.exists_eq_add_of_le from_
      have below := upTo n rfl
      refine ⟨j, ?_⟩
      rw [List.getElem?_take, if_pos (by omega)]
      exact (dropped j).trans here

theorem mem_of_window (h : a ∈ window offset limit rows) : a ∈ rows := by
  obtain ⟨_, _, _, here⟩ := mem_window.mp h
  exact List.mem_of_getElem? here

theorem map_window {β : Type} {f : α → β} : window offset limit (rows.map f) = (window offset limit rows).map f := by
  cases limit with
  | none => exact List.map_drop.symm
  | some n =>
    unfold window
    rw [List.map_take, List.map_drop]

theorem length_window_le : (window offset (some n) rows).length ≤ n := List.length_take_le _ _

theorem window_unlimited (room : rows.length ≤ offset + n) : window offset (some n) rows = window offset none rows := by
  show (rows.drop offset).take n = rows.drop offset
  apply List.take_of_length_le
  rw [List.length_drop]
  omega

theorem Ordered.canAppear (h : Ordered key rows sorted) (shown : a ∈ window offset limit sorted) :
    CanAppear key offset limit rows a := by
  obtain ⟨i, from_, upTo, here⟩ := mem_window.mp shown
  exact ⟨i, from_, upTo, h.position here⟩

/-- A row can take any place among those of its key. -/
theorem CanAppear.exists_ordered (h : CanAppear key offset limit rows a) (member : a ∈ rows) :
    ∃ sorted, Ordered key rows sorted ∧ a ∈ window offset limit sorted := by
  classical
  obtain ⟨i, from_, upTo, first, last⟩ := h
  have inGroup : a ∈ rows.filter fun b => key b = key a := List.mem_filter.mpr ⟨member, by simp⟩
  have size : ((rows.filter fun b => key b = key a).erase a).length = alike key rows a - 1 := by
    rw [List.length_erase_of_mem inGroup, alike, List.countP_eq_length_filter]
  obtain ⟨others, same⟩ : ∃ others, others = (rows.filter fun b => key b = key a).erase a := ⟨_, rfl⟩
  rw [← same] at size
  have group : (others.take (i - before key rows a) ++ a :: others.drop (i - before key rows a)).Perm
      (rows.filter fun b => key b = key a) := by
    refine List.perm_middle.trans ?_
    rw [List.take_append_drop, same]
    exact (List.perm_cons_erase inGroup).symm
  obtain ⟨sorted, ordered, here⟩ := Relational.exists_ordered group
  refine ⟨sorted, ordered, mem_window.mpr ⟨i, from_, upTo, ?_⟩⟩
  rw [← here, List.length_take]
  congr 1
  omega

end

theorem flatMap_index {ks : List Nat} {f : Nat → List α} (distinct : (ks.flatMap f).Nodup) {k k' : Nat}
    (left : k ∈ ks) (right : k' ∈ ks) (on : a ∈ f k) (on' : a ∈ f k') : k = k' := by
  by_contra different
  have symm : Std.Symm (Function.onFun List.Disjoint f) := ⟨fun _ _ h _ left right => h right left⟩
  exact (List.nodup_flatMap.mp distinct).2.forall left right different on on'

/-- If the pages of all arrangements partition the rows, no group is split: else a row could be the
last of its group on one page and the first on another. -/
theorem unsplit_of_pages (positive : 0 < n) (distinct : rows.Nodup) {K : Nat} (enough : rows.length ≤ K * n)
    (pages : ∀ sorted : Nat → List α, (∀ k, Ordered key rows (sorted k)) →
      ((List.range K).flatMap fun k => page n k (sorted k)).Perm rows) : Unsplit key n rows := by
  classical
  intro a member
  by_contra split
  have inGroup : a ∈ rows.filter fun b => key b = key a := List.mem_filter.mpr ⟨member, by simp⟩
  have leading : ([] ++ a :: (rows.filter fun b => key b = key a).erase a).Perm (rows.filter fun b => key b = key a) :=
    (List.perm_cons_erase inGroup).symm
  have closing : ((rows.filter fun b => key b = key a).erase a ++ [a]).Perm (rows.filter fun b => key b = key a) :=
    List.perm_append_comm.trans leading
  obtain ⟨first, firstOrdered, atFirst⟩ := exists_ordered leading
  obtain ⟨last, lastOrdered, atLast⟩ := exists_ordered closing
  have size : ((rows.filter fun b => key b = key a).erase a).length = alike key rows a - 1 := by
    rw [List.length_erase_of_mem inGroup, alike, List.countP_eq_length_filter]
  have some_ : 0 < alike key rows a := List.countP_pos_iff.mpr ⟨a, member, by simp⟩
  rw [size, ← Nat.add_sub_assoc some_] at atLast
  rw [List.length_nil, Nat.add_zero] at atFirst
  let sorted k := if k = before key rows a / n then first else last
  have perm := pages sorted fun k => by
    unfold sorted
    split <;> assumption
  have below : ∀ {sorted : List α} {i}, Ordered key rows sorted → sorted[i]? = some a → i / n < K := by
    intro sorted i ordered here
    obtain ⟨bound, _⟩ := List.getElem?_eq_some_iff.mp here
    rw [ordered.perm.length_eq] at bound
    exact Nat.div_lt_of_lt_mul (Nat.mul_comm K n ▸ bound.trans_le enough)
  have onFirst : a ∈ page n (before key rows a / n) (sorted (before key rows a / n)) := by
    unfold sorted
    rw [if_pos rfl]
    exact (mem_page positive).mpr ⟨_, atFirst, rfl⟩
  have onLast : a ∈ page n ((before key rows a + alike key rows a - 1) / n)
      (sorted ((before key rows a + alike key rows a - 1) / n)) := by
    unfold sorted
    rw [if_neg (Ne.symm split)]
    exact (mem_page positive).mpr ⟨_, atLast, rfl⟩
  exact split (flatMap_index (perm.nodup_iff.mpr distinct) (List.mem_range.mpr (below firstOrdered atFirst))
    (List.mem_range.mpr (below lastOrdered atLast)) onFirst onLast)

end

end Relational
