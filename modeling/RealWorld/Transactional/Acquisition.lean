import Mathlib.Logic.Function.Basic
import Mathlib.Logic.Relation
import Mathlib.Tactic.ByContra

/-!
# Keys taken in order

Parties take keys one at a time, each in the order of its own list, and keep them until they end. A
key that another party keeps makes a party wait; the keys of a party that finishes are settled, and
nobody waits for a settled key.
-/

namespace Transactional

/-- The first element of `keys` satisfying `p`. -/
def IsFirst {κ : Type} (p : κ → Prop) (keys : List κ) (k : κ) : Prop :=
  ∃ front back, keys = front ++ k :: back ∧ p k ∧ ∀ earlier ∈ front, ¬ p earlier

theorem exists_isFirst {κ : Type} {p : κ → Prop} {keys : List κ} (some : ∃ k ∈ keys, p k) :
    ∃ k, IsFirst p keys k := by
  induction keys with
  | nil =>
    obtain ⟨_, member, _⟩ := some
    cases member
  | cons key keys ih =>
    by_cases here : p key
    · exact ⟨key, [], keys, rfl, here, nofun⟩
    · obtain ⟨k, member, holds⟩ := some
      have later : k ∈ keys := (List.mem_cons.mp member).resolve_left fun same => here (same ▸ holds)
      obtain ⟨first, front, back, rfl, found, before⟩ := ih ⟨k, later, holds⟩
      exact ⟨first, key :: front, back, rfl, found, List.forall_mem_cons.mpr ⟨here, before⟩⟩

section
variable {κ : Type} {p : κ → Prop} {front back : List κ} {f k : κ}

theorem eq_first (before : ∀ earlier ∈ front, ¬ p earlier) (member : k ∈ front ++ [f]) (holds : p k) : k = f := by
  rcases List.mem_append.mp member with early | here
  · exact absurd holds (before k early)
  · exact List.mem_singleton.mp here

theorem mem_after_first (before : ∀ earlier ∈ front, ¬ p earlier) (member : k ∈ front ++ f :: back) (holds : p k)
    (other : k ≠ f) : k ∈ back := by
  rcases List.mem_append.mp member with early | late
  · exact absurd holds (before k early)
  · exact (List.mem_cons.mp late).resolve_left other

end

theorem IsFirst.append {κ : Type} {p : κ → Prop} {keys : List κ} {k : κ} (first : IsFirst p keys k)
    (more : List κ) : IsFirst p (keys ++ more) k := by
  obtain ⟨front, back, rfl, found, before⟩ := first
  exact ⟨front, back ++ more, by simp, found, before⟩

section
variable {α κ : Type} {p q : κ → Prop} {key k : κ} {keys : List κ}

theorem isFirst_cons_of_not (not : ¬ p key) : IsFirst p (key :: keys) k ↔ IsFirst p keys k := by
  constructor
  · rintro ⟨front, back, same, found, before⟩
    cases front with
    | nil =>
      cases same
      exact absurd found not
    | cons first front =>
      cases same
      exact ⟨front, back, rfl, found, fun earlier member => before earlier (List.mem_cons_of_mem _ member)⟩
  · rintro ⟨front, back, rfl, found, before⟩
    exact ⟨key :: front, back, rfl, found, List.forall_mem_cons.mpr ⟨not, before⟩⟩

theorem isFirst_congr (same : ∀ k ∈ keys, p k ↔ q k) : IsFirst p keys k ↔ IsFirst q keys k := by
  constructor
  · rintro ⟨front, back, rfl, found, before⟩
    refine ⟨front, back, rfl, (same k (by simp)).mp found, fun earlier member => ?_⟩
    exact fun holds => before earlier member ((same earlier (List.mem_append_left _ member)).mpr holds)
  · rintro ⟨front, back, rfl, found, before⟩
    refine ⟨front, back, rfl, (same k (by simp)).mpr found, fun earlier member => ?_⟩
    exact fun holds => before earlier member ((same earlier (List.mem_append_left _ member)).mp holds)

theorem isFirst_map {f : α → κ} {as : List α} :
    IsFirst p (as.map f) k ↔ ∃ a, k = f a ∧ IsFirst (fun a => p (f a)) as a := by
  constructor
  · rintro ⟨front, back, same, found, before⟩
    obtain ⟨front', rest, rfl, rfl, same'⟩ := List.map_eq_append_iff.mp same
    obtain ⟨a, back', rfl, rfl, rfl⟩ := List.map_eq_cons_iff.mp same'
    exact ⟨a, rfl, front', back', rfl, found, fun earlier member => before _ (List.mem_map_of_mem member)⟩
  · rintro ⟨a, rfl, front, back, rfl, found, before⟩
    exact ⟨front.map f, back.map f, by simp, found, List.forall_mem_map.mpr before⟩

theorem isFirst_iff_find? {p : κ → Bool} : IsFirst (fun k => p k = true) keys k ↔ keys.find? p = some k := by
  rw [List.find?_eq_some_iff_append]
  constructor
  · rintro ⟨front, back, same, found, before⟩
    exact ⟨found, front, back, same, fun earlier member => by simpa using before earlier member⟩
  · rintro ⟨found, front, back, same, before⟩
    exact ⟨front, back, same, found, fun earlier member => by simpa using before earlier member⟩

end

/-- A party under way. -/
structure Party (κ : Type) where
  behind : List κ
  ahead : List κ

structure Holdings (κ : Type) where
  settled : κ → Prop
  parties : Nat → Option (Party κ)

namespace Holdings
variable {κ : Type} {s s' : Holdings κ} {i j : Nat} {k : κ}

def Holds (s : Holdings κ) (i : Nat) (k : κ) : Prop :=
  ∃ p, s.parties i = some p ∧ k ∈ p.behind ∧ ¬ s.settled k

def WaitsFor (s : Holdings κ) (i j : Nat) : Prop :=
  i ≠ j ∧ ∃ behind k rest, s.parties i = some ⟨behind, k :: rest⟩ ∧ s.Holds j k

def set (s : Holdings κ) (i : Nat) (p : Option (Party κ)) : Holdings κ :=
  { s with parties := Function.update s.parties i p }

/-- Party `i` takes its next key, which no other party holds. -/
inductive Take (s : Holdings κ) (i : Nat) : Holdings κ → Prop where
  | next {behind : List κ} {k : κ} {rest : List κ} (here : s.parties i = some ⟨behind, k :: rest⟩)
      (free : ∀ j, j ≠ i → ¬ s.Holds j k) : Take s i (s.set i (some ⟨behind ++ [k], rest⟩))

inductive Step : Holdings κ → Holdings κ → Prop where
  | take {s s' : Holdings κ} {i : Nat} (taken : s.Take i s') : Step s s'
  | finish {s : Holdings κ} {i : Nat} {behind : List κ} (here : s.parties i = some ⟨behind, []⟩) :
      Step s { s.set i none with settled := fun k => s.settled k ∨ k ∈ behind }
  | fail (s : Holdings κ) (i : Nat) : Step s (s.set i none)

abbrev Reach : Holdings κ → Holdings κ → Prop := Relation.ReflTransGen Step

/-- Every party `i` starts with all of `keys i` ahead. -/
def start (settled : κ → Prop) (keys : Nat → List κ) : Holdings κ :=
  { settled := settled, parties := fun i => some ⟨[], keys i⟩ }

@[simp] theorem set_parties_self {p : Option (Party κ)} : (s.set i p).parties i = p :=
  Function.update_self ..

theorem set_parties_of_ne {p : Option (Party κ)} (other : j ≠ i) : (s.set i p).parties j = s.parties j :=
  Function.update_of_ne other ..

@[simp] theorem set_settled {p : Option (Party κ)} : (s.set i p).settled = s.settled := rfl

theorem holds_set_of_ne {p : Option (Party κ)} (other : j ≠ i) : (s.set i p).Holds j k ↔ s.Holds j k := by
  unfold Holds
  rw [set_parties_of_ne other, set_settled]

theorem holds_set_self {p : Party κ} : (s.set i (some p)).Holds i k ↔ k ∈ p.behind ∧ ¬ s.settled k := by
  unfold Holds
  rw [set_parties_self, set_settled]
  simp

theorem Take.unique {s'' : Holdings κ} (first : s.Take i s') (second : s.Take i s'') : s' = s'' := by
  obtain ⟨here, _⟩ := first
  obtain ⟨here', _⟩ := second
  rw [here] at here'
  cases here'
  rfl

/-- What holds in every run: a party goes through its list, no key is kept by two, and a key is settled
by a party that ended. -/
structure Sound (settled : κ → Prop) (keys : Nat → List κ) (s : Holdings κ) : Prop where
  split : ∀ {i p}, s.parties i = some p → p.behind ++ p.ahead = keys i
  exclusive : ∀ {i j k}, s.Holds i k → s.Holds j k → i = j
  kept : ∀ k, settled k → s.settled k
  gained : ∀ k, s.settled k → settled k ∨ ∃ i, s.parties i = none ∧ k ∈ keys i

variable {settled : κ → Prop} {keys : Nat → List κ}

theorem Sound.start : Sound settled keys (start settled keys) where
  split := by
    rintro i p ⟨⟩
    rfl
  exclusive := by
    rintro i j k ⟨p, ⟨⟩, member, _⟩
    cases member
  kept _ old := old
  gained _ old := .inl old

/-- Only what party `i` holds after the change has to be checked. -/
theorem Sound.exclusive_set (h : Sound settled keys s) {p : Option (Party κ)}
    (apart : ∀ j k, j ≠ i → (s.set i p).Holds i k → ¬ s.Holds j k) {a b : Nat}
    (left : (s.set i p).Holds a k) (right : (s.set i p).Holds b k) : a = b := by
  by_cases first : a = i
  · subst first
    by_contra different
    have other : b ≠ a := fun same => different same.symm
    exact apart b k other left ((holds_set_of_ne other).mp right)
  · by_cases second : b = i
    · subst second
      exact absurd ((holds_set_of_ne first).mp left) (apart a k first right)
    · exact h.exclusive ((holds_set_of_ne first).mp left) ((holds_set_of_ne second).mp right)

theorem Sound.take (h : Sound settled keys s) {behind rest : List κ}
    (here : s.parties i = some ⟨behind, k :: rest⟩) (free : ∀ j, j ≠ i → ¬ s.Holds j k) :
    Sound settled keys (s.set i (some ⟨behind ++ [k], rest⟩)) where
  split := by
    intro j p found
    by_cases same : j = i
    · subst same
      rw [set_parties_self] at found
      cases found
      simpa using h.split here
    · rw [set_parties_of_ne same] at found
      exact h.split found
  exclusive := by
    refine h.exclusive_set fun j k' other held => ?_
    obtain ⟨member, unsettled⟩ := holds_set_self.mp held
    rcases List.mem_append.mp member with old | new
    · exact fun held' => other (h.exclusive held' ⟨_, here, old, unsettled⟩)
    · rw [List.mem_singleton.mp new]
      exact free j other
  kept := h.kept
  gained := by
    intro k' found
    rcases h.gained k' found with old | ⟨j, ended, member⟩
    · exact .inl old
    · refine .inr ⟨j, ?_, member⟩
      have other : j ≠ i := by
        rintro rfl
        rw [here] at ended
        cases ended
      rwa [set_parties_of_ne other]

theorem Sound.fail (h : Sound settled keys s) (i : Nat) : Sound settled keys (s.set i none) where
  split := by
    intro j p found
    by_cases same : j = i
    · subst same
      rw [set_parties_self] at found
      cases found
    · rw [set_parties_of_ne same] at found
      exact h.split found
  exclusive := by
    refine h.exclusive_set fun j k' other held => ?_
    obtain ⟨p, found, _⟩ := held
    rw [set_parties_self] at found
    cases found
  kept := h.kept
  gained := by
    intro k' found
    rcases h.gained k' found with old | ⟨j, ended, member⟩
    · exact .inl old
    · refine .inr ⟨j, ?_, member⟩
      by_cases same : j = i
      · rw [same, set_parties_self]
      · rwa [set_parties_of_ne same]

/-- More settled keys are held by fewer. -/
theorem Sound.settle (h : Sound settled keys s) {more : κ → Prop}
    (ended : ∀ k, more k → ∃ i, s.parties i = none ∧ k ∈ keys i) :
    Sound settled keys { s with settled := fun k => s.settled k ∨ more k } where
  split := h.split
  exclusive := by
    rintro i j k ⟨p, found, member, unsettled⟩ ⟨p', found', member', _⟩
    have open_ : ¬ s.settled k := fun old => unsettled (.inl old)
    exact h.exclusive ⟨p, found, member, open_⟩ ⟨p', found', member', open_⟩
  kept k old := .inl (h.kept k old)
  gained := by
    rintro k (old | new)
    · exact h.gained k old
    · exact .inr (ended k new)

theorem Sound.step (h : Sound settled keys s) (step : Step s s') : Sound settled keys s' := by
  cases step with
  | take taken =>
    obtain ⟨here, free⟩ := taken
    exact h.take here free
  | @finish i behind here =>
    refine (h.fail i).settle fun k member => ⟨i, set_parties_self, ?_⟩
    rw [← h.split here]
    exact List.mem_append_left _ member
  | fail i => exact h.fail i

theorem Reach.sound (run : Reach (start settled keys) s) : Sound settled keys s := by
  induction run with
  | refl => exact .start
  | tail _ last ih => exact ih.step last

/-- A key of both lists that is not settled from the start. -/
def Contested (settled : κ → Prop) (keys : Nat → List κ) (i j : Nat) (k : κ) : Prop :=
  k ∈ keys i ∧ k ∈ keys j ∧ ¬ settled k

theorem Contested.symm {k : κ} (contested : Contested settled keys i j k) : Contested settled keys j i k :=
  ⟨contested.2.1, contested.1, contested.2.2⟩

/-- While no key but those settled from the start is settled, a party has taken the first of its
contested keys when another waits for one of them. -/
theorem Sound.first_contested (h : Sound settled keys s) (fresh : ∀ k, s.settled k → settled k)
    {p : Party κ} (here : s.parties i = some p) (held : s.Holds i k) (wanted : k ∈ keys j) :
    ∃ f, IsFirst (Contested settled keys i j) (keys i) f ∧ s.Holds i f := by
  obtain ⟨p', found, member, unsettled⟩ := held
  rw [here] at found
  cases found
  have listed : ∀ k ∈ p.behind, k ∈ keys i := fun k behind => h.split here ▸ List.mem_append_left _ behind
  have open_ : ¬ settled k := fun old => unsettled (h.kept k old)
  obtain ⟨f, first⟩ := exists_isFirst (p := Contested settled keys i j)
    ⟨k, member, listed k member, wanted, open_⟩
  have whole := first.append p.ahead
  rw [h.split here] at whole
  obtain ⟨front, back, same, ⟨_, _, free⟩, _⟩ := first
  exact ⟨f, whole, p, here, by rw [same]; simp, fun now => free (fresh f now)⟩

theorem Sound.waits_first (h : Sound settled keys s) (fresh : ∀ k, s.settled k → settled k)
    (forward : s.WaitsFor i j) (backward : s.WaitsFor j i) :
    ∃ f g, f ≠ g ∧ IsFirst (Contested settled keys i j) (keys i) f ∧
      IsFirst (Contested settled keys j i) (keys j) g := by
  obtain ⟨different, behind, k, rest, here, held⟩ := forward
  obtain ⟨_, behind', k', rest', here', held'⟩ := backward
  have wanted : k ∈ keys i := by
    rw [← h.split here]
    simp
  have wanted' : k' ∈ keys j := by
    rw [← h.split here']
    simp
  obtain ⟨f, first, holds⟩ := h.first_contested fresh here held' wanted'
  obtain ⟨g, first', holds'⟩ := h.first_contested fresh here' held wanted
  refine ⟨f, g, ?_, first, first'⟩
  rintro rfl
  exact different (h.exclusive holds holds')

/-! ### How two parties come to wait for each other -/

/-- Runs in which only the parties `i` and `j` move, and only take keys. -/
abbrev Takes (i j : Nat) : Holdings κ → Holdings κ → Prop :=
  Relation.ReflTransGen fun s s' => s.Take i s' ∨ s.Take j s'

theorem take_all {behind front rest : List κ} (here : s.parties i = some ⟨behind, front ++ rest⟩)
    (free : ∀ k ∈ front, ∀ j, j ≠ i → ¬ s.Holds j k) :
    Relation.ReflTransGen (fun s s' => s.Take i s') s (s.set i (some ⟨behind ++ front, rest⟩)) := by
  induction front generalizing s behind with
  | nil =>
    have same : s.set i (some ⟨behind ++ [], rest⟩) = s := by
      unfold set
      rw [List.append_nil, ← List.nil_append rest, ← here, Function.update_eq_self]
    rw [same]
  | cons k front ih =>
    obtain ⟨now, later⟩ := List.forall_mem_cons.mp free
    have taken : s.Take i (s.set i (some ⟨behind ++ [k], front ++ rest⟩)) := .next here now
    have more := @ih (s.set i (some ⟨behind ++ [k], front ++ rest⟩)) (behind ++ [k]) set_parties_self
      fun k' member j other held => later k' member j other ((holds_set_of_ne other).mp held)
    have same : (s.set i (some ⟨behind ++ [k], front ++ rest⟩)).set i (some ⟨behind ++ [k] ++ front, rest⟩) =
        s.set i (some ⟨behind ++ k :: front, rest⟩) := by
      unfold set
      rw [Function.update_idem, List.append_assoc]
      rfl
    rw [same] at more
    exact .head taken more

theorem Takes.of_left {s s' : Holdings κ} (run : Relation.ReflTransGen (fun s s' => s.Take i s') s s') :
    Takes i j s s' := Relation.ReflTransGen.mono (fun _ _ => Or.inl) _ _ run

theorem Takes.of_right {s s' : Holdings κ} (run : Relation.ReflTransGen (fun s s' => s.Take j s') s s') :
    Takes i j s s' := Relation.ReflTransGen.mono (fun _ _ => Or.inr) _ _ run

/-- Where only party `j` holds anything else, party `i` goes on to the first key that `j` holds. -/
theorem take_until {behind ahead : List κ} (here : s.parties i = some ⟨behind, ahead⟩)
    (only : ∀ l k, l ≠ i → s.Holds l k → l = j) (blocked : ∃ k ∈ ahead, s.Holds j k) :
    ∃ front k rest, s.Holds j k ∧ Relation.ReflTransGen (fun s s' => s.Take i s') s
      (s.set i (some ⟨behind ++ front, k :: rest⟩)) := by
  obtain ⟨k, front, rest, rfl, held, free⟩ := exists_isFirst blocked
  refine ⟨front, k, rest, held, take_all here fun k' member l other taken => ?_⟩
  exact free k' member (only l k' other taken ▸ taken)

/-- Two parties whose first contested keys differ can take these keys and then wait for each other. -/
theorem wait_reachable (different : i ≠ j) {f g : κ} (apart : f ≠ g)
    (first : IsFirst (Contested settled keys i j) (keys i) f)
    (second : IsFirst (Contested settled keys j i) (keys j) g) :
    ∃ s, Takes i j (start settled keys) s ∧ s.WaitsFor i j ∧ s.WaitsFor j i := by
  obtain ⟨front, back, list, contested, before⟩ := first
  obtain ⟨front', back', list', contested', before'⟩ := second
  have other : j ≠ i := different.symm
  -- party `i` takes its keys up to `f`, which nobody holds yet
  have begun : (start settled keys).parties i = some ⟨[], (front ++ [f]) ++ back⟩ := by simp [start, list]
  have idle : ∀ l k, ¬ (start settled keys).Holds l k := by
    rintro l k ⟨p, ⟨⟩, member, _⟩
    cases member
  have run₁ := take_all begun fun k _ l _ => idle l k
  rw [List.nil_append] at run₁
  let s₁ := (start settled keys).set i (some ⟨front ++ [f], back⟩)
  have holds₁ : ∀ l k, s₁.Holds l k → l = i ∧ k ∈ front ++ [f] := by
    intro l k held
    by_cases same : l = i
    · subst same
      exact ⟨rfl, (holds_set_self.mp held).1⟩
    · exact absurd ((holds_set_of_ne same).mp held) (idle l k)
  -- party `j` takes its keys up to `g`; what it meets on the way `i` does not hold
  have begun' : s₁.parties j = some ⟨[], (front' ++ [g]) ++ back'⟩ := by
    rw [set_parties_of_ne other]
    simp [start, list']
  have listed : ∀ k ∈ front ++ [f], k ∈ keys i := fun k member => by
    rw [list, List.append_cons]
    exact List.mem_append_left _ member
  have listed' : ∀ k ∈ front' ++ [g], k ∈ keys j := fun k member => by
    rw [list', List.append_cons]
    exact List.mem_append_left _ member
  have free₁ : ∀ k ∈ front' ++ [g], ∀ l, l ≠ j → ¬ s₁.Holds l k := by
    intro k member l _ held
    obtain ⟨rfl, mine⟩ := holds₁ l k held
    have both : Contested settled keys l j k := ⟨listed k mine, listed' k member, (holds_set_self.mp held).2⟩
    have isFirst : k = f := eq_first before mine both
    have isSecond : k = g := eq_first before' member both.symm
    exact apart (isFirst ▸ isSecond)
  have run₂ := take_all begun' free₁
  rw [List.nil_append] at run₂
  let s₂ := s₁.set j (some ⟨front' ++ [g], back'⟩)
  -- party `i` goes on to a key of party `j`, which it meets at `g` at the latest
  have here₂ : s₂.parties i = some ⟨front ++ [f], back⟩ := by
    rw [set_parties_of_ne different, set_parties_self]
  have held₂ : ∀ k ∈ front' ++ [g], ¬ settled k → s₂.Holds j k := fun k member open_ =>
    holds_set_self.mpr ⟨member, open_⟩
  have only₂ : ∀ l k, l ≠ i → s₂.Holds l k → l = j := by
    intro l k outside held
    by_contra neither
    exact outside (holds₁ l k ((holds_set_of_ne neither).mp held)).1
  have blocked : ∃ k ∈ back, s₂.Holds j k := by
    have ⟨_, member, unsettled⟩ := contested'
    exact ⟨g, mem_after_first before (list ▸ member) contested'.symm apart.symm, held₂ g (by simp) unsettled⟩
  obtain ⟨more, k, rest, heldK, run₃⟩ := take_until here₂ only₂ blocked
  let s₃ := s₂.set i (some ⟨front ++ [f] ++ more, k :: rest⟩)
  -- party `j` goes on to a key of party `i`, which it meets at `f` at the latest
  have here₃ : s₃.parties j = some ⟨front' ++ [g], back'⟩ := by
    rw [set_parties_of_ne other, set_parties_self]
  have only₃ : ∀ l k, l ≠ j → s₃.Holds l k → l = i := by
    intro l k outside held
    by_contra neither
    exact outside (only₂ l k neither ((holds_set_of_ne neither).mp held))
  have blocked' : ∃ k ∈ back', s₃.Holds i k := by
    have ⟨_, member, unsettled⟩ := contested
    exact ⟨f, mem_after_first before' (list' ▸ member) contested.symm apart, holds_set_self.mpr ⟨by simp, unsettled⟩⟩
  obtain ⟨more', k', rest', heldK', run₄⟩ := take_until here₃ only₃ blocked'
  let s₄ := s₃.set j (some ⟨front' ++ [g] ++ more', k' :: rest'⟩)
  refine ⟨s₄, ((Takes.of_left run₁).trans (Takes.of_right run₂)).trans
      ((Takes.of_left run₃).trans (Takes.of_right run₄)),
    ⟨different, front ++ [f] ++ more, k, rest, ?_, ?_⟩, ⟨other, front' ++ [g] ++ more', k', rest', ?_, ?_⟩⟩
  · rw [set_parties_of_ne different, set_parties_self]
  · obtain ⟨member, open_⟩ := holds_set_self.mp heldK
    exact holds_set_self.mpr ⟨List.mem_append_left _ member, open_⟩
  · exact set_parties_self
  · exact (holds_set_of_ne different).mpr heldK'

end Holdings

end Transactional
