import RealWorld.Transactional.Program

/-!
# Interleaved programs

Any number of programs share one store. A program may arrive at any time, and the pending
operation of any active program may execute next, so a `Trace` is one interleaving at the
granularity of single operations.
-/

namespace Transactional

variable {Op : Type} {Res : Op → Type} {ε α σ W : Type}

/-- The shared store and the programs that have arrived, each identified by its position. -/
structure Config (Op : Type) (Res : Op → Type) (ε α σ : Type) where
  store : σ
  active : List (Prog Op Res ε α)

/-- One executed operation: who issued it, the store it met, its answer and the store it left. -/
structure Event (Op : Type) (Res : Op → Type) (σ : Type) where
  client : Nat
  op : Op
  before : σ
  answer : Res op
  after : σ

/-- `Trace sem Start c es c'`: from `c` to `c'` exactly the operations `es` were executed, in
this order, and every program that arrived meanwhile satisfies `Start`. -/
inductive Trace (sem : (op : Op) → W → σ → Res op × σ) (Start : Prog Op Res ε α → Prop) :
    Config Op Res ε α σ → List (Event Op Res σ) → Config Op Res ε α σ → Prop where
  | refl (c : Config Op Res ε α σ) : Trace sem Start c [] c
  | arrive {c c' : Config Op Res ε α σ} {es : List (Event Op Res σ)} (p : Prog Op Res ε α)
      (started : Start p) (rest : Trace sem Start ⟨c.store, c.active ++ [p]⟩ es c') :
      Trace sem Start c es c'
  | exec {c c' : Config Op Res ε α σ} {es : List (Event Op Res σ)} {i : Nat} {op : Op}
      {next : Res op → Prog Op Res ε α} {r : Res op} {s : σ} (w : W)
      (pending : c.active[i]? = some (.exec op next)) (result : sem op w c.store = (r, s))
      (rest : Trace sem Start ⟨s, c.active.set i (next r)⟩ es c') :
      Trace sem Start c (⟨i, op, c.store, r, s⟩ :: es) c'

variable {sem : (op : Op) → W → σ → Res op × σ} {Start : Prog Op Res ε α → Prop}
  {c c' c'' : Config Op Res ε α σ} {es es' : List (Event Op Res σ)}

theorem Trace.append (first : Trace sem Start c es c') (second : Trace sem Start c' es' c'') :
    Trace sem Start c (es ++ es') c'' := by
  induction first with
  | refl => exact second
  | arrive p started _ ih => exact .arrive p started (ih second)
  | exec w pending result _ ih => exact .exec w pending result (ih second)

/-! ### Invariants of every interleaving -/

/-- An invariant of the allowed operations holds before and after every event, and at the end,
whatever the interleaving. -/
theorem Trace.invariant {allowed : Op → Prop} {inv : σ → Prop}
    (step : ∀ op w s, allowed op → inv s → inv (sem op w s).2)
    (issued : ∀ p, Start p → p.All allowed) (h : Trace sem Start c es c')
    (active : ∀ p ∈ c.active, p.All allowed) (start : inv c.store) :
    inv c'.store ∧ (∀ p ∈ c'.active, p.All allowed) ∧
      ∀ e ∈ es, allowed e.op ∧ inv e.before ∧ inv e.after := by
  induction h with
  | refl c => exact ⟨start, active, by simp⟩
  | arrive p started _ ih =>
    refine ih (fun q member => ?_) start
    rcases List.mem_append.mp member with old | fresh
    · exact active q old
    · rw [List.mem_singleton.mp fresh]
      exact issued p started
  | @exec c _ _ i op next r s w pending result _ ih =>
    have current := active _ (List.mem_of_getElem? pending)
    have kept : inv s := by
      have moved := step op w c.store current.1 start
      rwa [result] at moved
    obtain ⟨final, still, events⟩ := ih (fun q member => by
      rcases List.mem_or_eq_of_mem_set member with old | rfl
      · exact active q old
      · exact current.2 r) kept
    refine ⟨final, still, fun e member => ?_⟩
    rcases List.mem_cons.mp member with rfl | later
    · exact ⟨current.1, start, kept⟩
    · exact events e later

/-- What every operation that was executed keeps holds at the end. -/
theorem Trace.kept (h : Trace sem Start c es c') (inv : σ → Prop) {allowed : Op → Prop}
    (step : ∀ op w s, allowed op → inv s → inv (sem op w s).2) (executed : ∀ e ∈ es, allowed e.op) (start : inv c.store) :
    inv c'.store := by
  induction h with
  | refl c => exact start
  | arrive _ _ _ ih => exact ih executed start
  | @exec c _ _ _ op _ _ _ w _ result _ ih =>
    obtain ⟨first, later⟩ := List.forall_mem_cons.mp executed
    have next := step op w c.store first start
    rw [result] at next
    exact ih later next

/-! ### One client inside an interleaving -/

/-- The events of one client drive its own program: `Follows sem i p es p'` replays them. -/
inductive Follows (sem : (op : Op) → W → σ → Res op × σ) (i : Nat) :
    Prog Op Res ε α → List (Event Op Res σ) → Prog Op Res ε α → Prop where
  | refl (p : Prog Op Res ε α) : Follows sem i p [] p
  | exec {op : Op} {next : Res op → Prog Op Res ε α} {p' : Prog Op Res ε α}
      {es : List (Event Op Res σ)} {r : Res op} {s s' : σ} (w : W)
      (result : sem op w s = (r, s')) (rest : Follows sem i (next r) es p') :
      Follows sem i (.exec op next) (⟨i, op, s, r, s'⟩ :: es) p'

theorem Trace.follows (h : Trace sem Start c es c') {i : Nat} {p : Prog Op Res ε α}
    (here : c.active[i]? = some p) :
    ∃ p', c'.active[i]? = some p' ∧
      Follows sem i p (es.filter fun e => e.client = i) p' := by
  induction h generalizing p with
  | refl c => exact ⟨p, here, .refl p⟩
  | arrive q _ _ ih =>
    refine ih ?_
    rw [List.getElem?_append_left (List.getElem?_eq_some_iff.mp here).1]
    exact here
  | @exec c _ es j op next r s w pending result _ ih =>
    have bound := (List.getElem?_eq_some_iff.mp here).1
    by_cases same : j = i
    · subst same
      obtain rfl := Option.some.inj (here.symm.trans pending)
      obtain ⟨p', there, follows⟩ := ih (p := next r) (by simp [bound])
      refine ⟨p', there, ?_⟩
      rw [List.filter_cons_of_pos (by simp)]
      exact .exec w result follows
    · obtain ⟨p', there, follows⟩ := ih (p := p) (by simpa [List.getElem?_set_ne same] using here)
      refine ⟨p', there, ?_⟩
      rw [List.filter_cons_of_neg (by simpa using same)]
      exact follows

section
variable {i : Nat} {p p' : Prog Op Res ε α}

theorem Follows.of_pure {a : α} (h : Follows sem i (.pure a) es p') : es = [] ∧ p' = .pure a := by
  cases h with
  | refl => exact ⟨rfl, rfl⟩

theorem Follows.of_throw {e : ε} (h : Follows sem i (.throw e) es p') : es = [] ∧ p' = .throw e := by
  cases h with
  | refl => exact ⟨rfl, rfl⟩

/-- A pending operation still waits, or it was executed first. -/
theorem Follows.of_exec {op : Op} {next : Res op → Prog Op Res ε α}
    (h : Follows sem i (.exec op next) es p') :
    (es = [] ∧ p' = .exec op next) ∨
      ∃ w s r s' rest, sem op w s = (r, s') ∧ es = ⟨i, op, s, r, s'⟩ :: rest ∧
        Follows sem i (next r) rest p' := by
  cases h with
  | refl => exact .inl ⟨rfl, rfl⟩
  | exec w result rest => exact .inr ⟨w, _, _, _, _, result, rfl, rest⟩

theorem Follows.issued {allowed : Op → Prop} (h : Follows sem i p es p') (issued : p.All allowed) :
    ∀ e ∈ es, e.client = i ∧ allowed e.op := by
  induction h with
  | refl p => nofun
  | exec w result _ ih =>
    intro e member
    rcases List.mem_cons.mp member with rfl | later
    · exact ⟨rfl, issued.1⟩
    · exact ih (issued.2 _) e later

end

/-! ### The store between two events -/

/-- Each event meets the store its predecessor left. -/
def Chained : σ → List (Event Op Res σ) → Prop
  | _, [] => True
  | s, e :: es => e.before = s ∧ Chained e.after es

theorem Trace.chained (h : Trace sem Start c es c') : Chained c.store es := by
  induction h with
  | refl => trivial
  | arrive _ _ _ ih => exact ih
  | exec _ _ _ _ ih => exact ⟨rfl, ih⟩

theorem Chained.after {s : σ} {front rest : List (Event Op Res σ)} {e : Event Op Res σ}
    (h : Chained s (front ++ e :: rest)) : Chained e.after rest := by
  induction front generalizing s with
  | nil => exact h.2
  | cons d front ih => exact ih h.2

/-- What held at one moment and no longer holds when `f` executes was ended by an event between. -/
theorem Chained.ended {s : σ} {between rest : List (Event Op Res σ)} {f : Event Op Res σ}
    (h : Chained s (between ++ f :: rest)) {held : σ → Prop} (start : held s)
    (lost : ¬ held f.before) : ∃ d ∈ between, held d.before ∧ ¬ held d.after := by
  induction between generalizing s with
  | nil => exact absurd (h.1 ▸ start) lost
  | cons d between ih =>
    obtain ⟨before, rest⟩ := h
    by_cases kept : held d.after
    · obtain ⟨d', member, change⟩ := ih rest kept
      exact ⟨d', List.mem_cons_of_mem d member, change⟩
    · exact ⟨d, List.mem_cons_self, before ▸ start, kept⟩

theorem exists_between {α : Type} {l : List α} {x y : α} (ordered : [x, y].Sublist l) :
    ∃ front between rest, l = front ++ x :: (between ++ y :: rest) := by
  obtain ⟨l₁, l₂, rfl, first, second⟩ := List.cons_sublist_iff.mp ordered
  obtain ⟨front, between₁, rfl⟩ := List.append_of_mem first
  obtain ⟨between₂, rest, rfl⟩ := List.append_of_mem (List.singleton_sublist.mp second)
  exact ⟨front, between₁ ++ between₂, rest, by simp⟩

theorem Trace.ended_between (h : Trace sem Start c es c') {x y : Event Op Res σ}
    (ordered : [x, y].Sublist es) {held : σ → Prop} (start : held x.after) (lost : ¬ held y.before) :
    ∃ front between rest, es = front ++ x :: (between ++ y :: rest) ∧
      ∃ d ∈ between, held d.before ∧ ¬ held d.after := by
  obtain ⟨front, between, rest, rfl⟩ := exists_between ordered
  exact ⟨front, between, rest, rfl, h.chained.after.ended start lost⟩

theorem Trace.executed (h : Trace sem Start c es c') :
    ∀ e ∈ es, ∃ w, sem e.op w e.before = (e.answer, e.after) := by
  induction h with
  | refl c => nofun
  | arrive _ _ _ ih => exact ih
  | exec w _ result _ ih =>
    intro e member
    rcases List.mem_cons.mp member with rfl | later
    · exact ⟨w, result⟩
    · exact ih e later

/-- The events before the first one of client `i`. -/
def eventsUntil (i : Nat) (es : List (Event Op Res σ)) : List (Event Op Res σ) := es.takeWhile fun e => e.client ≠ i

/-- The events after the last one of client `i`. -/
def eventsSince (i : Nat) (es : List (Event Op Res σ)) : List (Event Op Res σ) := (eventsUntil i es.reverse).reverse

theorem split_until {i : Nat} {e : Event Op Res σ} {own : List (Event Op Res σ)}
    (first : es.filter (fun e => e.client = i) = e :: own) : ∃ rest, es = eventsUntil i es ++ e :: rest := by
  induction es with
  | nil => cases first
  | cons d es ih =>
    unfold eventsUntil
    by_cases mine : d.client = i
    · rw [List.filter_cons_of_pos (by simpa using mine)] at first
      rw [List.takeWhile_cons_of_neg (by simpa using mine), (List.cons.inj first).1]
      exact ⟨es, rfl⟩
    · rw [List.filter_cons_of_neg (by simpa using mine)] at first
      obtain ⟨rest, split⟩ := ih first
      rw [List.takeWhile_cons_of_pos (by simpa using mine)]
      exact ⟨rest, congrArg (d :: ·) split⟩

theorem split_since {i : Nat} {e : Event Op Res σ} {own : List (Event Op Res σ)}
    (last : es.filter (fun e => e.client = i) = own ++ [e]) : ∃ front, es = front ++ e :: eventsSince i es := by
  have first : es.reverse.filter (fun e => e.client = i) = e :: own.reverse := by
    rw [List.filter_reverse, last, List.reverse_concat]
  obtain ⟨rest, split⟩ := split_until first
  refine ⟨rest.reverse, ?_⟩
  calc es = (eventsUntil i es.reverse ++ e :: rest).reverse := by rw [← split, List.reverse_reverse]
    _ = rest.reverse ++ e :: eventsSince i es := by
      rw [List.reverse_append, List.reverse_cons, List.append_assoc, List.singleton_append]
      rfl

/-- What held after the last event of client `i` and no longer holds at the first one of client `j` was ended by
an event between the two. -/
theorem Trace.ended_since {es' own own' : List (Event Op Res σ)} (h : Trace sem Start c (es ++ es') c') {i j : Nat}
    {e f : Event Op Res σ} (last : es.filter (fun e => e.client = i) = own ++ [e])
    (first : es'.filter (fun e => e.client = j) = f :: own') {held : σ → Prop} (start : held e.after)
    (lost : ¬ held f.before) :
    ∃ d ∈ eventsSince i es ++ eventsUntil j es', d ∈ es ++ es' ∧ held d.before ∧ ¬ held d.after := by
  obtain ⟨front, since⟩ := split_since last
  obtain ⟨rest, til⟩ := split_until first
  have joined : es ++ es' = front ++ e :: (eventsSince i es ++ eventsUntil j es' ++ f :: rest) := by
    rw [List.append_assoc, ← til, ← List.cons_append, ← List.append_assoc, ← since]
  obtain ⟨d, between, held, gone⟩ := (joined ▸ h.chained).after.ended start lost
  refine ⟨d, between, ?_, held, gone⟩
  rw [joined]
  exact List.mem_append_right _ (List.mem_cons_of_mem _ (List.mem_append_left _ between))

/-! ### Running alone is one of the interleavings -/

theorem Trace.runAlone {p : Prog Op Res ε α} (ws : Nat → W) {others : List (Prog Op Res ε α)}
    (s : σ) : ∃ es p', Trace sem Start ⟨s, others ++ [p]⟩ es ⟨(p.run sem ws s).2, others ++ [p']⟩ := by
  induction p generalizing ws s with
  | pure a => exact ⟨[], .pure a, .refl _⟩
  | throw e => exact ⟨[], .throw e, .refl _⟩
  | exec op next ih =>
    obtain ⟨es, p', rest⟩ := ih (sem op (ws 0) s).1 (fun n => ws (n + 1)) (sem op (ws 0) s).2
    have pending : (others ++ [Prog.exec op next])[others.length]? = some (.exec op next) := by simp
    exact ⟨_ :: es, p', .exec (ws 0) pending rfl (by simpa [Prog.run] using rest)⟩

/-- A program arrives and runs to its end before anything else happens. -/
theorem Trace.serve {p : Prog Op Res ε α} (started : Start p) (ws : Nat → W) :
    ∃ es p', Trace sem Start c es ⟨(p.run sem ws c.store).2, c.active ++ [p']⟩ := by
  obtain ⟨es, p', rest⟩ := Trace.runAlone ws c.store
  exact ⟨es, p', .arrive p started rest⟩

/-! ### Schedules -/

def Config.outcome (c : Config Op Res ε α σ) (i : Nat) : Option (Except ε α) :=
  match c.active[i]? with
  | some (.pure a) => some (.ok a)
  | some (.throw e) => some (.error e)
  | _ => none

theorem Config.outcome_ok {i : Nat} {a : α} :
    c.outcome i = some (.ok a) ↔ c.active[i]? = some (.pure a) := by
  unfold Config.outcome
  match c.active[i]? with
  | some (.pure b) => simp
  | some (.throw e) => simp
  | some (.exec op next) => simp
  | none => simp

theorem Config.outcome_error {i : Nat} {e : ε} :
    c.outcome i = some (.error e) ↔ c.active[i]? = some (.throw e) := by
  unfold Config.outcome
  match c.active[i]? with
  | some (.pure a) => simp
  | some (.throw e') => simp
  | some (.exec op next) => simp
  | none => simp

theorem Config.ended_of_outcome {i : Nat} {r : Except ε α} {p : Prog Op Res ε α} (ended : c.outcome i = some r)
    (here : c.active[i]? = some p) : (∃ a, p = .pure a) ∨ ∃ e, p = .throw e := by
  cases r with
  | ok a => exact .inl ⟨a, Option.some.inj (here.symm.trans (Config.outcome_ok.mp ended))⟩
  | error e => exact .inr ⟨e, Option.some.inj (here.symm.trans (Config.outcome_error.mp ended))⟩

/-- One choice of a scheduler: the next request arrives, or a client executes its operation. -/
inductive Move (κ W : Type) where
  | arrive (request : κ)
  | exec (client : Nat) (w : W)

section
variable {κ : Type} (sem : (op : Op) → W → σ → Res op × σ) (start : κ → Prog Op Res ε α)

/-- A client without a pending operation does nothing. -/
def Config.perform (c : Config Op Res ε α σ) : List (Move κ W) →
    List (Event Op Res σ) × Config Op Res ε α σ
  | [] => ([], c)
  | .arrive request :: moves => Config.perform ⟨c.store, c.active ++ [start request]⟩ moves
  | .exec i w :: moves =>
    match c.active[i]? with
    | some (.exec op next) =>
      let result := sem op w c.store
      let rest := Config.perform ⟨result.2, c.active.set i (next result.1)⟩ moves
      (⟨i, op, c.store, result.1, result.2⟩ :: rest.1, rest.2)
    | _ => Config.perform c moves

theorem Config.perform_trace (started : ∀ request, Start (start request)) (moves : List (Move κ W))
    (c : Config Op Res ε α σ) :
    Trace sem Start c (c.perform sem start moves).1 (c.perform sem start moves).2 := by
  induction moves generalizing c with
  | nil => exact .refl c
  | cons move moves ih =>
    cases move with
    | arrive request => exact .arrive _ (started request) (ih _)
    | exec i w =>
      unfold Config.perform
      split
      · rename_i pending
        exact .exec w pending rfl (ih _)
      · exact ih c

end

end Transactional
