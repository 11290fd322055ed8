import Mathlib.Data.List.Forall2
import RealWorld.Transactional.Interleaving

/-!
# What programs let through of the answers they read

Answers of one operation may be alike without being equal. Two programs agree if they go on in the same
way as long as they are answered alike; then stores that are alike stay so, and nobody can tell the
programs apart.
-/

namespace Transactional

variable {Op : Type} {Res : Op → Type} {ε α β σ W : Type}

namespace Prog

inductive Agree (alike : (op : Op) → Res op → Res op → Prop) : Prog Op Res ε α → Prog Op Res ε α → Prop where
  | pure (a : α) : Agree alike (.pure a) (.pure a)
  | throw (e : ε) : Agree alike (.throw e) (.throw e)
  | exec {op : Op} {next next' : Res op → Prog Op Res ε α}
      (rest : ∀ r r', alike op r r' → Agree alike (next r) (next' r')) : Agree alike (.exec op next) (.exec op next')

/-- `p` does not depend on what distinguishes answers that are alike. -/
abbrev Secret (alike : (op : Op) → Res op → Res op → Prop) (p : Prog Op Res ε α) : Prop := p.Agree alike p

variable {alike : (op : Op) → Res op → Res op → Prop} {p p' : Prog Op Res ε α}

theorem Agree.bind {f f' : α → Prog Op Res ε β} (h : p.Agree alike p') (rest : ∀ a, (f a).Agree alike (f' a)) :
    (p >>= f).Agree alike (p' >>= f') := by
  induction h with
  | pure a => exact rest a
  | throw e => exact .throw e
  | exec _ ih => exact .exec fun r r' same => ih r r' same

theorem Agree.tryCatch {handler handler' : ε → Prog Op Res ε α} (h : p.Agree alike p')
    (handled : ∀ e, (handler e).Agree alike (handler' e)) :
    (MonadExcept.tryCatch p handler).Agree alike (MonadExcept.tryCatch p' handler') := by
  induction h with
  | pure a => exact .pure a
  | throw e => exact handled e
  | exec _ ih => exact .exec fun r r' same => ih r r' same

end Prog

/-- An operation on stores that are alike is answered alike and leaves them alike. -/
def Respects (alike : (op : Op) → Res op → Res op → Prop) (rel : σ → σ → Prop)
    (sem : (op : Op) → W → σ → Res op × σ) : Prop :=
  ∀ op w s s', rel s s' → alike op (sem op w s).1 (sem op w s').1 ∧ rel (sem op w s).2 (sem op w s').2

section
variable {alike : (op : Op) → Res op → Res op → Prop} {rel : σ → σ → Prop}
  {sem : (op : Op) → W → σ → Res op × σ}

theorem Prog.Agree.run {p p' : Prog Op Res ε α} (h : p.Agree alike p') (respects : Respects alike rel sem)
    (ws : Nat → W) {s s' : σ} (start : rel s s') :
    (p.run sem ws s).1 = (p'.run sem ws s').1 ∧ rel (p.run sem ws s).2 (p'.run sem ws s').2 := by
  induction h generalizing ws s s' with
  | pure a => exact ⟨rfl, start⟩
  | throw e => exact ⟨rfl, start⟩
  | exec _ ih =>
    obtain ⟨same, after⟩ := respects _ (ws 0) s s' start
    exact ih _ _ same (fun n => ws (n + 1)) after

/-- Stores that are alike, and programs that agree. -/
structure Config.Agree (alike : (op : Op) → Res op → Res op → Prop) (rel : σ → σ → Prop)
    (c c' : Config Op Res ε α σ) : Prop where
  store : rel c.store c'.store
  active : List.Forall₂ (Prog.Agree alike) c.active c'.active

variable {c c' : Config Op Res ε α σ}

theorem Config.Agree.program (h : c.Agree alike rel c') (i : Nat) :
    (c.active[i]? = none ∧ c'.active[i]? = none) ∨
      ∃ p p', c.active[i]? = some p ∧ c'.active[i]? = some p' ∧ p.Agree alike p' := by
  by_cases bound : i < c.active.length
  · have bound' : i < c'.active.length := h.active.length_eq ▸ bound
    exact .inr ⟨_, _, List.getElem?_eq_getElem bound, List.getElem?_eq_getElem bound', h.active.get bound bound'⟩
  · have bound' : ¬ i < c'.active.length := h.active.length_eq ▸ bound
    exact .inl ⟨List.getElem?_eq_none (Nat.le_of_not_lt bound), List.getElem?_eq_none (Nat.le_of_not_lt bound')⟩

theorem Config.Agree.outcome (h : c.Agree alike rel c') (i : Nat) : c.outcome i = c'.outcome i := by
  unfold Config.outcome
  rcases h.program i with ⟨left, right⟩ | ⟨p, p', left, right, same⟩
  · rw [left, right]
  · rw [left, right]
    cases same <;> rfl

theorem forall₂_set {α β : Type} {R : α → β → Prop} {as : List α} {bs : List β} (h : List.Forall₂ R as bs) (i : Nat)
    {a : α} {b : β} (same : R a b) : List.Forall₂ R (as.set i a) (bs.set i b) := by
  induction h generalizing i with
  | nil => exact .nil
  | cons first rest ih =>
    cases i with
    | zero => exact .cons same rest
    | succ i => exact .cons first (ih i)

variable {κ : Type} {start : κ → Prog Op Res ε α}

/-- The requests that arrive. -/
def arrivals : List (Move κ W) → List κ
  | [] => []
  | .arrive request :: moves => request :: arrivals moves
  | .exec _ _ :: moves => arrivals moves

/-- A schedule is an interleaving of the requests that arrive in it. -/
theorem Config.perform_arrivals {Start : Prog Op Res ε α → Prop} {moves : List (Move κ W)}
    (started : ∀ request ∈ arrivals moves, Start (start request)) (c : Config Op Res ε α σ) :
    Trace sem Start c (c.perform sem start moves).1 (c.perform sem start moves).2 := by
  induction moves generalizing c with
  | nil => exact .refl c
  | cons move moves ih =>
    cases move with
    | arrive request =>
      obtain ⟨first, rest⟩ := List.forall_mem_cons.mp started
      exact .arrive _ first (ih rest _)
    | exec i w =>
      unfold Config.perform
      split
      · rename_i pending
        exact .exec w pending rfl (ih started _)
      · exact ih started c

/-- However the programs are scheduled, what is alike at the beginning is alike at the end. -/
theorem Config.Agree.perform (h : c.Agree alike rel c') (respects : Respects alike rel sem) {moves : List (Move κ W)}
    (secret : ∀ request ∈ arrivals moves, (start request).Secret alike) :
    (c.perform sem start moves).2.Agree alike rel (c'.perform sem start moves).2 := by
  induction moves generalizing c c' with
  | nil => exact h
  | cons move moves ih =>
    cases move with
    | arrive request =>
      obtain ⟨first, rest⟩ := List.forall_mem_cons.mp secret
      exact ih ⟨h.store, List.rel_append h.active (.cons first .nil)⟩ rest
    | exec i w =>
      unfold Config.perform
      rcases h.program i with ⟨left, right⟩ | ⟨p, p', left, right, same⟩
      · rw [left, right]
        exact ih h secret
      · rw [left, right]
        cases same with
        | pure a => exact ih h secret
        | throw e => exact ih h secret
        | exec rest =>
          obtain ⟨answers, stores⟩ := respects _ w _ _ h.store
          exact ih ⟨stores, forall₂_set h.active i (rest _ _ answers)⟩ secret

end

end Transactional
