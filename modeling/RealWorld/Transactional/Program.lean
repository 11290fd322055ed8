/-!
# Programs over a shared store

A `Prog` issues operations on a store it shares with other programs, one at a time, and ends
with a value or an exception. `run` executes one program alone; `Ensures` is its total
correctness judgement. Each operation sees a fresh element of the environment `W`, so a
result that depends on clocks or on row order is covered for every choice.
-/

namespace Transactional

/-- A program: a tree of operations whose continuation depends on the answer. -/
inductive Prog (Op : Type) (Res : Op → Type) (ε α : Type) where
  | pure (a : α)
  | throw (e : ε)
  | exec (op : Op) (next : Res op → Prog Op Res ε α)

namespace Prog

variable {Op : Type} {Res : Op → Type} {ε α β : Type}

def bind : Prog Op Res ε α → (α → Prog Op Res ε β) → Prog Op Res ε β
  | .pure a, f => f a
  | .throw e, _ => .throw e
  | .exec op next, f => .exec op fun r => (next r).bind f

def tryCatch : Prog Op Res ε α → (ε → Prog Op Res ε α) → Prog Op Res ε α
  | .pure a, _ => .pure a
  | .throw e, handler => handler e
  | .exec op next, handler => .exec op fun r => (next r).tryCatch handler

instance : Monad (Prog Op Res ε) where
  pure := .pure
  bind := bind

instance : MonadExceptOf ε (Prog Op Res ε) where
  throw := .throw
  tryCatch := tryCatch

@[simp] theorem pure_eq (a : α) : (Pure.pure a : Prog Op Res ε α) = .pure a := rfl

@[simp] theorem throw_eq (e : ε) : (MonadExcept.throw e : Prog Op Res ε α) = .throw e := rfl

@[simp] theorem pure_bind (a : α) (f : α → Prog Op Res ε β) : Prog.pure a >>= f = f a := rfl

@[simp] theorem throw_bind (e : ε) (f : α → Prog Op Res ε β) : Prog.throw e >>= f = .throw e := rfl

@[simp] theorem exec_bind (op : Op) (next : Res op → Prog Op Res ε α) (f : α → Prog Op Res ε β) :
    Prog.exec op next >>= f = .exec op fun r => next r >>= f := rfl

@[simp] theorem tryCatch_pure (a : α) (handler : ε → Prog Op Res ε α) :
    MonadExcept.tryCatch (Prog.pure a) handler = .pure a := rfl

@[simp] theorem tryCatch_throw (e : ε) (handler : ε → Prog Op Res ε α) :
    MonadExcept.tryCatch (Prog.throw e) handler = handler e := rfl

@[simp] theorem tryCatch_exec (op : Op) (next : Res op → Prog Op Res ε α)
    (handler : ε → Prog Op Res ε α) :
    MonadExcept.tryCatch (Prog.exec op next) handler =
      .exec op fun r => MonadExcept.tryCatch (next r) handler := rfl

/-! ### Running one program alone -/

section
variable {W σ : Type} (sem : (op : Op) → W → σ → Res op × σ)

/-- The outcome of a program that no other program interferes with. -/
def run : Prog Op Res ε α → (Nat → W) → σ → Except ε α × σ
  | .pure a, _, s => (.ok a, s)
  | .throw e, _, s => (.error e, s)
  | .exec op next, ws, s =>
      (next (sem op (ws 0) s).1).run (fun n => ws (n + 1)) (sem op (ws 0) s).2

/-- Whatever the environment supplies, `p` run from `s` ends in a state satisfying `post`. -/
def Ensures (p : Prog Op Res ε α) (s : σ) (post : Except ε α → σ → Prop) : Prop :=
  ∀ ws, post (p.run sem ws s).1 (p.run sem ws s).2

variable {sem} {s : σ} {post : Except ε α → σ → Prop}

theorem Ensures.pure {a : α} (h : post (.ok a) s) : Ensures sem (.pure a) s post := fun _ => h

theorem Ensures.throw {e : ε} (h : post (.error e) s) : Ensures sem (.throw e) s post := fun _ => h

theorem Ensures.exec {op : Op} {next : Res op → Prog Op Res ε α}
    (h : ∀ w, Ensures sem (next (sem op w s).1) (sem op w s).2 post) :
    Ensures sem (.exec op next) s post := fun ws => h (ws 0) _

theorem Ensures.mono {p : Prog Op Res ε α} {weaker : Except ε α → σ → Prop}
    (h : Ensures sem p s post) (imp : ∀ r s', post r s' → weaker r s') : Ensures sem p s weaker := by
  intro ws
  exact imp _ _ (h ws)

/-- The environment of the first operation and that of the others are independent. -/
theorem Ensures.next {op : Op} {next : Res op → Prog Op Res ε α}
    (h : Ensures sem (.exec op next) s post) (w : W) :
    Ensures sem (next (sem op w s).1) (sem op w s).2 post := by
  intro ws
  exact h fun n => Nat.casesOn n w ws

theorem Ensures.bind {p : Prog Op Res ε α} {f : α → Prog Op Res ε β} {post : Except ε β → σ → Prop}
    (h : Ensures sem p s fun r s' => match r with
      | .ok a => Ensures sem (f a) s' post
      | .error e => post (.error e) s') : Ensures sem (p >>= f) s post := by
  induction p generalizing s with
  | pure a =>
    intro ws
    exact h ws ws
  | throw e =>
    intro ws
    exact h ws
  | exec op next ih =>
    apply Ensures.exec
    intro w
    exact ih _ (h.next w)

theorem Ensures.tryCatch {p : Prog Op Res ε α} {handler : ε → Prog Op Res ε α}
    (h : Ensures sem p s fun r s' => match r with
      | .ok a => post (.ok a) s'
      | .error e => Ensures sem (handler e) s' post) :
    Ensures sem (MonadExcept.tryCatch p handler) s post := by
  induction p generalizing s with
  | pure a =>
    intro ws
    exact h ws
  | throw e =>
    intro ws
    exact h ws ws
  | exec op next ih =>
    apply Ensures.exec
    intro w
    exact ih _ (h.next w)

end

/-! ### Which operations a program can issue -/

/-- Every operation `p` can issue, whatever the answers, satisfies `allowed`. -/
def All (allowed : Op → Prop) : Prog Op Res ε α → Prop
  | .pure _ => True
  | .throw _ => True
  | .exec op next => allowed op ∧ ∀ r, (next r).All allowed

theorem All.of_forall {allowed : Op → Prop} (h : ∀ op, allowed op) (p : Prog Op Res ε α) :
    p.All allowed := by
  induction p with
  | pure a => trivial
  | throw e => trivial
  | exec op next ih => exact ⟨h op, ih⟩

theorem All.bind {allowed : Op → Prop} {p : Prog Op Res ε α} {f : α → Prog Op Res ε β}
    (first : p.All allowed) (rest : ∀ a, (f a).All allowed) : (p >>= f).All allowed := by
  induction p with
  | pure a => exact rest a
  | throw e => trivial
  | exec op next ih => exact ⟨first.1, fun r => ih r (first.2 r)⟩

theorem All.tryCatch {allowed : Op → Prop} {p : Prog Op Res ε α} {handler : ε → Prog Op Res ε α}
    (body : p.All allowed) (handled : ∀ e, (handler e).All allowed) :
    (MonadExcept.tryCatch p handler).All allowed := by
  induction p with
  | pure a => trivial
  | throw e => exact handled e
  | exec op next ih => exact ⟨body.1, fun r => ih r (body.2 r)⟩

theorem All.mono {allowed weaker : Op → Prop} {p : Prog Op Res ε α} (h : p.All allowed)
    (imp : ∀ op, allowed op → weaker op) : p.All weaker := by
  induction p with
  | pure a => trivial
  | throw e => trivial
  | exec op next ih => exact ⟨imp op h.1, fun r => ih r (h.2 r)⟩

theorem All.and {allowed allowed' : Op → Prop} {p : Prog Op Res ε α} (h : p.All allowed) (h' : p.All allowed') :
    p.All fun op => allowed op ∧ allowed' op := by
  induction p with
  | pure a => trivial
  | throw e => trivial
  | exec op next ih => exact ⟨⟨h.1, h'.1⟩, fun r => ih r (h.2 r) (h'.2 r)⟩

/-! ### Which exceptions a program can end with -/

/-- Every exception `p` can end with, whatever the answers, satisfies `allowed`. -/
def ThrowsOnly (allowed : ε → Prop) : Prog Op Res ε α → Prop
  | .pure _ => True
  | .throw e => allowed e
  | .exec _ next => ∀ r, (next r).ThrowsOnly allowed

theorem ThrowsOnly.bind {allowed : ε → Prop} {p : Prog Op Res ε α} {f : α → Prog Op Res ε β}
    (first : p.ThrowsOnly allowed) (rest : ∀ a, (f a).ThrowsOnly allowed) :
    (p >>= f).ThrowsOnly allowed := by
  induction p with
  | pure a => exact rest a
  | throw e => exact first
  | exec op next ih => exact fun r => ih r (first r)

theorem ThrowsOnly.tryCatch {inner allowed : ε → Prop} {p : Prog Op Res ε α}
    {handler : ε → Prog Op Res ε α} (body : p.ThrowsOnly inner)
    (handled : ∀ e, inner e → (handler e).ThrowsOnly allowed) :
    (MonadExcept.tryCatch p handler).ThrowsOnly allowed := by
  induction p with
  | pure a => trivial
  | throw e => exact handled e body
  | exec op next ih => exact fun r => ih r (body r)

/-! ### Programs that write once -/

/-- `p` issues at most one operation satisfying `writes`, an allowed one, and after it only other
operations. -/
def WritesOnce (writes allowed : Op → Prop) : Prog Op Res ε α → Prop
  | .pure _ => True
  | .throw _ => True
  | .exec op next =>
      (writes op → allowed op ∧ ∀ r, (next r).All fun op => ¬ writes op) ∧
      (¬ writes op → ∀ r, (next r).WritesOnce writes allowed)

section
variable {writes allowed : Op → Prop}

theorem All.writesOnce {p : Prog Op Res ε α} (reads : p.All fun op => ¬ writes op) :
    p.WritesOnce writes allowed := by
  induction p with
  | pure a => trivial
  | throw e => trivial
  | exec op next ih => exact ⟨fun w => absurd w reads.1, fun _ r => ih r (reads.2 r)⟩

theorem WritesOnce.all {p : Prog Op Res ε α} (h : p.WritesOnce writes allowed) :
    p.All fun op => writes op → allowed op := by
  induction p with
  | pure a => trivial
  | throw e => trivial
  | exec op next ih =>
    by_cases isWrite : writes op
    · exact ⟨fun _ => (h.1 isWrite).1, fun r =>
        ((h.1 isWrite).2 r).mono fun _ reads wrote => absurd wrote reads⟩
    · exact ⟨fun wrote => absurd wrote isWrite, fun r => ih r (h.2 isWrite r)⟩

theorem WritesOnce.mono {weaker : Op → Prop} {p : Prog Op Res ε α} (h : p.WritesOnce writes allowed)
    (imp : ∀ op, allowed op → weaker op) : p.WritesOnce writes weaker := by
  induction p with
  | pure a => trivial
  | throw e => trivial
  | exec op next ih =>
    exact ⟨fun w => ⟨imp op (h.1 w).1, (h.1 w).2⟩, fun reads r => ih r (h.2 reads r)⟩

theorem WritesOnce.bind {p : Prog Op Res ε α} {f : α → Prog Op Res ε β}
    (first : p.WritesOnce writes allowed) (rest : ∀ a, (f a).All fun op => ¬ writes op) :
    (p >>= f).WritesOnce writes allowed := by
  induction p with
  | pure a => exact (rest a).writesOnce
  | throw e => trivial
  | exec op next ih =>
    refine ⟨fun w => ⟨(first.1 w).1, fun r => ((first.1 w).2 r).bind rest⟩, fun reads r => ?_⟩
    exact ih r (first.2 reads r)

theorem WritesOnce.tryCatch {p : Prog Op Res ε α} {handler : ε → Prog Op Res ε α}
    (body : p.WritesOnce writes allowed) (handled : ∀ e, (handler e).All fun op => ¬ writes op) :
    (MonadExcept.tryCatch p handler).WritesOnce writes allowed := by
  induction p with
  | pure a => trivial
  | throw e => exact (handled e).writesOnce
  | exec op next ih =>
    refine ⟨fun w => ⟨(body.1 w).1, fun r => ((body.1 w).2 r).tryCatch handled⟩, fun reads r => ?_⟩
    exact ih r (body.2 reads r)

end

section
variable {W σ : Type} {sem : (op : Op) → W → σ → Res op × σ} {writes : Op → Prop}

theorem run_preserves {allowed : Op → Prop} {inv : σ → Prop}
    (step : ∀ op w s, allowed op → inv s → inv (sem op w s).2)
    (p : Prog Op Res ε α) (issued : p.All allowed) (ws : Nat → W) {s : σ} (start : inv s) :
    inv (p.run sem ws s).2 := by
  induction p generalizing ws s with
  | pure a => exact start
  | throw e => exact start
  | exec op next ih => exact ih _ (issued.2 _) _ (step op _ s issued.1 start)

theorem run_reads (reads : ∀ op w s, ¬ writes op → (sem op w s).2 = s) (p : Prog Op Res ε α)
    (readOnly : p.All fun op => ¬ writes op) (ws : Nat → W) (s : σ) : (p.run sem ws s).2 = s := by
  have step : ∀ op w s', ¬ writes op → s' = s → (sem op w s').2 = s :=
    fun op w s' notWrite same => (reads op w s' notWrite).trans same
  exact run_preserves step p readOnly ws rfl

/-- A program that writes at most once leaves either the store it found or the store its one
write made of it. -/
theorem run_writesOnce (reads : ∀ op w s, ¬ writes op → (sem op w s).2 = s) {allowed : Op → Prop}
    (p : Prog Op Res ε α) (once : p.WritesOnce writes allowed) (ws : Nat → W) (s : σ) :
    (p.run sem ws s).2 = s ∨
      ∃ op w, writes op ∧ allowed op ∧ (p.run sem ws s).2 = (sem op w s).2 := by
  induction p generalizing ws with
  | pure a => exact .inl rfl
  | throw e => exact .inl rfl
  | exec op next ih =>
    by_cases isWrite : writes op
    · have after := run_reads reads _ ((once.1 isWrite).2 (sem op (ws 0) s).1) (fun n => ws (n + 1))
        (sem op (ws 0) s).2
      exact .inr ⟨op, ws 0, isWrite, (once.1 isWrite).1, after⟩
    · have same := reads op (ws 0) s isWrite
      have rest := ih _ (once.2 isWrite (sem op (ws 0) s).1) (fun n => ws (n + 1))
      rw [run, same]
      exact rest

end

end Prog

end Transactional
