import Mathlib.Data.List.Forall2
import RealWorld.Transactional.Rely

/-!
# One program at a time

Interleaved programs whose every write is what some program makes of the store when it runs alone leave
nothing behind that programs run one after the other could not have left.
-/

namespace Transactional

variable {Op : Type} {Res : Op → Type} {ε α β σ W : Type}

/-! ### Where a program executes its operations -/

namespace Prog

section
variable (sem : (op : Op) → W → σ → Res op × σ) (rely : σ → σ → Prop) (pre : Op → W → σ → Prop)

/-- From `s` on, and whatever others do within `rely`, `pre` holds of each operation where it is executed. -/
def Finds : Prog Op Res ε α → σ → Prop
  | .pure _, _ => True
  | .throw _, _ => True
  | .exec op next, s => ∀ w s', rely s s' → pre op w s' ∧ (next (sem op w s').1).Finds (sem op w s').2

end

variable {sem : (op : Op) → W → σ → Res op × σ} {rely : σ → σ → Prop} {pre : Op → W → σ → Prop}
  {p : Prog Op Res ε α} {s : σ}

theorem Finds.of_all {allowed : Op → Prop} (issued : p.All allowed) (holds : ∀ op w s, allowed op → pre op w s) :
    p.Finds sem rely pre s := by
  induction p generalizing s with
  | pure a => trivial
  | throw e => trivial
  | exec op next ih => exact fun w s' _ => ⟨holds op w s' issued.1, ih _ (issued.2 _)⟩

theorem Finds.and {allowed : Op → Prop} (h : p.Finds sem rely pre s) (issued : p.All allowed) :
    p.Finds sem rely (fun op w s => allowed op ∧ pre op w s) s := by
  induction p generalizing s with
  | pure a => trivial
  | throw e => trivial
  | exec op next ih =>
    intro w s' moved
    exact ⟨⟨issued.1, (h w s' moved).1⟩, ih _ (h w s' moved).2 (issued.2 _)⟩

theorem Finds.mono {weaker : Op → W → σ → Prop} (h : p.Finds sem rely pre s)
    (imp : ∀ op w s, pre op w s → weaker op w s) : p.Finds sem rely weaker s := by
  induction p generalizing s with
  | pure a => trivial
  | throw e => trivial
  | exec op next ih =>
    intro w s' moved
    exact ⟨imp op w s' (h w s' moved).1, ih _ (h w s' moved).2⟩

/-! ### What a program executes alone -/

/-- The operations of a program that no other program interferes with, each with its answer. -/
def executed (sem : (op : Op) → W → σ → Res op × σ) : Prog Op Res ε α → (Nat → W) → σ → List ((op : Op) × Res op)
  | .pure _, _, _ => []
  | .throw _, _, _ => []
  | .exec op next, ws, s =>
      ⟨op, (sem op (ws 0) s).1⟩ :: (next (sem op (ws 0) s).1).executed sem (fun n => ws (n + 1)) (sem op (ws 0) s).2

/-- Those of its operations that may write. -/
def writesAlone (sem : (op : Op) → W → σ → Res op × σ) (writes : Op → Prop) [DecidablePred writes]
    (p : Prog Op Res ε α) (ws : Nat → W) (s : σ) : List ((op : Op) × Res op) :=
  (p.executed sem ws s).filter fun done => writes done.1

section
variable {writes : Op → Prop} [DecidablePred writes] {ws : Nat → W} {op : Op} {next : Res op → Prog Op Res ε α}

theorem writesAlone_exec (writing : writes op) : (Prog.exec op next).writesAlone sem writes ws s =
    ⟨op, (sem op (ws 0) s).1⟩ ::
      (next (sem op (ws 0) s).1).writesAlone sem writes (fun n => ws (n + 1)) (sem op (ws 0) s).2 :=
  List.filter_cons_of_pos (decide_eq_true writing)

theorem writesAlone_read (reading : ¬ writes op) : (Prog.exec op next).writesAlone sem writes ws s =
    (next (sem op (ws 0) s).1).writesAlone sem writes (fun n => ws (n + 1)) (sem op (ws 0) s).2 :=
  List.filter_cons_of_neg (by simpa using reading)

theorem writesAlone_reads (readOnly : p.All fun op => ¬ writes op) : p.writesAlone sem writes ws s = [] := by
  induction p generalizing ws s with
  | pure a => rfl
  | throw e => rfl
  | exec op next ih =>
    rw [writesAlone_read readOnly.1]
    exact ih _ (readOnly.2 _)

end

/-! ### Programs whose first operation is their write -/

def WritesFirst (writes : Op → Prop) (p : Prog Op Res ε α) : Prop :=
  (p.All fun op => ¬ writes op) ∨ ∃ op next, p = .exec op next ∧ ∀ r, (next r).All fun op => ¬ writes op

section
variable {writes : Op → Prop}

theorem WritesFirst.bind {f : α → Prog Op Res ε β} (h : p.WritesFirst writes)
    (rest : ∀ a, (f a).All fun op => ¬ writes op) : (p >>= f).WritesFirst writes := by
  rcases h with reads | ⟨op, next, rfl, reads⟩
  · exact .inl (reads.bind rest)
  · exact .inr ⟨op, fun r => next r >>= f, rfl, fun r => (reads r).bind rest⟩

theorem WritesFirst.tryCatch {handler : ε → Prog Op Res ε α} (h : p.WritesFirst writes)
    (handled : ∀ e, (handler e).All fun op => ¬ writes op) :
    (MonadExcept.tryCatch p handler).WritesFirst writes := by
  rcases h with reads | ⟨op, next, rfl, reads⟩
  · exact .inl (reads.tryCatch handled)
  · exact .inr ⟨op, fun r => MonadExcept.tryCatch (next r) handler, rfl, fun r => (reads r).tryCatch handled⟩

/-- Such a program, run alone, leaves what its first operation leaves and writes with it only, wherever it starts. -/
theorem WritesFirst.finds [DecidablePred writes] (h : p.WritesFirst writes)
    (reads : ∀ op w s, ¬ writes op → (sem op w s).2 = s) :
    p.Finds sem rely (fun op w s => writes op → (p.run sem (fun _ => w) s).2 = (sem op w s).2 ∧
      p.writesAlone sem writes (fun _ => w) s = [⟨op, (sem op w s).1⟩]) s := by
  rcases h with readOnly | ⟨op, next, rfl, after⟩
  · exact .of_all readOnly fun _ _ _ reading writing => absurd writing reading
  · intro w s' _
    refine ⟨fun writing => ⟨run_reads reads _ (after _) (fun _ => w) _, ?_⟩, ?_⟩
    · rw [writesAlone_exec writing, writesAlone_reads (after _)]
    · exact .of_all (after _) fun _ _ _ reading writing => absurd writing reading

end

end Prog

/-! ### Programs of one operation -/

section
variable {sem : (op : Op) → W → σ → Res op × σ} {Start : Prog Op Res ε α → Prop}
  {c c' : Config Op Res ε α σ} {es : List (Event Op Res σ)} {p : Prog Op Res ε α} {r : Except ε α}

theorem Prog.all_true (ended : p.All fun _ => ¬ True) : (∃ a, p = .pure a) ∨ ∃ e, p = .throw e := by
  cases p with
  | pure a => exact .inl ⟨a, rfl⟩
  | throw e => exact .inr ⟨e, rfl⟩
  | exec op next => exact absurd trivial ended.1

/-- Where `p` has the outcome `r` and leaves `s` when it runs alone, and what it executes there. -/
structure AtOnce (sem : (op : Op) → W → σ → Res op × σ) (p : Prog Op Res ε α) (r : Except ε α) (met left : σ)
    (executed : List (Event Op Res σ)) : Prop where
  alone : ∃ w, p.run sem (fun _ => w) met = (r, left)
  quiet : executed = [] → left = met
  event : ∀ e ∈ executed, executed = [e] ∧ e.before = met ∧ e.after = left

/-- A client that has ended changes no more and executes nothing. -/
theorem Trace.ended (h : Trace sem Start c es c') {i : Nat} (here : c.active[i]? = some p)
    (ended : p.All fun _ => ¬ True) : c'.active[i]? = some p ∧ es.filter (fun e => e.client = i) = [] := by
  obtain ⟨p', there, follows⟩ := h.follows here
  rcases Prog.all_true ended with ⟨a, rfl⟩ | ⟨e, rfl⟩
  · obtain ⟨none, rfl⟩ := follows.of_pure
    exact ⟨there, none⟩
  · obtain ⟨none, rfl⟩ := follows.of_throw
    exact ⟨there, none⟩

theorem Config.outcome_run {i : Nat} (there : c.active[i]? = some p) (ended : p.All fun _ => ¬ True)
    (reached : c.outcome i = some r) (ws : Nat → W) (s : σ) : p.run sem ws s = (r, s) := by
  rcases Prog.all_true ended with ⟨a, rfl⟩ | ⟨e, rfl⟩
  · have same := reached.symm.trans (Config.outcome_ok.mpr there)
    rw [Option.some.inj same]
    rfl
  · have same := reached.symm.trans (Config.outcome_error.mpr there)
    rw [Option.some.inj same]
    rfl

/-- A client whose program executes one operation at most has its outcome at one moment of the interleaving. -/
theorem Trace.once [Nonempty W] (h : Trace sem Start c es c') {i : Nat} (here : c.active[i]? = some p)
    (once : p.WritesFirst fun _ => True) (reached : c'.outcome i = some r) :
    ∃ front rest mid s, es = front ++ rest ∧ Trace sem Start c front mid ∧ Trace sem Start mid rest c' ∧
      AtOnce sem p r mid.store s (es.filter fun e => e.client = i) := by
  induction h with
  | refl c =>
    have ended : p.All fun _ => ¬ True := by
      rcases once with ended | ⟨op, next, rfl, _⟩
      · exact ended
      · rcases Config.ended_of_outcome reached here with ⟨a, same⟩ | ⟨e, same⟩
        · cases same
        · cases same
    have alone : p.run sem _ c.store = (r, c.store) :=
      Config.outcome_run here ended reached (fun _ => Classical.arbitrary W) c.store
    exact ⟨[], [], c, c.store, rfl, .refl c, .refl c, ⟨_, alone⟩, fun _ => rfl, List.forall_mem_nil _⟩
  | @arrive c _ _ q started rest ih =>
    have here' : (c.active ++ [q])[i]? = some p :=
      (List.getElem?_append_left (List.getElem?_eq_some_iff.mp here).1).trans here
    obtain ⟨front, back, mid, s, split, before, after, alone⟩ := ih here' reached
    exact ⟨front, back, mid, s, split, .arrive q started before, after, alone⟩
  | @exec c c' es j op next r' s w pending result rest ih =>
    have bound := (List.getElem?_eq_some_iff.mp here).1
    by_cases own : j = i
    · subst own
      obtain rfl := Option.some.inj (here.symm.trans pending)
      rcases once with none | ⟨_, _, ⟨⟩, ended⟩
      · exact absurd trivial none.1
      have there : (c.active.set j (next r'))[j]? = some (next r') := by simp [bound]
      obtain ⟨final, unexecuted⟩ := rest.ended there (ended r')
      have alone : (next r').run sem _ s = (r, s) := Config.outcome_run final (ended r') reached (fun _ => w) s
      refine ⟨[], _, c, s, rfl, .refl c, .exec w pending result rest, ⟨w, ?_⟩, ?_, ?_⟩
      · rw [Prog.run, result]
        exact alone
      · rw [List.filter_cons_of_pos (by simp)]
        intro none
        exact absurd none (List.cons_ne_nil _ _)
      · intro e member
        rw [List.filter_cons_of_pos (by simp), unexecuted] at member ⊢
        obtain rfl := List.mem_singleton.mp member
        exact ⟨rfl, rfl, rfl⟩
    · have there : (c.active.set j (next r'))[i]? = some p := by simpa [List.getElem?_set_ne own] using here
      obtain ⟨front, back, mid, t, rfl, before, after, alone⟩ := ih there reached
      refine ⟨_ :: front, back, mid, t, rfl, .exec w pending result before, after, ?_⟩
      rw [List.filter_cons_of_neg (by simpa using own)]
      exact alone

end

/-! ### Accounting for a history -/

section
variable {sem : (op : Op) → W → σ → Res op × σ} {rely : σ → σ → Prop} {pre : Op → W → σ → Prop}
  {Start : Prog Op Res ε α → Prop} {c c' : Config Op Res ε α σ} {es : List (Event Op Res σ)}

theorem Trace.finds (h : Trace sem Start c es c') (guaranteed : Guaranteed sem rely)
    (active : ∀ p ∈ c.active, ∃ s, rely s c.store ∧ p.Finds sem rely pre s)
    (started : ∀ p s, Start p → p.Finds sem rely pre s) :
    ∀ e ∈ es, ∃ w, sem e.op w e.before = (e.answer, e.after) ∧ pre e.op w e.before := by
  induction h with
  | refl c => nofun
  | @arrive c _ _ p start _ ih =>
    refine ih fun q member => ?_
    rcases List.mem_append.mp member with old | fresh
    · exact active q old
    · rw [List.mem_singleton.mp fresh]
      exact ⟨c.store, guaranteed.refl c.store, started p c.store start⟩
  | @exec c _ _ i op next r t w pending result _ ih =>
    have moved := guaranteed.step op w c.store
    obtain ⟨s, since, found⟩ := active _ (List.mem_of_getElem? pending)
    obtain ⟨here, rest⟩ := found w c.store since
    rw [result] at moved rest
    refine List.forall_mem_cons.mpr ⟨⟨w, result, here⟩, ih fun q member => ?_⟩
    rcases List.mem_or_eq_of_mem_set member with old | rfl
    · obtain ⟨s', since', found'⟩ := active q old
      exact ⟨s', guaranteed.trans since' moved, found'⟩
    · exact ⟨t, guaranteed.refl t, rest⟩

/-- What a program relies on of each store it meets does not depend on where it starts. -/
theorem Prog.Finds.start {met : σ → Prop} {p : Prog Op Res ε α} {s t : σ}
    (h : p.Finds sem (fun _ s' => met s') pre s) : p.Finds sem (fun _ s' => met s') pre t := by
  cases p with
  | pure a => trivial
  | throw e => trivial
  | exec op next => exact h

/-- Programs that rely on no more than that every store they meet satisfies `met`. -/
theorem Trace.finds_met {met : σ → Prop} (h : Trace sem Start c es c') (stores : ∀ e ∈ es, met e.before)
    (active : ∀ p ∈ c.active, p.Finds sem (fun _ s' => met s') pre c.store)
    (started : ∀ p s, Start p → p.Finds sem (fun _ s' => met s') pre s) :
    ∀ e ∈ es, ∃ w, sem e.op w e.before = (e.answer, e.after) ∧ pre e.op w e.before := by
  induction h with
  | refl c => nofun
  | @arrive c _ _ p start _ ih =>
    refine ih stores fun q member => ?_
    rcases List.mem_append.mp member with old | fresh
    · exact active q old
    · rw [List.mem_singleton.mp fresh]
      exact started p c.store start
  | @exec c _ _ i op next r t w pending result _ ih =>
    obtain ⟨here, later⟩ := List.forall_mem_cons.mp stores
    obtain ⟨found, rest⟩ := active _ (List.mem_of_getElem? pending) w c.store here
    rw [result] at rest
    refine List.forall_mem_cons.mpr ⟨⟨w, result, found⟩, ih later fun q member => ?_⟩
    rcases List.mem_or_eq_of_mem_set member with old | rfl
    · exact (active q old).start
    · exact rest

/-- What each operation of a history keeps. -/
theorem Trace.keeps (h : Trace sem Start c es c') (inv : σ → Prop)
    (step : ∀ e ∈ es, inv e.before → inv e.after) (start : inv c.store) : inv c'.store := by
  induction h with
  | refl c => exact start
  | arrive _ _ _ ih => exact ih step start
  | exec _ _ _ _ ih =>
    obtain ⟨first, later⟩ := List.forall_mem_cons.mp step
    exact ih later (first start)

/-- A history is accounted for once each write in it extends the account. `accounts steps s`: the steps lead
to `s`. -/
theorem Trace.accounted (h : Trace sem Start c es c') {writes : Op → Prop} [DecidablePred writes]
    {accounts : List β → σ → Prop} {accountsFor : β → Event Op Res σ → Prop}
    (reads : ∀ e ∈ es, ¬ writes e.op → e.after = e.before)
    (write : ∀ steps e, e ∈ es → writes e.op → accounts steps e.before →
      ∃ step, accountsFor step e ∧ accounts (steps ++ [step]) e.after)
    {steps : List β} (start : accounts steps c.store) :
    ∃ more, accounts (steps ++ more) c'.store ∧
      List.Forall₂ accountsFor more (es.filter fun e => writes e.op) := by
  induction h generalizing steps with
  | refl c => exact ⟨[], by rwa [List.append_nil], .nil⟩
  | arrive _ _ _ ih => exact ih reads write start
  | @exec c _ es i op next r t w pending result _ ih =>
    obtain ⟨same, unwritten⟩ := List.forall_mem_cons.mp reads
    have later := fun steps e member => write steps e (List.mem_cons_of_mem _ member)
    by_cases writing : writes op
    · obtain ⟨step, matched, extended⟩ := write steps _ List.mem_cons_self writing start
      obtain ⟨more, final, rest⟩ := ih unwritten later extended
      refine ⟨step :: more, ?_, ?_⟩
      · rwa [List.append_assoc, List.singleton_append] at final
      · rw [List.filter_cons_of_pos (by simpa using writing)]
        exact .cons matched rest
    · obtain rfl : t = c.store := same writing
      rw [List.filter_cons_of_neg (by simpa using writing)]
      exact ih unwritten later start

end

end Transactional
