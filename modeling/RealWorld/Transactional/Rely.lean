import RealWorld.Transactional.Interleaving

/-!
# One program among others

`rely` bounds what the operations of any program do to the store. Under it a program is judged alone:
before each of its operations others may have moved the store within `rely`, and whatever holds of it
then holds of every client that runs it, in every interleaving.
-/

namespace Transactional

variable {Op : Type} {Res : Op → Type} {ε α β σ W : Type}

/-- Every operation moves the store within `rely`, and so do several. -/
structure Guaranteed (sem : (op : Op) → W → σ → Res op × σ) (rely : σ → σ → Prop) : Prop where
  refl : ∀ s, rely s s
  trans : ∀ {s₁ s₂ s₃}, rely s₁ s₂ → rely s₂ s₃ → rely s₁ s₃
  step : ∀ op w s, rely s (sem op w s).2

section
variable (sem : (op : Op) → W → σ → Res op × σ) (rely : σ → σ → Prop) (good : (op : Op) → Res op → Prop)

/-- From `s` on, every operation of the program is answered well and its outcome satisfies `post`. -/
def Prog.Among (post : Except ε α → σ → Prop) : Prog Op Res ε α → σ → Prop
  | .pure a, s => post (.ok a) s
  | .throw e, s => post (.error e) s
  | .exec op next, s => ∀ w s', rely s s' →
      good op (sem op w s').1 ∧ (next (sem op w s').1).Among post (sem op w s').2

end

section
variable {sem : (op : Op) → W → σ → Res op × σ} {rely : σ → σ → Prop} {good : (op : Op) → Res op → Prop}

namespace Prog

variable {post weaker : Except ε α → σ → Prop} {p : Prog Op Res ε α} {s s' : σ}

theorem Among.mono (h : p.Among sem rely good post s) (imp : ∀ r s', post r s' → weaker r s') :
    p.Among sem rely good weaker s := by
  induction p generalizing s with
  | pure a => exact imp _ s h
  | throw e => exact imp _ s h
  | exec op next ih => exact fun w s' moved => ⟨(h w s' moved).1, ih _ (h w s' moved).2⟩

theorem Among.bind {f : α → Prog Op Res ε β} {post : Except ε β → σ → Prop}
    (h : p.Among sem rely good (fun r s' => match r with
      | .ok a => (f a).Among sem rely good post s'
      | .error e => post (.error e) s') s) : (p >>= f).Among sem rely good post s := by
  induction p generalizing s with
  | pure a => exact h
  | throw e => exact h
  | exec op next ih => exact fun w s' moved => ⟨(h w s' moved).1, ih _ (h w s' moved).2⟩

theorem Among.tryCatch {handler : ε → Prog Op Res ε α}
    (h : p.Among sem rely good (fun r s' => match r with
      | .ok a => post (.ok a) s'
      | .error e => (handler e).Among sem rely good post s') s) :
    (MonadExcept.tryCatch p handler).Among sem rely good post s := by
  induction p generalizing s with
  | pure a => exact h
  | throw e => exact h
  | exec op next ih => exact fun w s' moved => ⟨(h w s' moved).1, ih _ (h w s' moved).2⟩

/-- What no operation ends is there whenever the program needs it. -/
theorem Among.of_all (guaranteed : Guaranteed sem rely) {allowed : Op → Prop} (held : σ → Prop)
    (stays : ∀ s s', rely s s' → held s → held s')
    (meets : ∀ op w s, allowed op → held s → good op (sem op w s).1) (issued : p.All allowed) (start : held s) :
    p.Among sem rely good (fun _ _ => True) s := by
  induction p generalizing s with
  | pure a => trivial
  | throw e => trivial
  | exec op next ih =>
    intro w s' moved
    have here := stays s s' moved start
    exact ⟨meets op w s' issued.1 here, ih _ (issued.2 _) (stays s' _ (guaranteed.step op w s') here)⟩

end Prog

variable {Start : Prog Op Res ε α → Prop} {c c' : Config Op Res ε α σ} {es : List (Event Op Res σ)}

theorem Trace.within (h : Trace sem Start c es c') (guaranteed : Guaranteed sem rely) : rely c.store c'.store := by
  induction h with
  | refl c => exact guaranteed.refl c.store
  | arrive _ _ _ ih => exact ih
  | @exec c _ _ _ op _ _ _ w _ result _ ih =>
    have moved := guaranteed.step op w c.store
    rw [result] at moved
    exact guaranteed.trans moved ih

/-- Between an event and a later one the store has moved within `rely`. -/
theorem Trace.pairwise (h : Trace sem Start c es c') (guaranteed : Guaranteed sem rely) :
    (∀ e ∈ es, rely c.store e.before) ∧ es.Pairwise fun e e' => rely e.after e'.before := by
  induction h with
  | refl c => exact ⟨nofun, .nil⟩
  | arrive _ _ _ ih => exact ih
  | @exec c _ _ _ op _ _ _ w _ result _ ih =>
    obtain ⟨since, later⟩ := ih
    have moved := guaranteed.step op w c.store
    rw [result] at moved
    refine ⟨List.forall_mem_cons.mpr ⟨guaranteed.refl _, fun e member => ?_⟩, .cons since later⟩
    exact guaranteed.trans moved (since e member)

variable {i : Nat} {p : Prog Op Res ε α} {s : σ} {post : Except ε α → σ → Prop}

/-- What holds of a program that others may interfere with holds of the client that runs it. -/
theorem Trace.among (h : Trace sem Start c es c') (guaranteed : Guaranteed sem rely) (here : c.active[i]? = some p)
    (since : rely s c.store) (judged : p.Among sem rely good post s) :
    (∀ e ∈ es, e.client = i → good e.op e.answer) ∧
      ∃ p' s', c'.active[i]? = some p' ∧ rely s' c'.store ∧ p'.Among sem rely good post s' := by
  induction h generalizing p s with
  | refl c => exact ⟨nofun, p, s, here, since, judged⟩
  | arrive q _ _ ih =>
    refine ih ?_ since judged
    rw [List.getElem?_append_left (List.getElem?_eq_some_iff.mp here).1]
    exact here
  | @exec c _ es j op next r t w pending result _ ih =>
    have bound := (List.getElem?_eq_some_iff.mp here).1
    by_cases own : j = i
    · subst own
      obtain rfl := Option.some.inj (here.symm.trans pending)
      obtain ⟨answered, rest⟩ := judged w c.store since
      rw [result] at answered rest
      obtain ⟨events, final⟩ := ih (p := next r) (s := t) (by simp [bound]) (guaranteed.refl t) rest
      refine ⟨fun e member client => ?_, final⟩
      rcases List.mem_cons.mp member with rfl | later
      · exact answered
      · exact events e later client
    · have moved := guaranteed.step op w c.store
      rw [result] at moved
      obtain ⟨events, final⟩ := ih (p := p) (s := s) (by simpa [List.getElem?_set_ne own] using here)
        (guaranteed.trans since moved) judged
      refine ⟨fun e member client => ?_, final⟩
      rcases List.mem_cons.mp member with rfl | later
      · exact absurd client own
      · exact events e later client

/-- The outcome of a client was reached at a store that others have only moved within `rely` since. -/
theorem Trace.outcome (h : Trace sem Start c es c') (guaranteed : Guaranteed sem rely) (here : c.active[i]? = some p)
    (judged : p.Among sem rely good post c.store) {r : Except ε α} (ended : c'.outcome i = some r) :
    ∃ s', rely s' c'.store ∧ post r s' := by
  obtain ⟨_, p', s', there, since, final⟩ := h.among guaranteed here (guaranteed.refl c.store) judged
  refine ⟨s', since, ?_⟩
  cases r with
  | ok a =>
    obtain rfl := Option.some.inj (there.symm.trans (Config.outcome_ok.mp ended))
    exact final
  | error e =>
    obtain rfl := Option.some.inj (there.symm.trans (Config.outcome_error.mp ended))
    exact final

end

end Transactional
