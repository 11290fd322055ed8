import RealWorld.Schema.Concurrent

/-!
# A call that meets no other

Step by step, a call of `add_new_article` during which no other call has inserted anything is the
stored function, and its end is what the statement answers.
-/

namespace RealWorld.Schema

section
variable {s : Store} {p : Pending} {d : Database} {i : Nat}

/-- What is left of the stored function. -/
def Session.rest (t : Session) : Txn Int :=
  match t.stage with
  | .begun => addNewArticle t.creation.moment t.creation.title t.creation.slug t.creation.description
      t.creation.body t.creation.authorId t.creation.tagList
  | .tagging articleId names => do
      insertTags names
      insertArticleTags articleId t.creation.names
      return articleId
  | .linked articleId | .committed articleId => return articleId
  | .aborted => return 0

def Session.left (t : Session) : Nat :=
  match t.stage with
  | .begun => t.creation.names.length + 2
  | .tagging _ names => names.length + 1
  | .linked _ | .committed _ | .aborted => 0

theorem insertTags_cons (name : String) (names : List String) :
    insertTags (name :: names) = (do insertTags [name]; insertTags names) := by
  simp [insertTags]

/-- The statements of a call, one after the other, are the stored function. -/
theorem Session.rest_eq {t : Session} {statement : Txn Stage} (next : t.statement = some statement) :
    t.rest = (do
      let stage ← statement
      ({ t with stage := stage } : Session).rest) := by
  unfold Session.statement at next
  unfold Session.rest
  split at next
  · rename_i begun
    cases next
    rw [begun]
    simp [addNewArticle, Creation.names]
  · rename_i articleId name names tagging
    cases next
    rw [tagging]
    dsimp only
    rw [insertTags_cons]
    simp
  · rename_i articleId tagged
    cases next
    rw [tagged]
    simp [insertTags]
  · cases next

theorem Session.statement_ok {t : Session} {statement : Txn Stage} (next : t.statement = some statement)
    {stage : Stage} {view : Store} (ok : statement (s.with p) = .ok stage view) :
    ({ t with stage := stage } : Session).left < t.left ∧
      ({ t with stage := stage } : Session).isOpen ∧ ∃ q p', view = (s.drawn q).with p' := by
  unfold Session.statement at next
  unfold Session.left Session.isOpen
  split at next
  · rename_i begun
    cases next
    obtain ⟨articleId, view', stored, rest⟩ := bind_ok.mp ok
    obtain ⟨rfl, rfl⟩ := pure_ok.mp rest
    rw [begun]
    exact ⟨Nat.lt_succ_self _, rfl, _, _, (insertArticles_with stored).2⟩
  · rename_i articleId name names tagging
    cases next
    obtain ⟨_, view', tagged, rest⟩ := bind_ok.mp ok
    obtain ⟨rfl, rfl⟩ := pure_ok.mp rest
    obtain ⟨_, _, last⟩ := insertTags_cons_ok.mp tagged
    obtain ⟨_, rfl⟩ := pure_ok.mp last
    rw [tagging]
    exact ⟨by simp, rfl, _, _, insertTag_with⟩
  · rename_i articleId tagged
    cases next
    obtain ⟨_, view', done, rest⟩ := bind_ok.mp ok
    obtain ⟨rfl, rfl⟩ := pure_ok.mp rest
    rw [tagged]
    exact ⟨by simp, rfl, s.toSequences, _, insertArticleTags_with done⟩
  · cases next

theorem Session.statement_none {t : Session} (isOpen : t.isOpen) (last : t.statement = none) :
    ∃ articleId, t.stage = .linked articleId := by
  unfold Session.statement at last
  unfold Session.isOpen at isOpen
  cases at_ : t.stage with
  | linked articleId => exact ⟨articleId, rfl⟩
  | begun =>
    rw [at_] at last
    cases last
  | tagging articleId names =>
    rw [at_] at last
    cases names <;> cases last
  | committed articleId =>
    rw [at_] at isOpen
    cases isOpen
  | aborted =>
    rw [at_] at isOpen
    cases isOpen

/-- What becomes of a call with the given outcome. -/
def Database.settle (d : Database) (i : Nat) (t : Session) : EStateM.Result DbError Store Int → Database
  | .ok articleId view => { committed := view, sessions := d.sessions.set i (t.committed articleId) }
  | .error _ view => d.put i view.toSequences t.aborted

theorem Database.blocked_empty (others : ∀ j u, j ≠ i → d.sessions[j]? = some u → u.pending = {}) :
    d.blocked i = false := by
  unfold blocked
  rw [List.any_eq_false]
  intro j _ waiting
  unfold waitsFor at waiting
  rw [Bool.and_eq_true, decide_eq_true_eq] at waiting
  obtain ⟨different, held⟩ := waiting
  split at held
  · rename_i key u _ found
    rw [others j u (Ne.symm different) found] at held
    cases key <;> cases held
  · cases held

/-- While no other call has inserted anything, the steps of a call are the rest of the stored function. -/
theorem Database.alone {t : Session} (here : d.sessions[i]? = some t) (isOpen : t.isOpen)
    (others : ∀ j u, j ≠ i → d.sessions[j]? = some u → u.pending = {}) :
    d.Reach (d.settle i t (t.rest (d.committed.with t.pending))) := by
  induction left : t.left using Nat.strongRecOn generalizing d t with
  | _ n ih =>
    have free := blocked_empty others
    cases next : t.statement with
    | none =>
      obtain ⟨articleId, linked⟩ := Session.statement_none isOpen next
      have last : d.advance i = some (d.settle i t (t.rest (d.committed.with t.pending))) := by
        unfold advance
        rw [free, here]
        unfold Session.rest
        simp only [next, linked]
        rfl
      exact .single ⟨.advance i, last⟩
    | some statement =>
      rw [Session.rest_eq next]
      cases result : statement (d.committed.with t.pending) with
      | error e view =>
        have last : d.advance i = some (d.put i view.toSequences t.aborted) := by
          unfold advance
          rw [free, here]
          simp only [next, result]
          rfl
        have outcome : (statement >>= fun stage => ({ t with stage := stage } : Session).rest)
            (d.committed.with t.pending) = .error e view := by
          show EStateM.bind _ _ _ = _
          rw [EStateM.bind, result]
        rw [outcome]
        exact .single ⟨.advance i, last⟩
      | ok stage view =>
        obtain ⟨less, stillOpen, q, p', rfl⟩ := Session.statement_ok next result
        let t₁ : Session := { t with stage := stage, pending := p' }
        have first : d.advance i = some (d.put i q t₁) := by
          unfold advance
          rw [free, here]
          simp only [next, result, Pending.of_with]
          rfl
        have outcome : (statement >>= fun stage => ({ t with stage := stage } : Session).rest)
            (d.committed.with t.pending) = t₁.rest ((d.committed.drawn q).with p') := by
          show EStateM.bind _ _ _ = _
          rw [EStateM.bind, result]
          rfl
        obtain ⟨bound, _⟩ := List.getElem?_eq_some_iff.mp here
        have here₁ : (d.put i q t₁).sessions[i]? = some t₁ := List.getElem?_set_self bound
        have others₁ : ∀ j u, j ≠ i → (d.put i q t₁).sessions[j]? = some u → u.pending = {} := by
          intro j u other found
          refine others j u other ?_
          rwa [← List.getElem?_set_ne (Ne.symm other)]
        have more := ih t₁.left (left ▸ less) here₁ stillOpen others₁ rfl
        have same : ∀ r, (d.put i q t₁).settle i t₁ r = d.settle i t r := by
          intro r
          cases r <;> simp only [settle, put, List.set_set] <;> rfl
        rw [outcome, ← same]
        exact .head ⟨.advance i, first⟩ more

/-- A call during which no other has inserted anything does what its statement does. -/
theorem Database.alone_exec {loc : DbLocale} {t : Session} (here : d.sessions[i]? = some t)
    (begun : t.stage = .begun) (others : ∀ (j : Nat) (u : Session), d.sessions[j]? = some u → u.pending = {}) :
    let answer := t.creation.sql.exec loc t.creation.moment d.committed
    ∃ t', d.Reach { committed := answer.2, sessions := d.sessions.set i t' } ∧
      ((∃ articleId, answer.1 = .ok [articleId] ∧ t' = t.committed articleId) ∨
        ∃ e, answer.1 = .error e ∧ t' = t.aborted) := by
  intro answer
  have run := alone here (by unfold Session.isOpen; rw [begun]) fun j u _ found => others j u found
  rw [others i t here, Store.with_empty] at run
  have statement : t.rest = addNewArticle t.creation.moment t.creation.title t.creation.slug
      t.creation.description t.creation.body t.creation.authorId t.creation.tagList := by
    unfold Session.rest
    rw [begun]
  rw [statement] at run
  have executed : answer = atomically (List.singleton <$> addNewArticle t.creation.moment t.creation.title
      t.creation.slug t.creation.description t.creation.body t.creation.authorId t.creation.tagList) d.committed :=
    Sql.exec_storable t.creation.bound
  cases result : addNewArticle t.creation.moment t.creation.title t.creation.slug t.creation.description
      t.creation.body t.creation.authorId t.creation.tagList d.committed with
  | ok articleId view =>
    rw [result] at run
    have done : answer = (.ok [articleId], view) := by
      rw [executed]
      exact singleton_ok.mpr ⟨articleId, rfl, result⟩
    rw [done]
    exact ⟨_, run, .inl ⟨articleId, rfl, rfl⟩⟩
  | error e view =>
    rw [result] at run
    have failed : answer = (.error e, d.committed.drawn view.toSequences) := by
      rw [executed]
      exact singleton_error result
    rw [failed]
    exact ⟨_, run, .inr ⟨e, rfl, rfl⟩⟩

end

end RealWorld.Schema
