import RealWorld.Handlers.Base

/-!
# Successful requests

Whether a request succeeds is decided by its last step: an exception never is a success, nor what
the validation of a request or the handler of a unique violation answers.
-/

namespace RealWorld
open Schema Transactional

def Succeeds (r : Except Exn Response) : Prop := ∃ response, r = .ok response ∧ response.success

theorem succeeds_ok {response : Response} : Succeeds (.ok response) ↔ response.success := by
  constructor
  · rintro ⟨_, ⟨⟩, success⟩
    exact success
  · exact fun success => ⟨response, rfl, success⟩

theorem not_succeeds_error {e : Exn} : ¬ Succeeds (.error e) := nofun

section
variable {svc : Service} {s : Store}

theorem ensures_validated {α : Type} (parsed : Except Exn α) {handle : α → Program Response}
    {post : Except Exn Response → Store → Prop}
    (done : ∀ a, parsed = .ok a → (handle a).Ensures (Sql.exec svc.loc) s post)
    (unsuccessful : ∀ r, ¬ Succeeds r → post r s) :
    (Handlers.validated parsed handle).Ensures (Sql.exec svc.loc) s post := by
  unfold Handlers.validated
  split
  · exact done _ rfl
  · exact .pure (unsuccessful _ fun success => absurd (succeeds_ok.mp success) nofun)
  · exact .throw (unsuccessful _ not_succeeds_error)

/-- A `try` block and the code after it. An exception of the block, whether it is answered or thrown
on, makes no success. -/
theorem ensures_tried {α : Type} {fields : List (String × String)} {body : Program (Response ⊕ α)}
    {rest : α → Program Response} {post : Except Exn Response → Store → Prop} (failed : Store → Prop)
    (h : body.Ensures (Sql.exec svc.loc) s fun r s' => match r with
      | .ok (.inr a) => (rest a).Ensures (Sql.exec svc.loc) s' post
      | .ok (.inl response) => post (.ok response) s'
      | .error _ => failed s')
    (unsuccessful : ∀ r s', failed s' → ¬ Succeeds r → post r s') :
    (do
      let a ← Handlers.alreadyTaken fields body
      Handlers.afterTry a rest).Ensures (Sql.exec svc.loc) s post := by
  have thrown : ∀ e s', failed s' → post (.error e) s' := by
    intro e s' fails
    exact unsuccessful _ s' fails not_succeeds_error
  apply Prog.Ensures.bind
  apply Prog.Ensures.tryCatch
  refine h.mono fun r s' tried => ?_
  match r with
  | .ok (.inr a) => exact tried
  | .ok (.inl response) => exact .pure tried
  | .error e =>
    dsimp only
    split
    · split
      · refine .pure (.pure (unsuccessful _ s' tried ?_))
        exact fun success => absurd (succeeds_ok.mp success) nofun
      · exact .throw (thrown _ s' tried)
    · exact .throw (thrown _ s' tried)

/-- If `p` succeeds when it runs alone from `s`, the store it leaves satisfies `post`. -/
def OnSuccess (svc : Service) (s : Store) (p : Program Response) (post : Store → Prop) : Prop :=
  p.Ensures (Sql.exec svc.loc) s fun r s' => Succeeds r → post s'

namespace OnSuccess
variable {α : Type} {post : Store → Prop}

theorem done {response : Response} (h : post s) : OnSuccess svc s (.pure response) post :=
  .pure fun _ => h

theorem failed {response : Response} (h : ¬ response.success) : OnSuccess svc s (.pure response) post :=
  .pure fun success => absurd (succeeds_ok.mp success) h

theorem throw {e : Exn} : OnSuccess svc s (.throw e) post :=
  Prog.Ensures.throw fun success => absurd success not_succeeds_error

theorem execute {q : Sql} {f : List q.Row → Program Response}
    (rest : ∀ m rows s', q.exec svc.loc m s = (.ok rows, s') → OnSuccess svc s' (f rows) post) :
    OnSuccess svc s (execute q >>= f) post :=
  ensures_execute rest fun _ _ _ _ success => absurd success not_succeeds_error

theorem lift {x : Except Exn α} {f : α → Program Response}
    (rest : ∀ a, x = .ok a → OnSuccess svc s (f a) post) : OnSuccess svc s (lift x >>= f) post :=
  ensures_lift rest fun _ _ success => absurd success not_succeeds_error

theorem validated {parsed : Except Exn α} {handle : α → Program Response}
    (rest : ∀ a, parsed = .ok a → OnSuccess svc s (handle a) post) :
    OnSuccess svc s (Handlers.validated parsed handle) post :=
  ensures_validated parsed rest fun _ failed success => absurd success failed

end OnSuccess

end

end RealWorld
