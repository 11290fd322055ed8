import RealWorld.Properties.Serialization

/-!
# Answers of one statement

A request of one statement is answered at once: among any others it gets the answer, and has the effect, that
it has alone in one store on the way, and requests one at a time can lead to that store.

A statement is one step here. So a function of several queries is taken to see one store, though each of its queries
takes a snapshot of its own, and the queries that go to any host are taken to meet one that is up to date: a host
that lags behind answers from a store of before the request.
-/

namespace RealWorld
open Schema Transactional

instance : Nonempty Moment := ⟨sampleMoment⟩

/-- Where `call`, alone, answers `r`, and the statement it executes there. -/
structure AnsweredAt (svc : Service) (call : Call) (r : Except Exn Response) (s : Store)
    (own : List (Event Sql Sql.Res Store)) : Prop where
  sequential : ∃ steps, Run svc steps s
  answer : ∃ ms, Response.ofExcept r = (respond svc call ms s).1 ∧
    (own = [] ∧ (respond svc call ms s).2 = s ∨
      ∃ e, own = [e] ∧ e.before = s ∧ e.after = (respond svc call ms s).2)

section
variable {svc : Service} {call : Call} {c c' : Configuration} {es : List (Event Sql Sql.Res Store)} {i : Nat}
  {r : Except Exn Response}

/-- Registration, login, the update of a profile and all that only reads: where each statement is one step, between
its arrival and its answer there is a moment at which the request has been answered alone. -/
theorem answered_at_once (single : call.route.single) (reachable : ReachableConfig svc c)
    (run : Interleaving svc c es c') (arrived : c.active[i]? = some (serve svc call))
    (ended : c'.outcome i = some r) :
    ∃ front rest mid, es = front ++ rest ∧ Interleaving svc c front mid ∧ Interleaving svc mid rest c' ∧
      AnsweredAt svc call r mid.store (es.filter fun e => e.client = i) := by
  obtain ⟨front, rest, mid, s, split, before, after, alone⟩ := run.once arrived (serve_single single) ended
  refine ⟨front, rest, mid, split, before, after, ?_, ?_⟩
  · obtain ⟨earlier, start⟩ := reachable
    obtain ⟨steps, sequential, _⟩ := serialized_after .empty (start.append before)
    exact ⟨steps, sequential⟩
  · obtain ⟨w, outcome⟩ := alone.alone
    have answer : respond svc call (fun _ => w) mid.store = (Response.ofExcept r, s) := by
      unfold respond
      rw [outcome]
    refine ⟨fun _ => w, by rw [answer], ?_⟩
    rw [answer]
    cases own : es.filter fun e => e.client = i with
    | nil => exact .inl ⟨rfl, alone.quiet own⟩
    | cons e own' =>
      obtain ⟨only, met, left⟩ := alone.event e (own ▸ List.mem_cons_self)
      exact .inr ⟨e, own.symm.trans only, met, left⟩

end

/-- An article is read while its author deletes it. -/
def sampleReading : List (Move Call Moment) :=
  [.arrive (sampleCall .deleteArticlesSlug 1 [("slug", "hello-there")]), sampleStep 4, sampleStep 3, sampleStep 4]

def sampleRead : Call := sampleCall .getArticlesSlug 2 [("slug", "hello-there")]

theorem answered_at_once_sample :
    let schedule := sampleSchedule sampleReading (sampleArrived sampleRead)
    schedule.2.store.articles = [] ∧ ∃ r, schedule.2.outcome 3 = some r ∧ (Response.ofExcept r).status = 200 ∧
      ∃ front rest mid, schedule.1 = front ++ rest ∧ Interleaving sample (sampleArrived sampleRead) front mid ∧
        Interleaving sample mid rest schedule.2 ∧
        AnsweredAt sample sampleRead r mid.store (schedule.1.filter fun e => e.client = 3) := by
  intro schedule
  have found : (schedule.2.outcome 3).any (fun r => decide ((Response.ofExcept r).status = 200)) = true := by
    decide +kernel
  obtain ⟨r, ended, status⟩ := (Option.any_eq_true _ _).mp found
  refine ⟨by decide +kernel, r, ended, of_decide_eq_true status, ?_⟩
  have single : sampleRead.route.single = true := rfl
  exact answered_at_once single (sampleArrived_reachable sampleRead) (sampleSchedule_trace _ _)
    (sampleArrived_active sampleRead) ended

end RealWorld
