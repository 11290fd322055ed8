import RealWorld.Handlers.Secrets
import RealWorld.Properties.Storable

/-!
# Stored password hashes stay in the store

Only the login compares a hash. Every other request is answered without it, alone, after any requests
that were served before, and in any interleaving.
-/

namespace RealWorld
open Schema Transactional

theorem exec_respects (loc : DbLocale) : Respects Sql.Alike EqualUpToHash (Sql.exec loc) :=
  fun q _ _ _ same => same.exec q

/-- The answers to requests served one after the other, and the store they leave. -/
def serveAll (svc : Service) : List (Call × (Nat → Moment)) → Store → List Response × Store
  | [], s => ([], s)
  | (call, ms) :: calls, s =>
    let first := respond svc call ms s
    let rest := serveAll svc calls first.2
    (first.1 :: rest.1, rest.2)

section
variable {svc : Service} {s s' : Store}

theorem Schema.EqualUpToHash.respond (h : EqualUpToHash s s') {call : Call} (other : call.route ≠ .postUsersLogin)
    (ms : Nat → Moment) :
    (respond svc call ms s).1 = (respond svc call ms s').1 ∧
      EqualUpToHash (respond svc call ms s).2 (respond svc call ms s').2 := by
  obtain ⟨outcome, store⟩ := (serve_hides other).run (exec_respects svc.loc) ms h
  exact ⟨congrArg Response.ofExcept outcome, store⟩

theorem Schema.EqualUpToHash.serveAll (h : EqualUpToHash s s') {calls : List (Call × (Nat → Moment))}
    (others : ∀ call ∈ calls, call.1.route ≠ .postUsersLogin) :
    (serveAll svc calls s).1 = (serveAll svc calls s').1 ∧
      EqualUpToHash (serveAll svc calls s).2 (serveAll svc calls s').2 := by
  induction calls generalizing s s' with
  | nil => exact ⟨rfl, h⟩
  | cons call calls ih =>
    obtain ⟨other, others⟩ := List.forall_mem_cons.mp others
    obtain ⟨first, after⟩ := @Schema.EqualUpToHash.respond svc s s' h call.1 other call.2
    obtain ⟨rest, final⟩ := ih after others
    refine ⟨?_, final⟩
    show _ :: _ = _ :: _
    rw [first, rest]

/-- Nobody learns anything about a stored hash unless somebody logs in. -/
theorem password_secrecy (h : EqualUpToHash s s') :
    (∀ call ms, call.route ≠ .postUsersLogin →
        (respond svc call ms s).1 = (respond svc call ms s').1 ∧
          EqualUpToHash (respond svc call ms s).2 (respond svc call ms s').2) ∧
      (∀ calls : List (Call × (Nat → Moment)), (∀ call ∈ calls, call.1.route ≠ .postUsersLogin) →
        (serveAll svc calls s).1 = (serveAll svc calls s').1 ∧
          EqualUpToHash (serveAll svc calls s).2 (serveAll svc calls s').2) ∧
      ∀ moves : List (Move Call Moment), (∀ call ∈ arrivals moves, call.route ≠ .postUsersLogin) →
        let c := (Config.perform (Sql.exec svc.loc) (serve svc) ⟨s, []⟩ moves).2
        let c' := (Config.perform (Sql.exec svc.loc) (serve svc) ⟨s', []⟩ moves).2
        (∀ client, c.outcome client = c'.outcome client) ∧ EqualUpToHash c.store c'.store := by
  refine ⟨fun call ms other => h.respond other ms, fun calls others => h.serveAll others,
    fun moves others => ?_⟩
  have start : Config.Agree Sql.Alike EqualUpToHash (⟨s, []⟩ : Configuration) ⟨s', []⟩ := ⟨h, .nil⟩
  have secret : ∀ call ∈ arrivals moves, Hides (serve svc call) := fun call member => serve_hides (others call member)
  have final := start.perform (exec_respects svc.loc) secret
  exact ⟨final.outcome, final.store⟩

end

/-- `samplePublished` with hashes no password matches. -/
def sampleSalted : Store :=
  { samplePublished with users := samplePublished.users.map fun u => { u with passwordHash := "$2a$12$" } }

theorem sampleSalted_equal : EqualUpToHash samplePublished sampleSalted where
  fits := samplePublished_reachable.fits
  fits' := by
    refine ⟨fun u member => ?_, samplePublished_reachable.fits.articles⟩
    obtain ⟨v, stored, rfl⟩ := List.mem_map.mp member
    have fits := samplePublished_reachable.fits.users v stored
    have short : "$2a$12$".length ≤ 255 := by decide
    exact ⟨fits.email, short, fits.image⟩
  same := by decide

def sampleFollow : Call := sampleCall .postProfiles 1 [("username", "bert")]

/-- To follow a user, the service loads a whole row of `users`. -/
theorem password_secrecy_sample :
    (respond sample sampleFollow (fun _ => sampleMoment) samplePublished).1.status = 200 ∧
      (respond sample sampleFollow (fun _ => sampleMoment) samplePublished).1 =
        (respond sample sampleFollow (fun _ => sampleMoment) sampleSalted).1 :=
  ⟨by decide, ((password_secrecy sampleSalted_equal).1 sampleFollow (fun _ => sampleMoment) nofun).1⟩

/-- The login is what tells the two stores apart. -/
example : (respond sample (sampleLogin "secret") (fun _ => sampleMoment) samplePublished).1.status = 200 ∧
    (respond sample (sampleLogin "secret") (fun _ => sampleMoment) sampleSalted).1.status = 403 := by decide

end RealWorld
