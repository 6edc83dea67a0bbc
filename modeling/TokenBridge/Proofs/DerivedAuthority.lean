import TokenBridge.Proofs.RouteLimits
/-!
A route's token authority is the program address of its key under the bump seed it keeps.

The token authority of a route, which holds its escrow or the authority of its mint, is found
from the route's key alone: the search tries bump seeds from 255 down and returns the first whose
program address exists, with that address (`Address.findProgramAddress_eq_some`). A create stores
the bump seed it found and checks the authority against the address; a settlement recomputes the
address from the stored bump seed. Nothing else writes a bump seed, and the system program makes a
route's account anew only as zeros, which are no initialized route. So every initialized route
keeps a bump seed under which the search and the recomputation meet (`AuthorityAgrees`), after
every call (`Ran.authorityAgrees`) and every run of calls (`Trace.authorityAgrees`).
-/

namespace TokenBridge

open BridgeProgram

namespace Address

variable {seeds : List Bytes} {program a : Address} {bump : UInt8}

/-- The search returns a bump seed with the program address it found under it. -/
theorem findFrom_eq_some : ∀ {n : Nat}, findFrom seeds program n = some (a, bump) →
    programAddress (seeds ++ [[bump]]) program = .ok a
  | 0, h => by simp [findFrom] at h
  | n + 1, h => by
    unfold findFrom at h
    split at h
    · rename_i a' ha'
      obtain ⟨rfl, rfl⟩ := Prod.mk.inj (Option.some.inj h)
      exact ha'
    · exact findFrom_eq_some h
    · cases h

theorem findProgramAddress_eq_some (h : findProgramAddress seeds program = some (a, bump)) :
    programAddress (seeds ++ [[bump]]) program = .ok a :=
  findFrom_eq_some h

end Address

/-- Every initialized route that the program keeps has the bump seed that the search from its key
finds. -/
def AuthorityAgrees (program : Address) (s : State) : Prop :=
  ∀ K r, routeAt program s K = some r → r.initialized = true →
    ∃ a, Address.findProgramAddress [K.bytes] program = some (a, r.bumpSeed)

/-- A ledger that keeps no accounts keeps no route to disagree. -/
theorem authorityAgrees_empty (program : Address) : AuthorityAgrees program {} := by
  intro K r hK
  simp [routeAt, Table.get?] at hK

section Handlers

variable {program : Address} {accounts : List Invoked} {s s' : State} {lines : List String}

/-- Writing a route whose bump seed, if it is initialized, is the one found from its key keeps
every bump seed found. -/
theorem AuthorityAgrees.writeRecord {rk : Address} {r : Route} {u : Unit}
    (hs : AuthorityAgrees program s)
    (hfound : r.initialized = true →
      ∃ a, Address.findProgramAddress [rk.bytes] program = some (a, r.bumpSeed))
    (hw : (writeRecord program rk r.encode).run s = .ok (u, s')) : AuthorityAgrees program s' := by
  intro K r' hK' hinit'
  obtain ⟨hat, hframe⟩ := routeAt_writeRecord hw
  by_cases hk : K = rk
  · subst hk
    rw [hat, Route.decode_encode] at hK'
    obtain rfl := Option.some.inj hK'
    exact hfound hinit'
  · exact hs K r' ((hframe K hk).symm.trans hK') hinit'

/-- Every command of the bridge program keeps the bump seeds found: a create writes the one it
found, and a bridge-out and a change of limits write a route with its bump seed as it was. -/
theorem process_authorityAgrees {data : Bytes}
    (h : (process program accounts data).run s = .ok (lines, s'))
    (hs : AuthorityAgrees program s) : AuthorityAgrees program s' := by
  intro K r' hK' hinit'
  obtain ⟨cmd, hcmd, hspec⟩ := process_cases h
  cases cmd with
  | bridge amount recipient payload =>
    obtain ⟨rk, log, -, -, -, -, -, route, -, hat, -, -, -, -, -, hat', hframe, -⟩ := hspec
    by_cases hk : K = rk
    · subst hk
      rw [hat'] at hK'
      cases hK'
      exact hs K route hat hinit'
    · exact hs K r' ((hframe K hk).symm.trans hK') hinit'
  | create destination max min =>
    simp only [process, hcmd] at h
    obtain ⟨-, -, rk, ta, mint, escrow, tp, ck, owner, c, existing, bump, -, -, -, -, -, -, -, -, -,
      -, -, -, hfind, hw⟩ := create_effect h
    exact hs.writeRecord (fun _ => ⟨ta, hfind⟩) hw K r' hK' hinit'
  | changeLimit max min =>
    simp only [process, hcmd] at h
    obtain ⟨-, -, ck, rk, -, -, r, -, -, -, -, -, -, hr, -, hw⟩ := changeLimit_effect h
    exact hs.writeRecord (r := { r with max, min }) (fun hinit => hs rk r hr hinit) hw K r' hK'
      hinit'
  | _ => exact hs K r' (hspec.1 ▸ hK') hinit'

end Handlers

namespace Ledger

variable {l : Ledger} {c : Call} {s s' : State}

/-- An initialized route after a call was there before it, or the call ran the bridge program:
the system program makes accounts anew only as zeros, and the token program writes no account. -/
theorem Ran.routeAt_of_initialized {K : Address} {r : Route} (h : l.Ran c s s')
    (hK : routeAt l.program s' K = some r) (hinit : r.initialized = true) :
    routeAt l.program s K = some r ∨
      (process l.program c.accounts c.data).run s = .ok (c.written, s') := by
  rcases h.cases with ⟨-, hb⟩ | ⟨-, -, -, u, hsys⟩ | ⟨-, -, -, hkeep⟩
  · exact .inr hb
  · cases hal : allocatesAt c.accounts c.data K
    · exact .inl ((processSystem_recordAt decode_nil_toOption hsys hal).symm.trans hK)
    · -- the account made anew holds zeros, which read as no initialized route
      obtain ⟨a, n, ha, hzero⟩ := processSystem_allocated hsys hal
      obtain ⟨b, hb, -, hdec⟩ := recordAt_eq_some.1 ((routeAt_eq_recordAt).symm.trans hK)
      rw [ha] at hb
      cases hb
      rw [hzero] at hdec
      rw [Route.not_initialized_of_zeros hdec] at hinit
      cases hinit
  · exact .inl ((congrFun (routeAt_of_accounts hkeep) K).symm.trans hK)

theorem Ran.authorityAgrees (h : l.Ran c s s') (hs : AuthorityAgrees l.program s) :
    AuthorityAgrees l.program s' := by
  intro K r hK hinit
  rcases h.routeAt_of_initialized hK hinit with hK₀ | hb
  · exact hs K r hK₀ hinit
  · exact process_authorityAgrees hb hs K r hK hinit

theorem Trace.authorityAgrees {cs : List Call} (h : l.Trace s cs s')
    (hs : AuthorityAgrees l.program s) : AuthorityAgrees l.program s' := by
  induction h with
  | nil s => exact hs
  | cons hc _ ih => exact ih (hc.authorityAgrees hs)

end Ledger

end TokenBridge
