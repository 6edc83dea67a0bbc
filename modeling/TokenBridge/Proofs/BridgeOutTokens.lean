import TokenBridge.Proofs.TokenAuthority
import TokenBridge.Proofs.BridgeFlow
/-!
Where a bridge-out's tokens go.

On a route to the home chain the amount is burnt: it leaves the user's token account (the third
account) and the supply of the route's mint. On a route to another chain it is moved, and no supply
changes; it goes to the second account of the instruction, the escrow that the caller names.
The bridge program reads the route's own escrow, `Route.escrow`, nowhere in a bridge-out: it asks of
the second account only that it is not the user's and holds the route's mint. So the route's escrow
receives the amount exactly when the caller names it (`bridge_tokens_reach_named_escrow`), and a
bridge-out that names another token account of the mint commits, logs the transfer, and leaves the
route's escrow as it was (`bridgeOut_skips_route_escrow`).

The moves are stated balance by balance, as the lamport moves of `Lamports` are (`TokenMove`).
-/

namespace TokenBridge

open BridgeProgram

namespace State

/-- The balance of the token account at `key`, 0 where there is none. -/
def tokenBalance (s : State) (key : Address) : Nat :=
  ((s.tokenAccounts.get? key).map (·.amount.toNat)).getD 0

end State

/-- From `s` to `s'`, `n` tokens went from the token account `source` to `target`, and no other
token balance changed. The two ends may be one account. -/
def TokenMove (s s' : State) (source target : Address) (n : Nat) : Prop :=
  ∀ k, s'.tokenBalance k + (if k = source then n else 0) =
    s.tokenBalance k + (if k = target then n else 0)

section Balances

variable {s s' : State}

theorem tokenBalance_of_tokens (h : s'.tokenAccounts = s.tokenAccounts) :
    s'.tokenBalance = s.tokenBalance := by
  funext k
  simp only [State.tokenBalance, h]

theorem supplyOf_of_mints (h : s'.mints = s.mints) : s'.supplyOf = s.supplyOf := by
  funext M
  simp only [State.supplyOf, h]

/-- Of a move between two accounts, of a positive amount, exactly the target gains the amount. -/
theorem TokenMove.gains_iff {source target : Address} {n : Nat} (h : TokenMove s s' source target n)
    (hne : source ≠ target) (hpos : 0 < n) (k : Address) :
    s'.tokenBalance k = s.tokenBalance k + n ↔ k = target := by
  have hk := h k
  by_cases ht : k = target
  · subst ht
    simp only [hne.symm, if_false, if_true, add_zero] at hk
    simpa using hk
  · simp only [ht, if_false, add_zero] at hk
    by_cases hs : k = source
    · subst hs
      simp only [if_true] at hk
      simp only [ht, iff_false]
      omega
    · simp only [hs, if_false, add_zero] at hk
      simp only [ht, iff_false]
      omega

variable {source mint target : Address} {authority : Invoked} {amount : UInt64}

/-- A transfer moves the amount from the source to the destination and keeps the mints. -/
theorem Transfers.tokenMove (h : Transfers s source mint target authority amount s') :
    TokenMove s s' source target amount.toNat ∧ s'.mints = s.mints := by
  obtain ⟨a, after, d, ha, -, hle, -, -, -, -, d', hd', hfit, rfl⟩ := h
  refine ⟨fun k => ?_, rfl⟩
  have hsub := UInt64.toNat_sub_of_le _ _ hle
  have hle' := UInt64.le_iff_toNat_le.1 hle
  have hadd : (d'.amount + amount).toNat = d'.amount.toNat + amount.toNat := by
    rw [UInt64.toNat_add]
    exact Nat.mod_eq_of_lt hfit
  rw [Table.get?_set] at hd'
  simp only [State.tokenBalance, Table.get?_set]
  -- the destination, as the withdrawal left it, is the source itself or the account it was
  by_cases ht : k = target
  · subst ht
    by_cases hs : k = source
    · subst hs
      simp only [if_true, Option.some.injEq] at hd' ⊢
      subst hd'
      simp only [ha, Option.map_some, Option.getD_some, hadd, hsub]
      omega
    · simp only [hs, if_false, if_true] at hd' ⊢
      simp [hd', hadd]
  · by_cases hs : k = source
    · subst hs
      simp only [ht, if_false, if_true, add_zero, Option.map_some, Option.getD_some, ha, hsub]
      omega
    · simp only [ht, hs, if_false]

/-- A burn takes the amount out of the source and out of its mint's supply, and changes no other
balance or supply. -/
theorem Burns.balances (h : Burns s source mint authority amount s') :
    (∀ k, s'.tokenBalance k + (if k = source then amount.toNat else 0) = s.tokenBalance k) ∧
      ∀ M, s'.supplyOf M + (if M = mint then amount.toNat else 0) = s.supplyOf M := by
  obtain ⟨a, after, m, ha, -, hle, -, -, hm, hsup, rfl⟩ := h
  have hsub := UInt64.toNat_sub_of_le _ _ hle
  have hsub' := UInt64.toNat_sub_of_le _ _ hsup
  have hle' := UInt64.le_iff_toNat_le.1 hle
  have hsup' := UInt64.le_iff_toNat_le.1 hsup
  refine ⟨fun k => ?_, fun M => ?_⟩
  · simp only [State.tokenBalance, Table.get?_set]
    by_cases hs : k = source
    · subst hs
      simp only [if_true, ha, Option.map_some, Option.getD_some, hsub]
      omega
    · simp only [hs, if_false, add_zero]
  · simp only [State.supplyOf, Table.get?_set]
    by_cases hM : M = mint
    · subst hM
      simp only [if_true, hm, Option.map_some, Option.getD_some, hsub']
      omega
    · simp only [hM, if_false, add_zero]

end Balances

/-! ### A bridge-out's tokens -/

section BridgeOut

variable {program : Address} {accounts : List Invoked} {s s' : State} {lines : List String}

/-- A bridge-out on the route at `routeKey` (the first account) burns the amount out of the user's
account (the third) on a route to the home chain, and otherwise moves it from the user's account to
the second account, which is not the user's, with no supply changed. -/
theorem bridgeOut_tokens {amount : UInt64} {recipient : String} {payload : Bytes}
    (h : (bridgeOut program accounts amount recipient payload).run s = .ok (lines, s'))
    {routeKey escrow user : Address} {route : Route} (h0 : (accounts[0]?).map Invoked.key = some routeKey)
    (h1 : (accounts[1]?).map Invoked.key = some escrow)
    (h2 : (accounts[2]?).map Invoked.key = some user) (hR : routeAt program s routeKey = some route) :
    (route.destination ≠ 0 → user ≠ escrow ∧ TokenMove s s' user escrow amount.toNat ∧
      s'.supplyOf = s.supplyOf) ∧
    (route.destination = 0 →
      (∀ k, s'.tokenBalance k + (if k = user then amount.toNat else 0) = s.tokenBalance k) ∧
      ∀ M, s'.supplyOf M + (if M = route.mint then amount.toNat else 0) = s.supplyOf M) := by
  obtain ⟨rk, escrow', user', mint, authority, route', config, s₁, s₂, h0', h1', h2', -, -, -, -, hr,
    -, hmint, -, -, hfee, htok, -, hw, -⟩ := bridgeOut_effect h
  obtain rfl : rk = routeKey := Option.some.inj (h0'.symm.trans h0)
  obtain rfl : escrow' = escrow := Option.some.inj (h1'.symm.trans h1)
  obtain rfl : user' = user := Option.some.inj (h2'.symm.trans h2)
  obtain rfl : route' = route := Option.some.inj (hr.symm.trans hR)
  -- the fee and the route's record hold no tokens: the tokens move between `s₁` and `s₂` alone
  obtain ⟨hm₁, ht₁⟩ := hfee.tokens
  obtain ⟨hm', ht'⟩ := writeRecord_tokens hw
  unfold TokenMove
  rw [tokenBalance_of_tokens ht', supplyOf_of_mints hm', ← tokenBalance_of_tokens ht₁,
    ← supplyOf_of_mints hm₁]
  rcases htok with ⟨hd, hburn⟩ | ⟨hd, hne, hmove⟩
  · refine ⟨fun h => absurd hd h, fun _ => ?_⟩
    subst hmint
    exact (burn_spec hburn).balances
  · obtain ⟨hmove, hm⟩ := (transferTokens_spec hmove).tokenMove
    exact ⟨fun _ => ⟨hne, hmove, supplyOf_of_mints hm⟩, fun h => absurd h hd⟩

end BridgeOut

/-! ### Every committed bridge-out -/

namespace Ledger

/-- A call that runs a bridge-out ran the bridge program's handler on its accounts. -/
theorem Ran.bridgeOut_run {l : Ledger} {c : Call} {s s' : State} {amount : UInt64}
    {recipient : String} {payload : Bytes} (h : l.Ran c s s')
    (hc : l.RunsCommand c (.bridge amount recipient payload)) :
    (bridgeOut l.program c.accounts amount recipient payload).run s = .ok (c.written, s') := by
  obtain ⟨-, hb⟩ := h.process_of_commandTag (commandTag?_eq hc.1 hc.2)
  simpa only [process, hc.2] using hb

/-- Where the tokens of a committed bridge-out go, for every ledger, state and call. On a route to
another chain they leave the user's account (the third) for the second account, which is not the
user's, and no supply changes; so the route's escrow gains a positive amount exactly when the call
names it second. On a route to the home chain they leave the user's account and the supply of the
route's mint. -/
theorem bridge_tokens_reach_named_escrow (l : Ledger) (c : Call) (s s' : State) (amount : UInt64)
    (recipient : String) (payload : Bytes) (routeKey escrow user : Address) (R : Route)
    (hrun : l.Ran c s s') (hcmd : l.RunsCommand c (.bridge amount recipient payload))
    (h0 : (c.accounts[0]?).map Invoked.key = some routeKey)
    (h1 : (c.accounts[1]?).map Invoked.key = some escrow)
    (h2 : (c.accounts[2]?).map Invoked.key = some user) (hR : routeAt l.program s routeKey = some R) :
    (R.destination ≠ 0 →
      user ≠ escrow ∧ TokenMove s s' user escrow amount.toNat ∧ s'.supplyOf = s.supplyOf ∧
        (0 < amount.toNat →
          (s'.tokenBalance R.escrow = s.tokenBalance R.escrow + amount.toNat ↔ escrow = R.escrow))) ∧
    (R.destination = 0 →
      (∀ k, s'.tokenBalance k + (if k = user then amount.toNat else 0) = s.tokenBalance k) ∧
      ∀ M, s'.supplyOf M + (if M = R.mint then amount.toNat else 0) = s.supplyOf M) := by
  obtain ⟨hforeign, hhome⟩ := bridgeOut_tokens (hrun.bridgeOut_run hcmd) h0 h1 h2 hR
  refine ⟨fun hd => ?_, hhome⟩
  obtain ⟨hne, hmove, hsup⟩ := hforeign hd
  exact ⟨hne, hmove, hsup, fun hpos => (hmove.gains_iff hne hpos R.escrow).trans eq_comm⟩

/-! ### A bridge-out into another account of the mint

A route to another chain, at key 4, with its escrow at key 6; its config, at key 2, asks no fee.
The user's account, at key 7, holds 1000 of the route's mint (key 3) and belongs to key 5, which
signs; another account of the mint, at key 10, belongs to key 11. The bridge-out of 5 names key 10
as its escrow. -/

def divertProgram : Address := Address.ofBytes [9]

def divertRoute : Route :=
  { initialized := true, tokenProgram := Address.tokenProgram2022, config := Address.ofBytes [2],
    escrow := Address.ofBytes [6], mint := Address.ofBytes [3], destination := 4689, max := 1000,
    min := 1 }

def divertConfig : Config :=
  { initialized := true, owner := Address.ofBytes [5], authority := Address.ofBytes [5],
    feeCollector := Address.ofBytes [5] }

def divertUser : TokenAccount := ⟨Address.ofBytes [3], Address.ofBytes [5], 1000, none⟩

def divertOther : TokenAccount := ⟨Address.ofBytes [3], Address.ofBytes [11], 0, none⟩

def divertState : State where
  accounts := (({} : Table Account).set (Address.ofBytes [4])
    ⟨1000, divertProgram, divertRoute.encode⟩).set (Address.ofBytes [2])
    ⟨1000, divertProgram, divertConfig.encode⟩
  mints := ({} : Table Mint).set (Address.ofBytes [3]) ⟨some (Address.ofBytes [5]), 1000, 9⟩
  tokenAccounts := ((({} : Table TokenAccount).set (Address.ofBytes [6])
    ⟨Address.ofBytes [3], Address.ofBytes [12], 0, none⟩).set (Address.ofBytes [7]) divertUser).set
    (Address.ofBytes [10]) divertOther

def divertLedger : Ledger := { program := divertProgram, checkSignature := fun _ _ _ => true }

/-- The state after the bridge-out: key 10 holds the 5 that left the user's account, and the route
has its index one more; the route's escrow, at key 6, is as it was. -/
def divertAfter : State :=
  { divertState with
    tokenAccounts := (divertState.tokenAccounts.set (Address.ofBytes [7])
      { divertUser with amount := divertUser.amount - 5 }).set (Address.ofBytes [10])
      { divertOther with amount := divertOther.amount + 5 },
    accounts := divertState.accounts.set (Address.ofBytes [4])
      ⟨1000, divertProgram, { divertRoute with index := divertRoute.index + 1 }.encode⟩ }

/-- The bridge-out of 5 to "x", with key 10 second, and the line it writes. -/
def divertCall : Call :=
  { program := divertProgram,
    accounts := [⟨Address.ofBytes [4], false⟩, ⟨Address.ofBytes [10], false⟩,
      ⟨Address.ofBytes [7], false⟩, ⟨Address.ofBytes [5], true⟩, ⟨Address.ofBytes [3], false⟩,
      ⟨Address.tokenProgram2022, false⟩, ⟨Address.ofBytes [2], false⟩],
    data := (Command.bridge 5 "x" []).pack,
    written := [logLine (LogLine.ofLog ⟨divertRoute.mint, divertRoute.index + 1, Address.ofBytes [7],
      "x", 5, divertConfig.fee, divertRoute.destination, []⟩)] }

theorem divert_routeAt : routeAt divertProgram divertState (Address.ofBytes [4]) = some divertRoute := by
  have hne : Address.ofBytes [4] ≠ Address.ofBytes [2] := by decide
  refine routeAt_eq_some.2 ⟨⟨1000, divertProgram, divertRoute.encode⟩, ?_, rfl,
    Route.decode_encode _⟩
  simp only [divertState, Table.get?_set_of_ne _ _ hne, Table.get?_set_self]

theorem divert_configAt :
    configAt divertProgram divertState (Address.ofBytes [2]) = some divertConfig := by
  refine recordAt_eq_some.2 ⟨⟨1000, divertProgram, divertConfig.encode⟩, ?_, rfl,
    Config.decode_encode _⟩
  simp only [divertState, Table.get?_set_self]

theorem divert_runsCommand : divertLedger.RunsCommand divertCall (.bridge 5 "x" []) :=
  ⟨rfl, Command.unpack_eq_ok_iff.2 ⟨⟨by decide, by decide⟩, rfl⟩⟩

/-- The bridge-out goes through: the user's account pays key 10. -/
theorem divert_runs : divertLedger.Ran divertCall divertState divertAfter := by
  have huser : divertState.tokenAccounts.get? (Address.ofBytes [7]) = some divertUser := by
    have hne : Address.ofBytes [7] ≠ Address.ofBytes [10] := by decide
    simp only [divertState, Table.get?_set_of_ne _ _ hne, Table.get?_set_self]
  have hother : divertState.tokenAccounts.get? (Address.ofBytes [10]) = some divertOther := by
    simp only [divertState, Table.get?_set_self]
  have hmint : (divertState.mints.get? (Address.ofBytes [3])).isSome := by
    simp only [divertState, Table.get?_set_self, Option.isSome_some]
  have hroute : divertState.accounts.get? (Address.ofBytes [4]) =
      some ⟨1000, divertProgram, divertRoute.encode⟩ := by
    have hne : Address.ofBytes [4] ≠ Address.ofBytes [2] := by decide
    simp only [divertState, Table.get?_set_of_ne _ _ hne, Table.get?_set_self]
  unfold Ran
  rw [show divertCall.program = divertLedger.program from rfl,
    show divertCall.data = (Command.bridge 5 "x" []).pack from rfl,
    execute_bridge ⟨by decide, by decide⟩]
  -- the tokens move first; the route's record is written last
  refine (bridgeOut_run_eq_ok_iff _ _ _ _ _ _ _ []).2 ⟨divertRoute, divertConfig, divertState,
    { divertAfter with accounts := divertState.accounts }, divert_routeAt, divert_configAt, rfl, rfl, rfl, by decide, hmint,
    (feeMoved_iff_of_zero rfl).2 rfl, ?_, by decide, ?_, rfl⟩
  · -- the user's account pays the second account, another account of the mint
    rw [if_neg (by decide)]
    refine ⟨by decide, divertUser, none, divertOther, huser, rfl, by decide, rfl, .inl ⟨rfl, rfl⟩,
      hother, rfl, divertOther, ?_, by decide, rfl⟩
    have hne : Address.ofBytes [10] ≠ Address.ofBytes [7] := by decide
    simp only [Table.get?_set_of_ne _ _ hne, hother]
  · exact writeRecord_run_eq_ok.2 ⟨_, hroute, rfl, rfl⟩

/-- The bridge-out moves its 5 from the user's account to key 10. -/
theorem divert_moves_to_named_account :
    TokenMove divertState divertAfter (Address.ofBytes [7]) (Address.ofBytes [10]) 5 :=
  ((bridge_tokens_reach_named_escrow divertLedger divertCall divertState divertAfter 5 "x" []
    (Address.ofBytes [4]) (Address.ofBytes [10]) (Address.ofBytes [7]) divertRoute divert_runs
    divert_runsCommand rfl rfl rfl divert_routeAt).1 (by decide)).2.1

/-- A committed bridge-out on an initialized route to another chain need not pay the route's
escrow: it pays whichever account of the mint the call names second. -/
theorem bridgeOut_skips_route_escrow :
    ¬ ∀ (l : Ledger) (c : Call) (s s' : State) (amount : UInt64) (recipient : String)
        (payload : Bytes) (routeKey : Address) (R : Route),
      l.Ran c s s' → l.RunsCommand c (.bridge amount recipient payload) →
      (c.accounts[0]?).map Invoked.key = some routeKey → routeAt l.program s routeKey = some R →
      R.initialized = true → R.destination ≠ 0 →
      s'.tokenBalance R.escrow = s.tokenBalance R.escrow + amount.toNat := by
  intro hall
  have hgain := hall divertLedger divertCall divertState divertAfter 5 "x" [] (Address.ofBytes [4])
    divertRoute divert_runs divert_runsCommand rfl divert_routeAt rfl (by decide)
  -- the bridge-out paid key 10, so no other account gained anything
  obtain ⟨hforeign, -⟩ := bridgeOut_tokens (divert_runs.bridgeOut_run divert_runsCommand) rfl rfl
    rfl divert_routeAt
  obtain ⟨hne, hmove, -⟩ := hforeign (by decide)
  have hpaid := (hmove.gains_iff hne (by decide) divertRoute.escrow).1 hgain
  exact absurd hpaid (by decide)

end Ledger

end TokenBridge
