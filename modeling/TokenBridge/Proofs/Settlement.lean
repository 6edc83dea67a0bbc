import TokenBridge.Proofs.Submission
import TokenBridge.Proofs.DerivedAuthority
/-!
A settlement from the client lands exactly when the ledger's checks of it pass.

The client's settlement takes the route's token authority from the search over bump seeds and
sends one Settle instruction, signed by the authority it is given. The ledger recomputes the token
authority from the bump seed the route keeps, which every initialized route agrees with
(`AuthorityAgrees`): the two addresses meet, so the address check always passes. What decides is
the rest: the route's config, its authority's signature, the route's mint, and the token side, a
mint into the user's account on a route to the home chain (`MintsTo`) and a transfer out of the
request's token account otherwise (`Transfers`). `settle_commits_iff` says the flow commits with a
state exactly when these hold of it; `derived_authority_settles` adds that the agreement holds on
a fresh ledger and after every run of transactions.

The token side checks more than the token authority's right to spend: the account paid out of
must hold the mint the request names (`settle_checks_escrow_mint`).
-/

namespace TokenBridge

open BridgeProgram Client

/-! ### The settlement flow -/

section Flow

variable {l : Ledger} {authority : Keypair} {r : SettleRequest}

/-- Once the search finds the route's token authority, the settlement assembles and submits the
Settle instruction that names it. -/
theorem settle_run_of_found {ta : Address} {b : UInt8}
    (hta : Address.findProgramAddress [r.route.bytes] l.program = some (ta, b)) :
    (Client.settle authority r).run.run l = (assembleOrStop "settle" authority.key
      [Builder.settle l.program ⟨r.route, ta, r.escrow, r.user, authority.key, r.mint, r.tokenProgram,
        r.config⟩ r.amount] [.keypair authority] >>= submit).run.run l := by
  unfold Client.settle
  rw [Flow.run_bind, Flow.run_get]
  simp only [hta]

/-- Only the payer signs a Settle instruction that the payer authorizes. -/
theorem signsFor_settle {program payer k : Address} {a : Builder.SettleAccounts} {amount : UInt64}
    (ha : a.authority = payer) :
    Message.signsFor payer [Builder.settle program a amount] k = true ↔ k = payer := by
  rw [Message.signsFor_eq_true, or_iff_left_of_imp]
  -- of the accounts the instruction names, only the authority's signs
  rintro ⟨ix, hix, ref, href, rfl, hs⟩
  rw [List.mem_singleton] at hix
  subst hix
  simp only [Builder.settle, Builder.bridgeInstruction, AccountRef.readonly, AccountRef.mutable,
    List.mem_cons, List.not_mem_nil, or_false] at href
  rcases href with rfl | rfl | rfl | rfl | rfl | rfl | rfl | rfl
  case inr.inr.inr.inr.inl => exact ha
  all_goals cases hs

theorem execute_settle (accounts : List Invoked) (amount : UInt64) :
    l.execute l.program accounts (Command.settle amount).pack = settle l.program accounts amount := by
  rw [Ledger.execute, if_pos (beq_self_eq_true _)]
  unfold process
  rw [(Command.unpack_eq_ok_iff (v := .settle amount)).2 ⟨trivial, rfl⟩]

/-- On an initialized route of a ledger whose routes agree with the search, a settlement signed by
a trusted key pair commits, ending in `s'`, exactly when the request names the route's config,
the key pair is the config's authority, the route's mint exists, and the token side goes through
under the token authority found: a mint on a route to the home chain, a transfer otherwise. -/
theorem settle_commits_iff {R : Route} (hagree : AuthorityAgrees l.program l.state)
    (htr : (Signer.keypair authority).Trusted l) (hR : routeAt l.program l.state r.route = some R)
    (hinit : R.initialized = true) :
    ∃ ta, Address.findProgramAddress [r.route.bytes] l.program = some (ta, R.bumpSeed) ∧
      Address.programAddress [r.route.bytes, [R.bumpSeed]] l.program = .ok ta ∧
      ∀ s', (∃ sig l', (Client.settle authority r).run.run l = (.ok sig, l') ∧ l'.state = s') ↔
        ∃ config, configAt l.program l.state r.config = some config ∧ R.config = r.config ∧
          authority.key = config.authority ∧ (l.state.mints.get? R.mint).isSome ∧
          if R.destination = 0 then MintsTo l.state r.mint r.user ta r.amount s'
          else Transfers l.state r.escrow r.mint r.user ⟨ta, true⟩ r.amount s' := by
  obtain ⟨ta, hta⟩ := hagree r.route R hR hinit
  have hpda : Address.programAddress [r.route.bytes, [R.bumpSeed]] l.program = .ok ta :=
    Address.findProgramAddress_eq_some hta
  refine ⟨ta, hta, hpda, fun s' => ?_⟩
  have hcover : ∀ k, Message.signsFor authority.key [Builder.settle l.program ⟨r.route, ta, r.escrow,
      r.user, authority.key, r.mint, r.tokenProgram, r.config⟩ r.amount] k = true →
      ∃ s ∈ [Signer.keypair authority], s.key = k := by
    intro k hk
    have hk' : k = authority.key := (signsFor_settle (by rfl)).1 hk
    exact ⟨.keypair authority, List.mem_singleton_self _, hk'.symm⟩
  rw [settle_run_of_found hta, assembleOrStop_submit_commits_iff (List.cons_ne_nil _ _) hcover
    (by simpa using htr)]
  -- the one instruction runs the Settle handler, with the authority as the one signer
  simp only [Ledger.runs_compile_iff, Ledger.runsAs_cons_iff, Ledger.runsAs_nil_iff, Builder.settle,
    Builder.bridgeInstruction, List.map_cons, List.map_nil, AccountRef.readonly, AccountRef.mutable,
    execute_settle, settle_run_eq_ok_iff, Message.signsFor, beq_self_eq_true, Bool.true_or, true_and]
  constructor
  · rintro ⟨lines, written, s₁, ⟨route, config, hr, hc, hcfg, hkey, -, hmint, hpay, -⟩, more,
      ⟨rfl, -⟩, -⟩
    rw [hR] at hr
    cases hr
    exact ⟨config, hc, hcfg, hkey, hmint, hpay⟩
  · rintro ⟨config, hc, hcfg, hkey, hmint, hpay⟩
    exact ⟨_, _, s', ⟨R, config, hR, hc, hcfg, hkey, hpda, hmint, hpay, rfl⟩, [], ⟨rfl, rfl⟩, rfl⟩

end Flow

/-- Every initialized route keeps the bump seed the search finds from its key, on a fresh ledger
and after any transactions; and on such a route a settlement by a trusted key pair commits exactly
when the route's config, its authority and mint, and the token side under the token authority
found all check out, with the effect of that token side. -/
theorem derived_authority_settles :
    (∀ program, AuthorityAgrees program {}) ∧
    (∀ (l : Ledger) (ts : List Transaction), AuthorityAgrees l.program l.state →
      AuthorityAgrees l.program (l.submitAll ts).2.state) ∧
    ∀ (l : Ledger) (authority : Keypair) (r : SettleRequest) (R : Route),
      AuthorityAgrees l.program l.state → (Signer.keypair authority).Trusted l →
      routeAt l.program l.state r.route = some R → R.initialized = true →
      ∃ ta, Address.findProgramAddress [r.route.bytes] l.program = some (ta, R.bumpSeed) ∧
        Address.programAddress [r.route.bytes, [R.bumpSeed]] l.program = .ok ta ∧
        ∀ s', (∃ sig l', (Client.settle authority r).run.run l = (.ok sig, l') ∧ l'.state = s') ↔
          ∃ config, configAt l.program l.state r.config = some config ∧ R.config = r.config ∧
            authority.key = config.authority ∧ (l.state.mints.get? R.mint).isSome ∧
            if R.destination = 0 then MintsTo l.state r.mint r.user ta r.amount s'
            else Transfers l.state r.escrow r.mint r.user ⟨ta, true⟩ r.amount s' := by
  refine ⟨authorityAgrees_empty, fun l ts hs => ?_,
    fun l authority r R hs htr hR hinit => settle_commits_iff hs htr hR hinit⟩
  obtain ⟨htr, -⟩ := Ledger.submitAll_trace l ts
  exact htr.authorityAgrees hs

/-! ### An escrow of another mint

A route to another chain, with its config, its mint and one more mint; the account the request
pays out of belongs to the route's token authority and holds 1000 of the other mint, and the
user's account holds the route's mint. -/

/-- The program. -/
def strayProgram : Address := Address.ofBytes [9]

/-- The key of the route. -/
def strayRoute : Address := Address.ofBytes [4]

/-- The key of the route's config. -/
def strayConfig : Address := Address.ofBytes [2]

/-- The route's mint. -/
def strayMint : Address := Address.ofBytes [3]

/-- Another mint. -/
def strayOther : Address := Address.ofBytes [8]

/-- The account paid out of. -/
def strayEscrow : Address := Address.ofBytes [6]

/-- The user's account. -/
def strayUser : Address := Address.ofBytes [7]

/-- The config's authority, a key pair whose every signature the ledger below accepts. -/
def straySigner : Keypair := ⟨Address.ofBytes [5], fun _ => [1]⟩

/-- The route's token authority, found from its key; kept folded, so that only the kernel runs the
search. -/
@[irreducible] def strayAuthority : Address :=
  ((Address.findProgramAddress [strayRoute.bytes] strayProgram).map Prod.fst).getD Address.zero

/-- An initialized route to chain 7, with the bump seed the search finds. -/
def strayRouteRecord : Route :=
  { initialized := true, bumpSeed := 255, config := strayConfig, escrow := strayEscrow,
    mint := strayMint, destination := 7, max := 1000, min := 1 }

def strayConfigRecord : Config :=
  { initialized := true, owner := straySigner.key, authority := straySigner.key,
    feeCollector := straySigner.key }

def strayState : State where
  accounts := (({} : Table Account).set strayRoute ⟨1000, strayProgram, strayRouteRecord.encode⟩).set
    strayConfig ⟨1000, strayProgram, strayConfigRecord.encode⟩
  mints := (({} : Table Mint).set strayMint ⟨some straySigner.key, 0, 9⟩).set strayOther
    ⟨some straySigner.key, 1000, 9⟩
  tokenAccounts := (({} : Table TokenAccount).set strayEscrow ⟨strayOther, strayAuthority, 1000, none⟩).set
    strayUser ⟨strayMint, straySigner.key, 0, none⟩

def strayLedger : Ledger := { program := strayProgram, state := strayState, checkSignature := fun _ _ _ => true }

/-- Settle 5 on the route into the user's account, paid out of the escrow of the other mint. -/
def strayRequest : SettleRequest :=
  ⟨strayRoute, strayConfig, strayEscrow, strayUser, strayMint, Address.tokenProgram2022, 5⟩

theorem stray_found :
    Address.findProgramAddress [strayRoute.bytes] strayProgram = some (strayAuthority, 255) := by
  decide +kernel

theorem stray_routeAt : routeAt strayProgram strayState strayRoute = some strayRouteRecord := by
  have hne : strayRoute ≠ strayConfig := by decide
  refine routeAt_eq_some.2 ⟨⟨1000, strayProgram, strayRouteRecord.encode⟩, ?_, rfl,
    Route.decode_encode _⟩
  simp only [strayState, Table.get?_set_of_ne _ _ hne, Table.get?_set_self]

theorem stray_configAt : configAt strayProgram strayState strayConfig = some strayConfigRecord := by
  refine recordAt_eq_some.2 ⟨⟨1000, strayProgram, strayConfigRecord.encode⟩, ?_, rfl,
    Config.decode_encode _⟩
  simp only [strayState, Table.get?_set_self]

theorem stray_agrees : AuthorityAgrees strayProgram strayState := by
  intro K r hK _
  obtain ⟨a, ha, -, hdec⟩ := recordAt_eq_some.1 ((routeAt_eq_recordAt).symm.trans hK)
  rcases Table.get?_set_eq_some ha with ⟨rfl, rfl⟩ | ⟨-, ha⟩
  · -- the config's data is too short for a route
    have hnone := Route.decode_toOption_of_length (b := strayConfigRecord.encode) (by decide)
    rw [hdec] at hnone
    cases hnone
  · rcases Table.get?_set_eq_some ha with ⟨rfl, rfl⟩ | ⟨-, ha⟩
    · rw [Route.decode_encode] at hdec
      cases hdec
      exact ⟨_, stray_found⟩
    · cases ha

theorem stray_trusted : (Signer.keypair straySigner).Trusted strayLedger :=
  ⟨fun _ => ⟨rfl, by simp [straySigner]⟩, fun _ _ _ he => nomatch he⟩

/-- A settlement on a route to another chain is refused when the account it pays out of holds
another mint than the request names, though that account is the token authority's and holds
enough, and the user's account has the mint and room for the amount. -/
theorem settle_checks_escrow_mint :
    ¬ ∀ (l : Ledger) (authority : Keypair) (r : SettleRequest) (R : Route) (config : Config)
        (ta : Address) (a d : TokenAccount),
      AuthorityAgrees l.program l.state → (Signer.keypair authority).Trusted l →
      routeAt l.program l.state r.route = some R → R.initialized = true → R.destination ≠ 0 →
      Address.findProgramAddress [r.route.bytes] l.program = some (ta, R.bumpSeed) →
      configAt l.program l.state r.config = some config → R.config = r.config →
      authority.key = config.authority → (l.state.mints.get? R.mint).isSome →
      l.state.tokenAccounts.get? r.escrow = some a → a.owner = ta → r.amount ≤ a.amount →
      l.state.tokenAccounts.get? r.user = some d → d.mint = r.mint →
      d.amount.toNat + r.amount.toNat < UInt64.size →
      ∃ sig l', (Client.settle authority r).run.run l = (.ok sig, l') := by
  intro hall
  -- the tables are read by their lemmas, so that the kernel does not search for the token
  -- authority again
  have hescrow : strayState.tokenAccounts.get? strayEscrow =
      some ⟨strayOther, strayAuthority, 1000, none⟩ := by
    have hne : strayEscrow ≠ strayUser := by decide
    simp only [strayState, Table.get?_set_of_ne _ _ hne, Table.get?_set_self]
  have huser : strayState.tokenAccounts.get? strayUser = some ⟨strayMint, straySigner.key, 0, none⟩ := by
    simp only [strayState, Table.get?_set_self]
  have hmint : (strayState.mints.get? strayMint).isSome := by
    have hne : strayMint ≠ strayOther := by decide
    simp only [strayState, Table.get?_set_of_ne _ _ hne, Table.get?_set_self, Option.isSome_some]
  obtain ⟨sig, l', h⟩ := hall strayLedger straySigner strayRequest strayRouteRecord strayConfigRecord
    strayAuthority ⟨strayOther, strayAuthority, 1000, none⟩ ⟨strayMint, straySigner.key, 0, none⟩
    stray_agrees stray_trusted stray_routeAt rfl (by decide) stray_found stray_configAt rfl rfl
    hmint hescrow rfl (by decide) huser rfl (by decide)
  obtain ⟨ta, -, -, hiff⟩ := settle_commits_iff (l := strayLedger) (r := strayRequest) stray_agrees
    stray_trusted stray_routeAt rfl
  obtain ⟨-, -, -, -, -, hpay⟩ := (hiff l'.state).1 ⟨sig, l', h, rfl⟩
  rw [if_neg (by decide)] at hpay
  -- the account paid out of must hold the mint the request names
  obtain ⟨a, -, -, ha, hmint, -⟩ := hpay
  rw [show strayLedger.state = strayState from rfl, show strayRequest.escrow = strayEscrow from rfl,
    hescrow] at ha
  cases ha
  exact absurd hmint (by decide)

end TokenBridge
