import TokenBridge.Proofs.Submission
import TokenBridge.Proofs.BuilderFlags
/-!
A bridge-out by the client commits exactly when the bridge program's checks pass.

The client reads the route's config to learn whether a fee is due, builds the Bridge instruction
with the fee accounts only then, and, to approve and bridge, puts before it an approval by the
payer that lets the transfer authority spend the amount from the user's account. With both key
pairs trusted, the transaction commits exactly when its instructions run through
(`assembleOrStop_submit_commits_iff`): the approval on the ledger's token program
(`approve_runs_iff`), then the Bridge instruction, whose run is the handler's
(`bridgeOut_run_eq_ok_iff`) with the fee and the signers the client gave it (`bridgeOut_runs_iff`).
What it asks and does, from the state after the approval, is `BridgesOut`; the whole flow is
`bridge_commits_iff`.

The user's account must hold the route's mint: a transfer to the escrow of a route to another
chain checks both accounts against it, and a burn checks the account it burns from.
-/

namespace TokenBridge

open BridgeProgram Client

/-! ### The approval -/

/-- The owner of the token account at `source` lets `delegate` spend `amount` from it, from `s` to
`s'`. -/
def Delegates (s : State) (source delegate owner : Address) (amount : UInt64) (s' : State) : Prop :=
  ∃ a, s.tokenAccounts.get? source = some a ∧ a.owner = owner ∧
    s' = { s with
      tokenAccounts := s.tokenAccounts.set source { a with delegate := some (delegate, amount) } }

section Approval

variable {s s' : State} {tp source delegate owner : Address} {amount : UInt64}

theorem Delegates.accounts_eq (h : Delegates s source delegate owner amount s') :
    s'.accounts = s.accounts := by
  obtain ⟨a, -, -, rfl⟩ := h
  rfl

theorem Delegates.mints_eq (h : Delegates s source delegate owner amount s') : s'.mints = s.mints := by
  obtain ⟨a, -, -, rfl⟩ := h
  rfl

theorem toUInt64_approveData (amount : UInt64) :
    (Bytes.toNatLE ((approveData amount).drop 1)).toUInt64 = amount := by
  have hlt : amount.toNat < Nat.pow 256 8 := amount.toNat_lt
  simp only [approveData, List.drop_one, List.tail_cons, Wire.u64, Bytes.toNatLE_ofNatLE,
    Nat.mod_eq_of_lt hlt, UInt64.ofNat_toNat]

theorem processToken_approve_iff (source delegate owner : Invoked) (amount : UInt64) {u : Unit} :
    (processToken [source, delegate, owner] (approveData amount)).run s = .ok (u, s') ↔
      owner.signer = true ∧ Delegates s source.key delegate.key owner.key amount s' := by
  constructor
  · intro h
    obtain ⟨-, -, src, del, own, a, h0, h1, h2, hsig, ha, hown, rfl⟩ := processToken_spec h
    simp only [List.getElem?_cons_zero, List.getElem?_cons_succ, Option.some.injEq] at h0 h1 h2
    subst h0 h1 h2
    exact ⟨hsig, a, ha, hown, by rw [toUInt64_approveData]⟩
  · rintro ⟨hsig, a, ha, hown, rfl⟩
    unfold processToken
    have hlen : (approveData amount).length = 9 := by simp [approveData, Wire.u64]
    have hhead : (approveData amount).head? = some approveTag := rfl
    simp only [hlen, hhead, bne_self_eq_false, Bool.or_false, Bool.false_eq_true, if_false,
      toUInt64_approveData, nth, List.getElem?_cons_zero, List.getElem?_cons_succ, pure_bind,
      bind_run_eq_ok, requireSigner_run_eq_ok, get_run_eq_ok]
    refine ⟨(), s, ⟨hsig, rfl⟩, s, s, ⟨rfl, rfl⟩, ?_⟩
    rw [ha]
    dsimp only
    rw [if_neg (by simpa using hown)]
    exact set_run_eq_ok.2 rfl

/-- The builder makes an approval for each of the two token programs. -/
theorem approve_of_tokenProgram (htp : tp = Address.tokenProgram2022 ∨ tp = Address.tokenProgram) :
    Builder.approve tp source delegate owner amount =
      .ok ⟨tp, [AccountRef.mutable source false, AccountRef.readonly delegate false,
        AccountRef.readonly owner true], approveData amount⟩ := by
  unfold Builder.approve
  rw [if_pos (by rcases htp with rfl | rfl <;> simp)]

/-- The one account that signs an approval is its owner. -/
theorem signer_of_approve {ix : Instruction} {ref : AccountRef}
    (hix : Builder.approve tp source delegate owner amount = .ok ix) (href : ref ∈ ix.accounts)
    (hs : ref.signer = true) : ref.key = owner := by
  rw [(approve_eq_ok hix).2] at href
  simp only [List.mem_cons, List.not_mem_nil, or_false] at href
  rcases href with rfl | rfl | rfl
  · cases hs
  · cases hs
  · rfl

variable {l : Ledger}

/-- An approval the builder makes runs, with its owner signing, exactly when its program is the
ledger's token program (and not the bridge program) and the owner's account lets the delegate
spend the amount. -/
theorem approve_runs_iff {ix : Instruction}
    (hix : Builder.approve tp source delegate owner amount = .ok ix) {signs : Address → Bool}
    (hown : signs owner = true) :
    (∃ written, (l.execute ix.program (ix.accounts.map fun r => ⟨r.key, signs r.key⟩) ix.data).run s =
        .ok (written, s')) ↔
      tp ≠ l.program ∧ tp = l.tokenProgram ∧ Delegates s source delegate owner amount s' := by
  obtain ⟨htp, rfl⟩ := approve_eq_ok hix
  have hsys : tp ≠ Address.systemProgram := by rcases htp with rfl | rfl <;> decide
  simp only [execute_token hsys (unpack_approveData amount)]
  by_cases hp : tp = l.program
  · simp only [hp, if_true, ne_eq, not_true_eq_false, false_and, iff_false, not_exists]
    exact fun _ => fail_run_ne_ok
  by_cases ht : tp = l.tokenProgram
  · rw [if_neg hp, if_pos ht]
    simp only [bind_run_eq_ok, pure_run_eq_ok, List.map_cons, List.map_nil, AccountRef.mutable,
      AccountRef.readonly, processToken_approve_iff, hown, true_and]
    constructor
    · rintro ⟨_, _, _, hd, -, rfl⟩
      exact ⟨hp, ht, hd⟩
    · rintro ⟨-, -, hd⟩
      exact ⟨[], (), s', hd, rfl, rfl⟩
  · simp only [hp, ht, if_false, false_and, and_false, iff_false, not_exists]
    exact fun _ => fail_run_ne_ok

end Approval

/-! ### The Bridge instruction -/

/-- What a bridge-out of request `r` on route `R` under config `C` asks of the state `s` and makes
of it, paid by `payer` on the word of `authority`: the route is of the config and token program
asked for and takes the amount, its mint is the request's and exists; then the fee, when there is
one, goes from the payer to the collector; the amount leaves the user's account, burnt on a home
route and moved into the escrow of a route to another chain; and the route's index grows by one. -/
def BridgesOut (program payer authority : Address) (r : BridgeRequest) (R : Route) (C : Config)
    (s s' : State) : Prop :=
  ∃ s₁ s₂, R.config = r.config ∧ r.tokenProgram = R.tokenProgram ∧
    R.acceptsAmount r.amount = true ∧ R.mint = r.mint ∧ (s.mints.get? r.mint).isSome ∧
    (if C.fee = 0 then s₁ = s
      else (transferLamports payer C.feeCollector C.fee).run s = .ok ((), s₁)) ∧
    (if R.destination = 0 then Burns s₁ r.user r.mint ⟨authority, true⟩ r.amount s₂
      else r.user ≠ r.escrow ∧ Transfers s₁ r.user r.mint r.escrow ⟨authority, true⟩ r.amount s₂) ∧
    R.index.toNat + 1 < UInt64.size ∧
    (writeRecord program r.route { R with index := R.index + 1 }.encode).run s₂ = .ok ((), s')

/-- After a bridge-out the route reads as before, with its index one more. -/
theorem BridgesOut.routeAt_route {program payer authority : Address} {r : BridgeRequest} {R : Route}
    {C : Config} {s s' : State} (h : BridgesOut program payer authority r R C s s') :
    routeAt program s' r.route = some { R with index := R.index + 1 } := by
  obtain ⟨s₁, s₂, -, -, -, -, -, -, -, -, hw⟩ := h
  rw [(routeAt_writeRecord hw).1, Route.decode_encode]
  rfl

/-- The Bridge instruction the client builds for request `r` under config `C`: with the fee
accounts of `payer` and the collector only when a fee is due. -/
def Client.BridgeRequest.instruction (r : BridgeRequest) (program payer authority : Address)
    (C : Config) : Instruction :=
  Builder.bridge program ⟨r.route, r.escrow, r.user, authority, r.mint, r.tokenProgram, r.config,
    if C.fee > 0 then some ⟨payer, C.feeCollector⟩ else none⟩ r.amount r.recipient r.payload

section BridgeOut

variable {l : Ledger} {s s' : State}

theorem execute_bridge {amount : UInt64} {recipient : String} {payload : Bytes}
    (hfit : (Command.bridge amount recipient payload).Fits) (accounts : List Invoked) :
    l.execute l.program accounts (Command.bridge amount recipient payload).pack =
      bridgeOut l.program accounts amount recipient payload := by
  rw [Ledger.execute, if_pos (beq_self_eq_true _)]
  unfold process
  rw [(Command.unpack_eq_ok_iff (v := .bridge amount recipient payload)).2 ⟨hfit, rfl⟩]

theorem feeMoved_iff_of_zero {accounts : List Invoked} {config : Config} (h : config.fee = 0) :
    FeeMoved accounts config s s' ↔ s' = s := by
  simp [FeeMoved, h]

theorem feeMoved_iff_of_pos {a0 a1 a2 a3 a4 a5 a6 : Invoked} {rest : List Invoked} {config : Config}
    (p c : Invoked) (hpos : 0 < config.fee) (hsig : p.signer = true)
    (hcol : c.key = config.feeCollector) :
    FeeMoved (a0 :: a1 :: a2 :: a3 :: a4 :: a5 :: a6 :: p :: c :: rest) config s s' ↔
      (transferLamports p.key config.feeCollector config.fee).run s = .ok ((), s') := by
  unfold FeeMoved
  constructor
  · rintro (⟨h0, -⟩ | ⟨-, p', hp, -, -, hrun⟩)
    · rw [h0] at hpos
      exact absurd hpos (UInt64.lt_irrefl 0)
    · simp only [List.getElem?_cons_succ, List.getElem?_cons_zero, Option.some.injEq] at hp
      subst hp
      exact hrun
  · intro hrun
    exact .inr ⟨hpos, p, rfl, hsig, by simp [hcol], hrun⟩

/-- The Bridge instruction the client builds runs, signed by the payer and the authority, exactly
when the bridge-out it asks for goes through. -/
theorem bridgeOut_runs_iff {signs : Address → Bool} {payer authority : Address} {r : BridgeRequest}
    {R : Route} {C : Config} (hauth : signs authority = true) (hpay : signs payer = true)
    (hR : routeAt l.program s r.route = some R) (hC : configAt l.program s r.config = some C)
    (hfit : (Command.bridge r.amount r.recipient r.payload).Fits) :
    let out := r.instruction l.program payer authority C
    (∃ written, (l.execute out.program (out.accounts.map fun x => ⟨x.key, signs x.key⟩) out.data).run s =
        .ok (written, s')) ↔
      BridgesOut l.program payer authority r R C s s' := by
  intro out
  simp only [out, BridgeRequest.instruction, Builder.bridge, Builder.bridgeInstruction, execute_bridge hfit,
    Builder.BridgeAccounts.refs, BridgesOut]
  by_cases hpos : C.fee > 0
  · have hne : C.fee ≠ 0 := fun h0 => by
      rw [h0] at hpos
      exact UInt64.lt_irrefl 0 hpos
    simp only [hpos, if_true, List.cons_append, List.nil_append, List.map_cons, List.map_nil,
      AccountRef.mutable, AccountRef.readonly, bridgeOut_run_eq_ok_iff, hauth, hR, hC,
      Option.some.injEq, if_neg hne]
    constructor
    · rintro ⟨-, _, _, s₁, s₂, rfl, rfl, hcfg, htp, hmint, hamt, hsome, hfee, htok, hlt, hw, -⟩
      rw [feeMoved_iff_of_pos _ _ hpos hpay rfl] at hfee
      exact ⟨s₁, s₂, hcfg, htp, hamt, hmint, hsome, hfee, htok, hlt, hw⟩
    · rintro ⟨s₁, s₂, hcfg, htp, hamt, hmint, hsome, hfee, htok, hlt, hw⟩
      exact ⟨_, R, C, s₁, s₂, rfl, rfl, hcfg, htp, hmint, hamt, hsome,
        (feeMoved_iff_of_pos _ _ hpos hpay rfl).2 hfee, htok, hlt, hw, rfl⟩
  · have h0 : C.fee = 0 := by simpa using hpos
    simp only [hpos, if_false, List.append_nil, List.map_cons, List.map_nil,
      AccountRef.mutable, AccountRef.readonly, bridgeOut_run_eq_ok_iff, hauth, hR, hC,
      Option.some.injEq, if_pos h0]
    constructor
    · rintro ⟨-, _, _, s₁, s₂, rfl, rfl, hcfg, htp, hmint, hamt, hsome, hfee, htok, hlt, hw, -⟩
      rw [feeMoved_iff_of_zero h0] at hfee
      exact ⟨s₁, s₂, hcfg, htp, hamt, hmint, hsome, hfee, htok, hlt, hw⟩
    · rintro ⟨s₁, s₂, hcfg, htp, hamt, hmint, hsome, hfee, htok, hlt, hw⟩
      exact ⟨_, R, C, s₁, s₂, rfl, rfl, hcfg, htp, hmint, hamt, hsome,
        (feeMoved_iff_of_zero h0).2 hfee, htok, hlt, hw, rfl⟩

/-- An approval leaves the route, the config and the mints as they were, so the bridge-out after it
asks the same of them. -/
theorem bridgeOut_runs_iff_of_delegates {signs : Address → Bool} {payer authority : Address}
    {r : BridgeRequest} {R : Route} {C : Config} {s₀ : State} (hauth : signs authority = true)
    (hpay : signs payer = true) (hR : routeAt l.program s r.route = some R)
    (hC : configAt l.program s r.config = some C)
    (hfit : (Command.bridge r.amount r.recipient r.payload).Fits)
    (hd : Delegates s r.user authority payer r.amount s₀) :
    let out := r.instruction l.program payer authority C
    (∃ written, (l.execute out.program (out.accounts.map fun x => ⟨x.key, signs x.key⟩) out.data).run s₀ =
        .ok (written, s')) ↔
      BridgesOut l.program payer authority r R C s₀ s' := by
  have hR₀ : routeAt l.program s₀ r.route = some R := by
    rw [routeAt_of_accounts hd.accounts_eq]
    exact hR
  have hC₀ : configAt l.program s₀ r.config = some C := by
    unfold configAt
    rw [recordAt_of_accounts hd.accounts_eq]
    exact hC
  exact bridgeOut_runs_iff hauth hpay hR₀ hC₀ hfit

end BridgeOut

/-! ### The flow -/

section Flow

variable {l : Ledger}

theorem fetch_config_run {op : String} {key : Address} {C : Config}
    (hC : configAt l.program l.state key = some C) :
    (fetch op Config.decode key).run.run l = (.ok C, l) := by
  obtain ⟨a, ha, -, hdec⟩ := recordAt_eq_some.1 hC
  unfold fetch
  rw [Flow.run_bind, Flow.run_get]
  simp only [Ledger.accountData, ha, hdec]
  rfl

/-- Reading the receipt of a submission neither fails nor changes the ledger. -/
theorem receipt_run (sig : Bytes) (l : Ledger) : ∃ rc, (receipt sig).run.run l = (.ok rc, l) := by
  unfold receipt
  rw [Flow.run_bind, Flow.run_get]
  dsimp only
  split
  · exact ⟨_, rfl⟩
  · split <;> exact ⟨_, rfl⟩

/-- A flow that ends by reading its receipt commits exactly when the flow before it does. -/
theorem receipt_commits_iff (x : Flow Bytes) (s : State) :
    (∃ rc l', (x >>= receipt).run.run l = (.ok rc, l') ∧ l'.state = s) ↔
      ∃ sig l', x.run.run l = (.ok sig, l') ∧ l'.state = s := by
  constructor
  · rintro ⟨rc, l', h, rfl⟩
    rw [Flow.run_bind] at h
    rcases hx : x.run.run l with ⟨_ | sig, l₁⟩
    · rw [hx] at h
      cases h
    · rw [hx] at h
      obtain ⟨rc', hrc⟩ := receipt_run sig l₁
      dsimp only at h
      rw [hrc] at h
      cases h
      exact ⟨sig, _, rfl, rfl⟩
  · rintro ⟨sig, l', hx, rfl⟩
    obtain ⟨rc, hrc⟩ := receipt_run sig l'
    exact ⟨rc, l', by rw [Flow.run_bind, hx]; exact hrc, rfl⟩

/-- The accounts of a bridge-out that sign are its transfer authority and its fee payer. -/
theorem signer_of_bridge {program : Address} {a : Builder.BridgeAccounts} {amount : UInt64}
    {recipient : String} {payload : Bytes} {ref : AccountRef}
    (href : ref ∈ (Builder.bridge program a amount recipient payload).accounts) (hs : ref.signer = true) :
    ref.key = a.transferAuthority ∨ ∃ f, a.fee = some f ∧ ref.key = f.payer := by
  simp only [Builder.bridge, Builder.bridgeInstruction, Builder.BridgeAccounts.refs, List.cons_append,
    List.mem_cons, AccountRef.mutable, AccountRef.readonly] at href
  rcases href with rfl | rfl | rfl | rfl | rfl | rfl | rfl | href
  case inr.inr.inr.inl => exact .inl rfl
  all_goals try cases hs
  cases hf : a.fee with
  | none => simp [hf] at href
  | some f =>
    simp only [hf, List.nil_append, List.mem_cons, List.not_mem_nil, or_false] at href
    rcases href with rfl | rfl
    · exact .inr ⟨f, rfl, rfl⟩
    · cases hs

/-- When every account that signs an instruction is the payer or the transfer authority, their two
key pairs cover every key the message needs signed. -/
theorem cover_of_signers {payer authority : Keypair} (ixs : List Instruction)
    (h : ∀ ix ∈ ixs, ∀ ref ∈ ix.accounts, ref.signer = true →
      ref.key = payer.key ∨ ref.key = authority.key) :
    ∀ k, Message.signsFor payer.key ixs k = true →
      ∃ s ∈ [Signer.keypair payer, .keypair authority], s.key = k := by
  intro k hk
  rcases Message.signsFor_eq_true.1 hk with rfl | ⟨ix, hix, ref, href, rfl, hs⟩
  · exact ⟨.keypair payer, by simp, rfl⟩
  · rcases h ix hix ref href hs with h | h
    · exact ⟨.keypair payer, by simp, h.symm⟩
    · exact ⟨.keypair authority, by simp, h.symm⟩

/-- The bridge-out a client builds is signed by its payer, if it pays a fee, and its authority. -/
theorem signer_of_clientBridge {program payer authority : Address} {r : BridgeRequest} {C : Config}
    {ref : AccountRef} (href : ref ∈ (r.instruction program payer authority C).accounts)
    (hs : ref.signer = true) : ref.key = payer ∨ ref.key = authority := by
  rcases signer_of_bridge href hs with h | ⟨f, hf, h⟩
  · exact .inr h
  · split at hf
    · cases hf
      exact .inl h
    · cases hf

/-- The transfer authority of a bridge-out among the instructions signs the message. -/
theorem signsFor_transferAuthority {program payer : Address} {a : Builder.BridgeAccounts}
    {amount : UInt64} {recipient : String} {payload : Bytes} {ixs : List Instruction}
    (h : Builder.bridge program a amount recipient payload ∈ ixs) :
    Message.signsFor payer ixs a.transferAuthority = true :=
  Message.signsFor_eq_true.2 (.inr ⟨_, h, AccountRef.readonly a.transferAuthority true,
    by simp [Builder.bridge, Builder.bridgeInstruction, Builder.BridgeAccounts.refs], rfl, rfl⟩)

variable {payer authority : Keypair} {r : BridgeRequest} {C : Config} {R : Route}

theorem bridge_run_of_plain (hC : configAt l.program l.state r.config = some C) :
    (Client.bridge false payer authority r).run.run l =
      ((assembleOrStop "bridge" payer.key [r.instruction l.program payer.key authority.key C]
        [.keypair payer, .keypair authority] >>= submit) >>= receipt).run.run l := by
  unfold Client.bridge
  rw [Flow.run_bind, Flow.run_get]
  dsimp only
  rw [Flow.run_bind, fetch_config_run hC]
  dsimp only
  simp only [Bool.false_eq_true, if_false, pure_bind, bind_assoc]
  rfl

theorem bridge_run_of_approve {ix : Instruction} (hC : configAt l.program l.state r.config = some C)
    (hA : Builder.approve r.tokenProgram r.user authority.key payer.key r.amount = .ok ix) :
    (Client.bridge true payer authority r).run.run l =
      ((assembleOrStop "approve_and_bridge" payer.key
        [ix, r.instruction l.program payer.key authority.key C]
        [.keypair payer, .keypair authority] >>= submit) >>= receipt).run.run l := by
  unfold Client.bridge
  rw [Flow.run_bind, Flow.run_get]
  dsimp only
  rw [Flow.run_bind, fetch_config_run hC]
  dsimp only
  simp only [if_true, hA, pure_bind, bind_assoc]
  rfl

/-- An approval the builder refuses stops the flow before it submits anything. -/
theorem bridge_run_of_refused {reason : String} (hC : configAt l.program l.state r.config = some C)
    (hA : Builder.approve r.tokenProgram r.user authority.key payer.key r.amount = .error reason) :
    (Client.bridge true payer authority r).run.run l =
      (.error (.failed (.assemble (.approval "approve_and_bridge" reason))), l) := by
  unfold Client.bridge
  rw [Flow.run_bind, Flow.run_get]
  dsimp only
  rw [Flow.run_bind, fetch_config_run hC]
  dsimp only
  simp only [if_true, hA]
  rfl

section Commits

variable (htrP : (Signer.keypair payer).Trusted l) (htrA : (Signer.keypair authority).Trusted l)
  (hC : configAt l.program l.state r.config = some C) (hR : routeAt l.program l.state r.route = some R)
  (hfit : (Command.bridge r.amount r.recipient r.payload).Fits)
include htrP htrA hC hR hfit

/-- A plain bridge-out commits exactly when its instruction asks what the ledger's state has. -/
theorem bridge_plain_commits_iff (s' : State) :
    (∃ rc l', (Client.bridge false payer authority r).run.run l = (.ok rc, l') ∧ l'.state = s') ↔
      BridgesOut l.program payer.key authority.key r R C l.state s' := by
  have hcover := cover_of_signers [r.instruction l.program payer.key authority.key C] (by
    simp only [List.mem_singleton, forall_eq]
    exact fun ref href hs => signer_of_clientBridge href hs)
  have hauth : Message.signsFor payer.key [r.instruction l.program payer.key authority.key C]
      authority.key = true :=
    signsFor_transferAuthority (List.mem_singleton_self _)
  have hpay : Message.signsFor payer.key [r.instruction l.program payer.key authority.key C]
      payer.key = true :=
    Message.signsFor_eq_true.2 (.inl rfl)
  rw [bridge_run_of_plain hC, receipt_commits_iff,
    assembleOrStop_submit_commits_iff (List.cons_ne_nil _ _) hcover (by simpa using ⟨htrP, htrA⟩)]
  simp only [Ledger.runs_compile_iff, Ledger.exists_runsAs_cons_iff, Ledger.exists_runsAs_nil_iff,
    exists_eq_right']
  exact bridgeOut_runs_iff hauth hpay hR hC hfit

/-- To approve and bridge commits exactly when the approval runs on the ledger's token program and
the bridge-out then asks what the state after it has. -/
theorem approveAndBridge_commits_iff (s' : State) :
    (∃ rc l', (Client.bridge true payer authority r).run.run l = (.ok rc, l') ∧ l'.state = s') ↔
      ∃ s₀, (r.tokenProgram ≠ l.program ∧ r.tokenProgram = l.tokenProgram ∧
          (r.tokenProgram = Address.tokenProgram2022 ∨ r.tokenProgram = Address.tokenProgram) ∧
          Delegates l.state r.user authority.key payer.key r.amount s₀) ∧
        BridgesOut l.program payer.key authority.key r R C s₀ s' := by
  cases hA : Builder.approve r.tokenProgram r.user authority.key payer.key r.amount with
  | error reason =>
    rw [bridge_run_of_refused hC hA]
    constructor
    · rintro ⟨rc, l', h, -⟩
      cases h
    · -- an approval on either token program is built, so the request names neither
      rintro ⟨s₀, ⟨-, -, htp, -⟩, -⟩
      rw [approve_of_tokenProgram htp] at hA
      cases hA
  | ok ix =>
    have hcover := cover_of_signers [ix, r.instruction l.program payer.key authority.key C] (by
      simp only [List.mem_cons, List.not_mem_nil, or_false, forall_eq_or_imp, forall_eq]
      exact ⟨fun ref href hs => .inl (signer_of_approve hA href hs),
        fun ref href hs => signer_of_clientBridge href hs⟩)
    have hauth : Message.signsFor payer.key [ix, r.instruction l.program payer.key authority.key C]
        authority.key = true :=
      signsFor_transferAuthority (List.mem_cons_of_mem _ (List.mem_singleton_self _))
    have hpay : Message.signsFor payer.key [ix, r.instruction l.program payer.key authority.key C]
        payer.key = true :=
      Message.signsFor_eq_true.2 (.inl rfl)
    rw [bridge_run_of_approve hC hA, receipt_commits_iff,
      assembleOrStop_submit_commits_iff (List.cons_ne_nil _ _) hcover (by simpa using ⟨htrP, htrA⟩)]
    simp only [Ledger.runs_compile_iff, Ledger.exists_runsAs_cons_iff, Ledger.exists_runsAs_nil_iff,
      exists_eq_right']
    refine exists_congr fun s₀ => ?_
    rw [approve_runs_iff hA hpay]
    constructor
    · rintro ⟨⟨hp, ht, hd⟩, hx⟩
      exact ⟨⟨hp, ht, (approve_eq_ok hA).1, hd⟩,
        (bridgeOut_runs_iff_of_delegates hauth hpay hR hC hfit hd).1 hx⟩
    · rintro ⟨⟨hp, ht, -, hd⟩, hx⟩
      exact ⟨⟨hp, ht, hd⟩, (bridgeOut_runs_iff_of_delegates hauth hpay hR hC hfit hd).2 hx⟩

/-- A bridge-out by the client, with an approval first or not, commits exactly when the approval
runs and the bridge-out then asks what the state has. -/
theorem bridge_commits_iff (approve : Bool) (s' : State) :
    (∃ rc l', (Client.bridge approve payer authority r).run.run l = (.ok rc, l') ∧ l'.state = s') ↔
      ∃ s₀, (if approve then r.tokenProgram ≠ l.program ∧ r.tokenProgram = l.tokenProgram ∧
            (r.tokenProgram = Address.tokenProgram2022 ∨ r.tokenProgram = Address.tokenProgram) ∧
            Delegates l.state r.user authority.key payer.key r.amount s₀
          else s₀ = l.state) ∧
        BridgesOut l.program payer.key authority.key r R C s₀ s' := by
  cases approve
  · simp only [bridge_plain_commits_iff htrP htrA hC hR hfit, Bool.false_eq_true, if_false,
      exists_eq_left]
  · simp only [approveAndBridge_commits_iff htrP htrA hC hR hfit, if_true]

end Commits

end Flow

/-! ### A user's account of another mint

A route to another chain with its config, which asks no fee, the route's mint and one more; the
escrow holds the route's mint, and the user's account belongs to the signer and holds 1000 of the
other mint. -/

/-- The program. -/
def mismatchProgram : Address := Address.ofBytes [9]

/-- The payer, who is also the transfer authority, a key pair whose every signature the ledger
below accepts. -/
def mismatchSigner : Keypair := ⟨Address.ofBytes [5], fun _ => [1]⟩

/-- An initialized route to chain 4689, at key 4, of config 2, escrow 6 and mint 3. -/
def mismatchRoute : Route :=
  { initialized := true, tokenProgram := Address.tokenProgram2022, config := Address.ofBytes [2],
    escrow := Address.ofBytes [6], mint := Address.ofBytes [3], destination := 4689, max := 1000,
    min := 1 }

def mismatchConfig : Config :=
  { initialized := true, owner := mismatchSigner.key, authority := mismatchSigner.key,
    feeCollector := mismatchSigner.key }

/-- The user's account, at key 7, of mint 8. -/
def mismatchUser : TokenAccount := ⟨Address.ofBytes [8], mismatchSigner.key, 1000, none⟩

/-- The escrow, at key 6, of the route's mint. -/
def mismatchEscrow : TokenAccount := ⟨Address.ofBytes [3], Address.ofBytes [4], 0, none⟩

def mismatchState : State where
  accounts := (({} : Table Account).set (Address.ofBytes [4])
    ⟨1000, mismatchProgram, mismatchRoute.encode⟩).set (Address.ofBytes [2])
    ⟨1000, mismatchProgram, mismatchConfig.encode⟩
  mints := (({} : Table Mint).set (Address.ofBytes [3]) ⟨some mismatchSigner.key, 0, 9⟩).set
    (Address.ofBytes [8]) ⟨some mismatchSigner.key, 1000, 9⟩
  tokenAccounts := (({} : Table TokenAccount).set (Address.ofBytes [6]) mismatchEscrow).set
    (Address.ofBytes [7]) mismatchUser

def mismatchLedger : Ledger :=
  { program := mismatchProgram, state := mismatchState, checkSignature := fun _ _ _ => true }

/-- Bridge 5 of the route's mint to "x", from the user's account into the escrow. -/
def mismatchRequest : BridgeRequest :=
  ⟨Address.ofBytes [4], Address.ofBytes [2], Address.ofBytes [6], Address.ofBytes [7],
    Address.ofBytes [3], Address.tokenProgram2022, 5, "x", []⟩

theorem mismatch_trusted : (Signer.keypair mismatchSigner).Trusted mismatchLedger :=
  ⟨fun _ => ⟨rfl, by simp [mismatchSigner]⟩, fun _ _ _ he => nomatch he⟩

theorem mismatch_configAt :
    configAt mismatchProgram mismatchState (Address.ofBytes [2]) = some mismatchConfig := by
  refine recordAt_eq_some.2 ⟨⟨1000, mismatchProgram, mismatchConfig.encode⟩, ?_, rfl,
    Config.decode_encode _⟩
  simp only [mismatchState, Table.get?_set_self]

theorem mismatch_routeAt :
    routeAt mismatchProgram mismatchState (Address.ofBytes [4]) = some mismatchRoute := by
  have hne : Address.ofBytes [4] ≠ Address.ofBytes [2] := by decide
  refine routeAt_eq_some.2 ⟨⟨1000, mismatchProgram, mismatchRoute.encode⟩, ?_, rfl,
    Route.decode_encode _⟩
  simp only [mismatchState, Table.get?_set_of_ne _ _ hne, Table.get?_set_self]

theorem mismatch_fits : (Command.bridge 5 "x" []).Fits :=
  ⟨by decide, by decide⟩

theorem mismatch_user : mismatchState.tokenAccounts.get? (Address.ofBytes [7]) = some mismatchUser := by
  simp only [mismatchState, Table.get?_set_self]

theorem mismatch_escrow :
    mismatchState.tokenAccounts.get? (Address.ofBytes [6]) = some mismatchEscrow := by
  have hne : Address.ofBytes [6] ≠ Address.ofBytes [7] := by decide
  simp only [mismatchState, Table.get?_set_of_ne _ _ hne, Table.get?_set_self]

/-! ### The flow, end to end -/

/-- A bridge-out by trusted key pairs, with an approval first or not, on a config and a route the
bridge program holds, commits exactly when the approval runs on the ledger's token program and
the bridge-out then finds what it asks for; it leaves the route with its index one more. -/
theorem bridge_flow_commits_iff (approve : Bool) (l : Ledger) (payer authority : Keypair)
    (r : BridgeRequest) (C : Config) (R : Route) (htrP : (Signer.keypair payer).Trusted l)
    (htrA : (Signer.keypair authority).Trusted l) (hC : configAt l.program l.state r.config = some C)
    (hR : routeAt l.program l.state r.route = some R)
    (hfit : (Command.bridge r.amount r.recipient r.payload).Fits) (s' : State) :
    ((∃ rc l', (Client.bridge approve payer authority r).run.run l = (.ok rc, l') ∧ l'.state = s') ↔
      ∃ s₀, (if approve then r.tokenProgram ≠ l.program ∧ r.tokenProgram = l.tokenProgram ∧
            (r.tokenProgram = Address.tokenProgram2022 ∨ r.tokenProgram = Address.tokenProgram) ∧
            Delegates l.state r.user authority.key payer.key r.amount s₀
          else s₀ = l.state) ∧
        BridgesOut l.program payer.key authority.key r R C s₀ s') ∧
    ((∃ rc l', (Client.bridge approve payer authority r).run.run l = (.ok rc, l') ∧ l'.state = s') →
      routeAt l.program s' r.route = some { R with index := R.index + 1 }) := by
  have hiff := bridge_commits_iff htrP htrA hC hR hfit approve s'
  refine ⟨hiff, fun hc => ?_⟩
  obtain ⟨s₀, -, hout⟩ := hiff.1 hc
  exact hout.routeAt_route

theorem bridge_flow_commits_iff_mismatch :
    (Signer.keypair mismatchSigner).Trusted mismatchLedger ∧
      configAt mismatchProgram mismatchState (Address.ofBytes [2]) = some mismatchConfig ∧
      routeAt mismatchProgram mismatchState (Address.ofBytes [4]) = some mismatchRoute ∧
      (Command.bridge 5 "x" []).Fits ∧
      ((∃ rc l', (Client.bridge false mismatchSigner mismatchSigner mismatchRequest).run.run
          mismatchLedger = (.ok rc, l') ∧ l'.state = mismatchState) ↔
        ∃ s₀, s₀ = mismatchState ∧ BridgesOut mismatchProgram mismatchSigner.key mismatchSigner.key
          mismatchRequest mismatchRoute mismatchConfig s₀ mismatchState) :=
  ⟨mismatch_trusted, mismatch_configAt, mismatch_routeAt, mismatch_fits,
    (bridge_flow_commits_iff false mismatchLedger mismatchSigner mismatchSigner mismatchRequest
      mismatchConfig mismatchRoute mismatch_trusted mismatch_trusted mismatch_configAt mismatch_routeAt
      mismatch_fits mismatchState).1⟩

/-- A bridge-out to another chain is refused when the user's account holds another mint than the
request names, though the route takes the amount, its mint exists, no fee is due, the signer owns
the user's account and it holds enough, and the escrow is another account, of the route's mint,
with room for the amount. -/
theorem bridge_checks_user_mint :
    ¬ ∀ (l : Ledger) (payer authority : Keypair) (r : BridgeRequest) (R : Route) (C : Config)
        (a e : TokenAccount),
      (Signer.keypair payer).Trusted l → (Signer.keypair authority).Trusted l →
      configAt l.program l.state r.config = some C → routeAt l.program l.state r.route = some R →
      R.initialized = true → R.config = r.config →
      (Command.bridge r.amount r.recipient r.payload).Fits →
      R.acceptsAmount r.amount = true → r.tokenProgram = R.tokenProgram → R.mint = r.mint →
      (l.state.mints.get? r.mint).isSome → C.fee = 0 → R.destination ≠ 0 →
      R.index.toNat + 1 < UInt64.size →
      l.state.tokenAccounts.get? r.user = some a → a.owner = authority.key → r.amount ≤ a.amount →
      r.user ≠ r.escrow → l.state.tokenAccounts.get? r.escrow = some e → e.mint = R.mint →
      e.amount.toNat + r.amount.toNat < UInt64.size →
      ∃ rc l', (Client.bridge false payer authority r).run.run l = (.ok rc, l') := by
  intro hall
  have hmint : (mismatchState.mints.get? (Address.ofBytes [3])).isSome := by
    have hne : Address.ofBytes [3] ≠ Address.ofBytes [8] := by decide
    simp only [mismatchState, Table.get?_set_of_ne _ _ hne, Table.get?_set_self, Option.isSome_some]
  obtain ⟨rc, l', h⟩ := hall mismatchLedger mismatchSigner mismatchSigner mismatchRequest mismatchRoute
    mismatchConfig mismatchUser mismatchEscrow mismatch_trusted mismatch_trusted mismatch_configAt
    mismatch_routeAt rfl rfl mismatch_fits (by decide) rfl rfl hmint rfl (by decide)
    (by decide) mismatch_user rfl (by decide) (by decide) mismatch_escrow rfl (by decide)
  obtain ⟨s₁, s₂, -, -, -, -, -, hfee, htok, -⟩ :=
    (bridge_plain_commits_iff (l := mismatchLedger) (r := mismatchRequest) mismatch_trusted
      mismatch_trusted mismatch_configAt mismatch_routeAt mismatch_fits l'.state).1 ⟨rc, l', h, rfl⟩
  rw [if_pos (show mismatchConfig.fee = 0 from rfl)] at hfee
  subst hfee
  rw [if_neg (show mismatchRoute.destination ≠ 0 by decide)] at htok
  -- the account the amount leaves must hold the mint the request names
  obtain ⟨-, a, -, -, ha, hmint, -⟩ := htok
  rw [show mismatchLedger.state = mismatchState from rfl,
    show mismatchRequest.user = Address.ofBytes [7] from rfl, mismatch_user] at ha
  cases ha
  exact absurd hmint (by decide)

end TokenBridge
