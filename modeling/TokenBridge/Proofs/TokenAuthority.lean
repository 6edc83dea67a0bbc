import TokenBridge.Proofs.Supply
/-!
Who may move tokens.

Tokens leave an account only by a spend (`Spend`): a bridge-out signed by the account's owner or
by its delegate within the allowance, or a settlement paid under a route's token authority, which
the route's config's authority signed. A delegate changes only by such a spend or by an approval
that the account's owner signed. A supply rises only by a settlement that mints under the route's
token authority, which must be the mint's authority. `Ran.authorized` says so of every call;
`Trace.accounted` lifts it to the net changes of a run of calls, so of every committed
transaction (`token_moves_authorized`).

The proof goes up from the token operations: each says of every token account that it is the one
spent from or that it only gained (`burn_touches`, `transferTokens_touches`, `mintTo_touches`,
`processToken_touches`), then each handler (`bridgeOut_touches`, `settle_touches`), then a call
(`Ran.touches`). The accounts a handler names by position may coincide; the lemmas hold whatever
they are.
-/

namespace TokenBridge

open BridgeProgram

namespace Table

variable {α : Type} {t : Table α} {k j : Address} {v a : α}

/-- An entry after a write is the written one, at its key, or the entry that was there. -/
theorem get?_set_eq_some (h : (t.set k v).get? j = some a) :
    (j = k ∧ a = v) ∨ (j ≠ k ∧ t.get? j = some a) := by
  rw [get?_set] at h
  split at h
  · exact .inl ⟨‹_›, (Option.some.inj h).symm⟩
  · exact .inr ⟨‹_›, h⟩

end Table

namespace TokenAccount

/-- From `a` to `a'` the account only gained: its balance did not drop and its delegate stayed. -/
def Gained (a a' : TokenAccount) : Prop := a.amount ≤ a'.amount ∧ a'.delegate = a.delegate

theorem Gained.refl (a : TokenAccount) : a.Gained a := ⟨UInt64.le_refl _, rfl⟩

theorem gained_add {a : TokenAccount} {n : UInt64} (hfit : a.amount.toNat + n.toNat < UInt64.size) :
    a.Gained { a with amount := a.amount + n } := by
  refine ⟨UInt64.le_iff_toNat_le.2 (show a.amount.toNat ≤ (a.amount + n).toNat from ?_), rfl⟩
  have hsum : (a.amount + n).toNat = a.amount.toNat + n.toNat := by
    rw [UInt64.toNat_add]
    exact Nat.mod_eq_of_lt hfit
  omega

end TokenAccount

/-! ### The token operations -/

section TokenOperations

variable {s s' : State} {u : Unit} {k M : Address} {a a' : TokenAccount} {m m' : Mint}

/-- After a withdrawal from `source`, an account is the source, spent from, or as it was. -/
theorem spent_of_set {t : Table TokenAccount} {source d : Address} {n : UInt64}
    {a₀ : TokenAccount} {after : Option (Address × UInt64)} (h₀ : t.get? source = some a₀)
    (hsp : Spend a₀ d n after) (ha : t.get? k = some a)
    (ha' : (t.set source { a₀ with amount := a₀.amount - n, delegate := after }).get? k = some a') :
    (k = source ∧ Spend a d n a'.delegate) ∨ a' = a := by
  rcases Table.get?_set_eq_some ha' with ⟨rfl, rfl⟩ | ⟨-, ha'⟩
  · rw [h₀] at ha
    cases ha
    exact .inl ⟨rfl, hsp⟩
  · rw [ha] at ha'
    exact .inr (Option.some.inj ha').symm

theorem burn_touches {source mint : Address} {authority : Invoked} {amount : UInt64}
    (h : (burn source mint authority amount).run s = .ok (u, s'))
    (ha : s.tokenAccounts.get? k = some a) (ha' : s'.tokenAccounts.get? k = some a') :
    (k = source ∧ authority.signer = true ∧ Spend a authority.key amount a'.delegate) ∨
      a.Gained a' := by
  obtain ⟨a₀, after, m, h₀, -, -, hsig, hsp, -, -, rfl⟩ := burn_spec h
  rcases spent_of_set h₀ hsp ha ha' with ⟨hk, hsp'⟩ | rfl
  · exact .inl ⟨hk, hsig, hsp'⟩
  · exact .inr (.refl _)

/-- A burn lowers the supply of its mint and leaves the others. -/
theorem burn_supply {source mint : Address} {authority : Invoked} {amount : UInt64}
    (h : (burn source mint authority amount).run s = .ok (u, s'))
    (hm : s.mints.get? M = some m) (hm' : s'.mints.get? M = some m') : m'.supply ≤ m.supply := by
  obtain ⟨a₀, after, m₀, -, -, -, -, -, hm₀, hle, rfl⟩ := burn_spec h
  rcases Table.get?_set_eq_some hm' with ⟨rfl, rfl⟩ | ⟨-, hm'⟩
  · rw [hm₀] at hm
    cases hm
    refine UInt64.le_iff_toNat_le.2 ?_
    rw [UInt64.toNat_sub_of_le _ _ hle]
    omega
  · rw [hm] at hm'
    cases hm'
    exact UInt64.le_refl _

theorem transferTokens_mints {source mint destination : Address} {authority : Invoked}
    {amount : UInt64} (h : (transferTokens source mint destination authority amount).run s = .ok (u, s')) :
    s'.mints = s.mints := by
  obtain ⟨-, -, -, -, -, -, -, -, -, -, -, -, -, -, rfl⟩ := transferTokens_spec h
  rfl

theorem transferTokens_touches {source mint destination : Address} {authority : Invoked}
    {amount : UInt64} (h : (transferTokens source mint destination authority amount).run s = .ok (u, s'))
    (ha : s.tokenAccounts.get? k = some a) (ha' : s'.tokenAccounts.get? k = some a') :
    (k = source ∧ authority.signer = true ∧ Spend a authority.key amount a'.delegate) ∨
      a.Gained a' := by
  obtain ⟨a₀, after, d, h₀, -, -, hsig, hsp, -, -, d', hd', hfit, rfl⟩ := transferTokens_spec h
  rcases Table.get?_set_eq_some ha' with ⟨rfl, rfl⟩ | ⟨-, ha'⟩
  · -- the destination gains, on top of the spend when it is the source itself
    rcases spent_of_set h₀ hsp ha hd' with ⟨hk, hsp'⟩ | rfl
    · exact .inl ⟨hk, hsig, hsp'⟩
    · exact .inr (TokenAccount.gained_add hfit)
  · rcases spent_of_set h₀ hsp ha ha' with ⟨hk, hsp'⟩ | rfl
    · exact .inl ⟨hk, hsig, hsp'⟩
    · exact .inr (.refl _)

theorem mintTo_touches {mint destination authority : Address} {amount : UInt64}
    (h : (mintTo mint destination authority amount).run s = .ok (u, s'))
    (ha : s.tokenAccounts.get? k = some a) (ha' : s'.tokenAccounts.get? k = some a') :
    a.Gained a' := by
  obtain ⟨m, a₀, -, -, -, h₀, -, hfit, rfl⟩ := mintTo_spec h
  rcases Table.get?_set_eq_some ha' with ⟨rfl, rfl⟩ | ⟨-, ha'⟩
  · rw [h₀] at ha
    cases ha
    exact TokenAccount.gained_add hfit
  · rw [ha] at ha'
    cases ha'
    exact .refl _

/-- A mint raises only the supply of its own mint, whose authority it is, and by its amount. -/
theorem mintTo_supply {mint destination authority : Address} {amount : UInt64}
    (h : (mintTo mint destination authority amount).run s = .ok (u, s'))
    (hm : s.mints.get? M = some m) (hm' : s'.mints.get? M = some m')
    (hlt : m.supply < m'.supply) :
    M = mint ∧ m.authority = some authority ∧ m'.supply = m.supply + amount := by
  obtain ⟨m₀, a₀, hm₀, hauth, -, -, -, -, rfl⟩ := mintTo_spec h
  rcases Table.get?_set_eq_some hm' with ⟨rfl, rfl⟩ | ⟨-, hm'⟩
  · rw [hm₀] at hm
    cases hm
    exact ⟨rfl, hauth, rfl⟩
  · rw [hm] at hm'
    cases hm'
    exact absurd hlt (UInt64.lt_irrefl _)

/-- `accounts` and `data` approve for the token account at `k` (account 0) the delegate `after`,
signed by `owner` (account 2): the delegate is account 1, with the amount the data gives. -/
def Approval (accounts : List Invoked) (data : Bytes) (k owner : Address)
    (after : Option (Address × UInt64)) : Prop :=
  data.head? = some approveTag ∧ (accounts[0]?).map Invoked.key = some k ∧
    (∃ signer, accounts[2]? = some signer ∧ signer.signer = true ∧ signer.key = owner) ∧
    (accounts[1]?).map (fun d => (d.key, (Bytes.toNatLE (data.drop 1)).toUInt64)) = after

theorem processToken_mints {accounts : List Invoked} {data : Bytes}
    (h : (processToken accounts data).run s = .ok (u, s')) : s'.mints = s.mints := by
  obtain ⟨-, -, -, -, -, -, -, -, -, -, -, -, rfl⟩ := processToken_spec h
  rfl

theorem processToken_touches {accounts : List Invoked} {data : Bytes}
    (h : (processToken accounts data).run s = .ok (u, s'))
    (ha : s.tokenAccounts.get? k = some a) (ha' : s'.tokenAccounts.get? k = some a') :
    a' = a ∨ (Approval accounts data k a.owner a'.delegate ∧ a'.amount = a.amount) := by
  obtain ⟨-, htag, source, delegate, owner, a₀, h0, h1, h2, hsig, h₀, hown, rfl⟩ :=
    processToken_spec h
  rcases Table.get?_set_eq_some ha' with ⟨rfl, rfl⟩ | ⟨-, ha'⟩
  · rw [h₀] at ha
    cases ha
    exact .inr ⟨⟨htag, by simp [h0], ⟨owner, h2, hsig, hown.symm⟩, by simp [h1]⟩, rfl⟩
  · rw [ha] at ha'
    exact .inl (Option.some.inj ha').symm

end TokenOperations

/-! ### The handlers -/

section Handlers

variable {program : Address} {accounts : List Invoked} {s s' : State} {lines : List String}
  {k M : Address} {a a' : TokenAccount} {m m' : Mint}

/-- A bridge-out draws only from the user's token account (account 2), on the word of its
transfer authority (account 3), which signed; every other account only gains. -/
theorem bridgeOut_touches {amount : UInt64} {recipient : String} {payload : Bytes}
    (h : (bridgeOut program accounts amount recipient payload).run s = .ok (lines, s'))
    (ha : s.tokenAccounts.get? k = some a) (ha' : s'.tokenAccounts.get? k = some a') :
    (∃ authority, (accounts[2]?).map Invoked.key = some k ∧ accounts[3]? = some authority ∧
      authority.signer = true ∧ Spend a authority.key amount a'.delegate) ∨ a.Gained a' := by
  obtain ⟨rk, escrow, user, mint, authority, route, config, s₁, s₂, -, -, huser, hauth, -, -, -, -,
    -, -, -, -, hfee, htok, -, hw, -⟩ := bridgeOut_effect h
  -- the fee and the record write leave the token accounts
  rw [← hfee.tokens.2] at ha
  rw [(writeRecord_tokens hw).2] at ha'
  rcases htok with ⟨-, hburn⟩ | ⟨-, -, hmove⟩
  · rcases burn_touches hburn ha ha' with ⟨rfl, hsig, hsp⟩ | hg
    · exact .inl ⟨authority, huser, hauth, hsig, hsp⟩
    · exact .inr hg
  · rcases transferTokens_touches hmove ha ha' with ⟨rfl, hsig, hsp⟩ | hg
    · exact .inl ⟨authority, huser, hauth, hsig, hsp⟩
    · exact .inr hg

/-- A bridge-out raises no supply. -/
theorem bridgeOut_supply {amount : UInt64} {recipient : String} {payload : Bytes}
    (h : (bridgeOut program accounts amount recipient payload).run s = .ok (lines, s'))
    (hm : s.mints.get? M = some m) (hm' : s'.mints.get? M = some m') : m'.supply ≤ m.supply := by
  obtain ⟨rk, escrow, user, mint, authority, route, config, s₁, s₂, -, -, -, -, -, -, -, -, -, -, -,
    -, hfee, htok, -, hw, -⟩ := bridgeOut_effect h
  rw [← hfee.tokens.1] at hm
  rw [(writeRecord_tokens hw).1] at hm'
  rcases htok with ⟨-, hburn⟩ | ⟨-, -, hmove⟩
  · exact burn_supply hburn hm hm'
  · rw [transferTokens_mints hmove, hm] at hm'
    cases hm'
    exact UInt64.le_refl _

/-- `accounts` settle on a route of `program` whose config's authority signed (account 4), under
the route's token authority `ta` (account 1): the program address of the route's key and bump
seed. -/
def SettleSigned (program : Address) (accounts : List Invoked) (s : State) (ta : Address) : Prop :=
  ∃ (rk : Address) (route : Route) (config : Config) (authority : Invoked),
    (accounts[0]?).map Invoked.key = some rk ∧ routeAt program s rk = some route ∧
    (accounts[7]?).map Invoked.key = some route.config ∧
    configAt program s route.config = some config ∧
    accounts[4]? = some authority ∧ authority.signer = true ∧ authority.key = config.authority ∧
    (accounts[1]?).map Invoked.key = some ta ∧
    Address.programAddress [rk.bytes, [route.bumpSeed]] program = .ok ta

/-- A settlement, once signed, mints the tokens of account 5 under the route's token authority
or pays them out of account 2 under it. -/
theorem settle_spends {amount : UInt64}
    (h : (settle program accounts amount).run s = .ok (lines, s')) :
    ∃ ta, SettleSigned program accounts s ta ∧
      ((∃ mint user, (accounts[5]?).map Invoked.key = some mint ∧
          (mintTo mint user ta amount).run s = .ok ((), s')) ∨
        (∃ escrow mint user, (accounts[2]?).map Invoked.key = some escrow ∧
          (transferTokens escrow mint user ⟨ta, true⟩ amount).run s = .ok ((), s'))) := by
  obtain ⟨rk, ta, escrow, user, mint, authority, route, config, hrk, hta, hesc, -, hauth, hmint,
    hcfg, hroute, hconfig, hsig, hkey, hpa, -, htok, -⟩ := settle_effect h
  refine ⟨ta, ⟨rk, route, config, authority, hrk, hroute, hcfg, hconfig, hauth, hsig, hkey, hta,
    hpa⟩, ?_⟩
  rcases htok with ⟨-, hm⟩ | ⟨-, ht⟩
  · exact .inl ⟨mint, user, hmint, hm⟩
  · exact .inr ⟨escrow, mint, user, hesc, ht⟩

/-- A settlement draws only from account 2, under the route's token authority as its owner or
delegate; every other account only gains. -/
theorem settle_touches {amount : UInt64}
    (h : (settle program accounts amount).run s = .ok (lines, s'))
    (ha : s.tokenAccounts.get? k = some a) (ha' : s'.tokenAccounts.get? k = some a') :
    (∃ ta, SettleSigned program accounts s ta ∧ (accounts[2]?).map Invoked.key = some k ∧
      Spend a ta amount a'.delegate) ∨ a.Gained a' := by
  obtain ⟨ta, hsigned, ⟨mint, user, -, hm⟩ | ⟨escrow, mint, user, hesc, ht⟩⟩ := settle_spends h
  · exact .inr (mintTo_touches hm ha ha')
  · rcases transferTokens_touches ht ha ha' with ⟨rfl, -, hsp⟩ | hg
    · exact .inl ⟨ta, hsigned, hesc, hsp⟩
    · exact .inr hg

/-- A settlement raises only the supply of the mint it names (account 5), by its amount, and only
where the route's token authority is that mint's authority. -/
theorem settle_minted {amount : UInt64}
    (h : (settle program accounts amount).run s = .ok (lines, s'))
    (hm : s.mints.get? M = some m) (hm' : s'.mints.get? M = some m')
    (hlt : m.supply < m'.supply) :
    ∃ ta, SettleSigned program accounts s ta ∧ (accounts[5]?).map Invoked.key = some M ∧
      m.authority = some ta ∧ m'.supply = m.supply + amount := by
  obtain ⟨ta, hsigned, ⟨mint, user, hmint, hmt⟩ | ⟨escrow, mint, user, -, ht⟩⟩ := settle_spends h
  · obtain ⟨rfl, hauth, hsup⟩ := mintTo_supply hmt hm hm' hlt
    exact ⟨ta, hsigned, hmint, hauth, hsup⟩
  · rw [transferTokens_mints ht, hm] at hm'
    cases hm'
    exact absurd hlt (UInt64.lt_irrefl _)

end Handlers

/-! ### Calls -/

namespace Ledger

/-- The call runs the bridge command `cmd`. -/
def RunsCommand (l : Ledger) (c : Call) (cmd : Command) : Prop :=
  c.program = l.program ∧ Command.unpack c.data = .ok cmd

/-- The call bridges `amount` out of the token account at `k` (account 2), on the word of its
transfer authority `authority` (account 3), which signed. -/
def BridgesOut (l : Ledger) (c : Call) (k : Address) (authority : Invoked) (amount : UInt64) :
    Prop :=
  (∃ recipient payload, l.RunsCommand c (.bridge amount recipient payload)) ∧
    (c.accounts[2]?).map Invoked.key = some k ∧ c.accounts[3]? = some authority ∧
    authority.signer = true

/-- The call settles `amount` on a route, signed by its config's authority, under the route's
token authority `ta`. -/
def Settles (l : Ledger) (s : State) (c : Call) (ta : Address) (amount : UInt64) : Prop :=
  l.RunsCommand c (.settle amount) ∧ SettleSigned l.program c.accounts s ta

/-- The call, run from `s`, drew from the token account at `k`, which held `a`, and left it the
delegate `after`: a bridge-out from it by its owner or its delegate, or a settlement out of it
under the route's token authority as its owner or delegate. -/
def DrawsFrom (l : Ledger) (s : State) (c : Call) (k : Address) (a : TokenAccount)
    (after : Option (Address × UInt64)) : Prop :=
  (∃ authority amount, l.BridgesOut c k authority amount ∧ Spend a authority.key amount after) ∨
    (∃ ta amount, l.Settles s c ta amount ∧ (c.accounts[2]?).map Invoked.key = some k ∧
      Spend a ta amount after)

/-- The call is the token program's approval of the delegate `after` for the token account at
`k`, signed by `owner`. -/
def Approves (l : Ledger) (c : Call) (k owner : Address) (after : Option (Address × UInt64)) :
    Prop :=
  c.program ≠ l.program ∧ c.program = l.tokenProgram ∧ Approval c.accounts c.data k owner after

variable {l : Ledger} {c : Call} {s s' : State} {k M : Address} {a a' : TokenAccount}
  {m m' : Mint}

/-- What a call did to a token account: it drew from it, or approved a delegate for it and left
its balance, or the account only gained. -/
theorem Ran.touches (h : l.Ran c s s') (ha : s.tokenAccounts.get? k = some a)
    (ha' : s'.tokenAccounts.get? k = some a') :
    l.DrawsFrom s c k a a'.delegate ∨ (l.Approves c k a.owner a'.delegate ∧ a'.amount = a.amount) ∨
      a.Gained a' := by
  -- a call that keeps the token accounts only leaves them
  have hkept : s'.tokenAccounts = s.tokenAccounts → a.Gained a' := fun ht => by
    rw [ht, ha] at ha'
    cases ha'
    exact .refl _
  rcases h.token_cases with ⟨hp, hb⟩ | ⟨-, ht⟩ | ⟨hp, htp, u, htok⟩
  · rcases process_tokens hb with ⟨-, ht⟩ | ⟨amount, recipient, payload, hcmd, hb⟩ |
      ⟨amount, hcmd, hs⟩
    · exact .inr (.inr (hkept ht))
    · rcases bridgeOut_touches hb ha ha' with ⟨authority, hk, hauth, hsig, hsp⟩ | hg
      · exact .inl (.inl ⟨authority, amount, ⟨⟨recipient, payload, hp, hcmd⟩, hk, hauth, hsig⟩, hsp⟩)
      · exact .inr (.inr hg)
    · rcases settle_touches hs ha ha' with ⟨ta, hsigned, hk, hsp⟩ | hg
      · exact .inl (.inr ⟨ta, amount, ⟨⟨hp, hcmd⟩, hsigned⟩, hk, hsp⟩)
      · exact .inr (.inr hg)
  · exact .inr (.inr (hkept ht))
  · rcases processToken_touches htok ha ha' with rfl | ⟨happ, hamt⟩
    · exact .inr (.inr (.refl _))
    · exact .inr (.inl ⟨⟨hp, htp, happ⟩, hamt⟩)

/-- A call raises a supply only as a settlement that mints, under the route's token authority,
which is the mint's authority. -/
theorem Ran.minted (h : l.Ran c s s') (hm : s.mints.get? M = some m)
    (hm' : s'.mints.get? M = some m') (hlt : m.supply < m'.supply) :
    ∃ ta amount, l.Settles s c ta amount ∧ (c.accounts[5]?).map Invoked.key = some M ∧
      m.authority = some ta ∧ m'.supply = m.supply + amount := by
  -- a call that keeps the mints raises no supply
  have hkept : s'.mints = s.mints → False := fun hs => by
    rw [hs, hm] at hm'
    cases hm'
    exact UInt64.lt_irrefl _ hlt
  rcases h.token_cases with ⟨hp, hb⟩ | ⟨hs, -⟩ | ⟨-, -, u, htok⟩
  · rcases process_tokens hb with ⟨hs, -⟩ | ⟨amount, recipient, payload, -, hb⟩ | ⟨amount, hcmd, hs⟩
    · exact (hkept hs).elim
    · exact absurd hlt (UInt64.not_lt.2 (bridgeOut_supply hb hm hm'))
    · obtain ⟨ta, hsigned, hM, hauth, hsup⟩ := settle_minted hs hm hm' hlt
      exact ⟨ta, amount, ⟨⟨hp, hcmd⟩, hsigned⟩, hM, hauth, hsup⟩
  · exact (hkept hs).elim
  · exact (hkept (processToken_mints htok)).elim

/-- What a call, run from `s` to `s'`, may do to token accounts and supplies. A balance drops
only when the call drew from the account; a delegate changes only by such a draw or by an
approval its owner signed; a supply rises only by a settlement that mints, by its amount, under
the route's token authority, which is the mint's authority. -/
structure Authorized (l : Ledger) (c : Call) (s s' : State) : Prop where
  drawn : ∀ k a a', s.tokenAccounts.get? k = some a → s'.tokenAccounts.get? k = some a' →
    a'.amount < a.amount → l.DrawsFrom s c k a a'.delegate
  delegated : ∀ k a a', s.tokenAccounts.get? k = some a → s'.tokenAccounts.get? k = some a' →
    a'.delegate ≠ a.delegate → l.DrawsFrom s c k a a'.delegate ∨ l.Approves c k a.owner a'.delegate
  minted : ∀ M m m', s.mints.get? M = some m → s'.mints.get? M = some m' →
    m.supply < m'.supply → ∃ ta amount, l.Settles s c ta amount ∧
      (c.accounts[5]?).map Invoked.key = some M ∧ m.authority = some ta ∧
      m'.supply = m.supply + amount

theorem Ran.authorized (h : l.Ran c s s') : l.Authorized c s s' where
  drawn k a a' ha ha' hlt := by
    rcases h.touches ha ha' with hd | ⟨-, hamt⟩ | hg
    · exact hd
    · rw [hamt] at hlt
      exact absurd hlt (UInt64.lt_irrefl _)
    · exact absurd hlt (UInt64.not_lt.2 hg.1)
  delegated k a a' ha ha' hne := by
    rcases h.touches ha ha' with hd | ⟨happ, -⟩ | hg
    · exact .inl hd
    · exact .inr happ
    · exact absurd hg.2 hne
  minted M m m' hm hm' hlt := h.minted hm hm' hlt

/-! ### Runs of calls -/

/-- `c` is one of the calls of a trace from `s` to `s'`, and ran there from `t` to `t'`. -/
def RanWithin (l : Ledger) (s : State) (cs : List Call) (s' : State) (c : Call) (t t' : State) :
    Prop :=
  ∃ pre post, cs = pre ++ c :: post ∧ l.Trace s pre t ∧ l.Ran c t t' ∧ l.Trace t' post s'

theorem Ran.isSome_tokenAccount (h : l.Ran c s s') (k : Address) :
    (s'.tokenAccounts.get? k).isSome = (s.tokenAccounts.get? k).isSome := by
  simpa only [Option.isSome_map] using congrArg Option.isSome (h.balanced.layout.2 k)

/-- Along a trace, a change between its ends is made by one of its calls, for a kind of change
`R` that no two steps make without one of them making it: a balance that drops, a delegate that
moves, a supply that rises. The induction is on the trace: the first call made the change, or
the rest of the trace did. -/
theorem Trace.exists_change {β : Type} (view : State → Option β) (R : β → β → Prop)
    (hirr : ∀ x, ¬ R x x) (htrans : ∀ x y z, ¬ R x y → ¬ R y z → ¬ R x z)
    (hview : ∀ c t t', l.Ran c t t' → (view t').isSome = (view t).isSome)
    {cs : List Call} (h : l.Trace s cs s') {x y : β} (hx : view s = some x)
    (hy : view s' = some y) (hr : R x y) :
    ∃ c t t' x' y', l.RanWithin s cs s' c t t' ∧ view t = some x' ∧ view t' = some y' ∧
      R x' y' := by
  induction h generalizing x with
  | nil s =>
    rw [hx] at hy
    cases hy
    exact absurd hr (hirr _)
  | @cons c cs s s₁ s' hc htr ih =>
    obtain ⟨z, hz⟩ := Option.isSome_iff_exists.1 (by rw [hview c s s₁ hc, hx]; rfl)
    by_cases hxz : R x z
    · exact ⟨c, s, s₁, x, z, ⟨[], cs, rfl, .nil s, hc, htr⟩, hx, hz, hxz⟩
    · have hzy : R z y := by
        by_contra hzy
        exact htrans x z y hxz hzy hr
      obtain ⟨c', t, t', x', y', ⟨pre, post, rfl, hpre, hc', hpost⟩, hrest⟩ := ih hz hy hzy
      exact ⟨c', t, t', x', y', ⟨c :: pre, post, rfl, .cons hc hpre, hc', hpost⟩, hrest⟩

theorem RanWithin.ran {cs : List Call} {t t' : State} (h : l.RanWithin s cs s' c t t') :
    l.Ran c t t' := by
  obtain ⟨-, -, -, -, hc, -⟩ := h
  exact hc

/-- What the calls `cs`, run from `s` to `s'`, did as a whole: each balance that dropped, each
delegate that changed and each supply that rose between the ends was changed so by one of the
calls, as `Authorized` allows, in the state that call ran from. -/
structure Accounted (l : Ledger) (s : State) (cs : List Call) (s' : State) : Prop where
  drawn : ∀ k a a', s.tokenAccounts.get? k = some a → s'.tokenAccounts.get? k = some a' →
    a'.amount < a.amount → ∃ c t t' b b', l.RanWithin s cs s' c t t' ∧
      t.tokenAccounts.get? k = some b ∧ t'.tokenAccounts.get? k = some b' ∧
      b'.amount < b.amount ∧ l.DrawsFrom t c k b b'.delegate
  delegated : ∀ k a a', s.tokenAccounts.get? k = some a → s'.tokenAccounts.get? k = some a' →
    a'.delegate ≠ a.delegate → ∃ c t t' b b', l.RanWithin s cs s' c t t' ∧
      t.tokenAccounts.get? k = some b ∧ t'.tokenAccounts.get? k = some b' ∧
      b'.delegate ≠ b.delegate ∧
      (l.DrawsFrom t c k b b'.delegate ∨ l.Approves c k b.owner b'.delegate)
  minted : ∀ M m m', s.mints.get? M = some m → s'.mints.get? M = some m' →
    m.supply < m'.supply → ∃ c t t' n n', l.RanWithin s cs s' c t t' ∧
      t.mints.get? M = some n ∧ t'.mints.get? M = some n' ∧ n.supply < n'.supply ∧
      ∃ ta amount, l.Settles t c ta amount ∧ (c.accounts[5]?).map Invoked.key = some M ∧
        n.authority = some ta ∧ n'.supply = n.supply + amount

theorem Trace.accounted {cs : List Call} (h : l.Trace s cs s') : l.Accounted s cs s' where
  drawn k a a' ha ha' hlt := by
    obtain ⟨c, t, t', b, b', hw, hb, hb', hlt'⟩ := h.exists_change
      (fun t => t.tokenAccounts.get? k) (fun a a' => a'.amount < a.amount)
      (fun _ => UInt64.lt_irrefl _)
      (fun _ _ _ hxy hyz => UInt64.not_lt.2
        (UInt64.le_trans (UInt64.not_lt.1 hxy) (UInt64.not_lt.1 hyz)))
      (fun _ _ _ hc => hc.isSome_tokenAccount k) ha ha' hlt
    exact ⟨c, t, t', b, b', hw, hb, hb', hlt', hw.ran.authorized.drawn k b b' hb hb' hlt'⟩
  delegated k a a' ha ha' hne := by
    obtain ⟨c, t, t', b, b', hw, hb, hb', hne'⟩ := h.exists_change
      (fun t => t.tokenAccounts.get? k) (fun a a' => a'.delegate ≠ a.delegate)
      (fun _ hx => hx rfl)
      (fun _ _ _ hxy hyz => by
        rw [not_not] at hxy hyz ⊢
        rw [hyz, hxy])
      (fun _ _ _ hc => hc.isSome_tokenAccount k) ha ha' hne
    exact ⟨c, t, t', b, b', hw, hb, hb', hne', hw.ran.authorized.delegated k b b' hb hb' hne'⟩
  minted M m m' hm hm' hlt := by
    obtain ⟨c, t, t', n, n', hw, hn, hn', hlt'⟩ := h.exists_change
      (fun t => t.mints.get? M) (fun m m' => m.supply < m'.supply)
      (fun _ => UInt64.lt_irrefl _)
      (fun _ _ _ hxy hyz => UInt64.not_lt.2
        (UInt64.le_trans (UInt64.not_lt.1 hyz) (UInt64.not_lt.1 hxy)))
      (fun _ _ _ hc => hc.balanced.layout.1 M) hm hm' hlt
    exact ⟨c, t, t', n, n', hw, hn, hn', hlt', hw.ran.authorized.minted M n n' hn hn' hlt'⟩

/-- Token movements are authorised. Every call may lower a balance only as a bridge-out signed by
the account's owner or by its delegate within the allowance, or as a settlement signed by the
route's config's authority and paid from an account that the route's token authority owns or
holds a delegation of; the allowance drops by the amount and the delegate goes at zero. A delegate
is set otherwise only by an approval signed by the owner, and a supply rises only by a settlement
under a token authority that is the mint's. Every submitted transaction commits such calls, and
its net changes are theirs. -/
theorem token_moves_authorized :
    (∀ (l : Ledger) (c : Call) (s s' : State), l.Ran c s s' → l.Authorized c s s') ∧
    ∀ (l : Ledger) (t : Transaction), ∃ cs,
      l.Trace l.state cs (l.sendAndConfirm t).2.state ∧
      l.Accounted l.state cs (l.sendAndConfirm t).2.state := by
  refine ⟨fun l c s s' h => h.authorized, fun l t => ?_⟩
  obtain ⟨htr, -⟩ := sendAndConfirm_trace l t
  exact ⟨_, htr, htr.accounted⟩

end Ledger

end TokenBridge
