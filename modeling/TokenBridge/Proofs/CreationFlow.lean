import TokenBridge.Proofs.GovernanceFlow
import TokenBridge.Proofs.BuilderFlags
import TokenBridge.Proofs.Lamports
import TokenBridge.Proofs.Settlement
/-!
Making a config and a route from the client, end to end.

Each flow submits two instructions in one transaction: the system program's creation of the
account, funded by the payer, then the bridge program's setting up of what it holds. The system
program refuses an account that holds lamports, debits the payer and puts a zeroed account of the
record's size, owned by the bridge program, in its place; zeros read as a config or a route not yet
set up, which the second instruction sets up.

Setting up a config (`initializeConfig_commits_iff`): the client derives the config's address
from the payer and the seed before it submits anything, and stops, with the ledger as it was, where
the derivation is refused; on success the config holds its rent, taken from the payer, and the
config asked for.

Opening a route (`createRoute_commits_iff`): the creation comes first, so the handler reads the
config after it. Where the route's account is the config's own, which the system program allows
once the config's lamports are gone, the config is overwritten by zeros of a route's length before
it is read, and the route is refused although the config was in place.
-/

namespace TokenBridge

open BridgeProgram Client

/-- The second of two writes to one key is the one that stays. -/
theorem Table.set_set {α : Type} (t : Table α) (k : Address) (a b : α) :
    (t.set k a).set k b = t.set k b := by
  have hc : (t.set k a).contains k = true := by simp [Table.contains]
  unfold Table.set at hc ⊢
  rw [if_pos hc]
  split
  · -- `k` had an entry: both writes replace it in place
    rw [List.map_map]
    congr 2
    funext e
    by_cases he : e.1 = k <;> simp [he]
  · -- `k` had none: the first write appended it, and no earlier entry has key `k`
    rename_i hk
    have hnone : t.entries.lookup k = none := Option.not_isSome_iff_eq_none.1 hk
    have hkeep : ∀ e ∈ t.entries, (if e.1 == k then (k, b) else e) = e := by
      intro e he
      have hne : (k != e.1) = true := List.lookup_eq_none_iff.1 hnone e he
      simp only [bne_iff_ne, ne_eq] at hne
      simp [Ne.symm hne]
    rw [List.map_append, List.map_congr_left hkeep, List.map_id']
    simp

/-- Zeros of a route's length read as a route not yet set up. -/
theorem Route.decode_zeros : Route.decode (List.replicate Route.size 0) = .ok {} :=
  Route.decode_eq_ok_iff.2 rfl

/-- Zeros of a config's length read as a config not yet set up. -/
theorem Config.decode_zeros : Config.decode (List.replicate Config.size 0) = .ok {} :=
  Config.decode_eq_ok_iff.2 rfl

/-! ### The system program's data -/

namespace SystemCommand

/-- A text written with its `u64` length reads back, when its length fits. -/
theorem readText64_append {s : String} (h : (Utf8.encode s).length < UInt64.size) (rest : Bytes)
    (off : Nat) :
    readText64 ⟨text64 s ++ rest, off⟩ = .ok (s, ⟨rest, off + 8 + (Utf8.encode s).length⟩) := by
  have hn : (Utf8.encode s).length.toUInt64.toNat = (Utf8.encode s).length :=
    UInt64.toNat_ofNat_of_lt' h
  have htake : Wire.take (Utf8.encode s).length "seed" ⟨Utf8.encode s ++ rest, off + 8⟩ =
      .ok (Utf8.encode s, ⟨rest, off + 8 + (Utf8.encode s).length⟩) :=
    Wire.take_eq_ok.2 ⟨rfl, rfl, rfl⟩
  unfold readText64 text64
  rw [List.append_assoc, Wire.bind_of_ok (Wire.readU64_append "seed" _ _ off), hn,
    Wire.bind_of_ok htake, Utf8.decode_encode]
  rfl

/-- The data of a creation at a derived address reads back as that creation, when its seed fits. -/
theorem decode?_createAccountWithSeed_encode {base : Address} {seed : String}
    {lamports space : UInt64} {owner : Address} (h : (Utf8.encode seed).length < UInt64.size) :
    decode? (createAccountWithSeed base seed lamports space owner).encode =
      some (createAccountWithSeed base seed lamports space owner) := by
  have hdata : (createAccountWithSeed base seed lamports space owner).encode =
      Wire.u32 3 ++ (Wire.address base ++ (text64 seed ++ (Wire.u64 lamports ++ (Wire.u64 space ++
        (Wire.address owner ++ []))))) := by
    simp [encode, Wire.address]
  unfold decode?
  rw [hdata]
  simp only [Wire.Cursor.start]
  rw [Wire.bind_of_ok (Wire.readU32_append "variant" 3 _ 0)]
  have h3 : (3 : UInt32).toNat = 3 := rfl
  simp only [fieldsReader, h3]
  rw [Wire.bind_of_ok (Wire.readAddress_append "field" base _ _),
    Wire.bind_of_ok (readText64_append h _ _), Wire.bind_of_ok (Wire.readU64_append "field" _ _ _),
    Wire.bind_of_ok (Wire.readU64_append "field" _ _ _),
    Wire.bind_of_ok (Wire.readAddress_append "field" owner _ _)]
  rfl

end SystemCommand

/-! ### Derived addresses -/

namespace Address

variable {base owner : Address} {seed : String}

/-- The seed of a derivation that goes through fits. -/
theorem withSeed_ok_length {a : Address} (h : withSeed base seed owner = .ok a) :
    (Utf8.encode seed).length ≤ maxSeedLength := by
  unfold withSeed at h
  by_contra hlen
  rw [if_pos (Nat.lt_of_not_le hlen)] at h
  cases h

/-- A derivation is refused exactly where the seed is longer than a seed may be, or the owner ends
in the marker of program addresses. -/
theorem withSeed_refused_iff :
    (∃ e, withSeed base seed owner = .error e) ↔
      maxSeedLength < (Utf8.encode seed).length ∨
        owner.bytes.drop (32 - programAddressMarker.length) = programAddressMarker := by
  unfold withSeed
  by_cases hlen : (Utf8.encode seed).length > maxSeedLength
  · simp [hlen]
  · by_cases hown : owner.bytes.drop (32 - programAddressMarker.length) = programAddressMarker
    · simp [hlen, hown]
    · simp [hlen, hown]

end Address

/-! ### The system program's creations -/

section System

variable {s s' : State}

/-- A new account goes through exactly when the target holds no lamports, the funder pays, and the
size can be addressed; it puts the funded, zeroed account in place. -/
theorem allocate_run_eq_ok_iff {source target owner : Address} {lamports space : UInt64} {u : Unit} :
    (allocate source target lamports space owner).run s = .ok (u, s') ↔
      balance s target = 0 ∧ space.toNat < Nat.pow 2 63 ∧ ∃ s₁, (debit source lamports).run s =
        .ok ((), s₁) ∧
        s' = { s₁ with accounts := s₁.accounts.set target ⟨lamports, owner,
          List.replicate space.toNat 0⟩ } := by
  unfold allocate
  simp only [get_bind_run, ite_fail_bind_run_eq_ok, bind_run_eq_ok, modify_run_eq_ok,
    any_lamports_pos_iff, Decidable.not_not, ge_iff_le, Nat.not_le]
  constructor
  · rintro ⟨hfree, _, s₁, hd, hsize, rfl⟩
    exact ⟨hfree, hsize, s₁, hd, rfl⟩
  · rintro ⟨hfree, hsize, s₁, hd, rfl⟩
    exact ⟨hfree, (), s₁, hd, hsize, rfl⟩

/-- A creation of a key pair's account, with both signing, is the allocation it asks for. -/
theorem processSystem_createAccount_iff {source target : Invoked} {lamports space : UInt64}
    {owner : Address} {u : Unit} :
    (processSystem [source, target] (SystemCommand.createAccount lamports space owner).encode).run s =
        .ok (u, s') ↔
      source.signer = true ∧ target.signer = true ∧
        (allocate source.key target.key lamports space owner).run s = .ok ((), s') := by
  unfold processSystem
  rw [SystemCommand.decode?_createAccount]
  simp only [bind_run_eq_ok, nth_run_eq_ok, ite_fail_bind_run_eq_ok, List.getElem?_cons_zero,
    List.getElem?_cons_succ, Option.some.injEq, Bool.or_eq_true, Bool.not_eq_true', not_or,
    Bool.not_eq_false]
  constructor
  · rintro ⟨_, _, ⟨rfl, rfl⟩, _, _, ⟨rfl, rfl⟩, ⟨hs, ht⟩, h⟩
    exact ⟨hs, ht, h⟩
  · rintro ⟨hs, ht, h⟩
    exact ⟨_, _, ⟨rfl, rfl⟩, _, _, ⟨rfl, rfl⟩, ⟨hs, ht⟩, h⟩

/-- A creation at the address derived from its funder and a seed that fits, the funder signing,
goes through exactly when the target is that derived address and the allocation goes through. -/
theorem processSystem_seeded_iff {source target : Invoked} {rest : List Invoked} {seed : String}
    {lamports space : UInt64} {owner : Address} {u : Unit}
    (h : (Utf8.encode seed).length < UInt64.size) :
    (processSystem (source :: target :: rest)
        (SystemCommand.createAccountWithSeed source.key seed lamports space owner).encode).run s =
        .ok (u, s') ↔
      source.signer = true ∧ Address.withSeed source.key seed owner = .ok target.key ∧
        (allocate source.key target.key lamports space owner).run s = .ok ((), s') := by
  unfold processSystem
  rw [SystemCommand.decode?_createAccountWithSeed_encode h]
  simp only [nth, List.getElem?_cons_zero, List.getElem?_cons_succ, pure_bind, List.any_cons,
    beq_self_eq_true, Bool.true_and]
  rw [ite_fail_bind_run_eq_ok]
  -- the funder is the base, so its signature is the base's
  cases hs : source.signer
  · simp
  · simp only [Bool.not_true, Bool.true_or, Bool.false_or, Bool.false_eq_true, not_false_eq_true,
      true_and]
    cases hw : Address.withSeed source.key seed owner with
    | error e => simpa using fail_run_ne_ok
    | ok expected =>
      rw [ite_fail_bind_run_eq_ok]
      simp

end System

/-! ### Accounts made anew -/

section MadeAnew

variable {program key : Address} {s s' : State}

/-- A record view once the account at `key` is replaced by `a`: `a`'s record at `key`, the same
records elsewhere. -/
theorem recordAt_set {α : Type} {decode : Bytes → Except CodecError α} (a : Account) (k : Address) :
    recordAt decode program { s with accounts := s.accounts.set key a } k =
      if k = key then (if a.owner = program then (decode a.data).toOption else none)
      else recordAt decode program s k := by
  by_cases hk : k = key <;> simp [recordAt, hk]

/-- Writing a record into an account of the program just put in place stores the account with
the record as its data. -/
theorem writeRecord_set_run_eq_ok_iff {n : UInt64} {data bytes : Bytes} {u : Unit} :
    (writeRecord program key bytes).run { s with accounts := s.accounts.set key ⟨n, program, data⟩ } =
        .ok (u, s') ↔
      s' = { s with accounts := s.accounts.set key ⟨n, program, bytes⟩ } := by
  rw [writeRecord_run_eq_ok]
  simp [Table.set_set]

end MadeAnew

/-! ### Setting up a config -/

section SetUp

variable {program : Address} {s s' : State} {lines : List String}

/-- A config set up in an account the system program just made, as a config's length of zeros owned
by the program, is the account made with the config asked for as its data. -/
theorem setUp_made_anew_iff {n : UInt64} {fee : UInt64} (a0 a1 a2 a3 : Invoked)
    (rest : List Invoked) :
    (setUp program (a0 :: a1 :: a2 :: a3 :: rest) fee).run
        { s with accounts := s.accounts.set a0.key ⟨n, program, List.replicate Config.size 0⟩ } =
        .ok (lines, s') ↔
      s' = { s with accounts := s.accounts.set a0.key ⟨n, program,
        Config.encode ⟨true, a1.key, a2.key, fee, a3.key⟩⟩ } ∧ lines = [] := by
  unfold setUp
  simp only [nth, List.getElem?_cons_zero, List.getElem?_cons_succ, pure_bind]
  rw [bind_run_of_ok (readRecord_run_eq_ok.2
    ⟨⟨_, Table.get?_set_self _ _ _, Config.decode_zeros⟩, rfl⟩)]
  simp only [Bool.false_eq_true, if_false, bind_run_eq_ok, writeRecord_set_run_eq_ok_iff,
    pure_run_eq_ok]
  constructor
  · rintro ⟨_, _, rfl, rfl, rfl⟩
    exact ⟨rfl, rfl⟩
  · rintro ⟨rfl, rfl⟩
    exact ⟨(), _, rfl, rfl, rfl⟩

theorem process_config (program : Address) (accounts : List Invoked) (fee : UInt64) :
    process program accounts (Command.config fee).pack = setUp program accounts fee := by
  unfold process
  rw [(Command.unpack_eq_ok_iff (v := .config fee)).2 ⟨trivial, rfl⟩]

end SetUp

/-! ### Opening a route -/

/-- The token side of a route is in place: on a route to another chain the escrow is a token
account of the token authority holding the mint; on a route to the home chain the mint exists,
under the token authority. -/
def TokenSideReady (s : State) (destination : UInt32) (authority mint escrow : Address) : Prop :=
  if destination = 0 then ∃ m, s.mints.get? mint = some m ∧ m.authority = some authority
  else ∃ e, s.tokenAccounts.get? escrow = some e ∧ e.owner = authority ∧ e.mint = mint

/-- The token side is read off the token tables alone. -/
@[simp] theorem TokenSideReady.of_accounts (s : State) (accounts : Table Account) :
    TokenSideReady { s with accounts := accounts } = TokenSideReady s := rfl

section Create

variable {program : Address} {s s' : State} {lines : List String}

/-- A route opened through the handler had its token side in place. -/
theorem create_tokenSide {accounts : List Invoked} {destination : UInt32} {max min : UInt64}
    (h : (create program accounts destination max min).run s = .ok (lines, s')) :
    ∃ ta mint escrow, (accounts[1]?).map Invoked.key = some ta ∧
      (accounts[2]?).map Invoked.key = some mint ∧ (accounts[3]?).map Invoked.key = some escrow ∧
      TokenSideReady s destination ta mint escrow := by
  unfold create at h
  simp only [bind_run_eq_ok, nth_run_eq_ok, readRecord_run_eq_ok, ownedBy_run_eq_ok,
    requireKey_run_eq_ok, ite_fail_bind_run_eq_ok, and_assoc, exists_and_left,
    exists_eq_left] at h
  obtain ⟨rk, h0, ta, h1, mint, h2, esc, h3, tp, h4, ow, h5, ck, h6, hle, c, hcd, hco, hsig, hkey,
    _, _, existing, hrd, hinit, h⟩ := h
  refine ⟨ta.key, mint.key, esc.key, by simp [h1], by simp [h2], by simp [h3], ?_⟩
  split at h
  · exact absurd h fail_run_ne_ok
  obtain ⟨-, h⟩ := ite_fail_bind_run_eq_ok.1 h
  unfold TokenSideReady
  -- on a route to another chain the escrow is looked up; on one to the home chain, the mint
  split at h
  · rename_i hd
    rw [if_neg (by simpa using hd)]
    rw [get_bind_run] at h
    split at h
    · exact absurd h fail_bind_run_ne_ok
    · rename_i e he
      obtain ⟨hok, -⟩ := ite_fail_bind_run_eq_ok.1 h
      simp only [Bool.or_eq_true, bne_iff_ne, ne_eq, not_or, Decidable.not_not] at hok
      exact ⟨e, he, hok.1, hok.2⟩
  · rename_i hd
    rw [if_pos (by simpa using hd)]
    obtain ⟨m, _, hm, h⟩ := bind_run_eq_ok.1 h
    obtain ⟨hm, -⟩ := mintAt_run_eq_ok.1 hm
    obtain ⟨hok, -⟩ := ite_fail_bind_run_eq_ok.1 h
    simp only [bne_iff_ne, ne_eq, Decidable.not_not] at hok
    exact ⟨m, hm, hok⟩

/-- Opening a route goes through exactly when its limits are in order, the seventh account is a
config of the program whose owner signed as the sixth, the first account is a route of the program
not yet set up, the second is the route's token authority, and the token side is in place; the
route is then written set up, at index 0. -/
theorem create_run_eq_ok_iff {destination : UInt32} {max min : UInt64}
    (a0 a1 a2 a3 a4 a5 a6 : Invoked) (rest : List Invoked) :
    (create program (a0 :: a1 :: a2 :: a3 :: a4 :: a5 :: a6 :: rest) destination max min).run s =
        .ok (lines, s') ↔
      min ≤ max ∧ (∃ c, configAt program s a6.key = some c ∧ a5.signer = true ∧ a5.key = c.owner) ∧
        (∃ r, routeAt program s a0.key = some r ∧ r.initialized = false) ∧
        (∃ bump, Address.findProgramAddress [a0.key.bytes] program = some (a1.key, bump) ∧
          TokenSideReady s destination a1.key a2.key a3.key ∧
          (writeRecord program a0.key (Route.encode
            ⟨true, bump, a4.key, a6.key, a3.key, a2.key, destination, 0, max, min⟩)).run s =
            .ok ((), s')) ∧
        lines = [] := by
  constructor
  · intro h
    obtain ⟨ta, mint, escrow, h1, h2, h3, htok⟩ := create_tokenSide h
    obtain ⟨hlines, hle, rk, ta', mint', escrow', tp, ck, owner, c, existing, bump, h0', h1', h2',
      h3', h4', h5', h6', hc, hsig, hkey, hr, hinit, hf, hw⟩ := create_effect h
    simp only [List.getElem?_cons_zero, List.getElem?_cons_succ, Option.map_some,
      Option.some.injEq] at h1 h2 h3 h0' h1' h2' h3' h4' h5' h6'
    subst h1 h2 h3 h0' h1' h2' h3' h4' h5' h6'
    exact ⟨hle, ⟨c, hc, hsig, hkey⟩, ⟨existing, hr, hinit⟩, ⟨bump, hf, htok, hw⟩, hlines⟩
  · rintro ⟨hle, ⟨c, hc, hsig, hown⟩, ⟨r, hr, hinit⟩, ⟨bump, hf, htok, hw⟩, rfl⟩
    obtain ⟨ac, hac, hco, hcd⟩ := recordAt_eq_some.1 hc
    obtain ⟨ar, har, -, hrd⟩ := routeAt_eq_some.1 hr
    have hnlt : ¬ max < min := UInt64.not_lt.2 hle
    unfold create
    simp only [gt_iff_lt, hnlt, if_false, nth, List.getElem?_cons_zero, List.getElem?_cons_succ,
      pure_bind]
    rw [bind_run_of_ok (readRecord_run_eq_ok.2 ⟨⟨ac, hac, hcd⟩, rfl⟩),
      bind_run_of_ok (a := ()) (ownedBy_run_eq_ok.2 ⟨⟨ac, hac, hco⟩, rfl⟩),
      bind_run_of_ok (a := ()) (requireKey_run_eq_ok.2 ⟨hsig, hown, rfl⟩),
      bind_run_of_ok (readRecord_run_eq_ok.2 ⟨⟨ar, har, hrd⟩, rfl⟩)]
    simp only [hinit, Bool.false_eq_true, if_false, hf, bne_self_eq_false]
    unfold TokenSideReady at htok
    -- the token side only reads; then the route is stored
    by_cases hd : destination = 0
    · subst hd
      rw [if_pos rfl] at htok
      obtain ⟨m, hm, hma⟩ := htok
      simp only [bne_self_eq_false, Bool.false_eq_true, if_false]
      rw [bind_run_of_ok (mintAt_run_eq_ok.2 ⟨hm, rfl⟩)]
      simp only [hma, bne_self_eq_false, Bool.false_eq_true, if_false]
      rw [bind_run_of_ok (a := ()) hw]
      rfl
    · rw [if_neg hd] at htok
      obtain ⟨e, he, heo, hem⟩ := htok
      have hd' : (destination != 0) = true := by simpa using hd
      simp only [hd', if_true]
      rw [get_bind_run]
      simp only [he, heo, hem, bne_self_eq_false, Bool.or_false, Bool.false_eq_true, if_false]
      rw [bind_run_of_ok (a := ()) hw]
      rfl

/-- A route opened in an account the system program just made, as `route`'s length of zeros owned by
the program: the config must be another account, since zeros of a route's length are no config;
the route is then the account made, its data the route set up. -/
theorem create_made_anew_iff {n : UInt64} {destination : UInt32} {max min : UInt64}
    (a0 a1 a2 a3 a4 a5 a6 : Invoked) (rest : List Invoked) :
    (create program (a0 :: a1 :: a2 :: a3 :: a4 :: a5 :: a6 :: rest) destination max min).run
        { s with accounts := s.accounts.set a0.key ⟨n, program, List.replicate Route.size 0⟩ } =
        .ok (lines, s') ↔
      min ≤ max ∧ a6.key ≠ a0.key ∧
        (∃ c, configAt program s a6.key = some c ∧ a5.signer = true ∧ a5.key = c.owner) ∧
        (∃ bump, Address.findProgramAddress [a0.key.bytes] program = some (a1.key, bump) ∧
          TokenSideReady s destination a1.key a2.key a3.key ∧
          s' = { s with accounts := s.accounts.set a0.key ⟨n, program, Route.encode
            ⟨true, bump, a4.key, a6.key, a3.key, a2.key, destination, 0, max, min⟩⟩ }) ∧
        lines = [] := by
  have hroute : routeAt program { s with
      accounts := s.accounts.set a0.key ⟨n, program, List.replicate Route.size 0⟩ } a0.key =
      some {} := by
    rw [routeAt_eq_recordAt, recordAt_set, if_pos rfl, if_pos rfl, Route.decode_zeros]
    rfl
  -- the config is read after the route's account is made: zeros of a route's length are no config
  have hconfig : configAt program { s with
      accounts := s.accounts.set a0.key ⟨n, program, List.replicate Route.size 0⟩ } a6.key =
      if a6.key = a0.key then none else configAt program s a6.key := by
    rw [configAt, recordAt_set]
    have hnone : (Config.decode (List.replicate Route.size 0)).toOption = none :=
      Config.decode_toOption_of_length (by rw [List.length_replicate]; decide)
    simp only [hnone, ite_self]
    rfl
  rw [create_run_eq_ok_iff, hconfig, hroute]
  simp only [writeRecord_set_run_eq_ok_iff, TokenSideReady.of_accounts]
  by_cases hk : a6.key = a0.key <;> simp [hk]

theorem process_create (program : Address) (accounts : List Invoked) (destination : UInt32)
    (max min : UInt64) :
    process program accounts (Command.create destination max min).pack =
      create program accounts destination max min := by
  unfold process
  rw [(Command.unpack_eq_ok_iff (v := .create destination max min)).2 ⟨trivial, rfl⟩]

end Create

/-! ### Two instructions: the account's creation, then the program's -/

/-- Every key a message needs a signature of is among `signers`, when its payer is and every
account an instruction asks a signature of is. -/
theorem cover_of_refs {payer : Address} {ixs : List Instruction} {signers : List Signer}
    (hpayer : ∃ s ∈ signers, s.key = payer)
    (h : ∀ ix ∈ ixs, ∀ ref ∈ ix.accounts, ref.signer = true → ∃ s ∈ signers, s.key = ref.key) :
    ∀ k, Message.signsFor payer ixs k = true → ∃ s ∈ signers, s.key = k := by
  intro k hk
  rcases Message.signsFor_eq_true.1 hk with rfl | ⟨ix, hix, ref, href, rfl, hs⟩
  · exact hpayer
  · exact h ix hix ref href hs

section Creation

variable {l : Ledger} {op : String} {payer : Address} {signers : List Signer}
  {created setup : Instruction}

/-- A transaction that makes an account with the system program, then has the ledger's own
program set it up, all its signers trusted, commits with the state `s'` exactly when the ledger's
program is not the system program, the creation runs, and the set-up runs on from there to
`s'`. -/
theorem creation_commits_iff (hsys : created.program = Address.systemProgram)
    (hrefuse : ∀ v, Command.unpack created.data ≠ .ok v) (hprog : setup.program = l.program)
    (hcover : ∀ k, Message.signsFor payer [created, setup] k = true → ∃ s ∈ signers, s.key = k)
    (htrust : ∀ s ∈ signers, s.Trusted l) (s' : State) :
    (∃ sig l', (assembleOrStop op payer [created, setup] signers >>= submit).run.run l =
        (.ok sig, l') ∧ l'.state = s') ↔
      l.program ≠ Address.systemProgram ∧ ∃ s₁,
        (processSystem (created.accounts.map fun r =>
          ⟨r.key, Message.signsFor payer [created, setup] r.key⟩) created.data).run l.state =
          .ok ((), s₁) ∧
        ∃ written, (process l.program (setup.accounts.map fun r =>
          ⟨r.key, Message.signsFor payer [created, setup] r.key⟩) setup.data).run s₁ =
          .ok (written, s') := by
  rw [assembleOrStop_submit_commits_iff (List.cons_ne_nil _ _) hcover htrust]
  simp only [Ledger.runs_compile_iff, Ledger.exists_runsAs_cons_iff, Ledger.exists_runsAs_nil_iff,
    exists_eq_right', hsys, hprog, execute_system hrefuse, execute_own]
  -- the ledger runs its own program first, so where that is the system program the creation fails
  by_cases hp : Address.systemProgram = l.program
  · simp [hp, fail_run_ne_ok]
  · simp only [hp, if_false, bind_run_eq_ok, pure_run_eq_ok, ne_eq, Ne.symm hp, not_false_eq_true,
      true_and]
    constructor
    · rintro ⟨_, ⟨_, ⟨⟩, _, hsys, rfl, rfl⟩, hrun⟩
      exact ⟨_, hsys, hrun⟩
    · rintro ⟨s₁, hsys, hrun⟩
      exact ⟨s₁, ⟨[], (), s₁, hsys, rfl, rfl⟩, hrun⟩

end Creation

/-! ### The client's flows -/

section Flows

variable {l : Ledger}

/-- Opening a route from the client, with its payer, route and owner key pairs trusted, commits with
the state `s'` exactly when the ledger's program is not the system program, the route's account
holds no lamports, the limits are in order, the config is another account, one the program keeps
with the owner as its owner, the route has a token authority whose token side is in place, and
the payer holds a route's rent; the payer has then paid the rent, and the route's account holds
it and the route set up. -/
theorem createRoute_commits_iff (payer route owner : Keypair) (p : RouteParams)
    (hpayer : (Signer.keypair payer).Trusted l) (hroute : (Signer.keypair route).Trusted l)
    (howner : (Signer.keypair owner).Trusted l) (s' : State) :
    (createRoute payer route owner p).Commits l s' ↔
      l.program ≠ Address.systemProgram ∧ balance l.state route.key = 0 ∧ p.min ≤ p.max ∧
        p.config ≠ route.key ∧
        (∃ c, configAt l.program l.state p.config = some c ∧ c.owner = owner.key) ∧
        ∃ ta bump a, Address.findProgramAddress [route.key.bytes] l.program = some (ta, bump) ∧
          TokenSideReady l.state p.destination ta p.mint p.escrow ∧
          l.state.accounts.get? payer.key = some a ∧ (rent Route.size).toUInt64 ≤ a.lamports ∧
          s' = { l.state with
            accounts := (l.state.accounts.set payer.key
              { a with lamports := a.lamports - (rent Route.size).toUInt64 }).set route.key
                ⟨(rent Route.size).toUInt64, l.program, Route.encode ⟨true, bump, p.tokenProgram,
                  p.config, p.escrow, p.mint, p.destination, 0, p.max, p.min⟩⟩ } := by
  unfold createRoute
  rw [Flow.Commits, Flow.run_bind, Flow.run_get]
  dsimp only
  -- with no token authority found the flow stops before it submits anything
  rcases hta : Address.findProgramAddress [route.key.bytes] l.program with _ | ⟨ta, bump₀⟩
  · constructor
    · rintro ⟨_, _, h, -⟩
      cases h
    · rintro ⟨-, -, -, -, -, _, _, _, hf, -⟩
      cases hf
  dsimp only
  set created := Builder.createAccount payer.key route.key (rent Route.size).toUInt64
    Route.size.toUInt64 l.program with hcreated
  set setup := Builder.create l.program
    ⟨route.key, ta, p.mint, p.escrow, p.tokenProgram, owner.key, p.config⟩ p.destination p.max
    p.min with hsetup
  have hcover : ∀ k, Message.signsFor payer.key [created, setup] k = true →
      ∃ s ∈ [Signer.keypair payer, .keypair route, .keypair owner], s.key = k := by
    refine cover_of_refs ⟨.keypair payer, by simp, rfl⟩ ?_
    simp [hcreated, hsetup, Builder.createAccount, Builder.create, Builder.bridgeInstruction,
      AccountRef.mutable, AccountRef.readonly, Signer.key]
  have htrust : ∀ s ∈ [Signer.keypair payer, .keypair route, .keypair owner], s.Trusted l := by
    simp [hpayer, hroute, howner]
  rw [creation_commits_iff rfl (unpack_createAccount _ _ _) rfl hcover htrust]
  set sf := Message.signsFor payer.key [created, setup] with hsf
  have hsp : sf payer.key = true := Message.signsFor_eq_true.2 (.inl rfl)
  have hsr : sf route.key = true := Message.signsFor_eq_true.2 (.inr ⟨created, by simp,
    AccountRef.mutable route.key true, by simp [hcreated, Builder.createAccount], rfl, rfl⟩)
  have hso : sf owner.key = true := Message.signsFor_eq_true.2 (.inr ⟨setup, by simp,
    AccountRef.readonly owner.key true, by simp [hsetup, Builder.create, Builder.bridgeInstruction],
    rfl, rfl⟩)
  have hsize : Route.size.toUInt64.toNat = Route.size := rfl
  simp only [hcreated, hsetup, Builder.createAccount, Builder.create, Builder.bridgeInstruction,
    AccountRef.mutable, AccountRef.readonly, List.map_cons, List.map_nil, process_create,
    processSystem_createAccount_iff, hsp, hsr, allocate_run_eq_ok_iff, hsize, true_and]
  generalize l.state = s
  constructor
  · rintro ⟨hprog, _, ⟨hbal, -, s₀, hd, rfl⟩, _, hrun⟩
    obtain ⟨hle, hne, ⟨c, hc, -, hown⟩, ⟨bump, hf, htok, rfl⟩, -⟩ :=
      (create_made_anew_iff _ _ _ _ _ _ _ _).1 hrun
    -- paying the rent keeps every record as it was
    rw [configAt, debit_recordAt hd] at hc
    obtain ⟨a, ha, hla, rfl⟩ := debit_run_eq_ok.1 hd
    rw [TokenSideReady.of_accounts] at htok
    exact ⟨hprog, hbal, hle, hne, ⟨c, hc, hown.symm⟩, ta, bump, a, hta.symm.trans hf, htok, ha, hla,
      rfl⟩
  · rintro ⟨hprog, hbal, hle, hne, ⟨c, hc, hown⟩, ta', bump, a, hf, htok, ha, hla, rfl⟩
    have hta' : ta = ta' := congrArg Prod.fst (Option.some.inj hf)
    rw [← hta'] at hf htok
    have hd : (debit payer.key (rent Route.size).toUInt64).run s = .ok ((), { s with
        accounts := s.accounts.set payer.key
          { a with lamports := a.lamports - (rent Route.size).toUInt64 } }) :=
      debit_run_eq_ok.2 ⟨a, ha, hla, rfl⟩
    refine ⟨hprog, _, ⟨hbal, by decide, _, hd, rfl⟩, [], (create_made_anew_iff _ _ _ _ _ _ _ _).2 ?_⟩
    rw [configAt, debit_recordAt hd, TokenSideReady.of_accounts]
    exact ⟨hle, hne, ⟨c, hc, hso, hown.symm⟩, ⟨bump, hta.trans hf, htok, rfl⟩, rfl⟩

/-- A flow that returns `c` with what `x` returns commits as `x` does. -/
theorem Flow.pair_commits_iff {α β : Type} {x : Flow α} {c c' : β} {s' : State} :
    (∃ v l', (x >>= fun w => pure (c, w)).run.run l = (.ok (c', v), l') ∧ l'.state = s') ↔
      c = c' ∧ ∃ v l', x.run.run l = (.ok v, l') ∧ l'.state = s' := by
  rw [Flow.run_bind]
  rcases x.run.run l with ⟨r, l''⟩
  cases r with
  | error e =>
    constructor
    · rintro ⟨_, _, h, -⟩
      cases h
    · rintro ⟨-, _, _, h, -⟩
      cases h
  | ok w =>
    constructor
    · rintro ⟨v, l', h, hs⟩
      have h' : ((.ok (c, w), l'') : Except Stop (β × α) × Ledger) = (.ok (c', v), l') := h
      cases h'
      exact ⟨rfl, w, l'', rfl, hs⟩
    · rintro ⟨rfl, _, _, h, hs⟩
      cases h
      exact ⟨_, _, rfl, hs⟩

/-- Where the config's address cannot be derived, setting up a config stops before it submits
anything, with the derivation's error and the ledger as it was. -/
theorem initializeConfig_run_of_error {payer : Keypair} {seed : String}
    {owner authority collector : Address} {fee : UInt64} {e : DeriveError}
    (h : Address.withSeed payer.key seed l.program = .error e) :
    (initializeConfig payer seed owner authority collector fee).run.run l =
      (.error (.failed (.address "initialize_config" e.message)), l) := by
  unfold initializeConfig
  rw [Flow.run_bind, Flow.run_get]
  dsimp only
  rw [h]
  rfl

/-- Setting up a config from the client, with its payer's key pair trusted, returns the address
`config` and commits with the state `s'` exactly when `config` is the address derived from the
payer and the seed, the ledger's program is not the system program, that address holds no
lamports and the payer holds a config's rent; the payer has then paid the rent, and the config's
account holds it and the config asked for. -/
theorem initializeConfig_commits_iff (payer : Keypair) (seed : String)
    (owner authority collector : Address) (fee : UInt64)
    (hpayer : (Signer.keypair payer).Trusted l) (config : Address) (s' : State) :
    (∃ sig l', (initializeConfig payer seed owner authority collector fee).run.run l =
        (.ok (config, sig), l') ∧ l'.state = s') ↔
      Address.withSeed payer.key seed l.program = .ok config ∧
        l.program ≠ Address.systemProgram ∧ balance l.state config = 0 ∧
        ∃ a, l.state.accounts.get? payer.key = some a ∧ (rent Config.size).toUInt64 ≤ a.lamports ∧
          s' = { l.state with
            accounts := (l.state.accounts.set payer.key
              { a with lamports := a.lamports - (rent Config.size).toUInt64 }).set config
                ⟨(rent Config.size).toUInt64, l.program,
                  Config.encode ⟨true, owner, authority, fee, collector⟩⟩ } := by
  unfold initializeConfig
  rw [Flow.run_bind, Flow.run_get]
  dsimp only
  cases hw : Address.withSeed payer.key seed l.program with
  | error e =>
    constructor
    · rintro ⟨_, _, h, -⟩
      cases h
    · rintro ⟨h, -⟩
      cases h
  | ok derived =>
    dsimp only
    rw [← bind_assoc, Flow.pair_commits_iff, Except.ok.injEq]
    refine and_congr_right fun hd => ?_
    subst hd
    set created := Builder.createAccountWithSeed payer.key derived payer.key seed
      (rent Config.size).toUInt64 Config.size.toUInt64 l.program with hcreated
    set setup := Builder.initializeConfig l.program derived owner authority collector fee with hsetup
    have hcover : ∀ k, Message.signsFor payer.key [created, setup] k = true →
        ∃ s ∈ [Signer.keypair payer], s.key = k := by
      refine cover_of_refs ⟨.keypair payer, by simp, rfl⟩ ?_
      simp [hcreated, hsetup, Builder.createAccountWithSeed, Builder.initializeConfig,
        Builder.bridgeInstruction, AccountRef.mutable, AccountRef.readonly, Signer.key]
    rw [creation_commits_iff rfl (unpack_createAccountWithSeed _ _ _ _ _) rfl hcover
      (by simpa using hpayer)]
    set sf := Message.signsFor payer.key [created, setup] with hsf
    have hsp : sf payer.key = true := Message.signsFor_eq_true.2 (.inl rfl)
    -- the derivation went through, so the seed fits its length prefix
    have hseed : (Utf8.encode seed).length < UInt64.size :=
      lt_of_le_of_lt (Address.withSeed_ok_length hw) (by decide)
    have hsize : Config.size.toUInt64.toNat = Config.size := rfl
    simp only [hcreated, hsetup, Builder.createAccountWithSeed, Builder.initializeConfig,
      Builder.bridgeInstruction, AccountRef.mutable, AccountRef.readonly, List.map_cons, List.map_nil,
      process_config, processSystem_seeded_iff hseed, hsp, hw, allocate_run_eq_ok_iff, hsize,
      true_and]
    generalize l.state = s
    constructor
    · rintro ⟨hprog, _, ⟨hbal, -, s₀, hd, rfl⟩, _, hrun⟩
      obtain ⟨rfl, -⟩ := (setUp_made_anew_iff _ _ _ _ _).1 hrun
      obtain ⟨a, ha, hla, rfl⟩ := debit_run_eq_ok.1 hd
      exact ⟨hprog, hbal, a, ha, hla, rfl⟩
    · rintro ⟨hprog, hbal, a, ha, hla, rfl⟩
      have hd : (debit payer.key (rent Config.size).toUInt64).run s = .ok ((), { s with
          accounts := s.accounts.set payer.key
            { a with lamports := a.lamports - (rent Config.size).toUInt64 } }) :=
        debit_run_eq_ok.2 ⟨a, ha, hla, rfl⟩
      exact ⟨hprog, _, ⟨hbal, by decide, _, hd, rfl⟩, [],
        (setUp_made_anew_iff _ _ _ _ _).2 ⟨rfl, rfl⟩⟩

end Flows

/-- Making a config and opening a route from the client, end to end, with the key pairs that sign
trusted. Setting up a config stops before it submits anything, with the ledger as it was and an
address error, where the seed is longer than a seed may be or the program may not own a derived
address; it returns the address `config` and commits with the state `s'` exactly when `config` is
the address derived from the payer and the seed, the ledger's program is not the system program,
that address holds no lamports and the payer holds a config's rent, and `s'` is then the state
with the payer's rent moved to the config's account, which the program owns and which holds the
config asked for, set up. Opening a route commits with `s'` exactly when the ledger's program is
not the system program, the route's account holds no lamports, the limits are in order, the
config is another account, one the program keeps with the owner as its owner, the route has a
token authority whose token side is in place, and the payer holds a route's rent; `s'` is then the
state with the payer's rent moved to the route's account, which the program owns and which holds
the route set up. -/
theorem account_creation_end_to_end (l : Ledger) (payer route owner : Keypair)
    (hpayer : (Signer.keypair payer).Trusted l) (hroute : (Signer.keypair route).Trusted l)
    (howner : (Signer.keypair owner).Trusted l) (seed : String)
    (configOwner authority collector : Address) (fee : UInt64) (config : Address) (p : RouteParams)
    (s' : State) :
    ((Address.maxSeedLength < (Utf8.encode seed).length ∨
        l.program.bytes.drop (32 - Address.programAddressMarker.length) =
          Address.programAddressMarker) →
      ∃ e : DeriveError,
        (initializeConfig payer seed configOwner authority collector fee).run.run l =
          (.error (.failed (.address "initialize_config" e.message)), l)) ∧
    ((∃ sig l', (initializeConfig payer seed configOwner authority collector fee).run.run l =
        (.ok (config, sig), l') ∧ l'.state = s') ↔
      Address.withSeed payer.key seed l.program = .ok config ∧
        l.program ≠ Address.systemProgram ∧ balance l.state config = 0 ∧
        ∃ a, l.state.accounts.get? payer.key = some a ∧ (rent Config.size).toUInt64 ≤ a.lamports ∧
          s' = { l.state with
            accounts := (l.state.accounts.set payer.key
              { a with lamports := a.lamports - (rent Config.size).toUInt64 }).set config
                ⟨(rent Config.size).toUInt64, l.program,
                  Config.encode ⟨true, configOwner, authority, fee, collector⟩⟩ }) ∧
    ((createRoute payer route owner p).Commits l s' ↔
      l.program ≠ Address.systemProgram ∧ balance l.state route.key = 0 ∧ p.min ≤ p.max ∧
        p.config ≠ route.key ∧
        (∃ c, configAt l.program l.state p.config = some c ∧ c.owner = owner.key) ∧
        ∃ ta bump a, Address.findProgramAddress [route.key.bytes] l.program = some (ta, bump) ∧
          TokenSideReady l.state p.destination ta p.mint p.escrow ∧
          l.state.accounts.get? payer.key = some a ∧ (rent Route.size).toUInt64 ≤ a.lamports ∧
          s' = { l.state with
            accounts := (l.state.accounts.set payer.key
              { a with lamports := a.lamports - (rent Route.size).toUInt64 }).set route.key
                ⟨(rent Route.size).toUInt64, l.program, Route.encode ⟨true, bump, p.tokenProgram,
                  p.config, p.escrow, p.mint, p.destination, 0, p.max, p.min⟩⟩ }) := by
  refine ⟨fun hbad => ?_, initializeConfig_commits_iff payer seed configOwner authority collector fee
    hpayer config s', createRoute_commits_iff payer route owner p hpayer hroute howner s'⟩
  obtain ⟨e, he⟩ := Address.withSeed_refused_iff.2 hbad
  exact ⟨e, initializeConfig_run_of_error he⟩

/-! ### Opening a route at a fresh key, and over a spent config

The program and the route's key are those of the settlement examples, whose token authority the
search finds with bump 255 (`stray_found`). -/

/-- A ledger of the program that accepts every signature. -/
def openingLedger (s : State) : Ledger :=
  { program := strayProgram, state := s, checkSignature := fun _ _ _ => true }

def openingPayer : Keypair := ⟨Address.ofBytes [1], fun _ => [1]⟩

def openingRoute : Keypair := ⟨strayRoute, fun _ => [1]⟩

def openingPayerAccount : Account := ⟨1000000000, Address.systemProgram, []⟩

/-- The escrow of the route's mint, held by the route's token authority. -/
def openingEscrows : Table TokenAccount :=
  ({} : Table TokenAccount).set strayEscrow ⟨strayMint, strayAuthority, 0, none⟩

/-- The payer, and the config of the settlement examples at its own key. -/
def openingState : State where
  accounts := (({} : Table Account).set openingPayer.key openingPayerAccount).set strayConfig
    ⟨1000, strayProgram, strayConfigRecord.encode⟩
  tokenAccounts := openingEscrows

/-- A route to chain 7 of the config's owner, with limits 1 to 1000. -/
def openingParams : RouteParams :=
  ⟨strayConfig, strayMint, strayEscrow, Address.tokenProgram2022, 7, 1000, 1⟩

/-- The state once the route is open: the payer has paid the rent into the route's account. -/
def openingOpened : State :=
  { openingState with
    accounts := (openingState.accounts.set openingPayer.key
      { openingPayerAccount with
        lamports := openingPayerAccount.lamports - (rent Route.size).toUInt64 }).set strayRoute
        ⟨(rent Route.size).toUInt64, strayProgram, Route.encode ⟨true, 255,
          Address.tokenProgram2022, strayConfig, strayEscrow, strayMint, 7, 0, 1000, 1⟩⟩ }

theorem opening_trusted (s : State) {kp : Keypair} (h : kp.sign = fun _ => [1]) :
    (Signer.keypair kp).Trusted (openingLedger s) :=
  ⟨fun _ => ⟨rfl, by simp [h]⟩, fun _ _ _ he => nomatch he⟩

theorem opening_tokenSide (s : State) (hs : s.tokenAccounts = openingEscrows) :
    TokenSideReady s 7 strayAuthority strayMint strayEscrow := by
  unfold TokenSideReady
  rw [if_neg (by decide), hs]
  exact ⟨_, Table.get?_set_self _ _ _, rfl, rfl⟩

/-- The route opens at its fresh key, the payer paying its rent. -/
theorem route_opened_at_fresh_key :
    (createRoute openingPayer openingRoute straySigner openingParams).Commits
      (openingLedger openingState) openingOpened := by
  have hroute : openingState.accounts.get? openingRoute.key = none := by
    rw [openingState, Table.get?_set_of_ne _ _ (by decide), Table.get?_set_of_ne _ _ (by decide)]
    rfl
  have hpayer : openingState.accounts.get? openingPayer.key = some openingPayerAccount := by
    rw [openingState, Table.get?_set_of_ne _ _ (by decide), Table.get?_set_self]
  have hconfig : configAt strayProgram openingState strayConfig = some strayConfigRecord :=
    recordAt_eq_some.2 ⟨_, Table.get?_set_self _ _ _, rfl, Config.decode_encode _⟩
  refine ((account_creation_end_to_end (openingLedger openingState) openingPayer openingRoute
    straySigner (opening_trusted _ rfl) (opening_trusted _ rfl) (opening_trusted _ rfl) ""
    Address.zero Address.zero Address.zero 0 Address.zero openingParams openingOpened).2.2).2
    ⟨by decide, by simp [balance, openingLedger, hroute], by decide, by decide,
      ⟨_, hconfig, rfl⟩, strayAuthority, 255, openingPayerAccount, stray_found,
      opening_tokenSide _ rfl, hpayer, by decide, rfl⟩

/-- The payer, and at the route's key the config of the settlement examples, its lamports gone. -/
def spentState : State where
  accounts := (({} : Table Account).set openingPayer.key openingPayerAccount).set strayRoute
    ⟨0, strayProgram, strayConfigRecord.encode⟩
  tokenAccounts := openingEscrows

/-- The route opened over the config, at the config's own key. -/
def spentParams : RouteParams := { openingParams with config := strayRoute }

/-- Opening a route is refused where the route's account is a config of the program whose lamports
are gone, though all else a route needs is in place: the route's account holds no lamports, the
payer holds the rent, the limits are in order, the config is the program's with the owner as its
owner, and the token side is in place. The creation overwrites the config with a route's zeros
before the handler reads it. -/
theorem createRoute_refuses_spent_config :
    ¬ ∀ (l : Ledger) (payer route owner : Keypair) (p : RouteParams),
      (Signer.keypair payer).Trusted l → (Signer.keypair route).Trusted l →
      (Signer.keypair owner).Trusted l →
      ((∃ s', (createRoute payer route owner p).Commits l s') ↔
        balance l.state route.key = 0 ∧
        (∃ a, l.state.accounts.get? payer.key = some a ∧ (rent Route.size).toUInt64 ≤ a.lamports) ∧
        p.min ≤ p.max ∧ (∃ c, configAt l.program l.state p.config = some c ∧ c.owner = owner.key) ∧
        TokenSideReady l.state p.destination
          (((Address.findProgramAddress [route.key.bytes] l.program).map Prod.fst).getD Address.zero)
          p.mint p.escrow) := by
  intro h
  have hpayer : spentState.accounts.get? openingPayer.key = some openingPayerAccount := by
    rw [spentState, Table.get?_set_of_ne _ _ (by decide), Table.get?_set_self]
  have hspent : spentState.accounts.get? openingRoute.key =
      some ⟨0, strayProgram, strayConfigRecord.encode⟩ :=
    Table.get?_set_self _ _ _
  have hconfig : configAt strayProgram spentState strayRoute = some strayConfigRecord :=
    recordAt_eq_some.2 ⟨_, Table.get?_set_self _ _ _, rfl, Config.decode_encode _⟩
  have hauthority : ((Address.findProgramAddress [openingRoute.key.bytes]
      (openingLedger spentState).program).map Prod.fst).getD Address.zero = strayAuthority := by
    simp only [openingRoute, openingLedger]
    rw [stray_found]
    rfl
  -- every condition of `h` holds here, so by `h` the route would open
  obtain ⟨s', hcommit⟩ := (h (openingLedger spentState) openingPayer openingRoute straySigner
    spentParams (opening_trusted _ rfl) (opening_trusted _ rfl) (opening_trusted _ rfl)).2
    ⟨by simp [balance, openingLedger, hspent], ⟨_, hpayer, by decide⟩, by decide, ⟨_, hconfig, rfl⟩,
      by rw [hauthority]; exact opening_tokenSide _ rfl⟩
  -- but a route opens only over another account than its config
  obtain ⟨-, -, -, hne, -⟩ := (createRoute_commits_iff _ _ _ _ (opening_trusted _ rfl)
    (opening_trusted _ rfl) (opening_trusted _ rfl) s').1 hcommit
  exact hne rfl

end TokenBridge
