import TokenBridge.Proofs.Footprint
import TokenBridge.Ledger.Basic
import TokenBridge.Proofs.CommandCodec
import TokenBridge.Tx.Request
/-!
The account flags of every built instruction agree with what the ledger does with it.

A builder marks each account it names writable or not, and signer or not. Whatever ledger runs
the instruction, from whatever state (`builtInstruction_flags`): it changes the state only at keys
it marks writable; a signer flag counts only at a position it marks signer; and the ledger reads
no account past the ones it names, but for one case: a bridge-out built without fee accounts,
under a config that asks for a fee.

Each builder's data is read as its own command only. The bridge program refuses the system
program's and the token program's data (`process_refuses`), and those programs refuse the bridge
program's (`processSystem_pack`, `processToken_pack`), so that an instruction sent to another
program than its own fails before it reads any account. The rest is the footprint of the handler
that runs it (`Footprint`), set against the flags of the builder.
-/

namespace TokenBridge

open BridgeProgram Wire

namespace Instruction

/-- The instruction lets its program write the account at `k`: some reference to `k` is
writable. -/
def writes (ix : Instruction) (k : Address) : Bool :=
  ix.accounts.any fun r => r.key == k && r.writable

/-- The instruction's account at position `i` must sign. -/
def signsAt (ix : Instruction) (i : Nat) : Bool :=
  ((ix.accounts[i]?).map (·.signer)).getD false

end Instruction

/-! ### The system program's data -/

theorem Wire.map_eq_ok {α β : Type} {f : α → β} {r : Reader α} {c c' : Cursor} {b : β} :
    (f <$> r) c = .ok (b, c') ↔ ∃ a, r c = .ok (a, c') ∧ f a = b := by
  show Except.map (fun p => (f p.1, p.2)) (r c) = _ ↔ _
  cases r c with
  | error e => simp [Except.map]
  | ok p =>
    obtain ⟨a, c₁⟩ := p
    simp only [Except.map, Except.ok.injEq, Prod.mk.injEq]
    constructor
    · rintro ⟨rfl, rfl⟩
      exact ⟨a, ⟨rfl, rfl⟩, rfl⟩
    · rintro ⟨a', ⟨rfl, rfl⟩, rfl⟩
      exact ⟨rfl, rfl⟩

namespace SystemCommand

/-- The system program runs these commands and refuses every other. -/
def runs : SystemCommand → Bool
  | .createAccount .. | .createAccountWithSeed .. | .transfer .. => true
  | _ => false

/-- A command the system program runs has the variant number 0, 2 or 3, and at least 8 bytes of
fields. -/
theorem fieldsReader_runs {n : Nat} {c c' : Cursor} {cmd : SystemCommand}
    (h : fieldsReader n c = .ok (some cmd, c')) (hr : cmd.runs = true) :
    (n = 0 ∨ n = 2 ∨ n = 3) ∧ 8 ≤ c.rest.length := by
  -- every branch of the reader but the command's own makes another command
  cases cmd
  case createAccount | transfer =>
    -- both start with the lamports, a `u64`
    unfold fieldsReader at h
    split at h <;> simp only [bind_eq_ok, pure_eq_ok, Option.some.injEq, reduceCtorEq,
      and_false, false_and, exists_false] at h
    obtain ⟨a, c₁, hv, -⟩ := h
    refine ⟨by simp, ?_⟩
    simp [(readU64_eq_ok.1 hv).1, u64]
  case createAccountWithSeed =>
    unfold fieldsReader at h
    split at h <;> simp only [bind_eq_ok, pure_eq_ok, Option.some.injEq, reduceCtorEq,
      and_false, false_and, exists_false] at h
    obtain ⟨a, c₁, hv, -⟩ := h
    refine ⟨by simp, ?_⟩
    simp only [(readAddress_eq_ok.1 hv).1, address, List.length_append, a.length_bytes]
    omega
  all_goals simp [runs] at hr

/-- Data that the system program runs is at least 12 bytes long and starts with 0, 2 or 3. -/
theorem decode?_runs {data : Bytes} {cmd : SystemCommand} (h : decode? data = some cmd)
    (hr : cmd.runs = true) :
    12 ≤ data.length ∧ (data.head? = some 0 ∨ data.head? = some 2 ∨ data.head? = some 3) := by
  unfold decode? at h
  dsimp only at h
  split at h
  · rename_i x c' hread
    subst h
    obtain ⟨v, c₁, hv, hf⟩ := bind_eq_ok.1 hread
    obtain ⟨hrest, -⟩ := readU32_eq_ok.1 hv
    obtain ⟨hn, hlen⟩ := fieldsReader_runs hf hr
    simp only [Cursor.start] at hrest
    rw [hrest, List.length_append, u32, Bytes.length_ofNatLE]
    refine ⟨by omega, ?_⟩
    rcases hn with hn | hn | hn <;> simp [Bytes.ofNatLE, hn]
  · exact absurd h (by simp)

theorem decode?_createAccount (lamports space : UInt64) (owner : Address) :
    decode? (createAccount lamports space owner).encode = some (createAccount lamports space owner) := by
  have hdata : (createAccount lamports space owner).encode =
      u32 0 ++ (u64 lamports ++ (u64 space ++ (address owner ++ []))) := by
    simp [encode, address]
  unfold decode?
  rw [hdata]
  simp only [Cursor.start]
  rw [bind_of_ok (readU32_append "variant" 0 _ 0)]
  simp only [fieldsReader, UInt32.toNat_zero]
  rw [bind_of_ok (readU64_append "field" lamports _ _), bind_of_ok (readU64_append "field" space _ _),
    bind_of_ok (readAddress_append "field" owner _ _)]
  rfl

/-- The data of a creation at a derived address reads, if at all, as such a creation with the
same base. -/
theorem decode?_createAccountWithSeed {base : Address} {seed : String} {lamports space : UInt64}
    {owner : Address} {cmd : SystemCommand}
    (h : decode? (createAccountWithSeed base seed lamports space owner).encode = some cmd) :
    ∃ seed' lamports' space' owner',
      cmd = createAccountWithSeed base seed' lamports' space' owner' := by
  have hdata : (createAccountWithSeed base seed lamports space owner).encode =
      u32 3 ++ (address base ++ (text64 seed ++ u64 lamports ++ u64 space ++ owner.bytes)) := by
    simp [encode, address]
  unfold decode? at h
  dsimp only at h
  rw [hdata] at h
  simp only [Cursor.start] at h
  rw [bind_of_ok (readU32_append "variant" 3 _ 0)] at h
  have h3 : (3 : UInt32).toNat = 3 := rfl
  simp only [fieldsReader, h3] at h
  rw [bind_of_ok (readAddress_append "field" base _ _)] at h
  split at h
  · rename_i x c' hread
    subst h
    simp only [bind_eq_ok, pure_eq_ok, Option.some.injEq] at hread
    obtain ⟨seed', -, -, lamports', -, -, space', -, -, owner', -, -, rfl, -⟩ := hread
    exact ⟨seed', lamports', space', owner', rfl⟩
  · exact absurd h (by simp)

/-- The system program refuses, whatever the accounts, data that does not read as a command it
runs. -/
theorem processSystem_refuses {data : Bytes}
    (h : ∀ cmd, decode? data = some cmd → cmd.runs = false) :
    ∃ e, ∀ accounts, processSystem accounts data = fail (.runtime e) := by
  cases hd : decode? data with
  | none => exact ⟨.invalidInstructionData, fun accounts => by simp [processSystem, hd]⟩
  | some cmd =>
    have hr := h cmd hd
    cases cmd <;> simp only [runs, reduceCtorEq] at hr <;>
      exact ⟨.unsupportedSystemInstruction, fun accounts => by simp [processSystem, hd]⟩

end SystemCommand

/-! ### The bridge program's data -/

namespace Command

theorem head?_pack (c : Command) : c.pack.head? = some c.tag.toU8 := rfl

/-- The commands whose tag is a variant the system program runs are shorter than its data. -/
theorem length_pack_lt {c : Command} (h : c.tag.toU8 = 0 ∨ c.tag.toU8 = 2 ∨ c.tag.toU8 = 3) :
    c.pack.length < 12 := by
  cases c <;> simp [tag, Tag.toU8, pack, args, u64] at h ⊢

/-- The command whose tag is the approval's, a create, is longer than an approval. -/
theorem length_pack_of_create {c : Command} (h : c.tag.toU8 = approveTag) : c.pack.length = 21 := by
  cases c <;> simp [tag, Tag.toU8, approveTag, pack, args, u32, u64] at h ⊢

theorem unpack_ne_ok {data : Bytes}
    (h : ∀ v : Command, data.head? = some v.tag.toU8 → v.pack.length ≠ data.length) (v : Command) :
    unpack data ≠ .ok v := fun hv => by
  obtain ⟨-, rfl⟩ := unpack_eq_ok_iff.1 hv
  exact h v (head?_pack v) rfl

end Command

theorem SystemCommand.decode?_pack (c : Command) (cmd : SystemCommand)
    (h : SystemCommand.decode? c.pack = some cmd) : cmd.runs = false := by
  by_contra hr
  obtain ⟨hlen, hhead⟩ := SystemCommand.decode?_runs h (by simpa using hr)
  rw [Command.head?_pack] at hhead
  have hlt := Command.length_pack_lt (by simpa using hhead)
  omega

/-- The system program refuses every command of the bridge program, whatever the accounts. -/
theorem processSystem_pack (c : Command) :
    ∃ e, ∀ accounts, processSystem accounts c.pack = fail (.runtime e) :=
  SystemCommand.processSystem_refuses (SystemCommand.decode?_pack c)

/-- The token program refuses every command of the bridge program. -/
theorem processToken_pack (accounts : List Invoked) (c : Command) :
    processToken accounts c.pack = fail (.runtime .unsupportedTokenInstruction) := by
  have hrefuse : (c.pack.length != 9 || c.pack.head? != some approveTag) = true := by
    by_cases ht : c.tag.toU8 = approveTag
    · simp [Command.length_pack_of_create ht]
    · simp [Command.head?_pack, ht]
  simp only [processToken, hrefuse, if_true, fail_bind]

/-- The bridge program refuses data that unpacks to no command, whatever the accounts. -/
theorem process_refuses {program : Address} {data : Bytes} (h : ∀ v, Command.unpack data ≠ .ok v)
    (accounts : List Invoked) :
    process program accounts data = fail (.runtime .invalidInstructionData) := by
  cases hu : Command.unpack data with
  | error e => simp [process, hu]
  | ok v => exact absurd hu (h v)

theorem unpack_createAccount (lamports space : UInt64) (owner : Address) (v : Command) :
    Command.unpack (SystemCommand.createAccount lamports space owner).encode ≠ .ok v :=
  Command.unpack_ne_ok (fun v hv => by
    have hhead : (SystemCommand.createAccount lamports space owner).encode.head? = some 0 := by
      simp [SystemCommand.encode, u32, Bytes.ofNatLE]
    rw [hhead, Option.some.injEq] at hv
    have hlt := Command.length_pack_lt (.inl hv.symm)
    simp [SystemCommand.encode, u32, u64, owner.length_bytes]
    omega) v

theorem unpack_createAccountWithSeed (base : Address) (seed : String) (lamports space : UInt64)
    (owner : Address) (v : Command) :
    Command.unpack (SystemCommand.createAccountWithSeed base seed lamports space owner).encode ≠
      .ok v :=
  Command.unpack_ne_ok (fun v hv => by
    have hhead :
        (SystemCommand.createAccountWithSeed base seed lamports space owner).encode.head? =
          some 3 := by
      simp [SystemCommand.encode, u32, Bytes.ofNatLE]
    rw [hhead, Option.some.injEq] at hv
    have hlt := Command.length_pack_lt (.inr (.inr hv.symm))
    simp [SystemCommand.encode, u32, u64, base.length_bytes, owner.length_bytes]
    omega) v

theorem unpack_approveData (amount : UInt64) (v : Command) :
    Command.unpack (approveData amount) ≠ .ok v :=
  Command.unpack_ne_ok (fun v hv => by
    rw [Command.length_pack_of_create (by simpa [approveData] using hv.symm)]
    simp [approveData, u64]) v

/-! ### Which program runs an instruction -/

/-- An instruction carrying a bridge command fails, whatever its accounts, under any program but
the bridge program. -/
theorem execute_pack_of_ne (l : Ledger) (c : Command) {program : Address}
    (hp : program ≠ l.program) : ∃ e, ∀ accounts, l.execute program accounts c.pack = fail e := by
  by_cases hs : program = Address.systemProgram
  · obtain ⟨e, he⟩ := processSystem_pack c
    refine ⟨.runtime e, fun accounts => ?_⟩
    rw [Ledger.execute, if_neg (by simpa using hp), if_pos (by simpa using hs), he]
    rfl
  by_cases ht : program = l.tokenProgram
  · refine ⟨.runtime .unsupportedTokenInstruction, fun accounts => ?_⟩
    rw [Ledger.execute, if_neg (by simpa using hp), if_neg (by simpa using hs),
      if_pos (by simpa using ht), processToken_pack]
    rfl
  · refine ⟨.runtime (.unknownProgram program), fun accounts => ?_⟩
    rw [Ledger.execute, if_neg (by simpa using hp), if_neg (by simpa using hs),
      if_neg (by simpa using ht)]

/-! ### What a command's handler touches -/

namespace Command

/-- The positions of the accounts that the command's handler may change. -/
def writtenAccounts : Command → List Nat
  | .changeLimit .. => [1]
  | .bridge .. => [0, 1, 2, 4, 7, 8]
  | .settle _ => [2, 3, 5]
  | _ => [0]

/-- The positions whose signer flag the command's handler reads. -/
def signingAccounts : Command → List Nat
  | .config _ => []
  | .changeLimit .. => [2]
  | .create .. => [5]
  | .bridge .. => [3, 7]
  | .settle _ => [4]
  | _ => [1]

/-- How many accounts the command's handler reads, at most. -/
def accountsRead : Command → Nat
  | .config _ => 4
  | .changeFee fee => if 0 < fee then 3 else 2
  | .create .. => 7
  | .bridge .. => 9
  | .settle _ => 8
  | _ => 3

/-- A command's writing unpacks, if at all, to a command of the same tag. -/
theorem unpack_pack_tag {c v : Command} (h : unpack c.pack = .ok v) : c.tag.toU8 = v.tag.toU8 := by
  simpa [head?_pack] using congrArg List.head? (unpack_eq_ok_iff.1 h).2

/-- What a command's writing unpacks to touches what the command touches: it is the command,
or, for a bridge-out whose texts do not fit their lengths, another bridge-out. -/
theorem unpack_pack_touches {c v : Command} (h : unpack c.pack = .ok v) :
    v.writtenAccounts = c.writtenAccounts ∧ v.signingAccounts = c.signingAccounts ∧
      v.accountsRead = c.accountsRead := by
  by_cases hf : c.Fits
  · rw [unpack_eq_ok_iff.2 ⟨hf, rfl⟩, Except.ok.injEq] at h
    subst h
    exact ⟨rfl, rfl, rfl⟩
  · have htag := unpack_pack_tag h
    cases c <;> simp only [Fits, not_true_eq_false] at hf
    cases v <;> simp [tag, Tag.toU8] at htag
    exact ⟨rfl, rfl, rfl⟩

/-- A bridge-out's writing unpacks, if at all, to a bridge-out. -/
theorem unpack_pack_bridge {amount : UInt64} {recipient : String} {payload : Bytes} {v : Command}
    (h : unpack (bridge amount recipient payload).pack = .ok v) :
    ∃ amount' recipient' payload', v = bridge amount' recipient' payload' := by
  have htag := unpack_pack_tag h
  cases v <;> simp [tag, Tag.toU8] at htag
  exact ⟨_, _, _, rfl⟩

end Command

section Process

variable {program : Address} {data : Bytes} {c : Command}

theorem process_changed {accounts : List Invoked} {s s' : State} {lines : List String}
    (hc : Command.unpack data = .ok c) (h : (process program accounts data).run s = .ok (lines, s')) :
    s.ChangedWithin s' (keysAt accounts c.writtenAccounts) := by
  cases c <;> simp only [process, hc] at h
  · exact setUp_changed h
  · exact changeKey_changed h
  · exact changeKey_changed h
  · exact changeFee_changed h
  · exact create_changed h
  · exact changeLimit_changed h
  · exact bridgeOut_changed h
  · exact settle_changed h

theorem process_relabel {keep flags : Nat → Bool} {accounts : List Invoked}
    (hc : Command.unpack data = .ok c) (hk : ∀ i ∈ c.signingAccounts, keep i = true) :
    process program (relabel keep flags accounts) data = process program accounts data := by
  cases c <;> simp only [process, hc] <;> simp only [Command.signingAccounts] at hk
  · exact setUp_relabel _ _
  · exact changeKey_relabel _ _ (hk 1 (by simp))
  · exact changeKey_relabel _ _ (hk 1 (by simp))
  · exact changeFee_relabel _ _ (hk 1 (by simp))
  · exact create_relabel _ _ _ _ (hk 5 (by simp))
  · exact changeLimit_relabel _ _ _ (hk 2 (by simp))
  · exact bridgeOut_relabel _ _ _ _ (hk 3 (by simp)) (hk 7 (by simp))
  · exact settle_relabel _ _ (hk 4 (by simp))

theorem process_append {accounts extra : List Invoked} (hc : Command.unpack data = .ok c)
    (h : c.accountsRead ≤ accounts.length) :
    process program (accounts ++ extra) data = process program accounts data := by
  cases c <;> simp only [process, hc] <;> simp only [Command.accountsRead] at h
  · exact setUp_append _ _ h
  · exact changeKey_append _ _ h
  · exact changeKey_append _ _ h
  · exact changeFee_append _ _ h
  · exact create_append _ _ _ _ h
  · exact changeLimit_append _ _ _ h
  · exact bridgeOut_append _ _ _ _ h
  · exact settle_append _ _ h

end Process

/-! ### What the flags of an instruction promise -/

namespace Instruction

/-- Running `ix` on `l` from `s`, with accounts of its keys, changes the state only at keys that
`ix` marks writable. -/
def WritesFlagged (l : Ledger) (s : State) (ix : Instruction) : Prop :=
  ∀ accounts : List Invoked, accounts.map Invoked.key = ix.accounts.map AccountRef.key →
    ∀ lines s', (l.execute ix.program accounts ix.data).run s = .ok (lines, s') →
      ∀ k, ix.writes k = false → s.SameAt s' k

/-- The ledger reads the signer flags of `ix`'s accounts only at positions that `ix` marks
signer: accounts with the same keys and the same flags there run `ix` the same way. -/
def SignsFlagged (l : Ledger) (ix : Instruction) : Prop :=
  ∀ accounts others : List Invoked, accounts.map Invoked.key = ix.accounts.map AccountRef.key →
    others.map Invoked.key = accounts.map Invoked.key →
    (∀ i, ix.signsAt i = true → others[i]? = accounts[i]?) →
    l.execute ix.program others ix.data = l.execute ix.program accounts ix.data

/-- Running `ix` on `l` from `s` reads no account past the ones `ix` names: accounts added at the
end change nothing. -/
def ReadsNamed (l : Ledger) (s : State) (ix : Instruction) : Prop :=
  ∀ accounts extra : List Invoked, accounts.map Invoked.key = ix.accounts.map AccountRef.key →
    (l.execute ix.program (accounts ++ extra) ix.data).run s =
      (l.execute ix.program accounts ix.data).run s

/-- The positions a signer flag may be read at without harm: those `ix` marks signer, and those
past its accounts, which accounts of its keys do not have. -/
def keeps (ix : Instruction) (i : Nat) : Bool := ix.signsAt i || ix.accounts.length ≤ i

theorem map_key_getElem? {ix : Instruction} {accounts : List Invoked}
    (hk : accounts.map Invoked.key = ix.accounts.map AccountRef.key) (i : Nat) :
    (accounts[i]?).map Invoked.key = (ix.accounts[i]?).map AccountRef.key := by
  rw [← List.getElem?_map, hk, List.getElem?_map]

theorem writes_of_keysAt {ix : Instruction} {accounts : List Invoked} {ps : List Nat} {k : Address}
    (hk : accounts.map Invoked.key = ix.accounts.map AccountRef.key)
    (hw : ∀ i ∈ ps, ∀ r, ix.accounts[i]? = some r → r.writable = true)
    (hmem : k ∈ keysAt accounts ps) : ix.writes k = true := by
  obtain ⟨i, hi, hik⟩ := mem_keysAt.1 hmem
  have hkey : (ix.accounts[i]?).map AccountRef.key = some k := by
    rw [← map_key_getElem? hk, hik]
  obtain ⟨r, hr, rfl⟩ := Option.map_eq_some_iff.1 hkey
  exact List.any_eq_true.2 ⟨r, List.mem_of_getElem? hr, by simp [hw i hi r hr]⟩

/-- A frame within the keys at positions `ix` marks writable is a frame within its flags. -/
theorem sameAt_of_changed {ix : Instruction} {accounts : List Invoked} {ps : List Nat}
    {s s' : State} (hk : accounts.map Invoked.key = ix.accounts.map AccountRef.key)
    (hw : ∀ i ∈ ps, ∀ r, ix.accounts[i]? = some r → r.writable = true)
    (h : s.ChangedWithin s' (keysAt accounts ps)) (k : Address) (hwk : ix.writes k = false) :
    s.SameAt s' k :=
  h k fun hmem => by simp [writes_of_keysAt hk hw hmem] at hwk

/-- Accounts of `ix`'s keys that agree with `accounts` at its signers are `accounts` relabelled
outside the positions `ix` keeps. -/
theorem eq_relabel_keeps {ix : Instruction} {accounts others : List Invoked}
    (hk : accounts.map Invoked.key = ix.accounts.map AccountRef.key)
    (ho : others.map Invoked.key = accounts.map Invoked.key)
    (hs : ∀ i, ix.signsAt i = true → others[i]? = accounts[i]?) :
    others = relabel ix.keeps (fun i => ((others[i]?).map Invoked.signer).getD false) accounts := by
  refine eq_relabel ho fun i hi => ?_
  rcases Bool.or_eq_true_iff.1 hi with hsig | hlen
  · exact hs i hsig
  · -- past the instruction's accounts neither list has an account
    have hla : accounts.length = ix.accounts.length := by simpa using congrArg List.length hk
    have hlo : others.length = accounts.length := by simpa using congrArg List.length ho
    have hle : ix.accounts.length ≤ i := by simpa using hlen
    rw [List.getElem?_eq_none (by omega), List.getElem?_eq_none (by omega)]

end Instruction

/-! ### Running an instruction by its program -/

section Dispatch

variable {l : Ledger} {s : State} {accounts accounts' : List Invoked}

/-- Two account lists run a bridge command alike when the bridge program runs it alike on them:
every other program refuses it. -/
theorem execute_pack_run_congr {program : Address} {c : Command}
    (h : program = l.program →
      (process l.program accounts' c.pack).run s = (process l.program accounts c.pack).run s) :
    (l.execute program accounts' c.pack).run s = (l.execute program accounts c.pack).run s := by
  by_cases hp : program = l.program
  · subst hp
    simp only [Ledger.execute, beq_self_eq_true, if_true]
    exact h rfl
  · obtain ⟨e, he⟩ := execute_pack_of_ne l c hp
    rw [he, he]

/-- Under the system program, data that is no bridge command is the system program's to run, or
refused when the ledger's bridge program sits at the system program's address. -/
theorem execute_system {data : Bytes} (hrefuse : ∀ v, Command.unpack data ≠ .ok v)
    (accounts : List Invoked) :
    l.execute Address.systemProgram accounts data =
      if Address.systemProgram = l.program then fail (.runtime .invalidInstructionData)
      else (do
        processSystem accounts data
        pure []) := by
  by_cases hp : Address.systemProgram = l.program
  · simp only [Ledger.execute, hp, beq_self_eq_true, if_true, process_refuses hrefuse]
  · have hne : (Address.systemProgram == l.program) = false := by simpa using hp
    simp only [Ledger.execute, hne, hp, beq_self_eq_true, Bool.false_eq_true, if_true, if_false]

theorem execute_system_run_congr {data : Bytes} (hrefuse : ∀ v, Command.unpack data ≠ .ok v)
    (h : Address.systemProgram ≠ l.program →
      (processSystem accounts' data).run s = (processSystem accounts data).run s) :
    (l.execute Address.systemProgram accounts' data).run s =
      (l.execute Address.systemProgram accounts data).run s := by
  rw [execute_system hrefuse, execute_system hrefuse]
  by_cases hp : Address.systemProgram = l.program
  · simp only [hp, if_true]
  · simp only [hp, if_false, StateT.run_bind, h hp]

theorem execute_system_ok {data : Bytes} {lines : List String} {s' : State}
    (hrefuse : ∀ v, Command.unpack data ≠ .ok v)
    (h : (l.execute Address.systemProgram accounts data).run s = .ok (lines, s')) :
    (processSystem accounts data).run s = .ok ((), s') := by
  rw [execute_system hrefuse] at h
  by_cases hp : Address.systemProgram = l.program
  · simp only [hp, if_true] at h
    exact absurd h fail_run_ne_ok
  · simp only [hp, if_false] at h
    obtain ⟨u, s₁, hs, hpure⟩ := bind_run_eq_ok.1 h
    obtain ⟨-, rfl⟩ := pure_run_eq_ok.1 hpure
    exact hs

/-- Under a token program other than the system program, data that is no bridge command is the
token program's to run when the ledger's token program sits there. -/
theorem execute_token {program : Address} {data : Bytes} (hsys : program ≠ Address.systemProgram)
    (hrefuse : ∀ v, Command.unpack data ≠ .ok v) (accounts : List Invoked) :
    l.execute program accounts data =
      if program = l.program then fail (.runtime .invalidInstructionData)
      else if program = l.tokenProgram then (do
        processToken accounts data
        pure [])
      else fail (.runtime (.unknownProgram program)) := by
  have hs : (program == Address.systemProgram) = false := by simpa using hsys
  by_cases hp : program = l.program
  · simp only [Ledger.execute, hp, beq_self_eq_true, if_true, process_refuses hrefuse]
  · have hne : (program == l.program) = false := by simpa using hp
    simp only [Ledger.execute, hne, hs, hp, Bool.false_eq_true, if_false, beq_iff_eq]

theorem execute_token_run_congr {program : Address} {data : Bytes}
    (hsys : program ≠ Address.systemProgram) (hrefuse : ∀ v, Command.unpack data ≠ .ok v)
    (h : program = l.tokenProgram →
      (processToken accounts' data).run s = (processToken accounts data).run s) :
    (l.execute program accounts' data).run s = (l.execute program accounts data).run s := by
  rw [execute_token hsys hrefuse, execute_token hsys hrefuse]
  by_cases hp : program = l.program
  · simp only [hp, if_true]
  by_cases ht : program = l.tokenProgram
  · rw [if_neg hp, if_pos ht, if_neg hp, if_pos ht, StateT.run_bind, StateT.run_bind, h ht]
  · simp only [hp, ht, if_false]

theorem execute_token_ok {program : Address} {data : Bytes} {lines : List String} {s' : State}
    (hsys : program ≠ Address.systemProgram) (hrefuse : ∀ v, Command.unpack data ≠ .ok v)
    (h : (l.execute program accounts data).run s = .ok (lines, s')) :
    (processToken accounts data).run s = .ok ((), s') := by
  rw [execute_token hsys hrefuse] at h
  by_cases hp : program = l.program
  · simp only [hp, if_true] at h
    exact absurd h fail_run_ne_ok
  by_cases ht : program = l.tokenProgram
  · rw [if_neg hp, if_pos ht] at h
    obtain ⟨u, s₁, hs, hpure⟩ := bind_run_eq_ok.1 h
    obtain ⟨-, rfl⟩ := pure_run_eq_ok.1 hpure
    exact hs
  · simp only [hp, ht, if_false] at h
    exact absurd h fail_run_ne_ok

end Dispatch

/-! ### The bridge program's instructions -/

section BridgeInstructions

open Builder AccountRef

variable (l : Ledger) {program : Address} {refs : List AccountRef} {c : Command}

/-- The bridge program refuses data that does not unpack; only an unpacked command runs. -/
theorem process_pack_refused {e : CodecError} (hu : Command.unpack c.pack = .error e)
    (accounts : List Invoked) :
    process program accounts c.pack = fail (.runtime .invalidInstructionData) :=
  process_refuses (fun v hv => by rw [hu] at hv; cases hv) accounts

theorem bridgeInstruction_writesFlagged (s : State)
    (hw : ∀ i ∈ c.writtenAccounts, ∀ r, refs[i]? = some r → r.writable = true) :
    (bridgeInstruction program refs c).WritesFlagged l s := by
  intro accounts hk lines s' h k hwk
  by_cases hp : program = l.program
  · subst hp
    simp only [bridgeInstruction, Ledger.execute, beq_self_eq_true, if_true] at h
    cases hu : Command.unpack c.pack with
    | error e =>
      rw [process_pack_refused hu] at h
      exact absurd h fail_run_ne_ok
    | ok v =>
      have hch := process_changed hu h
      rw [(Command.unpack_pack_touches hu).1] at hch
      exact Instruction.sameAt_of_changed hk hw hch k hwk
  · obtain ⟨e, he⟩ := execute_pack_of_ne l c hp
    simp only [bridgeInstruction, he] at h
    exact absurd h fail_run_ne_ok

theorem bridgeInstruction_signsFlagged
    (hs : ∀ i ∈ c.signingAccounts, (bridgeInstruction program refs c).keeps i = true) :
    (bridgeInstruction program refs c).SignsFlagged l := by
  intro accounts others hk ho hsig
  rw [Instruction.eq_relabel_keeps hk ho hsig]
  refine StateT.ext fun s => execute_pack_run_congr fun _ => ?_
  cases hu : Command.unpack c.pack with
  | error e => rw [process_pack_refused hu, process_pack_refused hu]
  | ok v => rw [process_relabel hu (by rwa [(Command.unpack_pack_touches hu).2.1])]

theorem bridgeInstruction_readsNamed (s : State) (hr : c.accountsRead ≤ refs.length) :
    (bridgeInstruction program refs c).ReadsNamed l s := by
  intro accounts extra hk
  have hlen : accounts.length = refs.length := by
    simpa [bridgeInstruction] using congrArg List.length hk
  refine execute_pack_run_congr fun _ => ?_
  cases hu : Command.unpack c.pack with
  | error e => rw [process_pack_refused hu, process_pack_refused hu]
  | ok v => rw [process_append hu (by rw [(Command.unpack_pack_touches hu).2.2]; omega)]

/-- A bridge-out names the fee accounts, or its config asks for no fee: then it reads only the
accounts it names. -/
theorem bridge_readsNamed (s : State) {a : BridgeAccounts} {amount : UInt64}
    {recipient : String} {payload : Bytes}
    (hfee : a.fee = none → ∀ config, configAt program s a.config = some config → config.fee = 0) :
    (bridge program a amount recipient payload).ReadsNamed l s := by
  cases ha : a.fee with
  | some f =>
    apply bridgeInstruction_readsNamed
    simp [Command.accountsRead, BridgeAccounts.refs, ha]
  | none =>
    intro accounts extra hk
    have hrefs : (bridge program a amount recipient payload).accounts =
        [mutable a.route false, mutable a.escrow false, mutable a.user false,
          readonly a.transferAuthority true, mutable a.mint false, readonly a.tokenProgram false,
          readonly a.config false] := by
      simp [bridge, bridgeInstruction, BridgeAccounts.refs, ha]
    rw [hrefs] at hk
    have hlen : accounts.length = 7 := by simpa using congrArg List.length hk
    have h6 : (accounts[6]?).map Invoked.key = some a.config := by
      rw [← List.getElem?_map, hk]
      rfl
    refine execute_pack_run_congr fun hp => ?_
    cases hu : Command.unpack (Command.bridge amount recipient payload).pack with
    | error e => rw [process_pack_refused hu, process_pack_refused hu]
    | ok v =>
      obtain ⟨amount', recipient', payload', rfl⟩ := Command.unpack_pack_bridge hu
      simp only [process, hu]
      -- the config at position 6 is the one the request names, and it asks for no fee
      refine bridgeOut_append_run _ _ _ _ s (by omega) fun acc hacc config hconfig => ?_
      have hkey : acc.key = a.config := by
        rw [Option.mem_def] at hacc
        simpa [hacc] using h6
      have hp' : program = l.program := hp
      exact hfee ha config (by rw [hp', ← hkey]; exact hconfig)

end BridgeInstructions

/-! ### The system program's and the token program's instructions -/

section OtherInstructions

open Builder AccountRef

variable (l : Ledger) (s : State)

theorem systemInstruction_writesFlagged {ix : Instruction}
    (hprog : ix.program = Address.systemProgram) (hrefuse : ∀ v, Command.unpack ix.data ≠ .ok v)
    (hw : ∀ i ∈ [0, 1], ∀ r, ix.accounts[i]? = some r → r.writable = true) :
    ix.WritesFlagged l s := by
  intro accounts hk lines s' h k hwk
  rw [hprog] at h
  exact Instruction.sameAt_of_changed hk hw
    (processSystem_changed (execute_system_ok hrefuse h)) k hwk

theorem tokenInstruction_writesFlagged {ix : Instruction}
    (hsys : ix.program ≠ Address.systemProgram) (hrefuse : ∀ v, Command.unpack ix.data ≠ .ok v)
    (hw : ∀ i ∈ [0], ∀ r, ix.accounts[i]? = some r → r.writable = true) :
    ix.WritesFlagged l s := by
  intro accounts hk lines s' h k hwk
  exact Instruction.sameAt_of_changed hk hw
    (processToken_changed (execute_token_ok hsys hrefuse h)) k hwk

/-- Creating an account names only signers, both written. -/
theorem createAccount_flags (funder created : Address) (lamports space : UInt64) (owner : Address) :
    let ix := createAccount funder created lamports space owner
    ix.WritesFlagged l s ∧ ix.SignsFlagged l ∧ ix.ReadsNamed l s := by
  have hrefuse := unpack_createAccount lamports space owner
  refine ⟨systemInstruction_writesFlagged l s rfl hrefuse (by simp [createAccount, mutable]), ?_, ?_⟩
  · intro accounts others hk ho hsig
    -- every position is kept, so the others are the accounts themselves
    have hkeep : ∀ i, (createAccount funder created lamports space owner).keeps i = true := by
      rintro (_ | _ | i) <;> simp [Instruction.keeps, Instruction.signsAt, createAccount, mutable]
    rw [Instruction.eq_relabel_keeps hk ho hsig, relabel_of_keep fun i _ => hkeep i]
  · intro accounts extra hk
    have hlen : accounts.length = 2 := by simpa [createAccount] using congrArg List.length hk
    refine execute_system_run_congr hrefuse fun _ => ?_
    dsimp only [createAccount]
    rw [processSystem_created_append (SystemCommand.decode?_createAccount lamports space owner)
      (by omega)]

/-- Two account lists run the data of a creation at a derived address alike when they run alike
every creation with its base that the data may read as: other data is refused. -/
theorem processSystem_seeded_congr {base : Address} {seed : String} {lamports space : UInt64}
    {owner : Address} {accounts accounts' : List Invoked}
    (h : ∀ {seed' lamports' space' owner'}, SystemCommand.decode?
        (SystemCommand.createAccountWithSeed base seed lamports space owner).encode =
          some (.createAccountWithSeed base seed' lamports' space' owner') →
      processSystem accounts' (SystemCommand.createAccountWithSeed base seed lamports space
        owner).encode = processSystem accounts (SystemCommand.createAccountWithSeed base seed
          lamports space owner).encode) :
    processSystem accounts' (SystemCommand.createAccountWithSeed base seed lamports space
      owner).encode = processSystem accounts (SystemCommand.createAccountWithSeed base seed
        lamports space owner).encode := by
  cases hd : SystemCommand.decode? (SystemCommand.createAccountWithSeed base seed lamports space
      owner).encode with
  | none =>
    obtain ⟨e, he⟩ := SystemCommand.processSystem_refuses fun cmd hc => by rw [hd] at hc; cases hc
    rw [he, he]
  | some cmd =>
    obtain ⟨seed', lamports', space', owner', rfl⟩ := SystemCommand.decode?_createAccountWithSeed hd
    exact h hd

/-- A config account is created at an address derived from the payer, who funds it and signs as
the base. -/
theorem createAccountWithSeed_flags (payer created : Address) (seed : String)
    (lamports space : UInt64) (owner : Address) :
    let ix := createAccountWithSeed payer created payer seed lamports space owner
    ix.WritesFlagged l s ∧ ix.SignsFlagged l ∧ ix.ReadsNamed l s := by
  have hrefuse := unpack_createAccountWithSeed payer seed lamports space owner
  have hbase : ∀ {accounts : List Invoked}, accounts.map Invoked.key =
      (createAccountWithSeed payer created payer seed lamports space owner).accounts.map
        AccountRef.key → (accounts[0]?).map Invoked.key = some payer := fun hk => by
    rw [Instruction.map_key_getElem? hk]
    rfl
  refine ⟨systemInstruction_writesFlagged l s rfl hrefuse
    (by simp [createAccountWithSeed, mutable]), ?_, ?_⟩
  · intro accounts others hk ho hsig
    rw [Instruction.eq_relabel_keeps hk ho hsig]
    refine StateT.ext fun s => execute_system_run_congr hrefuse fun _ => ?_
    dsimp only [createAccountWithSeed]
    rw [processSystem_seeded_congr fun hd => processSystem_seeded_relabel hd (hbase hk) (by
      simp [Instruction.keeps, Instruction.signsAt, mutable])]
  · intro accounts extra hk
    have hlen : accounts.length = 3 := by
      simpa [createAccountWithSeed] using congrArg List.length hk
    refine execute_system_run_congr hrefuse fun _ => ?_
    dsimp only [createAccountWithSeed]
    rw [processSystem_seeded_congr fun hd => processSystem_seeded_append hd (hbase hk) (by omega)]

/-- A built approval goes to one of the two token programs, with the source written and the
owner signing. -/
theorem approve_eq_ok {tokenProgram source delegate owner : Address} {amount : UInt64}
    {ix : Instruction} (h : approve tokenProgram source delegate owner amount = .ok ix) :
    (tokenProgram = Address.tokenProgram2022 ∨ tokenProgram = Address.tokenProgram) ∧
      ix = ⟨tokenProgram, [mutable source false, readonly delegate false, readonly owner true],
        approveData amount⟩ := by
  unfold approve at h
  split at h
  · rename_i htp
    cases h
    exact ⟨by simpa using htp, rfl⟩
  · cases h

theorem approve_flags {tokenProgram source delegate owner : Address} {amount : UInt64}
    {ix : Instruction} (h : approve tokenProgram source delegate owner amount = .ok ix) :
    ix.WritesFlagged l s ∧ ix.SignsFlagged l ∧ ix.ReadsNamed l s := by
  obtain ⟨htp, rfl⟩ := approve_eq_ok h
  have hsys : tokenProgram ≠ Address.systemProgram := by rcases htp with rfl | rfl <;> decide
  have hrefuse := unpack_approveData amount
  refine ⟨tokenInstruction_writesFlagged l s hsys hrefuse (by simp [mutable]), ?_, ?_⟩
  · intro accounts others hk ho hsig
    rw [Instruction.eq_relabel_keeps hk ho hsig]
    refine StateT.ext fun s => execute_token_run_congr hsys hrefuse fun _ => ?_
    rw [processToken_relabel _ (by simp [Instruction.keeps, Instruction.signsAt, readonly])]
  · intro accounts extra hk
    have hlen : accounts.length = 3 := by simpa using congrArg List.length hk
    refine execute_token_run_congr hsys hrefuse fun _ => ?_
    rw [processToken_append _ (by omega)]

end OtherInstructions

/-! ### Every built instruction -/

open Builder AccountRef in
/-- A bridge-out request that leaves out the fee accounts although the config it names asks, in
`s`, for a fee. -/
def BuildRequest.OmitsDueFee (s : State) : BuildRequest Address → Prop
  | .bridge p _ _ _ _ _ _ c _ _ _ none => ∃ config, configAt p s c = some config ∧ config.fee ≠ 0
  | _ => False

open Builder AccountRef in
/-- Whatever the ledger and the state, a built instruction changes the state only at keys it
marks writable, is run alike by accounts that agree at the positions it marks signer, and reads
no account past its own, unless it is a bridge-out that omits a fee its config asks for. -/
theorem builtInstruction_flags (r : BuildRequest Address) {ix : Instruction}
    (hb : r.build = .ok ix) (l : Ledger) (s : State) :
    ix.WritesFlagged l s ∧ ix.SignsFlagged l ∧ (¬ r.OmitsDueFee s → ix.ReadsNamed l s) := by
  cases r
  case bridge p r e u ta m tp c amount recipient payload fee =>
    simp only [BuildRequest.build, Except.ok.injEq] at hb
    subst hb
    refine ⟨bridgeInstruction_writesFlagged l s ?_, bridgeInstruction_signsFlagged l ?_,
      fun hdue => bridge_readsNamed l s fun hnone config hconfig => ?_⟩
    · cases fee <;> simp [Command.writtenAccounts, BridgeAccounts.refs, mutable, readonly]
    · cases fee <;> simp [Command.signingAccounts, Instruction.keeps, Instruction.signsAt,
        bridgeInstruction, BridgeAccounts.refs, mutable, readonly]
    · -- without fee accounts, the config the request names asks for no fee
      cases fee with
      | some f => simp at hnone
      | none =>
        by_contra hne
        exact hdue ⟨config, hconfig, hne⟩
  case createConfigAccount payer c seed lamports p =>
    simp only [BuildRequest.build, Except.ok.injEq] at hb
    subst hb
    obtain ⟨hw, hs, hr⟩ := createAccountWithSeed_flags l s payer c seed lamports _ p
    exact ⟨hw, hs, fun _ => hr⟩
  case createBridgeAccount payer r lamports p =>
    simp only [BuildRequest.build, Except.ok.injEq] at hb
    subst hb
    obtain ⟨hw, hs, hr⟩ := createAccount_flags l s payer r lamports _ p
    exact ⟨hw, hs, fun _ => hr⟩
  case approveTransfer op tp source ta o amount =>
    simp only [BuildRequest.build] at hb
    split at hb
    · rename_i ix' hix
      cases hb
      obtain ⟨hw, hs, hr⟩ := approve_flags l s hix
      exact ⟨hw, hs, fun _ => hr⟩
    · cases hb
  -- the other builders name a fixed list of accounts for the bridge program
  all_goals
    simp only [BuildRequest.build, Except.ok.injEq] at hb
    subst hb
    refine ⟨bridgeInstruction_writesFlagged l s ?_, bridgeInstruction_signsFlagged l ?_,
      fun _ => bridgeInstruction_readsNamed l s ?_⟩
  all_goals
    simp [Command.writtenAccounts, Command.signingAccounts, Command.accountsRead,
      Instruction.keeps, Instruction.signsAt, bridgeInstruction, mutable, readonly]
  -- the fee collector is named, and read, only for a fee above zero
  split <;> simp

/-- A bridge-out built without fee accounts, on the empty ledger of its program. -/
theorem feeless_bridge_flags :
    let program := Address.ofBytes [1]
    let r : BuildRequest Address := .bridge program (.ofBytes [2]) (.ofBytes [3]) (.ofBytes [4])
      (.ofBytes [5]) (.ofBytes [6]) Address.tokenProgram2022 (.ofBytes [7]) 5 "" [] none
    let ix := Builder.bridge program ⟨.ofBytes [2], .ofBytes [3], .ofBytes [4], .ofBytes [5],
      .ofBytes [6], Address.tokenProgram2022, .ofBytes [7], none⟩ 5 "" []
    let l := Ledger.empty program
    r.build = .ok ix ∧ ix.WritesFlagged l l.state ∧ ix.SignsFlagged l ∧
      (¬ r.OmitsDueFee l.state → ix.ReadsNamed l l.state) :=
  ⟨rfl, builtInstruction_flags _ rfl _ _⟩

end TokenBridge
