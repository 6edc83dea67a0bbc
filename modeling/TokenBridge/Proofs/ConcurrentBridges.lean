import TokenBridge.Proofs.Interleaving
import TokenBridge.Proofs.Sequencing
/-!
Bridge-outs and the owner's changes, interleaved step by step against one ledger.

What a flow's phase holds: once assembled, its message compiles the instructions the flow sends
under the config it fetched (`Order.Sends`); once signed, the transaction carries that message
(`Order.Holds`, kept by every step of every flow: `World.Sound`). None of these instructions
creates a route or makes an account anew, so no step moves a route's index back.

A bridge-out's commit logs one transfer under its fresh signature: its index is one past the
route's, its fee is the fee of the config as the ledger has it then, and the lamports moved are
that fee, from the payer to that config's collector. A flow that fetched a config with no fee
sends no fee accounts, so it cannot commit while the config asks for one.

Taken over the worlds a schedule passes through (`World.after`), each receipt's log is the one
its own commit wrote, receipts on one route carry distinct indexes, and the two facts above hold
at every step (`concurrent_bridges_sound`, which also ties each flow's steps to the flow itself).
-/

namespace TokenBridge

/-- A flow that stops with nothing runs no further: what a bind gives is what its first part gave,
passed on. -/
theorem Flow.run_bind_fst_eq_ok {α β : Type} {x : Flow α} {f : α → Flow β} {l : Ledger} {b : β}
    (h : ((x >>= f).run.run l).1 = .ok b) :
    ∃ a l', x.run.run l = (.ok a, l') ∧ ((f a).run.run l').1 = .ok b := by
  rw [Flow.run_bind] at h
  rcases hx : x.run.run l with ⟨_ | a, l'⟩
  · rw [hx] at h
    cases h
  · rw [hx] at h
    exact ⟨a, l', rfl, h⟩

/-! ### Calls that move no route's index back -/

namespace Ledger

variable {l : Ledger} {c : Call} {s s' : State} {key : Address}

/-- A call that neither creates a route at `key` nor makes its account anew moves the route's
index on, or leaves it. -/
theorem Ran.indexAt_grows (h : l.Ran c s s') (hc : l.commandOn .create key c = false)
    (ha : l.allocates key c = false) {i : Nat} (hi : l.indexAt s key = some i) :
    ∃ j, l.indexAt s' key = some j ∧ i ≤ j := by
  cases hb : l.commandOn .bridge key c
  · exact ⟨i, by rw [h.indexAt_eq hb hc ha, hi], le_rfl⟩
  · obtain ⟨-, -, -, log, -, -, -, -, -, -, hout⟩ := h.bridge hb
    obtain ⟨j, hj, -, hj'⟩ := indexAt_of_bridgedOut hout
    rw [hi, Option.some.injEq] at hj
    subst hj
    exact ⟨i + 1, hj', Nat.le_succ i⟩

/-- An instruction that creates no route and makes no account anew, whatever state it runs on:
the bridge program's other than a create, or another program's than the system program's. -/
def Steady (l : Ledger) (ix : Instruction) : Prop :=
  (ix.program = l.program → ∀ v, Command.unpack ix.data = .ok v → v.tag ≠ .create) ∧
    (ix.program ≠ l.program → ix.program ≠ Address.systemProgram)

variable {ix : Instruction}

theorem Steady.commandOn_create (h : l.Steady ix) (hp : c.program = ix.program)
    (hd : c.data = ix.data) (key : Address) : l.commandOn .create key c = false := by
  by_cases hl : c.program = l.program
  · cases hu : Command.unpack c.data with
    | error e => simp [commandOn, commandTag?, hl, hu, Except.toOption]
    | ok v =>
      have hv := h.1 (hp ▸ hl) v (hd ▸ hu)
      simp [commandOn, commandTag?_eq hl hu, hv]
  · simp [commandOn, commandTag?_of_ne hl]

theorem Steady.allocates (h : l.Steady ix) (hp : c.program = ix.program) (key : Address) :
    l.allocates key c = false := by
  by_cases hl : c.program = l.program
  · simp [Ledger.allocates, hl]
  · have hs := h.2 (hp ▸ hl)
    simp [Ledger.allocates, hp, hs]

/-- Steady instructions run one after another move no route's index back. -/
theorem RunsAs.indexAt_grows {signs : Address → Bool} {ixs : List Instruction}
    {lines : List String} (h : RunsAs l signs ixs s s' lines) (hq : ∀ ix ∈ ixs, l.Steady ix)
    {i : Nat} (hi : l.indexAt s key = some i) : ∃ j, l.indexAt s' key = some j ∧ i ≤ j := by
  induction h generalizing i with
  | nil s => exact ⟨i, hi, le_rfl⟩
  | @cons ix rest s s₁ s' written lines hx _ ih =>
    -- the first instruction ran as one call, which made no route and no account
    have hran : l.Ran ⟨ix.program, ix.accounts.map fun r => ⟨r.key, signs r.key⟩, ix.data,
        written⟩ s s₁ := hx
    have hix := hq ix List.mem_cons_self
    obtain ⟨j, hj, hij⟩ :=
      hran.indexAt_grows (hix.commandOn_create rfl rfl key) (hix.allocates rfl key) hi
    obtain ⟨k, hk, hjk⟩ := ih (fun ix' h' => hq ix' (List.mem_cons_of_mem _ h')) hj
    exact ⟨k, hk, hij.trans hjk⟩

/-- The bridge program's instruction for any command but a create is steady. -/
theorem steady_of_pack {cmd : Command} (hcmd : cmd.tag ≠ .create) (accounts : List AccountRef) :
    l.Steady ⟨l.program, accounts, cmd.pack⟩ := by
  refine ⟨fun _ v hv => ?_, fun hne => absurd rfl hne⟩
  -- what the packing unpacks to has the command's tag
  have htag : Tag.ofU8? cmd.tag.toU8 = some v.tag :=
    Tag.ofU8?_eq_some_iff.2 (Command.unpack_pack_tag hv)
  rw [Tag.ofU8?_eq_some_iff.2 rfl, Option.some.injEq] at htag
  exact htag ▸ hcmd

/-- An approval is a token program's instruction, and steady. -/
theorem steady_of_approve {tp source delegate owner : Address} {amount : UInt64}
    (h : Builder.approve tp source delegate owner amount = .ok ix) : l.Steady ix := by
  obtain ⟨htp, rfl⟩ := approve_eq_ok h
  refine ⟨fun _ v hv => absurd hv (unpack_approveData amount v), fun _ => ?_⟩
  show tp ≠ Address.systemProgram
  rcases htp with rfl | rfl <;> decide

/-- A call of the bridge program with a bridge-out's data that ran is a bridge-out on the route its
first account names. -/
theorem Ran.commandOn_of_bridge {amount : UInt64} {recipient : String} {payload : Bytes}
    {R : Address} (h : l.Ran c s s') (hp : c.program = l.program)
    (hd : c.data = (Command.bridge amount recipient payload).pack)
    (h0 : (c.accounts[0]?).map Invoked.key = some R) : l.commandOn .bridge R c = true := by
  rcases h.cases with ⟨-, hrun⟩ | ⟨hne, -⟩ | ⟨hne, -⟩
  · obtain ⟨cmd, hcmd, -⟩ := process_cases hrun
    obtain ⟨_, _, _, rfl⟩ := Command.unpack_pack_bridge (hd ▸ hcmd)
    simp [commandOn, commandTag?_eq hp hcmd, h0, Command.tag]
  all_goals exact absurd hp hne

end Ledger

namespace Client

/-! ### What a flow sends -/

namespace Order

/-- Who pays for a flow's transaction and signs it first. -/
def payer : Order → Address
  | .bridge _ payer _ _ => payer.key
  | .changeFee _ owner _ _ => owner.key
  | .changeLimit _ _ owner _ _ => owner.key

/-- The instructions a flow sends on a ledger whose bridge program is `program`, under the config
it fetched: a bridge-out, after the approval when it asks for one; the owner's change. -/
def Sends (program : Address) : Order → Option Config → List Instruction → Prop
  | .bridge false payer authority r, some C, ixs =>
    ixs = [r.instruction program payer.key authority.key C]
  | .bridge true payer authority r, some C, ixs =>
    ∃ ix, Builder.approve r.tokenProgram r.user authority.key payer.key r.amount = .ok ix ∧
      ixs = [ix, r.instruction program payer.key authority.key C]
  | .changeFee config owner fee collector, none, ixs =>
    ixs = [Builder.changeFee program config owner.key collector fee]
  | .changeLimit config route owner max min, none, ixs =>
    ixs = [Builder.changeLimit program config route owner.key max min]
  | _, _, _ => False

end Order

theorem assemble_message {op : String} {payer : Address} {ixs : List Instruction}
    {signers : List Signer} {a : Assembled} (h : assemble op payer ixs signers = .ok a) :
    a.message = Message.compile payer ixs := by
  unfold assemble at h
  split at h
  · cases h
  · dsimp only at h
    split at h
    · cases h
    · cases h
      rfl

theorem Assembled.sign_message {a : Assembled} {bh : Bytes} {t : Transaction}
    (h : a.sign bh = .ok t) : t.message = { a.message with recentBlockhash := bh } := by
  unfold Assembled.sign at h
  dsimp only at h
  split at h
  · cases h
  · cases h
    rfl

theorem assembleOrStop_message {op : String} {payer : Address} {ixs : List Instruction}
    {signers : List Signer} {l l' : Ledger} {a : Assembled}
    (h : (assembleOrStop op payer ixs signers).run.run l = (.ok a, l')) :
    a.message = Message.compile payer ixs := by
  unfold assembleOrStop at h
  split at h
  · rename_i a' ha
    cases h
    exact assemble_message ha
  · cases h

/-- Assembling, then handing on what was assembled beside a config: what comes out is that config
and the message of the instructions assembled. -/
theorem assembleOrStop_pair_message {op : String} {payer : Address} {ixs : List Instruction}
    {signers : List Signer} {l : Ledger} {c c' : Option Config} {a : Assembled}
    (h : ((assembleOrStop op payer ixs signers >>= fun a => pure (c, a)).run.run l).1 =
      .ok (c', a)) :
    c' = c ∧ a.message = Message.compile payer ixs := by
  obtain ⟨a', _, hasm, h⟩ := Flow.run_bind_fst_eq_ok h
  cases h
  exact ⟨rfl, assembleOrStop_message hasm⟩

namespace Order

/-- What a flow prepares is the message of the instructions it sends, under the config it
fetched. -/
theorem prepare_sends {o : Order} {l : Ledger} {c : Option Config} {a : Assembled}
    (h : (o.prepare.run.run l).1 = .ok (c, a)) :
    ∃ ixs, o.Sends l.program c ixs ∧ a.message = Message.compile o.payer ixs := by
  cases o with
  | bridge approve payer authority r =>
    obtain ⟨_, _, hget, h⟩ := Flow.run_bind_fst_eq_ok h
    cases hget
    obtain ⟨C, _, hfetch, h⟩ := Flow.run_bind_fst_eq_ok h
    obtain rfl := fetch_readsOnly _ _ _ l ▸ congrArg Prod.snd hfetch.symm
    cases approve with
    | false =>
      simp only [Bool.false_eq_true, if_false, pure_bind] at h
      obtain ⟨rfl, hm⟩ := assembleOrStop_pair_message h
      exact ⟨_, rfl, hm⟩
    | true =>
      cases hA : Builder.approve r.tokenProgram r.user authority.key payer.key r.amount with
      | error reason =>
        simp only [if_true, hA] at h
        obtain ⟨_, _, hfail, -⟩ := Flow.run_bind_fst_eq_ok h
        cases hfail
      | ok ix =>
        simp only [if_true, hA, pure_bind] at h
        obtain ⟨rfl, hm⟩ := assembleOrStop_pair_message h
        exact ⟨_, ⟨ix, hA, rfl⟩, hm⟩
  | changeFee config owner fee collector =>
    obtain ⟨_, _, hget, h⟩ := Flow.run_bind_fst_eq_ok h
    cases hget
    obtain ⟨rfl, hm⟩ := assembleOrStop_pair_message h
    exact ⟨_, rfl, hm⟩
  | changeLimit config route owner max min =>
    obtain ⟨_, _, hget, h⟩ := Flow.run_bind_fst_eq_ok h
    cases hget
    obtain ⟨rfl, hm⟩ := assembleOrStop_pair_message h
    exact ⟨_, rfl, hm⟩

end Order


/-! ### What every phase holds -/

namespace Order

/-- What a flow's phase holds of the transaction it puts together, on a ledger whose bridge
program is `program`: once assembled, its message compiles the instructions the flow sends under
the config it fetched; once signed, the transaction carries that message under a blockhash. -/
def Holds (program : Address) (o : Order) : Phase → Prop
  | .assembled c a => ∃ ixs, o.Sends program c ixs ∧ a.message = Message.compile o.payer ixs
  | .signed c _ t => ∃ ixs bh, o.Sends program c ixs ∧
      t.message = { Message.compile o.payer ixs with recentBlockhash := bh }
  | _ => True

/-- Every step of a flow keeps what its phase holds. -/
theorem stepAt_holds {o : Order} {p : Phase} {l : Ledger} (h : o.Holds l.program p) :
    o.Holds l.program (o.stepAt p l).1 := by
  cases p with
  | start =>
    rcases hp : (o.prepare.run.run l).1 with e | ⟨c, a⟩
    · simp only [stepAt, hp, Holds]
    · simp only [stepAt, hp, Holds]
      exact prepare_sends hp
  | assembled c a =>
    obtain ⟨ixs, hs, ha⟩ := h
    rcases ht : a.sign l.latestBlockhash.1 with e | t
    · simp only [stepAt, ht, Holds]
    · simp only [stepAt, ht, Holds]
      exact ⟨ixs, _, hs, by rw [Assembled.sign_message ht, ha]⟩
  | signed c a t =>
    rcases stepAt_signed o c a t l with ⟨sig, -, he⟩ | ⟨e, he⟩
    · rw [he]
      cases o <;> simp only [afterCommit, Holds]
    · rw [he]
      simp only [Holds]
  | committed sig => simp only [stepAt_receipt, Holds]
  | finished answer => simp only [stepAt, Holds]

end Order

namespace World

variable {w : World} {i : Nat}

/-- Every step keeps the bridge program. -/
theorem advance_program (w : World) (i : Nat) :
    (w.advance i).ledger.program = w.ledger.program := by
  rcases h : w.sessions[i]? with _ | ⟨o, p⟩
  · rw [advance_of_none h]
  · rw [advance_eq h]
    rcases Order.stepAt_ledger o p w.ledger with ⟨hp, -, -⟩ | ⟨c, a, t, -, he⟩
    · exact hp
    · obtain ⟨-, hprog, -⟩ := Ledger.sendAndConfirm_trace w.ledger t
      rw [he]
      exact hprog

/-- Every flow's phase holds of its transaction, on the world's ledger. -/
def Sound (w : World) : Prop :=
  ∀ (i : Nat) (o : Order) (p : Phase), w.sessions[i]? = some (o, p) → o.Holds w.ledger.program p

theorem start_sound (l : Ledger) (orders : List Order) : (start l orders).Sound := by
  intro i o p h
  simp only [start, List.getElem?_map, Option.map_eq_some_iff, Prod.mk.injEq] at h
  obtain ⟨_, -, -, rfl⟩ := h
  trivial

/-- Every step keeps every phase's transaction sound. -/
theorem Sound.advance (hw : w.Sound) (i : Nat) : (w.advance i).Sound := by
  intro j o' p' hj
  rw [advance_program]
  rcases h : w.sessions[i]? with _ | ⟨o, p⟩
  · rw [advance_of_none h] at hj
    exact hw j o' p' hj
  · by_cases hij : i = j
    · subst hij
      rw [advance_sessions_self h, Option.some.injEq, Prod.mk.injEq] at hj
      obtain ⟨rfl, rfl⟩ := hj
      exact Order.stepAt_holds (hw i o p h)
    · rw [advance_sessions_ne hij] at hj
      exact hw j o' p' hj

theorem Sound.run (hw : w.Sound) (is : List Nat) : (w.run is).Sound := by
  induction is generalizing w with
  | nil => exact hw
  | cons i is ih => exact ih (hw.advance i)

end World


/-! ### What a commit of a flow's transaction does -/

namespace Order

open Ledger

variable {l : Ledger} {o : Order} {c : Option Config} {ixs : List Instruction}

/-- A bridge-out sends its instructions only under a config it fetched. -/
theorem Sends.config_some {approve : Bool} {payer authority : Keypair} {r : BridgeRequest}
    {program : Address} (h : (Order.bridge approve payer authority r).Sends program c ixs) :
    ∃ C, c = some C := by
  cases c with
  | none => cases approve <;> simp [Sends] at h
  | some C => exact ⟨C, rfl⟩

/-- No flow's instruction creates a route or makes an account anew. -/
theorem Sends.steady (hs : o.Sends l.program c ixs) : ∀ ix ∈ ixs, l.Steady ix := by
  -- the bridge-out's and the owner's instructions carry their own commands
  have hbridge : ∀ (r : BridgeRequest) (payer authority : Address) (C : Config),
      l.Steady (r.instruction l.program payer authority C) := fun _ _ _ _ =>
    steady_of_pack (by simp [Command.tag]) _
  cases o with
  | bridge approve payer authority r =>
    obtain ⟨C, rfl⟩ := hs.config_some
    cases approve with
    | false =>
      rw [show ixs = _ from hs, List.forall_mem_singleton]
      exact hbridge _ _ _ _
    | true =>
      obtain ⟨ix, hA, rfl⟩ := hs
      rw [List.forall_mem_cons, List.forall_mem_singleton]
      exact ⟨steady_of_approve hA, hbridge _ _ _ _⟩
  | changeFee | changeLimit =>
    cases c with
    | none =>
      rw [show ixs = _ from hs, List.forall_mem_singleton]
      exact steady_of_pack (by simp [Command.tag]) _
    | some C => simp [Sends] at hs

end Order

/-- A client's bridge-out names the config seventh, and the payer eighth exactly when the config it
was built from asks a fee. -/
theorem BridgeRequest.instruction_invoked (r : BridgeRequest) (program payer authority : Address)
    (C : Config) (signs : Address → Bool) :
    ((((r.instruction program payer authority C).accounts.map
        fun ref => (⟨ref.key, signs ref.key⟩ : Invoked))[0]?).map Invoked.key = some r.route) ∧
    ((((r.instruction program payer authority C).accounts.map
        fun ref => (⟨ref.key, signs ref.key⟩ : Invoked))[6]?).map Invoked.key = some r.config) ∧
    ((((r.instruction program payer authority C).accounts.map
        fun ref => (⟨ref.key, signs ref.key⟩ : Invoked))[7]?).map Invoked.key =
      if 0 < C.fee then some payer else none) := by
  unfold BridgeRequest.instruction
  by_cases hf : 0 < C.fee <;>
    simp [Builder.bridge, Builder.bridgeInstruction, Builder.BridgeAccounts.refs,
      AccountRef.mutable, AccountRef.readonly, hf]

section BridgeCommit

open Ledger

variable {l : Ledger} {approve : Bool} {payer authority : Keypair} {r : BridgeRequest}
  {C : Config} {ixs : List Instruction} {signs : Address → Bool} {s s' : State}
  {lines : List String}

/-- The call of a client's bridge-out that ran is a bridge-out on the request's route, and its
lines read as the one transfer it made. -/
theorem bridge_call_ran {written : List String}
    (h : l.Ran ⟨l.program, (r.instruction l.program payer.key authority.key C).accounts.map
      fun ref => ⟨ref.key, signs ref.key⟩, (r.instruction l.program payer.key authority.key C).data,
      written⟩ s s') :
    ∃ g, LogLine.extract (framed l.program written) = .ok [g] ∧
      BridgedOut l.program r.route ((r.instruction l.program payer.key authority.key C).accounts.map
        fun ref => ⟨ref.key, signs ref.key⟩) s s' g := by
  have hb := h.commandOn_of_bridge rfl rfl
    (BridgeRequest.instruction_invoked r l.program payer.key authority.key C signs).1
  obtain ⟨g, htr, -, hout⟩ := h.transfers_of_bridge hb
  refine ⟨g, ?_, hout⟩
  rw [← htr]
  exact h.extract_framed

/-- A bridge-out's instructions that ran end in the bridge-out call on the request's route, from a
state with the accounts they started from: an approval before it keeps every account. Their lines
read as the one transfer it made. -/
theorem Order.Sends.bridge_runs
    (hs : (Order.bridge approve payer authority r).Sends l.program (some C) ixs)
    (h : l.RunsAs signs ixs s s' lines) :
    ∃ s₀ g accounts, s₀.accounts = s.accounts ∧ LogLine.extract lines = .ok [g] ∧
      BridgedOut l.program r.route accounts s₀ s' g ∧
      (accounts[6]?).map Invoked.key = some r.config ∧
      (accounts[7]?).map Invoked.key = if 0 < C.fee then some payer.key else none := by
  have hinv := BridgeRequest.instruction_invoked r l.program payer.key authority.key C signs
  cases approve with
  | false =>
    obtain rfl := hs
    obtain ⟨written, s₁, hx, more, hrest, rfl⟩ := runsAs_cons_iff.1 h
    obtain ⟨rfl, rfl⟩ := runsAs_nil_iff.1 hrest
    obtain ⟨g, hext, hout⟩ := bridge_call_ran hx
    exact ⟨s, g, _, rfl, by rw [List.append_nil]; exact hext, hout, hinv.2⟩
  | true =>
    obtain ⟨ix, hA, rfl⟩ := hs
    obtain ⟨wA, s₀, hxA, more, hrest, rfl⟩ := runsAs_cons_iff.1 h
    obtain ⟨wB, s₁, hxB, more', hrest', rfl⟩ := runsAs_cons_iff.1 hrest
    obtain ⟨rfl, rfl⟩ := runsAs_nil_iff.1 hrest'
    have hranA : l.Ran ⟨ix.program, ix.accounts.map fun ref => ⟨ref.key, signs ref.key⟩, ix.data,
        wA⟩ s s₀ := hxA
    obtain ⟨htp, hix⟩ := approve_eq_ok hA
    obtain ⟨g, hext, hout⟩ := bridge_call_ran hxB
    -- the approval is no call of the bridge program nor of the system program: it keeps every
    -- account and logs no transfer
    rcases hranA.cases with ⟨hp, hrun⟩ | ⟨hne, hsys, -⟩ | ⟨hne, -, -, hkeep⟩
    · obtain ⟨cmd, hcmd, -⟩ := process_cases hrun
      rw [hix] at hcmd
      exact absurd hcmd (unpack_approveData _ cmd)
    · exact absurd hsys ((steady_of_approve (l := l) hA).2 hne)
    · have hA0 : LogLine.extract (framed ix.program wA) = .ok [] := by
        have := hranA.extract_framed
        rwa [hranA.transfers_of_no_bridge fun R => by simp [commandOn, commandTag?_of_ne hne]]
          at this
      refine ⟨s₀, g, _, hkeep, ?_, hout, hinv.2⟩
      rw [List.append_nil]
      exact LogLine.extract_append hA0 hext

/-- What a bridge-out's commit does. Its lines carry one transfer, which moved the route's index on
by one. Its fee is the fee of the config as the state had it, and the lamports that moved are that
fee, from the payer to that config's collector. A flow that fetched a config asking no fee names
no fee accounts, so it commits only while the config asks none. -/
theorem Order.Sends.bridge_commit
    (hs : (Order.bridge approve payer authority r).Sends l.program (some C) ixs)
    (h : l.RunsAs signs ixs s s' lines) :
    ∃ g C', LogLine.extract lines = .ok [g] ∧ configAt l.program s r.config = some C' ∧
      g.fee = C'.fee ∧ (0 < C'.fee → 0 < C.fee) ∧
      (∀ k, balance s' k + (if k = payer.key then g.fee.toNat else 0) =
        balance s k + (if k = C'.feeCollector then g.fee.toNat else 0)) ∧
      ∃ i, l.indexAt s r.route = some i ∧ g.index.toNat = i + 1 ∧
        l.indexAt s' r.route = some (i + 1) := by
  obtain ⟨s₀, g, accounts, hacc, hext, hout, h6, h7⟩ := hs.bridge_runs h
  obtain ⟨i, hi, hgi, hi'⟩ := indexAt_of_bridgedOut hout
  obtain ⟨route, config, -, hroute6, ⟨a, ha, hown, hdec⟩, -, -, -, -, -, -, -, hfee, -,
    payer', collector, hpay, hbal⟩ := hout
  have hcfg : route.config = r.config := Option.some.inj (hroute6.symm.trans h6)
  have hC' : configAt l.program s r.config = some config :=
    recordAt_eq_some.2 ⟨a, by rw [← hcfg, ← hacc]; exact ha, hown, hdec⟩
  have hidx : l.indexAt s₀ r.route = l.indexAt s r.route := by
    simp only [indexAt, routeAt_of_accounts hacc]
  -- a fee is paid only through the eighth account, which the flow names only for a fee it fetched
  have hpaid : 0 < g.fee → 0 < C.fee ∧ payer' = payer.key ∧ collector = config.feeCollector := by
    intro hpos
    obtain ⟨⟨p, hp7, -, rfl⟩, -, hcol⟩ := hpay hpos
    rw [hp7, Option.map_some] at h7
    by_cases hC : 0 < C.fee
    · rw [if_pos hC, Option.some.injEq] at h7
      exact ⟨hC, h7, hcol⟩
    · rw [if_neg hC] at h7
      cases h7
  refine ⟨g, config, hext, hC', hfee, fun hpos => (hpaid (hfee ▸ hpos)).1, fun k => ?_, i,
    hidx ▸ hi, hgi, hi'⟩
  rw [← balance_of_accounts hacc]
  by_cases hpos : 0 < g.fee
  · obtain ⟨-, rfl, rfl⟩ := hpaid hpos
    exact hbal k
  · have h0 : g.fee.toNat = 0 := by
      rw [UInt64.lt_iff_toNat_lt, UInt64.toNat_zero] at hpos
      omega
    simpa only [h0, ite_self] using hbal k

end BridgeCommit


namespace Order

variable {o : Order} {p : Phase} {c : Option Config} {a : Assembled} {t : Transaction}
  {sig : Bytes} {l l' : Ledger}

/-- A signed flow's transaction that the ledger commits: its first signature was new to the logs,
the run of the instructions the flow sends wrote the lines the ledger logs under it, and the
ledger takes the state that run ends in. -/
theorem Holds.commit (hh : o.Holds l.program (.signed c a t))
    (hc : l.sendAndConfirm t = (.committed sig, l')) :
    ∃ ixs lines, o.Sends l.program c ixs ∧
      l.RunsAs (Message.signsFor o.payer ixs) ixs l.state l'.state lines ∧
      Ledger.Runs l t.message t.message.instructions l.state l'.state lines ∧
      sig = t.signatures.headD [] ∧ l.logs.lookup sig = none ∧
      l'.logs = l.logs ++ [(sig, lines)] := by
  obtain ⟨ixs, bh, hs, ht⟩ := hh
  obtain ⟨hsig, hnew, s, lines, hr, rfl, -⟩ :=
    (Ledger.sendAndConfirm_all_or_nothing l t).2 sig l' hc
  refine ⟨ixs, lines, hs, ?_, hr, hsig, hnew, rfl⟩
  rw [ht] at hr
  exact Ledger.runs_compile_iff.1 (Ledger.runs_withBlockhash.1 hr)

/-- A flow is committed, waiting for its logs, only right after the ledger committed its
transaction; and only a bridge-out waits for its logs. -/
theorem stepAt_eq_committed (h : (o.stepAt p l).1 = .committed sig) :
    (∃ approve payer authority r, o = .bridge approve payer authority r) ∧
      ∃ c a t, p = .signed c a t ∧ l.sendAndConfirm t = (.committed sig, (o.stepAt p l).2) := by
  cases p with
  | start =>
    simp only [stepAt] at h
    split at h <;> cases h
  | assembled c a =>
    simp only [stepAt] at h
    split at h <;> cases h
  | signed c a t =>
    rcases stepAt_signed o c a t l with ⟨sig', hv, he⟩ | ⟨e, he⟩
    · rw [he] at h
      cases o with
      | bridge approve payer authority r =>
        cases h
        exact ⟨⟨approve, payer, authority, r, rfl⟩, c, a, t, rfl, hv⟩
      | changeFee => cases h
      | changeLimit => cases h
    · rw [he] at h
      cases h
  | committed sig' => cases h
  | finished answer => cases h

/-- A flow finishes with a receipt only by reading the logs of its commit, and keeps it. -/
theorem stepAt_eq_receipt {rc : Receipt} (h : (o.stepAt p l).1 = .finished (.ok (.receipt rc))) :
    p = .finished (.ok (.receipt rc)) ∨ ∃ sig, p = .committed sig ∧ rc = receiptAt l sig := by
  cases p with
  | start =>
    simp only [stepAt] at h
    split at h <;> cases h
  | assembled c a =>
    simp only [stepAt] at h
    split at h <;> cases h
  | signed c a t =>
    rcases stepAt_signed o c a t l with ⟨sig, -, he⟩ | ⟨e, he⟩
    · rw [he] at h
      cases o <;> cases h
    · rw [he] at h
      cases h
  | committed sig =>
    rw [stepAt_receipt] at h
    cases h
    exact .inr ⟨sig, rfl, rfl⟩
  | finished answer =>
    cases h
    exact .inl rfl

end Order

/-- A receipt is of the signature it was asked for. -/
theorem receiptAt_signature (l : Ledger) (sig : Bytes) : (receiptAt l sig).signature = sig := by
  unfold receiptAt
  cases l.transactionLogs sig with
  | error e => rfl
  | ok lines =>
    dsimp only
    cases LogLine.extract lines <;> rfl

/-- Where the logs keep `lines` under a signature and they carry one transfer, the receipt of that
signature has that transfer as its log, if any. -/
theorem receiptAt_log {l : Ledger} {sig : Bytes} {lines : List String} {g g' : TransferLog}
    (hlook : l.logs.lookup sig = some lines) (hext : LogLine.extract lines = .ok [g'])
    (h : (receiptAt l sig).log = some g) : g = g' := by
  unfold receiptAt Ledger.transactionLogs at h
  cases hu : l.logsUnindexed
  · simp only [hu, Bool.false_eq_true, if_false, hlook, hext] at h
    exact (Option.some.inj h).symm
  · simp only [hu, if_true] at h
    cases h


/-! ### The worlds a schedule passes through -/

theorem Ledger.indexAt_of_program {l₁ l₂ : Ledger} (h : l₁.program = l₂.program) (s : State)
    (key : Address) : l₁.indexAt s key = l₂.indexAt s key := by
  simp only [Ledger.indexAt, h]

/-- A submission of a sound flow's transaction moves no route's index back: what it commits
creates no route and makes no account, and what it does not commit changes no state. -/
theorem Order.Holds.sendAndConfirm_indexAt {o : Order} {c : Option Config} {a : Assembled}
    {t : Transaction} {l : Ledger} (hh : o.Holds l.program (.signed c a t)) {key : Address}
    {x : Nat} (hx : l.indexAt l.state key = some x) :
    ∃ y, l.indexAt (l.sendAndConfirm t).2.state key = some y ∧ x ≤ y := by
  rcases hv : l.sendAndConfirm t with ⟨v, l'⟩
  by_cases hc : ∃ sig, v = .committed sig
  · obtain ⟨sig, rfl⟩ := hc
    obtain ⟨ixs, lines, hs, hr, -⟩ := hh.commit hv
    exact hr.indexAt_grows hs.steady hx
  · have hl' := (Ledger.sendAndConfirm_all_or_nothing l t).1 v l' hv fun sig he => hc ⟨sig, he⟩
    subst hl'
    exact ⟨x, hx, le_rfl⟩

namespace World

variable {w : World} {sched : List Nat} {i k m : Nat}

/-- Every step keeps what the logs hold, and may add to it. -/
theorem advance_logs (w : World) (i : Nat) :
    ∃ more, (w.advance i).ledger.logs = w.ledger.logs ++ more := by
  rcases h : w.sessions[i]? with _ | ⟨o, p⟩
  · exact ⟨[], by rw [advance_of_none h, List.append_nil]⟩
  · rw [advance_eq h]
    rcases Order.stepAt_ledger o p w.ledger with ⟨-, -, hlogs⟩ | ⟨c, a, t, -, he⟩
    · exact ⟨[], by rw [hlogs, List.append_nil]⟩
    · obtain ⟨-, -, -, new, hlogs, -⟩ := Ledger.sendAndConfirm_trace w.ledger t
      exact ⟨new, by rw [he, hlogs]⟩

/-- In a sound world, no step moves a route's index back. -/
theorem Sound.advance_indexAt (hw : w.Sound) (i : Nat) {key : Address} {x : Nat}
    (hx : w.ledger.indexAt w.ledger.state key = some x) :
    ∃ y, w.ledger.indexAt (w.advance i).ledger.state key = some y ∧ x ≤ y := by
  rcases h : w.sessions[i]? with _ | ⟨o, p⟩
  · exact ⟨x, by rw [advance_of_none h, hx], le_rfl⟩
  · rw [advance_eq h]
    rcases Order.stepAt_ledger o p w.ledger with ⟨-, hstate, -⟩ | ⟨c, a, t, rfl, he⟩
    · exact ⟨x, by rw [hstate, hx], le_rfl⟩
    · rw [he]
      exact (hw i o _ h).sendAndConfirm_indexAt hx

/-- The world after the first `k` steps of the schedule. -/
def after (w : World) (sched : List Nat) (k : Nat) : World := w.run (sched.take k)

theorem after_zero (w : World) (sched : List Nat) : w.after sched 0 = w := by
  rw [after, List.take_zero]
  rfl

theorem after_succ (h : sched[k]? = some i) :
    w.after sched (k + 1) = (w.after sched k).advance i := by
  rw [after, after, List.take_add_one, h, run_append]
  rfl

theorem after_length (w : World) (sched : List Nat) : w.after sched sched.length = w.run sched := by
  rw [after, List.take_length]

/-- The next world a schedule passes through: the flow it names takes its step, if it names one. -/
theorem after_succ_cases (w : World) (sched : List Nat) (k : Nat) :
    w.after sched (k + 1) = w.after sched k ∨
      ∃ i, sched[k]? = some i ∧ w.after sched (k + 1) = (w.after sched k).advance i := by
  rcases h : sched[k]? with _ | i
  · refine .inl ?_
    rw [after, after, List.take_add_one, h, Option.toList_none, List.append_nil]
  · exact .inr ⟨i, rfl, after_succ h⟩

theorem Sound.after (hw : w.Sound) (sched : List Nat) (k : Nat) : (w.after sched k).Sound :=
  hw.run _

theorem after_program (w : World) (sched : List Nat) (k : Nat) :
    (w.after sched k).ledger.program = w.ledger.program := by
  induction k with
  | zero => rw [after_zero]
  | succ k ih =>
    rcases after_succ_cases w sched k with h | ⟨i, -, h⟩
    · rw [h, ih]
    · rw [h, advance_program, ih]

/-- Along a schedule the logs only grow. -/
theorem after_logs (w : World) (sched : List Nat) (hkm : k ≤ m) :
    ∃ more, (w.after sched m).ledger.logs = (w.after sched k).ledger.logs ++ more := by
  induction m, hkm using Nat.le_induction with
  | base => exact ⟨[], (List.append_nil _).symm⟩
  | succ m _ ih =>
    obtain ⟨more, hm⟩ := ih
    rcases after_succ_cases w sched m with h | ⟨i, -, h⟩
    · exact ⟨more, by rw [h, hm]⟩
    · obtain ⟨more', h'⟩ := advance_logs (w.after sched m) i
      exact ⟨more ++ more', by rw [h, h', hm, List.append_assoc]⟩

/-- Along a schedule from a sound world, no route's index moves back. -/
theorem Sound.after_indexAt (hw : w.Sound) (sched : List Nat) (hkm : k ≤ m) {key : Address}
    {x : Nat} (hx : w.ledger.indexAt (w.after sched k).ledger.state key = some x) :
    ∃ y, w.ledger.indexAt (w.after sched m).ledger.state key = some y ∧ x ≤ y := by
  induction m, hkm using Nat.le_induction with
  | base => exact ⟨x, hx, le_rfl⟩
  | succ m _ ih =>
    obtain ⟨y, hy, hxy⟩ := ih
    rcases after_succ_cases w sched m with h | ⟨i, -, h⟩
    · exact ⟨y, by rw [h, hy], hxy⟩
    · -- the step is the world's own; its ledger runs the same program
      have hprog := after_program w sched m
      rw [← Ledger.indexAt_of_program hprog] at hy
      obtain ⟨z, hz, hyz⟩ := (hw.after sched m).advance_indexAt i hy
      rw [Ledger.indexAt_of_program hprog] at hz
      exact ⟨z, by rw [h]; exact hz, hxy.trans hyz⟩

end World


/-! ### Commits along a schedule -/

namespace World

variable {w : World} {sched : List Nat} {i j k n : Nat}

/-- At step `k` of the schedule, flow `i`, with order `o`, submitted its own transaction and the
ledger committed it: the run of its instructions from the state the ledger had then wrote `lines`,
which the ledger logged under the transaction's first signature `sig`, new to its logs. -/
def CommitsAt (w : World) (sched : List Nat) (i k : Nat) (o : Order) (sig : Bytes)
    (lines : List String) : Prop :=
  sched[k]? = some i ∧ ∃ c a t, (w.after sched k).sessions[i]? = some (o, .signed c a t) ∧
    sig = t.signatures.headD [] ∧ (w.after sched k).ledger.logs.lookup sig = none ∧
    Ledger.Runs (w.after sched k).ledger t.message t.message.instructions
      (w.after sched k).ledger.state (w.after sched (k + 1)).ledger.state lines ∧
    (w.after sched (k + 1)).ledger.logs = (w.after sched k).ledger.logs ++ [(sig, lines)]

/-- What a bridge-out's commit along a schedule did: its lines carry one transfer, which moved the
route's index on by one; its fee is the fee of the config when it committed, and the lamports that
moved are that fee, from the payer to that config's collector. -/
theorem Sound.commitsAt_bridge (hw : w.Sound) {approve : Bool} {payer authority : Keypair}
    {r : BridgeRequest} {sig : Bytes} {lines : List String}
    (h : w.CommitsAt sched i k (.bridge approve payer authority r) sig lines) :
    ∃ g C', LogLine.extract lines = .ok [g] ∧
      configAt w.ledger.program (w.after sched k).ledger.state r.config = some C' ∧ g.fee = C'.fee ∧
      (∀ key, balance (w.after sched (k + 1)).ledger.state key +
          (if key = payer.key then g.fee.toNat else 0) =
        balance (w.after sched k).ledger.state key +
          (if key = C'.feeCollector then g.fee.toNat else 0)) ∧
      ∃ x, w.ledger.indexAt (w.after sched k).ledger.state r.route = some x ∧
        g.index.toNat = x + 1 ∧
        w.ledger.indexAt (w.after sched (k + 1)).ledger.state r.route = some (x + 1) := by
  obtain ⟨-, c, a, t, hs, -, -, hr, -⟩ := h
  obtain ⟨ixs, bh, hsends, ht⟩ := (hw.after sched k) i _ _ hs
  -- a bridge-out was signed under the config it fetched
  obtain ⟨C, rfl⟩ := hsends.config_some
  rw [ht] at hr
  have hruns := Ledger.runs_compile_iff.1 (Ledger.runs_withBlockhash.1 hr)
  have hprog := after_program w sched k
  obtain ⟨g, C', hext, hC', hfee, -, hbal, x, hx, hgx, hx'⟩ := hsends.bridge_commit hruns
  rw [Ledger.indexAt_of_program hprog] at hx hx'
  exact ⟨g, C', hext, hprog ▸ hC', hfee, hbal, x, hx, hgx, hx'⟩

/-- No flow has taken a step yet. -/
def Fresh (w : World) : Prop :=
  ∀ (i : Nat) (o : Order) (p : Phase), w.sessions[i]? = some (o, p) → p = .start

/-- What the worlds a schedule passes through keep of each flow's commit, up to step `n`: a flow
waiting for its logs, and a receipt with a log, go back to the commit of the flow's own
transaction, whose lines carry one transfer, the receipt's log. -/
structure Traced (w : World) (sched : List Nat) (n : Nat) : Prop where
  /-- A flow waiting for its logs committed its own transaction before. -/
  waiting : ∀ i o sig, (w.after sched n).sessions[i]? = some (o, .committed sig) →
    ∃ k < n, ∃ lines g, w.CommitsAt sched i k o sig lines ∧ LogLine.extract lines = .ok [g]
  /-- A receipt's log is the transfer its own commit logged. -/
  receipts : ∀ i o rc g, (w.after sched n).sessions[i]? = some (o, .finished (.ok (.receipt rc))) →
    rc.log = some g →
      ∃ k < n, ∃ lines, w.CommitsAt sched i k o rc.signature lines ∧ LogLine.extract lines = .ok [g]

theorem Fresh.traced_zero (hfresh : w.Fresh) : w.Traced sched 0 where
  waiting i o sig h := by
    rw [after_zero] at h
    cases hfresh i o _ h
  receipts i o rc g h := by
    rw [after_zero] at h
    cases hfresh i o _ h

/-- Where the logs grew from the commit of `sig` on, they still keep its lines under it. -/
theorem lookup_of_commit {logs logs' more : List (Bytes × List String)} {sig : Bytes}
    {lines : List String} (hnew : logs.lookup sig = none)
    (h : logs' = logs ++ [(sig, lines)] ++ more) : logs'.lookup sig = some lines := by
  rw [h, List.lookup_append, List.lookup_append, hnew]
  simp

/-- A commit's lines stay in the logs under its signature in every later world. -/
theorem CommitsAt.lookup {o : Order} {sig : Bytes} {lines : List String}
    (h : w.CommitsAt sched i k o sig lines) (hkn : k < n) :
    (w.after sched n).ledger.logs.lookup sig = some lines := by
  obtain ⟨-, -, -, -, -, -, hnew, -, hlogs⟩ := h
  obtain ⟨more, hmore⟩ := after_logs w sched (Nat.succ_le_of_lt hkn)
  exact lookup_of_commit hnew (by rw [hmore, hlogs])

theorem Traced.waiting_succ {o : Order} {sig : Bytes} (h : w.Traced sched n)
    (hi : (w.after sched n).sessions[i]? = some (o, .committed sig)) :
    ∃ k < n + 1, ∃ lines g, w.CommitsAt sched i k o sig lines ∧
      LogLine.extract lines = .ok [g] := by
  obtain ⟨k, hk, rest⟩ := h.waiting i o sig hi
  exact ⟨k, Nat.lt_succ_of_lt hk, rest⟩

theorem Traced.receipts_succ {o : Order} {rc : Receipt} {g : TransferLog} (h : w.Traced sched n)
    (hi : (w.after sched n).sessions[i]? = some (o, .finished (.ok (.receipt rc))))
    (hg : rc.log = some g) :
    ∃ k < n + 1, ∃ lines, w.CommitsAt sched i k o rc.signature lines ∧
      LogLine.extract lines = .ok [g] := by
  obtain ⟨k, hk, rest⟩ := h.receipts i o rc g hi hg
  exact ⟨k, Nat.lt_succ_of_lt hk, rest⟩

/-- Every step keeps what the worlds before it traced. -/
theorem Sound.traced_succ (hw : w.Sound) (h : w.Traced sched n) : w.Traced sched (n + 1) := by
  rcases after_succ_cases w sched n with hn | ⟨j, hj, hn⟩
  · -- no flow stepped
    exact ⟨fun i o sig hi => h.waiting_succ (hn ▸ hi),
      fun i o rc g hi hg => h.receipts_succ (hn ▸ hi) hg⟩
  -- a flow that did not step keeps what it had
  have hother : ∀ i, i ≠ j →
      (w.after sched (n + 1)).sessions[i]? = (w.after sched n).sessions[i]? :=
    fun i hij => by rw [hn, advance_sessions_ne (Ne.symm hij)]
  refine ⟨fun i o sig hi => ?_, fun i o rc g hi hg => ?_⟩
  · by_cases hij : i = j
    · subst hij
      rw [hn] at hi
      obtain ⟨p, hp, hstep⟩ := advance_sessions_of_eq_some hi
      -- it just committed its own transaction, whose lines carry its bridge-out's transfer
      obtain ⟨⟨approve, payer, authority, r, rfl⟩, c, a, t, rfl, hc⟩ :=
        Order.stepAt_eq_committed hstep
      have hl : (w.after sched (n + 1)).ledger = ((Order.bridge approve payer authority r).stepAt
          (.signed c a t) (w.after sched n).ledger).2 := by
        rw [hn, advance_eq hp]
      rw [← hl] at hc
      obtain ⟨ixs, lines, hs, hruns, hr, hsig, hnew, hlogs⟩ :=
        ((hw.after sched n) i _ _ hp).commit hc
      obtain ⟨C, rfl⟩ := hs.config_some
      obtain ⟨g, -, hext, -⟩ := hs.bridge_commit hruns
      exact ⟨n, Nat.lt_succ_self n, lines, g, ⟨hj, _, a, t, hp, hsig, hnew, hr, hlogs⟩, hext⟩
    · exact h.waiting_succ (by rw [← hother i hij]; exact hi)
  · by_cases hij : i = j
    · subst hij
      rw [hn] at hi
      obtain ⟨p, hp, hstep⟩ := advance_sessions_of_eq_some hi
      rcases Order.stepAt_eq_receipt hstep with rfl | ⟨sig, rfl, rfl⟩
      · exact h.receipts_succ hp hg
      · -- it read the logs of its commit, which still keep that commit's lines
        obtain ⟨k, hk, lines, g', hcommit, hext⟩ := h.waiting i _ sig hp
        rw [receiptAt_signature]
        obtain rfl := receiptAt_log (hcommit.lookup hk) hext hg
        exact ⟨k, Nat.lt_succ_of_lt hk, lines, hcommit, hext⟩
    · exact h.receipts_succ (by rw [← hother i hij]; exact hi) hg

theorem Sound.traced (hw : w.Sound) (hfresh : w.Fresh)
    (n : Nat) : w.Traced sched n := by
  induction n with
  | zero => exact hfresh.traced_zero
  | succ n ih => exact hw.traced_succ ih

end World


/-! ### The interleaving law -/

namespace World

variable {w : World} {sched : List Nat} {i j k k' : Nat}

theorem start_fresh (l : Ledger) (orders : List Order) : (start l orders).Fresh := by
  intro i o p h
  simp only [start, List.getElem?_map, Option.map_eq_some_iff, Prod.mk.injEq] at h
  obtain ⟨_, -, -, rfl⟩ := h
  rfl

/-- Of two bridge-outs that committed on one route, the earlier logged the lower index. -/
theorem Sound.commit_index_lt (hw : w.Sound) {approve approve' : Bool}
    {payer payer' authority authority' : Keypair} {r r' : BridgeRequest} {sig sig' : Bytes}
    {lines lines' : List String} {g g' : TransferLog}
    (h : w.CommitsAt sched i k (.bridge approve payer authority r) sig lines)
    (h' : w.CommitsAt sched j k' (.bridge approve' payer' authority' r') sig' lines')
    (hroute : r.route = r'.route) (hk : k < k') (hext : LogLine.extract lines = .ok [g])
    (hext' : LogLine.extract lines' = .ok [g']) : g.index.toNat < g'.index.toNat := by
  obtain ⟨g₁, -, hext₁, -, -, -, x, -, hgx, hx'⟩ := hw.commitsAt_bridge h
  obtain ⟨g₂, -, hext₂, -, -, -, x', hx'', hgx', -⟩ := hw.commitsAt_bridge h'
  -- each commit's lines carry one transfer, so these are the transfers of the two bridge-outs
  rw [hext, Except.ok.injEq, List.singleton_inj] at hext₁
  rw [hext', Except.ok.injEq, List.singleton_inj] at hext₂
  subst hext₁ hext₂
  -- the route's index never moved back between the two commits
  obtain ⟨y, hy, hxy⟩ := hw.after_indexAt sched (Nat.succ_le_of_lt hk) hx'
  rw [hroute, hx'', Option.some.injEq] at hy
  omega

/-- Two flows that finished with receipts on one route have receipts whose logs carry distinct
indexes. -/
theorem Sound.receipt_indexes_ne (hw : w.Sound) (hfresh : w.Fresh) {approve approve' : Bool}
    {payer payer' authority authority' : Keypair} {r r' : BridgeRequest} {rc rc' : Receipt}
    {g g' : TransferLog} (hij : i ≠ j)
    (hi : (w.run sched).sessions[i]? = some (.bridge approve payer authority r,
      .finished (.ok (.receipt rc))))
    (hj : (w.run sched).sessions[j]? = some (.bridge approve' payer' authority' r',
      .finished (.ok (.receipt rc'))))
    (hroute : r.route = r'.route) (hg : rc.log = some g) (hg' : rc'.log = some g') :
    g.index ≠ g'.index := by
  have htr : w.Traced sched sched.length := hw.traced hfresh sched.length
  rw [← after_length] at hi hj
  obtain ⟨k, -, lines, hc, hext⟩ := htr.receipts i _ rc g hi hg
  obtain ⟨k', -, lines', hc', hext'⟩ := htr.receipts j _ rc' g' hj hg'
  -- one step is one flow's
  have hkk : k ≠ k' := by
    rintro rfl
    have hsame := hc.1.symm.trans hc'.1
    rw [Option.some.injEq] at hsame
    exact hij hsame
  -- the earlier commit logged the lower index
  have hne : ∀ {x y : TransferLog}, x.index.toNat < y.index.toNat → x.index ≠ y.index :=
    fun hxy heq => by rw [heq] at hxy; exact lt_irrefl _ hxy
  rcases Nat.lt_or_gt_of_ne hkk with hlt | hlt
  · exact hne (hw.commit_index_lt hc hc' hroute hlt hext hext')
  · exact (hne (hw.commit_index_lt hc' hc hroute.symm hlt hext' hext)).symm

/-- A bridge-out that fetched a config asking no fee, submitting while that config asks one, fails,
and the ledger only counts its submission. -/
theorem Sound.stale_fee_refused (hw : w.Sound) {approve : Bool} {payer authority : Keypair}
    {r : BridgeRequest} {C C' : Config} {a : Assembled} {t : Transaction}
    (hk : sched[k]? = some i)
    (hs : (w.after sched k).sessions[i]? = some (.bridge approve payer authority r,
      .signed (some C) a t))
    (hC : C.fee = 0)
    (hC' : configAt w.ledger.program (w.after sched k).ledger.state r.config = some C')
    (hpos : 0 < C'.fee) :
    (∃ e, (w.after sched (k + 1)).sessions[i]? = some (.bridge approve payer authority r,
        .finished (.error e))) ∧
      (w.after sched (k + 1)).ledger =
        { (w.after sched k).ledger with
          submissions := (w.after sched k).ledger.submissions + 1 } := by
  rw [after_succ hk]
  rcases hv : (w.after sched k).ledger.sendAndConfirm t with ⟨v, l'⟩
  -- a commit would have paid no fee under a config asking one
  have hnot : ∀ sig, v ≠ .committed sig := by
    rintro sig rfl
    obtain ⟨ixs, lines, hsends, hruns, -⟩ := ((hw.after sched k) i _ _ hs).commit hv
    obtain ⟨g, C'', -, hC'', -, hfetched, -⟩ := hsends.bridge_commit hruns
    rw [after_program, hC', Option.some.injEq] at hC''
    subst hC''
    have hfee := hfetched hpos
    rw [hC] at hfee
    exact absurd hfee (lt_irrefl 0)
  obtain ⟨e, he⟩ := Order.stepAt_not_committed (o := .bridge approve payer authority r)
    (c := some C) (a := a) hv hnot
  have hl' := (Ledger.sendAndConfirm_all_or_nothing _ t).1 v l' hv hnot
  exact ⟨⟨e, by rw [advance_sessions_self hs, he]⟩, by rw [advance_eq hs, he, hl']⟩

end World

open World in
/-- Bridge-outs, with their approval or without, and the owner's changes of the fee and of a
route's limits, any number of them on one ledger, their steps interleaved in any order. Each flow's
steps, taken alone, are the flow: the same answer and the same ledger. A receipt's
log, when it has one, is the one transfer that the flow's own transaction logged when the ledger
committed it. Receipts on one route carry distinct indexes. Every committed bridge-out moved
exactly the fee its log states, the fee of the config when it committed, from its payer to that
config's collector. And a bridge-out that fetched a config asking no fee and submits while the
config asks one fails, and the ledger only counts its submission. -/
theorem concurrent_bridges_sound (l : Ledger) (orders : List Order) (sched : List Nat) :
    (∀ (o : Order) (l₀ : Ledger),
      o.alone 4 (.start, l₀) = (.finished (o.flow.run.run l₀).1, (o.flow.run.run l₀).2)) ∧
    (∀ (i : Nat) (o : Order) (rc : Receipt) (g : TransferLog),
      ((start l orders).run sched).sessions[i]? = some (o, .finished (.ok (.receipt rc))) →
      rc.log = some g → ∃ k lines, (start l orders).CommitsAt sched i k o rc.signature lines ∧
        LogLine.extract lines = .ok [g]) ∧
    (∀ (i j : Nat) (approve approve' : Bool) (payer payer' authority authority' : Keypair)
      (r r' : BridgeRequest) (rc rc' : Receipt) (g g' : TransferLog), i ≠ j →
      ((start l orders).run sched).sessions[i]? = some (.bridge approve payer authority r,
        .finished (.ok (.receipt rc))) →
      ((start l orders).run sched).sessions[j]? = some (.bridge approve' payer' authority' r',
        .finished (.ok (.receipt rc'))) →
      r.route = r'.route → rc.log = some g → rc'.log = some g' → g.index ≠ g'.index) ∧
    (∀ (i k : Nat) (approve : Bool) (payer authority : Keypair) (r : BridgeRequest) (sig : Bytes)
      (lines : List String),
      (start l orders).CommitsAt sched i k (.bridge approve payer authority r) sig lines →
      ∃ g C, LogLine.extract lines = .ok [g] ∧
        configAt l.program ((start l orders).after sched k).ledger.state r.config = some C ∧
        g.fee = C.fee ∧
        ∀ key, balance ((start l orders).after sched (k + 1)).ledger.state key +
            (if key = payer.key then g.fee.toNat else 0) =
          balance ((start l orders).after sched k).ledger.state key +
            (if key = C.feeCollector then g.fee.toNat else 0)) ∧
    (∀ (i k : Nat) (approve : Bool) (payer authority : Keypair) (r : BridgeRequest) (C : Config)
      (a : Assembled) (t : Transaction) (C' : Config), sched[k]? = some i →
      ((start l orders).after sched k).sessions[i]? = some (.bridge approve payer authority r,
        .signed (some C) a t) →
      C.fee = 0 → configAt l.program ((start l orders).after sched k).ledger.state r.config = some C' →
      0 < C'.fee →
      (∃ e, ((start l orders).after sched (k + 1)).sessions[i]? =
          some (.bridge approve payer authority r, .finished (.error e))) ∧
        ((start l orders).after sched (k + 1)).ledger = { ((start l orders).after sched k).ledger with
          submissions := ((start l orders).after sched k).ledger.submissions + 1 }) := by
  have hw := start_sound l orders
  have hfresh := start_fresh l orders
  refine ⟨Order.alone_eq, fun i o rc g hi hg => ?_,
    fun i j _ _ _ _ _ _ _ _ _ _ _ _ hij hi hj hroute hg hg' =>
      hw.receipt_indexes_ne hfresh hij hi hj hroute hg hg',
    fun i k _ payer _ r sig lines h => ?_,
    fun i k _ _ _ _ _ _ _ _ hk hs hC hC' hpos => hw.stale_fee_refused hk hs hC hC' hpos⟩
  · rw [← after_length] at hi
    obtain ⟨k, -, rest⟩ := (hw.traced hfresh sched.length).receipts i o rc g hi hg
    exact ⟨k, rest⟩
  · obtain ⟨g, C, hext, hC, hfee, hbal, -⟩ := hw.commitsAt_bridge h
    exact ⟨g, C, hext, hC, hfee, hbal⟩

end Client

end TokenBridge
