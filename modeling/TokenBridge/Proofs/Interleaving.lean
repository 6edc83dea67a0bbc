import TokenBridge.Proofs.BridgeFlow
/-!
Client flows side by side against one ledger.

A flow is cut into the steps it takes against the ledger, each one atomic: a bridge-out fetches
the config and assembles its transaction, asks for a blockhash and signs under it, submits, and
fetches the logs of its signature; the owner's flows read the program and assemble, ask for a
blockhash and sign, and submit. Any number of flows, each at its own phase, share one ledger; a
schedule picks which flow takes its next step (`World.run`), so the steps of different flows
interleave in any order.

Taken one after another with nothing between them, a flow's steps are the flow itself
(`Order.alone_eq`): the cut adds and loses nothing.
-/

namespace TokenBridge

namespace Client

/-- A flow that runs beside others: a bridge-out, with or without its approval, or one of the
owner's changes to the fee or to a route's limits. -/
inductive Order where
  | bridge (approve : Bool) (payer authority : Keypair) (r : BridgeRequest)
  | changeFee (config : Address) (owner : Keypair) (fee : UInt64) (collector : Address)
  | changeLimit (config route : Address) (owner : Keypair) (max min : UInt64)

/-- What a flow answers: a bridge-out its receipt, the owner's flows their signature. -/
inductive Answer where
  | receipt (rc : Receipt)
  | signature (sig : Bytes)

/-- Where a flow stands: not started; its transaction assembled, after the config it fetched, if
it fetches one; signed under a fresh blockhash; a bridge-out committed under its signature, its
logs not yet fetched; or finished with its answer. -/
inductive Phase where
  | start
  | assembled (config : Option Config) (a : Assembled)
  | signed (config : Option Config) (a : Assembled) (t : Transaction)
  | committed (sig : Bytes)
  | finished (answer : Except Stop Answer)

namespace Order

/-- The flow itself. -/
def flow : Order → Flow Answer
  | .bridge approve payer authority r => Answer.receipt <$> Client.bridge approve payer authority r
  | .changeFee config owner fee collector =>
    Answer.signature <$> Client.changeFee config owner fee collector
  | .changeLimit config route owner max min =>
    Answer.signature <$> Client.changeLimit config route owner max min

/-- What a flow does before it asks for a blockhash: a bridge-out fetches the config and builds
its instructions from it, the owner's flows read the program; each assembles its transaction. -/
def prepare : Order → Flow (Option Config × Assembled)
  | .bridge approve payer authority r => do
    let op := if approve then "approve_and_bridge" else "bridge"
    let program := (← get).program
    let config ← fetch op Config.decode r.config
    let out := r.instruction program payer.key authority.key config
    let ixs ← if approve then
        match Builder.approve r.tokenProgram r.user authority.key payer.key r.amount with
        | .ok ix => pure [ix, out]
        | .error reason => failWith (.assemble (.approval op reason))
      else pure [out]
    let a ← assembleOrStop op payer.key ixs [.keypair payer, .keypair authority]
    pure (some config, a)
  | .changeFee config owner fee collector => do
    let ix := Builder.changeFee (← get).program config owner.key collector fee
    let a ← assembleOrStop "change_fee" owner.key [ix] [.keypair owner]
    pure (none, a)
  | .changeLimit config route owner max min => do
    let ix := Builder.changeLimit (← get).program config route owner.key max min
    let a ← assembleOrStop "change_limit" owner.key [ix] [.keypair owner]
    pure (none, a)

/-- Where a flow goes once its transaction commits: a bridge-out on to fetch its logs, the owner's
flows to their answer. -/
def afterCommit : Order → Bytes → Phase
  | .bridge .., sig => .committed sig
  | _, sig => .finished (.ok (.signature sig))

end Order

/-- The receipt that the logs of `sig` give on the ledger `l`. -/
def receiptAt (l : Ledger) (sig : Bytes) : Receipt :=
  match l.transactionLogs sig with
  | .error e => ⟨sig, none, some e.message⟩
  | .ok lines => match LogLine.extract lines with
    | .ok logs => ⟨sig, logs.head?, none⟩
    | .error e => ⟨sig, none, some e.message⟩

namespace Order

/-- One step of a flow at its phase, on the ledger as it finds it: the phase it moves to and the
ledger it leaves. Fetching the config and the logs only reads; asking for a blockhash hands one
out; submitting hands the transaction to the ledger. -/
def stepAt (o : Order) : Phase → Ledger → Phase × Ledger
  | .start, l =>
    match (o.prepare.run.run l).1 with
    | .ok (config, a) => (.assembled config a, l)
    | .error e => (.finished (.error e), l)
  | .assembled config a, l =>
    match a.sign l.latestBlockhash.1 with
    | .ok t => (.signed config a t, l.latestBlockhash.2)
    | .error e => (.finished (.error (.failed (.assemble e))), l.latestBlockhash.2)
  | .signed _ a t, l =>
    match l.sendAndConfirm t with
    | (.committed sig, l') => (o.afterCommit sig, l')
    | (.aborted, l') => (.finished (.error .aborted), l')
    | (.refused e, l') =>
      (.finished (.error (.failed (ClientError.ofSubmission a.operation l.program t.message e))), l')
  | .committed sig, l => (.finished (.ok (.receipt (receiptAt l sig))), l)
  | .finished answer, l => (.finished answer, l)

/-- The flow's steps one after another, with nothing between them. -/
def alone (o : Order) : Nat → Phase × Ledger → Phase × Ledger
  | 0, pl => pl
  | n + 1, (p, l) => o.alone n (o.stepAt p l)

end Order

/-- Flows sharing one ledger, each with its order and phase. -/
structure World where
  ledger : Ledger
  sessions : List (Order × Phase)

namespace World

/-- The world where the flows `orders` have not started, on the ledger `l`. -/
def start (l : Ledger) (orders : List Order) : World :=
  ⟨l, orders.map fun o => (o, .start)⟩

/-- The flow at position `i` takes its next step; with no flow there, nothing happens. -/
def advance (w : World) (i : Nat) : World :=
  match w.sessions[i]? with
  | some (o, p) => ⟨(o.stepAt p w.ledger).2, w.sessions.set i (o, (o.stepAt p w.ledger).1)⟩
  | none => w

/-- The flows take steps in the order the schedule names them. -/
def run (w : World) : List Nat → World
  | [] => w
  | i :: is => (w.advance i).run is

end World

end Client

/-! ### Steps that only read -/

namespace Flow

variable {α β : Type}

/-- The flow leaves the ledger as it finds it. -/
def ReadsOnly (x : Flow α) : Prop := ∀ l, (x.run.run l).2 = l

theorem ReadsOnly.pure (a : α) : ReadsOnly (pure a : Flow α) := fun _ => rfl

theorem ReadsOnly.get : ReadsOnly (get : Flow Ledger) := fun _ => rfl

theorem ReadsOnly.throw (e : Stop) : ReadsOnly (throw e : Flow α) := fun _ => rfl

theorem ReadsOnly.bind {x : Flow α} {f : α → Flow β} (hx : ReadsOnly x)
    (hf : ∀ a, ReadsOnly (f a)) : ReadsOnly (x >>= f) := by
  intro l
  rw [Flow.run_bind]
  rcases h : x.run.run l with ⟨r, l'⟩
  have hl : l' = l := by simpa [h] using hx l
  subst hl
  cases r with
  | ok a => exact hf a l'
  | error e => rfl

end Flow

namespace Client

open TokenBridge.Flow

theorem fetch_readsOnly {α : Type} (op : String) (decode : Bytes → Except CodecError α)
    (key : Address) : ReadsOnly (fetch op decode key) := by
  unfold fetch
  refine .bind .get fun l => ?_
  split
  · exact .throw _
  · split
    · exact .pure _
    · exact .throw _

theorem assembleOrStop_readsOnly (op : String) (payer : Address) (ixs : List Instruction)
    (signers : List Signer) : ReadsOnly (assembleOrStop op payer ixs signers) := by
  unfold assembleOrStop
  split
  · exact .pure _
  · exact .throw _

/-- The receipt of `sig`, read off the ledger as it is. -/
theorem receipt_run_eq (sig : Bytes) (l : Ledger) :
    (receipt sig).run.run l = (.ok (receiptAt l sig), l) := by
  unfold receipt receiptAt
  rw [Flow.run_bind, Flow.run_get]
  dsimp only
  cases l.transactionLogs sig with
  | error e => rfl
  | ok lines =>
    dsimp only
    cases LogLine.extract lines <;> rfl

namespace Order

/-- Preparing a transaction only reads the ledger. -/
theorem prepare_readsOnly : ∀ o : Order, ReadsOnly o.prepare
  | .bridge approve payer authority r => by
    unfold prepare
    refine .bind .get fun l => .bind (fetch_readsOnly _ _ _) fun config => ?_
    have tail : ∀ op ixs, ReadsOnly (do
        let a ← assembleOrStop op payer.key ixs [.keypair payer, .keypair authority]
        pure (some config, a)) :=
      fun _ _ => .bind (assembleOrStop_readsOnly _ _ _ _) fun a => .pure _
    dsimp only
    split
    · split
      · exact .bind (.pure _) (tail _)
      · exact .bind (.throw _) (tail _)
    · exact .bind (.pure _) (tail _)
  | .changeFee .. => .bind .get fun _ => .bind (assembleOrStop_readsOnly _ _ _ _) fun _ => .pure _
  | .changeLimit .. => .bind .get fun _ => .bind (assembleOrStop_readsOnly _ _ _ _) fun _ => .pure _

end Order


/-! ### A flow is its steps -/

namespace Order

/-- What a flow does once its transaction is assembled: it submits it, and a bridge-out reads the
receipt of its signature. -/
def finish : Order → Assembled → Flow Answer
  | .bridge .., a => Answer.receipt <$> (submit a >>= receipt)
  | .changeFee .., a => Answer.signature <$> submit a
  | .changeLimit .., a => Answer.signature <$> submit a

/-- A flow prepares its transaction and then finishes it. -/
theorem flow_eq : ∀ o : Order, o.flow = o.prepare >>= fun p => o.finish p.2
  | .bridge approve payer authority r => by
    simp only [flow, prepare, finish, Client.bridge, map_bind, bind_assoc]
    refine bind_congr fun l => bind_congr fun config => ?_
    cases approve
    · simp [BridgeRequest.instruction]
    · simp only [if_true]
      cases Builder.approve r.tokenProgram r.user authority.key payer.key r.amount
      · simp [failWith]
      · simp [BridgeRequest.instruction]
  | .changeFee .. => by
    simp only [flow, prepare, finish, Client.changeFee, map_bind, bind_assoc, pure_bind]
  | .changeLimit .. => by
    simp only [flow, prepare, finish, Client.changeLimit, map_bind, bind_assoc, pure_bind]

end Order


theorem Flow.run_map {α β : Type} (f : α → β) (x : Flow α) (l : Ledger) :
    (f <$> x).run.run l = ((x.run.run l).1.map f, (x.run.run l).2) := by
  rw [map_eq_pure_bind, Flow.run_bind]
  rcases x.run.run l with ⟨_ | a, l'⟩ <;> rfl

namespace Order

/-- Once finished, a flow stays as it is and leaves the ledger alone. -/
@[simp] theorem alone_finished (o : Order) (answer : Except Stop Answer) (l : Ledger) :
    ∀ n, o.alone n (.finished answer, l) = (.finished answer, l)
  | 0 => rfl
  | n + 1 => alone_finished o answer l n

/-- From its assembled transaction, three steps take a flow where finishing takes it. -/
theorem alone_assembled (o : Order) (config : Option Config) (a : Assembled) (l : Ledger) :
    o.alone 3 (.assembled config a, l) =
      (.finished ((o.finish a).run.run l).1, ((o.finish a).run.run l).2) := by
  rcases hs : a.sign l.latestBlockhash.1 with e | t
  · cases o <;>
      simp only [alone, stepAt, finish, Flow.run_map, Flow.run_bind, submit_run, hs] <;> rfl
  · rcases hv : l.latestBlockhash.2.sendAndConfirm t with ⟨_ | _ | e, l'⟩ <;> cases o <;>
      simp only [alone, stepAt, finish, afterCommit, Flow.run_map, Flow.run_bind, submit_run, hs,
        hv, receipt_run_eq] <;> rfl

/-- A flow's steps, taken one after another with nothing between them, end where the flow does:
the same answer, the same ledger. -/
theorem alone_eq (o : Order) (l : Ledger) :
    o.alone 4 (.start, l) = (.finished (o.flow.run.run l).1, (o.flow.run.run l).2) := by
  have hread := prepare_readsOnly o l
  rw [flow_eq, Flow.run_bind]
  rcases hp : o.prepare.run.run l with ⟨_ | ⟨config, a⟩, l'⟩
  · rw [hp] at hread
    subst hread
    simp [alone, stepAt, hp]
  · rw [hp] at hread
    subst hread
    rw [← alone_assembled o config]
    simp [alone, stepAt, hp]

end Order


/-! ### What one step does -/

namespace Order

variable {o : Order} {l l' : Ledger}

/-- A step that submits nothing keeps the ledger's program, state and logs: it only reads them,
or hands out a blockhash. -/
theorem stepAt_keeps {p : Phase} (hp : ∀ c a t, p ≠ .signed c a t) (o : Order) (l : Ledger) :
    (o.stepAt p l).2.program = l.program ∧ (o.stepAt p l).2.state = l.state ∧
      (o.stepAt p l).2.logs = l.logs := by
  cases p with
  | start =>
    simp only [stepAt]
    split <;> exact ⟨rfl, rfl, rfl⟩
  | assembled c a =>
    simp only [stepAt]
    split <;> exact ⟨rfl, rfl, rfl⟩
  | signed c a t => exact absurd rfl (hp c a t)
  | committed sig => exact ⟨rfl, rfl, rfl⟩
  | finished answer => exact ⟨rfl, rfl, rfl⟩

/-- A submission the ledger commits takes the flow on past its commit. -/
theorem stepAt_committed {c : Option Config} {a : Assembled} {t : Transaction} {sig : Bytes}
    (h : l.sendAndConfirm t = (.committed sig, l')) :
    o.stepAt (.signed c a t) l = (o.afterCommit sig, l') := by
  simp only [stepAt, h]

/-- A submission the ledger does not commit finishes the flow with an error. -/
theorem stepAt_not_committed {c : Option Config} {a : Assembled} {t : Transaction} {v : Verdict}
    (h : l.sendAndConfirm t = (v, l')) (hv : ∀ sig, v ≠ .committed sig) :
    ∃ e, o.stepAt (.signed c a t) l = (.finished (.error e), l') := by
  cases v with
  | committed sig => exact absurd rfl (hv sig)
  | aborted => exact ⟨.aborted, by simp only [stepAt, h]⟩
  | refused e => exact ⟨_, by simp only [stepAt, h]; rfl⟩

/-- A signed flow's step: the ledger committed its transaction, and the flow went on past the
commit, or the flow finished with an error on the ledger that the submission left. -/
theorem stepAt_signed (o : Order) (c : Option Config) (a : Assembled) (t : Transaction)
    (l : Ledger) :
    (∃ sig, l.sendAndConfirm t = (.committed sig, (o.stepAt (.signed c a t) l).2) ∧
        (o.stepAt (.signed c a t) l).1 = o.afterCommit sig) ∨
      ∃ e, o.stepAt (.signed c a t) l = (.finished (.error e), (l.sendAndConfirm t).2) := by
  rcases hv : l.sendAndConfirm t with ⟨_ | _ | e, l'⟩
  case committed sig =>
    rw [stepAt_committed hv]
    exact .inl ⟨sig, rfl, rfl⟩
  all_goals
    obtain ⟨e, he⟩ := stepAt_not_committed (o := o) (c := c) (a := a) hv fun _ h => by cases h
    exact .inr ⟨e, he⟩

/-- Reading the logs of its commit finishes a bridge-out with its receipt. -/
theorem stepAt_receipt (sig : Bytes) :
    o.stepAt (.committed sig) l = (.finished (.ok (.receipt (receiptAt l sig))), l) := rfl

/-- What a step does to the ledger: it keeps its program, state and logs, or it is the ledger's
answer to the flow's signed transaction. -/
theorem stepAt_ledger (o : Order) (p : Phase) (l : Ledger) :
    ((o.stepAt p l).2.program = l.program ∧ (o.stepAt p l).2.state = l.state ∧
        (o.stepAt p l).2.logs = l.logs) ∨
      ∃ c a t, p = .signed c a t ∧ (o.stepAt p l).2 = (l.sendAndConfirm t).2 := by
  by_cases hp : ∃ c a t, p = .signed c a t
  · obtain ⟨c, a, t, rfl⟩ := hp
    refine .inr ⟨c, a, t, rfl, ?_⟩
    rcases stepAt_signed o c a t l with ⟨sig, hv, -⟩ | ⟨e, he⟩
    · rw [hv]
    · rw [he]
  · exact .inl (stepAt_keeps (fun c a t he => hp ⟨c, a, t, he⟩) o l)

end Order

namespace World

variable {w : World} {i : Nat}

theorem advance_eq {o : Order} {p : Phase} (h : w.sessions[i]? = some (o, p)) :
    w.advance i = ⟨(o.stepAt p w.ledger).2, w.sessions.set i (o, (o.stepAt p w.ledger).1)⟩ := by
  simp only [advance, h]

theorem advance_of_none (h : w.sessions[i]? = none) : w.advance i = w := by
  simp only [advance, h]

theorem run_append (w : World) (xs ys : List Nat) : w.run (xs ++ ys) = (w.run xs).run ys := by
  induction xs generalizing w with
  | nil => rfl
  | cons i is ih => exact ih (w.advance i)

/-- Only the flow that steps moves; each keeps its order. -/
theorem advance_sessions_ne {j : Nat} (hij : i ≠ j) :
    (w.advance i).sessions[j]? = w.sessions[j]? := by
  rcases h : w.sessions[i]? with _ | ⟨o, p⟩
  · rw [advance_of_none h]
  · rw [advance_eq h]
    exact List.getElem?_set_ne hij

theorem advance_sessions_self {o : Order} {p : Phase} (h : w.sessions[i]? = some (o, p)) :
    (w.advance i).sessions[i]? = some (o, (o.stepAt p w.ledger).1) := by
  have hlt : i < w.sessions.length := (List.getElem?_eq_some_iff.1 h).1
  rw [advance_eq h]
  exact List.getElem?_set_self hlt

/-- A flow's phase after its own step is where its step from its phase before took it. -/
theorem advance_sessions_of_eq_some {o : Order} {p' : Phase}
    (h : (w.advance i).sessions[i]? = some (o, p')) :
    ∃ p, w.sessions[i]? = some (o, p) ∧ (o.stepAt p w.ledger).1 = p' := by
  rcases hp : w.sessions[i]? with _ | ⟨o', p⟩
  · rw [advance_of_none hp, hp] at h
    cases h
  · rw [advance_sessions_self hp, Option.some.injEq, Prod.mk.injEq] at h
    obtain ⟨rfl, hstep⟩ := h
    exact ⟨p, rfl, hstep⟩

end World

end Client

end TokenBridge
