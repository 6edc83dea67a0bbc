import TokenBridge.Proofs.Handlers
import TokenBridge.Proofs.Commit
import TokenBridge.Proofs.CommandCodec
/-!
The index of a route moves on by one with each transfer logged through it.

A call is one instruction as the ledger ran it, with the lines it wrote. For one call and one route
(`Ran.bridge`, `Ran.create`, `Ran.allocates`, `Ran.indexAt_eq`): a bridge-out on the route moves
its index on by one and logs that index; a create sets it to 0, and goes through only on a route
not yet initialized; the system program can make the route's account anew, but only once the
account holds no lamports; and every other call leaves the index. Of all the lines a call adds to
the log, only a bridge-out's own line reads as a transfer (`Ran.parse_ne_none`).

A `Trace` is a list of calls run one after another. The calls of the committed submissions,
computed from the transactions (`submittedCalls`), make one (`submitAll_trace`), and each of them
is an instruction of one of the transactions (`mem_submittedCalls`). Along a trace with no create
on the route and no making of its account anew, the transfers logged through the route carry
consecutive indexes (`Trace.bridge_indexes`, by induction on the trace). The first exception is
by design: a route account that the program owns but has not initialized may hold any index, and a
create there starts it again at 0 (`create_resets_route_index`).
-/

namespace TokenBridge

namespace Ledger

open BridgeProgram

/-! ### One call -/

/-- One instruction as the ledger ran it: its program, the accounts it named with whether each
signed, its data, and the lines it wrote. -/
structure Call where
  program : Address
  accounts : List Invoked
  data : Bytes
  written : List String

/-- The call ran from `s` to `s'` and wrote its lines. -/
def Ran (l : Ledger) (c : Call) (s s' : State) : Prop :=
  (l.execute c.program c.accounts c.data).run s = .ok (c.written, s')

/-- The kind of bridge command a call runs, if it runs one. -/
def commandTag? (l : Ledger) (c : Call) : Option Tag :=
  if c.program = l.program then (Command.unpack c.data).toOption.map Command.tag else none

/-- The call runs a bridge command of kind `tag` on the route at `key`, the first account it
names. -/
def commandOn (l : Ledger) (tag : Tag) (key : Address) (c : Call) : Bool :=
  l.commandTag? c == some tag && (c.accounts[0]?).map Invoked.key == some key

/-- The call makes the account at `key` through the system program. -/
def allocates (l : Ledger) (key : Address) (c : Call) : Bool :=
  c.program != l.program && c.program == Address.systemProgram && allocatesAt c.accounts c.data key

/-- The index of the route that the bridge program keeps at `key`. -/
def indexAt (l : Ledger) (s : State) (key : Address) : Option Nat :=
  (routeAt l.program s key).map (·.index.toNat)

variable {l : Ledger} {c : Call} {s s' : State} {key : Address}

/-- A call runs the bridge program, or the system program, or else it is the token program's and
moves no lamports and writes no data; only the bridge program writes lines. -/
theorem Ran.cases (h : l.Ran c s s') :
    (c.program = l.program ∧ (process l.program c.accounts c.data).run s = .ok (c.written, s')) ∨
    (c.program ≠ l.program ∧ c.program = Address.systemProgram ∧ c.written = [] ∧
      ∃ u, (processSystem c.accounts c.data).run s = .ok (u, s')) ∨
    (c.program ≠ l.program ∧ c.program ≠ Address.systemProgram ∧ c.written = [] ∧
      s'.accounts = s.accounts) := by
  unfold Ran execute at h
  by_cases hp : c.program = l.program
  · rw [if_pos (by simpa using hp)] at h
    exact .inl ⟨hp, h⟩
  rw [if_neg (by simpa using hp)] at h
  by_cases hs : c.program = Address.systemProgram
  · rw [if_pos (by simpa using hs)] at h
    obtain ⟨u, s₁, hsys, hpure⟩ := bind_run_eq_ok.1 h
    obtain ⟨hw, rfl⟩ := pure_run_eq_ok.1 hpure
    exact .inr (.inl ⟨hp, hs, hw.symm, u, hsys⟩)
  rw [if_neg (by simpa using hs)] at h
  split at h
  · obtain ⟨u, s₁, htok, hpure⟩ := bind_run_eq_ok.1 h
    obtain ⟨hw, rfl⟩ := pure_run_eq_ok.1 hpure
    exact .inr (.inr ⟨hp, hs, hw.symm, processToken_keeps _ _ _ _ _ htok⟩)
  · exact absurd h fail_run_ne_ok

theorem commandTag?_eq {cmd : Command} (hp : c.program = l.program)
    (hcmd : Command.unpack c.data = .ok cmd) : l.commandTag? c = some cmd.tag := by
  simp [commandTag?, hp, hcmd, Except.toOption]

theorem commandTag?_of_ne (hp : c.program ≠ l.program) : l.commandTag? c = none := by
  simp [commandTag?, hp]

/-- A call that runs a bridge command ran the bridge program. -/
theorem Ran.process_of_commandTag {tag : Tag} (h : l.Ran c s s')
    (htag : l.commandTag? c = some tag) :
    c.program = l.program ∧ (process l.program c.accounts c.data).run s = .ok (c.written, s') := by
  rcases h.cases with h | ⟨hp, -⟩ | ⟨hp, -⟩
  · exact h
  all_goals
    rw [commandTag?_of_ne hp] at htag
    cases htag

theorem key_ne_of_commandOn {tag : Tag} (htag : l.commandTag? c = some tag)
    (h : l.commandOn tag key c = false) : (c.accounts[0]?).map Invoked.key ≠ some key := by
  simpa [commandOn, htag] using h

/-- A bridge-out on the route at `key` writes one line, which reads back as the transfer it made. -/
theorem Ran.bridge (h : l.Ran c s s') (hb : l.commandOn .bridge key c = true) :
    ∃ amount recipient payload log,
      Command.unpack c.data = .ok (.bridge amount recipient payload) ∧
      c.written = [logLine (LogLine.ofLog log)] ∧
      LogLine.parse (logLine (LogLine.ofLog log)) = some (.ok log) ∧
      log.amount = amount ∧ log.recipient = recipient ∧ log.payload = payload ∧
      BridgedOut l.program key c.accounts s s' log := by
  simp only [commandOn, Bool.and_eq_true, beq_iff_eq] at hb
  obtain ⟨htag, hkey⟩ := hb
  obtain ⟨hp, h⟩ := h.process_of_commandTag htag
  obtain ⟨cmd, hcmd, hspec⟩ := process_cases h
  rw [commandTag?_eq hp hcmd] at htag
  cases cmd with
  | bridge amount recipient payload =>
    obtain ⟨routeKey, log, h0, hw, hamt, hrec, hpay, hout⟩ := hspec
    obtain rfl : routeKey = key := Option.some.inj (h0.symm.trans hkey)
    -- the command unpacked, so its recipient and payload fit the lengths the log writes
    have hfit := (Command.unpack_eq_ok_iff.1 hcmd).1
    have hlog : log.Fits := by
      rw [TransferLog.Fits, hrec, hpay]
      exact hfit
    exact ⟨amount, recipient, payload, log, hcmd, hw, LogLine.parse_logLine_ofLog hlog, hamt, hrec,
      hpay, hout⟩
  | _ => cases htag

/-- A create on the route at `key` goes through only on a route not yet initialized, and leaves it
at index 0. -/
theorem Ran.create (h : l.Ran c s s') (hc : l.commandOn .create key c = true) :
    (∃ r, routeAt l.program s key = some r ∧ r.initialized = false) ∧ l.indexAt s' key = some 0 := by
  simp only [commandOn, Bool.and_eq_true, beq_iff_eq] at hc
  obtain ⟨htag, hkey⟩ := hc
  obtain ⟨hp, h⟩ := h.process_of_commandTag htag
  obtain ⟨cmd, hcmd, hspec⟩ := process_cases h
  rw [commandTag?_eq hp hcmd] at htag
  cases cmd with
  | create destination max min =>
    obtain ⟨-, routeKey, existing, route, h0, hat, hinit, hat', -, hzero, -⟩ := hspec
    obtain rfl : routeKey = key := Option.some.inj (h0.symm.trans hkey)
    exact ⟨⟨existing, hat, hinit⟩, by simp [indexAt, hat', hzero]⟩
  | _ => cases htag

/-- The system program makes the account at `key` only while it holds no lamports. -/
theorem Ran.allocates (h : l.Ran c s s') (ha : l.allocates key c = true) : balance s key = 0 := by
  simp only [Ledger.allocates, Bool.and_eq_true, bne_iff_ne, ne_eq, beq_iff_eq] at ha
  obtain ⟨⟨hp, hs⟩, hal⟩ := ha
  rcases h.cases with ⟨hp', -⟩ | ⟨-, -, -, u, h⟩ | ⟨-, hs', -⟩
  · exact absurd hp' hp
  · exact (processSystem_spec l.program h key).1 hal
  · exact absurd hs hs'

/-- A call that is neither a bridge-out nor a create on the route at `key`, and does not make that
account anew, leaves the route's index as it was. -/
theorem Ran.indexAt_eq (h : l.Ran c s s') (hb : l.commandOn .bridge key c = false)
    (hc : l.commandOn .create key c = false) (ha : l.allocates key c = false) :
    l.indexAt s' key = l.indexAt s key := by
  unfold indexAt
  rcases h.cases with ⟨hp, h⟩ | ⟨hp, hs, -, u, h⟩ | ⟨-, -, -, hkeep⟩
  · obtain ⟨cmd, hcmd, hspec⟩ := process_cases h
    have htag := commandTag?_eq hp hcmd
    cases cmd with
    | bridge amount recipient payload =>
      -- a bridge-out on another route leaves this one
      obtain ⟨routeKey, log, h0, -, -, -, -, _, _, -, -, -, -, -, -, -, hframe, -⟩ := hspec
      have hne : routeKey ≠ key := fun he => key_ne_of_commandOn htag hb (he ▸ h0)
      rw [hframe key (Ne.symm hne)]
    | create destination max min =>
      obtain ⟨-, routeKey, -, -, h0, -, -, -, -, -, hframe⟩ := hspec
      have hne : routeKey ≠ key := fun he => key_ne_of_commandOn htag hc (he ▸ h0)
      rw [hframe key (Ne.symm hne)]
    | changeLimit max min =>
      obtain ⟨-, routeKey, route, -, hat, hat', hframe⟩ := hspec
      by_cases hk : key = routeKey
      · subst hk
        rw [hat, hat']
        rfl
      · rw [hframe key hk]
    | _ => rw [hspec.1]
  · have hal : allocatesAt c.accounts c.data key = false := by
      have hsp : Address.systemProgram ≠ l.program := hs ▸ hp
      simpa [Ledger.allocates, hs, hsp] using ha
    rw [(processSystem_spec l.program h key).2 hal]
  · rw [routeAt_of_accounts hkeep]

/-- Only a bridge-out writes a line that reads as a transfer: the lines around every call, and
every line of any other call, read as nothing. -/
theorem Ran.parse_eq_none (h : l.Ran c s s') (hb : l.commandTag? c ≠ some .bridge) :
    ∀ line ∈ framed c.program c.written, LogLine.parse line = none := by
  have hwritten : ∀ line ∈ c.written, LogLine.parse line = none := by
    rcases h.cases with ⟨hp, h⟩ | ⟨-, -, hw, -⟩ | ⟨-, -, hw, -⟩
    · obtain ⟨cmd, hcmd, hspec⟩ := process_cases h
      rw [commandTag?_eq hp hcmd] at hb
      cases cmd with
      | bridge amount recipient payload => exact absurd rfl hb
      | create destination max min => simp [hspec.1]
      | changeLimit max min => simp [hspec.1]
      | _ => exact hspec.2
    · simp [hw]
    · simp [hw]
  intro line hline
  simp only [framed, List.mem_append, List.mem_singleton] at hline
  rcases hline with (rfl | hline) | rfl
  · exact LogLine.parse_invoke c.program
  · exact hwritten line hline
  · exact LogLine.parse_success c.program

/-- A line of a call reads as a transfer only when the call is a bridge-out, and then that line is
all the call wrote. -/
theorem Ran.parse_ne_none (h : l.Ran c s s') :
    ∀ line ∈ framed c.program c.written, LogLine.parse line ≠ none →
      l.commandTag? c = some .bridge ∧ c.written = [line] := by
  intro line hline hparse
  by_cases hb : l.commandTag? c = some .bridge
  · refine ⟨hb, ?_⟩
    obtain ⟨hp, h⟩ := h.process_of_commandTag hb
    obtain ⟨cmd, hcmd, hspec⟩ := process_cases h
    rw [commandTag?_eq hp hcmd] at hb
    cases cmd with
    | bridge amount recipient payload =>
      obtain ⟨-, log, -, hw, -⟩ := hspec
      -- the framing lines read as nothing, so the line is the one the bridge-out wrote
      simp only [framed, hw, List.mem_append, List.mem_singleton] at hline
      rcases hline with (rfl | rfl) | rfl
      · exact absurd (LogLine.parse_invoke c.program) hparse
      · exact hw
      · exact absurd (LogLine.parse_success c.program) hparse
    | _ => cases hb
  · exact absurd (h.parse_eq_none hb line hline) hparse

/-! ### Runs of calls -/

/-- The calls `cs` ran one after another from `s` and ended in `s'`. -/
inductive Trace (l : Ledger) : State → List Call → State → Prop
  | nil (s : State) : Trace l s [] s
  | cons {c : Call} {cs : List Call} {s s₁ s' : State} :
      l.Ran c s s₁ → Trace l s₁ cs s' → Trace l s (c :: cs) s'

theorem Trace.append {cs ds : List Call} {s₁ : State} (h₁ : l.Trace s cs s₁)
    (h₂ : l.Trace s₁ ds s') : l.Trace s (cs ++ ds) s' := by
  induction h₁ with
  | nil => exact h₂
  | cons hc _ ih => exact .cons hc (ih h₂)

/-- Traces depend on the ledger only through the programs it runs. -/
theorem Trace.congr {l₁ : Ledger} {cs : List Call} (h : l₁.Trace s cs s') (l₂ : Ledger)
    (hp : l₁.program = l₂.program) (ht : l₁.tokenProgram = l₂.tokenProgram) :
    l₂.Trace s cs s' := by
  induction h with
  | nil s => exact .nil s
  | cons hc _ ih => exact .cons (by unfold Ran; rw [← execute_congr hp ht]; exact hc) ih

/-- The calls a message's instructions make, run in order from `s`, up to the first that does not
resolve or fails. -/
def callsFrom (l : Ledger) (m : Message) : List CompiledInstruction → State → List Call
  | [], _ => []
  | ix :: rest, s =>
    match resolve? m ix with
    | none => []
    | some (program, accounts) =>
      match (l.execute program accounts ix.data).run s with
      | .ok (written, s') => ⟨program, accounts, ix.data, written⟩ :: l.callsFrom m rest s'
      | .error _ => []

theorem callsFrom_cons_of_ok {m : Message} {ix : CompiledInstruction}
    {rest : List CompiledInstruction} {written : List String} (hin : InRange m ix)
    (hx : (l.execute (programOf m ix) (accountsOf m ix) ix.data).run s = .ok (written, s')) :
    l.callsFrom m (ix :: rest) s =
      ⟨programOf m ix, accountsOf m ix, ix.data, written⟩ :: l.callsFrom m rest s' := by
  simp only [callsFrom, resolve?_of_inRange hin, hx]

/-- Every call of a message is one of its instructions, resolved against its keys. -/
theorem mem_callsFrom {m : Message} {ixs : List CompiledInstruction} (h : c ∈ l.callsFrom m ixs s) :
    ∃ ix ∈ ixs, resolve? m ix = some (c.program, c.accounts) ∧ c.data = ix.data := by
  induction ixs generalizing s with
  | nil => simp [callsFrom] at h
  | cons ix rest ih =>
    unfold callsFrom at h
    split at h
    · simp at h
    · rename_i program accounts hres
      split at h
      · rcases List.mem_cons.1 h with rfl | h
        · exact ⟨ix, List.mem_cons_self, hres, rfl⟩
        · obtain ⟨ix', hix', hr, hd⟩ := ih h
          exact ⟨ix', List.mem_cons_of_mem _ hix', hr, hd⟩
      · simp at h

/-- A run of a message's instructions is a trace of the calls they make, and its lines are
theirs, each framed. -/
theorem Runs.trace {m : Message} {ixs : List CompiledInstruction} {lines : List String}
    (h : Runs l m ixs s s' lines) :
    l.Trace s (l.callsFrom m ixs s) s' ∧
      lines = (l.callsFrom m ixs s).flatMap fun c => framed c.program c.written := by
  induction h with
  | nil s => exact ⟨.nil s, rfl⟩
  | @cons ix _ _ _ _ written _ hin hx _ ih =>
    rw [callsFrom_cons_of_ok hin hx, List.flatMap_cons, ← ih.2]
    exact ⟨.cons hx ih.1, rfl⟩

/-- Submits transactions one after another: the verdicts, and the ledger at the end. -/
def submitAll (l : Ledger) : List Transaction → List Verdict × Ledger
  | [] => ([], l)
  | t :: ts =>
    let r := l.sendAndConfirm t
    let rest := r.2.submitAll ts
    (r.1 :: rest.1, rest.2)

/-- The calls a submission commits: those of its instructions when it is committed, and none
otherwise. -/
def committedCalls (l : Ledger) (t : Transaction) : List Call :=
  match (l.sendAndConfirm t).1 with
  | .committed _ => l.callsFrom t.message t.message.instructions l.state
  | _ => []

/-- The calls that transactions submitted in turn commit, in order. -/
def submittedCalls (l : Ledger) : List Transaction → List Call
  | [] => []
  | t :: ts => l.committedCalls t ++ (l.sendAndConfirm t).2.submittedCalls ts

/-- Every committed call is an instruction of one of the submitted transactions, resolved against
its message's keys. -/
theorem mem_submittedCalls {ts : List Transaction} (h : c ∈ l.submittedCalls ts) :
    ∃ t ∈ ts, ∃ ix ∈ t.message.instructions,
      resolve? t.message ix = some (c.program, c.accounts) ∧ c.data = ix.data := by
  induction ts generalizing l with
  | nil => simp [submittedCalls] at h
  | cons t ts ih =>
    rcases List.mem_append.1 h with h | h
    · unfold committedCalls at h
      split at h
      · exact ⟨t, List.mem_cons_self, mem_callsFrom h⟩
      · simp at h
    · obtain ⟨t', ht', hix⟩ := ih h
      exact ⟨t', List.mem_cons_of_mem _ ht', hix⟩

/-- A submission commits the calls of its instructions, or nothing; its programs stay, and the
lines it adds to the logs are those of the calls, framed. -/
theorem sendAndConfirm_trace (l : Ledger) (t : Transaction) :
    l.Trace l.state (l.committedCalls t) (l.sendAndConfirm t).2.state ∧
      (l.sendAndConfirm t).2.program = l.program ∧
      (l.sendAndConfirm t).2.tokenProgram = l.tokenProgram ∧
      ∃ new, (l.sendAndConfirm t).2.logs = l.logs ++ new ∧
        new.flatMap Prod.snd = (l.committedCalls t).flatMap fun c => framed c.program c.written := by
  rcases sendAndConfirm_cases l t with ⟨v, hv, hnot⟩ | ⟨s, lines, hc, -, hrun⟩
  · have hcalls : l.committedCalls t = [] := by
      unfold committedCalls
      rw [hv]
      cases v with
      | committed sig => exact absurd rfl (hnot sig)
      | refused e => rfl
      | aborted => rfl
    rw [hcalls, hv]
    exact ⟨.nil _, rfl, rfl, [], by simp, rfl⟩
  · have hcalls : l.committedCalls t = l.callsFrom t.message t.message.instructions l.state := by
      unfold committedCalls
      rw [hc]
    rw [hcalls, hc]
    obtain ⟨more, hruns, rfl⟩ := (runFrom_eq_ok_iff _ _ _ _ _ _).1 hrun
    obtain ⟨htr, hlines⟩ := (hruns.congr l rfl rfl).trace
    exact ⟨htr, rfl, rfl, _, rfl, by simp [hlines]⟩

/-- Submitting transactions in turn commits their calls in order: a trace from the first state to
the last, whose framed lines are what the logs gain. -/
theorem submitAll_trace (l : Ledger) (ts : List Transaction) :
    l.Trace l.state (l.submittedCalls ts) (l.submitAll ts).2.state ∧
      ∃ new, (l.submitAll ts).2.logs = l.logs ++ new ∧
        new.flatMap Prod.snd = (l.submittedCalls ts).flatMap fun c => framed c.program c.written := by
  induction ts generalizing l with
  | nil => exact ⟨.nil _, [], by simp [submitAll], rfl⟩
  | cons t ts ih =>
    obtain ⟨htr₁, hp, ht, new₁, hlogs₁, hnew₁⟩ := sendAndConfirm_trace l t
    obtain ⟨htr₂, new₂, hlogs₂, hnew₂⟩ := ih (l.sendAndConfirm t).2
    refine ⟨htr₁.append (htr₂.congr l hp ht), new₁ ++ new₂, ?_, ?_⟩
    · simp only [submitAll, hlogs₂, hlogs₁, List.append_assoc]
    · simp [submittedCalls, hnew₁, hnew₂]

/-! ### The index law -/

/-- A bridge-out moves the route's index on by one, to the index it logs. -/
theorem indexAt_of_bridgedOut {accounts : List Invoked} {log : TransferLog}
    (h : BridgedOut l.program key accounts s s' log) :
    ∃ i, l.indexAt s key = some i ∧ log.index.toNat = i + 1 ∧ l.indexAt s' key = some (i + 1) := by
  obtain ⟨route, -, hat, -, -, -, hlt, hidx, hat', -⟩ := h
  have hsucc : log.index.toNat = route.index.toNat + 1 := by
    rw [hidx, UInt64.toNat_add, UInt64.toNat_one]
    exact Nat.mod_eq_of_lt hlt
  exact ⟨route.index.toNat, by simp [indexAt, hat], hsucc, by simp [indexAt, hat', hsucc]⟩

/-- Along calls with no create on the route at `key` and no making of its account anew, the
bridge-outs on it wrote one line each, which reads back as its transfer, and these transfers carry
the indexes after the route's first one, each once and in order, up to its last. -/
theorem Trace.bridge_indexes {cs : List Call} (ht : l.Trace s cs s')
    (hno : ∀ c ∈ cs, l.commandOn .create key c = false ∧ l.allocates key c = false) :
    ∃ logs : List TransferLog,
      (cs.filter (l.commandOn .bridge key)).map Call.written =
        logs.map (fun g => [logLine (LogLine.ofLog g)]) ∧
      (∀ g ∈ logs, LogLine.parse (logLine (LogLine.ofLog g)) = some (.ok g)) ∧
      (l.indexAt s key = none → logs = [] ∧ l.indexAt s' key = none) ∧
      ∀ i, l.indexAt s key = some i →
        logs.map (·.index.toNat) = List.range' (i + 1) logs.length ∧
        l.indexAt s' key = some (i + logs.length) := by
  induction ht with
  | nil s =>
    exact ⟨[], rfl, nofun, fun h => ⟨rfl, h⟩, fun i h => ⟨rfl, h⟩⟩
  | @cons c cs s s₁ s' hc _ ih =>
    obtain ⟨hcreate, halloc⟩ := hno c List.mem_cons_self
    obtain ⟨logs, hw, hparse, hnone, hsome⟩ := ih fun d hd => hno d (List.mem_cons_of_mem c hd)
    cases hb : l.commandOn .bridge key c
    · -- any other call leaves the index, and logs nothing for this route
      have hidx := hc.indexAt_eq hb hcreate halloc
      refine ⟨logs, by simpa [List.filter_cons, hb] using hw, hparse, fun h => hnone (hidx ▸ h),
        fun i h => hsome i (hidx ▸ h)⟩
    · -- a bridge-out logs the next index and moves the route on to it
      obtain ⟨-, -, -, log, -, hwc, hp, -, -, -, hout⟩ := hc.bridge hb
      obtain ⟨j, hj, hlog, hj'⟩ := indexAt_of_bridgedOut hout
      obtain ⟨hrange, hend⟩ := hsome (j + 1) hj'
      refine ⟨log :: logs, by simp [hb, hwc, hw], ?_, ?_, fun i h => ?_⟩
      · intro g hg
        rcases List.mem_cons.1 hg with rfl | hg
        · exact hp
        · exact hparse g hg
      · intro h
        rw [hj] at h
        cases h
      · rw [hj] at h
        cases h
        have hlen : j + 1 + logs.length = j + (logs.length + 1) := by omega
        constructor
        · rw [List.map_cons, List.length_cons, List.range'_succ, hlog, hrange]
        · rw [hend, List.length_cons, hlen]

/-- The index law of a route: each call moves the route's index only as its command says, and
over submitted transactions with no create on the route, the transfers logged through it carry the
indexes after its first one, in order. -/
theorem route_index_law :
    (∀ (l : Ledger) (c : Call) (s s' : State) (key : Address), l.Ran c s s' →
      (l.commandOn .bridge key c = true → ∃ amount recipient payload log,
        Command.unpack c.data = .ok (.bridge amount recipient payload) ∧
        c.written = [logLine (LogLine.ofLog log)] ∧
        LogLine.parse (logLine (LogLine.ofLog log)) = some (.ok log) ∧
        log.amount = amount ∧ log.recipient = recipient ∧ log.payload = payload ∧
        BridgedOut l.program key c.accounts s s' log) ∧
      (l.commandOn .create key c = true →
        (∃ r, routeAt l.program s key = some r ∧ r.initialized = false) ∧
        l.indexAt s' key = some 0) ∧
      (l.allocates key c = true → balance s key = 0) ∧
      (l.commandOn .bridge key c = false → l.commandOn .create key c = false →
        l.allocates key c = false → l.indexAt s' key = l.indexAt s key) ∧
      ∀ line ∈ framed c.program c.written, LogLine.parse line ≠ none →
        l.commandTag? c = some .bridge ∧ c.written = [line]) ∧
    (∀ (l : Ledger) (ts : List Transaction) (key : Address),
      l.Trace l.state (l.submittedCalls ts) (l.submitAll ts).2.state ∧
      (∀ c ∈ l.submittedCalls ts, ∃ t ∈ ts, ∃ ix ∈ t.message.instructions,
        resolve? t.message ix = some (c.program, c.accounts) ∧ c.data = ix.data) ∧
      (∃ new, (l.submitAll ts).2.logs = l.logs ++ new ∧
        new.flatMap Prod.snd = (l.submittedCalls ts).flatMap fun c => framed c.program c.written) ∧
      ((∀ c ∈ l.submittedCalls ts, l.commandOn .create key c = false ∧ l.allocates key c = false) →
        ∃ logs : List TransferLog,
          ((l.submittedCalls ts).filter (l.commandOn .bridge key)).map Call.written =
            logs.map (fun g => [logLine (LogLine.ofLog g)]) ∧
          (∀ g ∈ logs, LogLine.parse (logLine (LogLine.ofLog g)) = some (.ok g)) ∧
          (l.indexAt l.state key = none → logs = [] ∧ l.indexAt (l.submitAll ts).2.state key = none) ∧
          ∀ i, l.indexAt l.state key = some i →
            logs.map (·.index.toNat) = List.range' (i + 1) logs.length ∧
            l.indexAt (l.submitAll ts).2.state key = some (i + logs.length))) := by
  refine ⟨fun l c s s' key h => ⟨h.bridge, h.create, h.allocates, h.indexAt_eq, h.parse_ne_none⟩,
    fun l ts key => ?_⟩
  obtain ⟨htr, hlogs⟩ := submitAll_trace l ts
  exact ⟨htr, fun _ hc => mem_submittedCalls hc, hlogs, htr.bridge_indexes⟩

/-! ### A create resets an index

A route account the program owns but has not initialized may carry any index. Creating the route
there sets the index to 0, so a create is a call other than a bridge-out that changes a route's
index. -/

/-- The program. -/
def staleProgram : Address := Address.ofBytes [9]

/-- The key of the route. -/
def staleRoute : Address := Address.ofBytes [4]

/-- The key of the route's config. -/
def staleConfig : Address := Address.ofBytes [2]

/-- The key of the route's mint. -/
def staleMint : Address := Address.ofBytes [3]

/-- The owner of the config. -/
def staleOwner : Address := Address.ofBytes [6]

/-- The program address of the route's key, which holds the mint's authority. -/
def staleAuthority : Address :=
  ((Address.findProgramAddress [staleRoute.bytes] staleProgram).map Prod.fst).getD Address.zero

/-- An uninitialized route at index 5 and a config, both the program's, and the route's mint. -/
def staleState : State where
  accounts := (({} : Table Account).set staleRoute ⟨1000, staleProgram,
      Route.encode ⟨false, 0, Address.zero, Address.zero, Address.zero, Address.zero, 0, 5, 0, 0⟩⟩).set
    staleConfig ⟨1000, staleProgram, Config.encode ⟨true, staleOwner, staleOwner, 0, staleOwner⟩⟩
  mints := ({} : Table Mint).set staleMint ⟨some staleAuthority, 0, 0⟩

/-- A create of a home-chain route at the stale route, signed by the config's owner. -/
def staleCreate : Call where
  program := staleProgram
  accounts := [⟨staleRoute, false⟩, ⟨staleAuthority, false⟩, ⟨staleMint, false⟩,
    ⟨Address.ofBytes [7], false⟩, ⟨Address.ofBytes [5], false⟩, ⟨staleOwner, true⟩,
    ⟨staleConfig, false⟩]
  data := (Command.create 0 1000 1).pack
  written := []

/-- Not every call but a bridge-out leaves a route's index: the create above moves it from 5
to 0. -/
theorem create_resets_route_index :
    ¬ ∀ (l : Ledger) (c : Call) (s s' : State) (key : Address), l.Ran c s s' →
      l.commandOn .bridge key c = false → l.indexAt s' key = l.indexAt s key := by
  intro hall
  let l : Ledger := { program := staleProgram }
  have hrun : ((l.execute staleCreate.program staleCreate.accounts staleCreate.data).run
      staleState).toOption.map (fun p => (p.1, l.indexAt p.2 staleRoute)) = some ([], some 0) := by
    decide +kernel
  have hbefore : l.indexAt staleState staleRoute = some 5 := by decide +kernel
  cases hx : (l.execute staleCreate.program staleCreate.accounts staleCreate.data).run staleState with
  | error e =>
    rw [hx] at hrun
    cases hrun
  | ok p =>
    obtain ⟨written, s'⟩ := p
    rw [hx] at hrun
    obtain ⟨rfl, hafter⟩ := Prod.mk.inj (Option.some.inj hrun)
    have := hall l staleCreate staleState s' staleRoute hx (by decide +kernel)
    rw [hafter, hbefore] at this
    exact absurd this (by decide)

end Ledger

end TokenBridge
