import TokenBridge.Relay.Sequencer
import TokenBridge.Proofs.RouteLimits
import TokenBridge.Proofs.LogReading
/-!
The relayer's sequencer against the ledger's routes.

The ledger numbers transfers per route account; the relayer's sequencer numbers them per token
and destination chain (`RouteKey`). The two agree when no two route accounts that bridge out share
a token and destination, and no route account that bridged out is created or made anew later: then
a fresh sequencer fed the transfers of the committed transactions, in order, accepts every one,
and its last index on each route's key is the route's index (`relayer_sequencing_agrees`). The
proof carries an invariant along the calls (`Agrees`): each route account that bridged out holds a
route whose key's last index is the route's index, every other route is at index 0, and the
sequencer has an index only on keys that transfers carried. Nothing in the ledger keeps two
routes of one token and destination apart, and two such routes bridging out log the same index
twice, which the sequencer refuses (`Sequencer.repeat_refused`, `twin_routes_stale`).
-/

namespace TokenBridge

/-- The key under which the relayer sequences a route's transfers. -/
def Route.key (r : Route) : RouteKey := ⟨r.mint, r.destination⟩

/-- The relayer route a transfer travels on. -/
def TransferLog.routeKey (g : TransferLog) : RouteKey := ⟨g.token, g.destination⟩

/-- Zeros read as a route at index 0: a route's record is of one length, and its zeros decode to
index 0. -/
theorem Route.index_of_zeros {n : Nat} {r : Route} (h : Route.decode (List.replicate n 0) = .ok r) :
    r.index = 0 := by
  by_cases hn : n = Route.size
  · subst hn
    have hzero : (Route.decode (List.replicate Route.size 0)).toOption.map Route.index = some 0 := by
      decide +kernel
    rw [h] at hzero
    exact Option.some.inj hzero
  · have hlen := Route.decode_toOption_of_length (show (List.replicate n 0).length ≠ Route.size by
      simpa using hn)
    rw [h] at hlen
    cases hlen

theorem Table.mem_of_get? {α : Type} {t : Table α} {k : Address} {v : α} (h : t.get? k = some v) :
    (k, v) ∈ t.entries := by
  obtain ⟨es⟩ := t
  unfold Table.get? at h
  dsimp only at h ⊢
  induction es with
  | nil => cases h
  | cons e es ih =>
    obtain ⟨k', v'⟩ := e
    by_cases hk : k = k'
    · subst hk
      simp only [List.lookup_cons, beq_self_eq_true, Option.some.injEq] at h
      simp [h]
    · simp only [List.lookup_cons, beq_false_of_ne hk] at h
      exact List.mem_cons_of_mem _ (ih h)

/-- A state's routes are all at index 0 when every account the program owns reads as no route or as
one at index 0: a check of the accounts that runs. -/
theorem routeAt_index_zero {program : Address} {s : State}
    (h : s.accounts.entries.all fun e =>
      e.2.owner != program || ((Route.decode e.2.data).toOption.map Route.index).getD 0 == 0) :
    ∀ R r, routeAt program s R = some r → r.index = 0 := by
  intro R r hr
  obtain ⟨a, ha, ho, hd⟩ := routeAt_eq_some.1 hr
  have hcheck := List.all_eq_true.1 h _ (Table.mem_of_get? ha)
  simpa [ho, hd, Except.toOption] using hcheck

/-! ### The sequencer -/

namespace Sequencer

variable {seq : Sequencer} {k k' : RouteKey} {n : UInt64}

@[simp] theorem lastIndex_empty : ({} : Sequencer).lastIndex k = 0 := rfl

@[simp] theorem lastIndex_resume_self : (seq.resume k n).lastIndex k = n := by
  simp [lastIndex, resume]

theorem lastIndex_resume_of_ne (h : k' ≠ k) : (seq.resume k n).lastIndex k' = seq.lastIndex k' := by
  simp only [lastIndex, resume, List.lookup_cons, beq_false_of_ne h]
  congr 1
  -- the filter drops only the entry of `k`, which is not the one looked up
  induction seq.last with
  | nil => rfl
  | cons e es ih =>
    obtain ⟨k₁, m⟩ := e
    by_cases hk : k₁ = k
    · subst hk
      simp [ih, List.lookup_cons, beq_false_of_ne h]
    · simp [hk, List.lookup_cons, ih]

/-- Below the largest `u64` the index expected next is one more. -/
theorem successor_of_lt (h : n.toNat + 1 < UInt64.size) : successor n = n + 1 := by
  rw [successor, if_neg]
  intro hmax
  rw [hmax] at h
  exact absurd h (by decide)

/-- A transfer whose index is the next on its route is accepted, and becomes the route's last. -/
theorem observe_of_next {g : TransferLog} (h : g.index = successor (seq.lastIndex g.routeKey)) :
    seq.observe g = .ok (seq.resume g.routeKey g.index) := by
  unfold TransferLog.routeKey at h ⊢
  simp only [observe]
  rw [if_pos h]

/-- A transfer whose index is not the next on its route is refused. -/
theorem observe_of_ne {g : TransferLog} (h : g.index ≠ successor (seq.lastIndex g.routeKey)) :
    seq.observe g = .error ⟨g.token, g.destination, successor (seq.lastIndex g.routeKey), g.index⟩ := by
  unfold TransferLog.routeKey at h ⊢
  simp only [observe]
  rw [if_neg h]

/-- What `observe` accepts: exactly a transfer whose index is the next on its route, which becomes
the route's last. -/
theorem observe_eq_ok {g : TransferLog} {seq' : Sequencer} :
    seq.observe g = .ok seq' ↔
      g.index = successor (seq.lastIndex g.routeKey) ∧ seq' = seq.resume g.routeKey g.index := by
  by_cases h : g.index = successor (seq.lastIndex g.routeKey)
  · rw [observe_of_next h]
    simp [h, eq_comm]
  · rw [observe_of_ne h]
    simp [h]

/-- Below the largest `u64`, no route takes one index twice in a row: after a transfer is accepted,
another on its key with the same index is refused. -/
theorem repeat_refused {g g' : TransferLog} (hk : g'.routeKey = g.routeKey) (hi : g'.index = g.index)
    (hlt : g.index.toNat + 1 < UInt64.size) (seq' : Sequencer) :
    [g, g'].foldlM observe seq ≠ .ok seq' := by
  intro h
  rw [List.foldlM_cons] at h
  cases hg : seq.observe g with
  | error e =>
    rw [hg] at h
    cases h
  | ok seq₁ =>
    obtain ⟨-, rfl⟩ := observe_eq_ok.1 hg
    have hne : g.index ≠ g.index + 1 := by
      intro heq
      have htoNat := congrArg UInt64.toNat heq
      rw [UInt64.toNat_add, UInt64.toNat_one, Nat.mod_eq_of_lt hlt] at htoNat
      omega
    have hstale : g'.index ≠ successor ((seq.resume g.routeKey g.index).lastIndex g'.routeKey) := by
      rw [hk, lastIndex_resume_self, successor_of_lt hlt, hi]
      exact hne
    rw [hg] at h
    simp only [bind, Except.bind, List.foldlM_cons, observe_of_ne hstale] at h
    cases h

end Sequencer

namespace LogLine

theorem extract_append {xs ys : List String} {a b : List TransferLog} (hx : extract xs = .ok a)
    (hy : extract ys = .ok b) : extract (xs ++ ys) = .ok (a ++ b) := by
  rw [extract, mapM_id_eq_ok] at hx hy ⊢
  rw [List.filterMap_append, hx, hy, List.map_append]

/-- When all the lines of a run of logs read, so do those of each log, and the transfers of the run
are those of the logs in turn. -/
theorem extract_groups {logs : List (Bytes × List String)} {all : List TransferLog}
    (h : extract (logs.flatMap Prod.snd) = .ok all) :
    ∃ groups, logs.mapM (fun e => extract e.2) = .ok groups ∧ groups.flatten = all := by
  induction logs generalizing all with
  | nil =>
    rw [List.flatMap_nil, extract, mapM_id_eq_ok, List.filterMap_nil] at h
    exact ⟨[], rfl, by cases all with
      | nil => rfl
      | cons g gs => cases h⟩
  | cons e rest ih =>
    rw [List.flatMap_cons, extract, mapM_id_eq_ok, List.filterMap_append] at h
    obtain ⟨first, more, rfl, h₁, h₂⟩ := List.map_eq_append_iff.1 h.symm
    have hfirst : extract e.2 = .ok first := by
      rw [extract, mapM_id_eq_ok]
      exact h₁.symm
    obtain ⟨groups, hg, hflat⟩ := ih (by rw [extract, mapM_id_eq_ok]; exact h₂.symm :
      extract (rest.flatMap Prod.snd) = .ok more)
    refine ⟨first :: groups, ?_, by rw [List.flatten_cons, hflat]⟩
    rw [List.mapM_cons, hfirst, hg]
    rfl

end LogLine

/-! ### What calls log -/

namespace Ledger

open BridgeProgram

/-- The transfers the lines a call wrote carry. -/
def Call.transfers (c : Call) : List TransferLog :=
  c.written.filterMap fun line => (LogLine.parse line).bind Except.toOption

/-- Calls `c` then `d` keep the relayer's routes apart: once `c` bridged out through the route
account at `R`, `d` neither creates a route there nor makes the account anew, and what `d` bridges
out through another route account travels on another relayer route. -/
def KeyedApart (l : Ledger) (c d : Call) : Prop :=
  ∀ R, l.commandOn .bridge R c = true →
    l.commandOn .create R d = false ∧ l.allocates R d = false ∧
    ∀ R', l.commandOn .bridge R' d = true → R' ≠ R →
      ∀ g ∈ c.transfers, ∀ g' ∈ d.transfers, g'.routeKey ≠ g.routeKey

variable {l : Ledger} {c : Call} {s s' : State} {R : Address}

/-- A call runs a bridge command on one route account at most: the one its first account names. -/
theorem commandOn_unique {tag : Tag} {R' : Address} (h : l.commandOn tag R c = true)
    (h' : l.commandOn tag R' c = true) : R' = R := by
  simp only [commandOn, Bool.and_eq_true, beq_iff_eq] at h h'
  exact Option.some.inj (h'.2.symm.trans h.2)

theorem commandOn_eq_false_of_ne {tag : Tag} {R' : Address} (h : l.commandOn tag R c = true)
    (hne : R' ≠ R) : l.commandOn tag R' c = false := by
  cases h' : l.commandOn tag R' c
  · rfl
  · exact absurd (commandOn_unique h h') hne

/-- A bridge-out carries one transfer, the one it made through its route. -/
theorem Ran.transfers_of_bridge (h : l.Ran c s s') (hb : l.commandOn .bridge R c = true) :
    ∃ log, c.transfers = [log] ∧ c.written = [logLine (LogLine.ofLog log)] ∧
      BridgedOut l.program R c.accounts s s' log := by
  obtain ⟨-, -, -, log, -, hw, hp, -, -, -, hout⟩ := h.bridge hb
  exact ⟨log, by simp [Call.transfers, hw, hp, Except.toOption], hw, hout⟩

/-- A call that runs a bridge-out runs it through the route account its first account names. -/
theorem Ran.bridge_on (h : l.Ran c s s') (htag : l.commandTag? c = some .bridge) :
    ∃ R, l.commandOn .bridge R c = true := by
  obtain ⟨hp, h⟩ := h.process_of_commandTag htag
  obtain ⟨cmd, hcmd, hspec⟩ := process_cases h
  rw [commandTag?_eq hp hcmd] at htag
  cases cmd with
  | bridge amount recipient payload =>
    obtain ⟨routeKey, -, h0, -⟩ := hspec
    exact ⟨routeKey, by simp [commandOn, commandTag?_eq hp hcmd, h0, Command.tag]⟩
  | _ => cases htag

/-- A call that bridges out through no route account carries no transfer, and writes no line that
reads as one. -/
theorem Ran.lines_of_no_bridge (h : l.Ran c s s') (hb : ∀ R, l.commandOn .bridge R c = false) :
    ∀ line ∈ framed c.program c.written, LogLine.parse line = none := by
  apply h.parse_eq_none
  intro htag
  obtain ⟨R, hR⟩ := h.bridge_on htag
  rw [hb R] at hR
  cases hR

theorem Ran.transfers_of_no_bridge (h : l.Ran c s s') (hb : ∀ R, l.commandOn .bridge R c = false) :
    c.transfers = [] := by
  have hnone := h.lines_of_no_bridge hb
  rw [Call.transfers, List.filterMap_eq_nil_iff]
  intro line hline
  rw [hnone line (by simp [framed, hline])]
  rfl

/-- Every line of a call reads as nothing or as a transfer, so reading its lines gives its
transfers. -/
theorem Ran.extract_framed (h : l.Ran c s s') :
    LogLine.extract (framed c.program c.written) = .ok c.transfers := by
  rw [LogLine.extract, mapM_id_eq_ok]
  by_cases hb : ∃ R, l.commandOn .bridge R c = true
  · -- a bridge-out's one line reads as its transfer, between lines that read as nothing
    obtain ⟨R, hR⟩ := hb
    obtain ⟨-, -, -, log, -, hw, hp, -⟩ := h.bridge hR
    simp [framed, Call.transfers, hw, hp, LogLine.parse_invoke, LogLine.parse_success,
      Except.toOption]
  · have hb : ∀ R, l.commandOn .bridge R c = false := fun R => by simpa using not_exists.1 hb R
    rw [h.transfers_of_no_bridge hb, List.map_nil, List.filterMap_eq_nil_iff]
    intro line hline
    rw [h.lines_of_no_bridge hb line hline]

/-- A call that neither creates a route at `R` nor makes its account anew leaves a route there
with its token and destination, and with its index unless it bridges out through it. -/
theorem Ran.route_key_kept (h : l.Ran c s s') (hc : l.commandOn .create R c = false)
    (ha : l.allocates R c = false) {r : Route} (hR : routeAt l.program s R = some r) :
    ∃ r', routeAt l.program s' R = some r' ∧ r'.key = r.key ∧
      (l.commandOn .bridge R c = false → r'.index = r.index) := by
  have hsame : routeAt l.program s' R = routeAt l.program s R → ∃ r', routeAt l.program s' R = some r' ∧
      r'.key = r.key ∧ (l.commandOn .bridge R c = false → r'.index = r.index) :=
    fun he => ⟨r, he.trans hR, rfl, fun _ => rfl⟩
  rcases h.cases with ⟨hp, hb⟩ | ⟨hp, hs, -, u, hsys⟩ | ⟨-, -, -, hkeep⟩
  · obtain ⟨cmd, hcmd, hspec⟩ := process_cases hb
    have htag := commandTag?_eq hp hcmd
    cases cmd with
    | bridge amount recipient payload =>
      obtain ⟨routeKey, log, h0, -, -, -, -, route, -, hat, -, -, -, -, -, hat', hframe, -⟩ := hspec
      by_cases hk : R = routeKey
      · -- the bridge-out's own route: only its index moves
        subst hk
        obtain rfl : r = route := Option.some.inj (hR.symm.trans hat)
        refine ⟨_, hat', rfl, fun hb' => absurd hb' ?_⟩
        simp [commandOn, htag, h0, Command.tag]
      · exact hsame (hframe R hk)
    | create destination max min =>
      obtain ⟨-, routeKey, -, -, h0, -, -, -, -, -, hframe⟩ := hspec
      have hne : routeKey ≠ R := fun he => key_ne_of_commandOn htag hc (he ▸ h0)
      exact hsame (hframe R (Ne.symm hne))
    | changeLimit max min =>
      obtain ⟨-, routeKey, route, -, hat, hat', hframe⟩ := hspec
      by_cases hk : R = routeKey
      · subst hk
        obtain rfl : r = route := Option.some.inj (hR.symm.trans hat)
        exact ⟨_, hat', rfl, fun _ => rfl⟩
      · exact hsame (hframe R hk)
    | _ => exact hsame (congrFun hspec.1 R)
  · have hal : allocatesAt c.accounts c.data R = false := by
      have hsp : Address.systemProgram ≠ l.program := hs ▸ hp
      simpa [Ledger.allocates, hs, hsp] using ha
    exact hsame ((processSystem_spec l.program hsys R).2 hal)
  · exact hsame (congrFun (routeAt_of_accounts hkeep) R)

/-- A call that does not bridge out through `R` keeps every route there at index 0 if it found
them so: a create starts a route at 0, and an account made anew holds zeros. -/
theorem Ran.index_zero_kept (h : l.Ran c s s') (hb : l.commandOn .bridge R c = false)
    (h0 : ∀ r, routeAt l.program s R = some r → r.index = 0) :
    ∀ r', routeAt l.program s' R = some r' → r'.index = 0 := by
  intro r' hr'
  cases hc : l.commandOn .create R c
  · cases ha : l.allocates R c
    · -- the index stays what it was
      have hidx := h.indexAt_eq hb hc ha
      simp only [indexAt, hr', Option.map_some] at hidx
      obtain ⟨r, hr, hri⟩ := Option.map_eq_some_iff.1 hidx.symm
      have hr0 := h0 r hr
      rw [hr0, UInt64.toNat_zero] at hri
      exact UInt64.toNat_inj.1 (by rw [← hri, UInt64.toNat_zero])
    · -- the account made anew holds zeros
      simp only [Ledger.allocates, Bool.and_eq_true, bne_iff_ne, ne_eq, beq_iff_eq] at ha
      obtain ⟨⟨hp, hs⟩, hal⟩ := ha
      rcases h.cases with ⟨hp', -⟩ | ⟨-, -, -, u, hsys⟩ | ⟨-, hs', -⟩
      · exact absurd hp' hp
      · obtain ⟨a, n, ha, hzero⟩ := processSystem_allocated hsys hal
        obtain ⟨b, hb, -, hdec⟩ := routeAt_eq_some.1 hr'
        rw [ha] at hb
        cases hb
        rw [hzero] at hdec
        exact Route.index_of_zeros hdec
      · exact absurd hs hs'
  · -- a create starts the route at 0
    obtain ⟨-, hidx⟩ := h.create hc
    simp only [indexAt, hr', Option.map_some, Option.some.injEq] at hidx
    exact UInt64.toNat_inj.1 (by rw [hidx, UInt64.toNat_zero])

/-- Reading the framed lines of a run of calls gives their transfers in order. -/
theorem Trace.extract {cs : List Call} (h : l.Trace s cs s') :
    LogLine.extract (cs.flatMap fun c => framed c.program c.written) = .ok (cs.flatMap Call.transfers) := by
  induction h with
  | nil s => rfl
  | cons hc _ ih =>
    rw [List.flatMap_cons, List.flatMap_cons]
    exact LogLine.extract_append hc.extract_framed ih

/-! ### The invariant -/

/-- What the sequencer `seq` knows agrees with the routes of `s`, after the calls `past`. -/
structure Agrees (l : Ledger) (past : List Call) (s : State) (seq : Sequencer) : Prop where
  /-- A route account that bridged out holds a route whose key's last index is the route's index,
  and a transfer through it travelled on that key. -/
  bridged : ∀ R, past.any (l.commandOn .bridge R) = true →
    ∃ r, routeAt l.program s R = some r ∧ seq.lastIndex r.key = r.index ∧
      ∃ c ∈ past, l.commandOn .bridge R c = true ∧ ∃ g ∈ c.transfers, g.routeKey = r.key
  /-- Every other route account holds routes at index 0 only. -/
  fresh : ∀ R, past.any (l.commandOn .bridge R) = false →
    ∀ r, routeAt l.program s R = some r → r.index = 0
  /-- The sequencer has an index only on keys that transfers travelled on. -/
  seen : ∀ k, seq.lastIndex k ≠ 0 →
    ∃ c ∈ past, ∃ R, l.commandOn .bridge R c = true ∧ ∃ g ∈ c.transfers, g.routeKey = k

variable {past : List Call} {seq : Sequencer} {d : Call}

theorem Agrees.init (h0 : ∀ R r, routeAt l.program s R = some r → r.index = 0) : l.Agrees [] s {} :=
  ⟨fun R h => by simp at h, fun R _ => h0 R, fun k hk => absurd Sequencer.lastIndex_empty hk⟩

theorem any_append_singleton (p : Call → Bool) : (past ++ [d]).any p = (past.any p || p d) := by
  simp [List.any_append]

/-- A call that bridges out through no route account keeps the invariant: it moves no index and
carries no transfer. -/
theorem Agrees.step_quiet (hag : l.Agrees past s seq) (hd : l.Ran d s s')
    (hb : ∀ R, l.commandOn .bridge R d = false) (hapart : ∀ c ∈ past, l.KeyedApart c d) :
    l.Agrees (past ++ [d]) s' seq := by
  have hany : ∀ R, (past ++ [d]).any (l.commandOn .bridge R) = past.any (l.commandOn .bridge R) :=
    fun R => by rw [any_append_singleton, hb R, Bool.or_false]
  refine ⟨fun R hR => ?_, fun R hR => ?_, fun k hk => ?_⟩
  · -- the route keeps its key and index, for `d` neither creates it nor makes its account anew
    rw [hany] at hR
    obtain ⟨r, hr, hlast, c, hcm, hcb, g, hg, hgk⟩ := hag.bridged R hR
    obtain ⟨hcreate, halloc, -⟩ := hapart c hcm R hcb
    obtain ⟨r', hr', hkey, hidx⟩ := hd.route_key_kept hcreate halloc hr
    exact ⟨r', hr', by rw [hkey, hidx (hb R), hlast], c, List.mem_append_left _ hcm, hcb, g, hg,
      hkey ▸ hgk⟩
  · rw [hany] at hR
    exact hd.index_zero_kept (hb R) (hag.fresh R hR)
  · obtain ⟨c, hcm, R, hcb, g, hg, hgk⟩ := hag.seen k hk
    exact ⟨c, List.mem_append_left _ hcm, R, hcb, g, hg, hgk⟩

/-- Before a bridge-out through `R`, the sequencer's last index on the key of the route at `R` is
the route's index: the route bridged out before, or it is at 0 and no transfer travelled on its
key, since every transfer before travelled on another route account's key. -/
theorem Agrees.lastIndex_of_bridge (hag : l.Agrees past s seq) (hdb : l.commandOn .bridge R d = true)
    (hapart : ∀ c ∈ past, l.KeyedApart c d) {route : Route} (hat : routeAt l.program s R = some route)
    {log : TransferLog} (hlog : log ∈ d.transfers) (hkey : log.routeKey = route.key) :
    seq.lastIndex route.key = route.index := by
  cases hR : past.any (l.commandOn .bridge R)
  · rw [hag.fresh R hR route hat]
    by_contra hne
    obtain ⟨c, hcm, R', hcb, g, hg, hgk⟩ := hag.seen route.key hne
    have hR' : R ≠ R' := by
      rintro rfl
      rw [List.any_eq_false] at hR
      exact absurd hcb (by simp [hR c hcm])
    exact (hapart c hcm R' hcb).2.2 R hdb hR' g hg log hlog (hkey.trans hgk.symm)
  · obtain ⟨r, hr, hl, -⟩ := hag.bridged R hR
    rw [hat] at hr
    cases hr
    exact hl

/-- A bridge-out through `R` keeps the invariant: its transfer is the next on its route's key,
and the sequencer moves to the route's new index there and nowhere else. -/
theorem Agrees.step_bridge (hag : l.Agrees past s seq) (hd : l.Ran d s s')
    (hdb : l.commandOn .bridge R d = true) (hapart : ∀ c ∈ past, l.KeyedApart c d) :
    ∃ seq', d.transfers.foldlM Sequencer.observe seq = .ok seq' ∧ l.Agrees (past ++ [d]) s' seq' := by
  obtain ⟨log, ht, -, hout⟩ := hd.transfers_of_bridge hdb
  obtain ⟨route, -, hat, -, -, -, hlt, hidx, hat', hframe, htoken, -, -, hdest, -⟩ := hout
  have hkey : log.routeKey = route.key := by
    simp [TransferLog.routeKey, Route.key, htoken, hdest]
  have hlog : log ∈ d.transfers := ht ▸ List.mem_singleton_self log
  have hlast := hag.lastIndex_of_bridge hdb hapart hat hlog hkey
  have hnext : log.index = Sequencer.successor (seq.lastIndex log.routeKey) := by
    rw [hkey, hlast, Sequencer.successor_of_lt hlt, hidx]
  have hdm : d ∈ past ++ [d] := List.mem_append_right _ (List.mem_singleton_self d)
  refine ⟨seq.resume route.key log.index, ?_, ⟨fun R₂ hR₂ => ?_, fun R₃ hR₃ => ?_, fun k hk => ?_⟩⟩
  · rw [ht, List.foldlM_cons, Sequencer.observe_of_next hnext, hkey]
    rfl
  · by_cases h₂ : R₂ = R
    · -- the route of the bridge-out moved to the index its transfer carries
      subst h₂
      exact ⟨_, hat', Sequencer.lastIndex_resume_self, d, hdm, hdb, log, hlog, hkey⟩
    · -- another route bridged out before, on another key, and stays as it was
      have hR₂' : past.any (l.commandOn .bridge R₂) = true := by
        rwa [any_append_singleton, commandOn_eq_false_of_ne hdb h₂, Bool.or_false] at hR₂
      obtain ⟨r₂, hr₂, hl₂, c₂, hc₂m, hc₂b, g₂, hg₂, hg₂k⟩ := hag.bridged R₂ hR₂'
      have hne : r₂.key ≠ route.key := fun he =>
        (hapart c₂ hc₂m R₂ hc₂b).2.2 R hdb (Ne.symm h₂) g₂ hg₂ log hlog
          (hkey.trans (he.symm.trans hg₂k.symm))
      exact ⟨r₂, (hframe R₂ h₂).trans hr₂, by rw [Sequencer.lastIndex_resume_of_ne hne, hl₂], c₂,
        List.mem_append_left _ hc₂m, hc₂b, g₂, hg₂, hg₂k⟩
  · rw [any_append_singleton, Bool.or_eq_false_iff] at hR₃
    obtain ⟨hpast, hR₃d⟩ := hR₃
    have hne : R₃ ≠ R := by
      rintro rfl
      rw [hdb] at hR₃d
      cases hR₃d
    intro r hr
    exact hag.fresh R₃ hpast r ((hframe R₃ hne).symm.trans hr)
  · by_cases hk' : k = route.key
    · exact ⟨d, hdm, R, hdb, log, hlog, hkey.trans hk'.symm⟩
    · rw [Sequencer.lastIndex_resume_of_ne hk'] at hk
      obtain ⟨c, hcm, R', hcb, g, hg, hgk⟩ := hag.seen k hk
      exact ⟨c, List.mem_append_left _ hcm, R', hcb, g, hg, hgk⟩

/-- Every call keeps the invariant, and the sequencer accepts the transfers it carries. -/
theorem Agrees.step (hag : l.Agrees past s seq) (hd : l.Ran d s s')
    (hapart : ∀ c ∈ past, l.KeyedApart c d) :
    ∃ seq', d.transfers.foldlM Sequencer.observe seq = .ok seq' ∧ l.Agrees (past ++ [d]) s' seq' := by
  by_cases hb : ∃ R, l.commandOn .bridge R d = true
  · obtain ⟨R, hR⟩ := hb
    exact hag.step_bridge hd hR hapart
  · have hb : ∀ R, l.commandOn .bridge R d = false := fun R => by simpa using not_exists.1 hb R
    exact ⟨seq, by rw [hd.transfers_of_no_bridge hb]; rfl, hag.step_quiet hd hb hapart⟩

/-- Along a trace whose calls keep the relayer's routes apart, the sequencer accepts every transfer
and the invariant holds at the end. -/
theorem Trace.agrees {cs : List Call} (h : l.Trace s cs s') (hag : l.Agrees past s seq)
    (hapart : (past ++ cs).Pairwise l.KeyedApart) :
    ∃ seq', (cs.flatMap Call.transfers).foldlM Sequencer.observe seq = .ok seq' ∧
      l.Agrees (past ++ cs) s' seq' := by
  induction h generalizing past seq with
  | nil s => exact ⟨seq, rfl, by simpa using hag⟩
  | @cons d cs s s₁ s' hd _ ih =>
    have hkeep : ∀ c ∈ past, l.KeyedApart c d := fun c hc =>
      (List.pairwise_append.1 hapart).2.2 c hc d List.mem_cons_self
    obtain ⟨seq₁, hobs, hag₁⟩ := hag.step hd hkeep
    obtain ⟨seq', hrest, hag'⟩ := ih hag₁ (by simpa using hapart)
    refine ⟨seq', ?_, by simpa using hag'⟩
    rw [List.flatMap_cons, List.foldlM_append, hobs]
    exact hrest

/-! ### Submissions -/

/-- Relayer sequencing against the ledger: from routes all at index 0, when the committed calls keep
the relayer's routes apart, the sequencer accepts every transfer read from the committed lines, and
these are the transfers the calls made. -/
theorem relayer_sequencing_agrees (l : Ledger) (ts : List Transaction)
    (h0 : ∀ R r, routeAt l.program l.state R = some r → r.index = 0) :
    ∃ new, l.Trace l.state (l.submittedCalls ts) (l.submitAll ts).2.state ∧
      (l.submitAll ts).2.logs = l.logs ++ new ∧
      ((l.submittedCalls ts).Pairwise l.KeyedApart →
        ∃ groups seq, new.mapM (fun e => LogLine.extract e.2) = .ok groups ∧
          groups.flatten = (l.submittedCalls ts).flatMap Call.transfers ∧
          groups.flatten.foldlM Sequencer.observe {} = .ok seq ∧
          ∀ R r, (l.submittedCalls ts).any (l.commandOn .bridge R) = true →
            routeAt l.program (l.submitAll ts).2.state R = some r → seq.lastIndex r.key = r.index) := by
  obtain ⟨htr, new, hlogs, hnew⟩ := submitAll_trace l ts
  refine ⟨new, htr, hlogs, fun hapart => ?_⟩
  have hext : LogLine.extract (new.flatMap Prod.snd) =
      .ok ((l.submittedCalls ts).flatMap Call.transfers) := by
    rw [hnew]
    exact htr.extract
  obtain ⟨groups, hgroups, hflat⟩ := LogLine.extract_groups hext
  obtain ⟨seq, hobs, hag⟩ := htr.agrees (Agrees.init h0) (by simpa using hapart)
  refine ⟨groups, seq, hgroups, hflat, by rw [hflat]; exact hobs, fun R r hR hr => ?_⟩
  obtain ⟨r', hr', hl, -⟩ := hag.bridged R (by simpa using hR)
  rw [hr] at hr'
  cases hr'
  exact hl

/-! ### Two routes of one token and destination -/

/-- The bridge program of the ledger below. -/
def twinProgram : Address := Address.ofBytes [12]

/-- The config of both routes. -/
def twinConfig : Address := Address.ofBytes [2]

/-- The token both routes carry. -/
def twinMint : Address := Address.ofBytes [3]

/-- The owner of the config. -/
def twinOwner : Address := Address.ofBytes [9]

/-- The key of the keypair with the seed of 32 bytes 1, who holds the tokens and pays. -/
def twinPayer : Address := Address.ofBytes [138, 136, 227, 221, 116, 9, 241, 149, 253, 82, 219,
  45, 60, 186, 93, 114, 202, 103, 9, 191, 29, 148, 18, 27, 243, 116, 136, 1, 180, 15, 111, 92]

/-- The payer's token account. -/
def twinUser : Address := Address.ofBytes [8]

/-- A route of `twinMint` to chain 4689 through the escrow `escrow`, at index 0. -/
def twinRoute (escrow : Address) : Route :=
  { initialized := true, tokenProgram := Address.tokenProgram2022, config := twinConfig, escrow,
    mint := twinMint, destination := 4689, max := 1000, min := 1 }

/-- A config without fee, and two routes of one token and destination at the route accounts
`[4]` and `[5]`, with their escrows at `[6]` and `[7]`; the payer holds 1000 tokens. -/
def twinLedger : Ledger where
  program := twinProgram
  state :=
    { accounts := ⟨[(twinConfig, ⟨1000, twinProgram,
          Config.encode ⟨true, twinOwner, twinOwner, 0, twinOwner⟩⟩),
        (Address.ofBytes [4], ⟨1000, twinProgram, (twinRoute (Address.ofBytes [6])).encode⟩),
        (Address.ofBytes [5], ⟨1000, twinProgram, (twinRoute (Address.ofBytes [7])).encode⟩)]⟩
      mints := ⟨[(twinMint, ⟨some twinOwner, 1000, 9⟩)]⟩
      tokenAccounts := ⟨[(twinUser, ⟨twinMint, twinPayer, 1000, none⟩),
        (Address.ofBytes [6], ⟨twinMint, Address.ofBytes [4], 0, none⟩),
        (Address.ofBytes [7], ⟨twinMint, Address.ofBytes [5], 0, none⟩)]⟩ }
  blockhashes := [Bytes.ofNatLE 32 1]

/-- The payer's signed bridge-outs of 5 tokens through the route account `[4]` and 7 through `[5]`,
in one message laid out as compiling them with the payer as payer lays it out. -/
def twinTransaction : Transaction where
  signatures := [[246, 224, 24, 176, 199, 117, 239, 28, 192, 223, 95, 97, 213, 165, 173, 11, 52,
    253, 181, 157, 191, 176, 147, 176, 122, 44, 38, 19, 153, 176, 162, 57, 52, 85, 181, 59, 58, 84,
    121, 109, 98, 217, 89, 173, 215, 4, 35, 55, 27, 229, 240, 218, 106, 166, 171, 135, 23, 155, 114,
    235, 109, 66, 252, 6]]
  message :=
    { header := ⟨1, 0, 3⟩
      keys := [twinPayer, twinMint, Address.ofBytes [4], Address.ofBytes [5], Address.ofBytes [6],
        Address.ofBytes [7], twinUser, twinConfig, Address.tokenProgram2022, twinProgram]
      recentBlockhash := Bytes.ofNatLE 32 1
      instructions := [⟨9, [2, 4, 6, 0, 1, 8, 7], (Command.bridge 5 "x" []).pack⟩,
        ⟨9, [3, 5, 6, 0, 1, 8, 7], (Command.bridge 7 "x" []).pack⟩] }

theorem twinLedger_routes_zero :
    ∀ R r, routeAt twinLedger.program twinLedger.state R = some r → r.index = 0 :=
  routeAt_index_zero (by decide +kernel)

theorem twin_ledger_sequencing :
    (∀ R r, routeAt twinLedger.program twinLedger.state R = some r → r.index = 0) ∧
    ∃ new, twinLedger.Trace twinLedger.state (twinLedger.submittedCalls [twinTransaction])
        (twinLedger.submitAll [twinTransaction]).2.state ∧
      (twinLedger.submitAll [twinTransaction]).2.logs = twinLedger.logs ++ new ∧
      ((twinLedger.submittedCalls [twinTransaction]).Pairwise twinLedger.KeyedApart →
        ∃ groups seq, new.mapM (fun e => LogLine.extract e.2) = .ok groups ∧
          groups.flatten = (twinLedger.submittedCalls [twinTransaction]).flatMap Call.transfers ∧
          groups.flatten.foldlM Sequencer.observe {} = .ok seq ∧
          ∀ R r, (twinLedger.submittedCalls [twinTransaction]).any (twinLedger.commandOn .bridge R) =
              true →
            routeAt twinLedger.program (twinLedger.submitAll [twinTransaction]).2.state R = some r →
              seq.lastIndex r.key = r.index) :=
  ⟨twinLedger_routes_zero,
    relayer_sequencing_agrees twinLedger [twinTransaction] twinLedger_routes_zero⟩

set_option maxRecDepth 100000 in
theorem twinTransaction_committed :
    (twinLedger.sendAndConfirm twinTransaction).1 = .committed (twinTransaction.signatures.headD []) := by
  decide +kernel

theorem twinLedger_routeAt :
    routeAt twinLedger.program twinLedger.state (Address.ofBytes [4]) =
        some (twinRoute (Address.ofBytes [6])) ∧
      routeAt twinLedger.program twinLedger.state (Address.ofBytes [5]) =
        some (twinRoute (Address.ofBytes [7])) := by
  decide +kernel

/-- The relayer reads two transfers from the log of the transaction above, one from each route:
they travel on one key, and both carry index 1, since both routes were at index 0. -/
theorem twinTransaction_transfers :
    ∃ g g', (twinLedger.submitAll [twinTransaction]).2.logs.mapM (fun e => LogLine.extract e.2) =
        .ok [[g, g']] ∧ g'.routeKey = g.routeKey ∧ g'.index = g.index ∧ g.index = 1 := by
  -- the transaction commits the lines of its two instructions
  rcases sendAndConfirm_cases twinLedger twinTransaction with ⟨v, hv, hnc⟩ | ⟨s, lines, hc, -, hrun⟩
  · have hcommit := twinTransaction_committed
    rw [hv] at hcommit
    exact absurd hcommit (hnc _)
  obtain ⟨more, hruns, rfl⟩ := (runFrom_eq_ok_iff _ _ _ _ _ _).1 hrun
  obtain ⟨-, w₁, s₁, hx₁, more₁, hr₁, rfl⟩ := runs_cons_iff.1 (hruns.congr twinLedger rfl rfl)
  obtain ⟨-, w₂, s₂, hx₂, more₂, hr₂, rfl⟩ := runs_cons_iff.1 hr₁
  obtain ⟨rfl, rfl⟩ := runs_nil_iff.1 hr₂
  -- each instruction bridges out through its route, which is at index 0 before it runs
  set m := twinTransaction.message
  set ix₁ : CompiledInstruction := ⟨9, [2, 4, 6, 0, 1, 8, 7], (Command.bridge 5 "x" []).pack⟩
  set ix₂ : CompiledInstruction := ⟨9, [3, 5, 6, 0, 1, 8, 7], (Command.bridge 7 "x" []).pack⟩
  have hran₁ : twinLedger.Ran ⟨programOf m ix₁, accountsOf m ix₁, ix₁.data, w₁⟩ twinLedger.state s₁ :=
    hx₁
  have hran₂ : twinLedger.Ran ⟨programOf m ix₂, accountsOf m ix₂, ix₂.data, w₂⟩ s₁ s := hx₂
  obtain ⟨g, ht₁, -, hout₁⟩ := hran₁.transfers_of_bridge
    (show twinLedger.commandOn .bridge (Address.ofBytes [4]) _ = true by
      simp only [commandOn, commandTag?]
      decide +kernel)
  obtain ⟨r₁, -, hat₁, -, -, -, -, hidx₁, -, hframe₁, htok₁, -, -, hdest₁, -⟩ := hout₁
  obtain ⟨g', ht₂, -, hout₂⟩ := hran₂.transfers_of_bridge
    (show twinLedger.commandOn .bridge (Address.ofBytes [5]) _ = true by
      simp only [commandOn, commandTag?]
      decide +kernel)
  obtain ⟨r₂, -, hat₂, -, -, -, -, hidx₂, -, -, htok₂, -, -, hdest₂, -⟩ := hout₂
  rw [hframe₁ _ (by decide)] at hat₂
  obtain rfl := Option.some.inj (hat₁.symm.trans twinLedger_routeAt.1)
  obtain rfl := Option.some.inj (hat₂.symm.trans twinLedger_routeAt.2)
  -- the log reads as the two transfers
  have hext := LogLine.extract_append hran₁.extract_framed hran₂.extract_framed
  rw [ht₁, ht₂] at hext
  have hlogs : twinLedger.logs = [] := rfl
  refine ⟨g, g', ?_, ?_, by rw [hidx₁, hidx₂]; rfl, by rw [hidx₁]; rfl⟩
  · simp only [submitAll, hc, hlogs, List.nil_append, List.append_nil, List.mapM_cons, List.mapM_nil]
    rw [hext]
    rfl
  · simp only [TransferLog.routeKey, htok₁, htok₂, hdest₁, hdest₂, twinRoute]

/-- The sequencer's key does not identify a route account: on a ledger whose routes are all at
index 0, two routes of one token and destination bridge out in one committed transaction, both
log index 1, and a fresh sequencer refuses the second as stale. -/
theorem twin_routes_stale :
    ¬ ∀ (l : Ledger) (ts : List Transaction),
      (∀ R r, routeAt l.program l.state R = some r → r.index = 0) →
      ∀ new, (l.submitAll ts).2.logs = l.logs ++ new →
        ∃ groups seq, new.mapM (fun e => LogLine.extract e.2) = .ok groups ∧
          groups.flatten.foldlM Sequencer.observe {} = .ok seq := by
  intro hall
  obtain ⟨groups, seq, hgroups, hobs⟩ := hall twinLedger [twinTransaction] twinLedger_routes_zero
    (twinLedger.submitAll [twinTransaction]).2.logs (List.nil_append _).symm
  obtain ⟨g, g', hread, hkey, hindex, hone⟩ := twinTransaction_transfers
  rw [hread] at hgroups
  obtain rfl := Except.ok.inj hgroups
  exact Sequencer.repeat_refused hkey hindex (by rw [hone]; decide) seq (by simpa using hobs)

end Ledger

end TokenBridge
