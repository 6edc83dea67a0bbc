import TokenBridge.Proofs.RouteIndex
import TokenBridge.Proofs.HandlerEffects
/-!
Tokens are neither made nor lost: for every mint, the supply less what the token accounts of that
mint hold is the same after a committed transaction as before it (`tokens_conserved`).

A change of state is `Balanced` when it conserves every mint's tokens in that sense and keeps the
mints and token accounts there were, each of its mint. The token operations are balanced
(`TokenEffects`), and every other write leaves mints and token accounts alone; so each command is
balanced, then each call (`Ran.balanced`), and by induction each trace of calls
(`Trace.balanced`). A ledger whose token accounts all have a mint and hold no more than its
supply (`State.Backed`) stays so.
-/

namespace TokenBridge

open BridgeProgram

/-- The change from `s` to `s'` conserves every mint's tokens and keeps the mints and the token
accounts, each of the mint it had. -/
structure Balanced (s s' : State) : Prop where
  conserves : Conserves s s'
  layout : SameLayout s s'

namespace Balanced

variable {s s' s'' : State}

theorem of_tokens (hm : s'.mints = s.mints) (ht : s'.tokenAccounts = s.tokenAccounts) :
    Balanced s s' :=
  ⟨Conserves.of_tokens hm ht, SameLayout.of_tokens hm ht⟩

theorem trans (h₁ : Balanced s s') (h₂ : Balanced s' s'') : Balanced s s'' :=
  ⟨h₁.conserves.trans h₂.conserves, h₁.layout.trans h₂.layout⟩

end Balanced

section Commands

variable {program : Address} {accounts : List Invoked} {s s' : State} {lines : List String}

theorem FeeMoved.tokens {config : Config} (h : FeeMoved accounts config s s') :
    s'.mints = s.mints ∧ s'.tokenAccounts = s.tokenAccounts := by
  rcases h with ⟨-, rfl⟩ | ⟨-, payer, -, -, -, hmove⟩
  · exact ⟨rfl, rfl⟩
  · exact transferLamports_tokens hmove

/-- A bridge-out moves lamports and a record, which hold no tokens, and burns or moves the tokens
it sends out. -/
theorem bridgeOut_balanced {amount : UInt64} {recipient : String} {payload : Bytes}
    (h : (bridgeOut program accounts amount recipient payload).run s = .ok (lines, s')) :
    Balanced s s' := by
  obtain ⟨rk, escrow, user, mint, authority, route, config, s₁, s₂, -, -, -, -, -, -, -, -, -, -, -,
    -, hfee, htok, -, hw, -⟩ := bridgeOut_effect h
  have hfee := hfee.tokens
  have hw := writeRecord_tokens hw
  have htok : Balanced s₁ s₂ := by
    rcases htok with ⟨-, hburn⟩ | ⟨-, -, hmove⟩
    · exact ⟨burn_conserves hburn, burn_layout hburn⟩
    · exact ⟨transferTokens_conserves hmove, transferTokens_layout hmove⟩
  exact ((Balanced.of_tokens hfee.1 hfee.2).trans htok).trans (Balanced.of_tokens hw.1 hw.2)

/-- A settlement is one mint or one move of tokens. -/
theorem settle_balanced {amount : UInt64}
    (h : (settle program accounts amount).run s = .ok (lines, s')) : Balanced s s' := by
  obtain ⟨rk, ta, escrow, user, mint, authority, route, config, -, -, -, -, -, -, -, -, -, -, -, -,
    -, htok, -⟩ := settle_effect h
  rcases htok with ⟨-, hmint⟩ | ⟨-, hmove⟩
  · exact ⟨mintTo_conserves hmint, mintTo_layout hmint⟩
  · exact ⟨transferTokens_conserves hmove, transferTokens_layout hmove⟩

theorem process_balanced {data : Bytes}
    (h : (process program accounts data).run s = .ok (lines, s')) : Balanced s s' := by
  rcases process_tokens h with ⟨hm, ht⟩ | ⟨amount, recipient, payload, -, hb⟩ | ⟨amount, -, hs⟩
  · exact .of_tokens hm ht
  · exact bridgeOut_balanced hb
  · exact settle_balanced hs

theorem processToken_balanced {data : Bytes} {u : Unit}
    (h : (processToken accounts data).run s = .ok (u, s')) : Balanced s s' :=
  ⟨processToken_conserves h, processToken_layout h⟩

end Commands

namespace State

/-- Every token account is of a mint that exists, and no mint's token accounts hold more than its
supply. -/
def Backed (s : State) : Prop :=
  (∀ M, (s.mints.get? M).isSome → s.heldOf M ≤ s.supplyOf M) ∧
    ∀ A a, s.tokenAccounts.get? A = some a → (s.mints.get? a.mint).isSome

variable {s s' : State}

/-- A balanced change keeps a ledger backed: the margin of each mint stays what it was, and every
token account keeps its mint, which is still there. -/
theorem Backed.of_balanced (hb : s.Backed) (h : Balanced s s') : s'.Backed := by
  obtain ⟨hheld, hmint⟩ := hb
  refine ⟨fun M hM => ?_, fun A a' ha' => ?_⟩
  · have hmargin := h.conserves M
    have hle := hheld M (by rwa [← h.layout.1 M])
    omega
  · -- the account was there before, of the same mint
    have hA := h.layout.2 A
    rw [ha'] at hA
    obtain ⟨a, ha, hm⟩ := Option.map_eq_some_iff.1 hA.symm
    have hm : a.mint = a'.mint := hm
    rw [h.layout.1, ← hm]
    exact hmint A a ha

end State

namespace Ledger

variable {l : Ledger} {c : Call} {s s' : State}

/-- A call runs the bridge program, or leaves mints and token accounts alone (the system
program), or runs the token program. -/
theorem Ran.token_cases (h : l.Ran c s s') :
    (c.program = l.program ∧ (process l.program c.accounts c.data).run s = .ok (c.written, s')) ∨
    (s'.mints = s.mints ∧ s'.tokenAccounts = s.tokenAccounts) ∨
    (c.program ≠ l.program ∧ c.program = l.tokenProgram ∧
      ∃ u, (processToken c.accounts c.data).run s = .ok (u, s')) := by
  rcases h.cases with hb | ⟨-, -, -, u, hsys⟩ | ⟨hp, hs, -, -⟩
  · exact .inl hb
  · exact .inr (.inl (processSystem_tokens hsys))
  unfold Ran execute at h
  rw [if_neg (by simpa using hp), if_neg (by simpa using hs)] at h
  split at h
  · rename_i ht
    obtain ⟨u, s₁, htok, hpure⟩ := bind_run_eq_ok.1 h
    obtain ⟨-, rfl⟩ := pure_run_eq_ok.1 hpure
    exact .inr (.inr ⟨hp, by simpa using ht, u, htok⟩)
  · exact absurd h fail_run_ne_ok

theorem Ran.balanced (h : l.Ran c s s') : Balanced s s' := by
  rcases h.token_cases with ⟨-, hb⟩ | ⟨hm, ht⟩ | ⟨-, -, u, htok⟩
  · exact process_balanced hb
  · exact .of_tokens hm ht
  · exact processToken_balanced htok

/-- Along a trace every call is balanced, so the whole trace is. -/
theorem Trace.balanced {cs : List Call} (h : l.Trace s cs s') : Balanced s s' := by
  induction h with
  | nil s => exact .of_tokens rfl rfl
  | cons hc _ ih => exact hc.balanced.trans ih

/-- For every ledger, every transaction submitted to it and every mint, the supply less what the
mint's token accounts hold is the same after the submission as before; so a backed ledger stays
backed. -/
theorem tokens_conserved (l : Ledger) (t : Transaction) :
    Conserves l.state (l.sendAndConfirm t).2.state ∧
      (l.state.Backed → (l.sendAndConfirm t).2.state.Backed) := by
  obtain ⟨htr, -⟩ := sendAndConfirm_trace l t
  have hbal := htr.balanced
  exact ⟨hbal.conserves, fun hb => hb.of_balanced hbal⟩

end Ledger

end TokenBridge
