import Mathlib.Algebra.BigOperators.Group.Finset.Piecewise
import TokenBridge.Proofs.RouteIndex
import TokenBridge.Proofs.HandlerEffects
/-!
Lamports are neither made nor lost: the lamports of all accounts together are the same after every
instruction, and so after every submission, as before (`lamports_conserved`).

An instruction moves lamports at most once, from one account to another (`LamportMove`): a system
transfer and a bridge-out's fee debit the sender and credit the receiver, and a new account
receives exactly what its funder paid. That is so also when the sender and the receiver are one
account, and when a new account replaces an account that held no lamports: the move is stated
balance by balance, so the sum over any set of accounts that holds both ends is the same after as
before (`LamportMove.lamportTotal_eq`). Every other write changes data, mints or token accounts,
which hold no lamports.
-/

namespace TokenBridge

open BridgeProgram

namespace State

/-- The lamports of all accounts together. -/
def lamportTotal (s : State) : Nat := s.accounts.total (·.lamports.toNat)

end State

/-- From `s` to `s'`, `n` lamports went from `source` to `target`, and no other balance changed.
The two ends may be one account. -/
def LamportMove (s s' : State) (source target : Address) (n : Nat) : Prop :=
  ∀ k, balance s' k + (if k = source then n else 0) = balance s k + (if k = target then n else 0)

section Totals

variable {s s' : State}

theorem balance_eq_zero_of_not_mem {k : Address} (hk : k ∉ s.accounts.keys) : balance s k = 0 := by
  have hnone : s.accounts.get? k = none := by
    simpa [Table.mem_keys] using hk
  simp [balance, hnone]

/-- The total may be summed over any set of keys that holds every account. -/
theorem lamportTotal_eq_sum {K : Finset Address} (hK : s.accounts.keys ⊆ K) :
    s.lamportTotal = ∑ k ∈ K, balance s k :=
  Finset.sum_subset hK fun _ _ hk => balance_eq_zero_of_not_mem hk

/-- A move keeps the total: summed over the accounts of both states and the two ends, what left
the sender is what reached the receiver. -/
theorem LamportMove.lamportTotal_eq {source target : Address} {n : Nat}
    (h : LamportMove s s' source target n) : s'.lamportTotal = s.lamportTotal := by
  set K := s.accounts.keys ∪ s'.accounts.keys ∪ {source, target}
  have hsum := Finset.sum_congr rfl fun k (_ : k ∈ K) => h k
  rw [Finset.sum_add_distrib, Finset.sum_add_distrib, Finset.sum_ite_eq', Finset.sum_ite_eq',
    if_pos (by simp [K]), if_pos (by simp [K])] at hsum
  rw [lamportTotal_eq_sum (K := K) (by intro k; simp +contextual [K]),
    lamportTotal_eq_sum (K := K) (by intro k; simp +contextual [K])]
  omega

/-- Balances that did not change are a move of nothing. -/
theorem LamportMove.of_balance (h : balance s' = balance s) (k : Address) : LamportMove s s' k k 0 := by
  intro j
  simp [h]

end Totals

/-! ### What each program moves -/

section Moves

variable {program : Address} {accounts : List Invoked} {s s' : State} {lines : List String}
  {u : Unit}

theorem transferLamports_move {source target : Address} {n : UInt64}
    (h : (transferLamports source target n).run s = .ok (u, s')) :
    LamportMove s s' source target n.toNat :=
  transferLamports_balance h

/-- Storing an account changes the balance at its key only. -/
theorem balance_set (key : Address) (a : Account) (k : Address) :
    balance { s with accounts := s.accounts.set key a } k =
      if k = key then a.lamports.toNat else balance s k := by
  by_cases hk : k = key
  · subst hk
    simp [balance]
  · simp [balance, hk]

/-- A new account holds what its funder paid. The account it replaces held nothing, and where the
funder is the new account itself, it paid nothing. -/
theorem allocate_move {source target owner : Address} {lamports space : UInt64}
    (h : (allocate source target lamports space owner).run s = .ok (u, s')) :
    LamportMove s s' source target lamports.toNat := by
  obtain ⟨hfree, s₁, hd, rfl⟩ := allocate_effect h
  intro k
  have hdebit := debit_balance hd k
  rw [balance_set]
  dsimp only
  by_cases hk : k = target
  · subst hk
    rw [if_pos rfl, if_pos rfl, hfree]
    by_cases hs : k = source
    · rw [if_pos hs] at hdebit ⊢
      rw [hfree] at hdebit
      omega
    · rw [if_neg hs]
      omega
  · rw [if_neg hk, if_neg hk]
    exact hdebit

theorem processSystem_move {data : Bytes} (h : (processSystem accounts data).run s = .ok (u, s')) :
    ∃ source target n, LamportMove s s' source target n := by
  rcases processSystem_effect h with ⟨source, target, _, lamports, _, -, -, hal⟩ |
    ⟨source, target, lamports, -, hmove⟩
  · exact ⟨source, target, _, allocate_move hal⟩
  · exact ⟨source, target, _, transferLamports_move hmove⟩

/-- A bridge command moves lamports only as a bridge-out's fee; every other command writes a
record or moves tokens. -/
theorem process_move {data : Bytes} (h : (process program accounts data).run s = .ok (lines, s')) :
    ∃ source target n, LamportMove s s' source target n := by
  have hkeep : balance s' = balance s → ∃ source target n, LamportMove s s' source target n :=
    fun hb => ⟨_, _, _, LamportMove.of_balance hb Address.zero⟩
  unfold process at h
  split at h
  · exact absurd h fail_run_ne_ok
  · obtain ⟨-, _, _, _, _, _, -, -, -, -, -, -, hw⟩ := setUp_effect h
    exact hkeep (balance_writeRecord hw)
  · obtain ⟨_, _, _, _, -, -, -, -, -, -, hw, -⟩ := changeKey_effect h
    exact hkeep (balance_writeRecord hw)
  · obtain ⟨_, _, _, _, -, -, -, -, -, -, hw, -⟩ := changeKey_effect h
    exact hkeep (balance_writeRecord hw)
  · obtain ⟨-, _, _, _, _, -, -, -, -, -, -, hw⟩ := changeFee_effect h
    exact hkeep (balance_writeRecord hw)
  · obtain ⟨-, -, _, _, _, _, _, -, -, -, -, -, -, -, -, hw⟩ := changeLimit_effect h
    exact hkeep (balance_writeRecord hw)
  · obtain ⟨-, -, _, _, _, _, _, _, _, _, _, _, -, -, -, -, -, -, -, -, -, -, -, -, -, hw⟩ :=
      create_effect h
    exact hkeep (balance_writeRecord hw)
  · -- the fee goes from the payer to the config's collector
    obtain ⟨_, log, -, -, -, -, -, _, _, -, -, -, -, -, -, -, -, -, -, -, -, payer, collector, -,
      hbal⟩ := bridgeOut_spec h
    exact ⟨payer, collector, _, hbal⟩
  · obtain ⟨_, _, _, _, _, _, _, _, -, -, -, -, -, -, -, -, -, -, -, -, -, htok, -⟩ := settle_effect h
    rcases htok with ⟨-, hmint⟩ | ⟨-, hmove⟩
    · exact hkeep (balance_of_accounts (mintTo_keeps _ _ _ _ _ _ _ hmint))
    · exact hkeep (balance_of_accounts (transferTokens_keeps _ _ _ _ _ _ _ _ hmove))

end Moves

/-! ### Calls, runs and submissions -/

namespace Ledger

variable {l : Ledger} {c : Call} {s s' : State}

/-- Every call moves lamports at most once, from one account to another. -/
theorem Ran.lamportMove (h : l.Ran c s s') : ∃ source target n, LamportMove s s' source target n := by
  rcases h.cases with ⟨-, hb⟩ | ⟨-, -, -, u, hsys⟩ | ⟨-, -, -, hkeep⟩
  · exact process_move hb
  · exact processSystem_move hsys
  · exact ⟨_, _, _, LamportMove.of_balance (balance_of_accounts hkeep) Address.zero⟩

theorem Ran.lamportTotal_eq (h : l.Ran c s s') : s'.lamportTotal = s.lamportTotal := by
  obtain ⟨source, target, n, hmove⟩ := h.lamportMove
  exact hmove.lamportTotal_eq

/-- Along a trace every call keeps the total, so the whole trace does. -/
theorem Trace.lamportTotal_eq {cs : List Call} (h : l.Trace s cs s') :
    s'.lamportTotal = s.lamportTotal := by
  induction h with
  | nil s => rfl
  | cons hc _ ih => rw [ih, hc.lamportTotal_eq]

/-- Lamport conservation. Every instruction that goes through, of any program, moves lamports at
most once, from one account to another, the two perhaps one account; so it keeps the lamports of
all accounts together. Hence for every ledger and every transaction submitted to it, the lamports
of all accounts together are the same after the submission as before: when it is committed, as its
instructions run in order, and otherwise because nothing but the count of submissions changed. -/
theorem lamports_conserved :
    (∀ (l : Ledger) (c : Call) (s s' : State), l.Ran c s s' →
      (∃ source target n, LamportMove s s' source target n) ∧ s'.lamportTotal = s.lamportTotal) ∧
    ∀ (l : Ledger) (t : Transaction),
      (l.sendAndConfirm t).2.state.lamportTotal = l.state.lamportTotal := by
  refine ⟨fun l c s s' h => ⟨h.lamportMove, h.lamportTotal_eq⟩, fun l t => ?_⟩
  obtain ⟨htr, -⟩ := sendAndConfirm_trace l t
  exact htr.lamportTotal_eq

end Ledger

end TokenBridge
