import FinP2PAdapter.Fireblocks.RawSigner
import FinP2PAdapter.Library.Polling

/-! Gas sent from one vault to another. The transfer waits for Fireblocks as a signing call does, with a loop of its
own. The two loops take the same statuses for final, so on the same answers they stop in the same round. -/

namespace FinP2PAdapter.Fireblocks

open Polling

def shouldErrorStatuses : List TransactionStatus := [.failed, .blocked, .cancelled, .rejected]

/-- One round of the loop: nothing while the transfer is on its way. -/
def transferRound (id : String) (txInfo : TransactionInfo) : Option (Except String Unit) :=
  if txInfo.status = .completed then some (.ok ())
  else if txInfo.status ∈ shouldErrorStatuses then
    some (.error s!"Failed status during gas funding: {txInfo.status.text}, id: {id}")
  else none

/-- The loop, on Fireblocks's answers in turn. -/
def waitFor {α : Type} (settles : TransactionInfo → Option (Except String α))
    (answers : ℕ → Except String TransactionInfo) (fuel : ℕ) : Option (Except String α) :=
  (poll settles answers fuel 0).map fun result => result.bind id

def transferAssetFromVaultToVault (transaction : Except String String) (answers : ℕ → Except String TransactionInfo)
    (fuel : ℕ) : Option (Except String Unit) :=
  match transaction with
  | .error message => some (.error message)
  | .ok id => waitFor (transferRound id) answers fuel

variable {α : Type} {settles : TransactionInfo → Option (Except String α)}
  {answers : ℕ → Except String TransactionInfo}

/-- An answer that says the transaction is on its way. -/
def OnItsWay (answers : ℕ → Except String TransactionInfo) (round : ℕ) : Prop :=
  ∃ tx, answers round = .ok tx ∧ tx.isFinal = false

/-- A loop that stops at the final statuses. -/
def StopsAtFinal (settles : TransactionInfo → Option (Except String α)) : Prop :=
  ∀ tx, settles tx = none ↔ tx.isFinal = false

theorem stopsAtFinal_pollTransaction (txId : String) : StopsAtFinal (pollTransaction txId) := by
  intro tx
  unfold pollTransaction TransactionInfo.isFinal
  split_ifs with hfinal hcompleted <;> simp [hfinal]

theorem stopsAtFinal_transferRound (id : String) : StopsAtFinal (transferRound id) := by
  intro tx
  unfold transferRound TransactionInfo.isFinal
  cases tx.status <;> simp [shouldErrorStatuses, terminalStatuses]

theorem StopsAtFinal.pending_iff (h : StopsAtFinal settles) (round : ℕ) :
    Pending settles answers round ↔ OnItsWay answers round := by
  simp only [Pending, OnItsWay, h _]

/-- A loop that stops at the final statuses goes on for exactly as long as it is told that the transaction is on
its way. -/
theorem StopsAtFinal.waitFor_eq_none_iff (h : StopsAtFinal settles) (fuel : ℕ) :
    waitFor settles answers fuel = none ↔ ∀ round < fuel, OnItsWay answers round := by
  unfold waitFor
  rw [Option.map_eq_none_iff, poll_fuel_eq_none_iff]
  simp only [Nat.zero_add, h.pending_iff]

theorem transferRound_eq_ok {id : String} {tx : TransactionInfo} :
    transferRound id tx = some (.ok ()) ↔ tx.status = .completed := by
  unfold transferRound
  split_ifs with hcompleted hfailed <;> simp [hcompleted]

/-- A transfer returns exactly if the first answer that does not say it is on its way says it has completed. It
goes on for ever exactly if it is always on its way, and stops when a signing call would. -/
theorem transfer_waits (answers : ℕ → Except String TransactionInfo) (id : String) :
    ((∃ fuel, transferAssetFromVaultToVault (.ok id) answers fuel = some (.ok ())) ↔
      ∃ round tx, (∀ i < round, OnItsWay answers i) ∧ answers round = .ok tx ∧ tx.status = .completed) ∧
    ((∀ fuel, transferAssetFromVaultToVault (.ok id) answers fuel = none) ↔ ∀ round, OnItsWay answers round) ∧
    ∀ fuel, transferAssetFromVaultToVault (.ok id) answers fuel = none ↔
      waitFor (pollTransaction id) answers fuel = none := by
  have hstops := stopsAtFinal_transferRound id
  refine ⟨?_, ?_, fun fuel => ?_⟩
  · simp only [transferAssetFromVaultToVault, waitFor, Option.map_eq_some_iff, poll_eq_some_iff, Nat.zero_add,
      hstops.pending_iff]
    constructor
    · rintro ⟨fuel, result, ⟨round, -, hbefore, ⟨message, -, rfl⟩ | ⟨tx, settled, htx, hsettles, rfl⟩⟩, hresult⟩
      · cases hresult
      · have hok : settled = .ok () := hresult
        rw [hok, transferRound_eq_ok] at hsettles
        exact ⟨round, tx, hbefore, htx, hsettles⟩
    · rintro ⟨round, tx, hbefore, htx, hcompleted⟩
      exact ⟨round + 1, .ok (.ok ()), ⟨round, Nat.lt_succ_self _, hbefore,
        .inr ⟨tx, .ok (), htx, transferRound_eq_ok.mpr hcompleted, rfl⟩⟩, rfl⟩
  · simp only [transferAssetFromVaultToVault, waitFor, Option.map_eq_none_iff, poll_eq_none_iff, hstops.pending_iff]
  · simp only [transferAssetFromVaultToVault]
    rw [hstops.waitFor_eq_none_iff, (stopsAtFinal_pollTransaction id).waitFor_eq_none_iff]

end FinP2PAdapter.Fireblocks
