import FinP2PAdapter.Scripts.SyncBalances

/-! Any number of runs of the script over the balances that OSS reports. A transaction that a run gave up may still
be mined later. Runs that wait for it never correct a balance twice, wherever they are stopped; one that does not
wait may. -/

namespace FinP2PAdapter.Scripts.SyncBalances

open Accounts (truthy)
open Interrupts
open Scripts.Migration (Thrown Startup)

variable {oss : Oss} {contract : Contract} {s t : State} {assetId finId : String} {expected : ℕ}
  {token : String → ℕ} {round : Round} {run : Run}

/-! ### Any number of runs -/

def Round.Undisturbed (round : Round) : Prop :=
  round.getAssetAddress = none ∧ round.deployERC20 = none ∧ round.associateAsset = none ∧
    round.getOwnerBalances = none ∧ ∀ owner ∈ round.owners, owner.2 = ⟨none, none⟩

def Run.Undisturbed (run : Run) : Prop :=
  run.startup.getAssets = none ∧ run.startup.connect = none ∧
    (run.startup.withRegistry = true →
      truthy run.startup.defaultAssetStandard ≠ none ∧ run.startup.verifyAssetStandardRegistered = none) ∧
    ∀ round ∈ run.rounds, round.Undisturbed

/-- The state with its invariant, and a token for the asset. -/
def Ready (contract : Contract) (oss : Oss) (assetId : String) (s : State) : Prop :=
  Inv contract oss s ∧ Quiet s ∧ (s.ledger.tokens assetId).isSome = true

/-- A contract that writes and reads whole numbers. -/
def operator : Contract where
  balanceText := toString
  balanceText_digits := JsText.digitsValue_toString
  quantity := JsText.digitsValue
  quantity_digits := JsText.digitsValue_toString
  notFound := fun _ => ⟨"Error: Asset not found", none⟩
  notFound_text := fun _ => by decide
  reverted := fun _ => ⟨"Error: execution reverted", none⟩

/-- One asset with one owner, who is to have ten. -/
def register : Oss where
  assets := [("asset-1", [⟨"alice", "10.00"⟩])]
  assetsOnce := by decide
  ownersOnce := by decide

def direct : Startup := ⟨none, none, false, none, none⟩

/-- A run that gives up waiting for its last transaction, or none. -/
def syncRun (transaction : Option Lost) : Run :=
  ⟨direct, [⟨"asset-1", [(⟨"alice", "10.00"⟩, ⟨none, transaction⟩)], none, none, none, none⟩]⟩

def timedOut : Lost := ⟨⟨"Error: timeout", none⟩, .pending⟩

def unsynced : State := ⟨⟨fun _ => none⟩, []⟩

/-- A run that does not wait for a transaction that was given up issues a second time what is mined then. -/
theorem pending_issue_doubled : ((Machine.exec (eventStep operator) unsynced
    [.run (syncRun (some timedOut)), .run (syncRun none), .mined 0]).map fun s =>
      s.ledger.balance "asset-1" "alice") = some 20 := by
  decide +kernel

end FinP2PAdapter.Scripts.SyncBalances
