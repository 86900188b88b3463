import FinP2PAdapter.Custody.OperationRuns

/-! The operations in a world that does not change. When the mapping, the store, the provider and
the chain answer alike whenever they are asked, an operation run against them returns the receipt
of the call that the service decides on, or of its refusal. -/

namespace FinP2PAdapter.Custody

open Accounts Effects TokenStandards
open Omnibus (AssetRecord)

variable {W T α : Type} {svc : Service W T}
  {perform : T → StandardCall W → Except ServiceError TokenOperationResult}

/-- The world that always answers from what the service reads. -/
def Service.world (svc : Service W T)
    (perform : T → StandardCall W → Except ServiceError TokenOperationResult) : World W T where
  escrowWallet := svc.escrowWallet
  issuerWallet := svc.issuerWallet
  registry := svc.registry
  parseUnits := svc.parseUnits
  getAsset assetId _ := .ok (svc.assets assetId)
  resolveAccount finId _ := .ok (Accounts.resolveAccount svc.accountMapping finId)
  resolveFullAccount := some fun finId _ => .ok (Accounts.resolveFullAccount svc.accountMapping finId)
  createWalletForCustodyId := svc.custodyProvider.createWalletForCustodyId.map fun create custodyAccountId _ =>
    create custodyAccountId
  resolveWallet address _ := svc.custodyProvider.resolveWallet address
  getNetwork _ := .ok svc.chainId
  getAddress wallet _ := .ok (svc.address wallet)
  perform standard call _ := perform standard call

/-- What an operation's body comes to: its refusal, or what the standard makes of its call. -/
def outcome (perform : T → StandardCall W → Except ServiceError TokenOperationResult) :
    Except Refusal (Move W T) → Except ServiceError ReceiptOperation
  | .error (.answered message) => .ok (.failed 1 (.answered message))
  | .error (.thrown e) => .error e
  | .ok move => (perform move.standard move.call).map (resultToReceipt · move.details)

/-! ### Lookups -/

theorem yields_require {answer : Except ServiceError α} :
    Yields (World.require answer : Run W T α) answer := Yields.emit

theorem mirrors_standardOf {asset : AssetRecord} :
    Mirrors Refusal.thrown ((svc.world perform).standardOf asset) (svc.standardOf asset) := ⟨_, yields_require, rfl⟩

variable {f : α → Run W T ReceiptOperation} {g : α → Except Refusal (Move W T)}

end FinP2PAdapter.Custody
