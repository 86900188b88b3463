import FinP2PAdapter.Custody.TokenService
import FinP2PAdapter.TokenStandards.Registry

/-! The custody token service. An operation looks up its asset, standard and accounts,
makes at most one call of the token standard and answers with a receipt of it; it
answers with a failed receipt for whatever it refuses or whatever is thrown. What the
lookups read does not change while an operation runs, so an operation is its call. -/

namespace FinP2PAdapter.Custody

open Accounts Throws TokenStandards
open Omnibus (AssetRecord)
open Operations (OperationContext buildOperationContext deriveReleaseType)

/-- What the service was constructed with and reads; `address` is a wallet's
`signer.getAddress()`, and `parseUnits` the library's. -/
structure Service (W T : Type) where
  custodyProvider : CustodyProvider W
  escrowWallet : W
  issuerWallet : Option W
  address : W → String
  chainId : ℕ
  accountMapping : AccountMappings
  assets : String → Option AssetRecord
  registry : TokenStandardRegistry T
  parseUnits : String → ℕ → Except String ℤ

/-! ### Receipts -/

inductive OperationType where
  | issue | transfer | redeem | hold | release
  deriving DecidableEq, Repr

/-- Why an operation made no call. -/
inductive Refusal where
  | answered (message : String)
  | thrown (e : ServiceError)
  deriving DecidableEq, Repr

/-- A receipt but for its transaction. -/
structure ReceiptDetails where
  asset : Asset
  operationType : OperationType
  quantity : String
  source : Option Source
  destination : Option Destination
  exCtx : Option ExecutionContext
  operationId : Option String
  deriving DecidableEq, Repr

inductive ReceiptOperation where
  | failed (code : ℕ) (reason : Refusal)
  | success (id : String) (timestamp : ℕ) (details : ReceiptDetails)
  deriving DecidableEq, Repr

def resultToReceipt (result : TokenOperationResult) (details : ReceiptDetails) : ReceiptOperation :=
  match result with
  | .failure reason => .failed 1 (.answered reason)
  | .success transactionId timestamp => .success transactionId timestamp details

/-- The call an operation makes of its asset's standard, and what it answers then. -/
structure Move (W T : Type) where
  standard : T
  call : StandardCall W
  details : ReceiptDetails
  deriving DecidableEq

namespace Service

variable {W T : Type} (svc : Service W T)

/-! ### Lookups -/

def resolveAddress (finId : String) : Except Refusal String :=
  match resolveAccount svc.accountMapping finId with
  | none => .error (.thrown (.error s!"Cannot resolve address for finId: {finId}"))
  | some address => .ok address

def assetRecord (assetId : String) : Except Refusal AssetRecord :=
  match svc.assets assetId with
  | none => .error (.thrown (.error s!"Asset {assetId} is not registered in DB"))
  | some asset => .ok asset

def standardOf (asset : AssetRecord) : Except Refusal T :=
  (svc.registry.resolve asset.tokenStandard).mapError .thrown

def amountOf (asset : AssetRecord) (quantity : String) : Except Refusal ℤ :=
  (svc.parseUnits quantity asset.decimals).mapError fun message => .thrown (.error message)

/-- The source's address and wallet; an operation without them is refused. -/
def sourceWallet (finId : String) : Except Refusal (String × W) :=
  match resolveSourceWallet svc.custodyProvider svc.accountMapping finId with
  | .error e => .error (.thrown e)
  | .ok none => .error (.answered "Source address cannot be resolved to a custody wallet")
  | .ok (some resolved) => .ok resolved

def destinationAddress (destination : Destination) : Except Refusal String :=
  (Accounts.destinationAddress svc.accountMapping destination svc.chainId).mapError fun message =>
    .thrown (.error message)

/-! ### Operations -/

def issue (ast : Asset) (destination : Destination) (quantity : String)
    (exCtx : Option ExecutionContext) : Except Refusal (Move W T) := do
  let asset ← svc.assetRecord ast.assetId
  let standard ← svc.standardOf asset
  match svc.issuerWallet with
  | none => .error (.answered "ASSET_ISSUER_PRIVATE_KEY is not set — issuance is disabled")
  | some wallet =>
    let address ← svc.destinationAddress destination
    let amount ← svc.amountOf asset quantity
    return ⟨standard, .mint wallet asset address amount none,
      ⟨ast, .issue, quantity, some ⟨destination.finId, destination.account⟩, some destination,
        exCtx, none⟩⟩

def transfer (source : Source) (destination : Destination) (ast : Asset) (quantity : String)
    (signature : Option Signature) (exCtx : Option ExecutionContext) : Except Refusal (Move W T) := do
  let asset ← svc.assetRecord ast.assetId
  let standard ← svc.standardOf asset
  let (_, wallet) ← svc.sourceWallet source.finId
  let amount ← svc.amountOf asset quantity
  let destinationAddress ← svc.destinationAddress destination
  let opCtx := buildOperationContext ast signature exCtx none .release
  return ⟨standard, .transfer wallet asset destinationAddress amount opCtx,
    ⟨ast, .transfer, quantity, some source, some destination, exCtx, none⟩⟩

/-- Held tokens are where the standard's `hold` left them. -/
def redeem (source : Source) (ast : Asset) (quantity : String) (operationId : Option String)
    (signature : Option Signature) (exCtx : Option ExecutionContext) : Except Refusal (Move W T) := do
  let asset ← svc.assetRecord ast.assetId
  let standard ← svc.standardOf asset
  let amount ← svc.amountOf asset quantity
  let opCtx := buildOperationContext ast signature exCtx operationId .redeem
  let details : ReceiptDetails := ⟨ast, .redeem, quantity, some source, none, exCtx, operationId⟩
  match truthy operationId with
  | some _ =>
    let model ← (svc.registry.holdModel asset.tokenStandard).mapError .thrown
    if model = .holderReservation then
      return ⟨standard, .release svc.escrowWallet asset zeroAddress amount opCtx, details⟩
    else
      return ⟨standard, .burn svc.escrowWallet asset (svc.address svc.escrowWallet) amount opCtx,
        details⟩
  | none =>
    let (address, wallet) ← svc.sourceWallet source.finId
    return ⟨standard, .burn wallet asset address amount opCtx, details⟩

def hold (source : Source) (destination : Option Destination) (ast : Asset) (quantity : String)
    (signature : Option Signature) (operationId : String) (exCtx : Option ExecutionContext) :
    Except Refusal (Move W T) := do
  let asset ← svc.assetRecord ast.assetId
  let standard ← svc.standardOf asset
  let (_, wallet) ← svc.sourceWallet source.finId
  let amount ← svc.amountOf asset quantity
  let opCtx := buildOperationContext ast signature exCtx (some operationId)
    (deriveReleaseType signature destination)
  return ⟨standard, .hold wallet svc.escrowWallet asset amount opCtx,
    ⟨ast, .hold, quantity, some source, destination, exCtx, some operationId⟩⟩

def release (source : Source) (destination : Destination) (ast : Asset) (quantity operationId : String)
    (exCtx : Option ExecutionContext) : Except Refusal (Move W T) := do
  let asset ← svc.assetRecord ast.assetId
  let standard ← svc.standardOf asset
  let destinationAddress ← svc.destinationAddress destination
  let amount ← svc.amountOf asset quantity
  let opCtx := buildOperationContext ast none exCtx (some operationId) .release
  return ⟨standard, .release svc.escrowWallet asset destinationAddress amount opCtx,
    ⟨ast, .release, quantity, some source, some destination, exCtx, some operationId⟩⟩

def rollback (source : Source) (ast : Asset) (quantity operationId : String)
    (exCtx : Option ExecutionContext) : Except Refusal (Move W T) := do
  let asset ← svc.assetRecord ast.assetId
  let standard ← svc.standardOf asset
  let sourceAddress ← svc.resolveAddress source.finId
  let amount ← svc.amountOf asset quantity
  let opCtx := buildOperationContext ast none exCtx (some operationId) .release
  return ⟨standard, .release svc.escrowWallet asset sourceAddress amount opCtx,
    ⟨ast, .release, quantity, some source, none, exCtx, some operationId⟩⟩

/-! ### What the operations call -/

section Specs

variable {svc}

theorem assetRecord_eq_ok {assetId : String} {asset : AssetRecord} :
    svc.assetRecord assetId = .ok asset ↔ svc.assets assetId = some asset := by
  unfold assetRecord
  cases svc.assets assetId with
  | none => simp
  | some a => simp

theorem sourceWallet_eq_ok {finId : String} {resolved : String × W} :
    svc.sourceWallet finId = .ok resolved ↔
      resolveSourceWallet svc.custodyProvider svc.accountMapping finId = .ok (some resolved) := by
  unfold sourceWallet
  split
  · rename_i e he
    simp [he]
  · rename_i he
    simp [he]
  · rename_i r he
    simp [he]

/-- What every operation needs of its asset, standard and quantity. -/
structure Resolved (svc : Service W T) (ast : Asset) (quantity : String) (record : AssetRecord)
    (impl : T) (units : ℤ) : Prop where
  asset : svc.assets ast.assetId = some record
  standard : svc.registry.resolve record.tokenStandard = .ok impl
  amount : svc.parseUnits quantity record.decimals = .ok units

theorem destinationAddress_eq_ok {destination : Destination} {address : String} :
    svc.destinationAddress destination = .ok address ↔
      Accounts.destinationAddress svc.accountMapping destination svc.chainId = .ok address :=
  mapError_eq_ok

theorem hold_eq_ok {source : Source} {destination : Option Destination} {ast : Asset}
    {quantity : String}
    {signature : Option Signature} {operationId : String} {exCtx : Option ExecutionContext}
    {move : Move W T} :
    svc.hold source destination ast quantity signature operationId exCtx = .ok move ↔
      ∃ asset standard amount address wallet, Resolved svc ast quantity asset standard amount ∧
        resolveSourceWallet svc.custodyProvider svc.accountMapping source.finId =
          .ok (some (address, wallet)) ∧
        move = ⟨standard, .hold wallet svc.escrowWallet asset amount
          (buildOperationContext ast signature exCtx (some operationId)
            (deriveReleaseType signature destination)),
          ⟨ast, .hold, quantity, some source, destination, exCtx, some operationId⟩⟩ := by
  simp only [hold, bind_eq_ok, assetRecord_eq_ok, standardOf, mapError_eq_ok, sourceWallet_eq_ok,
    amountOf]
  constructor
  · rintro ⟨asset, ha, standard, hs, ⟨address, wallet⟩, hw, amount, hq, he⟩
    cases he
    exact ⟨asset, standard, amount, address, wallet, ⟨ha, hs, hq⟩, hw, rfl⟩
  · rintro ⟨asset, standard, amount, address, wallet, ⟨ha, hs, hq⟩, hw, rfl⟩
    exact ⟨asset, ha, standard, hs, (address, wallet), hw, amount, hq, rfl⟩

theorem release_eq_ok {source : Source} {destination : Destination} {ast : Asset}
    {quantity operationId : String} {exCtx : Option ExecutionContext} {move : Move W T} :
    svc.release source destination ast quantity operationId exCtx = .ok move ↔
      ∃ asset standard amount address, Resolved svc ast quantity asset standard amount ∧
        svc.destinationAddress destination = .ok address ∧
        move = ⟨standard, .release svc.escrowWallet asset address amount
          (buildOperationContext ast none exCtx (some operationId) .release),
          ⟨ast, .release, quantity, some source, some destination, exCtx, some operationId⟩⟩ := by
  simp only [release, bind_eq_ok, assetRecord_eq_ok, standardOf, mapError_eq_ok, amountOf]
  constructor
  · rintro ⟨asset, ha, standard, hs, address, hd, amount, hq, he⟩
    cases he
    exact ⟨asset, standard, amount, address, ⟨ha, hs, hq⟩, hd, rfl⟩
  · rintro ⟨asset, standard, amount, address, ⟨ha, hs, hq⟩, hd, rfl⟩
    exact ⟨asset, ha, standard, hs, address, hd, amount, hq, rfl⟩

theorem resolveAddress_eq_ok {finId address : String} :
    svc.resolveAddress finId = .ok address ↔
      resolveAccount svc.accountMapping finId = some address := by
  unfold resolveAddress
  cases resolveAccount svc.accountMapping finId with
  | none => simp
  | some a => simp

theorem rollback_eq_ok {source : Source} {ast : Asset} {quantity operationId : String}
    {exCtx : Option ExecutionContext} {move : Move W T} :
    svc.rollback source ast quantity operationId exCtx = .ok move ↔
      ∃ asset standard amount address, Resolved svc ast quantity asset standard amount ∧
        resolveAccount svc.accountMapping source.finId = some address ∧
        move = ⟨standard, .release svc.escrowWallet asset address amount
          (buildOperationContext ast none exCtx (some operationId) .release),
          ⟨ast, .release, quantity, some source, none, exCtx, some operationId⟩⟩ := by
  simp only [rollback, bind_eq_ok, assetRecord_eq_ok, standardOf, mapError_eq_ok, amountOf,
    resolveAddress_eq_ok]
  constructor
  · rintro ⟨asset, ha, standard, hs, address, hd, amount, hq, he⟩
    cases he
    exact ⟨asset, standard, amount, address, ⟨ha, hs, hq⟩, hd, rfl⟩
  · rintro ⟨asset, standard, amount, address, ⟨ha, hs, hq⟩, hd, rfl⟩
    exact ⟨asset, ha, standard, hs, address, hd, amount, hq, rfl⟩

/-- A redemption of held tokens, by the standard's hold model. -/
theorem redeem_held_eq_ok {source : Source} {ast : Asset} {quantity operationId : String}
    {signature : Option Signature} {exCtx : Option ExecutionContext} {move : Move W T}
    (hop : operationId ≠ "") :
    svc.redeem source ast quantity (some operationId) signature exCtx = .ok move ↔
      ∃ asset standard amount model, Resolved svc ast quantity asset standard amount ∧
        svc.registry.holdModel asset.tokenStandard = .ok model ∧
        move = ⟨standard,
          if model = .holderReservation then
            .release svc.escrowWallet asset zeroAddress amount
              (buildOperationContext ast signature exCtx (some operationId) .redeem)
          else .burn svc.escrowWallet asset (svc.address svc.escrowWallet) amount
            (buildOperationContext ast signature exCtx (some operationId) .redeem),
          ⟨ast, .redeem, quantity, some source, none, exCtx, some operationId⟩⟩ := by
  have ht : truthy (some operationId) = some operationId := truthy_eq_some.mpr ⟨rfl, hop⟩
  simp only [redeem, bind_eq_ok, assetRecord_eq_ok, standardOf, mapError_eq_ok, amountOf, ht]
  constructor
  · rintro ⟨asset, ha, standard, hs, amount, hq, model, hm, he⟩
    refine ⟨asset, standard, amount, model, ⟨ha, hs, hq⟩, hm, ?_⟩
    split_ifs at he ⊢ <;> exact (Except.ok.inj he).symm
  · rintro ⟨asset, standard, amount, model, ⟨ha, hs, hq⟩, hm, rfl⟩
    refine ⟨asset, ha, standard, hs, amount, hq, model, hm, ?_⟩
    split_ifs <;> rfl

/-- A redemption without an operation id burns the source's own tokens. -/
theorem redeem_own_eq_ok {source : Source} {ast : Asset} {quantity : String}
    {operationId : Option String}
    {signature : Option Signature} {exCtx : Option ExecutionContext} {move : Move W T}
    (hop : truthy operationId = none) :
    svc.redeem source ast quantity operationId signature exCtx = .ok move ↔
      ∃ asset standard amount address wallet, Resolved svc ast quantity asset standard amount ∧
        resolveSourceWallet svc.custodyProvider svc.accountMapping source.finId =
          .ok (some (address, wallet)) ∧
        move = ⟨standard, .burn wallet asset address amount
          (buildOperationContext ast signature exCtx operationId .redeem),
          ⟨ast, .redeem, quantity, some source, none, exCtx, operationId⟩⟩ := by
  simp only [redeem, bind_eq_ok, assetRecord_eq_ok, standardOf, mapError_eq_ok, amountOf, hop,
    sourceWallet_eq_ok]
  constructor
  · rintro ⟨asset, ha, standard, hs, amount, hq, ⟨address, wallet⟩, hw, he⟩
    cases he
    exact ⟨asset, standard, amount, address, wallet, ⟨ha, hs, hq⟩, hw, rfl⟩
  · rintro ⟨asset, standard, amount, address, wallet, ⟨ha, hs, hq⟩, hw, rfl⟩
    exact ⟨asset, ha, standard, hs, amount, hq, (address, wallet), hw, rfl⟩

theorem issue_eq_ok {destination : Destination} {ast : Asset} {quantity : String}
    {exCtx : Option ExecutionContext} {move : Move W T} :
    svc.issue ast destination quantity exCtx = .ok move ↔
      ∃ asset standard amount wallet address, Resolved svc ast quantity asset standard amount ∧
        svc.issuerWallet = some wallet ∧ svc.destinationAddress destination = .ok address ∧
        move = ⟨standard, .mint wallet asset address amount none,
          ⟨ast, .issue, quantity, some ⟨destination.finId, destination.account⟩, some destination,
            exCtx, none⟩⟩ := by
  simp only [issue, bind_eq_ok, assetRecord_eq_ok, standardOf, mapError_eq_ok]
  cases svc.issuerWallet with
  | none => simp
  | some wallet =>
    simp only [bind_eq_ok, amountOf, mapError_eq_ok]
    constructor
    · rintro ⟨asset, ha, standard, hs, address, hd, amount, hq, he⟩
      cases he
      exact ⟨asset, standard, amount, wallet, address, ⟨ha, hs, hq⟩, rfl, hd, rfl⟩
    · rintro ⟨asset, standard, amount, _, address, ⟨ha, hs, hq⟩, ⟨⟩, hd, rfl⟩
      exact ⟨asset, ha, standard, hs, address, hd, amount, hq, rfl⟩

theorem transfer_eq_ok {source : Source} {destination : Destination} {ast : Asset} {quantity : String}
    {signature : Option Signature} {exCtx : Option ExecutionContext} {move : Move W T} :
    svc.transfer source destination ast quantity signature exCtx = .ok move ↔
      ∃ asset standard amount own wallet address, Resolved svc ast quantity asset standard amount ∧
        resolveSourceWallet svc.custodyProvider svc.accountMapping source.finId =
          .ok (some (own, wallet)) ∧
        svc.destinationAddress destination = .ok address ∧
        move = ⟨standard, .transfer wallet asset address amount
          (buildOperationContext ast signature exCtx none .release),
          ⟨ast, .transfer, quantity, some source, some destination, exCtx, none⟩⟩ := by
  simp only [transfer, bind_eq_ok, assetRecord_eq_ok, standardOf, mapError_eq_ok,
    sourceWallet_eq_ok, amountOf]
  constructor
  · rintro ⟨asset, ha, standard, hs, ⟨own, wallet⟩, hw, amount, hq, address, hd, he⟩
    cases he
    exact ⟨asset, standard, amount, own, wallet, address, ⟨ha, hs, hq⟩, hw, hd, rfl⟩
  · rintro ⟨asset, standard, amount, own, wallet, address, ⟨ha, hs, hq⟩, hw, hd, rfl⟩
    exact ⟨asset, ha, standard, hs, (own, wallet), hw, amount, hq, address, hd, rfl⟩

end Specs

end Service

end FinP2PAdapter.Custody
