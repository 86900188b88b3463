import FinP2PAdapter.Library.Holdings
import FinP2PAdapter.TokenStandards.Registry

/-! What the registry's two hold models stand for: how a standard of each keeps the tokens
of an asset, as far as holds, settlements and redemptions go. -/

namespace FinP2PAdapter.TokenStandards

open Holds
open Operations (OperationContext)

/-- A standard at work on its chain; a call that fails leaves it as it was. -/
abbrev Standard (W L : Type) := L → StandardCall W → Option L

variable {W L A : Type} [DecidableEq A]

/-- Held tokens are moved to the escrow wallet and settled from there. -/
structure EscrowTransfer (account : String → A) (address : W → String) (standard : Standard W L)
    (book : L → Book A) : Prop where
  hold : ∀ l sourceWallet escrowWallet asset amount opCtx,
    (standard l (.hold sourceWallet escrowWallet asset amount opCtx)).map book =
      (book l).move (account (address sourceWallet)) (account (address escrowWallet)) amount
  release : ∀ l escrowWallet asset target amount opCtx,
    (standard l (.release escrowWallet asset target amount opCtx)).map book =
      (book l).move (account (address escrowWallet)) (account target) amount
  burn : ∀ l wallet asset source amount opCtx,
    (standard l (.burn wallet asset source amount opCtx)).map book =
      (book l).burn (account source) amount

/-- Held tokens are reserved on the holder's account under the operation id; a release
resolves the reservation, to the target or, on redemption, to nobody. -/
structure HolderReservation (account : String → A) (address : W → String) (standard : Standard W L)
    (holdings : L → Holdings A String) : Prop where
  hold : ∀ l sourceWallet escrowWallet asset amount (opCtx : OperationContext) operationId,
    opCtx.operationId = some operationId →
      (standard l (.hold sourceWallet escrowWallet asset amount (some opCtx))).map holdings =
        (holdings l).perform (.hold operationId (account (address sourceWallet)) amount)
  release : ∀ l escrowWallet asset target amount (opCtx : OperationContext) operationId,
    opCtx.operationId = some operationId → opCtx.releaseType = .release →
      (standard l (.release escrowWallet asset target amount (some opCtx))).map holdings =
        (holdings l).perform (.deliver operationId (account target) amount)
  redeem : ∀ l escrowWallet asset target amount (opCtx : OperationContext) operationId,
    opCtx.operationId = some operationId → opCtx.releaseType = .redeem →
      (standard l (.release escrowWallet asset target amount (some opCtx))).map holdings =
        (holdings l).perform (.destroy operationId amount)
  burn : ∀ l wallet asset source amount opCtx,
    (standard l (.burn wallet asset source amount opCtx)).map holdings =
      (holdings l).perform (.burn (account source) amount)

/-- The calls that carry out an order, by the hold model. -/
inductive Sends (account : String → A) (address : W → String) (escrowWallet : W) (model : HoldModel) :
    Order A String → StandardCall W → Prop where
  | hold {operationId sourceWallet asset amount} {opCtx : OperationContext}
    (hid : opCtx.operationId = some operationId) :
      Sends account address escrowWallet model
        (.hold operationId (account (address sourceWallet)) amount)
      (.hold sourceWallet escrowWallet asset amount (some opCtx))
  | release {operationId asset target amount} {opCtx : OperationContext}
      (hid : opCtx.operationId = some operationId)
    (htype : opCtx.releaseType = .release) : Sends account address escrowWallet model
      (.deliver operationId (account target) amount)
        (.release escrowWallet asset target amount (some opCtx))
  | burnHeld {operationId asset amount opCtx} (hm : model = .escrowTransfer) :
    Sends account address escrowWallet model (.destroy operationId amount)
      (.burn escrowWallet asset (address escrowWallet) amount opCtx)
  | redeemHeld {operationId asset target amount} {opCtx : OperationContext}
      (hm : model = .holderReservation)
    (hid : opCtx.operationId = some operationId) (htype : opCtx.releaseType = .redeem) :
    Sends account address escrowWallet model (.destroy operationId amount)
      (.release escrowWallet asset target amount (some opCtx))
  | burn {wallet asset source amount opCtx} :
      Sends account address escrowWallet model (.burn (account source) amount)
      (.burn wallet asset source amount opCtx)

variable {account : String → A} {address : W → String} {escrowWallet : W} {standard : Standard W L}

/-- An escrow-transfer standard does what its asset's book does by way of the escrow account. -/
theorem EscrowTransfer.performs {book : L → Book A} (h : EscrowTransfer account address standard book)
    {o : Order A String} {call : StandardCall W}
    (hs : Sends account address escrowWallet .escrowTransfer o call) (l : L) :
    (standard l call).map book = (book l).perform (account (address escrowWallet)) o := by
  cases hs with
  | hold => exact h.hold ..
  | release => exact h.release ..
  | burnHeld => exact h.burn ..
  | redeemHeld hm => cases hm
  | burn => exact h.burn ..

/-- A holder-reservation standard does what its asset's holdings do. -/
theorem HolderReservation.performs {holdings : L → Holdings A String}
    (h : HolderReservation account address standard holdings) {o : Order A String}
    {call : StandardCall W}
    (hs : Sends account address escrowWallet .holderReservation o call) (l : L) :
    (standard l call).map holdings = (holdings l).perform o := by
  cases hs with
  | hold hid => exact h.hold _ _ _ _ _ _ _ hid
  | release hid htype => exact h.release _ _ _ _ _ _ _ hid htype
  | burnHeld hm => cases hm
  | redeemHeld _ hid htype => exact h.redeem _ _ _ _ _ _ _ hid htype
  | burn => exact h.burn ..

end FinP2PAdapter.TokenStandards
