import FinP2PAdapter.Custody.TokenOperations
import FinP2PAdapter.Library.Decimals

/-! The operations that hold tokens and settle them, and the operation id they share.
The id reaches the standard inside the operation context only, which is built for a
request with an execution context and for no other. -/

namespace FinP2PAdapter.Custody

open Accounts TokenStandards
open Operations (OperationContext buildOperationContext)

/-- A request to hold tokens, to settle held ones, or to redeem. -/
inductive EscrowOperation where
  | hold (source : Source) (destination : Option Destination) (quantity : String)
      (signature : Option Signature)
    (operationId : String)
  | release (source : Source) (destination : Destination) (quantity operationId : String)
  | rollback (source : Source) (quantity operationId : String)
  | redeem (source : Source) (quantity : String) (operationId : Option String)
      (signature : Option Signature)
  deriving DecidableEq, Repr

namespace EscrowOperation

variable {W T : Type}

/-- The call the service makes for it. -/
def request (op : EscrowOperation) (svc : Service W T) (ast : Asset) (exCtx : Option ExecutionContext) :
    Except Refusal (Move W T) :=
  match op with
  | .hold source destination quantity signature operationId =>
    svc.hold source destination ast quantity signature operationId exCtx
  | .release source destination quantity operationId =>
      svc.release source destination ast quantity operationId exCtx
  | .rollback source quantity operationId => svc.rollback source ast quantity operationId exCtx
  | .redeem source quantity operationId signature =>
      svc.redeem source ast quantity operationId signature exCtx

def operationId : EscrowOperation → Option String
  | .hold _ _ _ _ operationId | .release _ _ _ operationId | .rollback _ _ operationId =>
    some operationId
  | .redeem _ _ operationId _ => operationId

def IsRedeem : EscrowOperation → Prop
  | .redeem _ _ _ _ => True
  | _ => False

/-- The release type the operation is sent with. -/
def releaseType : EscrowOperation → ReleaseType
  | .hold _ destination _ signature _ => Operations.deriveReleaseType signature destination
  | .redeem _ _ _ _ => .redeem
  | _ => .release

/-- The signature the context is derived from. -/
def signature : EscrowOperation → Option Signature
  | .hold _ _ _ signature _ | .redeem _ _ _ signature => signature
  | _ => none

/-- Whichever call is made, its context is built from the operation. -/
theorem opCtx_of_request {op : EscrowOperation} {svc : Service W T} {ast : Asset}
    {exCtx : Option ExecutionContext} {move : Move W T} (h : op.request svc ast exCtx = .ok move) :
    move.call.opCtx = buildOperationContext ast op.signature exCtx op.operationId op.releaseType := by
  cases op with
  | hold source destination quantity signature operationId =>
    obtain ⟨asset, standard, amount, address, wallet, -, -, rfl⟩ := Service.hold_eq_ok.mp h
    rfl
  | release source destination quantity operationId =>
    obtain ⟨asset, standard, amount, address, -, -, rfl⟩ := Service.release_eq_ok.mp h
    rfl
  | rollback source quantity operationId =>
    obtain ⟨asset, standard, amount, address, -, -, rfl⟩ := Service.rollback_eq_ok.mp h
    rfl
  | redeem source quantity operationId signature =>
    cases hop : truthy operationId with
    | none =>
      obtain ⟨asset, standard, amount, address, wallet, -, -, rfl⟩ :=
        (Service.redeem_own_eq_ok hop).mp h
      rfl
    | some id =>
      obtain ⟨rfl, hne⟩ := truthy_eq_some.mp hop
      obtain ⟨asset, standard, amount, model, -, -, rfl⟩ := (Service.redeem_held_eq_ok hne).mp h
      dsimp only
      split_ifs <;> rfl

/-- A redemption of an asset whose standard holds tokens on the holder's account. -/
def RedeemsReservation (svc : Service W T) (ast : Asset) (op : EscrowOperation) : Prop :=
  op.IsRedeem ∧ ∃ asset, svc.assets ast.assetId = some asset ∧
    svc.registry.holdModel asset.tokenStandard = .ok .holderReservation

/-- The context of the call names the operation, and says of a redemption that resolves a
reservation that it is one. -/
def Carries (svc : Service W T) (ast : Asset) (op : EscrowOperation) (call : StandardCall W) : Prop :=
  ∃ ctx, call.opCtx = some ctx ∧ ctx.operationId = op.operationId ∧
    (op.RedeemsReservation svc ast → ctx.releaseType = .redeem)

/-- The settlement's call names the operation the tokens were held under. -/
def Names (settled held : StandardCall W) : Prop :=
  ∃ ctx ctx' operationId, held.opCtx = some ctx ∧ settled.opCtx = some ctx' ∧
    ctx.operationId = some operationId ∧ ctx'.operationId = some operationId

theorem buildOperationContext_eq_some {ast : Asset} {signature : Option Signature}
    {exCtx : Option ExecutionContext} {operationId : Option String} {releaseType : ReleaseType} :
    (∃ ctx, buildOperationContext ast signature exCtx operationId releaseType = some ctx ∧
      ctx.operationId = operationId ∧ ctx.releaseType = releaseType) ↔ exCtx ≠ none := by
  cases exCtx with
  | none => simp [buildOperationContext]
  | some exCtx => simp [buildOperationContext]

theorem carries_iff {op : EscrowOperation} {svc : Service W T} {ast : Asset}
    {exCtx : Option ExecutionContext} {move : Move W T}
    (h : op.request svc ast exCtx = .ok move) : op.Carries svc ast move.call ↔ exCtx ≠ none := by
  rw [Carries, opCtx_of_request h]
  constructor
  · rintro ⟨ctx, hctx, -⟩ rfl
    cases hctx
  · intro hex
    obtain ⟨ctx, hctx, hid, htype⟩ := buildOperationContext_eq_some.mpr hex
    refine ⟨ctx, hctx, hid, fun hredeem => ?_⟩
    rw [htype]
    cases op with
    | redeem => rfl
    | _ => exact hredeem.1.elim

end EscrowOperation

open EscrowOperation

/-- For every hold, settlement and held redemption that is sent to a standard: its
context carries the operation id, and a redemption's its release type, exactly if
there is an execution context; and a settlement names the operation its tokens were
held under exactly if there is one for both. -/
theorem operationId_carried_iff {W T : Type} (svc : Service W T) (ast : Asset) :
    (∀ (op : EscrowOperation) (operationId : String) (exCtx : Option ExecutionContext)
      (move : Move W T), op.operationId = some operationId → op.request svc ast exCtx = .ok move →
        (op.Carries svc ast move.call ↔ exCtx ≠ none)) ∧
    ∀ (held settled : EscrowOperation) (operationId : String) (exCtx exCtx' : Option ExecutionContext)
      (move move' : Move W T), held.operationId = some operationId →
        settled.operationId = some operationId →
        held.request svc ast exCtx = .ok move → settled.request svc ast exCtx' = .ok move' →
          (Names move'.call move.call ↔ exCtx ≠ none ∧ exCtx' ≠ none) := by
  refine ⟨fun op operationId exCtx move _ h => carries_iff h, ?_⟩
  intro held settled operationId exCtx exCtx' move move' hheld hsettled h h'
  constructor
  · rintro ⟨ctx, ctx', id, hctx, hctx', -⟩
    rw [opCtx_of_request h] at hctx
    rw [opCtx_of_request h'] at hctx'
    constructor
    · rintro rfl
      cases hctx
    · rintro rfl
      cases hctx'
  · rintro ⟨hex, hex'⟩
    obtain ⟨ctx, hctx, hid, -⟩ := (carries_iff h).mpr hex
    obtain ⟨ctx', hctx', hid', -⟩ := (carries_iff h').mpr hex'
    exact ⟨ctx, ctx', operationId, hctx, hctx', hid.trans hheld, hid'.trans hsettled⟩

/-! ### A desk with one asset -/

def escrowAddress : String := "0xeeeeeeeeeeeeeeeeeeeeeeeeeeeeeeeeeeeeeeee"
def aliceAddress : String := "0x1111111111111111111111111111111111111111"
def deskRecord : Omnibus.AssetRecord := ⟨"0xcccccccccccccccccccccccccccccccccccccccc", 2, "DESK"⟩
def deskAsset : Asset := ⟨"asset-1", "finp2p"⟩

/-- A service whose wallets are their addresses, with one investor and one asset. -/
def deskService (model : HoldModel) : Service String String where
  custodyProvider := ⟨fun address => .ok (some address), none, none⟩
  escrowWallet := escrowAddress
  issuerWallet := none
  address := id
  chainId := 1
  accountMapping finId := if finId = "alice" then some ⟨some aliceAddress, none⟩ else none
  assets assetId := if assetId = "asset-1" then some deskRecord else none
  registry := ⟨String.toUpper, JsMap.empty.set "DESK" ⟨"desk standard", model⟩⟩
  parseUnits := Decimals.parseUnits

theorem desk_resolved (model : HoldModel) :
    (deskService model).Resolved deskAsset "1.0" deskRecord "desk standard" 100 := by
  cases model <;> exact ⟨by decide +kernel, by decide +kernel, by decide +kernel⟩

/-- What the service sends for a redemption of tokens alice holds under `op-1`. -/
def deskRelease (exCtx : Option ExecutionContext) : StandardCall String :=
  .release escrowAddress deskRecord zeroAddress 100
    (buildOperationContext deskAsset none exCtx (some "op-1") .redeem)

theorem desk_redeem (exCtx : Option ExecutionContext) :
    (EscrowOperation.redeem ⟨"alice", none⟩ "1.0" (some "op-1") none).request
      (deskService .holderReservation)
      deskAsset exCtx = .ok ⟨"desk standard", deskRelease exCtx,
        ⟨deskAsset, .redeem, "1.0", some ⟨"alice", none⟩, none, exCtx, some "op-1"⟩⟩ := by
  have hop : "op-1" ≠ "" := by decide
  exact (Service.redeem_held_eq_ok hop).mpr ⟨deskRecord, "desk standard", 100, .holderReservation,
    desk_resolved .holderReservation, by decide +kernel, rfl⟩

/-- With an execution context a held redemption carries id and release type. -/
theorem held_redeem_carries : (EscrowOperation.redeem ⟨"alice", none⟩ "1.0" (some "op-1") none).Carries
    (deskService .holderReservation) deskAsset (deskRelease (some ⟨"plan", 1⟩)) :=
  ((operationId_carried_iff _ _).1 _ "op-1" _ _ rfl (desk_redeem (some ⟨"plan", 1⟩))).mpr (by decide)

/-- Without one it reaches the standard with no operation id at all. -/
theorem held_redeem_nameless : ∃ move : Move String String,
    (EscrowOperation.redeem ⟨"alice", none⟩ "1.0" (some "op-1") none).request
      (deskService .holderReservation)
      deskAsset none = .ok move ∧
    ¬ (EscrowOperation.redeem ⟨"alice", none⟩ "1.0" (some "op-1") none).Carries
      (deskService .holderReservation)
      deskAsset move.call := by
  refine ⟨_, desk_redeem none, ?_⟩
  rintro ⟨ctx, hctx, -⟩
  cases hctx

end FinP2PAdapter.Custody
