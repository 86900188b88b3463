import FinP2PAdapter.Custody.TokenOperations
import FinP2PAdapter.Library.Effects

/-! The operations of the custody token service as they run, with everything that may fail on the
way: the stores, the account mapping, the custody provider, the chain and the token standard may
each reject, and may answer differently each time they are asked. A run logs its lookups, its
checks and its calls of the token standard. Whatever fails, an operation returns a receipt, calls
the standard at most once, and not at all after a failure of its own. -/

namespace FinP2PAdapter.Custody

open Accounts Effects TokenStandards
open Omnibus (AssetRecord)
open Operations (OperationContext buildOperationContext deriveReleaseType)

/-- What an operation asks of the services around it. -/
inductive Query (W : Type) where
  | getAsset (assetId : String)
  | resolveAccount (finId : String)
  | resolveFullAccount (finId : String)
  | createWalletForCustodyId (custodyAccountId : String)
  | resolveWallet (address : String)
  | getNetwork
  | getAddress (wallet : W)
  deriving DecidableEq, Repr

inductive Event (W T : Type) where
  | lookup (query : Query W) (succeeded : Bool)
  | check (succeeded : Bool)
  | call (standard : T) (call : StandardCall W) (answer : Except ServiceError TokenOperationResult)

def Event.failed {W T : Type} : Event W T → Bool
  | .lookup _ succeeded | .check succeeded => !succeeded
  | .call .. => false

def Event.isCall {W T : Type} : Event W T → Bool
  | .call .. => true
  | _ => false

abbrev Run (W T α : Type) := Op ServiceError (Event W T) α

/-- The service and the world it runs in, which answers by what has happened so far. The account
resolver and the custody provider may lack their optional methods. -/
structure World (W T : Type) where
  escrowWallet : W
  issuerWallet : Option W
  registry : TokenStandardRegistry T
  parseUnits : String → ℕ → Except String ℤ
  getAsset : String → List (Event W T) → Except ServiceError (Option AssetRecord)
  resolveAccount : String → List (Event W T) → Except ServiceError (Option String)
  resolveFullAccount : Option (String → List (Event W T) → Except ServiceError (Option ResolvedAccount))
  createWalletForCustodyId : Option (String → List (Event W T) → Except ServiceError W)
  resolveWallet : String → List (Event W T) → Except ServiceError (Option W)
  getNetwork : List (Event W T) → Except ServiceError ℕ
  getAddress : W → List (Event W T) → Except ServiceError String
  perform : T → StandardCall W → List (Event W T) → Except ServiceError TokenOperationResult

namespace World

variable {W T α : Type} (w : World W T)

/-! ### Lookups and checks -/

def ask (query : Query W) (answer : List (Event W T) → Except ServiceError α) : Run W T α :=
  .emit (fun history => .lookup query (answer history).isOk) answer

def require (outcome : Except ServiceError α) : Run W T α :=
  .emit (fun _ => .check outcome.isOk) fun _ => outcome

/-- An early return with a failed receipt. -/
def refuse (message : String) : Run W T ReceiptOperation :=
  .emit (fun _ => .check false) fun _ => .ok (.failed 1 (.answered message))

def callStandard (standard : T) (call : StandardCall W) : Run W T TokenOperationResult :=
  .emit (fun history => .call standard call (w.perform standard call history)) (w.perform standard call)

def resolveAddress (finId : String) : Run W T String := do
  let address ← ask (.resolveAccount finId) (w.resolveAccount finId)
  require <| match address with
    | none => .error (.error s!"Cannot resolve address for finId: {finId}")
    | some address => .ok address

def assetRecord (assetId : String) : Run W T AssetRecord := do
  let dbAsset ← ask (.getAsset assetId) (w.getAsset assetId)
  require <| match dbAsset with
    | none => .error (.error s!"Asset {assetId} is not registered in DB")
    | some asset => .ok asset

/-- The last part of `resolveSourceWallet`: an empty address and an unknown one have no wallet. -/
def walletFor (address : String) : Run W T (Option (String × W)) :=
  if address = "" then pure none
  else do
    let wallet ← ask (.resolveWallet address) (w.resolveWallet address)
    return wallet.map (address, ·)

/-- Nothing where the account mapping lacks the method. -/
def fullAccount (finId : String) : Run W T (Option ResolvedAccount) :=
  match w.resolveFullAccount with
  | some resolveFullAccount => ask (.resolveFullAccount finId) (resolveFullAccount finId)
  | none => pure none

def resolveSourceWallet (finId : String) : Run W T (Option (String × W)) := do
  match ← w.fullAccount finId with
  | some full =>
    match truthy full.custodyAccountId, w.createWalletForCustodyId with
    | some custodyAccountId, some createWalletForCustodyId => do
      let wallet ← ask (.createWalletForCustodyId custodyAccountId)
        (createWalletForCustodyId custodyAccountId)
      return some (full.ledgerAccountId, wallet)
    | _, _ => w.walletFor full.ledgerAccountId
  | none => do
    match ← ask (.resolveAccount finId) (w.resolveAccount finId) with
    | some address => w.walletFor address
    | none => return none

/-- The mapped address, or else the one on the leg, for which the chain id is fetched. -/
def destinationAddress (destination : Destination) : Run W T String := do
  let finId := destination.finId
  let address ← match ← ask (.resolveAccount finId) (w.resolveAccount finId) with
    | some address => pure (some address)
    | none => do
      let chainId ← ask .getNetwork w.getNetwork
      require ((ledgerAccountAddress destination.account chainId).mapError .error)
  require <| match truthy address with
    | none => .error (.error s!"Cannot resolve address for finId: {finId}")
    | some address => .ok address

def standardOf (asset : AssetRecord) : Run W T T := require (w.registry.resolve asset.tokenStandard)

def amountOf (asset : AssetRecord) (quantity : String) : Run W T ℤ :=
  require ((w.parseUnits quantity asset.decimals).mapError .error)

/-- The call of the standard, and the receipt of it. -/
def settle (standard : T) (call : StandardCall W) (details : ReceiptDetails) : Run W T ReceiptOperation := do
  let result ← w.callStandard standard call
  return resultToReceipt result details

/-- `try .. catch (e) { return failedReceiptOperation(1, e) }`. -/
def attempt (body : Run W T ReceiptOperation) : Run W T ReceiptOperation :=
  body.orElse fun e => .failed 1 (.thrown e)

/-! ### Operations -/

def issue (ast : Asset) (destination : Destination) (quantity : String)
    (exCtx : Option ExecutionContext) : Run W T ReceiptOperation :=
  attempt do
    let asset ← w.assetRecord ast.assetId
    let standard ← w.standardOf asset
    match w.issuerWallet with
    | none => refuse "ASSET_ISSUER_PRIVATE_KEY is not set — issuance is disabled"
    | some wallet =>
      let address ← w.destinationAddress destination
      let amount ← w.amountOf asset quantity
      w.settle standard (.mint wallet asset address amount none)
        ⟨ast, .issue, quantity, some ⟨destination.finId, destination.account⟩, some destination,
          exCtx, none⟩

def transfer (source : Source) (destination : Destination) (ast : Asset) (quantity : String)
    (signature : Option Signature) (exCtx : Option ExecutionContext) : Run W T ReceiptOperation :=
  attempt do
    let asset ← w.assetRecord ast.assetId
    let standard ← w.standardOf asset
    match ← w.resolveSourceWallet source.finId with
    | none => refuse "Source address cannot be resolved to a custody wallet"
    | some (_, wallet) =>
      let amount ← w.amountOf asset quantity
      let destinationAddress ← w.destinationAddress destination
      let opCtx := buildOperationContext ast signature exCtx none .release
      w.settle standard (.transfer wallet asset destinationAddress amount opCtx)
        ⟨ast, .transfer, quantity, some source, some destination, exCtx, none⟩

def redeem (source : Source) (ast : Asset) (quantity : String) (operationId : Option String)
    (signature : Option Signature) (exCtx : Option ExecutionContext) : Run W T ReceiptOperation :=
  attempt do
    let asset ← w.assetRecord ast.assetId
    let standard ← w.standardOf asset
    let amount ← w.amountOf asset quantity
    let opCtx := buildOperationContext ast signature exCtx operationId .redeem
    let details : ReceiptDetails := ⟨ast, .redeem, quantity, some source, none, exCtx, operationId⟩
    match truthy operationId with
    | some _ =>
      let model ← require (w.registry.holdModel asset.tokenStandard)
      if model = .holderReservation then
        w.settle standard (.release w.escrowWallet asset zeroAddress amount opCtx) details
      else do
        let burnFromAddress ← ask (.getAddress w.escrowWallet) (w.getAddress w.escrowWallet)
        w.settle standard (.burn w.escrowWallet asset burnFromAddress amount opCtx) details
    | none =>
      match ← w.resolveSourceWallet source.finId with
      | none => refuse "Source address cannot be resolved to a custody wallet"
      | some (address, wallet) => w.settle standard (.burn wallet asset address amount opCtx) details

def hold (source : Source) (destination : Option Destination) (ast : Asset) (quantity : String)
    (signature : Option Signature) (operationId : String) (exCtx : Option ExecutionContext) :
    Run W T ReceiptOperation :=
  attempt do
    let asset ← w.assetRecord ast.assetId
    let standard ← w.standardOf asset
    match ← w.resolveSourceWallet source.finId with
    | none => refuse "Source address cannot be resolved to a custody wallet"
    | some (_, wallet) =>
      let amount ← w.amountOf asset quantity
      let opCtx := buildOperationContext ast signature exCtx (some operationId)
        (deriveReleaseType signature destination)
      w.settle standard (.hold wallet w.escrowWallet asset amount opCtx)
        ⟨ast, .hold, quantity, some source, destination, exCtx, some operationId⟩

def release (source : Source) (destination : Destination) (ast : Asset) (quantity operationId : String)
    (exCtx : Option ExecutionContext) : Run W T ReceiptOperation :=
  attempt do
    let asset ← w.assetRecord ast.assetId
    let standard ← w.standardOf asset
    let destinationAddress ← w.destinationAddress destination
    let amount ← w.amountOf asset quantity
    let opCtx := buildOperationContext ast none exCtx (some operationId) .release
    w.settle standard (.release w.escrowWallet asset destinationAddress amount opCtx)
      ⟨ast, .release, quantity, some source, some destination, exCtx, some operationId⟩

def rollback (source : Source) (ast : Asset) (quantity operationId : String)
    (exCtx : Option ExecutionContext) : Run W T ReceiptOperation :=
  attempt do
    let asset ← w.assetRecord ast.assetId
    let standard ← w.standardOf asset
    let sourceAddress ← w.resolveAddress source.finId
    let amount ← w.amountOf asset quantity
    let opCtx := buildOperationContext ast none exCtx (some operationId) .release
    w.settle standard (.release w.escrowWallet asset sourceAddress amount opCtx)
      ⟨ast, .release, quantity, some source, none, exCtx, some operationId⟩

end World

/-! ### What a run guarantees -/

section Guarantees

variable {W T α β : Type} {w : World W T} {op : Run W T α} {quantity : String} {operationId : Option String}

/-- No call so far and, if the part returns, no failure either. -/
def Quiet (result : Except ServiceError α) (events : List (Event W T)) : Prop :=
  (∀ e ∈ events, e.isCall = false) ∧ (∀ a, result = .ok a → ∀ e ∈ events, e.failed = false)

/-- No call and no success, or one call, after lookups and checks that all went well, whose answer
decides the result. -/
def Once (quantity : String) (operationId : Option String) (result : Except ServiceError ReceiptOperation)
    (events : List (Event W T)) : Prop :=
  ((∀ e ∈ events, e.isCall = false) ∧ ∀ id timestamp details, result ≠ .ok (.success id timestamp details)) ∨
    ∃ before standard call answer details, events = before ++ [.call standard call answer] ∧
      (∀ e ∈ before, e.isCall = false ∧ e.failed = false) ∧
      result = answer.map (resultToReceipt · details) ∧
      details.quantity = quantity ∧ details.operationId = operationId

theorem quiet_ask {query : Query W} {answer : List (Event W T) → Except ServiceError α} :
    Ensures (World.ask query answer) Quiet := by
  refine .emit fun history => ⟨by simp [Event.isCall], fun a ha => ?_⟩
  simp [Event.failed, ha, Except.isOk, Except.toBool]

theorem quiet_require {outcome : Except ServiceError α} :
    Ensures (World.require outcome : Run W T α) Quiet := by
  refine .emit fun history => ⟨by simp [Event.isCall], fun a ha => ?_⟩
  simp [Event.failed, ha, Except.isOk, Except.toBool]

theorem quiet_pure (a : α) : Ensures (pure a : Run W T α) Quiet := .pure ⟨by simp, by simp⟩

theorem quiet_bind {f : α → Run W T β} (h : Ensures op Quiet) (hf : ∀ a, Ensures (f a) Quiet) :
    Ensures (op >>= f) Quiet := by
  refine h.bind (fun e events hq => ⟨hq.1, fun b hb => by cases hb⟩) fun a events hq =>
    (hf a).mono fun r more hm => ⟨?_, ?_⟩
  · intro e he
    rcases List.mem_append.mp he with he | he
    · exact hq.1 e he
    · exact hm.1 e he
  · intro b hb e he
    rcases List.mem_append.mp he with he | he
    · exact hq.2 a rfl e he
    · exact hm.2 b hb e he

theorem once_bind {f : α → Run W T ReceiptOperation} (h : Ensures op Quiet)
    (hf : ∀ a, Ensures (f a) (Once quantity operationId)) :
    Ensures (op >>= f) (Once quantity operationId) := by
  refine h.bind (fun e events hq => .inl ⟨hq.1, by simp⟩) fun a events hq =>
    (hf a).mono fun r more hm => ?_
  rcases hm with ⟨hnone, hfail⟩ | ⟨before, standard, call, answer, details, rfl, hbefore, hr, hd⟩
  · refine .inl ⟨fun e he => ?_, hfail⟩
    rcases List.mem_append.mp he with he | he
    · exact hq.1 e he
    · exact hnone e he
  · refine .inr ⟨events ++ before, standard, call, answer, details, (List.append_assoc ..).symm, fun e he => ?_,
      hr, hd⟩
    rcases List.mem_append.mp he with he | he
    · exact ⟨hq.1 e he, hq.2 a rfl e he⟩
    · exact hbefore e he

theorem once_refuse {message : String} :
    Ensures (World.refuse message : Run W T ReceiptOperation) (Once quantity operationId) :=
  .emit fun history => .inl ⟨by simp [Event.isCall], by simp⟩

theorem once_settle {standard : T} {call : StandardCall W} {details : ReceiptDetails}
    (hq : details.quantity = quantity) (ho : details.operationId = operationId) :
    Ensures (w.settle standard call details) (Once quantity operationId) := by
  intro history
  refine ⟨[.call standard call (w.perform standard call history)], ?_, .inr ⟨[], standard, call,
    w.perform standard call history, details, rfl, by simp, ?_, hq, ho⟩⟩ <;>
  cases h : w.perform standard call history <;>
    simp [World.settle, World.callStandard, Op.emit, Bind.bind, Pure.pure, h, Except.map]

theorem quiet_assetRecord {assetId : String} : Ensures (w.assetRecord assetId) Quiet :=
  quiet_bind quiet_ask fun _ => quiet_require

theorem quiet_standardOf {asset : AssetRecord} : Ensures (w.standardOf asset) Quiet := quiet_require

theorem quiet_amountOf {asset : AssetRecord} : Ensures (w.amountOf asset quantity) Quiet := quiet_require

theorem quiet_resolveAddress {finId : String} : Ensures (w.resolveAddress finId) Quiet :=
  quiet_bind quiet_ask fun _ => quiet_require

theorem quiet_walletFor {address : String} : Ensures (w.walletFor address) Quiet := by
  unfold World.walletFor
  split_ifs with h
  · exact quiet_pure none
  · exact quiet_bind quiet_ask fun _ => quiet_pure _

theorem quiet_fullAccount {finId : String} : Ensures (w.fullAccount finId) Quiet := by
  unfold World.fullAccount
  cases w.resolveFullAccount with
  | some resolveFullAccount => exact quiet_ask
  | none => exact quiet_pure none

theorem quiet_resolveSourceWallet {finId : String} : Ensures (w.resolveSourceWallet finId) Quiet := by
  apply quiet_bind quiet_fullAccount
  intro full
  cases full with
  | some full =>
    simp only
    split
    · exact quiet_bind quiet_ask fun _ => quiet_pure _
    · exact quiet_walletFor
  | none =>
    apply quiet_bind quiet_ask
    intro found
    cases found with
    | some address => exact quiet_walletFor
    | none => exact quiet_pure none

theorem quiet_destinationAddress {destination : Destination} :
    Ensures (w.destinationAddress destination) Quiet := by
  refine quiet_bind quiet_ask fun mapped => ?_
  cases mapped with
  | some address => exact quiet_require
  | none => exact quiet_bind quiet_ask fun _ => quiet_bind quiet_require fun _ => quiet_require

/-- An operation of the service: whatever fails it returns a receipt, makes at most one call of the
standard and none once one of its lookups or checks has failed, and the receipt is a success exactly
if that call is, with its transaction and the request's quantity and operation id. -/
def Atomic (op : Run W T ReceiptOperation) (quantity : String) (operationId : Option String) : Prop :=
  ∀ history, ∃ receipt events, op history = (.ok receipt, history ++ events) ∧
    events.countP Event.isCall ≤ 1 ∧
    ((∃ e ∈ events, e.failed = true) → ∀ e ∈ events, e.isCall = false) ∧
    ((∃ id timestamp details, receipt = .success id timestamp details) ↔
      ∃ standard call id timestamp, .call standard call (.ok (.success id timestamp)) ∈ events) ∧
    ∀ id timestamp details, receipt = .success id timestamp details →
      details.quantity = quantity ∧ details.operationId = operationId ∧
        ∃ standard call, .call standard call (.ok (.success id timestamp)) ∈ events

/-- The receipt a caught operation returns for what its body came to. -/
def receiptOf : Except ServiceError ReceiptOperation → ReceiptOperation
  | .ok receipt => receipt
  | .error e => .failed 1 (.thrown e)

theorem atomic_attempt {body : Run W T ReceiptOperation} (h : Ensures body (Once quantity operationId)) :
    Atomic (World.attempt body) quantity operationId := by
  have hreceipt : Ensures (World.attempt body) fun result events =>
      ∃ outcome, result = .ok (receiptOf outcome) ∧ Once quantity operationId outcome events :=
    h.orElse (fun receipt events ho => ⟨.ok receipt, rfl, ho⟩) fun e events ho => ⟨.error e, rfl, ho⟩
  intro history
  obtain ⟨events, hlog, outcome, hresult, honce⟩ := hreceipt history
  refine ⟨receiptOf outcome, events, Prod.ext hresult hlog, ?_⟩
  rcases honce with ⟨hnone, hfail⟩ | ⟨before, standard, call, answer, details, rfl, hbefore, rfl, hq, ho⟩
  · -- nothing was called
    have hnocall : ∀ standard call answer, Event.call standard call answer ∉ events := by
      intro standard call answer he
      cases hnone _ he
    have hfailed : ∀ id timestamp details, receiptOf outcome ≠ .success id timestamp details := by
      intro id timestamp details he
      cases outcome with
      | error e => cases he
      | ok receipt => exact hfail id timestamp details (congrArg Except.ok he)
    refine ⟨?_, fun _ => hnone, ?_, fun id timestamp details he => (hfailed _ _ _ he).elim⟩
    · rw [List.countP_eq_zero.mpr (by simpa using hnone)]
      exact Nat.zero_le 1
    · constructor
      · rintro ⟨id, timestamp, details, he⟩
        exact (hfailed _ _ _ he).elim
      · rintro ⟨standard, call, id, timestamp, he⟩
        exact (hnocall _ _ _ he).elim
  · -- the standard was called, last
    have hcall : ∀ standard' call' answer', Event.call standard' call' answer' ∈
        before ++ [.call standard call answer] ↔ standard' = standard ∧ call' = call ∧ answer' = answer := by
      intro standard' call' answer'
      rw [List.mem_append, List.mem_singleton, Event.call.injEq]
      refine or_iff_right fun he => ?_
      cases (hbefore _ he).1
    have hsuccess : ∀ id timestamp details', receiptOf (answer.map (resultToReceipt · details)) =
        .success id timestamp details' ↔ answer = .ok (.success id timestamp) ∧ details' = details := by
      intro id timestamp details'
      cases answer with
      | error e => simp [receiptOf, Except.map]
      | ok result => cases result <;> simp [receiptOf, Except.map, resultToReceipt, and_assoc, eq_comm]
    refine ⟨?_, ?_, ?_, ?_⟩
    · rw [List.countP_append, List.countP_eq_zero.mpr (by simpa using fun e he => (hbefore e he).1)]
      simp [Event.isCall]
    · rintro ⟨e, he, hfailed⟩
      rcases List.mem_append.mp he with he | he
      · rw [(hbefore e he).2] at hfailed
        cases hfailed
      · rw [List.mem_singleton.mp he] at hfailed
        cases hfailed
    · simp only [hsuccess, hcall]
      constructor
      · rintro ⟨id, timestamp, _, hanswer, -⟩
        exact ⟨standard, call, id, timestamp, rfl, rfl, hanswer.symm⟩
      · rintro ⟨_, _, id, timestamp, -, -, hanswer⟩
        exact ⟨id, timestamp, details, hanswer.symm, rfl⟩
    · intro id timestamp details' he
      obtain ⟨hanswer, rfl⟩ := (hsuccess ..).mp he
      exact ⟨hq, ho, standard, call, (hcall ..).mpr ⟨rfl, rfl, hanswer.symm⟩⟩

end Guarantees

section Operations

variable {W T : Type} (w : World W T)

theorem atomic_issue (ast : Asset) (destination : Destination) (quantity : String)
    (exCtx : Option ExecutionContext) : Atomic (w.issue ast destination quantity exCtx) quantity none := by
  refine atomic_attempt (once_bind quiet_assetRecord fun asset => once_bind quiet_standardOf fun standard => ?_)
  cases w.issuerWallet with
  | none => exact once_refuse
  | some wallet =>
    exact once_bind quiet_destinationAddress fun address => once_bind quiet_amountOf fun amount =>
      once_settle rfl rfl

theorem atomic_transfer (source : Source) (destination : Destination) (ast : Asset) (quantity : String)
    (signature : Option Signature) (exCtx : Option ExecutionContext) :
    Atomic (w.transfer source destination ast quantity signature exCtx) quantity none := by
  refine atomic_attempt (once_bind quiet_assetRecord fun asset => once_bind quiet_standardOf fun standard =>
    once_bind quiet_resolveSourceWallet fun resolved => ?_)
  cases resolved with
  | none => exact once_refuse
  | some resolved =>
    exact once_bind quiet_amountOf fun amount => once_bind quiet_destinationAddress fun address =>
      once_settle rfl rfl

/-- Each of the three routes of a redemption makes one call. -/
theorem atomic_redeem (source : Source) (ast : Asset) (quantity : String) (operationId : Option String)
    (signature : Option Signature) (exCtx : Option ExecutionContext) :
    Atomic (w.redeem source ast quantity operationId signature exCtx) quantity operationId := by
  refine atomic_attempt (once_bind quiet_assetRecord fun asset => once_bind quiet_standardOf fun standard =>
    once_bind quiet_amountOf fun amount => ?_)
  cases truthy operationId with
  | some id =>
    refine once_bind quiet_require fun model => ?_
    split_ifs
    · exact once_settle rfl rfl
    · exact once_bind quiet_ask fun address => once_settle rfl rfl
  | none =>
    refine once_bind quiet_resolveSourceWallet fun resolved => ?_
    cases resolved with
    | none => exact once_refuse
    | some resolved => exact once_settle rfl rfl

theorem atomic_hold (source : Source) (destination : Option Destination) (ast : Asset) (quantity : String)
    (signature : Option Signature) (operationId : String) (exCtx : Option ExecutionContext) :
    Atomic (w.hold source destination ast quantity signature operationId exCtx) quantity
      (some operationId) := by
  refine atomic_attempt (once_bind quiet_assetRecord fun asset => once_bind quiet_standardOf fun standard =>
    once_bind quiet_resolveSourceWallet fun resolved => ?_)
  cases resolved with
  | none => exact once_refuse
  | some resolved => exact once_bind quiet_amountOf fun amount => once_settle rfl rfl

theorem atomic_release (source : Source) (destination : Destination) (ast : Asset)
    (quantity operationId : String) (exCtx : Option ExecutionContext) :
    Atomic (w.release source destination ast quantity operationId exCtx) quantity (some operationId) :=
  atomic_attempt (once_bind quiet_assetRecord fun _ => once_bind quiet_standardOf fun _ =>
    once_bind quiet_destinationAddress fun _ => once_bind quiet_amountOf fun _ => once_settle rfl rfl)

theorem atomic_rollback (source : Source) (ast : Asset) (quantity operationId : String)
    (exCtx : Option ExecutionContext) :
    Atomic (w.rollback source ast quantity operationId exCtx) quantity (some operationId) :=
  atomic_attempt (once_bind quiet_assetRecord fun _ => once_bind quiet_standardOf fun _ =>
    once_bind quiet_resolveAddress fun _ => once_bind quiet_amountOf fun _ => once_settle rfl rfl)

theorem custody_operations_atomic {W T : Type} (w : World W T) :
    (∀ ast destination quantity exCtx, Atomic (w.issue ast destination quantity exCtx) quantity none) ∧
    (∀ source destination ast quantity signature exCtx,
      Atomic (w.transfer source destination ast quantity signature exCtx) quantity none) ∧
    (∀ source ast quantity operationId signature exCtx,
      Atomic (w.redeem source ast quantity operationId signature exCtx) quantity operationId) ∧
    (∀ source destination ast quantity signature operationId exCtx,
      Atomic (w.hold source destination ast quantity signature operationId exCtx) quantity
        (some operationId)) ∧
    (∀ source destination ast quantity operationId exCtx,
      Atomic (w.release source destination ast quantity operationId exCtx) quantity (some operationId)) ∧
    ∀ source ast quantity operationId exCtx,
      Atomic (w.rollback source ast quantity operationId exCtx) quantity (some operationId) :=
  ⟨atomic_issue w, atomic_transfer w, atomic_redeem w, atomic_hold w, atomic_release w, atomic_rollback w⟩

end Operations

end FinP2PAdapter.Custody
