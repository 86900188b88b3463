import FinP2PAdapter.Custody.OperationRuns
import FinP2PAdapter.Library.SingleCall
import FinP2PAdapter.TokenStandards.AssetCreation

/-! The operations of the omnibus delegate as they run, with everything that may fail on the way. Unlike the
custody token service the delegate catches nothing: what is thrown on the way is thrown on. A run logs its
lookups, its checks, its top-ups of gas and its calls of the token standard. -/

namespace FinP2PAdapter.Omnibus

open Accounts Effects TokenStandards
open Custody (Query)

inductive DelegateEvent (W T : Type) where
  | lookup (query : Query W) (succeeded : Bool)
  | address (wallet : W) (answer : Except ServiceError String)
  | check (succeeded : Bool)
  | topUp (address : String) (succeeded : Bool)
  | call (standard : T) (call : StandardCall W) (answer : Except ServiceError TokenOperationResult)
  | deploy (standard : T) (wallet : W) (answer : Except ServiceError DeployResult)
  | save (asset : SavedAsset) (succeeded : Bool)

namespace DelegateEvent

variable {W T : Type}

def failed : DelegateEvent W T → Bool
  | .lookup _ succeeded | .check succeeded | .topUp _ succeeded | .save _ succeeded => !succeeded
  | .address _ answer => !answer.isOk
  | .call .. | .deploy .. => false

/-- A transaction may be sent. -/
def spends : DelegateEvent W T → Bool
  | .topUp .. | .call .. | .deploy .. => true
  | .lookup .. | .address .. | .check .. | .save .. => false

/-- A token comes to be, or an asset is stored. -/
def registers : DelegateEvent W T → Bool
  | .deploy .. | .save .. => true
  | .lookup .. | .address .. | .check .. | .topUp .. | .call .. => false

end DelegateEvent

abbrev DelegateRun (W T α : Type) := Op ServiceError (DelegateEvent W T) α

inductive DelegateResult where
  | success (transactionId : String)
  | failure (error : String)
  deriving DecidableEq, Repr

def delegateResult : TokenOperationResult → DelegateResult
  | .success transactionId _ => .success transactionId
  | .failure reason => .failure reason

/-- The delegate and the world it runs in, which answers by what has happened so far. -/
structure DelegateWorld (W T : Type) where
  omnibusWallet : W
  escrowWallet : W
  registry : TokenStandardRegistry T
  parseUnits : String → ℕ → Except String ℤ
  erc20TokenStandard : String
  defaultNewErc20Decimals : ℕ
  gasStation : Option (String → List (DelegateEvent W T) → Except ServiceError Unit)
  getAsset : String → List (DelegateEvent W T) → Except ServiceError (Option AssetRecord)
  resolveAccount : String → List (DelegateEvent W T) → Except ServiceError (Option String)
  getNetwork : List (DelegateEvent W T) → Except ServiceError ℕ
  getAddress : W → List (DelegateEvent W T) → Except ServiceError String
  decimals : T → String → List (DelegateEvent W T) → Except ServiceError ℕ
  perform : T → StandardCall W → List (DelegateEvent W T) → Except ServiceError TokenOperationResult
  deploy : T → W → String → String → ℕ → List (DelegateEvent W T) → Except ServiceError DeployResult
  saveAsset : SavedAsset → List (DelegateEvent W T) → Except ServiceError Unit

namespace DelegateWorld

variable {W T α : Type} (w : DelegateWorld W T)

/-! ### The parts -/

def ask (query : Query W) (answer : List (DelegateEvent W T) → Except ServiceError α) : DelegateRun W T α :=
  .emit (fun history => .lookup query (answer history).isOk) answer

def require (outcome : Except ServiceError α) : DelegateRun W T α :=
  .emit (fun _ => .check outcome.isOk) fun _ => outcome

/-- `wallet.signer.getAddress()`. -/
def addressOf (wallet : W) : DelegateRun W T String :=
  .emit (fun history => .address wallet (w.getAddress wallet history)) (w.getAddress wallet)

def assetRecord (assetId : String) : DelegateRun W T AssetRecord := do
  let dbAsset ← ask (.getAsset assetId) (w.getAsset assetId)
  require <| match dbAsset with
    | none => .error (.error s!"Asset {assetId} is not registered in DB")
    | some asset => .ok asset

def standardOf (tokenStandard : String) : DelegateRun W T T := require (w.registry.resolve tokenStandard)

def amountOf (asset : AssetRecord) (quantity : String) : DelegateRun W T ℤ :=
  require ((w.parseUnits quantity asset.decimals).mapError .error)

/-- The mapped address, or else the one on the leg, for which the chain id is fetched. -/
def destinationAddress (destination : Destination) : DelegateRun W T String := do
  let finId := destination.finId
  let address ← match ← ask (.resolveAccount finId) (w.resolveAccount finId) with
    | some address => pure (some address)
    | none => do
      let chainId ← ask .getNetwork w.getNetwork
      require ((ledgerAccountAddress destination.account chainId).mapError .error)
  require <| match truthy address with
    | none => .error (.error s!"Cannot resolve address for finId: {finId}")
    | some address => .ok address

def ensureGas (wallet : W) : DelegateRun W T Unit :=
  match w.gasStation with
  | none => pure ()
  | some ensureGas => do
    let address ← w.addressOf wallet
    Op.emit (fun history => .topUp address (ensureGas address history).isOk) (ensureGas address)

/-- `standard.transfer`, `hold` or `release` after `ensureGas` of the wallet that signs. -/
def settle (wallet : W) (standard : T) (call : StandardCall W) : DelegateRun W T DelegateResult := do
  w.ensureGas wallet
  let answer ← (.emit (fun history => .call standard call (w.perform standard call history))
    (w.perform standard call) : DelegateRun W T TokenOperationResult)
  return delegateResult answer

/-! ### The operations -/

def outboundTransfer (destination : Destination) (assetId quantity : String) :
    DelegateRun W T DelegateResult := do
  let dbAsset ← w.assetRecord assetId
  let destinationAddress ← w.destinationAddress destination
  let amount ← w.amountOf dbAsset quantity
  let standard ← w.standardOf dbAsset.tokenStandard
  w.settle w.omnibusWallet standard (.transfer w.omnibusWallet dbAsset destinationAddress amount none)

def hold (assetId quantity : String) : DelegateRun W T DelegateResult := do
  let dbAsset ← w.assetRecord assetId
  let amount ← w.amountOf dbAsset quantity
  let standard ← w.standardOf dbAsset.tokenStandard
  w.settle w.omnibusWallet standard (.hold w.omnibusWallet w.escrowWallet dbAsset amount none)

def release (destination : Destination) (assetId quantity : String) : DelegateRun W T DelegateResult := do
  let dbAsset ← w.assetRecord assetId
  let omnibusAddress ← w.addressOf w.omnibusWallet
  let amount ← w.amountOf dbAsset quantity
  let localAddress ← ask (.resolveAccount destination.finId) (w.resolveAccount destination.finId)
  let chainId ← ask .getNetwork w.getNetwork
  let externalAddress ← require ((ledgerAccountAddress destination.account chainId).mapError .error)
  let finId := destination.finId
  match truthy localAddress, truthy externalAddress with
  | none, none => return .failure s!"Cannot resolve release destination for finId: {finId}"
  | some _, _ => do
    let standard ← w.standardOf dbAsset.tokenStandard
    w.settle w.escrowWallet standard (.release w.escrowWallet dbAsset omnibusAddress amount none)
  | none, some externalAddress => do
    let standard ← w.standardOf dbAsset.tokenStandard
    w.settle w.escrowWallet standard (.release w.escrowWallet dbAsset externalAddress amount none)

def rollback (assetId quantity : String) : DelegateRun W T DelegateResult := do
  let dbAsset ← w.assetRecord assetId
  let omnibusAddress ← w.addressOf w.omnibusWallet
  let amount ← w.amountOf dbAsset quantity
  let standard ← w.standardOf dbAsset.tokenStandard
  w.settle w.escrowWallet standard (.release w.escrowWallet dbAsset omnibusAddress amount none)

/-! ### The creation of an asset -/

/-- The standard of the request, if the registry has it. -/
def tokenStandard (tokenIdentifier : Option TokenIdentifier) : String :=
  match truthy (tokenIdentifier.bind (·.standard)) with
  | some standard => if w.registry.has standard then standard else w.erc20TokenStandard
  | none => w.erc20TokenStandard

def save (asset : SavedAsset) : DelegateRun W T Unit :=
  .emit (fun history => .save asset (w.saveAsset asset history).isOk) (w.saveAsset asset)

def createAsset (assetId : String) (assetBind : Option AssetBind) (assetName : Option String) :
    DelegateRun W T LedgerAssetIdentifier := do
  let tokenIdentifier := assetBind.bind (·.tokenIdentifier)
  let tokenStandard := w.tokenStandard tokenIdentifier
  let standard ← w.standardOf tokenStandard
  let chainId ← ask .getNetwork w.getNetwork
  let defaultNetwork := s!"eip155:{chainId}"
  match tokenIdentifier with
  | none => do
    w.ensureGas w.omnibusWallet
    let answer := w.deploy standard w.omnibusWallet (assetName.getD "OWNERACOIN") "OWNERA"
      w.defaultNewErc20Decimals
    let result ← Op.emit (fun history => .deploy standard w.omnibusWallet (answer history)) answer
    w.save ⟨result.contractAddress, result.decimals, result.tokenStandard, assetId⟩
    return ⟨defaultNetwork, result.contractAddress, result.tokenStandard⟩
  | some token => do
    let answer := w.decimals standard token.tokenId
    let decimals ← Op.emit (fun history => .check (answer history).isOk) answer
    w.save ⟨token.tokenId, decimals, tokenStandard, assetId⟩
    return ⟨(truthy token.network).getD defaultNetwork, token.tokenId, tokenStandard⟩

end DelegateWorld

/-! ### What a run guarantees -/

section Guarantees

variable {W T α : Type} {w : DelegateWorld W T} {wallet : W} {quantity : String}

/-- The wallet that signs the call. -/
def signer : StandardCall W → W
  | .mint wallet .. | .transfer wallet .. | .burn wallet .. | .hold wallet .. | .release wallet .. => wallet

/-- The last events of an operation that gets to its call: with a gas station the address of the signer is
asked for and topped up first, and what the top-up throws is thrown. -/
def Settled (w : DelegateWorld W T) (wallet : W) (last : List (DelegateEvent W T))
    (result : Except ServiceError DelegateResult) : Prop :=
  (∃ standard call answer, signer call = wallet ∧ result = answer.map delegateResult ∧
    if w.gasStation.isSome then
      ∃ address, last = [.address wallet (.ok address), .topUp address true, .call standard call answer]
    else last = [.call standard call answer]) ∨
  ∃ address e, w.gasStation.isSome = true ∧ last = [.address wallet (.ok address), .topUp address false] ∧
    result = .error e

def NoSuccess (result : Except ServiceError DelegateResult) : Prop := ∀ id, result ≠ .ok (.success id)

theorem prepares_ask {query : Query W} {answer : List (DelegateEvent W T) → Except ServiceError α} :
    Prepares DelegateEvent.spends DelegateEvent.failed (DelegateWorld.ask query answer) := by
  refine .emit (fun _ => rfl) fun history a h => ?_
  simp [DelegateEvent.failed, h, Except.isOk, Except.toBool]

theorem prepares_addressOf : Prepares DelegateEvent.spends DelegateEvent.failed (w.addressOf wallet) := by
  refine .emit (fun _ => rfl) fun history a h => ?_
  simp [DelegateEvent.failed, h, Except.isOk, Except.toBool]

theorem prepares_require {outcome : Except ServiceError α} :
    Prepares DelegateEvent.spends DelegateEvent.failed (DelegateWorld.require outcome : DelegateRun W T α) := by
  refine .emit (fun _ => rfl) fun history a h => ?_
  simp [DelegateEvent.failed, h, Except.isOk, Except.toBool]

theorem prepares_assetRecord {assetId : String} :
    Prepares DelegateEvent.spends DelegateEvent.failed (w.assetRecord assetId) :=
  .bind prepares_ask fun _ => prepares_require

theorem prepares_amountOf {asset : AssetRecord} :
    Prepares DelegateEvent.spends DelegateEvent.failed (w.amountOf asset quantity) := prepares_require

theorem prepares_destinationAddress {destination : Destination} :
    Prepares DelegateEvent.spends DelegateEvent.failed (w.destinationAddress destination) := by
  refine .bind prepares_ask fun mapped => ?_
  cases mapped with
  | some address => exact prepares_require
  | none => exact .bind prepares_ask fun chainId => .bind prepares_require fun address => prepares_require

theorem noSuccess_error (e : ServiceError) : NoSuccess (.error e) := by
  intro id h
  cases h

/-- The call and its answer. -/
theorem ensures_perform {standard : T} {call : StandardCall W}
    {perform : List (DelegateEvent W T) → Except ServiceError TokenOperationResult} :
    Ensures (Op.emit (fun history => DelegateEvent.call standard call (perform history)) perform >>=
      fun answer => (pure (delegateResult answer) : DelegateRun W T DelegateResult))
      fun result events => ∃ answer, events = [.call standard call answer] ∧
        result = answer.map delegateResult := by
  refine .bind (Q := fun result events => events = [.call standard call result])
    (.emit fun history => rfl) ?_ ?_
  · intro e events he
    exact ⟨.error e, he, rfl⟩
  · intro answer events he
    exact .pure ⟨.ok answer, by rw [he]; rfl, rfl⟩

/-- What the top-up of a wallet comes to. -/
def Funded (w : DelegateWorld W T) (wallet : W) (result : Except ServiceError Unit)
    (events : List (DelegateEvent W T)) : Prop :=
  (w.gasStation.isSome = false ∧ events = [] ∧ result = .ok ()) ∨
  (∃ e, result = .error e ∧ events = [.address wallet (.error e)]) ∨
  (∃ address, w.gasStation.isSome = true ∧ events = [.address wallet (.ok address), .topUp address false] ∧
    ∃ e, result = .error e) ∨
  ∃ address, w.gasStation.isSome = true ∧ events = [.address wallet (.ok address), .topUp address true] ∧
    result = .ok ()

theorem ensures_ensureGas : Ensures (w.ensureGas wallet) (Funded w wallet) := by
  unfold DelegateWorld.ensureGas
  cases hgas : w.gasStation with
  | none => exact .pure (.inl ⟨by simp [hgas], rfl, rfl⟩)
  | some ensureGas =>
    refine .bind (Q := fun result events => events = [.address wallet result]) (.emit fun history => rfl) ?_ ?_
    · intro e events he
      exact .inr (.inl ⟨e, rfl, he⟩)
    · intro address events he
      refine .emit fun history => ?_
      rw [he]
      cases ensureGas address history with
      | error e => exact .inr (.inr (.inl ⟨address, by simp [hgas], rfl, e, rfl⟩))
      | ok u => exact .inr (.inr (.inr ⟨address, by simp [hgas], rfl, rfl⟩))

theorem settles_settle {standard : T} {call : StandardCall W} (hcall : signer call = wallet) :
    Settles DelegateEvent.spends DelegateEvent.failed NoSuccess (Settled w wallet)
      (w.settle wallet standard call) := by
  refine Ensures.bind ensures_ensureGas ?_ ?_
  · rintro e events (⟨-, -, he⟩ | ⟨_, -, rfl⟩ | ⟨address, hgas, rfl, -⟩ | ⟨address, -, -, he⟩)
    · cases he
    · exact .inl ⟨by simp [DelegateEvent.spends], unfailing_singleton _, noSuccess_error e⟩
    · exact .inr ⟨[], _, rfl, by simp, .inr ⟨address, e, hgas, rfl, rfl⟩⟩
    · cases he
  · rintro u events (⟨hgas, rfl, -⟩ | ⟨e, he, -⟩ | ⟨address, -, -, e, he⟩ | ⟨address, hgas, rfl, -⟩)
    · refine ensures_perform.mono fun result more h => .inr ?_
      obtain ⟨answer, rfl, rfl⟩ := h
      exact ⟨[], [.call standard call answer], rfl, by simp,
        .inl ⟨standard, call, answer, hcall, rfl, by simp [hgas]⟩⟩
    · cases he
    · cases he
    · refine ensures_perform.mono fun result more h => .inr ?_
      obtain ⟨answer, rfl, rfl⟩ := h
      refine ⟨[], _, rfl, by simp, .inl ⟨standard, call, answer, hcall, rfl, ?_⟩⟩
      rw [if_pos hgas]
      exact ⟨address, rfl⟩

/-- How an operation ends that `wallet` signs: nothing is sent, nothing follows a failure and there is no success;
or nothing has failed and no transaction was sent when the wallet is topped up and the call is made. -/
def Ends (op : DelegateRun W T DelegateResult) (w : DelegateWorld W T) (wallet : W) : Prop :=
  ∀ history, ∃ result events, op history = (result, history ++ events) ∧
    (((∀ e ∈ events, e.spends = false) ∧ Unfailing DelegateEvent.failed events ∧ NoSuccess result) ∨
      ∃ before last, events = before ++ last ∧ (∀ e ∈ before, e.spends = false ∧ e.failed = false) ∧
        Settled w wallet last result)

theorem ends_of_settles {op : DelegateRun W T DelegateResult}
    (h : Settles DelegateEvent.spends DelegateEvent.failed NoSuccess (Settled w wallet) op) :
    Ends op w wallet := by
  intro history
  obtain ⟨events, hlog, hq⟩ := h history
  exact ⟨(op history).1, events, Prod.ext rfl hlog, hq⟩

theorem settles_outboundTransfer {destination : Destination} {assetId : String} :
    Settles DelegateEvent.spends DelegateEvent.failed NoSuccess (Settled w w.omnibusWallet)
      (w.outboundTransfer destination assetId quantity) := by
  refine .bind prepares_assetRecord noSuccess_error fun dbAsset => ?_
  refine .bind prepares_destinationAddress noSuccess_error fun destinationAddress => ?_
  refine .bind prepares_amountOf noSuccess_error fun amount => ?_
  exact .bind prepares_require noSuccess_error fun standard => settles_settle rfl

theorem settles_hold {assetId : String} :
    Settles DelegateEvent.spends DelegateEvent.failed NoSuccess (Settled w w.omnibusWallet)
      (w.hold assetId quantity) := by
  refine .bind prepares_assetRecord noSuccess_error fun dbAsset => ?_
  refine .bind prepares_amountOf noSuccess_error fun amount => ?_
  exact .bind prepares_require noSuccess_error fun standard => settles_settle rfl

theorem settles_release {destination : Destination} {assetId : String} :
    Settles DelegateEvent.spends DelegateEvent.failed NoSuccess (Settled w w.escrowWallet)
      (w.release destination assetId quantity) := by
  refine .bind prepares_assetRecord noSuccess_error fun dbAsset => ?_
  refine .bind prepares_addressOf noSuccess_error fun omnibusAddress => ?_
  refine .bind prepares_amountOf noSuccess_error fun amount => ?_
  refine .bind prepares_ask noSuccess_error fun localAddress => ?_
  refine .bind prepares_ask noSuccess_error fun chainId => ?_
  refine .bind prepares_require noSuccess_error fun externalAddress => ?_
  dsimp only
  split
  · refine .of_prepares (.pure ⟨by simp, unfailing_nil, ?_⟩)
    intro id h
    cases h
  · exact .bind prepares_require noSuccess_error fun standard => settles_settle rfl
  · exact .bind prepares_require noSuccess_error fun standard => settles_settle rfl

theorem settles_rollback {assetId : String} :
    Settles DelegateEvent.spends DelegateEvent.failed NoSuccess (Settled w w.escrowWallet)
      (w.rollback assetId quantity) := by
  refine .bind prepares_assetRecord noSuccess_error fun dbAsset => ?_
  refine .bind prepares_addressOf noSuccess_error fun omnibusAddress => ?_
  refine .bind prepares_amountOf noSuccess_error fun amount => ?_
  exact .bind prepares_require noSuccess_error fun standard => settles_settle rfl

/-! ### Tokens that are not registered -/

/-- The last events of a creation: the asset is stored, or not, and before that its token may have been
deployed. The result is an identifier exactly if the asset is stored, and names the asset that is. -/
def Created (assetId : String) (last : List (DelegateEvent W T))
    (result : Except ServiceError LedgerAssetIdentifier) : Prop :=
  (∃ standard wallet e, last = [.deploy standard wallet (.error e)] ∧ result = .error e) ∨
  ∃ deployed asset saved, last = deployed ++ [.save asset saved] ∧ asset.id = assetId ∧
    (deployed = [] ∨ ∃ standard wallet r, deployed = [.deploy standard wallet (.ok r)] ∧
      asset = ⟨r.contractAddress, r.decimals, r.tokenStandard, assetId⟩) ∧
    if saved then ∃ network, result = .ok ⟨network, asset.contractAddress, asset.tokenStandard⟩
    else ∃ e, result = .error e

def Threw (result : Except ServiceError LedgerAssetIdentifier) : Prop := ∃ e, result = .error e

theorem ensures_save {asset : SavedAsset} {identifier : LedgerAssetIdentifier} :
    Ensures (w.save asset >>= fun _ => (pure identifier : DelegateRun W T LedgerAssetIdentifier))
      fun result events => ∃ saved, events = [.save asset saved] ∧
        if saved then result = .ok identifier else ∃ e, result = .error e := by
  refine .bind (Q := fun result events => events = [.save asset result.isOk]) (.emit fun history => rfl) ?_ ?_
  · intro e events he
    exact ⟨false, he, e, rfl⟩
  · intro u events he
    exact .pure ⟨true, by rw [he]; rfl, rfl⟩

theorem prepares_ensureGas :
    Prepares DelegateEvent.registers DelegateEvent.failed (w.ensureGas wallet) := by
  refine ensures_ensureGas.mono fun result events h => ?_
  rcases h with ⟨-, rfl, -⟩ | ⟨e, rfl, rfl⟩ | ⟨address, -, rfl, e, rfl⟩ | ⟨address, -, rfl, -⟩
  · exact ⟨by simp, unfailing_nil, by simp⟩
  · exact ⟨by simp [DelegateEvent.registers], unfailing_singleton _, by simp⟩
  · exact ⟨by simp [DelegateEvent.registers], by simp [Unfailing, DelegateEvent.failed, Except.isOk, Except.toBool],
      by simp⟩
  · exact ⟨by simp [DelegateEvent.registers], by simp [Unfailing, DelegateEvent.failed, Except.isOk, Except.toBool],
      by simp [DelegateEvent.failed, Except.isOk, Except.toBool]⟩

theorem settles_createAsset {assetId : String} {assetBind : Option AssetBind} {assetName : Option String} :
    Settles DelegateEvent.registers DelegateEvent.failed Threw (Created assetId)
      (w.createAsset assetId assetBind assetName) := by
  have hthrew : ∀ e, Threw (.error e) := fun e => ⟨e, rfl⟩
  have hrequire : ∀ {α : Type} {outcome : Except ServiceError α}, Prepares DelegateEvent.registers
      DelegateEvent.failed (DelegateWorld.require outcome : DelegateRun W T α) := by
    intro α outcome
    refine .emit (fun _ => rfl) fun history a h => ?_
    simp [DelegateEvent.failed, h, Except.isOk, Except.toBool]
  refine .bind hrequire hthrew fun standard => ?_
  refine .bind (.emit (fun _ => rfl) fun history a h => ?_) hthrew fun chainId => ?_
  · simp [DelegateEvent.failed, h, Except.isOk, Except.toBool]
  · dsimp only
    split
    · refine .bind prepares_ensureGas hthrew fun u => .of_ensures ?_
      refine .bind (Q := fun result events => events = [.deploy standard w.omnibusWallet result])
        (.emit fun history => rfl) ?_ ?_
      · intro e events he
        exact .inr (.inl ⟨standard, _, e, he, rfl⟩)
      · intro r events he
        refine ensures_save.mono fun result more h => .inr (.inr ?_)
        obtain ⟨saved, rfl, hsaved⟩ := h
        refine ⟨_, _, saved, by rw [he], rfl, .inr ⟨standard, _, r, rfl, rfl⟩, ?_⟩
        cases saved with
        | false => exact hsaved
        | true => exact ⟨_, hsaved⟩
    · refine .bind (.emit (fun _ => rfl) fun history a h => ?_) hthrew fun decimals => .of_ensures ?_
      · simp [DelegateEvent.failed, h, Except.isOk, Except.toBool]
      · refine ensures_save.mono fun result more h => .inr (.inr ?_)
        obtain ⟨saved, rfl, hsaved⟩ := h
        refine ⟨[], _, saved, rfl, rfl, .inl rfl, ?_⟩
        cases saved with
        | false => exact hsaved
        | true => exact ⟨_, hsaved⟩

end Guarantees

/-- Whatever fails on the way, and however the answers change, an operation of the delegate makes at most one
call of the token standard and tops up at most one address, that of the wallet that signs. Nothing follows a
failure; only the call comes after a top-up; and the operation reports a success, with the call's transaction, exactly
if that call is one. -/
theorem delegate_operations_end {W T : Type} (w : DelegateWorld W T) :
    (∀ destination assetId quantity, Ends (w.outboundTransfer destination assetId quantity) w w.omnibusWallet) ∧
    (∀ assetId quantity, Ends (w.hold assetId quantity) w w.omnibusWallet) ∧
    (∀ destination assetId quantity, Ends (w.release destination assetId quantity) w w.escrowWallet) ∧
    (∀ assetId quantity, Ends (w.rollback assetId quantity) w w.escrowWallet) :=
  ⟨fun _ _ _ => ends_of_settles settles_outboundTransfer, fun _ _ => ends_of_settles settles_hold,
    fun _ _ _ => ends_of_settles settles_release, fun _ _ => ends_of_settles settles_rollback⟩

/-- Whatever fails on the way, the creation of an asset answers with an identifier exactly if the asset it names
is stored, and deploys at most one token. A token it deploys is left without an asset exactly if the store then
refuses the asset, which is thrown. -/
theorem createAsset_stores {W T : Type} (w : DelegateWorld W T) (assetId : String)
    (assetBind : Option AssetBind) (assetName : Option String) (history : List (DelegateEvent W T)) :
    ∃ result before last, w.createAsset assetId assetBind assetName history = (result, history ++ (before ++ last)) ∧
      (∀ e ∈ before, e.registers = false) ∧
      ((last = [] ∧ Threw result) ∨ Created assetId last result) := by
  have hsettles : Settles DelegateEvent.registers DelegateEvent.failed Threw (Created assetId)
      (w.createAsset assetId assetBind assetName) := settles_createAsset
  obtain ⟨events, hlog, hq⟩ := hsettles history
  rcases hq with ⟨hnone, -, hthrew⟩ | ⟨before, last, rfl, hbefore, hcreated⟩
  · refine ⟨_, events, [], Prod.ext rfl ?_, hnone, .inl ⟨rfl, hthrew⟩⟩
    rw [hlog, List.append_nil]
  · exact ⟨_, before, last, Prod.ext rfl hlog, fun e he => (hbefore e he).1, .inr hcreated⟩

end FinP2PAdapter.Omnibus
