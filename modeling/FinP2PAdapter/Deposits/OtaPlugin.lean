import FinP2PAdapter.Deposits.OtaRecords
import FinP2PAdapter.Deposits.PaymentsPlugin

/-! The one-time-address plugin over its watcher. A `deposit` call resolves asset and
sweep target, has a custody account created for the deposit and hands it to the
watcher, which is created without an await and so may as well be there from the
start. A watcher that reports a sweep runs the plugin's callback: the configured
channels are told one after the other and the custody account is archived, where
the provider can; each of these calls may fail, and a failure is passed over. -/

namespace FinP2PAdapter.Deposits.OtaDepositPlugin

open Machine
open BalanceWatcher (OtaDeposit OtaResult)

structure Config where
  units : Units
  gasStation : Bool
  channels : Channels
  archiveCustodyAccount : Bool

def Config.watcher (cfg : Config) : BalanceWatcher.Config := ⟨cfg.units, cfg.gasStation⟩

/-- What the custody provider answers with. -/
structure CustodyAccount where
  custodyAccountId : String
  address : String
  deriving DecidableEq, Repr

/-- Where a `deposit` call stands. -/
inductive DepositCall where
  | getAsset (request : Request) (assetId : String)
  | resolveSweepTarget (request : Request) (assetId : String) (dbAsset : DbAsset)
  | createCustodyAccount (order : Order) (correlationId : String)
  | createWallet (order : Order) (correlationId : String) (account : CustodyAccount)
  | answered (operation : DepositOperation)
  | rejected (message : String)
  deriving DecidableEq, Repr

/-- The watcher, the pending calls and callbacks, and the history: results reported
to the plugin and calls delivered. -/
structure State where
  watcher : BalanceWatcher.State
  calls : JsMap ℕ DepositCall
  notices : JsMap ℕ (OtaResult × List Call)
  results : List OtaResult
  delivered : List Call

def init : State where
  watcher := BalanceWatcher.init
  calls := .empty
  notices := .empty
  results := []
  delivered := []

def State.setCall (s : State) (c : ℕ) (call : DepositCall) : State :=
  { s with calls := s.calls.set c call }

/-! ### The plugin's own functions -/

/-- `deposit` up to its first await. -/
def deposit (s : State) (c : ℕ) (request : Request) : State :=
  match request.asset.assetId with
  | some assetId =>
    if request.asset.assetType = "finp2p" then s.setCall c (.getAsset request assetId)
    else s.setCall c (.answered (.failed 1 "OTA deposit only supports finp2p asset type"))
  | none => s.setCall c (.answered (.failed 1 "OTA deposit only supports finp2p asset type"))

/-- The deposit handed to the watcher; `wallet` is the address the account's wallet
signs for. -/
def otaDeposit (order : Order) (correlationId : String) (account : CustodyAccount) (wallet : String)
    (now : ℕ) : OtaDeposit where
  correlationId := correlationId
  finId := order.ownerFinId
  assetId := order.assetId
  contractAddress := order.dbAsset.contractAddress
  decimals := order.dbAsset.decimals
  ephemeralAddress := account.address
  custodyAccountId := account.custodyAccountId
  ephemeralWallet := wallet
  sweepTarget := order.target
  expectedAmount := order.amount
  createdAt := now

def instruction (ch : Channels) (deposit : OtaDeposit) : Instruction where
  finId := deposit.finId
  address := deposit.ephemeralAddress
  description :=
    let assetId := deposit.assetId
    let ephemeralAddress := deposit.ephemeralAddress
    let sweepTarget := deposit.sweepTarget
    s!"Send {assetId} to one-time address {ephemeralAddress}; funds will be swept to {sweepTarget}"
  paymentDescription := "One-time-address deposit"
  currency := deposit.assetId
  network := ch.network
  contractAddress := deposit.contractAddress
  walletAddress := deposit.ephemeralAddress
  operationId := deposit.correlationId
  custodyAccountId := some deposit.custodyAccountId

def credit (result : OtaResult) : Credit where
  correlationId := result.deposit.correlationId
  finId := result.deposit.finId
  assetId := result.deposit.assetId
  contractAddress := result.deposit.contractAddress
  amount := result.receivedAmount
  txHash := result.sweepTxHash

/-- `archiveIfSwept`, which does nothing if the provider cannot archive. -/
def archiveIfSwept (cfg : Config) (result : OtaResult) : List Call :=
  if cfg.archiveCustodyAccount then [.archiveCustodyAccount result.deposit.custodyAccountId] else []

/-- The calls of `onTransferDetected`, in order. -/
def onTransferDetected (cfg : Config) (result : OtaResult) : List Call :=
  notifications cfg.channels (credit result) ++ archiveIfSwept cfg result

/-- The watcher's report starts the callback of its poll. -/
def startCallback (cfg : Config) (s : State) (p : ℕ) (result : OtaResult) : State :=
  { s with
    notices := s.notices.set p (result, onTransferDetected cfg result)
    results := result :: s.results }

/-! ### The environment -/

inductive Action where
  | deposit (c : ℕ) (request : Request)
  | asset (c : ℕ) (answer : Except String (Option DbAsset))
  | target (c : ℕ) (answer : Except String (Option String)) (correlationId : String)
  | account (c : ℕ) (answer : Except String CustodyAccount)
  | wallet (c : ℕ) (answer : Except String String) (now : ℕ)
  | watcher (a : BalanceWatcher.Action)
  | notified (p : ℕ) (rejection : Option String)
  | returned (p : ℕ)

/-- Deposits are added and callbacks answered by the plugin; all else in the watcher is
up to the environment. -/
def IsEnvironment : BalanceWatcher.Action → Prop
  | .addDeposit _ => False
  | .callback _ _ => False
  | _ => True

instance (a : BalanceWatcher.Action) : Decidable (IsEnvironment a) := by
  unfold IsEnvironment
  split <;> infer_instance

/-- The report that the watcher's step makes. -/
def reportOf (ws' : BalanceWatcher.State) : BalanceWatcher.Action → Option (ℕ × OtaResult)
  | .resume p => (BalanceWatcher.callbackOf ws' p).map fun result => (p, result)
  | _ => none

def step (cfg : Config) (s : State) : Action → Option State
  | .deposit c request => if s.calls.get? c = none then some (deposit s c request) else none
  | .asset c answer =>
    match s.calls.get? c with
    | some (.getAsset request assetId) =>
      match answer with
      | .error message => some (s.setCall c (.rejected message))
      | .ok none => some (s.setCall c (.answered (.failed 1 s!"Asset {assetId} is not registered")))
      | .ok (some dbAsset) => some (s.setCall c (.resolveSweepTarget request assetId dbAsset))
    | _ => none
  | .target c answer correlationId =>
    match s.calls.get? c with
    | some (.resolveSweepTarget request assetId dbAsset) =>
      match answer with
      | .error message => some (s.setCall c (.rejected message))
      | .ok none | .ok (some "") =>
        let finId := request.ownerFinId
        some (s.setCall c (.answered (.failed 1 s!"No sweep target available for finId {finId}")))
      | .ok (some sweepTarget) =>
        some (s.setCall c (.createCustodyAccount
          ⟨request.ownerFinId, assetId, dbAsset, sweepTarget, request.amount⟩ correlationId))
    | _ => none
  | .account c answer =>
    match s.calls.get? c with
    | some (.createCustodyAccount order correlationId) =>
      match answer with
      | .error message => some (s.setCall c (.rejected message))
      | .ok account => some (s.setCall c (.createWallet order correlationId account))
    | _ => none
  | .wallet c answer now =>
    match s.calls.get? c with
    | some (.createWallet order correlationId account) =>
      match answer with
      | .error message => some (s.setCall c (.rejected message))
      | .ok wallet =>
        let deposit := otaDeposit order correlationId account wallet now
        -- each deposit's account is one of its own: `createCustodyAccount` made it
        if ∀ d ∈ s.watcher.added, d.custodyAccountId ≠ account.custodyAccountId then
          (BalanceWatcher.step cfg.watcher s.watcher (.addDeposit deposit)).map fun ws' =>
            { s with watcher := ws' }.setCall c
              (.answered (.successful (instruction cfg.channels deposit)))
        else none
    | _ => none
  | .watcher a =>
    if IsEnvironment a then
      (BalanceWatcher.step cfg.watcher s.watcher a).map fun ws' =>
        match reportOf ws' a with
        | some (p, result) => startCallback cfg { s with watcher := ws' } p result
        | none => { s with watcher := ws' }
    else none
  | .notified p rejection =>
    match s.notices.get? p with
    | some (result, c :: rest) =>
      some { s with
        notices := s.notices.set p (result, rest)
        delivered := if rejection = none then c :: s.delivered else s.delivered }
    | _ => none
  | .returned p =>
    match s.notices.get? p with
    | some (_, []) =>
      (BalanceWatcher.step cfg.watcher s.watcher (.callback p none)).map fun ws' =>
        { s with watcher := ws', notices := s.notices.delete p }
    | _ => none

/-! ### What a step can do -/

/-- The enabled steps and their outcomes, the calls' own stages left open. -/
inductive Transition (cfg : Config) (s : State) : Action → State → Prop where
  | call {a : Action} {c : ℕ} {call : DepositCall} : Transition cfg s a (s.setCall c call)
  | adds {a : Action} {c : ℕ} {call : DepositCall} {deposit : OtaDeposit} {ws' : BalanceWatcher.State}
    (hfresh : ∀ d ∈ s.watcher.added, d.custodyAccountId ≠ deposit.custodyAccountId)
    (hs : BalanceWatcher.step cfg.watcher s.watcher (.addDeposit deposit) = some ws') :
    Transition cfg s a ({ s with watcher := ws' }.setCall c call)
  | quiet {a : BalanceWatcher.Action} {ws' : BalanceWatcher.State} (henv : IsEnvironment a)
    (hs : BalanceWatcher.step cfg.watcher s.watcher a = some ws') (hr : reportOf ws' a = none) :
    Transition cfg s (.watcher a) { s with watcher := ws' }
  | reports {p : ℕ} {a : BalanceWatcher.Action} {ws' : BalanceWatcher.State} {result : OtaResult}
    (henv : IsEnvironment a) (hs : BalanceWatcher.step cfg.watcher s.watcher a = some ws')
    (hr : reportOf ws' a = some (p, result)) :
    Transition cfg s (.watcher a) (startCallback cfg { s with watcher := ws' } p result)
  | notified {p : ℕ} {rejection : Option String} {result : OtaResult} {c : Call} {rest : List Call}
    (hn : s.notices.get? p = some (result, c :: rest)) :
    Transition cfg s (.notified p rejection)
      { s with
        notices := s.notices.set p (result, rest)
        delivered := if rejection = none then c :: s.delivered else s.delivered }
  | returned {p : ℕ} {result : OtaResult} {ws' : BalanceWatcher.State}
      (hn : s.notices.get? p = some (result, []))
    (hs : BalanceWatcher.step cfg.watcher s.watcher (.callback p none) = some ws') :
    Transition cfg s (.returned p) { s with watcher := ws', notices := s.notices.delete p }

section

variable {cfg : Config} {s s' : State}

theorem transition_of_deposit {c : ℕ} {request : Request}
    (h : step cfg s (.deposit c request) = some s') :
    Transition cfg s (.deposit c request) s' := by
  unfold step at h
  dsimp only at h
  split_ifs at h
  cases h
  unfold deposit
  split
  · split_ifs
    · exact .call
    · exact .call
  · exact .call

theorem transition_of_asset {c : ℕ} {answer : Except String (Option DbAsset)}
    (h : step cfg s (.asset c answer) = some s') :
    Transition cfg s (.asset c answer) s' := by
  unfold step at h
  dsimp only at h
  split at h
  · split at h <;> cases h <;> exact .call
  · cases h

theorem transition_of_target {c : ℕ} {answer : Except String (Option String)} {correlationId : String}
    (h : step cfg s (.target c answer correlationId) = some s') :
    Transition cfg s (.target c answer correlationId) s' := by
  unfold step at h
  dsimp only at h
  split at h
  · split at h <;> cases h <;> exact .call
  · cases h

theorem transition_of_account {c : ℕ} {answer : Except String CustodyAccount}
    (h : step cfg s (.account c answer) = some s') :
    Transition cfg s (.account c answer) s' := by
  unfold step at h
  dsimp only at h
  split at h
  · split at h <;> cases h <;> exact .call
  · cases h

theorem transition_of_wallet {c : ℕ} {answer : Except String String} {now : ℕ}
    (h : step cfg s (.wallet c answer now) = some s') :
    Transition cfg s (.wallet c answer now) s' := by
  unfold step at h
  dsimp only at h
  split at h
  · split at h
    · cases h
      exact .call
    · split_ifs at h with hfresh
      obtain ⟨ws', hs, rfl⟩ := Option.map_eq_some_iff.mp h
      exact .adds hfresh hs
  · cases h

theorem transition_of_watcher {a : BalanceWatcher.Action} (h : step cfg s (.watcher a) = some s') :
    Transition cfg s (.watcher a) s' := by
  unfold step at h
  dsimp only at h
  split_ifs at h with henv
  obtain ⟨ws', hs, he⟩ := Option.map_eq_some_iff.mp h
  split at he
  · rename_i p result hr
    cases he
    exact .reports henv hs hr
  · rename_i hr
    cases he
    exact .quiet henv hs hr

theorem transition_of_notified {p : ℕ} {rejection : Option String}
    (h : step cfg s (.notified p rejection) = some s') :
    Transition cfg s (.notified p rejection) s' := by
  unfold step at h
  dsimp only at h
  split at h
  · rename_i result c rest hn
    cases h
    exact .notified hn
  · cases h

theorem transition_of_returned {p : ℕ} (h : step cfg s (.returned p) = some s') :
    Transition cfg s (.returned p) s' := by
  unfold step at h
  dsimp only at h
  split at h
  · rename_i result hn
    obtain ⟨ws', hs, rfl⟩ := Option.map_eq_some_iff.mp h
    exact .returned hn hs
  · cases h

theorem transition_of_step {a : Action} (h : step cfg s a = some s') : Transition cfg s a s' := by
  cases a with
  | deposit c request => exact transition_of_deposit h
  | asset c answer => exact transition_of_asset h
  | target c answer correlationId => exact transition_of_target h
  | account c answer => exact transition_of_account h
  | wallet c answer now => exact transition_of_wallet h
  | watcher a => exact transition_of_watcher h
  | notified p rejection => exact transition_of_notified h
  | returned p => exact transition_of_returned h

end

end FinP2PAdapter.Deposits.OtaDepositPlugin
