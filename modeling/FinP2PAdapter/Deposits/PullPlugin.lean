import FinP2PAdapter.Deposits.PaymentsPlugin
import FinP2PAdapter.Deposits.PullRecords

/-! The pull-deposit plugin over its watchers. A `deposit` call resolves asset and
target, takes the watcher, which the first call creates after an await of its own,
and adds its deposit; a watcher that reports a pull runs the plugin's callback,
which tells the configured channels one after the other and passes over a failure.
The watchers' machines run side by side, each with its own view of the chain. -/

namespace FinP2PAdapter.Deposits.PullDepositPlugin

open Machine
open ApprovalWatcher (PullDeposit PullResult)

structure Config where
  units : Units
  gasStation : Bool
  channels : Channels

/-- What the watchers are constructed with; the callback is always given. -/
def Config.watcher (cfg : Config) : ApprovalWatcher.Config := ⟨cfg.units, cfg.gasStation, true⟩

/-- Where a `deposit` call stands: at one of its awaits, at the one inside
`getWatcher`, or answered. -/
inductive DepositCall where
  | getAsset (request : Request) (assetId : String)
  | resolveDepositTarget (request : Request) (assetId : String) (dbAsset : DbAsset)
  | getWatcher (order : Order)
  | operatorAddress (order : Order) (w : ℕ)
  | addDeposit (w : ℕ) (deposit : PullDeposit) (operatorAddress : String)
  | answered (operation : DepositOperation)
  | rejected (message : String)
  deriving DecidableEq, Repr

/-- The plugin's watcher, every watcher ever created, the pending calls and
callbacks, and the history: results reported to the plugin and calls delivered. -/
structure State where
  watcher : Option ℕ
  watchers : List ApprovalWatcher.State
  calls : JsMap ℕ DepositCall
  notices : JsMap (ℕ × ℕ) (PullResult × List Call)
  results : List PullResult
  delivered : List Call

def init : State where
  watcher := none
  watchers := []
  calls := .empty
  notices := .empty
  results := []
  delivered := []

def State.setCall (s : State) (c : ℕ) (call : DepositCall) : State :=
  { s with calls := s.calls.set c call }

def State.setWatcher (s : State) (w : ℕ) (ws : ApprovalWatcher.State) : State :=
  { s with watchers := s.watchers.set w ws }

/-! ### The plugin's own functions -/

/-- `deposit` up to its first await. -/
def deposit (s : State) (c : ℕ) (request : Request) : State :=
  match request.asset.assetId with
  | some assetId =>
    if request.asset.assetType = "finp2p" then s.setCall c (.getAsset request assetId)
    else s.setCall c (.answered (.failed 1 "Pull deposit only supports finp2p asset type"))
  | none => s.setCall c (.answered (.failed 1 "Pull deposit only supports finp2p asset type"))

/-- `getWatcher` up to its first await, or to its end. -/
def getWatcher (s : State) (c : ℕ) (order : Order) : State :=
  match s.watcher with
  | some w => s.setCall c (.operatorAddress order w)
  | none => s.setCall c (.getWatcher order)

/-- The deposit handed to the watcher. -/
def pullDeposit (order : Order) (correlationId : String) (now : ℕ) : PullDeposit where
  correlationId := correlationId
  finId := order.ownerFinId
  assetId := order.assetId
  contractAddress := order.dbAsset.contractAddress
  decimals := order.dbAsset.decimals
  destinationAddress := order.target
  expectedAmount := order.amount
  createdAt := now

def instruction (ch : Channels) (deposit : PullDeposit) (operatorAddress : String) : Instruction where
  finId := deposit.finId
  address := deposit.destinationAddress
  description :=
    let destinationAddress := deposit.destinationAddress
    s!"Approve {operatorAddress} on the token contract to deposit into {destinationAddress}"
  paymentDescription := "ERC20 approve + pull"
  currency := deposit.assetId
  network := ch.network
  contractAddress := deposit.contractAddress
  walletAddress := operatorAddress
  operationId := deposit.correlationId
  custodyAccountId := none

def credit (result : PullResult) : Credit where
  correlationId := result.deposit.correlationId
  finId := result.deposit.finId
  assetId := result.deposit.assetId
  contractAddress := result.deposit.contractAddress
  amount := result.amount
  txHash := result.txHash

/-- The calls of `onPullCompleted`, in order. -/
def onPullCompleted (cfg : Config) (result : PullResult) : List Call :=
  notifications cfg.channels (credit result)

/-- A watcher's report starts the callback of its poll. -/
def startCallback (cfg : Config) (s : State) (w p : ℕ) (result : PullResult) : State :=
  { s with
    notices := s.notices.set (w, p) (result, onPullCompleted cfg result)
    results := result :: s.results }

/-! ### The environment -/

inductive Action where
  | deposit (c : ℕ) (request : Request)
  | asset (c : ℕ) (answer : Except String (Option DbAsset))
  | target (c : ℕ) (answer : Except String (Option String))
  | signer (c : ℕ) (answer : Except String String)
  | operator (c : ℕ) (answer : Except String String) (correlationId : String) (now : ℕ)
  | added (c : ℕ)
  | watcher (w : ℕ) (a : ApprovalWatcher.Action)
  | notified (w p : ℕ) (rejection : Option String)
  | returned (w p : ℕ)

/-- Deposits are added and callbacks answered by the plugin; all else in a watcher is
up to the environment. -/
def IsEnvironment : ApprovalWatcher.Action → Prop
  | .addDeposit _ _ => False
  | .callback _ _ => False
  | _ => True

instance (a : ApprovalWatcher.Action) : Decidable (IsEnvironment a) := by
  unfold IsEnvironment
  split <;> infer_instance

/-- The report that a watcher's step makes. -/
def reportOf (ws' : ApprovalWatcher.State) : ApprovalWatcher.Action → Option (ℕ × PullResult)
  | .receipt p _ => (ApprovalWatcher.callbackOf ws' p).map fun result => (p, result)
  | _ => none

def step (cfg : Config) (s : State) : Action → Option State
  | .deposit c request => if s.calls.get? c = none then some (deposit s c request) else none
  | .asset c answer =>
    match s.calls.get? c with
    | some (.getAsset request assetId) =>
      match answer with
      | .error message => some (s.setCall c (.rejected message))
      | .ok none => some (s.setCall c (.answered (.failed 1 s!"Asset {assetId} is not registered")))
      | .ok (some dbAsset) => some (s.setCall c (.resolveDepositTarget request assetId dbAsset))
    | _ => none
  | .target c answer =>
    match s.calls.get? c with
    | some (.resolveDepositTarget request assetId dbAsset) =>
      match answer with
      | .error message => some (s.setCall c (.rejected message))
      | .ok none | .ok (some "") =>
        let finId := request.ownerFinId
        some (s.setCall c (.answered (.failed 1 s!"No deposit target available for finId {finId}")))
      | .ok (some destinationAddress) =>
        some (getWatcher s c ⟨request.ownerFinId, assetId, dbAsset, destinationAddress, request.amount⟩)
    | _ => none
  | .signer c answer =>
    match s.calls.get? c with
    | some (.getWatcher order) =>
      match answer with
      | .error message => some (s.setCall c (.rejected message))
      | .ok _ =>
        some ({ s with
          watcher := some s.watchers.length
          watchers := s.watchers ++ [ApprovalWatcher.init] }.setCall c
            (.operatorAddress order s.watchers.length))
    | _ => none
  | .operator c answer correlationId now =>
    match s.calls.get? c with
    | some (.operatorAddress order w) =>
      match answer with
      | .error message => some (s.setCall c (.rejected message))
      | .ok operatorAddress =>
        let deposit := pullDeposit order correlationId now
        -- ids are fresh, whichever watcher took them
        if ∀ ws ∈ s.watchers, correlationId ∉ ws.added then
          ((s.watchers[w]?).bind fun ws =>
            ApprovalWatcher.step cfg.watcher ws (.addDeposit c deposit)).map
            fun ws' => (s.setWatcher w ws').setCall c (.addDeposit w deposit operatorAddress)
        else none
    | _ => none
  | .added c =>
    match s.calls.get? c with
    | some (.addDeposit w deposit operatorAddress) =>
      match (s.watchers[w]?).bind fun ws => ws.calls.get? c with
      | some (.resolved _) =>
        some (s.setCall c (.answered (.successful (instruction cfg.channels deposit operatorAddress))))
      | some (.rejected _ message) => some (s.setCall c (.answered (.failed 1 message)))
      | _ => none
    | _ => none
  | .watcher w a =>
    if IsEnvironment a then
      ((s.watchers[w]?).bind fun ws => ApprovalWatcher.step cfg.watcher ws a).map fun ws' =>
        match reportOf ws' a with
        | some (p, result) => startCallback cfg (s.setWatcher w ws') w p result
        | none => s.setWatcher w ws'
    else none
  | .notified w p rejection =>
    match s.notices.get? (w, p) with
    | some (result, c :: rest) =>
      some { s with
        notices := s.notices.set (w, p) (result, rest)
        delivered := if rejection = none then c :: s.delivered else s.delivered }
    | _ => none
  | .returned w p =>
    match s.notices.get? (w, p) with
    | some (_, []) =>
      ((s.watchers[w]?).bind fun ws =>
        ApprovalWatcher.step cfg.watcher ws (.callback p none)).map fun ws' =>
        { s.setWatcher w ws' with notices := s.notices.delete (w, p) }
    | _ => none

/-! ### What a step can do -/

/-- A stage of a call that has nothing to do with a watcher yet, or no more. -/
def DepositCall.Apart : DepositCall → Prop
  | .operatorAddress _ _ => False
  | .addDeposit _ _ _ => False
  | .answered (.successful _) => False
  | _ => True

/-- The enabled steps and their outcomes. -/
inductive Transition (cfg : Config) (s : State) : Action → State → Prop where
  | apart {a : Action} {c : ℕ} {call : DepositCall} (hcall : call.Apart) :
      Transition cfg s a (s.setCall c call)
  | takes {a : Action} {c w : ℕ} {order : Order} (hw : s.watcher = some w) :
    Transition cfg s a (s.setCall c (.operatorAddress order w))
  | creates {c : ℕ} {order : Order} {address : String} :
    Transition cfg s (.signer c (.ok address))
      ({ s with
        watcher := some s.watchers.length
        watchers := s.watchers ++ [ApprovalWatcher.init] }.setCall c
          (.operatorAddress order s.watchers.length))
  | adds {c w now : ℕ} {correlationId operatorAddress : String} {deposit : PullDeposit}
    {ws ws' : ApprovalWatcher.State} (hws : s.watchers[w]? = some ws)
    (hs : ApprovalWatcher.step cfg.watcher ws (.addDeposit c deposit) = some ws') :
    Transition cfg s (.operator c (.ok operatorAddress) correlationId now)
      ((s.setWatcher w ws').setCall c (.addDeposit w deposit operatorAddress))
  | succeeds {c w : ℕ} {deposit d : PullDeposit} {operatorAddress : String} {ws : ApprovalWatcher.State}
    (hc : s.calls.get? c = some (.addDeposit w deposit operatorAddress))
      (hws : s.watchers[w]? = some ws)
    (hr : ws.calls.get? c = some (.resolved d)) :
    Transition cfg s (.added c)
      (s.setCall c (.answered (.successful (instruction cfg.channels deposit operatorAddress))))
  | quiet {w : ℕ} {a : ApprovalWatcher.Action} {ws ws' : ApprovalWatcher.State} (henv : IsEnvironment a)
    (hws : s.watchers[w]? = some ws) (hs : ApprovalWatcher.step cfg.watcher ws a = some ws')
    (hr : reportOf ws' a = none) : Transition cfg s (.watcher w a) (s.setWatcher w ws')
  | reports {w p : ℕ} {a : ApprovalWatcher.Action} {ws ws' : ApprovalWatcher.State}
      {result : PullResult}
    (henv : IsEnvironment a) (hws : s.watchers[w]? = some ws)
    (hs : ApprovalWatcher.step cfg.watcher ws a = some ws') (hr : reportOf ws' a = some (p, result)) :
    Transition cfg s (.watcher w a) (startCallback cfg (s.setWatcher w ws') w p result)
  | notified {w p : ℕ} {rejection : Option String} {result : PullResult} {c : Call} {rest : List Call}
    (hn : s.notices.get? (w, p) = some (result, c :: rest)) :
    Transition cfg s (.notified w p rejection)
      { s with
        notices := s.notices.set (w, p) (result, rest)
        delivered := if rejection = none then c :: s.delivered else s.delivered }
  | returned {w p : ℕ} {result : PullResult} {ws ws' : ApprovalWatcher.State}
    (hn : s.notices.get? (w, p) = some (result, [])) (hws : s.watchers[w]? = some ws)
    (hs : ApprovalWatcher.step cfg.watcher ws (.callback p none) = some ws') :
    Transition cfg s (.returned w p) { s.setWatcher w ws' with notices := s.notices.delete (w, p) }

section

variable {cfg : Config} {s s' : State}

theorem transition_of_deposit {c : ℕ} {request : Request}
    (h : step cfg s (.deposit c request) = some s') :
    Transition cfg s (.deposit c request) s' := by
  unfold step at h
  dsimp only at h
  split_ifs at h
  cases h
  unfold deposit
  split
  · split_ifs
    · exact .apart trivial
    · exact .apart trivial
  · exact .apart trivial

theorem transition_of_asset {c : ℕ} {answer : Except String (Option DbAsset)}
    (h : step cfg s (.asset c answer) = some s') :
    Transition cfg s (.asset c answer) s' := by
  unfold step at h
  dsimp only at h
  split at h
  · split at h <;> cases h <;> exact .apart trivial
  · cases h

theorem transition_of_target {c : ℕ} {answer : Except String (Option String)}
    (h : step cfg s (.target c answer) = some s') :
    Transition cfg s (.target c answer) s' := by
  unfold step at h
  dsimp only at h
  split at h
  · split at h
    · cases h
      exact .apart trivial
    · cases h
      exact .apart trivial
    · cases h
      exact .apart trivial
    · cases h
      unfold getWatcher
      split
      · rename_i w hw
        exact .takes hw
      · exact .apart trivial
  · cases h

theorem transition_of_signer {c : ℕ} {answer : Except String String}
    (h : step cfg s (.signer c answer) = some s') :
    Transition cfg s (.signer c answer) s' := by
  unfold step at h
  dsimp only at h
  split at h
  · split at h
    · cases h
      exact .apart trivial
    · cases h
      exact .creates
  · cases h

theorem transition_of_operator {c : ℕ} {answer : Except String String} {correlationId : String} {now : ℕ}
    (h : step cfg s (.operator c answer correlationId now) = some s') :
    Transition cfg s (.operator c answer correlationId now) s' := by
  unfold step at h
  dsimp only at h
  split at h
  · split at h
    · cases h
      exact .apart trivial
    · split_ifs at h
      obtain ⟨ws', hws', rfl⟩ := Option.map_eq_some_iff.mp h
      obtain ⟨ws, hws, hs⟩ := Option.bind_eq_some_iff.mp hws'
      exact .adds hws hs
  · cases h

theorem transition_of_added {c : ℕ} (h : step cfg s (.added c) = some s') :
    Transition cfg s (.added c) s' := by
  unfold step at h
  dsimp only at h
  split at h
  · rename_i w deposit operatorAddress hc
    split at h
    · rename_i d hr
      cases h
      obtain ⟨ws, hws, hr⟩ := Option.bind_eq_some_iff.mp hr
      exact .succeeds hc hws hr
    · cases h
      exact .apart trivial
    · cases h
  · cases h

theorem transition_of_watcher {w : ℕ} {a : ApprovalWatcher.Action}
    (h : step cfg s (.watcher w a) = some s') :
    Transition cfg s (.watcher w a) s' := by
  unfold step at h
  dsimp only at h
  split_ifs at h with henv
  obtain ⟨ws', hws', he⟩ := Option.map_eq_some_iff.mp h
  obtain ⟨ws, hws, hs⟩ := Option.bind_eq_some_iff.mp hws'
  split at he
  · rename_i p result hr
    cases he
    exact .reports henv hws hs hr
  · rename_i hr
    cases he
    exact .quiet henv hws hs hr

theorem transition_of_notified {w p : ℕ} {rejection : Option String}
    (h : step cfg s (.notified w p rejection) = some s') :
    Transition cfg s (.notified w p rejection) s' := by
  unfold step at h
  dsimp only at h
  split at h
  · rename_i result c rest hn
    cases h
    exact .notified hn
  · cases h

theorem transition_of_returned {w p : ℕ} (h : step cfg s (.returned w p) = some s') :
    Transition cfg s (.returned w p) s' := by
  unfold step at h
  dsimp only at h
  split at h
  · rename_i result hn
    obtain ⟨ws', hws', rfl⟩ := Option.map_eq_some_iff.mp h
    obtain ⟨ws, hws, hs⟩ := Option.bind_eq_some_iff.mp hws'
    exact .returned hn hws hs
  · cases h

theorem transition_of_step {a : Action} (h : step cfg s a = some s') : Transition cfg s a s' := by
  cases a with
  | deposit c request => exact transition_of_deposit h
  | asset c answer => exact transition_of_asset h
  | target c answer => exact transition_of_target h
  | signer c answer => exact transition_of_signer h
  | operator c answer correlationId now => exact transition_of_operator h
  | added c => exact transition_of_added h
  | watcher w a => exact transition_of_watcher h
  | notified w p rejection => exact transition_of_notified h
  | returned w p => exact transition_of_returned h

end

end FinP2PAdapter.Deposits.PullDepositPlugin
