import FinP2PAdapter.Library.JsMap
import FinP2PAdapter.Library.Submissions
import FinP2PAdapter.Skeleton.Types
import Mathlib.Data.Finset.Basic

/-! The balance watcher of one-time-address deposits: a timer for each open deposit
starts polls, and a poll that finds the deposit's ephemeral address funded sweeps
what it found to the sweep target. Runs are cut at the awaits, as the approval
watcher's are; the arrival of tokens and the mining of sweeps are the
environment's. -/

namespace FinP2PAdapter.Deposits.BalanceWatcher

/-- A deposit that waits for tokens at its ephemeral address; `ephemeralWallet` is
the address its wallet signs for. -/
structure OtaDeposit where
  correlationId : String
  finId : String
  assetId : String
  contractAddress : String
  decimals : ℕ
  ephemeralAddress : String
  custodyAccountId : String
  ephemeralWallet : String
  sweepTarget : String
  expectedAmount : Option String
  createdAt : ℕ
  deriving DecidableEq, Repr

/-- What the plugin is handed once a sweep has settled; `sweepTxHash` is the place
of the transaction among those sent. -/
structure OtaResult where
  deposit : OtaDeposit
  receivedAmount : String
  sweepTxHash : ℕ
  deriving DecidableEq, Repr

structure Config where
  units : Units
  gasStation : Bool

/-- Where `pollOnce` stands: at its balance read, inside `sweep`, back from it, at
the plugin's callback, or settled. -/
inductive PollStage where
  | balance
  | gas (amount : ℕ)
  | transfer (amount : ℕ) (sent : Option ℕ)
  | wait (amount : ℕ) (tx : ℕ)
  | swept (amount : ℕ) (tx : ℕ)
  | unswept
  | threw (message : String)
  | callback (result : OtaResult)
  | resolved
  | rejected (message : String)
  deriving DecidableEq, Repr

structure Poll where
  deposit : OtaDeposit
  stage : PollStage
  deriving DecidableEq, Repr

/-- A sweep the node has taken. -/
structure SweepTx where
  deposit : OtaDeposit
  amount : ℕ
  status : Submissions.Status
  deriving DecidableEq, Repr

/-- The watcher's maps, the live intervals, the chain, and the history: deposits ever
added and results reported. Balances are by token and holder, in lower case. -/
structure State where
  deposits : JsMap String OtaDeposit
  timers : JsMap String ℕ
  inFlight : Finset String
  intervals : JsMap ℕ OtaDeposit
  nextInterval : ℕ
  polls : JsMap ℕ Poll
  balances : String → String → ℕ
  txs : List SweepTx
  added : List OtaDeposit
  reports : List OtaResult

def init : State where
  deposits := .empty
  timers := .empty
  inFlight := ∅
  intervals := .empty
  nextInterval := 0
  polls := .empty
  balances := fun _ _ => 0
  txs := []
  added := []
  reports := []

def balanceOf (s : State) (contractAddress holder : String) : ℕ :=
  s.balances contractAddress.toLower holder.toLower

/-! ### The watcher's own functions -/

def State.setPoll (s : State) (p : ℕ) (poll : Poll) : State :=
  { s with polls := s.polls.set p poll }

/-- A poll moves on. -/
def State.move (s : State) (p : ℕ) (poll : Poll) (stage : PollStage) : State :=
  s.setPoll p { poll with stage := stage }

def addDeposit (s : State) (deposit : OtaDeposit) : State :=
  { s with
    deposits := s.deposits.set deposit.correlationId deposit
    intervals := s.intervals.set s.nextInterval deposit
    timers := s.timers.set deposit.correlationId s.nextInterval
    nextInterval := s.nextInterval + 1
    added := deposit :: s.added }

def stop (s : State) (correlationId : String) : State :=
  { s with
    intervals := match s.timers.get? correlationId with
      | none => s.intervals
      | some interval => s.intervals.delete interval
    timers := s.timers.delete correlationId
    deposits := s.deposits.delete correlationId
    inFlight := s.inFlight.erase correlationId }

/-- `pollOnce` up to its balance read. -/
def startPoll (s : State) (p : ℕ) (deposit : OtaDeposit) : State :=
  if deposit.correlationId ∈ s.inFlight then s
  else if s.deposits.has deposit.correlationId then s.setPoll p ⟨deposit, .balance⟩
  else s

/-- Whether a balance is to be swept: not zero, and not below the expected amount. -/
def sweepable (cfg : Config) (deposit : OtaDeposit) (balance : ℕ) : Except String Bool :=
  if balance = 0 then .ok false
  else match deposit.expectedAmount with
    | none | some "" => .ok true
    | some expectedAmount =>
      match cfg.units.parseUnits expectedAmount deposit.decimals with
      | .error message => .error message
      | .ok expectedBaseUnits => .ok (decide (expectedBaseUnits ≤ balance))

/-- `pollOnce` from its balance on, up to the first await of `sweep`. -/
def afterBalance (cfg : Config) (s : State) (p : ℕ) (poll : Poll) (balance : ℕ) : State :=
  match sweepable cfg poll.deposit balance with
  | .error message => s.move p poll (.rejected message)
  | .ok false => s.move p poll .resolved
  | .ok true =>
    { s with inFlight := insert poll.deposit.correlationId s.inFlight }.move p poll
      (if cfg.gasStation then .gas balance else .unswept)

/-- The `finally` clause, whichever way it is reached. -/
def leave (s : State) (p : ℕ) (poll : Poll) (stage : PollStage) : State :=
  { s with inFlight := s.inFlight.erase poll.deposit.correlationId }.move p poll stage

/-- The deposit is dropped before the plugin hears of its sweep. -/
def detected (cfg : Config) (s : State) (p : ℕ) (poll : Poll) (amount tx : ℕ) : State :=
  let result : OtaResult := ⟨poll.deposit, cfg.units.formatUnits amount poll.deposit.decimals, tx⟩
  let s := stop s poll.deposit.correlationId
  { s with reports := result :: s.reports }.move p poll (.callback result)

/-! ### The environment -/

inductive Action where
  | addDeposit (deposit : OtaDeposit)
  | tick (interval p : ℕ)
  | balance (p : ℕ) (rejection : Option String)
  | gas (p : ℕ) (rejection : Option String)
  | broadcast (p : ℕ)
  | transfer (p : ℕ) (rejection : Option String)
  | receipt (p : ℕ) (answer : ReceiptAnswer)
  | resume (p : ℕ)
  | callback (p : ℕ) (rejection : Option String)
  | receive (contractAddress holder : String) (amount : ℕ)
  | mine (tx : ℕ)
  | revert (tx : ℕ)

/-- `amount` more at the holder. -/
def credit (balances : String → String → ℕ) (contractAddress holder : String) (amount : ℕ) :
    String → String → ℕ :=
  let token := contractAddress.toLower
  let account := holder.toLower
  Function.update balances token (Function.update (balances token) account
    (balances token account + amount))

/-- `amount` less at the holder. -/
def debit (balances : String → String → ℕ) (contractAddress holder : String) (amount : ℕ) :
    String → String → ℕ :=
  let token := contractAddress.toLower
  let account := holder.toLower
  Function.update balances token (Function.update (balances token) account
    (balances token account - amount))

/-- A mined sweep moves its amount from the ephemeral wallet to the sweep target. -/
def moveTokens (s : State) (tx : SweepTx) : String → String → ℕ :=
  credit (debit s.balances tx.deposit.contractAddress tx.deposit.ephemeralWallet tx.amount)
    tx.deposit.contractAddress tx.deposit.sweepTarget tx.amount

/-- The node takes a sweep. -/
def State.send (s : State) (tx : SweepTx) : State := { s with txs := s.txs ++ [tx] }

def step (cfg : Config) (s : State) : Action → Option State
  | .addDeposit deposit =>
    -- ids are fresh: each comes from `generateCid`
    if deposit.correlationId ∉ s.added.map OtaDeposit.correlationId then some (addDeposit s deposit)
    else none
  | .tick interval p =>
    match s.intervals.get? interval, s.polls.get? p with
    | some deposit, none => some (startPoll s p deposit)
    | _, _ => none
  | .balance p rejection =>
    match s.polls.get? p with
    | some poll =>
      match poll.stage, rejection with
      | .balance, some message => some (s.move p poll (.rejected message))
      | .balance, none =>
        some (afterBalance cfg s p poll
          (balanceOf s poll.deposit.contractAddress poll.deposit.ephemeralAddress))
      | _, _ => none
    | none => none
  | .gas p rejection =>
    match s.polls.get? p with
    | some poll =>
      match poll.stage, rejection with
      | .gas _, some message => some (s.move p poll (.threw message))
      | .gas amount, none => some (s.move p poll (.transfer amount none))
      | _, _ => none
    | none => none
  | .broadcast p =>
    match s.polls.get? p with
    | some poll =>
      match poll.stage with
      | .transfer amount none =>
        some ((s.send ⟨poll.deposit, amount, .pending⟩).move p poll
          (.transfer amount (some s.txs.length)))
      | _ => none
    | none => none
  | .transfer p rejection =>
    match s.polls.get? p with
    | some poll =>
      match poll.stage, rejection with
      | .transfer _ _, some message => some (s.move p poll (.threw message))
      | .transfer amount (some tx), none => some (s.move p poll (.wait amount tx))
      | _, _ => none
    | none => none
  | .receipt p answer =>
    match s.polls.get? p with
    | some poll =>
      match poll.stage, answer with
      | .wait _ _, .rejects message => some (s.move p poll (.threw message))
      | .wait _ _, .null => some (s.move p poll .unswept)
      | .wait amount tx, .receipt =>
        match (s.txs[tx]?).map SweepTx.status with
        | some .mined => some (s.move p poll (.swept amount tx))
        | some .reverted => some (s.move p poll .unswept)
        | _ => none
      | _, _ => none
    | none => none
  | .resume p =>
    match s.polls.get? p with
    | some poll =>
      match poll.stage with
      | .swept amount tx => some (detected cfg s p poll amount tx)
      | .unswept => some (leave s p poll .resolved)
      | .threw message => some (leave s p poll (.rejected message))
      | _ => none
    | none => none
  | .callback p rejection =>
    match s.polls.get? p with
    | some poll =>
      match poll.stage, rejection with
      | .callback _, some message => some (leave s p poll (.rejected message))
      | .callback _, none => some (leave s p poll .resolved)
      | _, _ => none
    | none => none
  | .receive contractAddress holder amount =>
    some { s with balances := credit s.balances contractAddress holder amount }
  | .mine i =>
    match s.txs[i]? with
    | some tx =>
      if tx.status = .pending ∧ tx.amount ≤
        balanceOf s tx.deposit.contractAddress tx.deposit.ephemeralWallet then
        some { s with txs := s.txs.set i { tx with status := .mined }, balances := moveTokens s tx }
      else none
    | none => none
  | .revert i =>
    match s.txs[i]? with
    | some tx =>
      if tx.status = .pending then some { s with txs := s.txs.set i { tx with status := .reverted } }
      else none
    | none => none

/-! ### What a step can do -/

/-- The enabled steps and their outcomes, one rule for each way an await can end. -/
inductive Transition (cfg : Config) (s : State) : Action → State → Prop where
  | addDeposit {deposit : OtaDeposit}
      (hfresh : deposit.correlationId ∉ s.added.map OtaDeposit.correlationId) :
    Transition cfg s (.addDeposit deposit) (addDeposit s deposit)
  | tick {interval p : ℕ} {deposit : OtaDeposit} (hi : s.intervals.get? interval = some deposit)
    (hp : s.polls.get? p = none) : Transition cfg s (.tick interval p) (startPoll s p deposit)
  | balanceRejected {p : ℕ} {poll : Poll} {message : String} (hp : s.polls.get? p = some poll)
    (hst : poll.stage = .balance) :
    Transition cfg s (.balance p (some message)) (s.move p poll (.rejected message))
  | balance {p : ℕ} {poll : Poll} (hp : s.polls.get? p = some poll) (hst : poll.stage = .balance) :
    Transition cfg s (.balance p none) (afterBalance cfg s p poll
      (balanceOf s poll.deposit.contractAddress poll.deposit.ephemeralAddress))
  | gasRejected {p amount : ℕ} {poll : Poll} {message : String} (hp : s.polls.get? p = some poll)
    (hst : poll.stage = .gas amount) :
      Transition cfg s (.gas p (some message)) (s.move p poll (.threw message))
  | gas {p amount : ℕ} {poll : Poll} (hp : s.polls.get? p = some poll)
      (hst : poll.stage = .gas amount) :
    Transition cfg s (.gas p none) (s.move p poll (.transfer amount none))
  | broadcast {p amount : ℕ} {poll : Poll} (hp : s.polls.get? p = some poll)
    (hst : poll.stage = .transfer amount none) :
    Transition cfg s (.broadcast p)
      ((s.send ⟨poll.deposit, amount, .pending⟩).move p poll (.transfer amount (some s.txs.length)))
  | transferRejected {p amount : ℕ} {poll : Poll} {sent : Option ℕ} {message : String}
    (hp : s.polls.get? p = some poll) (hst : poll.stage = .transfer amount sent) :
    Transition cfg s (.transfer p (some message)) (s.move p poll (.threw message))
  | transferSent {p amount tx : ℕ} {poll : Poll} (hp : s.polls.get? p = some poll)
    (hst : poll.stage = .transfer amount (some tx)) :
    Transition cfg s (.transfer p none) (s.move p poll (.wait amount tx))
  | unconfirmed {p amount tx : ℕ} {poll : Poll} {answer : ReceiptAnswer} {stage : PollStage}
    (hp : s.polls.get? p = some poll) (hst : poll.stage = .wait amount tx)
    (hstage : stage = .unswept ∨ ∃ message, stage = .threw message)
    (hreverted : answer = .receipt → (s.txs[tx]?).map SweepTx.status = some .reverted) :
    Transition cfg s (.receipt p answer) (s.move p poll stage)
  | confirmed {p amount tx : ℕ} {poll : Poll} (hp : s.polls.get? p = some poll)
    (hst : poll.stage = .wait amount tx) (hm : (s.txs[tx]?).map SweepTx.status = some .mined) :
    Transition cfg s (.receipt p .receipt) (s.move p poll (.swept amount tx))
  | detected {p amount tx : ℕ} {poll : Poll} (hp : s.polls.get? p = some poll)
    (hst : poll.stage = .swept amount tx) :
      Transition cfg s (.resume p) (detected cfg s p poll amount tx)
  | unswept {p : ℕ} {poll : Poll} (hp : s.polls.get? p = some poll) (hst : poll.stage = .unswept) :
    Transition cfg s (.resume p) (leave s p poll .resolved)
  | throws {p : ℕ} {poll : Poll} {message : String} (hp : s.polls.get? p = some poll)
    (hst : poll.stage = .threw message) :
      Transition cfg s (.resume p) (leave s p poll (.rejected message))
  | callback {p : ℕ} {poll : Poll} {result : OtaResult} {rejection : Option String} {stage : PollStage}
    (hp : s.polls.get? p = some poll) (hst : poll.stage = .callback result)
    (hstage : stage = .resolved ∨ ∃ message, stage = .rejected message) :
    Transition cfg s (.callback p rejection) (leave s p poll stage)
  | receive {contractAddress holder : String} {amount : ℕ} {balances : String → String → ℕ} :
    Transition cfg s (.receive contractAddress holder amount) { s with balances := balances }
  | mine {i : ℕ} {tx : SweepTx} {balances : String → String → ℕ} (htx : s.txs[i]? = some tx)
    (hp : tx.status = .pending) :
    Transition cfg s (.mine i)
      { s with txs := s.txs.set i { tx with status := .mined }, balances := balances }
  | revert {i : ℕ} {tx : SweepTx} (htx : s.txs[i]? = some tx) (hp : tx.status = .pending) :
    Transition cfg s (.revert i) { s with txs := s.txs.set i { tx with status := .reverted } }

section

variable {cfg : Config} {s s' : State}

theorem transition_of_balance {p : ℕ} {rejection : Option String}
    (h : step cfg s (.balance p rejection) = some s') :
    Transition cfg s (.balance p rejection) s' := by
  unfold step at h
  dsimp only at h
  split at h
  · rename_i poll hp
    split at h
    · rename_i hst
      cases h
      exact .balanceRejected hp hst
    · rename_i hst
      cases h
      exact .balance hp hst
    · cases h
  · cases h

theorem transition_of_gas {p : ℕ} {rejection : Option String}
    (h : step cfg s (.gas p rejection) = some s') :
    Transition cfg s (.gas p rejection) s' := by
  unfold step at h
  dsimp only at h
  split at h
  · rename_i poll hp
    split at h
    · rename_i hst
      cases h
      exact .gasRejected hp hst
    · rename_i hst
      cases h
      exact .gas hp hst
    · cases h
  · cases h

theorem transition_of_broadcast {p : ℕ} (h : step cfg s (.broadcast p) = some s') :
    Transition cfg s (.broadcast p) s' := by
  unfold step at h
  dsimp only at h
  split at h
  · rename_i poll hp
    split at h
    · rename_i hst
      cases h
      exact .broadcast hp hst
    · cases h
  · cases h

theorem transition_of_transfer {p : ℕ} {rejection : Option String}
    (h : step cfg s (.transfer p rejection) = some s') :
    Transition cfg s (.transfer p rejection) s' := by
  unfold step at h
  dsimp only at h
  split at h
  · rename_i poll hp
    split at h
    · rename_i hst
      cases h
      exact .transferRejected hp hst
    · rename_i hst
      cases h
      exact .transferSent hp hst
    · cases h
  · cases h

theorem transition_of_receipt {p : ℕ} {answer : ReceiptAnswer}
    (h : step cfg s (.receipt p answer) = some s') :
    Transition cfg s (.receipt p answer) s' := by
  unfold step at h
  dsimp only at h
  split at h
  · rename_i poll hp
    split at h
    · rename_i message hst
      cases h
      exact .unconfirmed hp hst (.inr ⟨message, rfl⟩) (by simp)
    · rename_i hst
      cases h
      exact .unconfirmed hp hst (.inl rfl) (by simp)
    · rename_i hst
      split at h
      · rename_i hm
        cases h
        exact .confirmed hp hst hm
      · rename_i hr
        cases h
        exact .unconfirmed hp hst (.inl rfl) fun _ => hr
      · cases h
    · cases h
  · cases h

theorem transition_of_resume {p : ℕ} (h : step cfg s (.resume p) = some s') :
    Transition cfg s (.resume p) s' := by
  unfold step at h
  dsimp only at h
  split at h
  · rename_i poll hp
    split at h
    · rename_i hst
      cases h
      exact .detected hp hst
    · rename_i hst
      cases h
      exact .unswept hp hst
    · rename_i hst
      cases h
      exact .throws hp hst
    · cases h
  · cases h

theorem transition_of_callback {p : ℕ} {rejection : Option String}
    (h : step cfg s (.callback p rejection) = some s') :
    Transition cfg s (.callback p rejection) s' := by
  unfold step at h
  dsimp only at h
  split at h
  · rename_i poll hp
    split at h
    · rename_i message hst
      cases h
      exact .callback hp hst (.inr ⟨message, rfl⟩)
    · rename_i hst
      cases h
      exact .callback hp hst (.inl rfl)
    · cases h
  · cases h

theorem transition_of_step {a : Action} (h : step cfg s a = some s') : Transition cfg s a s' := by
  cases a with
  | addDeposit deposit =>
    unfold step at h
    dsimp only at h
    split_ifs at h with hg
    cases h
    exact .addDeposit hg
  | tick interval p =>
    unfold step at h
    dsimp only at h
    split at h
    · rename_i deposit hi hp
      cases h
      exact .tick hi hp
    · cases h
  | balance p rejection => exact transition_of_balance h
  | gas p rejection => exact transition_of_gas h
  | broadcast p => exact transition_of_broadcast h
  | transfer p rejection => exact transition_of_transfer h
  | receipt p answer => exact transition_of_receipt h
  | resume p => exact transition_of_resume h
  | callback p rejection => exact transition_of_callback h
  | receive contractAddress holder amount =>
    cases h
    exact .receive
  | mine i =>
    unfold step at h
    dsimp only at h
    split at h
    · rename_i tx htx
      split_ifs at h with hp
      cases h
      exact .mine htx hp.1
    · cases h
  | revert i =>
    unfold step at h
    dsimp only at h
    split at h
    · rename_i tx htx
      split_ifs at h with hp
      cases h
      exact .revert htx hp
    · cases h

end

/-! ### A watcher of one deposit -/

def plainWatcher : Config where
  units := wholeUnits
  gasStation := true

/-- A deposit of any amount. -/
def tokenDeposit : OtaDeposit where
  correlationId := "cid-1"
  finId := "alice"
  assetId := "token"
  contractAddress := "0x7777777777777777777777777777777777777777"
  decimals := 0
  ephemeralAddress := "0x6666666666666666666666666666666666666666"
  custodyAccountId := "ota-cid-1"
  ephemeralWallet := "0x6666666666666666666666666666666666666666"
  sweepTarget := "0x5555555555555555555555555555555555555555"
  expectedAmount := none
  createdAt := 0

/-- The deposit is funded with five tokens, and a poll finds them and has its
sweep mined. -/
def sweeping : List Action :=
  [.addDeposit tokenDeposit, .tick 0 0,
    .receive tokenDeposit.contractAddress tokenDeposit.ephemeralAddress 5, .balance 0 none, .gas 0 none,
    .broadcast 0, .transfer 0 none, .mine 0]

end FinP2PAdapter.Deposits.BalanceWatcher
