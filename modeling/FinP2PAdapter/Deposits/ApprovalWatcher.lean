import FinP2PAdapter.Library.JsMap
import FinP2PAdapter.Library.Submissions
import FinP2PAdapter.Skeleton.Types
import Mathlib.Algebra.Group.Int.Defs
import Mathlib.Algebra.Group.Nat.Defs
import Mathlib.Data.Finset.Basic

/-! The approval watcher of pull-deposits: a timer for each contract with an open
deposit starts polls, a poll reads the `Approval` logs since the contract's
cursor and pulls an approved deposit's tokens with `transferFrom`. A run is cut
at the awaits: between two of them the code runs without interruption, at each
of them any other poll or call may go on, and the answer may be a rejection.
Timers, approvals and the mining of transactions are the environment's. -/

namespace FinP2PAdapter.Deposits.ApprovalWatcher

/-- A deposit that waits for its depositor's approval. -/
structure PullDeposit where
  correlationId : String
  finId : String
  assetId : String
  contractAddress : String
  decimals : ℕ
  destinationAddress : String
  expectedAmount : Option String
  createdAt : ℕ
  deriving DecidableEq, Repr

/-- The contract's address as the maps' key. -/
def PullDeposit.key (deposit : PullDeposit) : String := deposit.contractAddress.toLower

/-- What the plugin is handed once a pull has settled; `txHash` is the place of
the transaction among those sent. -/
structure PullResult where
  deposit : PullDeposit
  owner : String
  txHash : ℕ
  amount : String
  deriving DecidableEq, Repr

structure Config where
  units : Units
  gasStation : Bool
  onPullCompleted : Bool

/-- What `parseLog` makes of a log: an `Approval`, nothing, or an exception. -/
inductive ParsedLog where
  | approval (owner : String) (value : ℕ)
  | unknown
  | malformed (message : String)
  deriving DecidableEq, Repr

structure Log where
  blockNumber : ℕ
  parsed : ParsedLog
  deriving DecidableEq, Repr

/-- Where `handleApproval` stands: at one of its awaits, or back at the loop with
or without an exception. `sent` is the transaction the node has taken from the
pending `transferFrom` call, if it has. -/
inductive Handling where
  | allowance (deposit : PullDeposit) (owner : String) (value : ℕ)
  | gas (deposit : PullDeposit) (owner : String) (desired : ℤ)
  | transferFrom (deposit : PullDeposit) (owner : String) (desired : ℤ) (sent : Option ℕ)
  | wait (deposit : PullDeposit) (owner : String) (desired : ℤ) (tx : ℕ)
  | callback (result : PullResult)
  | returned
  | threw (message : String)
  deriving DecidableEq, Repr

/-- Where `pollOnce` stands. -/
inductive PollStage where
  | blockNumber
  | logs (latest : ℕ)
  | handling (latest : ℕ) (log : Log) (rest : List Log) (handling : Handling)
  | resolved
  | rejected (message : String)
  deriving DecidableEq, Repr

/-- The deposit `handleApproval` has in hand. -/
def Handling.deposit? : Handling → Option PullDeposit
  | .allowance deposit _ _ => some deposit
  | .gas deposit _ _ => some deposit
  | .transferFrom deposit _ _ _ => some deposit
  | .wait deposit _ _ _ => some deposit
  | .callback result => some result.deposit
  | .returned => none
  | .threw _ => none

/-- The deposit a poll is handling an approval for. -/
def PollStage.deposit? : PollStage → Option PullDeposit
  | .handling _ _ _ h => h.deposit?
  | _ => none

theorem no_deposit {deposit? : Option PullDeposit} {P : PullDeposit → Prop} (h : deposit? = none) :
    ∀ d ∈ deposit?, P d := by
  intro d hd
  rw [h] at hd
  cases hd

/-- A running poll: the interval that started it, the deposits open at its start
and the first block of its batch. -/
structure Poll where
  contractAddress : String
  interval : ℕ
  openAtStart : List PullDeposit
  fromBlock : ℕ
  stage : PollStage
  deriving DecidableEq, Repr

def Poll.key (poll : Poll) : String := poll.contractAddress.toLower

/-- Where an `addDeposit` call stands. -/
inductive AddCall where
  | seeding (deposit : PullDeposit)
  | resolved (deposit : PullDeposit)
  | rejected (deposit : PullDeposit) (message : String)
  deriving DecidableEq, Repr

/-- A `transferFrom` the node has taken, with the block of the approval it was
sent for. -/
structure PullTx where
  deposit : PullDeposit
  owner : String
  amount : ℤ
  approvalBlock : ℕ
  status : Submissions.Status
  deriving DecidableEq, Repr

/-- The watcher's maps, the live intervals and pending calls, the chain, and the
history: ids ever taken, blocks `ensurePolling` read, and results reported. -/
structure State where
  deposits : JsMap String PullDeposit
  timers : JsMap String ℕ
  lastSeen : JsMap String ℕ
  inFlight : Finset String
  intervals : JsMap ℕ String
  nextInterval : ℕ
  calls : JsMap ℕ AddCall
  polls : JsMap ℕ Poll
  allowances : String → String → ℕ
  txs : List PullTx
  added : List String
  reads : String → Option ℕ
  reports : List PullResult

def init : State where
  deposits := .empty
  timers := .empty
  lastSeen := .empty
  inFlight := ∅
  intervals := .empty
  nextInterval := 0
  calls := .empty
  polls := .empty
  allowances := fun _ _ => 0
  txs := []
  added := []
  reads := fun _ => none
  reports := []

/-! ### The watcher's own functions -/

def hasOpenDepositFor (s : State) (contractAddress : String) : Bool :=
  s.deposits.values.any fun deposit => deposit.key == contractAddress.toLower

/-- The oldest open deposit of the contract, the first of equally old ones. -/
def findMatchingDeposit (s : State) (contractAddress : String) : Option PullDeposit :=
  s.deposits.values.foldl (fun best deposit =>
    if deposit.key ≠ contractAddress.toLower then best
    else match best with
      | none => some deposit
      | some oldest => if deposit.createdAt < oldest.createdAt then some deposit else best) none

def stopPolling (s : State) (contractAddress : String) : State :=
  let key := contractAddress.toLower
  { s with
    intervals := match s.timers.get? key with
      | none => s.intervals
      | some interval => s.intervals.delete interval
    timers := s.timers.delete key
    lastSeen := s.lastSeen.delete key }

def State.setPoll (s : State) (p : ℕ) (poll : Poll) : State :=
  { s with polls := s.polls.set p poll }

def State.setCall (s : State) (id : ℕ) (call : AddCall) : State :=
  { s with calls := s.calls.set id call }

/-- Leaving the batch: the flag is cleared whether or not an exception passes. -/
def leaveBatch (s : State) (p : ℕ) (poll : Poll) (stage : PollStage) : State :=
  { s with inFlight := s.inFlight.erase poll.key }.setPoll p { poll with stage := stage }

/-- A poll's cursor write. -/
def advance (s : State) (key : String) (latest : ℕ) : State :=
  { s with lastSeen := s.lastSeen.set key latest }

/-- The loop over the rest of a batch, up to its next await. -/
def handleLogs (s : State) (p : ℕ) (poll : Poll) (latest : ℕ) : List Log → State
  | [] => leaveBatch (advance s poll.key latest) p poll .resolved
  | log :: rest =>
    match log.parsed with
    | .unknown => handleLogs s p poll latest rest
    | .malformed message => leaveBatch s p poll (.rejected message)
    | .approval owner value =>
      let handling := match findMatchingDeposit s poll.contractAddress with
        | none => .returned
        | some deposit => .allowance deposit owner value
      s.setPoll p { poll with stage := .handling latest log rest handling }

/-- `deposit.expectedAmount ? parseUnits(..) : eventValue`. -/
def desiredAmount (cfg : Config) (deposit : PullDeposit) (eventValue : ℕ) : Except String ℤ :=
  match deposit.expectedAmount with
  | none | some "" => .ok eventValue
  | some expectedAmount => cfg.units.parseUnits expectedAmount deposit.decimals

/-- After the allowance is read: wait for more, or go on to gas and the transfer. -/
def afterAllowance (cfg : Config) (deposit : PullDeposit) (owner : String)
    (value currentAllowance : ℕ) : Handling :=
  match desiredAmount cfg deposit value with
  | .error message => .threw message
  | .ok desired =>
    if (currentAllowance : ℤ) < desired then .returned
    else if cfg.gasStation then .gas deposit owner desired
    else .transferFrom deposit owner desired none

/-- The deposit is dropped, and polling stops if it was the contract's only one. -/
def dropDeposit (s : State) (deposit : PullDeposit) (contractAddress : String) : State :=
  let s := { s with deposits := s.deposits.delete deposit.correlationId }
  if hasOpenDepositFor s contractAddress then s else stopPolling s contractAddress

/-- A settled pull: the deposit is dropped and the plugin is called. -/
def completePull (cfg : Config) (s : State) (p : ℕ) (poll : Poll) (latest : ℕ) (log : Log)
    (rest : List Log) (deposit : PullDeposit) (owner : String) (desired : ℤ) (tx : ℕ) : State :=
  let s := dropDeposit s deposit poll.contractAddress
  if cfg.onPullCompleted then
    let result : PullResult := ⟨deposit, owner, tx, cfg.units.formatUnits desired deposit.decimals⟩
    { s with reports := result :: s.reports }.setPoll p
      { poll with stage := .handling latest log rest (.callback result) }
  else s.setPoll p { poll with stage := .handling latest log rest .returned }

/-! ### The environment -/

inductive Action where
  | addDeposit (id : ℕ) (deposit : PullDeposit)
  | seedBlock (id : ℕ) (answer : Except String ℕ)
  | tick (interval p : ℕ)
  | blockNumber (p : ℕ) (answer : Except String ℕ)
  | logs (p : ℕ) (answer : Except String (List Log))
  | resume (p : ℕ)
  | allowance (p : ℕ) (rejection : Option String)
  | gas (p : ℕ) (rejection : Option String)
  | broadcast (p : ℕ)
  | transferFrom (p : ℕ) (rejection : Option String)
  | receipt (p : ℕ) (answer : ReceiptAnswer)
  | callback (p : ℕ) (rejection : Option String)
  | approve (contractAddress owner : String) (value : ℕ)
  | mine (tx : ℕ)
  | revert (tx : ℕ)

/-- The largest allowance, which a `transferFrom` does not lower. -/
def unlimited : ℕ := 2 ^ 256 - 1

def addDeposit (s : State) (id : ℕ) (deposit : PullDeposit) : State :=
  if hasOpenDepositFor s deposit.contractAddress then
    let contractAddress := deposit.contractAddress
    s.setCall id (.rejected deposit
      s!"Pull-deposit: another deposit on contract {contractAddress} is already in flight; concurrent pull-deposits on the same token are not yet supported (no declared-sender API).")
  else
    let s := { s with
      deposits := s.deposits.set deposit.correlationId deposit
      added := deposit.correlationId :: s.added }
    if s.timers.has deposit.key then s.setCall id (.resolved deposit)
    else s.setCall id (.seeding deposit)

/-- `ensurePolling` once the block number is there: one block before it, so that
the first scan covers it. -/
def seedPolling (s : State) (id : ℕ) (deposit : PullDeposit) (currentBlock : ℕ) : State :=
  { s with
    lastSeen := s.lastSeen.set deposit.key (currentBlock - 1)
    intervals := s.intervals.set s.nextInterval deposit.contractAddress
    timers := s.timers.set deposit.key s.nextInterval
    nextInterval := s.nextInterval + 1
    reads := Function.update s.reads deposit.correlationId (some currentBlock) }.setCall id
      (.resolved deposit)

/-- `pollOnce` up to its first await. -/
def startPoll (s : State) (interval p : ℕ) (contractAddress : String) : State :=
  let key := contractAddress.toLower
  if key ∈ s.inFlight then s
  else if hasOpenDepositFor s contractAddress then
    s.setPoll p ⟨contractAddress, interval, s.deposits.values, (s.lastSeen.get? key).getD 0 + 1,
      .blockNumber⟩
  else stopPolling s contractAddress

/-- A mined `transferFrom` lowers an allowance that is not unlimited. -/
def spend (s : State) (tx : PullTx) : String → String → ℕ :=
  let key := tx.deposit.key
  let current := s.allowances key tx.owner
  if current = unlimited then s.allowances
  else Function.update s.allowances key
    (Function.update (s.allowances key) tx.owner (current - tx.amount.toNat))

/-- A poll moves on inside `handleApproval`. -/
def State.handle (s : State) (p : ℕ) (poll : Poll) (latest : ℕ) (log : Log) (rest : List Log)
    (handling : Handling) : State :=
  s.setPoll p { poll with stage := .handling latest log rest handling }

/-- The node takes a transaction. -/
def State.send (s : State) (tx : PullTx) : State := { s with txs := s.txs ++ [tx] }

def step (cfg : Config) (s : State) : Action → Option State
  | .addDeposit id deposit =>
    -- ids are fresh: each comes from `generateCid`
    if s.calls.get? id = none ∧ deposit.correlationId ∉ s.added then some (addDeposit s id deposit)
    else none
  | .seedBlock id answer =>
    match s.calls.get? id with
    | some (.seeding deposit) =>
      match answer with
      | .error message => some (s.setCall id (.rejected deposit message))
      | .ok currentBlock => some (seedPolling s id deposit currentBlock)
    | _ => none
  | .tick interval p =>
    match s.intervals.get? interval, s.polls.get? p with
    | some contractAddress, none => some (startPoll s interval p contractAddress)
    | _, _ => none
  | .blockNumber p answer =>
    match s.polls.get? p with
    | some poll =>
      match poll.stage, answer with
      | .blockNumber, .error message => some (s.setPoll p { poll with stage := .rejected message })
      | .blockNumber, .ok latest =>
        some (s.setPoll p
          { poll with stage := if latest < poll.fromBlock then .resolved else .logs latest })
      | _, _ => none
    | none => none
  | .logs p answer =>
    match s.polls.get? p with
    | some poll =>
      match poll.stage, answer with
      | .logs _, .error message => some (s.setPoll p { poll with stage := .rejected message })
      | .logs latest, .ok [] => some ((advance s poll.key latest).setPoll p
          { poll with stage := .resolved })
      | .logs latest, .ok (log :: rest) =>
        if ∀ l ∈ log :: rest, poll.fromBlock ≤ l.blockNumber ∧ l.blockNumber ≤ latest then
          some (handleLogs { s with inFlight := insert poll.key s.inFlight } p poll latest
            (log :: rest))
        else none
      | _, _ => none
    | none => none
  | .resume p =>
    match s.polls.get? p with
    | some poll =>
      match poll.stage with
      | .handling latest _ rest .returned => some (handleLogs s p poll latest rest)
      | .handling _ _ _ (.threw message) => some (leaveBatch s p poll (.rejected message))
      | _ => none
    | none => none
  | .allowance p rejection =>
    match s.polls.get? p with
    | some poll =>
      match poll.stage with
      | .handling latest log rest (.allowance deposit owner value) =>
        some (s.handle p poll latest log rest (match rejection with
          | some message => .threw message
          | none => afterAllowance cfg deposit owner value (s.allowances poll.key owner)))
      | _ => none
    | none => none
  | .gas p rejection =>
    match s.polls.get? p with
    | some poll =>
      match poll.stage with
      | .handling latest log rest (.gas deposit owner desired) =>
        some (s.handle p poll latest log rest (match rejection with
          | some message => .threw message
          | none => .transferFrom deposit owner desired none))
      | _ => none
    | none => none
  | .broadcast p =>
    match s.polls.get? p with
    | some poll =>
      match poll.stage with
      | .handling latest log rest (.transferFrom deposit owner desired none) =>
        if 0 ≤ desired ∧ desired < 2 ^ 256 then
          some ((s.send ⟨deposit, owner, desired, log.blockNumber, .pending⟩).handle p poll latest
            log rest
            (.transferFrom deposit owner desired (some s.txs.length)))
        else none
      | _ => none
    | none => none
  | .transferFrom p rejection =>
    match s.polls.get? p with
    | some poll =>
      match poll.stage, rejection with
      | .handling latest log rest (.transferFrom _ _ _ _), some message =>
        some (s.handle p poll latest log rest (.threw message))
      | .handling latest log rest (.transferFrom deposit owner desired (some tx)), none =>
        some (s.handle p poll latest log rest (.wait deposit owner desired tx))
      | _, _ => none
    | none => none
  | .receipt p answer =>
    match s.polls.get? p with
    | some poll =>
      match poll.stage, answer with
      | .handling latest log rest (.wait _ _ _ _), .rejects message =>
        some (s.handle p poll latest log rest (.threw message))
      | .handling latest log rest (.wait _ _ _ _), .null =>
          some (s.handle p poll latest log rest .returned)
      | .handling latest log rest (.wait deposit owner desired tx), .receipt =>
        match (s.txs[tx]?).map PullTx.status with
        | some .mined => some (completePull cfg s p poll latest log rest deposit owner desired tx)
        | some .reverted => some (s.handle p poll latest log rest .returned)
        | _ => none
      | _, _ => none
    | none => none
  | .callback p rejection =>
    match s.polls.get? p with
    | some poll =>
      match poll.stage with
      | .handling latest log rest (.callback _) =>
        some (s.handle p poll latest log rest (match rejection with
          | some message => .threw message
          | none => .returned))
      | _ => none
    | none => none
  | .approve contractAddress owner value =>
    let key := contractAddress.toLower
    some { s with allowances :=
      Function.update s.allowances key (Function.update (s.allowances key) owner value) }
  | .mine i =>
    match s.txs[i]? with
    | some tx =>
      if tx.status = .pending ∧ tx.amount ≤ s.allowances tx.deposit.key tx.owner then
        some { s with txs := s.txs.set i { tx with status := .mined }, allowances := spend s tx }
      else none
    | none => none
  | .revert i =>
    match s.txs[i]? with
    | some tx =>
      if tx.status = .pending then some { s with txs := s.txs.set i { tx with status := .reverted } }
      else none
    | none => none

/-! ### Open deposits -/

theorem hasOpenDepositFor_iff (s : State) (contractAddress : String) :
    hasOpenDepositFor s contractAddress ↔
      ∃ deposit ∈ s.deposits.values, deposit.key = contractAddress.toLower := by
  simp [hasOpenDepositFor]

theorem findMatchingDeposit_mem {s : State} {contractAddress : String} {deposit : PullDeposit}
    (h : findMatchingDeposit s contractAddress = some deposit) :
    deposit ∈ s.deposits.values ∧ deposit.key = contractAddress.toLower := by
  unfold findMatchingDeposit at h
  revert h
  -- the best so far is one of the deposits, whatever is still ahead
  suffices hfold : ∀ (l : List PullDeposit) (best : Option PullDeposit),
      (∀ d ∈ l, d ∈ s.deposits.values) →
      (∀ d ∈ best, d ∈ s.deposits.values ∧ d.key = contractAddress.toLower) →
      ∀ d ∈ l.foldl (fun best deposit =>
          if deposit.key ≠ contractAddress.toLower then best
          else match best with
            | none => some deposit
            | some oldest => if deposit.createdAt < oldest.createdAt then some deposit else best) best,
        d ∈ s.deposits.values ∧ d.key = contractAddress.toLower from
    fun h => hfold _ none (fun _ hd => hd) (no_deposit rfl) deposit h
  intro l
  induction l with
  | nil => exact fun best _ hb => hb
  | cons deposit l ih =>
    intro best hl hb
    apply ih _ fun d hd => hl d (List.mem_cons_of_mem _ hd)
    have hin : deposit ∈ s.deposits.values := hl deposit List.mem_cons_self
    beta_reduce
    by_cases hk : deposit.key = contractAddress.toLower
    · have hnew : ∀ d ∈ some deposit, d ∈ s.deposits.values ∧ d.key = contractAddress.toLower := by
        rintro d ⟨⟩
        exact ⟨hin, hk⟩
      rw [if_neg (by simp [hk])]
      cases best with
      | none => exact hnew
      | some oldest =>
        dsimp only
        split_ifs
        · exact hnew
        · exact hb
    · rw [if_pos hk]
      exact hb

/-! ### What a step can do -/

/-- The first log that parses. -/
def nextParsed (logs : List Log) : Option ParsedLog :=
  (logs.map Log.parsed).find? (· ≠ .unknown)

theorem nextParsed_unknown {log : Log} (rest : List Log) (h : log.parsed = .unknown) :
    nextParsed (log :: rest) = nextParsed rest := by
  simp [nextParsed, h]

theorem nextParsed_known {log : Log} (rest : List Log) (h : log.parsed ≠ .unknown) :
    nextParsed (log :: rest) = some log.parsed := by
  simp [nextParsed, h]

/-! Dropping a deposit touches the open deposits and, when polling stops, the timers. -/

section DropDeposit

variable (s : State) (deposit : PullDeposit) (contractAddress : String)

theorem dropDeposit_deposits :
    (dropDeposit s deposit contractAddress).deposits = s.deposits.delete deposit.correlationId := by
  unfold dropDeposit
  dsimp only
  split_ifs <;> rfl

theorem dropDeposit_polls : (dropDeposit s deposit contractAddress).polls = s.polls := by
  unfold dropDeposit
  dsimp only
  split_ifs <;> rfl

theorem dropDeposit_calls : (dropDeposit s deposit contractAddress).calls = s.calls := by
  unfold dropDeposit
  dsimp only
  split_ifs <;> rfl

theorem dropDeposit_added : (dropDeposit s deposit contractAddress).added = s.added := by
  unfold dropDeposit
  dsimp only
  split_ifs <;> rfl

theorem dropDeposit_inFlight : (dropDeposit s deposit contractAddress).inFlight = s.inFlight := by
  unfold dropDeposit
  dsimp only
  split_ifs <;> rfl

theorem dropDeposit_txs : (dropDeposit s deposit contractAddress).txs = s.txs := by
  unfold dropDeposit
  dsimp only
  split_ifs <;> rfl

theorem dropDeposit_reports : (dropDeposit s deposit contractAddress).reports = s.reports := by
  unfold dropDeposit
  dsimp only
  split_ifs <;> rfl

end DropDeposit

/-- A settled pull drops its deposit, and the poll that made it goes on, to the plugin's callback if
there is one. -/
theorem completePull_eq (cfg : Config) (s : State) (p : ℕ) (poll : Poll) (latest : ℕ) (log : Log)
    (rest : List Log) (deposit : PullDeposit) (owner : String) (desired : ℤ) (tx : ℕ) :
    ∃ reports next,
      (next = .returned ∨ ∃ amount, next = .callback ⟨deposit, owner, tx, amount⟩) ∧
      completePull cfg s p poll latest log rest deposit owner desired tx =
        State.handle { dropDeposit s deposit poll.contractAddress with reports := reports } p poll latest log
          rest next := by
  unfold completePull
  dsimp only
  split_ifs
  · exact ⟨_, _, .inr ⟨_, rfl⟩, rfl⟩
  · exact ⟨_, _, .inl rfl, rfl⟩

theorem handleLogs_cases (s : State) (p : ℕ) (poll : Poll) (latest : ℕ) (logs : List Log) :
    (nextParsed logs = none ∧
      handleLogs s p poll latest logs = leaveBatch (advance s poll.key latest) p poll .resolved) ∨
    (∃ message, handleLogs s p poll latest logs = leaveBatch s p poll (.rejected message)) ∨
    (∃ log ∈ logs, ∃ rest, (∀ l ∈ rest, l ∈ logs) ∧
      handleLogs s p poll latest logs = s.handle p poll latest log rest .returned) ∨
    ∃ log ∈ logs, ∃ rest deposit owner value, (∀ l ∈ rest, l ∈ logs) ∧
      nextParsed logs = some (.approval owner value) ∧
      findMatchingDeposit s poll.contractAddress = some deposit ∧
      handleLogs s p poll latest logs =
        s.handle p poll latest log rest (.allowance deposit owner value) := by
  induction logs with
  | nil => exact .inl ⟨rfl, rfl⟩
  | cons log rest ih =>
    have hsub : ∀ l ∈ rest, l ∈ log :: rest := fun l hl => List.mem_cons_of_mem _ hl
    cases hp : log.parsed with
    | unknown =>
      have he : handleLogs s p poll latest (log :: rest) = handleLogs s p poll latest rest := by
        simp [handleLogs, hp]
      rw [he, nextParsed_unknown rest hp]
      rcases ih with h | h | ⟨l, hl, r, hr, h⟩ | ⟨l, hl, r, deposit, owner, value, hr, hn, hm, h⟩
      · exact .inl h
      · exact .inr (.inl h)
      · exact .inr (.inr (.inl ⟨l, hsub l hl, r, fun x hx => hsub x (hr x hx), h⟩))
      · exact .inr (.inr (.inr ⟨l, hsub l hl, r, deposit, owner, value,
          fun x hx => hsub x (hr x hx), hn, hm, h⟩))
    | malformed message => exact .inr (.inl ⟨message, by simp [handleLogs, hp]⟩)
    | approval owner value =>
      have hn : nextParsed (log :: rest) = some (.approval owner value) := by
        rw [nextParsed_known rest (by simp [hp]), hp]
      cases hm : findMatchingDeposit s poll.contractAddress with
      | none =>
        exact .inr (.inr (.inl ⟨log, List.mem_cons_self, rest, hsub,
          by simp [handleLogs, hp, hm, State.handle]⟩))
      | some deposit =>
        exact .inr (.inr (.inr ⟨log, List.mem_cons_self, rest, deposit, owner, value, hsub, hn, rfl,
          by simp [handleLogs, hp, hm, State.handle]⟩))

theorem afterAllowance_deposit {cfg : Config} {deposit d : PullDeposit} {owner : String}
    {value currentAllowance : ℕ}
    (h : d ∈ (afterAllowance cfg deposit owner value currentAllowance).deposit?) :
    d = deposit := by
  unfold afterAllowance at h
  split at h
  · cases h
  · split_ifs at h <;> cases h <;> rfl

/-- The enabled steps and their outcomes, one rule for each way an await can end. -/
inductive Transition (cfg : Config) (s : State) : Action → State → Prop where
  | addDeposit {id : ℕ} {deposit : PullDeposit} (hid : s.calls.get? id = none)
    (hfresh : deposit.correlationId ∉ s.added) :
    Transition cfg s (.addDeposit id deposit) (addDeposit s id deposit)
  | seedRejected {id : ℕ} {deposit : PullDeposit} {message : String}
    (hc : s.calls.get? id = some (.seeding deposit)) :
    Transition cfg s (.seedBlock id (.error message)) (s.setCall id (.rejected deposit message))
  | seeded {id currentBlock : ℕ} {deposit : PullDeposit}
      (hc : s.calls.get? id = some (.seeding deposit)) :
    Transition cfg s (.seedBlock id (.ok currentBlock)) (seedPolling s id deposit currentBlock)
  | tick {interval p : ℕ} {contractAddress : String}
      (hi : s.intervals.get? interval = some contractAddress)
    (hp : s.polls.get? p = none) :
    Transition cfg s (.tick interval p) (startPoll s interval p contractAddress)
  | blockNumber {p : ℕ} {poll : Poll} {answer : Except String ℕ} {stage : PollStage}
    (hp : s.polls.get? p = some poll) (hst : poll.stage = .blockNumber)
    (hstage : stage = .resolved ∨ (∃ message, stage = .rejected message) ∨
      ∃ latest, answer = .ok latest ∧ poll.fromBlock ≤ latest ∧ stage = .logs latest) :
    Transition cfg s (.blockNumber p answer) (s.setPoll p { poll with stage := stage })
  | logsRejected {p latest : ℕ} {poll : Poll} {message : String} (hp : s.polls.get? p = some poll)
    (hst : poll.stage = .logs latest) :
    Transition cfg s (.logs p (.error message)) (s.setPoll p { poll with stage := .rejected message })
  | noLogs {p latest : ℕ} {poll : Poll} (hp : s.polls.get? p = some poll)
      (hst : poll.stage = .logs latest) :
    Transition cfg s (.logs p (.ok []))
      ((advance s poll.key latest).setPoll p { poll with stage := .resolved })
  | batch {p latest : ℕ} {poll : Poll} {logs : List Log} (hp : s.polls.get? p = some poll)
    (hst : poll.stage = .logs latest) (hne : logs ≠ [])
    (hrange : ∀ l ∈ logs, poll.fromBlock ≤ l.blockNumber ∧ l.blockNumber ≤ latest) :
    Transition cfg s (.logs p (.ok logs))
      (handleLogs { s with inFlight := insert poll.key s.inFlight } p poll latest logs)
  | next {p latest : ℕ} {poll : Poll} {log : Log} {rest : List Log} (hp : s.polls.get? p = some poll)
    (hst : poll.stage = .handling latest log rest .returned) :
    Transition cfg s (.resume p) (handleLogs s p poll latest rest)
  | throws {p latest : ℕ} {poll : Poll} {log : Log} {rest : List Log} {message : String}
    (hp : s.polls.get? p = some poll) (hst : poll.stage = .handling latest log rest (.threw message)) :
    Transition cfg s (.resume p) (leaveBatch s p poll (.rejected message))
  | allowanceRejected {p latest : ℕ} {poll : Poll} {log : Log} {rest : List Log} {deposit : PullDeposit}
    {owner message : String} {value : ℕ} (hp : s.polls.get? p = some poll)
    (hst : poll.stage = .handling latest log rest (.allowance deposit owner value)) :
    Transition cfg s (.allowance p (some message)) (s.handle p poll latest log rest (.threw message))
  | allowance {p latest : ℕ} {poll : Poll} {log : Log} {rest : List Log} {deposit : PullDeposit}
    {owner : String} {value : ℕ} (hp : s.polls.get? p = some poll)
    (hst : poll.stage = .handling latest log rest (.allowance deposit owner value)) :
    Transition cfg s (.allowance p none) (s.handle p poll latest log rest
      (afterAllowance cfg deposit owner value (s.allowances poll.key owner)))
  | gasRejected {p latest : ℕ} {poll : Poll} {log : Log} {rest : List Log} {deposit : PullDeposit}
    {owner message : String} {desired : ℤ} (hp : s.polls.get? p = some poll)
    (hst : poll.stage = .handling latest log rest (.gas deposit owner desired)) :
    Transition cfg s (.gas p (some message)) (s.handle p poll latest log rest (.threw message))
  | gas {p latest : ℕ} {poll : Poll} {log : Log} {rest : List Log} {deposit : PullDeposit}
    {owner : String} {desired : ℤ} (hp : s.polls.get? p = some poll)
    (hst : poll.stage = .handling latest log rest (.gas deposit owner desired)) :
    Transition cfg s (.gas p none) (s.handle p poll latest log rest
      (.transferFrom deposit owner desired none))
  | broadcast {p latest : ℕ} {poll : Poll} {log : Log} {rest : List Log} {deposit : PullDeposit}
    {owner : String} {desired : ℤ} (hp : s.polls.get? p = some poll)
    (hst : poll.stage = .handling latest log rest (.transferFrom deposit owner desired none))
    (hrange : 0 ≤ desired ∧ desired < 2 ^ 256) :
    Transition cfg s (.broadcast p)
      ((s.send ⟨deposit, owner, desired, log.blockNumber, .pending⟩).handle p poll latest log rest
        (.transferFrom deposit owner desired (some s.txs.length)))
  | transferRejected {p latest : ℕ} {poll : Poll} {log : Log} {rest : List Log} {deposit : PullDeposit}
    {owner message : String} {desired : ℤ} {sent : Option ℕ} (hp : s.polls.get? p = some poll)
    (hst : poll.stage = .handling latest log rest (.transferFrom deposit owner desired sent)) :
    Transition cfg s (.transferFrom p (some message)) (s.handle p poll latest log rest (.threw message))
  | transferSent {p latest tx : ℕ} {poll : Poll} {log : Log} {rest : List Log} {deposit : PullDeposit}
    {owner : String} {desired : ℤ} (hp : s.polls.get? p = some poll)
    (hst : poll.stage = .handling latest log rest (.transferFrom deposit owner desired (some tx))) :
    Transition cfg s (.transferFrom p none)
      (s.handle p poll latest log rest (.wait deposit owner desired tx))
  | unconfirmed {p latest tx : ℕ} {poll : Poll} {log : Log} {rest : List Log} {deposit : PullDeposit}
    {owner : String} {desired : ℤ} {answer : ReceiptAnswer} {handling : Handling}
      (hp : s.polls.get? p = some poll)
    (hst : poll.stage = .handling latest log rest (.wait deposit owner desired tx))
    (hh : handling = .returned ∨ ∃ message, handling = .threw message) :
    Transition cfg s (.receipt p answer) (s.handle p poll latest log rest handling)
  | completes {p latest i : ℕ} {poll : Poll} {log : Log} {rest : List Log} {deposit : PullDeposit}
    {owner : String} {desired : ℤ} {tx : PullTx} (hp : s.polls.get? p = some poll)
    (hst : poll.stage = .handling latest log rest (.wait deposit owner desired i))
    (htx : s.txs[i]? = some tx) (hm : tx.status = .mined) :
    Transition cfg s (.receipt p .receipt)
      (completePull cfg s p poll latest log rest deposit owner desired i)
  | callback {p latest : ℕ} {poll : Poll} {log : Log} {rest : List Log} {result : PullResult}
    {rejection : Option String} {handling : Handling} (hp : s.polls.get? p = some poll)
    (hst : poll.stage = .handling latest log rest (.callback result))
    (hh : handling = .returned ∨ ∃ message, handling = .threw message) :
    Transition cfg s (.callback p rejection) (s.handle p poll latest log rest handling)
  | approve {contractAddress owner : String} {value : ℕ} {allowances : String → String → ℕ} :
    Transition cfg s (.approve contractAddress owner value) { s with allowances := allowances }
  | mine {i : ℕ} {tx : PullTx} {allowances : String → String → ℕ} (htx : s.txs[i]? = some tx)
    (hp : tx.status = .pending) :
    Transition cfg s (.mine i)
      { s with txs := s.txs.set i { tx with status := .mined }, allowances := allowances }
  | revert {i : ℕ} {tx : PullTx} (htx : s.txs[i]? = some tx) (hp : tx.status = .pending) :
    Transition cfg s (.revert i) { s with txs := s.txs.set i { tx with status := .reverted } }

section

variable {cfg : Config} {s s' : State}

theorem transition_of_seedBlock {id : ℕ} {answer : Except String ℕ}
    (h : step cfg s (.seedBlock id answer) = some s') :
    Transition cfg s (.seedBlock id answer) s' := by
  unfold step at h
  dsimp only at h
  split at h
  · rename_i deposit hc
    cases answer <;> cases h
    · exact .seedRejected hc
    · exact .seeded hc
  · cases h

theorem transition_of_blockNumber {p : ℕ} {answer : Except String ℕ}
    (h : step cfg s (.blockNumber p answer) = some s') :
    Transition cfg s (.blockNumber p answer) s' := by
  unfold step at h
  dsimp only at h
  split at h
  · rename_i poll hp
    split at h
    · rename_i message hst
      cases h
      exact .blockNumber hp hst (.inr (.inl ⟨message, rfl⟩))
    · rename_i latest hst
      cases h
      refine .blockNumber hp hst ?_
      split_ifs with hl
      · exact .inl rfl
      · exact .inr (.inr ⟨latest, rfl, by omega, rfl⟩)
    · cases h
  · cases h

theorem transition_of_logs {p : ℕ} {answer : Except String (List Log)}
    (h : step cfg s (.logs p answer) = some s') :
    Transition cfg s (.logs p answer) s' := by
  unfold step at h
  dsimp only at h
  split at h
  · rename_i poll hp
    split at h
    · rename_i latest message hst
      cases h
      exact .logsRejected hp hst
    · rename_i latest hst
      cases h
      exact .noLogs hp hst
    · rename_i latest log rest hst
      split_ifs at h with hrange
      cases h
      exact .batch hp hst (List.cons_ne_nil _ _) hrange
    · cases h
  · cases h

theorem transition_of_resume {p : ℕ} (h : step cfg s (.resume p) = some s') :
    Transition cfg s (.resume p) s' := by
  unfold step at h
  dsimp only at h
  split at h
  · rename_i poll hp
    split at h
    · rename_i hst
      cases h
      exact .next hp hst
    · rename_i hst
      cases h
      exact .throws hp hst
    · cases h
  · cases h

theorem transition_of_allowance {p : ℕ} {rejection : Option String}
    (h : step cfg s (.allowance p rejection) = some s') :
    Transition cfg s (.allowance p rejection) s' := by
  unfold step at h
  dsimp only at h
  split at h
  · rename_i poll hp
    split at h
    · rename_i hst
      cases rejection <;> cases h
      · exact .allowance hp hst
      · exact .allowanceRejected hp hst
    · cases h
  · cases h

theorem transition_of_gas {p : ℕ} {rejection : Option String}
    (h : step cfg s (.gas p rejection) = some s') :
    Transition cfg s (.gas p rejection) s' := by
  unfold step at h
  dsimp only at h
  split at h
  · rename_i poll hp
    split at h
    · rename_i hst
      cases rejection <;> cases h
      · exact .gas hp hst
      · exact .gasRejected hp hst
    · cases h
  · cases h

theorem transition_of_broadcast {p : ℕ} (h : step cfg s (.broadcast p) = some s') :
    Transition cfg s (.broadcast p) s' := by
  unfold step at h
  dsimp only at h
  split at h
  · rename_i poll hp
    split at h
    · rename_i hst
      split_ifs at h with hrange
      cases h
      exact .broadcast hp hst hrange
    · cases h
  · cases h

theorem transition_of_transferFrom {p : ℕ} {rejection : Option String}
    (h : step cfg s (.transferFrom p rejection) = some s') :
    Transition cfg s (.transferFrom p rejection) s' := by
  unfold step at h
  dsimp only at h
  split at h
  · rename_i poll hp
    split at h
    · rename_i hst
      cases h
      exact .transferRejected hp hst
    · rename_i hst
      cases h
      exact .transferSent hp hst
    · cases h
  · cases h

theorem transition_of_receipt {p : ℕ} {answer : ReceiptAnswer}
    (h : step cfg s (.receipt p answer) = some s') :
    Transition cfg s (.receipt p answer) s' := by
  unfold step at h
  dsimp only at h
  split at h
  · rename_i poll hp
    split at h
    · rename_i message hst
      cases h
      exact .unconfirmed hp hst (.inr ⟨message, rfl⟩)
    · rename_i hst
      cases h
      exact .unconfirmed hp hst (.inl rfl)
    · rename_i hst
      split at h
      · rename_i hm
        obtain ⟨tx, htx, hm⟩ := Option.map_eq_some_iff.mp hm
        cases h
        exact .completes hp hst htx hm
      · cases h
        exact .unconfirmed hp hst (.inl rfl)
      · cases h
    · cases h
  · cases h

theorem transition_of_callback {p : ℕ} {rejection : Option String}
    (h : step cfg s (.callback p rejection) = some s') :
    Transition cfg s (.callback p rejection) s' := by
  unfold step at h
  dsimp only at h
  split at h
  · rename_i poll hp
    split at h
    · rename_i hst
      cases rejection with
      | none =>
        cases h
        exact .callback hp hst (.inl rfl)
      | some message =>
        cases h
        exact .callback hp hst (.inr ⟨message, rfl⟩)
    · cases h
  · cases h

theorem transition_of_step {a : Action} (h : step cfg s a = some s') : Transition cfg s a s' := by
  cases a with
  | addDeposit id deposit =>
    unfold step at h
    dsimp only at h
    split_ifs at h with hg
    cases h
    exact .addDeposit hg.1 hg.2
  | seedBlock id answer => exact transition_of_seedBlock h
  | tick interval p =>
    unfold step at h
    dsimp only at h
    split at h
    · rename_i contractAddress hi hp
      cases h
      exact .tick hi hp
    · cases h
  | blockNumber p answer => exact transition_of_blockNumber h
  | logs p answer => exact transition_of_logs h
  | resume p => exact transition_of_resume h
  | allowance p rejection => exact transition_of_allowance h
  | gas p rejection => exact transition_of_gas h
  | broadcast p => exact transition_of_broadcast h
  | transferFrom p rejection => exact transition_of_transferFrom h
  | receipt p answer => exact transition_of_receipt h
  | callback p rejection => exact transition_of_callback h
  | approve contractAddress owner value =>
    cases h
    exact .approve
  | mine i =>
    unfold step at h
    dsimp only at h
    split at h
    · rename_i tx htx
      split_ifs at h with hp
      cases h
      exact .mine htx hp.1
    · cases h
  | revert i =>
    unfold step at h
    dsimp only at h
    split at h
    · rename_i tx htx
      split_ifs at h with hp
      cases h
      exact .revert htx hp
    · cases h

end

/-! ### A watcher of one token -/

def plainWatcher : Config where
  units := wholeUnits
  gasStation := false
  onPullCompleted := true

/-- A deposit of any amount. -/
def tokenDeposit (correlationId finId : String) : PullDeposit where
  correlationId := correlationId
  finId := finId
  assetId := "token"
  contractAddress := "0x7777777777777777777777777777777777777777"
  decimals := 0
  destinationAddress := "0x5555555555555555555555555555555555555555"
  expectedAmount := none
  createdAt := 0

/-- The depositor's approval of the operator for five tokens. -/
def fiveTokensLog (blockNumber : ℕ) : Log :=
  ⟨blockNumber, .approval "0x3333333333333333333333333333333333333333" 5⟩

/-- Polling the token for a deposit, with the depositor's allowance at `value`. -/
def opening (deposit : PullDeposit) (value : ℕ) : List Action :=
  [.addDeposit 0 deposit, .seedBlock 0 (.ok 10),
    .approve deposit.contractAddress "0x3333333333333333333333333333333333333333" value]

/-- A poll up to its matching of the first log. -/
def reading (interval p latest : ℕ) (logs : List Log) : List Action :=
  [.tick interval p, .blockNumber p (.ok latest), .logs p (.ok logs)]

/-- A poll from its matching on: transaction number `tx` is sent, mined and confirmed. -/
def pulling (p tx : ℕ) : List Action :=
  [.allowance p none, .broadcast p, .mine tx, .transferFrom p none, .receipt p .receipt]

end FinP2PAdapter.Deposits.ApprovalWatcher
