import FinP2PAdapter.Library.Finality
import FinP2PAdapter.Library.Machine
import FinP2PAdapter.Omnibus.InboundVerification

/-! The check of an inbound transfer while the chain is reorganised. The delegate reads the receipt
once and then asks for the finalized block until its number has reached the receipt's. As long as
no reorganisation during that wait takes the transaction out of the blocks up to the receipt's, it
is in the finalized chain when the check returns; otherwise it is accepted on its old receipt. -/

namespace FinP2PAdapter.Omnibus

open Finality Machine Throws

/-! ### The chain -/

/-- A transaction as its block has it. -/
structure Included where
  hash : String
  sender : String
  target : Option String
  status : Option ℕ
  logs : List Log
  deriving DecidableEq, Repr

abbrev Block := List Included

/-- The receipt of a transaction of the block with the number. -/
def Included.receipt (included : Included) (blockNumber : ℕ) : Receipt where
  sender := included.sender
  target := included.target
  status := included.status
  blockNumber := blockNumber
  logs := included.logs

/-- `getTransactionReceipt` on a chain. -/
def receiptOf (blocks : List Block) (transactionId : String) : Option Receipt :=
  blocks.zipIdx.findSome? fun block =>
    (block.1.find? fun included => included.hash = transactionId).map fun included =>
      included.receipt block.2

/-- One of the blocks has the transaction with a status and logs. -/
def Has (blocks : List Block) (transactionId : String) (status : Option ℕ) (logs : List Log) : Prop :=
  ∃ block ∈ blocks, ∃ included ∈ block, included.hash = transactionId ∧ included.status = status ∧
    included.logs = logs

instance (blocks : List Block) (transactionId : String) (status : Option ℕ) (logs : List Log) :
    Decidable (Has blocks transactionId status logs) := by
  unfold Has
  infer_instance

theorem Has.mono {blocks blocks' : List Block} {transactionId : String} {status : Option ℕ}
    {logs : List Log} (h : Has blocks transactionId status logs)
    (hsub : ∀ block ∈ blocks, block ∈ blocks') : Has blocks' transactionId status logs := by
  obtain ⟨block, hblock, hincluded⟩ := h
  exact ⟨block, hsub block hblock, hincluded⟩

/-- A receipt is of a transaction in the block it names. -/
theorem has_of_receiptOf {blocks : List Block} {transactionId : String} {receipt : Receipt}
    (h : receiptOf blocks transactionId = some receipt) :
    Has (blocks.take (receipt.blockNumber + 1)) transactionId receipt.status receipt.logs := by
  obtain ⟨⟨block, n⟩, hblock, hreceipt⟩ := List.exists_of_findSome?_eq_some h
  obtain ⟨included, hfind, rfl⟩ := Option.map_eq_some_iff.mp hreceipt
  have hn : blocks[n]? = some block := List.mem_zipIdx_iff_getElem?.mp hblock
  have htake : (blocks.take (n + 1))[n]? = some block := by
    rw [List.getElem?_take_of_lt (Nat.lt_succ_self n)]
    exact hn
  have hhash : included.hash = transactionId := by simpa using List.find?_some hfind
  exact ⟨block, List.mem_of_getElem? htake, included, List.mem_of_find?_eq_some hfind, hhash, rfl, rfl⟩

/-! ### The check -/

/-- What an inbound transfer is verified with. -/
structure Inbound where
  delegate : Delegate
  transactionId : String
  assetId : String
  amount : String

/-- Where `verifyReceiptOnChain` stands: at `waitForTransaction`, at a `getBlock('finalized')` with
the answers so far, behind the wait, or at its end. -/
inductive Stage where
  | confirming
  | finalizing (receipt : Receipt) (polled : List FinalizedAnswer)
  | checking (receipt : Receipt) (polls : FinalizedPolls)
  | returned (receipt : Receipt) (polls : FinalizedPolls)
  | threw (error : DelegateError)
  deriving DecidableEq, Repr

structure InboundState where
  chain : Chain Block
  stage : Stage

inductive InboundAction where
  | chain (change : Change Block)
  | confirmed
  | unconfirmed
  | confirmationRejects (message : String)
  | finalized (answer : FinalizedAnswer) (expired : Bool)
  | check

/-- Behind the wait: the asset, the target and the logs. -/
def checkReceipt (inbound : Inbound) (receipt : Receipt) : Except DelegateError Unit := do
  let transactionId := inbound.transactionId
  let dbAsset ← inbound.delegate.assetRecord inbound.assetId
  let target := shown receipt.target
  let contractAddress := dbAsset.contractAddress
  throwIf (targets receipt.target contractAddress = false) (.inboundTransferVerification
    s!"Transaction {transactionId} target contract {target} does not match asset contract {contractAddress}")
  checkLogs inbound.delegate dbAsset transactionId receipt.logs inbound.amount

/-- With the receipt at hand. -/
def afterReceipt (inbound : Inbound) (receipt : Receipt) : Stage :=
  let transactionId := inbound.transactionId
  let status := shown receipt.status
  if receipt.status ≠ some 1 then
    .threw (.inboundTransferVerification s!"Transaction {transactionId} failed on-chain (status={status})")
  else if inbound.delegate.requireFinalizedBlock then .finalizing receipt []
  else .checking receipt ⟨[], .block none⟩

def notFinalized (timeoutMs blockNumber : ℕ) : DelegateError :=
  .inboundTransferVerification
    s!"Transaction block {blockNumber} did not reach finalized state after {timeoutMs}ms"

/-- One turn of the wait: past the deadline it is the last. -/
def afterPoll (inbound : Inbound) (receipt : Receipt) (polled : List FinalizedAnswer)
    (answer : FinalizedAnswer) (expired : Bool) : Stage :=
  match pollFinalized receipt.blockNumber
      (.error (notFinalized inbound.delegate.timeoutMs receipt.blockNumber)) answer, answer, expired with
  | .ok (), _, _ => .checking receipt ⟨polled, answer⟩
  | .error _, .block _, false => .finalizing receipt (polled ++ [answer])
  | .error error, _, _ => .threw error

/-- A node's finalized block is one of the finalized chain. -/
def Truthful (chain : Chain Block) : FinalizedAnswer → Prop
  | .block (some number) => number < chain.finalized
  | _ => True

instance (chain : Chain Block) (answer : FinalizedAnswer) : Decidable (Truthful chain answer) := by
  unfold Truthful
  split <;> infer_instance

def inboundStep (inbound : Inbound) (s : InboundState) : InboundAction → Option InboundState
  | .chain change => (s.chain.apply change).map fun chain => { s with chain := chain }
  | .confirmed =>
    match s.stage, receiptOf s.chain.blocks inbound.transactionId with
    | .confirming, some receipt =>
      if inbound.delegate.minConfirmations ≤ s.chain.blocks.length - receipt.blockNumber then
        some { s with stage := afterReceipt inbound receipt }
      else none
    | _, _ => none
  | .unconfirmed =>
    let transactionId := inbound.transactionId
    let minConfirmations := inbound.delegate.minConfirmations
    let timeoutMs := inbound.delegate.timeoutMs
    match s.stage with
    | .confirming => some { s with stage := .threw (.inboundTransferVerification
        s!"Transaction {transactionId} was not confirmed ({minConfirmations} confirmations) after {timeoutMs}ms") }
    | _ => none
  | .confirmationRejects message =>
    match s.stage with
    | .confirming => some { s with stage := .threw (.error message) }
    | _ => none
  | .finalized answer expired =>
    match s.stage with
    | .finalizing receipt polled =>
      if Truthful s.chain answer then
        some { s with stage := afterPoll inbound receipt polled answer expired }
      else none
    | _ => none
  | .check =>
    match s.stage with
    | .checking receipt polls =>
      match checkReceipt inbound receipt with
      | .ok () => some { s with stage := .returned receipt polls }
      | .error error => some { s with stage := .threw error }
    | _ => none

def startInbound (chain : Chain Block) : InboundState := ⟨chain, .confirming⟩

/-! ### The side condition -/

/-- The receipt whose block the wait is for. -/
def Stage.awaits? : Stage → Option Receipt
  | .finalizing receipt _ => some receipt
  | _ => none

/-- During the wait the transaction stays in the blocks up to the receipt's, with its status and
its logs. -/
def KeepsTransaction (inbound : Inbound) (s : InboundState) : InboundAction → Prop
  | .chain change => ∀ receipt ∈ s.stage.awaits?,
    Has ((s.chain.blocksAfter change).take (receipt.blockNumber + 1)) inbound.transactionId
      receipt.status receipt.logs
  | _ => True

instance (inbound : Inbound) (s : InboundState) (a : InboundAction) :
    Decidable (KeepsTransaction inbound s a) := by
  unfold KeepsTransaction
  split <;> infer_instance

/-! ### The machine is the function -/

theorem waitForFinalizedBlock_of_polled {timeoutMs blockNumber : ℕ} {polled : List FinalizedAnswer}
    {answer : FinalizedAnswer}
    (hpolled : ∀ a ∈ polled, ∀ next, pollFinalized blockNumber next a = next) :
    waitForFinalizedBlock timeoutMs blockNumber ⟨polled, answer⟩ =
      pollFinalized blockNumber (.error (notFinalized timeoutMs blockNumber)) answer := by
  unfold waitForFinalizedBlock
  dsimp only
  induction polled with
  | nil => rfl
  | cons a polled ih =>
    rw [List.foldr_cons, hpolled a List.mem_cons_self]
    exact ih fun a ha => hpolled a (List.mem_cons_of_mem _ ha)

theorem onInboundTransfer_eq_checkReceipt {inbound : Inbound} {receipt : Receipt} {polls : FinalizedPolls}
    (hs : receipt.status = some 1) (hwait : inbound.delegate.requireFinalizedBlock = true →
      waitForFinalizedBlock inbound.delegate.timeoutMs receipt.blockNumber polls = .ok ()) :
    onInboundTransfer inbound.delegate (some receipt) polls inbound.transactionId inbound.assetId
      inbound.amount = checkReceipt inbound receipt := by
  cases hf : inbound.delegate.requireFinalizedBlock with
  | false => simp [onInboundTransfer, verifyReceiptOnChain, checkReceipt, hf, hs, throwIf, bind, Except.bind]
  | true =>
    simp [onInboundTransfer, verifyReceiptOnChain, checkReceipt, hf, hwait hf, hs, throwIf, bind,
      Except.bind]

/-- What the function has done up to a stage. -/
def Reached (inbound : Inbound) : Stage → Prop
  | .finalizing receipt polled => receipt.status = some 1 ∧
    ∀ a ∈ polled, ∀ next, pollFinalized receipt.blockNumber next a = next
  | .checking receipt polls => receipt.status = some 1 ∧
    (inbound.delegate.requireFinalizedBlock = true →
      waitForFinalizedBlock inbound.delegate.timeoutMs receipt.blockNumber polls = .ok ())
  | .returned receipt polls => onInboundTransfer inbound.delegate (some receipt) polls
    inbound.transactionId inbound.assetId inbound.amount = .ok ()
  | _ => True

theorem reached_afterReceipt (inbound : Inbound) (receipt : Receipt) :
    Reached inbound (afterReceipt inbound receipt) := by
  unfold afterReceipt
  dsimp only
  split_ifs with hs hf
  · trivial
  · exact ⟨not_not.mp hs, by simp⟩
  · exact ⟨not_not.mp hs, fun h => absurd h hf⟩

/-- A poll returns, or goes on with an answer that ends nothing, or throws. -/
theorem afterPoll_cases (inbound : Inbound) (receipt : Receipt) (polled : List FinalizedAnswer)
    (answer : FinalizedAnswer) (expired : Bool) :
    (∃ number, answer = .block (some number) ∧ receipt.blockNumber ≤ number ∧
      afterPoll inbound receipt polled answer expired = .checking receipt ⟨polled, answer⟩) ∨
    ((∀ next, pollFinalized receipt.blockNumber next answer = next) ∧
      afterPoll inbound receipt polled answer expired = .finalizing receipt (polled ++ [answer])) ∨
    ∃ error, afterPoll inbound receipt polled answer expired = .threw error := by
  cases answer with
  | rejects message => exact .inr (.inr ⟨_, rfl⟩)
  | block number =>
    cases number with
    | none =>
      cases expired with
      | false => exact .inr (.inl ⟨fun _ => rfl, rfl⟩)
      | true => exact .inr (.inr ⟨_, rfl⟩)
    | some number =>
      by_cases hle : number ≥ receipt.blockNumber
      · exact .inl ⟨number, rfl, hle, by simp [afterPoll, pollFinalized, hle]⟩
      · cases expired with
        | false =>
          refine .inr (.inl ⟨fun next => by simp [pollFinalized, hle], ?_⟩)
          simp [afterPoll, pollFinalized, hle]
        | true =>
          refine .inr (.inr ⟨notFinalized inbound.delegate.timeoutMs receipt.blockNumber, ?_⟩)
          simp [afterPoll, pollFinalized, hle]

/-- The chain's steps and the check's. -/
inductive InboundTransition (inbound : Inbound) (s : InboundState) : InboundAction → InboundState → Prop where
  | chain {change : Change Block} {chain : Chain Block} (hc : s.chain.apply change = some chain) :
    InboundTransition inbound s (.chain change) { s with chain := chain }
  | confirmed {receipt : Receipt} (hst : s.stage = .confirming)
    (hr : receiptOf s.chain.blocks inbound.transactionId = some receipt) :
    InboundTransition inbound s .confirmed { s with stage := afterReceipt inbound receipt }
  | throws {a : InboundAction} {error : DelegateError} :
    InboundTransition inbound s a { s with stage := .threw error }
  | polled {receipt : Receipt} {polled : List FinalizedAnswer} {answer : FinalizedAnswer} {expired : Bool}
    (hst : s.stage = .finalizing receipt polled) (ht : Truthful s.chain answer) :
    InboundTransition inbound s (.finalized answer expired)
      { s with stage := afterPoll inbound receipt polled answer expired }
  | returns {receipt : Receipt} {polls : FinalizedPolls} (hst : s.stage = .checking receipt polls)
    (hc : checkReceipt inbound receipt = .ok ()) :
    InboundTransition inbound s .check { s with stage := .returned receipt polls }

theorem transition_of_inboundStep {inbound : Inbound} {s s' : InboundState} {a : InboundAction}
    (h : inboundStep inbound s a = some s') : InboundTransition inbound s a s' := by
  cases a with
  | chain change =>
    obtain ⟨chain, hc, rfl⟩ := Option.map_eq_some_iff.mp h
    exact .chain hc
  | confirmed =>
    simp only [inboundStep] at h
    split at h
    · rename_i receipt hst hr
      split_ifs at h
      cases h
      exact .confirmed hst hr
    · cases h
  | unconfirmed =>
    simp only [inboundStep] at h
    split at h
    · cases h
      exact .throws
    · cases h
  | confirmationRejects message =>
    simp only [inboundStep] at h
    split at h
    · cases h
      exact .throws
    · cases h
  | finalized answer expired =>
    simp only [inboundStep] at h
    split at h
    · rename_i receipt polled hst
      split_ifs at h with ht
      cases h
      exact .polled hst ht
    · cases h
  | check =>
    simp only [inboundStep] at h
    split at h
    · rename_i receipt polls hst
      split at h
      · rename_i hc
        cases h
        exact .returns hst hc
      · cases h
        exact .throws
    · cases h

theorem reached_step {inbound : Inbound} {s s' : InboundState} {a : InboundAction}
    (h : Reached inbound s.stage) (hs : inboundStep inbound s a = some s') : Reached inbound s'.stage := by
  cases transition_of_inboundStep hs with
  | chain => exact h
  | confirmed => exact reached_afterReceipt inbound _
  | throws => trivial
  | @polled receipt polled answer expired hst =>
    rw [hst] at h
    obtain ⟨hstatus, hpolled⟩ := h
    dsimp only
    rcases afterPoll_cases inbound receipt polled answer expired with ⟨number, rfl, hle, he⟩ |
      ⟨hgoes, he⟩ | ⟨error, he⟩
    · rw [he]
      refine ⟨hstatus, fun _ => ?_⟩
      rw [waitForFinalizedBlock_of_polled hpolled]
      simp [pollFinalized, hle]
    · rw [he]
      refine ⟨hstatus, fun a ha => ?_⟩
      rcases List.mem_append.mp ha with hold | hnew
      · exact hpolled a hold
      · rw [List.mem_singleton.mp hnew]
        exact hgoes
    · rw [he]
      trivial
  | returns hst hc =>
    rw [hst] at h
    exact (onInboundTransfer_eq_checkReceipt h.1 h.2).trans hc

/-- A check that returns is a run of the function, on the receipt and the polls it had. -/
theorem onInboundTransfer_of_reach {inbound : Inbound} {ok : InboundState → InboundAction → Prop}
    {chain : Chain Block} {s : InboundState} {receipt : Receipt} {polls : FinalizedPolls}
    (h : ReachUnder (inboundStep inbound) ok (startInbound chain) s)
    (hst : s.stage = .returned receipt polls) :
    onInboundTransfer inbound.delegate (some receipt) polls inbound.transactionId inbound.assetId
      inbound.amount = .ok () := by
  have hreached : Reached inbound s.stage :=
    h.invariant (P := fun s : InboundState => Reached inbound s.stage) trivial fun _ _ _ hr _ hs => reached_step hr hs
  rw [hst] at hreached
  exact hreached

/-! ### Finality -/

/-- Where the transaction is at a stage: in a block up to the receipt's while the wait runs, and in
the finalized chain behind it. -/
def Stands (inbound : Inbound) (chain : Chain Block) : Stage → Prop
  | .finalizing receipt _ => receipt.status = some 1 ∧
    Has (chain.blocks.take (receipt.blockNumber + 1)) inbound.transactionId receipt.status receipt.logs
  | .checking receipt _ => Has chain.final inbound.transactionId (some 1) receipt.logs
  | .returned receipt _ => Has chain.final inbound.transactionId (some 1) receipt.logs
  | _ => True

theorem stands_step {inbound : Inbound} {s s' : InboundState} {a : InboundAction}
    (hfin : inbound.delegate.requireFinalizedBlock = true) (h : Stands inbound s.chain s.stage)
    (hok : KeepsTransaction inbound s a) (hs : inboundStep inbound s a = some s') :
    Stands inbound s'.chain s'.stage := by
  cases transition_of_inboundStep hs with
  | @chain change chain hc =>
    have hfinal : ∀ {logs : List Log}, Has s.chain.final inbound.transactionId (some 1) logs →
        Has chain.final inbound.transactionId (some 1) logs :=
      fun hhas => hhas.mono fun block hblock => Chain.mem_final_of_apply hc hblock
    dsimp only
    cases hst : s.stage with
    | confirming => trivial
    | finalizing receipt polled =>
      rw [hst] at h
      have hkeeps := hok receipt (by rw [hst]; rfl)
      rw [← Chain.blocks_of_apply hc] at hkeeps
      exact ⟨h.1, hkeeps⟩
    | checking receipt polls =>
      rw [hst] at h
      exact hfinal h
    | returned receipt polls =>
      rw [hst] at h
      exact hfinal h
    | threw => trivial
  | @confirmed receipt hst hr =>
    dsimp only
    unfold afterReceipt
    dsimp only
    split_ifs with hstatus
    · trivial
    · exact ⟨not_not.mp hstatus, has_of_receiptOf hr⟩
  | throws => trivial
  | @polled receipt polled answer expired hst ht =>
    rw [hst] at h
    obtain ⟨hstatus, hhas⟩ := h
    dsimp only
    rcases afterPoll_cases inbound receipt polled answer expired with ⟨number, rfl, hle, he⟩ |
      ⟨hgoes, he⟩ | ⟨error, he⟩
    · rw [he]
      rw [hstatus] at hhas
      have hlt : receipt.blockNumber < s.chain.finalized := lt_of_le_of_lt hle ht
      exact hhas.mono fun block hblock => Chain.mem_final_of_lt hblock hlt
    · rw [he]
      exact ⟨hstatus, hhas⟩
    · rw [he]
      trivial
  | returns hst =>
    rw [hst] at h
    exact h

theorem checkedLog_of_ok {inbound : Inbound} {receipt : Receipt} {polls : FinalizedPolls}
    (h : onInboundTransfer inbound.delegate (some receipt) polls inbound.transactionId inbound.assetId
      inbound.amount = .ok ()) :
    ∃ log ∈ receipt.logs, receipt.logs.find? (transfersTo inbound.delegate.omnibusAddress.toLower) =
      some log := by
  obtain ⟨-, dbAsset, hlogs⟩ := of_onInboundTransfer_eq_ok inbound.transactionId inbound.amount h
  cases hf : receipt.logs.find? (transfersTo inbound.delegate.omnibusAddress.toLower) with
  | none =>
    obtain ⟨message, he⟩ := checkLogs_none dbAsset inbound.transactionId inbound.amount hf
    rw [he] at hlogs
    cases hlogs
  | some log => exact ⟨log, List.mem_of_find?_eq_some hf, rfl⟩

/-- The finalized chain has the transaction, successful, with the log. -/
def FinalWith (chain : Chain Block) (transactionId : String) (log : Log) : Prop :=
  ∃ block ∈ chain.final, ∃ included ∈ block, included.hash = transactionId ∧
    included.status = some 1 ∧ log ∈ included.logs

/-- For every chain and every run of the check with finality required, in which no reorganisation
of the wait takes the transaction, its status or its logs out of the blocks up to the receipt's: once
the check has returned, it has accepted the receipt, and the finalized chain has the transaction,
successful, with the `Transfer` log that was checked. -/
theorem accepted_transfer_final (inbound : Inbound) (chain : Chain Block) (s : InboundState)
    (receipt : Receipt) (polls : FinalizedPolls)
    (hfin : inbound.delegate.requireFinalizedBlock = true)
    (h : ReachUnder (inboundStep inbound) (KeepsTransaction inbound) (startInbound chain) s)
    (hst : s.stage = .returned receipt polls) :
    onInboundTransfer inbound.delegate (some receipt) polls inbound.transactionId inbound.assetId
        inbound.amount = .ok () ∧
      ∃ log, receipt.logs.find? (transfersTo inbound.delegate.omnibusAddress.toLower) = some log ∧
        FinalWith s.chain inbound.transactionId log := by
  have hok := onInboundTransfer_of_reach h hst
  have hstands : Stands inbound s.chain s.stage :=
    h.invariant (P := fun s : InboundState => Stands inbound s.chain s.stage) trivial
      fun _ _ _ hi hkeeps hs => stands_step hfin hi hkeeps hs
  rw [hst] at hstands
  obtain ⟨block, hblock, included, hincluded, hhash, hstatus, hlogs⟩ := hstands
  obtain ⟨log, hlog, hfind⟩ := checkedLog_of_ok hok
  exact ⟨hok, log, hfind, block, hblock, included, hincluded, hhash, hstatus, hlogs ▸ hlog⟩

/-! ### A transfer of five tokens in block 1 -/

def fiveTokens : Included where
  hash := "tx"
  sender := strangerAddress
  target := some tokenAddress
  status := some 1
  logs := [⟨tokenAddress, [transferTopic, strangerTopic, omnibusTopic], Words.word 5000000⟩]

def fiveTokensInbound : Inbound where
  delegate := { oneAssetDelegate with requireFinalizedBlock := true }
  transactionId := "tx"
  assetId := "token"
  amount := "5"

/-- The transfer with one block behind it; the first block is final. -/
def fiveTokensChain : Chain Block := ⟨[[], [fiveTokens], []], 1, by decide⟩

/-- The check has returned with its first poll, and the finalized chain is these blocks. -/
def ReturnedOn (s : InboundState) (blocks : List Block) : Prop :=
  s.stage = .returned (fiveTokens.receipt 1) ⟨[], .block (some 1)⟩ ∧ s.chain.final = blocks

instance (s : InboundState) (blocks : List Block) : Decidable (ReturnedOn s blocks) := by
  unfold ReturnedOn
  infer_instance

/-- The chain grows and the transfer's block becomes final. -/
theorem growing_chain_accepted : ∃ s, ReachUnder (inboundStep fiveTokensInbound)
    (KeepsTransaction fiveTokensInbound) (startInbound fiveTokensChain) s ∧
    s.stage = .returned (fiveTokens.receipt 1) ⟨[], .block (some 1)⟩ ∧
    ∃ log, (fiveTokens.receipt 1).logs.find?
        (transfersTo fiveTokensInbound.delegate.omnibusAddress.toLower) = some log ∧
      FinalWith s.chain fiveTokensInbound.transactionId log := by
  have he : (exec (guarded (inboundStep fiveTokensInbound) (KeepsTransaction fiveTokensInbound))
      (startInbound fiveTokensChain) [.confirmed, .chain (.branch 3 [[]]), .chain (.finalize 2),
        .finalized (.block (some 1)) false, .check]).map
      (fun s => decide (ReturnedOn s [[], [fiveTokens]])) = some true := by
    decide +kernel
  obtain ⟨s, hs, hfacts⟩ := Option.map_eq_some_iff.mp he
  obtain ⟨hst, -⟩ := of_decide_eq_true hfacts
  have hrun := reachUnder_of_exec hs
  exact ⟨s, hrun, hst,
    (accepted_transfer_final fiveTokensInbound fiveTokensChain s _ _ rfl hrun hst).2⟩

/-- The transfer's block is replaced by one without it, which becomes final: the delegate accepts
the transfer on the receipt it read before. -/
theorem dropped_transfer_accepted : ∃ s receipt polls,
    Reach (inboundStep fiveTokensInbound) (startInbound fiveTokensChain) s ∧
    fiveTokensInbound.delegate.requireFinalizedBlock = true ∧ s.stage = .returned receipt polls ∧
    ∀ log, ¬ FinalWith s.chain fiveTokensInbound.transactionId log := by
  have he : (exec (inboundStep fiveTokensInbound) (startInbound fiveTokensChain)
      [.confirmed, .chain (.branch 1 [[], [], []]), .chain (.finalize 2),
        .finalized (.block (some 1)) false, .check]).map
      (fun s => decide (ReturnedOn s [[], []])) = some true := by
    decide +kernel
  obtain ⟨s, hs, hfacts⟩ := Option.map_eq_some_iff.mp he
  obtain ⟨hst, hfinal⟩ := of_decide_eq_true hfacts
  refine ⟨s, _, _, reach_of_exec hs, rfl, hst, ?_⟩
  rintro log ⟨block, hblock, included, hincluded, -⟩
  rw [hfinal] at hblock
  simp only [List.mem_cons, List.not_mem_nil, or_false, or_self] at hblock
  rw [hblock] at hincluded
  cases hincluded

end FinP2PAdapter.Omnibus
