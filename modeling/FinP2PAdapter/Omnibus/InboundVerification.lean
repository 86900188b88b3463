import FinP2PAdapter.Library.Throws
import FinP2PAdapter.Library.Words
import FinP2PAdapter.Skeleton.Address

/-! The omnibus delegate's check of an inbound transfer: the receipt's status
and target, and the first log its topics pick out as a `Transfer` to the omnibus
wallet. A receipt may hold many such logs, from any contract, with any data. -/

namespace FinP2PAdapter.Omnibus

open Throws

/-- An emitted log: topics as lower-case words, data as bytes. -/
structure Log where
  address : String
  topics : List String
  data : List UInt8
  deriving DecidableEq, Repr

/-- `target`, the source's `to`, is absent for a contract creation; `status` for a
receipt that does not carry it. -/
structure Receipt where
  sender : String
  target : Option String
  status : Option ℕ
  blockNumber : ℕ
  logs : List Log
  deriving DecidableEq, Repr

/-- An asset of the store, as the token standards take it. -/
structure AssetRecord where
  contractAddress : String
  decimals : ℕ
  tokenStandard : String
  deriving DecidableEq, Repr

inductive DelegateError where
  | inboundTransferVerification (message : String)
  | syntaxError
  | error (message : String)
  deriving DecidableEq, Repr

/-- `id('Transfer(address,address,uint256)')`. -/
def transferTopic : String := "0xddf252ad1be2c89b69c2b068fc378daa952ba7f163c4a11628f55a4df523b3ef"

/-- The delegate's configuration; `parseUnits` is the library's. -/
structure Delegate where
  omnibusAddress : String
  escrowAddress : String
  assets : String → Option AssetRecord
  parseUnits : String → ℕ → Except String ℤ
  minConfirmations : ℕ
  timeoutMs : ℕ
  requireFinalizedBlock : Bool

def Delegate.assetRecord (delegate : Delegate) (assetId : String) : Except DelegateError AssetRecord :=
  match delegate.assets assetId with
  | none => .error (.error s!"Asset {assetId} is not registered in DB")
  | some dbAsset => .ok dbAsset

/-! ### Finality -/

/-- An answer to `getBlock('finalized')`. -/
inductive FinalizedAnswer where
  | rejects (message : String)
  | block (number : Option ℕ)
  deriving DecidableEq, Repr

/-- The polls of one wait: those before the deadline and the one past it. -/
structure FinalizedPolls where
  beforeDeadline : List FinalizedAnswer
  pastDeadline : FinalizedAnswer
  deriving DecidableEq, Repr

/-- One turn of the loop: throw, return, or go on. -/
def pollFinalized (blockNumber : ℕ) (next : Except DelegateError Unit) :
    FinalizedAnswer → Except DelegateError Unit
  | .rejects e => .error (.inboundTransferVerification
      s!"Failed to fetch finalized block (RPC may not support finalized tag): {e}")
  | .block none => next
  | .block (some finalizedBlockNumber) => if finalizedBlockNumber ≥ blockNumber then .ok () else next

def waitForFinalizedBlock (timeoutMs blockNumber : ℕ) (polls : FinalizedPolls) :
    Except DelegateError Unit :=
  let expired := pollFinalized blockNumber (.error (.inboundTransferVerification
    s!"Transaction block {blockNumber} did not reach finalized state after {timeoutMs}ms"))
      polls.pastDeadline
  polls.beforeDeadline.foldr (fun answer next => pollFinalized blockNumber next answer) expired

/-! ### The check of a receipt -/

/-- `receipt.to?.toLowerCase() === contractAddress.toLowerCase()`. -/
def targets (target : Option String) (contractAddress : String) : Bool :=
  match target with
  | none => false
  | some target => target.toLower = contractAddress.toLower

/-- The topics of a `Transfer` whose recipient topic ends with the wallet's digits. -/
def transfersTo (omnibusAddress : String) (log : Log) : Bool :=
  log.topics[0]? == some transferTopic && log.topics.length ≥ 3 &&
    match log.topics[2]? with
    | none => false
    | some recipient => (omnibusAddress.toList.drop 2).isSuffixOf recipient.toLower.toList

/-- `BigInt` of a hex string: one without digits is a syntax error. -/
def bigInt (data : List UInt8) : Except DelegateError ℤ :=
  if data = [] then .error .syntaxError else .ok (Words.bigEndian data)

def shown {α : Type} [ToString α] : Option α → String
  | none => "null"
  | some a => toString a

def checkLogs (delegate : Delegate) (dbAsset : AssetRecord) (transactionId : String) (logs : List Log)
    (expectedAmount : String) : Except DelegateError Unit := do
  let omnibusAddress := delegate.omnibusAddress.toLower
  match logs.find? (transfersTo omnibusAddress) with
  | none => .error (.inboundTransferVerification
      s!"Transaction {transactionId} has no ERC20 Transfer event to omnibus wallet {omnibusAddress}")
  | some matchingLog =>
    let onChainAmount ← bigInt matchingLog.data
    let decimals := dbAsset.decimals
    match delegate.parseUnits expectedAmount decimals with
    | .error e => .error (.inboundTransferVerification
        s!"Expected amount {expectedAmount} is invalid for {decimals} decimals: {e}")
    | .ok expectedAmountInUnits =>
      throwIf (onChainAmount ≠ expectedAmountInUnits) (.inboundTransferVerification
        s!"Transaction {transactionId} amount mismatch: expected {expectedAmountInUnits} units, got {onChainAmount} units")

/-- `receipt` is the answer of `waitForTransaction`, `polls` those of the
finality wait. -/
def verifyReceiptOnChain (delegate : Delegate) (receipt : Option Receipt) (polls : FinalizedPolls)
    (transactionId assetId expectedAmount : String) : Except DelegateError Unit := do
  let minConfirmations := delegate.minConfirmations
  let timeoutMs := delegate.timeoutMs
  match receipt with
  | none => .error (.inboundTransferVerification
      s!"Transaction {transactionId} was not confirmed ({minConfirmations} confirmations) after {timeoutMs}ms")
  | some receipt =>
    let status := shown receipt.status
    throwIf (receipt.status ≠ some 1)
      (.inboundTransferVerification s!"Transaction {transactionId} failed on-chain (status={status})")
    if delegate.requireFinalizedBlock then
      waitForFinalizedBlock timeoutMs receipt.blockNumber polls
    let dbAsset ← delegate.assetRecord assetId
    let target := shown receipt.target
    let contractAddress := dbAsset.contractAddress
    throwIf (targets receipt.target contractAddress = false) (.inboundTransferVerification
      s!"Transaction {transactionId} target contract {target} does not match asset contract {contractAddress}")
    checkLogs delegate dbAsset transactionId receipt.logs expectedAmount

def onInboundTransfer (delegate : Delegate) (receipt : Option Receipt) (polls : FinalizedPolls)
    (transactionId assetId amount : String) : Except DelegateError Unit :=
  verifyReceiptOnChain delegate receipt polls transactionId assetId amount

/-! ### What an inbound transfer is -/

/-- The word of an address as an indexed event parameter. -/
def addressTopic (address : String) : String :=
  String.ofList ('0' :: 'x' :: (List.replicate 24 '0' ++ address.toLower.toList.drop 2))

/-- The word is lower-case already. -/
theorem toLower_addressTopic (address : String) :
    (addressTopic address).toLower = addressTopic address := by
  have hlower : (address.toLower.toList.drop 2).map Char.toLower = address.toLower.toList.drop 2 := by
    rw [List.map_drop]
    have h := congrArg String.toList (toLower_toLower address)
    rw [toList_toLower] at h
    rw [h]
  apply String.ext
  rw [toList_toLower, addressTopic, String.toList_ofList, List.map_cons, List.map_cons,
    List.map_append, List.map_replicate, hlower]
  rfl

/-- A `Transfer(address,address,uint256)` event of the contract that credits the
wallet with the units. -/
def IsTransfer (contractAddress wallet : String) (units : ℤ) (log : Log) : Prop :=
  SameUpToCase log.address contractAddress ∧
    (∃ sender recipient, log.topics = [transferTopic, sender, recipient] ∧
      recipient.toLower = addressTopic wallet) ∧
    log.data.length = 32 ∧ (Words.bigEndian log.data : ℤ) = units

/-- One of the logs credits the omnibus wallet with the amount. -/
def HasTransfer (delegate : Delegate) (dbAsset : AssetRecord) (logs : List Log) (amount : String) :
    Prop :=
  ∃ units, delegate.parseUnits amount dbAsset.decimals = .ok units ∧
    ∃ log ∈ logs, IsTransfer dbAsset.contractAddress delegate.omnibusAddress units log

/-- The receipt of a successful call of the asset's contract that credited the
omnibus wallet with the amount. -/
def IsInbound (delegate : Delegate) (dbAsset : AssetRecord) (receipt : Receipt) (amount : String) :
    Prop :=
  receipt.status = some 1 ∧ targets receipt.target dbAsset.contractAddress = true ∧
    HasTransfer delegate dbAsset receipt.logs amount

/-- A check that returns on what it should accept and throws a verification
error on all else. -/
def Decides (result : Except DelegateError Unit) (accept : Prop) : Prop :=
  (result = .ok () ↔ accept) ∧
    (¬ accept → ∃ message, result = .error (.inboundTransferVerification message))

theorem transfersTo_of_isTransfer {contractAddress wallet : String} {units : ℤ} {log : Log}
    (h : IsTransfer contractAddress wallet units log) : transfersTo wallet.toLower log = true := by
  obtain ⟨-, ⟨sender, recipient, ht, hr⟩, -, -⟩ := h
  have hs : (wallet.toLower.toList.drop 2).isSuffixOf recipient.toLower.toList = true := by
    rw [List.isSuffixOf_iff_suffix, hr, addressTopic, String.toList_ofList]
    exact ⟨'0' :: 'x' :: List.replicate 24 '0', by simp⟩
  simp [transfersTo, ht, hs]

/-! ### What the check decides -/

/-- The first log the topics pick out has data, and carries the expected units
exactly when one of the logs is a transfer of them by the asset's contract. -/
def FirstLogDecides (delegate : Delegate) (dbAsset : AssetRecord) (logs : List Log)
    (amount : String) : Prop :=
  ∀ first, logs.find? (transfersTo delegate.omnibusAddress.toLower) = some first →
    first.data ≠ [] ∧ ∀ units, delegate.parseUnits amount dbAsset.decimals = .ok units →
      ((Words.bigEndian first.data : ℤ) = units ↔
        ∃ log ∈ logs, IsTransfer dbAsset.contractAddress delegate.omnibusAddress units log)

section Decides

variable {delegate : Delegate} {logs : List Log} (dbAsset : AssetRecord) (transactionId amount : String)

theorem checkLogs_none (h : logs.find? (transfersTo delegate.omnibusAddress.toLower) = none) :
    ∃ message, checkLogs delegate dbAsset transactionId logs amount =
      .error (.inboundTransferVerification message) := by
  simp [checkLogs, h]

theorem checkLogs_empty {first : Log}
    (h : logs.find? (transfersTo delegate.omnibusAddress.toLower) = some first) (hd : first.data = []) :
    checkLogs delegate dbAsset transactionId logs amount = .error .syntaxError := by
  simp [checkLogs, h, bigInt, hd, bind, Except.bind]

/-- With data in the first log, the check returns when that log carries the
expected units and throws a verification error otherwise. -/
theorem checkLogs_some {first : Log}
    (h : logs.find? (transfersTo delegate.omnibusAddress.toLower) = some first) (hd : first.data ≠ []) :
    (checkLogs delegate dbAsset transactionId logs amount = .ok () ↔
      ∃ units, delegate.parseUnits amount dbAsset.decimals = .ok units ∧
        (Words.bigEndian first.data : ℤ) = units) ∧
    (checkLogs delegate dbAsset transactionId logs amount ≠ .ok () →
      ∃ message, checkLogs delegate dbAsset transactionId logs amount =
        .error (.inboundTransferVerification message)) := by
  simp only [checkLogs, h, bigInt, hd, if_false]
  cases hp : delegate.parseUnits amount dbAsset.decimals with
  | error e => simp [bind, Except.bind]
  | ok units =>
    by_cases hv : (Words.bigEndian first.data : ℤ) = units
    · simp [bind, Except.bind, throwIf, hv]
    · simp [bind, Except.bind, throwIf, hv, Ne.symm hv]

theorem exists_transfersTo {units : ℤ}
    (h : ∃ log ∈ logs, IsTransfer dbAsset.contractAddress delegate.omnibusAddress units log) :
    logs.find? (transfersTo delegate.omnibusAddress.toLower) ≠ none := by
  obtain ⟨log, hm, ht⟩ := h
  rw [Ne, List.find?_eq_none]
  intro hn
  exact hn log hm (transfersTo_of_isTransfer ht)

/-- On the logs, the check decides correctly exactly when their first `Transfer`
to the wallet does. -/
theorem checkLogs_decides_iff :
    Decides (checkLogs delegate dbAsset transactionId logs amount)
      (HasTransfer delegate dbAsset logs amount) ↔ FirstLogDecides delegate dbAsset logs amount := by
  cases hf : logs.find? (transfersTo delegate.omnibusAddress.toLower) with
  | none =>
    -- no log is picked out, so none is a transfer to the wallet
    obtain ⟨message, he⟩ := checkLogs_none dbAsset transactionId amount hf
    have hno : ¬ HasTransfer delegate dbAsset logs amount := by
      rintro ⟨units, -, ht⟩
      exact exists_transfersTo dbAsset ht hf
    simp [Decides, he, hno, FirstLogDecides, hf]
  | some first =>
    by_cases hd : first.data = []
    · have he := checkLogs_empty dbAsset transactionId amount hf hd
      constructor
      · rintro ⟨hok, herr⟩
        exfalso
        rw [he] at hok herr
        by_cases hg : HasTransfer delegate dbAsset logs amount
        · cases hok.mpr hg
        · obtain ⟨message, hm⟩ := herr hg
          cases hm
      · intro hfirst
        exact absurd hd (hfirst first hf).1
    · obtain ⟨hok, herr⟩ := checkLogs_some dbAsset transactionId amount hf hd
      constructor
      · rintro ⟨hiff, -⟩ first' hf'
        rw [hf] at hf'
        cases hf'
        refine ⟨hd, fun units hu => ⟨fun hv => ?_, fun hg => ?_⟩⟩
        · obtain ⟨units', hu', hg⟩ := hiff.mp (hok.mpr ⟨units, hu, hv⟩)
          rw [hu] at hu'
          cases hu'
          exact hg
        · obtain ⟨units', hu', hv⟩ := hok.mp (hiff.mpr ⟨units, hu, hg⟩)
          rw [hu] at hu'
          cases hu'
          exact hv
      · intro hfirst
        have hval := (hfirst first hf).2
        have hiff : checkLogs delegate dbAsset transactionId logs amount = .ok () ↔
            HasTransfer delegate dbAsset logs amount := by
          rw [hok]
          exact exists_congr fun units => and_congr_right fun hu => hval units hu
        exact ⟨hiff, fun hg => herr fun h => hg (hiff.mp h)⟩

/-- With a registered asset, what is left once status, finality and target are
right is the check of the logs. -/
theorem onInboundTransfer_eq {receipt : Receipt} {polls : FinalizedPolls} {assetId : String}
    (hfin : delegate.requireFinalizedBlock = true →
      waitForFinalizedBlock delegate.timeoutMs receipt.blockNumber polls = .ok ())
    (ha : delegate.assets assetId = some dbAsset) (hs : receipt.status = some 1)
    (ht : targets receipt.target dbAsset.contractAddress = true) :
    onInboundTransfer delegate (some receipt) polls transactionId assetId amount =
      checkLogs delegate dbAsset transactionId receipt.logs amount := by
  cases hf : delegate.requireFinalizedBlock with
  | false =>
    simp [onInboundTransfer, verifyReceiptOnChain, Delegate.assetRecord, ha, hf, hs, ht, throwIf, bind,
      Except.bind]
  | true =>
    simp [onInboundTransfer, verifyReceiptOnChain, Delegate.assetRecord, ha, hf, hfin hf, hs, ht,
      throwIf, bind, Except.bind]

/-- Whatever the finality setting, only a successful receipt whose logs pass is
accepted. -/
theorem of_onInboundTransfer_eq_ok {receipt : Receipt} {polls : FinalizedPolls} {assetId : String}
    (h : onInboundTransfer delegate (some receipt) polls transactionId assetId amount = .ok ()) :
    receipt.status = some 1 ∧ ∃ dbAsset,
      checkLogs delegate dbAsset transactionId receipt.logs amount = .ok () := by
  simp only [onInboundTransfer, verifyReceiptOnChain, bind_eq_ok, throwIf_eq_ok, not_not] at h
  obtain ⟨_, hs, h⟩ := h
  split_ifs at h
  · obtain ⟨_, -, h⟩ := bind_eq_ok.mp h
    obtain ⟨dbAsset, -, h⟩ := bind_eq_ok.mp h
    obtain ⟨_, -, hlogs⟩ := bind_eq_ok.mp h
    exact ⟨hs, dbAsset, hlogs⟩
  · obtain ⟨dbAsset, -, h⟩ := bind_eq_ok.mp h
    obtain ⟨_, -, hlogs⟩ := bind_eq_ok.mp h
    exact ⟨hs, dbAsset, hlogs⟩

theorem onInboundTransfer_rejects {receipt : Receipt} (polls : FinalizedPolls) {assetId : String}
    (hfin : delegate.requireFinalizedBlock = false) (ha : delegate.assets assetId = some dbAsset)
    (h : receipt.status ≠ some 1 ∨ targets receipt.target dbAsset.contractAddress = false) :
    ∃ message, onInboundTransfer delegate (some receipt) polls transactionId assetId amount =
      .error (.inboundTransferVerification message) := by
  by_cases hs : receipt.status = some 1
  · have ht := h.resolve_left (not_not.mpr hs)
    simp [onInboundTransfer, verifyReceiptOnChain, Delegate.assetRecord, ha, hfin, hs, ht, throwIf,
      bind, Except.bind]
  · simp [onInboundTransfer, verifyReceiptOnChain, hs, throwIf, bind, Except.bind]

end Decides

/-- For every receipt, with finality checking off and the asset registered: the
delegate returns on exactly the inbound transfers and throws a verification
error on all others, if and only if the receipt fails, has another target, or
has logs whose first `Transfer` to the wallet decides. -/
theorem onInboundTransfer_decides_iff (delegate : Delegate) (dbAsset : AssetRecord) (receipt : Receipt)
    (polls : FinalizedPolls) (transactionId assetId amount : String)
    (hfin : delegate.requireFinalizedBlock = false) (ha : delegate.assets assetId = some dbAsset) :
    Decides (onInboundTransfer delegate (some receipt) polls transactionId assetId amount)
      (IsInbound delegate dbAsset receipt amount) ↔
    receipt.status ≠ some 1 ∨ targets receipt.target dbAsset.contractAddress = false ∨
      FirstLogDecides delegate dbAsset receipt.logs amount := by
  rw [← or_assoc]
  by_cases hbad : receipt.status ≠ some 1 ∨ targets receipt.target dbAsset.contractAddress = false
  · obtain ⟨message, he⟩ := onInboundTransfer_rejects dbAsset transactionId amount polls hfin ha hbad
    have hno : ¬ IsInbound delegate dbAsset receipt amount := by
      rintro ⟨hs, ht, -⟩
      rcases hbad with hbad | hbad
      · exact hbad hs
      · rw [ht] at hbad
        cases hbad
    simp [Decides, he, hno, hbad]
  · simp only [not_or, not_not, Bool.not_eq_false] at hbad
    obtain ⟨hs, ht⟩ := hbad
    have hin : IsInbound delegate dbAsset receipt amount ↔
        HasTransfer delegate dbAsset receipt.logs amount := by
      simp [IsInbound, hs, ht]
    rw [onInboundTransfer_eq dbAsset transactionId amount (by simp [hfin]) ha hs ht, Decides, hin,
      ← Decides, checkLogs_decides_iff]
    simp [hs, ht]

/-! ### A token of six decimals -/

def tokenAddress : String := "0x1111111111111111111111111111111111111111"
def strangerAddress : String := "0x3333333333333333333333333333333333333333"

def sixDecimals : AssetRecord := ⟨tokenAddress, 6, "ERC20"⟩

/-- A delegate that knows one asset and one amount of it. -/
def oneAssetDelegate : Delegate where
  omnibusAddress := "0x4444444444444444444444444444444444444444"
  escrowAddress := "0x2222222222222222222222222222222222222222"
  assets assetId := if assetId = "token" then some sixDecimals else none
  parseUnits amount decimals :=
    if amount = "5" ∧ decimals = 6 then .ok 5000000 else .error "invalid FixedNumber string value"
  minConfirmations := 2
  timeoutMs := 180000
  requireFinalizedBlock := false

/-- The omnibus wallet of the delegate as a topic. -/
def omnibusTopic : String := "0x0000000000000000000000004444444444444444444444444444444444444444"
def strangerTopic : String := "0x0000000000000000000000003333333333333333333333333333333333333333"

/-- A call of the token by a stranger in which `emitter` reports five tokens for
the omnibus wallet. -/
def fiveTokensFrom (emitter : String) : Receipt where
  sender := strangerAddress
  target := some tokenAddress
  status := some 1
  blockNumber := 100
  logs := [⟨emitter, [transferTopic, strangerTopic, omnibusTopic], Words.word 5000000⟩]

theorem omnibusTopic_eq : omnibusTopic.toLower = addressTopic oneAssetDelegate.omnibusAddress := by
  have hlower : omnibusTopic.toLower = omnibusTopic := by decide +kernel
  have hword : addressTopic oneAssetDelegate.omnibusAddress = omnibusTopic := by decide +kernel
  rw [hlower, hword]

theorem find_fiveTokensFrom (emitter : String) :
    (fiveTokensFrom emitter).logs.find? (transfersTo oneAssetDelegate.omnibusAddress.toLower) =
      (fiveTokensFrom emitter).logs.head? := by
  -- the emitter does not enter the test
  have hto : transfersTo oneAssetDelegate.omnibusAddress.toLower
      ⟨emitter, [transferTopic, strangerTopic, omnibusTopic], Words.word 5000000⟩ = true := by
    change transfersTo oneAssetDelegate.omnibusAddress.toLower
      ⟨tokenAddress, [transferTopic, strangerTopic, omnibusTopic], Words.word 5000000⟩ = true
    decide +kernel
  simp only [fiveTokensFrom, List.find?_cons, hto, List.head?_cons]

/-- A transfer of the token itself is decided as it should be. -/
theorem token_transfer_decided :
    Decides (onInboundTransfer oneAssetDelegate (some (fiveTokensFrom tokenAddress)) ⟨[], .block none⟩
      "tx" "token" "5") (IsInbound oneAssetDelegate sixDecimals (fiveTokensFrom tokenAddress) "5") := by
  refine (onInboundTransfer_decides_iff oneAssetDelegate sixDecimals (fiveTokensFrom tokenAddress)
    ⟨[], .block none⟩ "tx" "token" "5" rfl (by decide)).mpr (.inr (.inr ?_))
  intro first hf
  rw [find_fiveTokensFrom] at hf
  cases hf
  refine ⟨by decide +kernel, fun units hu => ⟨fun hv => ?_, fun _ => ?_⟩⟩
  · exact ⟨_, List.mem_singleton_self _, rfl, ⟨_, _, rfl, omnibusTopic_eq⟩,
      Words.length_word (by norm_num), hv⟩
  · cases hu
    decide +kernel

/-- The token call in which another contract reports the five tokens, and the
token reports nothing, is accepted. -/
theorem foreign_transfer_accepted :
    onInboundTransfer oneAssetDelegate (some (fiveTokensFrom strangerAddress)) ⟨[], .block none⟩
        "tx" "token" "5" = .ok () ∧
      ¬ IsInbound oneAssetDelegate sixDecimals (fiveTokensFrom strangerAddress) "5" := by
  constructor
  · rw [onInboundTransfer_eq sixDecimals "tx" "5" (by decide) (by decide) rfl
      (by simp [targets, fiveTokensFrom, sixDecimals])]
    exact (checkLogs_some sixDecimals "tx" "5" (find_fiveTokensFrom strangerAddress)
      (by decide +kernel)).1.mpr
      ⟨5000000, rfl, by decide +kernel⟩
  · rintro ⟨-, -, units, -, log, hm, haddress, -⟩
    rw [List.mem_singleton.mp hm] at haddress
    revert haddress
    decide +kernel

end FinP2PAdapter.Omnibus
