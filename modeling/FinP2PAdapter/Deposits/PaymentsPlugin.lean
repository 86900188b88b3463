import FinP2PAdapter.Library.CaseFold

/-! What the deposit plugins share: the requests they are asked, the operations they
answer, and what they tell the outside of a credited deposit. The inbound transfer
hook is told first, where there is one, then the FinP2P client, where there is one;
both plugins send the same two messages. -/

namespace FinP2PAdapter.Deposits

/-! ### Requests -/

structure DepositAsset where
  assetType : String
  assetId : Option String
  deriving DecidableEq, Repr

structure Request where
  ownerFinId : String
  asset : DepositAsset
  amount : Option String
  deriving DecidableEq, Repr

/-- The asset store's row. -/
structure DbAsset where
  contractAddress : String
  decimals : ℕ
  deriving DecidableEq, Repr

/-- A request whose asset and deposit target are resolved. -/
structure Order where
  ownerFinId : String
  assetId : String
  dbAsset : DbAsset
  target : String
  amount : Option String
  deriving DecidableEq, Repr

/-- What a successful deposit tells its caller; `custodyAccountId` is its details. -/
structure Instruction where
  finId : String
  address : String
  description : String
  paymentDescription : String
  currency : String
  network : String
  contractAddress : String
  walletAddress : String
  operationId : String
  custodyAccountId : Option String
  deriving DecidableEq, Repr

inductive DepositOperation where
  | failed (code : ℕ) (message : String)
  | successful (instruction : Instruction)
  deriving DecidableEq, Repr

/-! ### Notifications -/

/-- The channels a plugin was constructed with. -/
structure Channels where
  network : String
  inboundTransferHook : Bool
  finP2PClient : Bool
  deriving DecidableEq, Repr

/-- A deposit whose tokens were moved, with the written amount and the place of the
transaction among those sent. -/
structure Credit where
  correlationId : String
  finId : String
  assetId : String
  contractAddress : String
  amount : String
  txHash : ℕ
  deriving DecidableEq, Repr

/-- The arguments of `onInboundTransfer`. -/
structure InboundTransfer where
  idempotencyKey : String
  planId : String
  sourceFinId : String
  destinationFinId : String
  assetId : String
  assetType : String
  assetIdentifierType : String
  network : String
  tokenId : String
  standard : String
  amount : String
  instructionSequence : ℕ
  transactionId : ℕ
  deriving DecidableEq, Repr

/-- The transaction handed to `importTransactions`, but for its timestamp. -/
structure ImportedTransaction where
  id : ℕ
  quantity : String
  destinationFinId : String
  assetId : String
  assetIdentifierType : String
  network : String
  tokenId : String
  standard : String
  transactionId : ℕ
  operationId : String
  operationType : String
  deriving DecidableEq, Repr

inductive Call where
  | onInboundTransfer (transfer : InboundTransfer)
  | importTransactions (transaction : ImportedTransaction)
  | archiveCustodyAccount (custodyAccountId : String)
  deriving DecidableEq, Repr

def inboundTransfer (ch : Channels) (credit : Credit) : InboundTransfer where
  idempotencyKey := credit.correlationId
  planId := credit.correlationId
  sourceFinId := ""
  destinationFinId := credit.finId
  assetId := credit.assetId
  assetType := "finp2p"
  assetIdentifierType := "CAIP-19"
  network := ch.network
  tokenId := credit.contractAddress
  standard := "ERC20"
  amount := credit.amount
  instructionSequence := 0
  transactionId := credit.txHash

def importedTransaction (ch : Channels) (credit : Credit) : ImportedTransaction where
  id := credit.txHash
  quantity := credit.amount
  destinationFinId := credit.finId
  assetId := credit.assetId
  assetIdentifierType := "CAIP-19"
  network := ch.network
  tokenId := credit.contractAddress
  standard := "ERC20"
  transactionId := credit.txHash
  operationId := credit.correlationId
  operationType := "transfer"

/-- `notifyInboundHook`, if there is a hook. -/
def notifyInboundHook (ch : Channels) (credit : Credit) : List Call :=
  if ch.inboundTransferHook then [.onInboundTransfer (inboundTransfer ch credit)] else []

/-- `exportReceipt`, which does nothing without a client. -/
def exportReceipt (ch : Channels) (credit : Credit) : List Call :=
  if ch.finP2PClient then [.importTransactions (importedTransaction ch credit)] else []

/-- The calls that notify of a credit, in order. -/
def notifications (ch : Channels) (credit : Credit) : List Call :=
  notifyInboundHook ch credit ++ exportReceipt ch credit

def Call.IsNotification : Call → Prop
  | .archiveCustodyAccount _ => False
  | _ => True

instance (c : Call) : Decidable c.IsNotification := by
  unfold Call.IsNotification
  split <;> infer_instance

/-- Each configured channel was told of the deposit. -/
def Told (ch : Channels) (delivered : List Call) (correlationId : String) : Prop :=
  (ch.inboundTransferHook → ∃ transfer, .onInboundTransfer transfer ∈ delivered ∧
    transfer.planId = correlationId) ∧
    (ch.finP2PClient → ∃ transaction, .importTransactions transaction ∈ delivered ∧
      transaction.operationId = correlationId)

theorem isNotification_of_mem {ch : Channels} {credit : Credit} {c : Call}
    (h : c ∈ notifications ch credit) : c.IsNotification := by
  rcases List.mem_append.mp h with h | h
  · unfold notifyInboundHook at h
    split_ifs at h
    · rw [List.mem_singleton.mp h]
      trivial
    · cases h
  · unfold exportReceipt at h
    split_ifs at h
    · rw [List.mem_singleton.mp h]
      trivial
    · cases h

theorem told_of_delivered {ch : Channels} {credit : Credit} {delivered : List Call}
    (h : ∀ c ∈ notifications ch credit, c ∈ delivered) : Told ch delivered credit.correlationId := by
  constructor
  · intro hhook
    refine ⟨inboundTransfer ch credit, h _ (List.mem_append_left _ ?_), rfl⟩
    rw [notifyInboundHook, if_pos hhook]
    exact List.mem_singleton_self _
  · intro hclient
    refine ⟨importedTransaction ch credit, h _ (List.mem_append_right _ ?_), rfl⟩
    rw [exportReceipt, if_pos hclient]
    exact List.mem_singleton_self _

end FinP2PAdapter.Deposits
