import FinP2PAdapter.Accounts.AccountResolver
import FinP2PAdapter.Library.Machine

/-! Signers whose key is Fireblocks's. A signing call hashes what it is given, has Fireblocks make a transaction of
the hash and asks after that transaction until its status is final. Many calls of many signers are under way at once,
and Fireblocks moves their transactions at its own pace. -/

namespace FinP2PAdapter.Fireblocks

open Accounts (truthy)
open Machine

/-! ### Transactions of Fireblocks -/

inductive TransactionStatus where
  | completed
  | failed
  | rejected
  | cancelled
  | blocked
  | other (status : String)
  deriving DecidableEq, Repr

def TransactionStatus.text : TransactionStatus → String
  | .completed => "COMPLETED"
  | .failed => "FAILED"
  | .rejected => "REJECTED"
  | .cancelled => "CANCELLED"
  | .blocked => "BLOCKED"
  | .other status => status

def terminalStatuses : List TransactionStatus := [.completed, .failed, .rejected, .cancelled, .blocked]

structure MessageSignature where
  r : Option String
  s : Option String
  v : Option ℕ
  deriving DecidableEq, Repr

structure SignedMessage where
  signature : Option MessageSignature
  deriving DecidableEq, Repr

/-- What Fireblocks says of a transaction. -/
structure TransactionInfo where
  status : TransactionStatus
  subStatus : Option String
  signedMessages : Option (List SignedMessage)
  deriving DecidableEq, Repr

def TransactionInfo.isFinal (tx : TransactionInfo) : Bool := tx.status ∈ terminalStatuses

def submitted : TransactionInfo := ⟨.other "SUBMITTED", none, none⟩

structure Signature where
  r : String
  s : String
  v : ℕ
  deriving DecidableEq, Repr

def undefinedOr (field : Option String) : String := field.getD "undefined"

/-- One round of the loop: nothing while the transaction is on its way. -/
def pollTransaction (txId : String) (tx : TransactionInfo) : Option (Except String TransactionInfo) :=
  if tx.status ∈ terminalStatuses then
    if tx.status ≠ .completed then
      some (.error s!"Fireblocks transaction {txId} ended with status: {tx.status.text} ({undefinedOr tx.subStatus})")
    else some (.ok tx)
  else none

/-- The signature of the first message, if it has all its parts. -/
def readSignature (stringify : MessageSignature → String) (id : String) (result : TransactionInfo) :
    Except String Signature :=
  match (result.signedMessages.bind List.head?).bind SignedMessage.signature with
  | none => .error
      s!"Fireblocks raw signing failed: tx {id} status {result.status.text}, subStatus {undefinedOr result.subStatus}"
  | some signature =>
    match truthy signature.r, truthy signature.s, signature.v with
    | some r, some s, some v => .ok ⟨"0x" ++ r, "0x" ++ s, v + 27⟩
    | _, _, _ => .error s!"Incomplete signature from Fireblocks: {stringify signature}"

/-! ### What is signed -/

/-- A hash as ethers writes it. -/
structure Digest where
  text : String
  hex : ∃ content, text = "0x" ++ content

def Digest.ofContent (content : String) : Digest := ⟨"0x" ++ content, content, rfl⟩

/-- What the signer uses of ethers. Where one of its functions throws, the text is what it threw. -/
structure Ethers where
  Transaction : Type
  Request : Type
  Fields : Type
  Message : Type
  TypedData : Type
  transactionFrom : Fields → Except String Transaction
  unsignedHash : Transaction → Except String Digest
  hashMessage : Message → Digest
  hashTypedData : TypedData → Except String Digest
  serialized : Transaction → Signature → Except String String
  signatureSerialized : Signature → Except String String

variable {E : Ethers}

inductive SignerRequest (E : Ethers) where
  | getAddress
  | signTransaction (tx : E.Transaction ⊕ E.Request)
  | signMessage (text : E.Message)
  | signTypedData (data : E.TypedData)

inductive Work (E : Ethers) where
  | transaction (unsignedTx : E.Transaction)
  | message (text : E.Message)
  | typedData (data : E.TypedData)

def Work.digest : Work E → Except String Digest
  | .transaction unsignedTx => E.unsignedHash unsignedTx
  | .message text => .ok (E.hashMessage text)
  | .typedData data => E.hashTypedData data

/-- The text that a signing call returns for a signature. -/
def Work.seal : Work E → Signature → Except String String
  | .transaction unsignedTx => E.serialized unsignedTx
  | .message _ => E.signatureSerialized
  | .typedData _ => E.signatureSerialized

/-- What is signed is what was asked for. A request that is no transaction yet is made one of what
`populateTransaction` has answered. -/
def Work.Fits (populated : Option E.Fields) : Work E → SignerRequest E → Prop
  | .transaction unsignedTx, .signTransaction (.inl tx) => unsignedTx = tx
  | .transaction unsignedTx, .signTransaction (.inr _) =>
    ∃ fields, populated = some fields ∧ E.transactionFrom fields = .ok unsignedTx
  | .message text, .signMessage asked => text = asked
  | .typedData data, .signTypedData asked => data = asked
  | _, _ => False

structure Job (E : Ethers) where
  work : Work E
  digest : Digest
  hashed : work.digest = .ok digest

def contentOf (hash : String) : String :=
  if ['0', 'x'] <+: hash.toList then String.ofList (hash.toList.drop 2) else hash

/-- Nothing of a digest is lost on the way to Fireblocks. -/
theorem contentOf_digest (digest : Digest) : "0x" ++ contentOf digest.text = digest.text := by
  obtain ⟨content, htext⟩ := digest.hex
  rw [htext, contentOf]
  have hlist : ("0x" ++ content).toList = ['0', 'x'] ++ content.toList := String.toList_append
  rw [hlist, if_pos (List.prefix_append _ _)]
  simp

/-! ### Calls -/

inductive SigningStage (E : Ethers) where
  | asking
  | populating
  | creating (job : Job E)
  | polling (job : Job E) (txId : String)
  | ended (job : Option (Job E)) (txId : Option String) (outcome : Except String String)

namespace SigningStage

def job : SigningStage E → Option (Job E)
  | asking | populating => none
  | creating job | polling job _ => some job
  | ended job _ _ => job

/-- The transaction that was made for the call, whether or not it was told so. -/
def txId : SigningStage E → Option String
  | asking | populating | creating _ => none
  | polling _ txId => some txId
  | ended _ txId _ => txId

end SigningStage

structure SigningCall (E : Ethers) where
  signer : ℕ
  request : SignerRequest E
  stage : SigningStage E

structure RawSigner where
  vaultAccountId : String
  assetId : String
  cachedAddress : Option String
  deriving DecidableEq, Repr

def RawSigner.construct (vaultAccountId : String) (assetId : Option String) : RawSigner :=
  ⟨vaultAccountId, assetId.getD "ETH", none⟩

structure RawTransaction where
  content : String
  vaultAccountId : String
  assetId : String
  info : TransactionInfo

/-- `populated` is what `populateTransaction` has answered each call. -/
structure SigningState (E : Ethers) where
  signers : ℕ → Option RawSigner
  transactions : String → Option RawTransaction
  calls : ℕ → Option (SigningCall E)
  populated : ℕ → Option E.Fields

/-- `created` and `creationFailed` are Fireblocks's answers to `createTransaction`; what fails may have left a
transaction all the same. `progressed` is Fireblocks at work. -/
inductive SigningAction (E : Ethers) where
  | constructed (k : ℕ) (vaultAccountId : String) (assetId : Option String)
  | connected (k k' : ℕ)
  | called (id k : ℕ) (request : SignerRequest E)
  | addressed (id : ℕ) (answer : Except String (List String))
  | populated (id : ℕ) (answer : Except String E.Fields)
  | created (id : ℕ) (txId : String)
  | creationFailed (id : ℕ) (left : Option String) (message : String)
  | progressed (txId : String) (info : TransactionInfo)
  | polled (id : ℕ) (failure : Option String)

namespace SigningState

def init : SigningState E := ⟨fun _ => none, fun _ => none, fun _ => none, fun _ => none⟩

def put (s : SigningState E) (id : ℕ) (c : SigningCall E) : SigningState E :=
  { s with calls := Function.update s.calls id (some c) }

def putSigner (s : SigningState E) (k : ℕ) (signer : RawSigner) : SigningState E :=
  { s with signers := Function.update s.signers k (some signer) }

def putTransaction (s : SigningState E) (txId : String) (tx : RawTransaction) : SigningState E :=
  { s with transactions := Function.update s.transactions txId (some tx) }

def answer (s : SigningState E) (id : ℕ) (fields : E.Fields) : SigningState E :=
  { s with populated := Function.update s.populated id (some fields) }

end SigningState

/-- `rawSign` up to its first answer. -/
def rawSign (work : Work E) : SigningStage E :=
  match h : work.digest with
  | .error message => .ended none none (.error message)
  | .ok digest => .creating ⟨work, digest, h⟩

def rawTransaction (signer : RawSigner) (job : Job E) : RawTransaction :=
  ⟨contentOf job.digest.text, signer.vaultAccountId, signer.assetId, submitted⟩

/-- A call up to its first answer. -/
def firstStage (signer : RawSigner) : SignerRequest E → SigningStage E
  | .getAddress =>
    match truthy signer.cachedAddress with
    | some address => .ended none none (.ok address)
    | none => .asking
  | .signTransaction (.inl unsignedTx) => rawSign (.transaction unsignedTx)
  | .signTransaction (.inr _) => .populating
  | .signMessage text => rawSign (.message text)
  | .signTypedData data => rawSign (.typedData data)

/-- What the call makes of an answer to `getTransactionById`. -/
def finish (stringify : MessageSignature → String) (job : Job E) (txId : String) (tx : TransactionInfo) :
    Option (Except String String) :=
  (pollTransaction txId tx).map fun polled => do
    let result ← polled
    let signature ← readSignature stringify txId result
    job.work.seal signature

def signingStep (stringify : MessageSignature → String) (s : SigningState E) :
    SigningAction E → Option (SigningState E)
  | .constructed k vaultAccountId assetId =>
    match s.signers k with
    | none => some (s.putSigner k (.construct vaultAccountId assetId))
    | some _ => none
  | .connected k k' =>
    match s.signers k, s.signers k' with
    | some signer, none => some (s.putSigner k' (.construct signer.vaultAccountId (some signer.assetId)))
    | _, _ => none
  | .called id k request =>
    match s.calls id, s.signers k with
    | none, some signer => some (s.put id ⟨k, request, firstStage signer request⟩)
    | _, _ => none
  | .addressed id answer =>
    match s.calls id with
    | some ⟨k, request, .asking⟩ =>
      (s.signers k).map fun signer =>
        match answer with
        | .error message => s.put id ⟨k, request, .ended none none (.error message)⟩
        | .ok [] => s.put id ⟨k, request, .ended none none (.error
            s!"No deposit address found for vault {signer.vaultAccountId} asset {signer.assetId}")⟩
        | .ok (address :: _) => (s.putSigner k { signer with cachedAddress := some address }).put id
            ⟨k, request, .ended none none (.ok address)⟩
    | _ => none
  | .populated id answer =>
    match s.calls id with
    | some ⟨k, request, .populating⟩ =>
      match answer with
      | .error message => some (s.put id ⟨k, request, .ended none none (.error message)⟩)
      | .ok fields =>
        match E.transactionFrom fields with
        | .error message => some ((s.answer id fields).put id ⟨k, request, .ended none none (.error message)⟩)
        | .ok unsignedTx => some ((s.answer id fields).put id ⟨k, request, rawSign (.transaction unsignedTx)⟩)
    | _ => none
  | .created id txId =>
    match s.calls id, s.transactions txId with
    | some ⟨k, request, .creating job⟩, none =>
      (s.signers k).map fun signer =>
        (s.putTransaction txId (rawTransaction signer job)).put id ⟨k, request, .polling job txId⟩
    | _, _ => none
  | .creationFailed id left message =>
    match s.calls id with
    | some ⟨k, request, .creating job⟩ =>
      match left with
      | none => some (s.put id ⟨k, request, .ended (some job) none (.error message)⟩)
      | some txId =>
        match s.signers k, s.transactions txId with
        | some signer, none => some ((s.putTransaction txId (rawTransaction signer job)).put id
            ⟨k, request, .ended (some job) (some txId) (.error message)⟩)
        | _, _ => none
    | _ => none
  | .progressed txId info =>
    match s.transactions txId with
    | some tx => if tx.info.isFinal then none else some (s.putTransaction txId { tx with info := info })
    | none => none
  | .polled id failure =>
    match s.calls id with
    | some ⟨k, request, .polling job txId⟩ =>
      match failure with
      | some message => some (s.put id ⟨k, request, .ended (some job) (some txId) (.error message)⟩)
      | none =>
        (s.transactions txId).map fun tx =>
          match finish stringify job txId tx.info with
          | some outcome => s.put id ⟨k, request, .ended (some job) (some txId) outcome⟩
          | none => s
    | _ => none

end FinP2PAdapter.Fireblocks
