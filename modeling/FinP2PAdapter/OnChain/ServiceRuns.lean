import FinP2PAdapter.Library.Effects
import FinP2PAdapter.OnChain.ExecutionContexts
import FinP2PAdapter.TokenStandards.AssetCreation

/-! The on-chain service's operations as they run, with everything that the contract's client may refuse on the
way. The credentials that the service knows are those the contract has confirmed in the log, and those that other
requests have had confirmed in the meantime. A failed receipt says nothing of the transaction, which may have been
sent before its receipt could not be read. -/

namespace FinP2PAdapter.OnChain.ServiceRuns

open Accounts (truthy)
open Effects ExecutionContexts
open TokenStandards (AssetBind TokenIdentifier)

inductive Event where
  | credential (finId : String) (confirmed : Bool)
  | sent (request : ContractRequest) (answer : Except ContractError String)
  | parsed (txHash : String) (answer : Except ContractError ReceiptOperation)
  | balance (assetId finId : String) (succeeded : Bool)
  | deployed (assetId : String) (answer : Except ContractError String)
  | associated (assetId tokenAddress : String) (assetStandardId : Option String) (succeeded : Bool)
  | network (succeeded : Bool)
  deriving DecidableEq

abbrev Run (α : Type) := Op ContractError Event α

/-- What the contract's client answers, and which credentials other requests have registered, by what has happened
so far. -/
structure World where
  registeredElsewhere : String → List Event → Bool
  getCredentialAddress : String → List Event → Except ContractError String
  send : ContractRequest → List Event → Except ContractError String
  getReceiptFromTransactionReceipt : String → List Event → Except ContractError ReceiptOperation
  balance : String → String → List Event → Except ContractError String
  deployERC20 : String → ℕ → List Event → Except ContractError String
  associateAsset : String → String → Option String → List Event → Except ContractError String
  getNetwork : List Event → Except ContractError (ℕ × String)

/-- The service as it is configured; the predicate on token ids and the standards' ids are the library's. -/
structure Config where
  isEthereumAddress : String → Bool
  standardId : String → String
  withRegistry : Bool
  defaultAssetStandard : Option String
  finP2PContractAddress : String

namespace World

variable (w : World)

/-- `registeredCredentials.has(finId)`. -/
def registered (history : List Event) (finId : String) : Bool :=
  history.contains (.credential finId true) || w.registeredElsewhere finId history

def ensureCredential (finId : String) : Run Unit := fun history =>
  if w.registered history finId then (.ok (), history)
  else
    let answer := w.getCredentialAddress finId history
    (answer.map fun _ => (), history ++ [.credential finId answer.isOk])

def ensureCredentials : List String → Run Unit
  | [] => pure ()
  | finId :: rest => do
    w.ensureCredential finId
    ensureCredentials rest

/-- The transaction of an operation, and its receipt. -/
def transact (submission : Submission) : Run ReceiptOperation := do
  let txHash ← Op.emit (fun history => .sent submission.request (w.send submission.request history))
    (w.send submission.request)
  let op ← Op.emit (fun history => .parsed txHash (w.getReceiptFromTransactionReceipt txHash history))
    (w.getReceiptFromTransactionReceipt txHash)
  return mapReceiptOperation op (some submission.asset) submission.exCtx

/-- The part of each operation that its `try` covers. -/
def submit (submission : Submission) : Run ReceiptOperation := do
  w.ensureCredentials submission.finIds
  w.transact submission

def execute (submission : Submission) : Run ReceiptOperation :=
  (w.submit submission).orElse fun e => .failure 1 e.message

def getBalance (assetId finId : String) : Run String := do
  w.ensureCredential finId
  Op.emit (fun history => .balance assetId finId (w.balance assetId finId history).isOk) (w.balance assetId finId)

end World

/-! ### The credentials that are asked for -/

/-- The credentials in order: each is registered or the contract confirms it, up to the first that it refuses. -/
inductive Asked (w : World) : List Event → List String → Except ContractError Unit → List Event → Prop
  | all (history : List Event) : Asked w history [] (.ok ()) []
  | known {history : List Event} {finId : String} {finIds : List String} {result : Except ContractError Unit}
    {events : List Event} (hknown : w.registered history finId = true) (h : Asked w history finIds result events) :
    Asked w history (finId :: finIds) result events
  | confirmed {history : List Event} {finId : String} {finIds : List String} {result : Except ContractError Unit}
    {events : List Event} (address : String) (hnew : w.registered history finId = false)
    (hanswer : w.getCredentialAddress finId history = .ok address)
    (h : Asked w (history ++ [.credential finId true]) finIds result events) :
    Asked w history (finId :: finIds) result (.credential finId true :: events)
  | refused {history : List Event} {finId : String} {finIds : List String} {e : ContractError}
    (hnew : w.registered history finId = false) (hanswer : w.getCredentialAddress finId history = .error e) :
    Asked w history (finId :: finIds) (.error e) [.credential finId false]

theorem ensureCredentials_asked (w : World) (finIds : List String) (history : List Event) :
    ∃ result asked, w.ensureCredentials finIds history = (result, history ++ asked) ∧
      Asked w history finIds result asked := by
  induction finIds generalizing history with
  | nil => exact ⟨.ok (), [], by simp [World.ensureCredentials, Pure.pure], .all history⟩
  | cons finId finIds ih =>
    unfold World.ensureCredentials World.ensureCredential
    simp only [Bind.bind]
    cases hknown : w.registered history finId with
    | true =>
      rw [if_pos rfl]
      obtain ⟨result, asked, hrun, hasked⟩ := ih history
      exact ⟨result, asked, hrun, .known hknown hasked⟩
    | false =>
      rw [if_neg Bool.false_ne_true]
      cases hanswer : w.getCredentialAddress finId history with
      | error e => exact ⟨.error e, _, rfl, .refused hknown hanswer⟩
      | ok address =>
        obtain ⟨result, asked, hrun, hasked⟩ := ih (history ++ [.credential finId true])
        refine ⟨result, .credential finId true :: asked, ?_, .confirmed address hknown hanswer hasked⟩
        rw [List.append_assoc, List.singleton_append] at hrun
        exact hrun

/-! ### What an operation's answer says of its transaction -/

/-- A balance is asked for once the investor's credential is confirmed. -/
theorem getBalance_asked (w : World) (assetId finId : String) (history : List Event) :
    ∃ result events asked, w.getBalance assetId finId history = (result, history ++ events) ∧
      ((∃ e, Asked w history [finId] (.error e) asked ∧ result = .error e ∧ events = asked) ∨
        Asked w history [finId] (.ok ()) asked ∧ result = w.balance assetId finId (history ++ asked) ∧
          events = asked ++ [.balance assetId finId result.isOk]) := by
  have hone : w.ensureCredentials [finId] = w.ensureCredential finId := by
    funext history
    simp only [World.ensureCredentials, Bind.bind, Pure.pure]
    rcases w.ensureCredential finId history with ⟨result, after⟩
    cases result <;> rfl
  obtain ⟨result, asked, hasks, hasked⟩ := ensureCredentials_asked w [finId] history
  rw [hone] at hasks
  cases result with
  | error e =>
    refine ⟨.error e, asked, asked, ?_, .inl ⟨e, hasked, rfl, rfl⟩⟩
    simp only [World.getBalance, Bind.bind, hasks]
  | ok u =>
    refine ⟨w.balance assetId finId (history ++ asked), _, asked, ?_, .inr ⟨hasked, rfl, rfl⟩⟩
    simp only [World.getBalance, Bind.bind, hasks, Op.emit, List.append_assoc]

/-- An operation of the service. What its preparation throws is not caught. -/
def operation (pkg : Orchestrator) (w : World) (op : Operation) : Run (Except ServiceError ReceiptOperation) :=
  match prepare pkg op with
  | .submits submission => do
    let receipt ← w.execute submission
    return .ok receipt
  | .answers receipt => pure (.ok receipt)
  | .throws e => pure (.error e)

structure AssetCreationResult where
  network : String
  tokenId : String
  standard : String
  finP2POperatorContractAddress : String
  allowanceRequired : Bool
  deriving DecidableEq, Repr

inductive AssetCreationStatus where
  | success (result : AssetCreationResult)
  | failed (code : ℕ) (message : String)
  deriving DecidableEq, Repr

/-- The token id of the request, if it is an address. -/
def boundToken (cfg : Config) (assetBind : Option AssetBind) : Option String :=
  (truthy ((assetBind.bind (·.tokenIdentifier)).map (·.tokenId))).filter cfg.isEthereumAddress

def requestedStandard (assetBind : Option AssetBind) : Option String :=
  (assetBind.bind (·.tokenIdentifier)).bind (·.standard)

/-- The standard of the answer. -/
def responseStandard (cfg : Config) (assetBind : Option AssetBind) : Option String :=
  truthy ((requestedStandard assetBind).or cfg.defaultAssetStandard)

/-- The standard the contract is told of. -/
def assetStandardId (cfg : Config) (assetBind : Option AssetBind) : Option String :=
  if cfg.withRegistry then
    match truthy (requestedStandard assetBind) with
    | some standard => some (cfg.standardId standard)
    | none => cfg.defaultAssetStandard
  else none

namespace World

variable (w : World)

def tokenFor (assetId : String) (bound : Option String) : Run String :=
  match bound with
  | some tokenAddress => pure tokenAddress
  | none => Op.emit (fun history => .deployed assetId (w.deployERC20 assetId 2 history)) (w.deployERC20 assetId 2)

/-- The association, whose failure is caught. -/
def associate (assetId tokenAddress : String) (standardId : Option String) : Run (Option ContractError) :=
  (do
    let answer := w.associateAsset assetId tokenAddress standardId
    let _ ← Op.emit (fun history => .associated assetId tokenAddress standardId (answer history).isOk) answer
    return none : Run (Option ContractError)).orElse some

/-- What follows once the token is there. -/
def associateToken (cfg : Config) (assetId : String) (assetBind : Option AssetBind) (tokenAddress : String) :
    Run AssetCreationStatus :=
  match responseStandard cfg assetBind with
  | none => pure (.failed 1 "No asset standard supplied and DEFAULT_ASSET_STANDARD env not set")
  | some standard => do
    match ← w.associate assetId tokenAddress (assetStandardId cfg assetBind) with
    | some e => return .failed 1 e.message
    | none => do
      let (chainId, name) ← Op.emit (fun history => .network (w.getNetwork history).isOk) w.getNetwork
      return .success ⟨s!"name: {name}, chainId: {chainId}", tokenAddress, standard, cfg.finP2PContractAddress,
        (boundToken cfg assetBind).isSome⟩

def createAsset (cfg : Config) (assetId : String) (assetBind : Option AssetBind) : Run AssetCreationStatus := do
  let tokenAddress ← w.tokenFor assetId (boundToken cfg assetBind)
  w.associateToken cfg assetId assetBind tokenAddress

end World

/-- How a creation ends once it has its token. -/
inductive Associated (cfg : Config) (assetId : String) (assetBind : Option AssetBind) (tokenAddress : String) :
    Except ContractError AssetCreationStatus → List Event → Prop where
  | unstandardized (h : responseStandard cfg assetBind = none) :
    Associated cfg assetId assetBind tokenAddress
      (.ok (.failed 1 "No asset standard supplied and DEFAULT_ASSET_STANDARD env not set")) []
  | refused (message standard : String) (h : responseStandard cfg assetBind = some standard) :
    Associated cfg assetId assetBind tokenAddress (.ok (.failed 1 message))
      [.associated assetId tokenAddress (assetStandardId cfg assetBind) false]
  | unanswered (e : ContractError) (standard : String) (h : responseStandard cfg assetBind = some standard) :
    Associated cfg assetId assetBind tokenAddress (.error e)
      [.associated assetId tokenAddress (assetStandardId cfg assetBind) true, .network false]
  | created (network standard : String) (h : responseStandard cfg assetBind = some standard) :
    Associated cfg assetId assetBind tokenAddress (.ok (.success ⟨network, tokenAddress, standard,
        cfg.finP2PContractAddress, (boundToken cfg assetBind).isSome⟩))
      [.associated assetId tokenAddress (assetStandardId cfg assetBind) true, .network true]

theorem ensures_associate (w : World) (assetId tokenAddress : String) (standardId : Option String) :
    Ensures (w.associate assetId tokenAddress standardId) fun result events =>
      (result = .ok none ∧ events = [.associated assetId tokenAddress standardId true]) ∨
        ∃ e, result = .ok (some e) ∧ events = [.associated assetId tokenAddress standardId false] := by
  refine Ensures.orElse (Q := fun result events =>
    (result = .ok none ∧ events = [.associated assetId tokenAddress standardId true]) ∨
      ∃ e, result = .error e ∧ events = [.associated assetId tokenAddress standardId false]) ?_ ?_ ?_
  · refine Ensures.bind (Q := fun result events =>
      events = [.associated assetId tokenAddress standardId result.isOk]) (.emit fun history => rfl) ?_ ?_
    · rintro e events rfl
      exact .inr ⟨e, rfl, rfl⟩
    · rintro hash events rfl
      exact .pure (.inl ⟨rfl, rfl⟩)
  · rintro a events (⟨hr, he⟩ | ⟨e, hr, -⟩)
    · exact .inl ⟨hr, he⟩
    · cases hr
  · rintro e events (⟨hr, -⟩ | ⟨e', hr, he⟩)
    · cases hr
    · exact .inr ⟨e, rfl, he⟩

theorem ensures_tokenFor (w : World) (assetId : String) (bound : Option String) :
    Ensures (w.tokenFor assetId bound) fun result events =>
      (∃ tokenAddress, bound = some tokenAddress ∧ result = .ok tokenAddress ∧ events = []) ∨
        bound = none ∧ events = [.deployed assetId result] := by
  cases bound with
  | some tokenAddress => exact .pure (.inl ⟨tokenAddress, rfl, rfl, rfl⟩)
  | none => exact .emit fun history => .inr ⟨rfl, rfl⟩

theorem ensures_associateToken (w : World) (cfg : Config) (assetId : String) (assetBind : Option AssetBind)
    (tokenAddress : String) :
    Ensures (w.associateToken cfg assetId assetBind tokenAddress)
      (Associated cfg assetId assetBind tokenAddress) := by
  unfold World.associateToken
  cases hstandard : responseStandard cfg assetBind with
  | none => exact .pure (.unstandardized hstandard)
  | some standard =>
    refine Ensures.bind (ensures_associate w assetId tokenAddress (assetStandardId cfg assetBind)) ?_ ?_
    · rintro e events (⟨hr, -⟩ | ⟨e', hr, -⟩) <;> cases hr
    · rintro caught events (⟨hr, rfl⟩ | ⟨e, hr, rfl⟩)
      · cases hr
        refine Ensures.bind (Q := fun result events => events = [.network result.isOk])
          (.emit fun history => rfl) ?_ ?_
        · rintro e events rfl
          exact .unanswered e standard hstandard
        · rintro answer events rfl
          exact .pure (.created _ _ hstandard)
      · cases hr
        exact .pure (.refused _ standard hstandard)

/-- Whatever fails on the way, the creation of an asset ends in one of these ways. A token it deploys stays without
an asset exactly if there is no standard or the contract refuses the association, both of which are answered as
failures; and an asset that is associated is answered with, unless the network cannot be read, which is thrown. -/
theorem createAsset_ends (w : World) (cfg : Config) (assetId : String) (assetBind : Option AssetBind)
    (history : List Event) :
    ∃ result events, w.createAsset cfg assetId assetBind history = (result, history ++ events) ∧
      ((∃ e, boundToken cfg assetBind = none ∧ result = .error e ∧ events = [.deployed assetId (.error e)]) ∨
      ∃ tokenAddress rest, Associated cfg assetId assetBind tokenAddress result rest ∧
        ((boundToken cfg assetBind = some tokenAddress ∧ events = rest) ∨
          boundToken cfg assetBind = none ∧ events = .deployed assetId (.ok tokenAddress) :: rest)) := by
  have hends : Ensures (w.createAsset cfg assetId assetBind) fun result events =>
      (∃ e, boundToken cfg assetBind = none ∧ result = .error e ∧ events = [.deployed assetId (.error e)]) ∨
      ∃ tokenAddress rest, Associated cfg assetId assetBind tokenAddress result rest ∧
        ((boundToken cfg assetBind = some tokenAddress ∧ events = rest) ∨
          boundToken cfg assetBind = none ∧ events = .deployed assetId (.ok tokenAddress) :: rest) := by
    refine Ensures.bind (ensures_tokenFor w assetId (boundToken cfg assetBind)) ?_ ?_
    · rintro e events (⟨tokenAddress, -, hr, -⟩ | ⟨hbound, rfl⟩)
      · cases hr
      · exact .inl ⟨e, hbound, rfl, rfl⟩
    · rintro tokenAddress events htoken
      refine (ensures_associateToken w cfg assetId assetBind tokenAddress).mono fun result rest h =>
        .inr ⟨tokenAddress, rest, h, ?_⟩
      rcases htoken with ⟨bound, hbound, hr, rfl⟩ | ⟨hbound, rfl⟩
      · cases hr
        exact .inl ⟨hbound, rfl⟩
      · exact .inr ⟨hbound, rfl⟩
  obtain ⟨events, hlog, hq⟩ := hends history
  exact ⟨_, events, Prod.ext rfl hlog, hq⟩

end FinP2PAdapter.OnChain.ServiceRuns
