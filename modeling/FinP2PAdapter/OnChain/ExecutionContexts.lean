import FinP2PAdapter.Accounts.AccountResolver
import FinP2PAdapter.Library.JsMap
import FinP2PAdapter.Library.JsText
import FinP2PAdapter.Library.Machine
import FinP2PAdapter.OnChain.TokenService

/-! The execution contexts of the on-chain service's receipts. The chain keeps none, so the service
stores the context of each submission by its transaction's hash, and reinstates it both in the receipt
it answers with and in those that are fetched later. -/

namespace FinP2PAdapter.OnChain.ExecutionContexts

open Accounts (truthy)

/-- Trade details; what they hold besides the context is passed on as it is. -/
structure TradeDetails where
  executionContext : Option ExecutionContext
  others : List (String × String)
  deriving DecidableEq, Repr

/-- A receipt's party, with the ledger address of its account. -/
structure Party where
  finId : String
  account : Option String
  deriving DecidableEq, Repr

structure Receipt where
  id : String
  asset : Asset
  source : Option Party
  destination : Option Party
  tradeDetails : Option TradeDetails
  deriving DecidableEq, Repr

inductive ReceiptOperation where
  | success (receipt : Receipt)
  | failure (code : ℕ) (message : String)
  | pending (correlationId : String)
  deriving DecidableEq, Repr

def mapAccount (acc : Option Party) : Option Party :=
  match acc with
  | none => none
  | some party => if party.finId = "" then none else some ⟨party.finId, truthy party.account⟩

def hasRealPlan (ctx : Option ExecutionContext) : Bool :=
  match ctx with
  | none => false
  | some ctx => JsText.trim ctx.planId ≠ ""

def mapReceiptOperation (op : ReceiptOperation) (asset : Option Asset) (executionContext : Option ExecutionContext) :
    ReceiptOperation :=
  match op with
  | .success receipt =>
    let rawExCtx := receipt.tradeDetails.bind (·.executionContext)
    let resolvedExCtx :=
      if hasRealPlan executionContext then executionContext
      else if hasRealPlan rawExCtx then rawExCtx
      else none
    let tradeDetails :=
      match receipt.tradeDetails with
      | some rawTradeDetails => some { rawTradeDetails with executionContext := resolvedExCtx }
      | none => resolvedExCtx.map fun executionContext => ⟨some executionContext, []⟩
    .success
      { receipt with
        asset := asset.getD receipt.asset
        source := mapAccount receipt.source
        destination := mapAccount receipt.destination
        tradeDetails }
  | op => op

/-! ### The operator contract and the service -/

inductive ContractRequest where
  | issue (issuerFinId assetId assetType quantity : String)
  | call (call : ContractCall)
  | releaseAndRedeem (operationId finId quantity : String)
  | releaseTo (operationId sourceFinId destinationFinId quantity : String)
  | releaseBack (operationId : String)
  deriving DecidableEq, Repr

inductive ContractError where
  | ethereumTransaction (message : String)
  | other (text : String)
  deriving DecidableEq, Repr

def ContractError.message : ContractError → String
  | .ethereumTransaction message => message
  | .other text => text

inductive OperationStatus where
  | receipt (op : ReceiptOperation)
  | other (operation : String)
  deriving DecidableEq, Repr

/-- The answers the contract's client gives while one call is served; a request that is sent is
answered with its transaction's hash, and a credential the service knows already is not asked for. -/
structure Contract where
  getCredentialAddress : String → Except ContractError Unit
  send : ContractRequest → Except ContractError String
  getReceiptFromTransactionReceipt : String → Except ContractError ReceiptOperation
  getReceipt : String → Except ContractError ReceiptOperation
  getOperationStatus : String → Except ContractError OperationStatus

structure Service where
  execDetailsStore : Option (JsMap String ExecutionContext)

/-- The service as it is configured. -/
def configured : Service := ⟨some JsMap.empty⟩

def Service.getExecutionContext (service : Service) (txHash : String) : Option ExecutionContext :=
  service.execDetailsStore.bind (·.get? txHash)

/-- The context of a submission is stored if there is one. -/
def Service.addExecutionContext (service : Service) (txHash : String) (exCtx : Option ExecutionContext) : Service :=
  match exCtx with
  | none => service
  | some exCtx =>
    { service with execDetailsStore := service.execDetailsStore.map (·.set txHash ⟨exCtx.planId, exCtx.sequence⟩) }

/-- What an operation puts to the contract: the credentials it needs, and its request. -/
structure Submission where
  finIds : List String
  request : ContractRequest
  asset : Asset
  exCtx : Option ExecutionContext
  deriving DecidableEq, Repr

/-- What an operation comes to before the contract is asked. -/
inductive Prepared where
  | submits (submission : Submission)
  | answers (op : ReceiptOperation)
  | throws (e : ServiceError)
  deriving DecidableEq, Repr

section Operations

variable (pkg : Orchestrator)

def issue (asset : Asset) (destination : Destination) (quantity : String) (exCtx : Option ExecutionContext) :
    Prepared :=
  .submits ⟨[destination.finId], .issue destination.finId asset.assetId asset.assetType quantity, asset, exCtx⟩

/-- The part `transfer` and `hold` share. -/
def submitSigned (method : ContractMethod) (operationId : Option String) (nonce : String) (source : Source)
    (destination : Option Destination) (ast : Asset) (quantity : String) (sgn : Signature)
    (exCtx : Option ExecutionContext) : Prepared :=
  let prepared := do
    let details ← extractBusinessDetails pkg ast (some source) destination operationId sgn.template exCtx
    validateRequest source destination quantity details
    return details
  match prepared with
  | .error e => .throws e
  | .ok details =>
    .submits ⟨[details.sellerFinId, details.buyerFinId],
      .call ⟨method, nonce, details.sellerFinId, details.buyerFinId, details.asset, details.settlement,
        details.loan, details.params, sgn.signature⟩, ast, exCtx⟩

def transfer (nonce : String) (source : Source) (destination : Destination) (ast : Asset) (quantity : String)
    (signature : Signature) (exCtx : Option ExecutionContext) : Prepared :=
  submitSigned pkg .transfer none nonce source (some destination) ast quantity signature exCtx

def hold (nonce : String) (source : Source) (destination : Option Destination) (ast : Asset) (quantity : String)
    (sgn : Signature) (operationId : String) (exCtx : Option ExecutionContext) : Prepared :=
  submitSigned pkg .hold (some operationId) nonce source destination ast quantity sgn exCtx

def redeem (source : Source) (asset : Asset) (quantity : String) (operationId : Option String)
    (exCtx : Option ExecutionContext) : Prepared :=
  match truthy operationId with
  | none => .answers (.failure 1 "operationId is required")
  | some operationId =>
    .submits ⟨[source.finId], .releaseAndRedeem operationId source.finId quantity, asset, exCtx⟩

def release (source : Source) (destination : Destination) (asset : Asset) (quantity operationId : String)
    (exCtx : Option ExecutionContext) : Prepared :=
  .submits ⟨[source.finId, destination.finId],
    .releaseTo operationId source.finId destination.finId quantity, asset, exCtx⟩

def rollback (source : Source) (asset : Asset) (operationId : String) (exCtx : Option ExecutionContext) : Prepared :=
  .submits ⟨[source.finId], .releaseBack operationId, asset, exCtx⟩

/-- An operation as it is asked for. -/
inductive Operation where
  | issue (asset : Asset) (destination : Destination) (quantity : String) (exCtx : Option ExecutionContext)
  | transfer (nonce : String) (source : Source) (destination : Destination) (ast : Asset) (quantity : String)
      (signature : Signature) (exCtx : Option ExecutionContext)
  | redeem (source : Source) (asset : Asset) (quantity : String) (operationId : Option String)
      (exCtx : Option ExecutionContext)
  | hold (nonce : String) (source : Source) (destination : Option Destination) (ast : Asset) (quantity : String)
      (sgn : Signature) (operationId : String) (exCtx : Option ExecutionContext)
  | release (source : Source) (destination : Destination) (asset : Asset) (quantity operationId : String)
      (exCtx : Option ExecutionContext)
  | rollback (source : Source) (asset : Asset) (operationId : String) (exCtx : Option ExecutionContext)
  deriving DecidableEq, Repr

def prepare : Operation → Prepared
  | .issue asset destination quantity exCtx => issue asset destination quantity exCtx
  | .transfer nonce source destination ast quantity signature exCtx =>
    transfer pkg nonce source destination ast quantity signature exCtx
  | .redeem source asset quantity operationId exCtx => redeem source asset quantity operationId exCtx
  | .hold nonce source destination ast quantity sgn operationId exCtx =>
    hold pkg nonce source destination ast quantity sgn operationId exCtx
  | .release source destination asset quantity operationId exCtx =>
    release source destination asset quantity operationId exCtx
  | .rollback source asset operationId exCtx => rollback source asset operationId exCtx

end Operations

/-- The hash of the transaction a submission is sent with. -/
def sent (contract : Contract) (submission : Submission) : Except ContractError String := do
  submission.finIds.forM contract.getCredentialAddress
  contract.send submission.request

/-- The `try` of each operation. -/
def execute (contract : Contract) (submission : Submission) (service : Service) : ReceiptOperation × Service :=
  match sent contract submission with
  | .error e => (.failure 1 e.message, service)
  | .ok txHash =>
    let service := service.addExecutionContext txHash submission.exCtx
    match contract.getReceiptFromTransactionReceipt txHash with
    | .error e => (.failure 1 e.message, service)
    | .ok op => (mapReceiptOperation op (some submission.asset) submission.exCtx, service)

def getReceipt (contract : Contract) (service : Service) (id : String) : Except ContractError ReceiptOperation := do
  let op ← contract.getReceipt id
  return mapReceiptOperation op none (service.getExecutionContext id)

def operationStatus (contract : Contract) (service : Service) (cid : String) :
    Except ContractError OperationStatus := do
  let op ← contract.getOperationStatus cid
  match op with
  | .receipt op => return .receipt (mapReceiptOperation op none (service.getExecutionContext cid))
  | op => return op

/-! ### Runs -/

inductive Call where
  | operation (operation : Operation)
  | getReceipt (id : String)
  | operationStatus (cid : String)
  deriving DecidableEq, Repr

/-- An answer that the service has given, with what it was given to. -/
inductive Event where
  | submitted (txHash : String) (exCtx : Option ExecutionContext) (op : ReceiptOperation)
  | fetched (id : String) (op : ReceiptOperation)
  | asked (cid : String) (op : ReceiptOperation)
  deriving DecidableEq, Repr

def Event.op : Event → ReceiptOperation
  | .submitted _ _ op | .fetched _ op | .asked _ op => op

structure State where
  service : Service
  history : List Event

/-- A call without a transaction and without a receipt leaves nothing. An operation is one step, at the
time its transaction is there. -/
def step (pkg : Orchestrator) (s : State) (contract : Contract) : Call → State
  | .operation operation =>
    match prepare pkg operation with
    | .submits submission =>
      match sent contract submission with
      | .error _ => s
      | .ok txHash =>
        let (op, service) := execute contract submission s.service
        ⟨service, s.history ++ [.submitted txHash submission.exCtx op]⟩
    | _ => s
  | .getReceipt id =>
    match getReceipt contract s.service id with
    | .error _ => s
    | .ok op => { s with history := s.history ++ [.fetched id op] }
  | .operationStatus cid =>
    match operationStatus contract s.service cid with
    | .ok (.receipt op) => { s with history := s.history ++ [.asked cid op] }
    | _ => s

/-- What the chain is relied on for: a transaction has a hash of its own, and what is parsed from the
chain has no context of a plan. -/
structure Faithful (pkg : Orchestrator) (s : State) (contract : Contract) (call : Call) : Prop where
  fresh : ∀ operation submission txHash, call = .operation operation →
    prepare pkg operation = .submits submission → sent contract submission = .ok txHash →
      ∀ exCtx op, .submitted txHash exCtx op ∉ s.history
  submitted : ∀ txHash receipt, contract.getReceiptFromTransactionReceipt txHash = .ok (.success receipt) →
    hasRealPlan (receipt.tradeDetails.bind (·.executionContext)) = false
  fetched : ∀ id receipt, contract.getReceipt id = .ok (.success receipt) →
    hasRealPlan (receipt.tradeDetails.bind (·.executionContext)) = false

abbrev Reached (pkg : Orchestrator) : State → Prop :=
  Machine.Runs (fun s (c : Contract × Call) s' => s' = step pkg s c.1 c.2) (fun s c => Faithful pkg s c.1 c.2)
    ⟨configured, []⟩

/-! ### Receipts -/

def Receipt.executionContext (receipt : Receipt) : Option ExecutionContext :=
  receipt.tradeDetails.bind (·.executionContext)

/-- A context, if it is one of a plan. -/
def realOf (exCtx : Option ExecutionContext) : Option ExecutionContext := if hasRealPlan exCtx then exCtx else none

theorem realOf_eq_some {exCtx : Option ExecutionContext} {ctx : ExecutionContext} (h : realOf exCtx = some ctx) :
    JsText.trim ctx.planId ≠ "" := by
  unfold realOf at h
  split_ifs at h with hreal
  subst h
  exact of_decide_eq_true hreal

theorem mapReceiptOperation_eq_success {op : ReceiptOperation} {mapped : Receipt} {asset : Option Asset}
    {exCtx : Option ExecutionContext} (h : mapReceiptOperation op asset exCtx = .success mapped) :
    ∃ receipt, op = .success receipt ∧
      mapped.executionContext = (realOf exCtx).or (realOf receipt.executionContext) := by
  cases op with
  | failure code message => cases h
  | pending correlationId => cases h
  | success receipt =>
    refine ⟨receipt, rfl, ?_⟩
    cases h
    unfold Receipt.executionContext realOf
    cases receipt.tradeDetails with
    | none =>
      dsimp only [Option.bind_none]
      split_ifs <;> cases exCtx <;> rfl
    | some rawTradeDetails =>
      dsimp only [Option.bind_some]
      by_cases hreal : hasRealPlan exCtx = true
      · rw [if_pos hreal, if_pos hreal]
        cases exCtx with
        | none => cases hreal
        | some exCtx => rfl
      · rw [if_neg hreal, if_neg hreal, Option.none_or]

/-- A mapped receipt has no context without a plan. -/
theorem mapped_real {op : ReceiptOperation} {mapped : Receipt} {asset : Option Asset}
    {exCtx : Option ExecutionContext} (h : mapReceiptOperation op asset exCtx = .success mapped)
    {ctx : ExecutionContext} (hctx : mapped.executionContext = some ctx) : JsText.trim ctx.planId ≠ "" := by
  obtain ⟨receipt, -, hmapped⟩ := mapReceiptOperation_eq_success h
  rw [hmapped] at hctx
  rcases Option.or_eq_some_iff.mp hctx with hgiven | ⟨-, hparsed⟩
  · exact realOf_eq_some hgiven
  · exact realOf_eq_some hparsed

/-- From a receipt that was parsed without a plan, the context is the one given. -/
theorem mapped_context {op : ReceiptOperation} {mapped : Receipt} {asset : Option Asset}
    {exCtx : Option ExecutionContext} (h : mapReceiptOperation op asset exCtx = .success mapped)
    (hparsed : ∀ receipt, op = .success receipt → hasRealPlan receipt.executionContext = false) :
    mapped.executionContext = realOf exCtx := by
  obtain ⟨receipt, hop, hmapped⟩ := mapReceiptOperation_eq_success h
  have hnone : realOf receipt.executionContext = none := if_neg (by simp [hparsed receipt hop])
  rw [hmapped, hnone, Option.or_none]

/-! ### The store -/

variable {service : Service} {txHash id : String} {exCtx : Option ExecutionContext}

theorem getExecutionContext_add_self (exCtx : Option ExecutionContext) (hstore : service.execDetailsStore ≠ none)
    (hnone : service.getExecutionContext txHash = none) :
    (service.addExecutionContext txHash exCtx).getExecutionContext txHash = exCtx := by
  cases exCtx with
  | none => exact hnone
  | some ctx =>
    obtain ⟨store, hsome⟩ := Option.ne_none_iff_exists'.mp hstore
    unfold Service.addExecutionContext Service.getExecutionContext
    dsimp only
    rw [hsome, Option.map_some, Option.bind_some, JsMap.get?_set_self]

theorem getExecutionContext_add_of_ne (hne : id ≠ txHash) :
    (service.addExecutionContext txHash exCtx).getExecutionContext id = service.getExecutionContext id := by
  cases exCtx with
  | none => rfl
  | some ctx =>
    unfold Service.addExecutionContext Service.getExecutionContext
    dsimp only
    cases service.execDetailsStore with
    | none => rfl
    | some store => rw [Option.map_some, Option.bind_some, Option.bind_some, JsMap.get?_set_of_ne _ _ hne]

theorem execDetailsStore_add (hstore : service.execDetailsStore ≠ none) :
    (service.addExecutionContext txHash exCtx).execDetailsStore ≠ none := by
  cases exCtx with
  | none => exact hstore
  | some ctx =>
    unfold Service.addExecutionContext
    simpa using hstore

theorem execute_snd (service : Service) {contract : Contract} {submission : Submission}
    (hsent : sent contract submission = .ok txHash) :
    (execute contract submission service).2 = service.addExecutionContext txHash submission.exCtx := by
  unfold execute
  rw [hsent]
  dsimp only
  cases contract.getReceiptFromTransactionReceipt txHash <;> rfl

/-- A receipt that an operation answers with is the one parsed from its transaction, mapped. -/
theorem execute_success {contract : Contract} {submission : Submission} {receipt : Receipt}
    (hsent : sent contract submission = .ok txHash) (h : (execute contract submission service).1 = .success receipt) :
    ∃ op, contract.getReceiptFromTransactionReceipt txHash = .ok op ∧
      mapReceiptOperation op (some submission.asset) submission.exCtx = .success receipt := by
  unfold execute at h
  rw [hsent] at h
  dsimp only at h
  cases hreceipt : contract.getReceiptFromTransactionReceipt txHash with
  | error e =>
    rw [hreceipt] at h
    cases h
  | ok op =>
    rw [hreceipt] at h
    exact ⟨op, rfl, h⟩

/-! ### What holds on every run -/

/-- A later fetch by a submission's hash gives the submission's context, if it is one of a plan. -/
def Agrees (e later : Event) : Prop :=
  ∀ txHash exCtx op fetched, e = .submitted txHash exCtx op → later = .fetched txHash (.success fetched) →
    fetched.executionContext = realOf exCtx

structure Inv (s : State) : Prop where
  present : s.service.execDetailsStore ≠ none
  stored : ∀ txHash exCtx op, .submitted txHash exCtx op ∈ s.history →
    s.service.getExecutionContext txHash = exCtx
  known : ∀ txHash ctx, s.service.getExecutionContext txHash = some ctx →
    ∃ exCtx op, .submitted txHash exCtx op ∈ s.history
  carried : ∀ txHash exCtx receipt, .submitted txHash exCtx (.success receipt) ∈ s.history →
    receipt.executionContext = realOf exCtx
  real : ∀ e ∈ s.history, ∀ receipt, e.op = .success receipt → ∀ ctx, receipt.executionContext = some ctx →
    JsText.trim ctx.planId ≠ ""
  agrees : s.history.Pairwise Agrees

theorem inv_init : Inv ⟨configured, []⟩ where
  present := Option.some_ne_none _
  stored _ _ _ h := absurd h List.not_mem_nil
  known _ _ h := absurd h (Option.some_ne_none _).symm
  carried _ _ _ h := absurd h List.not_mem_nil
  real _ h := absurd h List.not_mem_nil
  agrees := .nil

/-- An event that is no submission, and agrees with those before it, keeps the invariant. -/
theorem Inv.answered {s : State} (h : Inv s) {e : Event} (he : ∀ txHash exCtx op, e ≠ .submitted txHash exCtx op)
    (hreal : ∀ receipt, e.op = .success receipt → ∀ ctx, receipt.executionContext = some ctx →
      JsText.trim ctx.planId ≠ "")
    (hagrees : ∀ earlier ∈ s.history, Agrees earlier e) : Inv { s with history := s.history ++ [e] } := by
  have hmem : ∀ txHash exCtx op, Event.submitted txHash exCtx op ∈ s.history ++ [e] →
      Event.submitted txHash exCtx op ∈ s.history := by
    intro txHash exCtx op hin
    rcases List.mem_append.mp hin with hin | hin
    · exact hin
    · exact absurd (List.mem_singleton.mp hin).symm (he txHash exCtx op)
  refine ⟨h.present, fun txHash exCtx op hin => h.stored txHash exCtx op (hmem _ _ _ hin),
    fun txHash ctx hctx => ?_,
    fun txHash exCtx receipt hin => h.carried txHash exCtx receipt (hmem _ _ _ hin), ?_, ?_⟩
  · obtain ⟨exCtx, op, hin⟩ := h.known txHash ctx hctx
    exact ⟨exCtx, op, List.mem_append_left _ hin⟩
  · intro e' he' receipt hop
    rcases List.mem_append.mp he' with hin | hin
    · exact h.real e' hin receipt hop
    · rw [List.mem_singleton.mp hin] at hop
      exact hreal receipt hop
  · refine List.pairwise_append.mpr ⟨h.agrees, List.pairwise_singleton _ _, fun earlier hin later hlater => ?_⟩
    rw [List.mem_singleton.mp hlater]
    exact hagrees earlier hin

/-- A submission with a hash of its own keeps the invariant. -/
theorem Inv.submitted {s : State} (h : Inv s) {contract : Contract} {submission : Submission}
    (hsent : sent contract submission = .ok txHash) (hfresh : ∀ exCtx op, .submitted txHash exCtx op ∉ s.history)
    (hparsed : ∀ receipt, contract.getReceiptFromTransactionReceipt txHash = .ok (.success receipt) →
      hasRealPlan receipt.executionContext = false) :
    Inv ⟨(execute contract submission s.service).2,
      s.history ++ [.submitted txHash submission.exCtx (execute contract submission s.service).1]⟩ := by
  have hnone : s.service.getExecutionContext txHash = none := by
    refine Option.eq_none_iff_forall_ne_some.mpr fun ctx hctx => ?_
    obtain ⟨exCtx, op, hin⟩ := h.known txHash ctx hctx
    exact hfresh exCtx op hin
  have hservice := execute_snd s.service hsent
  have hself := getExecutionContext_add_self submission.exCtx h.present hnone
  refine ⟨?_, ?_, ?_, ?_, ?_, ?_⟩
  · show (execute contract submission s.service).2.execDetailsStore ≠ none
    rw [hservice]
    exact execDetailsStore_add h.present
  · intro hash exCtx op hin
    show (execute contract submission s.service).2.getExecutionContext hash = exCtx
    rw [hservice]
    rcases List.mem_append.mp hin with hbefore | hnow
    · have hne : hash ≠ txHash := by
        rintro rfl
        exact hfresh exCtx op hbefore
      rw [getExecutionContext_add_of_ne hne]
      exact h.stored hash exCtx op hbefore
    · cases List.mem_singleton.mp hnow
      exact hself
  · intro hash ctx hctx
    by_cases hash_eq : hash = txHash
    · subst hash_eq
      exact ⟨_, _, List.mem_append_right _ List.mem_cons_self⟩
    · change (execute contract submission s.service).2.getExecutionContext hash = some ctx at hctx
      rw [hservice, getExecutionContext_add_of_ne hash_eq] at hctx
      obtain ⟨exCtx, op, hin⟩ := h.known hash ctx hctx
      exact ⟨exCtx, op, List.mem_append_left _ hin⟩
  · intro hash exCtx receipt hin
    rcases List.mem_append.mp hin with hin | hin
    · exact h.carried hash exCtx receipt hin
    · have heq := List.mem_singleton.mp hin
      injection heq with hhash hctx hop
      subst hhash hctx
      obtain ⟨op, hreceipt, hmapped⟩ := execute_success hsent hop.symm
      exact mapped_context hmapped fun receipt hsuccess => hparsed receipt (by rw [hreceipt, hsuccess])
  · intro e he receipt hop ctx hctx
    rcases List.mem_append.mp he with hin | hin
    · exact h.real e hin receipt hop ctx hctx
    · rw [List.mem_singleton.mp hin] at hop
      obtain ⟨op, -, hmapped⟩ := execute_success hsent hop
      exact mapped_real hmapped hctx
  · refine List.pairwise_append.mpr ⟨h.agrees, List.pairwise_singleton _ _, fun earlier hin later hlater => ?_⟩
    rw [List.mem_singleton.mp hlater]
    intro hash exCtx op fetched _ hfetched
    cases hfetched

variable {pkg : Orchestrator}

theorem inv_step {s : State} (h : Inv s) {contract : Contract} {call : Call}
    (hfaithful : Faithful pkg s contract call) : Inv (step pkg s contract call) := by
  cases call with
  | operation operation =>
    cases hprepare : prepare pkg operation with
    | answers op =>
      simp only [step, hprepare]
      exact h
    | throws e =>
      simp only [step, hprepare]
      exact h
    | submits submission =>
      cases hsent : sent contract submission with
      | error e =>
        simp only [step, hprepare, hsent]
        exact h
      | ok txHash =>
        simp only [step, hprepare, hsent]
        exact h.submitted hsent (hfaithful.fresh operation submission txHash rfl hprepare hsent)
          (hfaithful.submitted txHash)
  | getReceipt id =>
    cases hget : getReceipt contract s.service id with
    | error e =>
      simp only [step, hget]
      exact h
    | ok op =>
      simp only [step, hget]
      obtain ⟨parsed, hparsed, hop⟩ := Throws.bind_eq_ok.mp hget
      have hmapped : mapReceiptOperation parsed none (s.service.getExecutionContext id) = op := Except.ok.inj hop
      refine h.answered (fun _ _ _ he => by cases he)
        (fun receipt hsuccess ctx hctx => mapped_real (hmapped.trans hsuccess) hctx) ?_
      intro earlier hin hash exCtx submitted fetched hsubmitted hfetched
      injection hfetched with hid hsuccess
      subst hid hsubmitted
      rw [← h.stored id exCtx submitted hin]
      exact mapped_context (hmapped.trans hsuccess) fun receipt hreceipt =>
        hfaithful.fetched id receipt (by rw [hparsed, hreceipt])
  | operationStatus cid =>
    cases hstatus : operationStatus contract s.service cid with
    | error e =>
      simp only [step, hstatus]
      exact h
    | ok status =>
      cases status with
      | other operation =>
        simp only [step, hstatus]
        exact h
      | receipt op =>
        simp only [step, hstatus]
        obtain ⟨answered, -, hop⟩ := Throws.bind_eq_ok.mp hstatus
        cases answered with
        | other operation => cases hop
        | receipt parsed =>
          have hmapped : mapReceiptOperation parsed none (s.service.getExecutionContext cid) = op :=
            OperationStatus.receipt.inj (Except.ok.inj hop)
          refine h.answered (fun _ _ _ he => by cases he)
            (fun receipt hsuccess ctx hctx => mapped_real (hmapped.trans hsuccess) hctx) ?_
          intro earlier hin hash exCtx submitted fetched hsubmitted hfetched
          cases hfetched

theorem inv_of_reached {s : State} (h : Reached pkg s) : Inv s := by
  refine h.invariant inv_init fun u call u' hu hfaithful hstep => ?_
  subst hstep
  exact inv_step hu hfaithful

/-- On every run of operations and later calls, in any order: a receipt that is fetched for a
transaction's hash has the context of the receipt its operation answered with; no receipt has a context
without a plan; and a context of a plan that an operation was given is that of its receipt, and of every
receipt fetched for its transaction's hash later. -/
theorem receipts_keep_contexts {s : State} (h : Reached pkg s) :
    (s.history.Pairwise fun e later => ∀ txHash exCtx answered fetched,
      e = .submitted txHash exCtx (.success answered) → later = .fetched txHash (.success fetched) →
        fetched.executionContext = answered.executionContext) ∧
    (∀ e ∈ s.history, ∀ receipt, e.op = .success receipt → ∀ ctx, receipt.executionContext = some ctx →
      JsText.trim ctx.planId ≠ "") ∧
    ∀ ctx : ExecutionContext, JsText.trim ctx.planId ≠ "" →
      (∀ txHash answered, .submitted txHash (some ctx) (.success answered) ∈ s.history →
        answered.executionContext = some ctx) ∧
      s.history.Pairwise fun e later => ∀ txHash op fetched, e = .submitted txHash (some ctx) op →
        later = .fetched txHash (.success fetched) → fetched.executionContext = some ctx := by
  have hinv := inv_of_reached h
  refine ⟨?_, hinv.real, fun ctx hplan => ⟨fun txHash answered hin => ?_, ?_⟩⟩
  · refine hinv.agrees.imp_of_mem fun he _ hagrees txHash exCtx answered fetched hsubmitted hfetched => ?_
    subst hsubmitted
    rw [hagrees txHash exCtx _ fetched rfl hfetched, hinv.carried txHash exCtx answered he]
  · rw [hinv.carried txHash (some ctx) answered hin]
    exact if_pos (decide_eq_true hplan)
  · refine hinv.agrees.imp fun hagrees txHash op fetched hsubmitted hfetched => ?_
    rw [hagrees txHash (some ctx) op fetched hsubmitted hfetched]
    exact if_pos (decide_eq_true hplan)

/-! ### Two issues and a fetch -/

/-- A chain on which the next transaction has this hash. -/
def chain (txHash : String) : Contract :=
  let receiptOf := fun id => ReceiptOperation.success ⟨id, ⟨"bond", "finp2p"⟩, none, none, some ⟨some ⟨"", 0⟩, []⟩⟩
  ⟨fun _ => .ok (), fun _ => .ok txHash, fun id => .ok (receiptOf id), fun id => .ok (receiptOf id),
    fun id => .ok (.receipt (receiptOf id))⟩

def planned : Operation := .issue ⟨"bond", "finp2p"⟩ ⟨"alice", none⟩ "10" (some ⟨"plan-1", 3⟩)

def unplanned : Operation := .issue ⟨"bond", "finp2p"⟩ ⟨"bob", none⟩ "10" none

def afterPlanned : State := step plainOrchestrator ⟨configured, []⟩ (chain "0xt1") (.operation planned)

def afterUnplanned : State := step plainOrchestrator afterPlanned (chain "0xt2") (.operation unplanned)

def afterFetch : State := step plainOrchestrator afterUnplanned (chain "0xt3") (.getReceipt "0xt1")

theorem getReceipt_ne_operation {id : String} {operation : Operation} :
    Call.getReceipt id ≠ .operation operation := by
  intro h
  cases h

theorem chain_parses (txHash : String) :
    (∀ id receipt, (chain txHash).getReceiptFromTransactionReceipt id = .ok (.success receipt) →
      hasRealPlan (receipt.tradeDetails.bind (·.executionContext)) = false) ∧
    ∀ id receipt, (chain txHash).getReceipt id = .ok (.success receipt) →
      hasRealPlan (receipt.tradeDetails.bind (·.executionContext)) = false := by
  have hblank : hasRealPlan (some ⟨"", 0⟩) = false := by decide
  refine ⟨fun id receipt h => ?_, fun id receipt h => ?_⟩
  · cases h
    exact hblank
  · cases h
    exact hblank

theorem history_afterPlanned : afterPlanned.history =
    [.submitted "0xt1" (some ⟨"plan-1", 3⟩) (execute (chain "0xt1")
      ⟨["alice"], .issue "alice" "bond" "finp2p" "10", ⟨"bond", "finp2p"⟩, some ⟨"plan-1", 3⟩⟩ configured).1] := rfl

theorem reached_afterFetch : Reached plainOrchestrator afterFetch := by
  have hfirst : Reached plainOrchestrator afterPlanned := by
    refine .tail (a := (chain "0xt1", .operation planned)) .start ?_ rfl
    exact ⟨fun _ _ _ _ _ _ _ _ => List.not_mem_nil, (chain_parses _).1, (chain_parses _).2⟩
  have hsecond : Reached plainOrchestrator afterUnplanned := by
    refine .tail (a := (chain "0xt2", .operation unplanned)) hfirst ?_ rfl
    refine ⟨fun operation submission txHash _ _ hsent exCtx op hin => ?_, (chain_parses _).1, (chain_parses _).2⟩
    have hhash : txHash = "0xt2" := by
      obtain ⟨_, -, hsend⟩ := Throws.bind_eq_ok.mp hsent
      cases hsend
      rfl
    rw [history_afterPlanned, List.mem_singleton, hhash] at hin
    injection hin with hhash
    revert hhash
    decide
  refine .tail (a := (chain "0xt3", .getReceipt "0xt1")) hsecond ?_ rfl
  exact ⟨fun _ _ _ h => absurd h getReceipt_ne_operation, (chain_parses _).1, (chain_parses _).2⟩

theorem fetched_mem : ∃ fetched, .fetched "0xt1" (.success fetched) ∈ afterFetch.history := by
  obtain ⟨mapped, hmapped⟩ : ∃ mapped, mapReceiptOperation
      (.success ⟨"0xt1", ⟨"bond", "finp2p"⟩, none, none, some ⟨some ⟨"", 0⟩, []⟩⟩) none
      (afterUnplanned.service.getExecutionContext "0xt1") = .success mapped := ⟨_, rfl⟩
  refine ⟨mapped, List.mem_append_right afterUnplanned.history ?_⟩
  rw [← hmapped]
  exact List.mem_cons_self

/-- The receipt of the first issue is fetched with the plan it was issued under. -/
theorem fetched_with_plan : ∃ fetched, .fetched "0xt1" (.success fetched) ∈ afterFetch.history ∧
    fetched.executionContext = some ⟨"plan-1", 3⟩ := by
  obtain ⟨fetched, hin⟩ := fetched_mem
  refine ⟨fetched, hin, ?_⟩
  obtain ⟨-, -, hkept⟩ := receipts_keep_contexts reached_afterFetch
  obtain ⟨-, hpairs⟩ := hkept ⟨"plan-1", 3⟩ (by decide)
  change List.Pairwise _ (_ :: _) at hpairs
  change _ ∈ _ :: _ at hin
  rcases List.mem_cons.mp hin with hfirst | hlater
  · cases hfirst
  · exact (List.pairwise_cons.mp hpairs).1 _ hlater "0xt1" _ fetched rfl rfl

end FinP2PAdapter.OnChain.ExecutionContexts
