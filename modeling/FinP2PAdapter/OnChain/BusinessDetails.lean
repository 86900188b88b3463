import FinP2PAdapter.Library.Throws
import FinP2PAdapter.Skeleton.Types

/-! What the on-chain path reads off a signed EIP-712 template: the leg the
request's asset stands on, the two parties, the terms and the operation
parameters sent to the operator contract, and the check of the request against
them. The conversions of the orchestrator package are parameters. -/

namespace FinP2PAdapter.OnChain

open Throws

/-- A term as the operator contract reads it. -/
structure Term where
  assetId : String
  assetType : ℕ
  amount : String
  deriving DecidableEq, Repr

/-- An EIP-712 term with its asset type filled in. -/
structure ContractTerm where
  assetId : String
  assetType : String
  amount : String
  deriving DecidableEq, Repr

/-- The operation parameters of the operator contract. -/
structure OperationParams where
  leg : LegType
  eip712PrimaryType : PrimaryType
  phase : Phase
  operationId : Option String
  releaseType : ReleaseType
  deriving DecidableEq, Repr

structure BusinessContract where
  buyerFinId : String
  sellerFinId : String
  asset : Term
  settlement : Term
  loan : Option EIP712LoanTerms
  params : OperationParams
  deriving DecidableEq, Repr

/-- The orchestrator package's conversions. -/
structure Orchestrator where
  termFromEIP712 : ContractTerm → Except ServiceError Term
  emptyTerm : Term
  emptyLoanTerms : EIP712LoanTerms

/-! ### The leg of a request -/

def toContractTerm (t : EIP712Term) : ContractTerm :=
  ⟨t.assetId, t.assetType.getD "finp2p", t.amount⟩

def compareAssets (asset : Asset) (eipAsset : EIP712Term) : Bool :=
  let eipAssetType := eipAsset.assetType.getD "finp2p"
  -- well-known currency symbols match across asset types
  if eipAssetType ∈ ["fiat", "cryptocurrency"] ∧ eipAsset.assetId ∈ ["USD", "USDC"] ∧
      asset.assetType ∈ ["fiat", "cryptocurrency", "finp2p"] ∧ asset.assetId ∈ ["USD", "USDC"] then
    true
  else
    eipAsset.assetId = asset.assetId ∧ eipAssetType = asset.assetType

/-- A message part that is absent matches nothing. -/
def matchesTerm (asset : Asset) : Option EIP712Term → Bool
  | none => false
  | some t => compareAssets asset t

def detectLeg (asset : Asset) : SignatureTemplate → Except ServiceError LegType
  | .hashList => .error (.validation "Unsupported signature template type: hashList")
  | .eip712 template =>
    if matchesTerm asset template.message.asset then .ok .asset
    else if matchesTerm asset template.message.settlement then .ok .settlement
    else .error (.validation "Asset not found in EIP712 message")

def eip712PrimaryTypeFromTemplate (template : EIP712Template) : Except ServiceError PrimaryType :=
  match template.primaryType with
  | .primarySale => .ok .primarySale
  | .buying => .ok .buying
  | .selling => .ok .selling
  | .redemption => .ok .redemption
  | .privateOffer => .ok .privateOffer
  | .loan => .ok .loan
  | .transfer => .ok .transfer
  | .move => .ok .move
  | .other name => .error (.validation s!"Unsupported EIP712 primary type: {name}")

/-! ### The business details -/

/-- Destructuring `{ idkey }` of an absent party is a type error. -/
def idkey : Option EIP712Party → Except ServiceError String
  | none => .error .typeError
  | some p => .ok p.idkey

def contractTerm (pkg : Orchestrator) : Option EIP712Term → Except ServiceError Term
  | none => .error .typeError
  | some t => pkg.termFromEIP712 (toContractTerm t)

/-- `destination && destination.finId ? Release : Redeem`. -/
def releaseTypeTo : Option Destination → ReleaseType
  | none => .redeem
  | some d => if d.finId = "" then .redeem else .release

/-- The object every case of the switch builds, from the parts it names. -/
def businessContract (buyer seller : Option EIP712Party) (asset settlement : Except ServiceError Term)
    (loan : Option EIP712LoanTerms) (params : OperationParams) :
    Except ServiceError BusinessContract := do
  let buyerFinId ← idkey buyer
  let sellerFinId ← idkey seller
  let asset ← asset
  let settlement ← settlement
  return ⟨buyerFinId, sellerFinId, asset, settlement, loan, params⟩

/-- The phase of a loan template: a sequence past the third instruction closes. -/
def loanPhase : Option ExecutionContext → Phase
  | none => .initiate
  | some executionContext => if executionContext.sequence > 3 then .close else .initiate

def extractBusinessDetails (pkg : Orchestrator) (asset : Asset) (_source : Option Source)
    (destination : Option Destination) (operationId : Option String) (template : SignatureTemplate)
    (executionContext : Option ExecutionContext) : Except ServiceError BusinessContract :=
  match template with
  | .hashList => .error (.validation "Unsupported signature template type: hashList")
  | .eip712 t => do
    let leg ← detectLeg asset template
    let primaryType ← eip712PrimaryTypeFromTemplate t
    let m := t.message
    let term := contractTerm pkg
    let noLoan := some pkg.emptyLoanTerms
    let params (phase : Phase) (releaseType : ReleaseType) : OperationParams :=
      ⟨leg, primaryType, phase, operationId, releaseType⟩
    match t.primaryType with
    | .primarySale =>
      businessContract m.buyer m.issuer (term m.asset) (term m.settlement) noLoan
        (params .initiate .release)
    | .buying =>
      businessContract m.buyer m.seller (term m.asset) (term m.settlement) noLoan
        (params .initiate .release)
    | .selling =>
      businessContract m.buyer m.seller (term m.asset) (term m.settlement) noLoan
        (params .initiate .release)
    | .transfer =>
      businessContract m.buyer m.seller (term m.asset) (.ok pkg.emptyTerm) noLoan
        (params .initiate (releaseTypeTo destination))
    | .redemption =>
      businessContract m.issuer m.seller (term m.asset) (term m.settlement) noLoan
        (params .initiate (releaseTypeTo destination))
    | .loan =>
      businessContract m.lender m.borrower (term m.asset) (term m.settlement) m.loanTerms
        (params (loanPhase executionContext) .release)
    | .privateOffer =>
      businessContract m.buyer m.seller (term m.asset) (term m.settlement) noLoan
        (params .initiate .release)
    | .move =>
      businessContract m.destination m.source (term m.asset) (.ok pkg.emptyTerm) noLoan
        (params .initiate (releaseTypeTo destination))
    | .other name => .error (.validation s!"Unsupported signature template primary type: {name}")

theorem businessContract_params {buyer seller : Option EIP712Party}
    {asset settlement : Except ServiceError Term} {loan : Option EIP712LoanTerms}
    {params : OperationParams} {details : BusinessContract}
    (h : businessContract buyer seller asset settlement loan params = .ok details) :
    details.params = params ∧ asset = .ok details.asset := by
  simp only [businessContract, bind_eq_ok] at h
  obtain ⟨_, _, _, _, _, ha, _, _, he⟩ := h
  cases he
  exact ⟨rfl, ha⟩

/-- The phase the switch picks for a primary type. -/
def onChainPhase (t : TemplateType) (executionContext : Option ExecutionContext) : Phase :=
  match t with
  | .loan => loanPhase executionContext
  | _ => .initiate

/-- The release type the switch picks for a primary type. -/
def onChainReleaseType (t : TemplateType) (destination : Option Destination) : ReleaseType :=
  match t with
  | .transfer | .redemption | .move => releaseTypeTo destination
  | _ => .release

/-- What extraction says about the operation parameters, over all cases of its
switch, and that it read the asset term. -/
theorem extractBusinessDetails_spec {pkg : Orchestrator} {asset : Asset} {source : Option Source}
    {destination : Option Destination} {operationId : Option String} {template : SignatureTemplate}
    {executionContext : Option ExecutionContext} {details : BusinessContract}
    (h : extractBusinessDetails pkg asset source destination operationId template executionContext =
      .ok details) :
    ∃ t leg primaryType term, template = .eip712 t ∧ detectLeg asset template = .ok leg ∧
      eip712PrimaryTypeFromTemplate t = .ok primaryType ∧ t.message.asset = some term ∧
      details.params = ⟨leg, primaryType, onChainPhase t.primaryType executionContext, operationId,
        onChainReleaseType t.primaryType destination⟩ := by
  cases template with
  | hashList => cases h
  | eip712 t =>
    simp only [extractBusinessDetails, bind_eq_ok] at h
    obtain ⟨leg, hleg, primaryType, htype, h⟩ := h
    suffices hs : ∃ params buyer seller settlement loan,
        businessContract buyer seller (contractTerm pkg t.message.asset) settlement loan params =
          .ok details ∧
        params = ⟨leg, primaryType, onChainPhase t.primaryType executionContext, operationId,
          onChainReleaseType t.primaryType destination⟩ by
      obtain ⟨params, _, _, _, _, hb, hp⟩ := hs
      obtain ⟨hd, ha⟩ := businessContract_params hb
      cases hm : t.message.asset with
      | none => simp [contractTerm, hm] at ha
      | some term => exact ⟨t, leg, primaryType, term, rfl, hleg, htype, hm, hd.trans hp⟩
    cases ht : t.primaryType with
    | other name => simp [ht] at h
    | _ =>
      simp only [ht] at h
      exact ⟨_, _, _, _, _, h, rfl⟩

/-! ### The check of a request -/

/-- The three checks of one case: the receiving party, the paying party and the
quantity, each with the name the source's message gives it. -/
def checkLeg (source : Source) (destination : Option Destination) (quantity : String)
    (receiver receiverFinId payer payerFinId amountName : String)
    (amount : Except ServiceError String) : Except ServiceError Unit := do
  throwIf (∃ d ∈ destination, receiverFinId ≠ d.finId)
    (.validation s!"{receiver} FinId in the signature does not match the destination FinId")
  throwIf (payerFinId ≠ source.finId)
    (.validation s!"{payer} FinId in the signature does not match the source FinId")
  let amount ← amount
  throwIf (quantity ≠ amount)
    (.validation s!"{amountName} in the signature does not match the requested quantity")

/-- Reading a field of absent loan terms is a type error. -/
def loanAmount (field : EIP712LoanTerms → String) : Option EIP712LoanTerms → Except ServiceError String
  | none => .error .typeError
  | some loan => .ok (field loan)

def validateRequest (source : Source) (destination : Option Destination) (quantity : String)
    (businessDetails : BusinessContract) : Except ServiceError Unit :=
  let ⟨buyerFinId, sellerFinId, asset, settlement, loan, params⟩ := businessDetails
  let toBuyer := checkLeg source destination quantity "Buyer" buyerFinId "Seller" sellerFinId
  let toSeller := checkLeg source destination quantity "Seller" sellerFinId "Buyer" buyerFinId
  if params.eip712PrimaryType = .loan then
    match params.phase, params.leg with
    | .initiate, .asset => toBuyer "Quantity" (.ok asset.amount)
    | .initiate, .settlement => toSeller "BorrowedMoneyAmount" (loanAmount (·.borrowedMoneyAmount) loan)
    | .close, .asset => toSeller "Quantity" (.ok asset.amount)
    | .close, .settlement => toBuyer "ReturnedMoneyAmount" (loanAmount (·.returnedMoneyAmount) loan)
  else
    match params.leg with
    | .asset => toBuyer "Quantity" (.ok asset.amount)
    | .settlement => toSeller "Quantity" (.ok settlement.amount)

theorem checkLeg_eq_ok {source : Source} {destination : Option Destination}
    {quantity receiver receiverFinId payer payerFinId amountName : String}
    {amount : Except ServiceError String} {u : Unit}
    (h : checkLeg source destination quantity receiver receiverFinId payer payerFinId amountName
      amount = .ok u) :
    (∀ d, destination = some d → receiverFinId = d.finId) ∧ payerFinId = source.finId ∧
      amount = .ok quantity := by
  simp only [checkLeg, bind_eq_ok, throwIf_eq_ok] at h
  obtain ⟨_, hd, _, hs, a, ha, hq⟩ := h
  refine ⟨fun d he => ?_, not_not.mp hs, ?_⟩
  · by_contra hne
    exact hd ⟨d, he, hne⟩
  · rw [ha, not_not.mp hq]

/-! ### A loan of bonds for dollars -/

/-- The conversions keep a term's id and amount; the asset type becomes a number. -/
def plainOrchestrator : Orchestrator where
  termFromEIP712 t := .ok ⟨t.assetId, if t.assetType = "finp2p" then 2 else 0, t.amount⟩
  emptyTerm := ⟨"", 0, ""⟩
  emptyLoanTerms := ⟨"", ""⟩

/-- A loan of ten bonds against ninety, to be returned as ninety five. -/
def bondLoan : EIP712Template where
  primaryType := .loan
  message :=
    { lender := some ⟨"lender"⟩
      borrower := some ⟨"borrower"⟩
      asset := some ⟨"bond", none, "10"⟩
      settlement := some ⟨"USD", some "fiat", "90"⟩
      loanTerms := some ⟨"90", "95"⟩ }

end FinP2PAdapter.OnChain
