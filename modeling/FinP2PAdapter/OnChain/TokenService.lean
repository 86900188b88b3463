import FinP2PAdapter.OnChain.BusinessDetails

/-! The on-chain token service's transfer and hold: the call each makes of the
operator contract, and the movement the contract makes of it. Whatever passes
extraction and validation moves the requested quantity from the source to the
destination, over every primary type, leg and phase. -/

namespace FinP2PAdapter.OnChain

open Throws

inductive ContractMethod where
  | transfer | hold
  deriving DecidableEq, Repr

/-- The arguments of `finP2PContract.transfer` and `finP2PContract.hold`. -/
structure ContractCall where
  method : ContractMethod
  nonce : String
  sellerFinId : String
  buyerFinId : String
  asset : Term
  settlement : Term
  loan : Option EIP712LoanTerms
  params : OperationParams
  signature : String
  deriving DecidableEq, Repr

section Service

variable (pkg : Orchestrator) (ensureCredential : String → Except ServiceError Unit)

/-- The body `transfer` and `hold` share: extract, validate, look up both
credentials, call the contract. -/
def submit (method : ContractMethod) (operationId : Option String) (nonce : String) (source : Source)
    (destination : Option Destination) (ast : Asset) (quantity : String) (sgn : Signature)
    (exCtx : Option ExecutionContext) : Except ServiceError ContractCall := do
  let details ← extractBusinessDetails pkg ast (some source) destination operationId sgn.template exCtx
  validateRequest source destination quantity details
  ensureCredential details.sellerFinId
  ensureCredential details.buyerFinId
  return ⟨method, nonce, details.sellerFinId, details.buyerFinId, details.asset, details.settlement,
    details.loan, details.params, sgn.signature⟩

def transfer (nonce : String) (source : Source) (destination : Destination) (ast : Asset)
    (quantity : String) (signature : Signature) (exCtx : Option ExecutionContext) :
    Except ServiceError ContractCall :=
  submit pkg ensureCredential .transfer none nonce source
    (some destination) ast quantity signature exCtx

def hold (nonce : String) (source : Source) (destination : Option Destination) (ast : Asset)
    (quantity : String) (sgn : Signature) (operationId : String) (exCtx : Option ExecutionContext) :
    Except ServiceError ContractCall :=
  submit pkg ensureCredential .hold (some operationId) nonce source destination ast quantity sgn exCtx

end Service

/-! ### The operator contract -/

/-- A movement of tokens; the amount is as written in the terms. -/
structure TokenMove where
  debit : String
  credit : String
  amount : Option String
  deriving DecidableEq, Repr

/-- What the operator contract moves for a call: the asset leg goes from seller
to buyer, the settlement leg from buyer to seller, the closing phase exchanges
the two; a loan's settlement leg moves the borrowed or the returned money. -/
def operatorMove (call : ContractCall) : TokenMove :=
  let parties := match call.params.leg with
    | .asset => (call.sellerFinId, call.buyerFinId)
    | .settlement => (call.buyerFinId, call.sellerFinId)
  let parties := match call.params.phase with
    | .initiate => parties
    | .close => parties.swap
  let amount := match call.params.leg with
    | .asset => some call.asset.amount
    | .settlement =>
      if call.params.eip712PrimaryType = .loan then
        match call.params.phase with
        | .initiate => call.loan.map (·.borrowedMoneyAmount)
        | .close => call.loan.map (·.returnedMoneyAmount)
      else some call.settlement.amount
  ⟨parties.1, parties.2, amount⟩

theorem loanAmount_eq_ok {field : EIP712LoanTerms → String} {loan : Option EIP712LoanTerms}
    {amount : String} (h : loanAmount field loan = .ok amount) : loan.map field = some amount := by
  cases loan with
  | none => cases h
  | some terms =>
    cases h
    rfl

/-- Only a loan template closes. -/
theorem phase_initiate_of_not_loan {t : EIP712Template} {primaryType : PrimaryType}
    (ht : eip712PrimaryTypeFromTemplate t = .ok primaryType) (hn : primaryType ≠ .loan)
    (exCtx : Option ExecutionContext) : onChainPhase t.primaryType exCtx = .initiate := by
  unfold eip712PrimaryTypeFromTemplate at ht
  cases hp : t.primaryType with
  | loan =>
    simp only [hp] at ht
    cases ht
    exact absurd rfl hn
  | _ => rfl

/-- A request that validates is the movement the contract makes: the checks of
each case name the same parties and the same amount as the contract's rule. -/
theorem validateRequest_move {source : Source} {destination : Option Destination} {quantity : String}
    {details : BusinessContract} {u : Unit}
    (h : validateRequest source destination quantity details = .ok u)
    (hphase : details.params.eip712PrimaryType ≠ .loan → details.params.phase = .initiate)
    (method : ContractMethod) (nonce signature : String) :
    let move := operatorMove ⟨method, nonce, details.sellerFinId, details.buyerFinId, details.asset,
      details.settlement, details.loan, details.params, signature⟩
    move.debit = source.finId ∧ (∀ d, destination = some d → move.credit = d.finId) ∧
      move.amount = some quantity := by
  obtain ⟨buyerFinId, sellerFinId, asset, settlement, loan, leg, primaryType, phase, opId, rt⟩ :=
    details
  simp only [validateRequest] at h
  split_ifs at h with hloan
  · -- a loan: the four cases of phase and leg
    cases phase <;> cases leg <;> obtain ⟨hd, hs, ha⟩ := checkLeg_eq_ok h
    · cases ha
      exact ⟨hs, hd, rfl⟩
    · exact ⟨hs, hd, by simp [operatorMove, hloan, loanAmount_eq_ok ha]⟩
    · cases ha
      exact ⟨hs, hd, rfl⟩
    · exact ⟨hs, hd, by simp [operatorMove, hloan, loanAmount_eq_ok ha]⟩
  · have hp : phase = .initiate := hphase hloan
    subst hp
    cases leg <;> obtain ⟨hd, hs, ha⟩ := checkLeg_eq_ok h <;> cases ha
    · exact ⟨hs, hd, rfl⟩
    · exact ⟨hs, hd, by simp [operatorMove, hloan]⟩

theorem submit_move {pkg : Orchestrator} {ensureCredential : String → Except ServiceError Unit}
    {method : ContractMethod} {operationId : Option String} {nonce : String} {source : Source}
    {destination : Option Destination} {ast : Asset} {quantity : String} {sgn : Signature}
    {exCtx : Option ExecutionContext} {call : ContractCall}
    (h : submit pkg ensureCredential method operationId nonce source destination ast quantity sgn
      exCtx =
      .ok call) :
    (operatorMove call).debit = source.finId ∧
      (∀ d, destination = some d → (operatorMove call).credit = d.finId) ∧
      (operatorMove call).amount = some quantity := by
  simp only [submit, bind_eq_ok] at h
  obtain ⟨details, hx, _, hv, _, _, _, _, hc⟩ := h
  obtain ⟨t, leg, primaryType, _, _, _, htype, _, hparams⟩ := extractBusinessDetails_spec hx
  have hphase : details.params.eip712PrimaryType ≠ .loan → details.params.phase = .initiate := by
    rw [hparams]
    intro hn
    exact phase_initiate_of_not_loan htype hn exCtx
  cases hc
  exact validateRequest_move hv hphase method nonce sgn.signature

/-- Every call the service makes of the operator contract, for a transfer or a
hold, debits the source, credits the destination if there is one, and moves the
requested quantity. -/
theorem operator_moves_request (pkg : Orchestrator)
    (ensureCredential : String → Except ServiceError Unit) :
    (∀ nonce source destination ast quantity signature exCtx call,
      transfer pkg ensureCredential nonce source destination ast quantity signature exCtx = .ok call →
        operatorMove call = ⟨source.finId, destination.finId, some quantity⟩) ∧
    (∀ nonce source destination ast quantity sgn operationId exCtx call,
      hold pkg ensureCredential nonce source destination ast quantity sgn operationId exCtx = .ok call →
        (operatorMove call).debit = source.finId ∧
        (∀ d, destination = some d → (operatorMove call).credit = d.finId) ∧
        (operatorMove call).amount = some quantity) := by
  constructor
  · intro nonce source destination ast quantity signature exCtx call h
    obtain ⟨hd, hc, ha⟩ := submit_move h
    have hcredit := hc destination rfl
    cases hm : operatorMove call with
    | mk debit credit amount =>
      rw [hm] at hd hcredit ha
      subst hd hcredit ha
      rfl
  · intro nonce source destination ast quantity sgn operationId exCtx call h
    exact submit_move h

/-- The money leg of the loan, initiated by a hold of the borrowed amount and
closed by a transfer of the returned one. -/
theorem operator_moves_bond_loan :
    (operatorMove ⟨.transfer, "n", "borrower", "lender", ⟨"bond", 2, "10"⟩, ⟨"USD", 0, "90"⟩,
        some ⟨"90", "95"⟩, ⟨.settlement, .loan, .close, none, .release⟩, "sgn"⟩ =
      ⟨"borrower", "lender", some "95"⟩) ∧
    (operatorMove ⟨.hold, "n", "borrower", "lender", ⟨"bond", 2, "10"⟩, ⟨"USD", 0, "90"⟩,
        some ⟨"90", "95"⟩, ⟨.settlement, .loan, .initiate, some "op", .release⟩, "sgn"⟩).debit =
      "lender" :=
  ⟨(operator_moves_request plainOrchestrator fun _ => .ok ()).1 "n" ⟨"borrower", none⟩
      ⟨"lender", none⟩ ⟨"USD", "finp2p"⟩ "95" ⟨"sgn", .eip712 bondLoan⟩ (some ⟨"plan", 5⟩) _
        (by decide),
    ((operator_moves_request plainOrchestrator fun _ => .ok ()).2 "n" ⟨"lender", none⟩
      (some ⟨"borrower", none⟩) ⟨"USD", "finp2p"⟩ "90" ⟨"sgn", .eip712 bondLoan⟩ "op"
      (some ⟨"plan", 2⟩) _ (by decide)).1⟩

end FinP2PAdapter.OnChain
