import FinP2PAdapter.OnChain.BusinessDetails

/-! The operation context the custody path hands to its token standards. It
derives the leg, the primary type, the phase and the release type on its own,
beside the on-chain helpers, and the two derivations agree on every request
except where the phase heuristics or the leg tests part. -/

namespace FinP2PAdapter.Operations

open OnChain

structure OperationContext where
  leg : LegType
  phase : Phase
  primaryType : PrimaryType
  operationId : Option String
  releaseType : ReleaseType
  deriving DecidableEq, Repr

/-- `msg?.part && msg.part.assetId === asset.assetId`. -/
def namesAsset (asset : Asset) : Option EIP712Term → Bool
  | none => false
  | some term => term.assetId = asset.assetId

def detectLeg (asset : Asset) (template : EIP712Template) : LegType :=
  if namesAsset asset template.message.asset then .asset
  else if namesAsset asset template.message.settlement then .settlement
  else .asset

def mapPrimaryType : TemplateType → PrimaryType
  | .primarySale => .primarySale
  | .buying => .buying
  | .selling => .selling
  | .redemption => .redemption
  | .transfer => .transfer
  | .privateOffer => .privateOffer
  | .loan => .loan
  | .move => .move
  | .other _ => .transfer

def eip712Template : Option Signature → Option EIP712Template
  | some ⟨_, .eip712 template⟩ => some template
  | _ => none

def buildOperationContext (asset : Asset) (signature : Option Signature)
    (exCtx : Option ExecutionContext) (operationId : Option String) (releaseType : ReleaseType) :
    Option OperationContext :=
  match exCtx with
  | none => none
  | some exCtx =>
    let template := eip712Template signature
    let leg := (template.map (detectLeg asset)).getD .asset
    let primaryType := (template.map fun t => mapPrimaryType t.primaryType).getD .transfer
    let phase : Phase := if exCtx.sequence > 4 then .close else .initiate
    some ⟨leg, phase, primaryType, operationId, releaseType⟩

/-- `destination?.finId ? Release : Redeem` for the intents that may end in a
burn and for an unsigned hold, `Release` for the others. -/
def deriveReleaseType (signature : Option Signature) (destination : Option Destination) : ReleaseType :=
  match (eip712Template signature).map EIP712Template.primaryType with
  | none | some .transfer | some .redemption | some .move =>
    if (destination.map (·.finId)).getD "" = "" then .redeem else .release
  | some _ => .release

/-! ### Agreement with the on-chain helpers -/

theorem mapPrimaryType_eq {t : EIP712Template} {primaryType : PrimaryType}
    (h : eip712PrimaryTypeFromTemplate t = .ok primaryType) :
    mapPrimaryType t.primaryType = primaryType := by
  unfold eip712PrimaryTypeFromTemplate at h
  cases hp : t.primaryType with
  | other name => simp [hp] at h
  | _ =>
    simp only [hp] at h
    cases h
    rfl

theorem deriveReleaseType_eq (s : String) (t : EIP712Template) (destination : Option Destination) :
    deriveReleaseType (some ⟨s, .eip712 t⟩) destination =
      onChainReleaseType t.primaryType destination := by
  have hr : (if (destination.map (·.finId)).getD "" = "" then ReleaseType.redeem else .release) =
      releaseTypeTo destination := by
    cases destination <;> rfl
  cases hp : t.primaryType <;> simp [deriveReleaseType, eip712Template, onChainReleaseType, hp, hr]

/-- The two phase rules differ at a loan's fourth instruction and on every
instruction past the fourth of another template. -/
theorem phase_eq_iff (t : TemplateType) (exCtx : ExecutionContext) :
    (if exCtx.sequence > 4 then Phase.close else .initiate) = onChainPhase t (some exCtx) ↔
      (t = .loan → exCtx.sequence ≠ 4) ∧ (t ≠ .loan → exCtx.sequence ≤ 4) := by
  by_cases ht : t = .loan
  · subst ht
    simp only [onChainPhase, loanPhase]
    split_ifs <;> simp <;> omega
  · have hp : onChainPhase t (some exCtx) = .initiate := by
      cases t <;> first | rfl | exact absurd rfl ht
    rw [hp]
    split_ifs <;> simp [ht] <;> omega

/-- The request's asset stands on the leg its term names, and the custody path's
comparison by id alone sees it there. -/
def LegNamedById (asset : Asset) (m : EIP712Message) : Prop :=
  if matchesTerm asset m.asset then
    namesAsset asset m.asset = true ∨ namesAsset asset m.settlement = false
  else
    namesAsset asset m.asset = false ∧ namesAsset asset m.settlement = true

instance (asset : Asset) (m : EIP712Message) : Decidable (LegNamedById asset m) := by
  unfold LegNamedById
  infer_instance

theorem detectLeg_eq_iff {asset : Asset} {t : EIP712Template} {leg : LegType}
    (h : OnChain.detectLeg asset (.eip712 t) = .ok leg) :
    detectLeg asset t = leg ↔ LegNamedById asset t.message := by
  simp only [OnChain.detectLeg] at h
  unfold detectLeg LegNamedById
  cases ha : namesAsset asset t.message.asset <;> cases hs : namesAsset asset t.message.settlement <;>
    split_ifs at h with h₁ h₂ <;> cases h <;> simp [h₁]

/-- On every request the on-chain helpers accept, the custody path's context has
the same leg, primary type, phase and release type exactly when the sequence
number is none where the phase rules differ and the ids alone tell the leg. -/
theorem buildOperationContext_agrees_iff (pkg : Orchestrator) (asset : Asset) (source : Option Source)
    (destination : Option Destination) (operationId : Option String) (sgn : String)
    (t : EIP712Template) (exCtx : ExecutionContext) (details : BusinessContract)
    (h : extractBusinessDetails pkg asset source destination operationId (.eip712 t) (some exCtx) =
      .ok details) :
    (∃ ctx, buildOperationContext asset (some ⟨sgn, .eip712 t⟩) (some exCtx) operationId
        (deriveReleaseType (some ⟨sgn, .eip712 t⟩) destination) = some ctx ∧
      ctx.leg = details.params.leg ∧ ctx.primaryType = details.params.eip712PrimaryType ∧
      ctx.phase = details.params.phase ∧ ctx.releaseType = details.params.releaseType) ↔
    ((t.primaryType = .loan → exCtx.sequence ≠ 4) ∧ (t.primaryType ≠ .loan → exCtx.sequence ≤ 4)) ∧
      LegNamedById asset t.message := by
  obtain ⟨_, leg, primaryType, term, ht, hleg, htype, -, hparams⟩ := extractBusinessDetails_spec h
  cases ht
  rw [hparams, ← phase_eq_iff, ← detectLeg_eq_iff hleg]
  simp only [buildOperationContext, eip712Template, Option.map_some, Option.getD_some,
    Option.some.injEq, exists_eq_left', mapPrimaryType_eq htype, deriveReleaseType_eq, true_and,
      and_true]
  exact and_comm

/-- At the loan's second instruction the two derivations agree. -/
theorem buildOperationContext_agrees_bond_loan :
    ∃ ctx, buildOperationContext ⟨"bond", "finp2p"⟩ (some ⟨"sgn", .eip712 bondLoan⟩)
        (some ⟨"plan", 2⟩) (some "op")
        (deriveReleaseType (some ⟨"sgn", .eip712 bondLoan⟩) (some ⟨"lender", none⟩)) = some ctx ∧
      ctx.leg = .asset ∧ ctx.primaryType = .loan ∧ ctx.phase = .initiate ∧ ctx.releaseType = .release :=
  (buildOperationContext_agrees_iff plainOrchestrator ⟨"bond", "finp2p"⟩ (some ⟨"borrower", none⟩)
    (some ⟨"lender", none⟩) (some "op") "sgn" bondLoan ⟨"plan", 2⟩
    ⟨"lender", "borrower", ⟨"bond", 2, "10"⟩, ⟨"USD", 0, "90"⟩, some ⟨"90", "95"⟩,
      ⟨.asset, .loan, .initiate, some "op", .release⟩⟩ (by decide)).mpr (by decide)

/-- At the loan's fourth instruction the on-chain path closes and the custody
path still initiates. -/
theorem fourth_loan_instruction_phases :
    ¬ ∀ (pkg : Orchestrator) (asset : Asset) (source : Option Source) (destination : Option Destination)
      (operationId : Option String) (sgn : String) (t : EIP712Template) (exCtx : ExecutionContext)
      (details : BusinessContract),
      extractBusinessDetails pkg asset source destination operationId (.eip712 t) (some exCtx) =
        .ok details →
      ∃ ctx, buildOperationContext asset (some ⟨sgn, .eip712 t⟩) (some exCtx) operationId
          (deriveReleaseType (some ⟨sgn, .eip712 t⟩) destination) = some ctx ∧
        ctx.leg = details.params.leg ∧ ctx.primaryType = details.params.eip712PrimaryType ∧
        ctx.phase = details.params.phase ∧ ctx.releaseType = details.params.releaseType := by
  intro hall
  have h := hall plainOrchestrator ⟨"bond", "finp2p"⟩ (some ⟨"lender", none⟩)
    (some ⟨"borrower", none⟩) (some "op") "sgn" bondLoan ⟨"plan", 4⟩
    ⟨"lender", "borrower", ⟨"bond", 2, "10"⟩, ⟨"USD", 0, "90"⟩, some ⟨"90", "95"⟩,
      ⟨.asset, .loan, .close, some "op", .release⟩⟩ (by decide)
  obtain ⟨ctx, hctx, -, -, hphase, -⟩ := h
  have hi : buildOperationContext ⟨"bond", "finp2p"⟩ (some ⟨"sgn", .eip712 bondLoan⟩)
      (some ⟨"plan", 4⟩) (some "op")
      (deriveReleaseType (some ⟨"sgn", .eip712 bondLoan⟩) (some ⟨"borrower", none⟩)) =
      some ⟨.asset, .initiate, .loan, some "op", .release⟩ := by decide
  rw [hi] at hctx
  cases hctx
  cases hphase

end FinP2PAdapter.Operations
