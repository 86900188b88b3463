import FinP2PAdapter.OnChain.BusinessDetails

/-! The leg a request is sent on. A term is recognised when it names the request's asset, or when
both are well-known currency symbols, whatever the two symbols are; and the asset term is tried
before the settlement term, which some templates do not send at all. So the leg that is reported
names the request's asset unless one of these gets in the way. -/

namespace FinP2PAdapter.OnChain

open Throws

/-- The term has the request's id and, with the default filled in, its type. -/
def Exact (asset : Asset) (term : EIP712Term) : Prop :=
  term.assetId = asset.assetId ∧ term.assetType.getD "finp2p" = asset.assetType

/-- Both are dollars or dollar coins of the types the fallback takes for the same. -/
def WellKnown (asset : Asset) (term : EIP712Term) : Prop :=
  term.assetType.getD "finp2p" ∈ ["fiat", "cryptocurrency"] ∧ term.assetId ∈ ["USD", "USDC"] ∧
    asset.assetType ∈ ["fiat", "cryptocurrency", "finp2p"] ∧ asset.assetId ∈ ["USD", "USDC"]

/-- A dollar term for a dollar coin, or the other way round. -/
def Crossed (asset : Asset) (term : EIP712Term) : Prop :=
  WellKnown asset term ∧ term.assetId ≠ asset.assetId

/-- The templates that send the empty term in place of a settlement term. -/
def sendsSettlement : TemplateType → Bool
  | .transfer | .move => false
  | _ => true

/-- The term of the reported leg, as sent to the contract. -/
def BusinessContract.legTerm (details : BusinessContract) : Term :=
  match details.params.leg with
  | .asset => details.asset
  | .settlement => details.settlement

/-- Nothing keeps the reported leg from naming the request's asset: an asset term that is recognised
is not a crossed one, and not just a relative of an exact settlement term; and when the asset term
is not recognised, the settlement term is sent and is not a crossed one. -/
structure LegClear (pkg : Orchestrator) (asset : Asset) (t : EIP712Template) : Prop where
  byAsset : ∀ term ∈ t.message.asset, compareAssets asset term = true → ¬ Crossed asset term ∧
    (¬ Exact asset term → ∀ other ∈ t.message.settlement, ¬ Exact asset other)
  bySettlement : ∀ term ∈ t.message.asset, compareAssets asset term = false →
    if sendsSettlement t.primaryType then ∀ other ∈ t.message.settlement, ¬ Crossed asset other
    else pkg.emptyTerm.assetId = asset.assetId

/-- The reported leg's term names the request's asset, and if just one term of the message is
exactly the request's asset its leg is the one reported. -/
def NamesRequest (asset : Asset) (message : EIP712Message) (details : BusinessContract) : Prop :=
  details.legTerm.assetId = asset.assetId ∧
    ((∃ term ∈ message.asset, Exact asset term) → (∀ term ∈ message.settlement, ¬ Exact asset term) →
      details.params.leg = .asset) ∧
    ((∃ term ∈ message.settlement, Exact asset term) → (∀ term ∈ message.asset, ¬ Exact asset term) →
      details.params.leg = .settlement)

variable {pkg : Orchestrator} {asset : Asset} {source : Option Source} {destination : Option Destination}
  {operationId : Option String} {t : EIP712Template} {executionContext : Option ExecutionContext}
  {details : BusinessContract} {term : EIP712Term}

theorem compareAssets_eq_true : compareAssets asset term = true ↔ WellKnown asset term ∨ Exact asset term := by
  by_cases h : WellKnown asset term
  · have hif : compareAssets asset term = true := if_pos h
    simp [hif, h]
  · have hif : compareAssets asset term =
        decide (term.assetId = asset.assetId ∧ term.assetType.getD "finp2p" = asset.assetType) := if_neg h
    simp [hif, h, Exact]

theorem compareAssets_of_exact (h : Exact asset term) : compareAssets asset term = true :=
  compareAssets_eq_true.mpr (.inr h)

/-- A recognised term with another id is a crossed one. -/
theorem crossed_iff (h : compareAssets asset term = true) :
    Crossed asset term ↔ term.assetId ≠ asset.assetId := by
  refine ⟨And.right, fun hne => ⟨?_, hne⟩⟩
  rcases compareAssets_eq_true.mp h with hw | he
  · exact hw
  · exact absurd he.1 hne

theorem businessContract_terms {buyer seller : Option EIP712Party} {assetTerm settlement : Except ServiceError Term}
    {loan : Option EIP712LoanTerms} {params : OperationParams}
    (h : businessContract buyer seller assetTerm settlement loan params = .ok details) :
    assetTerm = .ok details.asset ∧ settlement = .ok details.settlement := by
  simp only [businessContract, bind_eq_ok] at h
  obtain ⟨_, _, _, _, _, ha, _, hs, he⟩ := h
  cases he
  exact ⟨ha, hs⟩

/-- The terms an extraction sends. -/
theorem extractBusinessDetails_terms
    (h : extractBusinessDetails pkg asset source destination operationId (.eip712 t) executionContext =
      .ok details) :
    contractTerm pkg t.message.asset = .ok details.asset ∧
      (if sendsSettlement t.primaryType then contractTerm pkg t.message.settlement else .ok pkg.emptyTerm) =
        .ok details.settlement := by
  simp only [extractBusinessDetails, bind_eq_ok] at h
  obtain ⟨leg, -, primaryType, -, h⟩ := h
  cases ht : t.primaryType with
  | other name => simp [ht] at h
  | _ =>
    simp only [ht] at h
    exact businessContract_terms h

theorem contractTerm_eq_ok {part : Option EIP712Term} {sent : Term} (h : contractTerm pkg part = .ok sent) :
    ∃ raw, part = some raw ∧ pkg.termFromEIP712 (toContractTerm raw) = .ok sent := by
  cases part with
  | none => cases h
  | some raw => exact ⟨raw, rfl, h⟩

/-- The reported leg is the asset's if its term is recognised, and otherwise the settlement's, whose
term is. -/
theorem detectLeg_eq_ok {leg : LegType} :
    detectLeg asset (.eip712 t) = .ok leg ↔
      leg = .asset ∧ matchesTerm asset t.message.asset = true ∨
        leg = .settlement ∧ matchesTerm asset t.message.asset = false ∧
          matchesTerm asset t.message.settlement = true := by
  simp only [detectLeg]
  cases ha : matchesTerm asset t.message.asset with
  | true =>
    simp only [if_true, Except.ok.injEq, and_true, reduceCtorEq, false_and, and_false, or_false]
    exact eq_comm
  | false =>
    cases hs : matchesTerm asset t.message.settlement with
    | true =>
      simp only [Bool.false_eq_true, if_false, if_true, Except.ok.injEq, and_false, false_or, and_true]
      exact eq_comm
    | false => simp

section Extraction

variable (hterm : ∀ t sent, pkg.termFromEIP712 t = .ok sent → sent.assetId = t.assetId)
  (h : extractBusinessDetails pkg asset source destination operationId (.eip712 t) executionContext =
    .ok details)

include h

theorem extracted_leg : ∃ term, t.message.asset = some term ∧
    (details.params.leg = .asset ∧ compareAssets asset term = true ∨
      details.params.leg = .settlement ∧ compareAssets asset term = false ∧
        ∃ other, t.message.settlement = some other ∧ compareAssets asset other = true) := by
  obtain ⟨t', leg, primaryType, term, ht, hleg, -, hm, hparams⟩ := extractBusinessDetails_spec h
  cases ht
  have hdetails : details.params.leg = leg := by rw [hparams]
  rw [hdetails]
  refine ⟨term, hm, ?_⟩
  rw [detectLeg_eq_ok, hm] at hleg
  refine hleg.imp_right fun hset => ⟨hset.1, hset.2.1, ?_⟩
  cases hs : t.message.settlement with
  | none => simp [hs, matchesTerm] at hset
  | some other => exact ⟨other, rfl, by simpa [hs, matchesTerm] using hset.2.2⟩

include hterm

theorem extracted_asset_id {term : EIP712Term} (hm : t.message.asset = some term) :
    details.asset.assetId = term.assetId := by
  obtain ⟨raw, hraw, hsent⟩ := contractTerm_eq_ok (extractBusinessDetails_terms h).1
  rw [hm] at hraw
  cases hraw
  exact hterm _ _ hsent

theorem extracted_settlement_id {other : EIP712Term} (hm : t.message.settlement = some other) :
    details.settlement.assetId =
      if sendsSettlement t.primaryType then other.assetId else pkg.emptyTerm.assetId := by
  have hsent := (extractBusinessDetails_terms h).2
  split_ifs at hsent ⊢ with hs
  · obtain ⟨raw, hraw, hsent⟩ := contractTerm_eq_ok hsent
    rw [hm] at hraw
    cases hraw
    exact hterm _ _ hsent
  · rw [Except.ok.inj hsent]

/-- The reported leg names the request's asset exactly when nothing keeps it from that. -/
theorem leg_names_request_iff : NamesRequest asset t.message details ↔ LegClear pkg asset t := by
  obtain ⟨term, hm, ⟨hleg, hcmp⟩ | ⟨hleg, hcmp, other, hset, hother⟩⟩ := extracted_leg h
  · -- the asset term is recognised
    have hid := extracted_asset_id hterm h hm
    have hcrossed := crossed_iff hcmp
    simp only [NamesRequest, BusinessContract.legTerm, hleg, hid]
    constructor
    · rintro ⟨hname, -, hsettlement⟩
      refine ⟨fun a ha _ => ?_, fun a ha hno => ?_⟩
      · cases hm.symm.trans ha
        refine ⟨fun hc => hcrossed.mp hc hname, fun hne b hb hexact => ?_⟩
        have hleg' := hsettlement ⟨b, hb, hexact⟩ fun a ha => by cases hm.symm.trans ha; exact hne
        cases hleg'
      · cases hm.symm.trans ha
        rw [hcmp] at hno
        cases hno
    · intro hclear
      obtain ⟨hnot, hother⟩ := hclear.byAsset term hm hcmp
      refine ⟨not_not.mp (hcrossed.not.mp hnot), fun _ _ => trivial, ?_⟩
      rintro ⟨b, hb, hexact⟩ hnone
      exact absurd hexact (hother (hnone term hm) b hb)
  · -- only the settlement term is
    have hid := extracted_settlement_id hterm h hset
    have hcrossed := crossed_iff hother
    have hinexact : ¬ Exact asset term := fun he => by
      rw [compareAssets_of_exact he] at hcmp
      cases hcmp
    have hnamed : NamesRequest asset t.message details ↔ details.settlement.assetId = asset.assetId := by
      simp only [NamesRequest, BusinessContract.legTerm, hleg]
      refine ⟨And.left, fun hname => ⟨hname, ?_, fun _ _ => trivial⟩⟩
      rintro ⟨a, ha, hexact⟩ -
      cases hm.symm.trans ha
      exact absurd hexact hinexact
    rw [hnamed, hid]
    constructor
    · intro hname
      refine ⟨fun a ha hyes => ?_, fun a ha _ => ?_⟩
      · cases hm.symm.trans ha
        rw [hcmp] at hyes
        cases hyes
      · split_ifs at hname ⊢ with hs
        · intro b hb hc
          cases hset.symm.trans hb
          exact hcrossed.mp hc hname
        · exact hname
    · intro hclear
      have hsent := hclear.bySettlement term hm hcmp
      split_ifs at hsent ⊢ with hs
      · exact not_not.mp (hcrossed.not.mp (hsent other hset))
      · exact hsent

end Extraction

/-! ### A dollar coin for a dollar -/

/-- A sale paid in dollars. -/
def dollarSale : EIP712Template where
  primaryType := .selling
  message :=
    { buyer := some ⟨"buyer"⟩
      seller := some ⟨"seller"⟩
      asset := some ⟨"bond", none, "10"⟩
      settlement := some ⟨"USD", some "fiat", "90"⟩ }

theorem plain_keeps_id (t : ContractTerm) (sent : Term) (h : plainOrchestrator.termFromEIP712 t = .ok sent) :
    sent.assetId = t.assetId := by
  cases h
  rfl

/-- A request to move the dollar coin is sent on the leg of the dollar term. -/
theorem coin_sent_as_dollar : ∃ details,
    extractBusinessDetails plainOrchestrator ⟨"USDC", "finp2p"⟩ none none none (.eip712 dollarSale) none =
      .ok details ∧ details.params.leg = .settlement ∧ details.legTerm.assetId = "USD" ∧
      ¬ NamesRequest ⟨"USDC", "finp2p"⟩ dollarSale.message details := by
  refine ⟨_, rfl, rfl, rfl, ?_⟩
  rintro ⟨hname, -⟩
  exact absurd hname (by decide)

/-- A request for the dollars themselves is. -/
theorem dollar_sent_as_dollar : ∃ details,
    extractBusinessDetails plainOrchestrator ⟨"USD", "finp2p"⟩ none none none (.eip712 dollarSale) none =
      .ok details ∧ NamesRequest ⟨"USD", "finp2p"⟩ dollarSale.message details := by
  obtain ⟨details, hdetails⟩ : ∃ details, extractBusinessDetails plainOrchestrator ⟨"USD", "finp2p"⟩ none
      none none (.eip712 dollarSale) none = .ok details := ⟨_, rfl⟩
  refine ⟨details, hdetails, (leg_names_request_iff plain_keeps_id hdetails).mpr ⟨?_, ?_⟩⟩
  · intro term hm hyes
    cases hm
    exact absurd hyes (by decide)
  · intro term hm hno other hset hcrossed
    cases hset
    exact hcrossed.2 rfl

end FinP2PAdapter.OnChain
