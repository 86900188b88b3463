import FinP2PAdapter.GasStation.Funding
import FinP2PAdapter.PlanApproval.PrefundingRuns
import FinP2PAdapter.PlanApproval.TokenWhitelisting

/-! The plan approval of the modes with custody: the whitelists are looked at first, and where the investors' wallets
sign, their gas is asked for next. Only the whitelists decide, and gas is asked for only of a plan that they let pass. -/

namespace FinP2PAdapter.PlanApproval

open Checks
open GasStation (FundingCall FundingConfig prefunding)
open Omnibus (AssetRecord)
open TokenStandards

/-- What the options of an approval have asked of the token standards and of the gas station. -/
structure OptionLog where
  whitelistCalls : List WhitelistCall
  prefunding : List PrefundingEvent

/-- An option that acts on a part of the state. -/
def PlanApprovalOption.within {σ τ : Type} (option : PlanApprovalOption σ) (part : τ → σ) (put : τ → σ → τ) :
    PlanApprovalOption τ where
  name := option.name
  gating := option.gating
  apply plan t := ((option.apply plan (part t)).1, put t (option.apply plan (part t)).2)

/-- It returns nothing. -/
def GasPrefundingOption.toOption (option : GasPrefundingOption) : PlanApprovalOption (List PrefundingEvent) where
  name := "gas-prefunding"
  gating := false
  apply plan history := ((option.apply plan history).1.map fun _ => none, (option.apply plan history).2)

/-- What `buildCustodyPlanApprovalService` is given. -/
structure CustodyPlanApproval where
  orgId : String
  finP2PClient : Option (String → Except String (Option RawPlan))
  base : String → String → Except String PlanApprovalStatus
  gasStation : Option (String → ℕ → List PrefundingEvent → Except String Unit)
  accountMapping : String → Except String (Option String)
  assetStore : String → Except String (Option AssetRecord)
  registry : TokenStandardRegistry WhitelistMethods
  investorPrefunding : Bool

namespace CustodyPlanApproval

variable (d : CustodyPlanApproval)

def whitelistingOption : TokenWhitelistingOption := ⟨d.assetStore, d.accountMapping, d.registry⟩

def gasPrefundingOption : GasPrefundingOption := ⟨d.gasStation, fun finId _ => d.accountMapping finId⟩

def whitelisting : PlanApprovalOption OptionLog :=
  d.whitelistingOption.toOption.within OptionLog.whitelistCalls fun log calls => { log with whitelistCalls := calls }

def gasPrefunding : PlanApprovalOption OptionLog :=
  d.gasPrefundingOption.toOption.within OptionLog.prefunding fun log events => { log with prefunding := events }

def options : List (PlanApprovalOption OptionLog) :=
  d.whitelisting :: if d.investorPrefunding then [d.gasPrefunding] else []

def buildCustodyPlanApprovalService : ConfigurablePlanApprovalService OptionLog where
  orgId := d.orgId
  finP2PClient := d.finP2PClient.map fun getExecutionPlan planId log => (getExecutionPlan planId, log)
  base idempotencyKey planId log := (d.base idempotencyKey planId, log)
  options := d.options

/-- The client has the plan, and this is the view of it. -/
def Fetches (planId : String) (rawPlan : RawPlan) (plan : IntrospectedPlan) : Prop :=
  ∃ getExecutionPlan, d.finP2PClient = some getExecutionPlan ∧ getExecutionPlan planId = .ok (some rawPlan) ∧
    introspectPlan planId d.orgId rawPlan = .ok plan

/-- Gas is asked for where there is a gas station and the investors' wallets sign. -/
def Prefunds : Prop := d.investorPrefunding = true ∧ d.gasStation.isSome = true

instance : Decidable d.Prefunds := inferInstanceAs (Decidable (_ ∧ _))

variable {d} {planId : String} {rawPlan : RawPlan} {plan : IntrospectedPlan}

theorem Fetches.unique {rawPlan' : RawPlan} {plan' : IntrospectedPlan} (h : d.Fetches planId rawPlan plan)
    (h' : d.Fetches planId rawPlan' plan') : rawPlan' = rawPlan ∧ plan' = plan := by
  obtain ⟨client, hclient, hraw, hplan⟩ := h
  obtain ⟨client', hclient', hraw', hplan'⟩ := h'
  rw [hclient] at hclient'
  cases hclient'
  rw [hraw] at hraw'
  cases hraw'
  rw [hplan] at hplan'
  exact ⟨rfl, (Except.ok.inj hplan').symm⟩

theorem introspect_of_fetches (h : d.Fetches planId rawPlan plan) (log : OptionLog) :
    d.buildCustodyPlanApprovalService.introspect planId log = (some plan, 1, log) := by
  obtain ⟨getExecutionPlan, hclient, hfetched, hplan⟩ := h
  simp only [ConfigurablePlanApprovalService.introspect, buildCustodyPlanApprovalService, hclient, Option.map_some,
    hfetched, hplan, Except.toOption]

theorem introspect_of_unread (h : ∀ rawPlan plan, ¬ d.Fetches planId rawPlan plan) (log : OptionLog) :
    ∃ fetches, d.buildCustodyPlanApprovalService.introspect planId log = (none, fetches, log) := by
  cases hclient : d.finP2PClient with
  | none => exact ⟨0, by simp [ConfigurablePlanApprovalService.introspect, buildCustodyPlanApprovalService, hclient]⟩
  | some getExecutionPlan =>
    refine ⟨1, ?_⟩
    simp only [ConfigurablePlanApprovalService.introspect, buildCustodyPlanApprovalService, hclient, Option.map_some]
    cases hfetched : getExecutionPlan planId with
    | error e => rfl
    | ok data =>
      cases data with
      | none => rfl
      | some rawPlan =>
        cases hplan : introspectPlan planId d.orgId rawPlan with
        | error e => simp only [hplan, Except.toOption]
        | ok plan => exact absurd ⟨getExecutionPlan, hclient, hfetched, hplan⟩ (h rawPlan plan)

/-- The option returns nothing, and has asked for the gas of the plan's signers. -/
theorem gasPrefunding_applies (d : CustodyPlanApproval) (plan : IntrospectedPlan) :
    ∃ events, d.gasPrefundingOption.apply plan [] = (.ok (), events) ∧
      topUps events = if d.gasStation.isSome then (GasPrefundingOption.txCounts d.accountMapping plan).entries
        else [] := by
  cases hg : d.gasStation with
  | none =>
    refine ⟨[], ?_, rfl⟩
    simp only [GasPrefundingOption.apply, gasPrefundingOption, hg]
    rfl
  | some ensureGas =>
    have hstation : d.gasPrefundingOption.gasStation = some ensureGas := hg
    obtain ⟨events, hlog, happlies⟩ := GasPrefundingOption.ensures_apply hstation plan []
    have hresult := happlies.returns
    rw [hresult] at happlies
    exact ⟨events, Prod.ext hresult hlog, topUps_of_steady (fun _ _ => rfl) happlies⟩

/-- What the gas station is asked for after the whitelists let the plan pass. -/
theorem runOptions_rest (d : CustodyPlanApproval) (planId : String) (plan : IntrospectedPlan)
    (calls : List WhitelistCall) :
    let outcome := firstStop (fun (option : PlanApprovalOption OptionLog) log =>
        ((⟨plan, (option.apply plan log).1⟩ : Application), (option.apply plan log).2))
      (PlanApprovalOption.veto planId) (if d.investorPrefunding then [d.gasPrefunding] else []) ⟨calls, []⟩
    outcome.stop = none ∧ topUps outcome.state.prefunding =
      if d.Prefunds then (GasPrefundingOption.txCounts d.accountMapping plan).entries else [] := by
  intro outcome
  by_cases hinvestors : d.investorPrefunding = true
  · obtain ⟨events, happly, hasked⟩ := gasPrefunding_applies d plan
    have happlied : d.gasPrefunding.apply plan ⟨calls, []⟩ = (.ok none, ⟨calls, events⟩) := by
      simp only [gasPrefunding, PlanApprovalOption.within, GasPrefundingOption.toOption, happly, Except.map]
    have houtcome : outcome = ⟨none, [(d.gasPrefunding, ⟨plan, .ok none⟩)], ⟨calls, events⟩⟩ := by
      simp only [outcome, if_pos hinvestors, firstStop, happlied, PlanApprovalOption.veto]
    have hprefunds : d.Prefunds ↔ d.gasStation.isSome = true := and_iff_right hinvestors
    rw [houtcome]
    simp only [hprefunds]
    exact ⟨trivial, hasked⟩
  · have houtcome : outcome = ⟨none, [], ⟨calls, []⟩⟩ := by
      simp only [outcome, if_neg hinvestors, firstStop]
    rw [houtcome, if_neg fun h : d.Prefunds => hinvestors h.1]
    exact ⟨rfl, rfl⟩

/-- Unless a lookup throws, the options stop at the whitelists, or all of them pass and gas is asked for. -/
theorem runOptions_cases (hquiet : d.whitelistingOption.Quiet) (planId : String) (plan : IntrospectedPlan) :
    let outcome := d.buildCustodyPlanApprovalService.runOptions planId plan ⟨[], []⟩
    (∃ veto, outcome.stop = some veto ∧ veto.isRejected = true ∧ topUps outcome.state.prefunding = [] ∧
      ∃ i ∈ plan.instructions, d.whitelistingOption.Vetoes i) ∨
    (outcome.stop = none ∧ (¬ ∃ i ∈ plan.instructions, d.whitelistingOption.Vetoes i) ∧
      topUps outcome.state.prefunding =
        if d.Prefunds then (GasPrefundingOption.txCounts d.accountMapping plan).entries else []) := by
  intro outcome
  obtain ⟨veto, hveto, hrejected, hnone⟩ := TokenWhitelistingOption.apply_returns hquiet plan []
  have hverdict : (d.whitelisting.apply plan ⟨[], []⟩).1 = .ok veto := hveto
  have hlog : (d.whitelisting.apply plan ⟨[], []⟩).2 = ⟨(d.whitelistingOption.apply plan []).2, []⟩ := rfl
  let check := fun (option : PlanApprovalOption OptionLog) log =>
    ((⟨plan, (option.apply plan log).1⟩ : Application), (option.apply plan log).2)
  have houtcome : outcome = firstStop check (PlanApprovalOption.veto planId) d.options ⟨[], []⟩ := rfl
  cases veto with
  | some veto =>
    have hstops : veto.isRejected = true := hrejected veto rfl
    have hvetoed : ¬ ∀ i ∈ plan.instructions, ¬ d.whitelistingOption.Vetoes i := fun h => by cases hnone.mpr h
    simp only [not_forall, not_not, exists_prop] at hvetoed
    have hstop : PlanApprovalOption.veto planId d.whitelisting (check d.whitelisting ⟨[], []⟩).1 = some veto := by
      simp only [PlanApprovalOption.veto, check, hverdict, hstops, if_true]
    rw [houtcome, options, firstStop_cons_stop hstop]
    exact .inl ⟨veto, rfl, hstops, rfl, hvetoed⟩
  | none =>
    have hpass : PlanApprovalOption.veto planId d.whitelisting (check d.whitelisting ⟨[], []⟩).1 = none := by
      simp only [PlanApprovalOption.veto, check, hverdict]
    obtain ⟨hstop, hasked⟩ := runOptions_rest d planId plan (d.whitelistingOption.apply plan []).2
    rw [houtcome, options, firstStop_cons_pass hpass]
    refine .inr ⟨hstop, ?_, hasked⟩
    rintro ⟨i, hi, hvetoes⟩
    exact hnone.mp rfl i hi hvetoes

end CustodyPlanApproval

open CustodyPlanApproval in
/-- In the modes with custody, once the base has approved a plan and the whitelists' lookups do not throw: the plan is
rejected exactly if it cannot be fetched or holds an instruction that the whitelists forbid, and the answer is the
base's otherwise. The gas station is asked for the gas of a plan that is let pass, as the interleaved approvals ask
for it, and for that of no other. -/
theorem custody_plan_decided (d : CustodyPlanApproval) (idempotencyKey planId : String) (result : PlanApprovalStatus)
    (cfg : FundingConfig) (hbase : d.base idempotencyKey planId = .ok result) (hresult : result.isRejected = false)
    (hquiet : d.whitelistingOption.Quiet) (hmapping : cfg.accountMapping = d.accountMapping) :
    let approval := d.buildCustodyPlanApprovalService.approvePlan idempotencyKey planId ⟨[], []⟩
    ∃ status, approval.answer = .ok status ∧
      (∀ rawPlan plan, d.Fetches planId rawPlan plan →
        (status.isRejected = true ↔ ∃ instruction, some instruction ∈ rawPlan.instructions.elements ∧
          d.whitelistingOption.Forbids d.orgId instruction) ∧
        (status.isRejected = false → status = result) ∧
        (topUps approval.state.prefunding).map (fun call => FundingCall.ensureGas call.1 call.2) =
          if status.isRejected = false ∧ d.Prefunds then prefunding cfg plan else []) ∧
      ((∀ rawPlan plan, ¬ d.Fetches planId rawPlan plan) →
        status.isRejected = true ∧ topUps approval.state.prefunding = []) := by
  intro approval
  have hbased : d.buildCustodyPlanApprovalService.base idempotencyKey planId ⟨[], []⟩ = (.ok result, ⟨[], []⟩) := by
    simp only [buildCustodyPlanApprovalService, hbase]
  have hlooks : ¬ (result.isRejected = true ∨ d.buildCustodyPlanApprovalService.options = []) := by
    rintro (hrejected | hnone)
    · rw [hresult] at hrejected
      cases hrejected
    · cases hnone
  by_cases hfetched : ∃ rawPlan plan, d.Fetches planId rawPlan plan
  · obtain ⟨rawPlan, plan, hfetches⟩ := hfetched
    have hintrospect := introspect_of_fetches hfetches ⟨[], []⟩
    have happroval : approval = _ := approvePlan_of_plan hbased hlooks hintrospect
    have hforbids : (∃ i ∈ plan.instructions, d.whitelistingOption.Vetoes i) ↔
        ∃ instruction, some instruction ∈ rawPlan.instructions.elements ∧
          d.whitelistingOption.Forbids d.orgId instruction := by
      obtain ⟨-, -, -, hplan⟩ := hfetches
      exact exists_vetoes_iff hplan hquiet
    rw [happroval]
    refine ⟨_, rfl, fun rawPlan' plan' hfetches' => ?_, fun hnone => absurd hfetches (hnone _ _)⟩
    obtain ⟨rfl, rfl⟩ := hfetches.unique hfetches'
    rw [← hforbids]
    have hcalls : (GasPrefundingOption.txCounts d.accountMapping plan').entries.map
        (fun call => FundingCall.ensureGas call.1 call.2) = prefunding cfg plan' := by
      rw [prefunding, hmapping]
    rcases runOptions_cases hquiet planId plan' with
      ⟨veto, hstop, hrejected, hasked, hvetoes⟩ | ⟨hstop, hpasses, hasked⟩
    · simp only [hstop, Option.getD_some, hrejected, hasked]
      exact ⟨iff_of_true trivial hvetoes, nofun, by simp⟩
    · simp only [hstop, Option.getD_none, hresult, hasked]
      refine ⟨iff_of_false Bool.false_ne_true hpasses, fun _ => trivial, ?_⟩
      by_cases hprefunds : d.Prefunds
      · rw [if_pos hprefunds, if_pos ⟨trivial, hprefunds⟩, hcalls]
      · rw [if_neg hprefunds, if_neg fun h => hprefunds h.2, List.map_nil]
  · have hunread : ∀ rawPlan plan, ¬ d.Fetches planId rawPlan plan :=
      fun rawPlan plan h => hfetched ⟨rawPlan, plan, h⟩
    obtain ⟨fetches, hintrospect⟩ := introspect_of_unread hunread ⟨[], []⟩
    obtain ⟨status, happroval, hstatus⟩ := approvePlan_of_unread hbased hlooks hintrospect
    have happroval : approval = _ := happroval
    rw [happroval]
    refine ⟨status, rfl, fun rawPlan plan h => absurd h (hunread rawPlan plan), fun _ => ⟨?_, rfl⟩⟩
    -- the whitelists' option is gating
    refine Bool.eq_true_of_not_eq_false fun happroved => ?_
    cases hstatus.mp happroved d.whitelisting List.mem_cons_self

/-- A bank that prefunds its investors and lets alice hold the asset only. -/
def exclusiveBank : CustodyPlanApproval where
  orgId := "bank-us"
  finP2PClient := some fun _ => .ok (some ⟨.value [some transferToBob]⟩)
  base _ _ := .ok .approved
  gasStation := some fun _ _ _ => .ok ()
  accountMapping := exclusiveOption.accountMapping
  assetStore := exclusiveOption.assetStore
  registry := exclusiveOption.registry
  investorPrefunding := true

/-- A transfer to bob is not approved, and no gas is asked for. -/
theorem transfer_to_bob_unfunded :
    let approval := exclusiveBank.buildCustodyPlanApprovalService.approvePlan "ik" "plan-1" ⟨[], []⟩
    ∃ status, approval.answer = .ok status ∧ status.isRejected = true ∧
      (topUps approval.state.prefunding).map (fun call => FundingCall.ensureGas call.1 call.2) = [] := by
  intro approval
  have hfetches : exclusiveBank.Fetches "plan-1" ⟨.value [some transferToBob]⟩ _ := ⟨_, rfl, rfl, rfl⟩
  obtain ⟨status, hanswer, hfetched, -⟩ := custody_plan_decided exclusiveBank "ik" "plan-1" .approved
    ⟨5, 1, exclusiveBank.accountMapping⟩ rfl rfl exclusive_quiet rfl
  obtain ⟨hrejects, -, hasked⟩ := hfetched _ _ hfetches
  have hrejected := hrejects.mpr ⟨transferToBob, List.mem_singleton_self _, transferToBob_forbidden⟩
  refine ⟨status, hanswer, hrejected, ?_⟩
  rw [if_neg fun h => by rw [hrejected] at h; cases h.1] at hasked
  exact hasked

end FinP2PAdapter.PlanApproval
