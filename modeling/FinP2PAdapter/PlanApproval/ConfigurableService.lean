import FinP2PAdapter.Library.Checks
import FinP2PAdapter.PlanApproval.Introspection

/-! The adapter's plan approval: a base service decides, and the configured options
then look at the plan it approved. An option that must run to clear the plan rejects
it when it could not; any other may be skipped. -/

namespace FinP2PAdapter.PlanApproval

open Checks

inductive PlanApprovalStatus where
  | approved
  | pending (correlationId : String)
  | rejected (code : ℕ) (message : String)
  deriving DecidableEq, Repr

def PlanApprovalStatus.isRejected : PlanApprovalStatus → Bool
  | .rejected _ _ => true
  | _ => false

def rejectedPlan (code : ℕ) (message : String) : PlanApprovalStatus := .rejected code message

/-- How an option ends: it throws, or returns a status or nothing. -/
abbrev Verdict := Except String (Option PlanApprovalStatus)

/-- `σ` is the state of everything the options act on. -/
structure PlanApprovalOption (σ : Type) where
  name : String
  gating : Bool
  apply : IntrospectedPlan → σ → Verdict × σ

/-- `finP2PClient` is its `getExecutionPlan`, which rejects or answers with `data.plan`. -/
structure ConfigurablePlanApprovalService (σ : Type) where
  orgId : String
  finP2PClient : Option (String → σ → Except String (Option RawPlan) × σ)
  base : String → String → σ → Except String PlanApprovalStatus × σ
  options : List (PlanApprovalOption σ)

/-- A plan an option was given, and how it ended. -/
structure Application where
  plan : IntrospectedPlan
  verdict : Verdict

/-- What `approvePlan` answered, and what it did before. -/
structure Approval (σ : Type) where
  answer : Except String PlanApprovalStatus
  fetches : ℕ
  applied : List (PlanApprovalOption σ × Application)
  state : σ

variable {σ : Type}

/-- The option's answer to the plan, if it ends the approval. -/
def PlanApprovalOption.veto (planId : String) (option : PlanApprovalOption σ)
    (application : Application) : Option PlanApprovalStatus :=
  let name := option.name
  match application.verdict with
  | .error e =>
    if option.gating then some (rejectedPlan 1
      s!"Approval option '{name}' failed for plan {planId}: {e}")
    else none
  | .ok none => none
  | .ok (some veto) => if veto.isRejected then some veto else none

namespace ConfigurablePlanApprovalService

variable (svc : ConfigurablePlanApprovalService σ)

/-- The view of the plan, with the number of fetches made for it. -/
def introspect (planId : String) (s : σ) : Option IntrospectedPlan × ℕ × σ :=
  match svc.finP2PClient with
  | none => (none, 0, s)
  | some getExecutionPlan =>
    match getExecutionPlan planId s with
    | (.error _, s) => (none, 1, s)
    | (.ok none, s) => (none, 1, s)
    | (.ok (some rawPlan), s) => ((introspectPlan planId svc.orgId rawPlan).toOption, 1, s)

def runOptions (planId : String) (plan : IntrospectedPlan) (s : σ) :
    Outcome (PlanApprovalOption σ) Application PlanApprovalStatus σ :=
  firstStop (fun option s => (⟨plan, (option.apply plan s).1⟩, (option.apply plan s).2))
    (PlanApprovalOption.veto planId) svc.options s

def approvePlan (idempotencyKey planId : String) (s : σ) : Approval σ :=
  match svc.base idempotencyKey planId s with
  | (.error e, s) => ⟨.error e, 0, [], s⟩
  | (.ok result, s) =>
    if result.isRejected ∨ svc.options.length = 0 then ⟨.ok result, 0, [], s⟩
    else
      match svc.introspect planId s with
      | (none, fetches, s) =>
        let gating := (svc.options.filter (·.gating)).map (·.name)
        if gating.length > 0 then
          let names := ", ".intercalate gating
          ⟨.ok (rejectedPlan 1 s!"Plan introspection unavailable; cannot evaluate approval option(s): {names}"),
            fetches, [], s⟩
        else ⟨.ok result, fetches, [], s⟩
      | (some plan, fetches, s) =>
        let outcome := svc.runOptions planId plan s
        ⟨.ok (outcome.stop.getD result), fetches, outcome.made, outcome.state⟩

/-- There is a client, and it answers with a plan that can be introspected. -/
def Introspects (planId : String) (s : σ) (plan : IntrospectedPlan) : Prop :=
  ∃ getExecutionPlan rawPlan s', svc.finP2PClient = some getExecutionPlan ∧
    getExecutionPlan planId s = (.ok (some rawPlan), s') ∧
      introspectPlan planId svc.orgId rawPlan = .ok plan

end ConfigurablePlanApprovalService

/-- Every gating option ran to its end, and no option returned a rejection. -/
structure Cleared (options : List (PlanApprovalOption σ)) (plan : IntrospectedPlan)
    (applied : List (PlanApprovalOption σ × Application)) : Prop where
  gating : ∀ (i : ℕ) (option : PlanApprovalOption σ), options[i]? = some option → option.gating = true →
    ∃ veto, applied[i]? = some (option, ⟨plan, .ok veto⟩)
  unrejected : ∀ a ∈ applied, ∀ veto, a.2.verdict = .ok (some veto) → veto.isRejected = false

/-! ### Options -/

section Options

variable {svc : ConfigurablePlanApprovalService σ} {planId : String} {s : σ}

theorem introspect_eq_some {plan : IntrospectedPlan} :
    (svc.introspect planId s).1 = some plan ↔ svc.Introspects planId s plan := by
  unfold ConfigurablePlanApprovalService.introspect ConfigurablePlanApprovalService.Introspects
  cases svc.finP2PClient with
  | none => simp
  | some getExecutionPlan =>
    cases hanswer : getExecutionPlan planId s with
    | mk answer s' =>
      cases answer with
      | error e => simp [hanswer]
      | ok data =>
        cases data with
        | none => simp [hanswer]
        | some rawPlan =>
          cases hplan : introspectPlan planId svc.orgId rawPlan with
          | error e => simp [hanswer, hplan, Except.toOption]
          | ok p => simp [hanswer, hplan, Except.toOption]

theorem fetches_le_one : (svc.introspect planId s).2.1 ≤ 1 := by
  unfold ConfigurablePlanApprovalService.introspect
  split
  · exact Nat.zero_le 1
  · split <;> exact Nat.le_refl 1

theorem veto_isRejected {option : PlanApprovalOption σ} {a : Application} {status : PlanApprovalStatus}
    (h : option.veto planId a = some status) : status.isRejected = true := by
  unfold PlanApprovalOption.veto at h
  cases hv : a.verdict with
  | error e =>
    simp only [hv, Option.ite_none_right_eq_some, Option.some.injEq] at h
    rw [← h.2]
    rfl
  | ok veto =>
    cases veto with
    | none => simp [hv] at h
    | some veto =>
      simp only [hv, Option.ite_none_right_eq_some, Option.some.injEq] at h
      exact h.2 ▸ h.1

/-- An option ends the approval by a rejection, or by a failure if it is gating. -/
theorem veto_eq_none {option : PlanApprovalOption σ} {a : Application} : option.veto planId a = none ↔
    (option.gating = true → ∃ veto, a.verdict = .ok veto) ∧
      ∀ veto, a.verdict = .ok (some veto) → veto.isRejected = false := by
  unfold PlanApprovalOption.veto
  cases hv : a.verdict with
  | error e => simp
  | ok veto =>
    cases veto with
    | none => simp
    | some veto => simp

theorem runOptions_plan {plan : IntrospectedPlan} {a : PlanApprovalOption σ × Application}
    (ha : a ∈ (svc.runOptions planId plan s).made) : a.2.plan = plan := by
  obtain ⟨s', h⟩ := mem_made ha
  rw [h]

/-- The options let the plan pass exactly if they cleared it. -/
theorem runOptions_stop_eq_none {plan : IntrospectedPlan} :
    (svc.runOptions planId plan s).stop = none ↔
      Cleared svc.options plan (svc.runOptions planId plan s).made := by
  constructor
  · intro h
    obtain ⟨hmade, hpass⟩ := (stop_eq_none_iff _ _).mp h
    refine ⟨fun i option hoption hgating => ?_, fun a ha => (veto_eq_none.mp (hpass a ha)).2⟩
    rw [← hmade, List.getElem?_map, Option.map_eq_some_iff] at hoption
    obtain ⟨⟨option', a⟩, hi, rfl⟩ := hoption
    have ha := List.mem_of_getElem? hi
    obtain ⟨veto, hveto⟩ := (veto_eq_none.mp (hpass _ ha)).1 hgating
    refine ⟨veto, hi.trans ?_⟩
    rw [← runOptions_plan ha, ← hveto]
  · intro h
    cases hstop : (svc.runOptions planId plan s).stop with
    | none => rfl
    | some stop =>
      obtain ⟨i, option, a, hoption, hmade, hveto⟩ := exists_stopper hstop
      have hnone : option.veto planId a = none := by
        refine veto_eq_none.mpr ⟨fun hgating => ?_, h.unrejected _ (List.mem_of_getElem? hmade)⟩
        obtain ⟨veto, happlied⟩ := h.gating i option hoption hgating
        cases hmade.symm.trans happlied
        exact ⟨veto, rfl⟩
      rw [hnone] at hveto
      cases hveto

/-- What the options make of the base's answer. -/
theorem runOptions_answer {plan : IntrospectedPlan} {result : PlanApprovalStatus}
    (hresult : result.isRejected = false) :
    (((svc.runOptions planId plan s).stop.getD result).isRejected = false ↔
      Cleared svc.options plan (svc.runOptions planId plan s).made) := by
  rw [← runOptions_stop_eq_none]
  cases hstop : (svc.runOptions planId plan s).stop with
  | none => simp [hresult]
  | some stop =>
    obtain ⟨i, option, a, -, -, hveto⟩ := exists_stopper hstop
    simp [veto_isRejected hveto]

variable {idempotencyKey : String} {s' : σ} {result : PlanApprovalStatus}

/-- A rejection of the base, or an approval that no option looks at. -/
theorem approvePlan_of_base (hbase : svc.base idempotencyKey planId s = (.ok result, s'))
    (h : result.isRejected = true ∨ svc.options = []) :
    svc.approvePlan idempotencyKey planId s = ⟨.ok result, 0, [], s'⟩ := by
  simp only [ConfigurablePlanApprovalService.approvePlan, hbase, List.length_eq_zero_iff, if_pos h]

theorem approvePlan_of_plan {plan : IntrospectedPlan} {fetches : ℕ} {t : σ}
    (hbase : svc.base idempotencyKey planId s = (.ok result, s'))
    (h : ¬ (result.isRejected = true ∨ svc.options = []))
    (hplan : svc.introspect planId s' = (some plan, fetches, t)) :
    svc.approvePlan idempotencyKey planId s =
      ⟨.ok ((svc.runOptions planId plan t).stop.getD result), fetches,
      (svc.runOptions planId plan t).made, (svc.runOptions planId plan t).state⟩ := by
  simp only [ConfigurablePlanApprovalService.approvePlan, hbase, List.length_eq_zero_iff, if_neg h,
    hplan]

/-- A plan that cannot be looked at is rejected if some option is gating. -/
theorem approvePlan_of_unread {fetches : ℕ} {t : σ}
    (hbase : svc.base idempotencyKey planId s = (.ok result, s'))
    (h : ¬ (result.isRejected = true ∨ svc.options = []))
    (hplan : svc.introspect planId s' = (none, fetches, t)) : ∃ status,
      svc.approvePlan idempotencyKey planId s = ⟨.ok status, fetches, [], t⟩ ∧
        (status.isRejected = false ↔ ∀ option ∈ svc.options, option.gating = false) := by
  have hgating : ((svc.options.filter (·.gating)).map (·.name)).length > 0 ↔
      ¬ ∀ option ∈ svc.options, option.gating = false := by
    rw [List.length_map, gt_iff_lt, List.length_pos_iff_exists_mem]
    simp only [List.mem_filter, not_forall, Bool.not_eq_false, exists_prop]
  simp only [ConfigurablePlanApprovalService.approvePlan, hbase, List.length_eq_zero_iff, if_neg h,
    hplan]
  by_cases hnone : ∀ option ∈ svc.options, option.gating = false
  · rw [if_neg (hgating.not_left.mpr hnone)]
    exact ⟨result, rfl, iff_of_true (by simpa using fun hr => h (.inl hr)) hnone⟩
  · rw [if_pos (hgating.mpr hnone)]
    exact ⟨_, rfl, iff_of_false (by simp [rejectedPlan, PlanApprovalStatus.isRejected]) hnone⟩

end Options

/-- Once the base has answered, `approvePlan` answers. Its answer is no rejection
exactly if the base's is none and there are no options, or the options cleared the
plan that was introspected, or no plan was and no option is gating. The options are
applied in their order to the one plan, none after a rejection, and the plan is
fetched once at most. -/
theorem approvePlan_approves_iff (svc : ConfigurablePlanApprovalService σ)
    (idempotencyKey planId : String) (s s' : σ)
    (result : PlanApprovalStatus) (hbase : svc.base idempotencyKey planId s = (.ok result, s')) :
    let approval := svc.approvePlan idempotencyKey planId s
    (∃ status, approval.answer = .ok status ∧ (status.isRejected = false ↔ result.isRejected = false ∧
      (svc.options = [] ∨
        (∃ plan, svc.Introspects planId s' plan ∧ Cleared svc.options plan approval.applied) ∨
        (∀ plan, ¬ svc.Introspects planId s' plan) ∧ ∀ option ∈ svc.options, option.gating = false))) ∧
    approval.applied.map Prod.fst <+: svc.options ∧
    (∀ a ∈ approval.applied, svc.Introspects planId s' a.2.plan) ∧
    (∀ front a back veto, approval.applied = front ++ a :: back → a.2.verdict = .ok (some veto) →
      veto.isRejected = true → back = []) ∧
    approval.fetches ≤ 1 := by
  intro approval
  have hresult : ∀ h : ¬ (result.isRejected = true ∨ svc.options = []), result.isRejected = false :=
    fun h => Bool.eq_false_iff.mpr fun hr => h (.inl hr)
  by_cases h : result.isRejected = true ∨ svc.options = []
  · have he : approval = ⟨.ok result, 0, [], s'⟩ := approvePlan_of_base hbase h
    rw [he]
    refine ⟨⟨result, rfl, ?_⟩, List.nil_prefix, by simp, by simp, Nat.zero_le 1⟩
    rcases h with hr | ho
    · simp [hr]
    · simp [ho]
  have hfetches : (svc.introspect planId s').2.1 ≤ 1 := fetches_le_one
  cases hplan : svc.introspect planId s' with
  | mk view rest =>
    obtain ⟨fetches, t⟩ := rest
    rw [hplan] at hfetches
    have hview : ∀ plan, svc.Introspects planId s' plan ↔ view = some plan := by
      intro plan
      rw [← introspect_eq_some, hplan]
    have hoptions : svc.options ≠ [] := fun ho => h (.inr ho)
    cases view with
    | none =>
      obtain ⟨status, he, hstatus⟩ := approvePlan_of_unread hbase h hplan
      have he : approval = _ := he
      rw [he]
      refine ⟨⟨status, rfl, ?_⟩, List.nil_prefix, by simp, by simp, hfetches⟩
      simp only [hstatus, hresult h, hoptions, hview, reduceCtorEq, false_and, exists_false,
        not_false_eq_true, implies_true, true_and, false_or]
    | some plan =>
      have he : approval = _ := approvePlan_of_plan hbase h hplan
      rw [he]
      refine ⟨⟨_, rfl, ?_⟩, made_prefix _ _, ?_, ?_, hfetches⟩
      · simp only [runOptions_answer (hresult h), hresult h, hoptions, hview, Option.some.injEq,
          exists_eq_left', true_and, false_or, iff_self_or]
        exact fun hnone => absurd rfl (hnone.1 plan)
      · intro a ha
        rw [hview, runOptions_plan ha]
      · intro front a back veto hmade hverdict hrejected
        have hveto : a.1.veto planId a.2 = some veto := by
          simp only [PlanApprovalOption.veto, hverdict, hrejected, if_true]
        exact (stops_last hmade hveto).1

/-- A gating option that finds nothing against any plan. -/
def contentOption : PlanApprovalOption Unit := ⟨"token-whitelisting", true, fun _ s => (.ok none, s)⟩

/-- A base that approves every plan, and a client that has an empty one. -/
def contentService : ConfigurablePlanApprovalService Unit where
  orgId := "bank-us"
  finP2PClient := some fun _ s => (.ok (some ⟨.absent⟩), s)
  base _ _ s := (.ok .approved, s)
  options := [contentOption]

/-- The empty plan is approved. -/
theorem empty_plan_approved : ∃ status,
    (contentService.approvePlan "ik" "plan-1" ()).answer = .ok status ∧ status.isRejected = false := by
  obtain ⟨⟨status, hanswer, hstatus⟩, -⟩ :=
    approvePlan_approves_iff contentService "ik" "plan-1" () () .approved rfl
  have hcleared : Cleared contentService.options ⟨"plan-1", "bank-us", [], ⟨.absent⟩⟩
      (contentService.approvePlan "ik" "plan-1" ()).applied := by
    refine ⟨?_, ?_⟩
    · intro i option hoption _
      cases i with
      | zero =>
        cases hoption
        exact ⟨none, rfl⟩
      | succ i => cases hoption
    · intro a ha veto hveto
      cases List.mem_singleton.mp ha
      cases hveto
  exact ⟨status, hanswer, hstatus.mpr ⟨rfl, .inr (.inl ⟨_, ⟨_, _, _, rfl, rfl, rfl⟩, hcleared⟩)⟩⟩

end FinP2PAdapter.PlanApproval
