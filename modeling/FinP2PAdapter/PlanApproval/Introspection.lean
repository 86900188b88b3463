import FinP2PAdapter.Library.Throws
import FinP2PAdapter.Skeleton.Types

/-! A raw execution plan and the view of it that the approval options share. A plan
comes from outside as any value whatever: a field may be absent or hold a value of
another kind than it should, and introspection throws where the view cannot be made.
Texts in the place of lists are left out: of a text, `length` and `includes` can be
asked too. -/

namespace FinP2PAdapter.PlanApproval

open Throws

/-- A field of a raw value: absent, as it should be, or of another kind (for a list, of
one that has no `includes`, so no text). -/
inductive Raw (α : Type) where
  | absent
  | value (a : α)
  | other
  deriving DecidableEq, Repr

namespace Raw

variable {α : Type}

/-- `field ?? []`, of which a method that only lists have is called. -/
def orEmpty (typeError : String) : Raw (List α) → Except String (List α)
  | .absent => .ok []
  | .value as => .ok as
  | .other => .error typeError

/-- The elements of a field that holds a list. -/
def elements : Raw (List α) → List α
  | .value as => as
  | _ => []

theorem orEmpty_eq_ok {typeError : String} {field : Raw (List α)} {as : List α}
    (h : field.orEmpty typeError = .ok as) : field.elements = as := by
  cases field with
  | absent => exact Except.ok.inj h
  | value bs => exact Except.ok.inj h
  | other => cases h

end Raw

structure RawFinp2pAccount where
  /-- `account?.finId` -/
  account : Option (Option String)
  /-- `asset?.id` -/
  asset : Option (Option String)
  deriving DecidableEq, Repr

structure RawAccount where
  finp2pAccount : Option RawFinp2pAccount
  /-- `networkAccount?.address` -/
  networkAccount : Option (Option String)
  deriving DecidableEq, Repr

structure RawOperation where
  type : Option String := none
  source : Option RawAccount := none
  destination : Option RawAccount := none
  amount : Option String := none
  deriving DecidableEq, Repr

structure RawInstruction where
  sequence : Option ℤ
  organizations : Raw (List String)
  executionPlanOperation : Option RawOperation
  deriving DecidableEq, Repr

structure RawPlan where
  instructions : Raw (List (Option RawInstruction))
  deriving DecidableEq, Repr

/-! ### The normalized view -/

structure IntrospectedInstruction where
  sequence : Option ℤ
  type : Option String
  organizations : List String
  isLocal : Bool
  sourceFinId : Option String
  destinationFinId : Option String
  sourceAddress : Option String
  destinationAddress : Option String
  assetId : Option String
  amount : Option String
  deriving DecidableEq, Repr

structure IntrospectedPlan where
  planId : String
  orgId : String
  instructions : List IntrospectedInstruction
  raw : RawPlan
  deriving DecidableEq, Repr

def finIdOf (account : Option RawAccount) : Option String :=
  ((account.bind RawAccount.finp2pAccount).bind RawFinp2pAccount.account).join

def assetIdOf (account : Option RawAccount) : Option String :=
  ((account.bind RawAccount.finp2pAccount).bind RawFinp2pAccount.asset).join

def addressOf (account : Option RawAccount) : Option String :=
  (account.bind RawAccount.networkAccount).join

namespace RawInstruction

def operation (instruction : RawInstruction) : RawOperation :=
  instruction.executionPlanOperation.getD {}

/-- The asset its source names, or else its destination. -/
def assetId (instruction : RawInstruction) : Option String :=
  (assetIdOf instruction.operation.source).or (assetIdOf instruction.operation.destination)

/-- An instruction executes on an organization that it names, or on any if it names none. -/
def ExecutesOn (orgId : String) (instruction : RawInstruction) : Prop :=
  orgId ∈ instruction.organizations.elements ∨ instruction.organizations.elements = []

end RawInstruction

def introspectInstruction (orgId : String) : Option RawInstruction →
    Except String IntrospectedInstruction
  | none => .error "TypeError: Cannot read properties of null (reading 'executionPlanOperation')"
  | some instruction => do
    let op := instruction.operation
    let organizations ← instruction.organizations.orEmpty "TypeError: organizations.includes is not a function"
    return {
      sequence := instruction.sequence
      type := op.type
      organizations := organizations
      isLocal := organizations.length = 0 ∨ organizations.contains orgId
      sourceFinId := finIdOf op.source
      destinationFinId := finIdOf op.destination
      sourceAddress := addressOf op.source
      destinationAddress := addressOf op.destination
      assetId := (assetIdOf op.source).or (assetIdOf op.destination)
      amount := op.amount }

def introspectPlan (planId orgId : String) (rawPlan : RawPlan) : Except String IntrospectedPlan := do
  let raws ← rawPlan.instructions.orEmpty "TypeError: (rawPlan?.instructions ?? []).map is not a function"
  let instructions ← raws.mapM (introspectInstruction orgId)
  return ⟨planId, orgId, instructions, rawPlan⟩

/-! ### What introspection keeps -/

theorem introspectInstruction_eq_ok {orgId : String} {raw : Option RawInstruction}
    {i : IntrospectedInstruction}
    (h : introspectInstruction orgId raw = .ok i) : ∃ instruction, raw = some instruction ∧
      (i.isLocal = true ↔ instruction.ExecutesOn orgId) ∧ i.type = instruction.operation.type ∧
      i.assetId = instruction.assetId ∧ i.sourceFinId = finIdOf instruction.operation.source ∧
      i.destinationFinId = finIdOf instruction.operation.destination := by
  cases raw with
  | none => cases h
  | some instruction =>
    simp only [introspectInstruction, bind_eq_ok] at h
    obtain ⟨organizations, horgs, h⟩ := h
    cases h
    refine ⟨instruction, rfl, ?_, rfl, rfl, rfl, rfl⟩
    rw [RawInstruction.ExecutesOn, Raw.orEmpty_eq_ok horgs]
    simp only [decide_eq_true_eq, List.length_eq_zero_iff, List.contains_iff_mem, or_comm]

/-- The view has one instruction for each of the plan's. -/
theorem introspectPlan_eq_ok {planId orgId : String} {rawPlan : RawPlan} {plan : IntrospectedPlan}
    (h : introspectPlan planId orgId rawPlan = .ok plan) : plan.planId = planId ∧ plan.orgId = orgId ∧
      List.Forall₂ (fun raw i => introspectInstruction orgId raw = .ok i) rawPlan.instructions.elements
        plan.instructions := by
  simp only [introspectPlan, bind_eq_ok] at h
  obtain ⟨raws, hraws, instructions, his, h⟩ := h
  cases h
  exact ⟨rfl, rfl, Raw.orEmpty_eq_ok hraws ▸ mapM_eq_ok.mp his⟩

end FinP2PAdapter.PlanApproval
