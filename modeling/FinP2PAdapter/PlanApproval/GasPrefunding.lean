import FinP2PAdapter.Accounts.AccountResolver
import FinP2PAdapter.Library.Tallies
import FinP2PAdapter.PlanApproval.Introspection

/-! The option that prefunds gas: how many of a plan's instructions each wallet signs. -/

namespace FinP2PAdapter.PlanApproval.GasPrefundingOption

open Accounts Tallies

/-- The source's wallet signs the instruction, and it executes here. -/
def sourceSigns (instruction : IntrospectedInstruction) : Bool :=
  instruction.isLocal && (instruction.type == some "transfer" || instruction.type == some "hold" ||
    instruction.type == some "redeem")

/-- The address the source's wallet is resolved to; a lookup that throws is skipped. -/
def signer (accountMapping : String → Except String (Option String))
    (instruction : IntrospectedInstruction) : Option String :=
  if sourceSigns instruction then
    match truthy instruction.sourceFinId with
    | none => none
    | some sourceFinId =>
      match accountMapping sourceFinId with
      | .error _ => none
      | .ok address => truthy address
  else none

def countSigner (accountMapping : String → Except String (Option String)) (txCounts : JsMap String ℕ)
    (instruction : IntrospectedInstruction) : JsMap String ℕ :=
  match signer accountMapping instruction with
  | none => txCounts
  | some address => txCounts.set address ((txCounts.get? address).getD 0 + 1)

def txCounts (accountMapping : String → Except String (Option String)) (plan : IntrospectedPlan) :
    JsMap String ℕ :=
  plan.instructions.foldl (countSigner accountMapping) JsMap.empty

/-- The instructions of a plan that the wallet at an address signs. -/
def signedBy (accountMapping : String → Except String (Option String)) (plan : IntrospectedPlan)
    (address : String) : ℕ :=
  plan.instructions.countP fun instruction => signer accountMapping instruction == some address

/-- The instructions of a plan that an account signs, however its address is spelled. -/
def signedByAccount (accountMapping : String → Except String (Option String)) (plan : IntrospectedPlan)
    (account : String) : ℕ :=
  plan.instructions.countP fun instruction =>
    (signer accountMapping instruction).any fun address => address.toLower == account

/-- No two finIds are mapped to one account under two spellings of its address. -/
def SpelledOnce (accountMapping : String → Except String (Option String)) : Prop :=
  ∀ finId finId' address address', accountMapping finId = .ok (some address) →
    accountMapping finId' = .ok (some address') → address.toLower = address'.toLower → address = address'

theorem signer_mapped {accountMapping : String → Except String (Option String)}
    {instruction : IntrospectedInstruction} {address : String} (h : signer accountMapping instruction = some address) :
    ∃ finId, accountMapping finId = .ok (some address) := by
  unfold signer at h
  split at h
  · split at h
    · cases h
    · rename_i finId hfinId
      split at h
      · cases h
      · rename_i mapped hmapped
        rw [(truthy_eq_some.mp h).1] at hmapped
        exact ⟨finId, hmapped⟩
  · cases h

/-- Where each account is spelled in one way, its instructions are those of one address. -/
theorem signedByAccount_spelledOnce {accountMapping : String → Except String (Option String)}
    (hspelled : SpelledOnce accountMapping) (plan : IntrospectedPlan) {account : String}
    (h : 0 < signedByAccount accountMapping plan account) : ∃ address, address.toLower = account ∧
      signedByAccount accountMapping plan account = signedBy accountMapping plan address := by
  obtain ⟨instruction, -, hsigns⟩ := List.countP_pos_iff.mp h
  obtain ⟨address, hsigner, haccount⟩ := (Option.any_eq_true _ _).mp hsigns
  have haccount : address.toLower = account := beq_iff_eq.mp haccount
  obtain ⟨finId, hmapped⟩ := signer_mapped hsigner
  refine ⟨address, haccount, List.countP_congr fun other _ => ?_⟩
  cases hother : signer accountMapping other with
  | none => simp
  | some address' =>
    obtain ⟨finId', hmapped'⟩ := signer_mapped hother
    rw [Option.any_some, beq_iff_eq, beq_iff_eq, Option.some.injEq]
    constructor
    · intro hsame
      exact hspelled finId' finId address' address hmapped' hmapped (hsame.trans haccount.symm)
    · rintro rfl
      exact haccount

theorem txCounts_eq_tallies (accountMapping : String → Except String (Option String))
    (plan : IntrospectedPlan) :
    txCounts accountMapping plan = tallies (plan.instructions.filterMap (signer accountMapping)) := by
  rw [txCounts, tallies, List.foldl_filterMap]
  congr 1
  funext counts instruction
  rw [countSigner]
  cases signer accountMapping instruction <;> rfl

/-- Each wallet that signs is counted once, with all its instructions. -/
theorem mem_txCounts {accountMapping : String → Except String (Option String)} {plan : IntrospectedPlan}
    {address : String} (h : 0 < signedBy accountMapping plan address) :
    (address, signedBy accountMapping plan address) ∈ (txCounts accountMapping plan).entries := by
  rw [txCounts_eq_tallies, mem_tallies, List.count_filterMap]
  exact ⟨h, rfl⟩

end FinP2PAdapter.PlanApproval.GasPrefundingOption
