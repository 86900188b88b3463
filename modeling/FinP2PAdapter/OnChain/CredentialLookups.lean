import FinP2PAdapter.OnChain.CredentialsRegistry

/-! The token service's lookups of credentials. It tests its set before it asks the contract and adds to it after,
so a credential is asked for once unless two requests look it up at a time. -/

namespace FinP2PAdapter.OnChain.CredentialsRegistry

open ExecutionContexts (ContractRequest Operation Submission prepare redeem submitSigned)
open Machine

/-! ### What a transaction names -/

/-- The credentials a request names. -/
def needs : ContractRequest → List String
  | .issue issuerFinId _ _ _ => [issuerFinId]
  | .call call => [call.sellerFinId, call.buyerFinId]
  | .releaseAndRedeem _ finId _ => [finId]
  | .releaseTo _ sourceFinId destinationFinId _ => [sourceFinId, destinationFinId]
  | .releaseBack _ => []

theorem prepare_needs {pkg : Orchestrator} {op : Operation} {submission : Submission}
    (h : prepare pkg op = .submits submission) : ∀ finId ∈ needs submission.request, finId ∈ submission.finIds := by
  have hsigned : ∀ {method operationId nonce source destination ast quantity sgn exCtx},
      submitSigned pkg method operationId nonce source destination ast quantity sgn exCtx = .submits submission →
        ∀ finId ∈ needs submission.request, finId ∈ submission.finIds := by
    intro method operationId nonce source destination ast quantity sgn exCtx hs
    unfold submitSigned at hs
    dsimp only at hs
    split at hs
    · cases hs
    · cases hs
      exact fun finId hin => hin
  cases op with
  | issue asset destination quantity exCtx =>
    cases h
    exact fun finId hin => hin
  | transfer nonce source destination ast quantity signature exCtx => exact hsigned h
  | redeem source asset quantity operationId exCtx =>
    simp only [prepare, redeem] at h
    split at h
    · cases h
    · cases h
      exact fun finId hin => hin
  | hold nonce source destination ast quantity sgn operationId exCtx => exact hsigned h
  | release source destination asset quantity operationId exCtx =>
    cases h
    exact fun finId hin => hin
  | rollback source asset operationId exCtx =>
    cases h
    intro finId hin
    cases hin

/-! ### Lookups -/

/-- The credential that is asked for, and not registered yet. -/
def Stage.lookingUp : Stage → Option String
  | .reading finId _ _ | .adding finId _ _ => some finId
  | _ => none

/-- No credential is looked up by two requests at a time. -/
def Alone (s : State) : Prop :=
  ∀ id id' call call' finId, s.calls id = some call → s.calls id' = some call' →
    call.stage.lookingUp = some finId → call'.stage.lookingUp = some finId → id = id'

/-- The transaction that follows is one that an operation has prepared, and the credentials it needs are registered
but for those that are left. -/
def Backed (cfg : Deployment) (registered left : List String) (next : Option Submission) : Prop :=
  ∀ submission, next = some submission → (∃ op, prepare cfg.orchestrator op = .submits submission) ∧
    ∀ finId ∈ submission.finIds, finId ∈ left ∨ finId ∈ registered

def Stage.Backed (cfg : Deployment) (registered : List String) : Stage → Prop
  | .ensuring left next => CredentialsRegistry.Backed cfg registered left next
  | .reading finId left next | .adding finId left next =>
    CredentialsRegistry.Backed cfg registered (finId :: left) next
  | _ => True

section Invariants

variable {cfg : Deployment} {registry : String → Option String} {s s' : State}

theorem Backed.grow {registered left : List String} {next : Option Submission} (h : Backed cfg registered left next)
    (finId : String) : Backed cfg (finId :: registered) left next := fun submission hnext =>
  (h submission hnext).imp_right fun hin f hf => (hin f hf).imp_right (List.mem_cons_of_mem _)

theorem Stage.Backed.grow {registered : List String} {stage : Stage} (h : stage.Backed cfg registered)
    (finId : String) : stage.Backed cfg (finId :: registered) := by
  cases stage with
  | ensuring left next => exact CredentialsRegistry.Backed.grow h finId
  | reading f left next => exact CredentialsRegistry.Backed.grow h finId
  | adding f left next => exact CredentialsRegistry.Backed.grow h finId
  | _ => trivial

/-- A credential that is left is registered. -/
theorem Backed.registered {registered left : List String} {finId : String} {next : Option Submission}
    (h : Backed cfg registered (finId :: left) next) (hin : finId ∈ registered) : Backed cfg registered left next := by
  refine fun submission hnext => (h submission hnext).imp_right fun hneeds f hf => ?_
  rcases hneeds f hf with hleft | hregistered
  · rcases List.mem_cons.mp hleft with rfl | hleft
    · exact .inr hin
    · exact .inl hleft
  · exact .inr hregistered

theorem backed_begin (registered : List String) (logged : ℕ) (task : Task) :
    (begin cfg logged task).Backed cfg registered := by
  cases task with
  | createAccount request =>
    simp only [begin, createAccount]
    split <;> trivial
  | removeAccount accountId => trivial
  | saveAccount finId fields =>
    simp only [begin, saveAccount]
    split
    · trivial
    · split <;> trivial
  | deleteAccount finId fieldName =>
    simp only [begin, deleteAccount]
    split <;> trivial
  | getAccounts finIds => trivial
  | operation op =>
    simp only [begin, operation]
    cases hprepare : prepare cfg.orchestrator op with
    | submits submission =>
      intro submission' hnext
      cases hnext
      exact ⟨⟨op, hprepare⟩, fun finId hin => .inl hin⟩
    | answers receipt => trivial
    | throws e => trivial
  | getBalance assetId finId =>
    intro submission hnext
    cases hnext

theorem backed_advances {stage stage' : Stage} (h : Advances cfg s stage stage')
    (hstage : stage.Backed cfg s.registeredCredentials) : stage'.Backed cfg s.registeredCredentials := by
  cases h with
  | known finId left next hknown => exact CredentialsRegistry.Backed.registered hstage hknown
  | asks finId left next hnew => exact hstage
  | confirmed finId left next hsome => exact hstage
  | _ => trivial

/-- What each call is about to send is backed. -/
def Backing (cfg : Deployment) (s : State) : Prop :=
  ∀ id call, s.calls id = some call → call.stage.Backed cfg s.registeredCredentials

theorem Backing.step (hs : Backing cfg s) (h : Moves cfg s s') : Backing cfg s' := by
  have hput : ∀ {registered : List String} {id : ℕ} {call : Call},
      (∀ id call, s.calls id = some call → call.stage.Backed cfg registered) → call.stage.Backed cfg registered →
      ∀ id' call', Function.update s.calls id (some call) id' = some call' → call'.stage.Backed cfg registered := by
    intro registered id call hcalls hcall id' call' h
    exact forall_update (P := fun _ (call : Call) => call.stage.Backed cfg registered) hcalls hcall h
  cases h with
  | begins id task hfree => exact hput hs (backed_begin _ _ task)
  | lands id call write hcall hcontract hsubmitted =>
    have hstage := hs id call hcall
    refine hput hs ?_
    obtain ⟨task, submitted, stage⟩ := call
    cases stage with
    | writing write landed => trivial
    | _ => exact hstage
  | advances id call stage hcall hstage =>
    have hbacked : stage.Backed cfg s.registeredCredentials := backed_advances hstage (hs id call hcall)
    exact hput hs hbacked
  | adds id call finId left next hcall hstage =>
    have hbacked := hs id call hcall
    rw [hstage] at hbacked
    refine hput (fun id' call' hcall' => (hs id' call' hcall').grow finId) ?_
    exact (CredentialsRegistry.Backed.grow hbacked finId).registered List.mem_cons_self
  | sends id call submission hcall hstage => exact hput hs trivial

/-- The transaction that a step sends has all that it names registered. -/
theorem Backing.sent (hs : Backing cfg s) (h : Moves cfg s s') {submission : Submission}
    (hlog : s'.log = s.log ++ [.sent submission]) :
    ∀ finId ∈ needs submission.request, finId ∈ s.registeredCredentials := by
  have hsame : s.log ≠ s.log ++ [.sent submission] := fun heq => by
    have hlength := congrArg List.length heq
    simp at hlength
  cases h with
  | begins id task hfree => exact absurd hlog hsame
  | lands id call write hcall hcontract hsubmitted => cases List.append_cancel_left hlog
  | advances id call stage hcall hstage => exact absurd hlog hsame
  | adds id call finId left next hcall hstage => exact absurd hlog hsame
  | sends id call submission' hcall hstage =>
    cases List.append_cancel_left hlog
    have hbacked := hs id call hcall
    rw [hstage] at hbacked
    obtain ⟨⟨op, hprepare⟩, hneeds⟩ := hbacked submission rfl
    intro finId hin
    exact (hneeds finId (prepare_needs hprepare finId hin)).resolve_left List.not_mem_nil

/-- A credential is registered once, and one that is looked up is not registered yet. -/
structure Single (s : State) : Prop where
  once : s.registeredCredentials.Nodup
  fresh : ∀ id call finId, s.calls id = some call → call.stage.lookingUp = some finId →
    finId ∉ s.registeredCredentials

/-- A call that looks nothing up that it did not look up before. -/
theorem Single.put (hs : Single s) {id : ℕ} {call : Call}
    (hfresh : ∀ finId, call.stage.lookingUp = some finId → finId ∉ s.registeredCredentials) :
    Single (s.put id call) where
  once := hs.once
  fresh id' call' finId h := by
    have hput : ∀ finId, call'.stage.lookingUp = some finId → finId ∉ s.registeredCredentials :=
      forall_update (P := fun _ (call : Call) => ∀ finId, call.stage.lookingUp = some finId →
        finId ∉ s.registeredCredentials) (fun id call hcall finId => hs.fresh id call finId hcall) hfresh h
    exact hput finId

theorem lookingUp_begin (logged : ℕ) (task : Task) : (begin cfg logged task).lookingUp = none := by
  cases task with
  | createAccount request =>
    simp only [begin, createAccount]
    split <;> rfl
  | saveAccount finId fields =>
    simp only [begin, saveAccount]
    split
    · rfl
    · split <;> rfl
  | deleteAccount finId fieldName =>
    simp only [begin, deleteAccount]
    split <;> rfl
  | operation op =>
    simp only [begin, operation]
    split <;> rfl
  | _ => rfl

theorem fresh_advances (hs : Single s) {id : ℕ} {call : Call} (hcall : s.calls id = some call) {stage : Stage}
    (h : Advances cfg s call.stage stage) {finId : String} (hlooking : stage.lookingUp = some finId) :
    finId ∉ s.registeredCredentials := by
  have hbefore := hs.fresh id call
  obtain ⟨task, submitted, stage'⟩ := call
  cases h with
  | asks f left next hnew =>
    cases hlooking
    exact hnew
  | confirmed f left next hsome => exact hbefore finId hcall hlooking
  | _ => cases hlooking

theorem Single.step (hs : Single s) (halone : Alone s) (h : Moves cfg s s') : Single s' := by
  cases h with
  | begins id task hfree =>
    refine hs.put fun finId hlooking => ?_
    rw [lookingUp_begin] at hlooking
    cases hlooking
  | lands id call write hcall hcontract hsubmitted =>
    have hlanded : Single ({ s with registry := write.onRegister.apply s.registry }.record (.landed write)) :=
      ⟨hs.once, hs.fresh⟩
    refine hlanded.put fun finId hlooking => hs.fresh id call finId hcall ?_
    obtain ⟨task, submitted, stage⟩ := call
    cases stage with
    | writing write landed => cases hlooking
    | _ => exact hlooking
  | advances id call stage hcall hstage => exact hs.put fun finId hlooking => fresh_advances hs hcall hstage hlooking
  | adds id call finId left next hcall hstage =>
    have hlooking : call.stage.lookingUp = some finId := by rw [hstage]; rfl
    refine ⟨List.nodup_cons.mpr ⟨hs.fresh id call finId hcall hlooking, hs.once⟩, ?_⟩
    intro id' call' f hcall' hlooking' hin
    by_cases hid : id' = id
    · subst hid
      cases (Function.update_self ..).symm.trans hcall'
      cases hlooking'
    · have hother := (Function.update_of_ne hid ..).symm.trans hcall'
      rcases List.mem_cons.mp hin with rfl | hin
      · exact hid (halone id' id call' call f hother hcall hlooking' hlooking)
      · exact hs.fresh id' call' f hother hlooking' hin
  | sends id call submission hcall hstage =>
    have hsent : Single (s.record (.sent submission)) := ⟨hs.once, hs.fresh⟩
    exact hsent.put fun finId hlooking => by cases hlooking

end Invariants

/-! ### Every run -/

end FinP2PAdapter.OnChain.CredentialsRegistry
