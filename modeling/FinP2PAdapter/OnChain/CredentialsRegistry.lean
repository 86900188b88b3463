import FinP2PAdapter.Custody.MappingApi
import FinP2PAdapter.Library.Effects
import FinP2PAdapter.Library.Registers
import FinP2PAdapter.OnChain.NetworkAccounts
import FinP2PAdapter.OnChain.ExecutionContexts

/-! The contract's credentials as the services share them. Onboardings and the mapping API write them, the mapping API
reads them, and the token service looks a credential up before it first needs it and never again. A write may land
late, more than once or never, whatever its caller was told. -/

namespace FinP2PAdapter.OnChain.CredentialsRegistry

open Accounts (AccountFields truthy truthy_eq_some)
open Custody (CreateRequest MappingField)
open Effects (last_or_earlier)
open ExecutionContexts (Operation Submission prepare)
open Machine
open Registers (Write)

/-! ### The requests -/

/-- A transaction on the registry. -/
inductive CredentialWrite where
  | addCredential (finId address : String)
  | removeCredential (finId : String)
  deriving DecidableEq, Repr

def CredentialWrite.onRegister : CredentialWrite → Write String String
  | .addCredential finId address => .put finId address.toLower
  | .removeCredential finId => .drop finId

/-- What the services are asked for. -/
inductive Task where
  | createAccount (request : CreateRequest)
  | removeAccount (accountId : String)
  | saveAccount (finId : String) (fields : AccountFields)
  | deleteAccount (finId : String) (fieldName : Option MappingField)
  | getAccounts (finIds : Option (List String))
  | operation (op : Operation)
  | getBalance (assetId finId : String)

/-- What `getCredentialAddress` comes to. -/
inductive ReadAnswer where
  | found (address : String)
  | absent
  | unread
  deriving DecidableEq, Repr

/-- `ensuring`, `reading` and `adding` are those of `ensureCredential`, with the credentials that are left and the
transaction that follows; `since` is the length of the log when the listing began. -/
inductive Stage where
  | writing (write : CredentialWrite) (landed : Bool)
  | ensuring (left : List String) (next : Option Submission)
  | reading (finId : String) (left : List String) (next : Option Submission)
  | adding (finId : String) (left : List String) (next : Option Submission)
  | listing (since : ℕ) (read : List (String × ReadAnswer)) (left : List String)
  | ended
  | failed (message : String)
  deriving DecidableEq

def Stage.write? : Stage → Option CredentialWrite
  | .writing write _ => some write
  | _ => none

/-- `submitted` is the transaction the request has sent to the registry. -/
structure Call where
  task : Task
  submitted : Option CredentialWrite
  stage : Stage

/-- The services as they are configured, and the contract: one that derives the wallets takes no writes. The two need
not agree, as a probe that fails has the services take the contract for one that maps. -/
structure Deployment where
  onboarding : Onboarding
  orchestrator : Orchestrator
  derives : Option (String → Option String)

section Requests

variable (cfg : Deployment)

/-- Up to the answer of the registry; what the account store answers then is the onboarding's own. -/
def createAccount (request : CreateRequest) : Stage :=
  match OnChain.createAccount cfg.onboarding request.bindInfo with
  | .registering address => .writing (.addCredential request.finId address) false
  | .thrown message => .failed message
  | _ => .ended

def saveAccount (finId : String) (fields : AccountFields) : Stage :=
  match cfg.onboarding.resolutionMode with
  | .finIdDerivation => .ended
  | .walletMapping =>
    match truthy fields.ledgerAccountId with
    | none => .failed "Field 'ledgerAccountId' is required for on-chain credential mapping"
    | some address => .writing (.addCredential finId address) false

def deleteAccount (finId : String) : Stage :=
  match cfg.onboarding.resolutionMode with
  | .finIdDerivation => .ended
  | .walletMapping => .writing (.removeCredential finId) false

def operation (op : Operation) : Stage :=
  match prepare cfg.orchestrator op with
  | .submits submission => .ensuring submission.finIds (some submission)
  | .answers _ => .ended
  | .throws e => .failed e.text

/-- Up to the first await. -/
def begin (logged : ℕ) : Task → Stage
  | .createAccount request => createAccount cfg request
  | .removeAccount _ => .ended
  | .saveAccount finId fields => saveAccount cfg finId fields
  | .deleteAccount finId _ => deleteAccount cfg finId
  | .getAccounts finIds => .listing logged [] (finIds.getD [])
  | .operation op => operation cfg op
  | .getBalance _ finId => .ensuring [finId] none

/-- What `getCredentialAddress` answers with. -/
def credential (registry : String → Option String) (finId : String) : Option String :=
  match cfg.derives with
  | none => registry finId
  | some derive => derive finId

end Requests

/-! ### Any number of requests -/

/-- What has happened to the contract. -/
inductive Event where
  | landed (write : CredentialWrite)
  | sent (submission : Submission)
  deriving DecidableEq

def Event.write? : Event → Option (Write String String)
  | .landed write => some write.onRegister
  | .sent _ => none

structure State where
  registry : String → Option String
  registeredCredentials : List String
  calls : ℕ → Option Call
  log : List Event

def State.init (registry : String → Option String) : State := ⟨registry, [], fun _ => none, []⟩

def State.put (s : State) (id : ℕ) (call : Call) : State := { s with calls := Function.update s.calls id (some call) }

def State.moveTo (s : State) (id : ℕ) (call : Call) (stage : Stage) : State := s.put id { call with stage := stage }

def State.record (s : State) (e : Event) : State := { s with log := s.log ++ [e] }

inductive Action where
  | called (id : ℕ) (task : Task)
  | lands (id : ℕ)
  | answered (id : ℕ) (failure : Option String)
  | ensured (id : ℕ)
  | read (id : ℕ) (failure : Option String)
  | added (id : ℕ)
  | sends (id : ℕ)
  | listed (id : ℕ) (unread : Bool)

/-- The caller's transaction has landed. -/
def Stage.land : Stage → Stage
  | .writing write _ => .writing write true
  | stage => stage

def land (cfg : Deployment) (s : State) (id : ℕ) (call : Call) : Option State :=
  match cfg.derives, call.submitted with
  | none, some write =>
    some (({ s with registry := write.onRegister.apply s.registry }.record (.landed write)).moveTo id call
      call.stage.land)
  | _, _ => none

def listOne (cfg : Deployment) (s : State) (finId : String) (unread : Bool) : ReadAnswer :=
  if unread then .unread
  else match credential cfg s.registry finId with
    | some address => .found address
    | none => .absent

/-- A step of a call that has begun. -/
def advance (cfg : Deployment) (s : State) (id : ℕ) (call : Call) : Action → Option State
  | .called .. => none
  | .lands _ => land cfg s id call
  | .answered _ failure =>
    match call.stage, failure with
    | .writing _ _, some message => some (s.moveTo id call (.failed message))
    | .writing _ true, none => some (s.moveTo id call .ended)
    | _, _ => none
  | .ensured _ =>
    match call.stage with
    | .ensuring (finId :: left) next =>
      if finId ∈ s.registeredCredentials then some (s.moveTo id call (.ensuring left next))
      else some (s.moveTo id call (.reading finId left next))
    | _ => none
  | .read _ failure =>
    match call.stage, failure with
    | .reading _ _ _, some message => some (s.moveTo id call (.failed message))
    | .reading finId left next, none =>
      if (credential cfg s.registry finId).isSome then some (s.moveTo id call (.adding finId left next)) else none
    | _, _ => none
  | .added _ =>
    match call.stage with
    | .adding finId left next =>
      some ({ s with registeredCredentials := finId :: s.registeredCredentials }.moveTo id call (.ensuring left next))
    | _ => none
  | .sends _ =>
    match call.stage with
    | .ensuring [] (some submission) => some ((s.record (.sent submission)).moveTo id call .ended)
    | .ensuring [] none => some (s.moveTo id call .ended)
    | _ => none
  | .listed _ unread =>
    match call.stage with
    | .listing since read (finId :: left) =>
      some (s.moveTo id call (.listing since (read ++ [(finId, listOne cfg s finId unread)]) left))
    | _ => none

def Action.id : Action → ℕ
  | .called id _ | .lands id | .answered id _ | .ensured id | .read id _ | .added id | .sends id | .listed id _ => id

def step (cfg : Deployment) (s : State) (a : Action) : Option State :=
  match s.calls a.id, a with
  | none, .called id task =>
    let stage := begin cfg s.log.length task
    some (s.put id ⟨task, stage.write?, stage⟩)
  | some call, a => advance cfg s a.id call a
  | none, _ => none

/-- The mappings that a listing answers with. -/
def accounts (read : List (String × ReadAnswer)) : List (String × String) :=
  read.filterMap fun
    | (finId, .found address) => some (finId, address)
    | _ => none

/-! ### What a step can do -/

/-- A call that moves on alone. -/
inductive Advances (cfg : Deployment) (s : State) : Stage → Stage → Prop
  | refused (write : CredentialWrite) (landed : Bool) (message : String) :
    Advances cfg s (.writing write landed) (.failed message)
  | acknowledged (write : CredentialWrite) : Advances cfg s (.writing write true) .ended
  | known (finId : String) (left : List String) (next : Option Submission) (h : finId ∈ s.registeredCredentials) :
    Advances cfg s (.ensuring (finId :: left) next) (.ensuring left next)
  | asks (finId : String) (left : List String) (next : Option Submission) (h : finId ∉ s.registeredCredentials) :
    Advances cfg s (.ensuring (finId :: left) next) (.reading finId left next)
  | unconfirmed (finId : String) (left : List String) (next : Option Submission) (message : String) :
    Advances cfg s (.reading finId left next) (.failed message)
  | confirmed (finId : String) (left : List String) (next : Option Submission)
    (h : (credential cfg s.registry finId).isSome = true) :
    Advances cfg s (.reading finId left next) (.adding finId left next)
  | balanced : Advances cfg s (.ensuring [] none) .ended
  | listed (since : ℕ) (read : List (String × ReadAnswer)) (finId : String) (left : List String) (unread : Bool) :
    Advances cfg s (.listing since read (finId :: left))
      (.listing since (read ++ [(finId, listOne cfg s finId unread)]) left)

inductive Moves (cfg : Deployment) (s : State) : State → Prop
  | begins (id : ℕ) (task : Task) (h : s.calls id = none) :
    Moves cfg s (s.put id ⟨task, (begin cfg s.log.length task).write?, begin cfg s.log.length task⟩)
  | lands (id : ℕ) (call : Call) (write : CredentialWrite) (h : s.calls id = some call)
    (hcontract : cfg.derives = none) (hsubmitted : call.submitted = some write) :
    Moves cfg s (({ s with registry := write.onRegister.apply s.registry }.record (.landed write)).moveTo id call
      call.stage.land)
  | advances (id : ℕ) (call : Call) (stage : Stage) (h : s.calls id = some call)
    (hstage : Advances cfg s call.stage stage) : Moves cfg s (s.moveTo id call stage)
  | adds (id : ℕ) (call : Call) (finId : String) (left : List String) (next : Option Submission)
    (h : s.calls id = some call) (hstage : call.stage = .adding finId left next) :
    Moves cfg s ({ s with registeredCredentials := finId :: s.registeredCredentials }.moveTo id call
      (.ensuring left next))
  | sends (id : ℕ) (call : Call) (submission : Submission) (h : s.calls id = some call)
    (hstage : call.stage = .ensuring [] (some submission)) :
    Moves cfg s ((s.record (.sent submission)).moveTo id call .ended)

section Steps

variable {cfg : Deployment} {s s' : State}

end Steps

/-! ### What the registry and the services know of each other -/

/-- The registry after what the log tells. -/
def registryAfter (registry : String → Option String) (log : List Event) : String → Option String :=
  Registers.after registry (log.filterMap Event.write?)

/-- It held when the log had come to some length from `since` on. -/
def Once (since : ℕ) (log : List Event) (P : List Event → Prop) : Prop :=
  ∃ earlier later, log = earlier ++ later ∧ since ≤ earlier.length ∧ P earlier

theorem Once.now {since : ℕ} {log : List Event} {P : List Event → Prop} (hsince : since ≤ log.length) (h : P log) :
    Once since log P := ⟨log, [], (List.append_nil _).symm, hsince, h⟩

theorem Once.later {since : ℕ} {log : List Event} {P : List Event → Prop} (h : Once since log P) (more : List Event) :
    Once since (log ++ more) P := by
  obtain ⟨earlier, later, rfl, hsince, hp⟩ := h
  exact ⟨earlier, later ++ more, List.append_assoc .., hsince, hp⟩

/-- The request asks for the write. -/
def Task.Asks : Task → CredentialWrite → Prop
  | .createAccount request, .addCredential finId address =>
    request.finId = finId ∧ request.bindInfo = some ⟨.walletAccount address⟩
  | .saveAccount finId' fields, .addCredential finId address => finId' = finId ∧ fields.ledgerAccountId = some address
  | .deleteAccount finId' _, .removeCredential finId => finId' = finId
  | _, _ => False

section Knowledge

variable (cfg : Deployment) (registry : String → Option String)

/-- There was a credential once. -/
def Confirmed (log : List Event) (finId : String) : Prop :=
  Once 0 log fun earlier => (credential cfg (registryAfter registry earlier) finId).isSome = true

/-- The answer was right while the listing went on. -/
def Right (since : ℕ) (log : List Event) (finId : String) : ReadAnswer → Prop
  | .found address =>
    Once since log fun earlier => credential cfg (registryAfter registry earlier) finId = some address
  | .absent => Once since log fun earlier => credential cfg (registryAfter registry earlier) finId = none
  | .unread => True

/-- The credentials of the transaction that follows are confirmed but for those that are left. -/
def Needs (log : List Event) (left : List String) (next : Option Submission) : Prop :=
  ∀ submission, next = some submission → ∀ finId ∈ submission.finIds, finId ∈ left ∨ Confirmed cfg registry log finId

/-- What is so at each stage of a call. -/
def StageSound (log : List Event) (task : Task) (submitted : Option CredentialWrite) : Stage → Prop
  | .writing write landed => submitted = some write ∧ (landed = true → .landed write ∈ log)
  | .ensuring left next => submitted = none ∧ Needs cfg registry log left next
  | .reading finId left next => submitted = none ∧ Needs cfg registry log (finId :: left) next
  | .adding finId left next =>
    submitted = none ∧ Needs cfg registry log (finId :: left) next ∧ Confirmed cfg registry log finId
  | .listing since read left => submitted = none ∧ since ≤ log.length ∧
    (∃ finIds, task = .getAccounts finIds ∧ finIds.getD [] = read.map Prod.fst ++ left) ∧
    ∀ entry ∈ read, Right cfg registry since log entry.1 entry.2
  | .ended => ∀ write, submitted = some write → .landed write ∈ log
  | .failed _ => True

structure Call.Sound (log : List Event) (call : Call) : Prop where
  asked : ∀ write, call.submitted = some write →
    cfg.onboarding.resolutionMode = .walletMapping ∧ call.task.Asks write
  stage : StageSound cfg registry log call.task call.submitted call.stage

/-- The registry is the first one with the writes that have landed, which were all asked for. What the token service
takes for registered was registered once, as were the credentials of each transaction it has sent. -/
structure Sound (s : State) : Prop where
  written : s.registry = registryAfter registry s.log
  landed : ∀ write, .landed write ∈ s.log →
    cfg.derives = none ∧ ∃ id call, s.calls id = some call ∧ call.submitted = some write
  registered : ∀ finId ∈ s.registeredCredentials, Confirmed cfg registry s.log finId
  calls : ∀ id call, s.calls id = some call → call.Sound cfg registry s.log
  sent : ∀ before submission after, s.log = before ++ .sent submission :: after →
    ∀ finId ∈ submission.finIds, Confirmed cfg registry before finId

end Knowledge

section Invariant

variable {cfg : Deployment} {registry : String → Option String} {s s' : State}

theorem Needs.later {log : List Event} {left : List String} {next : Option Submission}
    (h : Needs cfg registry log left next) (more : List Event) : Needs cfg registry (log ++ more) left next :=
  fun submission hnext finId hin => (h submission hnext finId hin).imp_right fun hc => hc.later more

theorem Right.later {since : ℕ} {log : List Event} {finId : String} {answer : ReadAnswer}
    (h : Right cfg registry since log finId answer) (more : List Event) :
    Right cfg registry since (log ++ more) finId answer := by
  cases answer with
  | found address => exact Once.later h more
  | absent => exact Once.later h more
  | unread => trivial

theorem Call.Sound.later {log : List Event} {call : Call} (h : call.Sound cfg registry log) (more : List Event) :
    call.Sound cfg registry (log ++ more) := by
  obtain ⟨task, submitted, stage⟩ := call
  refine ⟨h.asked, ?_⟩
  have hstage := h.stage
  cases stage with
  | writing write landed => exact ⟨hstage.1, fun hl => List.mem_append_left _ (hstage.2 hl)⟩
  | ensuring left next => exact ⟨hstage.1, hstage.2.later more⟩
  | reading finId left next => exact ⟨hstage.1, hstage.2.later more⟩
  | adding finId left next => exact ⟨hstage.1, hstage.2.1.later more, hstage.2.2.later more⟩
  | listing since read left =>
    refine ⟨hstage.1, ?_, hstage.2.2.1, fun entry hin => (hstage.2.2.2 entry hin).later more⟩
    rw [List.length_append]
    exact hstage.2.1.trans (Nat.le_add_right _ _)
  | ended => exact fun write hw => List.mem_append_left _ (hstage write hw)
  | failed message => trivial

theorem sound_unsubmitted {log : List Event} {task : Task} {stage : Stage}
    (h : StageSound cfg registry log task none stage) : Call.Sound cfg registry log ⟨task, none, stage⟩ :=
  ⟨fun write hwrite => (by cases hwrite), h⟩

theorem sound_ended (log : List Event) (task : Task) : Call.Sound cfg registry log ⟨task, none, .ended⟩ :=
  sound_unsubmitted fun write hwrite => by cases hwrite

theorem sound_createAccount (log : List Event) (request : CreateRequest) :
    Call.Sound cfg registry log
      ⟨.createAccount request, (createAccount cfg request).write?, createAccount cfg request⟩ := by
  unfold createAccount
  split
  · rename_i address hregistering
    refine ⟨fun write hwrite => ?_, rfl, fun hlanded => by cases hlanded⟩
    cases hwrite
    unfold OnChain.createAccount at hregistering
    split at hregistering
    · split at hregistering <;> cases hregistering
    · rename_i bindInfo hbind
      split at hregistering
      · cases hregistering
      · split at hregistering
        · cases hregistering
        · rename_i hmode
          split at hregistering
          · rename_i address' haccount
            cases hregistering
            obtain ⟨account⟩ := bindInfo
            cases haccount
            exact ⟨hmode, rfl, hbind⟩
          · cases hregistering
  · exact sound_unsubmitted trivial
  · exact sound_ended log _

theorem sound_saveAccount (log : List Event) (finId : String) (fields : AccountFields) :
    Call.Sound cfg registry log
      ⟨.saveAccount finId fields, (saveAccount cfg finId fields).write?, saveAccount cfg finId fields⟩ := by
  unfold saveAccount
  cases hmode : cfg.onboarding.resolutionMode with
  | finIdDerivation => exact sound_ended log _
  | walletMapping =>
    cases haddress : truthy fields.ledgerAccountId with
    | none => exact sound_unsubmitted trivial
    | some address =>
      refine ⟨fun write hwrite => ?_, rfl, fun hlanded => by cases hlanded⟩
      cases hwrite
      exact ⟨hmode, rfl, (truthy_eq_some.mp haddress).1⟩

theorem sound_deleteAccount (log : List Event) (finId : String) (fieldName : Option MappingField) :
    Call.Sound cfg registry log
      ⟨.deleteAccount finId fieldName, (deleteAccount cfg finId).write?, deleteAccount cfg finId⟩ := by
  unfold deleteAccount
  cases hmode : cfg.onboarding.resolutionMode with
  | finIdDerivation => exact sound_ended log _
  | walletMapping =>
    refine ⟨fun write hwrite => ?_, rfl, fun hlanded => by cases hlanded⟩
    cases hwrite
    exact ⟨hmode, rfl⟩

/-- A request that begins submits what it asks for. -/
theorem sound_begin (log : List Event) (task : Task) :
    Call.Sound cfg registry log ⟨task, (begin cfg log.length task).write?, begin cfg log.length task⟩ := by
  cases task with
  | createAccount request => exact sound_createAccount log request
  | removeAccount accountId => exact sound_ended log _
  | saveAccount finId fields => exact sound_saveAccount log finId fields
  | deleteAccount finId fieldName => exact sound_deleteAccount log finId fieldName
  | getAccounts finIds =>
    exact sound_unsubmitted ⟨rfl, le_rfl, ⟨finIds, rfl, by simp⟩, fun entry hin => by cases hin⟩
  | operation op =>
    simp only [begin, operation]
    cases prepare cfg.orchestrator op with
    | submits submission =>
      refine sound_unsubmitted ⟨rfl, fun submission' hnext finId hin => ?_⟩
      cases hnext
      exact .inl hin
    | answers receipt => exact sound_ended log _
    | throws e => exact sound_unsubmitted trivial
  | getBalance assetId finId => exact sound_unsubmitted ⟨rfl, fun submission hnext => by cases hnext⟩

theorem Sound.begins (hs : Sound cfg registry s) {id : ℕ} {call : Call} (hfree : s.calls id = none)
    (hcall : call.Sound cfg registry s.log) : Sound cfg registry (s.put id call) where
  written := hs.written
  landed write hin := by
    obtain ⟨hcontract, id', call', hcall', hsubmitted⟩ := hs.landed write hin
    have hne : id' ≠ id := by
      rintro rfl
      cases hfree.symm.trans hcall'
    exact ⟨hcontract, id', call', (Function.update_of_ne hne ..).trans hcall', hsubmitted⟩
  registered := hs.registered
  calls id' call' h := forall_update (P := fun _ call => call.Sound cfg registry s.log) hs.calls hcall h
  sent := hs.sent

theorem Sound.moveTo (hs : Sound cfg registry s) {id : ℕ} {call : Call} {stage : Stage}
    (hcall : s.calls id = some call)
    (hstage : StageSound cfg registry s.log call.task call.submitted stage) :
    Sound cfg registry (s.moveTo id call stage) where
  written := hs.written
  landed write hin := by
    obtain ⟨hcontract, id', call', hcall', hsubmitted⟩ := hs.landed write hin
    refine ⟨hcontract, id', ?_⟩
    by_cases hid : id' = id
    · subst hid
      cases hcall.symm.trans hcall'
      exact ⟨_, Function.update_self .., hsubmitted⟩
    · exact ⟨call', (Function.update_of_ne hid ..).trans hcall', hsubmitted⟩
  registered := hs.registered
  calls id' call' h := forall_update (P := fun _ call => call.Sound cfg registry s.log) hs.calls
    ⟨(hs.calls id call hcall).asked, hstage⟩ h
  sent := hs.sent

/-- The log has grown by an event that the registry and the token service stand by. -/
theorem Sound.record (hs : Sound cfg registry s) {e : Event} (registry' : String → Option String)
    (hwritten : registry' = registryAfter registry (s.log ++ [e]))
    (hlanded : ∀ write, e = .landed write →
      cfg.derives = none ∧ ∃ id call, s.calls id = some call ∧ call.submitted = some write)
    (hsent : ∀ submission, e = .sent submission → ∀ finId ∈ submission.finIds, Confirmed cfg registry s.log finId) :
    Sound cfg registry ({ s with registry := registry' }.record e) where
  written := hwritten
  landed write hin := by
    rcases List.mem_append.mp hin with hin | hin
    · exact hs.landed write hin
    · exact hlanded write (List.mem_singleton.mp hin).symm
  registered finId hin := (hs.registered finId hin).later _
  calls id call h := (hs.calls id call h).later _
  sent before submission after hlog := by
    rcases last_or_earlier hlog with ⟨rfl, rfl⟩ | ⟨after', hearlier⟩
    · exact hsent submission rfl
    · exact hs.sent before submission after' hearlier

theorem registryAfter_landed (log : List Event) (write : CredentialWrite) :
    registryAfter registry (log ++ [.landed write]) = write.onRegister.apply (registryAfter registry log) := by
  rw [registryAfter, List.filterMap_append]
  exact Registers.after_concat _ _

theorem registryAfter_sent (log : List Event) (submission : Submission) :
    registryAfter registry (log ++ [.sent submission]) = registryAfter registry log := by
  rw [registryAfter, List.filterMap_append]
  exact congrArg (Registers.after registry) (List.append_nil _)

/-- A landing is known to its caller if that still waits for it. -/
theorem stageSound_land {log : List Event} {call : Call} {write : CredentialWrite} (h : call.Sound cfg registry log)
    (hsubmitted : call.submitted = some write) (hlanded : .landed write ∈ log) :
    StageSound cfg registry log call.task call.submitted call.stage.land := by
  obtain ⟨task, submitted, stage⟩ := call
  have hstage := h.stage
  cases stage with
  | writing write' landed =>
    refine ⟨hstage.1, fun _ => ?_⟩
    cases hstage.1.symm.trans hsubmitted
    exact hlanded
  | _ => exact hstage

/-- What a listing reads is right at that moment. -/
theorem right_listOne (hwritten : s.registry = registryAfter registry s.log) {since : ℕ}
    (hsince : since ≤ s.log.length) (finId : String) (unread : Bool) :
    Right cfg registry since s.log finId (listOne cfg s finId unread) := by
  unfold listOne
  split_ifs
  · trivial
  · rw [hwritten]
    cases hcredential : credential cfg (registryAfter registry s.log) finId with
    | none => exact Once.now hsince hcredential
    | some address => exact Once.now hsince hcredential

theorem stageSound_advances (hs : Sound cfg registry s) {call : Call} (hcall : call.Sound cfg registry s.log)
    {stage : Stage} (h : Advances cfg s call.stage stage) :
    StageSound cfg registry s.log call.task call.submitted stage := by
  obtain ⟨task, submitted, stage'⟩ := call
  have hstage := hcall.stage
  cases h with
  | refused write landed message => trivial
  | acknowledged write =>
    intro write' hwrite'
    cases hstage.1.symm.trans hwrite'
    exact hstage.2 rfl
  | known finId left next hknown =>
    refine ⟨hstage.1, fun submission hnext finId' hin => ?_⟩
    rcases hstage.2 submission hnext finId' hin with hleft | hconfirmed
    · rcases List.mem_cons.mp hleft with rfl | hleft
      · exact .inr (hs.registered _ hknown)
      · exact .inl hleft
    · exact .inr hconfirmed
  | asks finId left next => exact hstage
  | unconfirmed finId left next message => trivial
  | confirmed finId left next hsome =>
    rw [hs.written] at hsome
    exact ⟨hstage.1, hstage.2, Once.now (Nat.zero_le _) hsome⟩
  | balanced =>
    intro write hwrite
    cases hstage.1.symm.trans hwrite
  | listed since read finId left unread =>
    obtain ⟨hnone, hsince, ⟨finIds, htask, hfinIds⟩, hright⟩ := hstage
    refine ⟨hnone, hsince, ⟨finIds, htask, by simpa using hfinIds⟩, fun entry hin => ?_⟩
    rcases List.mem_append.mp hin with hin | hin
    · exact hright entry hin
    · rw [List.mem_singleton.mp hin]
      exact right_listOne hs.written hsince finId unread

theorem Sound.step (hs : Sound cfg registry s) (h : Moves cfg s s') : Sound cfg registry s' := by
  cases h with
  | begins id task hfree => exact hs.begins hfree (sound_begin s.log task)
  | lands id call write hcall hcontract hsubmitted =>
    have hrecord : Sound cfg registry
        ({ s with registry := write.onRegister.apply s.registry }.record (.landed write)) := by
      refine hs.record _ ?_ (fun write' he => ?_) fun submission he => ?_
      · rw [registryAfter_landed, hs.written]
      · cases he
        exact ⟨hcontract, id, call, hcall, hsubmitted⟩
      · cases he
    have hin : .landed write ∈ s.log ++ [.landed write] := by simp
    exact hrecord.moveTo hcall (stageSound_land ((hs.calls id call hcall).later _) hsubmitted hin)
  | advances id call stage hcall hstage =>
    exact hs.moveTo hcall (stageSound_advances hs (hs.calls id call hcall) hstage)
  | adds id call finId left next hcall hstage =>
    have hcallSound := (hs.calls id call hcall).stage
    rw [hstage] at hcallSound
    obtain ⟨hnone, hneeds, hconfirmed⟩ := hcallSound
    have hadded : Sound cfg registry { s with registeredCredentials := finId :: s.registeredCredentials } := by
      refine { hs with registered := fun finId' hin => ?_ }
      rcases List.mem_cons.mp hin with rfl | hin
      · exact hconfirmed
      · exact hs.registered finId' hin
    refine hadded.moveTo hcall ⟨hnone, fun submission hnext finId' hin => ?_⟩
    rcases hneeds submission hnext finId' hin with hleft | hconfirmed'
    · rcases List.mem_cons.mp hleft with rfl | hleft
      · exact .inr hconfirmed
      · exact .inl hleft
    · exact .inr hconfirmed'
  | sends id call submission hcall hstage =>
    have hcallSound := (hs.calls id call hcall).stage
    rw [hstage] at hcallSound
    obtain ⟨hnone, hneeds⟩ := hcallSound
    have hrecord : Sound cfg registry (s.record (.sent submission)) := by
      refine hs.record s.registry ?_ (fun write he => ?_) fun submission' he finId hin => ?_
      · rw [registryAfter_sent, hs.written]
      · cases he
      · cases he
        exact (hneeds submission rfl finId hin).resolve_left List.not_mem_nil
    exact hrecord.moveTo hcall fun write hwrite => by cases hnone.symm.trans hwrite

/-- What is registered was registered at first, or one of the requests asked for it. -/
theorem Sound.asked (hs : Sound cfg registry s) {finId address : String} (h : s.registry finId = some address) :
    registry finId = some address ∨ ∃ id call asked, s.calls id = some call ∧
      call.task.Asks (.addCredential finId asked) ∧ asked.toLower = address := by
  rw [hs.written] at h
  refine (Registers.put_of_after h).imp_right fun hput => ?_
  obtain ⟨e, hin, he⟩ := List.mem_filterMap.mp hput
  cases e with
  | sent submission => cases he
  | landed write =>
    cases write with
    | removeCredential finId' => cases he
    | addCredential finId' asked =>
      cases he
      obtain ⟨-, id, call, hcall, hsubmitted⟩ := hs.landed _ hin
      exact ⟨id, call, asked, hcall, ((hs.calls id call hcall).asked _ hsubmitted).2, rfl⟩

/-- A removal was asked for by a request to delete the investor's mapping. -/
theorem Sound.deleted (hs : Sound cfg registry s) {finId : String}
    (h : .landed (.removeCredential finId) ∈ s.log) :
    ∃ id call fieldName, s.calls id = some call ∧ call.task = .deleteAccount finId fieldName := by
  obtain ⟨-, id, ⟨task, submitted, stage⟩, hcall, hsubmitted⟩ := hs.landed _ h
  have hasks := ((hs.calls id _ hcall).asked _ hsubmitted).2
  cases task with
  | deleteAccount finId' fieldName =>
    cases hasks
    exact ⟨id, _, fieldName, hcall, rfl⟩
  | _ => cases hasks

/-- Services that take the contract for one that derives wallets submit nothing to it. -/
theorem Sound.untouched (hs : Sound cfg registry s) (hmode : cfg.onboarding.resolutionMode = .finIdDerivation) :
    s.registry = registry := by
  have hnone : s.log.filterMap Event.write? = [] := by
    refine List.filterMap_eq_nil_iff.mpr fun e hin => ?_
    cases e with
    | sent submission => rfl
    | landed write =>
      obtain ⟨-, id, call, hcall, hsubmitted⟩ := hs.landed write hin
      have hmapping := ((hs.calls id call hcall).asked write hsubmitted).1
      cases hmode.symm.trans hmapping
  rw [hs.written, registryAfter, hnone]
  rfl

end Invariant

/-! ### Every run -/

/-- What holds in every run. -/
structure Stands (cfg : Deployment) (registry : String → Option String) (s : State) : Prop where
  /-- An investor's credential is the one at first or one that was asked for. -/
  asked : ∀ finId address, s.registry finId = some address → registry finId = some address ∨
    ∃ id call asked, s.calls id = some call ∧ call.task.Asks (.addCredential finId asked) ∧ asked.toLower = address
  /-- A transaction that was sent without a credential it needs follows the deletion of one. -/
  sent : ∀ before submission after, s.log = before ++ .sent submission :: after → ∀ finId ∈ submission.finIds,
    credential cfg (registryAfter registry before) finId = none →
      (∃ earlier later, before = earlier ++ later ∧
        (credential cfg (registryAfter registry earlier) finId).isSome = true ∧
        .landed (.removeCredential finId) ∈ later) ∧
      ∃ id call fieldName, s.calls id = some call ∧ call.task = .deleteAccount finId fieldName
  /-- A request that ends has had its write land. -/
  landed : ∀ id call write, s.calls id = some call → call.stage = .ended → call.submitted = some write →
    .landed write ∈ s.log
  /-- The mappings of a listing that is over were right while it went on, and those it leaves out were not there or
  could not be read. -/
  listed : ∀ id finIds submitted since read,
    s.calls id = some ⟨.getAccounts finIds, submitted, .listing since read []⟩ →
      (∀ finId address, (finId, address) ∈ accounts read → finId ∈ finIds.getD [] ∧
        Once since s.log fun earlier => credential cfg (registryAfter registry earlier) finId = some address) ∧
      ∀ finId ∈ finIds.getD [], (∃ address, (finId, address) ∈ accounts read) ∨ (finId, .unread) ∈ read ∨
        Once since s.log fun earlier => credential cfg (registryAfter registry earlier) finId = none
  untouched : cfg.onboarding.resolutionMode = .finIdDerivation → s.registry = registry

theorem Sound.listed {cfg : Deployment} {registry : String → Option String} {s : State} (hs : Sound cfg registry s)
    {id : ℕ} {finIds : Option (List String)} {submitted : Option CredentialWrite} {since : ℕ}
    {read : List (String × ReadAnswer)}
    (h : s.calls id = some ⟨.getAccounts finIds, submitted, .listing since read []⟩) :
    read.map Prod.fst = finIds.getD [] ∧ ∀ entry ∈ read, Right cfg registry since s.log entry.1 entry.2 := by
  obtain ⟨-, -, ⟨finIds', htask, hasked⟩, hright⟩ := (hs.calls id _ h).stage
  cases htask
  rw [List.append_nil] at hasked
  exact ⟨hasked.symm, hright⟩

theorem sound_init (cfg : Deployment) (registry : String → Option String) :
    Sound cfg registry (State.init registry) where
  written := rfl
  landed write hin := by cases hin
  registered finId hin := by cases hin
  calls id call h := by cases h
  sent before submission after hlog := by cases before <;> cases hlog

end FinP2PAdapter.OnChain.CredentialsRegistry
