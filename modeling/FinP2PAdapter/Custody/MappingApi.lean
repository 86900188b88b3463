import FinP2PAdapter.Custody.BindingConsistency

/-! The mapping API beside the onboarding. Both write the investors' mappings, an API request after the validator has
put the address of a custody account beside its id, and both may be under way at once. What an investor's operations
are signed with stays the wallet of the investor's address as long as no write without an id leaves another wallet's
id in place. -/

namespace FinP2PAdapter.Custody

open Accounts Machine

inductive MappingField where
  | ledgerAccountId | custodyAccountId
  deriving DecidableEq, Repr

/-- An API request, from its validation to its write. -/
inductive WriteStage where
  | resolving (fields : AccountFields) (custodyAccountId : String)
  | saving (fields : AccountFields)
  | saved
  | rejected (message : String)
  deriving DecidableEq, Repr

structure Write where
  finId : String
  stage : WriteStage
  deriving DecidableEq, Repr

/-- `CustodyMappingValidator.validate` up to the provider's answer. -/
def validateFields {W : Type} (cfg : Onboarding W) (isAddress : String → Bool) (fields : AccountFields) :
    WriteStage :=
  match truthy fields.custodyAccountId with
  | some custodyId =>
    if cfg.resolveAddress.isSome then .resolving fields custodyId
    else .rejected "Custody provider does not support address resolution from custody account ID"
  | none =>
    match truthy fields.ledgerAccountId with
    | some ledgerAddress =>
      if isAddress ledgerAddress then .saving fields else .rejected s!"Invalid Ethereum address: {ledgerAddress}"
    | none => .rejected "Either 'custodyAccountId' or 'ledgerAccountId' must be provided"

/-- The rest of it. -/
def enrichFields {W : Type} (cfg : Onboarding W) (custodyId : String) (rejection : Option String) :
    Option WriteStage :=
  match rejection with
  | some message => some (.rejected message)
  | none => cfg.resolveAddress.map fun resolve => .saving ⟨some (resolve custodyId), some custodyId⟩

/-- `deleteAccount` of a field, or of the whole mapping. -/
def deleteAccount (stored : Option AccountFields) : Option MappingField → Option AccountFields
  | none => none
  | some .ledgerAccountId => stored.map fun fields => { fields with ledgerAccountId := none }
  | some .custodyAccountId => stored.map fun fields => { fields with custodyAccountId := none }

/-! ### Onboardings and requests -/

structure MappingState where
  onboarding : State
  writes : ℕ → Option Write

def MappingState.init (rows : List Row) : MappingState := ⟨Custody.init rows, fun _ => none⟩

inductive MappingAction where
  | onboarding (a : Action)
  | requested (id : ℕ) (finId : String) (fields : AccountFields)
  | resolved (id : ℕ) (rejection : Option String)
  | written (id : ℕ) (rejection : Option String)
  | deleted (finId : String) (field : Option MappingField)
  deriving DecidableEq, Repr

def MappingState.moveTo (s : MappingState) (id : ℕ) (finId : String) (stage : WriteStage) : MappingState :=
  { s with writes := Function.update s.writes id (some ⟨finId, stage⟩) }

def MappingState.setMapping (s : MappingState) (finId : String) (fields : Option AccountFields) : MappingState :=
  { s with onboarding := { s.onboarding with mappings := Function.update s.onboarding.mappings finId fields } }

def mappingStep {W : Type} (cfg : Onboarding W) (isAddress : String → Bool) (s : MappingState) :
    MappingAction → Option MappingState
  | .onboarding a => (step cfg s.onboarding a).map fun onboarding => { s with onboarding := onboarding }
  | .requested id finId fields =>
    match s.writes id with
    | none => some (s.moveTo id finId (validateFields cfg isAddress fields))
    | some _ => none
  | .resolved id rejection =>
    match s.writes id with
    | some ⟨finId, .resolving _ custodyId⟩ => (enrichFields cfg custodyId rejection).map (s.moveTo id finId)
    | _ => none
  | .written id rejection =>
    match s.writes id with
    | some ⟨finId, .saving fields⟩ =>
      match rejection with
      | some message => some (s.moveTo id finId (.rejected message))
      | none => some ((s.moveTo id finId .saved).setMapping finId
          (some (saveAccount cfg.keepsFields (s.onboarding.mappings finId) fields)))
    | _ => none
  | .deleted finId field => some (s.setMapping finId (deleteAccount (s.onboarding.mappings finId) field))

/-! ### The condition on a write -/

section Conditions

variable {W : Type} (cfg : Onboarding W)

/-- A custody account id that the store would keep beside the address is one of the address's wallet. -/
def KeptWalletFits (stored : Option AccountFields) (address : String) : Prop :=
  match cfg.keepsFields, stored.bind fun fields => truthy fields.custodyAccountId, cfg.resolveAddress with
  | true, some kept, some resolve => SameUpToCase address (resolve kept)
  | true, some _, none => False
  | _, _, _ => True

/-- An onboarding mirrors the wallet it asked for, and a write without an id leaves no other wallet's id. -/
def WriteFits (s : MappingState) : MappingAction → Prop
  | .onboarding (.mappingSaved id none) =>
    match s.onboarding.calls id with
    | some ⟨request, .saving effectiveBind custodyAccountId address⟩ =>
      if (truthy custodyAccountId).isSome then RecordedAsAsked effectiveBind address
      else KeptWalletFits cfg (s.onboarding.mappings request.finId) address
    | _ => True
  | .written id none =>
    match s.writes id with
    | some ⟨finId, .saving ⟨some address, none⟩⟩ => KeptWalletFits cfg (s.onboarding.mappings finId) address
    | _ => True
  | _ => True

theorem keptWalletFits_iff (stored : Option AccountFields) (address : String) : KeptWalletFits cfg stored address ↔
    (cfg.keepsFields = true → ∀ kept ∈ stored.bind fun fields => truthy fields.custodyAccountId,
      ∃ resolve ∈ cfg.resolveAddress, SameUpToCase address (resolve kept)) := by
  unfold KeptWalletFits
  cases cfg.keepsFields <;> cases (stored.bind fun fields => truthy fields.custodyAccountId) <;>
    cases cfg.resolveAddress <;> simp

instance (stored : Option AccountFields) (address : String) : Decidable (KeptWalletFits cfg stored address) :=
  decidable_of_iff _ (keptWalletFits_iff cfg stored address).symm

instance (s : MappingState) (a : MappingAction) : Decidable (WriteFits cfg s a) := by
  unfold WriteFits
  split
  · split <;> infer_instance
  · split <;> infer_instance
  · infer_instance

end Conditions

/-! ### What the mappings keep -/

section Invariant

variable {W : Type} {cfg : Onboarding W} {isAddress : String → Bool} {s s' : MappingState} {a : MappingAction}

/-- An id and an address that stand side by side are those of one wallet. -/
def WalletsAgree (cfg : Onboarding W) (mappings : AccountMappings) : Prop :=
  ∀ finId fields custodyAccountId address, mappings finId = some fields →
    truthy fields.custodyAccountId = some custodyAccountId → fields.ledgerAccountId = some address →
    ResolvesTo cfg custodyAccountId address

/-- The fields that a write brings are of one wallet, with an address if it brings no id. -/
def OneWallet (cfg : Onboarding W) (fields : AccountFields) : Prop :=
  (∀ c, truthy fields.custodyAccountId = some c →
    ∃ resolve, cfg.resolveAddress = some resolve ∧ fields.ledgerAccountId = some (resolve c)) ∧
  (truthy fields.custodyAccountId = none → ∃ address, fields.ledgerAccountId = some address)

def WriteStage.Own (cfg : Onboarding W) : WriteStage → Prop
  | .saving fields => OneWallet cfg fields
  | _ => True

theorem own_validateFields (fields : AccountFields) : (validateFields cfg isAddress fields).Own cfg := by
  unfold validateFields
  cases hc : truthy fields.custodyAccountId with
  | some custodyId =>
    dsimp only
    split_ifs <;> trivial
  | none =>
    cases hl : truthy fields.ledgerAccountId with
    | none => trivial
    | some ledgerAddress =>
      dsimp only
      split_ifs
      · refine ⟨fun c h => ?_, fun _ => ⟨ledgerAddress, (truthy_eq_some.mp hl).1⟩⟩
        rw [hc] at h
        cases h
      · trivial

theorem own_enrichFields {custodyId : String} {rejection : Option String} {stage : WriteStage}
    (h : enrichFields cfg custodyId rejection = some stage) : stage.Own cfg := by
  cases rejection with
  | some message =>
    cases h
    trivial
  | none =>
    obtain ⟨resolve, hr, rfl⟩ := Option.map_eq_some_iff.mp h
    refine ⟨fun c hc => ⟨resolve, hr, ?_⟩, fun _ => ⟨_, rfl⟩⟩
    obtain ⟨hc, -⟩ := truthy_eq_some.mp hc
    cases hc
    rfl

theorem KeptWalletFits.resolvesTo {stored : Option AccountFields} {fields : AccountFields} {address c : String}
    (h : KeptWalletFits cfg stored address) (hk : cfg.keepsFields = true) (hs : stored = some fields)
    (hc : truthy fields.custodyAccountId = some c) : ResolvesTo cfg c address := by
  unfold KeptWalletFits at h
  rw [hk, hs, Option.bind_some, hc] at h
  cases hr : cfg.resolveAddress with
  | none => simp [hr] at h
  | some resolve => exact ⟨resolve, hr, by simpa [hr] using h⟩

/-- What a write leaves is of one wallet, if what it brings is and what is kept of the old mapping fits it. -/
theorem saveAccount_oneWallet {stored : Option AccountFields} {fields : AccountFields} {c address : String}
    (hown : ∀ d, truthy fields.custodyAccountId = some d →
      ∃ given, fields.ledgerAccountId = some given ∧ ResolvesTo cfg d given)
    (hkept : ∀ given, fields.ledgerAccountId = some given → fields.custodyAccountId = none →
      KeptWalletFits cfg stored given)
    (hgiven : ∃ given, fields.ledgerAccountId = some given)
    (hc : truthy (saveAccount cfg.keepsFields stored fields).custodyAccountId = some c)
    (ha : (saveAccount cfg.keepsFields stored fields).ledgerAccountId = some address) :
    ResolvesTo cfg c address := by
  obtain ⟨given, hgiven⟩ := hgiven
  have hledger : address = given.toLower := by
    unfold saveAccount at ha
    split at ha <;> simpa [hgiven, eq_comm] using ha
  have hres : ResolvesTo cfg c given := by
    cases hd : fields.custodyAccountId with
    | some d =>
      have hcd : truthy fields.custodyAccountId = some c := by
        unfold saveAccount at hc
        split at hc <;> simpa [hd] using hc
      obtain ⟨given', hgiven', hres⟩ := hown c hcd
      rw [hgiven] at hgiven'
      cases hgiven'
      exact hres
    | none =>
      unfold saveAccount at hc
      split at hc
      · rename_i hk
        exact (hkept given hgiven hd).resolvesTo hk rfl (by simpa [hd] using hc)
      · simp [hd, truthy] at hc
  obtain ⟨resolve, hr, hsame⟩ := hres
  rw [hledger]
  exact ⟨resolve, hr, (SameUpToCase.toLower_left given).trans hsame⟩

theorem WalletsAgree.update {mappings : AccountMappings} (h : WalletsAgree cfg mappings) {finId : String}
    {fields : Option AccountFields}
    (hfields : ∀ f c address, fields = some f → truthy f.custodyAccountId = some c →
      f.ledgerAccountId = some address → ResolvesTo cfg c address) :
    WalletsAgree cfg (Function.update mappings finId fields) := by
  intro finId' f c address hf hc ha
  rw [Function.update_apply] at hf
  split_ifs at hf with hfin
  · exact hfields f c address hf hc ha
  · exact h finId' f c address hf hc ha

structure MappingInv (cfg : Onboarding W) (s : MappingState) : Prop where
  calls : CallsInv cfg s.onboarding
  writes : ∀ id w, s.writes id = some w → w.stage.Own cfg
  agree : WalletsAgree cfg s.onboarding.mappings

theorem MappingInv.moveTo (h : MappingInv cfg s) {id : ℕ} {finId : String} {stage : WriteStage}
    (hs : stage.Own cfg) : MappingInv cfg (s.moveTo id finId stage) :=
  ⟨h.calls, fun _ _ hw => forall_update (P := fun _ w => w.stage.Own cfg) h.writes hs hw, h.agree⟩

theorem MappingInv.setMapping (h : MappingInv cfg s) {finId : String} {fields : Option AccountFields}
    (hfields : ∀ f c address, fields = some f → truthy f.custodyAccountId = some c →
      f.ledgerAccountId = some address → ResolvesTo cfg c address) : MappingInv cfg (s.setMapping finId fields) :=
  ⟨⟨h.calls.asks, h.calls.returned⟩, h.writes, h.agree.update hfields⟩

theorem MappingInv.onboarding (h : MappingInv cfg s) {a : Action} {onboarding : State}
    (hok : WriteFits cfg s (.onboarding a)) (hs : step cfg s.onboarding a = some onboarding) :
    MappingInv cfg { s with onboarding := onboarding } := by
  refine ⟨CallsInv.step h.calls hs, h.writes, ?_⟩
  rcases step_cases hs with ⟨id, request, stage, rows, rfl, -, -⟩ |
    ⟨id, request, effectiveBind, custodyAccountId, address, rfl, hc, rfl⟩
  · exact h.agree
  · simp only [WriteFits, hc] at hok
    refine h.agree.update fun f c a hf hcustody ha => ?_
    cases hf
    refine saveAccount_oneWallet (fun d hd => ?_) (fun given hgiven hnone => ?_) ⟨address, rfl⟩ hcustody ha
    · obtain ⟨hd, hne⟩ := truthy_eq_some.mp hd
      obtain ⟨resolve, hr, he⟩ := h.calls.asks id _ hc d (truthy_eq_some.mp hd).1
      have hd : truthy custodyAccountId = some d := hd
      rw [hd, Option.isSome_some, if_pos rfl, recordedAsAsked_iff he] at hok
      exact ⟨address, rfl, resolve, hr, hok⟩
    · have hnone : truthy custodyAccountId = none := hnone
      rw [hnone] at hok
      cases hgiven
      exact hok

theorem deleteAccount_oneWallet {stored : Option AccountFields} {field : Option MappingField} {f : AccountFields}
    {c address : String} (hf : deleteAccount stored field = some f) (hc : truthy f.custodyAccountId = some c)
    (ha : f.ledgerAccountId = some address) : stored = some f := by
  cases stored with
  | none => rcases field with _ | _ | _ <;> cases hf
  | some old =>
    rcases field with _ | _ | _
    · cases hf
    · cases hf
      cases ha
    · cases hf
      cases hc

theorem MappingInv.step (h : MappingInv cfg s) (hok : WriteFits cfg s a)
    (hs : mappingStep cfg isAddress s a = some s') : MappingInv cfg s' := by
  cases a with
  | onboarding a =>
    obtain ⟨onboarding, hstep, rfl⟩ := Option.map_eq_some_iff.mp hs
    exact h.onboarding hok hstep
  | requested id finId fields =>
    simp only [mappingStep] at hs
    split at hs
    · cases hs
      exact h.moveTo (own_validateFields fields)
    · cases hs
  | resolved id rejection =>
    simp only [mappingStep] at hs
    split at hs
    · obtain ⟨stage, hstage, rfl⟩ := Option.map_eq_some_iff.mp hs
      exact h.moveTo (own_enrichFields hstage)
    · cases hs
  | written id rejection =>
    simp only [mappingStep] at hs
    split at hs
    · rename_i finId fields hw
      obtain ⟨hid, haddress⟩ := h.writes id _ hw
      cases rejection with
      | some message =>
        cases hs
        exact h.moveTo trivial
      | none =>
        cases hs
        have hmoved : MappingInv cfg (s.moveTo id finId .saved) := h.moveTo trivial
        refine hmoved.setMapping fun f c address hf hc ha => ?_
        cases hf
        refine saveAccount_oneWallet (fun d hd => ?_) (fun given hgiven hnone => ?_) ?_ hc ha
        · obtain ⟨resolve, hr, hledger⟩ := hid d hd
          exact ⟨_, hledger, resolve, hr, .refl _⟩
        · obtain ⟨ledger, custody⟩ := fields
          cases hgiven
          cases hnone
          simpa only [WriteFits, hw] using hok
        · cases hcustody : truthy fields.custodyAccountId with
          | none => exact haddress hcustody
          | some d =>
            obtain ⟨resolve, -, hledger⟩ := hid d hcustody
            exact ⟨_, hledger⟩
    · cases hs
  | deleted finId field =>
    cases hs
    refine h.setMapping fun f c address hf hc ha => ?_
    exact h.agree finId f c address (deleteAccount_oneWallet hf hc ha) hc ha

theorem mappingInv_of_reach {rows : List Row}
    (h : ReachUnder (mappingStep cfg isAddress) (WriteFits cfg) (.init rows) s) : MappingInv cfg s := by
  refine h.invariant ⟨callsInv_of_reach .start, nofun, nofun⟩ fun _ _ _ hi hok hs => hi.step hok hs

/-- A write that does not fit leaves an id beside the address of another wallet. -/
theorem writeFits_of_agree {id : ℕ} (hs : mappingStep cfg isAddress s (.written id none) = some s')
    (hagree : WalletsAgree cfg s'.onboarding.mappings) : WriteFits cfg s (.written id none) := by
  simp only [mappingStep] at hs
  split at hs
  · rename_i finId fields hw
    cases hs
    obtain ⟨ledger, custody⟩ := fields
    simp only [WriteFits, hw]
    cases ledger with
    | none => trivial
    | some address =>
      cases custody with
      | some c => trivial
      | none =>
        unfold KeptWalletFits
        cases hk : cfg.keepsFields with
        | false => trivial
        | true =>
          cases hstored : s.onboarding.mappings finId with
          | none => simp [hstored]
          | some old =>
            cases hkept : truthy old.custodyAccountId with
            | none => simp [hstored, hkept]
            | some kept =>
              have hafter := hagree finId ⟨some address.toLower, old.custodyAccountId⟩ kept address.toLower ?_ hkept rfl
              · obtain ⟨resolve, hr, hsame⟩ := hafter
                simpa [hstored, hkept, hr] using (SameUpToCase.toLower_left address).symm.trans hsame
              · simp [MappingState.setMapping, MappingState.moveTo, saveAccount, hk, hstored]
  · cases hs

/-- The wallet that an investor's operations are signed with is the one of the investor's address. -/
theorem WalletsAgree.signsFor {custodyProvider : CustodyProvider W} {walletAddress : W → String}
    (hw : SignsFor custodyProvider walletAddress) (hp : cfg.custodyProvider = some custodyProvider)
    {mappings : AccountMappings} (h : WalletsAgree cfg mappings) {finId address : String} {wallet : W}
    (hs : resolveSourceWallet custodyProvider mappings finId = .ok (some (address, wallet))) :
    SameUpToCase (walletAddress wallet) address ∧ resolveAccount mappings finId = some address := by
  obtain ⟨haccount, ⟨c, create, hm, hne, hcreate, hwallet⟩ | hfound⟩ := resolveSourceWallet_eq_some hs
  · obtain ⟨resolve, hr, hsame⟩ := h finId _ c address hm (truthy_eq_some.mpr ⟨rfl, hne⟩) rfl
    simp only [Onboarding.resolveAddress, hp, Option.bind_some] at hr
    exact ⟨(hw.created create resolve c wallet hcreate hr hwallet).trans hsame.symm, haccount⟩
  · exact ⟨hw.found address wallet hfound, haccount⟩

end Invariant

/-- Through all runs of onboardings and API requests whose writes fit, an investor's operations are signed with the
wallet of the investor's address. An API write is the end of that, for its investor, exactly if it does not fit:
if it gives an address and no id, and the store keeps the id of another wallet. -/
theorem mapping_writes_keep_wallets {W : Type} (cfg : Onboarding W) (isAddress : String → Bool) (rows : List Row)
    (s : MappingState) (h : ReachUnder (mappingStep cfg isAddress) (WriteFits cfg) (.init rows) s) :
    WalletsAgree cfg s.onboarding.mappings ∧
    (∀ custodyProvider walletAddress, cfg.custodyProvider = some custodyProvider →
      SignsFor custodyProvider walletAddress → ∀ finId address wallet,
        resolveSourceWallet custodyProvider s.onboarding.mappings finId = .ok (some (address, wallet)) →
        SameUpToCase (walletAddress wallet) address ∧ resolveAccount s.onboarding.mappings finId = some address) ∧
    ∀ id s', mappingStep cfg isAddress s (.written id none) = some s' →
      (WalletsAgree cfg s'.onboarding.mappings ↔ WriteFits cfg s (.written id none)) := by
  have hinv := mappingInv_of_reach h
  refine ⟨hinv.agree, fun custodyProvider walletAddress hp hw finId address wallet hs => hinv.agree.signsFor hw hp hs,
    fun id s' hs => ⟨writeFits_of_agree hs, fun hok => (hinv.step hok hs).agree⟩⟩

/-- An investor is onboarded to one vault; the API then moves the mapping to another one, while a second investor's
request waits for the provider. -/
def remap : List MappingAction :=
  (onboard 0 "vault-a").map .onboarding ++
    [.requested 0 "investor" ⟨none, some "vault-b"⟩, .requested 1 "other" ⟨none, some "vault-a"⟩, .resolved 0 none,
      .written 0 none]

theorem remapped_investor_signs : ∃ s,
    Reach (mappingStep twoVaultsOnboarding fun _ => true) (.init []) s ∧
    s.onboarding.mappings "investor" = some ⟨some walletB, some "vault-b"⟩ ∧
    ∀ address wallet, resolveSourceWallet twoVaults s.onboarding.mappings "investor" = .ok (some (address, wallet)) →
      SameUpToCase wallet address := by
  have hrun : (exec (guarded (mappingStep twoVaultsOnboarding fun _ => true) (WriteFits twoVaultsOnboarding))
      (.init []) remap).map (fun s => s.onboarding.mappings "investor") =
        some (some ⟨some walletB, some "vault-b"⟩) := by decide +kernel
  obtain ⟨s, hs, hm⟩ := Option.map_eq_some_iff.mp hrun
  have hr := reachUnder_of_exec hs
  refine ⟨s, hr.reach, hm, fun address wallet hw => ?_⟩
  exact ((mapping_writes_keep_wallets twoVaultsOnboarding (fun _ => true) [] s hr).2.1 twoVaults _ rfl
    twoVaults_signsFor "investor" address wallet hw).1

end FinP2PAdapter.Custody
