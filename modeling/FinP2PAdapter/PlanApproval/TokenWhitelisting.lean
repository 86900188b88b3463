import FinP2PAdapter.Accounts.AccountResolver
import FinP2PAdapter.PlanApproval.ConfigurableService
import FinP2PAdapter.TokenStandards.Registry

/-! The gating option that checks the investors of a plan against the whitelists of its
assets' token standards: of each instruction that executes here on an asset kept here,
the source and the destination, if they are investors. -/

namespace FinP2PAdapter.PlanApproval

open Accounts Checks TokenStandards
open Omnibus (AssetRecord)

inductive WhitelistPartyRole where
  | source | destination | escrow
  deriving DecidableEq, Repr

def WhitelistPartyRole.text : WhitelistPartyRole → String
  | .source => "source"
  | .destination => "destination"
  | .escrow => "escrow"

structure WhitelistParty where
  finId : Option String
  address : String
  role : WhitelistPartyRole
  deriving DecidableEq, Repr

/-- A standard's methods for whitelists, each of which it may lack; `isWhitelisted` may throw. -/
structure WhitelistMethods where
  isWhitelisted : Option (AssetRecord → WhitelistParty → Except String Bool)
  whitelist : Option (AssetRecord → WhitelistParty → TokenOperationResult)
  dewhitelist : Option (AssetRecord → WhitelistParty → TokenOperationResult)

/-- The check of a standard that has all three methods. -/
def supportsWhitelisting (standard : WhitelistMethods) :
    Option (AssetRecord → WhitelistParty → Except String Bool) :=
  match standard.isWhitelisted, standard.whitelist, standard.dewhitelist with
  | some isWhitelisted, some _, some _ => some isWhitelisted
  | _, _, _ => none

inductive WhitelistCall where
  | isWhitelisted (asset : AssetRecord) (party : WhitelistParty)
  | whitelist (asset : AssetRecord) (party : WhitelistParty)
  | dewhitelist (asset : AssetRecord) (party : WhitelistParty)
  deriving DecidableEq, Repr

/-- The lookups of an option; each of them may throw. -/
structure TokenWhitelistingOption where
  assetStore : String → Except String (Option AssetRecord)
  accountMapping : String → Except String (Option String)
  registry : TokenStandardRegistry WhitelistMethods

/-- What ends the option's loop: an error thrown or a veto. -/
abbrev Ending := Except String PlanApprovalStatus

namespace TokenWhitelistingOption

variable (option : TokenWhitelistingOption)

def validateParty (isWhitelisted : AssetRecord → WhitelistParty → Except String Bool)
    (asset : AssetRecord) (finId address : String) (role : WhitelistPartyRole) (assetId : String)
    (calls : List WhitelistCall) :
    Option Ending × List WhitelistCall :=
  let party : WhitelistParty := ⟨some finId, address, role⟩
  let name := role.text
  (match isWhitelisted asset party with
    | .error e => some (.error e)
    | .ok true => none
    | .ok false => some (.ok (rejectedPlan 1
        s!"{name} {finId} is not whitelisted for asset {assetId}")),
    calls ++ [.isWhitelisted asset party])

/-- One party of an instruction; a party without a finId is no investor. -/
def applyParty (isWhitelisted : AssetRecord → WhitelistParty → Except String Bool) (asset : AssetRecord)
    (planId assetId : String) (party : WhitelistPartyRole × Option String)
    (calls : List WhitelistCall) :
    Option Ending × List WhitelistCall :=
  match truthy party.2 with
  | none => (none, calls)
  | some finId =>
    match option.accountMapping finId with
    | .error e => (some (.error e), calls)
    | .ok found =>
      match truthy found with
      | none =>
        let name := party.1.text
        (some (.ok (rejectedPlan 1
          s!"Plan {planId}: cannot resolve address for {name} {finId} of asset {assetId}")), calls)
      | some address => validateParty isWhitelisted asset finId address party.1 assetId calls

/-- The investors of an instruction, in the order they are checked. -/
def parties (instruction : IntrospectedInstruction) : List (WhitelistPartyRole × Option String) :=
  [(.source, instruction.sourceFinId), (.destination, instruction.destinationFinId)]

/-- The check of an instruction whose asset is kept in the store. -/
def applyAsset (planId assetId : String) (dbAsset : AssetRecord) (instruction : IntrospectedInstruction)
    (calls : List WhitelistCall) : Option Ending × List WhitelistCall :=
  if option.registry.has dbAsset.tokenStandard = false then
    let tokenStandard := dbAsset.tokenStandard
    (some (.ok (rejectedPlan 1
      s!"Plan {planId}: token standard '{tokenStandard}' of asset {assetId} is not registered")), calls)
  else
    match option.registry.resolve dbAsset.tokenStandard with
    | .error e => (some (.error e.text), calls)
    | .ok standard =>
      match supportsWhitelisting standard with
      | none => (none, calls)
      | some isWhitelisted =>
        let outcome := firstStop (option.applyParty isWhitelisted dbAsset planId assetId)
          (fun _ ending => ending)
          (parties instruction) calls
        (outcome.stop, outcome.state)

def applyInstruction (planId : String) (instruction : IntrospectedInstruction)
    (calls : List WhitelistCall) :
    Option Ending × List WhitelistCall :=
  match truthy instruction.assetId with
  | none => (none, calls)
  | some assetId =>
    if instruction.isLocal = false ∨ instruction.type = some "await" then (none, calls)
    else
      match option.assetStore assetId with
      | .error e => (some (.error e), calls)
      | .ok none => (none, calls)
      | .ok (some dbAsset) => option.applyAsset planId assetId dbAsset instruction calls

/-- The calls are those it adds to the standard's. -/
def apply (plan : IntrospectedPlan) (calls : List WhitelistCall) : Verdict × List WhitelistCall :=
  let outcome := firstStop (option.applyInstruction plan.planId)
    (fun _ ending => ending) plan.instructions calls
  (match outcome.stop with
    | none => .ok none
    | some (.error e) => .error e
    | some (.ok veto) => .ok (some veto), outcome.state)

def toOption : PlanApprovalOption (List WhitelistCall) := ⟨"token-whitelisting", true, option.apply⟩

/-! ### Parties -/

/-- The finId is mapped to an address that is whitelisted for the asset. -/
def Admits (isWhitelisted : AssetRecord → WhitelistParty → Except String Bool) (asset : AssetRecord)
    (party : WhitelistPartyRole × Option String) : Prop :=
  ∀ finId, truthy party.2 = some finId →
    ∃ address, truthy ((option.accountMapping finId).toOption.join) = some address ∧
    isWhitelisted asset ⟨some finId, address, party.1⟩ = .ok true

/-- No lookup throws. -/
structure Quiet : Prop where
  assetStore : ∀ assetId, ∃ found, option.assetStore assetId = .ok found
  accountMapping : ∀ finId, ∃ found, option.accountMapping finId = .ok found
  isWhitelisted : ∀ name standard isWhitelisted, option.registry.resolve name = .ok standard →
    supportsWhitelisting standard = some isWhitelisted →
      ∀ asset party, ∃ b, isWhitelisted asset party = .ok b

variable {option}

theorem applyParty_eq_none {isWhitelisted : AssetRecord → WhitelistParty → Except String Bool}
    {asset : AssetRecord} {planId assetId : String} (party : WhitelistPartyRole × Option String)
    (calls : List WhitelistCall) :
    (option.applyParty isWhitelisted asset planId assetId party calls).1 = none ↔
      option.Admits isWhitelisted asset party := by
  unfold applyParty Admits
  cases hfinId : truthy party.2 with
  | none => simp
  | some finId =>
    simp only [Option.some.injEq, forall_eq']
    cases hfound : option.accountMapping finId with
    | error e => simp [Except.toOption, truthy]
    | ok found =>
      simp only [Except.toOption, Option.join_some]
      cases haddress : truthy found with
      | none => simp
      | some address =>
        simp only [validateParty, Option.some.injEq, exists_eq_left']
        cases isWhitelisted asset ⟨some finId, address, party.1⟩ with
        | error e => simp
        | ok b => cases b <;> simp

/-- With quiet lookups a party is passed or vetoed. -/
theorem applyParty_ending {isWhitelisted : AssetRecord → WhitelistParty → Except String Bool}
    {asset : AssetRecord}
    {planId assetId : String} {party : WhitelistPartyRole × Option String} {calls : List WhitelistCall}
    {ending : Ending} (hquiet : option.Quiet)
    (hcheck : ∀ asset party, ∃ b, isWhitelisted asset party = .ok b)
    (h : (option.applyParty isWhitelisted asset planId assetId party calls).1 = some ending) :
    ∃ veto, ending = .ok veto ∧ veto.isRejected = true := by
  unfold applyParty at h
  cases hfinId : truthy party.2 with
  | none => simp [hfinId] at h
  | some finId =>
    obtain ⟨found, hfound⟩ := hquiet.accountMapping finId
    simp only [hfinId, hfound] at h
    cases haddress : truthy found with
    | none =>
      simp only [haddress, Option.some.injEq] at h
      exact ⟨_, h.symm, rfl⟩
    | some address =>
      obtain ⟨b, hb⟩ := hcheck asset ⟨some finId, address, party.1⟩
      simp only [haddress, validateParty, hb] at h
      cases b with
      | true => simp at h
      | false =>
        simp only [Option.some.injEq] at h
        exact ⟨_, h.symm, rfl⟩

theorem parties_stop_eq_none {isWhitelisted : AssetRecord → WhitelistParty → Except String Bool}
    {asset : AssetRecord} {planId assetId : String} {ps : List (WhitelistPartyRole × Option String)}
    {calls : List WhitelistCall} : (firstStop (option.applyParty isWhitelisted asset planId assetId)
      (fun _ ending => ending) ps calls).stop = none ↔
      ∀ party ∈ ps, option.Admits isWhitelisted asset party :=
  stop_eq_none_iff_forall (fun party calls => applyParty_eq_none party calls) ps calls

/-! ### Instructions -/

/-- What an instruction on an asset of the store is vetoed for. -/
def VetoesAsset (option : TokenWhitelistingOption) (dbAsset : AssetRecord)
    (instruction : IntrospectedInstruction) : Prop :=
  option.registry.has dbAsset.tokenStandard = false ∨
    ∃ standard isWhitelisted, option.registry.resolve dbAsset.tokenStandard = .ok standard ∧
      supportsWhitelisting standard = some isWhitelisted ∧
      ∃ party ∈ parties instruction, ¬ option.Admits isWhitelisted dbAsset party

/-- What an instruction is vetoed for. -/
def Vetoes (option : TokenWhitelistingOption) (instruction : IntrospectedInstruction) : Prop :=
  instruction.isLocal = true ∧ instruction.type ≠ some "await" ∧ ∃ assetId dbAsset,
    truthy instruction.assetId = some assetId ∧ option.assetStore assetId = .ok (some dbAsset) ∧
      option.VetoesAsset dbAsset instruction

section Instructions

variable {planId assetId : String} {dbAsset : AssetRecord} {instruction : IntrospectedInstruction}
  {calls : List WhitelistCall} {ending : Ending}

theorem resolve_of_has (h : ¬ option.registry.has dbAsset.tokenStandard = false) :
    ∃ standard, option.registry.resolve dbAsset.tokenStandard = .ok standard :=
  TokenStandardRegistry.has_eq_true.mp (Bool.not_eq_false _ ▸ h)

theorem applyAsset_eq_none : (option.applyAsset planId assetId dbAsset instruction calls).1 = none ↔
    ¬ option.VetoesAsset dbAsset instruction := by
  unfold applyAsset VetoesAsset
  by_cases hhas : option.registry.has dbAsset.tokenStandard = false
  · simp [hhas]
  · obtain ⟨standard, hstandard⟩ := resolve_of_has hhas
    rw [if_neg hhas]
    simp only [hhas, hstandard, Except.ok.injEq, exists_and_left, exists_eq_left',
      Bool.true_eq_false, false_or]
    cases hsupports : supportsWhitelisting standard with
    | none => simp
    | some isWhitelisted =>
      simp only [parties_stop_eq_none, Option.some.injEq, exists_eq_left', not_exists, not_and, not_not]

theorem applyAsset_ending (hquiet : option.Quiet)
    (h : (option.applyAsset planId assetId dbAsset instruction calls).1 = some ending) :
    ∃ veto, ending = .ok veto ∧ veto.isRejected = true := by
  unfold applyAsset at h
  by_cases hhas : option.registry.has dbAsset.tokenStandard = false
  · rw [if_pos hhas] at h
    exact ⟨_, (Option.some.inj h).symm, rfl⟩
  · obtain ⟨standard, hstandard⟩ := resolve_of_has hhas
    simp only [if_neg hhas, hstandard] at h
    cases hsupports : supportsWhitelisting standard with
    | none => simp [hsupports] at h
    | some isWhitelisted =>
      simp only [hsupports] at h
      obtain ⟨i, party, answer, -, hmade, rfl⟩ := exists_stopper h
      obtain ⟨calls', hanswer⟩ := mem_made (List.mem_of_getElem? hmade)
      exact applyParty_ending hquiet (hquiet.isWhitelisted _ _ _ hstandard hsupports) hanswer.symm

/-- An instruction is passed over, or it is checked as its asset says. -/
theorem applyInstruction_cases (hquiet : option.Quiet) (planId : String)
    (instruction : IntrospectedInstruction) (calls : List WhitelistCall) :
    option.applyInstruction planId instruction calls = (none, calls) ∧ ¬ option.Vetoes instruction ∨
      ∃ assetId dbAsset,
        option.applyInstruction planId instruction calls =
          option.applyAsset planId assetId dbAsset instruction calls ∧
        (option.Vetoes instruction ↔ option.VetoesAsset dbAsset instruction) := by
  unfold applyInstruction Vetoes
  cases hasset : truthy instruction.assetId with
  | none => simp
  | some assetId =>
    obtain ⟨found, hfound⟩ := hquiet.assetStore assetId
    by_cases hskip : instruction.isLocal = false ∨ instruction.type = some "await"
    · refine .inl ⟨by simp only [if_pos hskip], ?_⟩
      rintro ⟨hlocal, htype, -⟩
      rcases hskip with h | h
      · rw [hlocal] at h
        cases h
      · exact htype h
    · obtain ⟨hlocal, htype⟩ := not_or.mp hskip
      simp only [if_neg hskip, Bool.not_eq_false] at hlocal ⊢
      cases found with
      | none => exact .inl ⟨by simp only [hfound], by simp [hfound]⟩
      | some dbAsset =>
        exact .inr ⟨assetId, dbAsset, by simp only [hfound], by simp [hlocal, htype, hfound]⟩

theorem applyInstruction_eq_none (hquiet : option.Quiet) (instruction : IntrospectedInstruction)
    (calls : List WhitelistCall) :
    (option.applyInstruction planId instruction calls).1 = none ↔ ¬ option.Vetoes instruction := by
  rcases applyInstruction_cases hquiet planId instruction calls with ⟨he, hveto⟩ | ⟨assetId,
    dbAsset, he, hveto⟩
  · rw [he]
    exact iff_of_true rfl hveto
  · rw [he, hveto]
    exact applyAsset_eq_none

theorem applyInstruction_ending (hquiet : option.Quiet)
    (h : (option.applyInstruction planId instruction calls).1 = some ending) :
    ∃ veto, ending = .ok veto ∧ veto.isRejected = true := by
  rcases applyInstruction_cases hquiet planId instruction calls with ⟨he, -⟩ | ⟨assetId, dbAsset, he, -⟩
  · rw [he] at h
    cases h
  · rw [he] at h
    exact applyAsset_ending hquiet h

end Instructions

/-! ### Plans -/

/-- With quiet lookups the option returns, and vetoes if it returns something. -/
theorem apply_returns (hquiet : option.Quiet) (plan : IntrospectedPlan) (calls : List WhitelistCall) :
    ∃ veto, (option.apply plan calls).1 = .ok veto ∧ (∀ status ∈ veto, status.isRejected = true) ∧
      (veto = none ↔ ∀ instruction ∈ plan.instructions, ¬ option.Vetoes instruction) := by
  have hnone : (firstStop (option.applyInstruction plan.planId)
      (fun _ ending => ending) plan.instructions calls).stop =
        none ↔ ∀ instruction ∈ plan.instructions, ¬ option.Vetoes instruction :=
    stop_eq_none_iff_forall (fun i c => applyInstruction_eq_none hquiet i c) plan.instructions calls
  unfold apply
  cases hstop : (firstStop (option.applyInstruction plan.planId)
    (fun _ e => e) plan.instructions calls).stop with
  | none => exact ⟨none, by simp [hstop], by simp, iff_of_true rfl (hnone.mp hstop)⟩
  | some ending =>
    obtain ⟨i, instruction, answer, -, hmade, rfl⟩ := exists_stopper hstop
    obtain ⟨calls', hanswer⟩ := mem_made (List.mem_of_getElem? hmade)
    obtain ⟨veto, rfl, hveto⟩ := applyInstruction_ending hquiet hanswer.symm
    refine ⟨some veto, by simp [hstop], by simpa using hveto, iff_of_false (by simp) fun h => ?_⟩
    rw [hnone.mpr h] at hstop
    cases hstop

/-- Only questions have been asked of the standards. -/
def OnlyAsked (calls : List WhitelistCall) : Prop :=
  ∀ call ∈ calls, ∃ asset party, call = .isWhitelisted asset party

theorem applyParty_asks {isWhitelisted : AssetRecord → WhitelistParty → Except String Bool}
    {asset : AssetRecord}
    {planId assetId : String} (party : WhitelistPartyRole × Option String) {calls : List WhitelistCall}
    (h : OnlyAsked calls) : OnlyAsked
      (option.applyParty isWhitelisted asset planId assetId party calls).2 := by
  unfold applyParty
  split
  · exact h
  · split
    · exact h
    · dsimp only
      split
      · exact h
      · rename_i address _
        intro call hcall
        rcases List.mem_append.mp hcall with hcall | hcall
        · exact h call hcall
        · exact ⟨asset, _, List.mem_singleton.mp hcall⟩

theorem applyAsset_asks {planId assetId : String} {dbAsset : AssetRecord}
    {instruction : IntrospectedInstruction} {calls : List WhitelistCall} (h : OnlyAsked calls) :
    OnlyAsked (option.applyAsset planId assetId dbAsset instruction calls).2 := by
  unfold applyAsset
  split_ifs
  · exact h
  · split
    · exact h
    · split
      · exact h
      · exact state_invariant (fun party _ h => applyParty_asks party h) (parties instruction) h

/-- The option only ever asks whether a party is whitelisted. -/
theorem apply_asks (plan : IntrospectedPlan) {calls : List WhitelistCall} (h : OnlyAsked calls) :
    OnlyAsked (option.apply plan calls).2 := by
  refine state_invariant (fun instruction calls h => ?_) plan.instructions h
  unfold applyInstruction
  split
  · exact h
  · split_ifs
    · exact h
    · split
      · exact h
      · exact h
      · exact applyAsset_asks h

end TokenWhitelistingOption

/-! ### Raw plans -/

/-- No address is mapped for the finId, or one is that is not whitelisted for the asset. -/
def TokenWhitelistingOption.Unauthorised (option : TokenWhitelistingOption)
    (isWhitelisted : AssetRecord → WhitelistParty → Except String Bool) (dbAsset : AssetRecord)
    (role : WhitelistPartyRole) (finId : String) : Prop :=
  (∀ address, option.accountMapping finId = .ok (some address) → address = "") ∨
    ∃ address, option.accountMapping finId = .ok (some address) ∧
      isWhitelisted dbAsset ⟨some finId, address, role⟩ = .ok false

/-- The instruction names the finId in the role. -/
def RawInstruction.Names (instruction : RawInstruction) (role : WhitelistPartyRole)
    (finId : String) : Prop :=
  finId ≠ "" ∧ (role = .source ∧ finIdOf instruction.operation.source = some finId ∨
    role = .destination ∧ finIdOf instruction.operation.destination = some finId)

/-- The instruction executes on the organization, is no `await`, and concerns an asset of
the store whose standard is unknown, or has whitelists that lack a party it names. -/
def TokenWhitelistingOption.Forbids (option : TokenWhitelistingOption) (orgId : String)
    (instruction : RawInstruction) : Prop :=
  instruction.ExecutesOn orgId ∧ instruction.operation.type ≠ some "await" ∧ ∃ assetId dbAsset,
    instruction.assetId = some assetId ∧ assetId ≠ "" ∧ option.assetStore assetId = .ok (some dbAsset) ∧
      (option.registry.has dbAsset.tokenStandard = false ∨
        ∃ standard isWhitelisted role finId, option.registry.resolve dbAsset.tokenStandard =
          .ok standard ∧
          supportsWhitelisting standard = some isWhitelisted ∧ instruction.Names role finId ∧
          option.Unauthorised isWhitelisted dbAsset role finId)

theorem not_admits_iff {option : TokenWhitelistingOption}
    {isWhitelisted : AssetRecord → WhitelistParty → Except String Bool} {dbAsset : AssetRecord}
    (hquiet : option.Quiet)
    (hcheck : ∀ asset party, ∃ b, isWhitelisted asset party = .ok b) (role : WhitelistPartyRole)
    (named : Option String) : ¬ option.Admits isWhitelisted dbAsset (role, named) ↔
      ∃ finId, named = some finId ∧ finId ≠ "" ∧
        option.Unauthorised isWhitelisted dbAsset role finId := by
  simp only [TokenWhitelistingOption.Admits, truthy_eq_some, not_forall, exists_prop]
  refine exists_congr fun finId => ?_
  obtain ⟨found, hfound⟩ := hquiet.accountMapping finId
  simp only [TokenWhitelistingOption.Unauthorised, hfound, Except.toOption, Option.join_some,
    Except.ok.injEq]
  rw [and_assoc]
  refine and_congr_right fun _ => and_congr_right fun _ => ?_
  cases found with
  | none => simp
  | some address =>
    obtain ⟨b, hb⟩ := hcheck dbAsset ⟨some finId, address, role⟩
    simp only [Option.some.injEq, forall_eq', exists_eq_left', hb, Except.ok.injEq, not_exists, not_and]
    by_cases he : address = ""
    · simp [he]
    · cases b <;> simp [he, hb]

/-- A view is vetoed for what its instruction is forbidden for. -/
theorem vetoes_iff_forbids {option : TokenWhitelistingOption} (hquiet : option.Quiet) {orgId : String}
    {raw : Option RawInstruction} {i : IntrospectedInstruction}
    (h : introspectInstruction orgId raw = .ok i) :
    (∃ instruction, raw = some instruction ∧ option.Forbids orgId instruction) ↔ option.Vetoes i := by
  obtain ⟨instruction, rfl, hlocal, htype, hasset, hsource, hdestination⟩ :=
    introspectInstruction_eq_ok h
  simp only [Option.some.injEq, exists_eq_left', TokenWhitelistingOption.Forbids,
    TokenWhitelistingOption.Vetoes, TokenWhitelistingOption.VetoesAsset, hlocal, htype, hasset,
    truthy_eq_some, and_assoc]
  refine and_congr_right fun _ => and_congr_right fun _ => exists_congr fun assetId =>
    exists_congr fun dbAsset => ?_
  refine and_congr_right fun _ => and_congr_right fun _ => and_congr_right fun _ => or_congr_right ?_
  refine exists_congr fun standard => exists_congr fun isWhitelisted => ?_
  simp only [exists_and_left]
  refine and_congr_right fun hstandard => and_congr_right fun hsupports => ?_
  have hcheck := hquiet.isWhitelisted _ _ _ hstandard hsupports
  have hparty : ∀ party ∈ TokenWhitelistingOption.parties i,
      (¬ option.Admits isWhitelisted dbAsset party ↔
        ∃ finId, party.2 = some finId ∧ finId ≠ "" ∧
          option.Unauthorised isWhitelisted dbAsset party.1 finId) :=
    fun party _ => not_admits_iff hquiet hcheck party.1 party.2
  constructor
  · rintro ⟨role, finId, ⟨hne, ⟨rfl, hnamed⟩ | ⟨rfl, hnamed⟩⟩, hout⟩
    · have hmem : (WhitelistPartyRole.source, i.sourceFinId) ∈ TokenWhitelistingOption.parties i :=
        List.mem_cons_self
      exact ⟨_, hmem, (hparty _ hmem).mpr ⟨finId, hsource.trans hnamed, hne, hout⟩⟩
    · have hmem : (WhitelistPartyRole.destination,
          i.destinationFinId) ∈ TokenWhitelistingOption.parties i :=
        List.mem_cons_of_mem _ List.mem_cons_self
      exact ⟨_, hmem, (hparty _ hmem).mpr ⟨finId, hdestination.trans hnamed, hne, hout⟩⟩
  · rintro ⟨party, hmem, hout⟩
    obtain ⟨finId, hnamed, hne, hout⟩ := (hparty party hmem).mp hout
    rcases List.mem_cons.mp hmem with rfl | hmem
    · exact ⟨.source, finId, ⟨hne, .inl ⟨rfl, hsource.symm.trans hnamed⟩⟩, hout⟩
    · cases List.mem_singleton.mp hmem
      exact ⟨.destination, finId, ⟨hne, .inr ⟨rfl, hdestination.symm.trans hnamed⟩⟩, hout⟩

/-- Some instruction of the view is vetoed exactly if some instruction of the raw plan is forbidden. -/
theorem exists_vetoes_iff {option : TokenWhitelistingOption} {planId orgId : String} {rawPlan : RawPlan}
    {plan : IntrospectedPlan} (hplan : introspectPlan planId orgId rawPlan = .ok plan) (hquiet : option.Quiet) :
    (∃ i ∈ plan.instructions, option.Vetoes i) ↔
      ∃ instruction, some instruction ∈ rawPlan.instructions.elements ∧ option.Forbids orgId instruction := by
  have hforall := (introspectPlan_eq_ok hplan).2.2
  rw [← Throws.exists_mem_iff_of_forall₂ hforall fun raw i h => vetoes_iff_forbids hquiet h]
  constructor
  · rintro ⟨raw, hmem, instruction, rfl, hforbids⟩
    exact ⟨instruction, hmem, hforbids⟩
  · rintro ⟨instruction, hmem, hforbids⟩
    exact ⟨some instruction, hmem, instruction, rfl, hforbids⟩

/-- For every raw plan that can be introspected, and lookups that do not throw: the
option vetoes the plan exactly if it holds an instruction that is forbidden, and it
only ever asks whether a party is whitelisted. -/
theorem apply_rejects_iff (option : TokenWhitelistingOption) (planId orgId : String) (rawPlan : RawPlan)
    (plan : IntrospectedPlan) (hplan : introspectPlan planId orgId rawPlan = .ok plan)
    (hquiet : option.Quiet) : ∃ veto calls, option.apply plan [] = (.ok veto, calls) ∧
      ((∃ status, veto = some status ∧ status.isRejected = true) ↔
        ∃ instruction, some instruction ∈ rawPlan.instructions.elements ∧
          option.Forbids orgId instruction) ∧
      ∀ call ∈ calls, ∃ asset party, call = .isWhitelisted asset party := by
  obtain ⟨veto, hveto, hrejected, hnone⟩ := TokenWhitelistingOption.apply_returns hquiet plan []
  have hcalls : TokenWhitelistingOption.OnlyAsked (option.apply plan []).2 :=
    TokenWhitelistingOption.apply_asks plan (List.forall_mem_nil _)
  refine ⟨veto, (option.apply plan []).2, by rw [← hveto], ?_, hcalls⟩
  have hsome : (∃ status, veto = some status ∧ status.isRejected = true) ↔ veto ≠ none := by
    cases veto with
    | none => simp
    | some status => simpa using hrejected
  rw [hsome, ne_eq, hnone, ← exists_vetoes_iff hplan hquiet]
  simp only [not_forall, not_not, exists_prop]

/-! ### A whitelist of one investor -/

/-- A standard whose whitelists hold alice only. -/
def exclusiveMethods : WhitelistMethods where
  isWhitelisted := some fun _ party => .ok (party.finId = some "alice")
  whitelist := some fun _ _ => .failure "not an onboarding"
  dewhitelist := some fun _ _ => .failure "not an onboarding"

def exclusiveOption : TokenWhitelistingOption where
  assetStore assetId := .ok (if assetId = "asset-1" then some ⟨"0xcc", 2, "WL"⟩ else none)
  accountMapping finId := .ok (some ("address of " ++ finId))
  registry := ⟨String.toUpper, JsMap.empty.set "WL" ⟨exclusiveMethods, .escrowTransfer⟩⟩

theorem exclusive_resolve {name : String} {standard : WhitelistMethods} :
    exclusiveOption.registry.resolve name = .ok standard ↔ name.toUpper = "WL" ∧
      standard = exclusiveMethods := by
  have hget : exclusiveOption.registry.standards.get? (exclusiveOption.registry.toUpperCase name) =
      if name.toUpper = "WL" then some ⟨exclusiveMethods, .escrowTransfer⟩ else none :=
    JsMap.get?_set _ _ _ _
  unfold TokenStandardRegistry.resolve TokenStandardRegistry.entry
  rw [hget]
  by_cases hname : name.toUpper = "WL"
  · rw [if_pos hname]
    exact ⟨fun h => ⟨hname, (Except.ok.inj h).symm⟩, fun h => by rw [h.2]; rfl⟩
  · rw [if_neg hname]
    exact ⟨fun h => (nomatch h), fun h => absurd h.1 hname⟩

theorem exclusive_quiet : exclusiveOption.Quiet := by
  refine ⟨fun assetId => ⟨_, rfl⟩, fun finId => ⟨_, rfl⟩, ?_⟩
  intro name standard isWhitelisted hstandard hsupports asset party
  obtain ⟨-, rfl⟩ := exclusive_resolve.mp hstandard
  cases hsupports
  exact ⟨_, rfl⟩

/-- Alice transfers to bob. -/
def transferToBob : RawInstruction where
  sequence := some 1
  organizations := .value ["bank-us"]
  executionPlanOperation := some {
    type := some "transfer"
    source := some ⟨some ⟨some (some "alice"), some (some "asset-1")⟩, none⟩
    destination := some ⟨some ⟨some (some "bob"), some (some "asset-1")⟩, none⟩
    amount := some "1.0" }

theorem transferToBob_forbidden : exclusiveOption.Forbids "bank-us" transferToBob := by
  have hout : exclusiveOption.Unauthorised (fun _ party => .ok (party.finId = some "alice"))
      ⟨"0xcc", 2, "WL"⟩
        .destination "bob" := .inr ⟨_, rfl, by decide⟩
  exact ⟨.inl (List.mem_singleton_self _), by decide, "asset-1", ⟨"0xcc", 2, "WL"⟩, rfl, by decide, rfl,
    .inr ⟨exclusiveMethods, _, .destination, "bob", exclusive_resolve.mpr ⟨by decide +kernel, rfl⟩,
      rfl, ⟨by decide, .inr ⟨rfl, rfl⟩⟩, hout⟩⟩

theorem transfer_to_bob_vetoed : ∃ plan veto calls,
    introspectPlan "plan-1" "bank-us" ⟨.value [some transferToBob]⟩ = .ok plan ∧
    exclusiveOption.apply plan [] = (.ok veto, calls) ∧ ∃ status, veto = some status ∧
      status.isRejected = true := by
  have hplan : introspectPlan "plan-1" "bank-us" ⟨.value [some transferToBob]⟩ = .ok _ := rfl
  obtain ⟨veto, calls, happly, hrejected, -⟩ :=
    apply_rejects_iff exclusiveOption _ _ _ _ hplan exclusive_quiet
  exact ⟨_, veto, calls, hplan, happly,
    hrejected.mpr ⟨transferToBob, List.mem_singleton_self _, transferToBob_forbidden⟩⟩

end FinP2PAdapter.PlanApproval
