import FinP2PAdapter.Custody.TokenService

/-! A custody account id on a mapping and the address beside it come from two
places: the id from the request, the address from the row the store recorded.
They agree over a whole run as long as no save mirrors a row of another wallet
than the one its request asked for; one replay that does breaks the mapping. -/

namespace FinP2PAdapter.Custody

open Accounts Machine

variable {W : Type} {cfg : Onboarding W}

/-- The address is, up to letter case, the one the provider resolves the custody
account id to. -/
def ResolvesTo (cfg : Onboarding W) (custodyAccountId address : String) : Prop :=
  ∃ resolve, cfg.resolveAddress = some resolve ∧ SameUpToCase address (resolve custodyAccountId)

/-- Every custody account id on a mapping has its address beside it. -/
def MappingsAgree (cfg : Onboarding W) (mappings : AccountMappings) : Prop :=
  ∀ finId fields custodyAccountId, mappings finId = some fields →
    fields.custodyAccountId = some custodyAccountId →
    ∃ address, fields.ledgerAccountId = some address ∧ ResolvesTo cfg custodyAccountId address

/-- A stage with a custody account id asks for the wallet the id resolves to. -/
def Stage.AsksOwnWallet (cfg : Onboarding W) : Stage → Prop
  | .inserting effectiveBind custodyAccountId | .activating effectiveBind custodyAccountId _
  | .saving effectiveBind custodyAccountId _ =>
    ∀ c, custodyAccountId = some c →
      ∃ resolve, cfg.resolveAddress = some resolve ∧ effectiveBind = some ⟨.walletAccount (resolve c)⟩
  | _ => True

/-! ### The condition on a save -/

/-- The recorded address is the wallet the request asked for. -/
def RecordedAsAsked (effectiveBind : Option BindInfo) (address : String) : Prop :=
  match effectiveBind with
  | some ⟨.walletAccount asked⟩ => SameUpToCase address asked
  | _ => False

/-- A custody account id the store would keep beside the address fits it. -/
def KeptIdFits (cfg : Onboarding W) (stored : Option AccountFields) (address : String) : Prop :=
  match cfg.keepsFields, stored, cfg.resolveAddress with
  | true, some ⟨_, some kept⟩, some resolve => SameUpToCase address (resolve kept)
  | true, some ⟨_, some _⟩, none => False
  | _, _, _ => True

/-- A save with a custody account id mirrors the wallet its request asked for,
and a save without one leaves no other wallet's id beside its address. -/
def MirrorsOwnWallet (cfg : Onboarding W) (s : State) (a : Action) : Prop :=
  match a with
  | .mappingSaved id none =>
    match s.calls id with
    | some ⟨request, .saving effectiveBind custodyAccountId address⟩ =>
      if (truthy custodyAccountId).isSome then RecordedAsAsked effectiveBind address
      else KeptIdFits cfg (s.mappings request.finId) address
    | _ => True
  | _ => True

instance (effectiveBind : Option BindInfo) (address : String) :
    Decidable (RecordedAsAsked effectiveBind address) := by
  unfold RecordedAsAsked
  split <;> infer_instance

instance (cfg : Onboarding W) (stored : Option AccountFields) (address : String) :
    Decidable (KeptIdFits cfg stored address) := by
  unfold KeptIdFits
  split <;> infer_instance

instance (cfg : Onboarding W) (s : State) (a : Action) : Decidable (MirrorsOwnWallet cfg s a) := by
  unfold MirrorsOwnWallet
  split
  · split <;> infer_instance
  · infer_instance

theorem recordedAsAsked_iff {effectiveBind : Option BindInfo} {address asked : String}
    (h : effectiveBind = some ⟨.walletAccount asked⟩) :
    RecordedAsAsked effectiveBind address ↔ SameUpToCase address asked := by
  rw [h]
  exact Iff.rfl

theorem KeptIdFits.resolvesTo {fields : AccountFields} {address c : String}
    (h : KeptIdFits cfg (some fields) address) (hk : cfg.keepsFields = true)
    (hc : fields.custodyAccountId = some c) : ResolvesTo cfg c address := by
  obtain ⟨ledger, custody⟩ := fields
  cases hc
  unfold KeptIdFits at h
  rw [hk] at h
  cases hr : cfg.resolveAddress with
  | none => simp [hr] at h
  | some resolve => exact ⟨resolve, hr, by simpa [hr] using h⟩

/-! ### One step -/

theorem createAccount_asks (bindInfo : Option BindInfo) :
    (createAccount cfg bindInfo).AsksOwnWallet cfg := by
  unfold createAccount
  split
  · intro c hc
    cases hc
  · split_ifs <;> trivial

theorem resolveCustodyAddress_asks {custodyAccountId : String} {rejection : Option String}
    {stage : Stage} (h : resolveCustodyAddress cfg custodyAccountId rejection = some stage) :
    stage.AsksOwnWallet cfg := by
  cases rejection with
  | some message =>
    cases h
    trivial
  | none =>
    obtain ⟨resolve, hr, rfl⟩ := Option.map_eq_some_iff.mp h
    intro c hc
    cases hc
    exact ⟨resolve, hr, rfl⟩

theorem afterInsert_asks {effectiveBind : Option BindInfo} {custodyAccountId : Option String}
    (h : (Stage.inserting effectiveBind custodyAccountId).AsksOwnWallet cfg)
    (account : NetworkAccount) :
    (afterInsert cfg effectiveBind custodyAccountId account).AsksOwnWallet cfg := by
  cases account with
  | walletAccount address =>
    unfold afterInsert
    split_ifs <;> exact h
  | _ => trivial

/-- The state after the save of a call: the only step that writes a mapping. -/
def saved (cfg : Onboarding W) (s : State) (id : ℕ) (request : CreateRequest)
    (custodyAccountId : Option String) (address : String) : State :=
  { s.moveTo id request (.returned (.walletAccount address)) with
    mappings := Function.update s.mappings request.finId (some
      (saveAccount cfg.keepsFields (s.mappings request.finId) ⟨some address, truthy custodyAccountId⟩))
    saved := id :: s.saved }

/-- What a step can do: move a call that has not returned, from a stage that
asks for its own wallet to one that does, or save a mapping and return. -/
theorem step_cases {s s' : State} {a : Action} (h : step cfg s a = some s') :
    (∃ id request stage rows, s' = { s with rows := rows }.moveTo id request stage ∧
      (∀ r account, s.calls id ≠ some ⟨r, .returned account⟩) ∧
      ((∀ call, s.calls id = some call → call.stage.AsksOwnWallet cfg) → stage.AsksOwnWallet cfg)) ∨
    (∃ id request effectiveBind custodyAccountId address, a = .mappingSaved id none ∧
      s.calls id = some ⟨request, .saving effectiveBind custodyAccountId address⟩ ∧
      s' = saved cfg s id request custodyAccountId address) := by
  cases a with
  | createAccount id request =>
    simp only [step] at h
    split at h
    · rename_i hc
      cases h
      exact .inl ⟨id, request, _, s.rows, rfl, by simp [hc], fun _ => createAccount_asks _⟩
    · cases h
  | addressResolved id rejection =>
    simp only [step] at h
    split at h
    · rename_i request custodyAccountId hc
      obtain ⟨stage, hr, rfl⟩ := Option.map_eq_some_iff.mp h
      exact .inl ⟨id, request, stage, s.rows, rfl, by simp [hc], fun _ => resolveCustodyAddress_asks hr⟩
    · cases h
  | inserted id outcome =>
    simp only [step] at h
    split at h
    · rename_i request effectiveBind custodyAccountId hc
      cases outcome with
      | throws message =>
        cases h
        exact .inl ⟨id, request, .thrown message, s.rows, rfl, by simp [hc], fun _ => trivial⟩
      | fails message =>
        cases h
        exact .inl ⟨id, request, .failed message, s.rows, rfl, by simp [hc], fun _ => trivial⟩
      | inserts =>
        obtain ⟨⟨row, rows⟩, -, rfl⟩ := Option.map_eq_some_iff.mp h
        exact .inl ⟨id, request, _, rows, rfl, by simp [hc],
          fun hasks => afterInsert_asks (hasks _ hc) _⟩
    · cases h
  | activated id rejection =>
    simp only [step] at h
    split at h
    · rename_i request effectiveBind custodyAccountId address hc
      cases rejection with
      | none =>
        cases h
        exact .inl ⟨id, request, .saving effectiveBind custodyAccountId address, s.rows, rfl,
          by simp [hc], fun hasks => hasks _ hc⟩
      | some message =>
        cases h
        exact .inl ⟨id, request, _, s.rows, rfl, by simp [hc], fun _ => trivial⟩
    · cases h
  | mappingSaved id rejection =>
    simp only [step] at h
    split at h
    · rename_i request effectiveBind custodyAccountId address hc
      cases rejection with
      | some message =>
        cases h
        exact .inl ⟨id, request, .thrown message, s.rows, rfl, by simp [hc], fun _ => trivial⟩
      | none =>
        cases h
        exact .inr ⟨id, request, effectiveBind, custodyAccountId, address, rfl, hc, rfl⟩
    · cases h

/-! ### The calls of a run -/

/-- What holds of the calls in every run. -/
structure CallsInv (cfg : Onboarding W) (s : State) : Prop where
  asks : ∀ id call, s.calls id = some call → call.stage.AsksOwnWallet cfg
  returned : ∀ id ∈ s.saved, ∃ request account, s.calls id = some ⟨request, .returned account⟩

theorem CallsInv.moveTo {s : State} (h : CallsInv cfg s) {id : ℕ} {request : CreateRequest}
    {stage : Stage}
    (hs : stage.AsksOwnWallet cfg) (hn : ∀ r account, s.calls id ≠ some ⟨r, .returned account⟩) :
    CallsInv cfg (s.moveTo id request stage) where
  asks := by
    intro i call hc
    exact forall_update h.asks hs hc
  returned := by
    intro i hi
    obtain ⟨r, account, hc⟩ := h.returned i hi
    have hne : i ≠ id := by
      rintro rfl
      exact hn r account hc
    exact ⟨r, account, by simpa [State.moveTo, hne] using hc⟩

theorem CallsInv.step {s s' : State} {a : Action} (h : CallsInv cfg s)
    (hs : Custody.step cfg s a = some s') : CallsInv cfg s' := by
  rcases step_cases hs with ⟨id, request, stage, rows, rfl, hn, hstage⟩ |
    ⟨id, request, effectiveBind, custodyAccountId, address, rfl, hc, rfl⟩
  · have hrows : CallsInv cfg { s with rows := rows } := ⟨h.asks, h.returned⟩
    exact hrows.moveTo (hstage fun call hc => h.asks id call hc) hn
  · have hm : CallsInv cfg (s.moveTo id request (.returned (.walletAccount address))) :=
      h.moveTo trivial (by simp [hc])
    refine ⟨hm.asks, ?_⟩
    intro i hi
    rcases List.mem_cons.mp hi with rfl | hi
    · exact ⟨request, .walletAccount address, by simp [saved, State.moveTo]⟩
    · exact hm.returned i hi

theorem callsInv_of_reach {rows : List Row} {s : State} (h : Reach (step cfg) (init rows) s) :
    CallsInv cfg s := by
  refine h.invariant ⟨?_, ?_⟩ fun _ _ _ hi _ hs => CallsInv.step hi hs
  · intro id call hc
    cases hc
  · intro id hid
    cases hid

/-! ### The mappings of a run -/

/-- The fields a save leaves agree if the saved address is the one asked for, or
no id is given and the one kept fits it. -/
theorem saveAccount_agrees {stored : Option AccountFields} {custodyAccountId : Option String}
    {address c : String} (hgiven : ∀ d, custodyAccountId = some d → ResolvesTo cfg d address)
    (hkept : custodyAccountId = none → KeptIdFits cfg stored address)
    (hc : (saveAccount cfg.keepsFields stored ⟨some address, custodyAccountId⟩).custodyAccountId =
      some c) :
    ∃ a, (saveAccount cfg.keepsFields stored ⟨some address, custodyAccountId⟩).ledgerAccountId =
      some a ∧ ResolvesTo cfg c a := by
  have hledger : (saveAccount cfg.keepsFields stored ⟨some address, custodyAccountId⟩).ledgerAccountId =
      some address.toLower := by
    unfold saveAccount
    split <;> rfl
  have hres : ResolvesTo cfg c address := by
    cases hd : custodyAccountId with
    | some d =>
      have hcd : c = d := by
        unfold saveAccount at hc
        split at hc <;> simpa [hd, eq_comm] using hc
      exact hcd ▸ hgiven d hd
    | none =>
      unfold saveAccount at hc
      split at hc
      · rename_i hk
        exact (hkept hd).resolvesTo hk (by simpa [hd] using hc)
      · simp [hd] at hc
  obtain ⟨resolve, hr, hsame⟩ := hres
  exact ⟨_, hledger, resolve, hr, (SameUpToCase.toLower_left address).trans hsame⟩

theorem MappingsAgree.step {s s' : State} {a : Action} (h : MappingsAgree cfg s.mappings)
    (hcalls : CallsInv cfg s) (hok : MirrorsOwnWallet cfg s a) (hs : Custody.step cfg s a = some s') :
    MappingsAgree cfg s'.mappings := by
  rcases step_cases hs with ⟨id, request, stage, rows, rfl, -, -⟩ |
    ⟨id, request, effectiveBind, custodyAccountId, address, ha, hc, rfl⟩
  · exact h
  · subst ha
    simp only [MirrorsOwnWallet, hc] at hok
    intro finId fields c hf hcustody
    simp only [saved, Function.update_apply] at hf
    split_ifs at hf with hfin
    · cases hf
      refine saveAccount_agrees ?_ ?_ hcustody
      · intro d hd
        obtain ⟨resolve, hr, he⟩ := hcalls.asks id _ hc d (truthy_eq_some.mp hd).1
        rw [hd, Option.isSome_some, if_pos rfl, recordedAsAsked_iff he] at hok
        exact ⟨resolve, hr, hok⟩
      · intro hn
        simpa [hn] using hok
    · exact h finId fields c hf hcustody

theorem mappingsAgree_of_reachUnder {rows : List Row} {s : State}
    (h : ReachUnder (step cfg) (MirrorsOwnWallet cfg) (init rows) s) :
    MappingsAgree cfg s.mappings := by
  refine h.invariant_from (P := fun s => MappingsAgree cfg s.mappings)
    (fun _ hr => callsInv_of_reach hr.reach) ?_ fun _ _ _ hcalls hi hok hs =>
      MappingsAgree.step hi hcalls hok hs
  intro finId fields c hf
  cases hf

/-! ### The wallet an operation is signed with -/

/-- The documented behaviour of a custody provider: the wallet it creates for an
id signs for the address it resolves the id to, and the one it finds for an
address signs for that address. -/
structure SignsFor (custodyProvider : CustodyProvider W) (walletAddress : W → String) : Prop where
  created : ∀ create resolve c wallet, custodyProvider.createWalletForCustodyId = some create →
    custodyProvider.resolveAddressFromCustodyId = some resolve → create c = .ok wallet →
    SameUpToCase (walletAddress wallet) (resolve c)
  found : ∀ address wallet, custodyProvider.resolveWallet address = .ok (some wallet) →
    SameUpToCase (walletAddress wallet) address

theorem resolveSourceWallet_signsFor {custodyProvider : CustodyProvider W} {walletAddress : W → String}
    (hw : SignsFor custodyProvider walletAddress) (hp : cfg.custodyProvider = some custodyProvider)
    {mappings : AccountMappings} (h : MappingsAgree cfg mappings) {finId address : String} {wallet : W}
    (hs : resolveSourceWallet custodyProvider mappings finId = .ok (some (address, wallet))) :
    SameUpToCase (walletAddress wallet) address ∧ resolveAccount mappings finId = some address := by
  obtain ⟨haccount, ⟨c, create, hm, -, hcreate, hwallet⟩ | hfound⟩ := resolveSourceWallet_eq_some hs
  · obtain ⟨a, ha, resolve, hr, hsame⟩ := h finId _ c hm rfl
    cases ha
    simp only [Onboarding.resolveAddress, hp, Option.bind_some] at hr
    exact ⟨(hw.created create resolve c wallet hcreate hr hwallet).trans hsame.symm, haccount⟩
  · exact ⟨hw.found address wallet hfound, haccount⟩

/-- In every run whose saves mirror the wallet asked for, the address beside a
custody account id is the one the id resolves to and an operation is signed by
the wallet of the investor's address; in every run a call that throws or fails
has written no mapping. -/
theorem onboarding_keeps_wallets {W : Type} (cfg : Onboarding W) (rows : List Row) :
    (∀ s, ReachUnder (step cfg) (MirrorsOwnWallet cfg) (init rows) s →
      (∀ finId fields c, s.mappings finId = some fields → fields.custodyAccountId = some c →
        ∃ address, fields.ledgerAccountId = some address ∧
          ∃ resolve, cfg.resolveAddress = some resolve ∧ SameUpToCase address (resolve c)) ∧
      (∀ custodyProvider walletAddress, cfg.custodyProvider = some custodyProvider →
        SignsFor custodyProvider walletAddress → ∀ finId address wallet,
        resolveSourceWallet custodyProvider s.mappings finId = .ok (some (address, wallet)) →
        SameUpToCase (walletAddress wallet) address ∧ resolveAccount s.mappings finId = some address)) ∧
    (∀ s, Reach (step cfg) (init rows) s →
      (∀ id request message, s.calls id = some ⟨request, .thrown message⟩ ∨
        s.calls id = some ⟨request, .failed message⟩ → id ∉ s.saved) ∧
      ∀ a s', step cfg s a = some s' → s'.mappings = s.mappings ∨ ∃ id, s'.saved = id :: s.saved) := by
  refine ⟨fun s hr => ?_, fun s hr => ⟨?_, ?_⟩⟩
  · have hagree := mappingsAgree_of_reachUnder hr
    exact ⟨hagree, fun custodyProvider walletAddress hp hw finId address wallet hs =>
      resolveSourceWallet_signsFor hw hp hagree hs⟩
  · intro id request message hc hm
    obtain ⟨r, account, hret⟩ := (callsInv_of_reach hr).returned id hm
    rcases hc with hc | hc <;> rw [hc] at hret <;> cases hret
  · intro a s' hs
    rcases step_cases hs with ⟨id, request, stage, rows, rfl, -, -⟩ |
      ⟨id, request, effectiveBind, custodyAccountId, address, -, -, rfl⟩
    · exact .inl rfl
    · exact .inr ⟨id, rfl⟩

/-! ### Two vaults -/

def walletA : String := "0x1111111111111111111111111111111111111111"
def walletB : String := "0x2222222222222222222222222222222222222222"

/-- A provider of two vaults whose wallets are their addresses. -/
def twoVaults : CustodyProvider String where
  resolveWallet address := .ok (if address ∈ [walletA, walletB] then some address else none)
  createWalletForCustodyId := some fun c => .ok (if c = "vault-a" then walletA else walletB)
  resolveAddressFromCustodyId := some fun c => if c = "vault-a" then walletA else walletB

/-- One binding per investor and asset: a repeat is answered with its row. -/
def twoVaultsOnboarding : Onboarding String where
  custodyProvider := some twoVaults
  replays request row := request.finId = row.finId ∧ request.assetId = row.assetId
  activatesWallets := false
  keepsFields := false

/-- The events of an undisturbed custodial onboarding of one investor. -/
def onboard (id : ℕ) (vaultAccountId : String) : List Action :=
  [.createAccount id ⟨"key", "org", "bond", "investor",
    some ⟨.custodialAccount "vaults" vaultAccountId⟩⟩,
    .addressResolved id none, .inserted id .inserts, .mappingSaved id none]

theorem twoVaults_signsFor : SignsFor twoVaults fun wallet => wallet where
  created := by
    intro create resolve c wallet hcreate hresolve hc
    cases hcreate
    cases hresolve
    cases hc
    rfl
  found := by
    intro address wallet h
    simp only [twoVaults, Except.ok.injEq] at h
    split_ifs at h
    cases h
    rfl

/-- An investor onboarded once operates with the vault's own wallet. -/
theorem onboarded_investor_signs : ∃ s, Reach (step twoVaultsOnboarding) (init []) s ∧
    s.mappings "investor" = some ⟨some walletA, some "vault-a"⟩ ∧
    ∀ address wallet, resolveSourceWallet twoVaults s.mappings "investor" =
      .ok (some (address, wallet)) →
      SameUpToCase wallet address ∧ resolveAccount s.mappings "investor" = some address := by
  have hrun : (exec (guarded (step twoVaultsOnboarding) (MirrorsOwnWallet twoVaultsOnboarding))
      (init []) (onboard 0 "vault-a")).map (fun s => s.mappings "investor") =
        some (some ⟨some walletA, some "vault-a"⟩) := by decide +kernel
  obtain ⟨s, hs, hm⟩ := Option.map_eq_some_iff.mp hrun
  have hr := reachUnder_of_exec hs
  exact ⟨s, hr.reach, hm, ((onboarding_keeps_wallets twoVaultsOnboarding []).1 s hr).2 twoVaults _ rfl
    twoVaults_signsFor "investor"⟩

/-- A second onboarding that names another vault replays the first binding: its
vault is mirrored beside the first one's address, and signs for it. -/
theorem replay_mirrors_other_vault : ∃ s, Reach (step twoVaultsOnboarding) (init []) s ∧
    s.mappings "investor" = some ⟨some walletA, some "vault-b"⟩ ∧
    ¬ SameUpToCase walletA walletB ∧
    twoVaults.resolveAddressFromCustodyId.map (fun resolve => resolve "vault-b") = some walletB ∧
    resolveSourceWallet twoVaults s.mappings "investor" = .ok (some (walletA, walletB)) := by
  have hrun : (exec (step twoVaultsOnboarding) (init [])
      (onboard 0 "vault-a" ++ onboard 1 "vault-b")).map
        (fun s => (s.mappings "investor", resolveSourceWallet twoVaults s.mappings "investor")) =
        some (some ⟨some walletA, some "vault-b"⟩, .ok (some (walletA, walletB))) := by decide +kernel
  obtain ⟨s, hs, he⟩ := Option.map_eq_some_iff.mp hrun
  simp only [Prod.mk.injEq] at he
  exact ⟨s, reach_of_exec hs, he.1, by decide +kernel, by decide +kernel, he.2⟩

end FinP2PAdapter.Custody
