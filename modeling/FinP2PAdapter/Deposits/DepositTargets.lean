import FinP2PAdapter.Custody.TokenService
import FinP2PAdapter.Deposits.OtaPlugin
import FinP2PAdapter.Deposits.PullPlugin

/-! Where the deposits of an investor go in the segregated model: to the wallet the mapping names,
if the custody provider can create one from the mapping's custody account. The wallet-deposit
plugin hands its address out, the pull and one-time-address plugins move the tokens there. -/

namespace FinP2PAdapter.Deposits

open Accounts Custody

variable {W : Type}

structure ResolvedWallet (W : Type) where
  walletAddress : String
  wallet : W

/-- `createWalletResolver`. -/
def walletResolver (custodyProvider : CustodyProvider W) (mappings : AccountMappings) (finId : String) :
    Except ServiceError (Option (ResolvedWallet W)) :=
  match custodyProvider.createWalletForCustodyId, mappings finId with
  | none, _ | some _, none => .ok none
  | some createWalletForCustodyId, some fields =>
    match truthy fields.ledgerAccountId, truthy fields.custodyAccountId with
    | some walletAddress, some custodyAccountId =>
      (createWalletForCustodyId custodyAccountId).map fun wallet => some ⟨walletAddress, wallet⟩
    | _, _ => .ok none

/-- The target resolver that the pull and the one-time-address plugin are registered with. -/
def resolveDepositTarget (custodyProvider : CustodyProvider W) (mappings : AccountMappings)
    (finId : String) : Except String (Option String) :=
  match walletResolver custodyProvider mappings finId with
  | .error e => .error e.text
  | .ok resolved => .ok (resolved.map (·.walletAddress))

structure WalletDepositPlugin (W : Type) where
  assetStore : String → Option DbAsset
  walletResolver : String → Except ServiceError (Option (ResolvedWallet W))
  network : String

/-- `operationId` is the id that is generated for it. -/
def WalletDepositPlugin.deposit (plugin : WalletDepositPlugin W) (request : Request)
    (operationId : String) : Except ServiceError DepositOperation :=
  match request.asset.assetId with
  | none => .ok (.failed 1 "Wallet deposit only supports finp2p asset type")
  | some assetId =>
    if request.asset.assetType ≠ "finp2p" then
      .ok (.failed 1 "Wallet deposit only supports finp2p asset type")
    else
      match plugin.assetStore assetId with
      | none => .ok (.failed 1 s!"Asset {assetId} is not registered")
      | some dbAsset =>
        match plugin.walletResolver request.ownerFinId with
        | .error e => .error e
        | .ok none =>
          let finId := request.ownerFinId
          .ok (.failed 1 s!"No wallet mapping registered for finId {finId}")
        | .ok (some resolved) => .ok (.successful {
            finId := request.ownerFinId
            address := resolved.walletAddress
            description := "Wallet deposit to investor address"
            paymentDescription := "Crypto transfer"
            currency := assetId
            network := plugin.network
            contractAddress := dbAsset.contractAddress
            walletAddress := resolved.walletAddress
            operationId := operationId
            custodyAccountId := none })

/-! ### Agreement with the source wallets -/

/-- All ways of depositing serve the investor at the address that operations resolve. -/
structure ServesDeposits (custodyProvider : CustodyProvider W) (mappings : AccountMappings)
    (finId address : String) : Prop where
  mapped : resolveAccount mappings finId = some address
  resolved : ∃ wallet, walletResolver custodyProvider mappings finId = .ok (some ⟨address, wallet⟩)
  wallet : ∀ (assetStore : String → Option DbAsset) (network : String) (request : Request)
    (assetId : String) (dbAsset : DbAsset) (operationId : String),
    request.ownerFinId = finId → request.asset = ⟨"finp2p", some assetId⟩ →
    assetStore assetId = some dbAsset →
      ∃ instruction, WalletDepositPlugin.deposit
        ⟨assetStore, walletResolver custodyProvider mappings, network⟩ request operationId =
          .ok (.successful instruction) ∧
        instruction.address = address ∧ instruction.walletAddress = address
  pull : ∀ (cfg : PullDepositPlugin.Config) (s : PullDepositPlugin.State) (c : ℕ) (request : Request)
    (assetId : String) (dbAsset : DbAsset), request.ownerFinId = finId →
    s.calls.get? c = some (.resolveDepositTarget request assetId dbAsset) →
      PullDepositPlugin.step cfg s (.target c (resolveDepositTarget custodyProvider mappings finId)) =
        some (PullDepositPlugin.getWatcher s c ⟨finId, assetId, dbAsset, address, request.amount⟩)
  ota : ∀ (cfg : OtaDepositPlugin.Config) (s : OtaDepositPlugin.State) (c : ℕ) (request : Request)
    (assetId : String) (dbAsset : DbAsset) (correlationId : String), request.ownerFinId = finId →
    s.calls.get? c = some (.resolveSweepTarget request assetId dbAsset) →
      OtaDepositPlugin.step cfg s
          (.target c (resolveDepositTarget custodyProvider mappings finId) correlationId) =
        some (s.setCall c (.createCustodyAccount
          ⟨finId, assetId, dbAsset, address, request.amount⟩ correlationId))

/-- The provider finds a wallet for the mapped address, but cannot create one from the mapping: it
names no custody account, or the provider creates none. -/
def FoundByAddressOnly (custodyProvider : CustodyProvider W) (mappings : AccountMappings)
    (finId : String) : Prop :=
  ∃ address custodyAccountId wallet, mappings finId = some ⟨some address, custodyAccountId⟩ ∧
    address ≠ "" ∧
    (truthy custodyAccountId = none ∨ (custodyProvider.createWalletForCustodyId).isNone = true) ∧
    custodyProvider.resolveWallet address = .ok (some wallet)

section Agreement

variable {custodyProvider : CustodyProvider W} {mappings : AccountMappings} {finId address : String}

/-- From a custody account both resolvers create the same wallet. -/
theorem walletResolver_eq_some {custodyAccountId : String} {create : String → Except ServiceError W}
    {wallet : W} (hmapping : mappings finId = some ⟨some address, some custodyAccountId⟩)
    (haddress : address ≠ "") (hcustody : custodyAccountId ≠ "")
    (hcreate : custodyProvider.createWalletForCustodyId = some create)
    (hwallet : create custodyAccountId = .ok wallet) :
    walletResolver custodyProvider mappings finId = .ok (some ⟨address, wallet⟩) := by
  have hledger : truthy (some address) = some address := truthy_eq_some.mpr ⟨rfl, haddress⟩
  have hid : truthy (some custodyAccountId) = some custodyAccountId := truthy_eq_some.mpr ⟨rfl, hcustody⟩
  simp only [walletResolver, hcreate, hmapping, hledger, hid, hwallet]
  rfl

/-- Where the resolver answers, so do the plugins. -/
theorem servesDeposits_of_resolved {wallet : W} (haddress : address ≠ "")
    (hmapped : resolveAccount mappings finId = some address)
    (hresolved : walletResolver custodyProvider mappings finId = .ok (some ⟨address, wallet⟩)) :
    ServesDeposits custodyProvider mappings finId address := by
  have htarget : resolveDepositTarget custodyProvider mappings finId = .ok (some address) := by
    simp [resolveDepositTarget, hresolved]
  refine ⟨hmapped, ⟨wallet, hresolved⟩, ?_, ?_, ?_⟩
  · rintro assetStore network request assetId dbAsset operationId rfl hasset hstored
    simp [WalletDepositPlugin.deposit, hasset, hstored, hresolved]
  · rintro cfg s c request assetId dbAsset rfl hcall
    simp [PullDepositPlugin.step, hcall, htarget]
  · rintro cfg s c request assetId dbAsset correlationId rfl hcall
    simp [OtaDepositPlugin.step, hcall, htarget]

/-- A mapping the provider knows by its address alone has a source wallet and no deposit target. -/
theorem resolvers_part (h : FoundByAddressOnly custodyProvider mappings finId) :
    (∃ address wallet, resolveSourceWallet custodyProvider mappings finId = .ok (some (address, wallet))) ∧
      walletResolver custodyProvider mappings finId = .ok none := by
  obtain ⟨address, custodyAccountId, wallet, hmapping, haddress, hlacks, hwallet⟩ := h
  have hledger : truthy (some address) = some address := truthy_eq_some.mpr ⟨rfl, haddress⟩
  have hfull : resolveFullAccount mappings finId = some ⟨address, custodyAccountId⟩ := by
    simp [resolveFullAccount, hmapping, hledger]
  have hfound : walletFor custodyProvider address = .ok (some (address, wallet)) := by
    rw [walletFor, if_neg haddress, hwallet]
    rfl
  have hby : resolveSourceWallet custodyProvider mappings finId = walletFor custodyProvider address := by
    rw [resolveSourceWallet, hfull]
    rcases hlacks with hlacks | hlacks
    · simp only [hlacks]
    · rw [Option.isNone_iff_eq_none] at hlacks
      simp only [hlacks]
      cases truthy custodyAccountId <;> rfl
  refine ⟨⟨address, wallet, hby.trans hfound⟩, ?_⟩
  unfold walletResolver
  rcases hlacks with hlacks | hlacks
  · cases custodyProvider.createWalletForCustodyId with
    | none => rfl
    | some create => simp only [hmapping, hledger, hlacks]
  · rw [Option.isNone_iff_eq_none] at hlacks
    rw [hlacks]

/-- Any other investor with a source wallet has it created from the mapping. -/
theorem resolved_of_not_foundByAddressOnly {wallet : W}
    (h : ¬ FoundByAddressOnly custodyProvider mappings finId)
    (hsource : resolveSourceWallet custodyProvider mappings finId = .ok (some (address, wallet))) :
    address ≠ "" ∧ walletResolver custodyProvider mappings finId = .ok (some ⟨address, wallet⟩) := by
  unfold resolveSourceWallet at hsource
  cases hfull : resolveFullAccount mappings finId with
  | none =>
    cases hmapped : resolveAccount mappings finId with
    | none => simp [hfull, hmapped] at hsource
    | some mapped =>
      -- without a full account the mapped address is empty
      simp only [hfull, hmapped] at hsource
      obtain ⟨rfl, -⟩ := walletFor_eq_some hsource
      obtain ⟨fields, hfields, hledger⟩ := Option.bind_eq_some_iff.mp hmapped
      have hempty : address = "" := by
        by_contra hne
        have htruthy : truthy fields.ledgerAccountId = some address := truthy_eq_some.mpr ⟨hledger, hne⟩
        simp [resolveFullAccount, hfields, htruthy] at hfull
      rw [walletFor, if_pos hempty] at hsource
      cases hsource
  | some full =>
    obtain ⟨hmapping, -⟩ := resolveFullAccount_eq_some hfull
    have haddress : full.ledgerAccountId ≠ "" := by
      rintro hempty
      rw [resolveFullAccount, hmapping, hempty] at hfull
      cases hfull
    simp only [hfull] at hsource
    cases hid : truthy full.custodyAccountId with
    | none =>
      simp only [hid] at hsource
      obtain ⟨rfl, hwallet⟩ := walletFor_eq_some hsource
      exact absurd ⟨_, _, wallet, hmapping, haddress, .inl hid, hwallet⟩ h
    | some custodyAccountId =>
      cases hcreate : custodyProvider.createWalletForCustodyId with
      | none =>
        simp only [hid, hcreate] at hsource
        obtain ⟨rfl, hwallet⟩ := walletFor_eq_some hsource
        exact absurd ⟨_, _, wallet, hmapping, haddress, .inr (by rw [hcreate]; rfl), hwallet⟩ h
      | some create =>
        simp only [hid, hcreate] at hsource
        obtain ⟨created, hcreated, hpair⟩ := Throws.bind_eq_ok.mp hsource
        cases hpair
        obtain ⟨hcustody, hne⟩ := truthy_eq_some.mp hid
        rw [hcustody] at hmapping
        exact ⟨haddress, walletResolver_eq_some hmapping haddress hne hcreate hcreated⟩

end Agreement

/-- For every provider, mapping and investor: all ways of depositing serve the investor whenever
operations resolve a source wallet, at the same address, exactly if that wallet was not found by
the address alone. -/
theorem servesDeposits_iff (custodyProvider : CustodyProvider W) (mappings : AccountMappings)
    (finId : String) :
    (∀ address wallet, resolveSourceWallet custodyProvider mappings finId = .ok (some (address, wallet)) →
      ServesDeposits custodyProvider mappings finId address) ↔
      ¬ FoundByAddressOnly custodyProvider mappings finId := by
  constructor
  · rintro hserves hbyAddress
    obtain ⟨⟨address, wallet, hsource⟩, hnone⟩ := resolvers_part hbyAddress
    obtain ⟨resolved, hresolved⟩ := (hserves address wallet hsource).resolved
    rw [hnone] at hresolved
    cases hresolved
  · rintro h address wallet hsource
    obtain ⟨haddress, hresolved⟩ := resolved_of_not_foundByAddressOnly h hsource
    exact servesDeposits_of_resolved haddress (resolveSourceWallet_eq_some hsource).1 hresolved

/-- A provider of one wallet, which it finds by its address. -/
def oneWallet : CustodyProvider String where
  resolveWallet address :=
    .ok (if address = "0x1111111111111111111111111111111111111111" then some "vault 7" else none)
  createWalletForCustodyId := some fun id => .ok s!"vault {id}"
  resolveAddressFromCustodyId := some fun _ => "0x1111111111111111111111111111111111111111"

/-- Alice is mapped by her address alone: operations sign with her wallet, deposits are refused. -/
theorem oneWallet_address_only : ¬ ∀ (custodyProvider : CustodyProvider String)
    (mappings : AccountMappings) (finId address wallet : String),
    resolveSourceWallet custodyProvider mappings finId = .ok (some (address, wallet)) →
      ∃ resolved, walletResolver custodyProvider mappings finId = .ok (some resolved) ∧
        resolved.walletAddress = address := by
  intro h
  let mappings : AccountMappings := fun finId =>
    if finId = "alice" then some ⟨some "0x1111111111111111111111111111111111111111", none⟩ else none
  have hbyAddress : FoundByAddressOnly oneWallet mappings "alice" :=
    ⟨_, none, "vault 7", rfl, by decide, .inl rfl, rfl⟩
  obtain ⟨⟨address, wallet, hsource⟩, hnone⟩ := resolvers_part hbyAddress
  obtain ⟨resolved, hresolved, -⟩ := h _ _ _ _ _ hsource
  rw [hnone] at hresolved
  cases hresolved

end FinP2PAdapter.Deposits
