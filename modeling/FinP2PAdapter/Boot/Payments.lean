import FinP2PAdapter.Boot.TokenStandards
import FinP2PAdapter.Custody.NetworkAccounts

/-! The plugins that a boot registers. There is one slot for a payments plugin, which the deposit methods leave to
the integrations of a token standard; the boot fails where two of those claim it. -/

namespace FinP2PAdapter.Boot

open Accounts (truthy)
open Custody (CustodyProvider)
open Interrupts

/-- A custody wallet has its custodian's transport. -/
inductive Provider where
  | pooled (provider : JsonRpcProvider)
  | transport (custodyAccountId : String)
  deriving DecidableEq, Repr

structure CustodyWallet where
  custodyAccountId : String
  provider : Provider
  deriving DecidableEq, Repr

structure GasStation where
  wallet : CustodyWallet
  amount : String
  deriving DecidableEq, Repr

inductive AccountModel where
  | segregated | omnibus
  deriving DecidableEq, Repr

/-- A custody provider, with whether it can create accounts. -/
structure CompiledProvider extends CustodyProvider CustodyWallet where
  createCustodyAccount : Bool

structure OmnibusDelegate where
  omnibusWallet : CustodyWallet
  escrowWallet : Option CustodyWallet
  readProvider : Option Provider
  gasStation : Option GasStation
  deriving DecidableEq, Repr

/-- The service that keeps the omnibus ledger, over its delegate. -/
structure VanillaService where
  delegate : OmnibusDelegate
  deriving DecidableEq, Repr

/-- Where the tokens of a deposit go. -/
inductive DepositTarget where
  | investorWallet
  | omnibusWallet (wallet : CustodyWallet)
  deriving DecidableEq, Repr

inductive CollateralWalletResolver where
  | custody | contract
  deriving DecidableEq, Repr

inductive PaymentsPlugin where
  | wallet (network : String)
  | pull (target : DepositTarget) (network : String) (operatorWallet : CustodyWallet) (readProvider : Provider)
      (gasStation : Option GasStation) (inboundTransferHook : Option VanillaService)
  | ota (target : DepositTarget) (network : String) (gasStation : Option GasStation)
      (inboundTransferHook : Option VanillaService)
  | dtcc (provider : JsonRpcProvider) (agentSigner providerSigner : PooledSigner) (subgraphBaseUrl : Option String)
  | collateral (provider : JsonRpcProvider) (agentSigner : PooledSigner) (resolver : CollateralWalletResolver)
      (registryAddress ledgerName : String)
  deriving DecidableEq, Repr

structure PlanApprovalPlugin where
  provider : JsonRpcProvider
  agentSigner : PooledSigner
  deriving DecidableEq, Repr

/-- What was registered with it, in order. -/
structure PluginManager where
  payments : List PaymentsPlugin
  planApproval : List PlanApprovalPlugin
  deriving DecidableEq, Repr

def PluginManager.empty : PluginManager := ⟨[], []⟩

def PluginManager.registerPaymentsPlugin (manager : PluginManager) (plugin : PaymentsPlugin) : PluginManager :=
  { manager with payments := manager.payments ++ [plugin] }

def PluginManager.registerPlanApprovalPlugin (manager : PluginManager) (plugin : PlanApprovalPlugin) :
    PluginManager :=
  { manager with planApproval := manager.planApproval ++ [plugin] }

/-- What the integrations are given. The wallet resolver and the contract are there or not. -/
structure IntegrationContext where
  walletResolver : Bool
  rpcUrl : Option String
  readProvider : Option Provider
  gasStation : Option GasStation
  omnibusWallet : Option CustodyWallet
  escrowWallet : Option CustodyWallet
  assetStore : Bool
  accountModel : AccountModel
  custodyProvider : Option CompiledProvider
  inboundTransferHook : Option VanillaService
  finP2PContract : Bool

inductive DepositMethod where
  | wallet | ota | pull
  deriving DecidableEq, Repr

section Registrars

variable (packages : Packages) (env : Env) (ctx : IntegrationContext)

/-- An integration of a token standard owns the slot. -/
def paymentsSlotClaimedExternally : Bool := dtccEnabled env || (collateralEnv env).isSome

def resolveDepositMethod (accountModel : AccountModel) : DepositMethod :=
  match env "DEPOSIT_METHOD" with
  | some "wallet" => .wallet
  | some "ota" => .ota
  | some "pull" => .pull
  | _ => if accountModel = .omnibus then .ota else .wallet

def networkName : String := (env "NETWORK_NAME").getD "ethereum"

def registerWalletDeposit (manager : PluginManager) : PluginManager :=
  if paymentsSlotClaimedExternally env then manager
  else if ctx.accountModel = .omnibus then manager
  else if resolveDepositMethod env ctx.accountModel ≠ .wallet then manager
  else if !ctx.assetStore || !ctx.walletResolver then manager
  else manager.registerPaymentsPlugin (.wallet (networkName env))

/-- Where the deposits go that the adapter moves itself, if it knows. -/
def depositTarget : Option DepositTarget :=
  match ctx.accountModel with
  | .omnibus => ctx.omnibusWallet.map .omnibusWallet
  | .segregated => if ctx.walletResolver then some .investorWallet else none

def registerPullDeposit (manager : PluginManager) : PluginManager :=
  if paymentsSlotClaimedExternally env then manager
  else if resolveDepositMethod env ctx.accountModel ≠ .pull then manager
  else
    match ctx.custodyProvider, ctx.readProvider, ctx.assetStore with
    | some _, some readProvider, true =>
      match depositTarget ctx, ctx.escrowWallet with
      | some target, some operatorWallet => manager.registerPaymentsPlugin
          (.pull target (networkName env) operatorWallet readProvider ctx.gasStation ctx.inboundTransferHook)
      | _, _ => manager
    | _, _, _ => manager

def registerOtaDeposit (manager : PluginManager) : PluginManager :=
  if paymentsSlotClaimedExternally env then manager
  else if resolveDepositMethod env ctx.accountModel ≠ .ota then manager
  else
    match ctx.custodyProvider, ctx.assetStore with
    | some custodyProvider, true =>
      if custodyProvider.createCustodyAccount && custodyProvider.createWalletForCustodyId.isSome then
        match depositTarget ctx with
        | some target => manager.registerPaymentsPlugin
            (.ota target (networkName env) ctx.gasStation ctx.inboundTransferHook)
        | none => manager
      else manager
    | _, _ => manager

def required {α : Type} (message : String) : Option α → Act String BootProcess α
  | none => throw message
  | some a => return a

def activateDtcc (manager : PluginManager) : Act String BootProcess PluginManager := do
  required "DTCC plugin requires a custody provider to resolve investor wallets"
    (if ctx.walletResolver then some () else none)
  let rpcUrl ← required "DTCC plugin requires NETWORK_HOST to be set" ctx.rpcUrl
  let provider ← pooledProvider rpcUrl
  let operatorKey ← requiredKey env "OPERATOR_PRIVATE_KEY"
  let agentSigner ← pooledSigner packages.newWallet rpcUrl operatorKey
  let providerKey ← requiredKey env "PROVIDER_PRIVATE_KEY"
  let providerSigner ← pooledSigner packages.newWallet rpcUrl providerKey
  return (manager.registerPaymentsPlugin
    (.dtcc provider agentSigner providerSigner (env "SUBGRAPH_BASE_URL"))).registerPlanApprovalPlugin
    ⟨provider, agentSigner⟩

def registerDtccPlugin (manager : PluginManager) : Act String BootProcess PluginManager :=
  if dtccEnabled env then activateDtcc packages env ctx manager else return manager

def buildCollateralWalletResolver : Option CollateralWalletResolver :=
  if ctx.walletResolver then some .custody else if ctx.finP2PContract then some .contract else none

def activateCollateral (registryAddress agentKey : String) (manager : PluginManager) :
    Act String BootProcess PluginManager := do
  required ("Collateral plugin and DTCC_PLUGIN_ENABLED are mutually exclusive — " ++
    "both claim the single PaymentsPlugin slot") (if dtccEnabled env then none else some ())
  let rpcUrl ← required "Collateral plugin requires NETWORK_HOST to be set" ctx.rpcUrl
  let provider ← pooledProvider rpcUrl
  let _ ← orThrow (packages.newWallet agentKey)
  let agentSigner ← pooledSigner packages.newWallet rpcUrl agentKey
  let resolver ← required ("Collateral plugin requires either a custody provider or a finp2p-contract " ++
    "to resolve finIds to wallet addresses") (buildCollateralWalletResolver ctx)
  return manager.registerPaymentsPlugin
    (.collateral provider agentSigner resolver registryAddress ((env "LEDGER_NAME").getD "ethereum"))

def registerCollateralPlugin (manager : PluginManager) : Act String BootProcess PluginManager :=
  match collateralEnv env with
  | none => return manager
  | some (registryAddress, agentKey) => activateCollateral packages env ctx registryAddress agentKey manager

def registerDeposits (manager : PluginManager) : Act String BootProcess PluginManager := do
  let manager := registerOtaDeposit env ctx (registerPullDeposit env ctx (registerWalletDeposit env ctx manager))
  let manager ← registerDtccPlugin packages env ctx manager
  registerCollateralPlugin packages env ctx manager

def registerIntegrations : Act String BootProcess PluginManager := do
  registerTokenStandards packages env ctx.rpcUrl
  registerDeposits packages env ctx .empty

end Registrars

/-! ### The slot -/

section Slot

variable (packages : Packages) (env : Env) (ctx : IntegrationContext)

/-- The plugin of the deposit method, if it has all it needs. -/
def depositPlugin : Option PaymentsPlugin :=
  match resolveDepositMethod env ctx.accountModel with
  | .wallet =>
    if ctx.accountModel = .segregated ∧ ctx.assetStore = true ∧ ctx.walletResolver = true then
      some (.wallet (networkName env))
    else none
  | .pull =>
    match ctx.custodyProvider, ctx.readProvider, ctx.assetStore, depositTarget ctx, ctx.escrowWallet with
    | some _, some readProvider, true, some target, some operatorWallet =>
      some (.pull target (networkName env) operatorWallet readProvider ctx.gasStation ctx.inboundTransferHook)
    | _, _, _, _, _ => none
  | .ota =>
    match ctx.custodyProvider, ctx.assetStore, depositTarget ctx with
    | some custodyProvider, true, some target =>
      if custodyProvider.createCustodyAccount && custodyProvider.createWalletForCustodyId.isSome then
        some (.ota target (networkName env) ctx.gasStation ctx.inboundTransferHook)
      else none
    | _, _, _ => none

/-- What may have been registered, over which provider and with which signers of the pool. -/
inductive Claims (p : BootProcess) : PluginManager → Prop where
  | deposit (hdtcc : dtccEnabled env = false) (hcollateral : collateralEnv env = none) :
      Claims p ⟨(depositPlugin env ctx).toList, []⟩
  | dtcc {rpcUrl operatorKey providerKey : String} {provider : JsonRpcProvider}
      {agentSigner providerSigner : PooledSigner} (hdtcc : dtccEnabled env = true)
      (hcollateral : collateralEnv env = none) (hresolver : ctx.walletResolver = true)
      (hurl : ctx.rpcUrl = some rpcUrl) (hpooled : p.providers.get? rpcUrl = some provider)
      (hoperator : env "OPERATOR_PRIVATE_KEY" = some operatorKey)
      (hagent : p.signers.get? (poolKey rpcUrl operatorKey) = some agentSigner)
      (hkey : env "PROVIDER_PRIVATE_KEY" = some providerKey)
      (hprovider : p.signers.get? (poolKey rpcUrl providerKey) = some providerSigner) :
    Claims p ⟨[.dtcc provider agentSigner providerSigner (env "SUBGRAPH_BASE_URL")], [⟨provider, agentSigner⟩]⟩
  | collateral {rpcUrl registryAddress agentKey : String} {provider : JsonRpcProvider}
      {agentSigner : PooledSigner} {resolver : CollateralWalletResolver} (hdtcc : dtccEnabled env = false)
      (hcollateral : collateralEnv env = some (registryAddress, agentKey)) (hurl : ctx.rpcUrl = some rpcUrl)
      (hpooled : p.providers.get? rpcUrl = some provider)
      (hresolver : resolver = .custody ↔ ctx.walletResolver = true)
      (hagent : p.signers.get? (poolKey rpcUrl agentKey) = some agentSigner) :
    Claims p ⟨[.collateral provider agentSigner resolver registryAddress
      ((env "LEDGER_NAME").getD "ethereum")], []⟩

theorem paymentsSlotClaimedExternally_eq_false : paymentsSlotClaimedExternally env = false ↔
    dtccEnabled env = false ∧ collateralEnv env = none := by
  simp [paymentsSlotClaimedExternally]

/-- The deposit methods leave the slot to an integration that owns it; else the one that is chosen takes it. -/
theorem registerOtaDeposit_eq : registerOtaDeposit env ctx (registerPullDeposit env ctx
    (registerWalletDeposit env ctx .empty)) =
      ⟨if paymentsSlotClaimedExternally env then [] else (depositPlugin env ctx).toList, []⟩ := by
  unfold registerOtaDeposit registerPullDeposit registerWalletDeposit depositPlugin
  by_cases hclaimed : paymentsSlotClaimedExternally env = true
  · simp [hclaimed, PluginManager.empty]
  · cases hmethod : resolveDepositMethod env ctx.accountModel with
    | wallet =>
      cases hmodel : ctx.accountModel with
      | omnibus => simp [hclaimed, PluginManager.empty]
      | segregated => cases ctx.assetStore <;> cases ctx.walletResolver <;>
          simp [hclaimed, PluginManager.empty, PluginManager.registerPaymentsPlugin]
    | pull =>
      simp only [hclaimed, Bool.false_eq_true, if_false, reduceCtorEq, ne_eq, not_true_eq_false, not_false_eq_true,
        if_true, ite_self]
      cases ctx.custodyProvider with
      | none => rfl
      | some custodyProvider => cases ctx.readProvider <;> cases ctx.assetStore <;> cases depositTarget ctx <;>
          cases ctx.escrowWallet <;> rfl
    | ota =>
      simp only [hclaimed, Bool.false_eq_true, if_false, reduceCtorEq, ne_eq, not_true_eq_false, not_false_eq_true,
        if_true, ite_self]
      cases ctx.custodyProvider with
      | none => rfl
      | some custodyProvider =>
        cases ctx.assetStore with
        | false => rfl
        | true =>
          cases depositTarget ctx <;> dsimp only <;> split_ifs <;> rfl

variable {packages env ctx} {booted : Env → String → Prop} {P : BootProcess → Prop}

theorem meets_required {α : Type} (message : String) (value : Option α) : Meets (bootGrowth packages booted) P
    (required message value) fun a p => value = some a ∧ P p := by
  cases value with
  | none => exact .throw
  | some a => exact .pure fun _ hp => ⟨rfl, hp⟩

/-- Nothing but the value is asked of what comes before. -/
theorem meets_first {α : Type} (message : String) (value : Option α) : Meets (bootGrowth packages booted) P
    (required message value) fun a _ => value = some a :=
  (meets_required message value).mono (fun _ hp => hp) fun _ _ h => h.1

theorem meets_activateDtcc (hdtcc : dtccEnabled env = true) : Meets (bootGrowth packages booted) P
    (activateDtcc packages env ctx .empty) fun manager p => collateralEnv env = none → Claims env ctx p manager := by
  refine .bind (meets_first _ _) fun _ => .fact fun hresolver => ?_
  refine .bind (meets_first _ _) fun rpcUrl => .fact fun hurl => ?_
  refine .bind meets_pooledProvider fun provider => ?_
  refine .bind (meets_requiredKey _) fun operatorKey => .factAnd fun hoperator => ?_
  refine .bind (meets_more kept_provider meets_pooledSigner) fun agentSigner => ?_
  refine .bind (meets_requiredKey _) fun providerKey => .factAnd fun hkey => ?_
  refine .bind (meets_more (kept_provider.and kept_signer) meets_pooledSigner) fun providerSigner => .pure ?_
  rintro p ⟨⟨hpooled, hagent⟩, hprovider⟩ hcollateral
  exact .dtcc hdtcc hcollateral (by simpa using hresolver) hurl hpooled hoperator hagent hkey hprovider

theorem buildCollateralWalletResolver_eq {resolver : CollateralWalletResolver}
    (h : buildCollateralWalletResolver ctx = some resolver) : resolver = .custody ↔ ctx.walletResolver = true := by
  unfold buildCollateralWalletResolver at h
  split_ifs at h with hcustody hcontract
  · cases h
    exact iff_of_true rfl hcustody
  · cases h
    exact iff_of_false nofun hcustody

theorem meets_activateCollateral {registryAddress agentKey : String} {manager : PluginManager}
    (hcollateral : collateralEnv env = some (registryAddress, agentKey))
    (hmanager : dtccEnabled env = false → manager = .empty) : Meets (bootGrowth packages booted) P
      (activateCollateral packages env ctx registryAddress agentKey manager) fun manager p =>
        Claims env ctx p manager := by
  refine .bind (meets_first _ _) fun _ => .fact fun henabled => ?_
  have hdtcc : dtccEnabled env = false := by
    cases hcase : dtccEnabled env with
    | false => rfl
    | true => simp [hcase] at henabled
  rw [hmanager hdtcc]
  refine .bind (meets_first _ _) fun rpcUrl => .fact fun hurl => ?_
  refine .bind meets_pooledProvider fun provider => ?_
  refine .bind (meets_orThrow _) fun agentAddress => .factAnd fun _ => ?_
  refine .bind (meets_more kept_provider meets_pooledSigner) fun agentSigner => ?_
  refine .bind (meets_required _ _) fun resolver => .pure ?_
  rintro p ⟨hresolver, hpooled, hagent⟩
  exact .collateral hdtcc hcollateral hurl hpooled (buildCollateralWalletResolver_eq hresolver) hagent

/-- A boot that gets through its plugins has registered one payments plugin at most, the one that the table of
`Claims` has for its environment. -/
theorem meets_registerDeposits : Meets (bootGrowth packages booted) P (registerDeposits packages env ctx .empty)
    fun manager p => Claims env ctx p manager := by
  unfold registerDeposits
  rw [registerOtaDeposit_eq]
  unfold registerDtccPlugin registerCollateralPlugin
  cases hcollateral : collateralEnv env with
  | none =>
    cases hdtcc : dtccEnabled env with
    | true =>
      have hclaimed : paymentsSlotClaimedExternally env = true := by simp [paymentsSlotClaimedExternally, hdtcc]
      simp only [hclaimed, if_true]
      exact .bind (meets_activateDtcc hdtcc) fun manager => .pure fun _ h => h hcollateral
    | false =>
      have hfree := (paymentsSlotClaimedExternally_eq_false env).mpr ⟨hdtcc, hcollateral⟩
      simp only [hfree, Bool.false_eq_true, if_false, pure_bind]
      exact .pure fun p _ => .deposit hdtcc hcollateral
  | some found =>
    obtain ⟨registryAddress, agentKey⟩ := found
    have hclaimed : paymentsSlotClaimedExternally env = true := by simp [paymentsSlotClaimedExternally, hcollateral]
    simp only [hclaimed, if_true]
    cases hdtcc : dtccEnabled env with
    | true =>
      simp only [if_true]
      -- whatever the first plugin registers, the second one refuses
      refine .bind (meets_activateDtcc hdtcc) fun manager => meets_activateCollateral hcollateral ?_
      intro hfalse
      rw [hdtcc] at hfalse
      cases hfalse
    | false =>
      simp only [Bool.false_eq_true, if_false, pure_bind]
      exact meets_activateCollateral hcollateral fun _ => rfl

end Slot

/-! ### What the slot was claimed for -/

section Slot

variable {env : Env} {ctx : IntegrationContext} {p p' : BootProcess} {manager : PluginManager} {plugin : PaymentsPlugin}

/-- What a deposit method registers. -/
inductive Chosen (env : Env) (ctx : IntegrationContext) : PaymentsPlugin → Prop where
  | wallet (hmethod : resolveDepositMethod env ctx.accountModel = .wallet) (hmodel : ctx.accountModel = .segregated)
      (hresolver : ctx.walletResolver = true) : Chosen env ctx (.wallet (networkName env))
  | pull {target : DepositTarget} {operatorWallet : CustodyWallet} {readProvider : Provider}
      (hmethod : resolveDepositMethod env ctx.accountModel = .pull)
      (hcustody : ctx.custodyProvider.isSome = true) (htarget : depositTarget ctx = some target)
      (hescrow : ctx.escrowWallet = some operatorWallet) (hread : ctx.readProvider = some readProvider) :
    Chosen env ctx
      (.pull target (networkName env) operatorWallet readProvider ctx.gasStation ctx.inboundTransferHook)
  | ota {target : DepositTarget} (hmethod : resolveDepositMethod env ctx.accountModel = .ota)
      (hcustody : ctx.custodyProvider.isSome = true) (htarget : depositTarget ctx = some target) :
    Chosen env ctx (.ota target (networkName env) ctx.gasStation ctx.inboundTransferHook)

theorem chosen_of_depositPlugin (h : depositPlugin env ctx = some plugin) : Chosen env ctx plugin := by
  unfold depositPlugin at h
  cases hmethod : resolveDepositMethod env ctx.accountModel with
  | wallet =>
    simp only [hmethod] at h
    split_ifs at h with hall
    cases h
    exact .wallet hmethod hall.1 hall.2.2
  | pull =>
    simp only [hmethod] at h
    split at h
    · rename_i hcustody hread _ htarget hescrow
      cases h
      exact .pull hmethod (by rw [hcustody]; rfl) htarget hescrow hread
    · cases h
  | ota =>
    simp only [hmethod] at h
    split at h
    · rename_i hcustody _ htarget
      split_ifs at h
      cases h
      exact .ota hmethod (by rw [hcustody]; rfl) htarget
    · cases h

theorem Claims.length_le (h : Claims env ctx p manager) : manager.payments.length ≤ 1 := by
  cases h with
  | deposit => cases depositPlugin env ctx <;> simp
  | dtcc | collateral => exact Nat.le_refl 1

theorem Claims.grown (h : Claims env ctx p manager) (hp : p.Grown p') : Claims env ctx p' manager := by
  cases h with
  | deposit hdtcc hcollateral => exact .deposit hdtcc hcollateral
  | dtcc hdtcc hcollateral hresolver hurl hpooled hoperator hagent hkey hprovider =>
    exact .dtcc hdtcc hcollateral hresolver hurl (hp.providers _ _ hpooled) hoperator (hp.signers _ _ hagent) hkey
      (hp.signers _ _ hprovider)
  | collateral hdtcc hcollateral hurl hpooled hresolver hagent =>
    exact .collateral hdtcc hcollateral hurl (hp.providers _ _ hpooled) hresolver (hp.signers _ _ hagent)

end Slot

end FinP2PAdapter.Boot
