import FinP2PAdapter.Boot.Payments
import FinP2PAdapter.OnChain.NetworkAccounts

/-! The composition of the adapter. A boot fabricates the role wallets, builds the services of its account model and
registers the integrations in between, so that the plugins are given what the services have. -/

namespace FinP2PAdapter.Boot

open Accounts (truthy)
open Interrupts TokenStandards
open OnChain (WalletResolutionMode)

structure AppConfig where
  type : String
  accountModel : AccountModel
  deriving DecidableEq, Repr

/-- What a boot finds: its environment and configuration, what the custody registry's factory of a type makes, and
what the database, the node and the contract answer. -/
structure Deployment where
  env : Env
  config : AppConfig
  custodyRegistry : JsMap String (Except String CompiledProvider)
  migration : Except String Unit
  isHederaNetwork : Provider → Except String Bool
  walletResolutionMode : Except String WalletResolutionMode

structure WalletActivator where
  fundingWallet : CustodyWallet
  amount : String
  deriving DecidableEq, Repr

structure IssuerWallet where
  provider : Provider
  signer : PooledSigner
  deriving DecidableEq, Repr

inductive TokenService where
  | vanilla (service : VanillaService)
  | custody (escrowWallet : CustodyWallet) (readProvider : Provider) (issuerWallet : Option IssuerWallet)
  | onChain
  deriving DecidableEq, Repr

inductive PaymentsService where
  | plugins (manager : PluginManager)
  | delegate (delegate : OmnibusDelegate)
  deriving DecidableEq, Repr

/-- `prefunding` is there if signers are topped up, with the gas station if there is one. -/
structure PlanApprovalService where
  pluginManager : PluginManager
  inboundTransferHook : Option VanillaService
  prefunding : Option (Option GasStation)
  deriving DecidableEq, Repr

inductive NetworkAccountService where
  | custody (walletActivator : Option WalletActivator)
  | onChain (mode : WalletResolutionMode)
  deriving DecidableEq, Repr

/-- The services that the routes are registered with. -/
structure App where
  tokenService : TokenService
  escrowService : TokenService
  paymentsService : PaymentsService
  planApprovalService : PlanApprovalService
  networkAccountService : NetworkAccountService
  deriving DecidableEq, Repr

def getNetworkRpcUrl (env : Env) : Except String String :=
  match truthy (env "NETWORK_HOST") with
  | none => .error "NETWORK_HOST is not set"
  | some networkHost =>
    match truthy (env "NETWORK_AUTH") with
    | none => .ok networkHost
    | some auth =>
      if "https://".toList.isPrefixOf networkHost.toList then
        .ok ("https://" ++ auth ++ "@" ++ String.ofList (networkHost.toList.drop 8))
      else if "http://".toList.isPrefixOf networkHost.toList then
        .ok ("http://" ++ auth ++ "@" ++ String.ofList (networkHost.toList.drop 7))
      else .ok (auth ++ "@" ++ networkHost)

section Boot

variable (packages : Packages) (d : Deployment)

def createCustodyProvider : Act String BootProcess (Option CompiledProvider) :=
  match d.custodyRegistry.get? d.config.type with
  | none => return none
  | some outcome => some <$> orThrow outcome

/-- An upgrade that still names a custody vault for the issuer. -/
def migrationGuard (custodyProvider : Option CompiledProvider) : Act String BootProcess Unit :=
  if custodyProvider.isSome ∧ (truthy (d.env "ASSET_ISSUER_CUSTODY_ACCOUNT_ID")).isSome ∧
      truthy (d.env "ASSET_ISSUER_PRIVATE_KEY") = none then
    throw ("ASSET_ISSUER_CUSTODY_ACCOUNT_ID is set but ASSET_ISSUER_PRIVATE_KEY is not: issuance now uses the " ++
      "env private key (the custody-vault issuer was removed). Set ASSET_ISSUER_PRIVATE_KEY.")
  else return ()

/-- The wallet of a role, if the provider can create one for the account. -/
def roleWallet (custodyProvider : Option CompiledProvider) (custodyAccountId : Option String) :
    Act String BootProcess (Option CustodyWallet) :=
  match custodyProvider.bind (·.createWalletForCustodyId), custodyAccountId with
  | some createWalletForCustodyId, some custodyAccountId =>
    some <$> orThrow ((createWalletForCustodyId custodyAccountId).mapError (·.text))
  | _, _ => return none

def escrowAccountId : Option String :=
  (truthy (d.env "ASSET_ESCROW_CUSTODY_ACCOUNT_ID")).or (truthy (d.env "OMNIBUS_CUSTODY_ACCOUNT_ID"))

def networkRpcUrl : Act String BootProcess (Option String) :=
  if (truthy (d.env "NETWORK_HOST")).isSome then some <$> orThrow (getNetworkRpcUrl d.env) else return none

/-- The node of the deployment, else the custody transport. -/
def createReadProvider (custodyProvider : Option CompiledProvider) (escrowWallet : Option CustodyWallet) :
    Act String BootProcess (Option Provider) :=
  if custodyProvider.isSome then do
    match ← networkRpcUrl d with
    | some rpcUrl => some <$> (.pooled <$> pooledProvider rpcUrl)
    | none => return escrowWallet.map (·.provider)
  else return none

def createGasStation (custodyProvider : Option CompiledProvider) : Act String BootProcess (Option GasStation) :=
  match truthy (d.env "GAS_FUNDING_CUSTODY_ACCOUNT_ID"), truthy (d.env "GAS_FUNDING_AMOUNT") with
  | some gasFundingAccountId, some gasFundingAmount =>
    Option.map (fun wallet => ⟨wallet, gasFundingAmount⟩) <$> roleWallet custodyProvider (some gasFundingAccountId)
  | _, _ => return none

def isHedera (custodyProvider : Option CompiledProvider) (readProvider : Option Provider) :
    Act String BootProcess Bool :=
  match custodyProvider, readProvider with
  | some _, some readProvider => orThrow (d.isHederaNetwork readProvider)
  | _, _ => return false

def walletActivator (hedera : Bool) (gasStation : Option GasStation) : Option WalletActivator :=
  if hedera then
    gasStation.map fun gasStation => ⟨gasStation.wallet, (d.env "WALLET_ACTIVATION_AMOUNT").getD "0.001"⟩
  else none

/-- A probe that fails is taken for the credentials mapping. -/
def probeWalletResolutionMode : WalletResolutionMode :=
  match d.walletResolutionMode with
  | .ok mode => mode
  | .error _ => .walletMapping

def createNetworkAccountService (activator : Option WalletActivator) : NetworkAccountService :=
  if d.config.type = "finp2p-contract" then .onChain (probeWalletResolutionMode d) else .custody activator

def createOmnibusContext (custodyProvider : Option CompiledProvider) (omnibusWallet escrowWallet : Option CustodyWallet)
    (readProvider : Option Provider) (gasStation : Option GasStation) :
    Act String BootProcess (Option VanillaService) :=
  if d.config.accountModel = .omnibus ∧ custodyProvider.isSome then
    match omnibusWallet with
    | none => throw ("Omnibus account model requires OMNIBUS_CUSTODY_ACCOUNT_ID (and a custody provider able to " ++
        "create wallets by custody id)")
    | some omnibusWallet => return some ⟨⟨omnibusWallet, escrowWallet, readProvider, gasStation⟩⟩
  else return none

/-- The issuer signs with the signer that the pool has for its key. -/
def createIssuerWallet (readProvider : Provider) : Act String BootProcess (Option IssuerWallet) :=
  match truthy (d.env "ASSET_ISSUER_PRIVATE_KEY"), truthy (d.env "NETWORK_HOST") with
  | some assetIssuerKey, some _ => do
    let rpcUrl ← orThrow (getNetworkRpcUrl d.env)
    let signer ← pooledSigner packages.newWallet rpcUrl assetIssuerKey
    return some ⟨readProvider, signer⟩
  | _, _ => return none

def omnibusServices (service : VanillaService) (manager : PluginManager)
    (networkAccountService : NetworkAccountService) : App where
  tokenService := .vanilla service
  escrowService := .vanilla service
  paymentsService := if manager.payments = [] then .delegate service.delegate else .plugins manager
  planApprovalService := ⟨manager, some service, none⟩
  networkAccountService := networkAccountService

def directServices (escrowWallet : CustodyWallet) (readProvider : Provider) (gasStation : Option GasStation)
    (manager : PluginManager) (networkAccountService : NetworkAccountService) (issuerWallet : Option IssuerWallet) :
    App where
  tokenService := .custody escrowWallet readProvider issuerWallet
  escrowService := .custody escrowWallet readProvider issuerWallet
  paymentsService := .plugins manager
  planApprovalService := ⟨manager, none, some gasStation⟩
  networkAccountService := networkAccountService

def registerCustodyServices (escrowWallet : Option CustodyWallet) (readProvider : Option Provider)
    (gasStation : Option GasStation) (manager : PluginManager) (omnibus : Option VanillaService)
    (networkAccountService : NetworkAccountService) : Act String BootProcess App := do
  let readProvider ← required ("Read-only RPC provider is unavailable — set NETWORK_HOST or use a custody provider " ++
    "whose wallet exposes a transport") readProvider
  let escrowWallet ← required ("Escrow wallet is required for direct mode (set ASSET_ESCROW_CUSTODY_ACCOUNT_ID or " ++
    "OMNIBUS_CUSTODY_ACCOUNT_ID)") escrowWallet
  if d.config.accountModel = .omnibus then do
    let service ← required ("Omnibus context not built — createVanillaServices must run before " ++
      "registerCustodyServices") omnibus
    return omnibusServices service manager networkAccountService
  else do
    let issuerWallet ← createIssuerWallet packages d readProvider
    return directServices escrowWallet readProvider gasStation manager networkAccountService issuerWallet

def registerFinP2PContractServices (manager : PluginManager) (networkAccountService : NetworkAccountService) :
    Act String BootProcess App :=
  if d.config.accountModel = .omnibus then
    throw "Omnibus account model is not supported with finp2p-contract provider"
  else return {
    tokenService := .onChain
    escrowService := .onChain
    paymentsService := .plugins manager
    planApprovalService := ⟨manager, none, none⟩
    networkAccountService := networkAccountService }

def registerServices (custodyProvider : Option CompiledProvider) (escrowWallet : Option CustodyWallet)
    (readProvider : Option Provider) (gasStation : Option GasStation) (manager : PluginManager)
    (omnibus : Option VanillaService) (networkAccountService : NetworkAccountService) : Act String BootProcess App :=
  if custodyProvider.isSome then
    registerCustodyServices packages d escrowWallet readProvider gasStation manager omnibus networkAccountService
  else if d.config.type = "finp2p-contract" then registerFinP2PContractServices d manager networkAccountService
  else
    let type := d.config.type
    let available := ", ".intercalate (d.custodyRegistry.entries.map Prod.fst)
    throw s!"Unknown provider type: '{type}'. Available custody providers: {available}"

def integrationContext (custodyProvider : Option CompiledProvider) (escrowWallet : Option CustodyWallet)
    (readProvider : Option Provider) (gasStation : Option GasStation) (omnibusWallet : Option CustodyWallet)
    (omnibus : Option VanillaService) (rpcUrl : Option String) : IntegrationContext where
  walletResolver := custodyProvider.isSome
  rpcUrl := rpcUrl
  readProvider := readProvider
  gasStation := gasStation
  omnibusWallet := omnibusWallet
  escrowWallet := escrowWallet
  assetStore := true
  accountModel := d.config.accountModel
  custodyProvider := custodyProvider
  inboundTransferHook := omnibus
  finP2PContract := d.config.type = "finp2p-contract"

def createApp : Act String BootProcess App := do
  orThrow d.migration
  let custodyProvider ← createCustodyProvider d
  migrationGuard d custodyProvider
  let escrowWallet ← roleWallet custodyProvider (escrowAccountId d)
  let readProvider ← createReadProvider d custodyProvider escrowWallet
  let gasStation ← createGasStation d custodyProvider
  let hedera ← isHedera d custodyProvider readProvider
  let omnibusWallet ← roleWallet custodyProvider (truthy (d.env "OMNIBUS_CUSTODY_ACCOUNT_ID"))
  let omnibus ← createOmnibusContext d custodyProvider omnibusWallet escrowWallet readProvider gasStation
  let rpcUrl ← networkRpcUrl d
  let manager ← registerIntegrations packages d.env
    (integrationContext d custodyProvider escrowWallet readProvider gasStation omnibusWallet omnibus rpcUrl)
  registerServices packages d custodyProvider escrowWallet readProvider gasStation manager omnibus
    (createNetworkAccountService d (walletActivator d hedera gasStation))

end Boot

/-! ### What a boot that returns has composed -/

def App.manager (app : App) : PluginManager := app.planApprovalService.pluginManager

/-- The wallet of a role is the one that the provider creates for its account. -/
def Fabricated (custodyProvider : Option CompiledProvider) (custodyAccountId : Option String) (wallet : CustodyWallet) :
    Prop :=
  ∃ createWalletForCustodyId id, custodyProvider.bind (·.createWalletForCustodyId) = some createWalletForCustodyId ∧
    custodyAccountId = some id ∧ createWalletForCustodyId id = .ok wallet

/-- An integration that owns the payments slot. Its agents sign with the pool's signers of their own keys; DTCC's
needs a custody provider. -/
inductive External (d : Deployment) (p : BootProcess) : CollateralWalletResolver → PluginManager → Prop where
  | dtcc {rpcUrl operatorKey providerKey : String} {provider : JsonRpcProvider}
      {agentSigner providerSigner : PooledSigner} (hdtcc : dtccEnabled d.env = true)
      (hcollateral : collateralEnv d.env = none) (hurl : getNetworkRpcUrl d.env = .ok rpcUrl)
      (hpooled : p.providers.get? rpcUrl = some provider)
      (hoperator : d.env "OPERATOR_PRIVATE_KEY" = some operatorKey)
      (hagent : p.signers.get? (poolKey rpcUrl operatorKey) = some agentSigner)
      (hkey : d.env "PROVIDER_PRIVATE_KEY" = some providerKey)
      (hprovider : p.signers.get? (poolKey rpcUrl providerKey) = some providerSigner) :
    External d p .custody
      ⟨[.dtcc provider agentSigner providerSigner (d.env "SUBGRAPH_BASE_URL")], [⟨provider, agentSigner⟩]⟩
  | collateral {resolver : CollateralWalletResolver} {rpcUrl registryAddress agentKey : String}
      {provider : JsonRpcProvider} {agentSigner : PooledSigner} (hdtcc : dtccEnabled d.env = false)
      (hcollateral : collateralEnv d.env = some (registryAddress, agentKey))
      (hurl : getNetworkRpcUrl d.env = .ok rpcUrl) (hpooled : p.providers.get? rpcUrl = some provider)
      (hagent : p.signers.get? (poolKey rpcUrl agentKey) = some agentSigner) :
    External d p resolver
      ⟨[.collateral provider agentSigner resolver registryAddress ((d.env "LEDGER_NAME").getD "ethereum")], []⟩

/-- What a boot over a custody provider has in the payments slot: nothing, the plugin of its deposit method, or that
of an integration that owns the slot. The deposits that the adapter moves itself reach the target and are told to the
hook; the operator pulls them. -/
inductive Slotted (d : Deployment) (p : BootProcess) (target : DepositTarget) (hook : Option VanillaService)
    (operatorWallet : CustodyWallet) (reader : Provider) (gasStation : Option GasStation) : PluginManager → Prop where
  | none (hfree : paymentsSlotClaimedExternally d.env = false) :
    Slotted d p target hook operatorWallet reader gasStation .empty
  | wallet (hfree : paymentsSlotClaimedExternally d.env = false)
      (hmethod : resolveDepositMethod d.env d.config.accountModel = .wallet)
      (hmodel : d.config.accountModel = .segregated) :
    Slotted d p target hook operatorWallet reader gasStation ⟨[.wallet (networkName d.env)], []⟩
  | pull (hfree : paymentsSlotClaimedExternally d.env = false)
      (hmethod : resolveDepositMethod d.env d.config.accountModel = .pull) :
    Slotted d p target hook operatorWallet reader gasStation
      ⟨[.pull target (networkName d.env) operatorWallet reader gasStation hook], []⟩
  | ota (hfree : paymentsSlotClaimedExternally d.env = false)
      (hmethod : resolveDepositMethod d.env d.config.accountModel = .ota) :
    Slotted d p target hook operatorWallet reader gasStation ⟨[.ota target (networkName d.env) gasStation hook], []⟩
  | external {manager : PluginManager} (h : External d p .custody manager) :
    Slotted d p target hook operatorWallet reader gasStation manager

/-- The issuer's signer is the pool's for its key; without the key or a node there is none. -/
inductive Issues (d : Deployment) (p : BootProcess) (readProvider : Provider) : Option IssuerWallet → Prop where
  | none (h : truthy (d.env "ASSET_ISSUER_PRIVATE_KEY") = none ∨ truthy (d.env "NETWORK_HOST") = none) :
    Issues d p readProvider none
  | some {key rpcUrl : String} {signer : PooledSigner} (hkey : truthy (d.env "ASSET_ISSUER_PRIVATE_KEY") = some key)
      (hurl : getNetworkRpcUrl d.env = .ok rpcUrl)
      (hsigner : p.signers.get? (poolKey rpcUrl key) = some signer) :
    Issues d p readProvider (some ⟨readProvider, signer⟩)

/-- The services of an omnibus boot. What the deposit method moves is told to the ledger that the token service keeps,
and reaches the wallet it pays from; there is a wallet to hold in and a node to read from; nobody is topped up. -/
structure WiredOmnibus (d : Deployment) (p : BootProcess) (app : App) (service : VanillaService)
    (escrowWallet : CustodyWallet) (readProvider : Provider) : Prop where
  model : d.config.accountModel = .omnibus
  tokens : app.tokenService = .vanilla service
  escrow : app.escrowService = .vanilla service
  wallets : ∃ provider, d.custodyRegistry.get? d.config.type = some (.ok provider) ∧
    Fabricated (some provider) (truthy (d.env "OMNIBUS_CUSTODY_ACCOUNT_ID")) service.delegate.omnibusWallet ∧
    Fabricated (some provider) (escrowAccountId d) escrowWallet
  holds : service.delegate.escrowWallet = some escrowWallet
  reads : service.delegate.readProvider = some readProvider
  payments : app.paymentsService =
    if app.manager.payments = [] then .delegate service.delegate else .plugins app.manager
  hook : app.planApprovalService.inboundTransferHook = some service
  prefunding : app.planApprovalService.prefunding = none
  slot : Slotted d p (.omnibusWallet service.delegate.omnibusWallet) (some service) escrowWallet readProvider
    service.delegate.gasStation app.manager
  activator : ∀ activator, app.networkAccountService = .custody (some activator) →
    ∃ gasStation, service.delegate.gasStation = some gasStation ∧ activator.fundingWallet = gasStation.wallet

/-- The services of a direct boot. What the deposit method moves reaches the investor's own wallet and is told to no
ledger; signers are topped up from the gas station that activates wallets. -/
structure WiredDirect (d : Deployment) (p : BootProcess) (app : App) (escrowWallet : CustodyWallet)
    (readProvider : Provider) (issuerWallet : Option IssuerWallet) (gasStation : Option GasStation) : Prop where
  model : d.config.accountModel = .segregated
  tokens : app.tokenService = .custody escrowWallet readProvider issuerWallet
  escrow : app.escrowService = .custody escrowWallet readProvider issuerWallet
  wallets : ∃ provider, d.custodyRegistry.get? d.config.type = some (.ok provider) ∧
    Fabricated (some provider) (escrowAccountId d) escrowWallet
  issuer : Issues d p readProvider issuerWallet
  payments : app.paymentsService = .plugins app.manager
  hook : app.planApprovalService.inboundTransferHook = none
  prefunding : app.planApprovalService.prefunding = some gasStation
  slot : Slotted d p .investorWallet none escrowWallet readProvider gasStation app.manager
  activator : ∀ activator, app.networkAccountService = .custody (some activator) →
    ∃ station, gasStation = some station ∧ activator.fundingWallet = station.wallet

/-- The services over the operator contract, which has no deposit method. -/
structure WiredContract (d : Deployment) (p : BootProcess) (app : App) : Prop where
  model : d.config.accountModel = .segregated
  type : d.config.type = "finp2p-contract"
  tokens : app.tokenService = .onChain
  escrow : app.escrowService = .onChain
  payments : app.paymentsService = .plugins app.manager
  accounts : app.networkAccountService = .onChain (probeWalletResolutionMode d)
  hook : app.planApprovalService.inboundTransferHook = none
  prefunding : app.planApprovalService.prefunding = none
  slot : app.manager = .empty ∨ External d p .contract app.manager

/-- One payments plugin at most, and the services of one of the three kinds. -/
structure Wired (d : Deployment) (p : BootProcess) (app : App) : Prop where
  once : app.manager.payments.length ≤ 1
  services : (∃ service escrowWallet readProvider, WiredOmnibus d p app service escrowWallet readProvider) ∨
    (∃ escrowWallet readProvider issuerWallet gasStation,
      WiredDirect d p app escrowWallet readProvider issuerWallet gasStation) ∨
    WiredContract d p app

/-! ### The payments slot -/

section Slot

variable {d : Deployment} {p p' : BootProcess} {ctx : IntegrationContext} {manager : PluginManager}
  {resolver : CollateralWalletResolver} {target : DepositTarget} {hook : Option VanillaService}
  {operatorWallet : CustodyWallet} {reader : Provider} {gasStation : Option GasStation}

theorem External.grown (h : External d p resolver manager) (hp : p.Grown p') : External d p' resolver manager := by
  cases h with
  | dtcc hdtcc hcollateral hurl hpooled hoperator hagent hkey hprovider =>
    exact .dtcc hdtcc hcollateral hurl (hp.providers _ _ hpooled) hoperator (hp.signers _ _ hagent) hkey
      (hp.signers _ _ hprovider)
  | collateral hdtcc hcollateral hurl hpooled hagent =>
    exact .collateral hdtcc hcollateral hurl (hp.providers _ _ hpooled) (hp.signers _ _ hagent)

theorem Slotted.grown (h : Slotted d p target hook operatorWallet reader gasStation manager) (hp : p.Grown p') :
    Slotted d p' target hook operatorWallet reader gasStation manager := by
  cases h with
  | none hfree => exact .none hfree
  | wallet hfree hmethod hmodel => exact .wallet hfree hmethod hmodel
  | pull hfree hmethod => exact .pull hfree hmethod
  | ota hfree hmethod => exact .ota hfree hmethod
  | external hexternal => exact .external (hexternal.grown hp)

/-- The context that the integrations were given is the boot's own. -/
structure Own (d : Deployment) (ctx : IntegrationContext) : Prop where
  model : ctx.accountModel = d.config.accountModel
  url : ∀ rpcUrl, ctx.rpcUrl = some rpcUrl → getNetworkRpcUrl d.env = .ok rpcUrl

theorem Claims.slotted (h : Claims d.env ctx p manager) (hown : Own d ctx) (hresolver : ctx.walletResolver = true)
    (htarget : depositTarget ctx = some target) (hhook : ctx.inboundTransferHook = hook)
    (hescrow : ctx.escrowWallet = some operatorWallet) (hread : ctx.readProvider = some reader)
    (hgas : ctx.gasStation = gasStation) : Slotted d p target hook operatorWallet reader gasStation manager := by
  cases h with
  | deposit hdtcc hcollateral =>
    have hfree := (paymentsSlotClaimedExternally_eq_false d.env).mpr ⟨hdtcc, hcollateral⟩
    cases hplugin : depositPlugin d.env ctx with
    | none => exact .none hfree
    | some plugin =>
      cases chosen_of_depositPlugin hplugin with
      | wallet hmethod hmodel _ =>
        rw [hown.model] at hmethod hmodel
        exact .wallet hfree hmethod hmodel
      | pull hmethod _ htarget' hescrow' hread' =>
        rw [hown.model] at hmethod
        rw [htarget] at htarget'
        rw [hescrow] at hescrow'
        rw [hread] at hread'
        cases htarget'
        cases hescrow'
        cases hread'
        rw [hhook, hgas]
        exact .pull hfree hmethod
      | ota hmethod _ htarget' =>
        rw [hown.model] at hmethod
        rw [htarget] at htarget'
        cases htarget'
        rw [hhook, hgas]
        exact .ota hfree hmethod
  | dtcc hdtcc hcollateral _ hurl hpooled hoperator hagent hkey hprovider =>
    exact .external (.dtcc hdtcc hcollateral (hown.url _ hurl) hpooled hoperator hagent hkey hprovider)
  | collateral hdtcc hcollateral hurl hpooled hcustody hagent =>
    rw [hcustody.mpr hresolver]
    exact .external (.collateral hdtcc hcollateral (hown.url _ hurl) hpooled hagent)

/-- Without a custody provider only the collateral plugin can have been registered, over the contract. -/
theorem Claims.contract (h : Claims d.env ctx p manager) (hown : Own d ctx) (hcustody : ctx.custodyProvider = none)
    (hresolver : ctx.walletResolver = false) : manager = .empty ∨ External d p .contract manager := by
  cases h with
  | deposit =>
    cases hplugin : depositPlugin d.env ctx with
    | none => exact .inl rfl
    | some plugin =>
      cases chosen_of_depositPlugin hplugin with
      | wallet _ _ h => simp [hresolver] at h
      | pull _ h | ota _ h => simp [hcustody] at h
  | dtcc _ _ h => simp [hresolver] at h
  | @collateral _ _ _ _ _ resolver hdtcc hcollateral hurl hpooled hcase hagent =>
    cases resolver with
    | custody => simp [hresolver] at hcase
    | contract => exact .inr (.collateral hdtcc hcollateral (hown.url _ hurl) hpooled hagent)

end Slot

/-! ### One boot -/

section Phases

variable {packages : Packages} {booted : Env → String → Prop} {d : Deployment} {P : BootProcess → Prop}

theorem meets_createCustodyProvider : Meets (bootGrowth packages booted) P (createCustodyProvider d)
    fun custodyProvider _ => ∀ provider, custodyProvider = some provider →
      d.custodyRegistry.get? d.config.type = some (.ok provider) := by
  unfold createCustodyProvider
  cases d.custodyRegistry.get? d.config.type with
  | none => exact .pure fun _ _ => nofun
  | some outcome =>
    refine .map (meets_orThrow outcome) fun provider _ h provider' hsome => ?_
    cases hsome
    rw [h.1]

theorem meets_migrationGuard (custodyProvider : Option CompiledProvider) : Meets (bootGrowth packages booted) P
    (migrationGuard d custodyProvider) fun _ _ => True := by
  unfold migrationGuard
  split_ifs with hold
  · exact .throw
  · exact .pure fun _ _ => trivial

theorem meets_roleWallet (custodyProvider : Option CompiledProvider) (custodyAccountId : Option String) :
    Meets (bootGrowth packages booted) P (roleWallet custodyProvider custodyAccountId)
      fun wallet _ => ∀ w, wallet = some w → Fabricated custodyProvider custodyAccountId w := by
  unfold roleWallet
  cases hcreate : custodyProvider.bind (·.createWalletForCustodyId) with
  | none => exact .pure fun _ _ => nofun
  | some createWalletForCustodyId =>
    cases custodyAccountId with
    | none => exact .pure fun _ _ => nofun
    | some id =>
      refine .map (meets_orThrow _) fun wallet _ h w hw => ?_
      replace h := h.1
      cases hw
      refine ⟨createWalletForCustodyId, id, hcreate, rfl, ?_⟩
      cases hwallet : createWalletForCustodyId id with
      | error e => simp [hwallet, Except.mapError] at h
      | ok w' =>
        rw [hwallet] at h
        cases h
        rfl

/-- The node of the deployment, if it has one. -/
structure Node (d : Deployment) (rpcUrl : Option String) : Prop where
  isSome : rpcUrl.isSome = (truthy (d.env "NETWORK_HOST")).isSome
  url : ∀ url, rpcUrl = some url → getNetworkRpcUrl d.env = .ok url

theorem meets_networkRpcUrl : Meets (bootGrowth packages booted) P (networkRpcUrl d) fun rpcUrl _ =>
    Node d rpcUrl := by
  unfold networkRpcUrl
  split_ifs with hhost
  · refine .map (meets_orThrow _) fun rpcUrl _ h => ⟨hhost.symm, ?_⟩
    rintro url ⟨⟩
    exact h.1
  · refine .pure fun _ _ => ⟨by simpa using hhost, ?_⟩
    rintro url ⟨⟩

theorem meets_createReadProvider (custodyProvider : Option CompiledProvider) (escrowWallet : Option CustodyWallet) :
    Meets (bootGrowth packages booted) P (createReadProvider d custodyProvider escrowWallet) fun _ _ => True := by
  unfold createReadProvider
  split_ifs with hcustody
  · refine .bind meets_networkRpcUrl fun url => ?_
    cases url with
    | none => exact .pure fun _ _ => trivial
    | some rpcUrl => exact .map (.map meets_pooledProvider (R := fun _ _ => True) fun _ _ _ => trivial) fun _ _ _ => trivial
  · exact .pure fun _ _ => trivial

theorem meets_createGasStation (custodyProvider : Option CompiledProvider) : Meets (bootGrowth packages booted) P
    (createGasStation d custodyProvider) fun _ _ => True := by
  unfold createGasStation
  split
  · exact .map (meets_roleWallet _ _) fun _ _ _ => trivial
  · exact .pure fun _ _ => trivial

theorem meets_isHedera (custodyProvider : Option CompiledProvider) (readProvider : Option Provider) :
    Meets (bootGrowth packages booted) P (isHedera d custodyProvider readProvider) fun _ _ => True := by
  unfold isHedera
  split
  · exact (meets_orThrow _).mono (fun _ hp => hp) fun _ _ _ => trivial
  · exact .pure fun _ _ => trivial

/-- The omnibus service is there exactly in the omnibus model over a custody provider, with the role wallets. -/
def OmnibusOf (d : Deployment) (custodyProvider : Option CompiledProvider)
    (omnibusWallet escrowWallet : Option CustodyWallet) (readProvider : Option Provider)
    (gasStation : Option GasStation) : Option VanillaService → Prop
  | none => ¬ (d.config.accountModel = .omnibus ∧ custodyProvider.isSome = true)
  | some service => d.config.accountModel = .omnibus ∧ custodyProvider.isSome = true ∧
    omnibusWallet = some service.delegate.omnibusWallet ∧ service.delegate.escrowWallet = escrowWallet ∧
    service.delegate.readProvider = readProvider ∧ service.delegate.gasStation = gasStation

theorem meets_createOmnibusContext (custodyProvider : Option CompiledProvider)
    (omnibusWallet escrowWallet : Option CustodyWallet) (readProvider : Option Provider)
    (gasStation : Option GasStation) : Meets (bootGrowth packages booted) P
      (createOmnibusContext d custodyProvider omnibusWallet escrowWallet readProvider gasStation)
      fun omnibus _ => OmnibusOf d custodyProvider omnibusWallet escrowWallet readProvider gasStation omnibus := by
  unfold createOmnibusContext
  split_ifs with hmodel
  · cases omnibusWallet with
    | none => exact .throw
    | some wallet => exact .pure fun _ _ => ⟨hmodel.1, hmodel.2, rfl, rfl, rfl, rfl⟩
  · exact .pure fun _ _ => hmodel

/-- What the integrations leave: the payments slot, and with a node the five standards. -/
theorem meets_registerIntegrations {ctx : IntegrationContext}
    (hbooted : ∀ rpcUrl, ctx.rpcUrl = some rpcUrl → booted d.env rpcUrl) : Meets (bootGrowth packages booted) P
      (registerIntegrations packages d.env ctx) fun manager p => Claims d.env ctx p manager ∧
        (ctx.rpcUrl.isSome = true → ∀ name ∈ packages.ethereum, p.Knows name) := by
  have hkept : Kept fun p => ctx.rpcUrl.isSome = true → ∀ name ∈ packages.ethereum, p.Knows name :=
    fun p p' h hp hurl name hname => h.knows (hp hurl name hname)
  refine .bind (meets_registerTokenStandards ctx.rpcUrl hbooted) fun _ => ?_
  exact (meets_more hkept meets_registerDeposits).mono (fun _ hp => hp) fun _ _ h => ⟨h.2, h.1⟩

theorem meets_createIssuerWallet (readProvider : Provider) : Meets (bootGrowth packages booted) P
    (createIssuerWallet packages d readProvider) fun issuerWallet p => Issues d p readProvider issuerWallet := by
  unfold createIssuerWallet
  cases hkey : truthy (d.env "ASSET_ISSUER_PRIVATE_KEY") with
  | none => exact .pure fun _ _ => .none (.inl hkey)
  | some key =>
    cases hhost : truthy (d.env "NETWORK_HOST") with
    | none => exact .pure fun _ _ => .none (.inr hhost)
    | some host =>
      refine .bind (meets_orThrow _) fun rpcUrl => .factAnd fun hurl => ?_
      exact .bind meets_pooledSigner fun signer => .pure fun p h => .some hkey hurl h

end Phases

/-! ### The services -/

section Services

variable {packages : Packages} {booted : Env → String → Prop} {d : Deployment}
  {custodyProvider : Option CompiledProvider} {escrowWallet omnibusWallet : Option CustodyWallet}
  {readProvider : Option Provider} {gasStation : Option GasStation} {omnibus : Option VanillaService}
  {rpcUrl : Option String} {manager : PluginManager} {hedera : Bool}

/-- What the boot knows of its parts when it registers the services. -/
structure Parts (d : Deployment) (custodyProvider : Option CompiledProvider)
    (escrowWallet omnibusWallet : Option CustodyWallet) (readProvider : Option Provider)
    (gasStation : Option GasStation) (omnibus : Option VanillaService) (rpcUrl : Option String) : Prop where
  provider : ∀ provider, custodyProvider = some provider →
    d.custodyRegistry.get? d.config.type = some (.ok provider)
  escrow : ∀ wallet, escrowWallet = some wallet → Fabricated custodyProvider (escrowAccountId d) wallet
  payer : ∀ wallet, omnibusWallet = some wallet →
    Fabricated custodyProvider (truthy (d.env "OMNIBUS_CUSTODY_ACCOUNT_ID")) wallet
  omnibus : OmnibusOf d custodyProvider omnibusWallet escrowWallet readProvider gasStation omnibus
  node : Node d rpcUrl

theorem walletActivator_eq {activator : WalletActivator} (h : walletActivator d hedera gasStation = some activator) :
    ∃ station, gasStation = some station ∧ activator.fundingWallet = station.wallet := by
  unfold walletActivator at h
  split_ifs at h
  obtain ⟨station, hstation, rfl⟩ := Option.map_eq_some_iff.mp h
  exact ⟨station, hstation, rfl⟩

theorem createNetworkAccountService_activator {activator : WalletActivator}
    (h : createNetworkAccountService d (walletActivator d hedera gasStation) = .custody (some activator)) :
    ∃ station, gasStation = some station ∧ activator.fundingWallet = station.wallet := by
  unfold createNetworkAccountService at h
  split_ifs at h
  exact walletActivator_eq (NetworkAccountService.custody.inj h)

/-- The boot's own context is what the plugins were given. -/
abbrev Given (d : Deployment) (custodyProvider : Option CompiledProvider)
    (escrowWallet omnibusWallet : Option CustodyWallet) (readProvider : Option Provider)
    (gasStation : Option GasStation) (omnibus : Option VanillaService) (rpcUrl : Option String)
    (manager : PluginManager) (p : BootProcess) : Prop :=
  Claims d.env (integrationContext d custodyProvider escrowWallet readProvider gasStation omnibusWallet omnibus rpcUrl)
    p manager

theorem Parts.own (hparts : Parts d custodyProvider escrowWallet omnibusWallet readProvider gasStation omnibus rpcUrl) :
    Own d (integrationContext d custodyProvider escrowWallet readProvider gasStation omnibusWallet omnibus rpcUrl) :=
  ⟨rfl, hparts.node.url⟩

theorem wired_omnibus {p : BootProcess} {service : VanillaService} {provider : CompiledProvider} {escrow : CustodyWallet}
    {reader : Provider}
    (hparts : Parts d (some provider) (some escrow) omnibusWallet (some reader) gasStation (some service) rpcUrl)
    (hgiven : Given d (some provider) (some escrow) omnibusWallet (some reader) gasStation (some service) rpcUrl
      manager p) :
    Wired d p (omnibusServices service manager
      (createNetworkAccountService d (walletActivator d hedera gasStation))) := by
  obtain ⟨hmodel, -, hwallet, hescrow, hread, hgas⟩ := hparts.omnibus
  refine ⟨hgiven.length_le, .inl ⟨service, escrow, reader, ?_⟩⟩
  refine {
    model := hmodel
    tokens := rfl
    escrow := rfl
    wallets := ⟨provider, hparts.provider _ rfl, hparts.payer _ hwallet, hparts.escrow _ rfl⟩
    holds := hescrow
    reads := hread
    payments := rfl
    hook := rfl
    prefunding := rfl
    slot := hgiven.slotted hparts.own rfl ?_ rfl rfl rfl hgas.symm
    activator := fun activator hactivator => ?_ }
  · simp only [depositTarget, integrationContext, hmodel, hwallet, Option.map_some]
  · rw [hgas]
    exact createNetworkAccountService_activator hactivator

theorem wired_direct {p : BootProcess} {provider : CompiledProvider} {escrow : CustodyWallet} {reader : Provider}
    {issuerWallet : Option IssuerWallet} (hmodel : d.config.accountModel ≠ .omnibus)
    (hparts : Parts d (some provider) (some escrow) omnibusWallet (some reader) gasStation omnibus rpcUrl)
    (hgiven : Given d (some provider) (some escrow) omnibusWallet (some reader) gasStation omnibus rpcUrl manager p)
    (hissuer : Issues d p reader issuerWallet) :
    Wired d p (directServices escrow reader gasStation manager
      (createNetworkAccountService d (walletActivator d hedera gasStation)) issuerWallet) := by
  have hsegregated : d.config.accountModel = .segregated := by
    cases hcase : d.config.accountModel with
    | segregated => rfl
    | omnibus => exact absurd hcase hmodel
  have hnone : omnibus = none := by
    have h := hparts.omnibus
    cases omnibus with
    | none => rfl
    | some service => exact absurd h.1 hmodel
  refine ⟨hgiven.length_le, .inr (.inl ⟨escrow, reader, issuerWallet, gasStation, ?_⟩)⟩
  refine {
    model := hsegregated
    tokens := rfl
    escrow := rfl
    wallets := ⟨provider, hparts.provider _ rfl, hparts.escrow _ rfl⟩
    issuer := hissuer
    payments := rfl
    hook := rfl
    prefunding := rfl
    slot := hgiven.slotted hparts.own rfl ?_ hnone rfl rfl rfl
    activator := fun activator => createNetworkAccountService_activator }
  simp only [depositTarget, integrationContext, hsegregated, Option.isSome_some, if_true]

theorem Issues.grown {p p' : BootProcess} {reader : Provider} {issuerWallet : Option IssuerWallet}
    (h : Issues d p reader issuerWallet) (hp : p.Grown p') : Issues d p' reader issuerWallet := by
  cases h with
  | none hmissing => exact .none hmissing
  | some hkey hurl hsigner => exact .some hkey hurl (hp.signers _ _ hsigner)

theorem meets_registerCustodyServices {provider : CompiledProvider}
    (hparts : Parts d (some provider) escrowWallet omnibusWallet readProvider gasStation omnibus rpcUrl) :
    Meets (bootGrowth packages booted)
      (Given d (some provider) escrowWallet omnibusWallet readProvider gasStation omnibus rpcUrl manager)
      (registerCustodyServices packages d escrowWallet readProvider gasStation manager omnibus
        (createNetworkAccountService d (walletActivator d hedera gasStation))) fun app p => Wired d p app := by
  unfold registerCustodyServices
  cases readProvider with
  | none => exact .bind (meets_first _ _) fun _ => .fact nofun
  | some reader =>
    cases escrowWallet with
    | none => exact .bind (meets_required _ _) fun _ => .bind (meets_first _ _) fun _ => .fact nofun
    | some escrow =>
      refine .bind (meets_required _ _) fun reader' => .factAnd fun hreader => ?_
      refine .bind (meets_required _ _) fun escrow' => .factAnd fun hescrow => ?_
      cases hreader
      cases hescrow
      split_ifs with hmodel
      · refine .bind (meets_required _ _) fun service => .factAnd fun hservice => .pure fun p hgiven => ?_
        cases hservice
        exact wired_omnibus hparts hgiven
      · have hkept : Kept fun p => Given d (some provider) (some escrow) omnibusWallet (some reader) gasStation omnibus
            rpcUrl manager p := fun _ _ h hp => hp.grown h
        refine .bind (meets_more hkept (meets_createIssuerWallet reader)) fun issuerWallet => .pure fun p h => ?_
        exact wired_direct hmodel hparts h.1 h.2

theorem wired_contract {p : BootProcess} (hmodel : d.config.accountModel ≠ .omnibus)
    (htype : d.config.type = "finp2p-contract")
    (hparts : Parts d none escrowWallet omnibusWallet readProvider gasStation omnibus rpcUrl)
    (hgiven : Given d none escrowWallet omnibusWallet readProvider gasStation omnibus rpcUrl manager p) :
    Wired d p ⟨.onChain, .onChain, .plugins manager, ⟨manager, none, none⟩,
      createNetworkAccountService d (walletActivator d hedera gasStation)⟩ := by
  refine ⟨hgiven.length_le, .inr (.inr ?_)⟩
  refine {
    model := ?_
    type := htype
    tokens := rfl
    escrow := rfl
    payments := rfl
    accounts := if_pos htype
    hook := rfl
    prefunding := rfl
    slot := hgiven.contract hparts.own rfl rfl }
  cases hcase : d.config.accountModel with
  | segregated => rfl
  | omnibus => exact absurd hcase hmodel

theorem meets_registerServices (hparts : Parts d custodyProvider escrowWallet omnibusWallet readProvider gasStation
    omnibus rpcUrl) : Meets (bootGrowth packages booted)
      (Given d custodyProvider escrowWallet omnibusWallet readProvider gasStation omnibus rpcUrl manager)
      (registerServices packages d custodyProvider escrowWallet readProvider gasStation manager omnibus
        (createNetworkAccountService d (walletActivator d hedera gasStation))) fun app p => Wired d p app := by
  unfold registerServices
  cases custodyProvider with
  | some provider => exact meets_registerCustodyServices hparts
  | none =>
    simp only [Option.isSome_none, Bool.false_eq_true, if_false]
    split_ifs with htype
    · unfold registerFinP2PContractServices
      split_ifs with hmodel
      · exact .throw
      · exact .pure fun p hgiven => wired_contract hmodel htype hparts hgiven
    · exact .throw

/-- With a node, the registry knows the standards that every deployment has. -/
def Furnished (packages : Packages) (d : Deployment) (p : BootProcess) : Prop :=
  (truthy (d.env "NETWORK_HOST")).isSome = true → ∀ name ∈ packages.ethereum, p.Knows name

theorem Furnished.grown {p p' : BootProcess} (h : Furnished packages d p) (hp : p.Grown p') :
    Furnished packages d p' :=
  fun hhost name hname => hp.knows (h hhost name hname)

/-- A boot that returns has composed its services consistently; one that throws leaves the pool and the registry in
order all the same. -/
theorem meets_createApp (hbooted : ∀ rpcUrl, getNetworkRpcUrl d.env = .ok rpcUrl → booted d.env rpcUrl) :
    Meets (bootGrowth packages booted) (fun _ => True) (createApp packages d)
      fun app p => Wired d p app ∧ Furnished packages d p := by
  refine .bind (meets_orThrow _) fun _ => ?_
  refine .bind meets_createCustodyProvider fun custodyProvider => .fact fun hprovider => ?_
  refine .bind (meets_migrationGuard _) fun _ => ?_
  refine .bind (meets_roleWallet _ _) fun escrowWallet => .fact fun hescrow => ?_
  refine .bind (meets_createReadProvider _ _) fun readProvider => ?_
  refine .bind (meets_createGasStation _) fun gasStation => ?_
  refine .bind (meets_isHedera _ _) fun hedera => ?_
  refine .bind (meets_roleWallet _ _) fun omnibusWallet => .fact fun homnibusWallet => ?_
  refine .bind (meets_createOmnibusContext _ _ _ _ _) fun omnibus => .fact fun homnibus => ?_
  refine .bind meets_networkRpcUrl fun rpcUrl => .fact fun hnode => ?_
  refine .bind (meets_registerIntegrations fun url hurl => hbooted url (hnode.url url hurl)) fun manager => ?_
  have hkept : Kept (Furnished packages d) := fun _ _ h hp => hp.grown h
  refine ((meets_registerServices ⟨hprovider, hescrow, homnibusWallet, homnibus, hnode⟩).frame hkept).mono ?_
    fun _ _ h => h
  rintro p ⟨hclaims, hknows⟩
  exact ⟨hclaims, fun hhost => hknows (hnode.isSome.trans hhost)⟩

end Services

/-! ### Boot after boot -/

/-- The boots of one process, whatever each of them comes to. -/
def boots (packages : Packages) : List Deployment → BootProcess → List (Except String App) × BootProcess
  | [], p => ([], p)
  | d :: ds, p =>
    let booted := exec (createApp packages d) p
    let later := boots packages ds booted.2
    (booted.1 :: later.1, later.2)

theorem Wired.grown {d : Deployment} {p p' : BootProcess} {app : App} (h : Wired d p app) (hp : p.Grown p') :
    Wired d p' app := by
  refine ⟨h.once, ?_⟩
  rcases h.services with ⟨service, escrowWallet, readProvider, homnibus⟩ |
    ⟨escrowWallet, readProvider, issuerWallet, gasStation, hdirect⟩ | hcontract
  · exact .inl ⟨_, _, _, { homnibus with slot := homnibus.slot.grown hp }⟩
  · exact .inr (.inl ⟨_, _, _, _, { hdirect with
      slot := hdirect.slot.grown hp, issuer := hdirect.issuer.grown hp }⟩)
  · exact .inr (.inr { hcontract with slot := hcontract.slot.imp_right fun h => h.grown hp })

variable {packages : Packages} {booted : Env → String → Prop}

theorem boots_later (ds : List Deployment) {p : BootProcess} (hp : p.Stocked packages booted)
    (hbooted : ∀ d ∈ ds, ∀ rpcUrl, getNetworkRpcUrl d.env = .ok rpcUrl → booted d.env rpcUrl) :
    (boots packages ds p).2.Stocked packages booted ∧ p.Grown (boots packages ds p).2 ∧
      ∀ (n : ℕ) (app : App), (boots packages ds p).1[n]? = some (Except.ok app) →
        ∃ d : Deployment, ds[n]? = some d ∧ Wired d (boots packages ds p).2 app ∧
          Furnished packages d (boots packages ds p).2 := by
  induction ds generalizing p with
  | nil =>
    refine ⟨hp, .refl p, fun n app hn => ?_⟩
    simp [boots] at hn
  | cons d ds ih =>
    obtain ⟨hfirst, hrest⟩ := List.forall_mem_cons.mp hbooted
    obtain ⟨hstocked, hgrown, hwired⟩ := meets_createApp hfirst p hp trivial
    simp only [boots]
    generalize exec (createApp packages d) p = result at hstocked hgrown hwired
    obtain ⟨hstocked', hgrown', hlater⟩ := ih hstocked hrest
    refine ⟨hstocked', hgrown.trans hgrown', fun n app hn => ?_⟩
    cases n with
    | zero =>
      have hok : result.1 = .ok app := by simpa using hn
      exact ⟨d, rfl, (hwired app hok).1.grown hgrown', (hwired app hok).2.grown hgrown'⟩
    | succ n => exact hlater n app hn

theorem boots_append (ds ds' : List Deployment) (p : BootProcess) :
    (boots packages (ds ++ ds') p).2 = (boots packages ds' (boots packages ds p).2).2 := by
  induction ds generalizing p with
  | nil => rfl
  | cons d ds ih => exact ih _

/-- Two signers of the pool for one key and one node are one. -/
theorem Process.Filed.same {p : BootProcess} (h : p.Filed) {signer signer' : PooledSigner} (hs : p.Pooled signer)
    (hs' : p.Pooled signer') (hurl : signer.provider.rpcUrl = signer'.provider.rpcUrl)
    (hkey : normalizedKey signer.privateKey = normalizedKey signer'.privateKey) : signer = signer' := by
  obtain ⟨key, hget⟩ := hs
  obtain ⟨key', hget'⟩ := hs'
  have hsame : key = key' := by
    rw [h.signer _ _ hget, h.signer _ _ hget']
    unfold poolKey
    rw [hurl, hkey]
  rw [hsame, hget'] at hget
  cases hget
  rfl

theorem entry_eq_ok {registry : TokenStandardRegistry StandardImpl} {name : String} {e : Entry StandardImpl} :
    registry.entry name = .ok e ↔ registry.standards.get? (registry.toUpperCase name) = some e := by
  unfold TokenStandardRegistry.entry
  cases registry.standards.get? (registry.toUpperCase name) with
  | none => simp
  | some e' => simp

/-- The process was booted in the environment, over this node. -/
def Booted (ds : List Deployment) (env : Env) (rpcUrl : String) : Prop :=
  ∃ d ∈ ds, d.env = env ∧ getNetworkRpcUrl d.env = .ok rpcUrl

variable (toUpperCase : String → String)

theorem boots_from_init (packages : Packages) (ds : List Deployment) :
    (boots packages ds (Process.init toUpperCase)).2.Stocked packages (Booted ds) ∧
      ∀ (n : ℕ) (app : App), (boots packages ds (Process.init toUpperCase)).1[n]? = some (Except.ok app) →
        ∃ d : Deployment, ds[n]? = some d ∧ Wired d (boots packages ds (Process.init toUpperCase)).2 app ∧
          Furnished packages d (boots packages ds (Process.init toUpperCase)).2 := by
  obtain ⟨hstocked, -, hwired⟩ := boots_later ds (Process.stocked_init toUpperCase packages (Booted ds))
    fun d hd rpcUrl hurl => ⟨d, hd, rfl, hurl⟩
  exact ⟨hstocked, hwired⟩

/-- However many boots a process has had, in whatever environments and however they ended, what one of them returned
is composed consistently: its services, plugins and wallets are those of its account model. -/
theorem boots_wired (packages : Packages) (ds : List Deployment) (n : ℕ) (app : App)
    (hn : (boots packages ds (Process.init toUpperCase)).1[n]? = some (Except.ok app)) :
    ∃ d : Deployment, ds[n]? = some d ∧ Wired d (boots packages ds (Process.init toUpperCase)).2 app := by
  obtain ⟨d, hd, hwired, -⟩ := (boots_from_init toUpperCase packages ds).2 n app hn
  exact ⟨d, hd, hwired⟩

def deskPackages : Packages where
  newWallet key := .ok key
  mechanisms := ⟨["none", "internalKyc"], "none", "internalKyc"⟩
  erc20 := "ERC20"
  trex := "TREX"
  cmtat := "CMTAT"
  benji := "BENJI"
  hederaAts := "HEDERA_ATS"
  collateral := "OWNERA_COLLATERAL_REGISTRY"
  dtcc := "DTCC_COLLATERAL_ACCOUNT"

def deskProvider : CompiledProvider where
  resolveWallet _ := .ok none
  createWalletForCustodyId := some fun id => .ok ⟨id, .transport id⟩
  resolveAddressFromCustodyId := none
  createCustodyAccount := true

/-- A deployment of either account model with an omnibus account, on a network of the relay's kind. -/
def desk (model : AccountModel) : Deployment where
  env name :=
    if name = "NETWORK_HOST" then some "http://node"
    else if name = "ASSET_ISSUER_PRIVATE_KEY" then some "0xAB"
    else if name = "OMNIBUS_CUSTODY_ACCOUNT_ID" then some "7"
    else if name = "GAS_FUNDING_CUSTODY_ACCOUNT_ID" then some "9"
    else if name = "GAS_FUNDING_AMOUNT" then some "0.1"
    else none
  config := ⟨"dfns", model⟩
  custodyRegistry := JsMap.empty.set "dfns" (.ok deskProvider)
  migration := .ok ()
  isHederaNetwork _ := .ok true
  walletResolutionMode := .ok .walletMapping

/-- The second boot of a process is an omnibus one. -/
theorem desk_boots : ∃ app service escrowWallet readProvider,
    (boots deskPackages [desk .segregated, desk .omnibus] (Process.init String.toUpper)).1[1]? =
      some (Except.ok app) ∧
    WiredOmnibus (desk .omnibus) (boots deskPackages [desk .segregated, desk .omnibus]
      (Process.init String.toUpper)).2 app service escrowWallet readProvider := by
  have hboots : ((boots deskPackages [desk .segregated, desk .omnibus] (Process.init String.toUpper)).1[1]?.bind
      Except.toOption).isSome = true := by
    decide +kernel
  obtain ⟨app, happ⟩ := Option.isSome_iff_exists.mp hboots
  obtain ⟨outcome, hn, houtcome⟩ := Option.bind_eq_some_iff.mp happ
  cases outcome with
  | error e => cases houtcome
  | ok app' =>
    cases houtcome
    obtain ⟨d, hd, hwired⟩ := boots_wired String.toUpper deskPackages [desk .segregated, desk .omnibus] 1 app hn
    cases hd
    rcases hwired.services with ⟨service, escrowWallet, readProvider, homnibus⟩ |
      ⟨escrowWallet, readProvider, issuerWallet, gasStation, hdirect⟩ | hcontract
    · exact ⟨app, service, escrowWallet, readProvider, hn, homnibus⟩
    · cases hdirect.model
    · cases hcontract.model

/-- A standard that a boot has registered stays as it is through all later boots. Whichever boots there were, a name
stands for the standard of its package, with that standard's hold model, made of the environment of one of them; the
pool has one signer for one key over a node; and a boot that returned over a node has left the five standards. -/
theorem standards_kept (packages : Packages) (before after : List Deployment) :
    (∀ name e, (boots packages before (Process.init toUpperCase)).2.registry.entry name = .ok e →
      (boots packages (before ++ after) (Process.init toUpperCase)).2.registry.entry name = .ok e) ∧
    (∀ name e, (boots packages before (Process.init toUpperCase)).2.registry.entry name = .ok e →
      toUpperCase name = toUpperCase (e.impl.name packages) ∧ e.holdModel = e.impl.holdModel ∧
        ∃ d ∈ before, ∃ rpcUrl, getNetworkRpcUrl d.env = .ok rpcUrl ∧
          Configured packages d.env rpcUrl (boots packages before (Process.init toUpperCase)).2 e.impl) ∧
    (∀ signer signer', (boots packages before (Process.init toUpperCase)).2.Pooled signer →
      (boots packages (before ++ after) (Process.init toUpperCase)).2.Pooled signer' →
      signer.provider.rpcUrl = signer'.provider.rpcUrl →
      normalizedKey signer.privateKey = normalizedKey signer'.privateKey → signer = signer') ∧
    ∀ (n : ℕ) (d : Deployment), before[n]? = some d → (truthy (d.env "NETWORK_HOST")).isSome = true →
      (∃ app, (boots packages before (Process.init toUpperCase)).1[n]? = some (Except.ok app)) →
      ∀ name ∈ packages.ethereum, ∃ e,
        (boots packages before (Process.init toUpperCase)).2.registry.entry name = .ok e := by
  obtain ⟨hstocked, hreturned⟩ := boots_from_init toUpperCase packages before
  have hgrows := (boots_later before (Process.stocked_init toUpperCase packages fun _ _ => True)
    fun _ _ _ _ => trivial).2.1
  have hsome : (boots packages before (Process.init toUpperCase)).2.Stocked packages fun _ _ => True :=
    hstocked.mono fun _ _ _ => trivial
  obtain ⟨hstocked', hgrown, -⟩ := boots_later after hsome fun _ _ _ _ => trivial
  have hfold : (boots packages before (Process.init toUpperCase)).2.registry.toUpperCase = toUpperCase :=
    hgrows.toUpperCase
  have hfold' : (boots packages after (boots packages before (Process.init toUpperCase)).2).2.registry.toUpperCase =
      toUpperCase := hgrown.toUpperCase.trans hfold
  rw [boots_append]
  refine ⟨fun name e he => ?_, fun name e he => ?_,
    fun signer signer' hs hs' => hstocked'.filed.same (hgrown.pooled hs) hs', fun n d hd hhost ⟨app, happ⟩ => ?_⟩
  · rw [entry_eq_ok, hfold] at he
    rw [entry_eq_ok, hfold']
    exact hgrown.standards _ _ he
  · rw [entry_eq_ok, hfold] at he
    obtain ⟨env, rpcUrl, ⟨d, hd, rfl, hurl⟩, hconfigured⟩ := hstocked.configured _ _ he
    have hnamed := hstocked.named _ _ he
    rw [hfold] at hnamed
    exact ⟨hnamed, hstocked.held _ _ he, d, hd, rpcUrl, hurl, hconfigured⟩
  · intro name hname
    obtain ⟨d', hd', -, hfurnished⟩ := hreturned n app happ
    rw [hd] at hd'
    cases hd'
    obtain ⟨e, he⟩ := Option.isSome_iff_exists.mp (hfurnished hhost name hname)
    exact ⟨e, entry_eq_ok.mpr he⟩

end FinP2PAdapter.Boot
