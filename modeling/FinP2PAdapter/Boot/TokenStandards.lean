import FinP2PAdapter.Boot.SignerPool
import FinP2PAdapter.Library.Growing
import FinP2PAdapter.TokenStandards.AtsPolicy

/-! The token standards that a boot registers. The registry outlives a failed boot and is not written twice, so a
standard keeps the signers of the boot that registered it. -/

namespace FinP2PAdapter.Boot

open Accounts (truthy)
open Interrupts TokenStandards

/-- `process.env`. -/
abbrev Env := String → Option String

/-- A controller that no key was given for is a random wallet. -/
inductive Controller where
  | pooled (signer : PooledSigner)
  | ephemeral (id : ℕ) (provider : JsonRpcProvider)
  deriving DecidableEq, Repr

/-- The standards, with what they are constructed of. -/
inductive StandardImpl where
  | erc20 (provider : JsonRpcProvider) (issuer : Option PooledSigner)
  | trex (provider : JsonRpcProvider) (issuer : Option PooledSigner) (controller : Controller)
      (allowlister : Option PooledSigner)
  | cmtat (provider : JsonRpcProvider) (issuer : Option PooledSigner) (controller : Controller)
      (allowlister : Option PooledSigner)
  | benji (provider : JsonRpcProvider) (issuer : Option PooledSigner) (controller : Controller)
  | ats (provider : JsonRpcProvider) (issuer : Option PooledSigner) (controller : Controller)
      (allowlister : Option PooledSigner) (whitelisting : Option AtsPolicy.WhitelistingPolicy)
  | collateral (registry : String) (provider : JsonRpcProvider) (agentSigner : PooledSigner)
  | dtcc (factoryAddress : String) (provider : JsonRpcProvider) (agentSigner : PooledSigner)
  deriving DecidableEq, Repr

/-- What the packages of the standards and `ethers` export. -/
structure Packages where
  newWallet : NewWallet
  mechanisms : AtsPolicy.WhitelistingMechanism
  erc20 : String
  trex : String
  cmtat : String
  benji : String
  hederaAts : String
  collateral : String
  dtcc : String

namespace StandardImpl

/-- The name of the package. -/
def name (packages : Packages) : StandardImpl → String
  | erc20 .. => packages.erc20
  | trex .. => packages.trex
  | cmtat .. => packages.cmtat
  | benji .. => packages.benji
  | ats .. => packages.hederaAts
  | collateral .. => packages.collateral
  | dtcc .. => packages.dtcc

def holdModel : StandardImpl → HoldModel
  | ats .. => .holderReservation
  | _ => .escrowTransfer

end StandardImpl

abbrev BootProcess := Process StandardImpl

/-- A standard is registered once. -/
def register (name : String) (impl : StandardImpl) (holdModel : HoldModel := .escrowTransfer) :
    Act String BootProcess Unit := do
  let p ← get
  if p.registry.has name then return ()
  else
    match p.registry.register name impl holdModel with
    | .error e => throw e.text
    | .ok registry => set { p with registry := registry }

section Registration

variable (packages : Packages) (env : Env)

/-- `key ? pooledSigner(rpcUrl, key) : undefined`. -/
def signerOf (rpcUrl : String) : Option String → Act String BootProcess (Option PooledSigner)
  | none => return none
  | some key => some <$> pooledSigner packages.newWallet rpcUrl key

def controllerOf (rpcUrl : String) (provider : JsonRpcProvider) : Option String → Act String BootProcess Controller
  | none => do
    let id := (← get).created
    modify fun p => { p with created := p.created + 1 }
    return .ephemeral id provider
  | some key => .pooled <$> pooledSigner packages.newWallet rpcUrl key

def orThrow {α : Type} : Except String α → Act String BootProcess α
  | .error e => throw e
  | .ok a => return a

/-- `process.env.OPERATOR_PRIVATE_KEY!`, which `pooledSigner` lowers. -/
def requiredKey (name : String) : Act String BootProcess String :=
  match env name with
  | none => throw "Cannot read properties of undefined (reading 'toLowerCase')"
  | some key => return key

/-- The collateral registry's address and its agent's key, if both are set. -/
def collateralEnv : Option (String × String) :=
  match truthy (env "COLLATERAL_REGISTRY_ADDRESS"), truthy (env "COLLATERAL_AGENT_PRIVATE_KEY") with
  | some registry, some key => some (registry, key)
  | _, _ => none

def dtccEnabled : Bool := env "DTCC_PLUGIN_ENABLED" = some "true"

/-- The address that verifies an investor's KYC. -/
def kycIssuerAddress : Option String → Except String (Option String)
  | none => .ok none
  | some key => (packages.newWallet key).map some

def registerEthereumStandards (rpcUrl : String) : Act String BootProcess Unit := do
  let issuerKey := truthy (env "ASSET_ISSUER_PRIVATE_KEY")
  let provider ← pooledProvider rpcUrl
  let issuer ← signerOf packages rpcUrl issuerKey
  let controller ← controllerOf packages rpcUrl provider (truthy (env "ASSET_CONTROLLER_PRIVATE_KEY"))
  let allowlister ← signerOf packages rpcUrl (truthy (env "ASSET_WHITELIST_PRIVATE_KEY"))
  let kycIssuer ← orThrow (kycIssuerAddress packages issuerKey)
  let atsWhitelisting ← orThrow (AtsPolicy.parseAtsWhitelistingMechanisms packages.mechanisms
    (env "HEDERA_ATS_WHITELISTING_MECHANISMS") kycIssuer)
  register packages.erc20 (.erc20 provider issuer)
  register packages.trex (.trex provider issuer controller allowlister)
  register packages.cmtat (.cmtat provider issuer controller allowlister)
  register packages.benji (.benji provider issuer controller)
  register packages.hederaAts (.ats provider issuer controller allowlister atsWhitelisting) .holderReservation

def registerCollateralStandard (rpcUrl : String) : Act String BootProcess Unit :=
  match collateralEnv env with
  | none => return ()
  | some (registry, key) => do
    let agentSigner ← pooledSigner packages.newWallet rpcUrl key
    let provider ← pooledProvider rpcUrl
    register packages.collateral (.collateral registry provider agentSigner)

def registerDtccStandard (rpcUrl : String) : Act String BootProcess Unit :=
  if dtccEnabled env then do
    let operatorKey ← requiredKey env "OPERATOR_PRIVATE_KEY"
    let agentSigner ← pooledSigner packages.newWallet rpcUrl operatorKey
    let provider ← pooledProvider rpcUrl
    register packages.dtcc (.dtcc ((env "FACTORY_ADDRESS").getD "") provider agentSigner)
  else return ()

def registerTokenStandards : Option String → Act String BootProcess Unit
  | none => return ()
  | some rpcUrl => do
    registerEthereumStandards packages env rpcUrl
    registerCollateralStandard packages env rpcUrl
    registerDtccStandard packages env rpcUrl

end Registration

/-! ### What the registry holds -/

/-- The pool has the signer. -/
def Process.Pooled (p : BootProcess) (signer : PooledSigner) : Prop := ∃ key, p.signers.get? key = some signer

/-- The signer is the pool's for the key, if there is a key. -/
inductive Process.Signs (p : BootProcess) (rpcUrl : String) : Option String → Option PooledSigner → Prop where
  | none : p.Signs rpcUrl none none
  | some {key : String} {signer : PooledSigner} (h : p.signers.get? (poolKey rpcUrl key) = some signer) :
      p.Signs rpcUrl (some key) (some signer)

/-- Without a key the controller is a random wallet over the pool's provider. -/
inductive Process.Controls (p : BootProcess) (rpcUrl : String) : Option String → Controller → Prop where
  | ephemeral {id : ℕ} {provider : JsonRpcProvider} (h : p.providers.get? rpcUrl = some provider) :
      p.Controls rpcUrl none (.ephemeral id provider)
  | pooled {key : String} {signer : PooledSigner} (h : p.signers.get? (poolKey rpcUrl key) = some signer) :
      p.Controls rpcUrl (some key) (.pooled signer)

/-- What an environment gives the ethereum standards over a node. -/
structure Roles (env : Env) (rpcUrl : String) (p : BootProcess) (provider : JsonRpcProvider)
    (issuer : Option PooledSigner) (controller : Controller) (allowlister : Option PooledSigner) : Prop where
  provider : p.providers.get? rpcUrl = some provider
  issuer : p.Signs rpcUrl (truthy (env "ASSET_ISSUER_PRIVATE_KEY")) issuer
  controller : p.Controls rpcUrl (truthy (env "ASSET_CONTROLLER_PRIVATE_KEY")) controller
  allowlister : p.Signs rpcUrl (truthy (env "ASSET_WHITELIST_PRIVATE_KEY")) allowlister

/-- The standard is made of what the environment says, with the pool's provider and signers. -/
inductive Configured (packages : Packages) (env : Env) (rpcUrl : String) (p : BootProcess) : StandardImpl → Prop where
  | erc20 {provider : JsonRpcProvider} {issuer allowlister : Option PooledSigner} {controller : Controller}
      (h : Roles env rpcUrl p provider issuer controller allowlister) :
    Configured packages env rpcUrl p (.erc20 provider issuer)
  | trex {provider : JsonRpcProvider} {issuer allowlister : Option PooledSigner} {controller : Controller}
      (h : Roles env rpcUrl p provider issuer controller allowlister) :
    Configured packages env rpcUrl p (.trex provider issuer controller allowlister)
  | cmtat {provider : JsonRpcProvider} {issuer allowlister : Option PooledSigner} {controller : Controller}
      (h : Roles env rpcUrl p provider issuer controller allowlister) :
    Configured packages env rpcUrl p (.cmtat provider issuer controller allowlister)
  | benji {provider : JsonRpcProvider} {issuer allowlister : Option PooledSigner} {controller : Controller}
      (h : Roles env rpcUrl p provider issuer controller allowlister) :
    Configured packages env rpcUrl p (.benji provider issuer controller)
  | ats {provider : JsonRpcProvider} {issuer allowlister : Option PooledSigner} {controller : Controller}
      {kycIssuer : Option String} {whitelisting : Option AtsPolicy.WhitelistingPolicy}
      (h : Roles env rpcUrl p provider issuer controller allowlister)
      (hkyc : kycIssuerAddress packages (truthy (env "ASSET_ISSUER_PRIVATE_KEY")) = .ok kycIssuer)
      (hwhitelisting : AtsPolicy.parseAtsWhitelistingMechanisms packages.mechanisms
        (env "HEDERA_ATS_WHITELISTING_MECHANISMS") kycIssuer = .ok whitelisting) :
    Configured packages env rpcUrl p (.ats provider issuer controller allowlister whitelisting)
  | collateral {registry key : String} {provider : JsonRpcProvider} {agentSigner : PooledSigner}
      (henv : collateralEnv env = some (registry, key)) (hprovider : p.providers.get? rpcUrl = some provider)
      (hagent : p.signers.get? (poolKey rpcUrl key) = some agentSigner) :
    Configured packages env rpcUrl p (.collateral registry provider agentSigner)
  | dtcc {key : String} {provider : JsonRpcProvider} {agentSigner : PooledSigner}
      (henv : dtccEnabled env = true) (hkey : env "OPERATOR_PRIVATE_KEY" = some key)
      (hprovider : p.providers.get? rpcUrl = some provider)
      (hagent : p.signers.get? (poolKey rpcUrl key) = some agentSigner) :
    Configured packages env rpcUrl p (.dtcc ((env "FACTORY_ADDRESS").getD "") provider agentSigner)

/-- The pool and the registry are in order: a standard is registered under the name of its package, with the hold
model it has, and is configured by an environment that the process has been booted in, over its node. -/
structure Process.Stocked (packages : Packages) (booted : Env → String → Prop) (p : BootProcess) : Prop where
  filed : p.Filed
  named : ∀ name e, p.registry.standards.get? name = some e →
    name = p.registry.toUpperCase (e.impl.name packages)
  held : ∀ name e, p.registry.standards.get? name = some e → e.holdModel = e.impl.holdModel
  configured : ∀ name e, p.registry.standards.get? name = some e →
    ∃ env rpcUrl, booted env rpcUrl ∧ Configured packages env rpcUrl p e.impl

theorem Process.stocked_init (toUpperCase : String → String) (packages : Packages) (booted : Env → String → Prop) :
    (Process.init toUpperCase : BootProcess).Stocked packages booted :=
  ⟨Process.filed_init toUpperCase, nofun, nofun, nofun⟩

def bootGrowth (packages : Packages) (booted : Env → String → Prop) : Growth BootProcess :=
  ⟨Process.Stocked packages booted, Process.Grown, .refl, .trans⟩

section Grown

variable {packages : Packages} {env : Env} {rpcUrl : String} {p p' : BootProcess}

theorem Process.Grown.pooled (h : p.Grown p') {signer : PooledSigner} (hs : p.Pooled signer) : p'.Pooled signer := by
  obtain ⟨key, hkey⟩ := hs
  exact ⟨key, h.signers _ _ hkey⟩

theorem Process.Grown.signs (h : p.Grown p') {key : Option String} {signer : Option PooledSigner}
    (hs : p.Signs rpcUrl key signer) : p'.Signs rpcUrl key signer := by
  cases hs with
  | none => exact .none
  | some hget => exact .some (h.signers _ _ hget)

theorem Process.Grown.controls (h : p.Grown p') {key : Option String} {controller : Controller}
    (hc : p.Controls rpcUrl key controller) : p'.Controls rpcUrl key controller := by
  cases hc with
  | ephemeral hget => exact .ephemeral (h.providers _ _ hget)
  | pooled hget => exact .pooled (h.signers _ _ hget)

theorem Roles.grown {provider : JsonRpcProvider} {issuer allowlister : Option PooledSigner} {controller : Controller}
    (hr : Roles env rpcUrl p provider issuer controller allowlister) (h : p.Grown p') :
    Roles env rpcUrl p' provider issuer controller allowlister :=
  ⟨h.providers _ _ hr.provider, h.signs hr.issuer, h.controls hr.controller, h.signs hr.allowlister⟩

theorem Configured.grown {impl : StandardImpl} (hc : Configured packages env rpcUrl p impl) (h : p.Grown p') :
    Configured packages env rpcUrl p' impl := by
  cases hc with
  | erc20 hr => exact .erc20 (hr.grown h)
  | trex hr => exact .trex (hr.grown h)
  | cmtat hr => exact .cmtat (hr.grown h)
  | benji hr => exact .benji (hr.grown h)
  | ats hr hkyc hwhitelisting => exact .ats (hr.grown h) hkyc hwhitelisting
  | collateral henv hprovider hagent =>
    exact .collateral henv (h.providers _ _ hprovider) (h.signers _ _ hagent)
  | dtcc henv hkey hprovider hagent =>
    exact .dtcc henv hkey (h.providers _ _ hprovider) (h.signers _ _ hagent)

theorem Process.Stocked.mono {booted booted' : Env → String → Prop} (hp : p.Stocked packages booted)
    (h : ∀ env rpcUrl, booted env rpcUrl → booted' env rpcUrl) : p.Stocked packages booted' := by
  refine { hp with configured := fun name e he => ?_ }
  obtain ⟨env, rpcUrl, hbooted, hconfigured⟩ := hp.configured name e he
  exact ⟨env, rpcUrl, h env rpcUrl hbooted, hconfigured⟩

/-- The registry of a process that has grown is the one it was. -/
theorem Process.Stocked.later {booted : Env → String → Prop} (hp : p.Stocked packages booted) (h : p.Grown p')
    (hfiled : p'.Filed) (hregistry : p'.registry = p.registry) : p'.Stocked packages booted := by
  refine ⟨hfiled, ?_, ?_, ?_⟩
  · rw [hregistry]
    exact hp.named
  · rw [hregistry]
    exact hp.held
  · rw [hregistry]
    intro name e he
    obtain ⟨env, rpcUrl, hbooted, hconfigured⟩ := hp.configured name e he
    exact ⟨env, rpcUrl, hbooted, hconfigured.grown h⟩

/-- The registry knows the name. -/
def Process.Knows (p : BootProcess) (name : String) : Prop := p.registry.has name = true

theorem Process.Grown.knows {name : String} (h : p.Grown p') (hp : p.Knows name) : p'.Knows name := by
  unfold Knows TokenStandardRegistry.has JsMap.has at *
  obtain ⟨e, he⟩ := Option.isSome_iff_exists.mp hp
  rw [h.toUpperCase, h.standards _ _ he]
  rfl

end Grown

/-! ### The registration -/

section Invariant

variable {packages : Packages} {booted : Env → String → Prop} {env : Env} {rpcUrl : String} {p p' : BootProcess}
  {P : BootProcess → Prop}

theorem meets_pooledProvider : Meets (bootGrowth packages booted) P (pooledProvider rpcUrl) fun provider p =>
    p.providers.get? rpcUrl = some provider := by
  intro p hp _
  obtain ⟨provider, p', hexec, hlater, hprovider, -, hregistry⟩ := pooledProvider_later rpcUrl hp.filed
  rw [hexec]
  refine ⟨hp.later hlater.grown hlater.filed hregistry, hlater.grown, ?_⟩
  rintro _ ⟨⟩
  exact hprovider

theorem meets_pooledSigner {key : String} : Meets (bootGrowth packages booted) P
    (pooledSigner packages.newWallet rpcUrl key) fun signer p =>
      p.signers.get? (poolKey rpcUrl key) = some signer := by
  intro p hp _
  have hserves := pooledSigner_serves packages.newWallet rpcUrl key hp.filed
  exact ⟨hp.later hserves.later.grown hserves.later.filed hserves.registry, hserves.later.grown, hserves.pooled⟩

theorem meets_signerOf (key : Option String) : Meets (bootGrowth packages booted) P (signerOf packages rpcUrl key)
    fun signer p => p.Signs rpcUrl key signer := by
  cases key with
  | none => exact .pure fun _ _ => .none
  | some key => exact .map meets_pooledSigner fun signer p h => .some h

theorem meets_controllerOf (provider : JsonRpcProvider) (key : Option String) : Meets (bootGrowth packages booted)
    (fun p => p.providers.get? rpcUrl = some provider) (controllerOf packages rpcUrl provider key)
      fun controller p => p.Controls rpcUrl key controller := by
  cases key with
  | none =>
    intro p hp hprovider
    have hgrown : p.Grown { p with created := p.created + 1 } :=
      ⟨fun _ _ h => h, fun _ _ h => h, fun _ _ h => h, rfl, Nat.le_succ _⟩
    refine ⟨hp.later hgrown ⟨hp.filed.provider, hp.filed.signer, ?_, hp.filed.distinct⟩ rfl, hgrown, ?_⟩
    · exact fun key s h => Nat.lt_succ_of_lt (hp.filed.old key s h)
    · rintro _ ⟨⟩
      exact .ephemeral hprovider
  | some key => exact .map meets_pooledSigner fun signer p h => .pooled h

theorem meets_orThrow {α : Type} (outcome : Except String α) : Meets (bootGrowth packages booted) P
    (orThrow outcome) fun a p => outcome = .ok a ∧ P p := by
  cases outcome with
  | error e => exact .throw
  | ok a => exact .pure fun _ h => ⟨rfl, h⟩

theorem meets_requiredKey (name : String) : Meets (bootGrowth packages booted) P (requiredKey env name)
    fun key p => env name = some key ∧ P p := by
  unfold requiredKey
  cases env name with
  | none => exact .throw
  | some key => exact .pure fun _ h => ⟨rfl, h⟩

/-- A standard that is configured is registered under its package's name, unless it is already. -/
theorem meets_register (impl : StandardImpl) (hbooted : booted env rpcUrl) : Meets (bootGrowth packages booted)
    (fun p => Configured packages env rpcUrl p impl) (register (impl.name packages) impl impl.holdModel)
    fun _ p => p.Knows (impl.name packages) := by
  intro p hp hconfigured
  simp only [register, exec_bind, exec_get]
  split_ifs with hhas
  · exact ⟨hp, .refl p, fun _ _ => hhas⟩
  · have habsent : p.registry.standards.get? (p.registry.toUpperCase (impl.name packages)) = none := by
      simpa [TokenStandardRegistry.has, JsMap.has] using hhas
    have hregister : p.registry.register (impl.name packages) impl impl.holdModel = .ok { p.registry with
        standards := p.registry.standards.set (p.registry.toUpperCase (impl.name packages))
          ⟨impl, impl.holdModel⟩ } := if_neg hhas
    rw [hregister, exec_set]
    have hgrown : p.Grown { p with registry := { p.registry with
        standards := p.registry.standards.set (p.registry.toUpperCase (impl.name packages))
          ⟨impl, impl.holdModel⟩ } } :=
      ⟨fun _ _ h => h, fun _ _ h => h, fun _ _ h => get?_set_of_absent habsent h, rfl, Nat.le_refl _⟩
    refine ⟨⟨⟨hp.filed.provider, hp.filed.signer, hp.filed.old, hp.filed.distinct⟩, ?_, ?_, ?_⟩, hgrown,
      fun _ _ => ?_⟩
    · intro name e he
      rw [JsMap.get?_set] at he
      split_ifs at he with hname
      · cases he
        exact hname
      · exact hp.named name e he
    · intro name e he
      rw [JsMap.get?_set] at he
      split_ifs at he with hname
      · cases he
        rfl
      · exact hp.held name e he
    · intro name e he
      rw [JsMap.get?_set] at he
      split_ifs at he with hname
      · cases he
        exact ⟨env, rpcUrl, hbooted, hconfigured.grown hgrown⟩
      · obtain ⟨env', rpcUrl', hbooted', hconfigured'⟩ := hp.configured name e he
        exact ⟨env', rpcUrl', hbooted', hconfigured'.grown hgrown⟩
    · simp [Process.Knows, TokenStandardRegistry.has, JsMap.has]

/-- Growth cannot undo it. -/
def Kept (F : BootProcess → Prop) : Prop := ∀ p p', p.Grown p' → F p → F p'

theorem Kept.and {F G : BootProcess → Prop} (hF : Kept F) (hG : Kept G) : Kept fun p => F p ∧ G p :=
  fun p p' h hp => ⟨hF p p' h hp.1, hG p p' h hp.2⟩

theorem kept_provider {provider : JsonRpcProvider} : Kept fun p => p.providers.get? rpcUrl = some provider :=
  fun _ _ h => h.providers _ _

theorem kept_signer {key : String} {signer : PooledSigner} : Kept fun p => p.signers.get? key = some signer :=
  fun _ _ h => h.signers _ _

theorem kept_signs {key : Option String} {signer : Option PooledSigner} : Kept fun p => p.Signs rpcUrl key signer :=
  fun _ _ h => h.signs

theorem kept_controls {key : Option String} {controller : Controller} :
    Kept fun p => p.Controls rpcUrl key controller :=
  fun _ _ h => h.controls

theorem kept_knows (name : String) : Kept fun p => p.Knows name := fun _ _ h => h.knows

variable {F : BootProcess → Prop}

/-- What was known before is known after, besides what the program achieves. -/
theorem meets_more {α : Type} {x : Act String BootProcess α} {Q : α → BootProcess → Prop} (hF : Kept F)
    (hx : Meets (bootGrowth packages booted) F x Q) :
    Meets (bootGrowth packages booted) F x fun a p => F p ∧ Q a p :=
  (hx.frame hF).mono (fun _ h => ⟨h, h⟩) fun _ _ h => ⟨h.2, h.1⟩

theorem meets_registerNext (hF : Kept F) (hbooted : booted env rpcUrl) (impl : StandardImpl)
    (hconfigured : ∀ p, F p → Configured packages env rpcUrl p impl) : Meets (bootGrowth packages booted) F
      (register (impl.name packages) impl impl.holdModel) fun _ p => F p ∧ p.Knows (impl.name packages) :=
  meets_more hF ((meets_register impl hbooted).mono hconfigured fun _ _ h => h)

/-- The standards that every deployment with a node has. -/
def Packages.ethereum (packages : Packages) : List String :=
  [packages.erc20, packages.trex, packages.cmtat, packages.benji, packages.hederaAts]

section Ethereum

variable {provider : JsonRpcProvider} {issuer allowlister : Option PooledSigner} {controller : Controller}
  {kycIssuer : Option String} {whitelisting : Option AtsPolicy.WhitelistingPolicy}

theorem kept_roles : Kept fun p => Roles env rpcUrl p provider issuer controller allowlister :=
  fun _ _ h hr => hr.grown h

/-- The five standards, once their roles are known. -/
theorem meets_registerFive (hbooted : booted env rpcUrl)
    (hkyc : kycIssuerAddress packages (truthy (env "ASSET_ISSUER_PRIVATE_KEY")) = .ok kycIssuer)
    (hwhitelisting : AtsPolicy.parseAtsWhitelistingMechanisms packages.mechanisms
      (env "HEDERA_ATS_WHITELISTING_MECHANISMS") kycIssuer = .ok whitelisting) :
    Meets (bootGrowth packages booted) (fun p => Roles env rpcUrl p provider issuer controller allowlister)
      (do
        register packages.erc20 (.erc20 provider issuer)
        register packages.trex (.trex provider issuer controller allowlister)
        register packages.cmtat (.cmtat provider issuer controller allowlister)
        register packages.benji (.benji provider issuer controller)
        register packages.hederaAts (.ats provider issuer controller allowlister whitelisting) .holderReservation)
      fun _ p => ∀ name ∈ packages.ethereum, p.Knows name := by
  have hroles : Kept fun p => Roles env rpcUrl p provider issuer controller allowlister := kept_roles
  have herc20 := hroles.and (kept_knows packages.erc20)
  have htrex := herc20.and (kept_knows packages.trex)
  have hcmtat := htrex.and (kept_knows packages.cmtat)
  have hbenji := hcmtat.and (kept_knows packages.benji)
  refine .bind (meets_registerNext hroles hbooted (.erc20 provider issuer) fun _ h => .erc20 h) fun _ => ?_
  refine .bind (meets_registerNext herc20 hbooted (.trex provider issuer controller allowlister)
    fun _ h => .trex h.1) fun _ => ?_
  refine .bind (meets_registerNext htrex hbooted (.cmtat provider issuer controller allowlister)
    fun _ h => .cmtat h.1.1) fun _ => ?_
  refine .bind (meets_registerNext hcmtat hbooted (.benji provider issuer controller)
    fun _ h => .benji h.1.1.1) fun _ => ?_
  refine (meets_registerNext hbenji hbooted (.ats provider issuer controller allowlister whitelisting)
    fun _ h => .ats h.1.1.1.1 hkyc hwhitelisting).mono (fun _ h => h) fun _ p h => ?_
  obtain ⟨⟨⟨⟨⟨-, herc20⟩, htrex⟩, hcmtat⟩, hbenji⟩, hats⟩ := h
  intro name hname
  simp only [Packages.ethereum, List.mem_cons, List.not_mem_nil, or_false] at hname
  rcases hname with rfl | rfl | rfl | rfl | rfl
  · exact herc20
  · exact htrex
  · exact hcmtat
  · exact hbenji
  · exact hats

end Ethereum

theorem meets_registerEthereumStandards (hbooted : booted env rpcUrl) : Meets (bootGrowth packages booted) P
    (registerEthereumStandards packages env rpcUrl) fun _ p => ∀ name ∈ packages.ethereum, p.Knows name := by
  refine .bind meets_pooledProvider fun provider => ?_
  refine .bind (meets_more kept_provider (meets_signerOf _)) fun issuer => ?_
  refine .bind (meets_more (kept_provider.and kept_signs)
    ((meets_controllerOf provider _).mono (fun _ h => h.1) fun _ _ h => h)) fun controller => ?_
  refine .bind (meets_more ((kept_provider.and kept_signs).and kept_controls) (meets_signerOf _)) fun allowlister => ?_
  refine .bind (meets_orThrow _) fun kycIssuer => .bind (meets_orThrow _) fun whitelisting => ?_
  intro p hp hfacts
  obtain ⟨hwhitelisting, hkyc, ⟨⟨hprovider, hissuer⟩, hcontroller⟩, hallowlister⟩ := hfacts
  exact meets_registerFive hbooted hkyc hwhitelisting p hp ⟨hprovider, hissuer, hcontroller, hallowlister⟩

theorem meets_registerCollateralStandard (hF : Kept F) (hbooted : booted env rpcUrl) :
    Meets (bootGrowth packages booted) F (registerCollateralStandard packages env rpcUrl) fun _ => F := by
  unfold registerCollateralStandard
  cases henv : collateralEnv env with
  | none => exact .pure fun _ hp => hp
  | some found =>
    obtain ⟨registry, key⟩ := found
    refine .bind (meets_more hF meets_pooledSigner) fun agentSigner => ?_
    refine .bind (meets_more (hF.and kept_signer) meets_pooledProvider) fun provider => ?_
    refine (meets_registerNext ((hF.and kept_signer).and kept_provider) hbooted
      (.collateral registry provider agentSigner) fun _ h => .collateral henv h.2 h.1.2).mono (fun _ hp => hp) ?_
    exact fun _ _ h => h.1.1.1

theorem meets_registerDtccStandard (hF : Kept F) (hbooted : booted env rpcUrl) :
    Meets (bootGrowth packages booted) F (registerDtccStandard packages env rpcUrl) fun _ => F := by
  unfold registerDtccStandard
  split_ifs with henabled
  · refine .bind (meets_requiredKey _) fun operatorKey => ?_
    intro p hp hfacts
    obtain ⟨hkey, hf⟩ := hfacts
    refine (Meets.bind (meets_more hF meets_pooledSigner) fun agentSigner => ?_) p hp hf
    refine .bind (meets_more (hF.and kept_signer) meets_pooledProvider) fun provider => ?_
    refine (meets_registerNext ((hF.and kept_signer).and kept_provider) hbooted
      (.dtcc _ provider agentSigner) fun _ h => .dtcc henabled hkey h.2 h.1.2).mono (fun _ hp => hp) ?_
    exact fun _ _ h => h.1.1.1
  · exact .pure fun _ hp => hp

/-- A boot that has a node leaves the five standards in the registry; and whatever a boot comes to, it leaves the
pool and the registry in order and what they held as it was. -/
theorem meets_registerTokenStandards (url : Option String) (hbooted : ∀ rpcUrl, url = some rpcUrl → booted env rpcUrl) :
    Meets (bootGrowth packages booted) P (registerTokenStandards packages env url) fun _ p =>
      url.isSome = true → ∀ name ∈ packages.ethereum, p.Knows name := by
  cases url with
  | none => exact .pure fun p _ => by simp
  | some rpcUrl =>
    have hkept : Kept fun p => ∀ name ∈ packages.ethereum, p.Knows name :=
      fun p p' h hp name hname => h.knows (hp name hname)
    refine .bind (meets_registerEthereumStandards (hbooted rpcUrl rfl)) fun _ => ?_
    refine .bind (meets_registerCollateralStandard hkept (hbooted rpcUrl rfl)) fun _ => ?_
    exact (meets_registerDtccStandard hkept (hbooted rpcUrl rfl)).mono (fun _ h => h) fun _ _ h _ => h

end Invariant

end FinP2PAdapter.Boot
