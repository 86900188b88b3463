import FinP2PAdapter.Accounts.AccountResolver
import FinP2PAdapter.TokenStandards.Registry

/-! How an asset comes to have a token standard. Both services deploy a token of the default
standard, or bind one that exists and whose standard the request may name; the standard is saved
with the asset, and every later operation looks it up by that name. -/

namespace FinP2PAdapter.TokenStandards

open Accounts (truthy truthy_eq_some)

variable {T W : Type}

structure TokenIdentifier where
  tokenId : String
  network : Option String
  standard : Option String
  deriving DecidableEq, Repr

structure AssetBind where
  tokenIdentifier : Option TokenIdentifier
  deriving DecidableEq, Repr

structure DeployResult where
  contractAddress : String
  decimals : ℕ
  tokenStandard : String
  deriving DecidableEq, Repr

/-- What `saveAsset` is given. -/
structure SavedAsset where
  contractAddress : String
  decimals : ℕ
  tokenStandard : String
  id : String
  deriving DecidableEq, Repr

structure LedgerAssetIdentifier where
  network : String
  tokenId : String
  standard : String
  deriving DecidableEq, Repr

inductive AssetCreation where
  | success (ledgerIdentifier : LedgerAssetIdentifier)
  | failed (code : ℕ) (message : String)
  deriving DecidableEq, Repr

/-- How a creation ends, and what it has saved. -/
structure Created where
  answer : Except ServiceError AssetCreation
  saved : List SavedAsset

def Created.throws (e : ServiceError) : Created := ⟨.error e, []⟩

/-- The registry, the two calls of a standard's implementation that creations make, the chain id
that the provider answers with, and the constants of the default standard. -/
structure Creator (T W : Type) where
  registry : TokenStandardRegistry T
  deploy : T → W → String → String → ℕ → Except ServiceError DeployResult
  decimals : T → String → Except ServiceError ℕ
  chainId : Except ServiceError ℕ
  erc20TokenStandard : String
  defaultNewErc20Decimals : ℕ

namespace Creator

variable (creator : Creator T W)

/-- The bind path, under the name the asset is saved with. -/
def bind (standard : T) (tokenStandard defaultNetwork : String) (token : TokenIdentifier)
    (assetId : String) : Created :=
  match creator.decimals standard token.tokenId with
  | .error e => .throws e
  | .ok decimals =>
    ⟨.ok (.success ⟨(truthy token.network).getD defaultNetwork, token.tokenId, tokenStandard⟩),
      [⟨token.tokenId, decimals, tokenStandard, assetId⟩]⟩

/-- The deploy path, signed by the wallet. -/
def deployNew (standard : T) (wallet : W) (defaultNetwork : String) (assetName : Option String)
    (assetId : String) : Created :=
  match creator.deploy standard wallet (assetName.getD "OWNERACOIN") "OWNERA"
    creator.defaultNewErc20Decimals with
  | .error e => .throws e
  | .ok result =>
    ⟨.ok (.success ⟨defaultNetwork, result.contractAddress, result.tokenStandard⟩),
      [⟨result.contractAddress, result.decimals, result.tokenStandard, assetId⟩]⟩

end Creator

structure CustodyTokenService (T W : Type) extends Creator T W where
  issuerWallet : Option W

def CustodyTokenService.createAsset (svc : CustodyTokenService T W) (assetId : String)
    (assetBind : Option AssetBind) (assetName : Option String) : Created :=
  let tokenIdentifier := assetBind.bind (·.tokenIdentifier)
  let requestedStandard := (tokenIdentifier.bind (·.standard)).getD svc.erc20TokenStandard
  match svc.registry.resolve requestedStandard with
  | .error e => .throws e
  | .ok standard =>
    match svc.chainId with
    | .error e => .throws e
    | .ok chainId =>
      let defaultNetwork := s!"eip155:{chainId}"
      match tokenIdentifier with
      | none =>
        match svc.issuerWallet with
        | none => ⟨.ok (.failed 1
          "ASSET_ISSUER_PRIVATE_KEY is not set — refusing to deploy an asset a throwaway signer would strand"),
          []⟩
        | some wallet => svc.deployNew standard wallet defaultNetwork assetName assetId
      | some token => svc.bind standard requestedStandard defaultNetwork token assetId

structure OmnibusDelegate (T W : Type) extends Creator T W where
  omnibusWallet : W
  ensureGas : W → Except ServiceError Unit

/-- The standard of the request, if the registry has it. -/
def OmnibusDelegate.tokenStandard (delegate : OmnibusDelegate T W)
    (tokenIdentifier : Option TokenIdentifier) : String :=
  match truthy (tokenIdentifier.bind (·.standard)) with
  | some standard => if delegate.registry.has standard then standard else delegate.erc20TokenStandard
  | none => delegate.erc20TokenStandard

def OmnibusDelegate.createAsset (delegate : OmnibusDelegate T W) (assetId : String)
    (assetBind : Option AssetBind) (assetName : Option String) : Created :=
  let tokenIdentifier := assetBind.bind (·.tokenIdentifier)
  let tokenStandard := delegate.tokenStandard tokenIdentifier
  match delegate.registry.resolve tokenStandard with
  | .error e => .throws e
  | .ok standard =>
    match delegate.chainId with
    | .error e => .throws e
    | .ok chainId =>
      let defaultNetwork := s!"eip155:{chainId}"
      match tokenIdentifier with
      | none =>
        match delegate.ensureGas delegate.omnibusWallet with
        | .error e => .throws e
        | .ok _ => delegate.deployNew standard delegate.omnibusWallet defaultNetwork assetName assetId
      | some token => delegate.bind standard tokenStandard defaultNetwork token assetId

/-! ### The standard that is saved -/

namespace Creator

variable (creator : Creator T W)

/-- The standard a request asks for. -/
def asked (assetBind : Option AssetBind) : String :=
  ((assetBind.bind (·.tokenIdentifier)).bind (·.standard)).getD creator.erc20TokenStandard

/-- The implementation told these decimals of the token, or deployed it with them. -/
def Reported (impl : T) (row : SavedAsset) : Prop :=
  creator.decimals impl row.contractAddress = .ok row.decimals ∨
    ∃ wallet name symbol, creator.deploy impl wallet name symbol creator.defaultNewErc20Decimals =
      .ok ⟨row.contractAddress, row.decimals, row.tokenStandard⟩

/-- What is saved is under a name of the implementation that was asked for; for a name that is not
registered nothing is saved, and the request fails. -/
structure KeepsStandard (assetBind : Option AssetBind) (created : Created) : Prop where
  saved : ∀ row ∈ created.saved, ∃ impl,
    creator.registry.resolve (creator.asked assetBind) = .ok impl ∧
    creator.registry.resolve row.tokenStandard = .ok impl ∧ creator.Reported impl row
  unregistered : creator.registry.has (creator.asked assetBind) = false →
    created.saved = [] ∧ ∀ ledgerIdentifier, created.answer ≠ .ok (.success ledgerIdentifier)

/-- A registered implementation reports of a token it deploys a name of its own. -/
def DeploysOwn : Prop :=
  ∀ name impl wallet tokenName symbol decimals result, creator.registry.resolve name = .ok impl →
    creator.deploy impl wallet tokenName symbol decimals = .ok result →
      creator.registry.resolve result.tokenStandard = .ok impl

variable {creator}

theorem keepsStandard_throws (assetBind : Option AssetBind) (e : ServiceError) :
    creator.KeepsStandard assetBind (.throws e) where
  saved row hrow := by cases hrow
  unregistered _ := ⟨rfl, fun _ h => by cases h⟩

theorem registered {assetBind : Option AssetBind} {impl : T}
    (hasked : creator.registry.resolve (creator.asked assetBind) = .ok impl) :
    creator.registry.has (creator.asked assetBind) ≠ false := by
  rw [ne_eq, Bool.not_eq_false]
  exact TokenStandardRegistry.has_eq_true.mpr ⟨impl, hasked⟩

theorem keepsStandard_deployNew (howns : creator.DeploysOwn) {assetBind : Option AssetBind} {impl : T}
    (hasked : creator.registry.resolve (creator.asked assetBind) = .ok impl) (wallet : W)
    (defaultNetwork : String) (assetName : Option String) (assetId : String) :
    creator.KeepsStandard assetBind (creator.deployNew impl wallet defaultNetwork assetName assetId) := by
  refine ⟨fun row hrow => ⟨impl, hasked, ?_⟩, fun hnot => absurd hnot (registered hasked)⟩
  unfold deployNew at hrow
  cases hdeploy : creator.deploy impl wallet (assetName.getD "OWNERACOIN") "OWNERA"
      creator.defaultNewErc20Decimals with
  | error e =>
    rw [hdeploy] at hrow
    cases hrow
  | ok result =>
    rw [hdeploy] at hrow
    rw [List.mem_singleton.mp hrow]
    exact ⟨howns _ _ _ _ _ _ _ hasked hdeploy, .inr ⟨_, _, _, hdeploy⟩⟩

theorem keepsStandard_bind {assetBind : Option AssetBind} {impl : T} {tokenStandard : String}
    (hasked : creator.registry.resolve (creator.asked assetBind) = .ok impl)
    (hsaved : creator.registry.resolve tokenStandard = .ok impl) (defaultNetwork : String)
    (token : TokenIdentifier) (assetId : String) :
    creator.KeepsStandard assetBind (creator.bind impl tokenStandard defaultNetwork token assetId) := by
  refine ⟨fun row hrow => ⟨impl, hasked, ?_⟩, fun hnot => absurd hnot (registered hasked)⟩
  unfold bind at hrow
  cases hdecimals : creator.decimals impl token.tokenId with
  | error e =>
    rw [hdecimals] at hrow
    cases hrow
  | ok decimals =>
    rw [hdecimals] at hrow
    rw [List.mem_singleton.mp hrow]
    exact ⟨hsaved, .inl hdecimals⟩

end Creator

/-- The custody service uses the standard that is asked for, or none. -/
theorem CustodyTokenService.createAsset_keepsStandard {svc : CustodyTokenService T W}
    (howns : svc.DeploysOwn) (assetId : String) (assetBind : Option AssetBind)
    (assetName : Option String) :
    svc.KeepsStandard assetBind (svc.createAsset assetId assetBind assetName) := by
  unfold createAsset
  dsimp only
  cases hasked : svc.registry.resolve (svc.asked assetBind) with
  | error e =>
    unfold Creator.asked at hasked
    simp only [hasked]
    exact Creator.keepsStandard_throws assetBind e
  | ok impl =>
    have hrequested := hasked
    unfold Creator.asked at hrequested
    simp only [hrequested]
    cases svc.chainId with
    | error e => exact Creator.keepsStandard_throws assetBind e
    | ok chainId =>
      dsimp only
      split
      · split
        · exact ⟨fun _ hrow => absurd hrow List.not_mem_nil,
            fun hnot => absurd hnot (Creator.registered hasked)⟩
        · exact Creator.keepsStandard_deployNew howns hasked _ _ _ _
      · exact Creator.keepsStandard_bind hasked hrequested _ _ _

namespace OmnibusDelegate

variable {delegate : OmnibusDelegate T W}

/-- The request names a standard that is empty or not registered, of an existing token which the
default standard's implementation takes without complaint, and which is not its own. -/
def SilentlySubstituted (delegate : OmnibusDelegate T W) (assetBind : Option AssetBind) : Prop :=
  ∃ token standard erc20 chainId decimals, assetBind.bind (·.tokenIdentifier) = some token ∧
    token.standard = some standard ∧ (standard = "" ∨ delegate.registry.has standard = false) ∧
    delegate.registry.resolve delegate.erc20TokenStandard = .ok erc20 ∧
    delegate.registry.resolve standard ≠ .ok erc20 ∧ delegate.chainId = .ok chainId ∧
    delegate.decimals erc20 token.tokenId = .ok decimals

/-- The delegate uses the standard that is asked for, or the default in place of one it lacks. -/
theorem tokenStandard_cases (delegate : OmnibusDelegate T W) (assetBind : Option AssetBind) :
    delegate.tokenStandard (assetBind.bind (·.tokenIdentifier)) = delegate.asked assetBind ∨
      ∃ token standard, assetBind.bind (·.tokenIdentifier) = some token ∧
        token.standard = some standard ∧ (standard = "" ∨ delegate.registry.has standard = false) ∧
        delegate.asked assetBind = standard ∧
        delegate.tokenStandard (assetBind.bind (·.tokenIdentifier)) = delegate.erc20TokenStandard := by
  unfold tokenStandard Creator.asked
  cases htoken : assetBind.bind (·.tokenIdentifier) with
  | none => exact .inl rfl
  | some token =>
    cases hstandard : token.standard with
    | none =>
      left
      simp [hstandard, truthy]
    | some standard =>
      by_cases hempty : standard = ""
      · right
        refine ⟨token, standard, rfl, hstandard, .inl hempty, by simp [hstandard], ?_⟩
        simp [hstandard, hempty, truthy]
      · have htruthy : truthy (some standard) = some standard := truthy_eq_some.mpr ⟨rfl, hempty⟩
        cases hhas : delegate.registry.has standard with
        | true =>
          left
          simp [hstandard, htruthy, hhas]
        | false =>
          right
          refine ⟨token, standard, rfl, hstandard, .inr hhas, by simp [hstandard], ?_⟩
          simp [hstandard, htruthy, hhas]

theorem keepsStandard_of_asked (howns : delegate.DeploysOwn) (assetId : String)
    {assetBind : Option AssetBind} (assetName : Option String)
    (h : delegate.tokenStandard (assetBind.bind (·.tokenIdentifier)) = delegate.asked assetBind) :
    delegate.KeepsStandard assetBind (delegate.createAsset assetId assetBind assetName) := by
  unfold createAsset
  dsimp only
  rw [h]
  cases hasked : delegate.registry.resolve (delegate.asked assetBind) with
  | error e => exact Creator.keepsStandard_throws assetBind e
  | ok impl =>
    cases delegate.chainId with
    | error e => exact Creator.keepsStandard_throws assetBind e
    | ok chainId =>
      dsimp only
      split
      · split
        · exact Creator.keepsStandard_throws assetBind _
        · exact Creator.keepsStandard_deployNew howns hasked _ _ _ _
      · exact Creator.keepsStandard_bind hasked hasked _ _ _

/-- A substitute that gets through is saved. -/
theorem saved_of_silentlySubstituted (assetId : String) {assetBind : Option AssetBind}
    (assetName : Option String) (h : delegate.SilentlySubstituted assetBind) :
    ¬ delegate.KeepsStandard assetBind (delegate.createAsset assetId assetBind assetName) := by
  obtain ⟨token, standard, erc20, chainId, decimals, htoken, hstandard, hlacks, herc20, hother, hchain,
    hdecimals⟩ := h
  have hasked : delegate.asked assetBind = standard := by simp [Creator.asked, htoken, hstandard]
  have hused : delegate.tokenStandard (some token) = delegate.erc20TokenStandard := by
    unfold tokenStandard
    rcases hlacks with rfl | hlacks
    · simp [hstandard, truthy]
    · by_cases hempty : standard = ""
      · simp [hstandard, hempty, truthy]
      · have htruthy : truthy (some standard) = some standard := truthy_eq_some.mpr ⟨rfl, hempty⟩
        simp [hstandard, htruthy, hlacks]
  intro hkeeps
  have hrow : ⟨token.tokenId, decimals, delegate.erc20TokenStandard, assetId⟩ ∈
      (delegate.createAsset assetId assetBind assetName).saved := by
    simp [createAsset, htoken, hused, herc20, hchain, Creator.bind, hdecimals]
  obtain ⟨impl, himpl, hsaved, -⟩ := hkeeps.saved _ hrow
  rw [hasked] at himpl
  rw [herc20] at hsaved
  cases hsaved
  exact hother himpl

theorem createAsset_keepsStandard_iff (howns : delegate.DeploysOwn) (assetId : String)
    (assetBind : Option AssetBind) (assetName : Option String) :
    delegate.KeepsStandard assetBind (delegate.createAsset assetId assetBind assetName) ↔
      ¬ delegate.SilentlySubstituted assetBind := by
  refine ⟨fun hkeeps hsubstituted =>
    saved_of_silentlySubstituted assetId assetName hsubstituted hkeeps, fun h => ?_⟩
  rcases delegate.tokenStandard_cases assetBind with hused | ⟨token, standard, htoken, hstandard,
    hlacks, hasked, hused⟩
  · exact keepsStandard_of_asked howns assetId assetName hused
  · unfold createAsset
    dsimp only
    rw [hused, htoken]
    cases herc20 : delegate.registry.resolve delegate.erc20TokenStandard with
    | error e => exact Creator.keepsStandard_throws assetBind e
    | ok erc20 =>
      cases hchain : delegate.chainId with
      | error e => exact Creator.keepsStandard_throws assetBind e
      | ok chainId =>
        dsimp only
        cases hdecimals : delegate.decimals erc20 token.tokenId with
        | error e =>
          rw [Creator.bind, hdecimals]
          exact Creator.keepsStandard_throws assetBind e
        | ok decimals =>
          -- a substitute that gets through is the very standard that was named
          have hsame : delegate.registry.resolve (delegate.asked assetBind) = .ok erc20 := by
            rw [hasked]
            by_contra hother
            exact h ⟨token, standard, erc20, chainId, decimals, htoken, hstandard, hlacks, herc20, hother,
              hchain, hdecimals⟩
          exact Creator.keepsStandard_bind hsame herc20 _ _ _

end OmnibusDelegate

/-- For every registry and request: the custody service keeps the standard that is asked for, and
the omnibus delegate does exactly if it does not silently substitute the default. -/
theorem createAsset_keeps_asked_standard (svc : CustodyTokenService T W) (delegate : OmnibusDelegate T W)
    (hsvc : svc.DeploysOwn) (hdelegate : delegate.DeploysOwn) (assetId : String)
    (assetBind : Option AssetBind) (assetName : Option String) :
    svc.KeepsStandard assetBind (svc.createAsset assetId assetBind assetName) ∧
      (delegate.KeepsStandard assetBind (delegate.createAsset assetId assetBind assetName) ↔
        ¬ delegate.SilentlySubstituted assetBind) :=
  ⟨CustodyTokenService.createAsset_keepsStandard hsvc assetId assetBind assetName,
    OmnibusDelegate.createAsset_keepsStandard_iff hdelegate assetId assetBind assetName⟩

/-! ### A standard that is not configured -/

/-- Two implementations, each registered under the name it deploys with. -/
def twoStandards : Creator String String where
  registry := ⟨String.toUpper,
    (JsMap.empty.set "ERC20" ⟨"erc20", .escrowTransfer⟩).set "TREX" ⟨"trex", .escrowTransfer⟩⟩
  deploy impl _ _ _ decimals := .ok ⟨"0xnew", decimals, if impl = "erc20" then "ERC20" else "TREX"⟩
  decimals _ _ := .ok 6
  chainId := .ok 1
  erc20TokenStandard := "ERC20"
  defaultNewErc20Decimals := 6

def twoStandardsCustody : CustodyTokenService String String := { twoStandards with issuerWallet := some "issuer" }

def twoStandardsDelegate : OmnibusDelegate String String :=
  { twoStandards with
    omnibusWallet := "omnibus"
    ensureGas := fun _ => .ok () }

theorem twoStandards_deploysOwn : twoStandards.DeploysOwn := by
  intro name impl wallet tokenName symbol decimals result himpl hdeploy
  cases hdeploy
  have hget : ∀ key : String, twoStandards.registry.standards.get? key =
      if key = "TREX" then some ⟨"trex", .escrowTransfer⟩
      else if key = "ERC20" then some ⟨"erc20", .escrowTransfer⟩ else none := by
    intro key
    simp only [twoStandards, JsMap.get?_set, JsMap.get?_empty]
  unfold TokenStandardRegistry.resolve TokenStandardRegistry.entry at himpl
  rw [hget] at himpl
  split_ifs at himpl with htrex herc20
  · cases himpl
    have hresolve : twoStandards.registry.resolve "TREX" = .ok "trex" := by decide +kernel
    simpa using hresolve
  · cases himpl
    have hresolve : twoStandards.registry.resolve "ERC20" = .ok "erc20" := by decide +kernel
    simpa using hresolve
  · cases himpl

/-- A collateral token, whose standard is registered only where it is configured. -/
def collateralBind : AssetBind := ⟨some ⟨"0xcc", none, some "OWNERA_COLLATERAL_REGISTRY"⟩⟩

theorem collateral_substituted : twoStandardsDelegate.SilentlySubstituted (some collateralBind) :=
  ⟨⟨"0xcc", none, some "OWNERA_COLLATERAL_REGISTRY"⟩, "OWNERA_COLLATERAL_REGISTRY", "erc20", 1, 6, rfl, rfl,
    .inr (by decide +kernel), by decide +kernel, by decide +kernel, rfl, rfl⟩

/-- The delegate saves the collateral token as an ERC20. -/
theorem collateral_saved_as_erc20 : ¬ ∀ (delegate : OmnibusDelegate String String) (assetId : String)
    (assetBind : Option AssetBind) (assetName : Option String), delegate.DeploysOwn →
      delegate.KeepsStandard assetBind (delegate.createAsset assetId assetBind assetName) := fun h =>
  OmnibusDelegate.saved_of_silentlySubstituted "asset-1" none collateral_substituted
    (h twoStandardsDelegate "asset-1" (some collateralBind) none twoStandards_deploysOwn)

/-- The custody service refuses the same request; the delegate keeps a TREX token's standard. -/
theorem twoStandards_kept :
    twoStandardsCustody.KeepsStandard (some collateralBind)
        (twoStandardsCustody.createAsset "asset-1" (some collateralBind) none) ∧
      twoStandardsDelegate.KeepsStandard (some ⟨some ⟨"0xaa", none, some "trex"⟩⟩)
        (twoStandardsDelegate.createAsset "asset-1" (some ⟨some ⟨"0xaa", none, some "trex"⟩⟩) none) := by
  have hown : twoStandards.DeploysOwn := twoStandards_deploysOwn
  refine ⟨(createAsset_keeps_asked_standard twoStandardsCustody twoStandardsDelegate hown hown "asset-1"
    (some collateralBind) none).1, (createAsset_keeps_asked_standard twoStandardsCustody
      twoStandardsDelegate hown hown "asset-1" _ none).2.mpr ?_⟩
  rintro ⟨token, standard, erc20, chainId, decimals, htoken, hstandard, hlacks, -⟩
  cases htoken
  cases hstandard
  revert hlacks
  decide +kernel

end FinP2PAdapter.TokenStandards
