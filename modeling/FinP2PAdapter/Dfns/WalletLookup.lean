import FinP2PAdapter.Accounts.AccountResolver
import FinP2PAdapter.Library.KeyIndex
import FinP2PAdapter.Library.Machine

/-! Wallets of a DFNS organization looked up by address. The provider keeps a map that it fills from
one page of the organization's wallets as it starts, and extends by the wallets it creates itself.
Wallets come into being in other ways too, and a lookup asks nobody. -/

namespace FinP2PAdapter.Dfns

open Accounts Machine

/-- A wallet as DFNS tells of it; its address may not be available yet. -/
structure Wallet where
  id : String
  address : Option String
  deriving DecidableEq, Repr

structure CustodyAccount where
  custodyAccountId : String
  address : String
  deriving DecidableEq, Repr

abbrev AddressToWalletId := JsMap String String

/-- The key a wallet is cached under. -/
def cacheKey (w : Wallet) : Option String := (truthy w.address).map String.toLower

/-- The map of `create`, from the page's items. -/
def create (items : List Wallet) : AddressToWalletId := KeyIndex.fill cacheKey Wallet.id items

/-- The id of the wallet that is connected. -/
def resolveWallet (addressToWalletId : AddressToWalletId) (address : String) : Option String :=
  addressToWalletId.get? address.toLower

/-- `createCustodyAccount` in the environment's network, once DFNS has answered with the wallet. -/
def createCustodyAccount (addressToWalletId : AddressToWalletId) (network : Option String)
    (wallet : Wallet) : Except String CustodyAccount × AddressToWalletId :=
  match truthy network with
  | none =>
    (.error "DFNS_NETWORK env var is required for createCustodyAccount (e.g. EthereumSepolia)",
      addressToWalletId)
  | some network =>
    match truthy wallet.address with
    | none =>
      let id := wallet.id
      (.error s!"DFNS wallet {id} created but address is not yet available (network={network})",
        addressToWalletId)
    | some address => (.ok ⟨wallet.id, address⟩, addressToWalletId.set address.toLower wallet.id)

/-! ### Runs -/

/-- The organization's wallets by id, the map of the running provider, and the history: what
DFNS has told that provider. -/
structure State where
  org : JsMap String (Option String)
  provider : Option AddressToWalletId
  told : List Wallet

def init : State where
  org := .empty
  provider := none
  told := []

inductive Action where
  /-- A wallet is created, by the adapter or by anyone else. -/
  | createWallet (wallet : Wallet)
  /-- The address of a wallet becomes available. -/
  | provision (id address : String)
  /-- The adapter starts; DFNS has answered with a page. -/
  | create (items : List Wallet)
  /-- DFNS answers the provider's `createWallet`. -/
  | createCustodyAccount (network : Option String) (wallet : Wallet)

/-- DFNS tells of a wallet it has, with its address or from before that was available. -/
def Answers (org : JsMap String (Option String)) (w : Wallet) : Prop :=
  (org.get? w.id).isSome ∧ (truthy w.address = none ∨ org.get? w.id = some w.address)

instance (org : JsMap String (Option String)) (w : Wallet) : Decidable (Answers org w) :=
  inferInstanceAs (Decidable (_ ∧ _))

def step (s : State) : Action → Option State
  | .createWallet wallet =>
    if s.org.get? wallet.id = none then some { s with org := s.org.set wallet.id wallet.address } else none
  | .provision id address =>
    match s.org.get? id with
    | some known => if truthy known = none then some { s with org := s.org.set id (some address) } else none
    | none => none
  | .create items =>
    if ∀ w ∈ items, Answers s.org w then some { s with provider := some (create items), told := items }
    else none
  | .createCustodyAccount network wallet =>
    match s.provider with
    | some addressToWalletId =>
      if truthy network = none then some s
      else if Answers s.org wallet then
        some { s with
          provider := some (createCustodyAccount addressToWalletId network wallet).2
          told := s.told ++ [wallet] }
      else none
    | none => none

/-! ### Lookups -/

/-- The address is the wallet's, in some letter case. -/
def Owns (w : Wallet) (address : String) : Prop :=
  ∃ owned, truthy w.address = some owned ∧ SameUpToCase owned address

/-- A lookup finds a wallet that owns the address, and nothing only if the organization has none. -/
def Right (org : JsMap String (Option String)) (addressToWalletId : AddressToWalletId)
    (address : String) : Prop :=
  match resolveWallet addressToWalletId address with
  | some id => ∃ known, org.get? id = some known ∧ Owns ⟨id, known⟩ address
  | none => ∀ id known, org.get? id = some known → ¬ Owns ⟨id, known⟩ address

theorem owns_iff_cacheKey {w : Wallet} {address : String} :
    Owns w address ↔ cacheKey w = some address.toLower := by
  simp only [Owns, cacheKey, Option.map_eq_some_iff, SameUpToCase]

/-- The map holds what DFNS told of, and no wallet has lost the address it was told with. -/
structure Inv (s : State) : Prop where
  cached : ∀ addressToWalletId, s.provider = some addressToWalletId → addressToWalletId = create s.told
  kept : ∀ w ∈ s.told, truthy w.address = none ∨ s.org.get? w.id = some w.address

theorem inv_init : Inv init where
  cached _ h := by cases h
  kept _ h := by cases h

/-- An address that is there is not written again. -/
theorem kept_set {org : JsMap String (Option String)} {w : Wallet} {id : String} {address : Option String}
    (h : truthy w.address = none ∨ org.get? w.id = some w.address)
    (hnew : ∀ known, org.get? id = some known → truthy known = none) :
    truthy w.address = none ∨ (org.set id address).get? w.id = some w.address := by
  rcases h with h | h
  · exact .inl h
  · by_cases hid : w.id = id
    · rw [hid] at h
      exact .inl (hnew _ h)
    · exact .inr (by rw [JsMap.get?_set_of_ne _ _ hid, h])

theorem createCustodyAccount_map {network : Option String} (hnetwork : truthy network ≠ none)
    (told : List Wallet) (wallet : Wallet) :
    (createCustodyAccount (create told) network wallet).2 = create (told ++ [wallet]) := by
  have hadd : create (told ++ [wallet]) = KeyIndex.add cacheKey Wallet.id (create told) wallet :=
    KeyIndex.fill_append told wallet
  rw [hadd]
  unfold createCustodyAccount KeyIndex.add cacheKey
  cases hn : truthy network with
  | none => exact absurd hn hnetwork
  | some network => cases truthy wallet.address <;> rfl

theorem inv_step {s s' : State} {a : Action} (hi : Inv s) (hs : step s a = some s') : Inv s' := by
  cases a with
  | createWallet wallet =>
    simp only [step] at hs
    split_ifs at hs with hfresh
    cases hs
    refine ⟨hi.cached, fun w hw => kept_set (hi.kept w hw) fun known hknown => ?_⟩
    rw [hfresh] at hknown
    cases hknown
  | provision id address =>
    simp only [step] at hs
    cases hid : s.org.get? id with
    | none => simp [hid] at hs
    | some known =>
      simp only [hid] at hs
      split_ifs at hs with hnone
      cases hs
      refine ⟨hi.cached, fun w hw => kept_set (hi.kept w hw) fun known' hknown => ?_⟩
      rw [hid] at hknown
      cases hknown
      exact hnone
  | create items =>
    simp only [step] at hs
    split_ifs at hs with hanswers
    cases hs
    exact ⟨fun _ h => (Option.some.inj h).symm, fun w hw => (hanswers w hw).2⟩
  | createCustodyAccount network wallet =>
    simp only [step] at hs
    cases hprovider : s.provider with
    | none => simp [hprovider] at hs
    | some addressToWalletId =>
      simp only [hprovider] at hs
      split_ifs at hs with hnetwork hanswers
      · cases hs
        exact hi
      · cases hs
        constructor
        · rintro _ h
          rw [← Option.some.inj h, hi.cached _ hprovider]
          exact createCustodyAccount_map hnetwork s.told wallet
        · intro w hw
          rcases List.mem_append.mp hw with hw | hw
          · exact hi.kept w hw
          · rw [List.mem_singleton.mp hw]
            exact hanswers.2

/-- In every state of every run, a lookup is right exactly if DFNS has told the running provider of
an owner of the address, on its first page or as it created the wallet, or there is no owner. -/
theorem right_iff_told (s : State) (hr : Reach step init s) (addressToWalletId : AddressToWalletId)
    (hprovider : s.provider = some addressToWalletId) (address : String) :
    Right s.org addressToWalletId address ↔
      ((∃ id known, s.org.get? id = some known ∧ Owns ⟨id, known⟩ address) →
        ∃ w ∈ s.told, Owns w address) := by
  have hi : Inv s := hr.invariant inv_init fun _ _ _ hi _ hs => inv_step hi hs
  have hcached := hi.cached _ hprovider
  subst hcached
  unfold Right
  cases hfound : resolveWallet (create s.told) address with
  | some id =>
    obtain ⟨w, hw, hkey, rfl⟩ := KeyIndex.exists_of_get?_fill hfound
    have howns : Owns w address := owns_iff_cacheKey.mpr hkey
    refine iff_of_true ?_ fun _ => ⟨w, hw, howns⟩
    rcases hi.kept w hw with hnone | hkept
    · obtain ⟨owned, howned, -⟩ := howns
      rw [hnone] at howned
      cases howned
    · exact ⟨w.address, hkept, howns⟩
  | none =>
    have hnobody := KeyIndex.get?_fill_eq_none_iff.mp hfound
    dsimp only
    constructor
    · rintro h ⟨id, known, hknown, howns⟩
      exact absurd howns (h id known hknown)
    · intro h id known hknown howns
      obtain ⟨w, hw, howner⟩ := h ⟨id, known, hknown, howns⟩
      exact hnobody w hw (owns_iff_cacheKey.mp howner)

/-! ### A wallet made after the start -/

/-- A run that starts with one wallet and has another created in the organization afterwards. -/
def laterWallet : List Action :=
  [.createWallet ⟨"wa-1", some "0xAa"⟩, .create [⟨"wa-1", some "0xAa"⟩], .createWallet ⟨"wa-2", some "0xBb"⟩]

/-- Where the run ends. -/
theorem laterWallet_run : ∃ s, Reach step init s ∧ s.provider = some (create [⟨"wa-1", some "0xAa"⟩]) ∧
    s.told = [⟨"wa-1", some "0xAa"⟩] ∧ s.org.get? "wa-2" = some (some "0xBb") := by
  obtain ⟨s, hs⟩ : ∃ s, exec step init laterWallet = some s :=
    Option.isSome_iff_exists.mp (by decide +kernel)
  have hr : Reach step init s := reach_of_exec hs
  have htold : s.told = [⟨"wa-1", some "0xAa"⟩] := by
    have hget : (exec step init laterWallet).map (·.told) = some [⟨"wa-1", some "0xAa"⟩] := by
      decide +kernel
    rw [hs] at hget
    exact Option.some.inj hget
  have horg : s.org.get? "wa-2" = some (some "0xBb") := by
    have hget : (exec step init laterWallet).bind (·.org.get? "wa-2") = some (some "0xBb") := by
      decide +kernel
    rwa [hs] at hget
  have hsome : s.provider.isSome := by
    have hget : (exec step init laterWallet).any (·.provider.isSome) = true := by decide +kernel
    rwa [hs] at hget
  obtain ⟨addressToWalletId, hprovider⟩ := Option.isSome_iff_exists.mp hsome
  have hcached : addressToWalletId = create s.told :=
    (hr.invariant inv_init fun _ _ _ hi _ hs => inv_step hi hs : Inv s).cached _ hprovider
  rw [htold] at hcached
  exact ⟨s, hr, hcached ▸ hprovider, htold, horg⟩

/-- The later wallet owns its address, and no lookup finds it. -/
theorem laterWallet_not_found : ¬ ∀ (s : State) (addressToWalletId : AddressToWalletId) (address : String),
    Reach step init s → s.provider = some addressToWalletId → Right s.org addressToWalletId address := by
  intro h
  obtain ⟨s, hr, hprovider, -, horg⟩ := laterWallet_run
  have hnone : resolveWallet (create [⟨"wa-1", some "0xAa"⟩]) "0xbb" = none := by decide +kernel
  have hright := h s _ "0xbb" hr hprovider
  simp only [Right, hnone] at hright
  exact hright "wa-2" (some "0xBb") horg ⟨"0xBb", by decide, by decide +kernel⟩

/-- In the same run the wallet of the first page is found. -/
theorem laterWallet_first_found : ∃ s addressToWalletId, Reach step init s ∧
    s.provider = some addressToWalletId ∧ Right s.org addressToWalletId "0xAA" := by
  obtain ⟨s, hr, hprovider, htold, -⟩ := laterWallet_run
  refine ⟨s, _, hr, hprovider, (right_iff_told s hr _ hprovider "0xAA").mpr fun _ => ?_⟩
  rw [htold]
  exact ⟨_, List.mem_cons_self, "0xAa", by decide, by decide +kernel⟩

end FinP2PAdapter.Dfns
