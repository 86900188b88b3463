import FinP2PAdapter.Library.Machine
import FinP2PAdapter.Library.JsMap
import FinP2PAdapter.Library.CaseFold

/-! Vaults looked up by deposit address. A lookup that misses the leaf cache has
Fireblocks traversed again, and lookups that miss at the same time share one traversal.
A vault that existed before the lookup is found as long as the shared traversal can
still come upon it. -/

namespace FinP2PAdapter.Fireblocks

open Machine

structure Wallet where
  vaultId : String
  assetId : String
  deriving DecidableEq, Repr

/-- A deposit address of a vault's wallet. -/
structure Deposit where
  wallet : Wallet
  address : String
  deriving DecidableEq, Repr

/-- What Fireblocks has. Its addresses are the chain's, so one is owned by one vault. -/
structure Directory where
  deposits : List Deposit
  ownedOnce : ∀ d ∈ deposits, ∀ d' ∈ deposits,
    SameUpToCase d.address d'.address → d.wallet.vaultId = d'.wallet.vaultId

namespace Directory

def empty : Directory := ⟨[], nofun⟩

/-- A vault may be given an address that no other vault owns. -/
def create (f : Directory) (d : Deposit) : Option Directory :=
  if h : ∀ d' ∈ f.deposits, SameUpToCase d'.address d.address →
    d'.wallet.vaultId = d.wallet.vaultId then
    some ⟨d :: f.deposits, by
      intro e he e' he' hsame
      rcases List.mem_cons.mp he with hd | hd <;> rcases List.mem_cons.mp he' with hd' | hd'
      · rw [hd, hd']
      · subst hd
        exact (h e' hd' hsame.symm).symm
      · subst hd'
        exact h e hd hsame
      · exact f.ownedOnce e hd e' hd' hsame⟩
  else none

theorem deposits_create {f f' : Directory} {d : Deposit} (h : f.create d = some f') :
    f'.deposits = d :: f.deposits := by
  unfold create at h
  split_ifs at h
  cases h
  rfl

end Directory

/-! ### The leaf caches -/

structure FlattenedVaultDetails where
  vaultId : String
  assetId : String
  depositAddress : String
  assetAddress : Option String
  deriving DecidableEq, Repr

structure LeafCaches where
  addressLeafCache : JsMap String FlattenedVaultDetails
  compositeLeafCache : JsMap String FlattenedVaultDetails

def compositeKey (depositAddress tokenAddress : String) : String :=
  depositAddress.toLower ++ ":" ++ tokenAddress.toLower

namespace LeafCaches

/-- The loop over one wallet's addresses. -/
def learn (wallet : Wallet) (assetAddress : Option String) : LeafCaches → List String → LeafCaches
  | c, [] => c
  | c, address :: addresses =>
    let detail := ⟨wallet.vaultId, wallet.assetId, address, assetAddress⟩
    learn wallet assetAddress
      { addressLeafCache := c.addressLeafCache.set address.toLower detail
        compositeLeafCache :=
          match assetAddress with
          | some token =>
            if token = "" then c.compositeLeafCache
            else c.compositeLeafCache.set (compositeKey address token) detail
          | none => c.compositeLeafCache }
      addresses

end LeafCaches

/-! ### A scan -/

/-- A page entry of `getVaultAccountsWithPageInfo`. -/
structure VaultAccount where
  id : String
  assets : Option (List String)
  deriving DecidableEq, Repr

def walletsOf (vaults : List VaultAccount) : List Wallet :=
  vaults.flatMap fun vault => (vault.assets.getD []).map fun asset => ⟨vault.id, asset⟩

/-- Where `scanVaults` is. `began` and `asked` are what Fireblocks had when the traversal,
or the request for the wallet's addresses, was sent. -/
inductive Scan where
  | listing (began : List Deposit)
  | fetching (asked : List Deposit) (wallet : Wallet) (todo : List Wallet)
  | describing (wallet : Wallet) (addresses : List String) (todo : List Wallet)
  | collected
  | broken
  | settled (succeeded : Bool)
  deriving DecidableEq, Repr

namespace Scan

/-- On to the next wallet. -/
def visit (deposits : List Deposit) : List Wallet → Scan
  | [] => .collected
  | wallet :: todo => .fetching deposits wallet todo

/-- The scan is bound to come upon the deposit, or to fail. -/
def Reaches (d : Deposit) : Scan → Prop
  | .listing began => d ∈ began
  | .fetching asked wallet todo => (d.wallet = wallet ∧ d ∈ asked) ∨ d.wallet ∈ todo
  | .describing wallet addresses todo => (d.wallet = wallet ∧ d.address ∈ addresses) ∨ d.wallet ∈ todo
  | .collected => False
  | .broken => True
  | .settled succeeded => succeeded = false

def failed : Scan → Bool
  | .broken | .settled false => true
  | _ => false

def isSettled : Scan → Bool
  | .settled _ => true
  | _ => false

end Scan

/-! ### Any number of lookups -/

inductive VaultRequest where
  | getVaultIdForAddress (address : String)
  | balance (depositAddress tokenAddress : String)
  deriving DecidableEq, Repr

/-- `ensuring` and `rescanning` await the scan of that number. -/
inductive LookupStage where
  | ensuring (scan : Option ℕ)
  | rescanning (scan : ℕ)
  | fetchingBalance (detail : FlattenedVaultDetails)
  | returned (value : Option String)
  | threw (scan : Option ℕ)
  deriving DecidableEq, Repr

/-- `existed` is what Fireblocks had when the call started. -/
structure Lookup where
  request : VaultRequest
  existed : List Deposit
  stage : LookupStage
  deriving DecidableEq, Repr

/-- The scan it waits for, or was rejected by. -/
def Lookup.awaits (c : Lookup) : Option ℕ :=
  match c.stage with
  | .ensuring scan => scan
  | .rescanning scan => some scan
  | .threw scan => scan
  | _ => none

/-- `scans` are numbered as they started. -/
structure VaultState where
  fireblocks : Directory
  caches : LeafCaches
  activeScan : Option ℕ
  initialScanComplete : Bool
  scans : List Scan
  calls : ℕ → Option Lookup

inductive VaultAction where
  | created (deposit : Deposit)
  | called (id : ℕ) (request : VaultRequest)
  | proceeds (id : ℕ)
  | balanceAnswered (id : ℕ) (available : Option String)
  | balanceFailed (id : ℕ)
  | listed (scan : ℕ) (vaults : List VaultAccount)
  | addressed (scan : ℕ) (addresses : List String)
  | described (scan : ℕ) (assetAddress : Option String)
  | scanFailed (scan : ℕ)
  | settles (scan : ℕ)
  deriving DecidableEq, Repr

namespace VaultState

def idle (fireblocks : Directory) : VaultState :=
  ⟨fireblocks, ⟨.empty, .empty⟩, none, false, [], fun _ => none⟩

def put (s : VaultState) (id : ℕ) (c : Lookup) : VaultState :=
  { s with calls := Function.update s.calls id (some c) }

def setScan (s : VaultState) (k : ℕ) (scan : Scan) : VaultState :=
  { s with scans := s.scans.set k scan }

/-- The scan in flight, else a new one. -/
def rescan (s : VaultState) : ℕ × VaultState :=
  match s.activeScan with
  | some k => (k, s)
  | none =>
    (s.scans.length,
      { s with
        activeScan := some s.scans.length,
        scans := s.scans ++ [.listing s.fireblocks.deposits] })

def ensureInitialScan (s : VaultState) : Option ℕ × VaultState :=
  if s.initialScanComplete then (none, s) else (some s.rescan.1, s.rescan.2)

def lookup (s : VaultState) : VaultRequest → Option FlattenedVaultDetails
  | .getVaultIdForAddress address => s.caches.addressLeafCache.get? address.toLower
  | .balance depositAddress tokenAddress =>
    s.caches.compositeLeafCache.get? (compositeKey depositAddress tokenAddress)

end VaultState

/-- What a call does with the cache's answer. -/
def conclude : VaultRequest → Option FlattenedVaultDetails → LookupStage
  | .getVaultIdForAddress _, detail => .returned (detail.map FlattenedVaultDetails.vaultId)
  | .balance _ _, none => .returned none
  | .balance _ _, some detail => .fetchingBalance detail

/-- A call goes on, once the scan that it awaits has settled. -/
def proceed (s : VaultState) (c : Lookup) : Option (LookupStage × VaultState) :=
  match c.stage with
  | .ensuring none =>
    match s.lookup c.request with
    | some detail => some (conclude c.request (some detail), s)
    | none => some (.rescanning s.rescan.1, s.rescan.2)
  | .ensuring (some k) =>
    match s.scans[k]? with
    | some (.settled true) => some (.ensuring none, { s with initialScanComplete := true })
    | some (.settled false) => some (.threw (some k), s)
    | _ => none
  | .rescanning k =>
    match s.scans[k]? with
    | some (.settled true) => some (conclude c.request (s.lookup c.request), s)
    | some (.settled false) => some (.threw (some k), s)
    | _ => none
  | _ => none

/-- The scan's steps. A traversal returns at least the wallets there were when it
started, and a wallet's addresses are its own and at least those it had when asked. -/
def scanStep (s : VaultState) (k : ℕ) : VaultAction → Option VaultState
  | .listed _ vaults =>
    match s.scans[k]? with
    | some (.listing began) =>
      if ∀ d ∈ began, d.wallet ∈ walletsOf vaults then
        some (s.setScan k (.visit s.fireblocks.deposits (walletsOf vaults)))
      else none
    | _ => none
  | .addressed _ addresses =>
    match s.scans[k]? with
    | some (.fetching asked wallet todo) =>
      if (∀ d ∈ asked, d.wallet = wallet → d.address ∈ addresses) ∧
          ∀ address ∈ addresses, (⟨wallet, address⟩ : Deposit) ∈ s.fireblocks.deposits then
        some (s.setScan k (.describing wallet addresses todo))
      else none
    | _ => none
  | .described _ assetAddress =>
    match s.scans[k]? with
    | some (.describing wallet addresses todo) =>
      some ({ s with caches := s.caches.learn wallet assetAddress addresses }.setScan k
        (.visit s.fireblocks.deposits todo))
    | _ => none
  | .scanFailed _ =>
    match s.scans[k]? with
    | some (.listing _) | some (.fetching _ _ _) | some (.describing _ _ _) =>
        some (s.setScan k .broken)
    | _ => none
  | .settles _ =>
    match s.scans[k]? with
    | some .collected => some ({ s with activeScan := none }.setScan k (.settled true))
    | some .broken => some ({ s with activeScan := none }.setScan k (.settled false))
    | _ => none
  | _ => none

def vaultStep (s : VaultState) (a : VaultAction) : Option VaultState :=
  match a with
  | .created d => (s.fireblocks.create d).map fun fireblocks => { s with fireblocks := fireblocks }
  | .called id request =>
    match s.calls id with
    | some _ => none
    | none =>
      some (s.ensureInitialScan.2.put id
        ⟨request, s.fireblocks.deposits, .ensuring s.ensureInitialScan.1⟩)
  | .proceeds id =>
    match s.calls id with
    | some c => (proceed s c).map fun (stage, s) => s.put id { c with stage := stage }
    | none => none
  | .balanceAnswered id available =>
    match s.calls id with
    | some ⟨request, existed, .fetchingBalance _⟩ =>
        some (s.put id ⟨request, existed, .returned available⟩)
    | _ => none
  | .balanceFailed id =>
    match s.calls id with
    | some ⟨request, existed, .fetchingBalance _⟩ => some (s.put id ⟨request, existed, .threw none⟩)
    | _ => none
  | .listed k _ | .addressed k _ | .described k _ | .scanFailed k | .settles k => scanStep s k a

/-- The call joins no scan in flight that may miss the address it looks up, if a vault
owned that before the call. -/
def LooksInTime (s : VaultState) (c : Lookup) : Prop :=
  match c.request, c.stage with
  | .getVaultIdForAddress address, .ensuring none =>
    s.lookup (.getVaultIdForAddress address) = none → ∀ k ∈ s.activeScan, ∀ scan ∈ s.scans[k]?,
      ∀ d ∈ c.existed, SameUpToCase d.address address → Scan.Reaches d scan
  | _, _ => True

def JoinsInTime (s : VaultState) : VaultAction → Prop
  | .proceeds id => ∀ c ∈ s.calls id, LooksInTime s c
  | _ => True

/-- Not an API call that fails. -/
def Succeeds : VaultAction → Prop
  | .scanFailed _ | .balanceFailed _ => False
  | _ => True

/-! ### What the cache knows -/

namespace LeafCaches

variable {c : LeafCaches} {wallet : Wallet} {assetAddress : Option String}

/-- What is learnt is a wallet's address, the rest was known. -/
theorem get?_learn {addresses : List String} {key : String} {detail : FlattenedVaultDetails}
    (h : (c.learn wallet assetAddress addresses).addressLeafCache.get? key = some detail) :
    c.addressLeafCache.get? key = some detail ∨
      detail.vaultId = wallet.vaultId ∧ ∃ address ∈ addresses, address.toLower = key := by
  induction addresses generalizing c with
  | nil => exact .inl h
  | cons address addresses ih =>
    rcases ih h with hk | ⟨hv, a, ha, hkey⟩
    · rw [JsMap.get?_set] at hk
      split_ifs at hk with hkey
      · cases hk
        exact .inr ⟨rfl, address, List.mem_cons_self, hkey.symm⟩
      · exact .inl hk
    · exact .inr ⟨hv, a, List.mem_cons_of_mem _ ha, hkey⟩

/-- Nothing known is forgotten. -/
theorem known_learn {addresses : List String} {key : String}
    (h : (c.addressLeafCache.get? key).isSome = true) :
    ((c.learn wallet assetAddress addresses).addressLeafCache.get? key).isSome = true := by
  induction addresses generalizing c with
  | nil => exact h
  | cons address addresses ih =>
    apply ih
    rw [JsMap.get?_set]
    split_ifs
    · rfl
    · exact h

theorem known_learn_of_mem {addresses : List String} {address : String} (h : address ∈ addresses) :
    ((c.learn wallet assetAddress addresses).addressLeafCache.get? address.toLower).isSome = true := by
  induction addresses generalizing c with
  | nil => cases h
  | cons a addresses ih =>
    rcases List.mem_cons.mp h with rfl | h
    · show ((learn wallet assetAddress _ addresses).addressLeafCache.get? _).isSome = true
      apply known_learn
      rw [JsMap.get?_set_self]
      rfl
    · exact ih h

end LeafCaches

namespace VaultState

def Known (s : VaultState) (address : String) : Prop :=
  (s.caches.addressLeafCache.get? address.toLower).isSome = true

end VaultState

end FinP2PAdapter.Fireblocks
