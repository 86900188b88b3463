import FinP2PAdapter.Library.CaseFold
import FinP2PAdapter.Library.Throws
import FinP2PAdapter.Skeleton.Types

/-! The account mapping of each investor and its resolver: the wallet address
an investor settles with and, for a custody account, the id its wallet is
created from. An instruction leg may carry an account of its own. -/

namespace FinP2PAdapter.Accounts

/-! ### The account on a leg -/

/-- The chain id of an `eip155:<digits>` network. -/
def eip155Chain (network : String) : Option ℕ :=
  let digits := network.toList.drop 7
  if "eip155:".toList.isPrefixOf network.toList ∧ digits ≠ [] ∧ digits.all Char.isDigit then
    some (digits.foldl (fun n d => 10 * n + (d.toNat - '0'.toNat)) 0)
  else none

/-- The address of a leg's account, if its variant has one. A CAIP-10 account of
another chain throws. -/
def ledgerAccountAddress (account : Option LedgerAccount) (chainId : ℕ) :
    Except String (Option String) :=
  match account with
  | none => .ok none
  | some (.walletAccount address) => .ok (some address)
  | some (.caip10Account network address) =>
    if eip155Chain network = some chainId then .ok (some address)
    else .error
      s!"caip10 account network '{network}' does not match this adapter's chain eip155:{chainId}"
  | some (.custodialAccount _ _) => .ok none

/-! ### The mapping -/

/-- The fields of a mapping; a field may be absent. -/
structure AccountFields where
  ledgerAccountId : Option String
  custodyAccountId : Option String
  deriving DecidableEq, Repr

/-- The first row `getAccounts([finId])` finds. -/
abbrev AccountMappings := String → Option AccountFields

structure ResolvedAccount where
  ledgerAccountId : String
  custodyAccountId : Option String
  deriving DecidableEq, Repr

/-- A string field read as a condition: empty counts as absent. -/
def truthy : Option String → Option String
  | some "" => none
  | field => field

@[simp] theorem truthy_eq_some {field : Option String} {s : String} :
    truthy field = some s ↔ field = some s ∧ s ≠ "" := by
  unfold truthy
  split
  · simp_all
  · rename_i hne
    constructor
    · rintro rfl
      exact ⟨rfl, fun he => hne (by rw [he])⟩
    · exact And.left

def resolveAccount (mappings : AccountMappings) (finId : String) : Option String :=
  (mappings finId).bind (·.ledgerAccountId)

def resolveFullAccount (mappings : AccountMappings) (finId : String) : Option ResolvedAccount :=
  (mappings finId).bind fun fields =>
    (truthy fields.ledgerAccountId).map fun ledgerAccountId =>
      ⟨ledgerAccountId, fields.custodyAccountId⟩

/-- The two resolvers read one mapping. -/
theorem resolveFullAccount_eq_some {mappings : AccountMappings} {finId : String}
    {full : ResolvedAccount} (h : resolveFullAccount mappings finId = some full) :
    mappings finId = some ⟨some full.ledgerAccountId, full.custodyAccountId⟩ ∧
      resolveAccount mappings finId = some full.ledgerAccountId := by
  simp only [resolveFullAccount, Option.bind_eq_some_iff, Option.map_eq_some_iff, truthy_eq_some] at h
  obtain ⟨⟨ledger, custody⟩, hm, address, ⟨hl, _⟩, rfl⟩ := h
  cases hl
  exact ⟨hm, by simp [resolveAccount, hm]⟩

/-! ### The destination of an operation -/

/-- The mapped address, or else the one on the instruction's leg. -/
def destinationAddress (mappings : AccountMappings) (destination : Destination) (chainId : ℕ) :
    Except String String := do
  let address ← match resolveAccount mappings destination.finId with
    | some address => .ok (some address)
    | none => ledgerAccountAddress destination.account chainId
  let finId := destination.finId
  match truthy address with
  | none => .error s!"Cannot resolve address for finId: {finId}"
  | some address => .ok address

theorem destinationAddress_eq_ok {mappings : AccountMappings} {destination : Destination} {chainId : ℕ}
    {address : String} :
    destinationAddress mappings destination chainId = .ok address ↔ address ≠ "" ∧
      (resolveAccount mappings destination.finId = some address ∨
        resolveAccount mappings destination.finId = none ∧
          ledgerAccountAddress destination.account chainId = .ok (some address)) := by
  have htruthy : ∀ found : Option String, (match truthy found with
      | none => Except.error s!"Cannot resolve address for finId: {destination.finId}"
      | some address => Except.ok address) = .ok address ↔ address ≠ "" ∧ found = some address := by
    intro found
    cases hf : truthy found with
    | none =>
      simp only [reduceCtorEq, false_iff, not_and]
      rintro hne rfl
      rw [truthy_eq_some.mpr ⟨rfl, hne⟩] at hf
      cases hf
    | some a =>
      obtain ⟨rfl, hne⟩ := truthy_eq_some.mp hf
      simp only [Except.ok.injEq, Option.some.injEq]
      constructor
      · rintro rfl
        exact ⟨hne, rfl⟩
      · exact And.right
  unfold destinationAddress
  cases hm : resolveAccount mappings destination.finId with
  | some a =>
    rw [Throws.bind_eq_ok]
    simp only [Except.ok.injEq, exists_eq_left', htruthy, reduceCtorEq, false_and, or_false]
  | none =>
    rw [Throws.bind_eq_ok]
    simp only [htruthy, reduceCtorEq, true_and, false_or]
    constructor
    · rintro ⟨found, hfound, hne, rfl⟩
      exact ⟨hne, hfound⟩
    · rintro ⟨hne, hfound⟩
      exact ⟨_, hfound, hne, rfl⟩

/-- The account names another network than this adapter's chain. -/
def OnOtherChain (account : Option LedgerAccount) (chainId : ℕ) : Prop :=
  ∃ network address, account = some (.caip10Account network address) ∧
    eip155Chain network ≠ some chainId

theorem ledgerAccountAddress_ne_ok {account : Option LedgerAccount} {chainId : ℕ}
    {found : Option String}
    (h : OnOtherChain account chainId) : ledgerAccountAddress account chainId ≠ .ok found := by
  obtain ⟨network, address, rfl, hne⟩ := h
  rw [ledgerAccountAddress, if_neg hne]
  nofun

/-- Only a mapping gives such a destination an address, and it hides the network. -/
theorem destinationAddress_of_otherChain {mappings : AccountMappings} {destination : Destination}
    {chainId : ℕ} {address : String} (h : OnOtherChain destination.account chainId) :
    destinationAddress mappings destination chainId = .ok address ↔
      address ≠ "" ∧ resolveAccount mappings destination.finId = some address := by
  have hleg : ledgerAccountAddress destination.account chainId ≠ .ok (some address) :=
    ledgerAccountAddress_ne_ok h
  rw [destinationAddress_eq_ok]
  simp only [hleg, and_false, or_false]

end FinP2PAdapter.Accounts
