import FinP2PAdapter.Custody.NetworkAccounts
import FinP2PAdapter.Library.Throws

/-! The wallet the custody token service signs an investor's operation with. -/

namespace FinP2PAdapter.Custody

open Accounts Throws

variable {W : Type}

/-- The wallet the provider finds for an address; an empty address has none. -/
def walletFor (custodyProvider : CustodyProvider W) (address : String) :
    Except ServiceError (Option (String × W)) := do
  if address = "" then return none
  let wallet ← custodyProvider.resolveWallet address
  return wallet.map (address, ·)

def resolveSourceWallet (custodyProvider : CustodyProvider W) (mappings : AccountMappings)
    (finId : String) : Except ServiceError (Option (String × W)) :=
  match resolveFullAccount mappings finId with
  | some full =>
    match truthy full.custodyAccountId, custodyProvider.createWalletForCustodyId with
    | some custodyAccountId, some createWalletForCustodyId => do
      let wallet ← createWalletForCustodyId custodyAccountId
      return some (full.ledgerAccountId, wallet)
    | _, _ => walletFor custodyProvider full.ledgerAccountId
  | none =>
    match resolveAccount mappings finId with
    | some address => walletFor custodyProvider address
    | none => .ok none

theorem walletFor_eq_some {custodyProvider : CustodyProvider W} {address a : String} {wallet : W}
    (h : walletFor custodyProvider address = .ok (some (a, wallet))) :
    a = address ∧ custodyProvider.resolveWallet address = .ok (some wallet) := by
  unfold walletFor at h
  split_ifs at h with he
  · cases h
  · obtain ⟨w, hw, h⟩ := bind_eq_ok.mp h
    cases w with
    | none => cases h
    | some w =>
      cases h
      exact ⟨rfl, hw⟩

/-- The address is the one `resolveAccount` gives, and the wallet was created
from the mapping's custody account id or found by that address. -/
theorem resolveSourceWallet_eq_some {custodyProvider : CustodyProvider W} {mappings : AccountMappings}
    {finId address : String} {wallet : W}
    (h : resolveSourceWallet custodyProvider mappings finId = .ok (some (address, wallet))) :
    resolveAccount mappings finId = some address ∧
      ((∃ c create, mappings finId = some ⟨some address, some c⟩ ∧ c ≠ "" ∧
          custodyProvider.createWalletForCustodyId = some create ∧ create c = .ok wallet) ∨
        custodyProvider.resolveWallet address = .ok (some wallet)) := by
  unfold resolveSourceWallet at h
  cases hfull : resolveFullAccount mappings finId with
  | some full =>
    obtain ⟨hm, hr⟩ := resolveFullAccount_eq_some hfull
    simp only [hfull] at h
    split at h
    · rename_i c create hc hcreate
      obtain ⟨w, hw, h⟩ := bind_eq_ok.mp h
      cases h
      obtain ⟨hcustody, hne⟩ := truthy_eq_some.mp hc
      exact ⟨hr, .inl ⟨c, create, by rw [hm, hcustody], hne, hcreate, hw⟩⟩
    · obtain ⟨rfl, hw⟩ := walletFor_eq_some h
      exact ⟨hr, .inr hw⟩
  | none =>
    simp only [hfull] at h
    cases hr : resolveAccount mappings finId with
    | none => simp [hr] at h
    | some a =>
      simp only [hr] at h
      obtain ⟨rfl, hw⟩ := walletFor_eq_some h
      exact ⟨rfl, .inr hw⟩

end FinP2PAdapter.Custody
