import FinP2PAdapter.Custody.SteadyWorld
import FinP2PAdapter.Omnibus.DelegateRuns
import FinP2PAdapter.Omnibus.PooledTokens

/-! The delegate's operations in a world that does not change. When the store, the mapping, the wallets
and the gas station answer alike whenever they are asked, an operation makes the transfer that the
delegate decides on, and reports what the standard answers, or why there is none. -/

namespace FinP2PAdapter.Omnibus

open Accounts Effects TokenStandards

variable {W T α : Type}

/-- The delegate with its wallets, and what the standards answer. -/
structure DelegateDesk (W T : Type) where
  delegate : OutboundDelegate T
  omnibusWallet : W
  escrowWallet : W
  getAddress : W → String
  getAddress_omnibus : getAddress omnibusWallet = delegate.omnibusAddress
  getAddress_escrow : getAddress escrowWallet = delegate.escrowAddress
  creator : Creator T W
  perform : T → StandardCall W → Except ServiceError TokenOperationResult
  saveAsset : SavedAsset → Except ServiceError Unit

namespace DelegateDesk

variable (desk : DelegateDesk W T)

/-- The world that always answers from what the delegate reads. -/
def world : DelegateWorld W T where
  omnibusWallet := desk.omnibusWallet
  escrowWallet := desk.escrowWallet
  registry := desk.delegate.registry
  parseUnits := desk.delegate.parseUnits
  erc20TokenStandard := desk.creator.erc20TokenStandard
  defaultNewErc20Decimals := desk.creator.defaultNewErc20Decimals
  gasStation := desk.delegate.gasStation.map fun ensureGas address _ => (ensureGas address).mapError .error
  getAsset assetId _ := .ok (desk.delegate.assets assetId)
  resolveAccount finId _ := .ok (Accounts.resolveAccount desk.delegate.accountMapping finId)
  getNetwork _ := .ok desk.delegate.chainId
  getAddress wallet _ := .ok (desk.getAddress wallet)
  decimals standard tokenId _ := desk.creator.decimals standard tokenId
  perform standard call _ := desk.perform standard call
  deploy standard wallet name symbol decimals _ := desk.creator.deploy standard wallet name symbol decimals
  saveAsset asset _ := desk.saveAsset asset

/-- How the delegate's errors are told. -/
def told (e : ServiceError) : DelegateError := .error e.text

/-- The result is what the standard makes of the call that was decided on, or tells why there is none. -/
def Agrees (callOf : TokenTransfer → StandardCall W) (decided : Except DelegateError (T × TokenTransfer))
    (result : Except ServiceError DelegateResult) : Prop :=
  match decided with
  | .ok (standard, transfer) => result = (desk.perform standard (callOf transfer)).map delegateResult
  | .error e => (∃ message, e = .error message ∧ result = .ok (.failure message)) ∨
      ∃ thrown, e = told thrown ∧ result = .error thrown

/-- Every run of an operation agrees with what was decided. -/
def Steady (callOf : TokenTransfer → StandardCall W) (op : DelegateRun W T DelegateResult)
    (decided : Except DelegateError (T × TokenTransfer)) : Prop :=
  ∃ result, Yields op result ∧ desk.Agrees callOf decided result

variable {desk} {callOf : TokenTransfer → StandardCall W} {wallet : W} {quantity : String}

/-! ### Lookups -/

theorem yields_require {answer : Except ServiceError α} :
    Yields (DelegateWorld.require answer : DelegateRun W T α) answer := Yields.emit

theorem mirrors_standardOf {tokenStandard : String} :
    Mirrors told (desk.world.standardOf tokenStandard)
      ((desk.delegate.registry.resolve tokenStandard).mapError fun e => DelegateError.error e.text) :=
  ⟨_, yields_require, rfl⟩

theorem mirrors_ensureGas :
    Mirrors told (desk.world.ensureGas wallet)
      ((desk.delegate.ensureGas (desk.getAddress wallet)).mapError DelegateError.error) := by
  unfold OutboundDelegate.ensureGas DelegateWorld.ensureGas world
  cases desk.delegate.gasStation with
  | none => exact ⟨.ok (), Yields.pure, rfl⟩
  | some ensureGas =>
    refine ⟨(ensureGas (desk.getAddress wallet)).mapError .error, ?_, ?_⟩
    · exact Yields.andThen (a := desk.getAddress wallet) Yields.emit Yields.emit
    · dsimp only
      cases ensureGas (desk.getAddress wallet) <;> rfl

/-! ### Operations -/

theorem steady_lookup {op : DelegateRun W T α} {found : Except DelegateError α} {f : α → DelegateRun W T DelegateResult}
    {g : α → Except DelegateError (T × TokenTransfer)} (h : Mirrors told op found)
    (hf : ∀ a, desk.Steady callOf (f a) (g a)) : desk.Steady callOf (op >>= f) (found >>= g) := by
  obtain ⟨answer, hop, rfl⟩ := h
  choose result hyields hagrees using hf
  have hbind := hop.bind hyields
  refine ⟨_, hbind, ?_⟩
  cases answer with
  | error e => exact .inr ⟨e, rfl, rfl⟩
  | ok a => exact hagrees a

/-- The end of every operation: the standard, the gas of the signer, the call. -/
theorem steady_settle (callOf : TokenTransfer → StandardCall W) {address : String}
    (haddress : desk.getAddress wallet = address) (transfer : TokenTransfer) :
    desk.Steady callOf
      (desk.world.standardOf transfer.dbAsset.tokenStandard >>= fun standard =>
        desk.world.settle wallet standard (callOf transfer))
      (desk.delegate.prepare address transfer) := by
  subst haddress
  refine steady_lookup mirrors_standardOf fun standard => steady_lookup mirrors_ensureGas fun _ => ?_
  refine ⟨_, Yields.bind Yields.emit fun answer => Yields.pure, ?_⟩
  show (desk.perform standard (callOf transfer) >>= fun answer => .ok (delegateResult answer)) = _
  cases desk.perform standard (callOf transfer) <;> rfl

variable {destination : Destination} {assetId : String}

/-- The delegate as it creates assets. -/
def creating (desk : DelegateDesk W T) : OmnibusDelegate T W where
  toCreator := { desk.creator with registry := desk.delegate.registry, chainId := .ok desk.delegate.chainId }
  omnibusWallet := desk.omnibusWallet
  ensureGas wallet := (desk.delegate.ensureGas (desk.getAddress wallet)).mapError .error

end DelegateDesk

end FinP2PAdapter.Omnibus
