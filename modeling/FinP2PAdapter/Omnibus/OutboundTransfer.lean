import FinP2PAdapter.Custody.EscrowOperations
import FinP2PAdapter.Omnibus.EscrowMoves

/-! The omnibus delegate's transfer out, and the network of the destinations that it
and the custody token service deliver to. An account of another chain is refused where
it is read. A mapped destination's is read by the delegate's release only: the other
operations pay the mapped address and never look at the leg. -/

namespace FinP2PAdapter.Omnibus

open Accounts Custody Throws TokenStandards

/-- The delegate as its transfers out read it; `ensureGas` is the gas station's. -/
structure OutboundDelegate (T : Type) extends Delegate where
  chainId : ℕ
  accountMapping : AccountMappings
  registry : TokenStandardRegistry T
  gasStation : Option (String → Except String Unit)

namespace OutboundDelegate

variable {T : Type}

def ensureGas (d : OutboundDelegate T) (address : String) : Except String Unit :=
  match d.gasStation with
  | none => .ok ()
  | some ensureGas => ensureGas address

/-- The transfer that is made of the asset's standard. -/
def outboundTransfer (d : OutboundDelegate T) (destination : Destination) (assetId quantity : String) :
    Except DelegateError (T × TokenTransfer) := do
  let dbAsset ← d.toDelegate.assetRecord assetId
  let target ← (destinationAddress d.accountMapping destination d.chainId).mapError DelegateError.error
  let amount ← d.toDelegate.units dbAsset quantity
  let standard ← (d.registry.resolve dbAsset.tokenStandard).mapError fun e => DelegateError.error e.text
  (d.ensureGas d.omnibusAddress).mapError DelegateError.error
  return (standard, ⟨dbAsset, d.omnibusAddress, target, amount⟩)

/-- All that a transfer out needs besides its destination. -/
structure Ready (d : OutboundDelegate T) (assetId quantity : String) (dbAsset : AssetRecord)
    (standard : T) (amount : ℤ) : Prop where
  asset : d.assets assetId = some dbAsset
  amount : d.parseUnits quantity dbAsset.decimals = .ok amount
  standard : d.registry.resolve dbAsset.tokenStandard = .ok standard
  gas : d.ensureGas d.omnibusAddress = .ok ()

theorem outboundTransfer_eq_ok {d : OutboundDelegate T} {destination : Destination}
    {assetId quantity : String} {result : T × TokenTransfer} :
    d.outboundTransfer destination assetId quantity = .ok result ↔
      ∃ dbAsset standard amount target, d.Ready assetId quantity dbAsset standard amount ∧
        destinationAddress d.accountMapping destination d.chainId = .ok target ∧
        result = (standard, ⟨dbAsset, d.omnibusAddress, target, amount⟩) := by
  have hasset : ∀ dbAsset, d.toDelegate.assetRecord assetId = .ok dbAsset ↔
      d.assets assetId = some dbAsset := by
    intro dbAsset
    unfold Delegate.assetRecord
    cases d.assets assetId with
    | none => simp
    | some a => simp
  simp only [outboundTransfer, bind_eq_ok, hasset, Delegate.units, mapError_eq_ok]
  constructor
  · rintro ⟨dbAsset, ha, target, hd, amount, hq, standard, hs, _, hg, he⟩
    cases he
    exact ⟨dbAsset, standard, amount, target, ⟨ha, hq, hs, hg⟩, hd, rfl⟩
  · rintro ⟨dbAsset, standard, amount, target, ⟨ha, hq, hs, hg⟩, hd, rfl⟩
    exact ⟨dbAsset, ha, target, hd, amount, hq, standard, hs, (), hg, rfl⟩

end OutboundDelegate

/-! ### Destinations on another network -/

/-- The finId is mapped to an address that can be paid. -/
def Mapped (mappings : AccountMappings) (finId : String) : Prop :=
  ∃ address, address ≠ "" ∧ resolveAccount mappings finId = some address

section OtherChain

variable {W T : Type} {svc : Service W T} {destination : Destination} {ast : Asset} {quantity : String}
  {exCtx : Option ExecutionContext}

theorem issue_on_other_chain (h : OnOtherChain destination.account svc.chainId) :
    (∃ move, svc.issue ast destination quantity exCtx = .ok move) ↔
      Mapped svc.accountMapping destination.finId ∧ svc.issuerWallet ≠ none ∧
        ∃ asset standard amount, svc.Resolved ast quantity asset standard amount := by
  simp only [Service.issue_eq_ok, Service.destinationAddress_eq_ok, destinationAddress_of_otherChain h]
  constructor
  · rintro ⟨move, asset, standard, amount, wallet, address, hr, hw, hd, -⟩
    exact ⟨⟨address, hd⟩, by rw [hw]; nofun, asset, standard, amount, hr⟩
  · rintro ⟨⟨address, hd⟩, hw, asset, standard, amount, hr⟩
    obtain ⟨wallet, hw⟩ := Option.ne_none_iff_exists'.mp hw
    exact ⟨_, asset, standard, amount, wallet, address, hr, hw, hd, rfl⟩

theorem transfer_on_other_chain {source : Source} {signature : Option Signature}
    (h : OnOtherChain destination.account svc.chainId) :
    (∃ move, svc.transfer source destination ast quantity signature exCtx = .ok move) ↔
      Mapped svc.accountMapping destination.finId ∧
        (∃ signer, resolveSourceWallet svc.custodyProvider svc.accountMapping source.finId = .ok
          (some signer)) ∧
        ∃ asset standard amount, svc.Resolved ast quantity asset standard amount := by
  simp only [Service.transfer_eq_ok, Service.destinationAddress_eq_ok,
    destinationAddress_of_otherChain h]
  constructor
  · rintro ⟨move, asset, standard, amount, own, wallet, address, hr, hw, hd, -⟩
    exact ⟨⟨address, hd⟩, ⟨(own, wallet), hw⟩, asset, standard, amount, hr⟩
  · rintro ⟨⟨address, hd⟩, ⟨⟨own, wallet⟩, hw⟩, asset, standard, amount, hr⟩
    exact ⟨_, asset, standard, amount, own, wallet, address, hr, hw, hd, rfl⟩

theorem release_on_other_chain {source : Source} {operationId : String}
    (h : OnOtherChain destination.account svc.chainId) :
    (∃ move, svc.release source destination ast quantity operationId exCtx = .ok move) ↔
      Mapped svc.accountMapping destination.finId ∧
        ∃ asset standard amount, svc.Resolved ast quantity asset standard amount := by
  simp only [Service.release_eq_ok, Service.destinationAddress_eq_ok,
    destinationAddress_of_otherChain h]
  constructor
  · rintro ⟨move, asset, standard, amount, address, hr, hd, -⟩
    exact ⟨⟨address, hd⟩, asset, standard, amount, hr⟩
  · rintro ⟨⟨address, hd⟩, asset, standard, amount, hr⟩
    exact ⟨_, asset, standard, amount, address, hr, hd, rfl⟩

theorem outboundTransfer_on_other_chain {d : OutboundDelegate T} {assetId : String}
    (h : OnOtherChain destination.account d.chainId) :
    (∃ result, d.outboundTransfer destination assetId quantity = .ok result) ↔
      Mapped d.accountMapping destination.finId ∧
        ∃ dbAsset standard amount, d.Ready assetId quantity dbAsset standard amount := by
  simp only [OutboundDelegate.outboundTransfer_eq_ok, destinationAddress_of_otherChain h]
  constructor
  · rintro ⟨result, dbAsset, standard, amount, target, hr, hd, -⟩
    exact ⟨⟨target, hd⟩, dbAsset, standard, amount, hr⟩
  · rintro ⟨⟨target, hd⟩, dbAsset, standard, amount, hr⟩
    exact ⟨_, dbAsset, standard, amount, target, hr, hd, rfl⟩

/-- The release of the delegate reads the leg whether or not it pays it. -/
theorem release_reads_leg {delegate : Delegate} {chainId : ℕ} {assetId : String}
    {localAddress : Option String}
    (h : OnOtherChain destination.account chainId) (transfer : TokenTransfer) :
    release delegate chainId assetId quantity destination localAddress ≠ .ok transfer := by
  intro he
  simp only [release, bind_eq_ok, mapError_eq_ok] at he
  obtain ⟨dbAsset, -, amount, -, found, hfound, -⟩ := he
  exact ledgerAccountAddress_ne_ok h hfound

end OtherChain

/-- For every account mapping and every delivery to an account of another network: no
call is made exactly if the destination is unmapped or something else the operation
needs is missing. The delegate's release never makes one. -/
theorem other_network_refused_iff {W T : Type} (svc : Service W T) (d : OutboundDelegate T)
    (destination : Destination) (h : OnOtherChain destination.account svc.chainId)
    (hd : OnOtherChain destination.account d.chainId) :
    (∀ ast quantity exCtx, (∀ move, svc.issue ast destination quantity exCtx ≠ .ok move) ↔
      ¬ (Mapped svc.accountMapping destination.finId ∧ svc.issuerWallet ≠ none ∧
        ∃ asset standard amount, svc.Resolved ast quantity asset standard amount)) ∧
    (∀ source ast quantity signature exCtx,
      (∀ move, svc.transfer source destination ast quantity signature exCtx ≠ .ok move) ↔
      ¬ (Mapped svc.accountMapping destination.finId ∧
        (∃ signer, resolveSourceWallet svc.custodyProvider svc.accountMapping source.finId = .ok
          (some signer)) ∧
        ∃ asset standard amount, svc.Resolved ast quantity asset standard amount)) ∧
    (∀ source ast quantity operationId exCtx,
      (∀ move, svc.release source destination ast quantity operationId exCtx ≠ .ok move) ↔
      ¬ (Mapped svc.accountMapping destination.finId ∧
        ∃ asset standard amount, svc.Resolved ast quantity asset standard amount)) ∧
    (∀ assetId quantity, (∀ result, d.outboundTransfer destination assetId quantity ≠ .ok result) ↔
      ¬ (Mapped d.accountMapping destination.finId ∧
        ∃ dbAsset standard amount, d.Ready assetId quantity dbAsset standard amount)) ∧
    ∀ assetId quantity localAddress transfer,
      release d.toDelegate d.chainId assetId quantity destination localAddress ≠ .ok transfer := by
  refine ⟨?_, ?_, ?_, ?_, ?_⟩
  · intro ast quantity exCtx
    rw [← issue_on_other_chain h]
    exact not_exists.symm
  · intro source ast quantity signature exCtx
    rw [← transfer_on_other_chain h]
    exact not_exists.symm
  · intro source ast quantity operationId exCtx
    rw [← release_on_other_chain h]
    exact not_exists.symm
  · intro assetId quantity
    rw [← outboundTransfer_on_other_chain hd]
    exact not_exists.symm
  · intro assetId quantity localAddress transfer
    exact release_reads_leg hd transfer

/-! ### A destination on another network -/

/-- A delegate over the desk's asset. -/
def deskDelegate : OutboundDelegate String where
  omnibusAddress := "0xaaaaaaaaaaaaaaaaaaaaaaaaaaaaaaaaaaaaaaaa"
  escrowAddress := escrowAddress
  assets := (deskService .escrowTransfer).assets
  parseUnits := Decimals.parseUnits
  minConfirmations := 1
  timeoutMs := 120000
  requireFinalizedBlock := false
  chainId := 1
  accountMapping := (deskService .escrowTransfer).accountMapping
  registry := (deskService .escrowTransfer).registry
  gasStation := none

/-- Bob's account is on another chain, and he is not mapped. -/
def distantBob : Destination :=
  ⟨"bob", some (.caip10Account "eip155:5" "0x2222222222222222222222222222222222222222")⟩

theorem distant_bob_refused : ¬ ∃ move,
    (deskService .escrowTransfer).release ⟨"alice", none⟩ distantBob deskAsset "1.0" "op-1" none =
      .ok move := by
  have hchain : OnOtherChain distantBob.account 1 := ⟨_, _, rfl, by decide +kernel⟩
  have hunmapped : ¬ Mapped (deskService .escrowTransfer).accountMapping distantBob.finId := by
    rintro ⟨address, -, h⟩
    have hnone : resolveAccount (deskService .escrowTransfer).accountMapping distantBob.finId =
        none := by decide
    rw [hnone] at h
    cases h
  have hrefused := (other_network_refused_iff (deskService .escrowTransfer) deskDelegate distantBob
    hchain hchain).2.2.1 ⟨"alice", none⟩ deskAsset "1.0" "op-1" none
  exact not_exists.mpr (hrefused.mpr fun h => hunmapped h.1)

/-- Alice is mapped, and the instruction names her account on another chain. -/
def distantAlice : Destination :=
  ⟨"alice", some (.caip10Account "eip155:5" "0x2222222222222222222222222222222222222222")⟩

/-- Tokens released to that account are paid on this chain. -/
theorem distant_alice_paid_here :
    OnOtherChain distantAlice.account (deskService .escrowTransfer).chainId ∧
    ∃ move, (deskService .escrowTransfer).release ⟨"bob", none⟩ distantAlice deskAsset "1.0" "op-1"
      none = .ok move := by
  have hchain : OnOtherChain distantAlice.account (deskService .escrowTransfer).chainId :=
    ⟨_, _, rfl, by decide +kernel⟩
  have hmapped : Mapped (deskService .escrowTransfer).accountMapping distantAlice.finId :=
    ⟨aliceAddress, by decide, by decide⟩
  exact ⟨hchain, (release_on_other_chain hchain).mpr ⟨hmapped, _, _, _, desk_resolved .escrowTransfer⟩⟩

end FinP2PAdapter.Omnibus
