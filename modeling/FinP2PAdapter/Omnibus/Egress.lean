import FinP2PAdapter.Omnibus.OutboundTransfer

/-! Where the delegate's two ways out of the organisation deliver. A transfer out pays the mapped
address and looks at the leg only when there is no mapping; a release takes a mapped destination
for an investor of its own and keeps its tokens in the omnibus wallet. They agree on the
destinations that are not mapped. -/

namespace FinP2PAdapter.Omnibus

open Accounts Custody Throws TokenStandards

variable {T : Type}

namespace OutboundDelegate

/-- The whole of `release`: the move, the asset's standard and the gas of the escrow wallet. -/
def release (d : OutboundDelegate T) (destination : Destination) (assetId quantity : String) :
    Except DelegateError (T × TokenTransfer) := do
  let move ← Omnibus.release d.toDelegate d.chainId assetId quantity destination
    (resolveAccount d.accountMapping destination.finId)
  let standard ← (d.registry.resolve move.dbAsset.tokenStandard).mapError fun e =>
    DelegateError.error e.text
  (d.ensureGas d.escrowAddress).mapError DelegateError.error
  return (standard, move)

/-- All that a move signed by `wallet` needs besides its destination. -/
structure Prepared (d : OutboundDelegate T) (wallet assetId quantity : String) (dbAsset : AssetRecord)
    (standard : T) (amount : ℤ) : Prop where
  asset : d.assets assetId = some dbAsset
  amount : d.parseUnits quantity dbAsset.decimals = .ok amount
  standard : d.registry.resolve dbAsset.tokenStandard = .ok standard
  gas : d.ensureGas wallet = .ok ()

end OutboundDelegate

/-- The call is made, and pays `address`. -/
def Delivers (result : Except DelegateError (T × TokenTransfer)) (address : String) : Prop :=
  ∃ standard move, result = .ok (standard, move) ∧ move.target = address

section Egress

variable {d : OutboundDelegate T} {destination : Destination} {assetId quantity address : String}

theorem delivers_outboundTransfer : Delivers (d.outboundTransfer destination assetId quantity) address ↔
    (∃ dbAsset standard amount, d.Prepared d.omnibusAddress assetId quantity dbAsset standard amount) ∧
      destinationAddress d.accountMapping destination d.chainId = .ok address := by
  simp only [Delivers, OutboundDelegate.outboundTransfer_eq_ok]
  constructor
  · rintro ⟨_, _, ⟨dbAsset, standard, amount, target, hr, hd, he⟩, rfl⟩
    cases he
    exact ⟨⟨dbAsset, _, amount, hr.asset, hr.amount, hr.standard, hr.gas⟩, hd⟩
  · rintro ⟨⟨dbAsset, standard, amount, hp⟩, hd⟩
    exact ⟨_, _, ⟨dbAsset, standard, amount, address, ⟨hp.asset, hp.amount, hp.standard, hp.gas⟩, hd, rfl⟩,
      rfl⟩

theorem assetRecord_eq_ok {delegate : Delegate} {dbAsset : AssetRecord} :
    delegate.assetRecord assetId = .ok dbAsset ↔ delegate.assets assetId = some dbAsset := by
  unfold Delegate.assetRecord
  cases delegate.assets assetId <;> simp

/-- The address a release pays. -/
def releaseTarget (omnibusAddress : String) (localAddress externalAddress : Option String) : Option String :=
  match truthy localAddress with
  | some _ => some omnibusAddress
  | none => truthy externalAddress

theorem release_eq_ok {delegate : Delegate} {chainId : ℕ} {localAddress : Option String}
    {move : TokenTransfer} :
    Omnibus.release delegate chainId assetId quantity destination localAddress = .ok move ↔
      ∃ dbAsset amount found target, delegate.assets assetId = some dbAsset ∧
        delegate.parseUnits quantity dbAsset.decimals = .ok amount ∧
        ledgerAccountAddress destination.account chainId = .ok found ∧
        releaseTarget delegate.omnibusAddress localAddress found = some target ∧
        move = ⟨dbAsset, delegate.escrowAddress, target, amount⟩ := by
  simp only [Omnibus.release, bind_eq_ok, mapError_eq_ok, assetRecord_eq_ok, Delegate.units]
  constructor
  · rintro ⟨dbAsset, ha, amount, hq, found, hf, he⟩
    cases hl : truthy localAddress with
    | some l =>
      simp only [hl] at he
      cases he
      exact ⟨dbAsset, amount, found, _, ha, hq, hf, by simp [releaseTarget, hl], rfl⟩
    | none =>
      cases hx : truthy found with
      | some external =>
        simp only [hl, hx] at he
        cases he
        exact ⟨dbAsset, amount, found, external, ha, hq, hf, by simp [releaseTarget, hl, hx], rfl⟩
      | none => simp [hl, hx] at he
  · rintro ⟨dbAsset, amount, found, target, ha, hq, hf, ht, rfl⟩
    refine ⟨dbAsset, ha, amount, hq, found, hf, ?_⟩
    cases hl : truthy localAddress with
    | some l =>
      simp only [releaseTarget, hl, Option.some.injEq] at ht
      subst ht
      rfl
    | none =>
      simp only [releaseTarget, hl] at ht
      simp only [ht]
      rfl

theorem delivers_release : Delivers (d.release destination assetId quantity) address ↔
    (∃ dbAsset standard amount, d.Prepared d.escrowAddress assetId quantity dbAsset standard amount) ∧
      ∃ found, ledgerAccountAddress destination.account d.chainId = .ok found ∧
        releaseTarget d.omnibusAddress (resolveAccount d.accountMapping destination.finId) found =
          some address := by
  simp only [Delivers, OutboundDelegate.release, bind_eq_ok, mapError_eq_ok, release_eq_ok]
  constructor
  · rintro ⟨standard, move, ⟨_, ⟨dbAsset, amount, found, target, ha, hq, hf, ht, rfl⟩, _, hs, _, hg, he⟩, rfl⟩
    cases he
    exact ⟨⟨dbAsset, _, amount, ha, hq, hs, hg⟩, found, hf, ht⟩
  · rintro ⟨⟨dbAsset, standard, amount, hp⟩, found, hf, ht⟩
    exact ⟨standard, _, ⟨_, ⟨dbAsset, amount, found, address, hp.asset, hp.amount, hf, ht, rfl⟩, standard,
      hp.standard, (), hp.gas, rfl⟩, rfl⟩

/-- A wallet whose gas is seen to may sign what another such wallet may. -/
theorem prepared_iff {wallet wallet' : String} :
    (d.ensureGas wallet' = .ok () ∧
        ∃ dbAsset standard amount, d.Prepared wallet assetId quantity dbAsset standard amount) ↔
      d.ensureGas wallet = .ok () ∧
        ∃ dbAsset standard amount, d.Prepared wallet' assetId quantity dbAsset standard amount := by
  constructor <;> rintro ⟨hg, dbAsset, standard, amount, hp⟩ <;>
    exact ⟨hp.gas, dbAsset, standard, amount, hp.asset, hp.amount, hp.standard, hg⟩

/-- Without a mapped address a release pays the one on the leg, if there is one. -/
theorem delivers_release_of_unmapped (h : truthy (resolveAccount d.accountMapping destination.finId) = none) :
    Delivers (d.release destination assetId quantity) address ↔
      (∃ dbAsset standard amount, d.Prepared d.escrowAddress assetId quantity dbAsset standard amount) ∧
        address ≠ "" ∧ ledgerAccountAddress destination.account d.chainId = .ok (some address) := by
  rw [delivers_release]
  refine and_congr_right fun _ => ?_
  simp only [releaseTarget, h, truthy_eq_some]
  constructor
  · rintro ⟨_, hf, rfl, hne⟩
    exact ⟨hne, hf⟩
  · rintro ⟨hne, hf⟩
    exact ⟨_, hf, rfl, hne⟩

theorem egress_of_unmapped (h : resolveAccount d.accountMapping destination.finId = none) :
    d.ensureGas d.escrowAddress = .ok () ∧ Delivers (d.outboundTransfer destination assetId quantity) address ↔
      d.ensureGas d.omnibusAddress = .ok () ∧ Delivers (d.release destination assetId quantity) address := by
  have htruthy : truthy (resolveAccount d.accountMapping destination.finId) = none := by rw [h]; rfl
  have hleg : destinationAddress d.accountMapping destination d.chainId = .ok address ↔
      address ≠ "" ∧ ledgerAccountAddress destination.account d.chainId = .ok (some address) := by
    simp [destinationAddress_eq_ok, h]
  rw [delivers_outboundTransfer, delivers_release_of_unmapped htruthy, hleg, ← and_assoc, prepared_iff,
    and_assoc]

theorem egress_of_mapped {mapped : String} (hne : mapped ≠ "")
    (h : resolveAccount d.accountMapping destination.finId = some mapped) :
    (Delivers (d.outboundTransfer destination assetId quantity) address ↔ address = mapped ∧
        ∃ dbAsset standard amount, d.Prepared d.omnibusAddress assetId quantity dbAsset standard amount) ∧
      (Delivers (d.release destination assetId quantity) address ↔ address = d.omnibusAddress ∧
        (∃ dbAsset standard amount, d.Prepared d.escrowAddress assetId quantity dbAsset standard amount) ∧
        ∃ found, ledgerAccountAddress destination.account d.chainId = .ok found) := by
  have hmapped : destinationAddress d.accountMapping destination d.chainId = .ok address ↔
      address = mapped := by
    simp only [destinationAddress_eq_ok, h, Option.some.injEq, reduceCtorEq, false_and, or_false]
    constructor
    · exact fun h => h.2.symm
    · rintro rfl
      exact ⟨hne, rfl⟩
  have hkept : ∀ found, releaseTarget d.omnibusAddress (some mapped) found = some d.omnibusAddress := by
    intro found
    simp [releaseTarget, truthy_eq_some.mpr ⟨rfl, hne⟩]
  constructor
  · rw [delivers_outboundTransfer, hmapped]
    exact and_comm
  · simp only [delivers_release, h, hkept, Option.some.injEq]
    constructor
    · rintro ⟨hp, found, hf, rfl⟩
      exact ⟨rfl, hp, found, hf⟩
    · rintro ⟨rfl, hp, found, hf⟩
      exact ⟨hp, found, hf, rfl⟩

theorem not_delivers_of_empty (h : resolveAccount d.accountMapping destination.finId = some "") :
    ¬ Delivers (d.outboundTransfer destination assetId quantity) address := by
  rw [delivers_outboundTransfer, destinationAddress_eq_ok]
  rintro ⟨-, hne, hmap | ⟨hmap, -⟩⟩
  · rw [h] at hmap
    exact hne (Option.some.inj hmap).symm
  · rw [h] at hmap
    cases hmap

end Egress

/-- For an unmapped destination the two pay the same address; a mapped one is paid by a transfer out
and kept in the omnibus wallet by a release; one mapped to an empty address is refused by a transfer
out, and released to the address on its leg. -/
theorem egress_agreement (d : OutboundDelegate T) (destination : Destination) (assetId quantity : String) :
    (resolveAccount d.accountMapping destination.finId = none → ∀ address,
      (d.ensureGas d.escrowAddress = .ok () ∧ Delivers (d.outboundTransfer destination assetId quantity) address ↔
        d.ensureGas d.omnibusAddress = .ok () ∧ Delivers (d.release destination assetId quantity) address)) ∧
    (∀ mapped, mapped ≠ "" → resolveAccount d.accountMapping destination.finId = some mapped →
      (∀ address, Delivers (d.outboundTransfer destination assetId quantity) address ↔ address = mapped ∧
        ∃ dbAsset standard amount, d.Prepared d.omnibusAddress assetId quantity dbAsset standard amount) ∧
      ∀ address, Delivers (d.release destination assetId quantity) address ↔ address = d.omnibusAddress ∧
        (∃ dbAsset standard amount, d.Prepared d.escrowAddress assetId quantity dbAsset standard amount) ∧
        ∃ found, ledgerAccountAddress destination.account d.chainId = .ok found) ∧
    (resolveAccount d.accountMapping destination.finId = some "" →
      (∀ address, ¬ Delivers (d.outboundTransfer destination assetId quantity) address) ∧
      ∀ address, Delivers (d.release destination assetId quantity) address ↔
        (∃ dbAsset standard amount, d.Prepared d.escrowAddress assetId quantity dbAsset standard amount) ∧
        address ≠ "" ∧ ledgerAccountAddress destination.account d.chainId = .ok (some address)) := by
  refine ⟨fun hnone address => egress_of_unmapped hnone,
    fun mapped hne hmap => ⟨fun address => (egress_of_mapped hne hmap).1,
      fun address => (egress_of_mapped hne hmap).2⟩,
    fun hempty => ⟨fun address => not_delivers_of_empty hempty, fun address => ?_⟩⟩
  exact delivers_release_of_unmapped (by rw [hempty]; rfl)

/-! ### A mapped destination -/

/-- Alice is mapped and her leg carries no account. -/
def mappedAlice : Destination := ⟨"alice", none⟩

theorem desk_prepared (wallet : String) :
    deskDelegate.Prepared wallet "asset-1" "1.0" deskRecord "desk standard" 100 where
  asset := (desk_resolved .escrowTransfer).asset
  amount := (desk_resolved .escrowTransfer).amount
  standard := (desk_resolved .escrowTransfer).standard
  gas := rfl

/-- Alice's tokens go to her mapped address by a transfer out, and stay pooled by a release. -/
theorem mapped_destination_split : ∃ address, address ≠ deskDelegate.omnibusAddress ∧
    Delivers (deskDelegate.outboundTransfer mappedAlice "asset-1" "1.0") address ∧
    ¬ Delivers (deskDelegate.release mappedAlice "asset-1" "1.0") address ∧
    Delivers (deskDelegate.release mappedAlice "asset-1" "1.0") deskDelegate.omnibusAddress := by
  have hmap : resolveAccount deskDelegate.accountMapping mappedAlice.finId = some aliceAddress := by
    decide
  have hapart : aliceAddress ≠ deskDelegate.omnibusAddress := by decide
  have hne : aliceAddress ≠ "" := by decide
  refine ⟨aliceAddress, hapart, ?_, ?_, ?_⟩
  · rw [(egress_of_mapped hne hmap).1]
    exact ⟨rfl, _, _, _, desk_prepared _⟩
  · rw [(egress_of_mapped hne hmap).2]
    exact fun h => hapart h.1
  · rw [(egress_of_mapped hne hmap).2]
    exact ⟨rfl, ⟨_, _, _, desk_prepared _⟩, none, rfl⟩

/-- Bob is unmapped and his leg carries an address of this chain. -/
def directBob : Destination := ⟨"bob", some (.walletAccount "0x2222222222222222222222222222222222222222")⟩

theorem direct_bob_paid_by_both : ∃ address,
    Delivers (deskDelegate.outboundTransfer directBob "asset-1" "1.0") address ∧
    Delivers (deskDelegate.release directBob "asset-1" "1.0") address := by
  have hunmapped : resolveAccount deskDelegate.accountMapping directBob.finId = none := by decide
  have hdirect : Delivers (deskDelegate.outboundTransfer directBob "asset-1" "1.0")
      "0x2222222222222222222222222222222222222222" := by
    rw [delivers_outboundTransfer]
    exact ⟨⟨_, _, _, desk_prepared _⟩, destinationAddress_eq_ok.mpr ⟨by decide, .inr ⟨hunmapped, rfl⟩⟩⟩
  have hagree := (egress_agreement deskDelegate directBob "asset-1" "1.0").1 hunmapped
    "0x2222222222222222222222222222222222222222"
  exact ⟨_, hdirect, (hagree.mp ⟨rfl, hdirect⟩).2⟩

end FinP2PAdapter.Omnibus
