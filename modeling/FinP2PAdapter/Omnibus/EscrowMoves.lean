import FinP2PAdapter.Accounts.AccountResolver
import FinP2PAdapter.Library.Machine
import FinP2PAdapter.Omnibus.InboundVerification

/-! The omnibus delegate's own moves: a hold sends tokens from the omnibus to
the escrow wallet, a release from escrow back to the omnibus wallet of a local
investor or out to a counterparty, a rollback back to the omnibus wallet. Each
is one token transfer. The check of inbound transfers does not look at the
sender, so it accepts those of them, and only those, that pay the omnibus
wallet. -/

namespace FinP2PAdapter.Omnibus

open Accounts Machine Throws

/-- A delegate whose two wallets have addresses, with the library's `getAddress`:
it gives the address a call's argument names, or throws. -/
structure EscrowDelegate extends Delegate where
  chainId : ℕ
  getAddress : String → Option String
  isEthAddress_omnibus : isEthAddress omnibusAddress = true
  isEthAddress_escrow : isEthAddress escrowAddress = true
  isEthAddress_getAddress : ∀ a b, getAddress a = some b → isEthAddress b = true
  getAddress_same : ∀ a b, isEthAddress a = true → getAddress a = some b → SameUpToCase b a

inductive EscrowOp where
  | hold (assetId quantity : String)
  | release (assetId quantity : String) (destination : Destination)
  | rollback (assetId quantity : String)
  deriving DecidableEq, Repr

/-- A requested operation, with what the account mapping answered for its
destination. -/
structure Pending where
  op : EscrowOp
  localAddress : Option String
  deriving DecidableEq, Repr

/-- The call a token standard makes of the asset's contract. -/
structure TokenTransfer where
  dbAsset : AssetRecord
  signer : String
  target : String
  amount : ℤ
  deriving DecidableEq, Repr

/-! ### The three operations -/

def Delegate.units (delegate : Delegate) (dbAsset : AssetRecord) (quantity : String) :
    Except DelegateError ℤ :=
  (delegate.parseUnits quantity dbAsset.decimals).mapError .error

def hold (delegate : Delegate) (assetId quantity : String) : Except DelegateError TokenTransfer := do
  let dbAsset ← delegate.assetRecord assetId
  let amount ← delegate.units dbAsset quantity
  return ⟨dbAsset, delegate.omnibusAddress, delegate.escrowAddress, amount⟩

/-- A mapped destination's tokens stay in the omnibus wallet. -/
def release (delegate : Delegate) (chainId : ℕ) (assetId quantity : String) (destination : Destination)
    (localAddress : Option String) : Except DelegateError TokenTransfer := do
  let dbAsset ← delegate.assetRecord assetId
  let amount ← delegate.units dbAsset quantity
  let externalAddress ← (ledgerAccountAddress destination.account chainId).mapError DelegateError.error
  let finId := destination.finId
  match truthy localAddress, truthy externalAddress with
  | some _, _ => return ⟨dbAsset, delegate.escrowAddress, delegate.omnibusAddress, amount⟩
  | none, some externalAddress => return ⟨dbAsset, delegate.escrowAddress, externalAddress, amount⟩
  | none, none => .error (.error s!"Cannot resolve release destination for finId: {finId}")

def rollback (delegate : Delegate) (assetId quantity : String) :
    Except DelegateError TokenTransfer := do
  let dbAsset ← delegate.assetRecord assetId
  let amount ← delegate.units dbAsset quantity
  return ⟨dbAsset, delegate.escrowAddress, delegate.omnibusAddress, amount⟩

def Pending.transfer (p : Pending) (d : EscrowDelegate) : Except DelegateError TokenTransfer :=
  match p.op with
  | .hold assetId quantity => hold d.toDelegate assetId quantity
  | .release assetId quantity destination =>
    release d.toDelegate d.chainId assetId quantity destination p.localAddress
  | .rollback assetId quantity => rollback d.toDelegate assetId quantity

/-- The receipt of a mined transfer: one `Transfer` event of the asset's contract
if it succeeds, no event if it reverts. -/
def TokenTransfer.receipt (t : TokenTransfer) (recipient : String) (blockNumber : ℕ)
    (succeeds : Bool) : Receipt where
  sender := t.signer
  target := some t.dbAsset.contractAddress
  status := some (if succeeds then 1 else 0)
  blockNumber := blockNumber
  logs := if succeeds then
      [⟨t.dbAsset.contractAddress, [transferTopic, addressTopic t.signer, addressTopic recipient],
        Words.word t.amount.toNat⟩]
    else []

/-! ### Runs -/

/-- `receipts` are those of all transactions the operations have produced. -/
structure EscrowState where
  accounts : String → Option String
  pending : ℕ → Option Pending
  receipts : List Receipt

def EscrowState.init : EscrowState := ⟨fun _ => none, fun _ => none, []⟩

inductive EscrowAction where
  | mapAccount (finId : String) (address : Option String)
  | request (id : ℕ) (op : EscrowOp)
  | mined (id : ℕ) (blockNumber : ℕ) (succeeds : Bool)
  | fails (id : ℕ)
  deriving DecidableEq, Repr

/-- A transfer is mined once, for an amount that fits a word and a target that
names an address; otherwise the operation can only fail. -/
def escrowStep (d : EscrowDelegate) (s : EscrowState) : EscrowAction → Option EscrowState
  | .mapAccount finId address => some { s with accounts := Function.update s.accounts finId address }
  | .request id op =>
    match s.pending id with
    | some _ => none
    | none =>
      let localAddress := match op with
        | .release _ _ destination => s.accounts destination.finId
        | _ => none
      some { s with pending := Function.update s.pending id (some ⟨op, localAddress⟩) }
  | .mined id blockNumber succeeds =>
    match s.pending id with
    | none => none
    | some p =>
      match p.transfer d with
      | .error _ => none
      | .ok t =>
        match d.getAddress t.target with
        | none => none
        | some recipient =>
          if 0 ≤ t.amount ∧ t.amount < 2 ^ 256 then
            some { s with
              pending := Function.update s.pending id none
              receipts := t.receipt recipient blockNumber succeeds :: s.receipts }
          else none
  | .fails id =>
    match s.pending id with
    | none => none
    | some _ => some { s with pending := Function.update s.pending id none }

/-- Some claim of an inbound transfer by this receipt is accepted. -/
def Accepted (delegate : Delegate) (receipt : Receipt) : Prop :=
  ∃ polls transactionId assetId amount,
    onInboundTransfer delegate (some receipt) polls transactionId assetId amount = .ok ()

/-! ### Which transfers are accepted -/

/-- The recipient test of the check, on a transfer's own event. -/
theorem transfersTo_transfer_iff {wallet recipient : String} (hw : isEthAddress wallet = true)
    (hr : isEthAddress recipient = true) (contract sender : String) (data : List UInt8) :
    transfersTo wallet.toLower ⟨contract, [transferTopic, sender, addressTopic recipient], data⟩ =
      true ↔
      SameUpToCase recipient wallet := by
  obtain ⟨hwl, hwn⟩ := toList_toLower_of_isEthAddress hw
  obtain ⟨hrl, hrn⟩ := toList_toLower_of_isEthAddress hr
  have htopic : (addressTopic recipient).toLower.toList =
      '0' :: 'x' :: (List.replicate 24 '0' ++ recipient.toLower.toList.drop 2) := by
    rw [toLower_addressTopic, addressTopic, String.toList_ofList]
  have hsuffix : transfersTo wallet.toLower
      ⟨contract, [transferTopic, sender, addressTopic recipient], data⟩ =
        true ↔ wallet.toLower.toList.drop 2 <:+ (addressTopic recipient).toLower.toList := by
    simp [transfersTo]
  have hown : recipient.toLower.toList.drop 2 <:+ (addressTopic recipient).toLower.toList := by
    rw [htopic]
    exact ⟨'0' :: 'x' :: List.replicate 24 '0', rfl⟩
  rw [hsuffix]
  constructor
  · intro h
    -- both ends have forty digits
    have hdigits : wallet.toLower.toList.drop 2 = recipient.toLower.toList.drop 2 :=
      (List.suffix_of_suffix_length_le h hown (by omega)).eq_of_length (by omega)
    apply String.ext
    rw [hrl, hwl, hdigits]
  · intro h
    rw [← show recipient.toLower = wallet.toLower from h]
    exact hown

/-- Every transfer is of a registered asset, for the units of the requested
quantity. -/
theorem transfer_eq_ok {d : EscrowDelegate} {p : Pending} {t : TokenTransfer}
    (h : p.transfer d = .ok t) : ∃ assetId quantity, d.assets assetId = some t.dbAsset ∧
      d.parseUnits quantity t.dbAsset.decimals = .ok t.amount := by
  have hasset : ∀ assetId dbAsset, d.assetRecord assetId = .ok dbAsset →
      d.assets assetId = some dbAsset := by
    intro assetId dbAsset ha
    unfold Delegate.assetRecord at ha
    split at ha
    · cases ha
    · cases ha
      assumption
  have hunits : ∀ dbAsset quantity amount, d.units dbAsset quantity = .ok amount →
      d.parseUnits quantity dbAsset.decimals = .ok amount := by
    intro dbAsset quantity amount hu
    unfold Delegate.units at hu
    cases hq : d.parseUnits quantity dbAsset.decimals with
    | error e => simp [hq, Except.mapError] at hu
    | ok units =>
      rw [hq] at hu
      cases hu
      rfl
  obtain ⟨op, localAddress⟩ := p
  cases op with
  | hold assetId quantity =>
    obtain ⟨dbAsset, ha, h⟩ := bind_eq_ok.mp h
    obtain ⟨amount, hu, h⟩ := bind_eq_ok.mp h
    cases h
    exact ⟨assetId, quantity, hasset _ _ ha, hunits _ _ _ hu⟩
  | release assetId quantity destination =>
    obtain ⟨dbAsset, ha, h⟩ := bind_eq_ok.mp h
    obtain ⟨amount, hu, h⟩ := bind_eq_ok.mp h
    obtain ⟨externalAddress, -, h⟩ := bind_eq_ok.mp h
    simp only at h
    split at h <;> cases h <;> exact ⟨assetId, quantity, hasset _ _ ha, hunits _ _ _ hu⟩
  | rollback assetId quantity =>
    obtain ⟨dbAsset, ha, h⟩ := bind_eq_ok.mp h
    obtain ⟨amount, hu, h⟩ := bind_eq_ok.mp h
    cases h
    exact ⟨assetId, quantity, hasset _ _ ha, hunits _ _ _ hu⟩

theorem not_accepted_reverted (delegate : Delegate) (t : TokenTransfer) (recipient : String)
    (blockNumber : ℕ) :
    ¬ Accepted delegate (t.receipt recipient blockNumber false) := by
  rintro ⟨polls, transactionId, assetId, amount, h⟩
  obtain ⟨hs, -⟩ := of_onInboundTransfer_eq_ok _ _ h
  cases hs

theorem transfersTo_receipt_iff {d : EscrowDelegate} {recipient : String}
    (hr : isEthAddress recipient = true) (t : TokenTransfer) (blockNumber : ℕ) :
    (t.receipt recipient blockNumber true).logs.find? (transfersTo d.omnibusAddress.toLower) =
        (t.receipt recipient blockNumber true).logs.head? ↔
          SameUpToCase recipient d.omnibusAddress := by
  rw [← transfersTo_transfer_iff d.isEthAddress_omnibus hr t.dbAsset.contractAddress
    (addressTopic t.signer)
    (Words.word t.amount.toNat)]
  simp only [TokenTransfer.receipt, if_true, List.head?_cons, List.find?_cons, List.find?_nil]
  split <;> simp_all

/-- A mined transfer is accepted for some claim exactly when it pays the omnibus
wallet: then its own asset and quantity are such a claim. -/
theorem accepted_iff (d : EscrowDelegate) {p : Pending} {t : TokenTransfer} (hp : p.transfer d = .ok t)
    {recipient : String} (hr : isEthAddress recipient = true) (h₀ : 0 ≤ t.amount)
    (h₁ : t.amount < 2 ^ 256) (blockNumber : ℕ) :
    Accepted d.toDelegate (t.receipt recipient blockNumber true) ↔
      SameUpToCase recipient d.omnibusAddress := by
  rw [← transfersTo_receipt_iff hr t blockNumber]
  constructor
  · rintro ⟨polls, transactionId, assetId, amount, h⟩
    obtain ⟨-, dbAsset, hlogs⟩ := of_onInboundTransfer_eq_ok _ _ h
    cases hf : (t.receipt recipient blockNumber true).logs.find?
      (transfersTo d.omnibusAddress.toLower) with
    | none =>
      obtain ⟨message, he⟩ := checkLogs_none dbAsset transactionId amount hf
      rw [he] at hlogs
      cases hlogs
    | some first =>
      have hmem := List.mem_of_find?_eq_some hf
      simp only [TokenTransfer.receipt, if_true, List.mem_singleton] at hmem
      rw [hmem]
      rfl
  · intro hf
    obtain ⟨assetId, quantity, ha, hq⟩ := transfer_eq_ok hp
    refine ⟨⟨[], .block (some blockNumber)⟩, "", assetId, quantity, ?_⟩
    rw [onInboundTransfer_eq t.dbAsset "" quantity (by simp [waitForFinalizedBlock, pollFinalized,
      TokenTransfer.receipt]) ha rfl (by simp [targets, TokenTransfer.receipt])]
    have hlt : t.amount.toNat < 2 ^ 256 := by omega
    refine (checkLogs_some t.dbAsset "" quantity hf ?_).1.mpr ⟨t.amount, hq, ?_⟩
    · intro hd
      have hn := Words.length_word hlt
      rw [show Words.word t.amount.toNat = [] from hd] at hn
      cases hn
    · change ((Words.bigEndian (Words.word t.amount.toNat) : ℕ) : ℤ) = t.amount
      rw [Words.bigEndian_word]
      omega

/-! ### Runs that pay outside -/

/-- The address an external destination is paid at. -/
def externalRecipient (d : EscrowDelegate) (destination : Destination) : Option String :=
  match ledgerAccountAddress destination.account d.chainId with
  | .ok (some externalAddress) => d.getAddress externalAddress
  | _ => none

/-- The operation does not pay the omnibus wallet: a hold into an escrow wallet
of its own, or a release to a destination that is neither mapped nor the omnibus
wallet. -/
def PaysOutside (d : EscrowDelegate) (p : Pending) : Prop :=
  match p.op with
  | .hold _ _ => ¬ SameUpToCase d.escrowAddress d.omnibusAddress
  | .release _ _ destination => truthy p.localAddress = none ∧
      ∀ recipient ∈ externalRecipient d destination, ¬ SameUpToCase recipient d.omnibusAddress
  | .rollback _ _ => False

/-- Every successful transfer of the step pays outside. -/
def MovesOutside (d : EscrowDelegate) (s : EscrowState) : EscrowAction → Prop
  | .mined id _ true => ∀ p, s.pending id = some p → PaysOutside d p
  | _ => True

theorem paysOutside_iff {d : EscrowDelegate} {p : Pending} {t : TokenTransfer}
    (hp : p.transfer d = .ok t) {recipient : String} (hr : d.getAddress t.target = some recipient) :
    PaysOutside d p ↔ ¬ SameUpToCase recipient d.omnibusAddress := by
  have hown : d.getAddress d.omnibusAddress = some recipient →
      SameUpToCase recipient d.omnibusAddress :=
    d.getAddress_same _ _ d.isEthAddress_omnibus
  obtain ⟨op, localAddress⟩ := p
  cases op with
  | hold assetId quantity =>
    obtain ⟨dbAsset, -, hp⟩ := bind_eq_ok.mp hp
    obtain ⟨amount, -, hp⟩ := bind_eq_ok.mp hp
    cases hp
    have hescrow := d.getAddress_same _ _ d.isEthAddress_escrow hr
    exact not_congr ⟨fun h => hescrow.trans h, fun h => hescrow.symm.trans h⟩
  | release assetId quantity destination =>
    obtain ⟨dbAsset, -, hp⟩ := bind_eq_ok.mp hp
    obtain ⟨amount, -, hp⟩ := bind_eq_ok.mp hp
    obtain ⟨externalAddress, he, hp⟩ := bind_eq_ok.mp hp
    simp only at hp
    split at hp
    · rename_i localAddress' hlocal
      cases hp
      simp [PaysOutside, hlocal, hown hr]
    · rename_i external hlocal hexternal
      cases hp
      obtain ⟨rfl, -⟩ := truthy_eq_some.mp hexternal
      have haddress : externalRecipient d destination = some recipient := by
        unfold externalRecipient
        cases ha : ledgerAccountAddress destination.account d.chainId with
        | error e => simp [ha, Except.mapError] at he
        | ok address =>
          rw [ha] at he
          cases he
          exact hr
      simp [PaysOutside, hlocal, haddress]
    · cases hp
  | rollback assetId quantity =>
    obtain ⟨dbAsset, -, hp⟩ := bind_eq_ok.mp hp
    obtain ⟨amount, -, hp⟩ := bind_eq_ok.mp hp
    cases hp
    simp [PaysOutside, hown hr]

/-- What a step can do to the receipts: nothing, or add the receipt of a pending
transfer. -/
theorem escrowStep_receipts {d : EscrowDelegate} {s s' : EscrowState} {a : EscrowAction}
    (h : escrowStep d s a = some s') :
    (s'.receipts = s.receipts ∧ ∀ id blockNumber succeeds, a ≠ .mined id blockNumber succeeds) ∨
    ∃ id blockNumber succeeds p t recipient, a = .mined id blockNumber succeeds ∧
      s.pending id = some p ∧
      p.transfer d = .ok t ∧ d.getAddress t.target = some recipient ∧ 0 ≤ t.amount ∧
        t.amount < 2 ^ 256 ∧
      s'.receipts = t.receipt recipient blockNumber succeeds :: s.receipts := by
  cases a with
  | mapAccount finId address =>
    cases h
    exact .inl ⟨rfl, by simp⟩
  | request id op =>
    simp only [escrowStep] at h
    split at h <;> cases h
    exact .inl ⟨rfl, by simp⟩
  | mined id blockNumber succeeds =>
    simp only [escrowStep] at h
    split at h
    · cases h
    · rename_i p hp
      split at h
      · cases h
      · rename_i t ht
        split at h
        · cases h
        · rename_i recipient hr
          split_ifs at h with hw
          cases h
          exact .inr ⟨id, blockNumber, succeeds, p, t, recipient, rfl, hp, ht, hr, hw.1, hw.2, rfl⟩
  | fails id =>
    simp only [escrowStep] at h
    split at h <;> cases h
    exact .inl ⟨rfl, by simp⟩

/-- The transactions a delegate's own operations produce are accepted as inbound
transfers for no claim, in every run whose successful transfers all pay outside;
and the first transfer that does not is accepted for one. -/
theorem own_transfers_rejected_iff (d : EscrowDelegate) :
    (∀ s, ReachUnder (escrowStep d) (MovesOutside d) .init s →
      ∀ r ∈ s.receipts, ¬ Accepted d.toDelegate r) ∧
    (∀ s a s', Reach (escrowStep d) .init s → escrowStep d s a = some s' → ¬ MovesOutside d s a →
      ∃ r ∈ s'.receipts, Accepted d.toDelegate r) := by
  constructor
  · intro s h
    refine h.invariant (P := fun s => ∀ r ∈ s.receipts, ¬ Accepted d.toDelegate r) ?_ ?_
    · intro r hr
      cases hr
    · intro s a s' hinv hok hs r hmem
      rcases escrowStep_receipts hs with ⟨hsame, -⟩ |
        ⟨id, blockNumber, succeeds, p, t, recipient, rfl, hp, ht, hr, h₀, h₁, hadd⟩
      · exact hinv r (hsame ▸ hmem)
      · rw [hadd] at hmem
        rcases List.mem_cons.mp hmem with rfl | hmem
        · cases succeeds with
          | false => exact not_accepted_reverted _ t recipient blockNumber
          | true =>
            rw [accepted_iff d ht (d.isEthAddress_getAddress _ _ hr) h₀ h₁, ← paysOutside_iff ht hr]
            exact hok p hp
        · exact hinv r hmem
  · intro s a s' _ hs hn
    rcases escrowStep_receipts hs with ⟨-, hother⟩ |
      ⟨id, blockNumber, succeeds, p, t, recipient, rfl, hp, ht, hr, h₀, h₁, hadd⟩
    · refine absurd ?_ hn
      unfold MovesOutside
      split
      · exact absurd rfl (hother _ _ _)
      · trivial
    · cases succeeds with
      | false => exact absurd trivial hn
      | true =>
        have hin : SameUpToCase recipient d.omnibusAddress := by
          by_contra hne
          refine hn fun p' hp' => ?_
          rw [hp] at hp'
          cases hp'
          exact (paysOutside_iff ht hr).mpr hne
        refine ⟨_, by rw [hadd]; exact List.mem_cons_self, ?_⟩
        exact (accepted_iff d ht (d.isEthAddress_getAddress _ _ hr) h₀ h₁ blockNumber).mpr hin

/-! ### One token, two wallets -/

/-- The delegate of the token, on a chain where addresses are written in digits. -/
def oneTokenEscrow : EscrowDelegate where
  toDelegate := oneAssetDelegate
  chainId := 1
  getAddress address := if isEthAddress address then some address else none
  isEthAddress_omnibus := by decide +kernel
  isEthAddress_escrow := by decide +kernel
  isEthAddress_getAddress := by
    intro a b h
    split_ifs at h with ha
    cases h
    exact ha
  getAddress_same := by
    intro a b _ h
    split_ifs at h
    cases h
    rfl

/-- A hold of five tokens, mined in block seven. -/
theorem held_tokens_rejected :
    ∃ s, Reach (escrowStep oneTokenEscrow) .init s ∧ s.receipts ≠ [] ∧
      ∀ r ∈ s.receipts, ¬ Accepted oneAssetDelegate r := by
  have hrun : ∃ s, ReachUnder (escrowStep oneTokenEscrow) (MovesOutside oneTokenEscrow) .init s ∧
      s.receipts ≠ [] := by
    refine ⟨_, .tail (a := .mined 0 7 true)
      (.tail (a := .request 0 (.hold "token" "5")) .start trivial rfl)
      ?_ rfl, List.cons_ne_nil _ _⟩
    intro p hp
    cases hp
    change ¬ SameUpToCase oneAssetDelegate.escrowAddress oneAssetDelegate.omnibusAddress
    decide +kernel
  obtain ⟨s, hr, hne⟩ := hrun
  exact ⟨s, hr.reach, hne, (own_transfers_rejected_iff oneTokenEscrow).1 s hr⟩

/-- Five tokens are held and rolled back: the rollback is accepted as an inbound
transfer of five. -/
theorem rolled_back_tokens_accepted :
    ∃ s, Reach (escrowStep oneTokenEscrow) .init s ∧ ∃ r ∈ s.receipts, Accepted oneAssetDelegate r := by
  let t : TokenTransfer := ⟨sixDecimals, oneAssetDelegate.escrowAddress,
    oneAssetDelegate.omnibusAddress, 5000000⟩
  have hrun : ∃ s, exec (escrowStep oneTokenEscrow) .init
      [.request 0 (.hold "token" "5"), .mined 0 7 true, .request 1 (.rollback "token" "5"),
        .mined 1 8 true] =
        some s ∧ s.receipts.head? = some (t.receipt oneAssetDelegate.omnibusAddress 8 true) :=
    ⟨_, rfl, rfl⟩
  obtain ⟨s, hs, hhead⟩ := hrun
  have hp : Pending.transfer ⟨.rollback "token" "5", none⟩ oneTokenEscrow = .ok t := rfl
  refine ⟨s, reach_of_exec hs, _, List.mem_of_head? hhead, ?_⟩
  exact (accepted_iff oneTokenEscrow hp oneTokenEscrow.isEthAddress_omnibus (by decide)
    (by decide) 8).mpr rfl

end FinP2PAdapter.Omnibus
