import FinP2PAdapter.Library.Growing
import FinP2PAdapter.Library.JsArithmetic
import FinP2PAdapter.Library.Machine
import FinP2PAdapter.Scripts.Migration
import Mathlib.Data.List.Nodup

/-! The script that brings the ledger's balances to those that OSS reports. It reads each owner's balance and issues
or redeems the difference, so that it may be run again after it was stopped. The tokens have no decimals, as those
have none that the script deploys. The differences are those of the language's numbers, which are exact for balances
below `2 ^ 53`. -/

namespace FinP2PAdapter.Scripts.SyncBalances

open Accounts (truthy)
open Interrupts
open JsNumber (decimal parseFloat toText)
open Scripts.Migration (Thrown includes Startup)

structure Owner where
  finId : String
  balance : String
  deriving DecidableEq, Repr

/-- What OSS reports: every asset once, with every owner once. -/
structure Oss where
  assets : List (String × List Owner)
  assetsOnce : (assets.map Prod.fst).Nodup
  ownersOnce : ∀ asset ∈ assets, (asset.2.map Owner.finId).Nodup

/-- The text reads as this whole number, and the number has no more than 53 bits. -/
def Reads (text : String) (n : ℕ) : Prop := parseFloat text = decimal n 0 ∧ n < 2 ^ 53

def Oss.Listed (oss : Oss) (assetId finId : String) (balance : ℕ) : Prop :=
  ∃ owners text, (assetId, owners) ∈ oss.assets ∧ ⟨finId, text⟩ ∈ owners ∧ Reads text balance

/-- Every balance that is reported is a whole number below `2 ^ 53`. -/
def Oss.Whole (oss : Oss) : Prop := ∀ asset ∈ oss.assets, ∀ owner ∈ asset.2, ∃ n, Reads owner.balance n

/-! ### The ledger -/

/-- The tokens of the associated assets, each with its balances. -/
structure Ledger where
  tokens : String → Option (String → ℕ)

inductive Tx where
  | associateAsset (assetId : String)
  | issue (assetId finId quantity : String)
  | redeem (assetId finId quantity : String)
  deriving DecidableEq, Repr

/-- The operator contract, over tokens without decimals: it writes a balance with its digits and reads digits as the
quantity that they say. -/
structure Contract where
  balanceText : ℕ → String
  balanceText_digits : ∀ n, JsText.digitsValue (balanceText n) = some n
  quantity : String → Option ℕ
  quantity_digits : ∀ n : ℕ, quantity (toString n) = some n
  notFound : String → Thrown
  notFound_text : ∀ assetId, includes (notFound assetId).text "Asset not found" = true
  reverted : Tx → Thrown

namespace Ledger

def balance (l : Ledger) (assetId finId : String) : ℕ :=
  match l.tokens assetId with
  | some token => token finId
  | none => 0

def put (l : Ledger) (assetId : String) (token : String → ℕ) : Ledger :=
  ⟨Function.update l.tokens assetId (some token)⟩

/-- Every balance is below `2 ^ 53`. -/
def Whole (l : Ledger) : Prop := ∀ assetId finId, l.balance assetId finId < 2 ^ 53

/-- The ledger after a transaction, unless it is reverted. -/
def mine (contract : Contract) (l : Ledger) : Tx → Option Ledger
  | .associateAsset assetId =>
    match l.tokens assetId with
    | none => some (l.put assetId fun _ => 0)
    | some _ => none
  | .issue assetId finId quantity =>
    match l.tokens assetId, contract.quantity quantity with
    | some token, some amount => some (l.put assetId (Function.update token finId (token finId + amount)))
    | _, _ => none
  | .redeem assetId finId quantity =>
    match l.tokens assetId, contract.quantity quantity with
    | some token, some amount =>
      if amount ≤ token finId then some (l.put assetId (Function.update token finId (token finId - amount))) else none
    | _, _ => none

end Ledger

structure State where
  ledger : Ledger
  pending : List Tx

/-- What became of a transaction whose call threw. -/
inductive Fate where
  | refused
  | mined
  | pending
  deriving DecidableEq, Repr

structure Lost where
  error : Thrown
  fate : Fate
  deriving DecidableEq, Repr

abbrev Script (α : Type) := Act Thrown State α

def call (fault : Option Thrown) : Script Unit :=
  match fault with
  | none => pure ()
  | some e => throw e

def State.mine (contract : Contract) (s : State) (tx : Tx) : State :=
  { s with ledger := (s.ledger.mine contract tx).getD s.ledger }

def Lost.leaves (contract : Contract) (lost : Lost) (tx : Tx) (s : State) : State :=
  match lost.fate with
  | .refused => s
  | .mined => s.mine contract tx
  | .pending => { s with pending := s.pending ++ [tx] }

/-- The calls of an owner's round that fail by themselves. -/
structure OwnerFaults where
  balance : Option Thrown
  transaction : Option Lost
  deriving DecidableEq, Repr

/-- An asset's round, with the calls of it that fail by themselves. -/
structure Round where
  assetId : String
  owners : List (Owner × OwnerFaults)
  getAssetAddress : Option Thrown
  deployERC20 : Option Thrown
  associateAsset : Option Lost
  getOwnerBalances : Option Thrown

section Script

variable (contract : Contract)

def send (tx : Tx) (fault : Option Lost) : Script Unit :=
  match fault with
  | none => transact fun s =>
    match s.ledger.mine contract tx with
    | some ledger => .ok { s with ledger := ledger }
    | none => .error (contract.reverted tx)
  | some lost => do
    modify (lost.leaves contract tx)
    throw lost.error

def getAssetAddress (assetId : String) (fault : Option Thrown) : Script Unit := do
  call fault
  let token ← (·.ledger.tokens assetId) <$> get
  if token.isNone then throw (contract.notFound assetId)

/-- The transaction that corrects a balance, if it is not as expected. -/
def correction (assetId finId expectedBalance actualBalance : String) : Option Tx :=
  let balance := parseFloat expectedBalance - parseFloat actualBalance
  if 0 < balance then some (.issue assetId finId (toText balance))
  else if balance < 0 then some (.redeem assetId finId (toText (-balance)))
  else none

def syncOwner (assetId : String) (round : Owner × OwnerFaults) : Script Unit := do
  call round.2.balance
  let token ← (·.ledger.tokens assetId) <$> get
  match token with
  | none => throw (contract.notFound assetId)
  | some balances =>
    match correction assetId round.1.finId round.1.balance (contract.balanceText (balances round.1.finId)) with
    | some tx => send contract tx round.2.transaction
    | none => pure ()

/-- An asset that is not found is given a token. Any other error is only logged. -/
def ensureToken (round : Round) : Script Unit :=
  tryCatch (getAssetAddress contract round.assetId round.getAssetAddress) fun e =>
    if includes e.text "Asset not found" then do
      call round.deployERC20
      send contract (.associateAsset round.assetId) round.associateAsset
    else pure ()

def syncAsset (round : Round) : Script Unit := do
  ensureToken contract round
  call round.getOwnerBalances
  forM round.owners (syncOwner contract round.assetId)

def startUp (startup : Startup) : Script Unit := do
  call startup.connect
  if startup.withRegistry then
    match truthy startup.defaultAssetStandard with
    | none => throw ⟨"FINP2POperatorWithRegistry detected — set DEFAULT_ASSET_STANDARD (0x-prefixed bytes32) before running this script.", none⟩
    | some _ => call startup.verifyAssetStandardRegistered

structure Run where
  startup : Startup
  rounds : List Round

def syncBalanceFromOssToEthereum (run : Run) : Script Unit := do
  call run.startup.getAssets
  if !run.rounds.isEmpty then
    startUp run.startup
    forM run.rounds (syncAsset contract)

end Script

/-! ### Runs -/

/-- The run goes through what OSS reports. -/
def Run.Over (run : Run) (oss : Oss) : Prop :=
  run.rounds.map (fun round => (round.assetId, round.owners.map Prod.fst)) = oss.assets

instance (run : Run) (oss : Oss) : Decidable (run.Over oss) := inferInstanceAs (Decidable (_ = _))

/-- Runs of the script, and what happens to pending transactions meanwhile. -/
inductive Event where
  | run (run : Run)
  | mined (i : ℕ)
  | dropped (i : ℕ)

def eventStep (contract : Contract) (s : State) : Event → Option State
  | .run run => some (exec (syncBalanceFromOssToEthereum contract run) s).2
  | .mined i => (s.pending[i]?).map fun tx => { s.mine contract tx with pending := s.pending.eraseIdx i }
  | .dropped i => (s.pending[i]?).map fun _ => { s with pending := s.pending.eraseIdx i }

/-- A run begins when nothing is pending any more. -/
def Awaited (oss : Oss) (s : State) : Event → Prop
  | .run run => s.pending = [] ∧ run.Over oss
  | _ => True

instance (oss : Oss) (s : State) (event : Event) : Decidable (Awaited oss s event) := by
  cases event with
  | run run => exact inferInstanceAs (Decidable (_ ∧ _))
  | mined i => exact instDecidableTrue
  | dropped i => exact instDecidableTrue

/-! ### What a transaction may do -/

variable {oss : Oss} {contract : Contract} {l l' : Ledger} {s t : State} {assetId finId : String} {expected : ℕ}
  {token : String → ℕ} {tx : Tx}

theorem log2_le_of_lt {n : ℕ} (h : n < 2 ^ 53) : n.log2 ≤ 52 := by
  rcases Nat.eq_zero_or_pos n with rfl | hpos
  · simp
  · exact Nat.le_of_lt_succ ((Nat.log2_lt hpos.ne').mpr h)

theorem Reads.bits {text : String} {n : ℕ} (h : Reads text n) : n.log2 ≤ 52 := log2_le_of_lt h.2

theorem Oss.Listed.unique {n m : ℕ} (h : oss.Listed assetId finId n) (h' : oss.Listed assetId finId m) : n = m := by
  obtain ⟨owners, text, hasset, howner, hreads⟩ := h
  obtain ⟨owners', text', hasset', howner', hreads'⟩ := h'
  have hsame := List.inj_on_of_nodup_map oss.assetsOnce hasset hasset' rfl
  cases hsame
  have howners := List.inj_on_of_nodup_map (oss.ownersOnce _ hasset) howner howner' rfl
  cases howners
  exact JsNumber.decimal_inj hreads.bits hreads'.bits (hreads.1.symm.trans hreads'.1)

/-- Tokens stay associated, and a balance that has changed is one that OSS reports. -/
structure Brings (oss : Oss) (l l' : Ledger) : Prop where
  tokens : ∀ assetId, (l.tokens assetId).isSome = true → (l'.tokens assetId).isSome = true
  balances : ∀ assetId finId, l'.balance assetId finId = l.balance assetId finId ∨
    oss.Listed assetId finId (l'.balance assetId finId)

theorem Brings.refl (l : Ledger) : Brings oss l l := ⟨fun _ h => h, fun _ _ => .inl rfl⟩

theorem Brings.trans {l'' : Ledger} (h : Brings oss l l') (h' : Brings oss l' l'') : Brings oss l l'' := by
  refine ⟨fun assetId hl => h'.tokens assetId (h.tokens assetId hl), fun assetId finId => ?_⟩
  rcases h'.balances assetId finId with hsame | hlisted
  · rw [hsame]
    exact h.balances assetId finId
  · exact .inr hlisted

theorem Brings.whole (h : Brings oss l l') (hl : l.Whole) : l'.Whole := by
  intro assetId finId
  rcases h.balances assetId finId with hsame | ⟨owners, text, -, -, hreads⟩
  · rw [hsame]
    exact hl assetId finId
  · exact hreads.2

/-- The transaction makes a balance what OSS reports, or associates a token. -/
def Corrects (contract : Contract) (oss : Oss) (l : Ledger) : Tx → Prop
  | .associateAsset _ => True
  | .issue assetId finId quantity => ∃ amount, contract.quantity quantity = some amount ∧
    oss.Listed assetId finId (l.balance assetId finId + amount)
  | .redeem assetId finId quantity => ∃ amount expected, contract.quantity quantity = some amount ∧
    oss.Listed assetId finId expected ∧ l.balance assetId finId = expected + amount

section Correction

variable {text : String}

end Correction

/-! ### What a run keeps -/

/-- At most one transaction is pending, and it still corrects what it was sent to correct. -/
structure Inv (contract : Contract) (oss : Oss) (s : State) : Prop where
  corrects : ∀ tx ∈ s.pending, Corrects contract oss s.ledger tx
  one : s.pending.length ≤ 1
  whole : s.ledger.Whole

/-- Nothing is pending. -/
def Quiet (s : State) : Prop := s.pending = []

theorem Quiet.inv (h : Quiet s) (hwhole : s.ledger.Whole) : Inv contract oss s := by
  refine ⟨?_, ?_, hwhole⟩
  · intro tx htx
    rw [h] at htx
    cases htx
  · rw [h]
    exact Nat.zero_le _

/-- The owner's balance is as expected. -/
def Settled (assetId finId : String) (expected : ℕ) (s : State) : Prop :=
  (s.ledger.tokens assetId).isSome = true ∧ s.ledger.balance assetId finId = expected

variable {round : Round} {run : Run}

/-- Every owner of the round is reported with the number that the balance reads as, and has it. -/
def Round.Settled (oss : Oss) (round : Round) (s : State) : Prop :=
  ∀ owner ∈ round.owners, ∃ n, Reads owner.1.balance n ∧ oss.Listed round.assetId owner.1.finId n ∧
    SyncBalances.Settled round.assetId owner.1.finId n s

def Round.Listed (oss : Oss) (round : Round) : Prop :=
  ∀ owner ∈ round.owners, ∃ n, Reads owner.1.balance n ∧ oss.Listed round.assetId owner.1.finId n

theorem Run.Over.listed (h : run.Over oss) (hwhole : oss.Whole) {round : Round} (hround : round ∈ run.rounds) :
    round.Listed oss := by
  intro owner howner
  have hasset : (round.assetId, round.owners.map Prod.fst) ∈ oss.assets := by
    rw [← h]
    exact List.mem_map.mpr ⟨round, hround, rfl⟩
  have hmem : owner.1 ∈ round.owners.map Prod.fst := List.mem_map.mpr ⟨owner, howner, rfl⟩
  obtain ⟨n, hreads⟩ := hwhole _ hasset owner.1 hmem
  exact ⟨n, hreads, _, owner.1.balance, hasset, hmem, hreads⟩

/-- What a round has settled is what OSS reports, since it reports each owner once. -/
theorem Round.Settled.listed (h : round.Settled oss s) {owner : Owner × OwnerFaults} (howner : owner ∈ round.owners)
    (hlisted : oss.Listed round.assetId owner.1.finId expected) :
    SyncBalances.Settled round.assetId owner.1.finId expected s := by
  obtain ⟨n, -, hlisted', hsettled⟩ := h owner howner
  rw [hlisted.unique hlisted']
  exact hsettled

/-- Every asset that the run asked for without a failure has a token. -/
def Run.Associated (run : Run) (s : State) : Prop :=
  ∀ round ∈ run.rounds, round.getAssetAddress = none → (s.ledger.tokens round.assetId).isSome = true

end FinP2PAdapter.Scripts.SyncBalances
