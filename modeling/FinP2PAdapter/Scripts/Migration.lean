import FinP2PAdapter.Accounts.AccountResolver
import FinP2PAdapter.Library.Interrupts
import Mathlib.Data.List.Infix
import Mathlib.Logic.Function.Basic

/-! The script that takes an organization's assets over to a new operator contract: each asset is
associated with its token, and then the operator is granted its roles on the token. The two steps
are apart, and what a later run makes of an asset depends on what the errors say and on how the
token's address is spelled. An association is waited for; of a grant only the sending is, so it may
be mined at any later time, or never. -/

namespace FinP2PAdapter.Scripts.Migration

open Accounts (truthy)
open Interrupts

structure LedgerAssetInfo where
  ledgerReferenceAddress : Option String
  ledgerIdentifierTokenId : Option String
  deriving DecidableEq, Repr

structure Asset where
  organizationId : String
  id : String
  ledgerAssetInfo : Option LedgerAssetInfo
  deriving DecidableEq, Repr

def getTokenAddress (ledgerAssetInfo : LedgerAssetInfo) : String :=
  match ledgerAssetInfo.ledgerReferenceAddress with
  | some address => address
  | none => ledgerAssetInfo.ledgerIdentifierTokenId.getD ""

/-- What the catches look at of an error: its text and, of an `EthereumTransactionError`, the reason. -/
structure Thrown where
  text : String
  reason : Option String
  deriving DecidableEq, Repr

def includes (text phrase : String) : Bool := phrase.toList <:+: text.toList

theorem includes_self (text : String) : includes text text = true := decide_eq_true (List.infix_refl _)

/-- A text without one of a phrase's letters does not include it. -/
theorem includes_of_letter {text phrase : String} (c : Char) (hc : c ∈ phrase.toList) (h : c ∉ text.toList) :
    includes text phrase = false :=
  decide_eq_false fun hincluded => h (hincluded.subset hc)

inductive Role where
  | operator
  | minter
  deriving DecidableEq, Repr

/-- The contracts as the script relies on them. `addressOf` tells the texts that are Ethereum
addresses, `checksum` is how the operator contract's client spells an address, and `admin` tells
the tokens on which the signer may grant roles. -/
structure Contracts (A : Type) where
  addressOf : String → Option A
  checksum : A → String
  addressOf_checksum : ∀ token, addressOf (checksum token) = some token
  admin : A → Bool
  notFound : String → Thrown
  notFound_text : ∀ id, includes (notFound id).text "Asset not found" = true
  alreadyExists : String → Thrown
  alreadyExists_text : ∀ id, includes (alreadyExists id).text "Asset not found" = false
  alreadyExists_reason : ∀ id, ∃ reason, (alreadyExists id).reason = some reason ∧
    includes reason "Asset already exists" = true
  notAdmin : A → Thrown
  notAdmin_text : ∀ token, includes (notAdmin token).text "must have admin role to grant" = true ∧
    includes (notAdmin token).text "Asset not found" = false
  notAdmin_reason : ∀ token, (notAdmin token).reason = none

/-- The operator contract's associations, and the operator's roles on the tokens. -/
structure Ledger (A : Type) where
  associated : String → Option A
  holds : Role → A → Bool

inductive Transaction (A : Type) where
  | associate (assetId : String) (token : A)
  | grant (role : Role) (token : A)
  deriving DecidableEq, Repr

/-- The ledger, the transactions in flight by their numbers, how many were sent, and the counts of
the run. -/
structure State (A : Type) extends Ledger A where
  inFlight : ℕ → Option (Transaction A)
  sent : ℕ
  migrated : ℕ
  skipped : ℕ

/-- What becomes of a transaction in flight. One that is lost was dropped, or mined and reverted. -/
inductive Fate where
  | mined (number : ℕ)
  | lost (number : ℕ)
  deriving DecidableEq, Repr

def Fate.number : Fate → ℕ
  | .mined n | .lost n => n

/-- The calls of one asset's round. -/
inductive Call where
  | getAssetAddress
  | associateAsset
  | hasRole (role : Role)
  | grantTo (role : Role)
  deriving DecidableEq, Repr

/-- A transaction that threw, and whether it was sent all the same. -/
structure Lost where
  error : Thrown
  sent : Bool
  deriving DecidableEq, Repr

/-- The calls of one asset's round that fail by themselves, and the fates that transactions in flight
meet before each call. A process that is stopped is one more call that throws what no catch takes. -/
structure Faults where
  getAssetAddress : Option Thrown
  associateAsset : Option Lost
  hasRole : Role → Option Thrown
  grantTo : Role → Option Lost
  fates : Call → List Fate

def Faults.none (fates : Call → List Fate) : Faults := ⟨.none, .none, fun _ => .none, fun _ => .none, fates⟩

variable {A : Type} [DecidableEq A]

def State.associate (s : State A) (assetId : String) (token : A) : State A :=
  { s with associated := Function.update s.associated assetId (some token) }

def State.grant (s : State A) (role : Role) (token : A) : State A :=
  { s with holds := fun r t => s.holds r t || (decide (r = role) && decide (t = token)) }

def State.broadcast (s : State A) (transaction : Transaction A) : State A :=
  { s with inFlight := Function.update s.inFlight s.sent (some transaction), sent := s.sent + 1 }

/-- The number is in flight no more. -/
def State.landed (s : State A) (number : ℕ) : State A :=
  { s with inFlight := Function.update s.inFlight number none }

/-- The association of an asset that is known reverts. -/
def State.mine (s : State A) : Transaction A → State A
  | .associate assetId token => if (s.associated assetId).isSome then s else s.associate assetId token
  | .grant role token => s.grant role token

def State.settle (s : State A) (fate : Fate) : State A :=
  match fate, s.inFlight fate.number with
  | .mined n, some transaction => (s.landed n).mine transaction
  | fate, _ => s.landed fate.number

def State.settles (s : State A) (fates : List Fate) : State A := fates.foldl State.settle s

abbrev Script (A α : Type) := Act Thrown (State A) α

/-- The time before a call. -/
def elapse (fates : List Fate) : Script A Unit := modify (·.settles fates)

def call (fault : Option Thrown) : Script A Unit :=
  match fault with
  | none => pure ()
  | some e => throw e

/-- The state after a call that threw, which may have sent the transaction before. -/
def Lost.leaves (lost : Lost) (sends : State A → Except Thrown (State A)) (s : State A) : State A :=
  match lost.sent, sends s with
  | true, .ok s' => s'
  | _, _ => s

section Script

variable (contracts : Contracts A)

def getAssetAddress (assetId : String) (faults : Faults) : Script A String := do
  elapse (faults.fates .getAssetAddress)
  call faults.getAssetAddress
  let associated ← (·.associated assetId) <$> get
  match associated with
  | none => throw (contracts.notFound assetId)
  | some token => pure (contracts.checksum token)

/-- The call returns once the association is mined. One that throws may leave it in flight. -/
def associateAsset (assetId : String) (token : A) (faults : Faults) : Script A Unit := do
  elapse (faults.fates .associateAsset)
  match faults.associateAsset with
  | none => transact fun s =>
    if (s.associated assetId).isSome then .error (contracts.alreadyExists assetId)
    else .ok (s.associate assetId token)
  | some lost => do
    modify (lost.leaves fun s => .ok (s.broadcast (.associate assetId token)))
    throw lost.error

/-- `grantOperatorTo` and `grantMinterTo`: a refusal is told before anything is sent, and the call
returns once the grant is sent. -/
def grantTo (role : Role) (token : A) (faults : Faults) : Script A Unit := do
  let sends (s : State A) : Except Thrown (State A) :=
    if contracts.admin token then .ok (s.broadcast (.grant role token)) else .error (contracts.notAdmin token)
  elapse (faults.fates (.grantTo role))
  match faults.grantTo role with
  | none => transact sends
  | some lost => do
    modify (lost.leaves sends)
    throw lost.error

def ensureRole (token : A) (faults : Faults) (role : Role) : Script A Unit := do
  elapse (faults.fates (.hasRole role))
  call (faults.hasRole role)
  let held ← (·.holds role token) <$> get
  if !held then grantTo contracts role token faults

def whitelistERC20 (token : A) (faults : Faults) : Script A Unit := do
  ensureRole contracts token faults .operator
  ensureRole contracts token faults .minter

/-- The first `try` of a round: whether the asset is found with the very text of its token's address. -/
def alreadyAssociated (assetId tokenAddress : String) (token : A) (faults : Faults) : Script A Bool :=
  tryCatch (do
      let foundAddress ← getAssetAddress contracts assetId faults
      if foundAddress = tokenAddress then
        whitelistERC20 contracts token faults
        modify fun s => { s with skipped := s.skipped + 1 }
        pure true
      else pure false)
    fun e => if includes e.text "Asset not found" then pure false else throw e

/-- The catch of the second `try`. -/
def caught (e : Thrown) : Script A Unit :=
  if includes e.text "Asset not found" then modify fun s => { s with skipped := s.skipped + 1 }
  else match e.reason with
    | some reason =>
      if includes reason "Asset already exists" then modify fun s => { s with skipped := s.skipped + 1 }
      else throw e
    | none => if includes e.text "must have admin role to grant" then pure () else throw e

/-- The second `try`. -/
def migrate (assetId : String) (token : A) (faults : Faults) : Script A Unit :=
  tryCatch (do
      associateAsset contracts assetId token faults
      whitelistERC20 contracts token faults
      modify fun s => { s with migrated := s.migrated + 1 })
    caught

/-- The tests a round opens with: the asset's token, and the text that names it. -/
def tokenOf (orgId : String) (asset : Asset) : Option (String × A) :=
  if asset.organizationId = orgId then
    asset.ledgerAssetInfo.bind fun ledgerAssetInfo =>
      (contracts.addressOf (getTokenAddress ledgerAssetInfo)).map fun token =>
        (getTokenAddress ledgerAssetInfo, token)
  else none

/-- One round of the loop. -/
def migrateAsset (orgId : String) (round : Asset × Faults) : Script A Unit :=
  match tokenOf contracts orgId round.1 with
  | none => pure ()
  | some (tokenAddress, token) => do
    let found ← alreadyAssociated contracts round.1.id tokenAddress token round.2
    if !found then migrate contracts round.1.id token round.2

/-- What the script asks before its loop. -/
structure Startup where
  getAssets : Option Thrown
  connect : Option Thrown
  withRegistry : Bool
  defaultAssetStandard : Option String
  verifyAssetStandardRegistered : Option Thrown
  deriving DecidableEq, Repr

def startUp (startup : Startup) : Script A Unit := do
  call startup.connect
  if startup.withRegistry then
    match truthy startup.defaultAssetStandard with
    | none => throw ⟨"FINP2POperatorWithRegistry detected — set DEFAULT_ASSET_STANDARD (0x-prefixed bytes32) before running this script.", none⟩
    | some _ => call startup.verifyAssetStandardRegistered

def startMigration (orgId : String) (startup : Startup) (rounds : List (Asset × Faults)) : Script A Unit := do
  call startup.getAssets
  if !rounds.isEmpty then
    startUp startup
    modify fun s => { s with migrated := 0, skipped := 0 }
    forM rounds (migrateAsset contracts orgId)

end Script

/-! ### Transactions in flight -/

section InFlight

variable {s : State A} {token : A}

@[simp] theorem holds_grant {role r : Role} {t : A} :
    (s.grant role token).holds r t = (s.holds r t || (decide (r = role) && decide (t = token))) := rfl

@[simp] theorem settles_nil : s.settles [] = s := rfl

@[simp] theorem settles_cons (fate : Fate) (fates : List Fate) :
    s.settles (fate :: fates) = (s.settle fate).settles fates := rfl

/-- A fate lands a number, and if it is mined, has the ledger take the transaction. -/
theorem settle_cases (s : State A) (fate : Fate) :
    s.settle fate = s.landed fate.number ∨
    (∃ assetId token, s.inFlight fate.number = some (.associate assetId token) ∧
      s.associated assetId = none ∧ s.settle fate = (s.landed fate.number).associate assetId token) ∨
    ∃ role token, s.inFlight fate.number = some (.grant role token) ∧
      s.settle fate = (s.landed fate.number).grant role token := by
  cases fate with
  | lost n => exact .inl rfl
  | mined n =>
    unfold State.settle Fate.number
    dsimp only
    cases s.inFlight n with
    | none => exact .inl rfl
    | some transaction =>
      cases transaction with
      | grant role token => exact .inr (.inr ⟨role, token, rfl, rfl⟩)
      | associate assetId token =>
        cases hknown : s.associated assetId with
        | some known => exact .inl (if_pos (by simp [State.landed, hknown]))
        | none =>
          exact .inr (.inl ⟨assetId, token, rfl, hknown, if_neg (by simp [State.landed, hknown])⟩)

theorem settle_mined {n : ℕ} {transaction : Transaction A} (h : s.inFlight n = some transaction) :
    s.settle (.mined n) = (s.landed n).mine transaction := by
  unfold State.settle Fate.number
  dsimp only
  rw [h]

@[simp] theorem settle_inFlight (s : State A) (fate : Fate) :
    (s.settle fate).inFlight = Function.update s.inFlight fate.number none := by
  rcases settle_cases s fate with h | ⟨_, _, -, -, h⟩ | ⟨_, _, -, h⟩ <;> rw [h] <;> rfl

@[simp] theorem settle_sent (s : State A) (fate : Fate) : (s.settle fate).sent = s.sent := by
  rcases settle_cases s fate with h | ⟨_, _, -, -, h⟩ | ⟨_, _, -, h⟩ <;> rw [h] <;> rfl

/-- What each fate keeps, fates keep. -/
theorem settles_keeps {P : State A → Prop} {fates : List Fate} (h : ∀ fate ∈ fates, ∀ s, P s → P (s.settle fate))
    (hs : P s) : P (s.settles fates) := by
  induction fates generalizing s with
  | nil => exact hs
  | cons fate fates ih =>
    obtain ⟨hfate, hfates⟩ := List.forall_mem_cons.mp h
    exact ih hfates (hfate s hs)

end InFlight

/-! ### What a round keeps -/

/-- All that a round does to the state. -/
inductive Change (contracts : Contracts A) (orgId : String) (round : Asset × Faults) :
    State A → State A → Prop where
  | count (s : State A) (migrated skipped : ℕ) : Change contracts orgId round s { s with migrated, skipped }
  | settle (s : State A) (fate : Fate) (call : Call) (hfate : fate ∈ round.2.fates call) :
      Change contracts orgId round s (s.settle fate)
  | associate (s : State A) (tokenAddress : String) (token : A)
      (htoken : tokenOf contracts orgId round.1 = some (tokenAddress, token))
      (hunknown : s.associated round.1.id = none) :
      Change contracts orgId round s (s.associate round.1.id token)
  | sendAssociation (s : State A) (tokenAddress : String) (token : A)
      (htoken : tokenOf contracts orgId round.1 = some (tokenAddress, token))
      (hlost : round.2.associateAsset ≠ none) :
      Change contracts orgId round s (s.broadcast (.associate round.1.id token))
  | sendGrant (s : State A) (role : Role) (tokenAddress : String) (token : A)
      (htoken : tokenOf contracts orgId round.1 = some (tokenAddress, token))
      (hadmin : contracts.admin token = true) :
      Change contracts orgId round s (s.broadcast (.grant role token))

section Keeping

variable {contracts : Contracts A} {P : State A → Prop} {orgId tokenAddress : String} {token : A}
  {round : Asset × Faults}

omit [DecidableEq A] in
theorem keeps_call {fault : Option Thrown} : Keeps P (call fault : Script A Unit) := by
  cases fault with
  | none => exact Keeps.pure
  | some e => exact Keeps.throw

theorem keeps_elapse {fates : List Fate} (h : ∀ fate ∈ fates, ∀ s, P s → P (s.settle fate)) :
    Keeps P (elapse fates : Script A Unit) :=
  Keeps.modifies fun _ hs => settles_keeps h hs

omit [DecidableEq A] in
theorem Lost.leaves_keeps {lost : Lost} {sends : State A → Except Thrown (State A)}
    (h : ∀ s s', P s → sends s = .ok s' → P s') (s : State A) (hs : P s) : P (lost.leaves sends s) := by
  unfold Lost.leaves
  split
  · exact h s _ hs (by assumption)
  · exact hs

variable (h : ∀ s s', Change contracts orgId round s s' → P s → P s')
include h

theorem keeps_round_elapse (call : Call) : Keeps P (elapse (round.2.fates call) : Script A Unit) :=
  keeps_elapse fun fate hfate s => h s _ (.settle s fate call hfate)

theorem keeps_getAssetAddress {assetId : String} : Keeps P (getAssetAddress contracts assetId round.2) := by
  refine Keeps.bind (keeps_round_elapse h _) fun _ => Keeps.bind keeps_call fun _ =>
    Keeps.bind Keeps.read fun associated => ?_
  cases associated with
  | none => exact Keeps.throw
  | some token => exact Keeps.pure

theorem keeps_associateAsset (htoken : tokenOf contracts orgId round.1 = some (tokenAddress, token)) :
    Keeps P (associateAsset contracts round.1.id token round.2) := by
  refine Keeps.bind (keeps_round_elapse h _) fun _ => ?_
  cases hlost : round.2.associateAsset with
  | none =>
    refine Keeps.transact fun s s' hs hchange => ?_
    split_ifs at hchange with hknown
    cases hchange
    exact h s _ (.associate s tokenAddress token htoken (by simpa using hknown)) hs
  | some lost =>
    refine Keeps.bind (Keeps.modifies (Lost.leaves_keeps fun s s' hs hsends => ?_)) fun _ => Keeps.throw
    cases hsends
    exact h s _ (.sendAssociation s tokenAddress token htoken (by simp [hlost])) hs

theorem keeps_ensureRole (htoken : tokenOf contracts orgId round.1 = some (tokenAddress, token)) (role : Role) :
    Keeps P (ensureRole contracts token round.2 role) := by
  refine Keeps.bind (keeps_round_elapse h _) fun _ => Keeps.bind keeps_call fun _ =>
    Keeps.bind Keeps.read fun held => ?_
  cases held with
  | true => exact Keeps.pure
  | false =>
    have hsends : ∀ s s', P s → (if contracts.admin token then .ok (s.broadcast (.grant role token))
        else .error (contracts.notAdmin token) : Except Thrown (State A)) = .ok s' → P s' := by
      intro s s' hs hsends
      split_ifs at hsends with hadmin
      cases hsends
      exact h s _ (.sendGrant s role tokenAddress token htoken hadmin) hs
    refine Keeps.bind (keeps_round_elapse h _) fun _ => ?_
    cases round.2.grantTo role with
    | none => exact Keeps.transact hsends
    | some lost => exact Keeps.bind (Keeps.modifies (Lost.leaves_keeps hsends)) fun _ => Keeps.throw

theorem keeps_whitelistERC20 (htoken : tokenOf contracts orgId round.1 = some (tokenAddress, token)) :
    Keeps P (whitelistERC20 contracts token round.2) :=
  Keeps.bind (keeps_ensureRole h htoken .operator) fun _ => keeps_ensureRole h htoken .minter

theorem keeps_caught {e : Thrown} : Keeps P (caught e : Script A Unit) := by
  have hskip : Keeps P (modify fun s => { s with skipped := s.skipped + 1 } : Script A Unit) :=
    Keeps.modifies fun s => h s _ (.count s _ _)
  unfold caught
  cases e.reason with
  | some reason =>
    dsimp only
    split_ifs
    · exact hskip
    · exact hskip
    · exact Keeps.throw
  | none =>
    dsimp only
    split_ifs
    · exact hskip
    · exact Keeps.pure
    · exact Keeps.throw

/-- What each change of a round keeps, the round keeps wherever it is stopped. -/
theorem keeps_migrateAsset : Keeps P (migrateAsset contracts orgId round) := by
  unfold migrateAsset
  cases htoken : tokenOf contracts orgId round.1 with
  | none => exact Keeps.pure
  | some found =>
    obtain ⟨tokenAddress, token⟩ := found
    have hwhitelist := keeps_whitelistERC20 h htoken
    refine Keeps.bind ?_ fun known => ?_
    · refine Keeps.catch_ (Keeps.bind (keeps_getAssetAddress h) fun foundAddress => ?_) fun e => ?_
      · split_ifs
        · exact Keeps.bind hwhitelist fun _ =>
            Keeps.bind (Keeps.modifies fun s => h s _ (.count s _ _)) fun _ => Keeps.pure
        · exact Keeps.pure
      · split_ifs
        · exact Keeps.pure
        · exact Keeps.throw
    · cases known with
      | true => exact Keeps.pure
      | false =>
        exact Keeps.catch_ (Keeps.bind (keeps_associateAsset h htoken) fun _ =>
          Keeps.bind hwhitelist fun _ => Keeps.modifies fun s => h s _ (.count s _ _)) fun e => keeps_caught h

end Keeping

/-! ### Calls that fail by themselves -/

/-- An error that is none of those the catches look for. -/
def Foreign (e : Thrown) : Prop :=
  includes e.text "Asset not found" = false ∧
    match e.reason with
    | some reason => includes reason "Asset already exists" = false
    | none => includes e.text "must have admin role to grant" = false

def Faults.Foreign (faults : Faults) : Prop :=
  (∀ e ∈ faults.getAssetAddress, Migration.Foreign e) ∧
  (∀ lost ∈ faults.associateAsset, Migration.Foreign lost.error) ∧
  ∀ role, (∀ e ∈ faults.hasRole role, Migration.Foreign e) ∧
    ∀ lost ∈ faults.grantTo role, Migration.Foreign lost.error

section Stopping

variable {contracts : Contracts A} {orgId : String}

omit [DecidableEq A] in
theorem stops_call {fault : Option Thrown} (h : ∀ e ∈ fault, Foreign e) :
    Stops Foreign (call fault : Script A Unit) (call none) := by
  intro s
  cases fault with
  | none => exact .inl rfl
  | some e => exact .inr ⟨e, s, rfl, h e rfl⟩

omit [DecidableEq A] in
theorem stops_throw {lost : Lost} {sends : State A → Except Thrown (State A)} {y : Script A Unit}
    (h : Foreign lost.error) :
    Stops Foreign (do modify (lost.leaves sends); throw lost.error : Script A Unit) y :=
  fun s => .inr ⟨lost.error, lost.leaves sends s, rfl, h⟩

theorem stops_whitelistERC20 {token : A} {faults : Faults} (h : faults.Foreign) :
    Stops Foreign (whitelistERC20 contracts token faults)
      (whitelistERC20 contracts token (.none faults.fates)) := by
  have hensure : ∀ role, Stops Foreign (ensureRole contracts token faults role)
      (ensureRole contracts token (.none faults.fates) role) := by
    intro role
    obtain ⟨hhas, hgrant⟩ := h.2.2 role
    refine Stops.bind (Stops.refl _) fun _ => Stops.bind (stops_call hhas) fun _ =>
      Stops.bind (Stops.refl _) fun held => ?_
    cases held with
    | true => exact Stops.refl _
    | false =>
      refine Stops.bind (Stops.refl _) fun _ => ?_
      cases hlost : faults.grantTo role with
      | none => exact Stops.refl _
      | some lost => exact stops_throw (hgrant lost hlost)
  exact Stops.bind (hensure .operator) fun _ => hensure .minter

theorem stops_associateAsset {assetId : String} {token : A} {faults : Faults} (h : faults.Foreign) :
    Stops Foreign (associateAsset contracts assetId token faults)
      (associateAsset contracts assetId token (.none faults.fates)) := by
  refine Stops.bind (Stops.refl _) fun _ => ?_
  cases hlost : faults.associateAsset with
  | none => exact Stops.refl _
  | some lost => exact stops_throw (h.2.1 lost hlost)

theorem stops_getAssetAddress {assetId : String} {faults : Faults} (h : faults.Foreign) :
    Stops Foreign (getAssetAddress contracts assetId faults)
      (getAssetAddress contracts assetId (.none faults.fates)) :=
  Stops.bind (Stops.refl _) fun _ => Stops.bind (stops_call h.1) fun _ => Stops.refl _

omit [DecidableEq A] in
theorem caught_foreign {e : Thrown} (h : Foreign e) : (caught e : Script A Unit) = throw e := by
  obtain ⟨htext, hreason⟩ := h
  unfold caught
  rw [htext, if_neg Bool.false_ne_true]
  cases he : e.reason with
  | some reason =>
    rw [he] at hreason
    dsimp only at hreason ⊢
    rw [hreason, if_neg Bool.false_ne_true]
  | none =>
    rw [he] at hreason
    dsimp only at hreason ⊢
    rw [hreason, if_neg Bool.false_ne_true]

/-- A round in which calls fail by themselves goes as it would without, or is stopped. -/
theorem stops_migrateAsset {round : Asset × Faults} (h : round.2.Foreign) :
    Stops Foreign (migrateAsset contracts orgId round)
      (migrateAsset contracts orgId (round.1, .none round.2.fates)) := by
  unfold migrateAsset
  cases tokenOf contracts orgId round.1 with
  | none => exact Stops.refl _
  | some found =>
    obtain ⟨tokenAddress, token⟩ := found
    refine Stops.bind ?_ fun known => ?_
    · refine Stops.catch_ (Stops.bind ?_ fun foundAddress => ?_) fun e he => ?_
      · exact stops_getAssetAddress h
      · split_ifs
        · exact Stops.bind (stops_whitelistERC20 h) fun _ => Stops.refl _
        · exact Stops.refl _
      · rw [he.1, if_neg Bool.false_ne_true]
    · cases known with
      | true => exact Stops.refl _
      | false =>
        exact Stops.catch_ (Stops.bind (stops_associateAsset h) fun _ =>
          Stops.bind (stops_whitelistERC20 h) fun _ => Stops.refl _) fun e he => caught_foreign he

end Stopping

/-! ### Rounds in which no call fails by itself -/

/-- The operator has both roles on the token. -/
def Ledger.Granted (ledger : Ledger A) (token : A) : Prop := ∀ role, ledger.holds role token = true

instance {ledger : Ledger A} {token : A} : Decidable (ledger.Granted token) :=
  decidable_of_iff (ledger.holds .operator token = true ∧ ledger.holds .minter token = true)
    ⟨fun h role => by cases role; exacts [h.1, h.2], fun h => ⟨h .operator, h .minter⟩⟩

/-- The operator has the role, or a grant of it that is numbered from `n` on is in flight. -/
def State.Promised (s : State A) (n : ℕ) (role : Role) (token : A) : Prop :=
  s.holds role token = true ∨ ∃ k, n ≤ k ∧ k < s.sent ∧ s.inFlight k = some (.grant role token)

/-- No association is in flight. -/
def State.GrantsOnly (s : State A) : Prop :=
  ∀ n assetId token, s.inFlight n ≠ some (.associate assetId token)

/-- None of the transactions numbered from `n` on is lost. -/
def Spares (n : ℕ) (fates : List Fate) : Prop := ∀ k, .lost k ∈ fates → k < n

def Faults.Spares (n : ℕ) (faults : Faults) : Prop := ∀ call, Migration.Spares n (faults.fates call)

/-- What no run undoes. -/
structure Kept (s s' : State A) : Prop where
  associated : ∀ assetId token, s.associated assetId = some token → s'.associated assetId = some token
  holds : ∀ role token, s.holds role token = true → s'.holds role token = true

section Kept

variable {contracts : Contracts A} {orgId : String} {s s' : State A} {round : Asset × Faults}

omit [DecidableEq A] in
theorem Kept.refl (s : State A) : Kept s s := ⟨fun _ _ h => h, fun _ _ h => h⟩

omit [DecidableEq A] in
theorem Kept.trans {u : State A} (h : Kept s s') (h' : Kept s' u) : Kept s u :=
  ⟨fun assetId token hknown => h'.associated _ _ (h.associated assetId token hknown),
    fun role token hheld => h'.holds _ _ (h.holds role token hheld)⟩

omit [DecidableEq A] in
theorem Kept.granted {token : A} (h : Kept s s') (hgranted : s.Granted token) : s'.Granted token :=
  fun role => h.holds role token (hgranted role)

omit [DecidableEq A] in
theorem kept_associate {assetId : String} (token : A) (hunknown : s.associated assetId = none) :
    Kept s (s.associate assetId token) := by
  refine ⟨fun id known hknown => ?_, fun _ _ h => h⟩
  have hne : id ≠ assetId := by
    rintro rfl
    rw [hknown] at hunknown
    cases hunknown
  exact (Function.update_of_ne hne _ _).trans hknown

theorem kept_grant (s : State A) (role : Role) (token : A) : Kept s (s.grant role token) :=
  ⟨fun _ _ h => h, fun r t hheld => by rw [holds_grant, hheld, Bool.true_or]⟩

theorem kept_settle (s : State A) (fate : Fate) : Kept s (s.settle fate) := by
  have hlanded : Kept s (s.landed fate.number) := ⟨fun _ _ h => h, fun _ _ h => h⟩
  rcases settle_cases s fate with h | ⟨assetId, token, -, hunknown, h⟩ | ⟨role, token, -, h⟩
  · rw [h]
    exact hlanded
  · rw [h]
    exact hlanded.trans (kept_associate token hunknown)
  · rw [h]
    exact hlanded.trans (kept_grant _ role token)

theorem kept_settles (s : State A) (fates : List Fate) : Kept s (s.settles fates) :=
  settles_keeps (fun fate _ u hu => hu.trans (kept_settle u fate)) (Kept.refl s)

theorem kept_change (hchange : Change contracts orgId round s s') : Kept s s' := by
  cases hchange with
  | count => exact ⟨fun _ _ h => h, fun _ _ h => h⟩
  | settle fate => exact kept_settle s fate
  | associate _ token _ hunknown => exact kept_associate token hunknown
  | sendAssociation => exact ⟨fun _ _ h => h, fun _ _ h => h⟩
  | sendGrant => exact ⟨fun _ _ h => h, fun _ _ h => h⟩

end Kept

section Fates

variable {contracts : Contracts A} {orgId : String} {token : A} {s s' : State A} {n : ℕ} {role : Role}
  {round : Asset × Faults}

omit [DecidableEq A] in
theorem State.Promised.mono {m : ℕ} (h : s.Promised m role token) (hle : n ≤ m) : s.Promised n role token :=
  h.imp_right fun ⟨k, hk, hsent, hflight⟩ => ⟨k, hle.trans hk, hsent, hflight⟩

/-- A promise is kept by every fate but the loss of a grant. -/
theorem promised_settle {fate : Fate} (hspared : ∀ k, fate = .lost k → k < n) (h : s.Promised n role token) :
    (s.settle fate).Promised n role token := by
  rcases h with hheld | ⟨k, hk, hsent, hflight⟩
  · left
    rcases settle_cases s fate with hs | ⟨_, _, -, -, hs⟩ | ⟨r, t, -, hs⟩
    · rw [hs]
      exact hheld
    · rw [hs]
      exact hheld
    · rw [hs, holds_grant]
      exact Bool.or_eq_true_iff.mpr (.inl hheld)
  · by_cases hnumber : fate.number = k
    · left
      cases fate with
      | lost m =>
        obtain rfl : m = k := hnumber
        exact absurd (hspared m rfl) (Nat.not_lt.mpr hk)
      | mined m =>
        obtain rfl : m = k := hnumber
        rw [settle_mined hflight]
        simp [State.mine]
    · right
      refine ⟨k, hk, by rwa [settle_sent], ?_⟩
      rw [settle_inFlight, Function.update_of_ne (Ne.symm hnumber), hflight]

theorem promised_settles {fates : List Fate} (hspared : Spares n fates) (h : s.Promised n role token) :
    (s.settles fates).Promised n role token :=
  settles_keeps (P := fun s => s.Promised n role token)
    (fun _ hfate _ hs => promised_settle (fun k hk => hspared k (hk ▸ hfate)) hs) h

/-- Nothing that a round does breaks a promise, if it loses no grant. -/
theorem promised_change (hspared : round.2.Spares n) (hchange : Change contracts orgId round s s')
    (h : s.Promised n role token) : s'.Promised n role token := by
  have hbroadcast : ∀ transaction, (s.broadcast transaction).Promised n role token := by
    intro transaction
    refine h.imp_right fun ⟨k, hk, hsent, hflight⟩ => ⟨k, hk, Nat.lt_succ_of_lt hsent, ?_⟩
    exact (Function.update_of_ne (Nat.ne_of_lt hsent) _ _).trans hflight
  cases hchange with
  | count => exact h
  | settle fate call hfate => exact promised_settle (fun k hk => hspared call k (hk ▸ hfate)) h
  | associate => exact h
  | sendAssociation => exact hbroadcast _
  | sendGrant => exact hbroadcast _

theorem sent_change (hchange : Change contracts orgId round s s') (h : n ≤ s.sent) : n ≤ s'.sent := by
  cases hchange with
  | count => exact h
  | settle => rwa [settle_sent]
  | associate => exact h
  | sendAssociation => exact Nat.le_succ_of_le h
  | sendGrant => exact Nat.le_succ_of_le h

theorem grantsOnly_settle (h : s.GrantsOnly) (fate : Fate) :
    (s.settle fate).GrantsOnly ∧ (s.settle fate).associated = s.associated := by
  refine ⟨fun k assetId t hflight => ?_, ?_⟩
  · rw [settle_inFlight, Function.update_apply] at hflight
    split_ifs at hflight
    exact h k assetId t hflight
  · rcases settle_cases s fate with hs | ⟨assetId, t, hflight, -, -⟩ | ⟨_, _, -, hs⟩
    · rw [hs]
      rfl
    · exact absurd hflight (h _ assetId t)
    · rw [hs]
      rfl

/-- While no association is in flight, time passes over what is associated. -/
theorem grantsOnly_settles (h : s.GrantsOnly) (fates : List Fate) :
    (s.settles fates).GrantsOnly ∧ (s.settles fates).associated = s.associated :=
  settles_keeps (P := fun u => u.GrantsOnly ∧ u.associated = s.associated) (fun fate _ _ hu =>
    (grantsOnly_settle hu.1 fate).imp_right fun hsame => hsame.trans hu.2) ⟨h, rfl⟩

/-- A round whose call for the association does not fail leaves none in flight. -/
theorem grantsOnly_change (hcall : round.2.associateAsset = none) (hchange : Change contracts orgId round s s')
    (h : s.GrantsOnly) : s'.GrantsOnly := by
  cases hchange with
  | count => exact h
  | settle fate => exact (grantsOnly_settle h fate).1
  | associate => exact h
  | sendAssociation _ _ _ hlost => exact absurd hcall hlost
  | sendGrant role tokenAddress token =>
    intro k assetId t hflight
    unfold State.broadcast at hflight
    dsimp only at hflight
    rw [Function.update_apply] at hflight
    split_ifs at hflight
    · cases hflight
    · exact h k assetId t hflight

end Fates

section Clean

variable {contracts : Contracts A} {orgId assetId tokenAddress : String} {token : A} {s : State A}
  {asset : Asset} {fates : Call → List Fate}

omit [DecidableEq A] in
theorem promised_of_broadcast {role : Role} {n : ℕ} (h : n ≤ s.sent) :
    (s.broadcast (.grant role token)).Promised n role token :=
  .inr ⟨s.sent, h, Nat.lt_succ_self _, Function.update_self _ _ _⟩

theorem settles_sent (s : State A) (fates : List Fate) : (s.settles fates).sent = s.sent :=
  settles_keeps (P := fun u => u.sent = s.sent) (fun _ _ _ hu => (settle_sent _ _).trans hu) rfl

/-- A role that is held when the round comes to it, or that the signer may grant, is promised. -/
theorem ensureRole_cases (contracts : Contracts A) (token : A) (fates : Call → List Fate) (role : Role)
    (s : State A) :
    (∃ s', exec (ensureRole contracts token (.none fates) role) s = (.ok (), s') ∧
      s'.Promised s.sent role token) ∨
    (contracts.admin token = false ∧ s.holds role token = false ∧
      ∃ s', exec (ensureRole contracts token (.none fates) role) s = (.error (contracts.notAdmin token), s')) := by
  let u := s.settles (fates (.hasRole role))
  let v := u.settles (fates (.grantTo role))
  have hread : exec ((·.holds role token) <$> get : Script A Bool) u = (.ok (u.holds role token), u) := rfl
  have hbefore : exec (ensureRole contracts token (.none fates) role) s =
      exec (if !u.holds role token then grantTo contracts role token (.none fates) else pure ()) u :=
    (exec_bind_ok rfl).trans ((exec_bind_ok rfl).trans (exec_bind_ok hread))
  cases hheld : u.holds role token with
  | true =>
    rw [hheld] at hbefore
    exact .inl ⟨u, hbefore, .inl hheld⟩
  | false =>
    rw [hheld] at hbefore
    cases hadmin : contracts.admin token with
    | true =>
      have hsent : s.sent ≤ v.sent := by rw [settles_sent, settles_sent]
      refine .inl ⟨v.broadcast (.grant role token), hbefore.trans ((exec_bind_ok rfl).trans ?_),
        promised_of_broadcast hsent⟩
      exact transact_ok (if_pos hadmin)
    | false =>
      refine .inr ⟨rfl, ?_, v, hbefore.trans ((exec_bind_ok rfl).trans ?_)⟩
      · by_contra hs
        rw [Bool.not_eq_false] at hs
        have hu := (kept_settles s (fates (.hasRole role))).holds role token hs
        exact absurd (hu.symm.trans hheld) (by simp)
      · exact transact_error (if_neg (by simp [hadmin]))

/-- The roles end up promised, or the signer may not grant them and one was missing. -/
theorem whitelistERC20_cases (htoken : tokenOf contracts orgId asset = some (tokenAddress, token))
    (fates : Call → List Fate) (s : State A) :
    (∃ s', exec (whitelistERC20 contracts token (.none fates)) s = (.ok (), s') ∧
      ∀ n ≤ s.sent, (Faults.none fates).Spares n → ∀ role, s'.Promised n role token) ∨
    (contracts.admin token = false ∧ ¬ s.Granted token ∧
      ∃ s', exec (whitelistERC20 contracts token (.none fates)) s = (.error (contracts.notAdmin token), s')) := by
  let round := (asset, Faults.none fates)
  have hkept : Kept s (exec (ensureRole contracts token (.none fates) .operator) s).2 := by
    have hround : ∀ v w, Change contracts orgId round v w → Kept s v → Kept s w :=
      fun _ _ hchange hv => hv.trans (kept_change hchange)
    exact keeps_ensureRole hround htoken .operator s (Kept.refl s)
  have hsent : s.sent ≤ (exec (ensureRole contracts token (.none fates) .operator) s).2.sent := by
    have hround : ∀ v w, Change contracts orgId round v w → s.sent ≤ v.sent → s.sent ≤ w.sent :=
      fun _ _ => sent_change
    exact keeps_ensureRole hround htoken .operator s le_rfl
  rcases ensureRole_cases contracts token fates .operator s with ⟨u, hfirst, hoperator⟩ | ⟨hadmin, hheld, u, hfirst⟩
  · rw [hfirst] at hkept hsent
    rcases ensureRole_cases contracts token fates .minter u with ⟨v, hsecond, hminter⟩ | ⟨hadmin, hheld, v, hsecond⟩
    · refine .inl ⟨v, (exec_bind_ok hfirst).trans hsecond, fun n hn hspares role => ?_⟩
      cases role with
      | minter => exact hminter.mono (hn.trans hsent)
      | operator =>
        have hround : ∀ v w, Change contracts orgId round v w →
            v.Promised n .operator token → w.Promised n .operator token :=
          fun _ _ => promised_change hspares
        have hkeeps := keeps_ensureRole hround htoken .minter u (hoperator.mono hn)
        rw [hsecond] at hkeeps
        exact hkeeps
    · refine .inr ⟨hadmin, fun hgranted => ?_, v, (exec_bind_ok hfirst).trans hsecond⟩
      exact absurd ((hkept.holds .minter token (hgranted .minter)).symm.trans hheld) (by simp)
  · refine .inr ⟨hadmin, fun hgranted => ?_, u, exec_bind_error hfirst⟩
    exact absurd ((hgranted .operator).symm.trans hheld) (by simp)

/-- The asset is not known to the contract with the text of its token's address. -/
def Elsewhere (contracts : Contracts A) (s : State A) (assetId tokenAddress : String) : Prop :=
  ∀ known, s.associated assetId = some known → contracts.checksum known ≠ tokenAddress

/-- The state in which `getAssetAddress` is answered. -/
abbrev State.looked (s : State A) (faults : Faults) : State A := s.settles (faults.fates .getAssetAddress)

theorem getAssetAddress_known {faults : Faults} {known : A} (hcall : faults.getAssetAddress = none)
    (hgrants : s.GrantsOnly) (h : s.associated assetId = some known) :
    exec (getAssetAddress contracts assetId faults) s = (.ok (contracts.checksum known), s.looked faults) := by
  have hsame : (s.looked faults).associated assetId = some known := by
    rw [(grantsOnly_settles hgrants _).2, h]
  have hread : exec ((·.associated assetId) <$> get : Script A (Option A)) (s.looked faults) =
      (.ok (some known), s.looked faults) := by
    rw [← hsame]
    rfl
  unfold getAssetAddress
  rw [hcall]
  exact (exec_bind_ok rfl).trans ((exec_bind_ok rfl).trans (exec_bind_ok hread))

theorem getAssetAddress_unknown {faults : Faults} (hcall : faults.getAssetAddress = none)
    (hgrants : s.GrantsOnly) (h : s.associated assetId = none) :
    exec (getAssetAddress contracts assetId faults) s =
      (.error (contracts.notFound assetId), s.looked faults) := by
  have hsame : (s.looked faults).associated assetId = none := by
    rw [(grantsOnly_settles hgrants _).2, h]
  have hread : exec ((·.associated assetId) <$> get : Script A (Option A)) (s.looked faults) =
      (.ok none, s.looked faults) := by
    rw [← hsame]
    rfl
  unfold getAssetAddress
  rw [hcall]
  exact (exec_bind_ok rfl).trans ((exec_bind_ok rfl).trans (exec_bind_ok hread))

theorem alreadyAssociated_elsewhere {faults : Faults} (hcall : faults.getAssetAddress = none)
    (hgrants : s.GrantsOnly) (h : Elsewhere contracts s assetId tokenAddress) :
    exec (alreadyAssociated contracts assetId tokenAddress token faults) s = (.ok false, s.looked faults) := by
  unfold alreadyAssociated
  cases hassociated : s.associated assetId with
  | none =>
    refine (exec_catch_error (exec_bind_error (getAssetAddress_unknown hcall hgrants hassociated))).trans ?_
    rw [if_pos (contracts.notFound_text assetId), exec_pure]
  | some known =>
    refine exec_catch_ok ((exec_bind_ok (getAssetAddress_known hcall hgrants hassociated)).trans ?_)
    rw [if_neg (h known hassociated), exec_pure]

theorem alreadyAssociated_cases (htoken : tokenOf contracts orgId asset = some (contracts.checksum token, token))
    (fates : Call → List Fate) (hgrants : s.GrantsOnly) (h : s.associated asset.id = some token) :
    (∃ s', exec (alreadyAssociated contracts asset.id (contracts.checksum token) token (.none fates)) s =
        (.ok true, s') ∧
      ∀ n ≤ s.sent, (Faults.none fates).Spares n → ∀ role, s'.Promised n role token) ∨
    (contracts.admin token = false ∧ ¬ s.Granted token ∧
      ∃ s', exec (alreadyAssociated contracts asset.id (contracts.checksum token) token (.none fates)) s =
        (.error (contracts.notAdmin token), s')) := by
  have hfound : exec (getAssetAddress contracts asset.id (.none fates)) s =
      (.ok (contracts.checksum token), s.looked (.none fates)) := getAssetAddress_known rfl hgrants h
  rcases whitelistERC20_cases htoken fates (s.looked (.none fates)) with
    ⟨u, hexec, hpromised⟩ | ⟨hadmin, hlacks, u, hexec⟩
  · refine .inl ⟨{ u with skipped := u.skipped + 1 }, exec_catch_ok ((exec_bind_ok hfound).trans ?_),
      fun n hn hspares role => hpromised n (hn.trans_eq (settles_sent _ _).symm) hspares role⟩
    rw [if_pos rfl, exec_bind_ok hexec]
    rfl
  · refine .inr ⟨hadmin, fun hgranted => hlacks ((kept_settles s _).granted hgranted), u, ?_⟩
    refine (exec_catch_error (e := contracts.notAdmin token) (t := u) ((exec_bind_ok hfound).trans ?_)).trans ?_
    · rw [if_pos rfl, exec_bind_error hexec]
    · rw [(contracts.notAdmin_text token).2, if_neg Bool.false_ne_true, exec_throw]

/-- An asset the contract knows is skipped by the second `try`. -/
theorem migrate_known {faults : Faults} {known : A} (hcall : faults.associateAsset = none)
    (hgrants : s.GrantsOnly) (h : s.associated assetId = some known) :
    exec (migrate contracts assetId token faults) s =
      (.ok (), { s.settles (faults.fates .associateAsset) with
        skipped := (s.settles (faults.fates .associateAsset)).skipped + 1 }) := by
  have hsame : (s.settles (faults.fates .associateAsset)).associated assetId = some known := by
    rw [(grantsOnly_settles hgrants _).2, h]
  have hrefused : exec (associateAsset contracts assetId token faults) s =
      (.error (contracts.alreadyExists assetId), s.settles (faults.fates .associateAsset)) := by
    unfold associateAsset
    rw [hcall]
    exact (exec_bind_ok rfl).trans (transact_error (if_pos (by simp [hsame])))
  obtain ⟨reason, hreason, hincludes⟩ := contracts.alreadyExists_reason assetId
  refine (exec_catch_error (exec_bind_error hrefused)).trans ?_
  unfold caught
  rw [contracts.alreadyExists_text, if_neg Bool.false_ne_true, hreason]
  dsimp only
  rw [if_pos hincludes, exec_modify]

/-- The state in which the association is mined. -/
abbrev State.taken (s : State A) (faults : Faults) (assetId : String) (token : A) : State A :=
  (s.settles (faults.fates .associateAsset)).associate assetId token

theorem associateAsset_unknown (contracts : Contracts A) (token : A) {faults : Faults}
    (hcall : faults.associateAsset = none) (hgrants : s.GrantsOnly) (h : s.associated assetId = none) :
    exec (associateAsset contracts assetId token faults) s = (.ok (), s.taken faults assetId token) := by
  have hsame : (s.settles (faults.fates .associateAsset)).associated assetId = none := by
    rw [(grantsOnly_settles hgrants _).2, h]
  unfold associateAsset
  rw [hcall]
  exact (exec_bind_ok rfl).trans (transact_ok (if_neg (by simp [hsame])))

/-- An unknown asset is associated, and its roles are promised by a signer who may grant them. -/
theorem migrate_unknown (htoken : tokenOf contracts orgId asset = some (tokenAddress, token))
    (fates : Call → List Fate) (hgrants : s.GrantsOnly) (h : s.associated asset.id = none) :
    ∃ s', exec (migrate contracts asset.id token (.none fates)) s = (.ok (), s') ∧
      s'.associated asset.id = some token ∧
      (contracts.admin token = true → ∀ n ≤ s.sent, (Faults.none fates).Spares n →
        ∀ role, s'.Promised n role token) := by
  let u := s.taken (.none fates) asset.id token
  have hassociate : exec (associateAsset contracts asset.id token (.none fates)) s = (.ok (), u) :=
    associateAsset_unknown contracts token rfl hgrants h
  have hassociated : u.associated asset.id = some token := Function.update_self _ _ _
  have hsent : u.sent = s.sent := settles_sent s _
  have hkept : Kept u (exec (whitelistERC20 contracts token (.none fates)) u).2 := by
    have hround : ∀ v w, Change contracts orgId (asset, Faults.none fates) v w → Kept u v → Kept u w :=
      fun _ _ hchange hv => hv.trans (kept_change hchange)
    exact keeps_whitelistERC20 hround htoken u (Kept.refl u)
  rcases whitelistERC20_cases htoken fates u with ⟨v, hexec, hpromised⟩ | ⟨hadmin, -, v, hexec⟩
  · rw [hexec] at hkept
    refine ⟨{ v with migrated := v.migrated + 1 },
      exec_catch_ok ((exec_bind_ok hassociate).trans (exec_bind_ok hexec)),
      hkept.associated _ _ hassociated, fun _ n hn hspares role => ?_⟩
    exact hpromised n (hn.trans_eq hsent.symm) hspares role
  · rw [hexec] at hkept
    refine ⟨v, ?_, hkept.associated _ _ hassociated, fun h => absurd (h.symm.trans hadmin) (by simp)⟩
    refine (exec_catch_error ((exec_bind_ok hassociate).trans (exec_bind_error hexec))).trans ?_
    obtain ⟨hrefused, hfound⟩ := contracts.notAdmin_text token
    unfold caught
    rw [hfound, if_neg Bool.false_ne_true, contracts.notAdmin_reason]
    dsimp only
    rw [if_pos hrefused, exec_pure]

theorem migrateAsset_none {faults : Faults} (h : tokenOf contracts orgId asset = none) :
    exec (migrateAsset contracts orgId (asset, faults)) s = (.ok (), s) := by
  unfold migrateAsset
  rw [h]
  rfl

theorem migrateAsset_elsewhere {faults : Faults} (h : tokenOf contracts orgId asset = some (tokenAddress, token))
    (hcall : faults.getAssetAddress = none) (hgrants : s.GrantsOnly)
    (helsewhere : Elsewhere contracts s asset.id tokenAddress) :
    exec (migrateAsset contracts orgId (asset, faults)) s =
      exec (migrate contracts asset.id token faults) (s.looked faults) := by
  unfold migrateAsset
  rw [h]
  exact exec_bind_ok (alreadyAssociated_elsewhere hcall hgrants helsewhere)

/-- The round of an asset that is known with the text of its token's address: the roles end up promised,
or it throws, as the first `try` does not catch the refusal to grant them. -/
theorem migrateAsset_cases (h : tokenOf contracts orgId asset = some (contracts.checksum token, token))
    (fates : Call → List Fate) (hgrants : s.GrantsOnly) (hknown : s.associated asset.id = some token) :
    (∃ s', exec (migrateAsset contracts orgId (asset, .none fates)) s = (.ok (), s') ∧
      ∀ n ≤ s.sent, (Faults.none fates).Spares n → ∀ role, s'.Promised n role token) ∨
    (contracts.admin token = false ∧ ¬ s.Granted token ∧
      ∃ s', exec (migrateAsset contracts orgId (asset, .none fates)) s =
        (.error (contracts.notAdmin token), s')) := by
  unfold migrateAsset
  rw [h]
  rcases alreadyAssociated_cases h fates hgrants hknown with ⟨u, hexec, hpromised⟩ | ⟨hadmin, hlacks, u, hexec⟩
  · exact .inl ⟨u, exec_bind_ok hexec, hpromised⟩
  · exact .inr ⟨hadmin, hlacks, u, exec_bind_error hexec⟩

end Clean

end FinP2PAdapter.Scripts.Migration
