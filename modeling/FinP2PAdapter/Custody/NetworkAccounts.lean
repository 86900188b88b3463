import FinP2PAdapter.Accounts.AccountResolver
import FinP2PAdapter.Library.Machine
import FinP2PAdapter.Skeleton.Address

/-! Onboarding in the custody modes. A `createAccount` call runs in stages that
any number of other calls may interleave: it resolves a custody account id to a
wallet address, inserts the binding atomically, activates the recorded wallet
where wallets need it, and mirrors the binding into the account mapping. The
network-account store answers a repeat of an earlier request with the row it
already holds. -/

namespace FinP2PAdapter.Custody

open Accounts

/-- The parts of a custody provider that onboarding and signing use. Only
`resolveWallet` is there for every provider. -/
structure CustodyProvider (W : Type) where
  resolveWallet : String → Except ServiceError (Option W)
  createWalletForCustodyId : Option (String → Except ServiceError W)
  resolveAddressFromCustodyId : Option (String → String)

abbrev NetworkAccount := LedgerAccount

structure BindInfo where
  account : NetworkAccount
  deriving DecidableEq, Repr

structure CreateRequest where
  idempotencyKey : String
  organizationId : String
  assetId : String
  finId : String
  bindInfo : Option BindInfo
  deriving DecidableEq, Repr

/-- A row of the network-account store. -/
structure Row where
  idempotencyKey : String
  organizationId : String
  assetId : String
  finId : String
  account : NetworkAccount
  deriving DecidableEq, Repr

/-- A deployment: its custody provider if any, which rows the store takes an
insert to repeat, whether wallets are activated, and whether saving a mapping
keeps the stored fields it does not give. -/
structure Onboarding (W : Type) where
  custodyProvider : Option (CustodyProvider W)
  replays : CreateRequest → Row → Bool
  activatesWallets : Bool
  keepsFields : Bool

def Onboarding.resolveAddress {W : Type} (cfg : Onboarding W) : Option (String → String) :=
  cfg.custodyProvider.bind (·.resolveAddressFromCustodyId)

/-! ### The stages of one call -/

inductive Stage where
  | resolving (custodyAccountId : String)
  | inserting (effectiveBind : Option BindInfo) (custodyAccountId : Option String)
  | activating (effectiveBind : Option BindInfo) (custodyAccountId : Option String) (address : String)
  | saving (effectiveBind : Option BindInfo) (custodyAccountId : Option String) (address : String)
  | returned (account : NetworkAccount)
  | failed (message : String)
  | thrown (message : String)
  deriving DecidableEq, Repr

structure Call where
  request : CreateRequest
  stage : Stage
  deriving DecidableEq, Repr

/-- The custody account id a bind carries: a vault id, or a wallet address that
is no EVM address. -/
def custodyAccountIdOf : Option BindInfo → Option String
  | some ⟨.custodialAccount _ vaultAccountId⟩ => some vaultAccountId
  | some ⟨.walletAccount address⟩ => if isEthAddress address then none else some address
  | _ => none

/-- Up to the first await: an id that no provider can resolve is rejected. -/
def createAccount {W : Type} (cfg : Onboarding W) (bindInfo : Option BindInfo) : Stage :=
  match custodyAccountIdOf bindInfo with
  | none => .inserting bindInfo none
  | some custodyAccountId =>
    if cfg.resolveAddress.isSome then .resolving custodyAccountId
    else .thrown
      s!"'{custodyAccountId}' is not an EVM address and the custody provider cannot resolve custody account ids"

/-- The store's atomic insert: the row of an earlier request it repeats, or the
effective bind as a new row. -/
def storeInsert (replays : CreateRequest → Row → Bool) (rows : List Row) (request : CreateRequest)
    (effectiveBind : Option BindInfo) : Option (Row × List Row) :=
  match rows.find? (replays request) with
  | some row => some (row, rows)
  | none => effectiveBind.map fun bind =>
    let row := ⟨request.idempotencyKey, request.organizationId, request.assetId, request.finId,
      bind.account⟩
    (row, rows ++ [row])

/-- After a successful insert: a wallet goes on to be activated and mirrored. -/
def afterInsert {W : Type} (cfg : Onboarding W) (effectiveBind : Option BindInfo)
    (custodyAccountId : Option String) : NetworkAccount → Stage
  | .walletAccount address =>
    if cfg.activatesWallets then .activating effectiveBind custodyAccountId address
    else .saving effectiveBind custodyAccountId address
  | account => .returned account

/-- `saveAccount`: the mapping service lowers the address, and the store sets
the given fields of the investor's mapping. -/
def saveAccount (keepsFields : Bool) (stored : Option AccountFields) (fields : AccountFields) :
    AccountFields :=
  let fields := { fields with ledgerAccountId := fields.ledgerAccountId.map String.toLower }
  match keepsFields, stored with
  | true, some old =>
    ⟨fields.ledgerAccountId.or old.ledgerAccountId, fields.custodyAccountId.or old.custodyAccountId⟩
  | _, _ => fields

/-! ### Any number of calls -/

/-- `saved` lists the calls that have written the mapping. -/
structure State where
  rows : List Row
  mappings : AccountMappings
  calls : ℕ → Option Call
  saved : List ℕ

def init (rows : List Row) : State := ⟨rows, fun _ => none, fun _ => none, []⟩

/-- How the base class ends: it throws, answers a failure, or inserts. -/
inductive InsertOutcome where
  | throws (message : String)
  | fails (message : String)
  | inserts
  deriving DecidableEq, Repr

/-- The events of a run; a rejected await carries its message. -/
inductive Action where
  | createAccount (id : ℕ) (request : CreateRequest)
  | addressResolved (id : ℕ) (rejection : Option String)
  | inserted (id : ℕ) (outcome : InsertOutcome)
  | activated (id : ℕ) (rejection : Option String)
  | mappingSaved (id : ℕ) (rejection : Option String)
  deriving DecidableEq, Repr

def State.moveTo (s : State) (id : ℕ) (request : CreateRequest) (stage : Stage) : State :=
  { s with calls := Function.update s.calls id (some ⟨request, stage⟩) }

def resolveCustodyAddress {W : Type} (cfg : Onboarding W) (custodyAccountId : String)
    (rejection : Option String) : Option Stage :=
  match rejection with
  | some message =>
    some (.thrown s!"cannot resolve custody account '{custodyAccountId}' to a wallet address: {message}")
  | none => cfg.resolveAddress.map fun resolve =>
    .inserting (some ⟨.walletAccount (resolve custodyAccountId)⟩) (some custodyAccountId)

def step {W : Type} (cfg : Onboarding W) (s : State) : Action → Option State
  | .createAccount id request =>
    match s.calls id with
    | none => some (s.moveTo id request (createAccount cfg request.bindInfo))
    | some _ => none
  | .addressResolved id rejection =>
    match s.calls id with
    | some ⟨request, .resolving custodyAccountId⟩ =>
      (resolveCustodyAddress cfg custodyAccountId rejection).map (s.moveTo id request)
    | _ => none
  | .inserted id outcome =>
    match s.calls id with
    | some ⟨request, .inserting effectiveBind custodyAccountId⟩ =>
      match outcome with
      | .throws message => some (s.moveTo id request (.thrown message))
      | .fails message => some (s.moveTo id request (.failed message))
      | .inserts => (storeInsert cfg.replays s.rows request effectiveBind).map fun (row, rows) =>
        { s with rows := rows }.moveTo id request
          (afterInsert cfg effectiveBind custodyAccountId row.account)
    | _ => none
  | .activated id rejection =>
    match s.calls id with
    | some ⟨request, .activating effectiveBind custodyAccountId address⟩ =>
      match rejection with
      | none => some (s.moveTo id request (.saving effectiveBind custodyAccountId address))
      | some message =>
        let finId := request.finId
        some (s.moveTo id request (.failed
          s!"activating investor {finId} ({address}) failed: {message}"))
    | _ => none
  | .mappingSaved id rejection =>
    match s.calls id with
    | some ⟨request, .saving _ custodyAccountId address⟩ =>
      match rejection with
      | some message => some (s.moveTo id request (.thrown message))
      | none =>
        let fields := saveAccount cfg.keepsFields (s.mappings request.finId)
          ⟨some address, truthy custodyAccountId⟩
        some { s.moveTo id request (.returned (.walletAccount address)) with
          mappings := Function.update s.mappings request.finId (some fields)
          saved := id :: s.saved }
    | _ => none

end FinP2PAdapter.Custody
