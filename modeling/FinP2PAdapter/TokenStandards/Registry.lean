import FinP2PAdapter.Library.JsMap
import FinP2PAdapter.Omnibus.InboundVerification
import FinP2PAdapter.Operations.OperationContext

/-! Token standards as the services see them: the registry that finds one by its
name, whatever the case, and the calls that move tokens. What a standard does with a
call is its own affair. -/

namespace FinP2PAdapter.TokenStandards

open Omnibus (AssetRecord)
open Operations (OperationContext)

/-- Where a standard's `hold` leaves the held tokens. -/
inductive HoldModel where
  | escrowTransfer | holderReservation
  deriving DecidableEq, Repr

structure Entry (T : Type) where
  impl : T
  holdModel : HoldModel

/-- The registered standards, by what `toUpperCase` makes of their names. -/
structure TokenStandardRegistry (T : Type) where
  toUpperCase : String → String
  standards : JsMap String (Entry T)

namespace TokenStandardRegistry

variable {T : Type}

def register (registry : TokenStandardRegistry T) (tokenStandard : String) (impl : T)
    (holdModel : HoldModel := .escrowTransfer) : Except ServiceError (TokenStandardRegistry T) :=
  let key := registry.toUpperCase tokenStandard
  if registry.standards.has key then
    .error (.error s!"Token standard '{tokenStandard}' is already registered")
  else .ok { registry with standards := registry.standards.set key ⟨impl, holdModel⟩ }

def availableStandards (registry : TokenStandardRegistry T) : List String :=
  registry.standards.entries.map Prod.fst

def entry (registry : TokenStandardRegistry T) (tokenStandard : String) :
    Except ServiceError (Entry T) :=
  match registry.standards.get? (registry.toUpperCase tokenStandard) with
  | none =>
    let available := ", ".intercalate (availableStandards registry)
    .error (.error s!"Unknown token standard: '{tokenStandard}'. Available: {available}")
  | some entry => .ok entry

def resolve (registry : TokenStandardRegistry T) (tokenStandard : String) : Except ServiceError T :=
  (entry registry tokenStandard).map Entry.impl

def holdModel (registry : TokenStandardRegistry T) (tokenStandard : String) :
    Except ServiceError HoldModel :=
  (entry registry tokenStandard).map Entry.holdModel

def has (registry : TokenStandardRegistry T) (tokenStandard : String) : Bool :=
  registry.standards.has (registry.toUpperCase tokenStandard)

theorem has_eq_true {registry : TokenStandardRegistry T} {tokenStandard : String} :
    has registry tokenStandard = true ↔ ∃ impl, resolve registry tokenStandard = .ok impl := by
  unfold has resolve entry JsMap.has
  cases registry.standards.get? (registry.toUpperCase tokenStandard) with
  | none => simp [Except.map]
  | some e => simp [Except.map]

theorem holdModel_of_entry {registry : TokenStandardRegistry T} {tokenStandard : String} {e : Entry T}
    (h : entry registry tokenStandard = .ok e) :
    holdModel registry tokenStandard = .ok e.holdModel := by
  rw [holdModel, h]
  rfl

/-- Registering a name makes it known in every case. -/
theorem entry_register {registry registry' : TokenStandardRegistry T} {tokenStandard name : String}
    {impl : T} {model : HoldModel} (h : register registry tokenStandard impl model = .ok registry')
    (hname : registry.toUpperCase name = registry.toUpperCase tokenStandard) :
    entry registry' name = .ok ⟨impl, model⟩ := by
  simp only [register] at h
  split_ifs at h
  cases h
  rw [entry, hname, JsMap.get?_set_self]

end TokenStandardRegistry

/-- The calls of a token standard that move tokens, with all but the logger. -/
inductive StandardCall (W : Type) where
  | mint (wallet : W) (asset : AssetRecord) (target : String) (amount : ℤ)
      (opCtx : Option OperationContext)
  | transfer (wallet : W) (asset : AssetRecord) (target : String) (amount : ℤ)
      (opCtx : Option OperationContext)
  | burn (wallet : W) (asset : AssetRecord) (source : String) (amount : ℤ)
      (opCtx : Option OperationContext)
  | hold (sourceWallet escrowWallet : W) (asset : AssetRecord) (amount : ℤ)
      (opCtx : Option OperationContext)
  | release (escrowWallet : W) (asset : AssetRecord) (target : String) (amount : ℤ)
    (opCtx : Option OperationContext)
  deriving DecidableEq, Repr

def StandardCall.opCtx {W : Type} : StandardCall W → Option OperationContext
  | .mint _ _ _ _ opCtx | .transfer _ _ _ _ opCtx | .burn _ _ _ _ opCtx | .hold _ _ _ _ opCtx
  | .release _ _ _ _ opCtx => opCtx

/-- How a call ends. -/
inductive TokenOperationResult where
  | success (transactionId : String) (timestamp : ℕ)
  | failure (reason : String)
  deriving DecidableEq, Repr

/-- The zero address, to which nothing is delivered. -/
def zeroAddress : String := "0x0000000000000000000000000000000000000000"

end FinP2PAdapter.TokenStandards
