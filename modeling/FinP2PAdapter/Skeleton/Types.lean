import FinP2PAdapter.Library.CaseFold
import Mathlib.Data.Int.Notation
import Mathlib.Data.Nat.Notation

/-! The request types the adapter's services share: assets, parties, execution
contexts, signatures and their EIP-712 templates, and the operation parameters
that the token standards and the operator contract both read. A template's
message is a record of optional parts, since each primary type names its own. -/

namespace FinP2PAdapter

structure Asset where
  assetId : String
  assetType : String
  deriving DecidableEq, Repr

/-- An account on an instruction leg. -/
inductive LedgerAccount where
  | walletAccount (address : String)
  | caip10Account (network address : String)
  | custodialAccount (provider vaultAccountId : String)
  deriving DecidableEq, Repr

structure Source where
  finId : String
  account : Option LedgerAccount := none
  deriving DecidableEq, Repr

structure Destination where
  finId : String
  account : Option LedgerAccount := none
  deriving DecidableEq, Repr

structure ExecutionContext where
  planId : String
  sequence : ℤ
  deriving DecidableEq, Repr

/-! ### EIP-712 templates -/

structure EIP712Party where
  idkey : String
  deriving DecidableEq, Repr

/-- `assetType` is optional; the adapter reads an omitted one as `finp2p`. -/
structure EIP712Term where
  assetId : String
  assetType : Option String := none
  amount : String
  deriving DecidableEq, Repr

structure EIP712LoanTerms where
  borrowedMoneyAmount : String
  returnedMoneyAmount : String
  deriving DecidableEq, Repr

/-- The named parts a message may carry, over all primary types. -/
structure EIP712Message where
  buyer : Option EIP712Party := none
  seller : Option EIP712Party := none
  issuer : Option EIP712Party := none
  lender : Option EIP712Party := none
  borrower : Option EIP712Party := none
  source : Option EIP712Party := none
  destination : Option EIP712Party := none
  asset : Option EIP712Term := none
  settlement : Option EIP712Term := none
  loanTerms : Option EIP712LoanTerms := none
  deriving DecidableEq, Repr

/-- The primary type a template names; any other name is kept as it stands. -/
inductive TemplateType where
  | primarySale | buying | selling | redemption | transfer | privateOffer | loan | move
  | other (name : String)
  deriving DecidableEq, Repr

structure EIP712Template where
  primaryType : TemplateType
  message : EIP712Message
  deriving DecidableEq, Repr

inductive SignatureTemplate where
  | hashList
  | eip712 (template : EIP712Template)
  deriving DecidableEq, Repr

structure Signature where
  signature : String
  template : SignatureTemplate
  deriving DecidableEq, Repr

/-! ### Operation parameters -/

inductive LegType where
  | asset | settlement
  deriving DecidableEq, Repr

inductive PrimaryType where
  | primarySale | buying | selling | redemption | transfer | privateOffer | loan | move
  deriving DecidableEq, Repr

inductive Phase where
  | initiate | close
  deriving DecidableEq, Repr

inductive ReleaseType where
  | release | redeem
  deriving DecidableEq, Repr

/-- What a service method throws. -/
inductive ServiceError where
  | validation (message : String)
  | typeError
  | error (message : String)
  deriving DecidableEq, Repr

def ServiceError.text : ServiceError → String
  | .validation message | .error message => message
  | .typeError => "TypeError"

/-! ### The chain library -/

/-- How `tx.wait()` ends. -/
inductive ReceiptAnswer where
  | receipt
  | null
  | rejects (message : String)
  deriving DecidableEq, Repr

/-- Conversions between written amounts and base units. -/
structure Units where
  parseUnits : String → ℕ → Except String ℤ
  formatUnits : ℤ → ℕ → String

/-- The units of a token without decimals. -/
def wholeUnits : Units where
  parseUnits value _ := match value.toInt? with
    | some amount => .ok amount
    | none => .error "invalid FixedNumber string value"
  formatUnits amount _ := toString amount

end FinP2PAdapter
