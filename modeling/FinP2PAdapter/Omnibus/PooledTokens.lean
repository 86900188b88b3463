import FinP2PAdapter.Library.Machine
import FinP2PAdapter.Library.Pools
import FinP2PAdapter.Omnibus.Egress

/-! The tokens an organisation pools in its omnibus and its escrow wallet, over runs of the delegate's
operations. Any number of them may be under way at once, each with what the stores, the account mapping and
the gas station answer to it; each may be mined, reverted or fail. Others pay whom they like, from accounts of
their own. Holds, rollbacks and releases to investors of the organisation move tokens between the two wallets
only. The standards are those whose holds move the tokens. -/

namespace FinP2PAdapter.Omnibus

open Accounts Custody Holds Machine Throws TokenStandards

variable {T : Type}

namespace OutboundDelegate

/-- What every operation does once its transfer is known: the standard is looked up, and the signer's gas is
seen to. -/
def prepare (d : OutboundDelegate T) (wallet : String) (move : TokenTransfer) :
    Except DelegateError (T × TokenTransfer) := do
  let standard ← (d.registry.resolve move.dbAsset.tokenStandard).mapError fun e => DelegateError.error e.text
  (d.ensureGas wallet).mapError DelegateError.error
  return (standard, move)

def hold (d : OutboundDelegate T) (assetId quantity : String) : Except DelegateError (T × TokenTransfer) := do
  let move ← Omnibus.hold d.toDelegate assetId quantity
  d.prepare d.omnibusAddress move

def rollback (d : OutboundDelegate T) (assetId quantity : String) : Except DelegateError (T × TokenTransfer) := do
  let move ← Omnibus.rollback d.toDelegate assetId quantity
  d.prepare d.escrowAddress move

end OutboundDelegate

/-- The operations of the delegate that move tokens. -/
inductive PoolOp where
  | outboundTransfer (assetId quantity : String) (destination : Destination)
  | hold (assetId quantity : String)
  | release (assetId quantity : String) (destination : Destination)
  | rollback (assetId quantity : String)
  deriving DecidableEq, Repr

namespace PoolOp

def assetId : PoolOp → String
  | .outboundTransfer assetId _ _ | .hold assetId _ | .release assetId _ _ | .rollback assetId _ => assetId

def quantity : PoolOp → String
  | .outboundTransfer _ quantity _ | .hold _ quantity | .release _ quantity _ | .rollback _ quantity => quantity

def call (d : OutboundDelegate T) : PoolOp → Except DelegateError (T × TokenTransfer)
  | .outboundTransfer assetId quantity destination => d.outboundTransfer destination assetId quantity
  | .hold assetId quantity => d.hold assetId quantity
  | .release assetId quantity destination => d.release destination assetId quantity
  | .rollback assetId quantity => d.rollback assetId quantity

/-- The operation pays an address outside of the delegate's own choice: the one a transfer out resolves, or
the one on the leg of a release whose destination is not mapped. -/
def PaysOut (d : OutboundDelegate T) (target : String) : PoolOp → Prop
  | .outboundTransfer _ _ destination => destinationAddress d.accountMapping destination d.chainId = .ok target
  | .release _ _ destination => truthy (resolveAccount d.accountMapping destination.finId) = none ∧
      ledgerAccountAddress destination.account d.chainId = .ok (some target)
  | .hold _ _ | .rollback _ _ => False

/-- The transfer is of the operation's asset, for the units of its quantity. -/
def Orders (d : OutboundDelegate T) (op : PoolOp) (t : TokenTransfer) : Prop :=
  d.assets op.assetId = some t.dbAsset ∧ d.parseUnits op.quantity t.dbAsset.decimals = .ok t.amount

end PoolOp

/-! ### What an operation transfers -/

theorem prepare_eq_ok {d : OutboundDelegate T} {wallet : String} {move : TokenTransfer}
    {result : T × TokenTransfer} (h : d.prepare wallet move = .ok result) : result.2 = move := by
  obtain ⟨standard, -, h⟩ := bind_eq_ok.mp h
  obtain ⟨-, -, h⟩ := bind_eq_ok.mp h
  cases h
  rfl

/-- Every operation transfers its asset's tokens from one of the delegate's wallets, to the other one, or to
where it pays out. -/
theorem PoolOp.call_eq_ok {d : OutboundDelegate T} {op : PoolOp} {standard : T} {t : TokenTransfer}
    (h : op.call d = .ok (standard, t)) : op.Orders d t ∧
      (t.signer = d.omnibusAddress ∨ t.signer = d.escrowAddress) ∧
      (t.target = d.omnibusAddress ∨ t.target = d.escrowAddress ∨ op.PaysOut d t.target) := by
  cases op with
  | outboundTransfer assetId quantity destination =>
    obtain ⟨dbAsset, _, amount, target, hr, hd, he⟩ := OutboundDelegate.outboundTransfer_eq_ok.mp h
    cases he
    exact ⟨⟨hr.asset, hr.amount⟩, .inl rfl, .inr (.inr hd)⟩
  | hold assetId quantity =>
    obtain ⟨move, hm, h⟩ := bind_eq_ok.mp h
    obtain rfl := prepare_eq_ok h
    obtain ⟨dbAsset, ha, hm⟩ := bind_eq_ok.mp hm
    obtain ⟨amount, hu, hm⟩ := bind_eq_ok.mp hm
    cases hm
    exact ⟨⟨assetRecord_eq_ok.mp ha, mapError_eq_ok.mp hu⟩, .inl rfl, .inr (.inl rfl)⟩
  | release assetId quantity destination =>
    obtain ⟨move, hm, h⟩ := bind_eq_ok.mp h
    have h : d.prepare d.escrowAddress move = .ok _ := h
    obtain rfl := prepare_eq_ok h
    obtain ⟨dbAsset, amount, found, target, ha, hq, hf, ht, rfl⟩ := release_eq_ok.mp hm
    refine ⟨⟨ha, hq⟩, .inr rfl, ?_⟩
    unfold releaseTarget at ht
    cases hl : truthy (resolveAccount d.accountMapping destination.finId) with
    | some local_ =>
      rw [hl] at ht
      cases ht
      exact .inl rfl
    | none =>
      rw [hl] at ht
      obtain ⟨rfl, -⟩ := truthy_eq_some.mp ht
      exact .inr (.inr ⟨hl, hf⟩)
  | rollback assetId quantity =>
    obtain ⟨move, hm, h⟩ := bind_eq_ok.mp h
    obtain rfl := prepare_eq_ok h
    obtain ⟨dbAsset, ha, hm⟩ := bind_eq_ok.mp hm
    obtain ⟨amount, hu, hm⟩ := bind_eq_ok.mp hm
    cases hm
    exact ⟨⟨assetRecord_eq_ok.mp ha, mapError_eq_ok.mp hu⟩, .inr rfl, .inl rfl⟩

/-! ### Runs -/

/-- The delegate's two wallets, with the library's `getAddress`. -/
structure PoolWallets where
  omnibusAddress : String
  escrowAddress : String
  getAddress : String → Option String
  getAddress_omnibus : ∀ b, getAddress omnibusAddress = some b → SameUpToCase b omnibusAddress
  getAddress_escrow : ∀ b, getAddress escrowAddress = some b → SameUpToCase b escrowAddress

def PoolWallets.pool (w : PoolWallets) : Finset String := {w.omnibusAddress.toLower, w.escrowAddress.toLower}

/-- A payment of a token contract's, and the operation that made it, with what it was answered. -/
structure PoolMove (T : Type) where
  contractAddress : String
  payment : Payment String
  cause : Option (PoolOp × OutboundDelegate T)

/-- Contracts and accounts go by their addresses in small letters. -/
structure PoolState (T : Type) where
  pending : ℕ → Option (PoolOp × OutboundDelegate T)
  book : String → Book String
  moves : List (PoolMove T)

def PoolState.init (T : Type) (book : String → Book String) : PoolState T := ⟨fun _ => none, book, []⟩

def PoolState.payments (s : PoolState T) (contractAddress : String) : List (Payment String) :=
  (s.moves.filter fun m => m.contractAddress = contractAddress).map PoolMove.payment

/-- The payment is made, if the tokens are there. -/
def PoolState.pay (s : PoolState T) (m : PoolMove T) : Option (PoolState T) :=
  ((s.book m.contractAddress).move m.payment.source m.payment.target m.payment.amount).map fun b =>
    { s with book := Function.update s.book m.contractAddress b, moves := s.moves ++ [m] }

def PoolState.drop (s : PoolState T) (id : ℕ) : PoolState T :=
  { s with pending := Function.update s.pending id none }

inductive PoolAction (T : Type) where
  | request (id : ℕ) (op : PoolOp) (d : OutboundDelegate T)
  | mined (id : ℕ) (succeeds : Bool)
  | fails (id : ℕ)
  | paid (contractAddress : String) (payment : Payment String)

/-- The payment an operation's transfer makes. -/
def TokenTransfer.move (t : TokenTransfer) (recipient : String) (cause : PoolOp × OutboundDelegate T) :
    PoolMove T :=
  ⟨t.dbAsset.contractAddress.toLower, ⟨t.signer.toLower, recipient.toLower, t.amount⟩, some cause⟩

def poolStep (w : PoolWallets) (s : PoolState T) : PoolAction T → Option (PoolState T)
  | .request id op d =>
    if (s.pending id).isNone ∧ d.omnibusAddress = w.omnibusAddress ∧ d.escrowAddress = w.escrowAddress then
      some { s with pending := Function.update s.pending id (some (op, d)) }
    else none
  | .mined id succeeds =>
    match s.pending id with
    | none => none
    | some (op, d) =>
      match op.call d with
      | .error _ => none
      | .ok (_, t) =>
        match w.getAddress t.target with
        | none => none
        | some recipient => if succeeds then (s.drop id).pay (t.move recipient (op, d)) else some (s.drop id)
  | .fails id => (s.pending id).map fun _ => s.drop id
  | .paid contractAddress payment =>
    if payment.source ∉ w.pool then s.pay ⟨contractAddress, payment, none⟩ else none

/-- What is known of the payment a cause is recorded for: others' payments are not from the pool, and an
operation's is what it ordered, from the pool, and stays there unless it pays out. -/
def PoolMove.Accounted (w : PoolWallets) (m : PoolMove T) : Prop :=
  match m.cause with
  | none => m.payment.source ∉ w.pool
  | some (op, d) => m.payment.source ∈ w.pool ∧ ∃ t, op.Orders d t ∧
      m.contractAddress = t.dbAsset.contractAddress.toLower ∧ m.payment.amount = t.amount ∧
      (m.payment.target ∉ w.pool → ∃ target, op.PaysOut d target ∧
        (w.getAddress target).map String.toLower = some m.payment.target)

/-- What is kept over a run. -/
structure Pooling (w : PoolWallets) (book : String → Book String) (s : PoolState T) : Prop where
  wallets : ∀ id op d, s.pending id = some (op, d) →
    d.omnibusAddress = w.omnibusAddress ∧ d.escrowAddress = w.escrowAddress
  accounted : ∀ m ∈ s.moves, m.Accounted w
  replayed : ∀ contractAddress,
    (book contractAddress).replay (s.payments contractAddress) = some (s.book contractAddress)

section Steps

variable {w : PoolWallets} {book : String → Book String} {s s' : PoolState T}

theorem PoolState.payments_concat (s : PoolState T) (m : PoolMove T) (contractAddress : String)
    (book : String → Book String) :
    PoolState.payments ⟨s.pending, book, s.moves ++ [m]⟩ contractAddress =
      s.payments contractAddress ++ if m.contractAddress = contractAddress then [m.payment] else [] := by
  simp only [payments, List.filter_append, List.map_append]
  by_cases h : m.contractAddress = contractAddress <;> simp [h]

theorem Pooling.drop (h : Pooling w book s) (id : ℕ) : Pooling w book (s.drop id) where
  wallets k op d hk := by
    simp only [PoolState.drop, Function.update_apply] at hk
    split_ifs at hk
    exact h.wallets k op d hk
  accounted := h.accounted
  replayed := h.replayed

theorem Pooling.pay (h : Pooling w book s) {m : PoolMove T} (hm : m.Accounted w) (hs : s.pay m = some s') :
    Pooling w book s' := by
  obtain ⟨b, hb, rfl⟩ := Option.map_eq_some_iff.mp hs
  refine ⟨h.wallets, ?_, ?_⟩
  · intro k hk
    rcases List.mem_append.mp hk with hk | hk
    · exact h.accounted k hk
    · rw [List.mem_singleton.mp hk]
      exact hm
  · intro contractAddress
    rw [PoolState.payments_concat]
    dsimp only
    by_cases hc : m.contractAddress = contractAddress
    · subst hc
      rw [if_pos rfl, Function.update_self]
      exact Book.replay_concat (h.replayed m.contractAddress) hb
    · rw [if_neg hc, List.append_nil, Function.update_of_ne (Ne.symm hc)]
      exact h.replayed contractAddress

/-- The payment of an operation under way. -/
theorem accounted_move {op : PoolOp} {d : OutboundDelegate T} {standard : T} {t : TokenTransfer}
    {recipient : String} (ho : d.omnibusAddress = w.omnibusAddress) (he : d.escrowAddress = w.escrowAddress)
    (hcall : op.call d = .ok (standard, t)) (hr : w.getAddress t.target = some recipient) :
    (t.move recipient (op, d)).Accounted w := by
  obtain ⟨horders, hsigner, htarget⟩ := PoolOp.call_eq_ok hcall
  refine ⟨?_, t, horders, rfl, rfl, ?_⟩
  · rcases hsigner with hs | hs
    · simp [TokenTransfer.move, PoolWallets.pool, hs, ho]
    · simp [TokenTransfer.move, PoolWallets.pool, hs, he]
  · intro hout
    rcases htarget with ht | ht | ht
    · rw [ht, ho] at hr
      have hsame : recipient.toLower = w.omnibusAddress.toLower := w.getAddress_omnibus recipient hr
      simp [TokenTransfer.move, PoolWallets.pool, hsame] at hout
    · rw [ht, he] at hr
      have hsame : recipient.toLower = w.escrowAddress.toLower := w.getAddress_escrow recipient hr
      simp [TokenTransfer.move, PoolWallets.pool, hsame] at hout
    · exact ⟨t.target, ht, by rw [hr]; rfl⟩

theorem Pooling.step (h : Pooling w book s) {a : PoolAction T} (hs : poolStep w s a = some s') :
    Pooling w book s' := by
  cases a with
  | request id op d =>
    simp only [poolStep] at hs
    split_ifs at hs with hnew
    cases hs
    refine ⟨?_, h.accounted, h.replayed⟩
    intro k op' d' hk
    simp only [Function.update_apply] at hk
    split_ifs at hk
    · cases hk
      exact hnew.2
    · exact h.wallets k op' d' hk
  | mined id succeeds =>
    simp only [poolStep] at hs
    split at hs
    · cases hs
    · rename_i op d hpending
      obtain ⟨ho, he⟩ := h.wallets id op d hpending
      split at hs
      · cases hs
      · rename_i standard t hcall
        split at hs
        · cases hs
        · rename_i recipient hr
          split_ifs at hs
          · exact (h.drop id).pay (accounted_move ho he hcall hr) hs
          · cases hs
            exact h.drop id
  | fails id =>
    obtain ⟨_, -, rfl⟩ := Option.map_eq_some_iff.mp hs
    exact h.drop id
  | paid contractAddress payment =>
    simp only [poolStep] at hs
    split_ifs at hs with hout
    exact h.pay (m := ⟨contractAddress, payment, none⟩) hout hs

theorem pooling_run (h : Reach (poolStep w) (PoolState.init T book) s) : Pooling w book s := by
  refine h.invariant (P := Pooling w book) ?_ fun s a s' hinv _ hs => hinv.step hs
  refine ⟨?_, ?_, fun _ => rfl⟩
  · intro id op d hpending
    cases hpending
  · intro m hm
    cases hm

end Steps

/-- Over every run, what the two wallets together have of a token is what they had, with what others paid
in, less what the delegate's operations paid out. Only a transfer out and a release to a destination that is
not mapped pay out: the units of their quantity, to the address they resolve. -/
theorem pooled_tokens_conserved (w : PoolWallets) (book : String → Book String) (s : PoolState T)
    (h : Reach (poolStep w) (PoolState.init T book) s) :
    (∀ contractAddress, pooled w.pool (s.book contractAddress) = pooled w.pool (book contractAddress) +
      ((s.payments contractAddress).map (Payment.enters w.pool)).sum -
      ((s.payments contractAddress).map (Payment.leaves w.pool)).sum) ∧
    (∀ m ∈ s.moves, m.cause = none → m.payment.leaves w.pool = 0) ∧
    ∀ m ∈ s.moves, ∀ op d, m.cause = some (op, d) → m.payment.enters w.pool = 0 ∧
      (m.payment.leaves w.pool ≠ 0 → ∃ target t, op.PaysOut d target ∧ op.Orders d t ∧
        m.contractAddress = t.dbAsset.contractAddress.toLower ∧ m.payment.leaves w.pool = t.amount ∧
        (w.getAddress target).map String.toLower = some m.payment.target) := by
  have hp := pooling_run h
  refine ⟨fun contractAddress => pooled_replay w.pool (hp.replayed contractAddress), ?_, ?_⟩
  · intro m hm hcause
    have hout := hp.accounted m hm
    simp only [PoolMove.Accounted, hcause] at hout
    rw [Payment.leaves, if_neg (by simp [hout])]
  · intro m hm op d hcause
    have hacc := hp.accounted m hm
    simp only [PoolMove.Accounted, hcause] at hacc
    obtain ⟨hin, t, horders, hcontract, hamount, hout⟩ := hacc
    constructor
    · rw [Payment.enters, if_neg (by simp [hin])]
    · intro hleaves
      by_cases htarget : m.payment.target ∈ w.pool
      · rw [Payment.leaves, if_neg (by simp [htarget])] at hleaves
        exact absurd rfl hleaves
      · obtain ⟨target, hpays, haddress⟩ := hout htarget
        refine ⟨target, t, hpays, horders, hcontract, ?_, haddress⟩
        rw [Payment.leaves, if_pos ⟨hin, htarget⟩, hamount]

/-! ### Three tokens, one of them paid out -/

def deskWallets : PoolWallets where
  omnibusAddress := deskDelegate.omnibusAddress
  escrowAddress := deskDelegate.escrowAddress
  getAddress address := some address
  getAddress_omnibus b h := by
    cases h
    exact .refl _
  getAddress_escrow b h := by
    cases h
    exact .refl _

/-- The omnibus wallet has three tokens of the desk's asset. -/
def deskBook (contractAddress : String) : Book String :=
  if contractAddress = deskRecord.contractAddress.toLower then
    ⟨Pi.single deskDelegate.omnibusAddress.toLower 300, 300⟩
  else ⟨0, 0⟩

/-- A token is held and released to Bob. -/
def releaseToBob : List (PoolAction String) :=
  [.request 0 (.hold "asset-1" "1.0") deskDelegate, .mined 0 true,
    .request 1 (.release "asset-1" "1.0" directBob) deskDelegate, .mined 1 true]

theorem released_token_left : ∃ s, Reach (poolStep deskWallets) (PoolState.init String deskBook) s ∧
    pooled deskWallets.pool (s.book deskRecord.contractAddress.toLower) = 200 := by
  have hrun : (exec (poolStep deskWallets) (.init String deskBook) releaseToBob).map
      (fun s => s.payments deskRecord.contractAddress.toLower) =
        some [⟨deskDelegate.omnibusAddress.toLower, deskDelegate.escrowAddress.toLower, 100⟩,
          ⟨deskDelegate.escrowAddress.toLower, "0x2222222222222222222222222222222222222222", 100⟩] := by
    decide +kernel
  obtain ⟨s, hs, hpayments⟩ := Option.map_eq_some_iff.mp hrun
  have hreach := reach_of_exec hs
  refine ⟨s, hreach, ?_⟩
  rw [(pooled_tokens_conserved deskWallets deskBook s hreach).1, hpayments]
  decide +kernel

end FinP2PAdapter.Omnibus
