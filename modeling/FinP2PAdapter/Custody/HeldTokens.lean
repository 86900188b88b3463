import FinP2PAdapter.Library.Machine
import FinP2PAdapter.Custody.EscrowOperations
import FinP2PAdapter.TokenStandards.HoldModels

/-! Two desks that settle the same operations, one with its asset registered under a
standard that moves held tokens to the escrow wallet, the other under one that reserves
them on the holder's account. An operation is an order to the asset's holdings, whatever
the standard; each desk carries it out in the calls of its own hold model, and investors
end up with the same. -/

namespace FinP2PAdapter.Custody

open Accounts Holds Machine Throws TokenStandards

variable {W T L A : Type}

/-! ### What an operation orders -/

/-- What the operation asks of its asset's holdings. A redemption without an operation id
is of tokens the source owns. -/
def EscrowOperation.order (op : EscrowOperation) (svc : Service W T) (account : String → A)
    (ast : Asset) : Option (Order A String) :=
  (svc.assets ast.assetId).bind fun record =>
    match op with
    | .hold source _ quantity _ operationId => do
      let (_, wallet) ← (svc.sourceWallet source.finId).toOption
      let amount ← (svc.amountOf record quantity).toOption
      return .hold operationId (account (svc.address wallet)) amount
    | .release _ destination quantity operationId => do
      let target ← (svc.destinationAddress destination).toOption
      let amount ← (svc.amountOf record quantity).toOption
      return .deliver operationId (account target) amount
    | .rollback source quantity operationId => do
      let target ← (svc.resolveAddress source.finId).toOption
      let amount ← (svc.amountOf record quantity).toOption
      return .deliver operationId (account target) amount
    | .redeem source quantity operationId _ => do
      let amount ← (svc.amountOf record quantity).toOption
      match truthy operationId with
      | some operationId => return .destroy operationId amount
      | none => do
        let (address, _) ← (svc.sourceWallet source.finId).toOption
        return .burn (account address) amount

/-- The asset, if it is in the database, has a standard of this hold model. -/
def RegisteredAs (svc : Service W T) (assetId : String) (model : HoldModel) (impl : T) : Prop :=
  ∀ record, svc.assets assetId = some record →
    TokenStandardRegistry.entry svc.registry record.tokenStandard = .ok ⟨impl, model⟩

variable {svc : Service W T} {account : String → A} {ast : Asset} {model : HoldModel} {impl : T}

theorem amountOf_eq_ok {record : Omnibus.AssetRecord} {quantity : String} {amount : ℤ} :
    svc.amountOf record quantity = .ok amount ↔ svc.parseUnits quantity record.decimals = .ok amount :=
  mapError_eq_ok

theorem RegisteredAs.standard (h : RegisteredAs svc ast.assetId model impl)
    {record : Omnibus.AssetRecord} (hrec : svc.assets ast.assetId = some record) :
    svc.registry.resolve record.tokenStandard = .ok impl := by
  rw [TokenStandardRegistry.resolve, h record hrec]
  rfl

theorem RegisteredAs.holdModel (h : RegisteredAs svc ast.assetId model impl)
    {record : Omnibus.AssetRecord} (hrec : svc.assets ast.assetId = some record) :
    svc.registry.holdModel record.tokenStandard = .ok model :=
  TokenStandardRegistry.holdModel_of_entry (h record hrec)

/-- The desk sends what the order says, in the calls of its hold model. -/
def SendsOrder (svc : Service W T) (account : String → A) (model : HoldModel) (impl : T)
    (o : Order A String) (move : Move W T) : Prop :=
  move.standard = impl ∧ Sends account svc.address svc.escrowWallet model o move.call

theorem request_of_order (exCtx : ExecutionContext) (h : RegisteredAs svc ast.assetId model impl)
    {op : EscrowOperation} {o : Order A String} (ho : op.order svc account ast = some o) :
    ∃ move, op.request svc ast (some exCtx) = .ok move ∧ SendsOrder svc account model impl o move := by
  obtain ⟨record, hrec, ho⟩ := Option.bind_eq_some_iff.mp ho
  have hstd := h.standard hrec
  cases op with
  | hold source destination quantity signature operationId =>
    simp only [Option.bind_eq_bind, Option.bind_eq_some_iff, toOption_eq_some,
      Service.sourceWallet_eq_ok, amountOf_eq_ok, Option.pure_def, Option.some.injEq] at ho
    obtain ⟨⟨address, wallet⟩, hw, amount, hq, rfl⟩ := ho
    refine ⟨_, Service.hold_eq_ok.mpr
      ⟨record, impl, amount, address, wallet, ⟨hrec, hstd, hq⟩, hw, rfl⟩, rfl, ?_⟩
    exact .hold rfl
  | release source destination quantity operationId =>
    simp only [Option.bind_eq_bind, Option.bind_eq_some_iff, toOption_eq_some, amountOf_eq_ok,
      Option.pure_def, Option.some.injEq] at ho
    obtain ⟨target, hd, amount, hq, rfl⟩ := ho
    refine ⟨_, Service.release_eq_ok.mpr ⟨record, impl, amount, target, ⟨hrec, hstd, hq⟩, hd, rfl⟩,
      rfl, ?_⟩
    exact .release rfl rfl
  | rollback source quantity operationId =>
    simp only [Option.bind_eq_bind, Option.bind_eq_some_iff, toOption_eq_some, amountOf_eq_ok,
      Service.resolveAddress_eq_ok, Option.pure_def, Option.some.injEq] at ho
    obtain ⟨target, hd, amount, hq, rfl⟩ := ho
    refine ⟨_, Service.rollback_eq_ok.mpr ⟨record, impl, amount, target, ⟨hrec, hstd, hq⟩, hd, rfl⟩,
      rfl, ?_⟩
    exact .release rfl rfl
  | redeem source quantity operationId signature =>
    simp only [Option.bind_eq_bind, Option.bind_eq_some_iff, toOption_eq_some, amountOf_eq_ok] at ho
    obtain ⟨amount, hq, ho⟩ := ho
    cases hop : truthy operationId with
    | some id =>
      simp only [hop, Option.pure_def, Option.some.injEq] at ho
      subst ho
      obtain ⟨rfl, hne⟩ := truthy_eq_some.mp hop
      refine ⟨_, (Service.redeem_held_eq_ok hne).mpr
        ⟨record, impl, amount, model, ⟨hrec, hstd, hq⟩, h.holdModel hrec, rfl⟩, rfl, ?_⟩
      cases model with
      | escrowTransfer => exact .burnHeld rfl
      | holderReservation => exact .redeemHeld rfl rfl rfl
    | none =>
      simp only [hop, Option.bind_eq_some_iff, toOption_eq_some, Service.sourceWallet_eq_ok,
        Option.pure_def, Option.some.injEq] at ho
      obtain ⟨⟨address, wallet⟩, hw, rfl⟩ := ho
      exact ⟨_, (Service.redeem_own_eq_ok hop).mpr
        ⟨record, impl, amount, address, wallet, ⟨hrec, hstd, hq⟩, hw, rfl⟩, rfl, .burn⟩

/-- An operation that orders nothing is refused. -/
theorem order_of_request (account : String → A) {exCtx : ExecutionContext} {op : EscrowOperation}
    {move : Move W T} (h : op.request svc ast (some exCtx) = .ok move) :
    ∃ o, op.order svc account ast = some o := by
  cases op with
  | hold source destination quantity signature operationId =>
    obtain ⟨record, standard, amount, address, wallet, hres, hw, -⟩ := Service.hold_eq_ok.mp h
    refine ⟨.hold operationId (account (svc.address wallet)) amount, ?_⟩
    simp only [EscrowOperation.order, hres.asset, Option.bind_some,
      toOption_eq_some.mpr (Service.sourceWallet_eq_ok.mpr hw),
      toOption_eq_some.mpr (amountOf_eq_ok.mpr hres.amount), Option.bind_eq_bind]
    rfl
  | release source destination quantity operationId =>
    obtain ⟨record, standard, amount, address, hres, hd, -⟩ := Service.release_eq_ok.mp h
    refine ⟨.deliver operationId (account address) amount, ?_⟩
    simp only [EscrowOperation.order, hres.asset, Option.bind_some, toOption_eq_some.mpr hd,
      toOption_eq_some.mpr (amountOf_eq_ok.mpr hres.amount), Option.bind_eq_bind]
    rfl
  | rollback source quantity operationId =>
    obtain ⟨record, standard, amount, address, hres, hd, -⟩ := Service.rollback_eq_ok.mp h
    refine ⟨.deliver operationId (account address) amount, ?_⟩
    simp only [EscrowOperation.order, hres.asset, Option.bind_some,
      toOption_eq_some.mpr (Service.resolveAddress_eq_ok.mpr hd),
      toOption_eq_some.mpr (amountOf_eq_ok.mpr hres.amount), Option.bind_eq_bind]
    rfl
  | redeem source quantity operationId signature =>
    cases hop : truthy operationId with
    | some id =>
      obtain ⟨rfl, hne⟩ := truthy_eq_some.mp hop
      obtain ⟨record, standard, amount, model, hres, -, -⟩ := (Service.redeem_held_eq_ok hne).mp h
      refine ⟨.destroy id amount, ?_⟩
      simp only [EscrowOperation.order, hres.asset, Option.bind_some, hop,
        toOption_eq_some.mpr (amountOf_eq_ok.mpr hres.amount), Option.bind_eq_bind]
      rfl
    | none =>
      obtain ⟨record, standard, amount, address, wallet, hres, hw, -⟩ :=
        (Service.redeem_own_eq_ok hop).mp h
      refine ⟨.burn (account address) amount, ?_⟩
      simp only [EscrowOperation.order, hres.asset, Option.bind_some, hop,
        toOption_eq_some.mpr (amountOf_eq_ok.mpr hres.amount), Option.bind_eq_bind,
        toOption_eq_some.mpr (Service.sourceWallet_eq_ok.mpr hw)]
      rfl

/-! ### A desk -/

/-- The service with another registry. -/
def Service.withRegistry {T' : Type} (svc : Service W T) (registry : TokenStandardRegistry T') :
    Service W T' :=
  { svc with registry := registry }

abbrev Service.escrowAccount (svc : Service W T) (account : String → A) : A :=
  account (svc.address svc.escrowWallet)

/-- The chain of the asset's token, and what the desk's settled holds have left open. -/
structure DeskState (L A : Type) where
  ledger : L
  opened : JsMap String (Held A)

/-- `reaches` if nothing but the standard can make its call fail. -/
structure DeskAction where
  asset : Asset
  exCtx : ExecutionContext
  operation : EscrowOperation
  reaches : Bool
  deriving DecidableEq, Repr

/-- What the operation orders of the asset, if its call gets through. Operations of
another asset are sent to another contract. -/
def DeskAction.order (a : DeskAction) (svc : Service W T) (account : String → A) (assetId : String) :
    Option (Order A String) :=
  if a.asset.assetId = assetId ∧ a.reaches then a.operation.order svc account a.asset else none

/-- The service answers with a failed receipt unless the standard takes its call. -/
def deskStep (svc : Service W (Standard W L)) (account : String → A) (assetId : String)
    (s : DeskState L A) (a : DeskAction) : DeskState L A :=
  if a.asset.assetId = assetId ∧ a.reaches then
    match a.operation.request svc a.asset (some a.exCtx) with
    | .error _ => s
    | .ok move =>
      match move.standard s.ledger move.call with
      | none => s
      | some ledger => ⟨ledger, (a.order svc account assetId).elim s.opened fun o => o.record s.opened⟩
  else s

/-- Each operation id is held once and settled once, for the amount held. -/
def InTurn (svc : Service W T) (account : String → A) (assetId : String)
    (opened : JsMap String (Held A)) (a : DeskAction) : Prop :=
  ∀ o ∈ a.order svc account assetId, o.Fits opened

/-- And no source or destination is the escrow wallet's account. -/
def Orderly (svc : Service W T) (account : String → A) (assetId : String)
    (opened : JsMap String (Held A)) (a : DeskAction) : Prop :=
  ∀ o ∈ a.order svc account assetId, o.Fits opened ∧ o.AwayFrom (svc.escrowAccount account)

/-- A desk does to what its standard keeps what the operation orders. -/
theorem deskStep_keeps {svc : Service W (Standard W L)} {assetId : String} {standard : Standard W L}
    {B : Type} {view : L → B} {perform : B → Order A String → Option B}
    (hreg : RegisteredAs svc assetId model standard)
    (hstd : ∀ o call, Sends account svc.address svc.escrowWallet model o call → ∀ l,
      (standard l call).map view = perform (view l) o) (s : DeskState L A) (a : DeskAction) :
    (view (deskStep svc account assetId s a).ledger, (deskStep svc account assetId s a).opened) =
      attempt perform (view s.ledger) s.opened (a.order svc account assetId) := by
  unfold deskStep
  split_ifs with hact
  · have ho : a.order svc account assetId = a.operation.order svc account a.asset := if_pos hact
    cases hreq : a.operation.request svc a.asset (some a.exCtx) with
    | error r =>
      -- what is refused orders nothing
      have hnone : a.order svc account assetId = none := by
        by_contra hne
        obtain ⟨o, hsome⟩ := Option.ne_none_iff_exists'.mp hne
        obtain ⟨move, hok, -⟩ := request_of_order a.exCtx (hact.1 ▸ hreg) (ho.symm.trans hsome)
        rw [hreq] at hok
        cases hok
      rw [hnone]
      rfl
    | ok move =>
      obtain ⟨o, hsome⟩ := order_of_request account hreq
      obtain ⟨move', hok, hmove, hsends⟩ := request_of_order a.exCtx (hact.1 ▸ hreg) hsome
      cases hreq.symm.trans hok
      have hp := hstd o move.call hsends s.ledger
      rw [ho, hsome]
      simp only [attempt, ← hp, hmove]
      cases standard s.ledger move.call with
      | none => rfl
      | some ledger => rfl
  · rw [DeskAction.order, if_neg hact]
    rfl

/-- One desk. -/
def desk (svc : Service W (Standard W L)) (account : String → A) (assetId : String) (s : DeskState L A)
    (a : DeskAction) : Option (DeskState L A) :=
  some (deskStep svc account assetId s a)

/-- Two desks that are given the same operations. -/
def desks {L' : Type} (svc : Service W (Standard W L)) (svc' : Service W (Standard W L'))
    (account : String → A)
    (assetId : String) (s : DeskState L A × DeskState L' A) (a : DeskAction) :
    Option (DeskState L A × DeskState L' A) :=
  some (deskStep svc account assetId s.1 a, deskStep svc' account assetId s.2 a)

/-! ### What each keeps -/

section Desks

variable [DecidableEq A] {L' : Type} {assetId : String} {base rest : ℤ}
  {svc : Service W (Standard W L)} {standard : Standard W L} {book : L → Book A}
  {svc' : Service W (Standard W L')} {standard' : Standard W L'} {holdings : L' → Holdings A String}

/-- The escrow desk's step is the book's attempt. -/
theorem escrowTransfer_keeps (hreg : RegisteredAs svc assetId .escrowTransfer standard)
    (hstd : EscrowTransfer account svc.address standard book) (s : DeskState L A) (a : DeskAction) :
    let kept := attempt (Book.perform (svc.escrowAccount account)) (book s.ledger) s.opened
      (a.order svc account assetId)
    book (deskStep svc account assetId s a).ledger = kept.1 ∧
      (deskStep svc account assetId s a).opened = kept.2 :=
  Prod.ext_iff.mp (deskStep_keeps hreg (fun _ _ hs l => hstd.performs hs l) s a)

/-- The reservation desk's step is the holdings' attempt. -/
theorem holderReservation_keeps (hreg : RegisteredAs svc' assetId .holderReservation standard')
    (hstd : HolderReservation account svc'.address standard' holdings) (s : DeskState L' A)
    (a : DeskAction) :
    let kept := attempt Holdings.perform (holdings s.ledger) s.opened (a.order svc' account assetId)
    holdings (deskStep svc' account assetId s a).ledger = kept.1 ∧
      (deskStep svc' account assetId s a).opened = kept.2 :=
  Prod.ext_iff.mp (deskStep_keeps hreg (fun _ _ hs l => hstd.performs hs l) s a)

/-- What the escrow wallet's account has to be: what it began with and all open holds, each covered. -/
structure EscrowCovers (escrow : A) (base : ℤ) (b : Book A) (opened : JsMap String (Held A)) :
    Prop where
  total : b.balance escrow = base + totalHeld opened
  covered : ∀ operationId e, opened.get? operationId = some e → 0 ≤ e.amount ∧
    e.amount ≤ b.balance escrow

/-- Investors have the same in both, owned and held together. -/
structure SameHoldings (escrow : A) (b : Book A) (opened : JsMap String (Held A))
    (h : Holdings A String) : Prop where
  investors : ∀ a, a ≠ escrow → b.balance a + heldBy opened a = h.balance a
  supply : b.totalSupply = h.totalSupply

/-- If the escrow desk's book shows some holdings, it shows them after the step too. -/
theorem escrowTransfer_step (hreg : RegisteredAs svc assetId .escrowTransfer standard)
    (hstd : EscrowTransfer account svc.address standard book) (hbase : 0 ≤ base) {s : DeskState L A}
    {a : DeskAction} (hok : Orderly svc account assetId s.opened a) {k : Holdings A String}
    (hk : Escrows (svc.escrowAccount account) base rest (book s.ledger) k) (hheld : k.held = s.opened) :
    Escrows (svc.escrowAccount account) base rest (book (deskStep svc account assetId s a).ledger)
        (attempt Holdings.perform k s.opened (a.order svc account assetId)).1 ∧
      (attempt Holdings.perform k s.opened (a.order svc account assetId)).1.held =
        (deskStep svc account assetId s a).opened ∧
      (deskStep svc account assetId s a).opened =
        (attempt Holdings.perform k s.opened (a.order svc account assetId)).2 := by
  obtain ⟨hbook, hopened⟩ := escrowTransfer_keeps hreg hstd s a
  rw [← hheld] at hbook hopened ⊢
  obtain ⟨hshows, hrecord, hsame⟩ := hk.attempt hbase (hheld ▸ hok)
  rw [hbook, hopened]
  exact ⟨hshows, hrecord.trans hsame.symm, hsame⟩

theorem escrow_desk_covers (hreg : RegisteredAs svc assetId .escrowTransfer standard)
    (hstd : EscrowTransfer account svc.address standard book) {l₀ : L}
    (hbase : 0 ≤ (book l₀).balance (svc.escrowAccount account)) {s : DeskState L A}
    (h : ReachUnder (desk svc account assetId) (fun s a => Orderly svc account assetId s.opened a)
      ⟨l₀, .empty⟩ s) :
    EscrowCovers (svc.escrowAccount account) ((book l₀).balance (svc.escrowAccount account))
      (book s.ledger) s.opened := by
  set escrow := svc.escrowAccount account
  -- some holdings are what the book shows
  have hinv : ∃ k : Holdings A String,
      Escrows escrow ((book l₀).balance escrow) ((book l₀).balance escrow) (book s.ledger) k ∧
        k.held = s.opened := by
    apply h.invariant
    · exact ⟨⟨(book l₀).balance, .empty, (book l₀).totalSupply⟩,
        .of_none_held rfl rfl (fun _ _ => rfl) rfl rfl, rfl⟩
    · rintro s a _ ⟨k, hk, hheld⟩ hok hstep
      cases hstep
      obtain ⟨hshows, hrecord, -⟩ := escrowTransfer_step hreg hstd hbase hok hk hheld
      exact ⟨_, hshows, hrecord⟩
  obtain ⟨k, hk, hheld⟩ := hinv
  refine ⟨hheld ▸ hk.total, fun operationId e he => ?_⟩
  rw [← hheld] at he
  exact ⟨(hk.amounts _ _ he).1, hk.covers hbase he⟩

theorem reservation_desk_reserves (hreg : RegisteredAs svc' assetId .holderReservation standard')
    (hstd : HolderReservation account svc'.address standard' holdings) {l₀ : L'}
    (h₀ : (holdings l₀).held = .empty) {s : DeskState L' A}
    (h : ReachUnder (desk svc' account assetId) (fun s a => Orderly svc' account assetId s.opened a)
      ⟨l₀, .empty⟩ s) :
    (holdings s.ledger).balance (svc'.escrowAccount account) =
        (holdings l₀).balance (svc'.escrowAccount account) ∧
      (holdings s.ledger).held = s.opened := by
  set escrow := svc'.escrowAccount account
  -- some book shows the holdings
  have hshown : ∃ b : Book A, Escrows escrow 0 ((holdings l₀).own escrow) b (holdings l₀) := by
    refine ⟨⟨fun a => if a = escrow then 0 else (holdings l₀).own a, (holdings l₀).totalSupply⟩,
      .of_none_held h₀ ?_ ?_ rfl rfl⟩
    · exact if_pos rfl
    · exact fun a ha => if_neg ha
  have hinv : (∃ b : Book A, Escrows escrow 0 ((holdings l₀).own escrow) b (holdings s.ledger)) ∧
      (holdings s.ledger).held = s.opened := by
    apply h.invariant
    · exact ⟨hshown, h₀⟩
    · rintro s a _ ⟨⟨b, hb⟩, hheld⟩ hok hstep
      cases hstep
      obtain ⟨hholdings, hopened⟩ := holderReservation_keeps hreg hstd s a
      rw [← hheld] at hholdings hopened
      obtain ⟨hshows, hrecord, -⟩ := hb.attempt (Int.le_refl 0) (hheld ▸ hok)
      rw [hholdings, hopened]
      exact ⟨⟨_, hshows⟩, hrecord⟩
  obtain ⟨⟨b, hb⟩, hheld⟩ := hinv
  obtain ⟨b₀, hb₀⟩ := hshown
  exact ⟨hb.balance_escrow.trans hb₀.balance_escrow.symm, hheld⟩

end Desks

/-- For an asset and two services that differ only in their registries, in every run of
`hold`, `release`, `rollback` and `redeem` calls with an execution context, in which an
operation id is held when it is not open and settled for the amount held, a redemption
without one is no settlement, and no source or destination is the escrow wallet's account.
Registered as escrow-transfer, the escrow wallet has gained the sum of the open holds and
covers each; registered as holder-reservation, its balance is what it was and the
reservations are the open holds; and given the same operations the two have the same
holds open, investors have the same and the total supply is the same. -/
theorem hold_models_agree [DecidableEq A] {L' : Type} (svc : Service W T) (account : String → A)
    (assetId : String)
    (registry : TokenStandardRegistry (Standard W L))
    (registry' : TokenStandardRegistry (Standard W L'))
    (standard : Standard W L) (standard' : Standard W L') (book : L → Book A)
    (holdings : L' → Holdings A String)
    (hreg : RegisteredAs (svc.withRegistry registry) assetId .escrowTransfer standard)
    (hreg' : RegisteredAs (svc.withRegistry registry') assetId .holderReservation standard')
    (hstd : EscrowTransfer account svc.address standard book)
    (hstd' : HolderReservation account svc.address standard' holdings) (l₀ : L) (l₀' : L')
    (hbase : 0 ≤ (book l₀).balance (svc.escrowAccount account))
    (hheld : (holdings l₀').held = .empty)
    (hsame : SameHoldings (svc.escrowAccount account) (book l₀) .empty (holdings l₀')) :
    (∀ s, ReachUnder (desk (svc.withRegistry registry) account assetId)
        (fun s a => Orderly svc account assetId s.opened a) ⟨l₀, .empty⟩ s →
      EscrowCovers (svc.escrowAccount account) ((book l₀).balance (svc.escrowAccount account))
        (book s.ledger) s.opened) ∧
    (∀ s, ReachUnder (desk (svc.withRegistry registry') account assetId)
        (fun s a => Orderly svc account assetId s.opened a) ⟨l₀', .empty⟩ s →
      (holdings s.ledger).balance (svc.escrowAccount account) =
          (holdings l₀').balance (svc.escrowAccount account) ∧
        (holdings s.ledger).held = s.opened) ∧
    ∀ s, ReachUnder (desks (svc.withRegistry registry) (svc.withRegistry registry') account assetId)
        (fun s a => Orderly svc account assetId s.1.opened a) (⟨l₀, .empty⟩, ⟨l₀', .empty⟩) s →
      s.1.opened = s.2.opened ∧
        SameHoldings (svc.escrowAccount account) (book s.1.ledger) s.1.opened
          (holdings s.2.ledger) := by
  refine ⟨fun s h => escrow_desk_covers hreg hstd hbase h,
    fun s h => reservation_desk_reserves hreg' hstd' hheld h, ?_⟩
  intro s h
  set escrow := svc.escrowAccount account
  have hinv : Escrows escrow ((book l₀).balance escrow) ((holdings l₀').own escrow) (book s.1.ledger)
      (holdings s.2.ledger) ∧ (holdings s.2.ledger).held = s.1.opened ∧ s.1.opened = s.2.opened := by
    apply h.invariant
    · refine ⟨.of_none_held hheld rfl (fun a ha => ?_) hsame.supply rfl, hheld, rfl⟩
      have hinvestor := hsame.investors a ha
      rw [Holdings.balance, hheld] at hinvestor
      show (book l₀).balance a = (holdings l₀').own a
      omega
    · rintro ⟨s, s'⟩ a _ ⟨hshows, hheld', hopened⟩ hok hstep
      cases hstep
      dsimp only at hshows hheld' hopened hok ⊢
      obtain ⟨hholdings, hrecorded⟩ := holderReservation_keeps hreg' hstd' s' a
      obtain ⟨hshows', hrecord, hsame'⟩ := escrowTransfer_step hreg hstd hbase hok hshows hheld'
      rw [← hopened] at hholdings hrecorded
      rw [hholdings, hrecorded]
      exact ⟨hshows', hrecord, hsame'⟩
  obtain ⟨hshows, hheld', hopened⟩ := hinv
  refine ⟨hopened, ⟨fun a ha => ?_, hshows.supply⟩⟩
  rw [Holdings.balance, hheld', hshows.others a ha]

/-! ### A plain token and a reserving one -/

/-- A token that keeps balances only; its wallets are their addresses. -/
def plainToken : Standard String (Book String) := fun book call =>
  match call with
  | .hold sourceWallet escrowWallet _ amount _ => book.move sourceWallet escrowWallet amount
  | .release escrowWallet _ target amount _ => book.move escrowWallet target amount
  | .burn _ _ source amount _ => book.burn source amount
  | _ => none

/-- A token that reserves under the operation id. -/
def reservingToken : Standard String (Holdings String String) := fun holdings call =>
  match call with
  | .hold sourceWallet _ _ amount (some ⟨_, _, _, some operationId, _⟩) =>
    holdings.perform (.hold operationId sourceWallet amount)
  | .release _ _ target amount (some ⟨_, _, _, some operationId, .release⟩) =>
    holdings.perform (.deliver operationId target amount)
  | .release _ _ _ amount (some ⟨_, _, _, some operationId, .redeem⟩) =>
    holdings.perform (.destroy operationId amount)
  | .burn _ _ source amount _ => holdings.perform (.burn source amount)
  | _ => none

theorem plainToken_escrowTransfer : EscrowTransfer id id plainToken id := by
  constructor <;> intros <;> exact Option.map_id' ..

theorem reservingToken_holderReservation : HolderReservation id id reservingToken id := by
  constructor
  · rintro l sourceWallet escrowWallet asset amount
      ⟨leg, phase, primaryType, _, releaseType⟩ operationId rfl
    exact Option.map_id' ..
  · rintro l escrowWallet asset target amount ⟨leg, phase, primaryType, _, _⟩ operationId rfl rfl
    exact Option.map_id' ..
  · rintro l escrowWallet asset target amount ⟨leg, phase, primaryType, _, _⟩ operationId rfl rfl
    exact Option.map_id' ..
  · intros
    exact Option.map_id' ..

def plainRegistry : TokenStandardRegistry (Standard String (Book String)) :=
  ⟨String.toUpper, JsMap.empty.set "DESK" ⟨plainToken, .escrowTransfer⟩⟩

def reservingRegistry : TokenStandardRegistry (Standard String (Holdings String String)) :=
  ⟨String.toUpper, JsMap.empty.set "DESK" ⟨reservingToken, .holderReservation⟩⟩

/-- Alice owns 150 units. -/
def openingBalance : String → ℤ := Pi.single aliceAddress 150

def openingBook : Book String := ⟨openingBalance, 150⟩

def openingHoldings : Holdings String String := ⟨openingBalance, .empty, 150⟩

theorem desk_registered {U : Type} (e : TokenStandards.Entry U) : RegisteredAs
    ((deskService .escrowTransfer).withRegistry ⟨String.toUpper, JsMap.empty.set "DESK" e⟩) "asset-1"
      e.holdModel e.impl := by
  intro record hrec
  cases hrec
  have hname : "DESK".toUpper = "DESK" := by decide +kernel
  show TokenStandardRegistry.entry ⟨String.toUpper, _⟩ "DESK" = _
  unfold TokenStandardRegistry.entry
  dsimp only
  rw [hname]
  rfl

instance {T : Type} {U : Type} [DecidableEq U] (svc : Service W T) (account : String → U)
    (assetId : String) (opened : JsMap String (Held U)) (a : DeskAction) :
    Decidable (Orderly svc account assetId opened a) :=
  inferInstanceAs (Decidable (∀ o ∈ a.order svc account assetId,
    o.Fits opened ∧ o.AwayFrom (svc.escrowAccount account)))

instance {T : Type} {U : Type} [DecidableEq U] (svc : Service W T) (account : String → U)
    (assetId : String) (opened : JsMap String (Held U)) (a : DeskAction) :
    Decidable (InTurn svc account assetId opened a) :=
  inferInstanceAs (Decidable (∀ o ∈ a.order svc account assetId, o.Fits opened))

def bobAddress : String := "0x2222222222222222222222222222222222222222"

def deskAction (sequence : ℤ) (operation : EscrowOperation) : DeskAction :=
  ⟨deskAsset, ⟨"plan", sequence⟩, operation, true⟩

def aliceHolds (quantity operationId : String) : EscrowOperation :=
  .hold ⟨"alice", none⟩ none quantity none operationId

/-- To an address that no finId is mapped to. -/
def releaseTo (address quantity operationId : String) : EscrowOperation :=
  .release ⟨"alice", none⟩ ⟨"bob", some (.walletAccount address)⟩ quantity operationId

/-- Of two holds of Alice's one is released to Bob and one redeemed, and both desks end up
with the same. -/
theorem both_settle : ∃ s : DeskState (Book String) String × DeskState (Holdings String String) String,
    s.1.ledger.balance aliceAddress = 70 ∧ s.1.ledger.balance bobAddress = 50 ∧
      s.1.opened = s.2.opened ∧
      SameHoldings escrowAddress s.1.ledger s.1.opened s.2.ledger := by
  have hrun : (exec (guarded (desks ((deskService .escrowTransfer).withRegistry plainRegistry)
      ((deskService .escrowTransfer).withRegistry reservingRegistry) id "asset-1")
      fun s a => Orderly (deskService .escrowTransfer) id "asset-1" s.1.opened a)
      (⟨openingBook, .empty⟩, ⟨openingHoldings, .empty⟩)
      [deskAction 1 (aliceHolds "0.5" "op-1"), deskAction 2 (aliceHolds "0.3" "op-2"),
        deskAction 3 (releaseTo bobAddress "0.5" "op-1"),
        deskAction 4 (.redeem ⟨"alice", none⟩ "0.3" (some "op-2") none)]).map
      (fun s => (s.1.ledger.balance aliceAddress, s.1.ledger.balance bobAddress)) = some (70, 50) := by
    decide +kernel
  obtain ⟨s, hs, hend⟩ := Option.map_eq_some_iff.mp hrun
  simp only [Prod.mk.injEq] at hend
  refine ⟨s, hend.1, hend.2, ?_⟩
  exact (hold_models_agree (deskService .escrowTransfer) id "asset-1" plainRegistry
    reservingRegistry plainToken reservingToken id id (desk_registered _) (desk_registered _)
    plainToken_escrowTransfer reservingToken_holderReservation openingBook openingHoldings
    (by decide +kernel) rfl ⟨fun _ _ => rfl, rfl⟩).2.2 s (reachUnder_of_exec hs)

/-- What is released to the escrow wallet's own address stays there with no hold open. -/
theorem released_to_escrow : ∃ s : DeskState (Book String) String,
    ReachUnder (desk ((deskService .escrowTransfer).withRegistry plainRegistry) id "asset-1")
      (fun s a => InTurn (deskService .escrowTransfer) id "asset-1" s.opened a)
        ⟨openingBook, .empty⟩ s ∧
    openingBook.balance escrowAddress = 0 ∧ totalHeld s.opened = 0 ∧
      s.ledger.balance escrowAddress = 50 ∧
    ¬ EscrowCovers escrowAddress (openingBook.balance escrowAddress) s.ledger s.opened := by
  have hrun : (exec (guarded (desk ((deskService .escrowTransfer).withRegistry plainRegistry) id
      "asset-1") fun s a => InTurn (deskService .escrowTransfer) id "asset-1" s.opened a) ⟨openingBook, .empty⟩
      [deskAction 1 (aliceHolds "0.5" "op-1"), deskAction 2 (releaseTo escrowAddress "0.5" "op-1")]).map
      (fun s => (totalHeld s.opened, s.ledger.balance escrowAddress)) = some (0, 50) := by
    decide +kernel
  obtain ⟨s, hs, hend⟩ := Option.map_eq_some_iff.mp hrun
  simp only [Prod.mk.injEq] at hend
  have hzero : openingBook.balance escrowAddress = 0 := by decide +kernel
  refine ⟨s, reachUnder_of_exec hs, hzero, hend.1, hend.2, fun hc => ?_⟩
  have htotal := hc.total
  rw [hzero, hend.1, hend.2] at htotal
  cases htotal

end FinP2PAdapter.Custody
