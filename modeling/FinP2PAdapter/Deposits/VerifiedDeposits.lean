import FinP2PAdapter.Deposits.PullOnce
import FinP2PAdapter.Deposits.PullProvenance
import FinP2PAdapter.Deposits.SweepOnce
import FinP2PAdapter.Deposits.NoCreditLost
import FinP2PAdapter.Library.Decimals
import FinP2PAdapter.Omnibus.InboundVerification

/-! In omnibus mode the two ends of a deposit agree. A plugin takes contract and decimals
from the asset store and the omnibus wallet as its target, its watcher reports the mined
transaction and writes the moved base units as a decimal number, and the delegate that
is told of the credit reads them back and finds the transfer in the receipt. -/

namespace FinP2PAdapter.Deposits

open Machine

/-- The units of the chain library, but for its bounds on decimals and width. -/
def decimalUnits : Units := ⟨Decimals.parseUnits, Decimals.formatUnits⟩

/-- The asset store and the wallet that every deposit is made to. -/
structure Source where
  store : String → Option DbAsset
  target : String

/-- The order is for an asset of the store, to the wallet. -/
def Source.IsOrder (source : Source) (order : Order) : Prop :=
  source.store order.assetId = some order.dbAsset ∧ order.target = source.target

/-! ### Pull-deposits -/

namespace PullDepositPlugin

open ApprovalWatcher (PullDeposit Deposited)

/-- The plugin's questions are answered by the store and with the wallet's address. -/
def AnsweredBy (source : Source) (s : State) : Action → Prop
  | .asset c (.ok (some dbAsset)) =>
    match s.calls.get? c with
    | some (.getAsset _ assetId) => source.store assetId = some dbAsset
    | _ => True
  | .target _ (.ok (some address)) => address = source.target
  | _ => True

instance (source : Source) (s : State) (a : Action) : Decidable (AnsweredBy source s a) := by
  unfold AnsweredBy
  split
  · split <;> infer_instance
  · infer_instance
  · infer_instance

/-- The deposit is of an asset of the store, to the wallet. -/
def Sourced (source : Source) (d : PullDeposit) : Prop :=
  source.store d.assetId = some ⟨d.contractAddress, d.decimals⟩ ∧ d.destinationAddress = source.target

/-- What a call has resolved so far is right. -/
def DepositCall.Resolved (source : Source) : DepositCall → Prop
  | .resolveDepositTarget _ assetId dbAsset => source.store assetId = some dbAsset
  | .getWatcher order => source.IsOrder order
  | .operatorAddress order _ => source.IsOrder order
  | _ => True

/-- Calls resolve assets and target rightly, and each watcher has run by itself and holds
deposits of theirs. -/
structure Sound (source : Source) (cfg : Config) (s : State) : Prop where
  call : ∀ c call, s.calls.get? c = some call → call.Resolved source
  watcher : ∀ ws ∈ s.watchers, Reach (ApprovalWatcher.step cfg.watcher) ApprovalWatcher.init ws ∧
    Deposited (Sourced source) ws

theorem sound_init (source : Source) (cfg : Config) : Sound source cfg init where
  call := by
    intro c call hc
    cases hc
  watcher := by
    intro ws hws
    cases hws

section Steps

variable {source : Source} {cfg : Config} {s : State}

theorem Sound.setCall (h : Sound source cfg s) (c : ℕ) {call : DepositCall}
    (hcall : call.Resolved source) : Sound source cfg (s.setCall c call) where
  call := by
    intro c' call' hc
    rw [State.setCall, JsMap.get?_set] at hc
    split_ifs at hc
    · cases hc
      exact hcall
    · exact h.call c' call' hc
  watcher := h.watcher

theorem Sound.setWatcher (h : Sound source cfg s) {w : ℕ} {ws ws' : ApprovalWatcher.State}
    {a : ApprovalWatcher.Action} (hws : s.watchers[w]? = some ws)
    (hs : ApprovalWatcher.step cfg.watcher ws a = some ws')
    (hadd : ∀ id deposit, a = .addDeposit id deposit → Sourced source deposit) :
    Sound source cfg (s.setWatcher w ws') where
  call := h.call
  watcher := by
    intro other hother
    rcases List.mem_or_eq_of_mem_set hother with hold | rfl
    · exact h.watcher other hold
    · obtain ⟨hreach, hdeposited⟩ := h.watcher ws (List.mem_of_getElem? hws)
      exact ⟨hreach.tail trivial hs, hdeposited.step hadd hs⟩

theorem Sound.create (h : Sound source cfg s) :
    Sound source cfg
      { s with watcher := some s.watchers.length, watchers := s.watchers ++ [ApprovalWatcher.init] } where
  call := h.call
  watcher := by
    intro ws hws
    rcases List.mem_append.mp hws with hold | hnew
    · exact h.watcher ws hold
    · rw [List.mem_singleton.mp hnew]
      exact ⟨.start, ApprovalWatcher.deposited_init _⟩

theorem Sound.after_deposit {s' : State} {c : ℕ} {request : Request}
    (h : Sound source cfg s)
    (hs : step cfg s (.deposit c request) = some s') : Sound source cfg s' := by
  unfold PullDepositPlugin.step at hs
  dsimp only at hs
  split_ifs at hs
  cases hs
  unfold deposit
  split
  · split_ifs
    · exact h.setCall c trivial
    · exact h.setCall c trivial
  · exact h.setCall c trivial

theorem Sound.after_asset {s' : State} {c : ℕ} {answer : Except String (Option DbAsset)}
    (h : Sound source cfg s) (hok : AnsweredBy source s (.asset c answer))
    (hs : step cfg s (.asset c answer) = some s') : Sound source cfg s' := by
  unfold PullDepositPlugin.step at hs
  dsimp only at hs
  split at hs
  · rename_i request assetId hc
    split at hs
    · cases hs
      exact h.setCall c trivial
    · cases hs
      exact h.setCall c trivial
    · cases hs
      apply h.setCall c
      show source.store assetId = some _
      simpa [AnsweredBy, hc] using hok
  · cases hs

theorem Sound.after_target {s' : State} {c : ℕ} {answer : Except String (Option String)}
    (h : Sound source cfg s) (hok : AnsweredBy source s (.target c answer))
    (hs : step cfg s (.target c answer) = some s') : Sound source cfg s' := by
  unfold PullDepositPlugin.step at hs
  dsimp only at hs
  split at hs
  · rename_i request assetId dbAsset hc
    have hstored : source.store assetId = some dbAsset := h.call c _ hc
    split at hs
    · cases hs
      exact h.setCall c trivial
    · cases hs
      exact h.setCall c trivial
    · cases hs
      exact h.setCall c trivial
    · rename_i destinationAddress _
      cases hs
      have horder : source.IsOrder ⟨request.ownerFinId, assetId, dbAsset, destinationAddress,
          request.amount⟩ :=
        ⟨hstored, hok⟩
      unfold getWatcher
      split
      · exact h.setCall c horder
      · exact h.setCall c horder
  · cases hs

theorem Sound.after_signer {s' : State} {c : ℕ} {answer : Except String String}
    (h : Sound source cfg s)
    (hs : step cfg s (.signer c answer) = some s') : Sound source cfg s' := by
  unfold PullDepositPlugin.step at hs
  dsimp only at hs
  split at hs
  · rename_i order hc
    split at hs
    · cases hs
      exact h.setCall c trivial
    · cases hs
      have horder : source.IsOrder order := h.call c _ hc
      exact h.create.setCall c horder
  · cases hs

/-- The deposit that the plugin adds is the order's. -/
theorem Sound.after_operator {s' : State} {c : ℕ} {answer : Except String String}
    {correlationId : String} {now : ℕ} (h : Sound source cfg s)
    (hs : step cfg s (.operator c answer correlationId now) = some s') : Sound source cfg s' := by
  unfold PullDepositPlugin.step at hs
  dsimp only at hs
  split at hs
  · rename_i order w hc
    have horder : source.IsOrder order := h.call c _ hc
    split at hs
    · cases hs
      exact h.setCall c trivial
    · split_ifs at hs
      obtain ⟨ws', hws', rfl⟩ := Option.map_eq_some_iff.mp hs
      obtain ⟨ws, hws, hstep⟩ := Option.bind_eq_some_iff.mp hws'
      refine (h.setWatcher hws hstep ?_).setCall c trivial
      rintro id deposit ⟨⟩
      exact horder
  · cases hs

theorem Sound.after_added {s' : State} {c : ℕ}
    (h : Sound source cfg s) (hs : step cfg s (.added c) = some s') : Sound source cfg s' := by
  unfold PullDepositPlugin.step at hs
  dsimp only at hs
  split at hs
  · split at hs
    · cases hs
      exact h.setCall c trivial
    · cases hs
      exact h.setCall c trivial
    · cases hs
  · cases hs

/-- All else in a watcher is the environment's. -/
theorem Sound.after_watcher {s' : State} {w : ℕ} {b : ApprovalWatcher.Action}
    (h : Sound source cfg s) (hs : step cfg s (.watcher w b) = some s') : Sound source cfg s' := by
  unfold PullDepositPlugin.step at hs
  dsimp only at hs
  split_ifs at hs with henv
  obtain ⟨ws', hws', he⟩ := Option.map_eq_some_iff.mp hs
  obtain ⟨ws, hws, hstep⟩ := Option.bind_eq_some_iff.mp hws'
  have hset : Sound source cfg (s.setWatcher w ws') := by
    refine h.setWatcher hws hstep ?_
    rintro id deposit rfl
    exact henv.elim
  split at he
  · cases he
    exact ⟨hset.call, hset.watcher⟩
  · cases he
    exact hset

theorem Sound.after_notified {s' : State} {w p : ℕ} {rejection : Option String}
    (h : Sound source cfg s)
    (hs : step cfg s (.notified w p rejection) = some s') : Sound source cfg s' := by
  unfold PullDepositPlugin.step at hs
  dsimp only at hs
  split at hs
  · cases hs
    exact ⟨h.call, h.watcher⟩
  · cases hs

theorem Sound.after_returned {s' : State} {w p : ℕ}
    (h : Sound source cfg s) (hs : step cfg s (.returned w p) = some s') : Sound source cfg s' := by
  unfold PullDepositPlugin.step at hs
  dsimp only at hs
  split at hs
  · obtain ⟨ws', hws', rfl⟩ := Option.map_eq_some_iff.mp hs
    obtain ⟨ws, hws, hstep⟩ := Option.bind_eq_some_iff.mp hws'
    have hset := h.setWatcher hws hstep (by simp)
    exact ⟨hset.call, hset.watcher⟩
  · cases hs

/-- The plugin adds a deposit for an order, and all else in a watcher is the
environment's or a callback's return. -/
theorem Sound.step {s' : State} {a : Action} (h : Sound source cfg s) (hok : AnsweredBy source s a)
    (hs : step cfg s a = some s') : Sound source cfg s' := by
  cases a with
  | deposit _ _ => exact h.after_deposit hs
  | asset _ _ => exact h.after_asset hok hs
  | target _ _ => exact h.after_target hok hs
  | signer _ _ => exact h.after_signer hs
  | operator _ _ _ _ => exact h.after_operator hs
  | added _ => exact h.after_added hs
  | watcher _ _ => exact h.after_watcher hs
  | notified _ _ _ => exact h.after_notified hs
  | returned _ _ => exact h.after_returned hs

end Steps

theorem sound_of_runs {source : Source} {cfg : Config} {s : State}
    (h : ReachUnder (step cfg) (AnsweredBy source) init s) : Sound source cfg s :=
  h.invariant (sound_init source cfg) fun _ _ _ hi hok hs => hi.step hok hs

/-- A reported pull is mined, is of a sourced deposit and moved the amount written. -/
theorem reported_pull {source : Source} {cfg : Config} {s : State}
    (h : ReachUnder (step cfg) (AnsweredBy source) init s) :
    ∀ ws ∈ s.watchers, ∀ r ∈ ws.reports, Sourced source r.deposit ∧ ∃ tx, ws.txs[r.txHash]? = some tx ∧
      tx.status = .mined ∧ tx.deposit = r.deposit ∧ tx.owner = r.owner ∧
      r.amount = cfg.units.formatUnits tx.amount r.deposit.decimals := by
  intro ws hws r hr
  obtain ⟨hreach, hdeposited⟩ := (sound_of_runs h).watcher ws hws
  obtain ⟨tx, htx, hmined, hdeposit, howner, hamount⟩ :=
    ApprovalWatcher.report_of_mined_pull hreach r hr
  refine ⟨?_, tx, htx, hmined, hdeposit, howner, hamount⟩
  rw [← hdeposit]
  exact hdeposited.tx tx (List.mem_of_getElem? htx)

end PullDepositPlugin

/-! ### One-time-address deposits -/

namespace OtaDepositPlugin

open BalanceWatcher (OtaDeposit)

/-- The plugin's questions are answered by the store and with the wallet's address. -/
def AnsweredBy (source : Source) (s : State) : Action → Prop
  | .asset c (.ok (some dbAsset)) =>
    match s.calls.get? c with
    | some (.getAsset _ assetId) => source.store assetId = some dbAsset
    | _ => True
  | .target _ (.ok (some address)) _ => address = source.target
  | _ => True

instance (source : Source) (s : State) (a : Action) : Decidable (AnsweredBy source s a) := by
  unfold AnsweredBy
  split
  · split <;> infer_instance
  · infer_instance
  · infer_instance

/-- The deposit is of an asset of the store, to the wallet. -/
def Sourced (source : Source) (d : OtaDeposit) : Prop :=
  source.store d.assetId = some ⟨d.contractAddress, d.decimals⟩ ∧ d.sweepTarget = source.target

/-- What a call has resolved so far is right. -/
def DepositCall.Resolved (source : Source) : DepositCall → Prop
  | .resolveSweepTarget _ assetId dbAsset => source.store assetId = some dbAsset
  | .createCustodyAccount order _ => source.IsOrder order
  | .createWallet order _ _ => source.IsOrder order
  | _ => True

/-- Calls resolve assets and target rightly, and the watcher has run by itself and was
given deposits of theirs. -/
structure Sound (source : Source) (cfg : Config) (s : State) : Prop where
  call : ∀ c call, s.calls.get? c = some call → call.Resolved source
  watcher : Reach (BalanceWatcher.step cfg.watcher) BalanceWatcher.init s.watcher
  added : ∀ d ∈ s.watcher.added, Sourced source d

theorem sound_init (source : Source) (cfg : Config) : Sound source cfg init where
  call := by
    intro c call hc
    cases hc
  watcher := .start
  added := by
    intro d hd
    cases hd

section Steps

variable {source : Source} {cfg : Config} {s : State}

theorem Sound.setCall (h : Sound source cfg s) (c : ℕ) {call : DepositCall}
    (hcall : call.Resolved source) : Sound source cfg (s.setCall c call) where
  call := by
    intro c' call' hc
    rw [State.setCall, JsMap.get?_set] at hc
    split_ifs at hc
    · cases hc
      exact hcall
    · exact h.call c' call' hc
  watcher := h.watcher
  added := h.added

theorem Sound.setWatcher (h : Sound source cfg s) {ws' : BalanceWatcher.State}
    {a : BalanceWatcher.Action} (hs : BalanceWatcher.step cfg.watcher s.watcher a = some ws')
    (hno : ∀ deposit, a ≠ .addDeposit deposit) : Sound source cfg { s with watcher := ws' } where
  call := h.call
  watcher := h.watcher.tail trivial hs
  added := by
    show ∀ d ∈ ws'.added, Sourced source d
    rw [added_of_environment hs hno]
    exact h.added

theorem Sound.addDeposit (h : Sound source cfg s) {ws' : BalanceWatcher.State} {deposit : OtaDeposit}
    (hs : BalanceWatcher.step cfg.watcher s.watcher (.addDeposit deposit) = some ws')
    (hsourced : Sourced source deposit) : Sound source cfg { s with watcher := ws' } where
  call := h.call
  watcher := h.watcher.tail trivial hs
  added := by
    cases BalanceWatcher.transition_of_step hs with
    | addDeposit =>
      intro d hd
      rcases List.mem_cons.mp hd with rfl | hold
      · exact hsourced
      · exact h.added d hold

theorem Sound.after_deposit {s' : State} {c : ℕ} {request : Request}
    (h : Sound source cfg s)
    (hs : step cfg s (.deposit c request) = some s') : Sound source cfg s' := by
  unfold OtaDepositPlugin.step at hs
  dsimp only at hs
  split_ifs at hs
  cases hs
  unfold deposit
  split
  · split_ifs
    · exact h.setCall c trivial
    · exact h.setCall c trivial
  · exact h.setCall c trivial

theorem Sound.after_asset {s' : State} {c : ℕ} {answer : Except String (Option DbAsset)}
    (h : Sound source cfg s) (hok : AnsweredBy source s (.asset c answer))
    (hs : step cfg s (.asset c answer) = some s') : Sound source cfg s' := by
  unfold OtaDepositPlugin.step at hs
  dsimp only at hs
  split at hs
  · rename_i request assetId hc
    split at hs
    · cases hs
      exact h.setCall c trivial
    · cases hs
      exact h.setCall c trivial
    · cases hs
      apply h.setCall c
      show source.store assetId = some _
      simpa [AnsweredBy, hc] using hok
  · cases hs

theorem Sound.after_target {s' : State} {c : ℕ} {answer : Except String (Option String)} {correlationId : String}
    (h : Sound source cfg s) (hok : AnsweredBy source s (.target c answer correlationId))
    (hs : step cfg s (.target c answer correlationId) = some s') : Sound source cfg s' := by
  unfold OtaDepositPlugin.step at hs
  dsimp only at hs
  split at hs
  · rename_i request assetId dbAsset hc
    have hstored : source.store assetId = some dbAsset := h.call c _ hc
    split at hs
    · cases hs
      exact h.setCall c trivial
    · cases hs
      exact h.setCall c trivial
    · cases hs
      exact h.setCall c trivial
    · cases hs
      apply h.setCall c
      exact ⟨hstored, hok⟩
  · cases hs

theorem Sound.after_account {s' : State} {c : ℕ} {answer : Except String CustodyAccount}
    (h : Sound source cfg s)
    (hs : step cfg s (.account c answer) = some s') : Sound source cfg s' := by
  unfold OtaDepositPlugin.step at hs
  dsimp only at hs
  split at hs
  · rename_i order correlationId hc
    have horder : source.IsOrder order := h.call c _ hc
    split at hs
    · cases hs
      exact h.setCall c trivial
    · cases hs
      exact h.setCall c horder
  · cases hs

/-- The deposit that the plugin adds is the order's. -/
theorem Sound.after_wallet {s' : State} {c : ℕ} {answer : Except String String} {now : ℕ}
    (h : Sound source cfg s)
    (hs : step cfg s (.wallet c answer now) = some s') : Sound source cfg s' := by
  unfold OtaDepositPlugin.step at hs
  dsimp only at hs
  split at hs
  · rename_i order correlationId account hc
    have horder : source.IsOrder order := h.call c _ hc
    split at hs
    · cases hs
      exact h.setCall c trivial
    · split_ifs at hs
      obtain ⟨ws', hstep, rfl⟩ := Option.map_eq_some_iff.mp hs
      exact (h.addDeposit hstep horder).setCall c trivial
  · cases hs

/-- All else in the watcher is the environment's. -/
theorem Sound.after_watcher {s' : State} {b : BalanceWatcher.Action}
    (h : Sound source cfg s) (hs : step cfg s (.watcher b) = some s') : Sound source cfg s' := by
  unfold OtaDepositPlugin.step at hs
  dsimp only at hs
  split_ifs at hs with henv
  obtain ⟨ws', hstep, he⟩ := Option.map_eq_some_iff.mp hs
  have hset := h.setWatcher hstep (not_addDeposit henv)
  split at he
  · cases he
    exact ⟨hset.call, hset.watcher, hset.added⟩
  · cases he
    exact hset

theorem Sound.after_notified {s' : State} {p : ℕ} {rejection : Option String}
    (h : Sound source cfg s)
    (hs : step cfg s (.notified p rejection) = some s') : Sound source cfg s' := by
  unfold OtaDepositPlugin.step at hs
  dsimp only at hs
  split at hs
  · cases hs
    exact ⟨h.call, h.watcher, h.added⟩
  · cases hs

theorem Sound.after_returned {s' : State} {p : ℕ}
    (h : Sound source cfg s) (hs : step cfg s (.returned p) = some s') : Sound source cfg s' := by
  unfold OtaDepositPlugin.step at hs
  dsimp only at hs
  split at hs
  · obtain ⟨ws', hstep, rfl⟩ := Option.map_eq_some_iff.mp hs
    have hset := h.setWatcher hstep (by simp)
    exact ⟨hset.call, hset.watcher, hset.added⟩
  · cases hs

theorem Sound.step {s' : State} {a : Action} (h : Sound source cfg s) (hok : AnsweredBy source s a)
    (hs : step cfg s a = some s') : Sound source cfg s' := by
  cases a with
  | deposit _ _ => exact h.after_deposit hs
  | asset _ _ => exact h.after_asset hok hs
  | target _ _ _ => exact h.after_target hok hs
  | account _ _ => exact h.after_account hs
  | wallet _ _ _ => exact h.after_wallet hs
  | watcher _ => exact h.after_watcher hs
  | notified _ _ => exact h.after_notified hs
  | returned _ => exact h.after_returned hs

end Steps

theorem sound_of_runs {source : Source} {cfg : Config} {s : State}
    (h : ReachUnder (step cfg) (AnsweredBy source) init s) : Sound source cfg s :=
  h.invariant (sound_init source cfg) fun _ _ _ hi hok hs => hi.step hok hs

/-- A reported sweep is mined, is of a sourced deposit and moved the amount written. -/
theorem reported_sweep {source : Source} {cfg : Config} {s : State}
    (h : ReachUnder (step cfg) (AnsweredBy source) init s) :
    ∀ r ∈ s.watcher.reports, Sourced source r.deposit ∧ ∃ tx, s.watcher.txs[r.sweepTxHash]? = some tx ∧
      tx.status = .mined ∧ tx.deposit = r.deposit ∧
      r.receivedAmount = cfg.units.formatUnits tx.amount r.deposit.decimals := by
  intro r hr
  have hsound := sound_of_runs h
  have htracked : BalanceWatcher.Tracked s.watcher :=
    hsound.watcher.invariant BalanceWatcher.tracked_init fun _ _ _ hi _ hs => hi.step hs
  exact ⟨hsound.added _ (htracked.report r hr),
    BalanceWatcher.report_of_mined_sweep hsound.watcher r hr⟩

end OtaDepositPlugin

/-! ### The delegate's check -/

open Omnibus (Delegate AssetRecord IsTransfer transfersTo onInboundTransfer)

/-- The delegate's asset store and omnibus wallet, as the plugins are given them. -/
def sourceOf (delegate : Delegate) : Source where
  store assetId := (delegate.assets assetId).map fun dbAsset =>
    ⟨dbAsset.contractAddress, dbAsset.decimals⟩
  target := delegate.omnibusAddress

/-- The receipt of a successful call of the token that moved base units to a wallet: one
`Transfer` event, of the token, among whatever other events. -/
structure TransferReceipt (contractAddress recipient : String) (amount : ℤ)
    (receipt : Omnibus.Receipt) : Prop where
  status : receipt.status = some 1
  target : ∃ address, receipt.target = some address ∧ SameUpToCase address contractAddress
  transfer : ∃ log, receipt.logs.filter (fun log => log.topics[0]? == some Omnibus.transferTopic) =
    [log] ∧ IsTransfer contractAddress recipient amount log

section Check

variable {delegate : Delegate} {dbAsset : AssetRecord} {receipt : Omnibus.Receipt} {units : ℤ}

/-- The only `Transfer` event is the one the check finds. -/
theorem find_transfer {log : Omnibus.Log} {logs : List Omnibus.Log}
    (honly : logs.filter (fun log => log.topics[0]? == some Omnibus.transferTopic) = [log])
    (hlog : transfersTo delegate.omnibusAddress.toLower log = true) :
    logs.find? (transfersTo delegate.omnibusAddress.toLower) = some log := by
  have hmem : log ∈ logs := by
    have hin : log ∈ logs.filter fun log => log.topics[0]? == some Omnibus.transferTopic := by
      rw [honly]
      exact List.mem_singleton_self _
    exact List.mem_of_mem_filter hin
  obtain ⟨first, hfirst⟩ : ∃ first, logs.find? (transfersTo delegate.omnibusAddress.toLower) =
    some first := by
    apply Option.ne_none_iff_exists'.mp
    rw [Ne, List.find?_eq_none]
    intro hnone
    exact hnone log hmem hlog
  have htopic : first.topics[0]? == some Omnibus.transferTopic := by
    have hfound := List.find?_some hfirst
    simp only [transfersTo, Bool.and_eq_true] at hfound
    exact hfound.1.1
  have hin : first ∈ logs.filter fun log => log.topics[0]? == some Omnibus.transferTopic :=
    List.mem_filter.mpr ⟨List.mem_of_find?_eq_some hfirst, htopic⟩
  rw [honly] at hin
  rw [hfirst, List.mem_singleton.mp hin]

/-- A transfer of the asset to the omnibus wallet passes with its written amount. -/
theorem onInboundTransfer_of_transfer {polls : Omnibus.FinalizedPolls}
    {transactionId assetId amount : String}
    (hfinal : delegate.requireFinalizedBlock = false) (hasset : delegate.assets assetId = some dbAsset)
    (hparse : delegate.parseUnits amount dbAsset.decimals = .ok units)
    (h : TransferReceipt dbAsset.contractAddress delegate.omnibusAddress units receipt) :
    onInboundTransfer delegate (some receipt) polls transactionId assetId amount = .ok () := by
  obtain ⟨address, haddress, hsame⟩ := h.target
  obtain ⟨log, honly, hlog⟩ := h.transfer
  have htarget : Omnibus.targets receipt.target dbAsset.contractAddress = true := by
    rw [haddress]
    exact decide_eq_true hsame
  rw [Omnibus.onInboundTransfer_eq dbAsset transactionId amount
    (fun hrequired => ?_) hasset h.status htarget]
  · have hfirst := find_transfer honly (Omnibus.transfersTo_of_isTransfer hlog)
    have hdata : log.data ≠ [] := by
      intro hnil
      have hlength := hlog.2.2.1
      rw [hnil] at hlength
      cases hlength
    exact (Omnibus.checkLogs_some dbAsset transactionId amount hfirst hdata).1.mpr
      ⟨units, hparse, hlog.2.2.2⟩
  · rw [hfinal] at hrequired
    cases hrequired

/-- What the delegate finds for a sourced asset and a written amount. -/
theorem onInboundTransfer_of_source {polls : Omnibus.FinalizedPolls}
    {transactionId assetId contractAddress target : String} {decimals : ℕ}
    (hfinal : delegate.requireFinalizedBlock = false)
    (hunits : delegate.parseUnits = decimalUnits.parseUnits)
    (hstore : (sourceOf delegate).store assetId = some ⟨contractAddress, decimals⟩)
    (htarget : target = (sourceOf delegate).target)
    (h : TransferReceipt contractAddress target units receipt) :
    onInboundTransfer delegate (some receipt) polls transactionId assetId
      (decimalUnits.formatUnits units decimals) = .ok () := by
  obtain ⟨dbAsset, hasset, hrow⟩ := Option.map_eq_some_iff.mp hstore
  cases hrow
  refine onInboundTransfer_of_transfer hfinal hasset ?_ (htarget ▸ h)
  rw [hunits]
  exact Decimals.parseUnits_formatUnits units dbAsset.decimals

end Check

/-- Every pull and sweep that a watcher reports was mined as a transfer of the asset's
contract to the omnibus wallet; the reported amount is read back as exactly the base
units moved, and what the inbound hook is told passes the delegate's check of the
transaction's receipt. -/
theorem reported_deposits_verified (delegate : Delegate) (polls : Omnibus.FinalizedPolls)
    (hfinal : delegate.requireFinalizedBlock = false)
    (hunits : delegate.parseUnits = decimalUnits.parseUnits) :
    (∀ cfg s, cfg.units = decimalUnits → ReachUnder (PullDepositPlugin.step cfg)
        (PullDepositPlugin.AnsweredBy (sourceOf delegate)) PullDepositPlugin.init s →
      ∀ ws ∈ s.watchers, ∀ r ∈ ws.reports, ∃ tx dbAsset,
        ws.txs[r.txHash]? = some tx ∧ tx.status = .mined ∧ tx.deposit = r.deposit ∧
        delegate.assets r.deposit.assetId = some dbAsset ∧
          dbAsset.contractAddress = tx.deposit.contractAddress ∧
        tx.deposit.destinationAddress = delegate.omnibusAddress ∧
        delegate.parseUnits r.amount dbAsset.decimals = .ok tx.amount ∧
        ∀ receipt transactionId,
          TransferReceipt tx.deposit.contractAddress tx.deposit.destinationAddress tx.amount receipt →
          onInboundTransfer delegate (some receipt) polls transactionId
            (inboundTransfer cfg.channels (PullDepositPlugin.credit r)).assetId
            (inboundTransfer cfg.channels (PullDepositPlugin.credit r)).amount = .ok ()) ∧
    (∀ cfg s, cfg.units = decimalUnits → ReachUnder (OtaDepositPlugin.step cfg)
        (OtaDepositPlugin.AnsweredBy (sourceOf delegate)) OtaDepositPlugin.init s →
      ∀ r ∈ s.watcher.reports, ∃ tx dbAsset,
        s.watcher.txs[r.sweepTxHash]? = some tx ∧ tx.status = .mined ∧ tx.deposit = r.deposit ∧
        delegate.assets r.deposit.assetId = some dbAsset ∧
          dbAsset.contractAddress = tx.deposit.contractAddress ∧
        tx.deposit.sweepTarget = delegate.omnibusAddress ∧
        delegate.parseUnits r.receivedAmount dbAsset.decimals = .ok tx.amount ∧
        ∀ receipt transactionId,
          TransferReceipt tx.deposit.contractAddress tx.deposit.sweepTarget tx.amount receipt →
          onInboundTransfer delegate (some receipt) polls transactionId
            (inboundTransfer cfg.channels (OtaDepositPlugin.credit r)).assetId
            (inboundTransfer cfg.channels (OtaDepositPlugin.credit r)).amount = .ok ()) := by
  constructor
  · intro cfg s hcfg h ws hws r hr
    obtain ⟨hsourced, tx, htx, hmined, hdeposit, -, hamount⟩ :=
      PullDepositPlugin.reported_pull h ws hws r hr
    obtain ⟨dbAsset, hasset, hrow⟩ := Option.map_eq_some_iff.mp hsourced.1
    obtain ⟨hcontract, hdecimals⟩ := DbAsset.mk.inj hrow
    rw [hcfg] at hamount
    refine ⟨tx, dbAsset, htx, hmined, hdeposit, hasset, hdeposit ▸ hcontract, hdeposit ▸ hsourced.2,
      ?_, ?_⟩
    · rw [hunits, hamount, hdecimals]
      exact Decimals.parseUnits_formatUnits tx.amount r.deposit.decimals
    · intro receipt transactionId hreceipt
      rw [hdeposit] at hreceipt
      show onInboundTransfer delegate
        (some receipt) polls transactionId r.deposit.assetId r.amount = .ok ()
      rw [hamount]
      exact onInboundTransfer_of_source hfinal hunits hsourced.1 hsourced.2 hreceipt
  · intro cfg s hcfg h r hr
    obtain ⟨hsourced, tx, htx, hmined, hdeposit, hamount⟩ := OtaDepositPlugin.reported_sweep h r hr
    obtain ⟨dbAsset, hasset, hrow⟩ := Option.map_eq_some_iff.mp hsourced.1
    obtain ⟨hcontract, hdecimals⟩ := DbAsset.mk.inj hrow
    rw [hcfg] at hamount
    refine ⟨tx, dbAsset, htx, hmined, hdeposit, hasset, hdeposit ▸ hcontract, hdeposit ▸ hsourced.2,
      ?_, ?_⟩
    · rw [hunits, hamount, hdecimals]
      exact Decimals.parseUnits_formatUnits tx.amount r.deposit.decimals
    · intro receipt transactionId hreceipt
      rw [hdeposit] at hreceipt
      show onInboundTransfer delegate (some receipt) polls transactionId r.deposit.assetId
        r.receivedAmount = .ok ()
      rw [hamount]
      exact onInboundTransfer_of_source hfinal hunits hsourced.1 hsourced.2 hreceipt

/-! ### A verified pull and a verified sweep -/

/-- A delegate that keeps one asset. -/
def walletDelegate : Delegate where
  omnibusAddress := "0x5555555555555555555555555555555555555555"
  escrowAddress := "0x9999999999999999999999999999999999999999"
  assets assetId :=
    if assetId = "token" then some ⟨"0x7777777777777777777777777777777777777777", 0, "ERC20"⟩ else none
  parseUnits := Decimals.parseUnits
  minConfirmations := 2
  timeoutMs := 180000
  requireFinalizedBlock := false

/-- Five base units of the asset moved to the wallet. -/
def fiveUnitsLog : Omnibus.Log where
  address := "0x7777777777777777777777777777777777777777"
  topics := [Omnibus.transferTopic, Omnibus.strangerTopic,
    Omnibus.addressTopic "0x5555555555555555555555555555555555555555"]
  data := Words.word 5

def fiveUnitsReceipt : Omnibus.Receipt where
  sender := "0x9999999999999999999999999999999999999999"
  target := some "0x7777777777777777777777777777777777777777"
  status := some 1
  blockNumber := 11
  logs := [fiveUnitsLog]

theorem transferReceipt_fiveUnits : TransferReceipt "0x7777777777777777777777777777777777777777"
    "0x5555555555555555555555555555555555555555" 5 fiveUnitsReceipt where
  status := rfl
  target := ⟨_, rfl, SameUpToCase.refl _⟩
  transfer := by
    have hfive : 5 < 2 ^ 256 := by norm_num
    refine ⟨fiveUnitsLog, by simp [fiveUnitsReceipt, fiveUnitsLog], SameUpToCase.refl _,
      ⟨_, _, rfl, Omnibus.toLower_addressTopic _⟩, Words.length_word hfive, ?_⟩
    rw [fiveUnitsLog, Words.bigEndian_word]
    rfl

def pullPlugin : PullDepositPlugin.Config := ⟨decimalUnits, false, ⟨"ethereum", true, true⟩⟩

def otaPlugin : OtaDepositPlugin.Config := ⟨decimalUnits, true, ⟨"ethereum", true, true⟩, true⟩

/-- The reported pull and the reported sweep of five units pass the check. -/
theorem five_units_verified :
    (∃ s, ReachUnder (PullDepositPlugin.step pullPlugin)
      (PullDepositPlugin.AnsweredBy (sourceOf walletDelegate))
      PullDepositPlugin.init s ∧ ∃ ws ∈ s.watchers, ∃ r ∈ ws.reports, onInboundTransfer walletDelegate
        (some fiveUnitsReceipt) ⟨[], .block none⟩ "tx" r.deposit.assetId r.amount = .ok ()) ∧
    ∃ s, ReachUnder (OtaDepositPlugin.step otaPlugin)
      (OtaDepositPlugin.AnsweredBy (sourceOf walletDelegate))
      OtaDepositPlugin.init s ∧ ∃ r ∈ s.watcher.reports, onInboundTransfer walletDelegate
        (some fiveUnitsReceipt) ⟨[], .block none⟩ "tx" r.deposit.assetId r.receivedAmount = .ok () := by
  have hverified := reported_deposits_verified walletDelegate ⟨[], .block none⟩ rfl rfl
  constructor
  · have he : (exec (guarded (PullDepositPlugin.step pullPlugin)
        (PullDepositPlugin.AnsweredBy (sourceOf walletDelegate))) PullDepositPlugin.init
        PullDepositPlugin.pulled).map
        (fun s => s.watchers.any fun ws => !ws.reports.isEmpty && ws.txs.all fun tx =>
          tx.deposit.contractAddress = "0x7777777777777777777777777777777777777777" ∧
            tx.deposit.destinationAddress = "0x5555555555555555555555555555555555555555" ∧
              tx.amount = 5) =
        some true := by
      decide +kernel
    obtain ⟨s, hs, hany⟩ := Option.map_eq_some_iff.mp he
    simp only [List.any_eq_true, Bool.and_eq_true, List.all_eq_true, decide_eq_true_eq,
      Bool.not_eq_true', List.isEmpty_eq_false_iff_exists_mem] at hany
    obtain ⟨ws, hws, ⟨r, hr⟩, htxs⟩ := hany
    have hrun := reachUnder_of_exec hs
    obtain ⟨tx, dbAsset, htx, -, -, -, -, -, -, hcheck⟩ := hverified.1 pullPlugin s rfl hrun ws hws r hr
    obtain ⟨hcontract, htarget, hamount⟩ := htxs tx (List.mem_of_getElem? htx)
    refine ⟨s, hrun, ws, hws, r, hr, hcheck fiveUnitsReceipt "tx" ?_⟩
    rw [hcontract, htarget, hamount]
    exact transferReceipt_fiveUnits
  · have he : (exec (guarded (OtaDepositPlugin.step otaPlugin)
        (OtaDepositPlugin.AnsweredBy (sourceOf walletDelegate))) OtaDepositPlugin.init
          OtaDepositPlugin.swept).map
        (fun s => !s.watcher.reports.isEmpty && s.watcher.txs.all fun tx =>
          tx.deposit.contractAddress = "0x7777777777777777777777777777777777777777" ∧
            tx.deposit.sweepTarget = "0x5555555555555555555555555555555555555555" ∧ tx.amount = 5) =
        some true := by
      decide +kernel
    obtain ⟨s, hs, hany⟩ := Option.map_eq_some_iff.mp he
    simp only [Bool.and_eq_true, List.all_eq_true, decide_eq_true_eq, Bool.not_eq_true',
      List.isEmpty_eq_false_iff_exists_mem] at hany
    obtain ⟨⟨r, hr⟩, htxs⟩ := hany
    have hrun := reachUnder_of_exec hs
    obtain ⟨tx, dbAsset, htx, -, -, -, -, -, -, hcheck⟩ := hverified.2 otaPlugin s rfl hrun r hr
    obtain ⟨hcontract, htarget, hamount⟩ := htxs tx (List.mem_of_getElem? htx)
    refine ⟨s, hrun, r, hr, hcheck fiveUnitsReceipt "tx" ?_⟩
    rw [hcontract, htarget, hamount]
    exact transferReceipt_fiveUnits

end FinP2PAdapter.Deposits
