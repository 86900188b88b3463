import FinP2PAdapter.Deposits.PullPlugin
import FinP2PAdapter.Deposits.WatcherCreation
import FinP2PAdapter.Deposits.OtaPlugin
import FinP2PAdapter.Library.Deliveries

/-! No credit is lost. A deposit whose tokens have moved is open at its watcher until
its pull or sweep is reported; the report drops it and starts the callback, and from
there on the callback alone remembers it. So each configured channel is told of it as
long as no notification fails, and is told before the custody account is archived. -/

namespace FinP2PAdapter.Deposits

open Machine

/-! ### Pull-deposits -/

namespace PullDepositPlugin

open ApprovalWatcher (PullResult PullTx Records Tracked Recorded Known callbackOf recorded_step)

/-- A channel that is told of a credit accepts it. -/
def NotificationsSucceed (s : State) : Action → Prop
  | .notified w p (some _) => ∀ c ∈ (s.notices.get? (w, p)).bind fun notice =>
    notice.2.head?, ¬ c.IsNotification
  | _ => True

instance (s : State) (a : Action) : Decidable (NotificationsSucceed s a) := by
  unfold NotificationsSucceed
  split <;> infer_instance

/-- The callback of a deposit's pull is running. -/
def Notifying (s : State) (correlationId : String) : Prop :=
  ∃ k result rest, s.notices.get? k = some (result, rest) ∧ result.deposit.correlationId = correlationId

/-- The plugin's callbacks as jobs. -/
def deliveries (s : State) : Deliveries.State (ℕ × ℕ) PullResult Call :=
  ⟨s.notices.get?, s.results, s.delivered⟩

/-- What a step of a watcher says of its reports. -/
theorem report_of_step {cfg : ApprovalWatcher.Config} (hcfg : cfg.onPullCompleted)
    {ws ws' : ApprovalWatcher.State}
    {a : ApprovalWatcher.Action} (hs : ApprovalWatcher.step cfg ws a = some ws') :
    (reportOf ws' a = none → ws'.reports = ws.reports) ∧
    ∀ p result, reportOf ws' a = some (p, result) →
      callbackOf ws p = none ∧ callbackOf ws' p = some result ∧ ws'.reports = result :: ws.reports := by
  have hrec := recorded_step hcfg hs
  constructor
  · intro hnone
    cases hrec with
    | quiet hd ha hr hc => exact hr
    | added hno hfresh hd ha hr hc => exact hr
    | @reported p result _ hcb hd ha hr hc =>
      rw [reportOf, hc p, if_pos rfl] at hnone
      cases hnone
    | returned hd ha hr hc => exact hr
  · intro p result hsome
    cases a with
    | receipt q answer =>
      rw [reportOf] at hsome
      obtain ⟨r, hr', he⟩ := Option.map_eq_some_iff.mp hsome
      cases he
      have hbefore : callbackOf ws p = none := by
        cases ApprovalWatcher.transition_of_step hs with
        | unconfirmed hp hst => exact ApprovalWatcher.callbackOf_of_stage hp hst
        | completes hp hst => exact ApprovalWatcher.callbackOf_of_stage hp hst
      refine ⟨hbefore, hr', ?_⟩
      cases hrec with
      | quiet hd ha hr hc =>
        rw [hc p, hbefore] at hr'
        cases hr'
      | @reported _ result' _ hcb hd ha hr hc =>
        rw [hc p, if_pos rfl] at hr'
        cases hr'
        exact hr
    | _ => cases hsome

/-- A callback goes on as long as the plugin does not return from it. -/
theorem callback_persists {cfg : ApprovalWatcher.Config} (hcfg : cfg.onPullCompleted)
    {ws ws' : ApprovalWatcher.State} {a : ApprovalWatcher.Action}
    (hs : ApprovalWatcher.step cfg ws a = some ws') {p : ℕ}
    (hkeep : ∀ rejection, a ≠ .callback p rejection)
    (h : callbackOf ws p ≠ none) : callbackOf ws' p ≠ none := by
  cases recorded_step hcfg hs with
  | quiet hd ha hr hc => rwa [hc p]
  | added hno hfresh hd ha hr hc => rwa [hc p]
  | @reported q result _ hcb hd ha hr hc =>
    rw [hc p]
    split_ifs
    · exact Option.some_ne_none _
    · exact h
  | @returned q rejection _ hd ha hr hc =>
    have hne : p ≠ q := by
      rintro rfl
      exact hkeep rejection rfl
    rwa [hc p, if_neg hne]

/-- The plugin hears of each watcher's reports, and holds a notice only for a poll in
its callback. -/
structure Listening (s : State) : Prop where
  records : ∀ ws ∈ s.watchers, Records ws ∧ Tracked ws
  heard : ∀ ws ∈ s.watchers, ∀ r ∈ ws.reports, r ∈ s.results
  notice : ∀ w p n, s.notices.get? (w, p) = some n → ∃ ws, s.watchers[w]? = some ws ∧
    callbackOf ws p ≠ none

theorem listening_init : Listening init where
  records := by
    intro ws hws
    cases hws
  heard := by
    intro ws hws
    cases hws
  notice := by
    intro w p n hn
    cases hn

section Steps

variable {cfg : Config} {s : State}

theorem Listening.setCall (h : Listening s) (c : ℕ) (call : DepositCall) :
    Listening (s.setCall c call) :=
  ⟨h.records, h.heard, h.notice⟩

theorem Listening.create (h : Listening s) :
    Listening
      { s with watcher := some s.watchers.length, watchers := s.watchers ++ [ApprovalWatcher.init] } where
  records := by
    intro ws hws
    rcases List.mem_append.mp hws with hold | hnew
    · exact h.records ws hold
    · rw [List.mem_singleton.mp hnew]
      exact ⟨ApprovalWatcher.records_init, ApprovalWatcher.tracked_init⟩
  heard := by
    intro ws hws r hr
    rcases List.mem_append.mp hws with hold | hnew
    · exact h.heard ws hold r hr
    · rw [List.mem_singleton.mp hnew] at hr
      cases hr
  notice := by
    intro w p n hn
    obtain ⟨ws, hws, hcb⟩ := h.notice w p n hn
    refine ⟨ws, ?_, hcb⟩
    rw [List.getElem?_append_left (List.getElem?_eq_some_iff.mp hws).1]
    exact hws

/-- A watcher takes a step whose report, if any, is heard. -/
theorem Listening.setWatcher (h : Listening s) {w : ℕ} {ws ws' : ApprovalWatcher.State}
    {a : ApprovalWatcher.Action} (hws : s.watchers[w]? = some ws)
    (hs : ApprovalWatcher.step cfg.watcher ws a = some ws')
    (notices : JsMap (ℕ × ℕ) (PullResult × List Call))
    (results : List PullResult) (hresults : ∀ r ∈ s.results, r ∈ results)
    (hreports : ∀ r ∈ ws'.reports, r ∈ results)
    (hnotices : ∀ i p n, notices.get? (i, p) = some n →
      (i = w → callbackOf ws' p ≠ none) ∧ (i ≠ w → ∃ n', s.notices.get? (i, p) = some n')) :
    Listening { s.setWatcher w ws' with notices := notices, results := results } where
  records := records_setWatcher h.records hws hs
  heard := by
    intro other hother r hr
    rcases List.mem_or_eq_of_mem_set hother with hold | rfl
    · exact hresults r (h.heard other hold r hr)
    · exact hreports r hr
  notice := by
    intro i p n hn
    obtain ⟨hcallback, hold⟩ := hnotices i p n hn
    have hget : (s.setWatcher w ws').watchers[i]? = _ := getElem?_setWatcher hws i
    by_cases hi : i = w
    · exact ⟨ws', by rw [hget, if_pos hi], hcallback hi⟩
    · obtain ⟨n', hn'⟩ := hold hi
      obtain ⟨other, hother, hcb⟩ := h.notice i p n' hn'
      exact ⟨other, by rw [hget, if_neg hi]; exact hother, hcb⟩

/-- Notices for polls that the watcher's step leaves in their callbacks. -/
theorem Listening.kept (h : Listening s) {w : ℕ} {ws ws' : ApprovalWatcher.State}
    {a : ApprovalWatcher.Action}
    (hws : s.watchers[w]? = some ws) (hs : ApprovalWatcher.step cfg.watcher ws a = some ws') {i p : ℕ}
    {n : PullResult × List Call} (hkeep : i = w → ∀ rejection, a ≠ .callback p rejection)
    (hn : s.notices.get? (i, p) = some n) :
    (i = w → callbackOf ws' p ≠ none) ∧ (i ≠ w → ∃ n', s.notices.get? (i, p) = some n') := by
  refine ⟨?_, fun _ => ⟨n, hn⟩⟩
  intro hi
  obtain ⟨other, hother, hcb⟩ := h.notice i p n hn
  rw [hi, hws] at hother
  cases hother
  exact callback_persists rfl hs (hkeep hi) hcb

/-- A watcher takes a step that reports nothing and leaves every callback running. -/
theorem Listening.silent (h : Listening s) {w : ℕ} {ws ws' : ApprovalWatcher.State}
    {a : ApprovalWatcher.Action}
    (hws : s.watchers[w]? = some ws) (hs : ApprovalWatcher.step cfg.watcher ws a = some ws')
    (hr : reportOf ws' a = none) (hkeep : ∀ p rejection, a ≠ .callback p rejection) :
    Listening (s.setWatcher w ws') := by
  refine h.setWatcher hws hs s.notices s.results (fun r hr => hr) ?_ fun i p n hn => ?_
  · intro r hr'
    rw [(report_of_step rfl hs).1 hr] at hr'
    exact h.heard ws (List.mem_of_getElem? hws) r hr'
  · exact h.kept hws hs (fun _ => hkeep p) hn

theorem not_callback {a : ApprovalWatcher.Action} (henv : IsEnvironment a) (p : ℕ)
    (rejection : Option String) : a ≠ .callback p rejection := by
  rintro rfl
  exact henv

/-- A report that is heard starts a callback. -/
theorem Listening.reported (h : Listening s) {w p : ℕ} {a : ApprovalWatcher.Action} {ws ws' : ApprovalWatcher.State}
    {result : PullResult} (henv : IsEnvironment a) (hws : s.watchers[w]? = some ws)
    (hstep : ApprovalWatcher.step cfg.watcher ws a = some ws') (hr : reportOf ws' a = some (p, result)) :
    Listening (startCallback cfg (s.setWatcher w ws') w p result) := by
  obtain ⟨-, hafter, hreports⟩ := (report_of_step rfl hstep).2 p result hr
  refine h.setWatcher hws hstep _ _ (fun r hr => List.mem_cons_of_mem _ hr) ?_ fun i q n hn => ?_
  · intro r hr'
    rw [hreports] at hr'
    rcases List.mem_cons.mp hr' with rfl | hold
    · exact List.mem_cons_self
    · exact List.mem_cons_of_mem _ (h.heard ws (List.mem_of_getElem? hws) r hold)
  · rw [JsMap.get?_set] at hn
    split_ifs at hn with he
    · cases he
      refine ⟨fun _ => ?_, fun hne => absurd rfl hne⟩
      rw [hafter]
      exact Option.some_ne_none _
    · exact h.kept hws hstep (fun _ => not_callback henv q) hn

theorem Listening.starts (h : Listening s) {w p : ℕ} {a : ApprovalWatcher.Action} {ws ws' : ApprovalWatcher.State}
    {result : PullResult} (hws : s.watchers[w]? = some ws)
    (hstep : ApprovalWatcher.step cfg.watcher ws a = some ws') (hr : reportOf ws' a = some (p, result)) :
    Deliveries.Step (onPullCompleted cfg) (deliveries s) (.start (w, p) result)
      (deliveries (startCallback cfg (s.setWatcher w ws') w p result)) := by
  obtain ⟨hbefore, -, -⟩ := (report_of_step rfl hstep).2 p result hr
  have hidle : s.notices.get? (w, p) = none := by
    by_contra hne
    obtain ⟨n, hn⟩ := Option.ne_none_iff_exists'.mp hne
    obtain ⟨other, hother, hcb⟩ := h.notice w p n hn
    rw [hws] at hother
    cases hother
    exact hcb hbefore
  have hstart : deliveries (startCallback cfg (s.setWatcher w ws') w p result) =
      (deliveries s).start (w, p) result (onPullCompleted cfg result) :=
    Deliveries.State.ext (JsMap.get?_set_eq_update _ _ _) rfl rfl
  rw [hstart]
  exact .start hidle

theorem Listening.notified (h : Listening s) {w p : ℕ} {result : PullResult} {c : Call} {rest : List Call}
    (hn : s.notices.get? (w, p) = some (result, c :: rest)) (delivered : List Call) :
    Listening { s with notices := s.notices.set (w, p) (result, rest), delivered := delivered } := by
  refine ⟨h.records, h.heard, fun i q n hn' => ?_⟩
  rw [JsMap.get?_set] at hn'
  split_ifs at hn' with he
  · cases he
    exact h.notice w p _ hn
  · exact h.notice i q n hn'

/-- A notification succeeds if the channel accepts it. -/
theorem required_of_notified {w p : ℕ} {rejection : Option String}
    (hok : NotificationsSucceed s (.notified w p rejection)) :
    Deliveries.RequiredSucceed Call.IsNotification (deliveries s) (.call (w, p) (rejection = none)) := by
  intro k job c rest he hrun
  cases rejection with
  | none => cases he
  | some message =>
    cases he
    refine hok c ?_
    rw [show s.notices.get? (w, p) = some (job, c :: rest) from hrun]
    rfl

theorem calls_of_notified (cfg : Config) {w p : ℕ} (rejection : Option String) {result : PullResult} {c : Call}
    {rest : List Call} (hn : s.notices.get? (w, p) = some (result, c :: rest)) :
    Deliveries.Step (onPullCompleted cfg) (deliveries s) (.call (w, p) (rejection = none))
      (deliveries
        { s with
          notices := s.notices.set (w, p) (result, rest)
          delivered := if rejection = none then c :: s.delivered else s.delivered }) := by
  have hcall : deliveries
      { s with
        notices := s.notices.set (w, p) (result, rest)
        delivered := if rejection = none then c :: s.delivered else s.delivered } =
      (deliveries s).call (w, p) result c rest (rejection = none) := by
    refine Deliveries.State.ext (JsMap.get?_set_eq_update _ _ _) rfl ?_
    simp [deliveries, Deliveries.State.call]
  rw [hcall]
  exact .call hn

theorem Listening.returned (h : Listening s) {w p : ℕ} {ws ws' : ApprovalWatcher.State}
    (hws : s.watchers[w]? = some ws)
    (hstep : ApprovalWatcher.step cfg.watcher ws (.callback p none) = some ws') :
    Listening { s.setWatcher w ws' with notices := s.notices.delete (w, p) } := by
  refine h.setWatcher hws hstep (s.notices.delete (w, p)) s.results (fun r hr => hr) ?_ fun i q n hn => ?_
  · intro r hr
    rw [(report_of_step rfl hstep).1 rfl] at hr
    exact h.heard ws (List.mem_of_getElem? hws) r hr
  · rw [JsMap.get?_delete] at hn
    split_ifs at hn with he
    refine h.kept hws hstep ?_ hn
    rintro rfl rejection he'
    cases he'
    exact he rfl

theorem finishes_of_returned (cfg : Config) {w p : ℕ} {result : PullResult} (ws' : ApprovalWatcher.State)
    (hn : s.notices.get? (w, p) = some (result, [])) :
    Deliveries.Step (onPullCompleted cfg) (deliveries s) (.finish (w, p))
      (deliveries { s.setWatcher w ws' with notices := s.notices.delete (w, p) }) := by
  have hput : deliveries { s.setWatcher w ws' with notices := s.notices.delete (w, p) } =
      (deliveries s).put (w, p) none :=
    Deliveries.State.ext (JsMap.get?_delete_eq_update _ _) rfl rfl
  rw [hput]
  exact .finish hn

/-- What a step keeps, and what the plugin's callbacks show of it. -/
theorem Listening.step {s' : State} {a : Action} (h : Listening s) (hs : step cfg s a = some s') :
    Listening s' ∧ (deliveries s' = deliveries s ∨ ∃ b, (NotificationsSucceed s a →
      Deliveries.RequiredSucceed Call.IsNotification (deliveries s) b) ∧
      Deliveries.Step (onPullCompleted cfg) (deliveries s) b (deliveries s')) := by
  cases transition_of_step hs with
  | apart => exact ⟨h.setCall _ _, .inl rfl⟩
  | takes => exact ⟨h.setCall _ _, .inl rfl⟩
  | creates => exact ⟨h.create.setCall _ _, .inl rfl⟩
  | adds hws hstep => exact ⟨(h.silent hws hstep rfl fun _ _ => by simp).setCall _ _, .inl rfl⟩
  | succeeds => exact ⟨h.setCall _ _, .inl rfl⟩
  | quiet henv hws hstep hr => exact ⟨h.silent hws hstep hr (not_callback henv), .inl rfl⟩
  | reports henv hws hstep hr =>
    refine ⟨h.reported henv hws hstep hr, .inr ⟨_, ?_, h.starts hws hstep hr⟩⟩
    intro _ k job c rest he
    cases he
  | notified hn =>
    exact ⟨h.notified hn _, .inr ⟨_, required_of_notified, calls_of_notified cfg _ hn⟩⟩
  | returned hn hws hstep =>
    refine ⟨h.returned hws hstep, .inr ⟨_, ?_, finishes_of_returned cfg _ hn⟩⟩
    intro _ k job c rest he
    cases he

end Steps

/-- In every run whose notifications succeed, the deposit of a mined pull is open at its
watcher, or its callback is running, or each configured channel was told of it. -/
theorem mined_pull_told {cfg : Config} (h : ReachUnder (step cfg) NotificationsSucceed init s) :
    ∀ ws ∈ s.watchers, ∀ tx ∈ ws.txs, tx.status = .mined →
      (∃ d, ws.deposits.get? tx.deposit.correlationId = some d) ∨ Notifying s tx.deposit.correlationId ∨
        Told cfg.channels s.delivered tx.deposit.correlationId := by
  have hlistening : ∀ t, ReachUnder (step cfg) NotificationsSucceed init t → Listening t :=
    fun t ht => ht.invariant listening_init fun _ _ _ hi _ hs => (hi.step hs).1
  have hinv : Deliveries.Inv (onPullCompleted cfg) Call.IsNotification (deliveries s) :=
    Deliveries.inv_of_reach h rfl hlistening fun _ _ _ hl hs => (hl.step hs).2
  intro ws hws tx htx hmined
  rcases ((hlistening s h).records ws hws).2.tx tx htx with hopen | ⟨r, hr, hcid⟩
  · exact .inl hopen
  · right
    rcases hinv.begun r ((hlistening s h).heard ws hws r hr) with ⟨k, rest, hrun⟩ | hmade
    · exact .inl ⟨k, r, rest, hrun, hcid⟩
    · right
      rw [← hcid]
      exact told_of_delivered fun c hc => hmade c hc (isNotification_of_mem hc)

/-- The placed deposit's pull: the depositor approves five tokens at block 11, and the
first poll finds and pulls them. -/
def pulled : List Action :=
  ordering 0 "alice" ++ [.signer 0 (.ok "0x9999999999999999999999999999999999999999")] ++
    placing 0 0 "cid-1" ++
    [.watcher 0 (.approve "0x7777777777777777777777777777777777777777" "0x3333333333333333333333333333333333333333" 5)] ++
    (ApprovalWatcher.reading 0 0 11 [ApprovalWatcher.fiveTokensLog 11]).map (.watcher 0) ++
    (ApprovalWatcher.pulling 0 0).map (.watcher 0)

end PullDepositPlugin

/-! ### One-time-address deposits -/

namespace OtaDepositPlugin

open BalanceWatcher (OtaDeposit OtaResult Tracked Recorded callbackOf recorded_step)

/-- A channel that is told of a credit accepts it; archiving may fail. -/
def NotificationsSucceed (s : State) : Action → Prop
  | .notified p (some _) => ∀ c ∈ (s.notices.get? p).bind fun notice =>
    notice.2.head?, ¬ c.IsNotification
  | _ => True

instance (s : State) (a : Action) : Decidable (NotificationsSucceed s a) := by
  unfold NotificationsSucceed
  split <;> infer_instance

/-- The callback of a deposit's sweep is running. -/
def Notifying (s : State) (correlationId : String) : Prop :=
  ∃ p result rest, s.notices.get? p = some (result, rest) ∧ result.deposit.correlationId = correlationId

/-- The plugin's callbacks as jobs. -/
def deliveries (s : State) : Deliveries.State ℕ OtaResult Call :=
  ⟨s.notices.get?, s.results, s.delivered⟩

/-- What a step of the watcher says of its reports. -/
theorem report_of_step {cfg : BalanceWatcher.Config} {ws ws' : BalanceWatcher.State}
    {a : BalanceWatcher.Action} (hs : BalanceWatcher.step cfg ws a = some ws') :
    (reportOf ws' a = none → ws'.reports = ws.reports) ∧
    ∀ p result, reportOf ws' a = some (p, result) →
      callbackOf ws p = none ∧ callbackOf ws' p = some result ∧ ws'.reports = result :: ws.reports := by
  have hrec := recorded_step hs
  constructor
  · intro hnone
    cases hrec with
    | quiet hd ha hr hc => exact hr
    | added hd ha hr hc => exact hr
    | @reported p poll result _ hcb hp hresult hd ha hr hc =>
      rw [reportOf, hc p, if_pos rfl] at hnone
      cases hnone
    | returned hd ha hr hc => exact hr
  · intro p result hsome
    cases a with
    | resume q =>
      rw [reportOf] at hsome
      obtain ⟨r, hr', he⟩ := Option.map_eq_some_iff.mp hsome
      cases he
      have hbefore : callbackOf ws p = none := by
        cases BalanceWatcher.transition_of_step hs with
        | detected hp hst => exact BalanceWatcher.callbackOf_of_stage hp hst
        | unswept hp hst => exact BalanceWatcher.callbackOf_of_stage hp hst
        | throws hp hst => exact BalanceWatcher.callbackOf_of_stage hp hst
      refine ⟨hbefore, hr', ?_⟩
      cases hrec with
      | quiet hd ha hr hc =>
        rw [hc p, hbefore] at hr'
        cases hr'
      | reported hcb hp hresult hd ha hr hc =>
        rw [hc p, if_pos rfl] at hr'
        cases hr'
        exact hr
    | _ => cases hsome

/-- A callback goes on as long as the plugin does not return from it. -/
theorem callback_persists {cfg : BalanceWatcher.Config} {ws ws' : BalanceWatcher.State}
    {a : BalanceWatcher.Action} (hs : BalanceWatcher.step cfg ws a = some ws') {p : ℕ}
    (hkeep : ∀ rejection, a ≠ .callback p rejection)
    (h : callbackOf ws p ≠ none) : callbackOf ws' p ≠ none := by
  cases recorded_step hs with
  | quiet hd ha hr hc => rwa [hc p]
  | added hd ha hr hc => rwa [hc p]
  | reported hcb hp hresult hd ha hr hc =>
    rw [hc p]
    split_ifs
    · exact Option.some_ne_none _
    · exact h
  | @returned q rejection _ hd ha hr hc =>
    have hne : p ≠ q := by
      rintro rfl
      exact hkeep rejection rfl
    rwa [hc p, if_neg hne]

/-- The plugin hears of its watcher's reports, holds a notice only for a poll in its
callback, and has an account made for each deposit. -/
structure Listening (s : State) : Prop where
  tracked : Tracked s.watcher
  heard : ∀ r, r ∈ s.watcher.reports ↔ r ∈ s.results
  notice : ∀ p n, s.notices.get? p = some n → callbackOf s.watcher p ≠ none
  accounts : (s.watcher.added.map OtaDeposit.custodyAccountId).Nodup

theorem listening_init : Listening init where
  tracked := BalanceWatcher.tracked_init
  heard := fun _ => Iff.rfl
  notice := by
    intro p n hn
    cases hn
  accounts := List.nodup_nil

section Steps

variable {cfg : Config} {s : State}

theorem Listening.setCall (h : Listening s) (c : ℕ) (call : DepositCall) :
    Listening (s.setCall c call) :=
  ⟨h.tracked, h.heard, h.notice, h.accounts⟩

/-- The watcher takes a step that reports nothing and leaves every callback running. -/
theorem Listening.silent (h : Listening s) {ws' : BalanceWatcher.State} {a : BalanceWatcher.Action}
    (hs : BalanceWatcher.step cfg.watcher s.watcher a = some ws') (hr : reportOf ws' a = none)
    (hkeep : ∀ p rejection, a ≠ .callback p rejection)
    (haccounts : (ws'.added.map OtaDeposit.custodyAccountId).Nodup) :
    Listening { s with watcher := ws' } where
  tracked := h.tracked.step hs
  heard := by
    intro r
    rw [(report_of_step hs).1 hr]
    exact h.heard r
  notice := fun p n hn => callback_persists hs (hkeep p) (h.notice p n hn)
  accounts := haccounts

theorem added_of_environment {ws ws' : BalanceWatcher.State} {a : BalanceWatcher.Action}
    (hs : BalanceWatcher.step cfg.watcher ws a = some ws') (hno : ∀ deposit, a ≠ .addDeposit deposit) :
    ws'.added = ws.added := by
  cases recorded_step hs with
  | quiet hd ha => exact ha
  | @added deposit => exact absurd rfl (hno deposit)
  | reported hnone hp hresult hd ha => exact ha
  | returned hd ha => exact ha

theorem not_callback {a : BalanceWatcher.Action} (henv : IsEnvironment a) (p : ℕ)
    (rejection : Option String) : a ≠ .callback p rejection := by
  rintro rfl
  exact henv

theorem not_addDeposit {a : BalanceWatcher.Action} (henv : IsEnvironment a) (deposit : OtaDeposit) :
    a ≠ .addDeposit deposit := by
  rintro rfl
  exact henv

/-- A report that is heard starts a callback. -/
theorem Listening.reported (h : Listening s) {p : ℕ} {a : BalanceWatcher.Action} {ws' : BalanceWatcher.State}
    {result : OtaResult} (henv : IsEnvironment a)
    (hstep : BalanceWatcher.step cfg.watcher s.watcher a = some ws') (hr : reportOf ws' a = some (p, result)) :
    Listening (startCallback cfg { s with watcher := ws' } p result) := by
  obtain ⟨-, hafter, hreports⟩ := (report_of_step hstep).2 p result hr
  refine ⟨h.tracked.step hstep, fun r => ?_, fun q n hn => ?_, ?_⟩
  · show r ∈ ws'.reports ↔ r ∈ result :: s.results
    rw [hreports, List.mem_cons, List.mem_cons, h.heard r]
  · simp only [startCallback, JsMap.get?_set] at hn
    split_ifs at hn with he
    · rw [he]
      show callbackOf ws' p ≠ none
      rw [hafter]
      exact Option.some_ne_none _
    · exact callback_persists hstep (not_callback henv q) (h.notice q n hn)
  · show (ws'.added.map OtaDeposit.custodyAccountId).Nodup
    rw [added_of_environment hstep (not_addDeposit henv)]
    exact h.accounts

theorem Listening.starts (h : Listening s) {p : ℕ} {a : BalanceWatcher.Action} {ws' : BalanceWatcher.State}
    {result : OtaResult} (hstep : BalanceWatcher.step cfg.watcher s.watcher a = some ws')
    (hr : reportOf ws' a = some (p, result)) :
    Deliveries.Step (onTransferDetected cfg) (deliveries s) (.start p result)
      (deliveries (startCallback cfg { s with watcher := ws' } p result)) := by
  obtain ⟨hbefore, -, -⟩ := (report_of_step hstep).2 p result hr
  have hidle : s.notices.get? p = none := by
    by_contra hne
    obtain ⟨n, hn⟩ := Option.ne_none_iff_exists'.mp hne
    exact h.notice p n hn hbefore
  have hstart : deliveries (startCallback cfg { s with watcher := ws' } p result) =
      (deliveries s).start p result (onTransferDetected cfg result) :=
    Deliveries.State.ext (JsMap.get?_set_eq_update _ _ _) rfl rfl
  rw [hstart]
  exact .start hidle

theorem Listening.notified (h : Listening s) {p : ℕ} {result : OtaResult} {c : Call} {rest : List Call}
    (hn : s.notices.get? p = some (result, c :: rest)) (delivered : List Call) :
    Listening { s with notices := s.notices.set p (result, rest), delivered := delivered } := by
  refine ⟨h.tracked, h.heard, fun q n hn' => ?_, h.accounts⟩
  rw [JsMap.get?_set] at hn'
  split_ifs at hn' with he
  · rw [he]
    exact h.notice p _ hn
  · exact h.notice q n hn'

/-- A notification succeeds if the channel accepts it. -/
theorem required_of_notified {p : ℕ} {rejection : Option String}
    (hok : NotificationsSucceed s (.notified p rejection)) :
    Deliveries.RequiredSucceed Call.IsNotification (deliveries s) (.call p (rejection = none)) := by
  intro k job c rest he hrun
  cases rejection with
  | none => cases he
  | some message =>
    cases he
    refine hok c ?_
    rw [show s.notices.get? p = some (job, c :: rest) from hrun]
    rfl

theorem calls_of_notified (cfg : Config) {p : ℕ} (rejection : Option String) {result : OtaResult} {c : Call}
    {rest : List Call} (hn : s.notices.get? p = some (result, c :: rest)) :
    Deliveries.Step (onTransferDetected cfg) (deliveries s) (.call p (rejection = none))
      (deliveries
        { s with
          notices := s.notices.set p (result, rest)
          delivered := if rejection = none then c :: s.delivered else s.delivered }) := by
  have hcall : deliveries
      { s with
        notices := s.notices.set p (result, rest)
        delivered := if rejection = none then c :: s.delivered else s.delivered } =
      (deliveries s).call p result c rest (rejection = none) := by
    refine Deliveries.State.ext (JsMap.get?_set_eq_update _ _ _) rfl ?_
    simp [deliveries, Deliveries.State.call]
  rw [hcall]
  exact .call hn

theorem Listening.returned (h : Listening s) {p : ℕ} {ws' : BalanceWatcher.State}
    (hstep : BalanceWatcher.step cfg.watcher s.watcher (.callback p none) = some ws') :
    Listening { s with watcher := ws', notices := s.notices.delete p } := by
  refine ⟨h.tracked.step hstep, fun r => ?_, fun q n hn => ?_, ?_⟩
  · rw [(report_of_step hstep).1 rfl]
    exact h.heard r
  · rw [JsMap.get?_delete] at hn
    split_ifs at hn with he
    refine callback_persists hstep ?_ (h.notice q n hn)
    rintro rejection he'
    cases he'
    exact he rfl
  · show (ws'.added.map OtaDeposit.custodyAccountId).Nodup
    rw [added_of_environment hstep fun deposit => by simp]
    exact h.accounts

theorem finishes_of_returned (cfg : Config) {p : ℕ} {result : OtaResult} (ws' : BalanceWatcher.State)
    (hn : s.notices.get? p = some (result, [])) :
    Deliveries.Step (onTransferDetected cfg) (deliveries s) (.finish p)
      (deliveries { s with watcher := ws', notices := s.notices.delete p }) := by
  have hput : deliveries { s with watcher := ws', notices := s.notices.delete p } =
      (deliveries s).put p none :=
    Deliveries.State.ext (JsMap.get?_delete_eq_update _ _) rfl rfl
  rw [hput]
  exact .finish hn

/-- What a step keeps, and what the plugin's callbacks show of it. -/
theorem Listening.step {s' : State} {a : Action} (h : Listening s) (hs : step cfg s a = some s') :
    Listening s' ∧ (deliveries s' = deliveries s ∨ ∃ b, (NotificationsSucceed s a →
      Deliveries.RequiredSucceed Call.IsNotification (deliveries s) b) ∧
      Deliveries.Step (onTransferDetected cfg) (deliveries s) b (deliveries s')) := by
  cases transition_of_step hs with
  | call => exact ⟨h.setCall _ _, .inl rfl⟩
  | @adds a c call deposit ws' hfresh hstep =>
    refine ⟨(h.silent hstep rfl (fun _ _ => by simp) ?_).setCall _ _, .inl rfl⟩
    have hadded : ws'.added = deposit :: s.watcher.added := by
      cases BalanceWatcher.transition_of_step hstep with
      | addDeposit => rfl
    rw [hadded, List.map_cons, List.nodup_cons]
    refine ⟨?_, h.accounts⟩
    intro hm
    obtain ⟨d, hd, he⟩ := List.mem_map.mp hm
    exact hfresh d hd he
  | quiet henv hstep hr =>
    refine ⟨h.silent hstep hr (not_callback henv) ?_, .inl rfl⟩
    rw [added_of_environment hstep (not_addDeposit henv)]
    exact h.accounts
  | reports henv hstep hr =>
    refine ⟨h.reported henv hstep hr, .inr ⟨_, ?_, h.starts hstep hr⟩⟩
    intro _ k job c rest he
    cases he
  | notified hn =>
    exact ⟨h.notified hn _, .inr ⟨_, required_of_notified, calls_of_notified cfg _ hn⟩⟩
  | returned hn hstep =>
    refine ⟨h.returned hstep, .inr ⟨_, ?_, finishes_of_returned cfg _ hn⟩⟩
    intro _ k job c rest he
    cases he

end Steps

theorem mem_archiveIfSwept {cfg : Config} {result : OtaResult} {custodyAccountId : String}
    (h : .archiveCustodyAccount custodyAccountId ∈ archiveIfSwept cfg result) :
    result.deposit.custodyAccountId = custodyAccountId := by
  unfold archiveIfSwept at h
  split_ifs at h
  · cases List.mem_singleton.mp h
    rfl
  · cases h

/-- Whatever comes before the archiving of an account includes the notifications. -/
theorem notified_before_archive {cfg : Config} {result : OtaResult} {custodyAccountId : String}
    {made rest : List Call}
    (h : onTransferDetected cfg result = made ++ .archiveCustodyAccount custodyAccountId :: rest) :
    result.deposit.custodyAccountId = custodyAccountId ∧
      ∀ c ∈ notifications cfg.channels (credit result), c ∈ made := by
  have hno : ∀ c ∈ notifications cfg.channels (credit result),
      c ≠ .archiveCustodyAccount custodyAccountId := by
    rintro c hc rfl
    exact isNotification_of_mem hc
  rw [onTransferDetected] at h
  rcases List.append_eq_append_iff.mp h with ⟨t, hmade, harchive⟩ | ⟨t, hnotes, harchive⟩
  · refine ⟨@mem_archiveIfSwept cfg _ _ ?_, fun c hc => by rw [hmade]; exact List.mem_append_left _ hc⟩
    rw [harchive]
    exact List.mem_append_right _ List.mem_cons_self
  · cases t with
    | nil =>
      rw [List.append_nil] at hnotes
      rw [List.nil_append] at harchive
      refine ⟨@mem_archiveIfSwept cfg _ _ ?_, fun c hc => hnotes ▸ hc⟩
      rw [← harchive]
      exact List.mem_cons_self
    | cons c t =>
      rw [List.cons_append] at harchive
      have hc : c ∈ notifications cfg.channels (credit result) := by
        rw [hnotes]
        exact List.mem_append_right _ List.mem_cons_self
      exact absurd (List.cons_eq_cons.mp harchive).1.symm (hno c hc)

/-- In every run whose notifications succeed, the deposit of a mined sweep is open at the
watcher, or its callback is running, or each configured channel was told of it; and
each configured channel was told of a deposit whose account is archived. -/
theorem mined_sweep_told {cfg : Config} {s : State}
    (h : ReachUnder (step cfg) NotificationsSucceed init s) :
    (∀ tx ∈ s.watcher.txs, tx.status = .mined →
      (∃ d, s.watcher.deposits.get? tx.deposit.correlationId = some d) ∨
        Notifying s tx.deposit.correlationId ∨
        Told cfg.channels s.delivered tx.deposit.correlationId) ∧
    ∀ d ∈ s.watcher.added, .archiveCustodyAccount d.custodyAccountId ∈ s.delivered →
      Told cfg.channels s.delivered d.correlationId := by
  have hlistening : ∀ t, ReachUnder (step cfg) NotificationsSucceed init t → Listening t :=
    fun t ht => ht.invariant listening_init fun _ _ _ hi _ hs => (hi.step hs).1
  have hinv : Deliveries.Inv (onTransferDetected cfg) Call.IsNotification (deliveries s) :=
    Deliveries.inv_of_reach h rfl hlistening fun _ _ _ hl hs => (hl.step hs).2
  have hl : Listening s := hlistening s h
  constructor
  · intro tx htx hmined
    rcases hl.tracked.known _ (hl.tracked.tx tx htx) with hopen | ⟨r, hr, hcid⟩
    · exact .inl hopen
    · right
      rcases hinv.begun r ((hl.heard r).mp hr) with ⟨p, rest, hrun⟩ | hmade
      · exact .inl ⟨p, r, rest, hrun, hcid⟩
      · right
        rw [← hcid]
        exact told_of_delivered fun c hc =>
          hmade c (List.mem_append_left _ hc) (isNotification_of_mem hc)
  · intro d hd harchived
    obtain ⟨r, hr, made, rest, hcalls, hmade⟩ := hinv.delivered _ harchived
    obtain ⟨haccount, hnotified⟩ := notified_before_archive hcalls
    have hsame : r.deposit = d :=
      List.inj_on_of_nodup_map hl.accounts (hl.tracked.report r ((hl.heard r).mpr hr)) hd haccount
    rw [← hsame]
    exact told_of_delivered fun c hc => hmade c (hnotified c hc) (isNotification_of_mem hc)

/-! ### A deposit of five tokens -/

def plainPlugin : Config where
  units := wholeUnits
  gasStation := true
  channels := ⟨"ethereum", true, true⟩
  archiveCustodyAccount := true

/-- A deposit is ordered and funded, and the first poll's sweep of it is reported. -/
def swept : List Action :=
  [.deposit 0 ⟨"alice", ⟨"finp2p", some "token"⟩, none⟩,
    .asset 0 (.ok (some ⟨"0x7777777777777777777777777777777777777777", 0⟩)),
    .target 0 (.ok (some "0x5555555555555555555555555555555555555555")) "cid-1",
    .account 0 (.ok ⟨"ota-cid-1", "0x6666666666666666666666666666666666666666"⟩),
    .wallet 0 (.ok "0x6666666666666666666666666666666666666666") 0] ++
    BalanceWatcher.sweeping.tail.map .watcher ++ [.watcher (.receipt 0 .receipt), .watcher (.resume 0)]

end OtaDepositPlugin

/-! ### Both plugins -/

/-- In every run whose notifications succeed, each deposit with a mined pull or sweep is
open, or its callback is running, or each configured channel was told of it; and a
custody account is archived only once each was told of its deposit. -/
theorem no_credit_lost (pull : PullDepositPlugin.Config) (ota : OtaDepositPlugin.Config) :
    (∀ s, ReachUnder (PullDepositPlugin.step pull) PullDepositPlugin.NotificationsSucceed
      PullDepositPlugin.init s → ∀ ws ∈ s.watchers, ∀ tx ∈ ws.txs, tx.status = .mined →
        (∃ d, ws.deposits.get? tx.deposit.correlationId = some d) ∨
          PullDepositPlugin.Notifying s tx.deposit.correlationId ∨
          Told pull.channels s.delivered tx.deposit.correlationId) ∧
    (∀ s, ReachUnder (OtaDepositPlugin.step ota) OtaDepositPlugin.NotificationsSucceed
      OtaDepositPlugin.init s → (∀ tx ∈ s.watcher.txs, tx.status = .mined →
        (∃ d, s.watcher.deposits.get? tx.deposit.correlationId = some d) ∨
          OtaDepositPlugin.Notifying s tx.deposit.correlationId ∨
          Told ota.channels s.delivered tx.deposit.correlationId) ∧
      ∀ d ∈ s.watcher.added, .archiveCustodyAccount d.custodyAccountId ∈ s.delivered →
        Told ota.channels s.delivered d.correlationId) := by
  constructor
  · intro s h
    exact PullDepositPlugin.mined_pull_told h
  · intro s h
    exact OtaDepositPlugin.mined_sweep_told h

/-- A pull and a sweep whose notifications succeed, even though archiving fails. -/
theorem pull_and_sweep_told :
    (∃ s, ReachUnder (PullDepositPlugin.step PullDepositPlugin.plainPlugin)
      PullDepositPlugin.NotificationsSucceed PullDepositPlugin.init s ∧ s.delivered.length = 2 ∧
      ∀ ws ∈ s.watchers, ∀ tx ∈ ws.txs, tx.status = .mined →
        (∃ d, ws.deposits.get? tx.deposit.correlationId = some d) ∨
          PullDepositPlugin.Notifying s tx.deposit.correlationId ∨
          Told PullDepositPlugin.plainPlugin.channels s.delivered tx.deposit.correlationId) ∧
    ∃ s, ReachUnder (OtaDepositPlugin.step OtaDepositPlugin.plainPlugin)
      OtaDepositPlugin.NotificationsSucceed OtaDepositPlugin.init s ∧ s.delivered.length = 2 ∧
      ∀ tx ∈ s.watcher.txs, tx.status = .mined →
        (∃ d, s.watcher.deposits.get? tx.deposit.correlationId = some d) ∨
          OtaDepositPlugin.Notifying s tx.deposit.correlationId ∨
          Told OtaDepositPlugin.plainPlugin.channels s.delivered tx.deposit.correlationId := by
  constructor
  · have he : (exec (guarded (PullDepositPlugin.step PullDepositPlugin.plainPlugin)
        PullDepositPlugin.NotificationsSucceed) PullDepositPlugin.init
        (PullDepositPlugin.pulled ++ [.notified 0 0 none, .notified 0 0 none, .returned 0 0])).map
        (fun s => s.delivered.length) = some 2 := by
      decide +kernel
    obtain ⟨s, hs, hlength⟩ := Option.map_eq_some_iff.mp he
    have hrun := reachUnder_of_exec hs
    exact ⟨s, hrun, hlength,
      (no_credit_lost PullDepositPlugin.plainPlugin OtaDepositPlugin.plainPlugin).1 s hrun⟩
  · have he : (exec (guarded (OtaDepositPlugin.step OtaDepositPlugin.plainPlugin)
        OtaDepositPlugin.NotificationsSucceed) OtaDepositPlugin.init
        (OtaDepositPlugin.swept ++ [.notified 0 none, .notified 0 none,
          .notified 0 (some "no such account"),
          .returned 0])).map (fun s => s.delivered.length) = some 2 := by
      decide +kernel
    obtain ⟨s, hs, hlength⟩ := Option.map_eq_some_iff.mp he
    have hrun := reachUnder_of_exec hs
    exact ⟨s, hrun, hlength,
      ((no_credit_lost PullDepositPlugin.plainPlugin OtaDepositPlugin.plainPlugin).2 s hrun).1⟩

/-- Both channels reject the notification of a mined sweep: the deposit is not open, no
callback is running, neither channel was told, and the account is archived. -/
theorem rejected_credit_forgotten : ∃ s, Reach (OtaDepositPlugin.step OtaDepositPlugin.plainPlugin)
    OtaDepositPlugin.init s ∧
    (∃ tx ∈ s.watcher.txs, tx.status = .mined ∧
      ¬ ((∃ d, s.watcher.deposits.get? tx.deposit.correlationId = some d) ∨
      OtaDepositPlugin.Notifying s tx.deposit.correlationId ∨
      Told OtaDepositPlugin.plainPlugin.channels s.delivered tx.deposit.correlationId)) ∧
    ∃ d ∈ s.watcher.added, .archiveCustodyAccount d.custodyAccountId ∈ s.delivered ∧
      ¬ Told OtaDepositPlugin.plainPlugin.channels s.delivered d.correlationId := by
  have he : (exec (OtaDepositPlugin.step OtaDepositPlugin.plainPlugin) OtaDepositPlugin.init
      (OtaDepositPlugin.swept ++ [.notified 0 (some "hook down"), .notified 0 (some "client down"),
        .notified 0 none, .returned 0])).map
      (fun s => decide (s.delivered = [.archiveCustodyAccount "ota-cid-1"]) &&
        s.notices.entries.isEmpty &&
        s.watcher.deposits.entries.isEmpty &&
        s.watcher.txs.any (fun tx => tx.status = .mined ∧ tx.deposit.correlationId = "cid-1") &&
        s.watcher.added.any fun d => d.custodyAccountId = "ota-cid-1" ∧ d.correlationId = "cid-1") =
          some true := by
    decide +kernel
  obtain ⟨s, hs, heq⟩ := Option.map_eq_some_iff.mp he
  simp only [Bool.and_eq_true, decide_eq_true_eq, List.any_eq_true, List.isEmpty_iff] at heq
  obtain ⟨⟨⟨⟨hdelivered, hnotices⟩, hdeposits⟩, tx, htx, hmined, hcid⟩, d, hd, haccount, hdcid⟩ := heq
  have huntold : ¬ Told OtaDepositPlugin.plainPlugin.channels s.delivered "cid-1" := by
    rintro ⟨hhook, -⟩
    obtain ⟨transfer, hm, -⟩ := hhook rfl
    rw [hdelivered] at hm
    cases List.mem_singleton.mp hm
  refine ⟨s, reach_of_exec hs, ⟨tx, htx, hmined, ?_⟩, d, hd, ?_, ?_⟩
  · rw [hcid]
    rintro (⟨d', hopen⟩ | ⟨p, result, rest, hn, -⟩ | htold)
    · have hentry := (JsMap.get?_eq_some_iff _ _ _).mp hopen
      rw [hdeposits] at hentry
      cases hentry
    · have hentry := (JsMap.get?_eq_some_iff _ _ _).mp hn
      rw [hnotices] at hentry
      cases hentry
    · exact huntold htold
  · rw [hdelivered, haccount]
    exact List.mem_singleton_self _
  · rw [hdcid]
    exact huntold

end FinP2PAdapter.Deposits
