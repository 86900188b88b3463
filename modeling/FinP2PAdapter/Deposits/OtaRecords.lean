import FinP2PAdapter.Deposits.BalanceWatcher

/-! What the balance watcher records of its deposits in every run, whatever its polls
do: a deposit ever added is open or reported, timers, polls, sweeps and reports are
of deposits that were added, and a callback runs from its report to its return. -/

namespace FinP2PAdapter.Deposits.BalanceWatcher

/-- The result whose callback a poll awaits. -/
def PollStage.callback? : PollStage → Option OtaResult
  | .callback result => some result
  | _ => none

def callbackOf (s : State) (p : ℕ) : Option OtaResult :=
  (s.polls.get? p).bind fun poll => poll.stage.callback?

/-- The deposit is open or its sweep was reported. -/
def Known (s : State) (correlationId : String) : Prop :=
  (∃ d, s.deposits.get? correlationId = some d) ∨
    ∃ r ∈ s.reports, r.deposit.correlationId = correlationId

/-- What a step does to the records. -/
inductive Recorded (s : State) : Action → State → Prop where
  | quiet {a : Action} {s' : State} (hd : s'.deposits = s.deposits) (ha : s'.added = s.added)
    (hr : s'.reports = s.reports) (hc : ∀ q, callbackOf s' q = callbackOf s q) : Recorded s a s'
  | added {deposit : OtaDeposit} {s' : State}
    (hd : s'.deposits = s.deposits.set deposit.correlationId deposit)
      (ha : s'.added = deposit :: s.added)
    (hr : s'.reports = s.reports) (hc : ∀ q, callbackOf s' q = callbackOf s q) :
    Recorded s (.addDeposit deposit) s'
  | reported {p : ℕ} {poll : Poll} {result : OtaResult} {s' : State} (hnone : callbackOf s p = none)
    (hp : s.polls.get? p = some poll) (hresult : result.deposit = poll.deposit)
    (hd : s'.deposits = s.deposits.delete result.deposit.correlationId) (ha : s'.added = s.added)
    (hr : s'.reports = result :: s.reports)
    (hc : ∀ q, callbackOf s' q = if q = p then some result else callbackOf s q) :
      Recorded s (.resume p) s'
  | returned {p : ℕ} {rejection : Option String} {s' : State} (hd : s'.deposits = s.deposits)
    (ha : s'.added = s.added) (hr : s'.reports = s.reports)
    (hc : ∀ q, callbackOf s' q = if q = p then none else callbackOf s q) :
    Recorded s (.callback p rejection) s'

section Callbacks

variable {s : State}

theorem callbackOf_setPoll (s : State) (p : ℕ) (poll : Poll) (q : ℕ) :
    callbackOf (s.setPoll p poll) q = if q = p then poll.stage.callback? else callbackOf s q := by
  simp only [callbackOf, State.setPoll, JsMap.get?_set]
  split_ifs <;> rfl

theorem callbackOf_of_stage {p : ℕ} {poll : Poll} {stage : PollStage} (hp : s.polls.get? p = some poll)
    (hst : poll.stage = stage) : callbackOf s p = stage.callback? := by
  rw [callbackOf, hp, ← hst]
  rfl

/-- A poll that neither leaves nor enters the callback. -/
theorem callbackOf_setPoll_self {p : ℕ} {poll : Poll} (h : callbackOf s p = poll.stage.callback?)
    (q : ℕ) : callbackOf (s.setPoll p poll) q = callbackOf s q := by
  rw [callbackOf_setPoll]
  split_ifs with hq
  · rw [hq, h]
  · rfl

end Callbacks

theorem recorded_step {cfg : Config} {s s' : State} {a : Action} (hs : step cfg s a = some s') :
    Recorded s a s' := by
  -- a poll at an await outside the callback goes on, and not into it
  have hmoves : ∀ {p : ℕ} {poll : Poll} {stage next : PollStage} {inFlight : Finset String}
      {a : Action}, s.polls.get? p = some poll → poll.stage = stage → stage.callback? = none →
      next.callback? = none → Recorded s a ({ s with inFlight := inFlight }.move p poll next) := by
    intro p poll stage next inFlight a hp hst hstage hnext
    refine .quiet rfl rfl rfl (callbackOf_setPoll_self (s := { s with inFlight := inFlight }) ?_)
    have hnone : callbackOf s p = stage.callback? := callbackOf_of_stage hp hst
    rw [hstage] at hnone
    exact hnone.trans hnext.symm
  cases transition_of_step hs with
  | addDeposit => exact .added rfl rfl rfl fun _ => rfl
  | tick hi hp =>
    unfold startPoll
    split_ifs
    · exact .quiet rfl rfl rfl fun _ => rfl
    · exact .quiet rfl rfl rfl (callbackOf_setPoll_self (by simp [callbackOf, hp, PollStage.callback?]))
    · exact .quiet rfl rfl rfl fun _ => rfl
  | balanceRejected hp hst => exact hmoves hp hst rfl rfl
  | balance hp hst =>
    unfold afterBalance
    split
    · exact hmoves hp hst rfl rfl
    · exact hmoves hp hst rfl rfl
    · refine hmoves hp hst rfl ?_
      split_ifs <;> rfl
  | gasRejected hp hst => exact hmoves hp hst rfl rfl
  | gas hp hst => exact hmoves hp hst rfl rfl
  | @broadcast p amount poll hp hst =>
    have hnone : callbackOf s p = none := callbackOf_of_stage hp hst
    exact .quiet rfl rfl rfl (callbackOf_setPoll_self
      (s := s.send ⟨poll.deposit, amount, .pending⟩) hnone)
  | transferRejected hp hst => exact hmoves hp hst rfl rfl
  | transferSent hp hst => exact hmoves hp hst rfl rfl
  | unconfirmed hp hst hstage =>
    refine hmoves hp hst rfl ?_
    rcases hstage with rfl | ⟨message, rfl⟩ <;> rfl
  | confirmed hp hst => exact hmoves hp hst rfl rfl
  | @detected p amount tx poll hp hst =>
    refine @Recorded.reported _ _ _ ⟨poll.deposit,
      cfg.units.formatUnits amount poll.deposit.decimals, tx⟩ _
      (callbackOf_of_stage hp hst) hp rfl rfl rfl rfl fun q => ?_
    unfold detected
    rw [State.move, callbackOf_setPoll]
    rfl
  | unswept hp hst => exact hmoves hp hst rfl rfl
  | throws hp hst => exact hmoves hp hst rfl rfl
  | callback hp hst hstage =>
    refine .returned rfl rfl rfl fun q => ?_
    rw [leave, State.move, callbackOf_setPoll]
    rcases hstage with rfl | ⟨message, rfl⟩ <;> rfl
  | receive => exact .quiet rfl rfl rfl fun _ => rfl
  | mine => exact .quiet rfl rfl rfl fun _ => rfl
  | revert => exact .quiet rfl rfl rfl fun _ => rfl

/-- A deposit once known stays known. -/
theorem Known.step {s s' : State} {a : Action} {correlationId : String} (h : Known s correlationId)
    (hs : Recorded s a s') : Known s' correlationId := by
  have hsame : s'.deposits = s.deposits → s'.reports = s.reports → Known s' correlationId := by
    intro hd hr
    unfold Known
    rw [hd, hr]
    exact h
  cases hs with
  | quiet hd ha hr => exact hsame hd hr
  | @added deposit _ hd ha hr =>
    rcases h with ⟨d, hget⟩ | hreported
    · left
      rw [hd]
      by_cases he : correlationId = deposit.correlationId
      · exact ⟨deposit, by rw [he, JsMap.get?_set_self]⟩
      · exact ⟨d, by rw [JsMap.get?_set_of_ne _ _ he]; exact hget⟩
    · right
      rw [hr]
      exact hreported
  | @reported p poll result _ hnone hp hresult hd ha hr =>
    by_cases he : correlationId = result.deposit.correlationId
    · exact .inr ⟨result, by rw [hr]; exact List.mem_cons_self, he.symm⟩
    · rcases h with ⟨d, hget⟩ | ⟨r, hr', hcid⟩
      · left
        rw [hd]
        exact ⟨d, by rw [JsMap.get?_delete_of_ne _ he]; exact hget⟩
      · exact .inr ⟨r, by rw [hr]; exact List.mem_cons_of_mem _ hr', hcid⟩
  | returned hd ha hr => exact hsame hd hr

/-- Every deposit added is known, and timers, polls, sweeps and reports are of
deposits added. -/
structure Tracked (s : State) : Prop where
  known : ∀ d ∈ s.added, Known s d.correlationId
  interval : ∀ i d, s.intervals.get? i = some d → d ∈ s.added
  poll : ∀ p poll, s.polls.get? p = some poll → poll.deposit ∈ s.added
  tx : ∀ tx ∈ s.txs, tx.deposit ∈ s.added
  report : ∀ r ∈ s.reports, r.deposit ∈ s.added

theorem tracked_init : Tracked init where
  known := by
    intro d hd
    cases hd
  interval := by
    intro i d hi
    cases hi
  poll := by
    intro p poll hp
    cases hp
  tx := by
    intro tx htx
    cases htx
  report := by
    intro r hr
    cases hr

section Tracking

variable {s : State}

theorem stop_intervals {correlationId : String} {i : ℕ} {d : OtaDeposit}
    (h : (stop s correlationId).intervals.get? i = some d) : s.intervals.get? i = some d := by
  simp only [stop] at h
  split at h
  · exact h
  · rw [JsMap.get?_delete] at h
    split_ifs at h
    exact h

theorem Tracked.move (h : Tracked s) {p : ℕ} {poll : Poll} (hp : poll.deposit ∈ s.added)
    (stage : PollStage)
    (inFlight : Finset String) : Tracked ({ s with inFlight := inFlight }.move p poll stage) where
  known := h.known
  interval := h.interval
  poll := by
    intro q other hq
    rw [State.move, State.setPoll, JsMap.get?_set] at hq
    split_ifs at hq
    · cases hq
      exact hp
    · exact h.poll q other hq
  tx := h.tx
  report := h.report

theorem Tracked.settle (h : Tracked s) {i : ℕ} {tx : SweepTx} (htx : s.txs[i]? = some tx)
    (status : Submissions.Status) (balances : String → String → ℕ) :
    Tracked { s with txs := s.txs.set i { tx with status := status }, balances := balances } where
  known := h.known
  interval := h.interval
  poll := h.poll
  tx := by
    intro t ht
    rcases List.mem_or_eq_of_mem_set ht with hold | rfl
    · exact h.tx t hold
    · exact h.tx tx (List.mem_of_getElem? htx)
  report := h.report

theorem Tracked.step {cfg : Config} {s' : State} {a : Action} (h : Tracked s)
    (hs : step cfg s a = some s') : Tracked s' := by
  have hknown : ∀ cid, Known s cid → Known s' cid := fun cid hk => hk.step (recorded_step hs)
  cases transition_of_step hs with
  | @addDeposit deposit =>
    have hmem : ∀ d ∈ s.added, d ∈ deposit :: s.added := fun d hd => List.mem_cons_of_mem _ hd
    constructor
    · intro d hd
      rcases List.mem_cons.mp hd with rfl | hd
      · exact .inl ⟨d, JsMap.get?_set_self _ _ _⟩
      · exact hknown _ (h.known d hd)
    · intro i d hi
      simp only [addDeposit, JsMap.get?_set] at hi
      split_ifs at hi
      · cases hi
        exact List.mem_cons_self
      · exact hmem d (h.interval i d hi)
    · exact fun p poll hp => hmem _ (h.poll p poll hp)
    · exact fun tx htx => hmem _ (h.tx tx htx)
    · exact fun r hr => hmem _ (h.report r hr)
  | @tick interval p deposit hi =>
    unfold startPoll
    split_ifs
    · exact h
    · exact @Tracked.move s h p ⟨deposit, .balance⟩ (h.interval interval deposit hi) .balance s.inFlight
    · exact h
  | balanceRejected hp => exact h.move (h.poll _ _ hp) _ s.inFlight
  | balance hp =>
    unfold afterBalance
    split
    · exact h.move (h.poll _ _ hp) _ s.inFlight
    · exact h.move (h.poll _ _ hp) _ s.inFlight
    · exact h.move (h.poll _ _ hp) _ _
  | gasRejected hp => exact h.move (h.poll _ _ hp) _ s.inFlight
  | gas hp => exact h.move (h.poll _ _ hp) _ s.inFlight
  | @broadcast p amount poll hp hst =>
    have hsend : Tracked (s.send ⟨poll.deposit, amount, .pending⟩) := by
      refine ⟨h.known, h.interval, h.poll, fun t ht => ?_, h.report⟩
      rcases List.mem_append.mp ht with hold | hnew
      · exact h.tx t hold
      · rw [List.mem_singleton.mp hnew]
        exact h.poll p poll hp
    exact hsend.move (h.poll p poll hp) _ s.inFlight
  | transferRejected hp => exact h.move (h.poll _ _ hp) _ s.inFlight
  | transferSent hp => exact h.move (h.poll _ _ hp) _ s.inFlight
  | unconfirmed hp => exact h.move (h.poll _ _ hp) _ s.inFlight
  | confirmed hp => exact h.move (h.poll _ _ hp) _ s.inFlight
  | @detected p amount tx poll hp hst =>
    constructor
    · exact fun d hd => hknown _ (h.known d hd)
    · exact fun i d hi => h.interval i d (stop_intervals hi)
    · intro q other hq
      simp only [detected, State.move, State.setPoll, JsMap.get?_set] at hq
      split_ifs at hq
      · cases hq
        exact h.poll p poll hp
      · exact h.poll q other hq
    · exact h.tx
    · intro r hr
      rcases List.mem_cons.mp hr with rfl | hr
      · exact h.poll p poll hp
      · exact h.report r hr
  | unswept hp => exact h.move (h.poll _ _ hp) _ _
  | throws hp => exact h.move (h.poll _ _ hp) _ _
  | callback hp => exact h.move (h.poll _ _ hp) _ _
  | receive => exact ⟨h.known, h.interval, h.poll, h.tx, h.report⟩
  | mine htx => exact h.settle htx _ _
  | revert htx => exact h.settle htx _ s.balances

end Tracking

end FinP2PAdapter.Deposits.BalanceWatcher
