import FinP2PAdapter.Deposits.ApprovalWatcher

/-! What the approval watcher records of its deposits in every run, whatever its
polls do: open deposits are of distinct contracts, a deposit that was ever in a
poll's hand or pulled is open or reported, and a callback runs from its report to
its return. -/

namespace FinP2PAdapter.Deposits.ApprovalWatcher

/-- The result whose callback a poll awaits. -/
def PollStage.callback? : PollStage → Option PullResult
  | .handling _ _ _ (.callback result) => some result
  | _ => none

def callbackOf (s : State) (p : ℕ) : Option PullResult :=
  (s.polls.get? p).bind fun poll => poll.stage.callback?

/-- The deposit is open or its pull was reported. -/
def Known (s : State) (correlationId : String) : Prop :=
  (∃ d, s.deposits.get? correlationId = some d) ∨
    ∃ r ∈ s.reports, r.deposit.correlationId = correlationId

/-- What a step does to the records, given that the plugin listens. -/
inductive Recorded (s : State) : Action → State → Prop where
  | quiet {a : Action} {s' : State} (hd : s'.deposits = s.deposits) (ha : s'.added = s.added)
    (hr : s'.reports = s.reports) (hc : ∀ q, callbackOf s' q = callbackOf s q) : Recorded s a s'
  | added {id : ℕ} {deposit : PullDeposit} {s' : State}
      (hno : ¬ hasOpenDepositFor s deposit.contractAddress)
    (hfresh : deposit.correlationId ∉ s.added)
      (hd : s'.deposits = s.deposits.set deposit.correlationId deposit)
    (ha : s'.added = deposit.correlationId :: s.added) (hr : s'.reports = s.reports)
    (hc : ∀ q, callbackOf s' q = callbackOf s q) : Recorded s (.addDeposit id deposit) s'
  | reported {p : ℕ} {result : PullResult} {s' : State} (hnone : callbackOf s p = none)
    (hd : s'.deposits = s.deposits.delete result.deposit.correlationId) (ha : s'.added = s.added)
    (hr : s'.reports = result :: s.reports)
    (hc : ∀ q, callbackOf s' q = if q = p then some result else callbackOf s q) :
    Recorded s (.receipt p .receipt) s'
  | returned {p : ℕ} {rejection : Option String} {s' : State} (hd : s'.deposits = s.deposits)
    (ha : s'.added = s.added) (hr : s'.reports = s.reports)
    (hc : ∀ q, callbackOf s' q = if q = p then none else callbackOf s q) :
    Recorded s (.callback p rejection) s'

section Callbacks

variable {s : State}

theorem callbackOf_setPoll (s : State) (p : ℕ) (poll : Poll) (q : ℕ) :
    callbackOf (s.setPoll p poll) q = if q = p then poll.stage.callback? else callbackOf s q := by
  simp only [callbackOf, State.setPoll, JsMap.get?_set]
  split_ifs <;> rfl

theorem callbackOf_of_stage {p : ℕ} {poll : Poll} {stage : PollStage} (hp : s.polls.get? p = some poll)
    (hst : poll.stage = stage) : callbackOf s p = stage.callback? := by
  rw [callbackOf, hp, ← hst]
  rfl

/-- A poll that neither leaves nor enters the callback. -/
theorem callbackOf_setPoll_self {p : ℕ} {poll : Poll} (h : callbackOf s p = poll.stage.callback?)
    (q : ℕ) : callbackOf (s.setPoll p poll) q = callbackOf s q := by
  rw [callbackOf_setPoll]
  split_ifs with hq
  · rw [hq, h]
  · rfl

end Callbacks

theorem recorded_handleLogs {s : State} {p : ℕ} {poll : Poll} {latest : ℕ} {logs : List Log}
    {a : Action}
    (hnone : callbackOf s p = none) : Recorded s a (handleLogs s p poll latest logs) := by
  rcases handleLogs_cases s p poll latest logs with ⟨-, h⟩ | ⟨message, h⟩ | ⟨log, -, rest, -, h⟩ |
    ⟨log, -, rest, deposit, owner, value, -, -, -, h⟩ <;> rw [h]
  · exact .quiet rfl rfl rfl (callbackOf_setPoll_self
      (s := { advance s poll.key latest with inFlight := _ }) hnone)
  · exact .quiet rfl rfl rfl (callbackOf_setPoll_self (s := { s with inFlight := _ }) hnone)
  · exact .quiet rfl rfl rfl (callbackOf_setPoll_self hnone)
  · exact .quiet rfl rfl rfl (callbackOf_setPoll_self hnone)

theorem afterAllowance_callback (cfg : Config) (latest : ℕ) (log : Log) (rest : List Log)
    (deposit : PullDeposit) (owner : String) (value currentAllowance : ℕ) :
    (PollStage.handling latest log rest
      (afterAllowance cfg deposit owner value currentAllowance)).callback? =
      none := by
  unfold afterAllowance
  split
  · rfl
  · split_ifs <;> rfl

theorem recorded_step {cfg : Config} (hcfg : cfg.onPullCompleted) {s s' : State} {a : Action}
    (hs : step cfg s a = some s') : Recorded s a s' := by
  -- a poll at an await outside the callback goes on, and not into it
  have hmoves : ∀ {p : ℕ} {poll : Poll} {stage next : PollStage} {a : Action},
      s.polls.get? p = some poll → poll.stage = stage → stage.callback? = none →
      next.callback? = none → Recorded s a (s.setPoll p { poll with stage := next }) := by
    intro p poll stage next a hp hst hstage hnext
    refine .quiet rfl rfl rfl (callbackOf_setPoll_self ?_)
    rw [callbackOf_of_stage hp hst, hstage, hnext]
  cases transition_of_step hs with
  | @addDeposit id deposit hid hfresh =>
    unfold addDeposit
    split_ifs with ho
    · exact .quiet rfl rfl rfl fun _ => rfl
    · dsimp only
      split_ifs
      · exact .added ho hfresh rfl rfl rfl fun _ => rfl
      · exact .added ho hfresh rfl rfl rfl fun _ => rfl
  | seedRejected => exact .quiet rfl rfl rfl fun _ => rfl
  | seeded => exact .quiet rfl rfl rfl fun _ => rfl
  | tick hi hp =>
    unfold startPoll
    dsimp only
    split_ifs
    · exact .quiet rfl rfl rfl fun _ => rfl
    · exact .quiet rfl rfl rfl (callbackOf_setPoll_self (by simp [callbackOf, hp, PollStage.callback?]))
    · exact .quiet rfl rfl rfl fun _ => rfl
  | blockNumber hp hst hstage =>
    refine hmoves hp hst rfl ?_
    rcases hstage with rfl | ⟨message, rfl⟩ | ⟨latest, -, -, rfl⟩ <;> rfl
  | logsRejected hp hst => exact hmoves hp hst rfl rfl
  | @noLogs p latest poll hp hst =>
    have hnone : callbackOf s p = none := callbackOf_of_stage hp hst
    exact .quiet rfl rfl rfl (callbackOf_setPoll_self (s := advance s poll.key latest) hnone)
  | @batch p latest poll logs hp hst =>
    have hnone : callbackOf s p = none := callbackOf_of_stage hp hst
    have hq : Recorded { s with inFlight := insert poll.key s.inFlight } (.logs p (.ok logs))
        (handleLogs { s with inFlight := insert poll.key s.inFlight } p poll latest logs) :=
      recorded_handleLogs hnone
    cases hq with
    | quiet hd ha hr hc => exact .quiet hd ha hr hc
  | next hp hst => exact recorded_handleLogs (callbackOf_of_stage hp hst)
  | @throws p latest poll log rest message hp hst =>
    have hnone : callbackOf s p = none := callbackOf_of_stage hp hst
    exact .quiet rfl rfl rfl (callbackOf_setPoll_self
      (s := { s with inFlight := s.inFlight.erase poll.key }) hnone)
  | allowanceRejected hp hst => exact hmoves hp hst rfl rfl
  | allowance hp hst => exact hmoves hp hst rfl (afterAllowance_callback _ _ _ _ _ _ _ _)
  | gasRejected hp hst => exact hmoves hp hst rfl rfl
  | gas hp hst => exact hmoves hp hst rfl rfl
  | @broadcast p latest poll log rest deposit owner desired hp hst hrange =>
    have hnone : callbackOf s p = none := callbackOf_of_stage hp hst
    exact .quiet rfl rfl rfl (callbackOf_setPoll_self (s := s.send _) hnone)
  | transferRejected hp hst => exact hmoves hp hst rfl rfl
  | transferSent hp hst => exact hmoves hp hst rfl rfl
  | unconfirmed hp hst hh =>
    refine hmoves hp hst rfl ?_
    rcases hh with rfl | ⟨message, rfl⟩ <;> rfl
  | @completes p latest i poll log rest deposit owner desired tx hp hst =>
    have hnone : callbackOf s p = none := callbackOf_of_stage hp hst
    have hpolls : ∀ q, callbackOf (dropDeposit s deposit poll.contractAddress) q = callbackOf s q := by
      intro q
      rw [callbackOf, dropDeposit_polls, callbackOf]
    unfold completePull
    dsimp only
    rw [if_pos hcfg]
    refine @Recorded.reported _ _ ⟨deposit, owner, i,
      cfg.units.formatUnits desired deposit.decimals⟩ _ hnone
      (dropDeposit_deposits ..) (dropDeposit_added ..) (congrArg _ (dropDeposit_reports ..)) fun q => ?_
    rw [callbackOf_setPoll]
    split_ifs
    · rfl
    · exact hpolls q
  | callback hp hst hh =>
    refine .returned rfl rfl rfl fun q => ?_
    rw [State.handle, callbackOf_setPoll]
    rcases hh with rfl | ⟨message, rfl⟩ <;> rfl
  | approve => exact .quiet rfl rfl rfl fun _ => rfl
  | mine => exact .quiet rfl rfl rfl fun _ => rfl
  | revert => exact .quiet rfl rfl rfl fun _ => rfl

/-! ### Open deposits -/

/-- Open deposits are kept under their ids and are of distinct contracts. -/
structure Records (s : State) : Prop where
  keyed : ∀ cid d, s.deposits.get? cid = some d → d.correlationId = cid ∧ cid ∈ s.added
  keys_nodup : (s.deposits.values.map PullDeposit.key).Nodup

theorem records_init : Records init where
  keyed := by
    intro cid d h
    cases h
  keys_nodup := List.nodup_nil

theorem Records.step {s s' : State} {a : Action} (h : Records s) (hs : Recorded s a s') :
    Records s' := by
  have hsame : s'.deposits = s.deposits → s'.added = s.added → Records s' := by
    intro hd ha
    refine ⟨fun cid d hget => ?_, by rw [hd]; exact h.keys_nodup⟩
    rw [hd] at hget
    rw [ha]
    exact h.keyed cid d hget
  cases hs with
  | quiet hd ha => exact hsame hd ha
  | @added id deposit _ hno hfresh hd ha =>
    have hnone : s.deposits.get? deposit.correlationId = none := by
      by_contra hne
      obtain ⟨d, hget⟩ := Option.ne_none_iff_exists'.mp hne
      exact hfresh (h.keyed _ d hget).2
    constructor
    · intro cid d hget
      rw [hd, JsMap.get?_set] at hget
      rw [ha]
      split_ifs at hget with he
      · cases hget
        exact ⟨he.symm, he ▸ List.mem_cons_self⟩
      · exact ⟨(h.keyed cid d hget).1, List.mem_cons_of_mem _ (h.keyed cid d hget).2⟩
    · rw [hd, JsMap.values_set_of_absent _ _ hnone, List.map_append, List.nodup_append]
      refine ⟨h.keys_nodup, List.nodup_singleton _, ?_⟩
      intro k hk k' hk' he
      rw [List.map_singleton, List.mem_singleton] at hk'
      obtain ⟨d, hd', hdk⟩ := List.mem_map.mp hk
      apply hno
      simp only [hasOpenDepositFor, List.any_eq_true, beq_iff_eq]
      exact ⟨d, hd', by rw [hdk, he, hk']; rfl⟩
  | @reported p result _ hnone hd ha =>
    constructor
    · intro cid d hget
      rw [hd, JsMap.get?_delete] at hget
      rw [ha]
      split_ifs at hget
      exact h.keyed cid d hget
    · rw [hd]
      exact h.keys_nodup.sublist ((JsMap.values_delete_sublist _ _).map _)
  | returned hd ha => exact hsame hd ha

/-- A deposit once known stays known. -/
theorem Known.step {s s' : State} {a : Action} {correlationId : String} (h : Known s correlationId)
    (hs : Recorded s a s') : Known s' correlationId := by
  have hsame : s'.deposits = s.deposits → s'.reports = s.reports → Known s' correlationId := by
    intro hd hr
    unfold Known
    rw [hd, hr]
    exact h
  cases hs with
  | quiet hd ha hr => exact hsame hd hr
  | @added id deposit _ hno hfresh hd ha hr =>
    rcases h with ⟨d, hget⟩ | hreported
    · left
      rw [hd]
      by_cases he : correlationId = deposit.correlationId
      · exact ⟨deposit, by rw [he, JsMap.get?_set_self]⟩
      · exact ⟨d, by rw [JsMap.get?_set_of_ne _ _ he]; exact hget⟩
    · right
      rw [hr]
      exact hreported
  | @reported p result _ hnone hd ha hr =>
    by_cases he : correlationId = result.deposit.correlationId
    · exact .inr ⟨result, by rw [hr]; exact List.mem_cons_self, he.symm⟩
    · rcases h with ⟨d, hget⟩ | ⟨r, hr', hcid⟩
      · left
        rw [hd]
        exact ⟨d, by rw [JsMap.get?_delete_of_ne _ he]; exact hget⟩
      · exact .inr ⟨r, by rw [hr]; exact List.mem_cons_of_mem _ hr', hcid⟩
  | returned hd ha hr => exact hsame hd hr

/-! ### Deposits in hand -/

theorem Records.known (h : Records s) {d : PullDeposit} (hd : d ∈ s.deposits.values) :
    Known s d.correlationId := by
  obtain ⟨cid, hget⟩ := (JsMap.mem_values _ _).mp hd
  exact .inl ⟨d, by rw [(h.keyed cid d hget).1]; exact hget⟩

/-- The deposit an `addDeposit` call took in. -/
def AddCall.taken? : AddCall → Option PullDeposit
  | .seeding deposit => some deposit
  | .resolved deposit => some deposit
  | .rejected _ _ => none

/-- Every deposit in a poll's hand, taken in by a call or pulled is known. -/
structure Tracked (s : State) : Prop where
  inHand : ∀ p poll, s.polls.get? p = some poll → ∀ d ∈ poll.stage.deposit?, Known s d.correlationId
  tx : ∀ tx ∈ s.txs, Known s tx.deposit.correlationId
  call : ∀ id call, s.calls.get? id = some call → ∀ d ∈ call.taken?, Known s d.correlationId

theorem tracked_init : Tracked init where
  inHand := by
    intro p poll hp
    cases hp
  tx := by
    intro tx htx
    cases htx
  call := by
    intro id call hc
    cases hc

section Tracking

variable {s : State}

theorem Tracked.setPoll (h : Tracked s) (p : ℕ) {poll : Poll}
    (hd : ∀ d ∈ poll.stage.deposit?, Known s d.correlationId) : Tracked (s.setPoll p poll) where
  inHand := by
    intro q other hq
    rw [State.setPoll, JsMap.get?_set] at hq
    split_ifs at hq
    · cases hq
      exact hd
    · exact h.inHand q other hq
  tx := h.tx
  call := h.call

theorem Tracked.setCall (h : Tracked s) (id : ℕ) {call : AddCall}
    (hd : ∀ d ∈ call.taken?, Known s d.correlationId) : Tracked (s.setCall id call) where
  inHand := h.inHand
  tx := h.tx
  call := by
    intro id' other hc
    rw [State.setCall, JsMap.get?_set] at hc
    split_ifs at hc
    · cases hc
      exact hd
    · exact h.call id' other hc

/-- Known deposits stay tracked while the records grow around them. -/
theorem Tracked.mono (h : Tracked s) {s' : State} (hk : ∀ cid, Known s cid → Known s' cid)
    (hp : s'.polls = s.polls) (ht : s'.txs = s.txs) (hc : s'.calls = s.calls) : Tracked s' where
  inHand := by
    intro p poll hget d hd
    rw [hp] at hget
    exact hk _ (h.inHand p poll hget d hd)
  tx := by
    intro tx htx
    rw [ht] at htx
    exact hk _ (h.tx tx htx)
  call := by
    intro id call hget d hd
    rw [hc] at hget
    exact hk _ (h.call id call hget d hd)

theorem Tracked.handleLogs (hrec : Records s) (h : Tracked s) (p : ℕ) (poll : Poll) (latest : ℕ)
    (logs : List Log) : Tracked (handleLogs s p poll latest logs) := by
  have hsame : ∀ (lastSeen : JsMap String ℕ) (inFlight : Finset String),
      Tracked { s with lastSeen := lastSeen, inFlight := inFlight } :=
    fun _ _ => h.mono (fun _ hk => hk) rfl rfl rfl
  rcases handleLogs_cases s p poll latest logs with ⟨-, he⟩ | ⟨message, he⟩ | ⟨log, -, rest, -, he⟩ |
    ⟨log, -, rest, deposit, owner, value, -, -, hm, he⟩ <;> rw [he]
  · exact (hsame _ _).setPoll p (no_deposit rfl)
  · exact (hsame s.lastSeen _).setPoll p (no_deposit rfl)
  · exact h.setPoll p (no_deposit rfl)
  · refine h.setPoll p ?_
    rintro d ⟨⟩
    exact hrec.known (findMatchingDeposit_mem hm).1

theorem Tracked.settle (h : Tracked s) {i : ℕ} {tx : PullTx} (htx : s.txs[i]? = some tx)
    (status : Submissions.Status) (allowances : String → String → ℕ) :
    Tracked { s with txs := s.txs.set i { tx with status := status }, allowances := allowances } where
  inHand := h.inHand
  tx := by
    intro t ht
    rcases List.mem_or_eq_of_mem_set ht with hold | rfl
    · exact h.tx t hold
    · exact h.tx tx (List.mem_of_getElem? htx)
  call := h.call

theorem Tracked.send (h : Tracked s) (tx : PullTx) (hknown : Known s tx.deposit.correlationId) :
    Tracked (s.send tx) where
  inHand := h.inHand
  tx := by
    intro t ht
    rcases List.mem_append.mp ht with hold | hnew
    · exact h.tx t hold
    · rw [List.mem_singleton.mp hnew]
      exact hknown
  call := h.call

theorem Tracked.addDeposit (h : Tracked s) (id : ℕ) {deposit : PullDeposit}
    (hfresh : deposit.correlationId ∉ s.added) : Tracked (addDeposit s id deposit) := by
  unfold ApprovalWatcher.addDeposit
  split_ifs with ho
  · exact h.setCall id (no_deposit rfl)
  · have htracked : Tracked { s with
        deposits := s.deposits.set deposit.correlationId deposit
        added := deposit.correlationId :: s.added } := by
      refine h.mono (fun cid hk => ?_) rfl rfl rfl
      exact hk.step (@Recorded.added _ id _ _ ho hfresh rfl rfl rfl fun _ => rfl)
    have hself : Known { s with
        deposits := s.deposits.set deposit.correlationId deposit
        added := deposit.correlationId :: s.added } deposit.correlationId :=
      .inl ⟨deposit, JsMap.get?_set_self _ _ _⟩
    dsimp only
    split_ifs
    · exact htracked.setCall id (by rintro d ⟨⟩; exact hself)
    · exact htracked.setCall id (by rintro d ⟨⟩; exact hself)

theorem Tracked.step {cfg : Config} (hcfg : cfg.onPullCompleted) {s' : State} {a : Action}
    (hrec : Records s) (h : Tracked s) (hs : step cfg s a = some s') : Tracked s' := by
  have hknown : ∀ cid, Known s cid → Known s' cid := fun cid hk => hk.step (recorded_step hcfg hs)
  -- a poll goes on with the deposit it has in hand or without
  have hmoves : ∀ {p : ℕ} {poll : Poll} {stage next : PollStage}, s.polls.get? p = some poll →
      poll.stage = stage → (∀ d ∈ next.deposit?, d ∈ stage.deposit?) →
      Tracked (s.setPoll p { poll with stage := next }) :=
    fun hp hst hd => h.setPoll _ fun d hm => h.inHand _ _ hp d (hst ▸ hd d hm)
  cases transition_of_step hs with
  | addDeposit hid hfresh => exact h.addDeposit _ hfresh
  | seedRejected => exact h.setCall _ (no_deposit rfl)
  | @seeded id currentBlock deposit hc =>
    refine Tracked.setCall (s := { s with
      lastSeen := s.lastSeen.set deposit.key (currentBlock - 1)
      intervals := s.intervals.set s.nextInterval deposit.contractAddress
      timers := s.timers.set deposit.key s.nextInterval
      nextInterval := s.nextInterval + 1
      reads := Function.update s.reads deposit.correlationId (some currentBlock) })
      (h.mono (fun _ hk => hk) rfl rfl rfl) id ?_
    rintro d ⟨⟩
    exact h.call id _ hc deposit rfl
  | tick =>
    unfold startPoll
    dsimp only
    split_ifs
    · exact h
    · exact h.setPoll _ (no_deposit rfl)
    · exact h.mono (fun _ hk => hk) rfl rfl rfl
  | blockNumber hp hst hstage =>
    refine hmoves hp hst ?_
    rcases hstage with rfl | ⟨message, rfl⟩ | ⟨latest, -, -, rfl⟩ <;> exact no_deposit rfl
  | logsRejected hp hst => exact hmoves hp hst (no_deposit rfl)
  | @noLogs p latest poll =>
    exact Tracked.setPoll (s := advance s poll.key latest) (h.mono (fun _ hk => hk) rfl rfl rfl) p
      (no_deposit rfl)
  | @batch p latest poll logs =>
    exact Tracked.handleLogs (s := { s with inFlight := insert poll.key s.inFlight })
      ⟨hrec.keyed, hrec.keys_nodup⟩ (h.mono (fun _ hk => hk) rfl rfl rfl) p poll latest logs
  | next => exact h.handleLogs hrec _ _ _ _
  | @throws p latest poll =>
    exact Tracked.setPoll (s := { s with inFlight := s.inFlight.erase poll.key })
      (h.mono (fun _ hk => hk) rfl rfl rfl) p (no_deposit rfl)
  | allowanceRejected hp hst => exact hmoves hp hst (no_deposit rfl)
  | allowance hp hst =>
    refine hmoves hp hst fun d hd => ?_
    rw [afterAllowance_deposit hd]
    rfl
  | gasRejected hp hst => exact hmoves hp hst (no_deposit rfl)
  | gas hp hst => exact hmoves hp hst fun d hd => hd
  | @broadcast p latest poll log rest deposit owner desired hp hst hrange =>
    have hin : Known s deposit.correlationId := h.inHand p poll hp deposit (by rw [hst]; rfl)
    refine (h.send ⟨deposit, owner, desired, log.blockNumber, .pending⟩ hin).setPoll p ?_
    rintro d ⟨⟩
    exact hin
  | transferRejected hp hst => exact hmoves hp hst (no_deposit rfl)
  | transferSent hp hst => exact hmoves hp hst fun d hd => hd
  | unconfirmed hp hst hh =>
    refine hmoves hp hst ?_
    rcases hh with rfl | ⟨message, rfl⟩ <;> exact no_deposit rfl
  | @completes p latest i poll log rest deposit owner desired tx hp hst =>
    have hin : Known s deposit.correlationId := h.inHand p poll hp deposit (by rw [hst]; rfl)
    obtain ⟨reports, next, hnext, he⟩ :=
      completePull_eq cfg s p poll latest log rest deposit owner desired i
    rw [he] at hknown ⊢
    -- the record that goes from the open deposits is in the report
    have htracked : Tracked { dropDeposit s deposit poll.contractAddress with reports := reports } :=
      h.mono hknown (dropDeposit_polls ..) (dropDeposit_txs ..) (dropDeposit_calls ..)
    refine htracked.setPoll p ?_
    rcases hnext with rfl | ⟨amount, rfl⟩
    · exact no_deposit rfl
    · rintro d ⟨⟩
      exact hknown _ hin
  | callback hp hst hh =>
    refine hmoves hp hst ?_
    rcases hh with rfl | ⟨message, rfl⟩ <;> exact no_deposit rfl
  | approve => exact h.mono (fun _ hk => hk) rfl rfl rfl
  | mine htx => exact h.settle htx _ _
  | revert htx => exact h.settle htx _ _

end Tracking

/-! ### Calls -/

/-- The deposit of an `addDeposit` call. -/
def AddCall.deposit : AddCall → PullDeposit
  | .seeding deposit => deposit
  | .resolved deposit => deposit
  | .rejected deposit _ => deposit

/-- A call under id `id` is for the deposit. -/
def CallFor (s : State) (id : ℕ) (deposit : PullDeposit) : Prop :=
  ∃ call, s.calls.get? id = some call ∧ call.deposit = deposit

theorem callFor_setCall {s : State} {id : ℕ} {call : AddCall} :
    CallFor (s.setCall id call) id call.deposit :=
  ⟨call, JsMap.get?_set_self _ _ _, rfl⟩

theorem callFor_addDeposit (s : State) (id : ℕ) (deposit : PullDeposit) :
    CallFor (addDeposit s id deposit) id deposit := by
  unfold addDeposit
  split_ifs
  · exact callFor_setCall
  · dsimp only
    split_ifs
    · exact callFor_setCall
    · exact callFor_setCall

theorem CallFor.setCall {s : State} {id id' : ℕ} {deposit : PullDeposit} {call : AddCall}
    (h : CallFor s id deposit) (hd : id = id' → call.deposit = deposit) :
    CallFor (s.setCall id' call) id deposit := by
  by_cases he : id = id'
  · subst he
    exact ⟨call, JsMap.get?_set_self _ _ _, hd rfl⟩
  · obtain ⟨other, hget, ho⟩ := h
    exact ⟨other, by rw [State.setCall, JsMap.get?_set_of_ne _ _ he]; exact hget, ho⟩

/-- A call stays a call for its deposit. -/
theorem CallFor.step {cfg : Config} {s s' : State} {a : Action} {id : ℕ} {deposit : PullDeposit}
    (h : CallFor s id deposit) (hs : step cfg s a = some s') : CallFor s' id deposit := by
  have hsame : ∀ {t : State}, t.calls = s.calls → CallFor t id deposit := by
    intro t ht
    unfold CallFor
    rw [ht]
    exact h
  have hself : ∀ {id' : ℕ} {call : AddCall}, s.calls.get? id' = some call → id = id' →
      call.deposit = deposit := by
    rintro id' call hc rfl
    obtain ⟨other, hget, ho⟩ := h
    rw [hc] at hget
    cases hget
    exact ho
  cases transition_of_step hs with
  | @addDeposit id' deposit' hid hfresh =>
    have hne : id ≠ id' := by
      rintro rfl
      obtain ⟨other, hget, -⟩ := h
      rw [hid] at hget
      cases hget
    unfold addDeposit
    split_ifs
    · exact h.setCall fun he => absurd he hne
    · dsimp only
      split_ifs
      · exact CallFor.setCall (s := { s with deposits := _, added := _ }) h fun he => absurd he hne
      · exact CallFor.setCall (s := { s with deposits := _, added := _ }) h fun he => absurd he hne
  | seedRejected hc =>
    have hdeposit := hself hc
    exact h.setCall hdeposit
  | @seeded id' currentBlock deposit' hc =>
    have hdeposit := hself hc
    exact CallFor.setCall (s := { s with
      lastSeen := _, intervals := _, timers := _, nextInterval := _, reads := _ }) h hdeposit
  | tick =>
    unfold startPoll
    dsimp only
    split_ifs <;> exact hsame rfl
  | batch =>
    rename_i p latest poll logs hp hst hne hrange
    rcases handleLogs_cases { s with inFlight := insert poll.key s.inFlight } p poll latest logs with
      ⟨-, he⟩ | ⟨message, he⟩ | ⟨log, -, rest, -, he⟩ |
      ⟨log, -, rest, deposit, owner, value, -, -, -, he⟩ <;>
      rw [he] <;> exact hsame rfl
  | next =>
    rename_i p latest poll log rest hp hst
    rcases handleLogs_cases s p poll latest rest with
      ⟨-, he⟩ | ⟨message, he⟩ | ⟨log, -, rest, -, he⟩ |
      ⟨log, -, rest, deposit, owner, value, -, -, -, he⟩ <;>
      rw [he] <;> exact hsame rfl
  | completes =>
    refine hsame ?_
    unfold completePull dropDeposit
    dsimp only
    split_ifs <;> rfl
  | _ => exact hsame rfl

end FinP2PAdapter.Deposits.ApprovalWatcher
