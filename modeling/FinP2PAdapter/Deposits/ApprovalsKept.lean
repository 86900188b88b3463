import FinP2PAdapter.Deposits.CursorWrites
import FinP2PAdapter.Deposits.PollingTimers

/-! No approval is lost by the cursor. A poll that fails to pull an approval by an exception leaves
the cursor behind it, so that a later poll has it again while its deposit is open, as long as what
`pollOnce` checks at its start still holds when it starts on its batch. A pull that fails with its
receipt returns as if it had succeeded, and the cursor moves past the approval. -/

namespace FinP2PAdapter.Deposits.ApprovalWatcher

open Machine

/-! ### The side condition -/

/-- A poll that starts on a batch finds no other poll of the contract on one, and the cursor before
its own first block. -/
def Current (s : State) (a : Action) : Prop :=
  ∀ fetch ∈ fetches s a, fetch.2.2 ≠ [] → fetch.1.key ∉ s.inFlight ∧
    ∀ cursor ∈ s.lastSeen.get? fetch.1.key, cursor < fetch.1.fromBlock

instance (s : State) (a : Action) : Decidable (Current s a) := by
  unfold Current
  infer_instance

structure Retries (chain : String → List Log) (s : State) (a : Action) : Prop where
  kept : Kept chain s a
  upToDate : PollsUpToDate s a
  current : Current s a

instance (chain : String → List Log) (s : State) (a : Action) : Decidable (Retries chain s a) :=
  decidable_of_iff (Kept chain s a ∧ PollsUpToDate s a ∧ Current s a)
    ⟨fun h => ⟨h.1, h.2.1, h.2.2⟩, fun h => ⟨h.kept, h.upToDate, h.current⟩⟩

/-! ### What a step keeps -/

section MapsSteps

variable {m m' : Maps} {stopping : Option String} {a : Action}

theorem MapsStep.added_kept (hs : MapsStep stopping m a m') {cid : String} (h : cid ∈ m.added) :
    cid ∈ m'.added := by
  cases hs with
  | added => exact List.mem_cons_of_mem _ h
  | same => exact h
  | refused => exact h
  | seedRejected => exact h
  | seeded => exact h
  | stops => exact h
  | advances => exact h
  | drops => exact h
  | dropsLast => exact h

theorem MapsStep.opened (hs : MapsStep stopping m a m') {d : PullDeposit} (hd : d ∈ m'.deposits.values) :
    d ∈ m.deposits.values ∨ d.correlationId ∉ m.added := by
  cases hs with
  | added hid hfresh hnone =>
    rcases mem_values_set hd with rfl | hold
    · exact .inr hfresh
    · exact .inl hold
  | same => exact .inl hd
  | refused => exact .inl hd
  | seedRejected => exact .inl hd
  | seeded => exact .inl hd
  | stops => exact .inl hd
  | advances => exact .inl hd
  | drops => exact .inl (Maps.mem_values_delete hd)
  | dropsLast => exact .inl (Maps.mem_values_delete hd)

/-- Only a new seeding replaces a timer, and only the last deposit takes it away. -/
theorem MapsStep.timer_kept (hs : MapsStep stopping m a m') {d : PullDeposit} {i : ℕ}
    (hseeding : ∀ id deposit, m.calls.get? id = some (.seeding deposit) → d.key ≠ deposit.key)
    (hd : d ∈ m.deposits.values) (hd' : d ∈ m'.deposits.values) (hi : m.timers.get? d.key = some i) :
    m'.timers.get? d.key = some i := by
  cases hs with
  | seeded hc =>
    dsimp only
    rw [JsMap.get?_set_of_ne _ _ (hseeding _ _ hc)]
    exact hi
  | stops _ hnone =>
    rw [Maps.stop, JsMap.get?_delete_of_ne _ fun hk => hnone ⟨d, hd, hk⟩]
    exact hi
  | dropsLast _ hnone =>
    rw [Maps.stop, JsMap.get?_delete_of_ne _ fun hk => hnone ⟨d, hd', hk⟩]
    exact hi
  | same => exact hi
  | refused => exact hi
  | added => exact hi
  | seedRejected => exact hi
  | advances => exact hi
  | drops => exact hi

theorem MapsStep.timer_before (hs : MapsStep stopping m a m') {key : String} {i : ℕ}
    (hlt : i < m.nextInterval) (hi : m'.timers.get? key = some i) : m.timers.get? key = some i := by
  cases hs with
  | seeded hc =>
    dsimp only at hi
    rw [JsMap.get?_set] at hi
    split_ifs at hi with hk
    · cases hi
      exact absurd hlt (lt_irrefl _)
    · exact hi
  | stops => exact (Maps.stop_timers hi).2
  | dropsLast => exact (Maps.stop_timers hi).2
  | same => exact hi
  | refused => exact hi
  | added => exact hi
  | seedRejected => exact hi
  | advances => exact hi
  | drops => exact hi

end MapsSteps

section Steps

variable {cfg : Config} {s s' : State} {a : Action}

theorem added_of_step (hs : step cfg s a = some s') {cid : String} (h : cid ∈ s.added) :
    cid ∈ s'.added :=
  (maps_of_step hs).added_kept h

/-- An open deposit was open before the step, or its id is new. -/
theorem open_of_step (hs : step cfg s a = some s') {d : PullDeposit} (hd : d ∈ s'.deposits.values) :
    d ∈ s.deposits.values ∨ d.correlationId ∉ s.added :=
  (maps_of_step hs).opened hd

/-- The timer of a contract stays while a deposit of it is open. -/
theorem timer_kept (hinv : Inv s) (hs : step cfg s a = some s') {d : PullDeposit} {i : ℕ}
    (hd : d ∈ s.deposits.values) (hd' : d ∈ s'.deposits.values) (hi : s.timers.get? d.key = some i) :
    s'.timers.get? d.key = some i := by
  apply (maps_of_step hs).timer_kept ?_ hd hd' hi
  intro id deposit hc hk
  have hnone := (hinv.seeding id deposit hc).2.1
  rw [← hk, hi] at hnone
  cases hnone

/-- A timer that is not new was the contract's before. -/
theorem timer_of_step (hs : step cfg s a = some s') {key : String} {i : ℕ} (hlt : i < s.nextInterval)
    (hi : s'.timers.get? key = some i) : s.timers.get? key = some i :=
  (maps_of_step hs).timer_before hlt hi

end Steps

/-! ### Polls on a batch -/

def PollStage.Handles : PollStage → Prop
  | .handling _ _ _ _ => True
  | _ => False

/-- How a step changes which polls are on a batch. -/
inductive Flight (s : State) (a : Action) (s' : State) : Prop where
  | stays (hf : s'.inFlight = s.inFlight)
    (hp : ∀ q poll', s'.polls.get? q = some poll' → poll'.stage.Handles →
      ∃ poll, s.polls.get? q = some poll ∧ poll.stage.Handles ∧ poll'.key = poll.key)
  | begins {p latest : ℕ} {poll : Poll} {stage : PollStage} {logs : List Log}
    (hfetch : fetches s a = some (poll, latest, logs)) (hne : logs ≠ [])
    (hpolls : s'.polls = s.polls.set p { poll with stage := stage })
    (hf : s'.inFlight = insert poll.key s.inFlight)
  | leaves {p : ℕ} {poll : Poll} {stage : PollStage}
    (hfrom : (∃ latest logs, fetches s a = some (poll, latest, logs) ∧ logs ≠ []) ∨
      s.polls.get? p = some poll ∧ poll.stage.Handles)
    (hstage : ¬ stage.Handles) (hpolls : s'.polls = s.polls.set p { poll with stage := stage })
    (hf : s'.inFlight = s.inFlight.erase poll.key)

theorem handleLogs_flight (s : State) (p : ℕ) (poll : Poll) (latest : ℕ) (logs : List Log) :
    ∃ stage, (handleLogs s p poll latest logs).polls = s.polls.set p { poll with stage := stage } ∧
      (stage.Handles ∧ (handleLogs s p poll latest logs).inFlight = s.inFlight ∨
        ¬ stage.Handles ∧ (handleLogs s p poll latest logs).inFlight = s.inFlight.erase poll.key) := by
  rcases handleLogs_cases s p poll latest logs with ⟨-, h⟩ | ⟨message, h⟩ | ⟨log, -, rest, -, h⟩ |
    ⟨log, -, rest, deposit, owner, value, -, -, -, h⟩ <;> rw [h]
  · exact ⟨_, rfl, .inr ⟨id, rfl⟩⟩
  · exact ⟨_, rfl, .inr ⟨id, rfl⟩⟩
  · exact ⟨_, rfl, .inl ⟨trivial, rfl⟩⟩
  · exact ⟨_, rfl, .inl ⟨trivial, rfl⟩⟩

/-- A poll moves without starting on a batch or leaving one. -/
theorem flight_of_setPoll {s s' : State} {a : Action} {p : ℕ} {poll : Poll} {stage : PollStage}
    (hp : s.polls.get? p = some poll) (hpolls : s'.polls = s.polls.set p { poll with stage := stage })
    (hf : s'.inFlight = s.inFlight) (hstage : stage.Handles → poll.stage.Handles) : Flight s a s' := by
  refine .stays hf ?_
  intro q poll' hq hhandles
  rw [hpolls, JsMap.get?_set] at hq
  split_ifs at hq with hqp
  · cases hq
    exact ⟨poll, hqp ▸ hp, hstage hhandles, rfl⟩
  · exact ⟨poll', hq, hhandles, rfl⟩

theorem flight_of_step {cfg : Config} {s s' : State} {a : Action} (hs : step cfg s a = some s') :
    Flight s a s' := by
  have hkept : s'.inFlight = s.inFlight → s'.polls = s.polls → Flight s a s' := by
    intro hf hpolls
    refine .stays hf fun q poll' hq hhandles => ⟨poll', ?_, hhandles, rfl⟩
    rw [← hpolls]
    exact hq
  cases transition_of_step hs with
  | @addDeposit id deposit =>
    apply hkept
    · unfold addDeposit
      split_ifs
      · rfl
      · dsimp only
        split_ifs <;> rfl
    · unfold addDeposit
      split_ifs
      · rfl
      · dsimp only
        split_ifs <;> rfl
  | @tick interval p contractAddress hi hp =>
    have hf : (startPoll s interval p contractAddress).inFlight = s.inFlight := by
      unfold startPoll
      dsimp only
      split_ifs <;> rfl
    rcases startPoll_polls s interval p contractAddress with hpolls | ⟨poll, hst, -, hpolls⟩
    · exact hkept hf hpolls
    · refine .stays hf ?_
      intro q poll' hq hhandles
      rw [hpolls, JsMap.get?_set] at hq
      split_ifs at hq with hqp
      · cases hq
        rw [hst] at hhandles
        exact absurd hhandles id
      · exact ⟨poll', hq, hhandles, rfl⟩
  | blockNumber hp hst hstage =>
    refine flight_of_setPoll hp rfl rfl ?_
    rcases hstage with rfl | ⟨message, rfl⟩ | ⟨latest, -, -, rfl⟩ <;> exact False.elim
  | logsRejected hp => exact flight_of_setPoll hp rfl rfl False.elim
  | noLogs hp => exact flight_of_setPoll hp rfl rfl False.elim
  | @batch p latest poll logs hp hst hne =>
    have hfetch : fetches s (.logs p (.ok logs)) = some (poll, latest, logs) := by
      simp [fetches, hp, hst]
    obtain ⟨stage, hpolls, hflight⟩ := handleLogs_flight
      { s with inFlight := insert poll.key s.inFlight } p poll latest logs
    rcases hflight with ⟨-, hf⟩ | ⟨hstage, hf⟩
    · exact .begins hfetch hne hpolls hf
    · rw [Finset.erase_insert_eq_erase] at hf
      exact .leaves (.inl ⟨latest, logs, hfetch, hne⟩) hstage hpolls hf
  | @next p latest poll log rest hp hst =>
    have hhandles : poll.stage.Handles := by
      rw [hst]
      trivial
    obtain ⟨stage, hpolls, hflight⟩ := handleLogs_flight s p poll latest rest
    rcases hflight with ⟨-, hf⟩ | ⟨hstage, hf⟩
    · exact flight_of_setPoll hp hpolls hf fun _ => hhandles
    · exact .leaves (.inr ⟨hp, hhandles⟩) hstage hpolls hf
  | throws hp hst => exact .leaves (.inr ⟨hp, by rw [hst]; trivial⟩) id rfl rfl
  | @completes p latest i poll log rest deposit owner desired tx hp hst =>
    obtain ⟨reports, next, -, he⟩ :=
      completePull_eq cfg s p poll latest log rest deposit owner desired i
    have hpolls : (State.handle { dropDeposit s deposit poll.contractAddress with reports := reports } p poll
        latest log rest next).polls = s.polls.set p { poll with stage := .handling latest log rest next } := by
      simp only [State.handle, State.setPoll, dropDeposit_polls]
    rw [he]
    refine flight_of_setPoll hp hpolls ?_ fun _ => by rw [hst]; trivial
    exact dropDeposit_inFlight s deposit poll.contractAddress
  | allowanceRejected hp hst => exact flight_of_setPoll hp rfl rfl fun _ => by rw [hst]; trivial
  | allowance hp hst => exact flight_of_setPoll hp rfl rfl fun _ => by rw [hst]; trivial
  | gasRejected hp hst => exact flight_of_setPoll hp rfl rfl fun _ => by rw [hst]; trivial
  | gas hp hst => exact flight_of_setPoll hp rfl rfl fun _ => by rw [hst]; trivial
  | broadcast hp hst => exact flight_of_setPoll hp rfl rfl fun _ => by rw [hst]; trivial
  | transferRejected hp hst => exact flight_of_setPoll hp rfl rfl fun _ => by rw [hst]; trivial
  | transferSent hp hst => exact flight_of_setPoll hp rfl rfl fun _ => by rw [hst]; trivial
  | unconfirmed hp hst => exact flight_of_setPoll hp rfl rfl fun _ => by rw [hst]; trivial
  | callback hp hst => exact flight_of_setPoll hp rfl rfl fun _ => by rw [hst]; trivial
  | seedRejected => exact hkept rfl rfl
  | seeded => exact hkept rfl rfl
  | approve => exact hkept rfl rfl
  | mine => exact hkept rfl rfl
  | revert => exact hkept rfl rfl

/-- A poll on a batch has its contract's flag up, and no other poll of the contract is on one. -/
structure Alone (s : State) : Prop where
  inFlight : ∀ p poll, s.polls.get? p = some poll → poll.stage.Handles → poll.key ∈ s.inFlight
  unique : ∀ p q poll poll', s.polls.get? p = some poll → s.polls.get? q = some poll' →
    poll.stage.Handles → poll'.stage.Handles → poll.key = poll'.key → p = q

theorem alone_init : Alone init where
  inFlight := by
    intro p poll hp
    cases hp
  unique := by
    intro p q poll poll' hp
    cases hp

theorem Alone.step {cfg : Config} {s s' : State} {a : Action} (h : Alone s) (hok : Current s a)
    (hs : step cfg s a = some s') : Alone s' := by
  cases flight_of_step hs with
  | stays hf hp =>
    constructor
    · intro p poll' hp' hhandles
      obtain ⟨poll, hp₀, hhandles₀, hk⟩ := hp p poll' hp' hhandles
      rw [hf, hk]
      exact h.inFlight p poll hp₀ hhandles₀
    · intro p q poll₁ poll₂ hp₁ hp₂ hh₁ hh₂ hk
      obtain ⟨poll, hp₀, hh, hk₁⟩ := hp p poll₁ hp₁ hh₁
      obtain ⟨other, hq₀, hh', hk₂⟩ := hp q poll₂ hp₂ hh₂
      exact h.unique p q poll other hp₀ hq₀ hh hh' (hk₁ ▸ hk₂ ▸ hk)
  | @begins p latest poll stage logs hfetch hne hpolls hf =>
    have hnot : poll.key ∉ s.inFlight := (hok _ hfetch hne).1
    -- the polls already on a batch are of other contracts
    have hother : ∀ q poll', s.polls.get? q = some poll' → poll'.stage.Handles → poll'.key ≠ poll.key := by
      intro q poll' hq hhandles hk
      exact hnot (hk ▸ h.inFlight q poll' hq hhandles)
    constructor
    · intro q poll' hq hhandles
      rw [hf, Finset.mem_insert]
      rw [hpolls, JsMap.get?_set] at hq
      split_ifs at hq with hqp
      · cases hq
        exact .inl rfl
      · exact .inr (h.inFlight q poll' hq hhandles)
    · intro q r poll₁ poll₂ hq hr hh₁ hh₂ hk
      rw [hpolls, JsMap.get?_set] at hq hr
      split_ifs at hq hr with hqp hrp hrp
      · rw [hqp, hrp]
      · cases hq
        exact absurd hk.symm (hother r poll₂ hr hh₂)
      · cases hr
        exact absurd hk (hother q poll₁ hq hh₁)
      · exact h.unique q r poll₁ poll₂ hq hr hh₁ hh₂ hk
  | @leaves p poll stage hfrom hstage hpolls hf =>
    have hold : ∀ q poll', s'.polls.get? q = some poll' → poll'.stage.Handles →
        q ≠ p ∧ s.polls.get? q = some poll' := by
      intro q poll' hq hhandles
      rw [hpolls, JsMap.get?_set] at hq
      split_ifs at hq with hqp
      · cases hq
        exact absurd hhandles hstage
      · exact ⟨hqp, hq⟩
    constructor
    · intro q poll' hq hhandles
      obtain ⟨hqp, hq₀⟩ := hold q poll' hq hhandles
      have hflag := h.inFlight q poll' hq₀ hhandles
      rw [hf, Finset.mem_erase]
      refine ⟨?_, hflag⟩
      intro hk
      rcases hfrom with ⟨latest, logs, hfetch, hne⟩ | ⟨hp, hh⟩
      · exact (hok _ hfetch hne).1 (hk ▸ hflag)
      · exact hqp (h.unique q p poll' poll hq₀ hp hhandles hh hk)
    · intro q r poll₁ poll₂ hq hr hh₁ hh₂ hk
      exact h.unique q r poll₁ poll₂ (hold q poll₁ hq hh₁).2 (hold r poll₂ hr hh₂).2 hh₁ hh₂ hk

/-! ### What a poll has before it -/

/-- A poll on a batch none of whose logs has thrown. -/
def PollStage.OnBatch : PollStage → Prop
  | .handling _ _ _ (.threw _) => False
  | .handling _ _ _ _ => True
  | _ => False

theorem PollStage.OnBatch.handles {stage : PollStage} (h : stage.OnBatch) : stage.Handles := by
  unfold PollStage.OnBatch at h
  split at h
  · cases h
  · trivial
  · cases h

/-- The logs a poll has before it, the one in hand first. -/
def PollStage.ahead : PollStage → List Log
  | .handling _ log rest _ => log :: rest
  | _ => []

/-- The deposit a poll is on its way to pull. -/
def PollStage.pulls? : PollStage → Option PullDeposit
  | .handling _ _ _ (.allowance deposit _ _) => some deposit
  | .handling _ _ _ (.gas deposit _ _) => some deposit
  | .handling _ _ _ (.transferFrom deposit _ _ _) => some deposit
  | .handling _ _ _ (.wait deposit _ _ _) => some deposit
  | _ => none

theorem deposit_of_pulls {stage : PollStage} {d : PullDeposit} (h : d ∈ stage.pulls?) :
    d ∈ stage.deposit? := by
  unfold PollStage.pulls? at h
  split at h
  · exact h
  · exact h
  · exact h
  · exact h
  · cases h

section Acts

variable {cfg : Config} {s : State} {poll : Poll} {t t' : Trace} {a : Action} {stage : PollStage}

theorem Walks.ahead {latest : ℕ} {logs : List Log} (hw : Walks s poll latest logs t stage t') :
    ∀ log ∈ stage.ahead, log ∈ logs := by
  have hsub : ∀ {log : Log} {rest : List Log}, nextLog logs = some (log, rest) →
      ∀ l ∈ log :: rest, l ∈ logs := by
    intro log rest hn l hl
    obtain ⟨-, skipped, he, -⟩ := nextLog_some hn
    rw [he]
    exact List.mem_append_right _ hl
  intro log hlog
  cases hw with
  | finished => cases hlog
  | malformed => cases hlog
  | unmatched hn => exact hsub hn log hlog
  | matched hn => exact hsub hn log hlog

theorem nextParsed_of_nextLog {logs rest : List Log} {log : Log} (h : nextLog logs = some (log, rest)) :
    nextParsed logs = some log.parsed := by
  induction logs with
  | nil => cases h
  | cons head tail ih =>
    unfold nextLog at h
    split_ifs at h with hu
    · rw [nextParsed_unknown tail hu, ih h]
    · cases h
      exact nextParsed_known rest hu

/-- A poll's logs are those it had before, or the ones it has just fetched. -/
theorem Acts.ahead (ha : Acts cfg s poll t a stage t') :
    (∃ p latest logs, a = .logs p (.ok logs) ∧ poll.stage = .logs latest ∧
      (∀ log ∈ logs, poll.fromBlock ≤ log.blockNumber) ∧ (∀ log ∈ stage.ahead, log ∈ logs) ∧
        t'.batch = logs) ∨
    (∀ log ∈ stage.ahead, log ∈ poll.stage.ahead) ∧ (stage.OnBatch → poll.stage.OnBatch) ∧
      t'.batch = t.batch := by
  cases ha with
  | early hst hstage =>
    refine .inr ⟨?_, ?_, rfl⟩
    · rcases hstage with rfl | ⟨message, rfl⟩ | ⟨latest, rfl⟩ <;> intro log hlog <;> cases hlog
    · rcases hstage with rfl | ⟨message, rfl⟩ | ⟨latest, rfl⟩ <;> exact False.elim
  | @fetched p latest logs _ _ hst hrange hw =>
    exact .inl ⟨p, latest, logs, rfl, hst, fun log hlog => (hrange log hlog).1, hw.ahead, hw.batch⟩
  | @resumed p latest log rest _ _ hst hw =>
    rw [hst]
    exact .inr ⟨fun l hl => List.mem_cons_of_mem _ (hw.ahead l hl), fun _ => trivial, hw.batch⟩
  | left => exact .inr ⟨by simp [PollStage.ahead], False.elim, rfl⟩
  | low hst =>
    rw [hst]
    exact .inr ⟨fun _ hl => hl, fun _ => trivial, rfl⟩
  | approved hst =>
    rw [hst]
    exact .inr ⟨fun _ hl => hl, fun _ => trivial, rfl⟩
  | failed _ hst =>
    rw [hst]
    exact .inr ⟨fun _ hl => hl, False.elim, rfl⟩
  | proceeds hst hnext =>
    rw [hst]
    refine .inr ⟨fun _ hl => hl, fun _ => ?_, rfl⟩
    cases hnext <;> trivial
  | unconfirmed hst =>
    rw [hst]
    exact .inr ⟨fun _ hl => hl, fun _ => trivial, rfl⟩
  | pulled hst =>
    rw [hst]
    exact .inr ⟨fun _ hl => hl, fun _ => trivial, rfl⟩
  | calledBack hst =>
    rw [hst]
    exact .inr ⟨fun _ hl => hl, fun _ => trivial, rfl⟩
  | callbackThrew hst =>
    rw [hst]
    exact .inr ⟨fun _ hl => hl, False.elim, rfl⟩

/-- The deposit in hand is the one it was, or an open one that the next approval was matched to. -/
theorem Acts.hand {p : ℕ} (hact : a.poll? = some p) (hp : s.polls.get? p = some poll)
    (ha : Acts cfg s poll t a stage t') {d : PullDeposit} (hd : d ∈ stage.pulls?) :
    d ∈ poll.stage.pulls? ∨ findMatchingDeposit s poll.contractAddress = some d ∧
      ∃ logs owner value, goesOnWith s a = some (poll, logs) ∧
        nextParsed logs = some (.approval owner value) := by
  have hwalk : ∀ {latest : ℕ} {logs : List Log} {t : Trace}, Walks s poll latest logs t stage t' →
      goesOnWith s a = some (poll, logs) → findMatchingDeposit s poll.contractAddress = some d ∧
        ∃ logs owner value, goesOnWith s a = some (poll, logs) ∧
          nextParsed logs = some (.approval owner value) := by
    intro latest logs t hw hgoes
    cases hw with
    | finished => cases hd
    | malformed => cases hd
    | unmatched => cases hd
    | @matched log rest owner value deposit hn hparsed hm =>
      cases hd
      exact ⟨hm, logs, owner, value, hgoes, by rw [nextParsed_of_nextLog hn, hparsed]⟩
  cases ha with
  | early hst hstage =>
    rcases hstage with rfl | ⟨message, rfl⟩ | ⟨latest, rfl⟩ <;> cases hd
  | fetched hst hrange hw =>
    cases hact
    exact .inr (hwalk hw (by simp [goesOnWith, hp, hst]))
  | resumed hst hw =>
    cases hact
    exact .inr (hwalk hw (by simp [goesOnWith, hp, hst]))
  | left => cases hd
  | low => cases hd
  | approved hst hdesired hle hnext =>
    rw [hst]
    rcases hnext with rfl | rfl <;> exact .inl hd
  | failed => cases hd
  | proceeds hst hnext =>
    rw [hst]
    cases hnext <;> exact .inl hd
  | unconfirmed => cases hd
  | pulled hst htx hm hnext =>
    rw [hst]
    rcases hnext with rfl | ⟨result, rfl⟩ <;> cases hd
  | calledBack => cases hd
  | callbackThrew => cases hd

end Acts

/-! ### Failed pulls -/

/-- The poll of the step was on its way to pull the deposit for the log, and has an exception after it. -/
def ThrownAt (s s' : State) (a : Action) (log : Log) (d : PullDeposit) : Prop :=
  ∃ p poll latest rest handling message, a.poll? = some p ∧ s.polls.get? p = some poll ∧
    poll.stage = .handling latest log rest handling ∧ d ∈ poll.stage.pulls? ∧
      s'.polls.get? p = some { poll with stage := .handling latest log rest (.threw message) }

section

variable {cfg : Config} {s s' : State} {p : ℕ} {log : Log} {outcome : Outcome} {d : PullDeposit}

theorem thrownAt_of_handle {a : Action} {latest : ℕ} {poll : Poll} {rest : List Log} {handling : Handling}
    {message : String} (ha : a.poll? = some p) (hp : s.polls.get? p = some poll)
    (hst : poll.stage = .handling latest log rest handling) (hd : d ∈ poll.stage.pulls?)
    (he : s.handle p poll latest log rest (.threw message) = s') : ThrownAt s s' a log d := by
  refine ⟨p, poll, latest, rest, handling, message, ha, hp, hst, hd, ?_⟩
  rw [← he]
  exact JsMap.get?_set_self _ _ _

theorem thrown_of_allowance {rejection : Option String} (hs : step cfg s (.allowance p rejection) = some s')
    (hset : settlement cfg s (.allowance p rejection) = some (log, outcome)) (hf : outcome.failed? = some d) :
    ThrownAt s s' (.allowance p rejection) log d := by
  simp only [settlement, Option.bind_eq_some_iff] at hset
  obtain ⟨poll, hp, hset⟩ := hset
  split at hset
  · rename_i latest log' rest deposit owner value hst
    simp only [step, hp, hst, Option.some.injEq] at hs
    cases rejection with
    | some message =>
      cases hset
      cases hf
      exact thrownAt_of_handle rfl hp hst (by rw [hst]; rfl) hs
    | none =>
      dsimp only at hset hs
      cases hd : desiredAmount cfg deposit value with
      | error message =>
        rw [hd] at hset
        cases hset
        cases hf
        have hnext : afterAllowance cfg d owner value (s.allowances poll.key owner) =
            .threw message := by
          simp [afterAllowance, hd]
        rw [hnext] at hs
        exact thrownAt_of_handle rfl hp hst (by rw [hst]; rfl) hs
      | ok desired =>
        rw [hd] at hset
        dsimp only at hset
        split_ifs at hset
        cases hset
        cases hf
  · cases hset

theorem thrown_of_receipt {answer : ReceiptAnswer} (hok : Confirmed s (.receipt p answer))
    (hs : step cfg s (.receipt p answer) = some s')
    (hset : settlement cfg s (.receipt p answer) = some (log, outcome)) (hf : outcome.failed? = some d) :
    ThrownAt s s' (.receipt p answer) log d := by
  simp only [settlement, Option.bind_eq_some_iff] at hset
  obtain ⟨poll, hp, hset⟩ := hset
  split at hset
  · rename_i latest log' rest deposit owner desired tx hst
    cases answer with
    | rejects message =>
      simp only [step, hp, hst, Option.some.injEq] at hs
      cases hset
      cases hf
      exact thrownAt_of_handle rfl hp hst (by rw [hst]; rfl) hs
    | null => exact absurd hok id
    | receipt =>
      exfalso
      simp only [step, hp, hst] at hs
      cases htx : s.txs[tx]? with
      | none =>
        rw [htx] at hs
        cases hs
      | some t =>
        have hwaits : waitsFor s p = some t := by simp [waitsFor, hp, hst, htx]
        have hne := hok t hwaits
        rw [htx] at hset hs
        cases hstatus : t.status with
        | pending =>
          rw [Option.map_some, hstatus] at hs
          cases hs
        | mined =>
          rw [Option.map_some, hstatus] at hset
          cases hset
          cases hf
        | reverted => exact hne hstatus
  · cases hset

/-- As long as no pull is unconfirmed, a failed one is of the deposit its poll was on its way to pull
and leaves the poll with an exception. -/
theorem thrown_of_settlement {a : Action} (hok : Confirmed s a) (hs : step cfg s a = some s')
    (hset : settlement cfg s a = some (log, outcome)) (hf : outcome.failed? = some d) :
    ThrownAt s s' a log d := by
  cases a with
  | allowance p rejection => exact thrown_of_allowance hs hset hf
  | gas p rejection =>
    cases rejection with
    | none => cases hset
    | some message =>
      simp only [settlement, Option.bind_eq_some_iff] at hset
      obtain ⟨poll, hp, hset⟩ := hset
      split at hset
      · rename_i latest log' rest deposit owner desired hst
        simp only [step, hp, hst, Option.some.injEq] at hs
        cases hset
        cases hf
        exact thrownAt_of_handle rfl hp hst (by rw [hst]; rfl) hs
      · cases hset
  | transferFrom p rejection =>
    cases rejection with
    | none => cases hset
    | some message =>
      simp only [settlement, Option.bind_eq_some_iff] at hset
      obtain ⟨poll, hp, hset⟩ := hset
      split at hset
      · rename_i latest log' rest deposit owner desired sent hst
        simp only [step, hp, hst, Option.some.injEq] at hs
        cases hset
        cases hf
        exact thrownAt_of_handle rfl hp hst (by rw [hst]; rfl) hs
      · cases hset
  | receipt p answer => exact thrown_of_receipt hok hs hset hf
  | _ => cases hset

end

/-- An approval owed a retry was owed one before and is not in a batch of its contract that the step
fetched, or its pull has just failed. -/
theorem owed_cases {cfg : Config} {s : State} {a : Action} {owed : List (PullDeposit × Log)}
    {e : PullDeposit × Log} (he : e ∈ owedAfter cfg s a owed) :
    (e ∈ owed ∧ ∀ p poll logs, a = .logs p (.ok logs) → s.polls.get? p = some poll →
      poll.key = e.1.key → e.2 ∉ logs) ∨
    ∃ outcome, settlement cfg s a = some (e.2, outcome) ∧ outcome.failed? = some e.1 := by
  unfold owedAfter at he
  split at he
  · rename_i p logs
    left
    split at he
    · rename_i poll hp
      obtain ⟨hold, hnot⟩ := List.mem_filter.mp he
      refine ⟨hold, ?_⟩
      rintro q poll' logs' ⟨⟩ hq hk hlog
      rw [hp] at hq
      cases hq
      simp [hk, hlog] at hnot
    · rename_i hnone
      refine ⟨he, ?_⟩
      rintro q poll' logs' ⟨⟩ hq
      rw [hnone] at hq
      cases hq
  · rename_i hnot
    have hother : ∀ p poll logs, a = .logs p (.ok logs) → s.polls.get? p = some poll →
        poll.key = e.1.key → e.2 ∉ logs := fun p poll logs ha => absurd ha (hnot p logs)
    split at he
    · rename_i log outcome hset
      rcases List.mem_append.mp he with hnew | hold
      · obtain ⟨d, hd, rfl⟩ := List.mem_map.mp hnew
        exact .inr ⟨outcome, hset, Option.mem_toList.mp hd⟩
      · exact .inl ⟨hold, hother⟩
    · exact .inl ⟨he, hother⟩

/-! ### The invariant -/

/-- A poll on its way to pull an open deposit was started by the contract's timer; the cursor is
before every log a poll of that timer has ahead of it, and before every approval owed to an open
deposit, which no poll has in a batch that has not thrown. -/
structure Retried (chain : String → List Log) (g : Audited) : Prop where
  hand : ∀ p poll, g.state.polls.get? p = some poll → ∀ d ∈ poll.stage.pulls?,
    d ∈ g.state.deposits.values → g.state.timers.get? poll.key = some poll.interval
  ahead : ∀ p poll, g.state.polls.get? p = some poll →
    g.state.timers.get? poll.key = some poll.interval →
      ∀ cursor ∈ g.state.lastSeen.get? poll.key, ∀ log ∈ poll.stage.ahead, cursor < log.blockNumber
  known : ∀ e ∈ g.owed, e.1.correlationId ∈ g.state.added ∧ e.2 ∈ chain e.1.key
  behind : ∀ e ∈ g.owed, e.1 ∈ g.state.deposits.values →
    (∃ i, g.state.timers.get? e.1.key = some i) ∧
      ∀ cursor ∈ g.state.lastSeen.get? e.1.key, cursor < e.2.blockNumber
  unseen : ∀ e ∈ g.owed, ∀ p poll, g.state.polls.get? p = some poll → poll.stage.OnBatch →
    poll.key = e.1.key → e.2 ∉ (g.traces p).batch

theorem retried_init (chain : String → List Log) : Retried chain .init where
  hand := by
    intro p poll hp
    cases hp
  ahead := by
    intro p poll hp
    cases hp
  known := by
    intro e he
    cases he
  behind := by
    intro e he
    cases he
  unseen := by
    intro e he
    cases he

theorem seeding_of_seeds {s : State} {a : Action} {seed : PullDeposit × ℕ} (h : seed ∈ seeds s a) :
    ∃ id, s.calls.get? id = some (.seeding seed.1) := by
  unfold seeds at h
  split at h
  · rename_i id currentBlock
    obtain ⟨call, hc, hcall⟩ := Option.bind_eq_some_iff.mp h
    split at hcall
    · cases hcall
      exact ⟨id, hc⟩
    · cases hcall
  · cases h

section Runs

variable {cfg : Config} {chain : String → List Log} {g g' : Audited} {a : Action}

/-- A run in which what `pollOnce` checks at its start still holds later. -/
abbrev RetryingRun (cfg : Config) (chain : String → List Log) (g : Audited) : Prop :=
  ReachUnder (audit cfg) (fun g a => Retries chain g.state a) .init g

theorem answers_of_retries (g : Audited) (a : Action) (hok : Retries chain g.state a) :
    Answers chain g.state a :=
  hok.kept.answers

theorem inv_of_retries (h : RetryingRun cfg chain g) : Inv g.state :=
  inv_of_reach (reach_of_audit (fun _ _ hok => hok.upToDate) h)

theorem alone_of_retries (h : RetryingRun cfg chain g) : Alone g.state :=
  h.invariant (P := fun g => Alone g.state) alone_init
    fun _ _ _ halone hok hs => halone.step hok.current (state_of_audit hs)

/-- While its contract's timer runs, a log that the cursor has not reached stays ahead of it if no
poll writes the cursor with the log in its batch. -/
theorem cursor_before (h : RetryingRun cfg chain g) (hok : Retries chain g.state a)
    (hs : audit cfg g a = some g') {key : String} {i : ℕ} {log : Log}
    (hi : g.state.timers.get? key = some i) (hlog : log ∈ chain key)
    (hbefore : ∀ cursor ∈ g.state.lastSeen.get? key, cursor < log.blockNumber)
    (hunseen : ∀ p poll latest ahead, Writes g.state a g'.state p poll latest ahead → poll.key = key →
      log ∉ (g'.traces p).batch) :
    ∀ cursor ∈ g'.state.lastSeen.get? key, cursor < log.blockNumber := by
  have hinv := inv_of_retries h
  intro cursor hc
  rcases cursor_of_step (state_of_audit hs) key with hsame | hnone | ⟨seed, hseed, hk⟩ |
    ⟨p, poll, latest, ahead, hw, hk⟩
  · rw [hsame] at hc
    exact hbefore cursor hc
  · rw [hnone] at hc
    cases hc
  · obtain ⟨id, hcall⟩ := seeding_of_seeds hseed
    have hnone := (hinv.seeding id seed.1 hcall).2.1
    rw [hk, hi] at hnone
    cases hnone
  subst hk
  obtain ⟨-, d, hd, hk, -, cursor₀, -, hc₀, -⟩ := hinv.timer _ _ hi
  -- the contract has an open deposit, so the poll's batch begins right behind the cursor
  have hup := hok.upToDate.1 _ hw.goesOn ((hasOpenDepositFor_iff _ _).mpr ⟨d, hd, hk⟩)
  have hended : nextParsed ahead = none := hw.ended
  simp only [UpToDate, hended] at hup
  have hfrom : cursor₀ + 1 = poll.fromBlock := hup cursor₀ hc₀
  have hlt : cursor₀ < log.blockNumber := hbefore cursor₀ hc₀
  have hbatch := batch_of_writes answers_of_retries h hok hs hw
  have hnot := hunseen p poll latest ahead hw rfl
  rw [hbatch, mem_inRange] at hnot
  have hlatest : cursor = latest := by
    rw [hw.cursor, JsMap.get?_set_self] at hc
    cases hc
    rfl
  rw [hlatest]
  by_contra hge
  exact hnot ⟨hlog, by omega, by omega⟩

theorem handles_of_ahead {stage : PollStage} {log : Log} (h : log ∈ stage.ahead) : stage.Handles := by
  unfold PollStage.ahead at h
  split at h
  · trivial
  · cases h

theorem in_hand {s : State} (hinv : Inv s) {p : ℕ} {poll : Poll} (hp : s.polls.get? p = some poll)
    {d : PullDeposit} (hd : d ∈ poll.stage.deposit?) : ∃ log, InHand s.book poll log d := by
  have hstage := (hinv.poll p poll hp).stage
  unfold PollStage.deposit? at hd
  split at hd
  · rename_i latest log rest handling hst
    rw [hst] at hstage
    exact ⟨log, hstage.2.2 d hd⟩
  · cases hd

theorem ahead_in_batch {t : Trace} {stage : PollStage} (h : Standing t stage) :
    ∀ log ∈ stage.ahead, log ∈ t.batch := by
  cases stage with
  | handling latest log rest handling =>
    obtain ⟨done, before, hpast, -, -⟩ := h
    intro l hl
    rw [hpast.batch]
    exact List.mem_append_right _ hl
  | blockNumber => simp [PollStage.ahead]
  | logs => simp [PollStage.ahead]
  | resolved => simp [PollStage.ahead]
  | rejected => simp [PollStage.ahead]

theorem batch_on_chain (h : RetryingRun cfg chain g) {p : ℕ}
    {poll : Poll} (hp : g.state.polls.get? p = some poll) (hh : poll.stage.Handles) :
    ∀ log ∈ (g.traces p).batch, log ∈ chain poll.key := by
  have hrange := stageRange_of_reach answers_of_retries h hp
  cases hst : poll.stage with
  | handling latest log rest handling =>
    rw [hst] at hrange
    intro l hl
    rw [hrange] at hl
    exact (mem_inRange.mp hl).1
  | _ =>
    rw [hst] at hh
    cases hh

/-- An open deposit that a poll had in hand before the step was open then, with the same timer. -/
theorem hand_kept (h : RetryingRun cfg chain g)
    (hs : audit cfg g a = some g') {p : ℕ} {poll : Poll} (hp : g.state.polls.get? p = some poll)
    (hhand : ∀ d ∈ poll.stage.pulls?, d ∈ g.state.deposits.values →
      g.state.timers.get? poll.key = some poll.interval) {d : PullDeposit}
    (hd : d ∈ poll.stage.pulls?) (hopen : d ∈ g'.state.deposits.values) :
    g'.state.timers.get? poll.key = some poll.interval := by
  have hinv := inv_of_retries h
  obtain ⟨log, hin⟩ := in_hand hinv hp (deposit_of_pulls hd)
  rcases open_of_step (state_of_audit hs) hopen with hold | hnew
  · have hi := hhand d hd hold
    rw [← hin.key] at hi ⊢
    exact timer_kept hinv (state_of_audit hs) hold hopen hi
  · exact absurd hin.added hnew

theorem Retried.hand_step (hr : Retried chain g) (h : RetryingRun cfg chain g)
    (hok : Retries chain g.state a) (hs : audit cfg g a = some g') {p : ℕ} {poll' : Poll}
    (hp' : g'.state.polls.get? p = some poll') {d : PullDeposit} (hd : d ∈ poll'.stage.pulls?)
    (hopen : d ∈ g'.state.deposits.values) :
    g'.state.timers.get? poll'.key = some poll'.interval := by
  have hinv := inv_of_retries h
  rcases poll_of_audit hs hp' with ⟨hst, -⟩ | ⟨-, hp, -⟩ | ⟨poll, stage, hact, hp, rfl, hacts⟩
  · rw [hst] at hd
    cases hd
  · exact hand_kept h hs hp (hr.hand p poll' hp) hd hopen
  · rcases hacts.hand hact hp hd with hold | ⟨hm, logs, owner, value, hgoes, hnext⟩
    · have hkept := hand_kept h hs hp (hr.hand p poll hp) hold hopen
      exact hkept
    · obtain ⟨hwas, hk⟩ := findMatchingDeposit_mem hm
      have hup := hok.upToDate.1 _ hgoes ((hasOpenDepositFor_iff _ _).mpr ⟨d, hwas, hk⟩)
      simp only [UpToDate, hnext] at hup
      have hkey : d.key = poll.key := hk
      have hi : g.state.timers.get? d.key = some poll.interval := by
        rw [hkey]
        exact hup
      have hi' := timer_kept hinv (state_of_audit hs) hwas hopen hi
      rw [hkey] at hi'
      exact hi'

theorem Retried.ahead_step (hr : Retried chain g) (h : RetryingRun cfg chain g)
    (hok : Retries chain g.state a) (hs : audit cfg g a = some g') {p : ℕ} {poll' : Poll}
    (hp' : g'.state.polls.get? p = some poll')
    (hi' : g'.state.timers.get? poll'.key = some poll'.interval) {log : Log}
    (hlog : log ∈ poll'.stage.ahead) :
    ∀ cursor ∈ g'.state.lastSeen.get? poll'.key, cursor < log.blockNumber := by
  have hinv := inv_of_retries h
  have halone := alone_of_retries h
  have hhandles : poll'.stage.Handles := handles_of_ahead hlog
  rcases poll_of_audit hs hp' with ⟨hst, -⟩ | ⟨hact, hp, -⟩ | ⟨poll, stage, hact, hp, rfl, hacts⟩
  · rw [hst] at hlog
    cases hlog
  · have hi := timer_of_step (state_of_audit hs) (hinv.poll p poll' hp).interval_lt hi'
    have hbatch := ahead_in_batch (standing_of_reach h hp) log hlog
    have hchain := batch_on_chain h hp hhandles log hbatch
    refine cursor_before h hok hs hi hchain (fun cursor hc => hr.ahead p poll' hp hi cursor hc log hlog) ?_
    intro q poll latest ahead hw hk
    have hqp : q ≠ p := by
      rintro rfl
      exact hact hw.acts
    rcases hw.batch with ⟨rfl, hst⟩ | ⟨rfl, log', hst⟩
    · -- a poll that fetches its logs while this one is on its batch has fetched none
      rw [batch_of_fetch hs hw.polling]
      by_contra hin
      have hfetch : fetches g.state (.logs q (.ok ahead)) = some (poll, latest, ahead) := by
        simp [fetches, hw.polling, hst]
      have hnot := (hok.current _ hfetch (List.ne_nil_of_mem hin)).1
      exact hnot (hk ▸ halone.inFlight p poll' hp hhandles)
    · have hother : poll.stage.Handles := by
        rw [hst]
        trivial
      exact absurd (halone.unique q p poll poll' hw.polling hp hother hhandles hk) hqp
  · have hi := timer_of_step (state_of_audit hs) (hinv.poll p poll hp).interval_lt hi'
    -- a poll with logs ahead of it does not write the cursor
    have hwrites : ∀ q poll₀ latest ahead, ¬ Writes g.state a g'.state q poll₀ latest ahead := by
      intro q poll₀ latest ahead hw
      have hq := hw.acts
      rw [hact] at hq
      cases hq
      have hres := hw.resolved
      rw [hp'] at hres
      have hst : stage = .resolved := congrArg Poll.stage (Option.some.inj hres)
      subst hst
      cases hlog
    have hnow : log ∈ (g'.traces p).batch := ahead_in_batch (standing_of_reach (.tail h hok hs) hp') log hlog
    have hchain : log ∈ chain poll.key := batch_on_chain (.tail h hok hs) hp' hhandles log hnow
    refine cursor_before h hok hs hi hchain ?_ fun q poll₀ latest ahead hw => absurd hw (hwrites _ _ _ _)
    intro cursor hc
    rcases hacts.ahead with ⟨q, latest, logs, rfl, hst, hfrom, hsub, -⟩ | ⟨hsub, -, -⟩
    · cases hact
      have hfetch : fetches g.state (.logs p (.ok logs)) = some (poll, latest, logs) := by
        simp [fetches, hp, hst]
      have hin : log ∈ logs := hsub log hlog
      have hlt := (hok.current _ hfetch (List.ne_nil_of_mem hin)).2 cursor hc
      exact lt_of_lt_of_le hlt (hfrom log hin)
    · exact hr.ahead p poll hp hi cursor hc log (hsub log hlog)

/-- What an approval owed a retry knows: it was owed one before the step, or its pull has just failed
in a poll that was on its way to pull its deposit and has it in its batch. -/
theorem owing_of_audit (hok : Retries chain g.state a) (hs : audit cfg g a = some g') {e : PullDeposit × Log}
    (he : e ∈ g'.owed) :
    (e ∈ g.owed ∧ ∀ p poll logs, a = .logs p (.ok logs) → g.state.polls.get? p = some poll →
      poll.key = e.1.key → e.2 ∉ logs) ∨
    ∃ p poll, a.poll? = some p ∧ g.state.polls.get? p = some poll ∧ poll.stage.Handles ∧ e.1 ∈ poll.stage.pulls? ∧
      e.2 ∈ poll.stage.ahead ∧ ∃ latest rest message, g'.state.polls.get? p =
        some { poll with stage := .handling latest e.2 rest (.threw message) } := by
  rw [owed_of_audit hs] at he
  rcases owed_cases he with hold | ⟨outcome, hset, hf⟩
  · exact .inl hold
  · obtain ⟨p, poll, latest, rest, handling, message, hact, hp, hst, hd, hp'⟩ :=
      thrown_of_settlement hok.kept.confirmed (state_of_audit hs) hset hf
    refine .inr ⟨p, poll, hact, hp, ?_, hd, ?_, latest, rest, message, hp'⟩
    · rw [hst]
      trivial
    · rw [hst]
      exact List.mem_cons_self

theorem Retried.known_step (hr : Retried chain g) (h : RetryingRun cfg chain g)
    (hok : Retries chain g.state a) (hs : audit cfg g a = some g') {e : PullDeposit × Log}
    (he : e ∈ g'.owed) : e.1.correlationId ∈ g'.state.added ∧ e.2 ∈ chain e.1.key := by
  rcases owing_of_audit hok hs he with ⟨hold, -⟩ | ⟨p, poll, -, hp, hh, hd, hlog, -⟩
  · obtain ⟨hadded, hchain⟩ := hr.known e hold
    exact ⟨added_of_step (state_of_audit hs) hadded, hchain⟩
  · obtain ⟨log, hin⟩ := in_hand (inv_of_retries h) hp (deposit_of_pulls hd)
    have hbatch := ahead_in_batch (standing_of_reach h hp) e.2 hlog
    refine ⟨added_of_step (state_of_audit hs) hin.added, ?_⟩
    rw [hin.key]
    exact batch_on_chain h hp hh e.2 hbatch

theorem Retried.behind_step (hr : Retried chain g) (h : RetryingRun cfg chain g)
    (hok : Retries chain g.state a) (hs : audit cfg g a = some g') {e : PullDeposit × Log}
    (he : e ∈ g'.owed) (hopen : e.1 ∈ g'.state.deposits.values) :
    (∃ i, g'.state.timers.get? e.1.key = some i) ∧
      ∀ cursor ∈ g'.state.lastSeen.get? e.1.key, cursor < e.2.blockNumber := by
  have hinv := inv_of_retries h
  rcases owing_of_audit hok hs he with ⟨hold, hnot⟩ |
    ⟨p, poll, hact, hp, hh, hd, hlog, latest, rest, message, hp'⟩
  · obtain ⟨hadded, hchain⟩ := hr.known e hold
    have hwas : e.1 ∈ g.state.deposits.values := by
      rcases open_of_step (state_of_audit hs) hopen with hwas | hnew
      · exact hwas
      · exact absurd hadded hnew
    obtain ⟨⟨i, hi⟩, hbefore⟩ := hr.behind e hold hwas
    refine ⟨⟨i, timer_kept hinv (state_of_audit hs) hwas hopen hi⟩, ?_⟩
    apply cursor_before h hok hs hi hchain hbefore
    intro q poll latest ahead hw hk
    rcases hw.batch with ⟨rfl, hst⟩ | ⟨rfl, log, hst⟩
    · rw [batch_of_fetch hs hw.polling]
      exact hnot q poll ahead rfl hw.polling hk
    · rw [batch_of_resume hs hw.polling hst]
      exact hr.unseen e hold q poll hw.polling (by rw [hst]; trivial) hk
  · obtain ⟨log, hin⟩ := in_hand hinv hp (deposit_of_pulls hd)
    have hi' := hand_kept h hs hp (hr.hand p poll hp) hd hopen
    have hbefore := hr.ahead_step h hok hs hp' hi' List.mem_cons_self
    rw [hin.key]
    exact ⟨⟨poll.interval, hi'⟩, hbefore⟩

theorem Retried.unseen_step (hr : Retried chain g) (h : RetryingRun cfg chain g)
    (hok : Retries chain g.state a) (hs : audit cfg g a = some g') {e : PullDeposit × Log}
    (he : e ∈ g'.owed) {p : ℕ} {poll' : Poll} (hp' : g'.state.polls.get? p = some poll')
    (hon : poll'.stage.OnBatch) (hk : poll'.key = e.1.key) : e.2 ∉ (g'.traces p).batch := by
  rcases owing_of_audit hok hs he with ⟨hold, hnot⟩ |
    ⟨q, poll, hact, hq, hh, hd, hlog, latest, rest, message, hq'⟩
  · rcases poll_of_audit hs hp' with ⟨hst, -⟩ | ⟨-, hp, ht⟩ | ⟨poll, stage, hact, hp, rfl, hacts⟩
    · rw [hst] at hon
      cases hon
    · rw [ht]
      exact hr.unseen e hold p poll' hp hon hk
    · rcases hacts.ahead with ⟨r, latest, logs, rfl, -, -, -, hbatch⟩ | ⟨-, hwas, hbatch⟩
      · cases hact
        rw [hbatch]
        exact hnot p poll logs rfl hp hk
      · rw [hbatch]
        exact hr.unseen e hold p poll hp (hwas hon) hk
  · -- the poll that failed is the contract's only one on a batch, and it has thrown
    obtain ⟨log, hin⟩ := in_hand (inv_of_retries h) hq (deposit_of_pulls hd)
    have hkey : poll'.key = poll.key := hk.trans hin.key
    have hpq : p = q := (alone_of_retries (.tail h hok hs)).unique p q poll' _ hp' hq' hon.handles trivial hkey
    rw [hpq, hq'] at hp'
    cases hp'
    cases hon

theorem retried_of_reach (h : RetryingRun cfg chain g) : Retried chain g := by
  apply h.invariant_from (fun g hg => hg) (retried_init chain)
  intro g a g' hg hr hok hs
  exact {
    hand := fun p poll hp d hd hopen => hr.hand_step hg hok hs hp hd hopen
    ahead := fun p poll hp hi cursor hc log hlog => hr.ahead_step hg hok hs hp hi hlog cursor hc
    known := fun e he => hr.known_step hg hok hs he
    behind := fun e he hopen => hr.behind_step hg hok hs he hopen
    unseen := fun e he p poll hp hon hk => hr.unseen_step hg hok hs he hp hon hk }

end Runs

/-! ### Runs -/

/-- A later poll has the approval again: the contract's timer is running, and a poll it starts asks
for the approval's block, where the chain has it. -/
structure SeenAgain (cfg : Config) (chain : String → List Log) (s : State) (deposit : PullDeposit)
    (log : Log) : Prop where
  onChain : log ∈ chain deposit.key
  cursor : ∃ cursor, s.lastSeen.get? deposit.key = some cursor ∧ cursor < log.blockNumber
  timer : ∃ i contractAddress, s.timers.get? deposit.key = some i ∧
    s.intervals.get? i = some contractAddress ∧ contractAddress.toLower = deposit.key ∧
      ∀ p, s.polls.get? p = none → deposit.key ∉ s.inFlight → ∃ s' poll,
        step cfg s (.tick i p) = some s' ∧ s'.polls.get? p = some poll ∧ poll.key = deposit.key ∧
          poll.fromBlock ≤ log.blockNumber

theorem tick_polls (cfg : Config) {s : State} {i p cursor : ℕ} {contractAddress : String}
    (hi : s.intervals.get? i = some contractAddress) (hp : s.polls.get? p = none)
    (hf : contractAddress.toLower ∉ s.inFlight) (ho : hasOpenDepositFor s contractAddress)
    (hc : s.lastSeen.get? contractAddress.toLower = some cursor) :
    ∃ s' poll, step cfg s (.tick i p) = some s' ∧ s'.polls.get? p = some poll ∧
      poll.key = contractAddress.toLower ∧ poll.fromBlock = cursor + 1 := by
  have hfrom : (s.lastSeen.get? contractAddress.toLower).getD 0 + 1 = cursor + 1 := by rw [hc]; rfl
  have hstep : step cfg s (.tick i p) = some (s.setPoll p
      ⟨contractAddress, i, s.deposits.values, cursor + 1, .blockNumber⟩) := by
    simp only [step, hi, hp, startPoll, if_neg hf, if_pos ho, hfrom]
  exact ⟨_, _, hstep, JsMap.get?_set_self _ _ _, rfl, rfl⟩

/-- In every run in which no pull is answered without a successful receipt and a poll that writes
the cursor leaves out no approval between the cursor and its first block, the poll that moves a
cursor has handled all approvals of the blocks passed over, and each was pulled, or had too low an
allowance, or met no open deposit. If besides what `pollOnce` checks at its start still holds when
it starts on its batch, an approval whose pull failed is had again by a later poll as long as its
deposit is open. -/
theorem approvals_kept (cfg : Config) (chain : String → List Log) (g : Audited)
    (h : ReachUnder (audit cfg) (fun g a => Kept chain g.state a) .init g) :
    (∀ a g', Kept chain g.state a → audit cfg g a = some g' → PassesHandled cfg chain g a g') ∧
    (ReachUnder (audit cfg) (fun g a => Retries chain g.state a) .init g →
      ∀ e ∈ g.owed, e.1 ∈ g.state.deposits.values → SeenAgain cfg chain g.state e.1 e.2) := by
  refine ⟨fun a g' hok hs => passes_handled (fun _ _ => id) h hok hs, ?_⟩
  intro hretries e he hopen
  have hr := retried_of_reach hretries
  have hinv := inv_of_retries hretries
  obtain ⟨⟨i, hi⟩, hbefore⟩ := hr.behind e he hopen
  obtain ⟨-, -, -, -, -, cursor, -, hc, -⟩ := hinv.timer _ i hi
  have hlt := hbefore cursor hc
  have hstate : Reach (step cfg) init g.state := reach_of_audit (fun _ _ _ => trivial) h
  obtain ⟨contractAddress, -, hlive, hkey, -⟩ := (timersLive_of_reach hstate).timers _ i hi
  refine ⟨(hr.known e he).2, ⟨cursor, hc, hlt⟩, i, contractAddress, hi, hlive, hkey, ?_⟩
  intro p hp hf
  have ho : hasOpenDepositFor g.state contractAddress :=
    (hasOpenDepositFor_iff _ _).mpr ⟨e.1, hopen, hkey.symm⟩
  rw [← hkey] at hf hc
  obtain ⟨s', poll, hs, hp', hk, hfrom⟩ := tick_polls cfg hlive hp hf ho hc
  exact ⟨s', poll, hs, hp', hk.trans hkey, by omega⟩

/-- A token with one approval, of block 11. -/
def oneApproval : String → List Log := fun _ => [fiveTokensLog 11]

/-- The node rejects the `transferFrom`: the poll throws, and the next one has the approval again. -/
theorem rejected_pull_seen_again : ∃ g,
    ReachUnder (audit plainWatcher) (fun g a => Retries oneApproval g.state a) .init g ∧
    g.state.deposits.values = [tokenDeposit "cid-1" "alice"] ∧
    g.owed = [(tokenDeposit "cid-1" "alice", fiveTokensLog 11)] ∧
    SeenAgain plainWatcher oneApproval g.state (tokenDeposit "cid-1" "alice") (fiveTokensLog 11) := by
  have he : (exec (guarded (audit plainWatcher) fun g a => Retries oneApproval g.state a) .init
      (opening (tokenDeposit "cid-1" "alice") 5 ++ reading 0 0 11 [fiveTokensLog 11] ++
        [.allowance 0 none, .transferFrom 0 (some "insufficient funds for gas"), .resume 0])).map
      (fun g => (g.state.deposits.values, g.owed)) =
      some ([tokenDeposit "cid-1" "alice"], [(tokenDeposit "cid-1" "alice", fiveTokensLog 11)]) := by
    decide +kernel
  obtain ⟨g, hg, heq⟩ := Option.map_eq_some_iff.mp he
  obtain ⟨hopen, howed⟩ := Prod.mk.inj heq
  have hrun := reachUnder_of_exec hg
  have hkept := hrun.mono fun _ _ hok => hok.kept
  have hin : (tokenDeposit "cid-1" "alice", fiveTokensLog 11) ∈ g.owed := by
    rw [howed]
    exact List.mem_singleton_self _
  have hvalue : tokenDeposit "cid-1" "alice" ∈ g.state.deposits.values := by
    rw [hopen]
    exact List.mem_singleton_self _
  exact ⟨g, hrun, hopen, howed,
    (approvals_kept plainWatcher oneApproval g hkept).2 hrun _ hin hvalue⟩

/-- The approval's pull has not been confirmed, and the cursor has moved past it. -/
def PassedOver (g g' : Audited) : Prop :=
  g.state.lastSeen.get? (tokenDeposit "cid-1" "alice").key = some 9 ∧
    g'.state.lastSeen.get? (tokenDeposit "cid-1" "alice").key = some 11 ∧
    (g'.traces 0).handled = [(fiveTokensLog 11, .unconfirmed (tokenDeposit "cid-1" "alice") 0)] ∧
    g'.state.deposits.values = [tokenDeposit "cid-1" "alice"] ∧
    g'.owed = [(tokenDeposit "cid-1" "alice", fiveTokensLog 11)]

instance (g g' : Audited) : Decidable (PassedOver g g') := by
  unfold PassedOver
  infer_instance

/-- The `transferFrom` is mined and reverts: the poll goes on as if it had succeeded and moves the
cursor past the approval, which no later poll has again although its deposit is open. -/
theorem reverted_pull_passed_over : ∃ g g', Reach (audit plainWatcher) .init g ∧
    audit plainWatcher g (.resume 0) = some g' ∧
    ¬ PassesHandled plainWatcher oneApproval g (.resume 0) g' ∧
    tokenDeposit "cid-1" "alice" ∈ g'.state.deposits.values ∧
    (tokenDeposit "cid-1" "alice", fiveTokensLog 11) ∈ g'.owed ∧
    ¬ SeenAgain plainWatcher oneApproval g'.state (tokenDeposit "cid-1" "alice") (fiveTokensLog 11) := by
  have he : (exec (audit plainWatcher) .init
      (opening (tokenDeposit "cid-1" "alice") 5 ++ reading 0 0 11 [fiveTokensLog 11] ++
        [.allowance 0 none, .broadcast 0, .revert 0, .transferFrom 0 none, .receipt 0 .receipt])).bind
      (fun g => (audit plainWatcher g (.resume 0)).map fun g' => decide (PassedOver g g')) =
      some true := by
    decide +kernel
  obtain ⟨g, hg, he⟩ := Option.bind_eq_some_iff.mp he
  obtain ⟨g', hs, hfacts⟩ := Option.map_eq_some_iff.mp he
  obtain ⟨hc, hc', hhandled, hopen, howed⟩ := of_decide_eq_true hfacts
  refine ⟨g, g', reach_of_exec hg, hs, ?_, by simp [hopen], by simp [howed], ?_⟩
  · intro hpasses
    obtain ⟨p, poll, hact, -, -, -, hvouched⟩ := hpasses rfl _ 9 11 hc hc' (by omega)
    cases hact
    exact hvouched (fiveTokensLog 11, .unconfirmed (tokenDeposit "cid-1" "alice") 0) (by simp [hhandled])
  · intro hseen
    obtain ⟨cursor, hcursor, hlt⟩ := hseen.cursor
    rw [hc'] at hcursor
    cases hcursor
    exact absurd hlt (lt_irrefl _)

end FinP2PAdapter.Deposits.ApprovalWatcher
