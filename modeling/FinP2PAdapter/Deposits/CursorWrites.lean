import FinP2PAdapter.Deposits.BatchOrder
import FinP2PAdapter.Deposits.PullAmounts

/-! What the cursor moves past. The chain's `Approval` logs are given, and `getLogs` answers with
those of the range it is asked for. As long as no pull is answered without a successful receipt and
a poll finds the cursor where its batch reaches back to, the poll that moves the cursor has handled
every approval in the blocks it passes: it pulled its tokens, or found the allowance too low, or
met no open deposit. -/

namespace FinP2PAdapter.Deposits.ApprovalWatcher

open Machine

/-! ### The side conditions -/

def inRange (fromBlock toBlock : ℕ) (logs : List Log) : List Log :=
  logs.filter fun log => fromBlock ≤ log.blockNumber ∧ log.blockNumber ≤ toBlock

theorem mem_inRange {fromBlock toBlock : ℕ} {logs : List Log} {log : Log} :
    log ∈ inRange fromBlock toBlock logs ↔
      log ∈ logs ∧ fromBlock ≤ log.blockNumber ∧ log.blockNumber ≤ toBlock := by
  simp [inRange]

/-- The poll that is answered its logs, with the last block it asked for. -/
def fetches (s : State) : Action → Option (Poll × ℕ × List Log)
  | .logs p (.ok logs) =>
    (s.polls.get? p).bind fun poll => match poll.stage with
      | .logs latest => some (poll, latest, logs)
      | _ => none
  | _ => none

/-- `getLogs` answers with the contract's logs of the range. -/
def Answers (chain : String → List Log) (s : State) (a : Action) : Prop :=
  ∀ fetch ∈ fetches s a, fetch.2.2 = inRange fetch.1.fromBlock fetch.2.1 (chain fetch.1.key)

/-- The transaction whose receipt a poll waits for. -/
def waitsFor (s : State) (p : ℕ) : Option PullTx :=
  (s.polls.get? p).bind fun poll => match poll.stage with
    | .handling _ _ _ (.wait _ _ _ tx) => s.txs[tx]?
    | _ => none

/-- No wait ends with `null` or with a reverted transaction's receipt. -/
def Confirmed (s : State) : Action → Prop
  | .receipt _ .null => False
  | .receipt p .receipt => ∀ tx ∈ waitsFor s p, tx.status ≠ .reverted
  | _ => True

/-- A poll about to write the cursor finds no approval between it and its own first block. -/
def Reaches (chain : String → List Log) (s : State) (a : Action) : Prop :=
  ∀ ahead ∈ goesOnWith s a, nextParsed ahead.2 = none → ∀ cursor ∈ s.lastSeen.get? ahead.1.key,
    ∀ log ∈ approvals (chain ahead.1.key), cursor < log.blockNumber →
      ahead.1.fromBlock ≤ log.blockNumber

structure Kept (chain : String → List Log) (s : State) (a : Action) : Prop where
  answers : Answers chain s a
  confirmed : Confirmed s a
  reaches : Reaches chain s a

instance (chain : String → List Log) (s : State) (a : Action) : Decidable (Answers chain s a) := by
  unfold Answers
  infer_instance

instance (s : State) (a : Action) : Decidable (Confirmed s a) := by
  unfold Confirmed
  split <;> infer_instance

instance (chain : String → List Log) (s : State) (a : Action) : Decidable (Reaches chain s a) := by
  unfold Reaches
  infer_instance

instance (chain : String → List Log) (s : State) (a : Action) : Decidable (Kept chain s a) :=
  decidable_of_iff (Answers chain s a ∧ Confirmed s a ∧ Reaches chain s a)
    ⟨fun h => ⟨h.1, h.2.1, h.2.2⟩, fun h => ⟨h.answers, h.confirmed, h.reaches⟩⟩

/-! ### Cursor writes -/

/-- A poll's step that ends its batch and writes the cursor. -/
structure Writes (s : State) (a : Action) (s' : State) (p : ℕ) (poll : Poll) (latest : ℕ)
    (ahead : List Log) : Prop where
  polling : s.polls.get? p = some poll
  batch : a = .logs p (.ok ahead) ∧ poll.stage = .logs latest ∨
    a = .resume p ∧ ∃ log, poll.stage = .handling latest log ahead .returned
  ended : nextParsed ahead = none
  resolved : s'.polls.get? p = some { poll with stage := .resolved }
  cursor : s'.lastSeen = s.lastSeen.set poll.key latest

theorem Writes.acts {s s' : State} {a : Action} {p latest : ℕ} {poll : Poll} {ahead : List Log}
    (h : Writes s a s' p poll latest ahead) : a.poll? = some p := by
  rcases h.batch with ⟨rfl, -⟩ | ⟨rfl, -⟩
  · rfl
  · rfl

theorem Writes.goesOn {s s' : State} {a : Action} {p latest : ℕ} {poll : Poll} {ahead : List Log}
    (h : Writes s a s' p poll latest ahead) : goesOnWith s a = some (poll, ahead) := by
  rcases h.batch with ⟨rfl, hst⟩ | ⟨rfl, log, hst⟩
  · simp [goesOnWith, h.polling, hst]
  · simp [goesOnWith, h.polling, hst]

theorem stopPolling_cursor (s : State) (contractAddress key : String) :
    (stopPolling s contractAddress).lastSeen.get? key = s.lastSeen.get? key ∨
      (stopPolling s contractAddress).lastSeen.get? key = none := by
  simp only [stopPolling, JsMap.get?_delete]
  split_ifs
  · exact .inr rfl
  · exact .inl rfl

theorem dropDeposit_cursor (s : State) (deposit : PullDeposit) (contractAddress key : String) :
    (dropDeposit s deposit contractAddress).lastSeen.get? key = s.lastSeen.get? key ∨
      (dropDeposit s deposit contractAddress).lastSeen.get? key = none := by
  unfold dropDeposit
  dsimp only
  split_ifs
  · exact .inl rfl
  · exact stopPolling_cursor _ _ _

theorem handleLogs_cursor (s : State) (p : ℕ) (poll : Poll) (latest : ℕ) (logs : List Log) :
    (handleLogs s p poll latest logs).lastSeen = s.lastSeen ∨
      nextParsed logs = none ∧
        (handleLogs s p poll latest logs).lastSeen = s.lastSeen.set poll.key latest ∧
        (handleLogs s p poll latest logs).polls.get? p = some { poll with stage := .resolved } := by
  rcases handleLogs_cases s p poll latest logs with ⟨hn, h⟩ | ⟨message, h⟩ | ⟨log, -, rest, -, h⟩ |
    ⟨log, -, rest, deposit, owner, value, -, -, -, h⟩ <;> rw [h]
  · exact .inr ⟨hn, rfl, JsMap.get?_set_self _ _ _⟩
  · exact .inl rfl
  · exact .inl rfl
  · exact .inl rfl

/-- A cursor stays, or goes with its timer, or is a new deposit's, or a poll writes it. -/
theorem cursor_of_step {cfg : Config} {s s' : State} {a : Action} (hs : step cfg s a = some s')
    (key : String) :
    s'.lastSeen.get? key = s.lastSeen.get? key ∨ s'.lastSeen.get? key = none ∨
    (∃ seed ∈ seeds s a, seed.1.key = key) ∨
    ∃ p poll latest ahead, Writes s a s' p poll latest ahead ∧ poll.key = key := by
  have hstays : s'.lastSeen = s.lastSeen → s'.lastSeen.get? key = s.lastSeen.get? key := by
    intro h
    rw [h]
  -- a write to another contract's cursor leaves this one alone
  have hwrites : ∀ {p latest : ℕ} {poll : Poll} {ahead : List Log}, Writes s a s' p poll latest ahead →
      s'.lastSeen.get? key = s.lastSeen.get? key ∨
        ∃ p poll latest ahead, Writes s a s' p poll latest ahead ∧ poll.key = key := by
    intro p latest poll ahead hw
    by_cases hk : poll.key = key
    · exact .inr ⟨p, poll, latest, ahead, hw, hk⟩
    · rw [hw.cursor, JsMap.get?_set_of_ne _ _ (Ne.symm hk)]
      exact .inl rfl
  cases transition_of_step hs with
  | @addDeposit id deposit =>
    apply Or.inl
    unfold addDeposit
    split_ifs
    · rfl
    · dsimp only
      split_ifs <;> rfl
  | @seeded id currentBlock deposit hc =>
    by_cases hk : deposit.key = key
    · exact .inr (.inr (.inl ⟨(deposit, currentBlock), by simp [seeds, hc], hk⟩))
    · exact .inl (JsMap.get?_set_of_ne _ _ (Ne.symm hk))
  | tick =>
    unfold startPoll
    dsimp only
    split_ifs
    · exact .inl rfl
    · exact .inl rfl
    · exact (stopPolling_cursor _ _ key).imp id .inl
  | @noLogs p latest poll hp hst =>
    have hw : Writes s (.logs p (.ok [])) ((advance s poll.key latest).setPoll p
        { poll with stage := .resolved }) p poll latest [] :=
      ⟨hp, .inl ⟨rfl, hst⟩, rfl, JsMap.get?_set_self _ _ _, rfl⟩
    exact (hwrites hw).imp id fun h => .inr (.inr h)
  | @batch p latest poll logs hp hst =>
    rcases handleLogs_cursor { s with inFlight := insert poll.key s.inFlight } p poll latest logs with
      h | ⟨hn, hl, hres⟩
    · exact .inl (hstays h)
    · have hw : Writes s (.logs p (.ok logs)) _ p poll latest logs :=
        ⟨hp, .inl ⟨rfl, hst⟩, hn, hres, hl⟩
      exact (hwrites hw).imp id fun h => .inr (.inr h)
  | @next p latest poll log rest hp hst =>
    rcases handleLogs_cursor s p poll latest rest with h | ⟨hn, hl, hres⟩
    · exact .inl (hstays h)
    · have hw : Writes s (.resume p) _ p poll latest rest :=
        ⟨hp, .inr ⟨rfl, log, hst⟩, hn, hres, hl⟩
      exact (hwrites hw).imp id fun h => .inr (.inr h)
  | @completes p latest i poll log rest deposit owner desired tx =>
    have hdrop := dropDeposit_cursor s deposit poll.contractAddress key
    obtain ⟨reports, next, -, he⟩ := completePull_eq cfg s p poll latest log rest deposit owner desired i
    rw [he]
    exact hdrop.imp id .inl
  | seedRejected => exact .inl rfl
  | blockNumber => exact .inl rfl
  | logsRejected => exact .inl rfl
  | throws => exact .inl rfl
  | allowanceRejected => exact .inl rfl
  | allowance => exact .inl rfl
  | gasRejected => exact .inl rfl
  | gas => exact .inl rfl
  | broadcast => exact .inl rfl
  | transferRejected => exact .inl rfl
  | transferSent => exact .inl rfl
  | unconfirmed => exact .inl rfl
  | callback => exact .inl rfl
  | approve => exact .inl rfl
  | mine => exact .inl rfl
  | revert => exact .inl rfl

/-! ### Batches -/

theorem Walks.batch {s : State} {poll : Poll} {latest : ℕ} {logs : List Log} {t t' : Trace}
    {stage : PollStage} (hw : Walks s poll latest logs t stage t') : t'.batch = t.batch := by
  cases hw with
  | finished => rfl
  | malformed => rfl
  | unmatched => rfl
  | matched => rfl

theorem Walks.latest {s : State} {poll : Poll} {latest latest' : ℕ} {logs rest : List Log} {log : Log}
    {handling : Handling} {t t' : Trace}
    (hw : Walks s poll latest logs t (.handling latest' log rest handling) t') : latest' = latest := by
  cases hw with
  | unmatched => rfl
  | matched => rfl

/-- A batch being handled is the chain's logs of the range the poll asked for. -/
def StageRange (chain : String → List Log) (poll : Poll) (t : Trace) : PollStage → Prop
  | .handling latest _ _ _ => t.batch = inRange poll.fromBlock latest (chain poll.key)
  | _ => True

theorem Walks.range {chain : String → List Log} {s : State} {poll : Poll} {latest : ℕ}
    {logs : List Log} {t t' : Trace} {stage : PollStage} (hw : Walks s poll latest logs t stage t')
    (hb : t.batch = inRange poll.fromBlock latest (chain poll.key)) : StageRange chain poll t' stage := by
  cases hw with
  | finished => trivial
  | malformed => trivial
  | unmatched => exact hb
  | matched => exact hb

theorem Acts.range {cfg : Config} {chain : String → List Log} {s : State} {poll : Poll} {t t' : Trace}
    {a : Action} {p : ℕ} {stage : PollStage} (hact : a.poll? = some p) (hp : s.polls.get? p = some poll)
    (hok : Answers chain s a) (h : StageRange chain poll t poll.stage)
    (ha : Acts cfg s poll t a stage t') : StageRange chain poll t' stage := by
  cases ha with
  | early hst hstage => rcases hstage with rfl | ⟨message, rfl⟩ | ⟨latest, rfl⟩ <;> trivial
  | @fetched _ latest logs _ _ hst hrange hw =>
    cases hact
    have hfetch : fetches s (.logs p (.ok logs)) = some (poll, latest, logs) := by
      simp [fetches, hp, hst]
    exact hw.range (hok _ hfetch)
  | resumed hst hw =>
    rw [hst] at h
    exact hw.range h
  | left => trivial
  | low hst =>
    rw [hst] at h
    exact h
  | approved hst =>
    rw [hst] at h
    exact h
  | failed _ hst =>
    rw [hst] at h
    exact h
  | proceeds hst =>
    rw [hst] at h
    exact h
  | unconfirmed hst =>
    rw [hst] at h
    exact h
  | pulled hst =>
    rw [hst] at h
    exact h
  | calledBack hst =>
    rw [hst] at h
    exact h
  | callbackThrew hst =>
    rw [hst] at h
    exact h

theorem stageRange_of_reach {cfg : Config} {chain : String → List Log} {ok : Audited → Action → Prop}
    (hok : ∀ g a, ok g a → Answers chain g.state a) {g : Audited}
    (h : ReachUnder (audit cfg) ok .init g) {p : ℕ} {poll : Poll}
    (hp : g.state.polls.get? p = some poll) : StageRange chain poll (g.traces p) poll.stage := by
  apply poll_invariant (P := fun poll t => StageRange chain poll t poll.stage) ?_ ?_ h hp
  · intro poll hst
    rw [hst]
    trivial
  · intro g a p poll stage t' _ ha hact hp hrange hacts
    have hnext : StageRange chain poll t' stage := hacts.range hact hp (hok g a ha) hrange
    exact hnext

/-! ### What became of an approval -/

/-- An approval whose handling was no failure: no deposit was open, or the allowance was too low for
what was asked, or a mined `transferFrom` has pulled the deposit from the approval's owner. -/
def Vouched (cfg : Config) (s : State) (log : Log) : Outcome → Prop
  | .noDeposit => True
  | .low deposit currentAllowance desired => (currentAllowance : ℤ) < desired ∧
    ∃ owner value, log.parsed = .approval owner value ∧ desiredAmount cfg deposit value = .ok desired
  | .pulled deposit i => ∃ tx value, s.txs[i]? = some tx ∧ tx.status = .mined ∧
    tx.deposit = deposit ∧ log.parsed = .approval tx.owner value
  | .unconfirmed _ _ => False
  | .failed _ _ => False

theorem Vouched.later {cfg : Config} {s s' : State} {a : Action} {log : Log} {outcome : Outcome}
    (h : Vouched cfg s log outcome) (hs : step cfg s a = some s') : Vouched cfg s' log outcome := by
  cases outcome with
  | noDeposit => trivial
  | low => exact h
  | pulled deposit i =>
    obtain ⟨tx, value, htx, hm, hd, hlog⟩ := h
    exact ⟨tx, value, mined_stays hs htx hm, hm, hd, hlog⟩
  | unconfirmed => exact h
  | failed => exact h

/-- The transaction a poll waits for is of the deposit and the owner it has in hand. -/
theorem waited_tx {cfg : Config} {ok : State → Action → Prop} {s : State}
    (h : ReachUnder (step cfg) ok init s) {p latest i : ℕ} {poll : Poll} {log : Log} {rest : List Log}
    {deposit : PullDeposit} {owner : String} {desired : ℤ} (hp : s.polls.get? p = some poll)
    (hst : poll.stage = .handling latest log rest (.wait deposit owner desired i)) :
    ∃ tx, s.txs[i]? = some tx ∧ tx.deposit = deposit ∧ tx.owner = owner := by
  have hruns : Runs Submissions.Step (fun _ _ => True) Submissions.init (ledger cfg s) :=
    h.simulate (ledger cfg) (Q := fun _ => True) (fun _ _ => trivial) fun _ _ _ _ _ hs =>
      (ledger_step hs).imp id fun ⟨b, _, hstep⟩ => ⟨b, trivial, hstep⟩
  have hworker : (ledger cfg s).worker p =
      some (.sent deposit.correlationId (payload cfg deposit owner desired) i) := by
    rw [ledger_worker hp, hst]
    rfl
  obtain ⟨t, ht, -, hpayload⟩ := (Submissions.inv_of_runs hruns).sent_tx p _ _ i hworker
  rw [ledger, List.getElem?_map, Option.map_eq_some_iff] at ht
  obtain ⟨tx, htx, rfl⟩ := ht
  simp only [submitted, payload, Prod.mk.injEq] at hpayload
  exact ⟨tx, htx, hpayload.1, hpayload.2.1⟩

/-- Every approval a poll has handled without an exception is vouched for. -/
def AllVouched (cfg : Config) (s : State) (t : Trace) : Prop :=
  ∀ e ∈ t.handled, ¬ e.2.Threw → Vouched cfg s e.1 e.2

theorem AllVouched.snoc {cfg : Config} {s : State} {t : Trace} {log : Log} {outcome : Outcome}
    (h : AllVouched cfg s t) (ho : ¬ outcome.Threw → Vouched cfg s log outcome) :
    ∀ e ∈ t.handled ++ [(log, outcome)], ¬ e.2.Threw → Vouched cfg s e.1 e.2 := by
  intro e he
  rcases List.mem_append.mp he with hold | hnew
  · exact h e hold
  · rw [List.mem_singleton.mp hnew]
    exact ho

theorem Walks.vouched {cfg : Config} {s : State} {poll : Poll} {latest : ℕ} {logs : List Log}
    {t t' : Trace} {stage : PollStage} (hw : Walks s poll latest logs t stage t')
    (h : AllVouched cfg s t) : AllVouched cfg s t' := by
  cases hw with
  | finished => exact h
  | malformed => exact h
  | unmatched => exact h.snoc fun _ => trivial
  | matched => exact h

theorem Acts.vouched {cfg : Config} {ok : State → Action → Prop} {s : State} {poll : Poll}
    {t t' : Trace} {a : Action} {p : ℕ} {stage : PollStage} (hrun : ReachUnder (step cfg) ok init s)
    (hact : a.poll? = some p) (hp : s.polls.get? p = some poll) (hok : Confirmed s a)
    (hsized : StageSized cfg t poll.stage) (h : AllVouched cfg s t)
    (ha : Acts cfg s poll t a stage t') : AllVouched cfg s t' := by
  cases ha with
  | early => exact h
  | fetched hst hrange hw =>
    apply hw.vouched
    intro e he
    cases he
  | resumed hst hw => exact hw.vouched h
  | left => exact h
  | @low _ _ value log rest deposit owner desired hst hd hlt =>
    rw [hst] at hsized
    exact h.snoc fun _ => ⟨hlt, owner, value, hsized.2, hd⟩
  | approved => exact h
  | failed => exact h.snoc fun hthrew => absurd trivial hthrew
  | proceeds => exact h
  | @unconfirmed _ latest tx log rest deposit owner desired answer hst hanswer =>
    cases hact
    exfalso
    rcases hanswer with rfl | ⟨rfl, hstatus⟩
    · exact hok
    · obtain ⟨t, ht, hm⟩ := Option.map_eq_some_iff.mp hstatus
      have hwaits : waitsFor s p = some t := by simp [waitsFor, hp, hst, ht]
      exact hok t hwaits hm
  | @pulled _ latest i log rest deposit owner desired tx next hst htx hm hnext =>
    cases hact
    rw [hst] at hsized
    obtain ⟨value, hlog, -⟩ := hsized.2.asked
    obtain ⟨tx', htx', hdeposit, howner⟩ := waited_tx hrun hp hst
    rw [htx] at htx'
    cases htx'
    exact h.snoc fun _ => ⟨tx, value, htx, hm, hdeposit, howner ▸ hlog⟩
  | calledBack => exact h
  | callbackThrew => exact h

theorem vouched_of_reach {cfg : Config} {ok : Audited → Action → Prop}
    (hok : ∀ g a, ok g a → Confirmed g.state a) {g : Audited} (h : ReachUnder (audit cfg) ok .init g)
    {p : ℕ} {poll : Poll} (hp : g.state.polls.get? p = some poll) :
    AllVouched cfg g.state (g.traces p) := by
  apply poll_state_invariant (P := fun s _ t => AllVouched cfg s t) ?_ ?_ ?_ h hp
  · intro s poll _ e he
    cases he
  · intro g a g' poll t _ hs hall e he hthrew
    exact (hall e he hthrew).later (state_of_audit hs)
  · intro g a p poll stage t' hg ha hact hp hall hacts
    have hrun : Reach (step cfg) init g.state := reach_of_audit (fun _ _ _ => trivial) hg
    exact hacts.vouched hrun hact hp (hok g a ha) (stageSized_of_reach hg hp) hall

/-! ### Passing over blocks -/

/-- Whenever a step that seeds no cursor moves one, it is a poll's that has handled every approval
of the blocks passed over, and all it handled are vouched for. -/
def PassesHandled (cfg : Config) (chain : String → List Log) (g : Audited) (a : Action) (g' : Audited) :
    Prop :=
  seeds g.state a = none → ∀ key cursor cursor', g.state.lastSeen.get? key = some cursor →
    g'.state.lastSeen.get? key = some cursor' → cursor < cursor' →
      ∃ p poll, a.poll? = some p ∧ g.state.polls.get? p = some poll ∧ poll.key = key ∧
        List.Sublist (approvals (inRange (cursor + 1) cursor' (chain key)))
          ((g'.traces p).handled.map Prod.fst) ∧
        ∀ e ∈ (g'.traces p).handled, Vouched cfg g'.state e.1 e.2

theorem approvals_sublist {l l' : List Log} (h : List.Sublist l l') :
    List.Sublist (approvals l) (approvals l') := h.filter _

/-- The approvals of the passed blocks are of the range that the poll asked for. -/
theorem passed_sublist {fromBlock cursor latest : ℕ} {logs : List Log}
    (h : ∀ log ∈ approvals logs, cursor < log.blockNumber → fromBlock ≤ log.blockNumber) :
    List.Sublist (approvals (inRange (cursor + 1) latest logs))
      (approvals (inRange fromBlock latest logs)) := by
  have he : approvals (inRange (cursor + 1) latest logs) =
      approvals (inRange (cursor + 1) latest (inRange fromBlock latest logs)) := by
    unfold approvals inRange
    rw [List.filter_filter, List.filter_filter, List.filter_filter]
    apply List.filter_congr
    intro log hlog
    by_cases happroval : log.isApproval
    · have hreach := h log (List.mem_filter.mpr ⟨hlog, happroval⟩)
      simp only [happroval, Bool.true_and, ← Bool.decide_and]
      apply decide_eq_decide.mpr
      omega
    · simp [happroval]
  rw [he]
  exact approvals_sublist List.filter_sublist

theorem walk_batch (s : State) (contractAddress : String) (t : Trace) (logs : List Log) :
    (t.walk s contractAddress logs).batch = t.batch := by
  unfold Trace.walk
  split
  · rfl
  · split
    · rfl
    · rfl
    · split <;> rfl

theorem acting_trace {cfg : Config} {g g' : Audited} {a : Action} {p : ℕ}
    (hs : audit cfg g a = some g') (hact : a.poll? = some p) :
    g'.traces p = (g.traces p).after cfg g.state a := by
  rw [traces_of_audit hs p, if_pos hact]

theorem batch_of_fetch {cfg : Config} {g g' : Audited} {p : ℕ} {poll : Poll} {logs : List Log}
    (hs : audit cfg g (.logs p (.ok logs)) = some g') (hp : g.state.polls.get? p = some poll) :
    (g'.traces p).batch = logs := by
  rw [acting_trace hs rfl]
  simp only [Trace.after, hp]
  exact walk_batch _ _ _ _

theorem batch_of_resume {cfg : Config} {g g' : Audited} {p latest : ℕ} {poll : Poll} {log : Log}
    {rest : List Log} (hs : audit cfg g (.resume p) = some g') (hp : g.state.polls.get? p = some poll)
    (hst : poll.stage = .handling latest log rest .returned) :
    (g'.traces p).batch = (g.traces p).batch := by
  rw [acting_trace hs rfl]
  simp only [Trace.after, hp, hst]
  exact walk_batch _ _ _ _

/-- The batch of a poll that writes the cursor is the chain's logs from its first block to the
cursor it writes. -/
theorem batch_of_writes {cfg : Config} {chain : String → List Log} {ok : Audited → Action → Prop}
    (hok : ∀ g a, ok g a → Answers chain g.state a) {g g' : Audited} {a : Action}
    (h : ReachUnder (audit cfg) ok .init g) (ha : ok g a) (hs : audit cfg g a = some g') {p latest : ℕ}
    {poll : Poll} {ahead : List Log} (hw : Writes g.state a g'.state p poll latest ahead) :
    (g'.traces p).batch = inRange poll.fromBlock latest (chain poll.key) := by
  rcases hw.batch with ⟨rfl, hst⟩ | ⟨rfl, log, hst⟩
  · have hfetch : fetches g.state (.logs p (.ok ahead)) = some (poll, latest, ahead) := by
      simp [fetches, hw.polling, hst]
    rw [batch_of_fetch hs hw.polling]
    exact hok g _ ha _ hfetch
  · have hrange := stageRange_of_reach hok h hw.polling
    rw [hst] at hrange
    rw [batch_of_resume hs hw.polling hst]
    exact hrange

theorem passes_handled {cfg : Config} {chain : String → List Log} {ok : Audited → Action → Prop}
    (hok : ∀ g a, ok g a → Kept chain g.state a) {g g' : Audited} {a : Action}
    (h : ReachUnder (audit cfg) ok .init g) (ha : ok g a) (hs : audit cfg g a = some g') :
    PassesHandled cfg chain g a g' := by
  intro hseeds key cursor cursor' hc hc' hlt
  have hcursor := cursor_of_step (state_of_audit hs) key
  rw [hc, hc', hseeds] at hcursor
  rcases hcursor with hsame | hnone | ⟨_, hseed, -⟩ | ⟨p, poll, latest, ahead, hw, rfl⟩
  · cases hsame
    exact absurd hlt (lt_irrefl _)
  · cases hnone
  · cases hseed
  have hlatest : latest = cursor' := by
    rw [hw.cursor, JsMap.get?_set_self] at hc'
    exact Option.some.inj hc'
  subst hlatest
  have hrun : ReachUnder (audit cfg) ok .init g' := .tail h ha hs
  have hstanding := standing_of_reach hrun hw.resolved
  have hvouched := vouched_of_reach (fun g a ha => (hok g a ha).confirmed) hrun hw.resolved
  refine ⟨p, poll, hw.acts, hw.polling, rfl, ?_, ?_⟩
  · rw [hstanding.1, batch_of_writes (fun g a ha => (hok g a ha).answers) h ha hs hw]
    exact passed_sublist ((hok g a ha).reaches _ hw.goesOn hw.ended cursor hc)
  · intro e he
    exact hvouched e he (hstanding.2.1 e he)

end FinP2PAdapter.Deposits.ApprovalWatcher
