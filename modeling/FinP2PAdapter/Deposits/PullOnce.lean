import FinP2PAdapter.Deposits.ApprovalWatcher

/-! A pull-deposit is pulled and reported at most once as long as a poll that has
read a sufficient allowance finds no other poll on its way to a `transferFrom`
of the same deposit and no such transaction that is or may still be mined. The
watcher refines the ledger of submissions: a poll past its allowance read is a
worker preparing, one that holds a transaction a worker that submitted. -/

namespace FinP2PAdapter.Deposits.ApprovalWatcher

open Machine

/-- A pull as the plugin is told of it: deposit, owner and written amount. -/
abbrev Payload := PullDeposit × String × String

def payload (cfg : Config) (deposit : PullDeposit) (owner : String) (amount : ℤ) : Payload :=
  (deposit, owner, cfg.units.formatUnits amount deposit.decimals)

/-- A poll's part in the ledger of submissions; the jobs are correlation ids. -/
def phase (cfg : Config) : PollStage → Option (Submissions.Phase String Payload)
  | .handling _ _ _ (.gas deposit owner desired)
  | .handling _ _ _ (.transferFrom deposit owner desired none) =>
    some (.preparing deposit.correlationId (payload cfg deposit owner desired))
  | .handling _ _ _ (.transferFrom deposit owner desired (some tx))
  | .handling _ _ _ (.wait deposit owner desired tx) =>
    some (.sent deposit.correlationId (payload cfg deposit owner desired) tx)
  | _ => none

def submitted (cfg : Config) (tx : PullTx) : Submissions.Tx String Payload :=
  ⟨tx.deposit.correlationId, payload cfg tx.deposit tx.owner tx.amount, tx.status⟩

def reported (result : PullResult) : Submissions.Report String Payload :=
  ⟨result.txHash, result.deposit.correlationId, (result.deposit, result.owner, result.amount)⟩

/-- The watcher as a ledger of submissions. -/
def ledger (cfg : Config) (s : State) : Submissions.State String Payload where
  worker p := (s.polls.get? p).bind fun poll => phase cfg poll.stage
  txs := s.txs.map (submitted cfg)
  reports := s.reports.map reported

/-- The deposit a poll goes on to pull when its allowance read is answered. -/
def goesOn (cfg : Config) (s : State) (a : Action) : Option PullDeposit :=
  match a with
  | .allowance p none =>
    match s.polls.get? p with
    | some ⟨contractAddress, _, _, _, .handling _ _ _ (.allowance deposit owner value)⟩ =>
      match desiredAmount cfg deposit value with
      | .ok desired =>
        if desired ≤ s.allowances contractAddress.toLower owner then some deposit else none
      | .error _ => none
    | _ => none
  | _ => none

/-- A poll on its way from a sufficient allowance to its `transferFrom`. -/
def PullUnderWay (correlationId : String) (stage : PollStage) : Prop :=
  match stage with
  | .handling _ _ _ (.gas deposit _ _) => deposit.correlationId = correlationId
  | .handling _ _ _ (.transferFrom deposit _ _ none) => deposit.correlationId = correlationId
  | _ => False

instance (correlationId : String) (stage : PollStage) :
    Decidable (PullUnderWay correlationId stage) := by
  unfold PullUnderWay
  split <;> infer_instance

/-- A poll that goes on to pull a deposit is alone with it: no other is on its way
to pull it, and no `transferFrom` of it is pending or mined. -/
def PullsAlone (cfg : Config) (s : State) (a : Action) : Prop :=
  ∀ deposit ∈ goesOn cfg s a,
    (∀ other ∈ s.polls.values, ¬ PullUnderWay deposit.correlationId other.stage) ∧
      ∀ tx ∈ s.txs, tx.deposit.correlationId = deposit.correlationId → tx.status = .reverted

instance (cfg : Config) (s : State) (a : Action) : Decidable (PullsAlone cfg s a) := by
  unfold PullsAlone
  infer_instance

/-! ### The refinement -/

section Refinement

variable {cfg : Config} {s : State}

theorem ledger_setPoll (s : State) (p : ℕ) (poll : Poll) :
    ledger cfg (s.setPoll p poll) = (ledger cfg s).put p (phase cfg poll.stage) := by
  unfold ledger Submissions.State.put
  congr 1
  funext q
  by_cases hq : q = p
  · subst hq
    simp [State.setPoll]
  · simp [State.setPoll, JsMap.get?_set, hq]

theorem ledger_worker {p : ℕ} {poll : Poll} (hp : s.polls.get? p = some poll) :
    (ledger cfg s).worker p = phase cfg poll.stage := by
  simp [ledger, hp]

/-- A stage outside the ledger leads to one outside it or takes the worker off. -/
theorem ledger_leaves (s : State) (p : ℕ) {poll : Poll} (h : phase cfg poll.stage = none) :
    ledger cfg (s.setPoll p poll) = ledger cfg s ∨
      Submissions.Step (ledger cfg s) (.quit p) (ledger cfg (s.setPoll p poll)) := by
  rw [ledger_setPoll, h]
  exact Submissions.put_none_cases _ _

theorem ledger_stays {p : ℕ} {poll : Poll} (hp : s.polls.get? p = some poll) {stage : PollStage}
    (h : phase cfg stage = phase cfg poll.stage) :
    ledger cfg (s.setPoll p { poll with stage := stage }) = ledger cfg s := by
  rw [ledger_setPoll]
  exact Submissions.put_self (by rw [ledger_worker hp, h])

theorem ledger_handleLogs (s : State) (p : ℕ) {poll : Poll} (latest : ℕ) (logs : List Log) :
    ledger cfg (handleLogs s p poll latest logs) = ledger cfg s ∨
      Submissions.Step (ledger cfg s) (.quit p) (ledger cfg (handleLogs s p poll latest logs)) := by
  rcases handleLogs_cases s p poll latest logs with ⟨_, h⟩ | ⟨message, h⟩ | ⟨log, _, rest, _, h⟩ |
      ⟨log, _, rest, deposit, owner, value, _, _, _, h⟩ <;> rw [h]
  · exact ledger_leaves { advance s poll.key latest with inFlight := s.inFlight.erase poll.key } p rfl
  · exact ledger_leaves { s with inFlight := s.inFlight.erase poll.key } p rfl
  · exact ledger_leaves s p rfl
  · exact ledger_leaves s p rfl

/-- Adding touches nothing of the ledger. -/
theorem ledger_addDeposit (s : State) (id : ℕ) (deposit : PullDeposit) :
    ledger cfg (addDeposit s id deposit) = ledger cfg s := by
  unfold addDeposit
  split_ifs
  · rfl
  · dsimp only
    split_ifs <;> rfl

theorem phase_afterAllowance (cfg : Config) (latest : ℕ) (log : Log) (rest : List Log)
    (deposit : PullDeposit) (owner : String) (value currentAllowance : ℕ) :
    phase cfg (.handling latest log rest
      (afterAllowance cfg deposit owner value currentAllowance)) = none ∨
      ∃ desired, desiredAmount cfg deposit value = .ok desired ∧ desired ≤ currentAllowance ∧
        phase cfg (.handling latest log rest
          (afterAllowance cfg deposit owner value currentAllowance)) =
          some (.preparing deposit.correlationId (payload cfg deposit owner desired)) := by
  unfold afterAllowance
  cases hd : desiredAmount cfg deposit value with
  | error message => exact .inl rfl
  | ok desired =>
    by_cases hlt : (currentAllowance : ℤ) < desired
    · exact .inl (by simp [hlt, phase])
    · refine .inr ⟨desired, rfl, by omega, ?_⟩
      cases hg : cfg.gasStation <;> simp [hlt, phase]

theorem preparesAlone_of_ne {t : Submissions.State String Payload}
    {b : Submissions.Action String Payload}
    (h : ∀ w job load, b ≠ .prepare w job load) : Submissions.PreparesAlone t b :=
  fun w job load hb => absurd hb (h w job load)

theorem goesOn_allowance {p : ℕ} {poll : Poll} {latest : ℕ} {log : Log} {rest : List Log}
    {deposit : PullDeposit} {owner : String} {value : ℕ} {desired : ℤ} (hp : s.polls.get? p = some poll)
    (hst : poll.stage = .handling latest log rest (.allowance deposit owner value))
    (hd : desiredAmount cfg deposit value = .ok desired) (hle : desired ≤ s.allowances poll.key owner) :
    goesOn cfg s (.allowance p none) = some deposit := by
  obtain ⟨contractAddress, interval, openAtStart, fromBlock, stage⟩ := poll
  subst hst
  simp only [goesOn, hp, hd]
  exact if_pos hle

/-- The side condition on the watcher is the one on the ledger. -/
theorem preparesAlone_of_pullsAlone {a : Action} {deposit : PullDeposit} (hok : PullsAlone cfg s a)
    (hd : goesOn cfg s a = some deposit) (p : ℕ) (load : Payload) :
    Submissions.PreparesAlone (ledger cfg s) (.prepare p deposit.correlationId load) := by
  obtain ⟨hnobody, hnone⟩ := hok deposit hd
  intro w job load' hb
  cases hb
  constructor
  · intro v load₂ hv
    obtain ⟨other, hother, hphase⟩ := Option.bind_eq_some_iff.mp hv
    refine hnobody other ((JsMap.mem_values _ _).mpr ⟨v, hother⟩) ?_
    unfold phase at hphase
    split at hphase <;> simp_all [PullUnderWay]
  · intro t ht hj
    obtain ⟨tx, htx, rfl⟩ := List.mem_map.mp ht
    exact hnone tx htx hj

theorem getElem?_ledger {i : ℕ} {tx : PullTx} (h : s.txs[i]? = some tx) :
    (ledger cfg s).txs[i]? = some (submitted cfg tx) := by
  simp [ledger, h]

theorem ledger_settle {i : ℕ} {tx : PullTx} (h : s.txs[i]? = some tx) (hp : tx.status = .pending)
    (mined : Bool) (allowances : String → String → ℕ) :
    Submissions.Step (ledger cfg s) (.settle i mined) (ledger cfg
      { s with
        txs := s.txs.set i { tx with status := Submissions.outcome mined }
        allowances := allowances }) := by
  have hs : Submissions.Step (ledger cfg s) (.settle i mined)
      ((ledger cfg s).settle i (submitted cfg tx) mined) := .settle (getElem?_ledger h) hp
  convert hs using 1
  simp [ledger, Submissions.State.settle, List.map_set, submitted]

theorem ledger_completePull {p i latest : ℕ} {poll : Poll} {log : Log} {rest : List Log}
    {deposit : PullDeposit} {owner : String} {desired : ℤ} {tx : PullTx}
    (hp : s.polls.get? p = some poll)
    (hst : poll.stage = .handling latest log rest (.wait deposit owner desired i))
    (htx : s.txs[i]? = some tx) (hm : tx.status = .mined) :
    ∃ b, (∀ w job load, b ≠ .prepare w job load) ∧
      Submissions.Step (ledger cfg s) b (ledger cfg
        (completePull cfg s p poll latest log rest deposit owner desired i)) := by
  have hw : (ledger cfg s).worker p =
      some (.sent deposit.correlationId (payload cfg deposit owner desired) i) := by
    rw [ledger_worker hp, hst]
    rfl
  unfold completePull dropDeposit
  cases hc : cfg.onPullCompleted with
  | true =>
    refine ⟨.report p, by simp, ?_⟩
    have hs := Submissions.Step.report hw (getElem?_ledger htx) hm
    convert hs using 1
    simp only [if_true]
    rw [ledger_setPoll]
    split_ifs <;> rfl
  | false =>
    refine ⟨.quit p, by simp, ?_⟩
    have hs : Submissions.Step (ledger cfg s) (.quit p) ((ledger cfg s).put p none) :=
      .quit (by simp [hw])
    convert hs using 1
    simp only [Bool.false_eq_true, if_false]
    rw [ledger_setPoll]
    split_ifs <;> rfl

/-- A step of the watcher is a step of the ledger or none of it, and a preparation alone
if the poll pulls alone. -/
theorem ledger_step {s' : State} {a : Action} (h : step cfg s a = some s') :
    ledger cfg s' = ledger cfg s ∨ ∃ b,
      (PullsAlone cfg s a → Submissions.PreparesAlone (ledger cfg s) b) ∧
      Submissions.Step (ledger cfg s) b (ledger cfg s') := by
  have hquits : ∀ {t : State} {p : ℕ}, (ledger cfg t = ledger cfg s ∨
      Submissions.Step (ledger cfg s) (.quit p) (ledger cfg t)) → ledger cfg t = ledger cfg s ∨
      ∃ b, (PullsAlone cfg s a → Submissions.PreparesAlone (ledger cfg s) b) ∧
        Submissions.Step (ledger cfg s) b (ledger cfg t) :=
    fun h => h.imp id fun hs => ⟨_, fun _ => preparesAlone_of_ne (by simp), hs⟩
  cases transition_of_step h with
  | addDeposit => exact .inl (ledger_addDeposit _ _ _)
  | seedRejected => exact .inl rfl
  | seeded => exact .inl rfl
  | @tick interval p contractAddress =>
    unfold startPoll
    dsimp only
    split_ifs
    · exact .inl rfl
    · exact hquits (ledger_leaves s p rfl)
    · exact .inl rfl
  | @blockNumber p poll answer stage hp hst hstage =>
    refine hquits (ledger_leaves s p ?_)
    rcases hstage with rfl | ⟨message, rfl⟩ | ⟨latest, -, -, rfl⟩ <;> rfl
  | logsRejected => exact hquits (ledger_leaves s _ rfl)
  | @noLogs p latest poll => exact hquits (ledger_leaves (advance s poll.key latest) p rfl)
  | @batch p latest poll logs =>
    exact hquits (ledger_handleLogs { s with inFlight := insert poll.key s.inFlight } p latest logs)
  | next => exact hquits (ledger_handleLogs s _ _ _)
  | @throws p latest poll =>
    exact hquits (ledger_leaves { s with inFlight := s.inFlight.erase poll.key } p rfl)
  | allowanceRejected => exact hquits (ledger_leaves s _ rfl)
  | @allowance p latest poll log rest deposit owner value hp hst =>
    rcases phase_afterAllowance cfg latest log rest deposit owner value
      (s.allowances poll.key owner) with
      hnone | ⟨desired, hd, hle, hphase⟩
    · exact hquits (ledger_leaves s p hnone)
    · refine .inr ⟨_, fun hok => preparesAlone_of_pullsAlone hok (goesOn_allowance hp hst hd hle) p
        (payload cfg deposit owner desired), ?_⟩
      rw [State.handle, ledger_setPoll, hphase]
      exact .prepare (by rw [ledger_worker hp, hst]; rfl)
  | gasRejected => exact hquits (ledger_leaves s _ rfl)
  | gas hp hst => exact .inl (ledger_stays hp (by rw [hst]; rfl))
  | @broadcast p latest poll log rest deposit owner desired hp hst =>
    have hw : (ledger cfg s).worker p = some (.preparing deposit.correlationId
        (payload cfg deposit owner desired)) := by
      rw [ledger_worker hp, hst]
      rfl
    refine .inr ⟨.submit p, fun _ => preparesAlone_of_ne (by simp), ?_⟩
    have hs : Submissions.Step (ledger cfg s) (.submit p)
        ((ledger cfg s).submit p deposit.correlationId (payload cfg deposit owner desired)) :=
          .submit hw
    convert hs using 1
    rw [State.handle, ledger_setPoll]
    simp [ledger, State.send, Submissions.State.submit, Submissions.State.put, submitted, phase]
  | transferRejected => exact hquits (ledger_leaves s _ rfl)
  | transferSent hp hst => exact .inl (ledger_stays hp (by rw [hst]; rfl))
  | unconfirmed hp hst hh =>
    refine hquits (ledger_leaves s _ ?_)
    rcases hh with rfl | ⟨message, rfl⟩ <;> rfl
  | completes hp hst htx hm =>
    obtain ⟨b, hb, hs⟩ := ledger_completePull hp hst htx hm
    exact .inr ⟨b, fun _ => preparesAlone_of_ne hb, hs⟩
  | callback hp hst hh =>
    refine hquits (ledger_leaves s _ ?_)
    rcases hh with rfl | ⟨message, rfl⟩ <;> rfl
  | approve => exact .inl rfl
  | mine htx hp => exact .inr ⟨_, fun _ => preparesAlone_of_ne (by simp), ledger_settle htx hp true _⟩
  | revert htx hp =>
    exact .inr ⟨_, fun _ => preparesAlone_of_ne (by simp), ledger_settle htx hp false s.allowances⟩

end Refinement

theorem ledger_runs {cfg : Config} {s : State} (h : ReachUnder (step cfg) (PullsAlone cfg) init s) :
    Runs Submissions.Step Submissions.PreparesAlone Submissions.init (ledger cfg s) :=
  h.simulate (ledger cfg) (Q := fun _ => True) (fun _ _ => trivial) fun _ _ _ _ hok hs =>
    (ledger_step hs).imp id fun ⟨b, hb, hstep⟩ => ⟨b, hb hok, hstep⟩

/-- In every run a report is of a mined `transferFrom` of its deposit, with its owner and
exactly its amount. -/
theorem report_of_mined_pull {cfg : Config} {s : State} {ok : State → Action → Prop}
    (h : ReachUnder (step cfg) ok init s) :
    ∀ r ∈ s.reports, ∃ tx, s.txs[r.txHash]? = some tx ∧ tx.status = .mined ∧ tx.deposit = r.deposit ∧
      tx.owner = r.owner ∧ r.amount = cfg.units.formatUnits tx.amount r.deposit.decimals := by
  have hruns : Runs Submissions.Step (fun _ _ => True) Submissions.init (ledger cfg s) :=
    h.simulate (ledger cfg) (Q := fun _ => True) (fun _ _ => trivial) fun _ _ _ _ _ hs =>
      (ledger_step hs).imp id fun ⟨b, _, hstep⟩ => ⟨b, trivial, hstep⟩
  intro r hr
  obtain ⟨t, ht, -, hpayload, hm⟩ := (Submissions.inv_of_runs hruns).report_tx (reported r)
    (List.mem_map_of_mem hr)
  rw [ledger, List.getElem?_map, Option.map_eq_some_iff] at ht
  obtain ⟨tx, htx, rfl⟩ := ht
  simp only [submitted, payload, reported, Prod.mk.injEq] at hpayload
  obtain ⟨hdeposit, howner, hamount⟩ := hpayload
  exact ⟨tx, htx, hm, hdeposit, howner, by rw [← hamount, hdeposit]⟩

/-- In every run whose polls pull alone, at most one `transferFrom` of a deposit is
mined, a deposit is reported at most once, and a report is of a mined
`transferFrom` of that deposit, with its owner and exactly its amount. -/
theorem deposit_pulled_once (cfg : Config) (s : State)
    (h : ReachUnder (step cfg) (PullsAlone cfg) init s) :
    (∀ (i k : ℕ) (t u : PullTx), s.txs[i]? = some t → s.txs[k]? = some u →
      t.deposit.correlationId = u.deposit.correlationId → t.status = .mined → u.status = .mined →
        i = k) ∧
    (s.reports.map fun r => r.deposit.correlationId).Nodup ∧
    ∀ r ∈ s.reports, ∃ tx, s.txs[r.txHash]? = some tx ∧ tx.status = .mined ∧ tx.deposit = r.deposit ∧
      tx.owner = r.owner ∧ r.amount = cfg.units.formatUnits tx.amount r.deposit.decimals := by
  have hruns := ledger_runs h
  refine ⟨?_, ?_, report_of_mined_pull h⟩
  · intro i k t u ht hu hj htm hum
    exact Submissions.mined_unique hruns (getElem?_ledger ht) (getElem?_ledger hu) hj htm hum
  · have hnodup := Submissions.reports_unique hruns
    rwa [ledger, List.map_map] at hnodup

/-- A deposit whose approval one poll finds is pulled and reported once. -/
theorem lone_deposit_pulled_once :
    ∃ s, ReachUnder (step plainWatcher) (PullsAlone plainWatcher) init s ∧
    s.reports ≠ [] ∧ (s.reports.map fun r => r.deposit.correlationId).Nodup := by
  have he : (exec (guarded (step plainWatcher) (PullsAlone plainWatcher)) init
      (opening (tokenDeposit "cid-1" "alice") 5 ++ reading 0 0 11 [fiveTokensLog 11] ++
        pulling 0 0)).map
        (fun s => s.reports.length) = some 1 := by
    decide +kernel
  obtain ⟨s, hs, hlen⟩ := Option.map_eq_some_iff.mp he
  have hrun := reachUnder_of_exec hs
  exact ⟨s, hrun, by rintro hnil; simp [hnil] at hlen, (deposit_pulled_once plainWatcher s hrun).2.1⟩

/-- Two polls of the token that start before either has its logs pull one deposit
twice under an unlimited allowance, and report it twice. -/
theorem overlapping_polls_pull_twice : ∃ s, Reach (step plainWatcher) init s ∧
    (s.txs.map fun tx => (tx.deposit.correlationId, tx.amount, tx.status)) =
      [("cid-1", 5, .mined), ("cid-1", 5, .mined)] ∧
    (s.reports.map fun r => r.deposit.correlationId) = ["cid-1", "cid-1"] := by
  have he : (exec (step plainWatcher) init
      (opening (tokenDeposit "cid-1" "alice") unlimited ++
        [.tick 0 0, .tick 0 1, .blockNumber 0 (.ok 11), .blockNumber 1 (.ok 11),
          .logs 0 (.ok [fiveTokensLog 11]), .logs 1 (.ok [fiveTokensLog 11])] ++
        pulling 0 0 ++ pulling 1 1)).map
      (fun s => (s.txs.map fun tx => (tx.deposit.correlationId, tx.amount, tx.status),
        s.reports.map fun r => r.deposit.correlationId)) =
      some ([("cid-1", 5, .mined), ("cid-1", 5, .mined)], ["cid-1", "cid-1"]) := by
    decide +kernel
  obtain ⟨s, hs, heq⟩ := Option.map_eq_some_iff.mp he
  exact ⟨s, reach_of_exec hs, congrArg Prod.fst heq, congrArg Prod.snd heq⟩

end FinP2PAdapter.Deposits.ApprovalWatcher
