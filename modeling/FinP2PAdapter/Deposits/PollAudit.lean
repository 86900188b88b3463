import FinP2PAdapter.Deposits.ApprovalCursor

/-! An audit of the approval watcher's polls. Beside the watcher runs a record of each poll: the
batch it fetched, the logs it handled and with what outcome, the allowance it read last and the log
whose handling threw. The record only watches; what a step writes into it is said once, as what
the step does to the acting poll's stage and record. -/

namespace FinP2PAdapter.Deposits.ApprovalWatcher

open Machine

/-! ### Walking a batch -/

/-- The first log that `parseLog` makes something of, and the logs behind it. -/
def nextLog : List Log → Option (Log × List Log)
  | [] => none
  | log :: rest => if log.parsed = .unknown then nextLog rest else some (log, rest)

def Log.isApproval (log : Log) : Bool :=
  match log.parsed with
  | .approval _ _ => true
  | _ => false

def approvals (logs : List Log) : List Log := logs.filter Log.isApproval

theorem approvals_append (l l' : List Log) : approvals (l ++ l') = approvals l ++ approvals l' :=
  List.filter_append _ _

theorem approvals_of_unknown {logs : List Log} (h : ∀ l ∈ logs, l.parsed = .unknown) :
    approvals logs = [] := by
  apply List.filter_eq_nil_iff.mpr
  intro l hl
  simp [Log.isApproval, h l hl]

theorem approvals_singleton {log : Log} {owner : String} {value : ℕ}
    (h : log.parsed = .approval owner value) : approvals [log] = [log] := by
  simp [approvals, Log.isApproval, h]

theorem nextLog_none {logs : List Log} (h : nextLog logs = none) : ∀ l ∈ logs, l.parsed = .unknown := by
  induction logs with
  | nil => simp
  | cons log rest ih =>
    unfold nextLog at h
    split_ifs at h with hu
    exact List.forall_mem_cons.mpr ⟨hu, ih h⟩

theorem nextLog_some {logs rest : List Log} {log : Log} (h : nextLog logs = some (log, rest)) :
    log.parsed ≠ .unknown ∧ ∃ skipped, logs = skipped ++ log :: rest ∧
      ∀ l ∈ skipped, l.parsed = .unknown := by
  induction logs with
  | nil => cases h
  | cons head tail ih =>
    unfold nextLog at h
    split_ifs at h with hu
    · obtain ⟨hne, skipped, he, hskipped⟩ := ih h
      exact ⟨hne, head :: skipped, by rw [he, List.cons_append], List.forall_mem_cons.mpr ⟨hu, hskipped⟩⟩
    · cases h
      exact ⟨hu, [], rfl, by simp⟩

section HandleLogs

variable (s : State) (p : ℕ) (poll : Poll) (latest : ℕ) {logs rest : List Log} {log : Log}

theorem handleLogs_skip (h : log.parsed = .unknown) :
    handleLogs s p poll latest (log :: rest) = handleLogs s p poll latest rest := by
  simp [handleLogs, h]

theorem handleLogs_finished (h : nextLog logs = none) :
    handleLogs s p poll latest logs = leaveBatch (advance s poll.key latest) p poll .resolved := by
  induction logs with
  | nil => rfl
  | cons log rest ih =>
    have hall := nextLog_none h
    have hu : log.parsed = .unknown := hall log List.mem_cons_self
    unfold nextLog at h
    rw [if_pos hu] at h
    rw [handleLogs_skip s p poll latest hu, ih h]

theorem handleLogs_next (h : nextLog logs = some (log, rest)) :
    handleLogs s p poll latest logs = handleLogs s p poll latest (log :: rest) := by
  induction logs with
  | nil => cases h
  | cons head tail ih =>
    unfold nextLog at h
    split_ifs at h with hu
    · rw [handleLogs_skip s p poll latest hu, ih h]
    · cases h
      rfl

theorem handleLogs_malformed {message : String} (h : nextLog logs = some (log, rest))
    (hp : log.parsed = .malformed message) :
    handleLogs s p poll latest logs = leaveBatch s p poll (.rejected message) := by
  rw [handleLogs_next s p poll latest h]
  simp [handleLogs, hp]

theorem handleLogs_unmatched {owner : String} {value : ℕ} (h : nextLog logs = some (log, rest))
    (hp : log.parsed = .approval owner value) (hm : findMatchingDeposit s poll.contractAddress = none) :
    handleLogs s p poll latest logs = s.handle p poll latest log rest .returned := by
  rw [handleLogs_next s p poll latest h]
  simp [handleLogs, hp, hm, State.handle]

theorem handleLogs_matched {owner : String} {value : ℕ} {deposit : PullDeposit}
    (h : nextLog logs = some (log, rest)) (hp : log.parsed = .approval owner value)
    (hm : findMatchingDeposit s poll.contractAddress = some deposit) :
    handleLogs s p poll latest logs =
      s.handle p poll latest log rest (.allowance deposit owner value) := by
  rw [handleLogs_next s p poll latest h]
  simp [handleLogs, hp, hm, State.handle]

end HandleLogs

/-! ### The record of a poll -/

/-- What came of handling an approval. -/
inductive Outcome where
  | noDeposit
  | low (deposit : PullDeposit) (currentAllowance : ℕ) (desired : ℤ)
  | pulled (deposit : PullDeposit) (tx : ℕ)
  | unconfirmed (deposit : PullDeposit) (tx : ℕ)
  | failed (deposit : PullDeposit) (message : String)
  deriving DecidableEq, Repr

/-- The deposit whose pull failed, by an exception or with the receipt. -/
def Outcome.failed? : Outcome → Option PullDeposit
  | .failed deposit _ => some deposit
  | .unconfirmed deposit _ => some deposit
  | _ => none

structure Trace where
  batch : List Log
  handled : List (Log × Outcome)
  read : Option ℕ
  threw : Option Log
  deriving DecidableEq, Repr

def Trace.empty : Trace := ⟨[], [], none, none⟩

/-- The loop goes over `logs` up to its next await. -/
def Trace.walk (s : State) (contractAddress : String) (l : Trace) (logs : List Log) : Trace :=
  match nextLog logs with
  | none => l
  | some (log, _) =>
    match log.parsed with
    | .unknown => l
    | .malformed _ => { l with threw := some log }
    | .approval _ _ =>
      match findMatchingDeposit s contractAddress with
      | none => { l with handled := l.handled ++ [(log, .noDeposit)] }
      | some _ => l

def Trace.settle (l : Trace) (log : Log) (outcome : Outcome) : Trace :=
  { l with
    handled := l.handled ++ [(log, outcome)]
    threw := match outcome with
      | .failed _ _ => some log
      | _ => l.threw }

/-- The approval whose handling an answer settles, and how; a callback settles nothing. -/
def settlement (cfg : Config) (s : State) : Action → Option (Log × Outcome)
  | .allowance p rejection =>
    (s.polls.get? p).bind fun poll => match poll.stage with
      | .handling _ log _ (.allowance deposit owner value) =>
        match rejection with
        | some message => some (log, .failed deposit message)
        | none =>
          match desiredAmount cfg deposit value with
          | .error message => some (log, .failed deposit message)
          | .ok desired =>
            if (s.allowances poll.key owner : ℤ) < desired then
              some (log, .low deposit (s.allowances poll.key owner) desired)
            else none
      | _ => none
  | .gas p (some message) =>
    (s.polls.get? p).bind fun poll => match poll.stage with
      | .handling _ log _ (.gas deposit _ _) => some (log, .failed deposit message)
      | _ => none
  | .transferFrom p (some message) =>
    (s.polls.get? p).bind fun poll => match poll.stage with
      | .handling _ log _ (.transferFrom deposit _ _ _) => some (log, .failed deposit message)
      | _ => none
  | .receipt p answer =>
    (s.polls.get? p).bind fun poll => match poll.stage with
      | .handling _ log _ (.wait deposit _ _ tx) =>
        match answer with
        | .rejects message => some (log, .failed deposit message)
        | .null => some (log, .unconfirmed deposit tx)
        | .receipt =>
          match (s.txs[tx]?).map PullTx.status with
          | some .mined => some (log, .pulled deposit tx)
          | _ => some (log, .unconfirmed deposit tx)
      | _ => none
  | _ => none

/-- The allowance a poll is answered. -/
def allowanceRead (s : State) (p : ℕ) : Option ℕ :=
  (s.polls.get? p).bind fun poll => match poll.stage with
    | .handling _ _ _ (.allowance _ owner _) => some (s.allowances poll.key owner)
    | _ => none

/-- The acting poll's record after a step. -/
def Trace.after (cfg : Config) (s : State) (a : Action) (l : Trace) : Trace :=
  match a with
  | .tick _ _ => .empty
  | .logs p (.ok logs) =>
    match s.polls.get? p with
    | some poll => Trace.walk s poll.contractAddress { Trace.empty with batch := logs } logs
    | none => l
  | .resume p =>
    match s.polls.get? p with
    | some poll =>
      match poll.stage with
      | .handling _ _ rest .returned => l.walk s poll.contractAddress rest
      | _ => l
    | none => l
  | .callback p (some _) =>
    match s.polls.get? p with
    | some poll =>
      match poll.stage with
      | .handling _ log _ _ => { l with threw := some log }
      | _ => l
    | none => l
  | .allowance p none =>
    match settlement cfg s a with
    | some (log, outcome) => { l with read := allowanceRead s p }.settle log outcome
    | none => { l with read := allowanceRead s p }
  | _ =>
    match settlement cfg s a with
    | some (log, outcome) => l.settle log outcome
    | none => l

/-! ### The audited watcher -/

/-- The watcher, the records of its polls, and the approvals whose pull failed and that no later
batch has had since. -/
structure Audited where
  state : State
  traces : ℕ → Trace
  owed : List (PullDeposit × Log)

def Audited.init : Audited := ⟨ApprovalWatcher.init, fun _ => .empty, []⟩

def Action.poll? : Action → Option ℕ
  | .tick _ p | .blockNumber p _ | .logs p _ | .resume p | .allowance p _ | .gas p _ | .broadcast p
  | .transferFrom p _ | .receipt p _ | .callback p _ => some p
  | _ => none

def owedAfter (cfg : Config) (s : State) (a : Action) (owed : List (PullDeposit × Log)) :
    List (PullDeposit × Log) :=
  match a with
  | .logs p (.ok logs) =>
    match s.polls.get? p with
    | some poll => owed.filter fun e => ¬ (e.1.key = poll.key ∧ e.2 ∈ logs)
    | none => owed
  | _ =>
    match settlement cfg s a with
    | some (log, outcome) => (outcome.failed?.toList.map fun deposit => (deposit, log)) ++ owed
    | none => owed

def audit (cfg : Config) (g : Audited) (a : Action) : Option Audited :=
  (step cfg g.state a).map fun s' =>
    { state := s'
      traces := match a.poll? with
        | some p => Function.update g.traces p ((g.traces p).after cfg g.state a)
        | none => g.traces
      owed := owedAfter cfg g.state a g.owed }

/-! ### What a poll's step does -/

/-- The loop from an await to the next one or to the end of the batch. -/
inductive Walks (s : State) (poll : Poll) (latest : ℕ) (logs : List Log) (l : Trace) :
    PollStage → Trace → Prop where
  | finished (hn : nextLog logs = none) : Walks s poll latest logs l .resolved l
  | malformed {log : Log} {rest : List Log} {message : String} (hn : nextLog logs = some (log, rest))
    (hp : log.parsed = .malformed message) :
    Walks s poll latest logs l (.rejected message) { l with threw := some log }
  | unmatched {log : Log} {rest : List Log} {owner : String} {value : ℕ}
    (hn : nextLog logs = some (log, rest)) (hp : log.parsed = .approval owner value)
    (hm : findMatchingDeposit s poll.contractAddress = none) :
    Walks s poll latest logs l (.handling latest log rest .returned)
      { l with handled := l.handled ++ [(log, .noDeposit)] }
  | matched {log : Log} {rest : List Log} {owner : String} {value : ℕ} {deposit : PullDeposit}
    (hn : nextLog logs = some (log, rest)) (hp : log.parsed = .approval owner value)
    (hm : findMatchingDeposit s poll.contractAddress = some deposit) :
    Walks s poll latest logs l (.handling latest log rest (.allowance deposit owner value)) l

/-- Inside `handleApproval`, from one await to the next. -/
inductive Proceeds : Handling → Handling → Prop where
  | funded {deposit : PullDeposit} {owner : String} {desired : ℤ} :
    Proceeds (.gas deposit owner desired) (.transferFrom deposit owner desired none)
  | sent {deposit : PullDeposit} {owner : String} {desired : ℤ} {tx : ℕ} :
    Proceeds (.transferFrom deposit owner desired none) (.transferFrom deposit owner desired (some tx))
  | waits {deposit : PullDeposit} {owner : String} {desired : ℤ} {tx : ℕ} :
    Proceeds (.transferFrom deposit owner desired (some tx)) (.wait deposit owner desired tx)

/-- A step of a poll: from its stage and record to the next ones. -/
inductive Acts (cfg : Config) (s : State) (poll : Poll) (l : Trace) : Action → PollStage → Trace → Prop where
  | early {a : Action} {stage : PollStage}
    (hst : poll.stage = .blockNumber ∨ ∃ latest, poll.stage = .logs latest)
    (hstage : stage = .resolved ∨ (∃ message, stage = .rejected message) ∨
      ∃ latest, stage = .logs latest) :
    Acts cfg s poll l a stage l
  | fetched {p latest : ℕ} {logs : List Log} {stage : PollStage} {l' : Trace}
    (hst : poll.stage = .logs latest)
    (hrange : ∀ log ∈ logs, poll.fromBlock ≤ log.blockNumber ∧ log.blockNumber ≤ latest)
    (hw : Walks s poll latest logs { Trace.empty with batch := logs } stage l') :
    Acts cfg s poll l (.logs p (.ok logs)) stage l'
  | resumed {p latest : ℕ} {log : Log} {rest : List Log} {stage : PollStage} {l' : Trace}
    (hst : poll.stage = .handling latest log rest .returned) (hw : Walks s poll latest rest l stage l') :
    Acts cfg s poll l (.resume p) stage l'
  | left {p latest : ℕ} {log : Log} {rest : List Log} {message : String}
    (hst : poll.stage = .handling latest log rest (.threw message)) :
    Acts cfg s poll l (.resume p) (.rejected message) l
  | low {p latest value : ℕ} {log : Log} {rest : List Log} {deposit : PullDeposit} {owner : String}
    {desired : ℤ} (hst : poll.stage = .handling latest log rest (.allowance deposit owner value))
    (hd : desiredAmount cfg deposit value = .ok desired)
    (hlt : (s.allowances poll.key owner : ℤ) < desired) :
    Acts cfg s poll l (.allowance p none) (.handling latest log rest .returned)
      (Trace.settle { l with read := some (s.allowances poll.key owner) } log
        (.low deposit (s.allowances poll.key owner) desired))
  | approved {p latest value : ℕ} {log : Log} {rest : List Log} {deposit : PullDeposit}
    {owner : String} {desired : ℤ} {next : Handling}
    (hst : poll.stage = .handling latest log rest (.allowance deposit owner value))
    (hd : desiredAmount cfg deposit value = .ok desired)
    (hle : desired ≤ s.allowances poll.key owner)
    (hnext : next = .gas deposit owner desired ∨ next = .transferFrom deposit owner desired none) :
    Acts cfg s poll l (.allowance p none) (.handling latest log rest next)
      { l with read := some (s.allowances poll.key owner) }
  | failed {a : Action} {latest : ℕ} {log : Log} {rest : List Log} {handling : Handling}
    {deposit : PullDeposit} {message : String} (read : Option ℕ)
    (hst : poll.stage = .handling latest log rest handling) (hd : handling.deposit? = some deposit)
    (hcall : ∀ result, handling ≠ .callback result)
    (hsettles : settlement cfg s a = some (log, .failed deposit message)) :
    Acts cfg s poll l a (.handling latest log rest (.threw message))
      (Trace.settle { l with read := read } log (.failed deposit message))
  | proceeds {a : Action} {latest : ℕ} {log : Log} {rest : List Log} {handling next : Handling}
    (hst : poll.stage = .handling latest log rest handling) (hnext : Proceeds handling next) :
    Acts cfg s poll l a (.handling latest log rest next) l
  | unconfirmed {p latest tx : ℕ} {log : Log} {rest : List Log} {deposit : PullDeposit}
    {owner : String} {desired : ℤ} {answer : ReceiptAnswer}
    (hst : poll.stage = .handling latest log rest (.wait deposit owner desired tx))
    (hanswer : answer = .null ∨ answer = .receipt ∧ (s.txs[tx]?).map PullTx.status = some .reverted) :
    Acts cfg s poll l (.receipt p answer) (.handling latest log rest .returned)
      (l.settle log (.unconfirmed deposit tx))
  | pulled {p latest i : ℕ} {log : Log} {rest : List Log} {deposit : PullDeposit} {owner : String}
    {desired : ℤ} {tx : PullTx} {next : Handling}
    (hst : poll.stage = .handling latest log rest (.wait deposit owner desired i))
    (htx : s.txs[i]? = some tx) (hm : tx.status = .mined)
    (hnext : next = .returned ∨ ∃ result, next = .callback result) :
    Acts cfg s poll l (.receipt p .receipt) (.handling latest log rest next)
      (l.settle log (.pulled deposit i))
  | calledBack {p latest : ℕ} {log : Log} {rest : List Log} {result : PullResult}
    (hst : poll.stage = .handling latest log rest (.callback result)) :
    Acts cfg s poll l (.callback p none) (.handling latest log rest .returned) l
  | callbackThrew {p latest : ℕ} {log : Log} {rest : List Log} {result : PullResult} {message : String}
    (hst : poll.stage = .handling latest log rest (.callback result)) :
    Acts cfg s poll l (.callback p (some message)) (.handling latest log rest (.threw message))
      { l with threw := some log }

theorem handleLogs_walks (s : State) (p : ℕ) (poll : Poll) (latest : ℕ) (logs : List Log) (l : Trace) :
    ∃ stage, (handleLogs s p poll latest logs).polls = s.polls.set p { poll with stage := stage } ∧
      Walks s poll latest logs l stage (l.walk s poll.contractAddress logs) := by
  cases hn : nextLog logs with
  | none =>
    rw [handleLogs_finished s p poll latest hn]
    refine ⟨.resolved, rfl, ?_⟩
    have hl : l.walk s poll.contractAddress logs = l := by simp [Trace.walk, hn]
    rw [hl]
    exact .finished hn
  | some found =>
    obtain ⟨log, rest⟩ := found
    cases hp : log.parsed with
    | unknown => exact absurd hp (nextLog_some hn).1
    | malformed message =>
      rw [handleLogs_malformed s p poll latest hn hp]
      refine ⟨.rejected message, rfl, ?_⟩
      have hl : l.walk s poll.contractAddress logs = { l with threw := some log } := by
        simp [Trace.walk, hn, hp]
      rw [hl]
      exact .malformed hn hp
    | approval owner value =>
      cases hm : findMatchingDeposit s poll.contractAddress with
      | none =>
        rw [handleLogs_unmatched s p poll latest hn hp hm]
        refine ⟨_, rfl, ?_⟩
        have hl : l.walk s poll.contractAddress logs =
            { l with handled := l.handled ++ [(log, .noDeposit)] } := by
          simp [Trace.walk, hn, hp, hm]
        rw [hl]
        exact .unmatched hn hp hm
      | some deposit =>
        rw [handleLogs_matched s p poll latest hn hp hm]
        refine ⟨_, rfl, ?_⟩
        have hl : l.walk s poll.contractAddress logs = l := by simp [Trace.walk, hn, hp, hm]
        rw [hl]
        exact .matched hn hp hm

theorem Walks.congr {s s' : State} {poll : Poll} {latest : ℕ} {logs : List Log} {l l' : Trace}
    {stage : PollStage} (h : Walks s poll latest logs l stage l') (hd : s'.deposits = s.deposits) :
    Walks s' poll latest logs l stage l' := by
  have hm : ∀ c, findMatchingDeposit s' c = findMatchingDeposit s c := by
    intro c
    unfold findMatchingDeposit
    rw [hd]
  cases h with
  | finished hn => exact .finished hn
  | malformed hn hp => exact .malformed hn hp
  | unmatched hn hp h => exact .unmatched hn hp ((hm _).trans h)
  | matched hn hp h => exact .matched hn hp ((hm _).trans h)

theorem completePull_polls (cfg : Config) (s : State) (p : ℕ) (poll : Poll) (latest : ℕ) (log : Log)
    (rest : List Log) (deposit : PullDeposit) (owner : String) (desired : ℤ) (tx : ℕ) :
    ∃ next, (next = .returned ∨ ∃ result, next = .callback result) ∧
      (completePull cfg s p poll latest log rest deposit owner desired tx).polls =
        s.polls.set p { poll with stage := .handling latest log rest next } := by
  obtain ⟨reports, next, hnext, he⟩ :=
    completePull_eq cfg s p poll latest log rest deposit owner desired tx
  refine ⟨next, ?_, ?_⟩
  · rcases hnext with rfl | ⟨amount, rfl⟩
    · exact .inl rfl
    · exact .inr ⟨_, rfl⟩
  · rw [he]
    simp only [State.handle, State.setPoll, dropDeposit_polls]

section Answers

variable {cfg : Config} {s s' : State} {p latest : ℕ} {poll : Poll} {log : Log} {rest : List Log}
  {deposit : PullDeposit} {owner : String} (l : Trace)

/-- An answer that settles an approval is written down; only the allowance leaves a reading too. -/
theorem after_settled {a : Action} {outcome : Outcome} (ha : ∀ q, a ≠ .allowance q none)
    (h : settlement cfg s a = some (log, outcome)) : l.after cfg s a = l.settle log outcome := by
  cases a with
  | allowance q rejection =>
    cases rejection with
    | none => exact absurd rfl (ha q)
    | some message => simp [Trace.after, h]
  | gas q rejection => simp [Trace.after, h]
  | transferFrom q rejection => simp [Trace.after, h]
  | receipt q answer => simp [Trace.after, h]
  | _ => cases h

theorem after_allowance_settled {outcome : Outcome}
    (h : settlement cfg s (.allowance p none) = some (log, outcome)) :
    l.after cfg s (.allowance p none) = Trace.settle { l with read := allowanceRead s p } log outcome := by
  simp [Trace.after, h]

theorem Acts.settled {l : Trace} {a : Action} {handling : Handling} {message : String}
    (hst : poll.stage = .handling latest log rest handling) (hd : handling.deposit? = some deposit)
    (hcall : ∀ result, handling ≠ .callback result) (ha : ∀ q, a ≠ .allowance q none)
    (hsettles : settlement cfg s a = some (log, .failed deposit message)) :
    Acts cfg s poll l a (.handling latest log rest (.threw message)) (l.after cfg s a) := by
  rw [after_settled l ha hsettles]
  exact .failed l.read hst hd hcall hsettles

/-- The allowance comes: the amount is out of range, or not covered, or it is pulled. -/
theorem acts_of_allowance {value : ℕ} (hp : s.polls.get? p = some poll)
    (hst : poll.stage = .handling latest log rest (.allowance deposit owner value)) :
    Acts cfg s poll l (.allowance p none)
      (.handling latest log rest (afterAllowance cfg deposit owner value (s.allowances poll.key owner)))
      (l.after cfg s (.allowance p none)) := by
  have hread : allowanceRead s p = some (s.allowances poll.key owner) := by
    simp [allowanceRead, hp, hst]
  cases hd : desiredAmount cfg deposit value with
  | error message =>
    have hsettles : settlement cfg s (.allowance p none) = some (log, .failed deposit message) := by
      simp [settlement, hp, hst, hd]
    have hnext : afterAllowance cfg deposit owner value (s.allowances poll.key owner) =
        .threw message := by
      simp [afterAllowance, hd]
    rw [after_allowance_settled l hsettles, hread, hnext]
    exact .failed _ hst rfl (by simp) hsettles
  | ok desired =>
    by_cases hlt : (s.allowances poll.key owner : ℤ) < desired
    · have hsettles : settlement cfg s (.allowance p none) =
          some (log, .low deposit (s.allowances poll.key owner) desired) := by
        simp [settlement, hp, hst, hd, hlt]
      have hnext : afterAllowance cfg deposit owner value (s.allowances poll.key owner) = .returned := by
        simp [afterAllowance, hd, hlt]
      rw [after_allowance_settled l hsettles, hread, hnext]
      exact .low hst hd hlt
    · have hsettles : settlement cfg s (.allowance p none) = none := by
        simp [settlement, hp, hst, hd, hlt]
      have hl : l.after cfg s (.allowance p none) =
          { l with read := some (s.allowances poll.key owner) } := by
        simp [Trace.after, hsettles, hread]
      rw [hl]
      refine .approved hst hd (not_lt.mp hlt) ?_
      by_cases hgas : cfg.gasStation
      · exact .inl (by simp [afterAllowance, hd, hlt, hgas])
      · exact .inr (by simp [afterAllowance, hd, hlt, hgas])

/-- The receipt comes, or the wait for it ends without one. -/
theorem acts_of_receipt {tx : ℕ} {desired : ℤ} {answer : ReceiptAnswer} (hp : s.polls.get? p = some poll)
    (hst : poll.stage = .handling latest log rest (.wait deposit owner desired tx))
    (hs : step cfg s (.receipt p answer) = some s') :
    ∃ stage, s.polls.get? p = some poll ∧ s'.polls = s.polls.set p { poll with stage := stage } ∧
      Acts cfg s poll l (.receipt p answer) stage (l.after cfg s (.receipt p answer)) := by
  cases answer with
  | rejects message =>
    simp only [step, hp, hst, Option.some.injEq] at hs
    have hsettles : settlement cfg s (.receipt p (.rejects message)) =
        some (log, .failed deposit message) := by
      simp [settlement, hp, hst]
    exact ⟨.handling latest log rest (.threw message), hp, by rw [← hs]; rfl,
      .settled hst rfl (by simp) (by simp) hsettles⟩
  | null =>
    simp only [step, hp, hst, Option.some.injEq] at hs
    refine ⟨.handling latest log rest .returned, hp, by rw [← hs]; rfl, ?_⟩
    have hsettles : settlement cfg s (.receipt p .null) = some (log, .unconfirmed deposit tx) := by
      simp [settlement, hp, hst]
    rw [after_settled l (by simp) hsettles]
    exact .unconfirmed hst (.inl rfl)
  | receipt =>
    simp only [step, hp, hst] at hs
    cases hstatus : (s.txs[tx]?).map PullTx.status with
    | none =>
      rw [hstatus] at hs
      cases hs
    | some status =>
      rw [hstatus] at hs
      cases status with
      | pending => cases hs
      | mined =>
        simp only [Option.some.injEq] at hs
        obtain ⟨t, htx, hm⟩ := Option.map_eq_some_iff.mp hstatus
        obtain ⟨next, hnext, hpolls⟩ :=
          completePull_polls cfg s p poll latest log rest deposit owner desired tx
        refine ⟨_, hp, by rw [← hs]; exact hpolls, ?_⟩
        have hsettles : settlement cfg s (.receipt p .receipt) = some (log, .pulled deposit tx) := by
          simp [settlement, hp, hst, htx, hm]
        rw [after_settled l (by simp) hsettles]
        exact .pulled hst htx hm hnext
      | reverted =>
        simp only [Option.some.injEq] at hs
        refine ⟨.handling latest log rest .returned, hp, by rw [← hs]; rfl, ?_⟩
        have hsettles : settlement cfg s (.receipt p .receipt) = some (log, .unconfirmed deposit tx) := by
          simp [settlement, hp, hst, hstatus]
        rw [after_settled l (by simp) hsettles]
        exact .unconfirmed hst (.inr ⟨rfl, hstatus⟩)

theorem acts_of_callback {result : PullResult} {rejection : Option String} (hp : s.polls.get? p = some poll)
    (hst : poll.stage = .handling latest log rest (.callback result))
    (hs : step cfg s (.callback p rejection) = some s') :
    ∃ stage, s.polls.get? p = some poll ∧ s'.polls = s.polls.set p { poll with stage := stage } ∧
      Acts cfg s poll l (.callback p rejection) stage (l.after cfg s (.callback p rejection)) := by
  simp only [step, hp, hst, Option.some.injEq] at hs
  cases rejection with
  | none => exact ⟨.handling latest log rest .returned, hp, by rw [← hs]; rfl, .calledBack hst⟩
  | some message =>
    refine ⟨.handling latest log rest (.threw message), hp, by rw [← hs]; rfl, ?_⟩
    have hl : l.after cfg s (.callback p (some message)) = { l with threw := some log } := by
      simp [Trace.after, hp, hst]
    rw [hl]
    exact .callbackThrew hst

end Answers

/-- A poll starts, or it moves on from a stage. -/
theorem acts_of_step {cfg : Config} {s s' : State} {a : Action} {p : ℕ} (l : Trace)
    (hs : step cfg s a = some s') (hact : a.poll? = some p) :
    (∃ interval contractAddress, a = .tick interval p ∧
      s.intervals.get? interval = some contractAddress ∧ s.polls.get? p = none ∧
        s' = startPoll s interval p contractAddress) ∨
    ∃ poll stage, s.polls.get? p = some poll ∧ s'.polls = s.polls.set p { poll with stage := stage } ∧
      Acts cfg s poll l a stage (l.after cfg s a) := by
  have ht := transition_of_step hs
  cases ht with
  | addDeposit => cases hact
  | seedRejected => cases hact
  | seeded => cases hact
  | approve => cases hact
  | mine => cases hact
  | revert => cases hact
  | tick hi hp =>
    cases hact
    exact .inl ⟨_, _, rfl, hi, hp, rfl⟩
  | @blockNumber p poll answer stage hp hst hstage =>
    cases hact
    refine .inr ⟨poll, stage, hp, rfl, .early (.inl hst) ?_⟩
    rcases hstage with h | h | ⟨latest, -, -, h⟩
    · exact .inl h
    · exact .inr (.inl h)
    · exact .inr (.inr ⟨latest, h⟩)
  | @logsRejected p latest poll message hp hst =>
    cases hact
    exact .inr ⟨poll, _, hp, rfl, .early (.inr ⟨latest, hst⟩) (.inr (.inl ⟨message, rfl⟩))⟩
  | @noLogs p latest poll hp hst =>
    cases hact
    refine .inr ⟨poll, .resolved, hp, rfl, ?_⟩
    have hl : l.after cfg s (.logs p (.ok [])) = { Trace.empty with batch := [] } := by
      simp [Trace.after, hp, Trace.walk, nextLog]
    rw [hl]
    exact .fetched hst (by simp) (.finished rfl)
  | @batch p latest poll logs hp hst hne hrange =>
    cases hact
    obtain ⟨stage, hpolls, hw⟩ := handleLogs_walks
      { s with inFlight := insert poll.key s.inFlight } p poll latest logs
      { Trace.empty with batch := logs }
    refine .inr ⟨poll, stage, hp, hpolls, ?_⟩
    have hl : l.after cfg s (.logs p (.ok logs)) =
        Trace.walk s poll.contractAddress { Trace.empty with batch := logs } logs := by
      simp [Trace.after, hp]
    rw [hl]
    exact .fetched hst hrange (hw.congr rfl)
  | @next p latest poll log rest hp hst =>
    cases hact
    obtain ⟨stage, hpolls, hw⟩ := handleLogs_walks s p poll latest rest l
    refine .inr ⟨poll, stage, hp, hpolls, ?_⟩
    have hl : l.after cfg s (.resume p) = l.walk s poll.contractAddress rest := by
      simp [Trace.after, hp, hst]
    rw [hl]
    exact .resumed hst hw
  | @throws p latest poll log rest message hp hst =>
    cases hact
    refine .inr ⟨poll, _, hp, rfl, ?_⟩
    have hl : l.after cfg s (.resume p) = l := by simp [Trace.after, hp, hst]
    rw [hl]
    exact .left hst
  | @allowanceRejected p latest poll log rest deposit owner message value hp hst =>
    cases hact
    have hsettles : settlement cfg s (.allowance p (some message)) = some (log, .failed deposit message) := by
      simp [settlement, hp, hst]
    exact .inr ⟨poll, _, hp, rfl, .settled hst rfl (by simp) (by simp) hsettles⟩
  | @allowance p latest poll log rest deposit owner value hp hst =>
    cases hact
    exact .inr ⟨poll, _, hp, rfl, acts_of_allowance l hp hst⟩
  | @gasRejected p latest poll log rest deposit owner message desired hp hst =>
    cases hact
    have hsettles : settlement cfg s (.gas p (some message)) = some (log, .failed deposit message) := by
      simp [settlement, hp, hst]
    exact .inr ⟨poll, _, hp, rfl, .settled hst rfl (by simp) (by simp) hsettles⟩
  | @gas p latest poll log rest deposit owner desired hp hst =>
    cases hact
    exact .inr ⟨poll, _, hp, rfl, .proceeds hst .funded⟩
  | @broadcast p latest poll log rest deposit owner desired hp hst hrange =>
    cases hact
    exact .inr ⟨poll, _, hp, rfl, .proceeds hst .sent⟩
  | @transferRejected p latest poll log rest deposit owner message desired sent hp hst =>
    cases hact
    have hsettles : settlement cfg s (.transferFrom p (some message)) =
        some (log, .failed deposit message) := by
      simp [settlement, hp, hst]
    exact .inr ⟨poll, _, hp, rfl, .settled hst rfl (by simp) (by simp) hsettles⟩
  | @transferSent p latest tx poll log rest deposit owner desired hp hst =>
    cases hact
    exact .inr ⟨poll, _, hp, rfl, .proceeds hst .waits⟩
  | unconfirmed hp hst =>
    cases hact
    exact .inr ⟨_, acts_of_receipt l hp hst hs⟩
  | completes hp hst =>
    cases hact
    exact .inr ⟨_, acts_of_receipt l hp hst hs⟩
  | callback hp hst =>
    cases hact
    exact .inr ⟨_, acts_of_callback l hp hst hs⟩

/-! ### What a poll's step does to the maps -/

/-- A poll's step leaves deposits, timers and cursors alone, or ends its batch and writes the
cursor, or drops the deposit it has pulled. -/
inductive Touches (s : State) (poll : Poll) (stage : PollStage) (s' : State) : Prop where
  | nothing (hd : s'.deposits = s.deposits) (ht : s'.timers = s.timers)
    (hl : s'.lastSeen = s.lastSeen)
  | writes {latest : ℕ} (hst : poll.stage = .logs latest ∨
      ∃ log rest, poll.stage = .handling latest log rest .returned)
    (hstage : stage = .resolved) (hd : s'.deposits = s.deposits) (ht : s'.timers = s.timers)
    (hl : s'.lastSeen = s.lastSeen.set poll.key latest)
  | drops {latest tx : ℕ} {log : Log} {rest : List Log} {deposit : PullDeposit} {owner : String}
    {desired : ℤ} (hst : poll.stage = .handling latest log rest (.wait deposit owner desired tx))
    (hstage : ∃ next, (next = .returned ∨ ∃ result, next = .callback result) ∧
      stage = .handling latest log rest next)
    (hd : s'.deposits = (dropDeposit s deposit poll.contractAddress).deposits)
    (ht : s'.timers = (dropDeposit s deposit poll.contractAddress).timers)
    (hl : s'.lastSeen = (dropDeposit s deposit poll.contractAddress).lastSeen)

theorem handleLogs_touches (s : State) (p : ℕ) {latest : ℕ} {poll : Poll} (logs : List Log)
    (hst : poll.stage = .logs latest ∨ ∃ log rest, poll.stage = .handling latest log rest .returned) :
    ∃ stage, (handleLogs s p poll latest logs).polls.get? p = some { poll with stage := stage } ∧
      Touches s poll stage (handleLogs s p poll latest logs) := by
  cases hn : nextLog logs with
  | none =>
    rw [handleLogs_finished s p poll latest hn]
    exact ⟨.resolved, JsMap.get?_set_self _ _ _, .writes hst rfl rfl rfl rfl⟩
  | some found =>
    obtain ⟨log, rest⟩ := found
    rw [handleLogs_next s p poll latest hn]
    cases hp : log.parsed with
    | unknown => exact absurd hp (nextLog_some hn).1
    | malformed message =>
      rw [handleLogs, hp]
      exact ⟨_, JsMap.get?_set_self _ _ _, .nothing rfl rfl rfl⟩
    | approval owner value =>
      rw [handleLogs, hp]
      exact ⟨_, JsMap.get?_set_self _ _ _, .nothing rfl rfl rfl⟩

theorem touches_of_step {cfg : Config} {s s' : State} {a : Action} {p : ℕ} {poll poll' : Poll}
    (hs : step cfg s a = some s') (hact : a.poll? = some p) (hp : s.polls.get? p = some poll)
    (hp' : s'.polls.get? p = some poll') : Touches s poll poll'.stage s' := by
  cases transition_of_step hs with
  | addDeposit => cases hact
  | seedRejected => cases hact
  | seeded => cases hact
  | approve => cases hact
  | mine => cases hact
  | revert => cases hact
  | tick hi hnone =>
    cases hact
    rw [hnone] at hp
    cases hp
  | blockNumber => exact .nothing rfl rfl rfl
  | logsRejected => exact .nothing rfl rfl rfl
  | noLogs h hst =>
    cases hact
    rw [h] at hp
    cases hp
    rw [State.setPoll, JsMap.get?_set_self] at hp'
    cases hp'
    exact .writes (.inl hst) rfl rfl rfl rfl
  | @batch _ latest poll₀ logs h hst =>
    cases hact
    rw [h] at hp
    cases hp
    obtain ⟨stage, hstage, htouches⟩ := handleLogs_touches
      { s with inFlight := insert poll.key s.inFlight } p logs (.inl hst)
    rw [hp'] at hstage
    cases hstage
    cases htouches with
    | nothing hd ht hl => exact .nothing hd ht hl
    | writes hst hstage hd ht hl => exact .writes hst hstage hd ht hl
    | drops hst' =>
      rw [hst] at hst'
      cases hst'
  | @next _ latest poll₀ log rest h hst =>
    cases hact
    rw [h] at hp
    cases hp
    obtain ⟨stage, hstage, htouches⟩ := handleLogs_touches s p rest
      (.inr ⟨log, rest, hst⟩)
    rw [hp'] at hstage
    cases hstage
    exact htouches
  | throws => exact .nothing rfl rfl rfl
  | allowanceRejected => exact .nothing rfl rfl rfl
  | allowance => exact .nothing rfl rfl rfl
  | gasRejected => exact .nothing rfl rfl rfl
  | gas => exact .nothing rfl rfl rfl
  | broadcast => exact .nothing rfl rfl rfl
  | transferRejected => exact .nothing rfl rfl rfl
  | transferSent => exact .nothing rfl rfl rfl
  | unconfirmed => exact .nothing rfl rfl rfl
  | @completes _ latest i poll₀ log rest deposit owner desired tx h hst =>
    cases hact
    rw [h] at hp
    cases hp
    obtain ⟨reports, next, hnext, he⟩ :=
      completePull_eq cfg s p poll latest log rest deposit owner desired i
    rw [he, State.handle, State.setPoll, JsMap.get?_set_self] at hp'
    cases hp'
    rw [he]
    refine .drops hst ⟨next, ?_, rfl⟩ rfl rfl rfl
    rcases hnext with rfl | ⟨amount, rfl⟩
    · exact .inl rfl
    · exact .inr ⟨_, rfl⟩
  | callback => exact .nothing rfl rfl rfl

/-! ### What a step does to the transactions -/

/-- A step sends a transaction, or it settles a pending one, or it leaves them alone. -/
theorem txs_of_step {cfg : Config} {s s' : State} {a : Action} (hs : step cfg s a = some s') :
    (∃ p tx, a = .broadcast p ∧ s'.txs = s.txs ++ [tx]) ∨
    (∃ i tx status, s.txs[i]? = some tx ∧ tx.status = .pending ∧
      s'.txs = s.txs.set i { tx with status := status }) ∨
    s'.txs = s.txs := by
  have hkept : history s' = history s → s'.txs = s.txs := fun h => (Prod.mk.inj h).1
  cases transition_of_step hs with
  | addDeposit => exact .inr (.inr (hkept (history_addDeposit _ _ _)))
  | tick => exact .inr (.inr (hkept (history_startPoll _ _ _ _)))
  | @batch p latest poll logs =>
    exact .inr (.inr (hkept (history_handleLogs { s with inFlight := insert poll.key s.inFlight } p poll
      latest logs)))
  | next => exact .inr (.inr (hkept (history_handleLogs _ _ _ _ _)))
  | completes => exact .inr (.inr (hkept (history_completePull _ _ _ _ _ _ _ _ _ _ _)))
  | @broadcast p => exact .inl ⟨p, _, rfl, rfl⟩
  | mine htx hp => exact .inr (.inl ⟨_, _, .mined, htx, hp, rfl⟩)
  | revert htx hp => exact .inr (.inl ⟨_, _, .reverted, htx, hp, rfl⟩)
  | seedRejected => exact .inr (.inr rfl)
  | seeded => exact .inr (.inr rfl)
  | blockNumber => exact .inr (.inr rfl)
  | logsRejected => exact .inr (.inr rfl)
  | noLogs => exact .inr (.inr rfl)
  | throws => exact .inr (.inr rfl)
  | allowanceRejected => exact .inr (.inr rfl)
  | allowance => exact .inr (.inr rfl)
  | gasRejected => exact .inr (.inr rfl)
  | gas => exact .inr (.inr rfl)
  | transferRejected => exact .inr (.inr rfl)
  | transferSent => exact .inr (.inr rfl)
  | unconfirmed => exact .inr (.inr rfl)
  | callback => exact .inr (.inr rfl)
  | approve => exact .inr (.inr rfl)

theorem amounts_of_step {cfg : Config} {s s' : State} {a : Action} (hs : step cfg s a = some s') :
    (∃ p, a = .broadcast p) ∨ s'.txs.map PullTx.amount = s.txs.map PullTx.amount := by
  rcases txs_of_step hs with ⟨p, tx, ha, -⟩ | ⟨i, tx, status, htx, -, htxs⟩ | htxs
  · exact .inl ⟨p, ha⟩
  · obtain ⟨hlt, rfl⟩ := List.getElem?_eq_some_iff.mp htx
    have hlt' : i < (s.txs.map PullTx.amount).length := by simpa using hlt
    have hself := List.set_getElem_self hlt'
    rw [List.getElem_map] at hself
    rw [htxs, List.map_set]
    exact .inr hself
  · rw [htxs]
    exact .inr rfl

/-- A mined transaction stays as it is. -/
theorem mined_stays {cfg : Config} {s s' : State} {a : Action} (hs : step cfg s a = some s') {i : ℕ}
    {tx : PullTx} (htx : s.txs[i]? = some tx) (hm : tx.status = .mined) : s'.txs[i]? = some tx := by
  rcases txs_of_step hs with ⟨p, tx', -, htxs⟩ | ⟨k, tx', status, htx', hp, htxs⟩ | htxs
  · have hlt : i < s.txs.length := (List.getElem?_eq_some_iff.mp htx).1
    rw [htxs, List.getElem?_append_left hlt, htx]
  · have hne : k ≠ i := by
      rintro rfl
      rw [htx] at htx'
      cases htx'
      rw [hm] at hp
      cases hp
    rw [htxs, List.getElem?_set_ne hne, htx]
  · rw [htxs, htx]

/-! ### Runs of the audited watcher -/

theorem startPoll_polls (s : State) (interval p : ℕ) (contractAddress : String) :
    (startPoll s interval p contractAddress).polls = s.polls ∨
      ∃ poll, poll.stage = .blockNumber ∧ poll.contractAddress = contractAddress ∧
        (startPoll s interval p contractAddress).polls = s.polls.set p poll := by
  unfold startPoll
  dsimp only
  split_ifs
  · exact .inl rfl
  · exact .inr ⟨_, rfl, rfl, rfl⟩
  · exact .inl rfl

/-- A step moves at most the acting poll. -/
theorem polls_of_step {cfg : Config} {s s' : State} {a : Action} (hs : step cfg s a = some s') {q : ℕ}
    (hq : a.poll? ≠ some q) : s'.polls.get? q = s.polls.get? q := by
  cases hact : a.poll? with
  | none =>
    cases transition_of_step hs with
    | addDeposit =>
      unfold addDeposit
      split_ifs
      · rfl
      · dsimp only
        split_ifs <;> rfl
    | seedRejected => rfl
    | seeded => rfl
    | approve => rfl
    | mine => rfl
    | revert => rfl
    | tick => cases hact
    | blockNumber => cases hact
    | logsRejected => cases hact
    | noLogs => cases hact
    | batch => cases hact
    | next => cases hact
    | throws => cases hact
    | allowanceRejected => cases hact
    | allowance => cases hact
    | gasRejected => cases hact
    | gas => cases hact
    | broadcast => cases hact
    | transferRejected => cases hact
    | transferSent => cases hact
    | unconfirmed => cases hact
    | completes => cases hact
    | callback => cases hact
  | some p =>
    have hne : q ≠ p := by
      rintro rfl
      exact hq hact
    rcases acts_of_step .empty hs hact with ⟨interval, contractAddress, -, -, -, rfl⟩ |
      ⟨poll, stage, -, hpolls, -⟩
    · rcases startPoll_polls s interval p contractAddress with h | ⟨poll, -, -, h⟩
      · rw [h]
      · rw [h, JsMap.get?_set_of_ne _ _ hne]
    · rw [hpolls, JsMap.get?_set_of_ne _ _ hne]

theorem state_of_audit {cfg : Config} {g g' : Audited} {a : Action} (h : audit cfg g a = some g') :
    step cfg g.state a = some g'.state := by
  obtain ⟨s', hs, rfl⟩ := Option.map_eq_some_iff.mp h
  exact hs

theorem traces_of_audit {cfg : Config} {g g' : Audited} {a : Action} (h : audit cfg g a = some g')
    (q : ℕ) : g'.traces q =
      if a.poll? = some q then (g.traces q).after cfg g.state a else g.traces q := by
  obtain ⟨s', hs, rfl⟩ := Option.map_eq_some_iff.mp h
  dsimp only
  cases hact : a.poll? with
  | none => simp
  | some p =>
    by_cases hqp : q = p
    · simp [hqp]
    · simp [hqp, Ne.symm hqp]

theorem owed_of_audit {cfg : Config} {g g' : Audited} {a : Action} (h : audit cfg g a = some g') :
    g'.owed = owedAfter cfg g.state a g.owed := by
  obtain ⟨s', hs, rfl⟩ := Option.map_eq_some_iff.mp h
  rfl

/-- Where a poll stands after a step: it has just started, it did not act, or it moved on. -/
theorem poll_of_audit {cfg : Config} {g g' : Audited} {a : Action} (h : audit cfg g a = some g')
    {q : ℕ} {poll' : Poll} (hq : g'.state.polls.get? q = some poll') :
    (poll'.stage = .blockNumber ∧ g'.traces q = .empty) ∨
    (a.poll? ≠ some q ∧ g.state.polls.get? q = some poll' ∧ g'.traces q = g.traces q) ∨
    ∃ poll stage, a.poll? = some q ∧ g.state.polls.get? q = some poll ∧
      poll' = { poll with stage := stage } ∧
        Acts cfg g.state poll (g.traces q) a stage (g'.traces q) := by
  have hs := state_of_audit h
  have hl := traces_of_audit h q
  by_cases hact : a.poll? = some q
  · rw [if_pos hact] at hl
    rcases acts_of_step (g.traces q) hs hact with ⟨interval, contractAddress, rfl, -, hnone, hstart⟩ |
      ⟨poll, stage, hp, hpolls, hacts⟩
    · rw [hstart] at hq
      rcases startPoll_polls g.state interval q contractAddress with hpolls | ⟨poll, hst, -, hpolls⟩
      · rw [hpolls, hnone] at hq
        cases hq
      · rw [hpolls, JsMap.get?_set_self] at hq
        cases hq
        exact .inl ⟨hst, hl⟩
    · rw [hpolls, JsMap.get?_set_self] at hq
      cases hq
      rw [← hl] at hacts
      exact .inr (.inr ⟨poll, stage, hact, hp, rfl, hacts⟩)
  · rw [if_neg hact] at hl
    rw [polls_of_step hs hact] at hq
    exact .inr (.inl ⟨hact, hq, hl⟩)

/-- What holds of a poll when it starts, and what all steps keep of it, holds of every poll of a
run; a poll's own steps are seen as `Acts`, and what other steps keep is kept by them too. -/
theorem poll_state_invariant {cfg : Config} {ok : Audited → Action → Prop}
    {P : State → Poll → Trace → Prop} (hstart : ∀ s poll, poll.stage = .blockNumber → P s poll .empty)
    (hkeep : ∀ g a g' poll t, ok g a → audit cfg g a = some g' → P g.state poll t → P g'.state poll t)
    (hacts : ∀ g a p poll stage t', ReachUnder (audit cfg) ok .init g → ok g a → a.poll? = some p →
      g.state.polls.get? p = some poll → P g.state poll (g.traces p) →
        Acts cfg g.state poll (g.traces p) a stage t' → P g.state { poll with stage := stage } t')
    {g : Audited} (h : ReachUnder (audit cfg) ok .init g) {p : ℕ} {poll : Poll}
    (hp : g.state.polls.get? p = some poll) : P g.state poll (g.traces p) := by
  revert p poll
  apply h.invariant_from
    (P := fun g => ∀ {p poll}, g.state.polls.get? p = some poll → P g.state poll (g.traces p))
    (fun g hg => hg)
  · intro p poll hp
    cases hp
  · intro g a g' hg hall hok hs q poll' hq
    rcases poll_of_audit hs hq with ⟨hst, ht⟩ | ⟨-, hq₀, ht⟩ | ⟨poll, stage, hact, hq₀, rfl, hmove⟩
    · rw [ht]
      exact hstart g'.state poll' hst
    · rw [ht]
      exact hkeep g a g' _ _ hok hs (hall hq₀)
    · exact hkeep g a g' _ _ hok hs (hacts g a q poll stage _ hg hok hact hq₀ (hall hq₀) hmove)

/-- The same of a property that does not read the state. -/
theorem poll_invariant {cfg : Config} {ok : Audited → Action → Prop} {P : Poll → Trace → Prop}
    (hstart : ∀ poll, poll.stage = .blockNumber → P poll .empty)
    (hacts : ∀ g a p poll stage t', ReachUnder (audit cfg) ok .init g → ok g a → a.poll? = some p →
      g.state.polls.get? p = some poll → P poll (g.traces p) →
        Acts cfg g.state poll (g.traces p) a stage t' → P { poll with stage := stage } t')
    {g : Audited} (h : ReachUnder (audit cfg) ok .init g) {p : ℕ} {poll : Poll}
    (hp : g.state.polls.get? p = some poll) : P poll (g.traces p) :=
  poll_state_invariant (P := fun _ poll t => P poll t) (fun _ => hstart) (fun _ _ _ _ _ _ _ h => h)
    hacts h hp

/-- An audited run is a run of the watcher. -/
theorem reach_of_audit {cfg : Config} {ok : Audited → Action → Prop} {ok' : State → Action → Prop}
    (hok : ∀ g a, ok g a → ok' g.state a) {g : Audited} (h : ReachUnder (audit cfg) ok .init g) :
    ReachUnder (step cfg) ok' init g.state := by
  have hsim : ∀ g a g', True → ok g a → audit cfg g a = some g' → g'.state = g.state ∨
      ∃ b, ok' g.state b ∧ step cfg g.state b = some g'.state :=
    fun g a g' _ ha hs => .inr ⟨a, hok g a ha, state_of_audit hs⟩
  exact h.simulate Audited.state (fun _ _ => trivial) hsim

end FinP2PAdapter.Deposits.ApprovalWatcher
