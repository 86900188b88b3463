import FinP2PAdapter.Deposits.ApprovalWatcher

/-! Which approvals a deposit can be pulled for. As long as only a poll of the
contract's current timer matches approvals, and only one whose starting point
still stands moves the cursor, no approval older than the block read at a
deposit's creation pulls it, a batch is matched to deposits open at its poll's
start, and the cursor of a contract with an open deposit never goes back. -/

namespace FinP2PAdapter.Deposits.ApprovalWatcher

open Machine

/-! ### The side condition -/

/-- The poll an action lets go on with its batch, and the logs ahead of it. -/
def goesOnWith (s : State) : Action → Option (Poll × List Log)
  | .logs p (.ok logs) =>
    (s.polls.get? p).bind fun poll => match poll.stage with
      | .logs _ => some (poll, logs)
      | _ => none
  | .resume p =>
    (s.polls.get? p).bind fun poll => match poll.stage with
      | .handling _ _ rest .returned => some (poll, rest)
      | _ => none
  | _ => none

/-- A poll about to match an approval was started by the contract's timer; one
about to write the cursor finds it where it read it. -/
def UpToDate (s : State) (poll : Poll) (logs : List Log) : Prop :=
  match nextParsed logs with
  | some (.approval _ _) => s.timers.get? poll.key = some poll.interval
  | some _ => True
  | none => ∀ cursor ∈ s.lastSeen.get? poll.key, cursor + 1 = poll.fromBlock

instance (s : State) (poll : Poll) (logs : List Log) : Decidable (UpToDate s poll logs) := by
  unfold UpToDate
  split <;> infer_instance

/-- The deposit whose polling an action seeds, and the block number it is seeded with. -/
def seeds (s : State) : Action → Option (PullDeposit × ℕ)
  | .seedBlock id (.ok currentBlock) =>
    (s.calls.get? id).bind fun call => match call with
      | .seeding deposit => some (deposit, currentBlock)
      | _ => none
  | _ => none

/-- While a contract has an open deposit, only up-to-date polls of it go on with
their batches; and a cursor left over from an earlier deposit is not past the
one that a new deposit's seeding writes. -/
def PollsUpToDate (s : State) (a : Action) : Prop :=
  (∀ ahead ∈ goesOnWith s a, hasOpenDepositFor s ahead.1.contractAddress → UpToDate s ahead.1 ahead.2) ∧
    ∀ seed ∈ seeds s a, ∀ cursor ∈ s.lastSeen.get? seed.1.key, cursor ≤ seed.2 - 1

instance (s : State) (a : Action) : Decidable (PollsUpToDate s a) := by
  unfold PollsUpToDate
  infer_instance

/-! ### What a poll knows -/

/-- The maps and the history that a poll's knowledge is about. -/
structure Book where
  deposits : JsMap String PullDeposit
  timers : JsMap String ℕ
  nextInterval : ℕ
  added : List String
  reads : String → Option ℕ

abbrev State.book (s : State) : Book := ⟨s.deposits, s.timers, s.nextInterval, s.added, s.reads⟩

/-- A deposit in a poll's hand was open when the poll started, and the approval
it was matched to is not older than the block its creation read. -/
structure InHand (b : Book) (poll : Poll) (log : Log) (deposit : PullDeposit) : Prop where
  openAtStart : deposit ∈ poll.openAtStart
  key : deposit.key = poll.key
  added : deposit.correlationId ∈ b.added
  unchanged : ∀ d ∈ b.deposits.values, d.correlationId = deposit.correlationId → d = deposit
  read : ∃ n, b.reads deposit.correlationId = some n ∧ n ≤ log.blockNumber

/-- A batch starts at the poll's first block. -/
def StageOk (b : Book) (poll : Poll) : PollStage → Prop
  | .logs latest => poll.fromBlock ≤ latest
  | .handling latest log rest handling =>
    poll.fromBlock ≤ latest ∧ (∀ l ∈ log :: rest, poll.fromBlock ≤ l.blockNumber) ∧
      ∀ deposit ∈ handling.deposit?, InHand b poll log deposit
  | _ => True

/-- As long as the timer that started a poll is the contract's, the contract's open
deposit is one the poll started for, and the poll reads from its creation on. -/
structure PollOk (b : Book) (poll : Poll) : Prop where
  interval_lt : poll.interval < b.nextInterval
  current : b.timers.get? poll.key = some poll.interval → ∀ d ∈ b.deposits.values, d.key = poll.key →
    d ∈ poll.openAtStart ∧ ∀ n, b.reads d.correlationId = some n → n ≤ poll.fromBlock
  stage : StageOk b poll poll.stage

/-- What happens to the maps while a poll is at an await: deposits go or come under
new ids, timers go or come under new intervals, and a block once read stands. -/
structure Aged (b b' : Book) : Prop where
  added : ∀ cid ∈ b.added, cid ∈ b'.added
  deposits : ∀ d ∈ b'.deposits.values, d ∈ b.deposits.values ∨ d.correlationId ∉ b.added
  reads : ∀ cid n, b.reads cid = some n → b'.reads cid = some n
  nextInterval : b.nextInterval ≤ b'.nextInterval
  timers : ∀ key i, i < b.nextInterval → b'.timers.get? key = some i →
    b.timers.get? key = some i ∧ ∀ d ∈ b'.deposits.values, d.key = key →
      d ∈ b.deposits.values ∧ b'.reads d.correlationId = b.reads d.correlationId

section Knowledge

variable {b b' : Book} {poll : Poll}

theorem InHand.aged {log : Log} {deposit : PullDeposit} (hb : Aged b b')
    (h : InHand b poll log deposit) : InHand b' poll log deposit where
  openAtStart := h.openAtStart
  key := h.key
  added := hb.added _ h.added
  unchanged := by
    intro d hd hcid
    rcases hb.deposits d hd with hold | hnew
    · exact h.unchanged d hold hcid
    · exact absurd (hcid ▸ h.added) hnew
  read := by
    obtain ⟨n, hn, hle⟩ := h.read
    exact ⟨n, hb.reads _ n hn, hle⟩

theorem PollOk.aged (hb : Aged b b') (h : PollOk b poll) : PollOk b' poll where
  interval_lt := by
    have := h.interval_lt
    have := hb.nextInterval
    omega
  current := by
    intro ht d hd hk
    obtain ⟨ht₀, hold⟩ := hb.timers _ _ h.interval_lt ht
    obtain ⟨hd₀, hreads⟩ := hold d hd hk
    rw [hreads]
    exact h.current ht₀ d hd₀ hk
  stage := by
    have hs := h.stage
    unfold StageOk at hs ⊢
    split at hs
    · exact hs
    · obtain ⟨hl, hlogs, hdep⟩ := hs
      exact ⟨hl, hlogs, fun deposit hd => (hdep deposit hd).aged hb⟩
    · trivial

theorem PollOk.move {stage : PollStage} (h : PollOk b poll) (hs : StageOk b poll stage) :
    PollOk b { poll with stage := stage } where
  interval_lt := h.interval_lt
  current := h.current
  stage := by
    unfold StageOk at hs ⊢
    split at hs
    · exact hs
    · obtain ⟨hl, hlogs, hdep⟩ := hs
      refine ⟨hl, hlogs, fun deposit hd => ?_⟩
      have hin := hdep deposit hd
      exact ⟨hin.openAtStart, hin.key, hin.added, hin.unchanged, hin.read⟩
    · trivial

/-- Inside `handleApproval` a poll moves with the deposit it has in hand or without. -/
theorem StageOk.handling {latest : ℕ} {log : Log} {rest : List Log} {handling next : Handling}
    (h : StageOk b poll (.handling latest log rest handling))
    (hd : ∀ deposit ∈ next.deposit?, deposit ∈ handling.deposit?) :
    StageOk b poll (.handling latest log rest next) :=
  ⟨h.1, h.2.1, fun deposit hm => h.2.2 deposit (hd deposit hm)⟩

end Knowledge

/-! ### The invariant -/

/-- One open deposit a contract; a contract being seeded has no timer yet; one
with a timer has an open deposit, and its cursor starts the next poll no earlier
than the block read at that deposit's creation. -/
structure Inv (s : State) : Prop where
  keyed : ∀ cid d, s.deposits.get? cid = some d → d.correlationId = cid ∧ cid ∈ s.added
  one_open : ∀ d ∈ s.deposits.values, ∀ e ∈ s.deposits.values, d.key = e.key → d = e
  seeding : ∀ id d, s.calls.get? id = some (.seeding d) →
    d ∈ s.deposits.values ∧ s.timers.get? d.key = none ∧ s.reads d.correlationId = none
  seeding_unique : ∀ id id' d, s.calls.get? id = some (.seeding d) →
    s.calls.get? id' = some (.seeding d) → id = id'
  read_added : ∀ cid n, s.reads cid = some n → cid ∈ s.added
  timer : ∀ key i, s.timers.get? key = some i → i < s.nextInterval ∧
    ∃ d ∈ s.deposits.values, d.key = key ∧
    ∃ n cursor, s.reads d.correlationId = some n ∧ s.lastSeen.get? key = some cursor ∧ n ≤ cursor + 1
  interval_lt : ∀ i contractAddress, s.intervals.get? i = some contractAddress → i < s.nextInterval
  poll : ∀ p poll, s.polls.get? p = some poll → PollOk s.book poll

theorem inv_init : Inv init where
  keyed := by
    intro cid d h
    cases h
  one_open := by
    intro d h
    cases h
  seeding := by
    intro id d h
    cases h
  seeding_unique := by
    intro id id' d h
    cases h
  read_added := by
    intro cid n h
    cases h
  timer := by
    intro key i h
    cases h
  interval_lt := by
    intro i contractAddress h
    cases h
  poll := by
    intro p poll h
    cases h

section Steps

variable {s : State}

theorem Inv.values_added (h : Inv s) {d : PullDeposit} (hd : d ∈ s.deposits.values) :
    d.correlationId ∈ s.added ∧ s.deposits.get? d.correlationId = some d := by
  obtain ⟨cid, hcid⟩ := (JsMap.mem_values _ _).mp hd
  obtain ⟨rfl, hadded⟩ := h.keyed cid d hcid
  exact ⟨hadded, hcid⟩

theorem Inv.eq_of_correlationId (h : Inv s) {d e : PullDeposit} (hd : d ∈ s.deposits.values)
    (he : e ∈ s.deposits.values) (hcid : d.correlationId = e.correlationId) : d = e := by
  have hd' := (h.values_added hd).2
  rw [hcid, (h.values_added he).2] at hd'
  cases hd'
  rfl

/-- A poll moves. -/
theorem Inv.setPoll (h : Inv s) (p : ℕ) {poll : Poll} (hp : PollOk s.book poll) :
    Inv (s.setPoll p poll) where
  keyed := h.keyed
  one_open := h.one_open
  seeding := h.seeding
  seeding_unique := h.seeding_unique
  read_added := h.read_added
  timer := h.timer
  interval_lt := h.interval_lt
  poll := by
    intro q other hq
    rw [State.setPoll, JsMap.get?_set] at hq
    split_ifs at hq with he
    · cases hq
      exact hp
    · exact h.poll q other hq

theorem Inv.handle (h : Inv s) (p : ℕ) {poll : Poll} {latest : ℕ} {log : Log} {rest : List Log}
    {handling : Handling} (hp : PollOk s.book poll)
    (hs : StageOk s.book poll (.handling latest log rest handling)) :
    Inv (s.handle p poll latest log rest handling) :=
  h.setPoll p (hp.move hs)

theorem Inv.inFlight (h : Inv s) (inFlight : Finset String) : Inv { s with inFlight := inFlight } :=
  ⟨h.keyed, h.one_open, h.seeding, h.seeding_unique, h.read_added, h.timer, h.interval_lt, h.poll⟩

theorem Inv.reports (h : Inv s) (reports : List PullResult) : Inv { s with reports := reports } :=
  ⟨h.keyed, h.one_open, h.seeding, h.seeding_unique, h.read_added, h.timer, h.interval_lt, h.poll⟩

theorem Inv.leaveBatch (h : Inv s) (p : ℕ) {poll : Poll} {stage : PollStage} (hp : PollOk s.book poll)
    (hs : StageOk s.book poll stage) : Inv (leaveBatch s p poll stage) :=
  (h.inFlight _).setPoll p (hp.move hs)

/-- A cursor that moves forward keeps what the timers promise. -/
theorem Inv.advance (h : Inv s) {key : String} {latest : ℕ}
    (hle : ∀ cursor ∈ s.lastSeen.get? key, (∃ d ∈ s.deposits.values, d.key = key) → cursor ≤ latest) :
    Inv (advance s key latest) where
  keyed := h.keyed
  one_open := h.one_open
  seeding := h.seeding
  seeding_unique := h.seeding_unique
  read_added := h.read_added
  timer := by
    intro k i hi
    obtain ⟨hlt, d, hd, hk, n, cursor, hn, hc, hnc⟩ := h.timer k i hi
    refine ⟨hlt, d, hd, hk, n, ?_⟩
    rw [ApprovalWatcher.advance, JsMap.get?_set]
    by_cases he : k = key
    · subst he
      have := hle cursor hc ⟨d, hd, hk⟩
      exact ⟨latest, hn, if_pos rfl, by omega⟩
    · exact ⟨cursor, hn, by rw [if_neg he]; exact hc, hnc⟩
  interval_lt := h.interval_lt
  poll := h.poll

/-- A call is answered. -/
theorem Inv.setCall (h : Inv s) (id : ℕ) {call : AddCall} (hc : ∀ d, call ≠ .seeding d) :
    Inv (s.setCall id call) := by
  have hold : ∀ id' d, (s.setCall id call).calls.get? id' = some (.seeding d) →
      s.calls.get? id' = some (.seeding d) := by
    intro id' d hd
    rw [State.setCall, JsMap.get?_set] at hd
    split_ifs at hd with he
    · exact absurd (Option.some.inj hd) (hc d)
    · exact hd
  exact ⟨h.keyed, h.one_open, fun id' d hd => h.seeding id' d (hold id' d hd),
    fun id₁ id₂ d h₁ h₂ => h.seeding_unique id₁ id₂ d (hold id₁ d h₁) (hold id₂ d h₂), h.read_added,
      h.timer,
    h.interval_lt, h.poll⟩

/-- Deposits go, timers go with the last deposit of their contract. -/
theorem Inv.shrink (h : Inv s) {s' : State}
    (hdeposits : ∀ cid d, s'.deposits.get? cid = some d → s.deposits.get? cid = some d)
    (hseeding : ∀ id d, s.calls.get? id = some (.seeding d) → d ∈ s'.deposits.values)
    (htimers : ∀ key i, s'.timers.get? key = some i → s.timers.get? key = some i ∧
      s'.lastSeen.get? key = s.lastSeen.get? key ∧ ∀ d ∈ s.deposits.values, d.key = key →
        d ∈ s'.deposits.values)
    (hintervals : ∀ i c, s'.intervals.get? i = some c → s.intervals.get? i = some c)
    (hcalls : s'.calls = s.calls) (hadded : s'.added = s.added) (hreads : s'.reads = s.reads)
    (hnext : s'.nextInterval = s.nextInterval) (hpolls : s'.polls = s.polls) : Inv s' := by
  have hvalues : ∀ d ∈ s'.deposits.values, d ∈ s.deposits.values := by
    intro d hd
    obtain ⟨cid, hcid⟩ := (JsMap.mem_values _ _).mp hd
    exact (JsMap.mem_values _ _).mpr ⟨cid, hdeposits cid d hcid⟩
  have haged : Aged s.book s'.book := by
    refine ⟨fun cid hcid => ?_, fun d hd => .inl (hvalues d hd), fun cid n hn => ?_, ?_,
      fun key i _ hi => ?_⟩
    · show cid ∈ s'.added
      rw [hadded]
      exact hcid
    · show s'.reads cid = some n
      rw [hreads]
      exact hn
    · show s.nextInterval ≤ s'.nextInterval
      rw [hnext]
    · exact ⟨(htimers key i hi).1, fun d hd _ => ⟨hvalues d hd, congrFun hreads _⟩⟩
  constructor
  · intro cid d hd
    rw [hadded]
    exact h.keyed cid d (hdeposits cid d hd)
  · exact fun d hd e he => h.one_open d (hvalues d hd) e (hvalues e he)
  · intro id d hd
    rw [hcalls] at hd
    obtain ⟨-, htimer, hread⟩ := h.seeding id d hd
    refine ⟨hseeding id d hd, ?_, by rw [hreads]; exact hread⟩
    by_contra hne
    obtain ⟨i, hi⟩ := Option.ne_none_iff_exists'.mp hne
    rw [(htimers d.key i hi).1] at htimer
    cases htimer
  · rw [hcalls]
    exact h.seeding_unique
  · rw [hreads, hadded]
    exact h.read_added
  · intro key i hi
    obtain ⟨hi₀, hlast, hopen⟩ := htimers key i hi
    obtain ⟨hlt, d, hd, hk, n, cursor, hn, hc, hnc⟩ := h.timer key i hi₀
    exact ⟨by rw [hnext]; exact hlt, d, hopen d hd hk, hk, n, cursor, by rw [hreads]; exact hn,
      by rw [hlast]; exact hc, hnc⟩
  · intro i c hi
    rw [hnext]
    exact h.interval_lt i c (hintervals i c hi)
  · rw [hpolls]
    exact fun p poll hp => (h.poll p poll hp).aged haged

theorem stopPolling_timers {s : State} {contractAddress key : String} {i : ℕ}
    (h : (stopPolling s contractAddress).timers.get? key = some i) :
    key ≠ contractAddress.toLower ∧ s.timers.get? key = some i ∧
      (stopPolling s contractAddress).lastSeen.get? key = s.lastSeen.get? key := by
  simp only [stopPolling, JsMap.get?_delete] at h ⊢
  split_ifs at h with hk
  exact ⟨hk, h, if_neg hk⟩

theorem stopPolling_intervals {s : State} {contractAddress c : String} {i : ℕ}
    (h : (stopPolling s contractAddress).intervals.get? i = some c) : s.intervals.get? i = some c := by
  simp only [stopPolling] at h
  split at h
  · exact h
  · rw [JsMap.get?_delete] at h
    split_ifs at h
    exact h

/-- Polling stops for a contract without an open deposit. -/
theorem Inv.stopPolling (h : Inv s) (contractAddress : String) :
    Inv (stopPolling s contractAddress) :=
  h.shrink (fun _ _ hd => hd) (fun id d hd => (h.seeding id d hd).1)
    (fun _ _ hi => ⟨(stopPolling_timers hi).2.1, (stopPolling_timers hi).2.2, fun _ hd _ => hd⟩)
    (fun _ _ hi => stopPolling_intervals hi) rfl rfl rfl rfl rfl

/-- A deposit in a poll's hand is dropped. -/
theorem Inv.dropDeposit (h : Inv s) {poll : Poll} {log : Log} {deposit : PullDeposit}
    (hin : InHand s.book poll log deposit) : Inv (dropDeposit s deposit poll.contractAddress) := by
  obtain ⟨n, hn⟩ : ∃ n, s.reads deposit.correlationId = some n := hin.read.imp fun _ hn => hn.1
  have hget : ∀ cid d, (s.deposits.delete deposit.correlationId).get? cid = some d →
      s.deposits.get? cid = some d := by
    intro cid d hd
    rw [JsMap.get?_delete] at hd
    split_ifs at hd
    exact hd
  have hmem : ∀ d ∈ s.deposits.values, d ≠ deposit →
      d ∈ (s.deposits.delete deposit.correlationId).values := by
    intro d hd hne
    refine (JsMap.mem_values _ _).mpr ⟨d.correlationId, ?_⟩
    rw [JsMap.get?_delete_of_ne _ fun he => hne (hin.unchanged d hd he)]
    exact (h.values_added hd).2
  have hseeding : ∀ id d, s.calls.get? id = some (.seeding d) →
      d ∈ (s.deposits.delete deposit.correlationId).values := by
    intro id d hd
    obtain ⟨hopen, -, hread⟩ := h.seeding id d hd
    refine hmem d hopen fun he => ?_
    rw [he, hn] at hread
    cases hread
  unfold ApprovalWatcher.dropDeposit
  dsimp only
  split_ifs with hopen
  · -- another deposit of the contract is open, so this one was not
    obtain ⟨e, he, hek⟩ := (hasOpenDepositFor_iff _ _).mp hopen
    obtain ⟨cid, hcid⟩ := (JsMap.mem_values _ _).mp he
    have he₀ : e ∈ s.deposits.values := (JsMap.mem_values _ _).mpr ⟨cid, hget cid e hcid⟩
    have hnot : ∀ d ∈ s.deposits.values, d ≠ deposit := by
      rintro d hd rfl
      have hde : d = e := h.one_open d hd e he₀ (hin.key.trans hek.symm)
      subst hde
      rw [(h.keyed cid d (hget cid d hcid)).1, JsMap.get?_delete_self] at hcid
      cases hcid
    exact h.shrink hget hseeding (fun _ _ hi => ⟨hi, rfl, fun d hd _ => hmem d hd (hnot d hd)⟩)
      (fun _ _ hi => hi) rfl rfl rfl rfl rfl
  · refine h.shrink hget hseeding (fun key i hi => ?_)
      (fun _ _ hi => stopPolling_intervals hi) rfl rfl rfl rfl rfl
    obtain ⟨hne, hi₀, hlast⟩ := stopPolling_timers hi
    refine ⟨hi₀, hlast, fun d hd hk => hmem d hd ?_⟩
    rintro rfl
    exact hne (hk.symm.trans hin.key)

theorem Inv.startPoll (h : Inv s) {interval : ℕ} (p : ℕ) {contractAddress : String}
    (hi : s.intervals.get? interval = some contractAddress) :
    Inv (startPoll s interval p contractAddress) := by
  unfold ApprovalWatcher.startPoll
  dsimp only
  split_ifs with hf ho
  · exact h
  · refine h.setPoll p ⟨h.interval_lt _ _ hi, ?_, trivial⟩
    intro ht d hd hk
    obtain ⟨-, e, he, hek, n, cursor, hn, hc, hnc⟩ := h.timer _ _ ht
    have hde : d = e := h.one_open d hd e he (hk.trans hek.symm)
    subst hde
    refine ⟨hd, fun m hm => ?_⟩
    rw [show s.reads d.correlationId = some m from hm] at hn
    cases hn
    show n ≤ (s.lastSeen.get? contractAddress.toLower).getD 0 + 1
    rw [show s.lastSeen.get? contractAddress.toLower = some cursor from hc]
    exact hnc
  · exact h.stopPolling contractAddress

theorem mem_values_set {m : JsMap String PullDeposit} {cid : String} {deposit d : PullDeposit}
    (h : d ∈ (m.set cid deposit).values) : d = deposit ∨ d ∈ m.values := by
  obtain ⟨k, hk⟩ := (JsMap.mem_values _ _).mp h
  rw [JsMap.get?_set] at hk
  split_ifs at hk
  · cases hk
    exact .inl rfl
  · exact .inr ((JsMap.mem_values _ _).mpr ⟨k, hk⟩)

theorem Inv.addDeposit (h : Inv s) {id : ℕ} {deposit : PullDeposit}
    (hfresh : deposit.correlationId ∉ s.added) : Inv (addDeposit s id deposit) := by
  unfold ApprovalWatcher.addDeposit
  split_ifs with ho
  · exact h.setCall id (by simp)
  have hnone : ∀ d ∈ s.deposits.values, d.key ≠ deposit.key :=
    fun d hd hk => ho ((hasOpenDepositFor_iff _ _).mpr ⟨d, hd, hk⟩)
  have hnotimer : s.timers.get? deposit.key = none := by
    by_contra hne
    obtain ⟨i, hi⟩ := Option.ne_none_iff_exists'.mp hne
    obtain ⟨-, d, hd, hk, -⟩ := h.timer _ i hi
    exact hnone d hd hk
  have hmem : ∀ d ∈ s.deposits.values, d ∈ (s.deposits.set deposit.correlationId deposit).values := by
    intro d hd
    obtain ⟨hadded, hget⟩ := h.values_added hd
    refine (JsMap.mem_values _ _).mpr ⟨d.correlationId, ?_⟩
    rw [JsMap.get?_set_of_ne _ _ fun he => hfresh (by rw [← he]; exact hadded)]
    exact hget
  have hself : deposit ∈ (s.deposits.set deposit.correlationId deposit).values :=
    (JsMap.mem_values _ _).mpr ⟨_, JsMap.get?_set_self _ _ _⟩
  have hnoseed : ∀ id d, s.calls.get? id = some (.seeding d) → d ≠ deposit := by
    rintro id d hd rfl
    exact hfresh (h.values_added (h.seeding id d hd).1).1
  have hcalls : ∀ id' d, (s.calls.set id (.seeding deposit)).get? id' = some (.seeding d) →
      (id' = id ∧ d = deposit) ∨ s.calls.get? id' = some (.seeding d) := by
    intro id' d hd
    rw [JsMap.get?_set] at hd
    split_ifs at hd with he
    · cases hd
      exact .inl ⟨he, rfl⟩
    · exact .inr hd
  dsimp only
  rw [if_neg (by simp [JsMap.has, hnotimer])]
  constructor
  · intro cid d hd
    simp only [State.setCall, JsMap.get?_set] at hd ⊢
    split_ifs at hd with he
    · cases hd
      exact ⟨he.symm, he ▸ List.mem_cons_self⟩
    · exact ⟨(h.keyed cid d hd).1, List.mem_cons_of_mem _ (h.keyed cid d hd).2⟩
  · intro d hd e he hk
    rcases mem_values_set hd with rfl | hd₀ <;> rcases mem_values_set he with rfl | he₀
    · rfl
    · exact absurd hk.symm (hnone e he₀)
    · exact absurd hk (hnone d hd₀)
    · exact h.one_open d hd₀ e he₀ hk
  · intro id' d hd
    rcases hcalls id' d hd with ⟨-, rfl⟩ | hd₀
    · refine ⟨hself, hnotimer, ?_⟩
      by_contra hne
      obtain ⟨n, hn⟩ := Option.ne_none_iff_exists'.mp hne
      exact hfresh (h.read_added _ n hn)
    · obtain ⟨hopen, htimer, hread⟩ := h.seeding id' d hd₀
      exact ⟨hmem d hopen, htimer, hread⟩
  · intro id₁ id₂ d h₁ h₂
    rcases hcalls id₁ d h₁ with ⟨rfl, rfl⟩ | h₁' <;> rcases hcalls id₂ d h₂ with ⟨rfl, he⟩ | h₂'
    · rfl
    · exact absurd rfl (hnoseed id₂ d h₂')
    · exact absurd he (hnoseed id₁ d h₁')
    · exact h.seeding_unique id₁ id₂ d h₁' h₂'
  · exact fun cid n hn => List.mem_cons_of_mem _ (h.read_added cid n hn)
  · intro key i hi
    obtain ⟨hlt, d, hd, hk, hrest⟩ := h.timer key i hi
    exact ⟨hlt, d, hmem d hd, hk, hrest⟩
  · exact h.interval_lt
  · have haged : Aged s.book ⟨s.deposits.set deposit.correlationId deposit, s.timers, s.nextInterval,
        deposit.correlationId :: s.added, s.reads⟩ := by
      refine ⟨fun cid hc => List.mem_cons_of_mem _ hc, fun d hd => ?_, fun _ _ hn => hn, le_refl _,
        fun key i _ hi => ⟨hi, fun d hd hk => ⟨?_, rfl⟩⟩⟩
      · rcases mem_values_set hd with rfl | hd₀
        · exact .inr hfresh
        · exact .inl hd₀
      · rcases mem_values_set hd with rfl | hd₀
        · -- the contract has a timer, so another deposit of it is open
          obtain ⟨-, e, he, hek, -⟩ := h.timer key i hi
          exact absurd (hek.trans hk.symm) (hnone e he)
        · exact hd₀
    exact fun p poll hp => (h.poll p poll hp).aged haged

theorem Inv.seedPolling (h : Inv s) {id currentBlock : ℕ} {deposit : PullDeposit}
    (hc : s.calls.get? id = some (.seeding deposit)) : Inv (seedPolling s id deposit currentBlock) := by
  obtain ⟨hopen, hnotimer, hunread⟩ := h.seeding id deposit hc
  have hcalls : ∀ id' d, (s.calls.set id (.resolved deposit)).get? id' = some (.seeding d) →
      id' ≠ id ∧ s.calls.get? id' = some (.seeding d) := by
    intro id' d hd
    rw [JsMap.get?_set] at hd
    split_ifs at hd with he
    · cases hd
    · exact ⟨he, hd⟩
  have hothers : ∀ d ∈ s.deposits.values, d.key ≠ deposit.key →
      d.correlationId ≠ deposit.correlationId := by
    intro d hd hk hcid
    exact hk (congrArg PullDeposit.key (h.eq_of_correlationId hd hopen hcid))
  constructor
  · exact h.keyed
  · exact h.one_open
  · intro id' d hd
    obtain ⟨hne, hd₀⟩ := hcalls id' d hd
    obtain ⟨hdopen, hdtimer, hdread⟩ := h.seeding id' d hd₀
    have hkey : d.key ≠ deposit.key := by
      intro hk
      have hde : d = deposit := h.one_open d hdopen deposit hopen hk
      exact hne (h.seeding_unique id' id deposit (hde ▸ hd₀) hc)
    refine ⟨hdopen, ?_, ?_⟩
    · show (s.timers.set deposit.key s.nextInterval).get? d.key = none
      rw [JsMap.get?_set_of_ne _ _ hkey]
      exact hdtimer
    · show Function.update s.reads deposit.correlationId (some currentBlock) d.correlationId = none
      rw [Function.update_of_ne (hothers d hdopen hkey)]
      exact hdread
  · intro id₁ id₂ d h₁ h₂
    exact h.seeding_unique id₁ id₂ d (hcalls id₁ d h₁).2 (hcalls id₂ d h₂).2
  · intro cid n hn
    by_cases he : cid = deposit.correlationId
    · exact he ▸ (h.values_added hopen).1
    · apply h.read_added cid n
      rw [← hn]
      exact (Function.update_of_ne he _ _).symm
  · intro key i hi
    simp only [ApprovalWatcher.seedPolling, State.setCall, JsMap.get?_set] at hi ⊢
    by_cases hk : key = deposit.key
    · rw [if_pos hk] at hi ⊢
      cases hi
      exact ⟨by omega, deposit, hopen, hk.symm, currentBlock, currentBlock - 1,
        Function.update_self _ _ _, rfl, by omega⟩
    · rw [if_neg hk] at hi ⊢
      obtain ⟨hlt, d, hd, hdk, n, cursor, hn, hcur, hnc⟩ := h.timer key i hi
      refine ⟨by omega, d, hd, hdk, n, cursor, ?_, hcur, hnc⟩
      rw [Function.update_of_ne (hothers d hd (hdk ▸ hk))]
      exact hn
  · intro i c hi
    show i < s.nextInterval + 1
    simp only [ApprovalWatcher.seedPolling, State.setCall, JsMap.get?_set] at hi
    split_ifs at hi with he
    · omega
    · have := h.interval_lt i c hi
      omega
  · have haged : Aged s.book (ApprovalWatcher.seedPolling s id deposit currentBlock).book := by
      refine ⟨fun _ hcid => hcid, fun _ hd => .inl hd, fun cid n hn => ?_, Nat.le_succ _,
        fun key i hlt hi => ?_⟩
      · by_cases he : cid = deposit.correlationId
        · have hn' : s.reads deposit.correlationId = some n := he ▸ hn
          rw [hunread] at hn'
          cases hn'
        · exact (Function.update_of_ne he _ _).trans hn
      · simp only [ApprovalWatcher.seedPolling, State.setCall, JsMap.get?_set] at hi
        split_ifs at hi with hk
        · cases hi
          exact absurd hlt (lt_irrefl _)
        · refine ⟨hi, fun d hd hdk => ⟨hd, ?_⟩⟩
          exact Function.update_of_ne (hothers d hd (hdk ▸ hk)) _ _
    exact fun p poll hp => (h.poll p poll hp).aged haged

/-! ### Batches -/

/-- What the side condition says of a poll that goes on with its batch. -/
def MayGoOn (s : State) (poll : Poll) (logs : List Log) : Prop :=
  hasOpenDepositFor s poll.contractAddress → UpToDate s poll logs

/-- A poll that may write the cursor moves it forward. -/
theorem cursor_le_latest {poll : Poll} {logs : List Log} {latest : ℕ} (hok : MayGoOn s poll logs)
    (hnext : nextParsed logs = none) (hle : poll.fromBlock ≤ latest) :
    ∀ cursor ∈ s.lastSeen.get? poll.key, (∃ d ∈ s.deposits.values, d.key = poll.key) →
      cursor ≤ latest := by
  intro cursor hc hopen
  have hup := hok ((hasOpenDepositFor_iff _ _).mpr hopen)
  simp only [UpToDate, hnext] at hup
  have := hup cursor hc
  omega

/-- A poll that may match an approval matches it to a deposit it started for. -/
theorem Inv.inHand (h : Inv s) {poll : Poll} (hp : PollOk s.book poll) {logs : List Log} {log : Log}
    {deposit : PullDeposit} {owner : String} {value : ℕ} (hok : MayGoOn s poll logs)
    (hnext : nextParsed logs = some (.approval owner value))
    (hm : findMatchingDeposit s poll.contractAddress = some deposit)
    (hlog : poll.fromBlock ≤ log.blockNumber) : InHand s.book poll log deposit := by
  obtain ⟨hopen, hkey⟩ := findMatchingDeposit_mem hm
  have hup := hok ((hasOpenDepositFor_iff _ _).mpr ⟨deposit, hopen, hkey⟩)
  simp only [UpToDate, hnext] at hup
  obtain ⟨hstart, hfrom⟩ := hp.current hup deposit hopen hkey
  refine ⟨hstart, hkey, (h.values_added hopen).1,
    fun d hd hcid => h.eq_of_correlationId hd hopen hcid, ?_⟩
  obtain ⟨-, e, he, hek, n, -, hn, -⟩ := h.timer _ _ hup
  have hde : deposit = e := h.one_open deposit hopen e he (hkey.trans hek.symm)
  subst hde
  exact ⟨n, hn, (hfrom n hn).trans hlog⟩

theorem Inv.handleLogs (h : Inv s) (p : ℕ) {poll : Poll} (hp : PollOk s.book poll) {logs : List Log}
    {latest : ℕ} (hok : MayGoOn s poll logs) (hle : poll.fromBlock ≤ latest)
    (hlogs : ∀ l ∈ logs, poll.fromBlock ≤ l.blockNumber) : Inv (handleLogs s p poll latest logs) := by
  rcases handleLogs_cases s p poll latest logs with ⟨hnext, he⟩ | ⟨message, he⟩ |
    ⟨log, hlog, rest, hrest, he⟩ |
    ⟨log, hlog, rest, deposit, owner, value, hrest, hnext, hm, he⟩ <;> rw [he]
  · exact (h.advance (cursor_le_latest hok hnext hle)).leaveBatch p hp trivial
  · exact h.leaveBatch p hp trivial
  · refine h.handle p hp ⟨hle, ?_, no_deposit rfl⟩
    exact List.forall_mem_cons.mpr ⟨hlogs log hlog, fun l hl => hlogs l (hrest l hl)⟩
  · refine h.handle p hp ⟨hle, ?_, ?_⟩
    · exact List.forall_mem_cons.mpr ⟨hlogs log hlog, fun l hl => hlogs l (hrest l hl)⟩
    · rintro d ⟨⟩
      exact h.inHand hp hok hnext hm (hlogs log hlog)

theorem mayGoOn_batch {p latest : ℕ} {poll : Poll} {logs : List Log}
    (hok : PollsUpToDate s (.logs p (.ok logs)))
    (hp : s.polls.get? p = some poll) (hst : poll.stage = .logs latest) : MayGoOn s poll logs := by
  refine fun ho => hok.1 (poll, logs) ?_ ho
  simp [goesOnWith, hp, hst]

theorem mayGoOn_next {p latest : ℕ} {poll : Poll} {log : Log} {rest : List Log}
    (hok : PollsUpToDate s (.resume p)) (hp : s.polls.get? p = some poll)
    (hst : poll.stage = .handling latest log rest .returned) : MayGoOn s poll rest := by
  refine fun ho => hok.1 (poll, rest) ?_ ho
  simp [goesOnWith, hp, hst]

theorem PollOk.at {b : Book} {poll : Poll} {stage : PollStage} (h : PollOk b poll)
    (hst : poll.stage = stage) : StageOk b poll stage :=
  hst ▸ h.stage

/-- An up-to-date step keeps the invariant. -/
theorem Inv.step {cfg : Config} {s' : State} {a : Action} (h : Inv s) (hok : PollsUpToDate s a)
    (hs : step cfg s a = some s') : Inv s' := by
  -- inside `handleApproval`, with the deposit in hand or without
  have hmoves : ∀ {p latest : ℕ} {poll : Poll} {log : Log} {rest : List Log} {handling next : Handling},
      s.polls.get? p = some poll → poll.stage = .handling latest log rest handling →
      (∀ deposit ∈ next.deposit?, deposit ∈ handling.deposit?) →
        Inv (s.handle p poll latest log rest next) :=
    fun hp hst hd => h.handle _ (h.poll _ _ hp) (((h.poll _ _ hp).at hst).handling hd)
  cases transition_of_step hs with
  | addDeposit hid hfresh => exact h.addDeposit hfresh
  | seedRejected => exact h.setCall _ (by simp)
  | seeded hc => exact h.seedPolling hc
  | tick hi => exact h.startPoll _ hi
  | blockNumber hp hst hstage =>
    refine h.setPoll _ ((h.poll _ _ hp).move ?_)
    rcases hstage with rfl | ⟨message, rfl⟩ | ⟨latest, -, hle, rfl⟩
    · trivial
    · trivial
    · exact hle
  | logsRejected hp => exact h.setPoll _ ((h.poll _ _ hp).move trivial)
  | noLogs hp hst =>
    have hle := cursor_le_latest (mayGoOn_batch hok hp hst) rfl ((h.poll _ _ hp).at hst)
    exact (h.advance hle).setPoll _ ((h.poll _ _ hp).move trivial)
  | batch hp hst hne hrange =>
    exact (h.inFlight (insert _ s.inFlight)).handleLogs _ (h.poll _ _ hp) (mayGoOn_batch hok hp hst)
      ((h.poll _ _ hp).at hst)
      fun l hl => (hrange l hl).1
  | next hp hst =>
    have hstage := (h.poll _ _ hp).at hst
    exact h.handleLogs _ (h.poll _ _ hp) (mayGoOn_next hok hp hst) hstage.1
      fun l hl => hstage.2.1 l (List.mem_cons_of_mem _ hl)
  | throws hp => exact h.leaveBatch _ (h.poll _ _ hp) trivial
  | allowanceRejected hp hst => exact hmoves hp hst (no_deposit rfl)
  | allowance hp hst =>
    refine hmoves hp hst fun d hd => ?_
    rw [afterAllowance_deposit hd]
    rfl
  | gasRejected hp hst => exact hmoves hp hst (no_deposit rfl)
  | gas hp hst => exact hmoves hp hst fun _ hd => hd
  | @broadcast p latest poll log rest deposit owner desired hp hst hrange =>
    have hsent : Inv (s.send ⟨deposit, owner, desired, log.blockNumber, .pending⟩) :=
      ⟨h.keyed, h.one_open, h.seeding, h.seeding_unique, h.read_added, h.timer, h.interval_lt, h.poll⟩
    exact hsent.handle p (h.poll _ _ hp) (((h.poll _ _ hp).at hst).handling fun _ hd => hd)
  | transferRejected hp hst => exact hmoves hp hst (no_deposit rfl)
  | transferSent hp hst => exact hmoves hp hst fun _ hd => hd
  | unconfirmed hp hst hh =>
    refine hmoves hp hst ?_
    rcases hh with rfl | ⟨message, rfl⟩ <;> exact no_deposit rfl
  | @completes p latest i poll log rest deposit owner desired tx hp hst htx hm =>
    have hdrop := h.dropDeposit (((h.poll _ _ hp).at hst).2.2 deposit rfl)
    have hpoll : PollOk (ApprovalWatcher.dropDeposit s deposit poll.contractAddress).book poll :=
      hdrop.poll p poll (by rw [dropDeposit_polls]; exact hp)
    obtain ⟨reports, next, hnext, he⟩ :=
      completePull_eq cfg s p poll latest log rest deposit owner desired i
    rw [he]
    refine (hdrop.reports reports).handle p hpoll ((hpoll.at hst).handling ?_)
    rcases hnext with rfl | ⟨amount, rfl⟩
    · exact no_deposit rfl
    · exact fun _ hd => hd
  | callback hp hst hh =>
    refine hmoves hp hst ?_
    rcases hh with rfl | ⟨message, rfl⟩ <;> exact no_deposit rfl
  | approve =>
    exact ⟨h.keyed, h.one_open, h.seeding, h.seeding_unique, h.read_added, h.timer, h.interval_lt,
      h.poll⟩
  | mine =>
    exact ⟨h.keyed, h.one_open, h.seeding, h.seeding_unique, h.read_added, h.timer, h.interval_lt,
      h.poll⟩
  | revert =>
    exact ⟨h.keyed, h.one_open, h.seeding, h.seeding_unique, h.read_added, h.timer, h.interval_lt,
      h.poll⟩

end Steps

/-! ### Pulls -/

/-- Every `transferFrom` sent is of a deposit whose creation read a block, for an
approval not older than it. -/
def PullsLater (s : State) : Prop :=
  ∀ tx ∈ s.txs, ∃ n, s.reads tx.deposit.correlationId = some n ∧ n ≤ tx.approvalBlock

/-- The transactions sent and the blocks read at creations. -/
def history (s : State) : List PullTx × (String → Option ℕ) := (s.txs, s.reads)

theorem history_addDeposit (s : State) (id : ℕ) (deposit : PullDeposit) :
    history (addDeposit s id deposit) = history s := by
  unfold addDeposit
  split_ifs
  · rfl
  · dsimp only
    split_ifs <;> rfl

theorem history_startPoll (s : State) (interval p : ℕ) (contractAddress : String) :
    history (startPoll s interval p contractAddress) = history s := by
  unfold startPoll
  dsimp only
  split_ifs <;> rfl

theorem history_handleLogs (s : State) (p : ℕ) (poll : Poll) (latest : ℕ) (logs : List Log) :
    history (handleLogs s p poll latest logs) = history s := by
  rcases handleLogs_cases s p poll latest logs with ⟨-, h⟩ | ⟨message, h⟩ | ⟨log, -, rest, -, h⟩ |
    ⟨log, -, rest, deposit, owner, value, -, -, -, h⟩ <;> rw [h] <;> rfl

theorem history_completePull (cfg : Config) (s : State) (p : ℕ) (poll : Poll) (latest : ℕ) (log : Log)
    (rest : List Log) (deposit : PullDeposit) (owner : String) (desired : ℤ) (tx : ℕ) :
    history (completePull cfg s p poll latest log rest deposit owner desired tx) = history s := by
  unfold completePull dropDeposit
  dsimp only
  split_ifs <;> rfl

theorem PullsLater.of_history {s s' : State} (h : PullsLater s) (he : history s' = history s) :
    PullsLater s' := by
  obtain ⟨htxs, hreads⟩ := Prod.mk.inj he
  intro tx htx
  rw [hreads]
  exact h tx (by rw [← htxs]; exact htx)

theorem PullsLater.settle {s : State} (h : PullsLater s) {i : ℕ} {tx : PullTx}
    (htx : s.txs[i]? = some tx) (status : Submissions.Status) (allowances : String → String → ℕ) :
    PullsLater
      { s with txs := s.txs.set i { tx with status := status }, allowances := allowances } := by
  intro t ht
  rcases List.mem_or_eq_of_mem_set ht with hold | rfl
  · exact h t hold
  · exact h tx (List.mem_of_getElem? htx)

theorem PullsLater.step {cfg : Config} {s s' : State} {a : Action} (hinv : Inv s) (h : PullsLater s)
    (hs : step cfg s a = some s') : PullsLater s' := by
  cases transition_of_step hs with
  | addDeposit => exact h.of_history (history_addDeposit _ _ _)
  | seedRejected => exact h
  | seeded hc =>
    intro tx htx
    obtain ⟨n, hn, hle⟩ := h tx htx
    refine ⟨n, ?_, hle⟩
    have hunread := (hinv.seeding _ _ hc).2.2
    refine (Function.update_of_ne ?_ _ _).trans hn
    rintro he
    rw [he, hunread] at hn
    cases hn
  | tick => exact h.of_history (history_startPoll _ _ _ _)
  | blockNumber => exact h
  | logsRejected => exact h
  | noLogs => exact h
  | @batch p latest poll logs hp hst hne hrange =>
    exact h.of_history (history_handleLogs
      { s with inFlight := insert poll.key s.inFlight } p poll latest logs)
  | next => exact h.of_history (history_handleLogs _ _ _ _ _)
  | throws => exact h
  | allowanceRejected => exact h
  | allowance => exact h
  | gasRejected => exact h
  | gas => exact h
  | broadcast hp hst =>
    intro tx htx
    rcases List.mem_append.mp htx with hold | hnew
    · exact h tx hold
    · rw [List.mem_singleton.mp hnew]
      exact (((hinv.poll _ _ hp).at hst).2.2 _ rfl).read
  | transferRejected => exact h
  | transferSent => exact h
  | unconfirmed => exact h
  | completes => exact h.of_history (history_completePull _ _ _ _ _ _ _ _ _ _ _)
  | callback => exact h
  | approve => exact h
  | mine htx => exact h.settle htx _ _
  | revert htx => exact h.settle htx _ _

/-! ### Cursors -/

/-- No cursor of a contract with an open deposit goes back or is lost. -/
def CursorsKept (s s' : State) : Prop :=
  ∀ contractAddress, hasOpenDepositFor s' contractAddress →
    ∀ cursor ∈ s.lastSeen.get? contractAddress.toLower,
      ∃ cursor' ∈ s'.lastSeen.get? contractAddress.toLower, cursor ≤ cursor'

theorem CursorsKept.of_eq {s s' : State} (h : s'.lastSeen = s.lastSeen) : CursorsKept s s' := by
  intro contractAddress _ cursor hc
  exact ⟨cursor, by rw [h]; exact hc, le_refl _⟩

theorem CursorsKept.set {s s' : State} {key : String} {value : ℕ}
    (hl : s'.lastSeen = s.lastSeen.set key value)
    (hle : ∀ cursor ∈ s.lastSeen.get? key, (∃ d ∈ s'.deposits.values, d.key = key) → cursor ≤ value) :
    CursorsKept s s' := by
  intro contractAddress ho cursor hc
  rw [hl, JsMap.get?_set]
  split_ifs with hk
  · subst hk
    exact ⟨value, rfl, hle cursor hc ((hasOpenDepositFor_iff _ _).mp ho)⟩
  · exact ⟨cursor, hc, le_refl _⟩

/-- Polling stops only for a contract without an open deposit. -/
theorem cursorsKept_stopPolling {s s₀ : State} {contractAddress : String}
    (hl : s₀.lastSeen = s.lastSeen) (hno : ¬ hasOpenDepositFor s₀ contractAddress) :
    CursorsKept s (stopPolling s₀ contractAddress) := by
  intro other ho cursor hc
  refine ⟨cursor, ?_, le_refl _⟩
  have hne : other.toLower ≠ contractAddress.toLower := by
    intro he
    apply hno
    rw [hasOpenDepositFor_iff, ← he, ← hasOpenDepositFor_iff]
    exact ho
  show (s₀.lastSeen.delete contractAddress.toLower).get? other.toLower = some cursor
  rw [JsMap.get?_delete_of_ne _ hne, hl]
  exact hc

theorem cursorsKept_handleLogs {s : State} (p : ℕ) {poll : Poll} {latest : ℕ} {logs : List Log}
    (hok : MayGoOn s poll logs) (hle : poll.fromBlock ≤ latest) :
    CursorsKept s (handleLogs s p poll latest logs) := by
  rcases handleLogs_cases s p poll latest logs with ⟨hnext, h⟩ | ⟨message, h⟩ | ⟨log, -, rest, -, h⟩ |
    ⟨log, -, rest, deposit, owner, value, -, -, -, h⟩ <;> rw [h]
  · exact .set rfl (cursor_le_latest hok hnext hle)
  · exact .of_eq rfl
  · exact .of_eq rfl
  · exact .of_eq rfl

theorem cursorsKept_step {cfg : Config} {s s' : State} {a : Action} (hinv : Inv s)
    (hok : PollsUpToDate s a) (hs : step cfg s a = some s') : CursorsKept s s' := by
  cases transition_of_step hs with
  | addDeposit =>
    apply CursorsKept.of_eq
    unfold addDeposit
    split_ifs
    · rfl
    · dsimp only
      split_ifs <;> rfl
  | seedRejected => exact .of_eq rfl
  | @seeded id currentBlock deposit hc =>
    refine .set rfl fun cursor hcur _ => hok.2 (deposit, currentBlock) ?_ cursor hcur
    simp [seeds, hc]
  | @tick interval p contractAddress =>
    unfold startPoll
    dsimp only
    split_ifs with hf ho
    · exact .of_eq rfl
    · exact .of_eq rfl
    · exact cursorsKept_stopPolling rfl ho
  | blockNumber => exact .of_eq rfl
  | logsRejected => exact .of_eq rfl
  | noLogs hp hst =>
    exact .set rfl (cursor_le_latest (mayGoOn_batch hok hp hst) rfl ((hinv.poll _ _ hp).at hst))
  | @batch p latest poll logs hp hst =>
    exact cursorsKept_handleLogs (s := { s with inFlight := insert poll.key s.inFlight }) p
      (mayGoOn_batch hok hp hst) ((hinv.poll _ _ hp).at hst)
  | next hp hst =>
    exact cursorsKept_handleLogs _ (mayGoOn_next hok hp hst) ((hinv.poll _ _ hp).at hst).1
  | throws => exact .of_eq rfl
  | allowanceRejected => exact .of_eq rfl
  | allowance => exact .of_eq rfl
  | gasRejected => exact .of_eq rfl
  | gas => exact .of_eq rfl
  | broadcast => exact .of_eq rfl
  | transferRejected => exact .of_eq rfl
  | transferSent => exact .of_eq rfl
  | unconfirmed => exact .of_eq rfl
  | @completes p latest i poll log rest deposit owner desired tx =>
    have hdrop : CursorsKept s (dropDeposit s deposit poll.contractAddress) := by
      unfold dropDeposit
      dsimp only
      split_ifs with ho
      · exact .of_eq rfl
      · exact cursorsKept_stopPolling rfl ho
    obtain ⟨reports, next, -, he⟩ := completePull_eq cfg s p poll latest log rest deposit owner desired i
    rw [he]
    exact hdrop
  | callback => exact .of_eq rfl
  | approve => exact .of_eq rfl
  | mine => exact .of_eq rfl
  | revert => exact .of_eq rfl

/-! ### Runs -/

theorem inv_of_reach {cfg : Config} {s : State} (h : ReachUnder (step cfg) PollsUpToDate init s) :
    Inv s :=
  h.invariant inv_init fun _ _ _ hi hok hs => hi.step hok hs

/-- In every run whose polls are up to date when they go on with their batches, a
deposit is pulled only for approvals from the block its creation read on, the logs
of a batch are only matched to deposits open at its poll's start, and no step moves
the cursor of a contract with an open deposit back. -/
theorem approvals_pull_later_deposits (cfg : Config) (s : State)
    (h : ReachUnder (step cfg) PollsUpToDate init s) :
    (∀ tx ∈ s.txs, ∃ n, s.reads tx.deposit.correlationId = some n ∧ n ≤ tx.approvalBlock) ∧
    (∀ poll ∈ s.polls.values, ∀ deposit ∈ poll.stage.deposit?, deposit ∈ poll.openAtStart) ∧
    ∀ (a : Action) (s' : State), PollsUpToDate s a → step cfg s a = some s' → CursorsKept s s' := by
  have hinv := inv_of_reach h
  refine ⟨?_, ?_, fun a s' hok hs => cursorsKept_step hinv hok hs⟩
  · have hlater : PullsLater s := by
      refine h.invariant_from (fun _ => inv_of_reach) ?_ fun _ _ _ hi hp _ hs =>
        PullsLater.step hi hp hs
      rintro tx ⟨⟩
    exact hlater
  · intro poll hpoll deposit hd
    obtain ⟨p, hp⟩ := (JsMap.mem_values _ _).mp hpoll
    unfold PollStage.deposit? at hd
    split at hd
    · rename_i hst
      exact (((hinv.poll p poll hp).at hst).2.2 deposit hd).openAtStart
    · cases hd

/-- A deposit created at block 10 is pulled for an approval of block 11. -/
theorem lone_deposit_pulled_later : ∃ s, ReachUnder (step plainWatcher) PollsUpToDate init s ∧
    s.txs.length = 1 ∧ ∀ tx ∈ s.txs, ∃ n, s.reads tx.deposit.correlationId = some n ∧
      n ≤ tx.approvalBlock := by
  have he : (exec (guarded (step plainWatcher) PollsUpToDate) init
      (opening (tokenDeposit "cid-1" "alice") 5 ++ reading 0 0 11 [fiveTokensLog 11] ++ pulling 0 0 ++
        [.callback 0 none, .resume 0])).map (fun s => s.txs.length) = some 1 := by
    decide +kernel
  obtain ⟨s, hs, hlen⟩ := Option.map_eq_some_iff.mp he
  have hrun := reachUnder_of_exec hs
  exact ⟨s, hrun, hlen, (approvals_pull_later_deposits plainWatcher s hrun).1⟩

/-- Two approvals of block 11 in one batch: the first completes alice's deposit,
the second is matched to the one bob opens during the callback, whose creation
read block 20, and pulls another depositor's tokens for it. -/
theorem old_approval_pulls_new_deposit : ∃ s, Reach (step plainWatcher) init s ∧
    s.reads "cid-2" = some 20 ∧
    (s.txs.map fun tx => (tx.deposit.finId, tx.owner, tx.approvalBlock, tx.status)) =
      [("alice", "0x3333333333333333333333333333333333333333", 11, .mined),
        ("bob", "0x4444444444444444444444444444444444444444", 11, .mined)] := by
  have he : (exec (step plainWatcher) init
      (opening (tokenDeposit "cid-1" "alice") 5 ++
        [.approve (tokenDeposit "cid-1" "alice").contractAddress "0x4444444444444444444444444444444444444444" 5] ++
        reading 0 0 11 [fiveTokensLog 11,
          ⟨11, .approval "0x4444444444444444444444444444444444444444" 5⟩] ++
        pulling 0 0 ++
        [.addDeposit 1 (tokenDeposit "cid-2" "bob"), .seedBlock 1 (.ok 20), .callback 0 none,
          .resume 0] ++
        pulling 0 1)).map
      (fun s => (s.reads "cid-2", s.txs.map fun tx => (tx.deposit.finId, tx.owner, tx.approvalBlock,
        tx.status))) =
      some (some 20, [("alice", "0x3333333333333333333333333333333333333333", 11, .mined),
        ("bob", "0x4444444444444444444444444444444444444444", 11, .mined)]) := by
    decide +kernel
  obtain ⟨s, hs, heq⟩ := Option.map_eq_some_iff.mp he
  exact ⟨s, reach_of_exec hs, congrArg Prod.fst heq, congrArg Prod.snd heq⟩

end FinP2PAdapter.Deposits.ApprovalWatcher
