import FinP2PAdapter.Deposits.PullRecords

/-! Where the deposits of a pull come from. Whatever holds of every deposit added to a
watcher holds of those it has open, of the one a poll has in hand and of those it has
pulled. -/

namespace FinP2PAdapter.Deposits.ApprovalWatcher

open Machine

/-- Each deposit the watcher holds, and each it has pulled, is one of `P`. -/
structure Deposited (P : PullDeposit → Prop) (s : State) : Prop where
  opened : ∀ d ∈ s.deposits.values, P d
  inHand : ∀ p poll, s.polls.get? p = some poll → ∀ d ∈ poll.stage.deposit?, P d
  tx : ∀ tx ∈ s.txs, P tx.deposit

theorem deposited_init (P : PullDeposit → Prop) : Deposited P init where
  opened := by
    intro d hd
    cases hd
  inHand := by
    intro p poll hp
    cases hp
  tx := by
    intro tx htx
    cases htx

section Steps

variable {P : PullDeposit → Prop} {s : State}

/-- Only the open deposits, the polls and the transactions matter. -/
theorem Deposited.congr (h : Deposited P s) {s' : State} (hd : s'.deposits = s.deposits)
    (hp : s'.polls = s.polls) (ht : s'.txs = s.txs) : Deposited P s' :=
  ⟨by rw [hd]; exact h.opened, by rw [hp]; exact h.inHand, by rw [ht]; exact h.tx⟩

theorem Deposited.setPoll (h : Deposited P s) (p : ℕ) {poll : Poll}
    (hd : ∀ d ∈ poll.stage.deposit?, P d) : Deposited P (s.setPoll p poll) where
  opened := h.opened
  inHand := by
    intro q other hq
    rw [State.setPoll, JsMap.get?_set] at hq
    split_ifs at hq
    · cases hq
      exact hd
    · exact h.inHand q other hq
  tx := h.tx

theorem Deposited.add (h : Deposited P s) {deposit : PullDeposit} (hP : P deposit)
    (added : List String) : Deposited P
      { s with deposits := s.deposits.set deposit.correlationId deposit, added := added } where
  opened := by
    intro d hd
    obtain ⟨cid, hget⟩ := (JsMap.mem_values _ _).mp hd
    rw [JsMap.get?_set] at hget
    split_ifs at hget
    · cases hget
      exact hP
    · exact h.opened d ((JsMap.mem_values _ _).mpr ⟨cid, hget⟩)
  inHand := h.inHand
  tx := h.tx

theorem Deposited.dropDeposit (h : Deposited P s) (deposit : PullDeposit) (contractAddress : String) :
    Deposited P (ApprovalWatcher.dropDeposit s deposit contractAddress) := by
  have hsub : ∀ d ∈ (s.deposits.delete deposit.correlationId).values, P d :=
    fun d hd => h.opened d ((JsMap.values_delete_sublist _ _).subset hd)
  unfold ApprovalWatcher.dropDeposit
  dsimp only
  split_ifs
  · exact ⟨hsub, h.inHand, h.tx⟩
  · exact ⟨hsub, h.inHand, h.tx⟩

theorem Deposited.handleLogs (h : Deposited P s) (p : ℕ) (poll : Poll) (latest : ℕ) (logs : List Log) :
    Deposited P (ApprovalWatcher.handleLogs s p poll latest logs) := by
  rcases handleLogs_cases s p poll latest logs with ⟨-, he⟩ | ⟨message, he⟩ | ⟨log, -, rest, -, he⟩ |
    ⟨log, -, rest, deposit, owner, value, -, -, hm, he⟩ <;> rw [he]
  · apply Deposited.setPoll
    · exact h.congr rfl rfl rfl
    · exact no_deposit rfl
  · apply Deposited.setPoll
    · exact h.congr rfl rfl rfl
    · exact no_deposit rfl
  · exact h.setPoll p (no_deposit rfl)
  · apply h.setPoll p
    rintro d ⟨⟩
    exact h.opened _ (findMatchingDeposit_mem hm).1

theorem Deposited.settle (h : Deposited P s) {i : ℕ} {tx : PullTx} (htx : s.txs[i]? = some tx)
    (status : Submissions.Status) (allowances : String → String → ℕ) :
    Deposited P
      { s with txs := s.txs.set i { tx with status := status }, allowances := allowances } where
  opened := h.opened
  inHand := h.inHand
  tx := by
    intro t ht
    rcases List.mem_or_eq_of_mem_set ht with hold | rfl
    · exact h.tx t hold
    · exact h.tx tx (List.mem_of_getElem? htx)

theorem Deposited.step {cfg : Config} {s' : State} {a : Action} (h : Deposited P s)
    (hadd : ∀ id deposit, a = .addDeposit id deposit → P deposit) (hs : step cfg s a = some s') :
    Deposited P s' := by
  -- a poll goes on with the deposit it has in hand or without
  have hmoves : ∀ {p : ℕ} {poll : Poll} {stage next : PollStage}, s.polls.get? p = some poll →
      poll.stage = stage → (∀ d ∈ next.deposit?, d ∈ stage.deposit?) →
      Deposited P (s.setPoll p { poll with stage := next }) :=
    fun hp hst hd => h.setPoll _ fun d hm => h.inHand _ _ hp d (hst ▸ hd d hm)
  cases transition_of_step hs with
  | @addDeposit id deposit =>
    unfold ApprovalWatcher.addDeposit
    split_ifs
    · exact h.congr rfl rfl rfl
    · have hnew := h.add (hadd id deposit rfl) (deposit.correlationId :: s.added)
      dsimp only
      split_ifs
      · exact hnew.congr rfl rfl rfl
      · exact hnew.congr rfl rfl rfl
  | seedRejected => exact h.congr rfl rfl rfl
  | seeded => exact h.congr rfl rfl rfl
  | tick =>
    unfold startPoll
    dsimp only
    split_ifs
    · exact h
    · exact h.setPoll _ (no_deposit rfl)
    · exact h.congr rfl rfl rfl
  | blockNumber hp hst hstage =>
    refine hmoves hp hst ?_
    rcases hstage with rfl | ⟨message, rfl⟩ | ⟨latest, -, -, rfl⟩ <;> exact no_deposit rfl
  | logsRejected hp hst => exact hmoves hp hst (no_deposit rfl)
  | noLogs =>
    apply Deposited.setPoll
    · exact h.congr rfl rfl rfl
    · exact no_deposit rfl
  | batch =>
    apply Deposited.handleLogs
    exact h.congr rfl rfl rfl
  | next => exact h.handleLogs _ _ _ _
  | throws =>
    apply Deposited.setPoll
    · exact h.congr rfl rfl rfl
    · exact no_deposit rfl
  | allowanceRejected hp hst => exact hmoves hp hst (no_deposit rfl)
  | allowance hp hst =>
    refine hmoves hp hst fun d hd => ?_
    rw [afterAllowance_deposit hd]
    rfl
  | gasRejected hp hst => exact hmoves hp hst (no_deposit rfl)
  | gas hp hst => exact hmoves hp hst fun d hd => hd
  | @broadcast p latest poll log rest deposit owner desired hp hst =>
    have hP : P deposit := h.inHand p poll hp deposit (by rw [hst]; rfl)
    have hsend : Deposited P (s.send ⟨deposit, owner, desired, log.blockNumber, .pending⟩) := by
      refine ⟨h.opened, h.inHand, fun t ht => ?_⟩
      rcases List.mem_append.mp ht with hold | hnew
      · exact h.tx t hold
      · rw [List.mem_singleton.mp hnew]
        exact hP
    exact hsend.setPoll p (by rintro d ⟨⟩; exact hP)
  | transferRejected hp hst => exact hmoves hp hst (no_deposit rfl)
  | transferSent hp hst => exact hmoves hp hst fun d hd => hd
  | unconfirmed hp hst hh =>
    refine hmoves hp hst ?_
    rcases hh with rfl | ⟨message, rfl⟩ <;> exact no_deposit rfl
  | @completes p latest i poll log rest deposit owner desired tx hp hst =>
    have hP : P deposit := h.inHand p poll hp deposit (by rw [hst]; rfl)
    have hdrop := h.dropDeposit deposit poll.contractAddress
    obtain ⟨reports, next, hnext, he⟩ :=
      completePull_eq cfg s p poll latest log rest deposit owner desired i
    rw [he]
    apply Deposited.setPoll
    · exact hdrop.congr rfl rfl rfl
    · rcases hnext with rfl | ⟨amount, rfl⟩
      · exact no_deposit rfl
      · rintro d ⟨⟩
        exact hP
  | callback hp hst hh =>
    refine hmoves hp hst ?_
    rcases hh with rfl | ⟨message, rfl⟩ <;> exact no_deposit rfl
  | approve => exact h.congr rfl rfl rfl
  | mine htx => exact h.settle htx _ _
  | revert htx => exact h.settle htx _ s.allowances

end Steps

end FinP2PAdapter.Deposits.ApprovalWatcher
