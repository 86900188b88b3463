import FinP2PAdapter.Deposits.BatchOrder
import FinP2PAdapter.Deposits.PullOnce

/-! What a `transferFrom` is for. It is for the expected amount if the deposit states one and for
the approval's value otherwise, and never for more than the allowance read before it; as long as no
poll asks for nothing it is for a positive amount, and a reported deposit has moved tokens. -/

namespace FinP2PAdapter.Deposits.ApprovalWatcher

open Machine

/-! ### The side condition -/

/-- What the poll that is answered an allowance asks for. -/
def asked (cfg : Config) (s : State) : Action → Option ℤ
  | .allowance p none =>
    (s.polls.get? p).bind fun poll => match poll.stage with
      | .handling _ _ _ (.allowance deposit _ value) => (desiredAmount cfg deposit value).toOption
      | _ => none
  | _ => none

/-- No poll asks for nothing. -/
def AsksForSome (cfg : Config) (s : State) (a : Action) : Prop := ∀ desired ∈ asked cfg s a, desired ≠ 0

instance (cfg : Config) (s : State) (a : Action) : Decidable (AsksForSome cfg s a) := by
  unfold AsksForSome
  infer_instance

/-! ### What a poll is about to pull -/

/-- The amount in hand is the one asked for, and the allowance read last covers it. -/
structure Covered (cfg : Config) (log : Log) (t : Trace) (deposit : PullDeposit) (owner : String)
    (desired : ℤ) : Prop where
  asked : ∃ value, log.parsed = .approval owner value ∧ desiredAmount cfg deposit value = .ok desired
  read : ∃ currentAllowance : ℕ, t.read = some currentAllowance ∧ desired ≤ currentAllowance

def Sized (cfg : Config) (log : Log) (t : Trace) : Handling → Prop
  | .allowance _ owner value => log.parsed = .approval owner value
  | .gas deposit owner desired => Covered cfg log t deposit owner desired
  | .transferFrom deposit owner desired _ => Covered cfg log t deposit owner desired
  | .wait deposit owner desired _ => Covered cfg log t deposit owner desired
  | _ => True

def StageSized (cfg : Config) (t : Trace) : PollStage → Prop
  | .handling _ log _ handling => log ∈ t.batch ∧ Sized cfg log t handling
  | _ => True

theorem Walks.sized {cfg : Config} {s : State} {poll : Poll} {latest : ℕ} {logs : List Log}
    {t t' : Trace} {stage : PollStage} (hw : Walks s poll latest logs t stage t')
    (hb : ∀ log ∈ logs, log ∈ t.batch) : StageSized cfg t' stage := by
  have hmem : ∀ {log : Log} {rest : List Log}, nextLog logs = some (log, rest) → log ∈ t.batch := by
    intro log rest hn
    obtain ⟨-, skipped, he, -⟩ := nextLog_some hn
    apply hb
    rw [he]
    simp
  cases hw with
  | finished => trivial
  | malformed => trivial
  | unmatched hn => exact ⟨hmem hn, trivial⟩
  | matched hn hp => exact ⟨hmem hn, hp⟩

theorem rest_subset_batch {t : Trace} {latest : ℕ} {log : Log} {rest : List Log} {handling : Handling}
    (h : Standing t (.handling latest log rest handling)) : ∀ x ∈ rest, x ∈ t.batch := by
  obtain ⟨done, before, hpast, -, -⟩ := h
  intro x hx
  rw [hpast.batch]
  simp [hx]

theorem Acts.sized {cfg : Config} {s : State} {poll : Poll} {t t' : Trace} {a : Action}
    {stage : PollStage} (hstanding : Standing t poll.stage) (h : StageSized cfg t poll.stage)
    (ha : Acts cfg s poll t a stage t') : StageSized cfg t' stage := by
  cases ha with
  | early hst hstage =>
    rcases hstage with rfl | ⟨message, rfl⟩ | ⟨latest, rfl⟩ <;> trivial
  | fetched hst hrange hw => exact hw.sized fun log hlog => hlog
  | resumed hst hw =>
    rw [hst] at hstanding
    exact hw.sized (rest_subset_batch hstanding)
  | left => trivial
  | low hst =>
    rw [hst] at h
    exact ⟨h.1, trivial⟩
  | @approved _ latest value log rest deposit owner desired next hst hd hle hnext =>
    rw [hst] at h
    have hcovered : Covered cfg log { t with read := some (s.allowances poll.key owner) } deposit owner
        desired := ⟨⟨value, h.2, hd⟩, ⟨_, rfl, hle⟩⟩
    refine ⟨h.1, ?_⟩
    rcases hnext with rfl | rfl
    · exact hcovered
    · exact hcovered
  | failed _ hst =>
    rw [hst] at h
    exact ⟨h.1, trivial⟩
  | proceeds hst hnext =>
    rw [hst] at h
    refine ⟨h.1, ?_⟩
    cases hnext with
    | funded => exact h.2
    | sent => exact h.2
    | waits => exact h.2
  | unconfirmed hst =>
    rw [hst] at h
    exact ⟨h.1, trivial⟩
  | pulled hst htx hm hnext =>
    rw [hst] at h
    refine ⟨h.1, ?_⟩
    rcases hnext with rfl | ⟨result, rfl⟩
    · trivial
    · trivial
  | calledBack hst =>
    rw [hst] at h
    exact ⟨h.1, trivial⟩
  | callbackThrew hst =>
    rw [hst] at h
    exact ⟨h.1, trivial⟩

theorem stageSized_of_reach {cfg : Config} {ok : Audited → Action → Prop} {g : Audited}
    (h : ReachUnder (audit cfg) ok .init g) {p : ℕ} {poll : Poll}
    (hp : g.state.polls.get? p = some poll) : StageSized cfg (g.traces p) poll.stage := by
  apply poll_invariant (P := fun poll t => StageSized cfg t poll.stage) ?_ ?_ h hp
  · intro poll hst
    rw [hst]
    trivial
  · intro g a p poll stage t' hg _ _ hp hsized hacts
    exact hacts.sized (standing_of_reach hg hp) hsized

/-! ### No pull of nothing -/

/-- There is something to pull at each await behind the allowance. -/
def Something : PollStage → Prop
  | .handling _ _ _ (.gas _ _ desired) => desired ≠ 0
  | .handling _ _ _ (.transferFrom _ _ desired _) => desired ≠ 0
  | .handling _ _ _ (.wait _ _ desired _) => desired ≠ 0
  | _ => True

theorem Walks.something {s : State} {poll : Poll} {latest : ℕ} {logs : List Log} {t t' : Trace}
    {stage : PollStage} (hw : Walks s poll latest logs t stage t') : Something stage := by
  cases hw with
  | finished => trivial
  | malformed => trivial
  | unmatched => trivial
  | matched => trivial

theorem Acts.something {cfg : Config} {s : State} {poll : Poll} {t t' : Trace} {a : Action} {p : ℕ}
    {stage : PollStage} (hact : a.poll? = some p) (hp : s.polls.get? p = some poll)
    (hok : AsksForSome cfg s a) (h : Something poll.stage) (ha : Acts cfg s poll t a stage t') :
    Something stage := by
  cases ha with
  | early hst hstage => rcases hstage with rfl | ⟨message, rfl⟩ | ⟨latest, rfl⟩ <;> trivial
  | fetched hst hrange hw => exact hw.something
  | resumed hst hw => exact hw.something
  | left => trivial
  | low => trivial
  | @approved _ latest value log rest deposit owner desired next hst hd hle hnext =>
    cases hact
    have hasked : asked cfg s (.allowance p none) = some desired := by
      simp [asked, hp, hst, hd, Except.toOption]
    have hne : desired ≠ 0 := hok desired hasked
    rcases hnext with rfl | rfl
    · exact hne
    · exact hne
  | failed => trivial
  | proceeds hst hnext =>
    rw [hst] at h
    cases hnext with
    | funded => exact h
    | sent => exact h
    | waits => exact h
  | unconfirmed => trivial
  | pulled hst htx hm hnext => rcases hnext with rfl | ⟨result, rfl⟩ <;> trivial
  | calledBack => trivial
  | callbackThrew => trivial

theorem something_of_reach {cfg : Config} {g : Audited}
    (h : ReachUnder (audit cfg) (fun g a => AsksForSome cfg g.state a) .init g) {p : ℕ} {poll : Poll}
    (hp : g.state.polls.get? p = some poll) : Something poll.stage := by
  apply poll_invariant (P := fun poll _ => Something poll.stage) ?_ ?_ h hp
  · intro poll hst
    rw [hst]
    trivial
  · intro g a p poll stage t' _ hok hact hp hpoll hacts
    exact hacts.something hact hp hok hpoll

/-! ### Runs -/

/-- The transaction is for what its deposit asks for an approval, and there is something to pull. -/
structure Pull (cfg : Config) (tx : PullTx) (value currentAllowance : ℕ) : Prop where
  positive : 0 < tx.amount
  expected : ∀ expectedAmount, tx.deposit.expectedAmount = some expectedAmount → expectedAmount ≠ "" →
    cfg.units.parseUnits expectedAmount tx.deposit.decimals = .ok tx.amount
  any : tx.deposit.expectedAmount = none ∨ tx.deposit.expectedAmount = some "" → tx.amount = value
  allowed : tx.amount ≤ currentAllowance

theorem pull_of_desired {cfg : Config} {tx : PullTx} {value currentAllowance : ℕ}
    (hd : desiredAmount cfg tx.deposit value = .ok tx.amount) (hpos : 0 < tx.amount)
    (hle : tx.amount ≤ currentAllowance) : Pull cfg tx value currentAllowance where
  positive := hpos
  expected := by
    intro expectedAmount he hne
    simpa [desiredAmount, he, hne] using hd
  any := by
    intro he
    have hvalue : (value : ℤ) = tx.amount := by
      rcases he with he | he <;> simpa [desiredAmount, he] using hd
    exact hvalue.symm
  allowed := hle

theorem broadcast_pulls {cfg : Config} {g g' : Audited} {p : ℕ}
    (h : ReachUnder (audit cfg) (fun g a => AsksForSome cfg g.state a) .init g)
    (hs : audit cfg g (.broadcast p) = some g') :
    ∃ tx, g'.state.txs = g.state.txs ++ [tx] ∧ ∃ log ∈ (g.traces p).batch, ∃ value currentAllowance,
      log.parsed = .approval tx.owner value ∧ (g.traces p).read = some currentAllowance ∧
        Pull cfg tx value currentAllowance := by
  have htransition := transition_of_step (state_of_audit hs)
  generalize g'.state = s' at htransition ⊢
  cases htransition with
  | @broadcast p latest poll log rest deposit owner desired hp hst hrange =>
    have hsized := stageSized_of_reach h hp
    rw [hst] at hsized
    obtain ⟨hlog, ⟨value, hparsed, hd⟩, ⟨currentAllowance, hread, hle⟩⟩ := hsized
    have hsome := something_of_reach h hp
    rw [hst] at hsome
    have hpos : 0 < desired := lt_of_le_of_ne hrange.1 (Ne.symm hsome)
    exact ⟨⟨deposit, owner, desired, log.blockNumber, .pending⟩, rfl, log, hlog, value, currentAllowance,
      hparsed, hread, pull_of_desired hd hpos hle⟩

/-- In every run whose polls never ask for nothing, a `transferFrom` is for a positive amount: the
expected one, or the value of an approval in its poll's batch, within the allowance read last; and
a reported deposit has been pulled by a mined one. -/
theorem pulls_move_tokens (cfg : Config) (g : Audited)
    (h : ReachUnder (audit cfg) (fun g a => AsksForSome cfg g.state a) .init g) :
    (∀ p g', audit cfg g (.broadcast p) = some g' →
      ∃ tx, g'.state.txs = g.state.txs ++ [tx] ∧ ∃ log ∈ (g.traces p).batch, ∃ value currentAllowance,
        log.parsed = .approval tx.owner value ∧ (g.traces p).read = some currentAllowance ∧
          Pull cfg tx value currentAllowance) ∧
    (∀ tx ∈ g.state.txs, 0 < tx.amount) ∧
    ∀ r ∈ g.state.reports, ∃ tx, g.state.txs[r.txHash]? = some tx ∧ tx.status = .mined ∧
      tx.deposit = r.deposit ∧ tx.owner = r.owner ∧ 0 < tx.amount := by
  have hpositive : ∀ amount ∈ g.state.txs.map PullTx.amount, 0 < amount := by
    apply h.invariant_from (P := fun g => ∀ amount ∈ g.state.txs.map PullTx.amount, 0 < amount)
      (fun g hg => hg)
    · intro amount hamount
      cases hamount
    · intro g a g' hg hpos _ hs
      rcases amounts_of_step (state_of_audit hs) with ⟨p, rfl⟩ | hsame
      · obtain ⟨tx, htxs, _, -, _, _, -, -, hpull⟩ := broadcast_pulls hg hs
        rw [htxs, List.map_append]
        intro amount hamount
        rcases List.mem_append.mp hamount with hold | hnew
        · exact hpos amount hold
        · rw [List.map_singleton, List.mem_singleton] at hnew
          rw [hnew]
          exact hpull.positive
      · rw [hsame]
        exact hpos
  have hall : ∀ tx ∈ g.state.txs, 0 < tx.amount := fun tx htx => hpositive _ (List.mem_map_of_mem htx)
  refine ⟨fun p g' hs => broadcast_pulls h hs, hall, ?_⟩
  intro r hr
  have hstate : Reach (step cfg) init g.state := reach_of_audit (fun _ _ _ => trivial) h
  obtain ⟨tx, htx, hm, hdeposit, howner, -⟩ := report_of_mined_pull hstate r hr
  exact ⟨tx, htx, hm, hdeposit, howner, hall tx (List.mem_of_getElem? htx)⟩

/-- An approval of five tokens is pulled for five tokens. -/
theorem lone_deposit_moves_tokens : ∃ g, ReachUnder (audit plainWatcher)
    (fun g a => AsksForSome plainWatcher g.state a) .init g ∧
    g.state.reports.length = 1 ∧ ∀ r ∈ g.state.reports, ∃ tx, g.state.txs[r.txHash]? = some tx ∧
      tx.status = .mined ∧ tx.deposit = r.deposit ∧ tx.owner = r.owner ∧ 0 < tx.amount := by
  have he : (exec (guarded (audit plainWatcher) fun g a => AsksForSome plainWatcher g.state a) .init
      (opening (tokenDeposit "cid-1" "alice") 5 ++ reading 0 0 11 [fiveTokensLog 11] ++
        pulling 0 0)).map (fun g => g.state.reports.length) = some 1 := by
    decide +kernel
  obtain ⟨g, hg, hlen⟩ := Option.map_eq_some_iff.mp he
  have hrun := reachUnder_of_exec hg
  exact ⟨g, hrun, hlen, (pulls_move_tokens plainWatcher g hrun).2.2⟩

/-- A depositor revokes his approval: the event of value zero is pulled with a `transferFrom` of
nothing, and the deposit is closed and reported. -/
theorem revocation_completes_deposit : ∃ s, Reach (step plainWatcher) init s ∧
    (s.txs.map fun tx => (tx.deposit.correlationId, tx.amount, tx.status)) = [("cid-1", 0, .mined)] ∧
    (s.reports.map fun r => (r.deposit.correlationId, r.amount)) = [("cid-1", "0")] ∧
    s.deposits.values.length = 0 := by
  have he : (exec (step plainWatcher) init
      (opening (tokenDeposit "cid-1" "alice") 0 ++
        reading 0 0 11 [⟨11, .approval "0x3333333333333333333333333333333333333333" 0⟩] ++ pulling 0 0)).map
      (fun s => (s.txs.map fun tx => (tx.deposit.correlationId, tx.amount, tx.status),
        s.reports.map fun r => (r.deposit.correlationId, r.amount), s.deposits.values.length)) =
      some ([("cid-1", 0, .mined)], [("cid-1", "0")], 0) := by
    decide +kernel
  obtain ⟨s, hs, heq⟩ := Option.map_eq_some_iff.mp he
  obtain ⟨htxs, hrest⟩ := Prod.mk.inj heq
  obtain ⟨hreports, hclosed⟩ := Prod.mk.inj hrest
  exact ⟨s, reach_of_exec hs, htxs, hreports, hclosed⟩

end FinP2PAdapter.Deposits.ApprovalWatcher
