import FinP2PAdapter.Deposits.BalanceWatcher

/-! A one-time-address deposit is swept and reported once, and no mined sweep is
forgotten, as long as a poll that goes on to sweep is alone with its deposit and
a sweep is only given up once it was reverted. The watcher refines the ledger of
submissions: a poll inside `sweep` is a worker preparing before its transaction
is taken, and one that submitted it after that. -/

namespace FinP2PAdapter.Deposits.BalanceWatcher

open Machine

/-- A sweep as the plugin is told of it: deposit and written amount. -/
abbrev Payload := OtaDeposit × String

def payload (cfg : Config) (deposit : OtaDeposit) (amount : ℕ) : Payload :=
  (deposit, cfg.units.formatUnits amount deposit.decimals)

/-- A poll's part in the ledger of submissions; the jobs are correlation ids. -/
def phase (cfg : Config) (poll : Poll) : Option (Submissions.Phase String Payload) :=
  match poll.stage with
  | .gas amount | .transfer amount none =>
    some (.preparing poll.deposit.correlationId (payload cfg poll.deposit amount))
  | .transfer amount (some tx) | .wait amount tx | .swept amount tx =>
    some (.sent poll.deposit.correlationId (payload cfg poll.deposit amount) tx)
  | _ => none

def submitted (cfg : Config) (tx : SweepTx) : Submissions.Tx String Payload :=
  ⟨tx.deposit.correlationId, payload cfg tx.deposit tx.amount, tx.status⟩

def reported (result : OtaResult) : Submissions.Report String Payload :=
  ⟨result.sweepTxHash, result.deposit.correlationId, (result.deposit, result.receivedAmount)⟩

/-- The watcher as a ledger of submissions. -/
def ledger (cfg : Config) (s : State) : Submissions.State String Payload where
  worker p := (s.polls.get? p).bind (phase cfg)
  txs := s.txs.map (submitted cfg)
  reports := s.reports.map reported

/-- The deposit a poll goes on to sweep when its balance read is answered. -/
def goesOn (cfg : Config) (s : State) : Action → Option OtaDeposit
  | .balance p none =>
    (s.polls.get? p).bind fun poll =>
      if poll.stage = .balance ∧ cfg.gasStation ∧ sweepable cfg poll.deposit
          (balanceOf s poll.deposit.contractAddress poll.deposit.ephemeralAddress) = .ok true then
        some poll.deposit
      else none
  | _ => none

/-- A poll between its balance read and the taking of its sweep. -/
def SweepUnderWay (correlationId : String) (poll : Poll) : Prop :=
  poll.deposit.correlationId = correlationId ∧
    match poll.stage with
    | .gas _ | .transfer _ none => True
    | _ => False

instance (correlationId : String) (poll : Poll) : Decidable (SweepUnderWay correlationId poll) := by
  unfold SweepUnderWay
  refine @instDecidableAnd _ _ inferInstance ?_
  split <;> infer_instance

/-- A poll that goes on to sweep a deposit is alone with it: no other is on its way
to sweep it, and no sweep of it is pending or mined. -/
def SweepsAlone (cfg : Config) (s : State) (a : Action) : Prop :=
  ∀ deposit ∈ goesOn cfg s a,
    (∀ other ∈ s.polls.values, ¬ SweepUnderWay deposit.correlationId other) ∧
      ∀ tx ∈ s.txs, tx.deposit.correlationId = deposit.correlationId → tx.status = .reverted

/-- The sweep a poll gives up: its `transfer` call rejects although the node took
it, or `wait` rejects or answers without a receipt. -/
def givesUp (s : State) : Action → Option ℕ
  | .transfer p (some _) =>
    (s.polls.get? p).bind fun poll => match poll.stage with
      | .transfer _ sent => sent
      | _ => none
  | .receipt p .null | .receipt p (.rejects _) =>
    (s.polls.get? p).bind fun poll => match poll.stage with
      | .wait _ tx => some tx
      | _ => none
  | _ => none

/-- A sweep is given up only once it was reverted. -/
def KeepsSweeps (s : State) (a : Action) : Prop :=
  ∀ i ∈ givesUp s a, (s.txs[i]?).map SweepTx.status = some .reverted

/-- What the watcher relies on at each step. -/
def SweepsSafely (cfg : Config) (s : State) (a : Action) : Prop :=
  SweepsAlone cfg s a ∧ KeepsSweeps s a

instance (cfg : Config) (s : State) (a : Action) : Decidable (SweepsSafely cfg s a) := by
  unfold SweepsSafely SweepsAlone KeepsSweeps
  infer_instance

/-! ### Confirmed sweeps -/

/-- A poll that has come back from `sweep` with a hash holds a mined sweep. -/
def SweptMined (s : State) : Prop :=
  ∀ p poll amount tx, s.polls.get? p = some poll → poll.stage = .swept amount tx →
    (s.txs[tx]?).map SweepTx.status = some .mined

section Confirmed

variable {s : State}

theorem SweptMined.setPoll (h : SweptMined s) (p : ℕ) {poll : Poll}
    (hp : ∀ amount tx, poll.stage = .swept amount tx → (s.txs[tx]?).map SweepTx.status = some .mined) :
    SweptMined (s.setPoll p poll) := by
  intro q other amount tx hq hst
  rw [State.setPoll, JsMap.get?_set] at hq
  split_ifs at hq
  · cases hq
    exact hp amount tx hst
  · exact h q other amount tx hq hst

theorem SweptMined.move (h : SweptMined s) (p : ℕ) {poll : Poll} {stage : PollStage}
    (hstage : ∀ amount tx, stage ≠ .swept amount tx) : SweptMined (s.move p poll stage) :=
  h.setPoll p fun amount tx he => absurd he (hstage amount tx)

/-- A settled transaction stays settled. -/
theorem status_set {txs : List SweepTx} {i k : ℕ} {tx : SweepTx} {status : Submissions.Status}
    (htx : txs[i]? = some tx) (hp : tx.status = .pending)
    (hk : (txs[k]?).map SweepTx.status = some .mined) :
    ((txs.set i { tx with status := status })[k]?).map SweepTx.status = some .mined := by
  have hne : i ≠ k := by
    rintro rfl
    rw [htx, Option.map_some, hp] at hk
    cases hk
  rw [List.getElem?_set_ne hne]
  exact hk

theorem SweptMined.step {cfg : Config} {s' : State} {a : Action} (h : SweptMined s)
    (hs : step cfg s a = some s') : SweptMined s' := by
  cases transition_of_step hs with
  | addDeposit => exact h
  | tick =>
    unfold startPoll
    split_ifs
    · exact h
    · exact h.setPoll _ fun _ _ he => nomatch he
    · exact h
  | balanceRejected => exact h.move _ (by simp)
  | @balance p poll =>
    unfold afterBalance
    split
    · exact h.move p (by simp)
    · exact h.move p (by simp)
    · refine SweptMined.move
        (s := { s with inFlight := insert poll.deposit.correlationId s.inFlight }) h p ?_
      intro amount tx
      split_ifs <;> simp
  | gasRejected => exact h.move _ (by simp)
  | gas => exact h.move _ (by simp)
  | @broadcast p amount poll =>
    have hsend : SweptMined (s.send ⟨poll.deposit, amount, .pending⟩) := by
      intro q other amount' tx hq hst
      have hm := h q other amount' tx hq hst
      obtain ⟨t, ht, hts⟩ := Option.map_eq_some_iff.mp hm
      have hlt : tx < s.txs.length := (List.getElem?_eq_some_iff.mp ht).1
      rw [State.send, List.getElem?_append_left hlt]
      exact hm
    exact hsend.move p (by simp)
  | transferRejected => exact h.move _ (by simp)
  | transferSent => exact h.move _ (by simp)
  | unconfirmed hp hst hstage =>
    refine h.move _ ?_
    rcases hstage with rfl | ⟨message, rfl⟩ <;> simp
  | confirmed hp hst hm =>
    refine h.setPoll _ fun amount' tx' he => ?_
    cases he
    exact hm
  | @detected p amount tx poll =>
    exact SweptMined.move (s := { stop s poll.deposit.correlationId with reports := _ }) h p (by simp)
  | @unswept p poll =>
    exact SweptMined.move (s := { s with inFlight := s.inFlight.erase poll.deposit.correlationId })
      h p (by simp)
  | @throws p poll =>
    exact SweptMined.move (s := { s with inFlight := s.inFlight.erase poll.deposit.correlationId })
      h p (by simp)
  | @callback p poll result rejection stage hp hst hstage =>
    refine SweptMined.move (s := { s with inFlight := s.inFlight.erase poll.deposit.correlationId })
      h p ?_
    rcases hstage with rfl | ⟨message, rfl⟩ <;> simp
  | receive => exact h
  | mine htx hp => exact fun q other amount tx hq hst => status_set htx hp (h q other amount tx hq hst)
  | revert htx hp =>
    exact fun q other amount tx hq hst => status_set htx hp (h q other amount tx hq hst)

theorem sweptMined_of_runs {cfg : Config} {ok : State → Action → Prop}
    (h : ReachUnder (step cfg) ok init s) :
    SweptMined s := by
  refine h.invariant ?_ fun _ _ _ hi _ hs => SweptMined.step hi hs
  intro p poll amount tx hp
  cases hp

end Confirmed

/-! ### The refinement -/

section Refinement

variable {cfg : Config} {s : State} {ok : Prop}

/-- The side conditions of the ledger's two safety results. -/
def LedgerSafe (t : Submissions.State String Payload) (b : Submissions.Action String Payload) : Prop :=
  Submissions.PreparesAlone t b ∧ Submissions.QuitsReverted t b

/-- The watcher's step as the ledger sees it, safe there under `ok`. -/
def Refines (cfg : Config) (ok : Prop) (s s' : State) : Prop :=
  ledger cfg s' = ledger cfg s ∨
    ∃ b, (ok → LedgerSafe (ledger cfg s) b) ∧ Submissions.Step (ledger cfg s) b (ledger cfg s')

theorem ledger_setPoll (s : State) (p : ℕ) (poll : Poll) :
    ledger cfg (s.setPoll p poll) = (ledger cfg s).put p (phase cfg poll) := by
  unfold ledger Submissions.State.put
  congr 1
  funext q
  by_cases hq : q = p
  · subst hq
    simp [State.setPoll]
  · simp [State.setPoll, JsMap.get?_set, hq]

theorem ledger_worker {p : ℕ} {poll : Poll} (hp : s.polls.get? p = some poll) :
    (ledger cfg s).worker p = phase cfg poll := by
  simp [ledger, hp]

theorem safe_of_ne {t : Submissions.State String Payload} {b : Submissions.Action String Payload}
    (hprepare : ∀ w job load, b ≠ .prepare w job load) (hquit : ∀ w, b ≠ .quit w) : LedgerSafe t b :=
  ⟨fun w job load hb => absurd hb (hprepare w job load), fun w _ _ _ hb => absurd hb (hquit w)⟩

/-- A poll that leaves the ledger held no sweep but a reverted one. -/
theorem refines_leaves {p : ℕ} {poll poll' : Poll} (hw : (ledger cfg s).worker p = phase cfg poll)
    (hleft : phase cfg poll' = none)
    (hrev : ok → ∀ job load i, phase cfg poll = some (.sent job load i) →
      (s.txs[i]?).map SweepTx.status = some .reverted) : Refines cfg ok s (s.setPoll p poll') := by
  unfold Refines
  rw [ledger_setPoll, hleft]
  rcases Submissions.put_none_cases (ledger cfg s) p with he | hstep
  · exact .inl he
  · refine .inr ⟨.quit p, fun hok => ⟨fun w job load hb => (nomatch hb), ?_⟩, hstep⟩
    rintro w job load i ⟨⟩ hsent
    obtain ⟨tx, htx, hr⟩ := Option.map_eq_some_iff.mp (hrev hok job load i (hw.symm.trans hsent))
    exact ⟨submitted cfg tx, by simp [ledger, htx], hr⟩

theorem refines_stays {p : ℕ} {poll : Poll} (hp : s.polls.get? p = some poll) {stage : PollStage}
    (h : phase cfg { poll with stage := stage } = phase cfg poll) :
    Refines cfg ok s (s.move p poll stage) := by
  refine .inl ?_
  rw [State.move, ledger_setPoll]
  exact Submissions.put_self (by rw [ledger_worker hp, h])

/-- The side condition on the watcher is the one on the ledger. -/
theorem preparesAlone_of_sweepsAlone {a : Action} {deposit : OtaDeposit} (hok : SweepsAlone cfg s a)
    (hd : goesOn cfg s a = some deposit) (p : ℕ) (load : Payload) :
    Submissions.PreparesAlone (ledger cfg s) (.prepare p deposit.correlationId load) := by
  obtain ⟨hnobody, hnone⟩ := hok deposit hd
  intro w job load' hb
  cases hb
  constructor
  · intro v load₂ hv
    obtain ⟨other, hother, hphase⟩ := Option.bind_eq_some_iff.mp hv
    refine hnobody other ((JsMap.mem_values _ _).mpr ⟨v, hother⟩) ?_
    unfold phase at hphase
    unfold SweepUnderWay
    split at hphase <;> simp_all
  · intro t ht hj
    obtain ⟨tx, htx, rfl⟩ := List.mem_map.mp ht
    exact hnone tx htx hj

theorem refines_afterBalance {p : ℕ} {poll : Poll} (hp : s.polls.get? p = some poll)
    (hst : poll.stage = .balance) (hok : ok → SweepsAlone cfg s (.balance p none)) :
    Refines cfg ok s (afterBalance cfg s p poll
      (balanceOf s poll.deposit.contractAddress poll.deposit.ephemeralAddress)) := by
  have hw : (ledger cfg s).worker p = none := by
    rw [ledger_worker hp]
    simp [phase, hst]
  have hstays : ∀ stage, phase cfg { poll with stage := stage } = none →
      Refines cfg ok s (s.move p poll stage) := by
    intro stage hstage
    exact refines_stays hp (by rw [hstage, ← ledger_worker hp, hw])
  unfold afterBalance
  cases hbal : sweepable cfg poll.deposit
    (balanceOf s poll.deposit.contractAddress poll.deposit.ephemeralAddress) with
  | error message => exact hstays _ rfl
  | ok enough =>
    cases enough with
    | false => exact hstays _ rfl
    | true =>
      cases hg : cfg.gasStation with
      | false => exact hstays .unswept rfl
      | true =>
        have hgoes : goesOn cfg s (.balance p none) = some poll.deposit := by
          simp [goesOn, hp, hst, hg, hbal]
        refine .inr ⟨_, fun h => ⟨preparesAlone_of_sweepsAlone (hok h) hgoes p (payload cfg poll.deposit
          (balanceOf s poll.deposit.contractAddress poll.deposit.ephemeralAddress)),
          fun w _ _ _ hb => by cases hb⟩, ?_⟩
        show Submissions.Step (ledger cfg s) _ (ledger cfg ({ s with
          inFlight := insert poll.deposit.correlationId s.inFlight }.move p poll (.gas _)))
        rw [State.move, ledger_setPoll]
        exact .prepare hw

theorem getElem?_ledger {i : ℕ} {tx : SweepTx} (h : s.txs[i]? = some tx) :
    (ledger cfg s).txs[i]? = some (submitted cfg tx) := by
  simp [ledger, h]

theorem refines_settle {i : ℕ} {tx : SweepTx} (h : s.txs[i]? = some tx) (hp : tx.status = .pending)
    (mined : Bool) (balances : String → String → ℕ) : Refines cfg ok s
      { s with
        txs := s.txs.set i { tx with status := Submissions.outcome mined }
        balances := balances } := by
  refine .inr ⟨.settle i mined, fun _ => safe_of_ne (by simp) (by simp), ?_⟩
  have hs : Submissions.Step (ledger cfg s) (.settle i mined)
      ((ledger cfg s).settle i (submitted cfg tx) mined) := .settle (getElem?_ledger h) hp
  convert hs using 1
  simp [ledger, Submissions.State.settle, List.map_set, submitted]

/-- A step of the watcher is a step of the ledger or none of it, and a safe step a safe one. -/
theorem refines_step {s' : State} {a : Action} (hmined : SweptMined s) (h : step cfg s a = some s') :
    Refines cfg (SweepsSafely cfg s a) s s' := by
  cases transition_of_step h with
  | addDeposit => exact .inl rfl
  | tick hi hp =>
    unfold startPoll
    split_ifs
    · exact .inl rfl
    · refine .inl ?_
      rw [ledger_setPoll]
      exact Submissions.put_self (by simp [ledger, hp, phase])
    · exact .inl rfl
  | balanceRejected hp hst => exact refines_stays hp (by simp [phase, hst])
  | balance hp hst => exact refines_afterBalance hp hst fun hok => hok.1
  | gasRejected hp hst =>
    refine refines_leaves (ledger_worker hp) rfl ?_
    simp [phase, hst]
  | gas hp hst => exact refines_stays hp (by simp [phase, hst])
  | @broadcast p amount poll hp hst =>
    have hw : (ledger cfg s).worker p =
        some (.preparing poll.deposit.correlationId (payload cfg poll.deposit amount)) := by
      rw [ledger_worker hp]
      simp [phase, hst]
    refine .inr ⟨.submit p, fun _ => safe_of_ne (by simp) (by simp), ?_⟩
    have hs : Submissions.Step (ledger cfg s) (.submit p)
        ((ledger cfg s).submit p poll.deposit.correlationId (payload cfg poll.deposit amount)) :=
          .submit hw
    convert hs using 1
    rw [State.move, ledger_setPoll]
    simp [ledger, State.send, Submissions.State.submit, Submissions.State.put, submitted, phase]
  | @transferRejected p amount poll sent message hp hst =>
    refine refines_leaves (ledger_worker hp) rfl fun hok job load i hsent => ?_
    refine hok.2 i ?_
    cases sent with
    | none => simp [phase, hst] at hsent
    | some tx =>
      simp only [phase, hst, Option.some.injEq, Submissions.Phase.sent.injEq] at hsent
      simp [givesUp, hp, hst, hsent.2.2]
  | transferSent hp hst => exact refines_stays hp (by simp [phase, hst])
  | @unconfirmed p amount tx poll answer stage hp hst hstage hreverted =>
    refine refines_leaves (ledger_worker hp) ?_ fun hok job load i hsent => ?_
    · rcases hstage with rfl | ⟨message, rfl⟩ <;> rfl
    · simp only [phase, hst, Option.some.injEq, Submissions.Phase.sent.injEq] at hsent
      rw [← hsent.2.2]
      cases answer with
      | receipt => exact hreverted rfl
      | null => exact hok.2 tx (by simp [givesUp, hp, hst])
      | rejects message => exact hok.2 tx (by simp [givesUp, hp, hst])
  | confirmed hp hst => exact refines_stays hp (by simp [phase, hst])
  | @detected p amount tx poll hp hst =>
    obtain ⟨t, ht, hm⟩ := Option.map_eq_some_iff.mp (hmined p poll amount tx hp hst)
    have hw : (ledger cfg s).worker p =
        some (.sent poll.deposit.correlationId (payload cfg poll.deposit amount) tx) := by
      rw [ledger_worker hp]
      simp [phase, hst]
    refine .inr ⟨.report p, fun _ => safe_of_ne (by simp) (by simp), ?_⟩
    have hs := Submissions.Step.report hw (getElem?_ledger ht) hm
    convert hs using 1
    unfold detected
    rw [State.move, ledger_setPoll]
    rfl
  | @unswept p poll hp hst =>
    exact refines_stays (s := { s with inFlight := s.inFlight.erase poll.deposit.correlationId }) hp
      (by simp [phase, hst])
  | @throws p poll message hp hst =>
    exact refines_stays (s := { s with inFlight := s.inFlight.erase poll.deposit.correlationId }) hp
      (by simp [phase, hst])
  | @callback p poll result rejection stage hp hst hstage =>
    refine refines_stays (s := { s with inFlight := s.inFlight.erase poll.deposit.correlationId }) hp ?_
    rcases hstage with rfl | ⟨message, rfl⟩ <;> simp [phase, hst]
  | receive => exact .inl rfl
  | mine htx hp => exact refines_settle htx hp true _
  | revert htx hp => exact refines_settle htx hp false s.balances

end Refinement

theorem ledger_runs {cfg : Config} {s : State} (h : ReachUnder (step cfg) (SweepsSafely cfg) init s) :
    Runs Submissions.Step LedgerSafe Submissions.init (ledger cfg s) :=
  h.simulate (ledger cfg) (fun _ => sweptMined_of_runs) fun _ _ _ hmined hok hs =>
    (refines_step hmined hs).imp id fun ⟨b, hb, hstep⟩ => ⟨b, hb hok, hstep⟩

/-- In every run a report names a mined sweep of its deposit and exactly its amount. -/
theorem report_of_mined_sweep {cfg : Config} {s : State} {ok : State → Action → Prop}
    (h : ReachUnder (step cfg) ok init s) :
    ∀ r ∈ s.reports, ∃ tx, s.txs[r.sweepTxHash]? = some tx ∧ tx.status = .mined ∧
      tx.deposit = r.deposit ∧
      r.receivedAmount = cfg.units.formatUnits tx.amount r.deposit.decimals := by
  have hruns : Runs Submissions.Step (fun _ _ => True) Submissions.init (ledger cfg s) :=
    h.simulate (ledger cfg) (fun _ => sweptMined_of_runs) fun _ _ _ hmined _ hs =>
      (refines_step hmined hs).imp id fun ⟨b, _, hstep⟩ => ⟨b, trivial, hstep⟩
  intro r hr
  obtain ⟨t, ht, -, hpayload, hm⟩ := (Submissions.inv_of_runs hruns).report_tx (reported r)
    (List.mem_map_of_mem hr)
  rw [ledger, List.getElem?_map, Option.map_eq_some_iff] at ht
  obtain ⟨tx, htx, rfl⟩ := ht
  simp only [submitted, payload, reported, Prod.mk.injEq] at hpayload
  obtain ⟨hdeposit, hamount⟩ := hpayload
  exact ⟨tx, htx, hm, hdeposit, by rw [← hamount, hdeposit]⟩

/-- A poll that holds a sweep: sent, waited for, or found mined. -/
def Poll.holds (poll : Poll) (tx : ℕ) : Prop :=
  (∃ amount, poll.stage = .transfer amount (some tx)) ∨ (∃ amount, poll.stage = .wait amount tx) ∨
    ∃ amount, poll.stage = .swept amount tx

theorem holds_of_phase {cfg : Config} {poll : Poll} {job : String} {load : Payload} {tx : ℕ}
    (h : phase cfg poll = some (.sent job load tx)) : poll.holds tx := by
  unfold phase at h
  split at h
  · cases h
  · cases h
  · rename_i amount tx' hst
    cases h
    exact .inl ⟨amount, hst⟩
  · rename_i amount tx' hst
    cases h
    exact .inr (.inl ⟨amount, hst⟩)
  · rename_i amount tx' hst
    cases h
    exact .inr (.inr ⟨amount, hst⟩)
  · cases h

/-- In every run whose steps are safe, a deposit is reported at most once, a report
names a mined sweep of its deposit and exactly its amount, and a mined sweep that
is not reported is held by a poll that has yet to report it. -/
theorem deposit_swept_once (cfg : Config) (s : State)
    (h : ReachUnder (step cfg) (SweepsSafely cfg) init s) :
    (s.reports.map fun r => r.deposit.correlationId).Nodup ∧
    (∀ r ∈ s.reports, ∃ tx, s.txs[r.sweepTxHash]? = some tx ∧ tx.status = .mined ∧
      tx.deposit = r.deposit ∧
      r.receivedAmount = cfg.units.formatUnits tx.amount r.deposit.decimals) ∧
    ∀ (i : ℕ) (tx : SweepTx), s.txs[i]? = some tx → tx.status = .mined →
      (∃ r ∈ s.reports, r.sweepTxHash = i ∧ r.deposit = tx.deposit ∧
        r.receivedAmount = cfg.units.formatUnits tx.amount tx.deposit.decimals) ∨
      ∃ poll ∈ s.polls.values, poll.holds i := by
  have hruns := ledger_runs h
  have hreport := report_of_mined_sweep h
  refine ⟨?_, hreport, ?_⟩
  · have hnodup := Submissions.reports_unique (hruns.mono fun _ _ hb => hb.1)
    rwa [ledger, List.map_map] at hnodup
  · intro i tx htx hm
    have hacc := Submissions.accounted_of_runs (hruns.mono fun _ _ hb => hb.2) i (submitted cfg tx)
      (getElem?_ledger htx) (by simp [submitted, hm])
    rcases hacc with hr | ⟨p, job, load, hp⟩
    · obtain ⟨r', hr', he⟩ := List.mem_map.mp hr
      obtain ⟨r, hr, rfl⟩ := List.mem_map.mp hr'
      obtain ⟨t, ht, -, hd, hamount⟩ := hreport r hr
      rw [show r.sweepTxHash = i from he, htx] at ht
      cases ht
      exact .inl ⟨r, hr, he, hd.symm, by rw [hamount, hd]⟩
    · obtain ⟨poll, hpoll, hphase⟩ := Option.bind_eq_some_iff.mp hp
      exact .inr ⟨poll, (JsMap.mem_values _ _).mpr ⟨p, hpoll⟩, holds_of_phase hphase⟩

/-- A funded deposit is swept and reported once. -/
theorem lone_deposit_swept_once :
    ∃ s, ReachUnder (step plainWatcher) (SweepsSafely plainWatcher) init s ∧
    s.reports ≠ [] ∧ (s.reports.map fun r => r.deposit.correlationId).Nodup := by
  have he : (exec (guarded (step plainWatcher) (SweepsSafely plainWatcher)) init
      (sweeping ++ [.receipt 0 .receipt, .resume 0, .callback 0 none])).map
        (fun s => s.reports.length) =
      some 1 := by
    decide +kernel
  obtain ⟨s, hs, hlen⟩ := Option.map_eq_some_iff.mp he
  have hrun := reachUnder_of_exec hs
  exact ⟨s, hrun, by rintro hnil; simp [hnil] at hlen, (deposit_swept_once plainWatcher s hrun).1⟩

/-- A sweep whose confirmation is lost after it was mined: the poll gives it up, and
the next one finds nothing to sweep. Nothing was reported, nothing is under way
any more, and the deposit stays open over an empty address. -/
theorem lost_confirmation_forgets_sweep : ∃ s, Reach (step plainWatcher) init s ∧
    (s.txs.map fun tx => (tx.amount, tx.status)) = [(5, .mined)] ∧ s.reports.length = 0 ∧
    s.polls.values.map Poll.stage = [.rejected "timeout", .resolved] ∧
    s.deposits.values = [tokenDeposit] ∧
    balanceOf s tokenDeposit.contractAddress tokenDeposit.ephemeralAddress = 0 := by
  have he : (exec (step plainWatcher) init
      (sweeping ++ [.receipt 0 (.rejects "timeout"), .resume 0, .tick 0 1, .balance 1 none])).map
      (fun s => (s.txs.map fun tx => (tx.amount, tx.status), s.reports.length,
        s.polls.values.map Poll.stage,
        s.deposits.values, balanceOf s tokenDeposit.contractAddress tokenDeposit.ephemeralAddress)) =
      some ([(5, .mined)], 0, [.rejected "timeout", .resolved], [tokenDeposit], 0) := by
    decide +kernel
  obtain ⟨s, hs, heq⟩ := Option.map_eq_some_iff.mp he
  simp only [Prod.mk.injEq] at heq
  exact ⟨s, reach_of_exec hs, heq⟩

end FinP2PAdapter.Deposits.BalanceWatcher
