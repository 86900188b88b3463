import FinP2PAdapter.Deposits.PollAudit

/-! In which order a poll handles its batch, and how far it gets. Approvals are handled one after
the other in the order of the logs; the first log whose handling throws ends the poll, with every
approval before it handled, none behind it, and the cursor where it was. -/

namespace FinP2PAdapter.Deposits.ApprovalWatcher

open Machine

def Outcome.Threw : Outcome → Prop
  | .failed _ _ => True
  | _ => False

/-! ### Where a poll stands in its batch -/

/-- The loop has come to `log`, and handled the approvals before it without an exception. -/
structure Past (l : Trace) (done : List Log) (log : Log) (rest : List Log)
    (before : List (Log × Outcome)) : Prop where
  batch : l.batch = done ++ log :: rest
  handled : before.map Prod.fst = approvals done
  clean : ∀ e ∈ before, ¬ e.2.Threw

/-- What the record says of the log in hand. -/
def InHandling (l : Trace) (log : Log) (before : List (Log × Outcome)) : Handling → Prop
  | .returned => ∃ outcome, ¬ outcome.Threw ∧ l.handled = before ++ [(log, outcome)] ∧ l.threw = none
  | .callback _ => ∃ outcome, ¬ outcome.Threw ∧ l.handled = before ++ [(log, outcome)] ∧ l.threw = none
  | .threw _ => ∃ outcome, l.handled = before ++ [(log, outcome)] ∧ l.threw = some log
  | _ => l.handled = before ∧ l.threw = none

def Standing (l : Trace) : PollStage → Prop
  | .blockNumber => l = .empty
  | .logs _ => l = .empty
  | .handling _ log rest handling =>
    ∃ done before, Past l done log rest before ∧ approvals [log] = [log] ∧
      InHandling l log before handling
  | .resolved => l.handled.map Prod.fst = approvals l.batch ∧ (∀ e ∈ l.handled, ¬ e.2.Threw) ∧
      l.threw = none
  | .rejected _ => l = .empty ∨ ∃ done log rest before, Past l done log rest before ∧
      l.threw = some log ∧
        (approvals [log] = [] ∧ l.handled = before ∨
          ∃ outcome, approvals [log] = [log] ∧ l.handled = before ++ [(log, outcome)])

theorem standing_empty_resolved : Standing .empty .resolved :=
  ⟨rfl, by simp [Trace.empty], rfl⟩

/-- Walking on from a place up to which all approvals are handled. -/
theorem Walks.standing {s : State} {poll : Poll} {latest : ℕ} {logs : List Log} {l l' : Trace}
    {stage : PollStage} (done : List Log) (hw : Walks s poll latest logs l stage l') (hb : l.batch = done ++ logs)
    (hh : l.handled.map Prod.fst = approvals done) (hc : ∀ e ∈ l.handled, ¬ e.2.Threw)
    (ht : l.threw = none) : Standing l' stage := by
  have hpast : ∀ {log : Log} {rest : List Log}, nextLog logs = some (log, rest) →
      ∃ skipped, (∀ x ∈ skipped, x.parsed = .unknown) ∧
        l.batch = (done ++ skipped) ++ log :: rest ∧
          l.handled.map Prod.fst = approvals (done ++ skipped) := by
    intro log rest hn
    obtain ⟨-, skipped, he, hu⟩ := nextLog_some hn
    refine ⟨skipped, hu, ?_, ?_⟩
    · rw [hb, he, List.append_assoc]
    · rw [approvals_append, approvals_of_unknown hu, List.append_nil]
      exact hh
  cases hw with
  | finished hn =>
    refine ⟨?_, hc, ht⟩
    rw [hb, approvals_append, approvals_of_unknown (nextLog_none hn), List.append_nil]
    exact hh
  | @malformed log rest message hn hp =>
    obtain ⟨skipped, -, hbatch, hhandled⟩ := hpast hn
    have hnone : approvals [log] = [] := by simp [approvals, Log.isApproval, hp]
    exact .inr ⟨done ++ skipped, log, rest, l.handled, ⟨hbatch, hhandled, hc⟩, rfl, .inl ⟨hnone, rfl⟩⟩
  | @unmatched log rest owner value hn hp hm =>
    obtain ⟨skipped, -, hbatch, hhandled⟩ := hpast hn
    exact ⟨done ++ skipped, l.handled, ⟨hbatch, hhandled, hc⟩, approvals_singleton hp,
      .noDeposit, id, rfl, ht⟩
  | @matched log rest owner value deposit hn hp hm =>
    obtain ⟨skipped, -, hbatch, hhandled⟩ := hpast hn
    exact ⟨done ++ skipped, l.handled, ⟨hbatch, hhandled, hc⟩, approvals_singleton hp, rfl, ht⟩

/-- An approval at an await is not in the record yet. -/
theorem inHandling_pending {l : Trace} {log : Log} {before : List (Log × Outcome)}
    {handling : Handling} {deposit : PullDeposit} (h : InHandling l log before handling)
    (hd : handling.deposit? = some deposit) (hcall : ∀ result, handling ≠ .callback result) :
    l.handled = before ∧ l.threw = none := by
  cases handling with
  | allowance => exact h
  | gas => exact h
  | transferFrom => exact h
  | wait => exact h
  | callback result => exact absurd rfl (hcall result)
  | returned => cases hd
  | threw => cases hd

theorem Acts.standing {cfg : Config} {s : State} {poll : Poll} {l l' : Trace} {a : Action}
    {stage : PollStage} (h : Standing l poll.stage) (ha : Acts cfg s poll l a stage l') :
    Standing l' stage := by
  cases ha with
  | early hst hstage =>
    have hl : l = .empty := by
      rcases hst with hst | ⟨latest, hst⟩ <;> rw [hst] at h <;> exact h
    subst hl
    rcases hstage with rfl | ⟨message, rfl⟩ | ⟨latest, rfl⟩
    · exact standing_empty_resolved
    · exact .inl rfl
    · rfl
  | fetched hst hrange hw => exact hw.standing [] rfl rfl (by simp [Trace.empty]) rfl
  | @resumed _ _ log rest _ _ hst hw =>
    rw [hst] at h
    obtain ⟨done, before, hpast, hlog, outcome, hclean, hhandled, hthrew⟩ := h
    apply hw.standing (done ++ [log]) _ _ _ hthrew
    · rw [hpast.batch, List.append_assoc, List.singleton_append]
    · rw [hhandled, List.map_append, hpast.handled, approvals_append, hlog]
      rfl
    · rw [hhandled]
      intro e he
      rcases List.mem_append.mp he with he | he
      · exact hpast.clean e he
      · rw [List.mem_singleton.mp he]
        exact hclean
  | left hst =>
    rw [hst] at h
    obtain ⟨done, before, hpast, hlog, outcome, hhandled, hthrew⟩ := h
    exact .inr ⟨done, _, _, before, hpast, hthrew, .inr ⟨outcome, hlog, hhandled⟩⟩
  | low hst =>
    rw [hst] at h
    obtain ⟨done, before, hpast, hlog, hhandled, hthrew⟩ := h
    exact ⟨done, before, ⟨hpast.batch, hpast.handled, hpast.clean⟩, hlog, _, id,
      congrArg (· ++ _) hhandled, hthrew⟩
  | @approved _ _ value log rest deposit owner desired next hst hd hle hnext =>
    rw [hst] at h
    obtain ⟨done, before, hpast, hlog, hhandled, hthrew⟩ := h
    refine ⟨done, before, ⟨hpast.batch, hpast.handled, hpast.clean⟩, hlog, ?_⟩
    rcases hnext with rfl | rfl
    · exact ⟨hhandled, hthrew⟩
    · exact ⟨hhandled, hthrew⟩
  | failed _ hst hd hcall =>
    rw [hst] at h
    obtain ⟨done, before, hpast, hlog, hin⟩ := h
    obtain ⟨hhandled, -⟩ := inHandling_pending hin hd hcall
    exact ⟨done, before, ⟨hpast.batch, hpast.handled, hpast.clean⟩, hlog, _,
      congrArg (· ++ _) hhandled, rfl⟩
  | proceeds hst hnext =>
    rw [hst] at h
    obtain ⟨done, before, hpast, hlog, hin⟩ := h
    refine ⟨done, before, hpast, hlog, ?_⟩
    cases hnext with
    | funded => exact hin
    | sent => exact hin
    | waits => exact hin
  | unconfirmed hst =>
    rw [hst] at h
    obtain ⟨done, before, hpast, hlog, hhandled, hthrew⟩ := h
    exact ⟨done, before, ⟨hpast.batch, hpast.handled, hpast.clean⟩, hlog, _, id,
      congrArg (· ++ _) hhandled, hthrew⟩
  | pulled hst htx hm hnext =>
    rw [hst] at h
    obtain ⟨done, before, hpast, hlog, hhandled, hthrew⟩ := h
    refine ⟨done, before, ⟨hpast.batch, hpast.handled, hpast.clean⟩, hlog, ?_⟩
    rcases hnext with rfl | ⟨result, rfl⟩
    · exact ⟨_, id, congrArg (· ++ _) hhandled, hthrew⟩
    · exact ⟨_, id, congrArg (· ++ _) hhandled, hthrew⟩
  | calledBack hst =>
    rw [hst] at h
    exact h
  | callbackThrew hst =>
    rw [hst] at h
    obtain ⟨done, before, hpast, hlog, outcome, -, hhandled, -⟩ := h
    exact ⟨done, before, ⟨hpast.batch, hpast.handled, hpast.clean⟩, hlog, outcome, hhandled, rfl⟩

theorem standing_of_reach {cfg : Config} {ok : Audited → Action → Prop} {g : Audited}
    (h : ReachUnder (audit cfg) ok .init g) {p : ℕ} {poll : Poll}
    (hp : g.state.polls.get? p = some poll) : Standing (g.traces p) poll.stage := by
  apply poll_invariant (P := fun poll l => Standing l poll.stage) ?_ ?_ h hp
  · intro poll hst
    rw [hst]
    rfl
  · intro g a p poll stage l' _ _ _ _ hstanding hacts
    exact hacts.standing hstanding

/-! ### After an exception -/

/-- Only a poll whose batch is over or that still handles it has a log that threw. -/
theorem Standing.of_threw {l : Trace} {stage : PollStage} {log : Log} (h : Standing l stage)
    (ht : l.threw = some log) :
    (∃ latest rest message, stage = .handling latest log rest (.threw message)) ∨
      ∃ message, stage = .rejected message := by
  have hne : l.threw ≠ none := by
    rw [ht]
    exact Option.some_ne_none log
  cases stage with
  | blockNumber => exact absurd (congrArg Trace.threw h) hne
  | logs latest => exact absurd (congrArg Trace.threw h) hne
  | handling latest log' rest handling =>
    obtain ⟨done, before, -, -, hin⟩ := h
    cases handling with
    | allowance => exact absurd hin.2 hne
    | gas => exact absurd hin.2 hne
    | transferFrom => exact absurd hin.2 hne
    | wait => exact absurd hin.2 hne
    | callback => exact absurd hin.choose_spec.2.2 hne
    | returned => exact absurd hin.choose_spec.2.2 hne
    | threw message =>
      obtain ⟨outcome, -, hthrew⟩ := hin
      rw [ht] at hthrew
      cases hthrew
      exact .inl ⟨latest, rest, message, rfl⟩
  | resolved => exact absurd h.2.2 hne
  | rejected message => exact .inr ⟨message, rfl⟩

/-- A step of a poll one of whose logs has thrown does not write the cursor. -/
theorem cursor_kept_of_threw {s s' : State} {poll : Poll} {l : Trace} {stage : PollStage} {log : Log}
    (hs : Touches s poll stage s') (h : Standing l stage) (ht : l.threw = some log) :
    s'.lastSeen = s.lastSeen := by
  have hstage := h.of_threw ht
  cases hs with
  | nothing _ _ hl => exact hl
  | writes _ hres =>
    rcases hstage with ⟨_, _, _, he⟩ | ⟨_, he⟩ <;> rw [hres] at he <;> cases he
  | drops _ hnext =>
    obtain ⟨next, hnext, hst⟩ := hnext
    rcases hstage with ⟨_, _, _, he⟩ | ⟨_, he⟩ <;> rw [hst] at he <;> cases he
    rcases hnext with hnext | ⟨_, hnext⟩ <;> cases hnext

/-- After the exception the poll only leaves its batch. -/
theorem trace_kept_of_threw {cfg : Config} {s : State} {poll : Poll} {l l' : Trace} {a : Action}
    {stage : PollStage} {log : Log} (hs : Acts cfg s poll l a stage l') (h : Standing l poll.stage)
    (ht : l.threw = some log) : l' = l := by
  have hstage := h.of_threw ht
  have habsurd : ∀ {latest : ℕ} {log' : Log} {rest : List Log} {handling : Handling},
      poll.stage = .handling latest log' rest handling → (∀ message, handling ≠ .threw message) →
        l' = l := by
    intro latest log' rest handling hst hne
    rcases hstage with ⟨_, _, message, he⟩ | ⟨_, he⟩ <;> rw [hst] at he <;> cases he
    exact absurd rfl (hne message)
  cases hs with
  | early => rfl
  | fetched hst =>
    rcases hstage with ⟨_, _, _, he⟩ | ⟨_, he⟩ <;> rw [hst] at he <;> cases he
  | resumed hst => exact habsurd hst (by simp)
  | left => rfl
  | low hst => exact habsurd hst (by simp)
  | approved hst => exact habsurd hst (by simp)
  | @failed _ _ _ _ handling _ _ _ hst hd =>
    apply habsurd hst
    rintro message rfl
    cases hd
  | proceeds => rfl
  | unconfirmed hst => exact habsurd hst (by simp)
  | pulled hst => exact habsurd hst (by simp)
  | calledBack => rfl
  | callbackThrew hst => exact habsurd hst (by simp)

/-! ### Runs -/

theorem Standing.handled_prefix {l : Trace} {stage : PollStage} (h : Standing l stage) :
    l.handled.map Prod.fst <+: approvals l.batch := by
  have hpast : ∀ {done rest : List Log} {log : Log} {before : List (Log × Outcome)},
      Past l done log rest before → approvals l.batch =
        before.map Prod.fst ++ (approvals [log] ++ approvals rest) := by
    intro done rest log before hp
    rw [hp.batch, ← List.singleton_append, approvals_append, approvals_append, hp.handled]
  have hone : ∀ {done rest : List Log} {log : Log} {before : List (Log × Outcome)} {outcome : Outcome},
      Past l done log rest before → approvals [log] = [log] → l.handled = before ++ [(log, outcome)] →
        l.handled.map Prod.fst <+: approvals l.batch := by
    intro done rest log before outcome hp hlog hh
    rw [hpast hp, hh, hlog, List.map_append, ← List.append_assoc]
    exact List.prefix_append _ _
  cases stage with
  | blockNumber =>
    rw [h]
    exact List.nil_prefix
  | logs latest =>
    rw [h]
    exact List.nil_prefix
  | handling latest log rest handling =>
    obtain ⟨done, before, hp, hlog, hin⟩ := h
    have hnone : l.handled = before → l.handled.map Prod.fst <+: approvals l.batch := by
      intro hh
      rw [hpast hp, hh]
      exact List.prefix_append _ _
    cases handling with
    | allowance => exact hnone hin.1
    | gas => exact hnone hin.1
    | transferFrom => exact hnone hin.1
    | wait => exact hnone hin.1
    | callback => exact hone hp hlog hin.choose_spec.2.1
    | returned => exact hone hp hlog hin.choose_spec.2.1
    | threw => exact hone hp hlog hin.choose_spec.1
  | resolved => exact h.1 ▸ List.prefix_refl _
  | rejected message =>
    rcases h with rfl | ⟨done, log, rest, before, hp, -, ⟨-, hh⟩ | ⟨outcome, hlog, hh⟩⟩
    · exact List.nil_prefix
    · rw [hpast hp, hh]
      exact List.prefix_append _ _
    · exact hone hp hlog hh

/-- In every run the approvals of a batch are handled in order: all of them without an exception if
the poll ends normally; and if a log's handling throws, exactly those before it without an exception
and that one, the poll's record is final, and no step of the poll writes the cursor. -/
theorem batch_handled_up_to_first_throw (cfg : Config) (g : Audited) (p : ℕ) (poll : Poll)
    (h : Reach (audit cfg) .init g) (hp : g.state.polls.get? p = some poll) :
    (g.traces p).handled.map Prod.fst <+: approvals (g.traces p).batch ∧
    (poll.stage = .resolved → (g.traces p).handled.map Prod.fst = approvals (g.traces p).batch ∧
      ∀ e ∈ (g.traces p).handled, ¬ e.2.Threw) ∧
    (∀ log, (g.traces p).threw = some log →
      (∃ done rest before, Past (g.traces p) done log rest before ∧
        (approvals [log] = [] ∧ (g.traces p).handled = before ∨
          ∃ outcome, (g.traces p).handled = before ++ [(log, outcome)])) ∧
      ∀ a g', audit cfg g a = some g' → g'.traces p = g.traces p) ∧
    ∀ a g' log, audit cfg g a = some g' → a.poll? = some p → (g'.traces p).threw = some log →
      g'.state.lastSeen = g.state.lastSeen := by
  have hstanding := standing_of_reach h hp
  refine ⟨hstanding.handled_prefix, ?_, ?_, ?_⟩
  · intro hst
    rw [hst] at hstanding
    exact ⟨hstanding.1, hstanding.2.1⟩
  · intro log ht
    constructor
    · rcases hstanding.of_threw ht with ⟨latest, rest, message, hst⟩ | ⟨message, hst⟩
      · rw [hst] at hstanding
        obtain ⟨done, before, hpast, -, outcome, hhandled, -⟩ := hstanding
        exact ⟨done, rest, before, hpast, .inr ⟨outcome, hhandled⟩⟩
      · rw [hst] at hstanding
        rcases hstanding with he | ⟨done, log', rest, before, hpast, hlog, hin⟩
        · rw [he] at ht
          cases ht
        · rw [ht] at hlog
          cases hlog
          refine ⟨done, rest, before, hpast, hin.imp id ?_⟩
          rintro ⟨outcome, -, hhandled⟩
          exact ⟨outcome, hhandled⟩
    · intro a g' hs
      have hl := traces_of_audit hs p
      by_cases hact : a.poll? = some p
      · rw [if_pos hact] at hl
        rcases acts_of_step (g.traces p) (state_of_audit hs) hact with ⟨_, _, -, -, hnone, -⟩ |
          ⟨poll₀, stage, hp₀, -, hacts⟩
        · rw [hnone] at hp
          cases hp
        · rw [hp] at hp₀
          cases hp₀
          rw [hl]
          exact trace_kept_of_threw hacts hstanding ht
      · rw [if_neg hact] at hl
        exact hl
  · intro a g' log hs hact ht
    have hrun : Reach (audit cfg) .init g' := .tail h trivial hs
    rcases acts_of_step (g.traces p) (state_of_audit hs) hact with ⟨_, _, -, -, hnone, -⟩ |
      ⟨poll₀, stage, hp₀, hpolls, -⟩
    · rw [hnone] at hp
      cases hp
    · rw [hp] at hp₀
      cases hp₀
      have hp' : g'.state.polls.get? p = some { poll with stage := stage } := by
        rw [hpolls, JsMap.get?_set_self]
      have htouches := touches_of_step (state_of_audit hs) hact hp hp'
      exact cursor_kept_of_threw htouches (standing_of_reach hrun hp') ht

/-- An approval of seven tokens by an owner who holds none. -/
def emptyWalletLog (blockNumber : ℕ) : Log :=
  ⟨blockNumber, .approval "0x4444444444444444444444444444444444444444" 7⟩

/-- A poll whose first log is that approval: the node rejects the `transferFrom`. -/
def thwarted (p latest : ℕ) : List Action :=
  reading 0 p latest [emptyWalletLog 11, fiveTokensLog 11] ++
    [.allowance p none, .transferFrom p (some "ERC20InsufficientBalance"), .resume p]

/-- Alice's deposit, and both approvals. -/
def thwartedOpening : List Action :=
  opening (tokenDeposit "cid-1" "alice") 5 ++
    [.approve (tokenDeposit "cid-1" "alice").contractAddress "0x4444444444444444444444444444444444444444" 7]

/-- The poll whose first log throws handles it and nothing else. -/
theorem thwarted_poll_stops : ∃ g poll, Reach (audit plainWatcher) .init g ∧
    g.state.polls.get? 0 = some poll ∧ (g.traces 0).threw = some (emptyWalletLog 11) ∧
    ∃ done rest before, Past (g.traces 0) done (emptyWalletLog 11) rest before ∧
      (approvals [emptyWalletLog 11] = [] ∧ (g.traces 0).handled = before ∨
        ∃ outcome, (g.traces 0).handled = before ++ [(emptyWalletLog 11, outcome)]) := by
  have he : (exec (audit plainWatcher) .init (thwartedOpening ++ thwarted 0 12)).map
      (fun g => ((g.state.polls.get? 0).isSome, (g.traces 0).threw)) =
      some (true, some (emptyWalletLog 11)) := by
    decide +kernel
  obtain ⟨g, hg, heq⟩ := Option.map_eq_some_iff.mp he
  obtain ⟨hsome, ht⟩ := Prod.mk.inj heq
  obtain ⟨poll, hp⟩ := Option.isSome_iff_exists.mp hsome
  have hrun := reach_of_exec hg
  exact ⟨g, poll, hrun, hp, ht,
    ((batch_handled_up_to_first_throw plainWatcher g 0 poll hrun hp).2.2.1 _ ht).1⟩

/-- The poll fetched both approvals and was rejected with only the first one handled. -/
def Thwarted (g : Audited) (p : ℕ) : Prop :=
  (g.traces p).batch = [emptyWalletLog 11, fiveTokensLog 11] ∧
    (g.traces p).handled.map Prod.fst = [emptyWalletLog 11] ∧
    (g.state.polls.get? p).map Poll.stage = some (.rejected "ERC20InsufficientBalance")

instance (g : Audited) (p : ℕ) : Decidable (Thwarted g p) := by
  unfold Thwarted
  infer_instance

/-- Two polls in a row stop at the approval that throws, and leave the depositor's behind it
unhandled: his deposit stays open although it is approved. -/
theorem empty_wallet_thwarts_depositor : ∃ g, Reach (audit plainWatcher) .init g ∧
    Thwarted g 0 ∧ Thwarted g 1 ∧ g.state.deposits.values = [tokenDeposit "cid-1" "alice"] ∧
    g.state.txs.length = 0 := by
  have he : (exec (audit plainWatcher) .init (thwartedOpening ++ thwarted 0 12 ++ thwarted 1 13)).map
      (fun g => decide (Thwarted g 0 ∧ Thwarted g 1 ∧
        g.state.deposits.values = [tokenDeposit "cid-1" "alice"] ∧ g.state.txs.length = 0)) =
      some true := by
    decide +kernel
  obtain ⟨g, hg, hfacts⟩ := Option.map_eq_some_iff.mp he
  exact ⟨g, reach_of_exec hg, of_decide_eq_true hfacts⟩

end FinP2PAdapter.Deposits.ApprovalWatcher
