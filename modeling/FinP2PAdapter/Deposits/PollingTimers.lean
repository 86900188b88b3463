import FinP2PAdapter.Deposits.ApprovalCursor

/-! Which open deposits are polled. The watcher keeps its open deposits, their contracts' timers
and the timers' cursors in three maps, and `addDeposit` opens its deposit before the read that its
timer waits for. As long as that read answers, the three maps stay in step: an open deposit has a
timer and a cursor once its call is over, and a rejected call leaves no trace in them. -/

namespace FinP2PAdapter.Deposits.ApprovalWatcher

open Machine

/-! ### The maps -/

/-- What adding a deposit, polling for it and dropping it read and write, with the live intervals
behind the timers and the pending calls. -/
structure Maps where
  deposits : JsMap String PullDeposit
  timers : JsMap String ℕ
  lastSeen : JsMap String ℕ
  intervals : JsMap ℕ String
  nextInterval : ℕ
  calls : JsMap ℕ AddCall
  added : List String

def State.maps (s : State) : Maps :=
  ⟨s.deposits, s.timers, s.lastSeen, s.intervals, s.nextInterval, s.calls, s.added⟩

def Maps.Opens (m : Maps) (key : String) : Prop := ∃ d ∈ m.deposits.values, d.key = key

def Maps.stop (m : Maps) (key : String) : Maps :=
  { m with
    intervals := match m.timers.get? key with
      | none => m.intervals
      | some interval => m.intervals.delete interval
    timers := m.timers.delete key
    lastSeen := m.lastSeen.delete key }

/-- The contract whose polling an action stops. -/
def stopsPolling (s : State) : Action → Option String
  | .tick interval p =>
    match s.intervals.get? interval, s.polls.get? p with
    | some contractAddress, none =>
      if contractAddress.toLower ∉ s.inFlight ∧ ¬ hasOpenDepositFor s contractAddress then
        some contractAddress
      else none
    | _, _ => none
  | .receipt p .receipt =>
    (s.polls.get? p).bind fun poll => match poll.stage with
      | .handling _ _ _ (.wait deposit _ _ tx) =>
        if (s.txs[tx]?).map PullTx.status = some .mined ∧
            ¬ hasOpenDepositFor { s with deposits := s.deposits.delete deposit.correlationId }
              poll.contractAddress then
          some poll.contractAddress
        else none
      | _ => none
  | _ => none

/-- What a step does to the maps. -/
inductive MapsStep (stopping : Option String) (m : Maps) : Action → Maps → Prop where
  | same {a : Action} : MapsStep stopping m a m
  | refused {id : ℕ} {deposit : PullDeposit} {message : String} (hid : m.calls.get? id = none)
    (hfresh : deposit.correlationId ∉ m.added) (hopen : m.Opens deposit.key) :
    MapsStep stopping m (.addDeposit id deposit)
      { m with calls := m.calls.set id (.rejected deposit message) }
  | added {id : ℕ} {deposit : PullDeposit} (hid : m.calls.get? id = none)
    (hfresh : deposit.correlationId ∉ m.added) (hnone : ¬ m.Opens deposit.key) :
    MapsStep stopping m (.addDeposit id deposit)
      { m with
        deposits := m.deposits.set deposit.correlationId deposit
        calls := m.calls.set id
          (if m.timers.has deposit.key then .resolved deposit else .seeding deposit)
        added := deposit.correlationId :: m.added }
  | seedRejected {id : ℕ} {deposit : PullDeposit} {message : String}
    (hc : m.calls.get? id = some (.seeding deposit)) :
    MapsStep stopping m (.seedBlock id (.error message))
      { m with calls := m.calls.set id (.rejected deposit message) }
  | seeded {id currentBlock : ℕ} {deposit : PullDeposit}
    (hc : m.calls.get? id = some (.seeding deposit)) :
    MapsStep stopping m (.seedBlock id (.ok currentBlock))
      { m with
        lastSeen := m.lastSeen.set deposit.key (currentBlock - 1)
        intervals := m.intervals.set m.nextInterval deposit.contractAddress
        timers := m.timers.set deposit.key m.nextInterval
        nextInterval := m.nextInterval + 1
        calls := m.calls.set id (.resolved deposit) }
  | stops {a : Action} {contractAddress : String} (hstop : stopping = some contractAddress)
    (hnone : ¬ m.Opens contractAddress.toLower) :
    MapsStep stopping m a (m.stop contractAddress.toLower)
  | advances {a : Action} {key : String} {latest : ℕ} :
    MapsStep stopping m a { m with lastSeen := m.lastSeen.set key latest }
  | drops {a : Action} {correlationId : String} :
    MapsStep stopping m a { m with deposits := m.deposits.delete correlationId }
  | dropsLast {a : Action} {correlationId contractAddress : String}
    (hstop : stopping = some contractAddress)
    (hnone : ¬ Maps.Opens { m with deposits := m.deposits.delete correlationId }
      contractAddress.toLower) :
    MapsStep stopping m a
      (Maps.stop { m with deposits := m.deposits.delete correlationId } contractAddress.toLower)

theorem opens_iff (s : State) (contractAddress : String) :
    s.maps.Opens contractAddress.toLower ↔ hasOpenDepositFor s contractAddress :=
  (hasOpenDepositFor_iff s contractAddress).symm

theorem mapsStep_addDeposit {s : State} {stopping : Option String} {id : ℕ} {deposit : PullDeposit}
    (hid : s.calls.get? id = none) (hfresh : deposit.correlationId ∉ s.added) :
    MapsStep stopping s.maps (.addDeposit id deposit) (addDeposit s id deposit).maps := by
  unfold addDeposit
  split_ifs with ho
  · exact .refused hid hfresh ((opens_iff s _).mpr ho)
  · have hadded : MapsStep stopping s.maps (.addDeposit id deposit) _ :=
      .added hid hfresh fun h => ho ((opens_iff s _).mp h)
    dsimp only
    by_cases ht : s.timers.has deposit.key
    · have ht' : s.maps.timers.has deposit.key = true := ht
      rw [if_pos ht'] at hadded
      rw [if_pos ht]
      exact hadded
    · have ht' : ¬ s.maps.timers.has deposit.key = true := ht
      rw [if_neg ht'] at hadded
      rw [if_neg ht]
      exact hadded

theorem mapsStep_handleLogs {s : State} {stopping : Option String} {a : Action} (p : ℕ) (poll : Poll)
    (latest : ℕ) (logs : List Log) : MapsStep stopping s.maps a (handleLogs s p poll latest logs).maps := by
  rcases handleLogs_cases s p poll latest logs with ⟨-, h⟩ | ⟨message, h⟩ | ⟨log, -, rest, -, h⟩ |
    ⟨log, -, rest, deposit, owner, value, -, -, -, h⟩ <;> rw [h]
  · exact .advances
  · exact .same
  · exact .same
  · exact .same

theorem maps_of_step {cfg : Config} {s s' : State} {a : Action} (hs : step cfg s a = some s') :
    MapsStep (stopsPolling s a) s.maps a s'.maps := by
  cases transition_of_step hs with
  | addDeposit hid hfresh => exact mapsStep_addDeposit hid hfresh
  | seedRejected hc => exact .seedRejected hc
  | seeded hc => exact .seeded hc
  | @tick interval p contractAddress hi hp =>
    unfold startPoll
    dsimp only
    split_ifs with hf ho
    · exact .same
    · exact .same
    · have hstop : stopsPolling s (.tick interval p) = some contractAddress := by
        simp [stopsPolling, hi, hp, hf, ho]
      exact .stops hstop fun h => ho ((opens_iff s _).mp h)
  | blockNumber => exact .same
  | logsRejected => exact .same
  | noLogs => exact .advances
  | @batch p latest poll logs =>
    exact mapsStep_handleLogs (s := { s with inFlight := insert poll.key s.inFlight }) p poll latest logs
  | next => exact mapsStep_handleLogs _ _ _ _
  | throws => exact .same
  | allowanceRejected => exact .same
  | allowance => exact .same
  | gasRejected => exact .same
  | gas => exact .same
  | broadcast => exact .same
  | transferRejected => exact .same
  | transferSent => exact .same
  | unconfirmed => exact .same
  | @completes p latest i poll log rest deposit owner desired tx hp hst htx hm =>
    have hdrop : MapsStep (stopsPolling s (.receipt p .receipt)) s.maps (.receipt p .receipt)
        (dropDeposit s deposit poll.contractAddress).maps := by
      unfold dropDeposit
      dsimp only
      split_ifs with ho
      · exact .drops
      · have hstop : stopsPolling s (.receipt p .receipt) = some poll.contractAddress := by
          simp only [stopsPolling, hp, Option.bind_some, hst, htx, Option.map_some, hm, true_and]
          exact if_pos ho
        exact .dropsLast hstop fun h =>
          ho ((opens_iff { s with deposits := s.deposits.delete deposit.correlationId } _).mp h)
    obtain ⟨reports, next, -, he⟩ := completePull_eq cfg s p poll latest log rest deposit owner desired i
    rw [he]
    exact hdrop
  | callback => exact .same
  | approve => exact .same
  | mine => exact .same
  | revert => exact .same

/-! ### The side conditions -/

/-- The deposit whose seeding an action fails. -/
def failedSeed (s : State) : Action → Option PullDeposit
  | .seedBlock id (.error _) =>
    (s.calls.get? id).bind fun call => match call with
      | .seeding deposit => some deposit
      | _ => none
  | _ => none

/-- The read of the block number that a deposit's polling starts from does not fail while the
deposit is open. -/
def SeedsAnswered (s : State) (a : Action) : Prop :=
  ∀ deposit ∈ failedSeed s a, deposit ∉ s.deposits.values

instance (s : State) (a : Action) : Decidable (SeedsAnswered s a) := by
  unfold SeedsAnswered
  infer_instance

/-- Polling of a contract is stopped when its timer is the contract's only live interval. -/
def SoleTimer (s : State) (a : Action) : Prop :=
  ∀ contractAddress ∈ stopsPolling s a, ∀ entry ∈ s.intervals.entries,
    entry.2.toLower = contractAddress.toLower →
      s.timers.get? contractAddress.toLower = some entry.1

instance (s : State) (a : Action) : Decidable (SoleTimer s a) := by
  unfold SoleTimer
  infer_instance

/-! ### The invariant -/

namespace Maps

variable {m m' : Maps} {stopping : Option String} {a : Action}

/-- A timer is a live interval of its contract, which has a cursor. -/
structure TimersLive (m : Maps) : Prop where
  timers : ∀ key i, m.timers.get? key = some i → ∃ contractAddress cursor,
    m.intervals.get? i = some contractAddress ∧ contractAddress.toLower = key ∧
      m.lastSeen.get? key = some cursor
  intervals : ∀ i contractAddress, m.intervals.get? i = some contractAddress → i < m.nextInterval

theorem timersLive_init : TimersLive init.maps where
  timers := by
    intro key i hi
    cases hi
  intervals := by
    intro i contractAddress hi
    cases hi

theorem stop_intervals {key contractAddress : String} {i : ℕ}
    (h : (m.stop key).intervals.get? i = some contractAddress) :
    m.intervals.get? i = some contractAddress ∧ m.timers.get? key ≠ some i := by
  unfold stop at h
  dsimp only at h
  cases ht : m.timers.get? key with
  | none =>
    rw [ht] at h
    exact ⟨h, by simp⟩
  | some j =>
    rw [ht] at h
    dsimp only at h
    rw [JsMap.get?_delete] at h
    split_ifs at h with hj
    exact ⟨h, by simpa using Ne.symm hj⟩

theorem stop_timers {key key' : String} {i : ℕ} (h : (m.stop key).timers.get? key' = some i) :
    key' ≠ key ∧ m.timers.get? key' = some i := by
  simp only [stop, JsMap.get?_delete] at h
  split_ifs at h with hk
  exact ⟨hk, h⟩

/-- Stopping keeps the other contracts' timers, with their intervals and cursors. -/
theorem TimersLive.stop (h : TimersLive m) (key : String) : TimersLive (m.stop key) := by
  constructor
  · intro key' i hi
    obtain ⟨hne, hi₀⟩ := stop_timers hi
    obtain ⟨contractAddress, cursor, hlive, hkey, hcursor⟩ := h.timers key' i hi₀
    refine ⟨contractAddress, cursor, ?_, hkey, ?_⟩
    · unfold Maps.stop
      dsimp only
      cases ht : m.timers.get? key with
      | none => exact hlive
      | some j =>
        have hij : i ≠ j := by
          rintro rfl
          obtain ⟨other, -, hother, hok, -⟩ := h.timers key i ht
          rw [hlive] at hother
          cases hother
          exact hne (hkey.symm.trans hok)
        dsimp only
        rw [JsMap.get?_delete_of_ne _ hij]
        exact hlive
    · rw [Maps.stop, JsMap.get?_delete_of_ne _ hne]
      exact hcursor
  · intro i contractAddress hi
    exact h.intervals i contractAddress (stop_intervals hi).1

theorem TimersLive.step (h : TimersLive m) (hs : MapsStep stopping m a m') : TimersLive m' := by
  cases hs with
  | same => exact h
  | refused => exact ⟨h.timers, h.intervals⟩
  | added => exact ⟨h.timers, h.intervals⟩
  | seedRejected => exact ⟨h.timers, h.intervals⟩
  | @seeded id currentBlock deposit hc =>
    constructor
    · intro key i hi
      dsimp only at hi ⊢
      rw [JsMap.get?_set] at hi
      split_ifs at hi with hk
      · cases hi
        exact ⟨deposit.contractAddress, currentBlock - 1, JsMap.get?_set_self _ _ _, hk.symm,
          by rw [hk, JsMap.get?_set_self]⟩
      · obtain ⟨contractAddress, cursor, hlive, hkey, hcursor⟩ := h.timers key i hi
        have hlt : i < m.nextInterval := h.intervals i contractAddress hlive
        refine ⟨contractAddress, cursor, ?_, hkey, ?_⟩
        · rw [JsMap.get?_set_of_ne _ _ hlt.ne]
          exact hlive
        · rw [JsMap.get?_set_of_ne _ _ hk]
          exact hcursor
    · intro i contractAddress hi
      dsimp only at hi ⊢
      rw [JsMap.get?_set] at hi
      split_ifs at hi with he
      · omega
      · have hlt := h.intervals i contractAddress hi
        omega
  | stops => exact h.stop _
  | @advances _ key latest =>
    refine ⟨?_, h.intervals⟩
    intro key' i hi
    obtain ⟨contractAddress, cursor, hlive, hkey, hcursor⟩ := h.timers key' i hi
    dsimp only
    rw [JsMap.get?_set]
    split_ifs
    · exact ⟨contractAddress, latest, hlive, hkey, rfl⟩
    · exact ⟨contractAddress, cursor, hlive, hkey, hcursor⟩
  | drops => exact ⟨h.timers, h.intervals⟩
  | @dropsLast _ correlationId contractAddress =>
    have hdropped : TimersLive { m with deposits := m.deposits.delete correlationId } :=
      ⟨h.timers, h.intervals⟩
    exact hdropped.stop _

/-- An open deposit is of a pending call, or of a resolved one and its contract has a timer. -/
structure InStep (m : Maps) : Prop where
  added : ∀ d ∈ m.deposits.values, d.correlationId ∈ m.added
  deposits : ∀ d ∈ m.deposits.values, (∃ id, m.calls.get? id = some (.seeding d)) ∨
    ((∃ i, m.timers.get? d.key = some i) ∧ ∃ id, m.calls.get? id = some (.resolved d))

theorem inStep_init : InStep init.maps where
  added := by
    intro d hd
    cases hd
  deposits := by
    intro d hd
    cases hd

theorem mem_values_delete {deposits : JsMap String PullDeposit} {correlationId : String}
    {d : PullDeposit} (hd : d ∈ (deposits.delete correlationId).values) : d ∈ deposits.values :=
  (deposits.values_delete_sublist correlationId).subset hd

theorem InStep.stop (h : InStep m) {key : String} (hnone : ¬ m.Opens key) : InStep (m.stop key) := by
  refine ⟨h.added, ?_⟩
  intro d hd
  have hne : d.key ≠ key := fun hk => hnone ⟨d, hd, hk⟩
  rcases h.deposits d hd with hpending | ⟨⟨i, hi⟩, hresolved⟩
  · exact .inl hpending
  · refine .inr ⟨⟨i, ?_⟩, hresolved⟩
    rw [Maps.stop, JsMap.get?_delete_of_ne _ hne]
    exact hi

theorem InStep.drop (h : InStep m) (correlationId : String) :
    InStep { m with deposits := m.deposits.delete correlationId } :=
  ⟨fun d hd => h.added d (mem_values_delete hd), fun d hd => h.deposits d (mem_values_delete hd)⟩

/-- A call that had no place in the table is answered or starts to wait. -/
theorem InStep.begin (h : InStep m) {id : ℕ} (hid : m.calls.get? id = none) (call : AddCall) :
    InStep { m with calls := m.calls.set id call } := by
  have hkeep : ∀ id' c, m.calls.get? id' = some c → (m.calls.set id call).get? id' = some c := by
    intro id' c hc
    rw [JsMap.get?_set_of_ne]
    · exact hc
    · rintro rfl
      rw [hid] at hc
      cases hc
  refine ⟨h.added, ?_⟩
  intro d hd
  rcases h.deposits d hd with ⟨id', hc⟩ | ⟨htimer, id', hc⟩
  · exact .inl ⟨id', hkeep id' _ hc⟩
  · exact .inr ⟨htimer, id', hkeep id' _ hc⟩

theorem InStep.add (h : InStep m) {id : ℕ} {deposit : PullDeposit} (hid : m.calls.get? id = none) :
    InStep { m with
      deposits := m.deposits.set deposit.correlationId deposit
      calls := m.calls.set id
        (if m.timers.has deposit.key then .resolved deposit else .seeding deposit)
      added := deposit.correlationId :: m.added } := by
  have hbegun := h.begin hid (if m.timers.has deposit.key then .resolved deposit else .seeding deposit)
  have hcall := JsMap.get?_set_self m.calls id
    (if m.timers.has deposit.key then AddCall.resolved deposit else .seeding deposit)
  constructor
  · intro d hd
    rcases mem_values_set hd with rfl | hd₀
    · exact List.mem_cons_self
    · exact List.mem_cons_of_mem _ (h.added d hd₀)
  · intro d hd
    rcases mem_values_set hd with rfl | hd₀
    · by_cases ht : m.timers.has d.key
      · rw [if_pos ht] at hcall ⊢
        exact .inr ⟨Option.isSome_iff_exists.mp ht, id, hcall⟩
      · rw [if_neg ht] at hcall ⊢
        exact .inl ⟨id, hcall⟩
    · exact hbegun.deposits d hd₀

/-- The call whose answer is in is no more the pending one of an open deposit. -/
theorem InStep.answer (h : InStep m) {id : ℕ} {deposit : PullDeposit} (call : AddCall)
    (hc : m.calls.get? id = some (.seeding deposit)) :
    ∀ d ∈ m.deposits.values, d ≠ deposit → (∃ id', (m.calls.set id call).get? id' = some (.seeding d)) ∨
      ((∃ i, m.timers.get? d.key = some i) ∧
        ∃ id', (m.calls.set id call).get? id' = some (.resolved d)) := by
  intro d hd hne
  have hother : ∀ id' c, m.calls.get? id' = some c → c ≠ .seeding deposit →
      (m.calls.set id call).get? id' = some c := by
    intro id' c hget hcall
    rw [JsMap.get?_set_of_ne]
    · exact hget
    · rintro rfl
      rw [hc] at hget
      cases hget
      exact hcall rfl
  rcases h.deposits d hd with ⟨id', hget⟩ | ⟨htimer, id', hget⟩
  · exact .inl ⟨id', hother id' _ hget (by simpa using hne)⟩
  · exact .inr ⟨htimer, id', hother id' _ hget (by simp)⟩

theorem InStep.seed (h : InStep m) {id currentBlock : ℕ} {deposit : PullDeposit}
    (hc : m.calls.get? id = some (.seeding deposit)) :
    InStep { m with
      lastSeen := m.lastSeen.set deposit.key (currentBlock - 1)
      intervals := m.intervals.set m.nextInterval deposit.contractAddress
      timers := m.timers.set deposit.key m.nextInterval
      nextInterval := m.nextInterval + 1
      calls := m.calls.set id (.resolved deposit) } := by
  refine ⟨h.added, ?_⟩
  intro d hd
  by_cases hd' : d = deposit
  · subst hd'
    exact .inr ⟨⟨_, JsMap.get?_set_self _ _ _⟩, id, JsMap.get?_set_self _ _ _⟩
  · rcases h.answer (.resolved deposit) hc d hd hd' with hpending | ⟨⟨i, hi⟩, hresolved⟩
    · exact .inl hpending
    · refine .inr ⟨?_, hresolved⟩
      rw [JsMap.get?_set]
      split_ifs
      · exact ⟨_, rfl⟩
      · exact ⟨i, hi⟩

theorem InStep.step (h : InStep m) (hs : MapsStep stopping m a m')
    (hclosed : ∀ id deposit message, a = .seedBlock id (.error message) →
      m.calls.get? id = some (.seeding deposit) → deposit ∉ m.deposits.values) : InStep m' := by
  cases hs with
  | same => exact h
  | refused hid => exact h.begin hid _
  | added hid => exact h.add hid
  | @seedRejected id deposit message hc =>
    refine ⟨h.added, fun d hd => h.answer _ hc d hd ?_⟩
    rintro rfl
    exact hclosed id d message rfl hc hd
  | seeded hc => exact h.seed hc
  | stops _ hnone => exact h.stop hnone
  | advances => exact ⟨h.added, h.deposits⟩
  | drops => exact h.drop _
  | dropsLast _ hnone => exact (h.drop _).stop hnone

end Maps

/-- The call whose read fails has no open deposit. -/
theorem SeedsAnswered.closed {s : State} {a : Action} (hok : SeedsAnswered s a) (id : ℕ)
    (deposit : PullDeposit) (message : String) (ha : a = .seedBlock id (.error message))
    (hc : s.calls.get? id = some (.seeding deposit)) : deposit ∉ s.deposits.values := by
  subst ha
  apply hok
  simp [failedSeed, hc]

theorem timersLive_of_reach {cfg : Config} {ok : State → Action → Prop} {s : State}
    (h : ReachUnder (step cfg) ok init s) : s.maps.TimersLive :=
  h.invariant (P := fun s => s.maps.TimersLive) Maps.timersLive_init
    fun _ _ _ hi _ hs => hi.step (maps_of_step hs)

/-! ### Live intervals -/

/-- Every live interval's contract has a cursor. -/
def Maps.CursorsLive (m : Maps) : Prop :=
  ∀ i contractAddress, m.intervals.get? i = some contractAddress →
    ∃ cursor, m.lastSeen.get? contractAddress.toLower = some cursor

theorem Maps.CursorsLive.stop {m : Maps} (h : m.CursorsLive) {key : String}
    (hsole : ∀ i contractAddress, m.intervals.get? i = some contractAddress →
      contractAddress.toLower = key → m.timers.get? key = some i) : (m.stop key).CursorsLive := by
  intro i contractAddress hi
  obtain ⟨hlive, hother⟩ := stop_intervals hi
  have hne : contractAddress.toLower ≠ key := fun hk => hother (hsole i contractAddress hlive hk)
  rw [Maps.stop, JsMap.get?_delete_of_ne _ hne]
  exact h i contractAddress hlive

theorem Maps.CursorsLive.step {m m' : Maps} {stopping : Option String} {a : Action} (h : m.CursorsLive)
    (hs : MapsStep stopping m a m')
    (hsole : ∀ contractAddress, stopping = some contractAddress → ∀ i other,
      m.intervals.get? i = some other → other.toLower = contractAddress.toLower →
        m.timers.get? contractAddress.toLower = some i) : m'.CursorsLive := by
  cases hs with
  | same => exact h
  | refused => exact h
  | added => exact h
  | seedRejected => exact h
  | @seeded id currentBlock deposit hc =>
    intro i contractAddress hi
    dsimp only at hi ⊢
    by_cases hk : contractAddress.toLower = deposit.key
    · exact ⟨currentBlock - 1, by rw [hk, JsMap.get?_set_self]⟩
    · rw [JsMap.get?_set] at hi
      rw [JsMap.get?_set_of_ne _ _ hk]
      split_ifs at hi
      · cases hi
        exact absurd rfl hk
      · exact h i contractAddress hi
  | stops hstop => exact h.stop (hsole _ hstop)
  | advances =>
    intro i contractAddress hi
    dsimp only
    rw [JsMap.get?_set]
    split_ifs
    · exact ⟨_, rfl⟩
    · exact h i contractAddress hi
  | drops => exact h
  | dropsLast hstop => exact Maps.CursorsLive.stop h (hsole _ hstop)

theorem SoleTimer.sole {s : State} {a : Action} (hok : SoleTimer s a) (contractAddress : String)
    (hstop : stopsPolling s a = some contractAddress) (i : ℕ) (other : String)
    (hi : s.intervals.get? i = some other) (hk : other.toLower = contractAddress.toLower) :
    s.timers.get? contractAddress.toLower = some i :=
  hok contractAddress hstop (i, other) ((JsMap.get?_eq_some_iff _ _ _).mp hi) hk

/-! ### Rejected calls -/

/-- A call that a step rejects has left nothing in the maps. -/
def RejectsUnchanged (s s' : State) : Prop :=
  ∀ id d message, s'.calls.get? id = some (.rejected d message) →
    s.calls.get? id ≠ some (.rejected d message) →
      s'.deposits = s.deposits ∧ s'.timers = s.timers ∧ s'.lastSeen = s.lastSeen ∧
        d ∉ s'.deposits.values

theorem Maps.rejects_unchanged {m m' : Maps} {stopping : Option String} {a : Action} (h : m.InStep)
    (hs : MapsStep stopping m a m')
    (hclosed : ∀ id deposit message, a = .seedBlock id (.error message) →
      m.calls.get? id = some (.seeding deposit) → deposit ∉ m.deposits.values)
    {id : ℕ} {d : PullDeposit} {message : String} (hr : m'.calls.get? id = some (.rejected d message))
    (hnew : m.calls.get? id ≠ some (.rejected d message)) :
    m'.deposits = m.deposits ∧ m'.timers = m.timers ∧ m'.lastSeen = m.lastSeen ∧
      d ∉ m'.deposits.values := by
  cases hs with
  | same => exact absurd hr hnew
  | @refused id' deposit message' hid hfresh hopen =>
    dsimp only at hr
    rw [JsMap.get?_set] at hr
    split_ifs at hr with he
    · cases hr
      exact ⟨rfl, rfl, rfl, fun hd => hfresh (h.added d hd)⟩
    · exact absurd hr hnew
  | added =>
    dsimp only at hr
    rw [JsMap.get?_set] at hr
    split_ifs at hr
    · cases hr
    · cases hr
    · exact absurd hr hnew
  | @seedRejected id' deposit message' hc =>
    dsimp only at hr
    rw [JsMap.get?_set] at hr
    split_ifs at hr with he
    · cases hr
      exact ⟨rfl, rfl, rfl, hclosed id' d message rfl hc⟩
    · exact absurd hr hnew
  | seeded =>
    dsimp only at hr
    rw [JsMap.get?_set] at hr
    split_ifs at hr
    · cases hr
    · exact absurd hr hnew
  | stops => exact absurd hr hnew
  | advances => exact absurd hr hnew
  | drops => exact absurd hr hnew
  | dropsLast => exact absurd hr hnew

theorem rejectsUnchanged_step {cfg : Config} {s s' : State} {a : Action} (h : s.maps.InStep)
    (hok : SeedsAnswered s a) (hs : step cfg s a = some s') : RejectsUnchanged s s' :=
  fun _ _ _ hr hnew => Maps.rejects_unchanged h (maps_of_step hs) hok.closed hr hnew

/-! ### Runs -/

/-- Once no `addDeposit` is pending every open deposit's contract has a running timer and a cursor;
a timer's contract always has one, and an open deposit's own call is pending or has resolved. -/
structure Polled (s : State) : Prop where
  deposits : (∀ id d, s.calls.get? id ≠ some (.seeding d)) → ∀ d ∈ s.deposits.values,
    ∃ i contractAddress cursor, s.timers.get? d.key = some i ∧
      s.intervals.get? i = some contractAddress ∧ contractAddress.toLower = d.key ∧
        s.lastSeen.get? d.key = some cursor
  timers : ∀ key i, s.timers.get? key = some i → ∃ cursor, s.lastSeen.get? key = some cursor
  callers : ∀ d ∈ s.deposits.values, ∃ id, s.calls.get? id = some (.seeding d) ∨
    s.calls.get? id = some (.resolved d)

theorem Maps.InStep.polled {s : State} (h : s.maps.InStep) (hlive : s.maps.TimersLive) : Polled s where
  deposits := by
    intro hidle d hd
    rcases h.deposits d hd with ⟨id, hc⟩ | ⟨⟨i, hi⟩, -⟩
    · exact absurd hc (hidle id d)
    · obtain ⟨contractAddress, cursor, hinterval, hkey, hcursor⟩ := hlive.timers d.key i hi
      exact ⟨i, contractAddress, cursor, hi, hinterval, hkey, hcursor⟩
  timers := by
    intro key i hi
    obtain ⟨contractAddress, cursor, -, -, hcursor⟩ := hlive.timers key i hi
    exact ⟨cursor, hcursor⟩
  callers := by
    intro d hd
    rcases h.deposits d hd with ⟨id, hc⟩ | ⟨-, id, hc⟩
    · exact ⟨id, .inl hc⟩
    · exact ⟨id, .inr hc⟩

/-- In every run in which the read that a deposit's polling starts from never fails while the
deposit is open, open deposits are polled, and a rejected call leaves nothing behind; if besides
polling never stops with a second interval of the contract alive, every live interval's contract
has a cursor. -/
theorem open_deposits_polled (cfg : Config) (s : State)
    (h : ReachUnder (step cfg) SeedsAnswered init s) :
    Polled s ∧ (∀ a s', SeedsAnswered s a → step cfg s a = some s' → RejectsUnchanged s s') ∧
    (ReachUnder (step cfg) (fun s a => SeedsAnswered s a ∧ SoleTimer s a) init s →
      ∀ i contractAddress, s.intervals.get? i = some contractAddress →
        ∃ cursor, s.lastSeen.get? contractAddress.toLower = some cursor) := by
  have hinv : s.maps.InStep :=
    h.invariant (P := fun s => s.maps.InStep) Maps.inStep_init
      fun _ _ _ hi hok hs => hi.step (maps_of_step hs) hok.closed
  refine ⟨hinv.polled (timersLive_of_reach h), fun a s' hok hs => rejectsUnchanged_step hinv hok hs,
    fun hsole => ?_⟩
  have hinit : init.maps.CursorsLive := by
    intro i contractAddress hi
    cases hi
  exact hsole.invariant (P := fun s => s.maps.CursorsLive) hinit
    fun _ _ _ hi hok hs => hi.step (maps_of_step hs) hok.2.sole

/-- The deposit of a call that resolved is polled from the block before the one it read. -/
theorem lone_deposit_polled : ∃ s, ReachUnder (step plainWatcher) SeedsAnswered init s ∧
    s.deposits.values = [tokenDeposit "cid-1" "alice"] ∧
    ∃ i cursor, s.timers.get? (tokenDeposit "cid-1" "alice").key = some i ∧
      s.lastSeen.get? (tokenDeposit "cid-1" "alice").key = some cursor := by
  have he : (exec (guarded (step plainWatcher) SeedsAnswered) init
      (opening (tokenDeposit "cid-1" "alice") 5)).map (fun s => (s.deposits.values, s.calls.entries)) =
      some ([tokenDeposit "cid-1" "alice"], [(0, .resolved (tokenDeposit "cid-1" "alice"))]) := by
    decide +kernel
  obtain ⟨s, hs, heq⟩ := Option.map_eq_some_iff.mp he
  obtain ⟨hvalues, hcalls⟩ := Prod.mk.inj heq
  have hrun := reachUnder_of_exec hs
  have hidle : ∀ id d, s.calls.get? id ≠ some (.seeding d) := by
    intro id d hc
    rw [JsMap.get?_eq_some_iff, hcalls, List.mem_singleton] at hc
    cases hc
  have hopen : tokenDeposit "cid-1" "alice" ∈ s.deposits.values := by
    rw [hvalues]
    exact List.mem_singleton_self _
  obtain ⟨i, -, cursor, hi, -, -, hcursor⟩ :=
    (open_deposits_polled plainWatcher s hrun).1.deposits hidle _ hopen
  exact ⟨s, hrun, hvalues, i, cursor, hi, hcursor⟩

def AddCall.rejected? : AddCall → Option PullDeposit
  | .rejected deposit _ => some deposit
  | _ => none

/-- The read of the block number fails: the call is rejected and its deposit stays open, without a
timer or a cursor, and the token's next deposit is rejected for it. -/
theorem failed_deposit_blocks_token : ∃ s, Reach (step plainWatcher) init s ∧
    s.calls.values.map AddCall.rejected? =
      [some (tokenDeposit "cid-1" "alice"), some (tokenDeposit "cid-2" "bob")] ∧
    s.deposits.values = [tokenDeposit "cid-1" "alice"] ∧
    s.timers.has (tokenDeposit "cid-1" "alice").key = false ∧
    s.lastSeen.has (tokenDeposit "cid-1" "alice").key = false := by
  have he : (exec (step plainWatcher) init
      [.addDeposit 0 (tokenDeposit "cid-1" "alice"), .seedBlock 0 (.error "timeout"),
        .addDeposit 1 (tokenDeposit "cid-2" "bob")]).map
      (fun s => ((s.calls.values.map AddCall.rejected?, s.deposits.values),
        (s.timers.has (tokenDeposit "cid-1" "alice").key,
          s.lastSeen.has (tokenDeposit "cid-1" "alice").key))) =
      some (([some (tokenDeposit "cid-1" "alice"), some (tokenDeposit "cid-2" "bob")],
        [tokenDeposit "cid-1" "alice"]), (false, false)) := by
    decide +kernel
  obtain ⟨s, hs, heq⟩ := Option.map_eq_some_iff.mp he
  obtain ⟨hrecords, hmaps⟩ := Prod.mk.inj heq
  obtain ⟨hcalls, hdeposits⟩ := Prod.mk.inj hrecords
  obtain ⟨htimer, hcursor⟩ := Prod.mk.inj hmaps
  exact ⟨s, reach_of_exec hs, hcalls, hdeposits, htimer, hcursor⟩

end FinP2PAdapter.Deposits.ApprovalWatcher
