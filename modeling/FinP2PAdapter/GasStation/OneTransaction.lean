import FinP2PAdapter.GasStation.Prefunded

/-! The funding wallet's transactions. A call knows nothing of the others, so two of them
may have a transaction under way at once, or send one each for a wallet that needs one.
They do neither as long as a call that sends finds no transaction in flight and none
sent for its target by a call it has overlapped. -/

namespace FinP2PAdapter.GasStation

open Machine PlanApproval

namespace Call

/-- Its transaction is between `sendTransaction` and the moment its effect is observed;
a call that has given up observes nothing, and its transaction is in flight while the
node has it. -/
def inFlight (c : Call) : Bool :=
  match c.phase with
  | .sending | .polling => true
  | .failed => c.pending
  | _ => false

def endedBefore (c c' : Call) : Bool := c.ended.any (· ≤ c'.started)

/-- Both calls were running at some moment. -/
def Concurrent (c c' : Call) : Prop := c.endedBefore c' = false ∧ c'.endedBefore c = false

/-- A call that has not sent has no transaction, one that is sending has, and one that
runs has not ended. -/
structure Sound (c : Call) : Prop where
  unsent : (c.phase = .addressing ∨ ∃ seen, c.phase = .reading seen) → c.pending = false
  sent : c.inFlight = true → c.sent = true
  running : c.phase ≠ .returned → c.phase ≠ .failed → c.ended = none

variable {cfg : FundingConfig} {balance time : ℕ} {c c' x x' : Call} {e : CallEvent}

theorem sound_begin (request : FundingCall) (time : ℕ) : (begin request time).Sound :=
  ⟨fun _ => rfl, nofun, fun _ _ => rfl⟩

/-- A call sends from where nothing is in flight yet. -/
theorem phase_of_sends (h : c.sends cfg e = true) : c.phase = .addressing ∨
    ∃ seen, c.phase = .reading seen := by
  unfold sends at h
  split at h
  · split at h
    · rename_i seen hp
      exact .inr ⟨_, hp⟩
    · cases h
  · exact .inl (beq_iff_eq.mp h)
  · cases h

theorem Moves.eq_send (h : Moves cfg balance time c e c') (hsends : c.sends cfg e = true) :
    c' = c.send := by
  cases h with
  | enough hp hs => simp [Call.sends, hp, hs] at hsends
  | asks hp ha => simp [Call.sends, hp, ha] at hsends
  | sends => rfl
  | _ => cases hsends

/-- Only a step that sends puts a transaction in flight. -/
theorem Moves.inFlight (h : Moves cfg balance time c e c') (hc : c.Sound)
    (hsends : c.sends cfg e = false) (hflight : c'.inFlight = true) : c.inFlight = true := by
  cases h with
  | answered | enough | asks | observed => cases hflight
  | sends hs =>
    rw [hsends] at hs
    cases hs
  | taken hp | rejected hp => simp [Call.inFlight, hp]
  | mined hp =>
    unfold Call.inFlight at hflight ⊢
    split
    · rfl
    · rfl
    · exact hp
    · rename_i h₁ h₂ h₃
      split at hflight
      · exact absurd ‹_› h₁
      · exact absurd ‹_› h₂
      · exact absurd ‹_› h₃
      · cases hflight
  | fails hp =>
    -- a call that fails before it has sent has no transaction that could be in flight
    have hpending : c.pending = true := hflight
    rcases hp with hp | hp | hp
    · rw [hc.unsent (.inl hp)] at hpending
      cases hpending
    · simp [Call.inFlight, hp]
    · rw [hc.unsent (.inr hp)] at hpending
      cases hpending

theorem Moves.sent (h : Moves cfg balance time c e c') (hc : c.Sound) (hsends : c.sends cfg e = false)
    (hsent : c'.sent = true) : c.sent = true := by
  cases h with
  | sends hs =>
    rw [hsends] at hs
    cases hs
  | rejected hp => exact hc.sent (by simp [Call.inFlight, hp])
  | _ => exact hsent

theorem Moves.started (h : Moves cfg balance time c e c') : c'.started = c.started := by
  cases h <;> rfl

/-- A call that has ended stays as it ended. -/
theorem Moves.ended (h : Moves cfg balance time c e c') (hc : c.Sound) {t : ℕ} (ht : c.ended = some t) :
    c'.ended = some t := by
  have hdone : c.phase = .returned ∨ c.phase = .failed := by
    by_contra hne
    rw [not_or] at hne
    rw [hc.running hne.1 hne.2] at ht
    cases ht
  cases h with
  | enough hp | observed hp | rejected hp => simp [hp] at hdone
  | fails hp =>
    rcases hp with hp | hp | ⟨seen, hp⟩ <;> simp [hp] at hdone
  | _ => exact ht

theorem Moves.sound (h : Moves cfg balance time c e c') (hc : c.Sound) : c'.Sound := by
  have hrunning : ∀ p : Phase, c.phase = p → p ≠ .returned → p ≠ .failed → c.ended = none :=
    fun p hp h₁ h₂ => hc.running (hp ▸ h₁) (hp ▸ h₂)
  cases h with
  | answered hp =>
    exact ⟨fun _ => hc.unsent (.inr ⟨_, hp⟩), nofun, fun _ _ => hrunning _ hp nofun nofun⟩
  | enough hp => exact ⟨by simp [finish], nofun, fun h => absurd rfl h⟩
  | asks hp => exact ⟨fun _ => hc.unsent (.inr ⟨_, hp⟩), nofun, fun _ _ => hrunning _ hp nofun nofun⟩
  | sends hs =>
    refine ⟨by simp [send], fun _ => rfl, fun _ _ => ?_⟩
    rcases phase_of_sends hs with hp | ⟨seen, hp⟩
    · exact hrunning _ hp nofun nofun
    · exact hrunning _ hp nofun nofun
  | taken hp =>
    exact ⟨by simp, fun _ => hc.sent (by simp [Call.inFlight, hp]),
      fun _ _ => hrunning _ hp nofun nofun⟩
  | rejected hp => exact ⟨by simp [finish], by simp [Call.inFlight, finish], fun _ h => absurd rfl h⟩
  | mined hp =>
    have hflight : ({ c with pending := false } : Call).inFlight = true → c.inFlight = true :=
      Moves.inFlight (.mined hp : Moves cfg balance time c .mined _) hc rfl
    exact ⟨fun _ => rfl, fun hf => hc.sent (hflight hf), hc.running⟩
  | observed hp => exact ⟨by simp [finish], nofun, fun h => absurd rfl h⟩
  | fails hp =>
    have hflight : (c.finish .failed time).inFlight = true → c.inFlight = true :=
      Moves.inFlight (.fails hp : Moves cfg balance time c .fails _) hc rfl
    exact ⟨by simp [finish], fun hf => hc.sent (hflight hf), fun _ h => absurd rfl h⟩

/-- `c'` is `c` later on, and has sent nothing since. -/
structure Trails (c c' : Call) : Prop where
  target : c'.request.target = c.request.target
  started : c'.started = c.started
  inFlight : c'.inFlight = true → c.inFlight = true
  sent : c'.sent = true → c.sent = true
  ended : ∀ t, c.ended = some t → c'.ended = some t

theorem Trails.refl (c : Call) : c.Trails c := ⟨rfl, rfl, id, id, fun _ => id⟩

theorem Moves.trails (h : Moves cfg balance time c e c') (hc : c.Sound)
    (hsends : c.sends cfg e = false) : c.Trails c' :=
  ⟨by rw [h.request], h.started, h.inFlight hc hsends, h.sent hc hsends, fun _ => h.ended hc⟩

/-- Calls that were apart stay apart. -/
theorem Trails.endedBefore (h : c.Trails c') (hx : x.Trails x') (hbefore : c.endedBefore x = true) :
    c'.endedBefore x' = true := by
  simp only [Call.endedBefore, Option.any_eq_true] at hbefore ⊢
  obtain ⟨t, ht, hle⟩ := hbefore
  exact ⟨t, h.ended t ht, by rw [hx.started]; exact hle⟩

end Call

/-- No transaction is in flight, and none was sent for the call's target by a call that
it has overlapped. -/
def State.ClearFor (s : State) (id : ℕ) (c : Call) : Prop :=
  ∀ j < s.next, ∀ cj ∈ s.calls j, cj.inFlight = false ∧
    (j ≠ id → cj.request.target = c.request.target → cj.sent = true → cj.endedBefore c = true)

/-- A call that sends a transaction finds the way clear. -/
def Alone (cfg : FundingConfig) (s : State) : Action → Prop
  | .call id e => ∀ c ∈ s.calls id, c.sends cfg e = true → s.ClearFor id c
  | _ => True

/-- The transactions of the calls keep apart. -/
structure Apart (s : State) : Prop where
  sound : ∀ id c, s.calls id = some c → c.Sound
  single : ∀ i j ci cj, s.calls i = some ci → s.calls j = some cj → ci.inFlight = true →
    cj.inFlight = true → i = j
  once : ∀ i j ci cj, s.calls i = some ci → s.calls j = some cj → i ≠ j →
    ci.request.target = cj.request.target →
    ci.sent = true → cj.sent = true → ci.endedBefore cj = true ∨ cj.endedBefore ci = true

/-- Steps that send nothing keep the calls apart. -/
theorem Apart.of_trails {s s' : State} (hs : Apart s) (h : ∀ k c', s'.calls k = some c' →
    c'.Sound ∧ ((∃ c, s.calls k = some c ∧ c.Trails c') ∨ c'.inFlight = false ∧ c'.sent = false)) :
      Apart s' := by
  refine ⟨fun k c' hc' => (h k c' hc').1, fun i j ci cj hi hj hfi hfj => ?_,
    fun i j ci cj hi hj hne ht hsi hsj => ?_⟩
  · obtain ⟨di, hdi, hti⟩ | ⟨hnone, -⟩ := (h i ci hi).2
    · obtain ⟨dj, hdj, htj⟩ | ⟨hnone, -⟩ := (h j cj hj).2
      · exact hs.single i j di dj hdi hdj (hti.inFlight hfi) (htj.inFlight hfj)
      · rw [hnone] at hfj
        cases hfj
    · rw [hnone] at hfi
      cases hfi
  · obtain ⟨di, hdi, hti⟩ | ⟨-, hnone⟩ := (h i ci hi).2
    · obtain ⟨dj, hdj, htj⟩ | ⟨-, hnone⟩ := (h j cj hj).2
      · have htarget : di.request.target = dj.request.target := by rw [← hti.target, ← htj.target, ht]
        rcases hs.once i j di dj hdi hdj hne htarget (hti.sent hsi) (htj.sent hsj) with hb | hb
        · exact .inl (hti.endedBefore htj hb)
        · exact .inr (htj.endedBefore hti hb)
      · rw [hnone] at hsj
        cases hsj
    · rw [hnone] at hsi
      cases hsi

/-- A call that sends with the way clear keeps the calls apart. -/
theorem Apart.of_send {s s' : State} {id : ℕ} {c : Call} (hs : Apart s)
    (hfresh : ∀ k, s.next ≤ k → s.calls k = none)
    (hc : s.calls id = some c) (hclear : s.ClearFor id c) (hsound : c.send.Sound)
    (hcalls : s'.calls = Function.update s.calls id (some c.send)) : Apart s' := by
  have hother : ∀ k ck, s'.calls k = some ck → k ≠ id → s.calls k = some ck := by
    intro k ck hk hne
    rwa [hcalls, Function.update_of_ne hne] at hk
  have hself : ∀ ck, s'.calls id = some ck → ck = c.send := by
    intro ck hk
    rw [hcalls, Function.update_self] at hk
    exact (Option.some.inj hk).symm
  have hclear' : ∀ k ck, s'.calls k = some ck → k ≠ id → ck.inFlight = false ∧
      (ck.request.target = c.request.target → ck.sent = true → ck.endedBefore c = true) := by
    intro k ck hk hne
    have hck := hother k ck hk hne
    have hlt : k < s.next := by
      by_contra hge
      rw [hfresh k (by omega)] at hck
      cases hck
    exact ⟨(hclear k hlt ck hck).1, (hclear k hlt ck hck).2 hne⟩
  refine ⟨fun k ck hk => ?_, fun i j ci cj hi hj hfi hfj => ?_,
    fun i j ci cj hi hj hne ht hsi hsj => ?_⟩
  · by_cases hk' : k = id
    · subst hk'
      rw [hself ck hk]
      exact hsound
    · exact hs.sound k ck (hother k ck hk hk')
  · by_cases hid : i = id
    · by_cases hjd : j = id
      · rw [hid, hjd]
      · rw [(hclear' j cj hj hjd).1] at hfj
        cases hfj
    · rw [(hclear' i ci hi hid).1] at hfi
      cases hfi
  · by_cases hid : i = id
    · subst hid
      cases hself ci hi
      exact .inr ((hclear' j cj hj hne.symm).2 ht.symm hsj)
    · by_cases hjd : j = id
      · subst hjd
        cases hself cj hj
        exact .inl ((hclear' i ci hi hid).2 ht hsi)
      · exact hs.once i j ci cj (hother i ci hi hid) (hother j cj hj hjd) hne ht hsi hsj

theorem Apart.step {cfg : FundingConfig} {s s' : State} {a : Action} (hs : Apart s)
    (hcons : Consistent cfg s) (ha : Alone cfg s a) (h : Steps cfg s a s') : Apart s' := by
  have hsame : ∀ k c, s.calls k = some c →
      c.Sound ∧ ((∃ d, s.calls k = some d ∧ d.Trails c) ∨ c.inFlight = false ∧ c.sent = false) :=
    fun k c hc => ⟨hs.sound k c hc, .inl ⟨c, hc, .refl c⟩⟩
  cases h with
  | begins | credited | spent => exact hs.of_trails hsame
  | @advances job j request queue =>
    have hbegin := Call.sound_begin request s.time
    exact hs.of_trails fun k c hc => forall_update hsame ⟨hbegin, .inr ⟨rfl, rfl⟩⟩ hc
  | @moves id e c c' hcall hmoves =>
    have hsound := hs.sound id c hcall
    cases hsends : c.sends cfg e with
    | true =>
      cases hmoves.eq_send hsends
      exact hs.of_send hcons.fresh hcall (ha c hcall hsends) (hmoves.sound hsound) rfl
    | false =>
      have htrails := hmoves.trails hsound hsends
      exact hs.of_trails fun k d hd =>
        forall_update hsame ⟨hmoves.sound hsound, .inl ⟨c, hcall, htrails⟩⟩ hd

/-- At most one transaction is in flight, and of concurrent calls for one target at most
one has sent a transaction. -/
structure Separate (s : State) : Prop where
  single : ∀ i j ci cj, s.calls i = some ci → s.calls j = some cj → ci.inFlight = true →
    cj.inFlight = true → i = j
  once : ∀ i j ci cj, s.calls i = some ci → s.calls j = some cj → i ≠ j →
    ci.request.target = cj.request.target → ci.Concurrent cj → ¬ (ci.sent = true ∧ cj.sent = true)

theorem Apart.separate {s : State} (hs : Apart s) : Separate s := by
  refine ⟨hs.single, fun i j ci cj hi hj hne htarget hconc hsent => ?_⟩
  rcases hs.once i j ci cj hi hj hne htarget hsent.1 hsent.2 with hbefore | hbefore
  · rw [hconc.1] at hbefore
    cases hbefore
  · rw [hconc.2] at hbefore
    cases hbefore

def AllSound (s : State) : Prop := ∀ id c, s.calls id = some c → c.Sound

theorem AllSound.step {cfg : FundingConfig} {s s' : State} {a : Action} (hs : AllSound s)
    (h : Steps cfg s a s') : AllSound s' := by
  intro id c hc
  cases h with
  | begins | credited | spent => exact hs id c hc
  | advances => exact forall_update hs (Call.sound_begin _ _) hc
  | moves hcall hmoves => exact forall_update hs (hmoves.sound (hs _ _ hcall)) hc

/-- A call that sends with another transaction in its way breaks the rule there and then. -/
theorem not_separate_of_not_alone {cfg : FundingConfig} {s s' : State} {a : Action}
    (hsound : AllSound s) (h : Steps cfg s a s') (ha : ¬ Alone cfg s a) : ¬ Separate s' := by
  intro hs
  cases h with
  | begins hcall =>
    cases a with
    | call id e => exact hcall id e rfl
    | _ => exact ha trivial
  | advances | credited | spent => exact ha trivial
  | @moves id e c c' hcall hmoves =>
    refine ha fun d hd hsends j _ cj hcj => ?_
    cases hcall.symm.trans hd
    cases hmoves.eq_send hsends
    have hself : Function.update s.calls id (some c.send) id = some c.send := Function.update_self ..
    by_cases hj : j = id
    · subst hj
      cases hcall.symm.trans hcj
      refine ⟨?_, fun hne => absurd rfl hne⟩
      rcases Call.phase_of_sends hsends with hp | ⟨seen, hp⟩ <;> simp [Call.inFlight, hp]
    · have hother : Function.update s.calls id (some c.send) j = some cj :=
        (Function.update_of_ne hj ..).trans hcj
      constructor
      · by_contra hflight
        exact hj (hs.single j id cj c.send hother hself (by simpa using hflight) rfl)
      · intro _ htarget hsent
        by_contra hbefore
        have hrunning : c.send.ended = none := (hmoves.sound (hsound id c hcall)).running nofun nofun
        have hconc : cj.Concurrent c.send :=
          ⟨(Bool.eq_false_iff.mpr hbefore : cj.endedBefore c = false),
            by simp [Call.endedBefore, hrunning]⟩
        exact hs.once j id cj c.send hother hself hj htarget hconc ⟨hsent, rfl⟩

/-- In every interleaving of approvals, onboardings and polls whose calls find the way
clear when they send, at most one transaction is in flight at any moment, and of
concurrent calls for one target at most one sends a transaction. A call that sends
without a clear way ends that in any run. -/
theorem one_funding_transaction (cfg : FundingConfig) (balance : String → ℕ) :
    (∀ s, ReachUnder (step cfg) (Alone cfg) (State.init balance) s → Separate s) ∧
    ∀ s a s', Reach (step cfg) (State.init balance) s → step cfg s a = some s' → ¬ Alone cfg s a →
      ¬ Separate s' := by
  constructor
  · intro s h
    have hapart : Apart s := h.invariant_from (fun _ hr => consistent_run hr)
      ⟨by simp [State.init], by simp [State.init], by simp [State.init]⟩
      fun _ _ _ hcons hs ha hstep => hs.step hcons ha (steps_of_step hstep)
    exact hapart.separate
  · intro s a s' h hstep ha
    have hsound : AllSound s :=
      h.invariant (by simp [AllSound, State.init]) fun _ _ _ hs _ hstep => hs.step (steps_of_step hstep)
    exact not_separate_of_not_alone hsound (steps_of_step hstep) ha

/-! ### Two approvals at once -/

instance (s : State) (id : ℕ) (c : Call) : Decidable (s.ClearFor id c) :=
  inferInstanceAs (Decidable (∀ j < s.next, ∀ cj ∈ s.calls j, _))

instance (cfg : FundingConfig) (s : State) (a : Action) : Decidable (Alone cfg s a) :=
  match a with
  | .call id e => inferInstanceAs (Decidable (∀ c ∈ s.calls id, c.sends cfg e = true → s.ClearFor id c))
  | .approve _ _ | .onboard _ _ | .poll _ _ | .next _ | .credited _ _ | .spent _ _ => .isTrue trivial

/-- One plan after the other keeps the transactions apart. -/
theorem shared_top_up_separate : ∃ s,
    ReachUnder (step aliceFunding) (Alone aliceFunding) (State.init fun _ => 0) s ∧ Separate s := by
  have hrun : (exec (guarded (step aliceFunding) (Alone aliceFunding))
      (State.init fun _ => 0) sharedTopUp).isSome :=
    by decide +kernel
  obtain ⟨s, hs⟩ := Option.isSome_iff_exists.mp hrun
  have hreach := reachUnder_of_exec hs
  exact ⟨s, hreach, (one_funding_transaction aliceFunding _).1 s hreach⟩

/-- Two approvals both read alice's balance before either has sent. -/
def overlappingTopUps : List Action :=
  [.approve 0 (alicePlan "plan-1"), .approve 1 (alicePlan "plan-2"), .next 0, .next 1,
    .call 0 .answered, .call 1 .answered, .call 0 .read, .call 1 .read]

/-- Both have a transaction for her in flight, and have sent her one each. -/
theorem overlapping_approvals_fund_twice : ∃ s c c',
    Reach (step aliceFunding) (State.init fun _ => 0) s ∧ s.calls 0 = some c ∧ s.calls 1 = some c' ∧
    c.inFlight = true ∧ c'.inFlight = true ∧ c.request.target = c'.request.target ∧ c.Concurrent c' ∧
    c.sent = true ∧ c'.sent = true ∧ ¬ Separate s := by
  have hrun : (exec (step aliceFunding) (State.init fun _ => 0) overlappingTopUps).map
      (fun s => (s.calls 0, s.calls 1)) =
        some (some ⟨.ensureGas "0xA1" 1, 2, .sending, none, true, true⟩,
          some ⟨.ensureGas "0xA1" 1, 3, .sending, none, true, true⟩) := by
    decide +kernel
  obtain ⟨s, hs, hcalls⟩ := Option.map_eq_some_iff.mp hrun
  obtain ⟨hfirst, hsecond⟩ := Prod.mk.inj hcalls
  refine ⟨s, _, _, reach_of_exec hs, hfirst, hsecond, rfl, rfl, rfl, ⟨rfl, rfl⟩, rfl, rfl,
    fun hsep => ?_⟩
  have heq := hsep.single 0 1 _ _ hfirst hsecond rfl rfl
  omega

end FinP2PAdapter.GasStation
