import FinP2PAdapter.GasStation.Funding

/-! What an approved plan can count on. As long as nothing is spent, a wallet that a
call has returned for keeps what the call asked for; a plan's calls ask for all that
its signers need for it. They do not ask for what other plans need. -/

namespace FinP2PAdapter.GasStation

open Machine PlanApproval GasPrefundingOption

/-- Nothing of the plans has executed yet: no wallet spends. -/
def Unspent (_ : State) : Action → Prop
  | .spent _ _ => False
  | _ => True

instance (s : State) (a : Action) : Decidable (Unspent s a) :=
  match a with
  | .spent _ _ => .isFalse id
  | .approve _ _ | .onboard _ _ | .poll _ _ | .next _ | .call _ _ | .credited _ _ => .isTrue trivial

/-- The plan's approval has ended with every top-up made. -/
def Approved (s : State) (plan : IntrospectedPlan) : Prop :=
  ∃ job j, s.jobs job = some j ∧ j.plan = some plan ∧ j.queue = [] ∧
    ∀ m ∈ j.made, ∃ c, s.calls m.1 = some c ∧ c.phase = .returned

/-! ### Calls -/

/-- What a call has seen of its target's balance, it still has. -/
def Call.Funded (cfg : FundingConfig) (balance : ℕ) (c : Call) : Prop :=
  match c.phase with
  | .reading (some seen) => seen ≤ balance
  | .returned => c.request.satisfied cfg balance = true
  | _ => True

theorem FundingCall.satisfied_mono {cfg : FundingConfig} {request : FundingCall} {b b' : ℕ} (h : b ≤ b')
    (hs : request.satisfied cfg b = true) : request.satisfied cfg b' = true := by
  cases request with
  | ensureGas address txCount =>
    simp only [FundingCall.satisfied, decide_eq_true_eq] at hs ⊢
    omega
  | ensureActivated address =>
    simp only [FundingCall.satisfied, decide_eq_true_eq] at hs ⊢
    omega

theorem Call.Funded.mono {cfg : FundingConfig} {c : Call} {b b' : ℕ} (h : b ≤ b')
    (hc : c.Funded cfg b) : c.Funded cfg b' := by
  unfold Call.Funded at hc ⊢
  split
  · rename_i seen hp
    simp only [hp] at hc
    omega
  · rename_i hp
    simp only [hp] at hc
    exact FundingCall.satisfied_mono h hc
  · trivial

theorem Call.Moves.funded {cfg : FundingConfig} {c c' : Call} {b t : ℕ} {e : CallEvent}
    (h : c.Moves cfg b t e c') (hc : c.Funded cfg b) : c'.Funded cfg b := by
  cases h with
  | answered => exact Nat.le_refl b
  | enough hp hs =>
    unfold Call.Funded at hc
    simp only [hp] at hc
    exact FundingCall.satisfied_mono hc hs
  | mined => exact hc
  | observed hp hs => exact hs
  | _ => trivial

/-! ### Runs -/

variable {cfg : FundingConfig} {s s' : State}

theorem Steps.balance_mono {a : Action} (h : Steps cfg s a s') (ha : Unspent s a) (account : String) :
    s.balance account ≤ s'.balance account := by
  have hupdate : ∀ (k : String) (v : ℕ), s.balance account ≤
      Function.update s.balance k (s.balance k + v) account := by
    intro k v
    rw [Function.update_apply]
    split_ifs with hk
    · subst hk
      omega
    · exact Nat.le_refl _
  cases h with
  | moves hc hmoves =>
    dsimp only
    split_ifs
    · exact hupdate _ _
    · exact Nat.le_refl _
  | credited => exact hupdate _ _
  | spent => exact ha.elim
  | _ => exact Nat.le_refl _

/-- Every call's target holds what the call has seen. -/
def AllFunded (cfg : FundingConfig) (s : State) : Prop :=
  ∀ id c, s.calls id = some c → c.Funded cfg (s.balance c.request.target)

theorem AllFunded.step {a : Action} (hs : AllFunded cfg s) (ha : Unspent s a) (h : Steps cfg s a s') :
    AllFunded cfg s' := by
  have hmono := h.balance_mono ha
  have hold : ∀ id c, s.calls id = some c → c.Funded cfg (s'.balance c.request.target) :=
    fun id c hc => (hs id c hc).mono (hmono _)
  intro id c hc
  cases h with
  | begins => exact hold id c hc
  | advances =>
    refine forall_update hold ?_ hc
    trivial
  | moves hcall hmoves =>
    refine forall_update hold ?_ hc
    have hfunded := hmoves.funded (hs _ _ hcall)
    rw [hmoves.request]
    exact hfunded.mono (hmono _)
  | credited => exact hold id c hc
  | spent => exact ha.elim

/-- Jobs and the calls they have made. -/
structure Consistent (cfg : FundingConfig) (s : State) : Prop where
  fresh : ∀ id, s.next ≤ id → s.calls id = none
  made : ∀ job j, s.jobs job = some j → ∀ m ∈ j.made, ∃ c, s.calls m.1 = some c ∧ c.request = m.2
  planned : ∀ job j plan, s.jobs job = some j → j.plan = some plan →
    (j.made.map Prod.snd).reverse ++ j.queue = prefunding cfg plan

/-- A call that was there is there after a step, with its request. -/
theorem Consistent.call_kept {a : Action} (hs : Consistent cfg s) (h : Steps cfg s a s') {id : ℕ}
    {c : Call}
    (hc : s.calls id = some c) : ∃ c', s'.calls id = some c' ∧ c'.request = c.request := by
  cases h with
  | advances =>
    have hne : id ≠ s.next := by
      rintro rfl
      rw [hs.fresh _ (Nat.le_refl _)] at hc
      cases hc
    exact ⟨c, (Function.update_of_ne hne ..).trans hc, rfl⟩
  | @moves id' e c₁ c' hcall hmoves =>
    by_cases hid : id = id'
    · subst hid
      cases hc.symm.trans hcall
      exact ⟨c', Function.update_self .., hmoves.request⟩
    · exact ⟨c, (Function.update_of_ne hid ..).trans hc, rfl⟩
  | _ => exact ⟨c, hc, rfl⟩

theorem Consistent.step {a : Action} (hs : Consistent cfg s) (h : Steps cfg s a s') :
    Consistent cfg s' := by
  have hkept : ∀ m : ℕ × FundingCall, (∃ c, s.calls m.1 = some c ∧ c.request = m.2) →
      ∃ c, s'.calls m.1 = some c ∧ c.request = m.2 := by
    rintro m ⟨c, hc, hreq⟩
    obtain ⟨c', hc', hreq'⟩ := hs.call_kept h hc
    exact ⟨c', hc', hreq'.trans hreq⟩
  cases h with
  | @begins a job plan queue ha hfree hqueue =>
    refine ⟨hs.fresh, fun job' j hj => ?_, fun job' j p hj => ?_⟩
    · exact forall_update (fun job' j hj m hm => hkept m (hs.made job' j hj m hm))
        (fun m hm => by cases hm) hj
    · exact forall_update (fun job' j hj hp => hs.planned job' j p hj hp) (hqueue p) hj
  | @advances job j request queue hjob hqueue =>
    refine ⟨fun id hid => ?_, fun job' j' hj => ?_, fun job' j' p hj => ?_⟩
    · dsimp only at hid ⊢
      rw [Function.update_of_ne (by omega)]
      exact hs.fresh id (by omega)
    · refine forall_update (fun job' j hj m hm => hkept m (hs.made job' j hj m hm)) (fun m hm => ?_) hj
      rcases List.mem_cons.mp hm with rfl | hm
      · exact ⟨_, Function.update_self .., rfl⟩
      · exact hkept m (hs.made job j hjob m hm)
    · refine forall_update (fun job' j hj hp => hs.planned job' j p hj hp) (fun hp => ?_) hj
      rw [← hs.planned job j p hjob hp, hqueue]
      simp
  | @moves id e c c' hcall hmoves =>
    refine ⟨fun id' hid => ?_, fun job j hj m hm => hkept m (hs.made job j hj m hm), hs.planned⟩
    have hne : id' ≠ id := by
      rintro rfl
      rw [hs.fresh id' hid] at hcall
      cases hcall
    dsimp only
    rw [Function.update_of_ne hne]
    exact hs.fresh id' hid
  | credited => exact ⟨hs.fresh, hs.made, hs.planned⟩
  | spent => exact ⟨hs.fresh, hs.made, hs.planned⟩

theorem consistent_run {ok : State → Action → Prop} {balance : String → ℕ}
    (h : ReachUnder (step cfg) ok (State.init balance) s) : Consistent cfg s :=
  h.invariant ⟨fun _ _ => rfl, by simp [State.init], by simp [State.init]⟩
    fun _ _ _ hs _ hstep => hs.step (steps_of_step hstep)

/-- The wallet holds what an approved plan's instructions ask of its address. -/
theorem Approved.prefunded {plan : IntrospectedPlan} (hplan : Approved s plan) (hcons : Consistent cfg s)
    (hfunded : AllFunded cfg s) (address : String) :
    cfg.amount * signedBy cfg.accountMapping plan address ≤ s.balance address.toLower := by
  obtain ⟨job, j, hjob, hj, hqueue, hreturned⟩ := hplan
  rcases Nat.eq_zero_or_pos (signedBy cfg.accountMapping plan address) with hzero | hpos
  · rw [hzero]
    omega
  have hcall : FundingCall.ensureGas address
      (signedBy cfg.accountMapping plan address) ∈ prefunding cfg plan :=
    List.mem_map.mpr ⟨_, mem_txCounts hpos, rfl⟩
  rw [← hcons.planned job j plan hjob hj, hqueue, List.append_nil, List.mem_reverse,
    List.mem_map] at hcall
  obtain ⟨m, hm, hrequest⟩ := hcall
  obtain ⟨c, hc, hphase⟩ := hreturned m hm
  obtain ⟨c', hc', hreq⟩ := hcons.made job j hjob m hm
  cases hc.symm.trans hc'
  have hsat := hfunded m.1 c hc
  simp only [Call.Funded, hphase, hreq, hrequest, FundingCall.satisfied, FundingCall.target,
    decide_eq_true_eq] at hsat
  rw [Nat.max_eq_right hpos] at hsat
  exact hsat

/-- In every run of approvals, onboardings and polls, however they interleave, in which
nothing has been spent: for each approved plan the wallet at each address holds the
configured amount for every instruction of the plan that it signs. Instructions are counted
for each address as it is spelled, so for each account if the mapping spells it in one way. -/
theorem approved_plan_prefunded (cfg : FundingConfig) (balance : String → ℕ) (s : State)
    (h : ReachUnder (step cfg) Unspent (State.init balance) s) (plan : IntrospectedPlan)
    (hplan : Approved s plan) (address : String) :
    cfg.amount * signedBy cfg.accountMapping plan address ≤ s.balance address.toLower ∧
      (SpelledOnce cfg.accountMapping →
        cfg.amount * signedByAccount cfg.accountMapping plan address.toLower ≤ s.balance address.toLower) := by
  have hfunded : AllFunded cfg s :=
    h.invariant (by simp [AllFunded, State.init]) fun _ _ _ hs ha hstep =>
      hs.step ha (steps_of_step hstep)
  have hprefunded := hplan.prefunded (consistent_run h) hfunded
  refine ⟨hprefunded address, fun hspelled => ?_⟩
  rcases Nat.eq_zero_or_pos (signedByAccount cfg.accountMapping plan address.toLower) with hzero | hpos
  · rw [hzero]
    omega
  · obtain ⟨spelled, hsame, hcount⟩ := signedByAccount_spelledOnce hspelled plan hpos
    rw [hcount, ← hsame]
    exact hprefunded spelled

/-! ### Two plans of one investor -/

def aliceFunding : FundingConfig :=
  ⟨5, 1, fun finId => .ok (if finId = "alice" then some "0xA1" else none)⟩

/-- A plan with one transfer of alice's. -/
def alicePlan (planId : String) : IntrospectedPlan where
  planId := planId
  orgId := "bank-us"
  raw := ⟨.absent⟩
  instructions := [⟨some 1, some "transfer", ["bank-us"], true, some "alice", none, none, none,
    some "asset-1", some "1.0"⟩]

/-- The job is an approval of the plan that has ended with every top-up made. -/
def State.approves (s : State) (job : ℕ) (plan : IntrospectedPlan) : Bool :=
  (s.jobs job).any fun j => decide (j.plan = some plan) && j.queue.isEmpty &&
    j.made.all fun m => (s.calls m.1).any fun c => decide (c.phase = .returned)

theorem approved_of_approves {s : State} {job : ℕ} {plan : IntrospectedPlan}
    (h : s.approves job plan = true) : Approved s plan := by
  simp only [State.approves, Option.any_eq_true, Bool.and_eq_true, decide_eq_true_eq, List.isEmpty_iff,
    List.all_eq_true] at h
  obtain ⟨j, hj, ⟨hplan, hqueue⟩, hmade⟩ := h
  exact ⟨job, j, hj, hplan, hqueue, hmade⟩

/-- The first plan's approval tops alice up; the second's finds her funded. -/
def sharedTopUp : List Action :=
  [.approve 0 (alicePlan "plan-1"), .next 0, .call 0 .answered, .call 0 .read, .call 0 .taken,
    .call 0 .mined,
    .call 0 .observed, .approve 1 (alicePlan "plan-2"), .next 1, .call 1 .answered, .call 1 .read]

theorem shared_top_up_run : ∃ s, ReachUnder (step aliceFunding) Unspent (State.init fun _ => 0) s ∧
    Approved s (alicePlan "plan-1") ∧ Approved s (alicePlan "plan-2") ∧ s.balance "0xa1" = 5 := by
  have hrun : (exec (guarded (step aliceFunding) Unspent) (State.init fun _ => 0) sharedTopUp).map
      (fun s => s.approves 0 (alicePlan "plan-1") && s.approves 1 (alicePlan "plan-2") &&
        decide (s.balance "0xa1" = 5)) = some true := by
    decide +kernel
  obtain ⟨s, hs, hchecks⟩ := Option.map_eq_some_iff.mp hrun
  simp only [Bool.and_eq_true, decide_eq_true_eq] at hchecks
  exact ⟨s, reachUnder_of_exec hs, approved_of_approves hchecks.1.1,
    approved_of_approves hchecks.1.2, hchecks.2⟩

/-- What alice holds is enough for the second plan. -/
theorem second_plan_prefunded : ∃ s, Approved s (alicePlan "plan-2") ∧
    5 * signedBy aliceFunding.accountMapping (alicePlan "plan-2") "0xA1" ≤
      s.balance "0xA1".toLower := by
  obtain ⟨s, hs, -, hplan, -⟩ := shared_top_up_run
  exact ⟨s, hplan, (approved_plan_prefunded aliceFunding _ s hs (alicePlan "plan-2") hplan "0xA1").1⟩

/-- It is not enough for both. -/
theorem two_plans_underfunded : ∃ s, ReachUnder (step aliceFunding) Unspent (State.init fun _ => 0) s ∧
    Approved s (alicePlan "plan-1") ∧ Approved s (alicePlan "plan-2") ∧
    s.balance "0xA1".toLower < aliceFunding.amount *
      (signedBy aliceFunding.accountMapping (alicePlan "plan-1") "0xA1" +
      signedBy aliceFunding.accountMapping (alicePlan "plan-2") "0xA1") := by
  obtain ⟨s, hs, hfirst, hsecond, hbalance⟩ := shared_top_up_run
  refine ⟨s, hs, hfirst, hsecond, ?_⟩
  rw [show "0xA1".toLower = "0xa1" by decide +kernel, hbalance]
  decide +kernel

end FinP2PAdapter.GasStation
