import FinP2PAdapter.Deposits.PullPlugin

/-! One open deposit a contract, over all watchers of a plugin. Each watcher keeps
the rule for itself, so it holds for the plugin as long as only one is ever
created: as long as no call that found no watcher comes back from its await to
find that another call has created one. -/

namespace FinP2PAdapter.Deposits.PullDepositPlugin

open Machine
open ApprovalWatcher (PullDeposit Records Tracked Known CallFor)

/-- A `getWatcher` that goes on to create a watcher finds none created meanwhile. -/
def CreatesOnce (s : State) : Action → Prop
  | .signer _ (.ok _) => s.watcher = none
  | _ => True

instance (s : State) (a : Action) : Decidable (CreatesOnce s a) := by
  unfold CreatesOnce
  split <;> infer_instance

/-- The open deposits of a contract, over every watcher the plugin has created. -/
def openDeposits (s : State) (contractAddress : String) : List PullDeposit :=
  (s.watchers.flatMap fun ws => ws.deposits.values).filter fun d => d.key = contractAddress.toLower

/-! ### Watchers and their calls -/

/-- The plugin has created at most one watcher, the one it keeps; a call that has
added a deposit is one of its watcher's calls; and a deposit answered with success
is open or reported there. -/
structure Single (s : State) : Prop where
  watchers : s.watcher = none ∧ s.watchers = [] ∨ s.watcher = some 0 ∧ ∃ ws, s.watchers = [ws]
  records : ∀ ws ∈ s.watchers, Records ws ∧ Tracked ws
  adding : ∀ c w d operatorAddress, s.calls.get? c = some (.addDeposit w d operatorAddress) →
    ∃ ws, s.watchers[w]? = some ws ∧ CallFor ws c d
  answered : ∀ c instruction, s.calls.get? c = some (.answered (.successful instruction)) →
    ∃ w ws, s.watcher = some w ∧ s.watchers[w]? = some ws ∧ Known ws instruction.operationId

theorem single_init : Single init where
  watchers := .inl ⟨rfl, rfl⟩
  records := by
    intro ws hws
    cases hws
  adding := by
    intro c w d operatorAddress hc
    cases hc
  answered := by
    intro c instruction hc
    cases hc

section Steps

variable {s : State}

theorem getElem?_setWatcher {w : ℕ} {ws ws' : ApprovalWatcher.State}
    (hws : s.watchers[w]? = some ws) (i : ℕ) :
    (s.setWatcher w ws').watchers[i]? = if i = w then some ws' else s.watchers[i]? := by
  have hlt : w < s.watchers.length := (List.getElem?_eq_some_iff.mp hws).1
  rw [State.setWatcher, List.getElem?_set]
  by_cases hi : i = w
  · subst hi
    rw [if_pos rfl, if_pos hlt, if_pos rfl]
  · rw [if_neg fun he => hi he.symm, if_neg hi]

/-- A call that does not concern a watcher. -/
theorem Single.setCall (h : Single s) (c : ℕ) {call : DepositCall}
    (hadd : ∀ w d operatorAddress, call = .addDeposit w d operatorAddress →
      ∃ ws, s.watchers[w]? = some ws ∧ CallFor ws c d)
    (hanswer : ∀ instruction, call = .answered (.successful instruction) →
      ∃ w ws, s.watcher = some w ∧ s.watchers[w]? = some ws ∧ Known ws instruction.operationId) :
    Single (s.setCall c call) where
  watchers := h.watchers
  records := h.records
  adding := by
    intro c' w d operatorAddress hc
    rw [State.setCall, JsMap.get?_set] at hc
    split_ifs at hc with he
    · rw [he]
      exact hadd w d operatorAddress (Option.some.inj hc)
    · exact h.adding c' w d operatorAddress hc
  answered := by
    intro c' instruction hc
    rw [State.setCall, JsMap.get?_set] at hc
    split_ifs at hc
    · exact hanswer instruction (Option.some.inj hc)
    · exact h.answered c' instruction hc

/-- What the watchers have on record is kept by a step of one of them. -/
theorem records_setWatcher {cfg : Config} {s : State} (h : ∀ ws ∈ s.watchers, Records ws ∧ Tracked ws) {w : ℕ}
    {ws ws' : ApprovalWatcher.State} {a : ApprovalWatcher.Action} (hws : s.watchers[w]? = some ws)
    (hs : ApprovalWatcher.step cfg.watcher ws a = some ws') :
    ∀ other ∈ (s.setWatcher w ws').watchers, Records other ∧ Tracked other := by
  intro other hother
  rcases List.mem_or_eq_of_mem_set hother with hold | rfl
  · exact h other hold
  · obtain ⟨hrec, htracked⟩ := h ws (List.mem_of_getElem? hws)
    exact ⟨hrec.step (ApprovalWatcher.recorded_step rfl hs), htracked.step rfl hrec hs⟩

/-- A watcher takes a step. -/
theorem Single.setWatcher {cfg : Config} (h : Single s) {w : ℕ} {ws ws' : ApprovalWatcher.State}
    {a : ApprovalWatcher.Action} (hws : s.watchers[w]? = some ws)
    (hs : ApprovalWatcher.step cfg.watcher ws a = some ws') : Single (s.setWatcher w ws') where
  watchers := by
    refine h.watchers.imp ?_ ?_
    · rintro ⟨-, hnil⟩
      rw [hnil] at hws
      cases hws
    · rintro ⟨hw, only, honly⟩
      refine ⟨hw, ?_⟩
      rw [honly] at hws
      have hw0 : w = 0 := by
        have hlt := (List.getElem?_eq_some_iff.mp hws).1
        simpa using hlt
      subst hw0
      exact ⟨ws', by rw [State.setWatcher, honly]; rfl⟩
  records := records_setWatcher h.records hws hs
  adding := by
    intro c i d operatorAddress hc
    obtain ⟨other, hother, hcall⟩ := h.adding c i d operatorAddress hc
    rw [getElem?_setWatcher hws]
    split_ifs with hi
    · rw [hi, hws] at hother
      cases hother
      exact ⟨ws', rfl, hcall.step hs⟩
    · exact ⟨other, hother, hcall⟩
  answered := by
    intro c instruction hc
    obtain ⟨i, other, hi, hother, hknown⟩ := h.answered c instruction hc
    refine ⟨i, ?_⟩
    rw [getElem?_setWatcher hws]
    split_ifs with he
    · rw [he, hws] at hother
      cases hother
      exact ⟨ws', hi, rfl, hknown.step (ApprovalWatcher.recorded_step rfl hs)⟩
    · exact ⟨other, hi, hother, hknown⟩

theorem Single.create (h : Single s) (hnone : s.watcher = none) :
    Single
      { s with watcher := some s.watchers.length, watchers := s.watchers ++ [ApprovalWatcher.init] } := by
  have hnil : s.watchers = [] := by
    rcases h.watchers with ⟨-, hnil⟩ | ⟨hw, -⟩
    · exact hnil
    · rw [hnone] at hw
      cases hw
  constructor
  · exact .inr ⟨by rw [hnil]; rfl, ApprovalWatcher.init, by rw [hnil]; rfl⟩
  · intro ws hws
    rw [hnil] at hws
    rw [List.mem_singleton.mp hws]
    exact ⟨ApprovalWatcher.records_init, ApprovalWatcher.tracked_init⟩
  · intro c w d operatorAddress hc
    obtain ⟨ws, hws, -⟩ := h.adding c w d operatorAddress hc
    rw [hnil] at hws
    cases hws
  · intro c instruction hc
    obtain ⟨w, ws, hw, -⟩ := h.answered c instruction hc
    rw [hnone] at hw
    cases hw

theorem Single.step {cfg : Config} {s' : State} {a : Action} (h : Single s) (hok : CreatesOnce s a)
    (hs : step cfg s a = some s') : Single s' := by
  cases transition_of_step hs with
  | apart hcall =>
    refine h.setCall _ ?_ ?_
    · rintro w d operatorAddress rfl
      exact hcall.elim
    · rintro instruction rfl
      exact hcall.elim
  | takes => exact h.setCall _ (by simp) (by simp)
  | creates => exact (h.create hok).setCall _ (by simp) (by simp)
  | @adds c w now correlationId operatorAddress deposit ws ws' hws hstep =>
    refine (h.setWatcher hws hstep).setCall c ?_ (by simp)
    intro i d address he
    cases he
    refine ⟨ws', by rw [getElem?_setWatcher hws, if_pos rfl], ?_⟩
    cases ApprovalWatcher.transition_of_step hstep with
    | addDeposit => exact ApprovalWatcher.callFor_addDeposit _ _ _
  | @succeeds c w deposit d operatorAddress ws hc hws hr =>
    refine h.setCall c (by simp) ?_
    intro instr he
    cases he
    obtain ⟨other, hother, call, hget, hd⟩ := h.adding c w deposit operatorAddress hc
    rw [hws] at hother
    cases hother
    rw [hr] at hget
    cases hget
    have hknown : Known ws d.correlationId :=
      (h.records ws (List.mem_of_getElem? hws)).2.call c _ hr d rfl
    have hw : s.watcher = some w := by
      rcases h.watchers with ⟨-, hnil⟩ | ⟨hw, only, honly⟩
      · rw [hnil] at hws
        cases hws
      · rw [honly] at hws
        have hlt := (List.getElem?_eq_some_iff.mp hws).1
        rw [hw, show w = 0 by simpa using hlt]
    refine ⟨w, ws, hw, hws, ?_⟩
    rw [show d = deposit from hd] at hknown
    exact hknown
  | quiet henv hws hstep => exact h.setWatcher hws hstep
  | reports henv hws hstep =>
    have hset := h.setWatcher hws hstep
    exact ⟨hset.watchers, hset.records, hset.adding, hset.answered⟩
  | notified => exact ⟨h.watchers, h.records, h.adding, h.answered⟩
  | returned hn hws hstep =>
    have hset := h.setWatcher hws hstep
    exact ⟨hset.watchers, hset.records, hset.adding, hset.answered⟩

end Steps

/-- In every run in which no call creates a second watcher, at most one deposit of a
contract is open over all watchers, and a deposit answered with success is open,
or its pull reported, at the watcher the plugin keeps. -/
theorem one_open_deposit_per_contract (cfg : Config) (s : State)
    (h : ReachUnder (step cfg) CreatesOnce init s) :
    (∀ contractAddress, (openDeposits s contractAddress).length ≤ 1) ∧
    ∀ c instruction, s.calls.get? c = some (.answered (.successful instruction)) →
      ∃ w ws, s.watcher = some w ∧ s.watchers[w]? = some ws ∧ Known ws instruction.operationId := by
  have hsingle : Single s := h.invariant single_init fun _ _ _ hi hok hs => hi.step hok hs
  refine ⟨fun contractAddress => ?_, hsingle.answered⟩
  rcases hsingle.watchers with ⟨-, hnil⟩ | ⟨-, ws, honly⟩
  · rw [openDeposits, hnil]
    exact Nat.zero_le 1
  · have hnodup := (hsingle.records ws (by rw [honly]; exact List.mem_singleton_self _)).1.keys_nodup
    have hcount := List.nodup_iff_count_le_one.mp hnodup contractAddress.toLower
    rw [List.count_eq_countP, List.countP_map, List.countP_eq_length_filter] at hcount
    rw [openDeposits, honly, List.flatMap_singleton]
    convert hcount using 3
    funext d
    rw [Function.comp_apply, Bool.eq_iff_iff, decide_eq_true_iff, beq_iff_eq]

/-! ### Two calls -/

def plainPlugin : Config where
  units := wholeUnits
  gasStation := false
  channels := ⟨"ethereum", true, true⟩

/-- A `deposit` call up to the operator's address, its first await after the asset
and the target. -/
def ordering (c : ℕ) (finId : String) : List Action :=
  [.deposit c ⟨finId, ⟨"finp2p", some "token"⟩, none⟩,
    .asset c (.ok (some ⟨"0x7777777777777777777777777777777777777777", 0⟩)),
    .target c (.ok (some "0x5555555555555555555555555555555555555555"))]

/-- The rest of it, whose deposit watcher `w` seeds at block 10. -/
def placing (c w : ℕ) (correlationId : String) : List Action :=
  [.operator c (.ok "0x9999999999999999999999999999999999999999") correlationId 0,
    .watcher w (.seedBlock c (.ok 10)), .added c]

/-- The operation id of a call answered with success. -/
def DepositCall.operationId? : DepositCall → Option String
  | .answered (.successful instruction) => some instruction.operationId
  | _ => none

/-- One call's deposit is open at the watcher the plugin keeps. -/
theorem lone_call_deposit_open : ∃ s, ReachUnder (step plainPlugin) CreatesOnce init s ∧
    s.calls.values.map DepositCall.operationId? = [some "cid-1"] ∧
    ∀ contractAddress, (openDeposits s contractAddress).length ≤ 1 := by
  have he : (exec (guarded (step plainPlugin) CreatesOnce) init
      (ordering 0 "alice" ++ [.signer 0 (.ok "0x9999999999999999999999999999999999999999")] ++
        placing 0 0 "cid-1")).map (fun s => s.calls.values.map DepositCall.operationId?) =
      some [some "cid-1"] := by
    decide +kernel
  obtain ⟨s, hs, hcalls⟩ := Option.map_eq_some_iff.mp he
  have hrun := reachUnder_of_exec hs
  exact ⟨s, hrun, hcalls, (one_open_deposit_per_contract plainPlugin s hrun).1⟩

/-- Two first calls that both await the operator's address create a watcher each:
both deposits of the one contract are open and answered with success, and the
first is not at the watcher the plugin keeps. -/
theorem two_first_calls_two_open : ∃ s, Reach (step plainPlugin) init s ∧
    (openDeposits s "0x7777777777777777777777777777777777777777").length = 2 ∧
    s.calls.values.map DepositCall.operationId? = [some "cid-1", some "cid-2"] ∧ s.watcher = some 1 ∧
    (s.watchers[1]?).map (fun ws => ws.deposits.values.map PullDeposit.correlationId) =
      some ["cid-2"] := by
  have he : (exec (step plainPlugin) init
      (ordering 0 "alice" ++ ordering 1 "bob" ++
        [.signer 0 (.ok "0x9999999999999999999999999999999999999999"),
          .signer 1 (.ok "0x9999999999999999999999999999999999999999")] ++
        placing 0 0 "cid-1" ++ placing 1 1 "cid-2")).map
      (fun s => ((openDeposits s "0x7777777777777777777777777777777777777777").length,
        s.calls.values.map DepositCall.operationId?, s.watcher,
        (s.watchers[1]?).map fun ws => ws.deposits.values.map PullDeposit.correlationId)) =
      some (2, [some "cid-1", some "cid-2"], some 1, some ["cid-2"]) := by
    decide +kernel
  obtain ⟨s, hs, heq⟩ := Option.map_eq_some_iff.mp he
  simp only [Prod.mk.injEq] at heq
  exact ⟨s, reach_of_exec hs, heq⟩

end FinP2PAdapter.Deposits.PullDepositPlugin
