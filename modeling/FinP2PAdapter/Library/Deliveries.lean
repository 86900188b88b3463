import FinP2PAdapter.Library.Machine
import Mathlib.Data.List.Basic

/-! Jobs that are announced by calls made one after another. A job once begun goes
through its list of calls; a call that fails is passed over like one that
succeeds, and nothing remembers it. So a job that is no longer running had all
its required calls delivered exactly if none of them failed, and then every call
delivered was preceded by the required calls of its job. -/

namespace FinP2PAdapter.Deliveries

open Machine

/-- The running jobs with the calls still ahead, the jobs ever begun, and the
calls that succeeded. -/
@[ext] structure State (K J C : Type*) where
  running : K → Option (J × List C)
  begun : List J
  delivered : List C

inductive Action (K J : Type*) where
  | start (k : K) (job : J)
  | call (k : K) (succeeds : Bool)
  | finish (k : K)

variable {K J C : Type*} [DecidableEq K]

def init : State K J C := ⟨fun _ => none, [], []⟩

def State.put (s : State K J C) (k : K) (job : Option (J × List C)) : State K J C :=
  { s with running := Function.update s.running k job }

def State.start (s : State K J C) (k : K) (job : J) (calls : List C) : State K J C :=
  { s.put k (some (job, calls)) with begun := job :: s.begun }

def State.call (s : State K J C) (k : K) (job : J) (c : C) (rest : List C) (succeeds : Bool) :
    State K J C :=
  { s.put k (some (job, rest)) with delivered := if succeeds then c :: s.delivered else s.delivered }

/-- The steps of jobs whose calls are `calls`. -/
inductive Step (calls : J → List C) (s : State K J C) : Action K J → State K J C → Prop where
  | start {k : K} {job : J} (h : s.running k = none) :
      Step calls s (.start k job) (s.start k job (calls job))
  | call {k : K} {job : J} {c : C} {rest : List C} {succeeds : Bool}
      (h : s.running k = some (job, c :: rest)) :
    Step calls s (.call k succeeds) (s.call k job c rest succeeds)
  | finish {k : K} {job : J} (h : s.running k = some (job, [])) :
      Step calls s (.finish k) (s.put k none)

/-- No required call fails. -/
def RequiredSucceed (required : C → Prop) (s : State K J C) (a : Action K J) : Prop :=
  ∀ k job c rest, a = .call k false → s.running k = some (job, c :: rest) → ¬ required c

/-- The required calls among `made` are delivered. -/
def Made (required : C → Prop) (s : State K J C) (made : List C) : Prop :=
  ∀ c ∈ made, required c → c ∈ s.delivered

variable {calls : J → List C} {required : C → Prop} {s s' : State K J C} {a : Action K J}

omit [DecidableEq K] in
theorem Made.mono (hsub : ∀ c ∈ s.delivered, c ∈ s'.delivered) {made : List C}
    (h : Made required s made) : Made required s' made :=
  fun c hc hr => hsub c (h c hc hr)

theorem running_put (s : State K J C) (k k' : K) (job : Option (J × List C)) :
    (s.put k job).running k' = if k' = k then job else s.running k' := by
  simp [State.put, Function.update_apply]

/-- The calls a job has behind it are delivered, a job begun is running or has all
its calls behind it, and a call delivered comes after those of its job before it. -/
structure Inv (calls : J → List C) (required : C → Prop) (s : State K J C) : Prop where
  running : ∀ k job rest, s.running k = some (job, rest) →
    job ∈ s.begun ∧ ∃ made, calls job = made ++ rest ∧ Made required s made
  begun : ∀ job ∈ s.begun, (∃ k rest, s.running k = some (job, rest)) ∨ Made required s (calls job)
  delivered : ∀ c ∈ s.delivered, ∃ job ∈ s.begun, ∃ made rest, calls job = made ++ c :: rest ∧
    Made required s made

theorem Inv.start (h : Inv calls required s) {k : K} {job : J} (hk : s.running k = none) :
    Inv calls required (s.start k job (calls job)) where
  running := by
    intro k' job' rest hr
    rw [show (s.start k job (calls job)).running k' = _ from running_put s k k' _] at hr
    split_ifs at hr with he
    · cases hr
      exact ⟨List.mem_cons_self, [], rfl, fun c hc => nomatch hc⟩
    · obtain ⟨hb, hmade⟩ := h.running k' job' rest hr
      exact ⟨List.mem_cons_of_mem _ hb, hmade⟩
  begun := by
    intro job' hb
    rcases List.mem_cons.mp hb with rfl | hb
    · exact .inl ⟨k, calls job', by rw [State.start, running_put, if_pos rfl]⟩
    · refine (h.begun job' hb).imp_left ?_
      rintro ⟨k', rest, hr⟩
      refine ⟨k', rest, ?_⟩
      have hne : k' ≠ k := by
        rintro rfl
        rw [hk] at hr
        cases hr
      rw [State.start, running_put, if_neg hne]
      exact hr
  delivered := by
    intro c hc
    obtain ⟨job', hb, hrest⟩ := h.delivered c hc
    exact ⟨job', List.mem_cons_of_mem _ hb, hrest⟩

theorem Inv.call (h : Inv calls required s) {k : K} {job : J} {c : C} {rest : List C} {succeeds : Bool}
    (hk : s.running k = some (job, c :: rest)) (hok : succeeds = false → ¬ required c) :
    Inv calls required (s.call k job c rest succeeds) := by
  have hsub : ∀ c' ∈ s.delivered, c' ∈ (s.call k job c rest succeeds).delivered := by
    intro c' hc'
    unfold State.call
    split_ifs
    · exact List.mem_cons_of_mem _ hc'
    · exact hc'
  obtain ⟨hjob, made, hcalls, hmade⟩ := h.running k job _ hk
  have hmade' : Made required (s.call k job c rest succeeds) (made ++ [c]) := by
    intro c' hc' hr
    rcases List.mem_append.mp hc' with hm | hm
    · exact hsub c' (hmade c' hm hr)
    · rw [List.mem_singleton.mp hm] at hr ⊢
      cases succeeds with
      | true => exact List.mem_cons_self
      | false => exact absurd hr (hok rfl)
  constructor
  · intro k' job' rest' hr
    rw [show (s.call k job c rest succeeds).running k' = _ from running_put s k k' _] at hr
    split_ifs at hr with he
    · cases hr
      exact ⟨hjob, made ++ [c], by rw [hcalls, List.append_assoc]; rfl, hmade'⟩
    · obtain ⟨hb, made', hc', hm'⟩ := h.running k' job' rest' hr
      exact ⟨hb, made', hc', hm'.mono hsub⟩
  · intro job' hb
    rcases h.begun job' hb with ⟨k', rest', hr⟩ | hm
    · by_cases he : k' = k
      · rw [he, hk] at hr
        cases hr
        exact .inl ⟨k, rest, by rw [State.call, running_put, if_pos rfl]⟩
      · exact .inl ⟨k', rest', by rw [State.call, running_put, if_neg he]; exact hr⟩
    · exact .inr (hm.mono hsub)
  · intro c' hc'
    have hold : c' ∈ s.delivered ∨ c' = c := by
      unfold State.call at hc'
      split_ifs at hc'
      · exact (List.mem_cons.mp hc').symm
      · exact .inl hc'
    rcases hold with hc₀ | rfl
    · obtain ⟨job', hb, made', rest', hcalls', hm'⟩ := h.delivered c' hc₀
      exact ⟨job', hb, made', rest', hcalls', hm'.mono hsub⟩
    · exact ⟨job, hjob, made, rest, hcalls, hmade.mono hsub⟩

theorem Inv.finish (h : Inv calls required s) {k : K} {job : J} (hk : s.running k = some (job, [])) :
    Inv calls required (s.put k none) where
  running := by
    intro k' job' rest hr
    rw [running_put] at hr
    split_ifs at hr
    exact h.running k' job' rest hr
  begun := by
    intro job' hb
    rcases h.begun job' hb with ⟨k', rest, hr⟩ | hm
    · by_cases he : k' = k
      · rw [he, hk] at hr
        cases hr
        obtain ⟨-, made, hcalls, hm⟩ := h.running k job [] hk
        rw [List.append_nil] at hcalls
        exact .inr (hcalls ▸ hm)
      · exact .inl ⟨k', rest, by rw [running_put, if_neg he]; exact hr⟩
    · exact .inr hm
  delivered := h.delivered

theorem Inv.step (h : Inv calls required s) (hok : RequiredSucceed required s a)
    (hs : Step calls s a s') : Inv calls required s' := by
  cases hs with
  | start hk => exact h.start hk
  | @call k job c rest succeeds hk =>
    refine h.call hk ?_
    rintro rfl
    exact hok k job c rest rfl hk
  | finish hk => exact h.finish hk

omit [DecidableEq K] in
theorem inv_init : Inv calls required (init : State K J C) where
  running := by
    intro k job rest hr
    cases hr
  begun := by
    intro job hb
    cases hb
  delivered := by
    intro c hc
    cases hc

/-- In every run in which no required call fails, a job begun is still running or has
all its required calls delivered, and the required calls of a job that come before
a delivered one are delivered. -/
theorem inv_of_runs (h : Runs (Step calls) (RequiredSucceed required) init s) : Inv calls required s :=
  h.invariant inv_init fun _ _ _ hi hok hs => hi.step hok hs

/-- The same of a machine whose steps are, as far as its jobs are concerned, such steps or none. -/
theorem inv_of_reach {σ α : Type*} {step : σ → α → Option σ} {ok : σ → α → Prop} {s₀ s : σ} {Q : σ → Prop}
    {deliveries : σ → State K J C} (h : ReachUnder step ok s₀ s) (h₀ : deliveries s₀ = init)
    (hQ : ∀ s, ReachUnder step ok s₀ s → Q s)
    (hsim : ∀ s a s', Q s → step s a = some s' → deliveries s' = deliveries s ∨
      ∃ b, (ok s a → RequiredSucceed required (deliveries s) b) ∧ Step calls (deliveries s) b (deliveries s')) :
    Inv calls required (deliveries s) := by
  have hruns : Runs (Step calls) (RequiredSucceed required) (deliveries s₀) (deliveries s) := by
    refine h.simulate deliveries hQ ?_
    intro s a s' hq hok hs
    refine (hsim s a s' hq hs).imp id ?_
    rintro ⟨b, hb, hstep⟩
    exact ⟨b, hb hok, hstep⟩
  rw [h₀] at hruns
  exact inv_of_runs hruns

end FinP2PAdapter.Deliveries
