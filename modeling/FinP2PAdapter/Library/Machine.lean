import Mathlib.Tactic.Common

/-! Runs of state machines. `Runs R ok s₀` collects the states of all runs of the
step relation `R` whose every step meets `ok`, so a safety result for a program
under a side condition is one induction over it. A program's step function
answers `none` when an action is not enabled; its runs are `ReachUnder` and its
schedules are lists of actions. A machine that drives another one step at a time
inherits its invariants by `simulate`. -/

namespace FinP2PAdapter.Machine

variable {σ τ α β : Type*}

/-- The states of the runs from `s₀` in which every step meets `ok`. -/
inductive Runs (R : σ → α → σ → Prop) (ok : σ → α → Prop) (s₀ : σ) : σ → Prop where
  | start : Runs R ok s₀ s₀
  | tail {s s' : σ} {a : α} (h : Runs R ok s₀ s) (ha : ok s a) (hs : R s a s') : Runs R ok s₀ s'

section Relation

variable {R : σ → α → σ → Prop} {ok : σ → α → Prop} {s₀ s : σ}

/-- A property that holds at the start and that every admissible step keeps
holds in every state of every admissible run. -/
theorem Runs.invariant {P : σ → Prop} (h : Runs R ok s₀ s) (h₀ : P s₀)
    (hstep : ∀ s a s', P s → ok s a → R s a s' → P s') : P s := by
  induction h with
  | start => exact h₀
  | tail _ ha hs ih => exact hstep _ _ _ ih ha hs

/-- The step obligation of an invariant may use one already known to hold on
the runs. -/
theorem Runs.invariant_from {P Q : σ → Prop} (h : Runs R ok s₀ s)
    (hQ : ∀ s, Runs R ok s₀ s → Q s) (h₀ : P s₀)
    (hstep : ∀ s a s', Q s → P s → ok s a → R s a s' → P s') : P s := by
  induction h with
  | start => exact h₀
  | tail hr ha hs ih => exact hstep _ _ _ (hQ _ hr) ih ha hs

/-- Runs under a stronger side condition are runs under a weaker one. -/
theorem Runs.mono {ok' : σ → α → Prop} (h : Runs R ok s₀ s) (hw : ∀ s a, ok s a → ok' s a) :
    Runs R ok' s₀ s := by
  induction h with
  | start => exact .start
  | tail _ ha hs ih => exact .tail ih (hw _ _ ha) hs

theorem Runs.trans {t : σ} (h : Runs R ok s₀ s) (h' : Runs R ok s t) : Runs R ok s₀ t := by
  induction h' with
  | start => exact h
  | tail _ ha hs ih => exact .tail ih ha hs

theorem Runs.single {t : σ} {a : α} (ha : ok s a) (hs : R s a t) : Runs R ok s t := .tail .start ha hs

theorem Runs.reach (h : Runs R ok s₀ s) : Runs R (fun _ _ => True) s₀ s :=
  h.mono fun _ _ _ => trivial

/-- A machine whose steps are, seen through `abs`, steps of another machine or
no step of it at all, only shows states the other machine reaches. The step
obligation may use an invariant of the runs. -/
theorem Runs.simulate {S : τ → β → τ → Prop} {okS : τ → β → Prop} {Q : σ → Prop} (abs : σ → τ)
    (h : Runs R ok s₀ s) (hQ : ∀ s, Runs R ok s₀ s → Q s)
    (hsim : ∀ s a s', Q s → ok s a → R s a s' →
      abs s' = abs s ∨ ∃ b, okS (abs s) b ∧ S (abs s) b (abs s')) : Runs S okS (abs s₀) (abs s) := by
  induction h with
  | start => exact .start
  | tail hr ha hs ih =>
    rcases hsim _ _ _ (hQ _ hr) ha hs with he | ⟨b, hb, he⟩
    · rw [he]
      exact ih
    · exact .tail ih hb he

end Relation

/-! ### Step functions -/

/-- The states of the runs of a step function under a side condition. -/
abbrev ReachUnder (step : σ → α → Option σ) (ok : σ → α → Prop) : σ → σ → Prop :=
  Runs (fun s a s' => step s a = some s') ok

/-- The states of all runs of a step function. -/
abbrev Reach (step : σ → α → Option σ) : σ → σ → Prop := ReachUnder step fun _ _ => True

/-- The state a schedule leads to, if each of its actions is enabled in turn. -/
def exec (step : σ → α → Option σ) : σ → List α → Option σ
  | s, [] => some s
  | s, a :: as => (step s a).bind fun s' => exec step s' as

variable {step : σ → α → Option σ} {ok : σ → α → Prop} {s₀ s : σ}

/-- The machine restricted to the steps that meet `ok`. -/
def guarded (step : σ → α → Option σ) (ok : σ → α → Prop) [∀ s a, Decidable (ok s a)] (s : σ) (a : α) :
    Option σ :=
  if ok s a then step s a else none

/-- A schedule whose steps all meet `ok` is a run under `ok`. -/
theorem reachUnder_of_exec [∀ s a, Decidable (ok s a)] {as : List α}
    (h : exec (guarded step ok) s₀ as = some s) : ReachUnder step ok s₀ s := by
  suffices hg : ∀ (as : List α) (t : σ), ReachUnder step ok s₀ t →
      exec (guarded step ok) t as = some s → ReachUnder step ok s₀ s from hg as s₀ .start h
  intro as
  induction as with
  | nil =>
    intro t ht he
    cases he
    exact ht
  | cons a as ih =>
    intro t ht he
    simp only [exec, guarded, Option.bind_eq_some_iff] at he
    obtain ⟨u, hu, he⟩ := he
    split_ifs at hu with hok
    exact ih u (.tail ht hok hu) he

/-- An enabled schedule is a run. -/
theorem reach_of_exec {as : List α} (h : exec step s₀ as = some s) : Reach step s₀ s := by
  have hg : guarded step (fun _ _ => True) = step := by
    funext t a
    simp [guarded]
  exact reachUnder_of_exec (hg.symm ▸ h)

/-! ### Tables -/

/-- What holds of every entry of a table, and of one more, holds of every entry once that
one is written. -/
theorem forall_update {κ : Type*} [DecidableEq κ] {table : κ → Option β} {P : κ → β → Prop} {i : κ}
    {x : β} (h : ∀ k c, table k = some c → P k c) (hx : P i x) {k : κ} {c : β}
    (hc : Function.update table i (some x) k = some c) : P k c := by
  rw [Function.update_apply] at hc
  split_ifs at hc with hk
  · cases hc
    rw [hk]
    exact hx
  · exact h k c hc

end FinP2PAdapter.Machine
