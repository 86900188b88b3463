import Mathlib.Tactic.Common

/-! Checks made in order over one state until one of them stops the sequence. The
checks that were made are a front part of the list, and only the last of them can
have stopped it. -/

namespace FinP2PAdapter.Checks

variable {α β γ σ : Type*}

/-- How a sequence of checks ended: what stopped it, the checks made with their
answers, and the state they left. -/
structure Outcome (α β γ σ : Type*) where
  stop : Option γ
  made : List (α × β)
  state : σ

def firstStop (check : α → σ → β × σ) (stops : α → β → Option γ) : List α → σ → Outcome α β γ σ
  | [], s => ⟨none, [], s⟩
  | a :: as, s =>
    let (b, s') := check a s
    match stops a b with
    | some stop => ⟨some stop, [(a, b)], s'⟩
    | none =>
      let rest := firstStop check stops as s'
      ⟨rest.stop, (a, b) :: rest.made, rest.state⟩

variable {check : α → σ → β × σ} {stops : α → β → Option γ}

theorem firstStop_cons_stop {a : α} {as : List α} {s : σ} {stop : γ}
    (h : stops a (check a s).1 = some stop) :
    firstStop check stops (a :: as) s = ⟨some stop, [(a, (check a s).1)], (check a s).2⟩ := by
  simp only [firstStop, h]

theorem firstStop_cons_pass {a : α} {as : List α} {s : σ} (h : stops a (check a s).1 = none) :
    firstStop check stops (a :: as) s =
      ⟨(firstStop check stops as (check a s).2).stop,
        (a, (check a s).1) :: (firstStop check stops as (check a s).2).made,
        (firstStop check stops as (check a s).2).state⟩ := by
  simp only [firstStop, h]

/-- The checks are made in the order of the list, none left out. -/
theorem made_prefix (as : List α) (s : σ) : (firstStop check stops as s).made.map Prod.fst <+: as := by
  induction as generalizing s with
  | nil => exact List.prefix_rfl
  | cons a as ih =>
    cases h : stops a (check a s).1 with
    | some stop =>
      rw [firstStop_cons_stop h]
      exact ⟨as, rfl⟩
    | none =>
      rw [firstStop_cons_pass h]
      exact (List.prefix_cons_inj a).mpr (ih _)

/-- If nothing stops it, every check is made and none of them stops. -/
theorem stop_eq_none_iff (as : List α) (s : σ) : (firstStop check stops as s).stop = none ↔
    (firstStop check stops as s).made.map Prod.fst = as ∧
      ∀ c ∈ (firstStop check stops as s).made, stops c.1 c.2 = none := by
  induction as generalizing s with
  | nil => simp [firstStop]
  | cons a as ih =>
    cases h : stops a (check a s).1 with
    | some stop =>
      rw [firstStop_cons_stop h]
      simp [h]
    | none =>
      rw [firstStop_cons_pass h]
      simp [h, ih]

/-- No check is made after one that stops. -/
theorem stops_last {as : List α} {s : σ} {front back : List (α × β)} {a : α} {b : β} {stop : γ}
    (hmade : (firstStop check stops as s).made = front ++ (a, b) :: back) (h : stops a b = some stop) :
    back = [] ∧ (firstStop check stops as s).stop = some stop := by
  induction as generalizing s front with
  | nil => simp [firstStop] at hmade
  | cons a' as ih =>
    cases h' : stops a' (check a' s).1 with
    | some stop' =>
      rw [firstStop_cons_stop h'] at hmade ⊢
      cases front with
      | nil =>
        simp only [List.nil_append, List.cons.injEq, Prod.mk.injEq] at hmade
        obtain ⟨⟨rfl, rfl⟩, rfl⟩ := hmade
        exact ⟨rfl, h'.symm.trans h⟩
      | cons c front => simp at hmade
    | none =>
      rw [firstStop_cons_pass h'] at hmade ⊢
      cases front with
      | nil =>
        simp only [List.nil_append, List.cons.injEq, Prod.mk.injEq] at hmade
        obtain ⟨⟨rfl, rfl⟩, -⟩ := hmade
        rw [h'] at h
        cases h
      | cons c front =>
        simp only [List.cons_append, List.cons.injEq] at hmade
        exact ih hmade.2

/-- What stopped the sequence is the answer of one of its checks. -/
theorem exists_stopper {as : List α} {s : σ} {stop : γ}
    (h : (firstStop check stops as s).stop = some stop) :
    ∃ (i : ℕ) (a : α) (b : β), as[i]? = some a ∧ (firstStop check stops as s).made[i]? = some (a, b) ∧
      stops a b = some stop := by
  induction as generalizing s with
  | nil => cases h
  | cons a as ih =>
    cases h' : stops a (check a s).1 with
    | some stop' =>
      rw [firstStop_cons_stop h'] at h ⊢
      exact ⟨0, a, _, rfl, rfl, h'.trans h⟩
    | none =>
      rw [firstStop_cons_pass h'] at h ⊢
      obtain ⟨i, a', b', ha, hmade, hstops⟩ := ih h
      exact ⟨i + 1, a', b', ha, hmade, hstops⟩

/-- The answers are those of the checks. -/
theorem mem_made {as : List α} {s : σ} {c : α × β} (h : c ∈ (firstStop check stops as s).made) :
    ∃ s', c.2 = (check c.1 s').1 := by
  induction as generalizing s with
  | nil => cases h
  | cons a as ih =>
    cases h' : stops a (check a s).1 with
    | some stop =>
      rw [firstStop_cons_stop h'] at h
      rw [List.mem_singleton.mp h]
      exact ⟨s, rfl⟩
    | none =>
      rw [firstStop_cons_pass h'] at h
      rcases List.mem_cons.mp h with rfl | h
      · exact ⟨s, rfl⟩
      · exact ih h

/-- Checks that pass or not whatever the state let a list pass if each of them does. -/
theorem stop_eq_none_iff_forall {P : α → Prop} (h : ∀ a s, stops a (check a s).1 = none ↔ P a)
    (as : List α) (s : σ) : (firstStop check stops as s).stop = none ↔ ∀ a ∈ as, P a := by
  induction as generalizing s with
  | nil => simp [firstStop]
  | cons a as ih =>
    rw [List.forall_mem_cons, ← h a s]
    cases h' : stops a (check a s).1 with
    | some stop =>
      rw [firstStop_cons_stop h']
      simp
    | none =>
      rw [firstStop_cons_pass h']
      simp [ih]

/-- What every check keeps of the state, the sequence keeps. -/
theorem state_invariant {P : σ → Prop} (hcheck : ∀ a s, P s → P (check a s).2) (as : List α) {s : σ}
    (h : P s) : P (firstStop check stops as s).state := by
  induction as generalizing s with
  | nil => exact h
  | cons a as ih =>
    cases h' : stops a (check a s).1 with
    | some stop =>
      rw [firstStop_cons_stop h']
      exact hcheck a s h
    | none =>
      rw [firstStop_cons_pass h']
      exact ih (hcheck a s h)

end FinP2PAdapter.Checks
