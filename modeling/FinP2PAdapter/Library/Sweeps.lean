import Mathlib.Data.List.Pairwise

/-! A sweep: one pass over a list that attempts to remove each item that is there when the pass
comes to it. An attempt may be refused. Between items that leave each other alone the pass attempts
what was there at its start, and what is there at its end was refused. -/

namespace FinP2PAdapter.Sweeps

variable {α ρ σ : Type*} {present : α → σ → Bool} {remove : α → σ → ρ × σ}

/-- The attempts with their answers, and the state they leave. -/
def sweep (present : α → σ → Bool) (remove : α → σ → ρ × σ) : List α → σ → List (α × ρ) × σ
  | [], s => ([], s)
  | a :: as, s =>
    if present a s then
      let (answer, s') := remove a s
      let (attempts, s'') := sweep present remove as s'
      ((a, answer) :: attempts, s'')
    else sweep present remove as s

theorem sweep_cons_present {a : α} {as : List α} {s : σ} (h : present a s = true) :
    sweep present remove (a :: as) s =
      ((a, (remove a s).1) :: (sweep present remove as (remove a s).2).1,
        (sweep present remove as (remove a s).2).2) := by
  simp only [sweep, h, if_true]

theorem sweep_cons_absent {a : α} {as : List α} {s : σ} (h : present a s = false) :
    sweep present remove (a :: as) s = sweep present remove as s := by
  simp only [sweep, h, Bool.false_eq_true, if_false]

/-- What every attempt keeps, the sweep keeps. -/
theorem sweep_invariant {P : σ → Prop} {as : List α} {s : σ}
    (hstep : ∀ a ∈ as, ∀ s, present a s = true → P s → P (remove a s).2) (h : P s) :
    P (sweep present remove as s).2 := by
  induction as generalizing s with
  | nil => exact h
  | cons a as ih =>
    obtain ⟨ha, has⟩ := List.forall_mem_cons.mp hstep
    cases hp : present a s with
    | true =>
      rw [sweep_cons_present hp]
      exact ih has (ha s hp h)
    | false =>
      rw [sweep_cons_absent hp]
      exact ih has h

/-- An attempt at `a` leaves it as it was whether `b` is there. -/
def LeavesAlone (present : α → σ → Bool) (remove : α → σ → ρ × σ) (a b : α) : Prop :=
  ∀ s, present b (remove a s).2 = present b s

/-- Neither item's attempt is felt by the other. -/
def Apart (present : α → σ → Bool) (remove : α → σ → ρ × σ) (a b : α) : Prop :=
  LeavesAlone present remove a b ∧ LeavesAlone present remove b a

theorem present_sweep {b : α} {as : List α} (h : ∀ a ∈ as, LeavesAlone present remove a b) (s : σ) :
    present b (sweep present remove as s).2 = present b s :=
  sweep_invariant (P := fun s' => present b s' = present b s)
    (fun a ha s' _ hs' => (h a ha s').trans hs') rfl

/-- Each item that was there at the start is attempted, once and in order, and no other. -/
theorem attempted_eq_filter {as : List α} (h : as.Pairwise (Apart present remove)) (s : σ) :
    (sweep present remove as s).1.map Prod.fst = as.filter (present · s) := by
  induction as generalizing s with
  | nil => rfl
  | cons a as ih =>
    obtain ⟨hhead, htail⟩ := List.pairwise_cons.mp h
    cases hp : present a s with
    | true =>
      have hsame : as.filter (present · (remove a s).2) = as.filter (present · s) :=
        List.filter_congr fun b hb => (hhead b hb).1 s
      rw [sweep_cons_present hp, List.filter_cons, if_pos hp, List.map_cons, ih htail, hsame]
    | false =>
      rw [sweep_cons_absent hp, List.filter_cons, if_neg (Bool.eq_false_iff.mp hp), ih htail]

/-- What is still there was attempted, and not removed. -/
theorem present_of_refused {as : List α} {R : ρ → Prop}
    (hremoved : ∀ a ∈ as, ∀ s, R (remove a s).1 → present a (remove a s).2 = false)
    (h : as.Pairwise (Apart present remove)) {s : σ} {a : α} (ha : a ∈ as)
    (hpresent : present a (sweep present remove as s).2 = true) :
    ∃ answer, (a, answer) ∈ (sweep present remove as s).1 ∧ ¬ R answer := by
  induction as generalizing s with
  | nil => cases ha
  | cons b as ih =>
    obtain ⟨hhead, htail⟩ := List.pairwise_cons.mp h
    obtain ⟨hb, has⟩ := List.forall_mem_cons.mp hremoved
    have hkept : ∀ s, present b (sweep present remove as s).2 = present b s :=
      present_sweep fun c hc => (hhead c hc).2
    cases hp : present b s with
    | true =>
      rw [sweep_cons_present hp] at hpresent ⊢
      rcases List.mem_cons.mp ha with rfl | hmem
      · rw [hkept] at hpresent
        refine ⟨_, List.mem_cons_self, fun hanswer => ?_⟩
        rw [hb s hanswer] at hpresent
        cases hpresent
      · obtain ⟨answer, hattempt, hrefused⟩ := ih has htail hmem hpresent
        exact ⟨answer, List.mem_cons_of_mem _ hattempt, hrefused⟩
    | false =>
      rw [sweep_cons_absent hp] at hpresent ⊢
      rcases List.mem_cons.mp ha with rfl | hmem
      · rw [hkept, hp] at hpresent
        cases hpresent
      · exact ih has htail hmem hpresent

end FinP2PAdapter.Sweeps
