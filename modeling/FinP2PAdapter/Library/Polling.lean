import Mathlib.Data.Nat.Notation
import Mathlib.Tactic.Common

/-! Loops that ask the same question until an answer settles the matter. The answers come as a sequence, one a
round; a loop need not end, so it is given fuel, and what it ends with does not depend on how much. A deadline
ends a loop whose rounds take time, however the answers come. -/

namespace FinP2PAdapter.Polling

variable {ε α β : Type*}

/-- One round after the other; nothing while the fuel does not reach. -/
def poll (settles : α → Option β) (answers : ℕ → Except ε α) : ℕ → ℕ → Option (Except ε β)
  | 0, _ => none
  | fuel + 1, round =>
    match answers round with
    | .error e => some (.error e)
    | .ok a =>
      match settles a with
      | some b => some (.ok b)
      | none => poll settles answers fuel (round + 1)

section Poll

variable (settles : α → Option β) (answers : ℕ → Except ε α)

/-- The answer of the round settles nothing. -/
def Pending (round : ℕ) : Prop := ∃ a, answers round = .ok a ∧ settles a = none

/-- The loop ends with the answer of the round. -/
def Ends (round : ℕ) (result : Except ε β) : Prop :=
  (∃ e, answers round = .error e ∧ result = .error e) ∨ ∃ a b, answers round = .ok a ∧ settles a = some b ∧
    result = .ok b

theorem ends_or_pending (round : ℕ) : Pending settles answers round ∨ ∃ result, Ends settles answers round result := by
  cases ha : answers round with
  | error e => exact .inr ⟨.error e, .inl ⟨e, ha, rfl⟩⟩
  | ok a =>
    cases hs : settles a with
    | none => exact .inl ⟨a, ha, hs⟩
    | some b => exact .inr ⟨.ok b, .inr ⟨a, b, ha, hs, rfl⟩⟩

variable {settles answers}

theorem not_ends_of_pending {round : ℕ} (h : Pending settles answers round) (result : Except ε β) :
    ¬ Ends settles answers round result := by
  obtain ⟨a, ha, hs⟩ := h
  rintro (⟨e, he, -⟩ | ⟨a', b, ha', hs', -⟩)
  · rw [ha] at he
    cases he
  · rw [ha] at ha'
    cases ha'
    rw [hs] at hs'
    cases hs'

theorem Ends.unique {round : ℕ} {r r' : Except ε β} (h : Ends settles answers round r)
    (h' : Ends settles answers round r') : r = r' := by
  rcases h with ⟨e, he, rfl⟩ | ⟨a, b, ha, hs, rfl⟩ <;> rcases h' with ⟨e', he', rfl⟩ | ⟨a', b', ha', hs', rfl⟩ <;>
    simp_all

theorem poll_of_ends {round : ℕ} {result : Except ε β} (h : Ends settles answers round result) (fuel : ℕ) :
    poll settles answers (fuel + 1) round = some result := by
  rcases h with ⟨e, he, rfl⟩ | ⟨a, b, ha, hs, rfl⟩
  · simp [poll, he]
  · simp [poll, ha, hs]

theorem poll_of_pending {round : ℕ} (h : Pending settles answers round) (fuel : ℕ) :
    poll settles answers (fuel + 1) round = poll settles answers fuel (round + 1) := by
  obtain ⟨a, ha, hs⟩ := h
  simp [poll, ha, hs]

/-- The loop ends with the first round that settles the matter or throws. -/
theorem poll_eq_some_iff {fuel start : ℕ} {result : Except ε β} :
    poll settles answers fuel start = some result ↔
      ∃ k < fuel, (∀ i < k, Pending settles answers (start + i)) ∧ Ends settles answers (start + k) result := by
  induction fuel generalizing start with
  | zero => simp [poll]
  | succ fuel ih =>
    rcases ends_or_pending settles answers start with hpending | ⟨r, hends⟩
    · rw [poll_of_pending hpending, ih]
      constructor
      · rintro ⟨k, hk, hbefore, hlast⟩
        refine ⟨k + 1, by omega, fun i hi => ?_, ?_⟩
        · cases i with
          | zero => exact hpending
          | succ i =>
            rw [show start + (i + 1) = start + 1 + i by omega]
            exact hbefore i (by omega)
        · rw [show start + (k + 1) = start + 1 + k by omega]
          exact hlast
      · rintro ⟨k, hk, hbefore, hlast⟩
        cases k with
        | zero => exact absurd hlast (not_ends_of_pending hpending result)
        | succ k =>
          refine ⟨k, by omega, fun i hi => ?_, ?_⟩
          · rw [show start + 1 + i = start + (i + 1) by omega]
            exact hbefore (i + 1) (by omega)
          · rw [show start + 1 + k = start + (k + 1) by omega]
            exact hlast
    · rw [poll_of_ends hends, Option.some.injEq]
      constructor
      · rintro rfl
        exact ⟨0, by omega, fun i hi => by omega, hends⟩
      · rintro ⟨k, -, hbefore, hlast⟩
        cases k with
        | zero => exact hends.unique hlast
        | succ k => exact absurd hends (not_ends_of_pending (hbefore 0 (by omega)) r)

/-- The loop is still going on after so many rounds exactly if none of them settled the matter or threw. -/
theorem poll_fuel_eq_none_iff {fuel start : ℕ} :
    poll settles answers fuel start = none ↔ ∀ i < fuel, Pending settles answers (start + i) := by
  induction fuel generalizing start with
  | zero => simp [poll]
  | succ fuel ih =>
    rcases ends_or_pending settles answers start with hpending | ⟨r, hends⟩
    · rw [poll_of_pending hpending, ih]
      constructor
      · intro h i hi
        cases i with
        | zero => exact hpending
        | succ i =>
          rw [show start + (i + 1) = start + 1 + i by omega]
          exact h i (by omega)
      · intro h i hi
        rw [show start + 1 + i = start + (i + 1) by omega]
        exact h (i + 1) (by omega)
    · rw [poll_of_ends hends]
      refine ⟨nofun, fun h => ?_⟩
      exact absurd hends (not_ends_of_pending (h 0 (by omega)) r)

/-- The loop goes on for ever exactly if no round settles the matter or throws. -/
theorem poll_eq_none_iff : (∀ fuel, poll settles answers fuel 0 = none) ↔ ∀ round, Pending settles answers round := by
  simp only [poll_fuel_eq_none_iff, Nat.zero_add]
  exact ⟨fun h round => h (round + 1) round (Nat.lt_succ_self _), fun h _ i _ => h i⟩

end Poll

/-! ### A deadline -/

section Deadline

variable (clock : ℕ → ℕ) (deadline : ℕ) (settles : α → Option β) (answers : ℕ → Except ε α)

/-- The answer of a round, or its number once the deadline has passed. -/
def timed (round : ℕ) : Except ε (α ⊕ ℕ) :=
  if clock round < deadline then (answers round).map .inl else .ok (.inr round)

def settlesTimed : α ⊕ ℕ → Option (β ⊕ ℕ)
  | .inl a => (settles a).map .inl
  | .inr rounds => some (.inr rounds)

/-- The question is asked while the deadline has not passed. The loop then ends with the number of rounds. -/
def pollUntil (fuel : ℕ) : Option (Except ε (β ⊕ ℕ)) :=
  poll (settlesTimed settles) (timed clock deadline answers) fuel 0

/-- A round in time whose answer settles nothing. -/
def Waits (round : ℕ) : Prop := clock round < deadline ∧ Pending settles answers round

/-- The end of the loop in the round. -/
def Stops (round : ℕ) : Except ε (β ⊕ ℕ) → Prop
  | .ok (.inr rounds) => deadline ≤ clock round ∧ rounds = round
  | .ok (.inl b) => clock round < deadline ∧ ∃ a, answers round = .ok a ∧ settles a = some b
  | .error e => clock round < deadline ∧ answers round = .error e

variable {clock deadline settles answers}

theorem pending_timed_iff {round : ℕ} : Pending (settlesTimed settles) (timed clock deadline answers) round ↔
    Waits clock deadline settles answers round := by
  unfold Pending Waits Pending timed
  by_cases htime : clock round < deadline
  · cases ha : answers round <;> simp [htime, Except.map, settlesTimed]
  · simp [htime, settlesTimed]

theorem ends_timed_iff {round : ℕ} {result : Except ε (β ⊕ ℕ)} :
    Ends (settlesTimed settles) (timed clock deadline answers) round result ↔
      Stops clock deadline settles answers round result := by
  unfold Ends timed
  by_cases htime : clock round < deadline
  · cases ha : answers round <;> rcases result with e | b | n <;>
      simp [htime, Nat.not_le.mpr htime, ha, Except.map, settlesTimed, Stops, eq_comm]
  · rcases result with e | b | n
    · simp [htime, settlesTimed, Stops]
    · simp [htime, settlesTimed, Stops]
    · simp [htime, settlesTimed, Stops, Nat.le_of_not_lt htime, eq_comm (a := n)]

theorem pollUntil_eq_some_iff {fuel : ℕ} {result : Except ε (β ⊕ ℕ)} :
    pollUntil clock deadline settles answers fuel = some result ↔
      ∃ k < fuel, (∀ i < k, Waits clock deadline settles answers i) ∧
        Stops clock deadline settles answers k result := by
  unfold pollUntil
  rw [poll_eq_some_iff]
  simp only [Nat.zero_add, pending_timed_iff, ends_timed_iff]

theorem clock_ge {interval : ℕ} (hclock : ∀ n, clock n + interval ≤ clock (n + 1)) (n : ℕ) :
    clock 0 + interval * n ≤ clock n := by
  induction n with
  | zero => simp
  | succ n ih =>
    have hstep := hclock n
    rw [Nat.mul_succ]
    omega

/-- A loop whose every round takes some time ends, whatever is answered. -/
theorem pollUntil_isSome {interval : ℕ} (rounds : ℕ) (hclock : ∀ n, clock n + interval ≤ clock (n + 1))
    (hdeadline : deadline ≤ clock 0 + interval * rounds) :
    (pollUntil clock deadline settles answers (rounds + 1)).isSome = true := by
  have hlate : deadline ≤ clock rounds := Nat.le_trans hdeadline (clock_ge hclock rounds)
  by_contra hnone
  have hnone : pollUntil clock deadline settles answers (rounds + 1) = none := by
    simpa using hnone
  have hwaits : ∀ k ≤ rounds, Waits clock deadline settles answers k := by
    intro k
    induction k using Nat.strongRecOn with
    | ind k ih =>
      intro hk
      have hstop : ∀ result, ¬ Stops clock deadline settles answers k result := by
        intro result hstops
        have hsome := pollUntil_eq_some_iff.mpr ⟨k, Nat.lt_succ_of_le hk, fun i hi => ih i hi (by omega), hstops⟩
        rw [hnone] at hsome
        cases hsome
      by_cases htime : clock k < deadline
      · refine ⟨htime, ?_⟩
        cases ha : answers k with
        | error e => exact absurd ⟨htime, ha⟩ (hstop (.error e))
        | ok a =>
          cases hs : settles a with
          | none => exact ⟨a, ha, hs⟩
          | some b => exact absurd ⟨htime, a, ha, hs⟩ (hstop (.ok (.inl b)))
      · exact absurd ⟨Nat.le_of_not_lt htime, rfl⟩ (hstop (.ok (.inr k)))
  exact absurd (hwaits rounds (Nat.le_refl rounds)).1 (by omega)

end Deadline

end FinP2PAdapter.Polling
