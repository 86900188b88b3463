import FinP2PAdapter.Library.Holdings
import Mathlib.Algebra.BigOperators.Group.Finset.Basic
import Mathlib.Algebra.BigOperators.Pi

/-! Payments between the accounts of a book, and what a pool of accounts has together. A payment between
two accounts of the pool leaves the pool's total as it is, so after any list of payments the total is what
it was, with what came from outside and without what went there. -/

namespace FinP2PAdapter.Holds

variable {A : Type*} [DecidableEq A]

structure Payment (A : Type*) where
  source : A
  target : A
  amount : ℤ
  deriving DecidableEq, Repr

namespace Payment

/-- What a payment brings into the pool from outside. -/
def enters (pool : Finset A) (p : Payment A) : ℤ := if p.source ∉ pool ∧ p.target ∈ pool then p.amount else 0

/-- What a payment takes out of the pool. -/
def leaves (pool : Finset A) (p : Payment A) : ℤ := if p.source ∈ pool ∧ p.target ∉ pool then p.amount else 0

end Payment

def pooled (pool : Finset A) (b : Book A) : ℤ := ∑ a ∈ pool, b.balance a

/-- One payment after the other, each if the tokens are there. -/
def Book.replay (b : Book A) : List (Payment A) → Option (Book A)
  | [] => some b
  | p :: rest => (b.move p.source p.target p.amount).bind fun b' => b'.replay rest

theorem Book.replay_append {b : Book A} {ps qs : List (Payment A)} :
    b.replay (ps ++ qs) = (b.replay ps).bind fun b' => b'.replay qs := by
  induction ps generalizing b with
  | nil => rfl
  | cons p ps ih =>
    rw [List.cons_append, replay, replay, Option.bind_assoc]
    congr 1
    funext b'
    exact ih

theorem Book.replay_concat {b b' b'' : Book A} {ps : List (Payment A)} {p : Payment A}
    (h : b.replay ps = some b') (hp : b'.move p.source p.target p.amount = some b'') :
    b.replay (ps ++ [p]) = some b'' := by
  rw [replay_append, h, Option.bind_some, replay, hp]
  rfl

theorem pooled_move (pool : Finset A) {b b' : Book A} {p : Payment A}
    (h : b.move p.source p.target p.amount = some b') :
    pooled pool b' = pooled pool b + p.enters pool - p.leaves pool := by
  unfold Book.move at h
  split_ifs at h
  cases h
  simp only [pooled, Pi.add_apply, Pi.sub_apply, Finset.sum_add_distrib, Finset.sum_sub_distrib,
    Finset.sum_pi_single', Payment.enters, Payment.leaves]
  by_cases hs : p.source ∈ pool <;> by_cases ht : p.target ∈ pool <;> simp [hs, ht]

/-- The total of the pool after a list of payments. -/
theorem pooled_replay (pool : Finset A) {b b' : Book A} {ps : List (Payment A)} (h : b.replay ps = some b') :
    pooled pool b' = pooled pool b + (ps.map (Payment.enters pool)).sum - (ps.map (Payment.leaves pool)).sum := by
  induction ps generalizing b with
  | nil =>
    cases h
    simp
  | cons p ps ih =>
    obtain ⟨mid, hp, hrest⟩ := Option.bind_eq_some_iff.mp h
    rw [ih hrest, pooled_move pool hp, List.map_cons, List.map_cons, List.sum_cons, List.sum_cons]
    omega

end FinP2PAdapter.Holds
