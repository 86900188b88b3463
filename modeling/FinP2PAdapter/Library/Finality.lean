import Mathlib.Data.List.Basic
import Mathlib.Tactic.Common

/-! Chains with reorganisations and a finalized part. A reorganisation replaces the blocks from a
fork on, and a fork at the chain's end is its growth; the blocks before the finalized height are
never replaced, so the finalized part only grows. -/

namespace FinP2PAdapter.Finality

variable {B : Type*}

/-- The blocks by number, and how many of them are final. -/
structure Chain (B : Type*) where
  blocks : List B
  finalized : ℕ
  finalized_le : finalized ≤ blocks.length

inductive Change (B : Type*) where
  | branch (fork : ℕ) (blocks : List B)
  | finalize (height : ℕ)

namespace Chain

/-- The finalized part. -/
def final (c : Chain B) : List B := c.blocks.take c.finalized

/-- What a change leaves the chain's blocks. -/
def blocksAfter (c : Chain B) : Change B → List B
  | .branch fork blocks => c.blocks.take fork ++ blocks
  | .finalize _ => c.blocks

/-- No fork is before the finalized height, which does not go back. -/
def apply (c : Chain B) : Change B → Option (Chain B)
  | .branch fork blocks =>
    if h : c.finalized ≤ fork ∧ fork ≤ c.blocks.length then
      some ⟨c.blocks.take fork ++ blocks, c.finalized, by simp; omega⟩
    else none
  | .finalize height =>
    if h : c.finalized ≤ height ∧ height ≤ c.blocks.length then some ⟨c.blocks, height, h.2⟩ else none

variable {c c' : Chain B} {change : Change B}

theorem blocks_of_apply (h : c.apply change = some c') : c'.blocks = c.blocksAfter change := by
  cases change with
  | branch fork blocks =>
    simp only [apply] at h
    split_ifs at h
    cases h
    rfl
  | finalize height =>
    simp only [apply] at h
    split_ifs at h
    cases h
    rfl

/-- The finalized part only grows. -/
theorem final_prefix_of_apply (h : c.apply change = some c') : c.final <+: c'.final := by
  cases change with
  | branch fork blocks =>
    simp only [apply] at h
    split_ifs at h with hfork
    cases h
    have hle : c.finalized ≤ (c.blocks.take fork).length := by
      rw [List.length_take]
      omega
    have he : (c.blocks.take fork ++ blocks).take c.finalized = c.blocks.take c.finalized := by
      rw [List.take_append_of_le_length hle, List.take_take, Nat.min_eq_left hfork.1]
    exact ⟨[], (List.append_nil _).trans he.symm⟩
  | finalize height =>
    simp only [apply] at h
    split_ifs at h with hheight
    cases h
    exact List.take_prefix_take_left hheight.1

theorem mem_final_of_apply (h : c.apply change = some c') {b : B} (hb : b ∈ c.final) : b ∈ c'.final :=
  (final_prefix_of_apply h).subset hb

/-- The blocks below the finalized height are final. -/
theorem mem_final_of_lt {b : B} {n : ℕ} (hb : b ∈ c.blocks.take (n + 1)) (hn : n < c.finalized) :
    b ∈ c.final :=
  (List.take_prefix_take_left hn).subset hb

end Chain

end FinP2PAdapter.Finality
