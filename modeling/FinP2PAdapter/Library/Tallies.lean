import FinP2PAdapter.Library.JsMap
import Mathlib.Data.List.Count

/-! Counting keys in a map: each key once, with how often it occurred. The counts depend on the
keys alone, not on their order. -/

namespace FinP2PAdapter.Tallies

variable {K : Type*} [DecidableEq K]

/-- `counts.set(key, (counts.get(key) ?? 0) + 1)`. -/
def tally (counts : JsMap K ℕ) (key : K) : JsMap K ℕ := counts.set key ((counts.get? key).getD 0 + 1)

def tallies (keys : List K) : JsMap K ℕ := keys.foldl tally JsMap.empty

theorem getD_foldl_tally (keys : List K) (counts : JsMap K ℕ) (key : K) :
    ((keys.foldl tally counts).get? key).getD 0 = (counts.get? key).getD 0 + keys.count key := by
  induction keys generalizing counts with
  | nil => simp
  | cons k keys ih =>
    rw [List.foldl_cons, ih, tally, JsMap.get?_set, List.count_cons]
    by_cases hk : key = k
    · subst hk
      simp only [if_true, Option.getD_some, beq_self_eq_true]
      omega
    · have hne : (k == key) = false := by simpa using Ne.symm hk
      rw [if_neg hk, hne]
      simp

theorem get?_tallies_isSome (keys : List K) (key : K) :
    ((tallies keys).get? key).isSome ↔ key ∈ keys := by
  have hfold : ∀ counts : JsMap K ℕ, ((keys.foldl tally counts).get? key).isSome ↔
      (counts.get? key).isSome ∨ key ∈ keys := by
    induction keys with
    | nil => simp
    | cons k keys ih =>
      intro counts
      rw [List.foldl_cons, ih, tally, JsMap.get?_set]
      split_ifs with hk
      · simp [hk]
      · simp [hk]
  simpa [tallies] using hfold JsMap.empty

/-- Each key that occurs has one entry, with the number of its occurrences. -/
theorem mem_tallies {keys : List K} {key : K} {n : ℕ} :
    (key, n) ∈ (tallies keys).entries ↔ 0 < n ∧ n = keys.count key := by
  have hcount := getD_foldl_tally keys JsMap.empty key
  rw [JsMap.get?_empty, Option.getD_none, Nat.zero_add] at hcount
  have hsome := get?_tallies_isSome keys key
  rw [← JsMap.get?_eq_some_iff]
  unfold tallies at *
  cases hget : (keys.foldl tally JsMap.empty).get? key with
  | none =>
    rw [hget] at hcount
    simp only [reduceCtorEq, false_iff, not_and]
    intro hn he
    rw [Option.getD_none] at hcount
    omega
  | some m =>
    rw [hget, Option.getD_some] at hcount
    rw [hget, Option.isSome_some] at hsome
    have hpos : 0 < keys.count key := List.count_pos_iff.mpr (hsome.mp rfl)
    rw [Option.some.injEq]
    omega

theorem mem_tallies_congr {keys keys' : List K} (h : keys.Perm keys') {e : K × ℕ} :
    e ∈ (tallies keys).entries ↔ e ∈ (tallies keys').entries := by
  obtain ⟨key, n⟩ := e
  rw [mem_tallies, mem_tallies, h.count_eq]

end FinP2PAdapter.Tallies
