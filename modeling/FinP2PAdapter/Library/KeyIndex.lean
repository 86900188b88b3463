import FinP2PAdapter.Library.JsMap
import Mathlib.Data.List.Induction

/-! A map filled from a list of items, each under the key it has, if it has one. It finds a value
for exactly the keys that some item has, and the value is such an item's. -/

namespace FinP2PAdapter.KeyIndex

variable {ι K V : Type*} [DecidableEq K] {key : ι → Option K} {value : ι → V}

def add (key : ι → Option K) (value : ι → V) (index : JsMap K V) (item : ι) : JsMap K V :=
  match key item with
  | some k => index.set k (value item)
  | none => index

def fill (key : ι → Option K) (value : ι → V) (items : List ι) : JsMap K V :=
  items.foldl (add key value) JsMap.empty

theorem fill_append (items : List ι) (item : ι) :
    fill key value (items ++ [item]) = add key value (fill key value items) item := by
  simp [fill]

theorem get?_add (index : JsMap K V) (item : ι) (k : K) :
    (add key value index item).get? k = if key item = some k then some (value item) else index.get? k := by
  unfold add
  cases hkey : key item with
  | none => simp
  | some k' =>
    rw [JsMap.get?_set]
    simp only [Option.some.injEq, eq_comm]

/-- What is found is the value of an item with that key. -/
theorem exists_of_get?_fill {items : List ι} {k : K} {v : V}
    (h : (fill key value items).get? k = some v) : ∃ item ∈ items, key item = some k ∧ value item = v := by
  induction items using List.reverseRecOn with
  | nil => cases h
  | append_singleton items item ih =>
    rw [fill_append, get?_add] at h
    split_ifs at h with hkey
    · cases h
      exact ⟨item, by simp, hkey, rfl⟩
    · obtain ⟨item', hmem, hitem⟩ := ih h
      exact ⟨item', List.mem_append_left _ hmem, hitem⟩

/-- Nothing is found only if no item has the key. -/
theorem get?_fill_eq_none_iff {items : List ι} {k : K} :
    (fill key value items).get? k = none ↔ ∀ item ∈ items, key item ≠ some k := by
  induction items using List.reverseRecOn with
  | nil => simp [fill]
  | append_singleton items item ih =>
    rw [fill_append, get?_add]
    simp only [List.mem_append, List.mem_singleton]
    split_ifs with hkey
    · simp only [false_iff, not_forall]
      exact ⟨item, .inr rfl, not_not.mpr hkey⟩
    · rw [ih]
      constructor
      · rintro h item' (hmem | rfl)
        · exact h item' hmem
        · exact hkey
      · exact fun h item' hmem => h item' (.inl hmem)

end FinP2PAdapter.KeyIndex
