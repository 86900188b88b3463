import Mathlib.Data.List.Nodup
import Mathlib.Data.List.Basic

/-! Insertion-ordered maps with one entry per key, as JavaScript's `Map`:
setting a present key keeps its place, setting a new one appends. The entry
list carries the uniqueness of its keys, so lookup and membership agree and the
two update laws `get?_set` and `get?_delete` are all a client needs. -/

namespace FinP2PAdapter

/-- Entries in insertion order, one per key. -/
structure JsMap (K V : Type*) where
  entries : List (K × V)
  nodup : (entries.map Prod.fst).Nodup

namespace JsMap

variable {K V : Type*} [DecidableEq K]

def empty : JsMap K V := ⟨[], List.nodup_nil⟩

def get? (m : JsMap K V) (k : K) : Option V :=
  (m.entries.find? fun e => e.1 = k).map Prod.snd

def has (m : JsMap K V) (k : K) : Bool := (m.get? k).isSome

def values (m : JsMap K V) : List V := m.entries.map Prod.snd

theorem map_fst_replace (l : List (K × V)) (k : K) (v : V) :
    (l.map fun e => if e.1 = k then (k, v) else e).map Prod.fst = l.map Prod.fst := by
  rw [List.map_map]
  apply List.map_congr_left
  intro e _
  by_cases he : e.1 = k <;> simp [he]

def set (m : JsMap K V) (k : K) (v : V) : JsMap K V :=
  if h : k ∈ m.entries.map Prod.fst then
    ⟨m.entries.map fun e => if e.1 = k then (k, v) else e, by
      rw [map_fst_replace]; exact m.nodup⟩
  else
    ⟨m.entries ++ [(k, v)], by
      rw [List.map_append, List.nodup_append]
      refine ⟨m.nodup, by simp, ?_⟩
      rintro a ha b hb rfl
      simp only [List.map_cons, List.map_nil, List.mem_singleton] at hb
      exact h (hb ▸ ha)⟩

def delete (m : JsMap K V) (k : K) : JsMap K V :=
  ⟨m.entries.filter fun e => e.1 ≠ k, m.nodup.sublist (List.filter_sublist.map _)⟩

theorem get?_eq_some_iff (m : JsMap K V) (k : K) (v : V) :
    m.get? k = some v ↔ (k, v) ∈ m.entries := by
  obtain ⟨l, hl⟩ := m
  simp only [get?]
  induction l with
  | nil => simp
  | cons e l ih =>
    obtain ⟨j, w⟩ := e
    simp only [List.map_cons, List.nodup_cons] at hl
    by_cases hj : j = k
    · subst hj
      have hn : (j, v) ∉ l := fun h => hl.1 (List.mem_map_of_mem (f := Prod.fst) h)
      simp [hn, eq_comm]
    · simpa [hj, Ne.symm hj] using ih hl.2

theorem mem_set_entries (m : JsMap K V) (k : K) (v : V) (k' : K) (v' : V) :
    (k', v') ∈ (m.set k v).entries ↔ (k' = k ∧ v' = v) ∨ (k' ≠ k ∧ (k', v') ∈ m.entries) := by
  unfold set
  split_ifs with h
  · simp only [List.mem_map]
    constructor
    · rintro ⟨⟨j, w⟩, hm, he⟩
      by_cases hj : j = k
      · simp only [hj, if_true, Prod.mk.injEq] at he
        exact .inl ⟨he.1.symm, he.2.symm⟩
      · simp only [hj, if_false, Prod.mk.injEq] at he
        obtain ⟨rfl, rfl⟩ := he
        exact .inr ⟨hj, hm⟩
    · rintro (⟨rfl, rfl⟩ | ⟨hk, hm⟩)
      · obtain ⟨e, he, hek⟩ := List.mem_map.mp h
        exact ⟨e, he, by simp [hek]⟩
      · exact ⟨(k', v'), hm, by simp [hk]⟩
  · simp only [List.mem_append, List.mem_singleton, Prod.mk.injEq]
    constructor
    · rintro (hm | he)
      · exact .inr ⟨fun he => h (he ▸ List.mem_map_of_mem (f := Prod.fst) hm), hm⟩
      · exact .inl he
    · rintro (he | ⟨_, hm⟩)
      · exact .inr he
      · exact .inl hm

theorem get?_set (m : JsMap K V) (k : K) (v : V) (k' : K) :
    (m.set k v).get? k' = if k' = k then some v else m.get? k' := by
  apply Option.ext
  intro v'
  rw [get?_eq_some_iff, mem_set_entries]
  split_ifs with h
  · simp [h, eq_comm]
  · simp [h, get?_eq_some_iff]

theorem get?_delete (m : JsMap K V) (k k' : K) :
    (m.delete k).get? k' = if k' = k then none else m.get? k' := by
  apply Option.ext
  intro v'
  rw [get?_eq_some_iff]
  split_ifs with h
  · simp [delete, h]
  · simp [delete, h, get?_eq_some_iff]

@[simp] theorem get?_empty (k : K) : (empty : JsMap K V).get? k = none := rfl

@[simp] theorem get?_set_self (m : JsMap K V) (k : K) (v : V) : (m.set k v).get? k = some v := by
  simp [get?_set]

theorem get?_set_of_ne (m : JsMap K V) {k k' : K} (v : V) (h : k' ≠ k) :
    (m.set k v).get? k' = m.get? k' := by
  simp [get?_set, h]

@[simp] theorem get?_delete_self (m : JsMap K V) (k : K) : (m.delete k).get? k = none := by
  simp [get?_delete]

theorem get?_delete_of_ne (m : JsMap K V) {k k' : K} (h : k' ≠ k) :
    (m.delete k).get? k' = m.get? k' := by
  simp [get?_delete, h]

theorem get?_set_eq_update (m : JsMap K V) (k : K) (v : V) :
    (m.set k v).get? = Function.update m.get? k (some v) := by
  funext k'
  rw [get?_set, Function.update_apply]

theorem get?_delete_eq_update (m : JsMap K V) (k : K) :
    (m.delete k).get? = Function.update m.get? k none := by
  funext k'
  rw [get?_delete, Function.update_apply]

theorem mem_values (m : JsMap K V) (v : V) : v ∈ m.values ↔ ∃ k, m.get? k = some v := by
  simp only [values, List.mem_map, get?_eq_some_iff]
  constructor
  · rintro ⟨⟨k, w⟩, hm, rfl⟩
    exact ⟨k, hm⟩
  · rintro ⟨k, hm⟩
    exact ⟨(k, v), hm, rfl⟩

theorem get?_eq_none_iff (m : JsMap K V) (k : K) : m.get? k = none ↔ k ∉ m.entries.map Prod.fst := by
  constructor
  · rintro h hk
    obtain ⟨⟨j, v⟩, hm, rfl⟩ := List.mem_map.mp hk
    rw [(get?_eq_some_iff m j v).mpr hm] at h
    cases h
  · intro hk
    by_contra h
    obtain ⟨v, hv⟩ := Option.ne_none_iff_exists'.mp h
    exact hk (List.mem_map_of_mem ((get?_eq_some_iff m k v).mp hv))

theorem values_set_of_absent (m : JsMap K V) {k : K} (v : V) (h : m.get? k = none) :
    (m.set k v).values = m.values ++ [v] := by
  simp [set, values, dif_neg ((get?_eq_none_iff m k).mp h)]

theorem values_delete_sublist (m : JsMap K V) (k : K) : (m.delete k).values.Sublist m.values :=
  List.filter_sublist.map _

end JsMap

end FinP2PAdapter
