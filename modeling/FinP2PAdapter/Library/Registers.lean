import Mathlib.Data.List.Induction
import Mathlib.Logic.Function.Basic

/-! A register that writes put values into and drop values from, for any keys and values. What it holds was put or was
there at first, and what it has lost was dropped. -/

namespace FinP2PAdapter.Registers

variable {κ ν : Type*}

inductive Write (κ ν : Type*) where
  | put (key : κ) (value : ν)
  | drop (key : κ)
  deriving DecidableEq, Repr

variable [DecidableEq κ] {register : κ → Option ν} {key : κ}

def Write.apply (register : κ → Option ν) : Write κ ν → κ → Option ν
  | .put key value => Function.update register key (some value)
  | .drop key => Function.update register key none

/-- The register after the writes, the first one first. -/
def after (register : κ → Option ν) (writes : List (Write κ ν)) : κ → Option ν := writes.foldl Write.apply register

theorem after_append (writes more : List (Write κ ν)) :
    after register (writes ++ more) = after (after register writes) more := List.foldl_append

theorem after_concat (writes : List (Write κ ν)) (write : Write κ ν) :
    after register (writes ++ [write]) = write.apply (after register writes) := by
  rw [after_append]
  rfl

theorem apply_cases (register : κ → Option ν) (write : Write κ ν) (key : κ) :
    write.apply register key = register key ∨
      (∃ value, write = .put key value ∧ write.apply register key = some value) ∨
      write = .drop key ∧ write.apply register key = none := by
  cases write with
  | put key' value =>
    by_cases hkey : key = key'
    · subst hkey
      exact .inr (.inl ⟨value, rfl, Function.update_self ..⟩)
    · exact .inl (Function.update_of_ne hkey ..)
  | drop key' =>
    by_cases hkey : key = key'
    · subst hkey
      exact .inr (.inr ⟨rfl, Function.update_self ..⟩)
    · exact .inl (Function.update_of_ne hkey ..)

/-- A key's value is the one at first, or one that was put, or it was dropped. -/
theorem after_cases (register : κ → Option ν) (writes : List (Write κ ν)) (key : κ) :
    after register writes key = register key ∨
      (∃ value, .put key value ∈ writes ∧ after register writes key = some value) ∨
      .drop key ∈ writes ∧ after register writes key = none := by
  induction writes using List.reverseRecOn with
  | nil => exact .inl rfl
  | append_singleton writes write ih =>
    rw [after_concat]
    rcases apply_cases (after register writes) write key with hkept | ⟨value, rfl, hput⟩ | ⟨rfl, hdropped⟩
    · rw [hkept]
      simp only [List.mem_append]
      exact ih.imp_right fun h => h.imp (fun ⟨value, hput⟩ => ⟨value, .inl hput.1, hput.2⟩) fun h => ⟨.inl h.1, h.2⟩
    · exact .inr (.inl ⟨value, by simp, hput⟩)
    · exact .inr (.inr ⟨by simp, hdropped⟩)

theorem put_of_after {writes : List (Write κ ν)} {value : ν} (h : after register writes key = some value) :
    register key = some value ∨ .put key value ∈ writes := by
  rcases after_cases register writes key with hkept | ⟨value', hput, hvalue⟩ | ⟨-, hnone⟩
  · exact .inl (hkept.symm.trans h)
  · cases hvalue.symm.trans h
    exact .inr hput
  · cases hnone.symm.trans h

end FinP2PAdapter.Registers
