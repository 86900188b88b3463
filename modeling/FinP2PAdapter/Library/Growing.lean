import FinP2PAdapter.Library.Interrupts

/-! Programs over a state that is only added to. Wherever such a program ends or is stopped, the state keeps its
invariant and has what it had; what else is known of it is known where the program returns. A fact that growth
cannot undo is carried through a program by `frame`. -/

namespace FinP2PAdapter.Interrupts

variable {ε σ α β : Type}

/-- How a state grows, and what it keeps. -/
structure Growth (σ : Type) where
  inv : σ → Prop
  le : σ → σ → Prop
  refl : ∀ s, le s s
  trans : ∀ {s t u}, le s t → le t u → le s u

/-- From a state of `P` the program returns only with `Q`. -/
def Meets (g : Growth σ) (P : σ → Prop) (x : Act ε σ α) (Q : α → σ → Prop) : Prop :=
  ∀ s, g.inv s → P s → g.inv (exec x s).2 ∧ g.le s (exec x s).2 ∧ ∀ a, (exec x s).1 = .ok a → Q a (exec x s).2

namespace Meets

variable {g : Growth σ} {P P' F : σ → Prop} {Q Q' : α → σ → Prop} {R : β → σ → Prop} {x y : Act ε σ α}
  {f : α → Act ε σ β}

theorem mono (h : Meets g P x Q) (hP : ∀ s, P' s → P s) (hQ : ∀ a s, Q a s → Q' a s) : Meets g P' x Q' := by
  intro s hs hp
  obtain ⟨hinv, hle, hq⟩ := h s hs (hP s hp)
  exact ⟨hinv, hle, fun a ha => hQ a _ (hq a ha)⟩

theorem pure {a : α} (h : ∀ s, P s → Q a s) : Meets g P (Pure.pure a : Act ε σ α) Q := by
  intro s hs hp
  refine ⟨hs, g.refl s, ?_⟩
  rintro b ⟨⟩
  exact h s hp

theorem throw {e : ε} : Meets g P (MonadExcept.throw e : Act ε σ α) Q :=
  fun s hs _ => ⟨hs, g.refl s, nofun⟩

theorem get {T : σ → σ → Prop} (h : ∀ s, P s → T s s) : Meets g P (MonadState.get : Act ε σ σ) T := by
  intro s hs hp
  refine ⟨hs, g.refl s, ?_⟩
  rintro b ⟨⟩
  exact h s hp

theorem bind (hx : Meets g P x Q) (hf : ∀ a, Meets g (Q a) (f a) R) : Meets g P (x >>= f) R := by
  intro s hs hp
  obtain ⟨hinv, hle, hq⟩ := hx s hs hp
  rw [exec_bind]
  cases hexec : exec x s with
  | mk r t =>
    rw [hexec] at hinv hle hq
    cases r with
    | error e => exact ⟨hinv, hle, nofun⟩
    | ok a =>
      obtain ⟨hinv', hle', hr⟩ := hf a t hinv (hq a rfl)
      exact ⟨hinv', g.trans hle hle', hr⟩

theorem map {k : α → β} (hx : Meets g P x Q) (hk : ∀ a s, Q a s → R (k a) s) : Meets g P (k <$> x) R := by
  rw [map_eq_pure_bind]
  exact bind hx fun a => pure fun s hs => hk a s hs

/-- What is known apart from the state is known throughout. -/
theorem fact {φ : Prop} (h : φ → Meets g (fun _ => True) x Q) : Meets g (fun _ => φ) x Q :=
  fun s hs hφ => h hφ s hs trivial

theorem factAnd {φ : Prop} (h : φ → Meets g P x Q) : Meets g (fun s => φ ∧ P s) x Q :=
  fun s hs hp => h hp.1 s hs hp.2

/-- A fact that growth cannot undo holds after the program if it held before. -/
theorem frame (hx : Meets g P x Q) (hF : ∀ s t, g.le s t → F s → F t) :
    Meets g (fun s => P s ∧ F s) x fun a s => Q a s ∧ F s := by
  intro s hs hp
  obtain ⟨hinv, hle, hq⟩ := hx s hs hp.1
  exact ⟨hinv, hle, fun a ha => ⟨hq a ha, hF s _ hle hp.2⟩⟩

/-- What a round achieves and growth cannot undo, a loop that ends has achieved for each item. -/
theorem forM {ι : Type} {f : ι → Act ε σ PUnit} {G : ι → σ → Prop} (hG : ∀ i s t, g.le s t → G i s → G i t)
    {is : List ι} (hround : ∀ i ∈ is, Meets g P (f i) fun _ s => P s ∧ G i s) :
    Meets g P (forM is f) fun _ s => P s ∧ ∀ i ∈ is, G i s := by
  induction is with
  | nil => exact pure fun s hp => ⟨hp, fun i hi => absurd hi List.not_mem_nil⟩
  | cons i is ih =>
    obtain ⟨hi, his⟩ := List.forall_mem_cons.mp hround
    rw [List.forM_cons]
    refine bind hi fun _ => ((ih his).frame (F := G i) (hG i)).mono (fun s hs => hs) fun _ s hs => ?_
    exact ⟨hs.1.1, List.forall_mem_cons.mpr ⟨hs.2, hs.1.2⟩⟩

end Meets

end FinP2PAdapter.Interrupts
