import Mathlib.Tactic.Common

/-! Programs over a state that may throw, and that keep what they did before they threw. A program
`Stops` as another one does if it is that one, or is stopped part way by an error that no catch
takes. What every step keeps, a program keeps wherever it is stopped. A loop over a list is a
program like any other; what it leaves is known from its rounds. -/

namespace FinP2PAdapter.Interrupts

variable {ε σ α β : Type}

abbrev Act (ε σ α : Type) := ExceptT ε (StateM σ) α

/-- The result, and the state it is reached in. -/
def exec (x : Act ε σ α) (s : σ) : Except ε α × σ := x.run.run s

section Exec

variable {x : Act ε σ α} {f : α → Act ε σ β} {s t : σ} {a : α} {e : ε}

@[simp] theorem exec_pure : exec (pure a : Act ε σ α) s = (.ok a, s) := rfl

@[simp] theorem exec_throw : exec (throw e : Act ε σ α) s = (.error e, s) := rfl

@[simp] theorem exec_get : exec (get : Act ε σ σ) s = (.ok s, s) := rfl

@[simp] theorem exec_set : exec (set t : Act ε σ PUnit) s = (.ok ⟨⟩, t) := rfl

@[simp] theorem exec_modify {g : σ → σ} : exec (modify g : Act ε σ PUnit) s = (.ok ⟨⟩, g s) := rfl

theorem exec_bind (x : Act ε σ α) (f : α → Act ε σ β) (s : σ) :
    exec (x >>= f) s =
      match exec x s with
      | (.ok a, s') => exec (f a) s'
      | (.error e, s') => (.error e, s') := by
  unfold exec
  rw [ExceptT.run_bind, StateT.run_bind]
  cases x.run.run s with
  | mk r s' => cases r <;> rfl

theorem exec_bind_ok (h : exec x s = (.ok a, t)) : exec (x >>= f) s = exec (f a) t := by
  rw [exec_bind, h]

theorem exec_bind_error (h : exec x s = (.error e, t)) : exec (x >>= f) s = (.error e, t) := by
  rw [exec_bind, h]

theorem exec_catch (x : Act ε σ α) (handler : ε → Act ε σ α) (s : σ) :
    exec (tryCatch x handler) s =
      match exec x s with
      | (.ok a, s') => (.ok a, s')
      | (.error e, s') => exec (handler e) s' := by
  unfold exec
  rw [ExceptT.run_tryCatch, StateT.run_bind]
  cases x.run.run s with
  | mk r s' => cases r <;> rfl

theorem exec_catch_ok {handler : ε → Act ε σ α} (h : exec x s = (.ok a, t)) :
    exec (tryCatch x handler) s = (.ok a, t) := by
  rw [exec_catch, h]

theorem exec_catch_error {handler : ε → Act ε σ α} (h : exec x s = (.error e, t)) :
    exec (tryCatch x handler) s = exec (handler e) t := by
  rw [exec_catch, h]

end Exec

/-- A transaction changes the state as it is asked to, or is refused and changes nothing. -/
def transact (change : σ → Except ε σ) : Act ε σ Unit := do
  match change (← get) with
  | .ok s => set s
  | .error e => throw e

theorem transact_ok {change : σ → Except ε σ} {s s' : σ} (h : change s = .ok s') :
    exec (transact change) s = (.ok (), s') := by
  simp only [transact, exec_bind, exec_get, h, exec_set]

theorem transact_error {change : σ → Except ε σ} {s : σ} {e : ε} (h : change s = .error e) :
    exec (transact change) s = (.error e, s) := by
  simp only [transact, exec_bind, exec_get, h, exec_throw]

/-! ### What a program keeps -/

/-- `P` holds again wherever the program ends or is stopped. -/
def Keeps (P : σ → Prop) (x : Act ε σ α) : Prop := ∀ s, P s → P (exec x s).2

namespace Keeps

variable {P : σ → Prop} {x : Act ε σ α} {f : α → Act ε σ β}

theorem pure {a : α} : Keeps P (Pure.pure a : Act ε σ α) := fun _ h => h

theorem throw {e : ε} : Keeps P (MonadExcept.throw e : Act ε σ α) := fun _ h => h

theorem read {g : σ → α} : Keeps P (g <$> get : Act ε σ α) := fun _ h => h

theorem modifies {g : σ → σ} (h : ∀ s, P s → P (g s)) : Keeps P (modify g : Act ε σ PUnit) := h

theorem transact {change : σ → Except ε σ} (h : ∀ s s', P s → change s = .ok s' → P s') :
    Keeps P (Interrupts.transact change) := by
  intro s hs
  cases hchange : change s with
  | ok s' =>
    rw [transact_ok hchange]
    exact h s s' hs hchange
  | error e =>
    rw [transact_error hchange]
    exact hs

theorem bind (hx : Keeps P x) (hf : ∀ a, Keeps P (f a)) : Keeps P (x >>= f) := by
  intro s hs
  have hfirst := hx s hs
  rw [exec_bind]
  cases hexec : exec x s with
  | mk r s' =>
    rw [hexec] at hfirst
    cases r with
    | ok a => exact hf a s' hfirst
    | error e => exact hfirst

theorem catch_ {handler : ε → Act ε σ α} (hx : Keeps P x) (hhandler : ∀ e, Keeps P (handler e)) :
    Keeps P (tryCatch x handler) := by
  intro s hs
  have hbody := hx s hs
  rw [exec_catch]
  cases hexec : exec x s with
  | mk r s' =>
    rw [hexec] at hbody
    cases r with
    | ok a => exact hbody
    | error e => exact hhandler e s' hbody

theorem forM {ι : Type} {f : ι → Act ε σ PUnit} {as : List ι} (h : ∀ a ∈ as, Keeps P (f a)) :
    Keeps P (forM as f) := by
  induction as with
  | nil => exact pure
  | cons a as ih =>
    obtain ⟨ha, has⟩ := List.forall_mem_cons.mp h
    rw [List.forM_cons]
    exact bind ha fun _ => ih has

end Keeps

/-! ### Programs that are stopped -/

/-- `x` goes as `y` does, or is stopped by an error in `F`. -/
def Stops (F : ε → Prop) (x y : Act ε σ α) : Prop :=
  ∀ s, exec x s = exec y s ∨ ∃ e s', exec x s = (.error e, s') ∧ F e

namespace Stops

variable {F : ε → Prop} {x y : Act ε σ α} {f g : α → Act ε σ β}

theorem refl (x : Act ε σ α) : Stops F x x := fun _ => .inl rfl

theorem bind (hx : Stops F x y) (hf : ∀ a, Stops F (f a) (g a)) : Stops F (x >>= f) (y >>= g) := by
  intro s
  rw [exec_bind, exec_bind]
  rcases hx s with hsame | ⟨e, s', hstop, he⟩
  · rw [hsame]
    cases exec y s with
    | mk r s' =>
      cases r with
      | ok a => exact hf a s'
      | error e => exact .inl rfl
  · rw [hstop]
    exact .inr ⟨e, s', rfl, he⟩

/-- A catch that takes no error of `F` is passed by what stops its body. -/
theorem catch_ {handler : ε → Act ε σ α} (hx : Stops F x y) (hrethrown : ∀ e, F e → handler e = throw e) :
    Stops F (tryCatch x handler) (tryCatch y handler) := by
  intro s
  rw [exec_catch, exec_catch]
  rcases hx s with hsame | ⟨e, s', hstop, he⟩
  · rw [hsame]
    exact .inl rfl
  · rw [hstop]
    refine .inr ⟨e, s', ?_, he⟩
    show exec (handler e) s' = _
    rw [hrethrown e he, exec_throw]

theorem forM {ι : Type} {f g : ι → Act ε σ PUnit} {as : List ι} (h : ∀ a ∈ as, Stops F (f a) (g a)) :
    Stops F (forM as f) (forM as g) := by
  induction as with
  | nil => exact refl _
  | cons a as ih =>
    obtain ⟨ha, has⟩ := List.forall_mem_cons.mp h
    rw [List.forM_cons, List.forM_cons]
    exact bind ha fun _ => ih has

/-- A program that ends was not stopped. -/
theorem eq_of_ok (h : Stops F x y) {s s' : σ} {a : α} (hok : exec x s = (.ok a, s')) :
    exec y s = (.ok a, s') := by
  rcases h s with hsame | ⟨e, s'', hstop, -⟩
  · rw [← hsame, hok]
  · rw [hok] at hstop
    cases hstop

end Stops

/-! ### Loops -/

variable {ι : Type} {f : ι → Act ε σ PUnit} {as bs : List ι} {s s' : σ}

/-- A loop ends and achieves for each item what that item's round does, if no round undoes it. -/
theorem forM_achieves {P : σ → Prop} {G : ι → σ → Prop}
    (hround : ∀ a ∈ as, ∀ s, P s → ∃ s', exec (f a) s = (.ok ⟨⟩, s') ∧ P s' ∧ G a s')
    (hkeeps : ∀ a ∈ as, ∀ b ∈ as, Keeps (G a) (f b)) (hs : P s) :
    ∃ s', exec (forM as f) s = (.ok ⟨⟩, s') ∧ P s' ∧ ∀ a ∈ as, G a s' := by
  induction as generalizing s with
  | nil => exact ⟨s, rfl, hs, fun a ha => absurd ha List.not_mem_nil⟩
  | cons a as ih =>
    obtain ⟨s₁, hfirst, hs₁, hachieved⟩ := hround a List.mem_cons_self s hs
    obtain ⟨s₂, hrest, hs₂, hall⟩ := ih (fun b hb => hround b (List.mem_cons_of_mem _ hb))
      (fun b hb c hc => hkeeps b (List.mem_cons_of_mem _ hb) c (List.mem_cons_of_mem _ hc)) hs₁
    have hexec : exec (forM (a :: as) f) s = (.ok ⟨⟩, s₂) := by
      rw [List.forM_cons, exec_bind_ok hfirst, hrest]
    refine ⟨s₂, hexec, hs₂, List.forall_mem_cons.mpr ⟨?_, hall⟩⟩
    have hkept := Keeps.forM (fun b hb => hkeeps a List.mem_cons_self b (List.mem_cons_of_mem _ hb)) s₁ hachieved
    rw [hrest] at hkept
    exact hkept

/-- In a loop that ends, the loop up to an item ends, and so does the item's round. -/
theorem forM_split {a : ι} (h : exec (forM (as ++ a :: bs) f) s = (.ok ⟨⟩, s')) :
    ∃ s₁ s₂, exec (forM as f) s = (.ok ⟨⟩, s₁) ∧ exec (f a) s₁ = (.ok ⟨⟩, s₂) := by
  rw [List.forM_append, List.forM_cons] at h
  cases hbefore : exec (forM as f) s with
  | mk r s₁ =>
    cases r with
    | error e =>
      rw [exec_bind_error hbefore] at h
      cases h
    | ok _ =>
      rw [exec_bind_ok hbefore] at h
      cases hround : exec (f a) s₁ with
      | mk r s₂ =>
        cases r with
        | error e =>
          rw [exec_bind_error hround] at h
          cases h
        | ok _ => exact ⟨s₁, s₂, rfl, hround⟩

end FinP2PAdapter.Interrupts
