import Mathlib.Tactic.Common

/-! Computations that may throw and that leave a log of what they did. The log is also what the
world's answers may depend on, so a computation stands for all its runs in a changing world.
`Ensures` is what every run of a computation guarantees of its result and of the events it adds;
its rules follow the ways computations are put together. `Yields` is for a world that always gives
the same answers: every run then has the result of one computation without a log, which may tell
errors in a way of its own (`Mirrors`). -/

namespace FinP2PAdapter.Effects

variable {ε η α β : Type}

/-- From the events so far to the result and all events. -/
def Op (ε η α : Type) : Type := List η → Except ε α × List η

namespace Op

instance : Monad (Op ε η) where
  pure a := fun history => (.ok a, history)
  bind op f := fun history =>
    match op history with
    | (.error e, after) => (.error e, after)
    | (.ok a, after) => f a after

/-- Add an event and its outcome. -/
def emit (event : List η → η) (outcome : List η → Except ε α) : Op ε η α := fun history =>
  (outcome history, history ++ [event history])

/-- `try body catch`, with a handler that does not throw. -/
def orElse (body : Op ε η α) (handler : ε → α) : Op ε η α := fun history =>
  match body history with
  | (.error e, after) => (.ok (handler e), after)
  | (.ok a, after) => (.ok a, after)

end Op

/-- An event of a log with one more event is that one, or one that was there before. -/
theorem last_or_earlier {history before after : List η} {e x : η} (h : history ++ [e] = before ++ x :: after) :
    (history = before ∧ e = x) ∨ ∃ after', history = before ++ x :: after' := by
  rcases after.eq_nil_or_concat with rfl | ⟨after', last, rfl⟩
  · obtain ⟨rfl, hlast⟩ := List.append_inj' h rfl
    exact .inl ⟨rfl, (List.cons.inj hlast).1⟩
  · have hassoc : history ++ [e] = (before ++ x :: after') ++ [last] := by
      rw [h, List.concat_eq_append, List.append_assoc]
      rfl
    exact .inr ⟨after', (List.append_inj' hassoc rfl).1⟩

/-- Every run adds events that, with its result, meet `Q`. -/
def Ensures (op : Op ε η α) (Q : Except ε α → List η → Prop) : Prop :=
  ∀ history, ∃ events, (op history).2 = history ++ events ∧ Q (op history).1 events

variable {op : Op ε η α} {f : α → Op ε η β} {Q Q' : Except ε α → List η → Prop}
  {R : Except ε β → List η → Prop}

theorem Ensures.mono (h : Ensures op Q) (hw : ∀ r events, Q r events → Q' r events) : Ensures op Q' := by
  intro history
  obtain ⟨events, hrun, hq⟩ := h history
  exact ⟨events, hrun, hw _ _ hq⟩

theorem Ensures.pure {a : α} (h : Q (.ok a) []) : Ensures (Pure.pure a) Q := by
  intro history
  exact ⟨[], (List.append_nil _).symm, h⟩

theorem Ensures.emit {event : List η → η} {outcome : List η → Except ε α}
    (h : ∀ history, Q (outcome history) [event history]) : Ensures (Op.emit event outcome) Q := by
  intro history
  exact ⟨[event history], rfl, h history⟩

/-- What a first part ensures is followed by what the rest does. -/
theorem Ensures.bind (h : Ensures op Q) (herror : ∀ e events, Q (.error e) events → R (.error e) events)
    (hok : ∀ a events, Q (.ok a) events → Ensures (f a) fun r more => R r (events ++ more)) :
    Ensures (op >>= f) R := by
  intro history
  obtain ⟨events, hrun, hq⟩ := h history
  cases hop : op history with
  | mk result after =>
    rw [hop] at hrun hq
    cases result with
    | error e =>
      have hbind : (op >>= f) history = (.error e, after) := by simp [Bind.bind, hop]
      rw [hbind]
      exact ⟨events, hrun, herror e events hq⟩
    | ok a =>
      obtain ⟨more, hmore, hr⟩ := hok a events hq after
      have hbind : (op >>= f) history = f a after := by simp [Bind.bind, hop]
      rw [hbind]
      refine ⟨events ++ more, ?_, hr⟩
      have hafter : after = history ++ events := hrun
      rw [hmore, hafter, List.append_assoc]

/-- A caught computation always returns. -/
theorem Ensures.orElse {handler : ε → α} (h : Ensures op Q) (hok : ∀ a events, Q (.ok a) events → Q' (.ok a) events)
    (herror : ∀ e events, Q (.error e) events → Q' (.ok (handler e)) events) :
    Ensures (op.orElse handler) Q' := by
  intro history
  obtain ⟨events, hrun, hq⟩ := h history
  cases hop : op history with
  | mk result after =>
    rw [hop] at hrun hq
    cases result with
    | error e =>
      have hcaught : op.orElse handler history = (.ok (handler e), after) := by simp [Op.orElse, hop]
      rw [hcaught]
      exact ⟨events, hrun, herror e events hq⟩
    | ok a =>
      have hcaught : op.orElse handler history = (.ok a, after) := by simp [Op.orElse, hop]
      rw [hcaught]
      exact ⟨events, hrun, hok a events hq⟩

/-- Every run has this result. -/
def Yields (op : Op ε η α) (result : Except ε α) : Prop := ∀ history, (op history).1 = result

variable {result : Except ε α} {g : α → Except ε β}

theorem Yields.pure {a : α} : Yields (Pure.pure a : Op ε η α) (.ok a) := fun _ => rfl

theorem Yields.emit {event : List η → η} : Yields (Op.emit event fun _ => result) result := fun _ => rfl

theorem Yields.bind (h : Yields op result) (hf : ∀ a, Yields (f a) (g a)) :
    Yields (op >>= f) (result >>= g) := by
  intro history
  have hop := h history
  cases hrun : op history with
  | mk first after =>
    rw [hrun] at hop
    subst hop
    cases first with
    | error e => simp [Bind.bind, Except.bind, hrun]
    | ok a =>
      have hbind : (op >>= f) history = f a after := by simp [Bind.bind, hrun]
      rw [hbind]
      exact hf a after

/-- Of a first part that always returns `a`, only the rest on `a` matters. -/
theorem Yields.andThen {a : α} {rest : Except ε β} (h : Yields op (.ok a)) (hf : Yields (f a) rest) :
    Yields (op >>= f) rest := by
  intro history
  have hop := h history
  cases hrun : op history with
  | mk first after =>
    rw [hrun] at hop
    subst hop
    have hbind : (op >>= f) history = f a after := by simp [Bind.bind, hrun]
    rw [hbind]
    exact hf after

/-- What a caught computation without a log returns. -/
def caught (handler : ε → α) : Except ε α → α
  | .ok a => a
  | .error e => handler e

theorem Yields.orElse {handler : ε → α} (h : Yields op result) :
    Yields (op.orElse handler) (.ok (caught handler result)) := by
  intro history
  have hop := h history
  cases hrun : op history with
  | mk first after =>
    rw [hrun] at hop
    subst hop
    cases first <;> simp [Op.orElse, hrun, caught]

/-- Every run has the one result that is found without a log, its errors reported in another way. -/
def Mirrors {δ : Type} (report : ε → δ) (op : Op ε η α) (found : Except δ α) : Prop :=
  ∃ answer, Yields op answer ∧ found = answer.mapError report

end FinP2PAdapter.Effects
