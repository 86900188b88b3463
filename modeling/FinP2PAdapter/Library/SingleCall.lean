import FinP2PAdapter.Library.Effects

/-! Computations that get everything ready and then make the one call that counts. Which events are calls
and which have failed is left open. `Prepares` is for the parts before the call, `Settles` for the whole: it
stops at its first failure while nothing is called, or goes on to its last part with nothing called and nothing
failed. -/

namespace FinP2PAdapter.Effects

variable {ε η α β : Type} {isCall failed : η → Bool} {op : Op ε η α} {f : α → Op ε η β}

/-- No event but the last has failed. -/
def Unfailing (failed : η → Bool) (events : List η) : Prop := ∀ e ∈ events.dropLast, failed e = false

theorem unfailing_nil : Unfailing failed [] := by
  intro e he
  cases he

theorem unfailing_singleton (e : η) : Unfailing failed [e] := by
  intro e he
  cases he

/-- What comes after events without a failure. -/
theorem Unfailing.prepend {events more : List η} (hevents : ∀ e ∈ events, failed e = false)
    (hmore : Unfailing failed more) : Unfailing failed (events ++ more) := by
  intro e he
  rcases more.eq_nil_or_concat with rfl | ⟨more, last, rfl⟩
  · rw [List.append_nil] at he
    exact hevents e (List.dropLast_subset _ he)
  · rw [List.concat_eq_append, ← List.append_assoc, List.dropLast_concat] at he
    rw [List.concat_eq_append] at hmore
    rcases List.mem_append.mp he with he | he
    · exact hevents e he
    · exact hmore e (by rwa [List.dropLast_concat])

/-- No call, no failure but at the end and, if the part returns, none at all. -/
structure Quiet (isCall failed : η → Bool) (result : Except ε α) (events : List η) : Prop where
  uncalled : ∀ e ∈ events, isCall e = false
  unfailing : Unfailing failed events
  returned : ∀ a, result = .ok a → ∀ e ∈ events, failed e = false

def Prepares (isCall failed : η → Bool) (op : Op ε η α) : Prop := Ensures op (Quiet isCall failed)

/-- Every run stops without a call, or ends with the events of a last part, before which there is no call and
no failure. -/
def Settles (isCall failed : η → Bool) (stopped : Except ε α → Prop) (settled : List η → Except ε α → Prop)
    (op : Op ε η α) : Prop :=
  Ensures op fun result events =>
    ((∀ e ∈ events, isCall e = false) ∧ Unfailing failed events ∧ stopped result) ∨
    ∃ before last, events = before ++ last ∧ (∀ e ∈ before, isCall e = false ∧ failed e = false) ∧
      settled last result

theorem Prepares.emit {event : List η → η} {outcome : List η → Except ε α}
    (hcall : ∀ history, isCall (event history) = false)
    (hfailed : ∀ history a, outcome history = .ok a → failed (event history) = false) :
    Prepares isCall failed (.emit event outcome) := by
  refine Ensures.emit fun history => ⟨?_, unfailing_singleton _, ?_⟩
  · intro e he
    rw [List.mem_singleton.mp he]
    exact hcall history
  · intro a ha e he
    rw [List.mem_singleton.mp he]
    exact hfailed history a ha

theorem Prepares.bind (h : Prepares isCall failed op) (hf : ∀ a, Prepares isCall failed (f a)) :
    Prepares isCall failed (op >>= f) := by
  refine Ensures.bind h ?_ fun a events hq => (hf a).mono fun r more hm => ⟨?_, ?_, ?_⟩
  · exact fun e events hq => ⟨hq.uncalled, hq.unfailing, fun b hb => by cases hb⟩
  · intro e he
    rcases List.mem_append.mp he with he | he
    · exact hq.uncalled e he
    · exact hm.uncalled e he
  · exact hm.unfailing.prepend (hq.returned a rfl)
  · intro b hb e he
    rcases List.mem_append.mp he with he | he
    · exact hq.returned a rfl e he
    · exact hm.returned b hb e he

variable {stopped : Except ε β → Prop} {settled : List η → Except ε β → Prop}

/-- The last part by itself. -/
theorem Settles.of_ensures {op : Op ε η β} (h : Ensures op fun result events =>
    ((∀ e ∈ events, isCall e = false) ∧ Unfailing failed events ∧ stopped result) ∨ settled events result) :
    Settles isCall failed stopped settled op := by
  refine Ensures.mono h fun result events hq => hq.imp_right fun hs => ?_
  exact ⟨[], events, rfl, by simp, hs⟩

/-- An early end. -/
theorem Settles.of_prepares {op : Op ε η β} (h : Ensures op fun result events =>
    (∀ e ∈ events, isCall e = false) ∧ Unfailing failed events ∧ stopped result) :
    Settles isCall failed stopped settled op :=
  Ensures.mono h fun _ _ hq => .inl hq

theorem Settles.bind (h : Prepares isCall failed op) (herror : ∀ e, stopped (.error e))
    (hf : ∀ a, Settles isCall failed stopped settled (f a)) :
    Settles isCall failed stopped settled (op >>= f) := by
  refine Ensures.bind h (fun e events hq => .inl ⟨hq.uncalled, hq.unfailing, herror e⟩) fun a events hq =>
    (hf a).mono fun r more hm => ?_
  have hreturned := hq.returned a rfl
  rcases hm with ⟨hnone, hunfailing, hstop⟩ | ⟨before, last, rfl, hbefore, hs⟩
  · refine .inl ⟨fun e he => ?_, hunfailing.prepend hreturned, hstop⟩
    rcases List.mem_append.mp he with he | he
    · exact hq.uncalled e he
    · exact hnone e he
  · refine .inr ⟨events ++ before, last, (List.append_assoc ..).symm, fun e he => ?_, hs⟩
    rcases List.mem_append.mp he with he | he
    · exact ⟨hq.uncalled e he, hreturned e he⟩
    · exact hbefore e he

end FinP2PAdapter.Effects
