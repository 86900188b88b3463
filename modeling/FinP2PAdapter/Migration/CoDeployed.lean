import FinP2PAdapter.Migration.Progress
import FinP2PAdapter.Migration.SerialOrder

/-! Adapters with different ledger schemas boot on one database. Their runs are equivalent to a
serial order as long as no adapter commits a legacy table under its own name while another is
about to rename it. When that happens the other boot fails on a table that is gone, which it
would have skipped in any serial order: the recovery only looks for the table under its own new
name. -/

namespace FinP2PAdapter.Migration

open Renames Machine

variable {ι ν τ : Type*} [DecidableEq ι] [Fintype ι] [DecidableEq ν]

/-- The new names are neither a legacy name nor another adapter's new name of the other table. -/
structure NamesApart (identifier : String → ν) (vanillaMigrationsTable : String) (ledgerSchema : ι → String) :
    Prop where
  legacy : identifier "finp2p_ethereum_adapater_migrations" ≠ identifier vanillaMigrationsTable
  fresh : ∀ i, ∀ r ∈ renamesOf identifier vanillaMigrationsTable (ledgerSchema i),
    r.target ≠ identifier "finp2p_ethereum_adapater_migrations" ∧ r.target ≠ identifier vanillaMigrationsTable
  separate : ∀ i j, identifier (ledgerSchema i ++ "_migrations") ≠
    identifier (ledgerSchema j ++ "_" ++ vanillaMigrationsTable)

omit [DecidableEq ι] [Fintype ι] [DecidableEq ν] in
theorem NamesApart.coherent {identifier : String → ν} {vanillaMigrationsTable : String}
    {ledgerSchema : ι → String} (h : NamesApart identifier vanillaMigrationsTable ledgerSchema) :
    Coherent fun i => renamesOf identifier vanillaMigrationsTable (ledgerSchema i) where
  once i := by simpa [renamesOf] using h.legacy
  apart := by
    rintro r r' ⟨i, hr⟩ ⟨j, hr'⟩
    refine ⟨?_, ?_⟩
    · obtain ⟨hne, hne'⟩ := h.fresh i r hr
      simp only [renamesOf, List.mem_cons, List.not_mem_nil, or_false] at hr'
      rcases hr' with rfl | rfl
      · exact hne
      · exact hne'
    · have hij := h.separate i j
      have hji := h.separate j i
      simp only [renamesOf, List.mem_cons, List.not_mem_nil, or_false] at hr hr'
      rcases hr with rfl | rfl <;> rcases hr' with rfl | rfl <;> intro he
      · rfl
      · exact absurd he hij
      · exact absurd he.symm hji
      · rfl

/-- A state of an interleaving that a serial order of the runs accounts for: the same committed
catalogue, and the same end of every run that has ended. -/
def SerialEquivalent (renames : ι → List (Rename ν)) (c : Catalog ν τ) (s : State ι ν τ) : Prop :=
  ∃ t, ReachUnder (step renames) OneAtATime (start c) t ∧ t.server.committed = s.server.committed ∧
    ∀ i, (s.runs i).finished = true → t.runs i = s.runs i

variable {renames : ι → List (Rename ν)} {c : Catalog ν τ} {s : State ι ν τ}

theorem serialEquivalent_of_reachUnder (hc : Coherent renames)
    (h : ReachUnder (step renames) Unrivalled (start c) s) : SerialEquivalent renames c s := by
  obtain ⟨t, ht, hser⟩ := serialized_of_reachUnder hc h
  refine ⟨t, ht, hser.committed, fun i hi => ?_⟩
  have hr := hser.runs i
  cases hrun : s.runs i with
  | ended =>
    rw [hrun] at hr
    exact hr
  | threw e =>
    rw [hrun] at hr
    exact hr
  | _ => simp [hrun, Run.finished] at hi

omit [Fintype ι] in
/-- One run at a time, nobody is in another's way. -/
theorem unrivalled_of_oneAtATime {a : Action ι} (h : OneAtATime s a) : Unrivalled s a := by
  have hnone : ∀ i j, s.runs i = .committing → (∀ k, k ≠ i → (s.runs k).idle = true) →
      s.awaited j = none := by
    intro i j hi hidle
    by_cases hj : j = i
    · simp [State.awaited, hj, hi]
    · have hj := hidle j hj
      cases hrun : s.runs j with
      | adopting r rest stage => simp [hrun, Run.idle] at hj
      | _ => simp [State.awaited, hrun]
  cases a with
  | query i =>
    intro hi j r hr
    rw [hnone i j hi h] at hr
    cases hr
  | fails i => trivial
  | commitLost i =>
    intro hi j r hr
    rw [hnone i j hi h] at hr
    cases hr

/-- In a serial order a boot fails only for a reason of its own. -/
theorem serial_error (hc : Coherent renames) (h : ReachUnder (step renames) OneAtATime (start c) s) {i : ι}
    {e : QueryError} (hrun : s.runs i = .threw e) : e = .failed := by
  have hfits := (inv_of_reachUnder hc (h.mono fun _ _ => unrivalled_of_oneAtATime)).fits i
  rw [hrun] at hfits
  exact hfits.1

/-- Two adapters on one database. -/
def twoAdapters (i : Fin 2) : List (Rename String) :=
  renamesOf id "finp2p_vanilla_service_migrations" (if i = 0 then "adapter_a" else "adapter_b")

theorem twoAdapters_apart : NamesApart id "finp2p_vanilla_service_migrations"
    fun i : Fin 2 => if i = 0 then "adapter_a" else "adapter_b" where
  legacy := by decide
  fresh := by decide
  separate := by decide

/-- Both adapters see the legacy table; the second one claims it and finishes; the first one finds
the table gone, does not find it under its own name, and throws. -/
def rivalClaim : List (Action (Fin 2)) :=
  List.replicate 5 (.query 0) ++ List.replicate 10 (.query 1) ++ List.replicate 5 (.query 0)

theorem rival_claim_not_serial : ∃ s, Reach (step twoAdapters) (start oneLegacyTable) s ∧
    (∀ i, (s.runs i).finished = true) ∧ s.runs 0 = .threw .noSuchTable ∧
    ¬ SerialEquivalent twoAdapters oneLegacyTable s := by
  have hrun : (exec (step twoAdapters) (start oneLegacyTable) rivalClaim).map
      (fun s => (s.runs 0, s.runs 1)) = some (.threw .noSuchTable, .ended) := by decide
  obtain ⟨s, hs, hruns⟩ := Option.map_eq_some_iff.mp hrun
  obtain ⟨h0, h1⟩ := Prod.mk.inj hruns
  refine ⟨s, reach_of_exec hs, ?_, h0, ?_⟩
  · exact Fin.forall_fin_two.mpr ⟨by simp [h0, Run.finished], by simp [h1, Run.finished]⟩
  · rintro ⟨t, ht, -, hends⟩
    have h0' : t.runs 0 = .threw .noSuchTable := (hends 0 (by simp [h0, Run.finished])).trans h0
    have herror := serial_error twoAdapters_apart.coherent ht h0'
    cases herror

theorem codeployed_boots_serialize {identifier : String → ν} {vanillaMigrationsTable : String}
    {ledgerSchema : ι → String} (hn : NamesApart identifier vanillaMigrationsTable ledgerSchema)
    (c : Catalog ν τ) (s : State ι ν τ)
    (h : ReachUnder (step fun i => renamesOf identifier vanillaMigrationsTable (ledgerSchema i)) Unrivalled
      (start c) s) :
    SerialEquivalent (fun i => renamesOf identifier vanillaMigrationsTable (ledgerSchema i)) c s ∧
      (∀ i, (s.runs i).finished = false →
        ∃ j, (step (fun i => renamesOf identifier vanillaMigrationsTable (ledgerSchema i)) s
          (.query j)).isSome) ∧
      ∀ i, ReachUnder (step fun i => renamesOf identifier vanillaMigrationsTable (ledgerSchema i))
          (fun s a => Unrivalled s a ∧ a ≠ .fails i ∧ a ≠ .commitLost i) (start c) s →
        (s.runs i).failing = false := by
  have hc := hn.coherent
  refine ⟨serialEquivalent_of_reachUnder hc h, fun i hi => ?_, fun i hi => not_failing hc hi⟩
  exact (inv_of_reachUnder hc h).progress hc (fun _ _ => rfl) hi

/-- The second adapter connects while the first one runs, and looks at the tables after it. -/
theorem later_boot_serializes : ∃ s, s.runs 0 = .ended ∧ s.runs 1 = .ended ∧
    SerialEquivalent twoAdapters oneLegacyTable s := by
  have hrun : (exec (guarded (step twoAdapters) Unrivalled) (start oneLegacyTable)
      (List.replicate 7 (.query 0) ++ List.replicate 2 (.query 1) ++ List.replicate 3 (.query 0) ++
        List.replicate 5 (.query 1))).map (fun s => (s.runs 0, s.runs 1)) = some (.ended, .ended) := by
    decide
  obtain ⟨s, hs, hruns⟩ := Option.map_eq_some_iff.mp hrun
  obtain ⟨h0, h1⟩ := Prod.mk.inj hruns
  exact ⟨s, h0, h1, (codeployed_boots_serialize twoAdapters_apart oneLegacyTable s
    (reachUnder_of_exec hs)).1⟩

end FinP2PAdapter.Migration
